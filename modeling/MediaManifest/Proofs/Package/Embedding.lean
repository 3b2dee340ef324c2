import MediaManifest.Proofs.Package.Renaming

/-!
# Generators inside others

A map between generators that commutes with drawing and reserving (`Embeds`)
takes every merge of the one to the same merge of the other.  A sequential
generator stays what it is as a source of identifiers, so what is known of
merges that number elements holds of packages that draw from such a source.
-/

namespace MediaManifest

open Generator (reserveAll)

/-- The map `f` commutes with drawing and reserving. -/
structure Generator.Embeds {γ δ : Type} [Generator γ] [Generator δ] (f : γ → δ) : Prop where
  next : ∀ g, Generator.next (f g) = ((Generator.next g).1, f (Generator.next g).2)
  reserve : ∀ key g, Generator.reserve key (f g) = f (Generator.reserve key g)

theorem Source.embeds_sequential : Generator.Embeds Source.sequential where
  next _ := rfl
  reserve _ _ := rfl

theorem Generator.Embeds.reserveAll {γ δ : Type} [Generator γ] [Generator δ] {f : γ → δ}
    (hf : Generator.Embeds f) (keys : List String) (g : γ) :
    reserveAll keys (f g) = f (reserveAll keys g) := by
  induction keys generalizing g with
  | nil => rfl
  | cons key keys ih => rw [reserveAll_cons, reserveAll_cons, hf.reserve, ih]

namespace Roster

variable {γ δ : Type} {f : γ → δ}

/-- The roster `r` with the generator that `f` makes of its own. -/
def mapGenerator (f : γ → δ) (r : Roster γ) : Roster δ :=
  ⟨r.identifier, r.title, r.elements, f r.generator⟩

variable [Generator γ] [Generator δ]

theorem draw_mapGenerator (hf : Generator.Embeds f) (r : Roster γ) :
    (r.mapGenerator f).draw = r.draw.map id (mapGenerator f) := by
  simp [draw, mapGenerator, hf.next]

theorem append_mapGenerator (hf : Generator.Embeds f) (r : Roster γ) (key : String)
    (e : Element) :
    (r.mapGenerator f).append key e = (r.append key e).map id (mapGenerator f) := by
  by_cases htaken : key ∈ r.ids
  · have hthere : key ∈ (r.mapGenerator f).ids := htaken
    rw [append, append, if_pos htaken, if_pos hthere]
    rfl
  · have hthere : key ∉ (r.mapGenerator f).ids := htaken
    rw [append, append, if_neg htaken, if_neg hthere]
    simp [reserve, mapGenerator, hf.reserve]

theorem add_mapGenerator (hf : Generator.Embeds f) (r : Roster γ) (e : Element) :
    (r.mapGenerator f).add e = (r.add e).map id (mapGenerator f) := by
  unfold add
  cases e.id with
  | some key => exact append_mapGenerator hf r key e
  | none =>
      simp only [draw_mapGenerator hf]
      exact append_mapGenerator hf r.draw.2 r.draw.1 _

theorem mergeElement_mapGenerator (hf : Generator.Embeds f) (mode : Mode) (r : Roster γ)
    (e : Element) :
    (r.mapGenerator f).mergeElement mode e =
      (r.mergeElement mode e).map id (mapGenerator f) := by
  unfold mergeElement
  rw [show (r.mapGenerator f).ids = r.ids from rfl]
  cases e.id.filter (· ∈ r.ids) with
  | none =>
      simp only [add_mapGenerator hf]
      rfl
  | some key =>
      cases mode with
      | replace =>
          have hremove : ((r.mapGenerator f).removeById key).2 =
              (r.removeById key).2.mapGenerator f := rfl
          simp only [hremove, add_mapGenerator hf]
          rfl
      | skip => rfl
      | merge =>
          simp only [add_mapGenerator hf]
          rfl
      | fail => rfl

theorem mergeElements_mapGenerator (hf : Generator.Embeds f) (mode : Mode) (r : Roster γ)
    (es : List Element) :
    (r.mapGenerator f).mergeElements mode es =
      (r.mergeElements mode es).map id (mapGenerator f) := by
  induction es generalizing r with
  | nil => rfl
  | cons e es ih =>
      rw [mergeElements, mergeElements, mergeElement_mapGenerator hf]
      rcases r.mergeElement mode e with ⟨answer, after⟩
      cases answer with
      | error error => rfl
      | ok outcome =>
          simp only [Prod.map_apply, id_eq, ih]
          rfl

theorem primed_mapGenerator (hf : Generator.Embeds f) (mode : Mode) (r : Roster γ)
    (keys : List String) :
    (r.mapGenerator f).primed mode keys = (r.primed mode keys).mapGenerator f := by
  unfold primed
  split
  · simp [mapGenerator, hf.reserveAll]
  · rfl

end Roster

namespace Package

open Element (clashes relabelAll)

variable {δ : Type} [Generator δ] {dest : Package Source} {src : Package δ} {g : Sequential}

omit [Generator δ] in
/-- A merge that renames succeeds on a package `dest` that draws from a sequential source `g`, if
the numbering covers `dest` and has room for the clashes with `src`. -/
theorem merge_of_sequential (hdest : dest.slots.Coherent) (hsrc : src.slots.Coherent)
    (hgenerator : dest.generator = .sequential g) (hcovers : ∀ key ∈ dest.ids, g.Covers key)
    (hroom : (reserveAll src.ids g).HasRoom (src.elements.countP (clashes dest.ids))) :
    ∃ outcomes after, dest.merge .merge src = (.ok ⟨.merge, outcomes⟩, after) ∧
      after.elements = dest.elements ++
        (relabelAll dest.ids (reserveAll src.ids g) src.elements).1 ∧
      after.slots.Coherent := by
  let r : Roster Sequential := ⟨dest.identifier, dest.title, dest.elements, g⟩
  have hr : dest.roster = r.mapGenerator .sequential := by
    rw [roster, hgenerator]
    rfl
  have hpending : Roster.Pending dest.ids (r.primed .merge src.ids) src.elements := {
    known := fun e he key hid =>
      Sequential.remembers_covers.reserveAll src.ids (hcovers key (mem_ids_iff.mpr ⟨e, he, hid⟩))
    covered := fun e he key hid =>
      Sequential.remembers_covers.reservedAll (mem_ids_iff.mpr ⟨e, he, hid⟩)
    identified := hsrc.identified
    distinct := hsrc.pairwise_ne
    agree := fun _ _ _ _ => Iff.rfl
    room := hroom }
  obtain ⟨outcomes, hloop⟩ := hpending.mergeElements
  have hmapped : (dest.roster.primed .merge src.ids).mergeElements .merge src.elements =
      (.ok outcomes,
        ((r.primed .merge src.ids).extend
          (relabelAll dest.ids (r.primed .merge src.ids).generator src.elements)).mapGenerator
          .sequential) := by
    rw [hr, Roster.primed_mapGenerator Source.embeds_sequential,
      Roster.mergeElements_mapGenerator Source.embeds_sequential, hloop]
    rfl
  have hmodel := refines_merge hdest .merge src
  rw [Roster.merge_of_mergeElements rfl hmapped] at hmodel
  obtain ⟨after, hmerge, hroster, hcoherent⟩ := hmodel.exists_eq
  exact ⟨outcomes, after, hmerge, congrArg Roster.elements hroster, hcoherent⟩

end Package

end MediaManifest
