import Mathlib
import MediaManifest.Proofs.Package.Embedding
import MediaManifest.Proofs.Package.Filling
import MediaManifest.Proofs.Package.Overlap
import MediaManifest.Proofs.Workspace.Moves

/-!
# Fresh identifiers in a workspace

Whatever packages share a sequential source, and whatever is done with them in
turn, the next number of the source has never been held by a package that drew
from it.  So a package that asks the source for an identifier is `Supplied`: it
is never refused, until the numbers run out.
-/

namespace MediaManifest

open Generator (reserveAll)

/-! ## Operations that draw once -/

namespace Roster

variable {γ : Type} [Generator γ] {r : Roster γ} {e : Element}

theorem add_of_none (hid : e.id = none) (hfree : (Generator.next r.generator).1 ∉ r.ids) :
    r.add e = (.ok (Generator.next r.generator).1,
      r.extend ([e.withId (Generator.next r.generator).1],
        Generator.reserve (Generator.next r.generator).1 (Generator.next r.generator).2)) := by
  have hfill := Element.fill_of_none r.generator hid
  have hdrawn : (Element.fill r.generator e).1.id = some (Generator.next r.generator).1 := by
    rw [hfill]
    rfl
  rw [add_of_free hdrawn hfree, hfill]

/-- An `edit` that clears the identifier of `e` leaves the element in its place under the next
drawn one, if that one is free. -/
theorem editElement_of_cleared {key : String} {edit : Element → Element}
    (hget : r.get? key = some e) (hid : (edit e).id = none)
    (hfree : (Generator.next r.generator).1 ∉ r.ids) :
    r.editElement key edit =
      (.ok true, (r.draw.2.substitute key
        ((edit e).withId (Generator.next r.generator).1)).reserve
          (Generator.next r.generator).1) := by
  have hdrawn : r.draw.1 ∉ r.draw.2.ids := hfree
  rw [editElement, hget]
  simp only [hid]
  rw [settle, if_neg hdrawn]
  rfl

end Roster

/-! ## Merges that draw nothing -/

namespace Package

variable {γ δ : Type} [Generator γ] {dest : Package γ} {src : Package δ}

/-- A merge of `src` into `dest` that does not rename never finds an identifier taken that it has
to store. -/
theorem merge_ne_duplicateElement (hdest : dest.slots.Coherent) (hsrc : src.slots.Coherent)
    {mode : Mode} (hmode : mode ≠ .merge) (key : String) :
    (dest.merge mode src).1 ≠ .error (.duplicateElement key) := by
  have hawaits := awaits_of_coherent hsrc dest
  have hmodel := refines_merge hdest mode src
  intro herror
  cases mode with
  | merge => exact hmode rfl
  | replace =>
      rw [Roster.merge_of_mergeElements (r := dest.roster) rfl hawaits.mergeElements_replace]
        at hmodel
      cases herror.symm.trans hmodel.answer
  | skip =>
      rw [Roster.merge_of_mergeElements (r := dest.roster) rfl hawaits.mergeElements_skip]
        at hmodel
      cases herror.symm.trans hmodel.answer
  | fail =>
      by_cases hshared : ∃ other ∈ src.ids, other ∈ dest.ids
      · obtain ⟨_, other, _, -, -, -, hfirst⟩ := exists_firstConflict hdest hshared
        have hrefusal : refusal? .fail dest src.ids = some other := by
          rw [refusal?, if_pos rfl, hfirst]
        rw [merge_of_refusal hrefusal] at herror
        cases herror
      · obtain ⟨after, hmerge, -⟩ := merge_of_disjoint hdest hsrc .fail fun other htaken hmem =>
          hshared ⟨other, hmem, htaken⟩
        rw [hmerge] at herror
        cases herror

end Package

namespace Workspace

open Element (clashes relabelAll)

variable {w : Workspace} {name : String} {p : Package Nat} {g : Sequential}
  {held : String → Prop}

/-- A package that drew from the source `n` held the identifier `key` at the beginning or after
one of the `moves`. -/
def EverHeld (w : Workspace) (moves : List Move) (n : Nat) (key : String) : Prop :=
  ∃ front, front <+: moves ∧ (w.run front).Holds n key

/-- An identifier `key` that was ever held is still covered. -/
theorem Sound.covers_of_everHeld (h : w.Sound) {moves : List Move} {n : Nat} {key : String}
    (hheld : w.EverHeld moves n key) : ((w.run moves).source n).Covers key := by
  obtain ⟨front, ⟨rest, rfl⟩, hholds⟩ := hheld
  have hthen := (h.run front).covers n key hholds
  rw [run_append]
  exact Source.settles_covers.toRemembers.leads (leads_run (w.run front) rest n) hthen

/-- What a package `p` gets from a sequential source `g`.  The next number was not `held`; adding
an element without an identifier and clearing the identifier of an element give it out; and merges
succeed in every mode, as far as free identifiers are concerned, and rename to identifiers that
were not `held` either. -/
structure Supplied (w : Workspace) (held : String → Prop) (p : Package Nat) (g : Sequential) :
    Prop where
  fresh : g.HasRoom 1 → ¬ held (Generator.next g).1
  add : ∀ e, e.id = none → g.HasRoom 1 →
    ∃ after, (w.equip p).add e = (.ok (Generator.next g).1, after) ∧
      after.elements = p.elements ++ [e.withId (Generator.next g).1]
  updateElement : ∀ e, e.id = none → g.HasRoom 1 →
    ∃ after, (w.equip p).updateElement e = (.ok (Generator.next g).1, after) ∧
      after.elements = p.elements ++ [e.withId (Generator.next g).1]
  editElement : ∀ old edit e, p.get? old = some e → (edit e).id = none → g.HasRoom 1 →
    ∃ after, (w.equip p).editElement old edit = (.ok true, after) ∧
      after.elements = p.elements.map fun x =>
        if x.id = some old then (edit e).withId (Generator.next g).1 else x
  merge : ∀ entry ∈ w.packages,
    (reserveAll entry.2.ids g).HasRoom (entry.2.elements.countP (clashes p.ids)) →
    ∃ outcomes images after,
      (w.equip p).merge .merge entry.2 = (.ok ⟨.merge, outcomes⟩, after) ∧
      after.elements = p.elements ++ images ∧
      after.elements.Pairwise (fun a b => a.id ≠ b.id) ∧
      List.Forall₂
        (fun e image =>
          if e.clashes p.ids then
            ∃ new, image = e.withId new ∧ ¬ held new ∧ new ∉ entry.2.ids
          else image = e)
        entry.2.elements images
  merge_others : ∀ entry ∈ w.packages, ∀ mode ≠ .merge, ∀ key,
    ((w.equip p).merge mode entry.2).1 ≠ .error (.duplicateElement key)

/-- The next number has not been `held` if `g` covers all that was. -/
theorem not_held_next (hheld : ∀ key, held key → g.Covers key) (hroom : g.HasRoom 1) :
    ¬ held (Generator.next g).1 := by
  intro hnext
  have hnew : ¬ g.Covers (Generator.next g).1 :=
    hroom.not_covers (Nat.lt_succ_self _) (Nat.le_refl _)
  exact hnew (hheld _ hnext)

theorem next_not_mem_ids (hcovers : ∀ key ∈ p.ids, g.Covers key) (hroom : g.HasRoom 1) :
    (Generator.next g).1 ∉ p.ids :=
  not_held_next hcovers hroom

theorem next_equip (hsource : w.source p.generator = .sequential g) :
    (Generator.next (w.equip p).generator).1 = (Generator.next g).1 := by
  rw [equip, hsource]
  rfl

theorem exists_add (hcoherent : p.slots.Coherent)
    (hsource : w.source p.generator = .sequential g) (hcovers : ∀ key ∈ p.ids, g.Covers key)
    (hroom : g.HasRoom 1) {e : Element} (hid : e.id = none) :
    ∃ after, (w.equip p).add e = (.ok (Generator.next g).1, after) ∧
      after.elements = p.elements ++ [e.withId (Generator.next g).1] := by
  have hnext := next_equip hsource
  have hfree : (Generator.next (w.equip p).generator).1 ∉ (w.equip p).roster.ids := by
    rw [hnext]
    exact next_not_mem_ids hcovers hroom
  have hmodel := Package.refines_add (p := w.equip p) hcoherent e
  rw [Roster.add_of_none hid hfree, Package.generator_roster, hnext] at hmodel
  obtain ⟨after, hadd, hroster, -⟩ := hmodel.exists_eq
  exact ⟨after, hadd, congrArg Roster.elements hroster⟩

theorem exists_editElement (hcoherent : p.slots.Coherent)
    (hsource : w.source p.generator = .sequential g) (hcovers : ∀ key ∈ p.ids, g.Covers key)
    (hroom : g.HasRoom 1) {old : String} {edit : Element → Element} {e : Element}
    (hget : p.get? old = some e) (hid : (edit e).id = none) :
    ∃ after, (w.equip p).editElement old edit = (.ok true, after) ∧
      after.elements = p.elements.map fun x =>
        if x.id = some old then (edit e).withId (Generator.next g).1 else x := by
  have hnext := next_equip hsource
  have hfree : (Generator.next (w.equip p).generator).1 ∉ (w.equip p).roster.ids := by
    rw [hnext]
    exact next_not_mem_ids hcovers hroom
  have hfound : (w.equip p).roster.get? old = some e := by
    rw [← Package.get?_eq (p := w.equip p) hcoherent old]
    exact hget
  have hmodel := Package.refines_editElement (p := w.equip p) hcoherent old edit
  rw [Roster.editElement_of_cleared hfound hid hfree, Package.generator_roster, hnext] at hmodel
  obtain ⟨after, hedit, hroster, -⟩ := hmodel.exists_eq
  exact ⟨after, hedit, congrArg Roster.elements hroster⟩

/-- What a merge of `es` that renames stores is new to all that was `held`, and to `es`. -/
theorem forall₂_relabelAll_of_held (hheld : ∀ key, held key → g.Covers key)
    {taken : List String} {es : List Element}
    (hroom : (reserveAll (es.filterMap Element.id) g).HasRoom (es.countP (clashes taken))) :
    List.Forall₂
      (fun e image =>
        if e.clashes taken then
          ∃ new, image = e.withId new ∧ ¬ held new ∧ new ∉ es.filterMap Element.id
        else image = e)
      es (relabelAll taken (reserveAll (es.filterMap Element.id) g) es).1 := by
  refine (Element.forall₂_relabelAll _ _ _).imp ?_
  intro e image himage
  split at himage
  · next hclash =>
    obtain ⟨n, hlow, hhigh, heq⟩ := himage
    have hnew := hroom.not_covers hlow hhigh
    rw [if_pos hclash]
    refine ⟨_, heq, ?_, ?_⟩
    · intro hbefore
      exact hnew (Sequential.remembers_covers.reserveAll _ (hheld _ hbefore))
    · intro hmem
      exact hnew (Sequential.remembers_covers.reservedAll hmem)
  · next hclash => rwa [if_neg hclash]

theorem Sound.supplied (h : w.Sound) (hp : w.package? name = some p)
    (hsource : w.source p.generator = .sequential g)
    (hheld : ∀ key, held key → g.Covers key) : Supplied w held p g := by
  have hmem := mem_of_package? hp
  have hcoherent := h.coherent _ hmem
  have hequip : (w.equip p).slots.Coherent := hcoherent
  have hcovers : ∀ key ∈ p.ids, g.Covers key := by
    intro key hkey
    have hsaid := h.covers p.generator key ⟨_, hmem, rfl, hkey⟩
    rw [hsource] at hsaid
    exact hsaid
  refine ⟨not_held_next hheld, ?_, ?_, ?_, ?_, ?_⟩
  · intro e hid hroom
    exact exists_add hcoherent hsource hcovers hroom hid
  · intro e hid hroom
    have hremove : ((w.equip p).remove e).2 = w.equip p := by
      rw [Package.remove, hid]
    rw [Package.updateElement, hremove]
    exact exists_add hcoherent hsource hcovers hroom hid
  · intro old edit e hget hid hroom
    exact exists_editElement hcoherent hsource hcovers hroom hget hid
  · intro entry hentry hroom
    obtain ⟨outcomes, after, hmerge, helements, hafter⟩ := Package.merge_of_sequential
      hequip (h.coherent entry hentry) hsource hcovers hroom
    exact ⟨outcomes, _, after, hmerge, helements, hafter.pairwise_ne,
      forall₂_relabelAll_of_held hheld hroom⟩
  · intro entry hentry mode hmode key
    exact Package.merge_ne_duplicateElement hequip (h.coherent entry hentry) hmode key

/-- After any `moves` of any packages, a package `p` that draws from a sequential source `g` is
`Supplied` with identifiers that no package drawing from this source holds or `EverHeld`. -/
theorem run_supplied (sources : Array Source) (moves : List Move)
    (hp : (run ⟨sources, []⟩ moves).package? name = some p)
    (hsource : (run ⟨sources, []⟩ moves).source p.generator = .sequential g) :
    Supplied (run ⟨sources, []⟩ moves) (EverHeld ⟨sources, []⟩ moves p.generator) p g := by
  have hsound := sound_of_no_packages sources
  refine (hsound.run moves).supplied hp hsource ?_
  intro key hheld
  have hcovers := hsound.covers_of_everHeld hheld
  rw [hsource] at hcovers
  exact hcovers

/-- Four packages with two sources.  Two hold numbers written in other ways, one of them was
cleared since, and one came to the source when it was filled. -/
theorem run_supplied_of_shared_source :
    let e := Element.ofBody .catalog
    let sources : Array Source := #[.sequential ⟨"x", 0⟩, .listed ⟨["y"]⟩]
    let moves : List Move :=
      [.found "a" none none 0, .perform "a" (.add (e.withId "x-007")), .copy "a" "b",
        .perform "a" .clear, .found "c" none none 1, .perform "c" (.add (e.withId "x-+9")),
        .share "c" 0, .merge "a" "b" .fail, .perform "b" (.add e)]
    ∃ p after, (run ⟨sources, []⟩ moves).package? "a" = some p ∧
      (run ⟨sources, []⟩ moves).source p.generator = .sequential ⟨"x", 10⟩ ∧
      ¬ EverHeld ⟨sources, []⟩ moves p.generator "x-11" ∧
      ((run ⟨sources, []⟩ moves).equip p).add e = (.ok "x-11", after) ∧
      after.elements = p.elements ++ [e.withId "x-11"] := by
  intro e sources moves
  let a : Package Nat := ⟨none, none, Slots.empty.push "x-007" (e.withId "x-007"), 0⟩
  let b : Package Nat := ⟨none, none, a.slots.push "x-10" (e.withId "x-10"), 0⟩
  let c : Package Nat := ⟨none, none, Slots.empty.push "x-+9" (e.withId "x-+9"), 0⟩
  have hid : e.id = none := rfl
  have hfirst : Sequential.reserve "x-007" ⟨"x", 0⟩ = ⟨"x", 7⟩ := by decide
  have hsecond : Sequential.reserve "x-+9" ⟨"x", 7⟩ = ⟨"x", 9⟩ := by decide
  have hagain : Sequential.reserve "x-007" ⟨"x", 9⟩ = ⟨"x", 9⟩ := by decide
  have hnext : Sequential.next ⟨"x", 9⟩ = ("x-10", ⟨"x", 10⟩) := by decide
  have hdrawn : Sequential.reserve "x-10" ⟨"x", 10⟩ = ⟨"x", 10⟩ := by decide
  have hrun : run ⟨sources, []⟩ moves =
      ⟨#[.sequential ⟨"x", 10⟩, .listed ⟨["y"]⟩], [("c", c), ("a", a), ("b", b)]⟩ := by
    simp [run, play, alter, act, share, store, package?, equip, source, sources, moves, a, b, c,
      Package.perform, Package.add, Package.insert, Package.draw, Package.contains,
      Package.withGenerator, Package.ids, Package.elements, Package.clear, Package.merge,
      Package.firstConflict?, Package.mergeElements, Package.mergeElement, Package.reportAs,
      Slots.contains, Slots.push, Slots.empty, Slots.elements, Element.withId,
      Generator.reserve, Generator.next, Source.reserve, Source.next, List.lookup,
      Option.filter, Except.map, hid, hfirst, hsecond, hagain, hnext, hdrawn]
  have hp : (run ⟨sources, []⟩ moves).package? "a" = some a := by
    rw [hrun]
    rfl
  have hsource : (run ⟨sources, []⟩ moves).source a.generator = .sequential ⟨"x", 10⟩ := by
    rw [hrun]
    rfl
  have hroom : Sequential.HasRoom ⟨"x", 10⟩ 1 := by
    unfold Sequential.HasRoom
    decide
  have hsupplied := run_supplied sources moves hp hsource
  obtain ⟨after, hadd, helements⟩ := hsupplied.add e hid hroom
  exact ⟨a, after, hp, hsource, hsupplied.fresh hroom, hadd, helements⟩

end Workspace

end MediaManifest
