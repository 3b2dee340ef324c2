import MediaManifest.Proofs.Package.Lineage
import MediaManifest.Proofs.Package.Memory
import MediaManifest.Proofs.Package.Refilling

/-!
# Identifiers given too early

A package tells its generator of an identifier when the element that brings it
is added, and not before.  While elements are replaced, one that lacks an
identifier may therefore be given the one that another element further on in the
list brings (`Anticipates`), which is then refused.

If no identifier is brought twice, a sequential generator causes no other
refusal.  It causes none if it covers all identifiers of the list beforehand, as
the generators do of decodings and of merges that rename.
-/

namespace MediaManifest

open Generator (next)

namespace Element

variable {γ : Type} [Generator γ] {g : γ} {e : Element} {es : List Element}

/-- An element of `es` that lacks an identifier is given one that an element further on brings. -/
def Anticipates (g : γ) (es : List Element) : Prop :=
  ∃ front e middle later back, es = front ++ e :: (middle ++ later :: back) ∧
    e.id = none ∧ later.id = some (next (fillAll g front).2).1

theorem Anticipates.not_pairwise (h : Anticipates g es) :
    ¬ (fillAll g es).1.Pairwise fun a b => a.id ≠ b.id := by
  obtain ⟨front, e, middle, later, back, rfl, hnone, hlater⟩ := h
  rw [fillAll_append, fillAll, fillAll_append, fillAll, fill_of_some _ hlater,
    fill_of_none _ hnone]
  intro hdistinct
  have hrest := (List.pairwise_append.mp hdistinct).2.1
  have hfirst := (List.pairwise_cons.mp hrest).1
  exact hfirst later (List.mem_append_right _ List.mem_cons_self) hlater.symm

theorem stem_fill (g : Sequential) (e : Element) : (fill g e).2.stem = g.stem := by
  cases hid : e.id with
  | some key => rw [fill_of_some g hid, Sequential.stem_reserve]
  | none => rw [fill_sequential_of_none g hid, Sequential.stem_next]

theorem issued_le_fill (g : Sequential) (e : Element) : g.issued ≤ (fill g e).2.issued := by
  cases hid : e.id with
  | some key =>
      rw [fill_of_some g hid, Sequential.issued_reserve]
      exact Nat.le_max_left _ _
  | none =>
      rw [fill_sequential_of_none g hid, Sequential.issued_next]
      exact Nat.le_succ _

/-- With the numbers of `g`, elements that lack an identifier get ones that were not issued
before, and all others stay as they are. -/
theorem forall₂_fillAll (g : Sequential) (es : List Element) :
    List.Forall₂
      (fun e image =>
        if e.id = none then
          ∃ n, g.issued < n ∧ image = e.withId (Sequential.identifier g.stem n)
        else image = e)
      es (fillAll g es).1 := by
  induction es generalizing g with
  | nil => exact .nil
  | cons e es ih =>
      refine .cons ?_ ((ih _).imp ?_)
      · cases hid : e.id with
        | some key => rw [if_neg (Option.some_ne_none key), fill_of_some g hid]
        | none =>
            rw [if_pos rfl, fill_of_none g hid]
            exact ⟨g.issued + 1, Nat.lt_succ_self _, rfl⟩
      · intro x image himage
        split at himage
        · next hx =>
          obtain ⟨n, hlow, heq⟩ := himage
          rw [stem_fill] at heq
          rw [if_pos hx]
          exact ⟨n, Nat.lt_of_le_of_lt (issued_le_fill g e) hlow, heq⟩
        · next hx => rwa [if_neg hx]

theorem issued_le_fillAll (g : Sequential) (es : List Element) :
    g.issued ≤ (fillAll g es).2.issued := by
  induction es generalizing g with
  | nil => exact Nat.le_refl _
  | cons e es ih => exact Nat.le_trans (issued_le_fill g e) (ih _)

/-- If no two elements bring the same identifier, none behind `d` brings that of `d`. -/
theorem id_ne_of_nodup {front middle back : List Element} {d later : Element} {key : String}
    (h : ((front ++ d :: (middle ++ later :: back)).filterMap Element.id).Nodup)
    (hd : d.id = some key) : later.id ≠ some key := by
  intro hlater
  rw [List.filterMap_append, List.filterMap_cons_some hd] at h
  have hfirst := (List.nodup_cons.mp (List.nodup_append.mp h).2.1).1
  apply hfirst
  exact List.mem_filterMap.mpr ⟨later, List.mem_append_right _ List.mem_cons_self, hlater⟩

end Element

namespace Package

open Element (Anticipates fill fillAll)

variable {p after : Package Sequential} {es : List Element} {key : String}

/-- Whenever the elements of `p` are replaced by those of `es` as far as one that lacks an
identifier, there is a number left for it. -/
def Lasting (p : Package Sequential) (es : List Element) : Prop :=
  ∀ front e back grown, es = front ++ e :: back → e.id = none →
    p.replaceElements front = (.ok (), grown) → grown.generator.HasRoom 1

theorem generator_of_replaceElements (hok : p.replaceElements es = (.ok (), after)) :
    after.generator = (fillAll p.generator es).2 :=
  congrArg Roster.generator (roster_of_replaceElements hok).1

/-- A generator whose last number is not reached by filling all of `es` lasts. -/
theorem lasting_of_issued_lt (h : (fillAll p.generator es).2.issued < 2 ^ 64 - 1) :
    p.Lasting es := by
  rintro front e back grown rfl - hok j hj
  rw [Element.fillAll_append] at h
  have hle := Element.issued_le_fillAll (fillAll p.generator front).2 (e :: back)
  have hfront := Nat.lt_of_le_of_lt hle h
  rw [generator_of_replaceElements hok]
  omega

/-- The numbering is past every identifier `key` that the new elements have. -/
theorem covers_of_mem_replaced (hok : p.replaceElements es = (.ok (), after))
    (hkey : key ∈ after.ids) : after.generator.Covers key := by
  have hrun : p.clear.2.run [.replaceElements es] = after := congrArg Prod.snd hok
  have hknown := known_run (p := p.clear.2) Slots.coherent_empty
    (fun _ he => absurd he List.not_mem_nil) Sequential.remembers_covers [.replaceElements es]
  rw [hrun] at hknown
  exact hknown.of_mem_ids hkey

/-- The numbering stays past each `key` that it was past before. -/
theorem covers_of_replaceElements (hok : p.replaceElements es = (.ok (), after))
    (hcovers : p.generator.Covers key) : after.generator.Covers key := by
  have hafter : (p.clear.2.addAll es).2 = after := congrArg Prod.snd hok
  have hleads := leads_addAll p.clear.2 es
  rw [hafter] at hleads
  exact Sequential.remembers_covers.leads hleads hcovers

/-- If no identifier is brought twice, all of `es` are added, or an element `later` comes whose
own identifier was given to an earlier one `e`. -/
theorem replaceElements_or_anticipated (hnodup : (es.filterMap Element.id).Nodup)
    (hlasting : p.Lasting es) :
    (∃ after, p.replaceElements es = (.ok (), after)) ∨
      ∃ front e middle later back grown, es = front ++ e :: (middle ++ later :: back) ∧
        e.id = none ∧ p.replaceElements front = (.ok (), grown) ∧
        later.id = some (next grown.generator).1 := by
  rcases hanswer : p.replaceElements es with ⟨error | done, after⟩
  case ok => exact .inl ⟨after, rfl⟩
  obtain ⟨front, later, key, grown, hrepeats, hfront, -⟩ := exists_repeats_of_error hanswer
  obtain ⟨back, rfl⟩ := hrepeats.order
  have hfilled := hrepeats.id
  rw [← generator_of_replaceElements hfront] at hfilled
  obtain ⟨x, hx, hid⟩ := hrepeats.taken
  cases hlater : later.id with
  | none =>
      -- The number drawn last is past all identifiers of the elements before.
      rw [Element.fill_of_none _ hlater] at hfilled
      obtain rfl := Option.some.inj hfilled
      have hroom := hlasting front later back grown rfl hlater hfront
      have hmem : (next grown.generator).1 ∈ grown.ids := by
        rw [mem_ids_iff, (refilled_of_replaceElements hfront).elements]
        exact ⟨x, hx, hid⟩
      have hcovers := covers_of_mem_replaced hfront hmem
      exact absurd hcovers (hroom.not_covers (Nat.lt_succ_self _) (Nat.le_refl _))
  | some own =>
      rw [Element.fill_of_some _ hlater, hlater] at hfilled
      obtain rfl := Option.some.inj hfilled
      obtain ⟨first, d, middle, rfl, rfl⟩ := Element.exists_cut_of_mem_fillAll hx
      rw [List.append_assoc, List.cons_append] at hnodup ⊢
      cases hd : d.id with
      | some brought =>
          rw [Element.fill_of_some _ hd] at hid
          exact absurd hlater (Element.id_ne_of_nodup hnodup hid)
      | none =>
          obtain ⟨before, hbefore⟩ := exists_replaceElements_iff.mpr
            (Element.pairwise_fillAll_prefix hrepeats.distinct)
          rw [Element.fill_of_none _ hd, ← generator_of_replaceElements hbefore] at hid
          exact .inr ⟨first, d, middle, later, back, before, rfl, hd, hbefore,
            hlater.trans hid.symm⟩

/-- Elements `es` no two of which bring the same identifier replace those of `p` if and only if
the generator never `Anticipates` one of theirs: none that lacks an identifier is given the one
that an element further on brings.  The package `after` then holds exactly these elements, in
order and under different identifiers: their own, or numbers that were not issued before.  This is
so whenever the numbering `Covers` all identifiers of `es` from the beginning. -/
theorem replaceElements_succeeds_iff (hnodup : (es.filterMap Element.id).Nodup)
    (hlasting : p.Lasting es) :
    ((∃ after, p.replaceElements es = (.ok (), after)) ↔ ¬ Anticipates p.generator es) ∧
    (∀ after, p.replaceElements es = (.ok (), after) →
      ∃ images, Refilled p after images ∧
        List.Forall₂
          (fun e image =>
            if e.id = none then
              ∃ n, p.generator.issued < n ∧
                image = e.withId (Sequential.identifier p.generator.stem n)
            else image = e)
          es images) ∧
    ((∀ key ∈ es.filterMap Element.id, p.generator.Covers key) →
      ∃ after, p.replaceElements es = (.ok (), after)) := by
  have hcases := replaceElements_or_anticipated hnodup hlasting
  refine ⟨⟨?_, ?_⟩, ?_, ?_⟩
  · intro hok hanticipates
    exact hanticipates.not_pairwise (exists_replaceElements_iff.mp hok)
  · intro hnever
    apply hcases.resolve_right
    rintro ⟨front, e, middle, later, back, grown, horder, hnone, hfront, hlater⟩
    rw [generator_of_replaceElements hfront] at hlater
    exact hnever ⟨front, e, middle, later, back, horder, hnone, hlater⟩
  · intro after hok
    exact ⟨_, refilled_of_replaceElements hok, Element.forall₂_fillAll p.generator es⟩
  · intro hcovers
    apply hcases.resolve_right
    rintro ⟨front, e, middle, later, back, grown, rfl, hnone, hfront, hlater⟩
    have hroom := hlasting front e _ grown rfl hnone hfront
    have hmem : later ∈ front ++ e :: (middle ++ later :: back) := by simp
    have hknown := hcovers _ (List.mem_filterMap.mpr ⟨later, hmem, hlater⟩)
    have hstill := covers_of_replaceElements hfront hknown
    exact hroom.not_covers (Nat.lt_succ_self _) (Nat.le_refl _) hstill

/-- The package was given one number, and the list brings the next one or that one again. -/
theorem replaceElements_succeeds_iff_of_brought_number :
    let e := Element.ofBody .catalog
    let p := (⟨some "mp", none, .empty, .ofStem "x"⟩ : Package Sequential).run
      [.add (e.withId "old"), .add e]
    Reachable p ∧ p.elements = [e.withId "old", e.withId "x-1"] ∧
      (¬ ∃ after, p.replaceElements [e, e.withId "x-2"] = (.ok (), after)) ∧
      ∃ after n, p.replaceElements [e, e.withId "x-1"] = (.ok (), after) ∧ 1 < n ∧
        after.elements = [e.withId (Sequential.identifier "x" n), e.withId "x-1"] := by
  intro e p
  have hgenerator : p.generator = ⟨"x", 1⟩ := by
    rw [← generator_roster, roster_run Slots.coherent_empty]
    decide
  have helements : p.elements = [e.withId "old", e.withId "x-1"] := by
    rw [← elements_roster, roster_run Slots.coherent_empty]
    decide
  have hlasting (brought : String)
      (h : (fillAll (⟨"x", 1⟩ : Sequential) [e, e.withId brought]).2.issued < 2 ^ 64 - 1) :
      p.Lasting [e, e.withId brought] := by
    apply lasting_of_issued_lt
    rwa [hgenerator]
  have hnodup (brought : String) : ([e, e.withId brought].filterMap Element.id).Nodup :=
    List.pairwise_singleton _ brought
  obtain ⟨hnext, -, -⟩ :=
    replaceElements_succeeds_iff (hnodup "x-2") (hlasting "x-2" (by decide))
  obtain ⟨-, hfilled, hall⟩ :=
    replaceElements_succeeds_iff (hnodup "x-1") (hlasting "x-1" (by decide))
  refine ⟨(Reachable.new _ _ _).run _, helements, ?_, ?_⟩
  · rw [hnext, not_not, hgenerator]
    exact ⟨[], e, [], e.withId "x-2", [], rfl, rfl, rfl⟩
  · have hcovers : ∀ key ∈ [e, e.withId "x-1"].filterMap Element.id,
        p.generator.Covers key := by
      intro key hkey
      obtain rfl := List.mem_singleton.mp hkey
      rw [hgenerator]
      exact Sequential.covers_next ⟨"x", 0⟩
    obtain ⟨after, hok⟩ := hall hcovers
    obtain ⟨images, hrefilled, himages⟩ := hfilled after hok
    obtain ⟨first, rest, ⟨n, hlow, rfl⟩, hrest, rfl⟩ := List.forall₂_cons_left_iff.mp himages
    obtain ⟨second, rest, rfl, hnil, rfl⟩ := List.forall₂_cons_left_iff.mp hrest
    obtain rfl := List.forall₂_nil_left_iff.mp hnil
    rw [hgenerator] at hlow hrefilled
    exact ⟨after, n, hok, hlow, hrefilled.elements⟩

end Package

end MediaManifest
