import Mathlib.Data.List.Permutation
import MediaManifest.Proofs.Package.Memory

/-!
# Merging by renaming

A merge that renames gives a fresh identifier to every element of the source
whose identifier the target holds at the beginning.  The loop keeps an invariant
(`Pending`): the numbering of the target covers what the target holds and what
is still to come, so a drawn number is new to both.  No element is lost, and the
generator takes one step for each renamed element.
-/

namespace MediaManifest

open Generator (reserveAll)

namespace Element

variable {γ : Type} [Generator γ]

/-- The identifier of `e` is one of those `taken`. -/
def clashes (taken : List String) (e : Element) : Bool :=
  e.id.any (· ∈ taken)

/-- The element `e` of the source as a merge that renames stores it, and the generator afterwards.
-/
def relabel (taken : List String) (g : γ) (e : Element) : Element × γ :=
  if e.clashes taken then (e.withId (Generator.next g).1, (Generator.next g).2) else (e, g)

/-- Elements of the source as a merge that renames stores them one after the other. -/
def relabelAll (taken : List String) (g : γ) : List Element → List Element × γ
  | [] => ([], g)
  | e :: es =>
    ((relabel taken g e).1 :: (relabelAll taken (relabel taken g e).2 es).1,
      (relabelAll taken (relabel taken g e).2 es).2)

variable {taken : List String} {e : Element} {es : List Element} {key : String}

theorem clashes_iff (hid : e.id = some key) : e.clashes taken = true ↔ key ∈ taken := by
  rw [clashes, hid, Option.any_some, decide_eq_true_eq]

theorem relabel_of_clash (g : γ) (h : e.clashes taken = true) :
    relabel taken g e = (e.withId (Generator.next g).1, (Generator.next g).2) :=
  if_pos h

theorem relabel_of_no_clash (g : γ) (h : ¬ e.clashes taken = true) :
    relabel taken g e = (e, g) :=
  if_neg h

theorem covers_relabel {g : Sequential} (h : g.Covers key) (taken : List String)
    (e : Element) : (relabel taken g e).2.Covers key := by
  unfold relabel
  split
  · exact Sequential.remembers_covers.next h
  · exact h

/-- The generator `g` takes one step for each element of `es` that clashes. -/
theorem snd_relabelAll (taken : List String) (g : Sequential) (es : List Element) :
    (relabelAll taken g es).2 = ⟨g.stem, g.issued + es.countP (clashes taken)⟩ := by
  induction es generalizing g with
  | nil => rfl
  | cons e es ih =>
      rw [relabelAll, ih]
      by_cases hclash : e.clashes taken = true
      · rw [relabel_of_clash g hclash, List.countP_cons_of_pos hclash]
        simp only [Sequential.stem_next, Sequential.issued_next, Sequential.mk.injEq, true_and]
        omega
      · rw [relabel_of_no_clash g hclash, List.countP_cons_of_neg hclash]

/-- The generator covers each `key` that `g` covered, and all that was relabelled with it. -/
theorem covers_relabelAll {g : Sequential} (taken : List String) (es : List Element)
    (h : g.Covers key) : (relabelAll taken g es).2.Covers key := by
  intro n hnumber
  rw [snd_relabelAll] at hnumber ⊢
  exact Nat.le_trans (h n hnumber) (Nat.le_add_right _ _)

theorem covers_of_mem_relabelAll {g : Sequential} {x : Element}
    (hes : ∀ e ∈ es, ∀ key, e.id = some key → g.Covers key)
    (hx : x ∈ (relabelAll taken g es).1) (hid : x.id = some key) :
    (relabelAll taken g es).2.Covers key := by
  induction es generalizing g with
  | nil => exact absurd hx List.not_mem_nil
  | cons e es ih =>
      have hrest : ∀ y ∈ es, ∀ other, y.id = some other →
          (relabel taken g e).2.Covers other := fun y hy other hother =>
        covers_relabel (hes y (List.mem_cons_of_mem e hy) other hother) taken e
      rw [relabelAll] at hx ⊢
      rcases List.mem_cons.mp hx with rfl | hx
      · apply covers_relabelAll
        by_cases hclash : e.clashes taken = true
        · rw [relabel_of_clash g hclash] at hid ⊢
          obtain rfl := Option.some.inj hid
          exact Sequential.covers_next g
        · rw [relabel_of_no_clash g hclash] at hid ⊢
          exact hes e List.mem_cons_self key hid
      · exact ih hrest hx

/-- An element `e` that clashes gets a number after those that `g` has issued; all others stay as
they are. -/
theorem forall₂_relabelAll (taken : List String) (g : Sequential) (es : List Element) :
    List.Forall₂
      (fun e image =>
        if e.clashes taken then
          ∃ n, g.issued < n ∧ n ≤ g.issued + es.countP (clashes taken) ∧
            image = e.withId (Sequential.identifier g.stem n)
        else image = e)
      es (relabelAll taken g es).1 := by
  induction es generalizing g with
  | nil => exact .nil
  | cons e es ih =>
      rw [relabelAll]
      by_cases hclash : e.clashes taken = true
      · rw [relabel_of_clash g hclash, List.countP_cons_of_pos hclash]
        refine .cons ?_ ((ih _).imp ?_)
        · rw [if_pos hclash]
          exact ⟨g.issued + 1, by omega, by omega, rfl⟩
        · intro x image himage
          split at himage
          · next hx =>
            obtain ⟨n, hlow, hhigh, heq⟩ := himage
            rw [Sequential.issued_next] at hlow hhigh
            rw [if_pos hx]
            exact ⟨n, by omega, by omega, heq⟩
          · next hx => rwa [if_neg hx]
      · rw [relabel_of_no_clash g hclash, List.countP_cons_of_neg hclash]
        refine .cons ?_ (ih g)
        rw [if_neg hclash]

end Element

namespace Roster

open Element (clashes relabel relabelAll)

variable {taken : List String} {e : Element} {es : List Element} {key : String}

/-- A roster `r` between two elements of a merge that renames.  The elements `es` still to come
have identifiers of their own; the numbering covers them; and `r` holds those of their identifiers
that were `taken` at the beginning. -/
structure Pending (taken : List String) (r : Roster Sequential) (es : List Element) :
    Prop where
  known : r.Known Sequential.Covers
  covered : ∀ e ∈ es, ∀ key, e.id = some key → r.generator.Covers key
  identified : ∀ e ∈ es, ∃ key, e.id = some key
  distinct : es.Pairwise fun a b => a.id ≠ b.id
  agree : ∀ e ∈ es, ∀ key, e.id = some key → (key ∈ r.ids ↔ key ∈ taken)
  room : r.generator.HasRoom (es.countP (clashes taken))

variable {r : Roster Sequential}

/-- What is stored for the next element `e` has an identifier `new` that is neither present nor
still to come. -/
theorem Pending.fresh (h : Pending taken r (e :: es)) :
    ∃ new, (relabel taken r.generator e).1.id = some new ∧ new ∉ r.ids ∧
      (∀ x ∈ es, x.id ≠ some new) ∧ (relabel taken r.generator e).2.Covers new := by
  by_cases hclash : e.clashes taken = true
  · have hroom := h.room
    rw [List.countP_cons_of_pos hclash] at hroom
    -- What is present and what is still to come is covered; the next number is not.
    have hnew : ¬ r.generator.Covers (Generator.next r.generator).1 :=
      hroom.not_covers (Nat.lt_succ_self _) (by omega)
    rw [Element.relabel_of_clash r.generator hclash]
    refine ⟨(Generator.next r.generator).1, rfl, ?_, ?_, Sequential.covers_next _⟩
    · intro hmem
      exact hnew (h.known.of_mem_ids hmem)
    · intro x hx hid
      exact hnew (h.covered x (List.mem_cons_of_mem e hx) _ hid)
  · obtain ⟨key, hid⟩ := h.identified e List.mem_cons_self
    rw [Element.relabel_of_no_clash r.generator hclash]
    refine ⟨key, hid, ?_, ?_, h.covered e List.mem_cons_self key hid⟩
    · rw [h.agree e List.mem_cons_self key hid, ← Element.clashes_iff hid]
      exact hclash
    · intro x hx hsame
      exact (List.pairwise_cons.mp h.distinct).1 x hx (hid.trans hsame.symm)

theorem Pending.mergeElement (h : Pending taken r (e :: es)) :
    ∃ outcome, r.mergeElement .merge e =
      (.ok outcome, r.extend ([(relabel taken r.generator e).1],
        (relabel taken r.generator e).2)) := by
  obtain ⟨key, hid⟩ := h.identified e List.mem_cons_self
  have hagree := h.agree e List.mem_cons_self key hid
  obtain ⟨new, hnew, hfree, -, hcovers⟩ := h.fresh
  by_cases hclash : e.clashes taken = true
  · have htaken : key ∈ r.ids := hagree.mpr ((Element.clashes_iff hid).mp hclash)
    rw [Element.relabel_of_clash r.generator hclash] at hnew hcovers ⊢
    obtain rfl : (Generator.next r.generator).1 = new := Option.some.inj hnew
    rw [mergeElement_of_taken hid htaken hfree]
    refine ⟨_, Prod.ext rfl ?_⟩
    simp only [extend, Roster.draw, Sequential.reserve_of_covers hcovers]
  · have hkey : key ∉ r.ids := by
      rw [hagree, ← Element.clashes_iff hid]
      exact hclash
    have hkeyCovers := h.covered e List.mem_cons_self key hid
    rw [Element.relabel_of_no_clash r.generator hclash, mergeElement_of_free .merge hid hkey]
    refine ⟨_, Prod.ext rfl ?_⟩
    simp only [extend, Sequential.reserve_of_covers hkeyCovers]

/-- Storing the next element `e` keeps the invariant. -/
theorem Pending.step (h : Pending taken r (e :: es)) :
    Pending taken
      (r.extend ([(relabel taken r.generator e).1], (relabel taken r.generator e).2)) es := by
  obtain ⟨new, hnew, -, hcoming, hcovers⟩ := h.fresh
  constructor
  · intro x hx key hid
    rcases List.mem_append.mp hx with hx | hx
    · exact Element.covers_relabel (h.known x hx key hid) taken e
    · obtain rfl := List.mem_singleton.mp hx
      obtain rfl : new = key := Option.some.inj (hnew.symm.trans hid)
      exact hcovers
  · intro x hx key hid
    exact Element.covers_relabel (h.covered x (List.mem_cons_of_mem e hx) key hid) taken e
  · intro x hx
    exact h.identified x (List.mem_cons_of_mem e hx)
  · exact (List.pairwise_cons.mp h.distinct).2
  · intro x hx key hid
    have hne : key ≠ new := by
      rintro rfl
      exact hcoming x hx hid
    rw [mem_ids_extend _ hnew, h.agree x (List.mem_cons_of_mem e hx) key hid]
    simp [hne]
  · have hroom := h.room
    by_cases hclash : e.clashes taken = true
    · rw [List.countP_cons_of_pos hclash] at hroom
      rw [Element.relabel_of_clash r.generator hclash]
      exact hroom.rest
    · rw [List.countP_cons_of_neg hclash] at hroom
      rw [Element.relabel_of_no_clash r.generator hclash]
      exact hroom

/-- The loop stores every element of `es`, in order. -/
theorem Pending.mergeElements (h : Pending taken r es) :
    ∃ outcomes, r.mergeElements .merge es =
      (.ok outcomes, r.extend (relabelAll taken r.generator es)) := by
  induction es generalizing r with
  | nil => exact ⟨[], by simp [Roster.mergeElements, extend, relabelAll]⟩
  | cons e es ih =>
      obtain ⟨outcome, hfirst⟩ := h.mergeElement
      obtain ⟨outcomes, hrest⟩ := ih h.step
      refine ⟨outcome :: outcomes, ?_⟩
      rw [mergeElements_cons_of_ok hfirst, hrest]
      exact Prod.ext rfl (extend_extend _ _ _ _)

end Roster

namespace Package

open Element (clashes relabelAll)

variable {δ : Type} [Generator δ] {dest : Package Sequential} {src : Package δ}

theorem pending_primed (hdest : Reachable dest) (hsrc : Reachable src)
    (hroom : (reserveAll src.ids dest.generator).HasRoom
      (src.elements.countP (clashes dest.ids))) :
    Roster.Pending dest.ids (dest.roster.primed .merge src.ids) src.elements where
  known e he key hid :=
    Sequential.remembers_covers.reserveAll src.ids
      (hdest.known Sequential.remembers_covers e he key hid)
  covered _ he _ hid :=
    Sequential.remembers_covers.reservedAll (mem_ids_iff.mpr ⟨_, he, hid⟩)
  identified := hsrc.coherent.identified
  distinct := hsrc.coherent.pairwise_ne
  agree _ _ _ _ := Iff.rfl
  room := hroom

omit [Generator δ] in
/-- The stored elements are those of `src`, under numbers that neither package uses where they
clash. -/
theorem forall₂_stored (hdest : Reachable dest)
    (hroom : (reserveAll src.ids dest.generator).HasRoom
      (src.elements.countP (clashes dest.ids))) :
    List.Forall₂
      (fun e image =>
        if e.clashes dest.ids then
          ∃ new, image = e.withId new ∧ new ∉ dest.ids ∧ new ∉ src.ids
        else image = e)
      src.elements
      (relabelAll dest.ids (reserveAll src.ids dest.generator) src.elements).1 := by
  refine (Element.forall₂_relabelAll _ _ _).imp ?_
  intro e image himage
  split at himage
  · next hclash =>
    obtain ⟨n, hlow, hhigh, heq⟩ := himage
    have hnew := hroom.not_covers hlow hhigh
    rw [if_pos hclash]
    refine ⟨_, heq, ?_, ?_⟩
    · intro hmem
      exact hnew (Sequential.remembers_covers.reserveAll src.ids (hdest.covers hmem))
    · intro hmem
      exact hnew (Sequential.remembers_covers.reservedAll hmem)
  · next hclash => rwa [if_neg hclash]

/-- A merge of `src` into `dest` that renames loses no element of `src` and changes none of
`dest`.  Each element `e` of `src` is stored as it is, or under an identifier `new` if `dest` held
its own one at the beginning.  The identifiers `new` are unknown to both packages and differ from
each other, and the generator takes one step for each of them, for which it has to have numbers
left (`HasRoom`). -/
theorem Reachable.merge_keeps_all (hdest : Reachable dest) (hsrc : Reachable src)
    (hroom : (reserveAll src.ids dest.generator).HasRoom
      (src.elements.countP (clashes dest.ids))) :
    ∃ outcomes images after,
      dest.merge .merge src = (.ok ⟨.merge, outcomes⟩, after) ∧
      after.elements = dest.elements ++ images ∧
      List.Forall₂
        (fun e image =>
          if e.clashes dest.ids then
            ∃ new, image = e.withId new ∧ new ∉ dest.ids ∧ new ∉ src.ids
          else image = e)
        src.elements images ∧
      images.Pairwise (fun a b => a.id ≠ b.id) ∧
      after.size = dest.size + src.size ∧
      after.generator =
        ⟨dest.generator.stem,
          (reserveAll src.ids dest.generator).issued +
            src.elements.countP (clashes dest.ids)⟩ ∧
      after.identifier = dest.identifier ∧ after.title = dest.title := by
  obtain ⟨outcomes, hloop⟩ := (pending_primed hdest hsrc hroom).mergeElements
  have hstored := forall₂_stored hdest hroom
  have hgenerator := Element.snd_relabelAll dest.ids (reserveAll src.ids dest.generator)
    src.elements
  have hmodel := refines_merge hdest.coherent .merge src
  rw [Roster.merge_of_mergeElements rfl hloop] at hmodel
  obtain ⟨after, hmerge, hafter, hcoherent⟩ := hmodel.exists_eq
  have helements : after.elements = dest.elements ++
      (relabelAll dest.ids (reserveAll src.ids dest.generator) src.elements).1 :=
    congrArg Roster.elements hafter
  refine ⟨outcomes, _, after, hmerge, helements, hstored, ?_, ?_, ?_,
    congrArg Roster.identifier hafter, congrArg Roster.title hafter⟩
  · have hdistinct := hcoherent.pairwise_ne
    rw [← elements, helements] at hdistinct
    exact (List.pairwise_append.mp hdistinct).2.1
  · rw [size_eq hcoherent, size_eq hdest.coherent, size_eq hsrc.coherent, helements,
      List.length_append, hstored.length_eq]
  · rw [← generator_roster, hafter]
    exact hgenerator.trans (by rw [Sequential.stem_reserveAll])

/-- Two identifiers clash while the source also holds the first number to be drawn. -/
theorem Reachable.merge_keeps_all_of_two_clashes :
    let e := Element.ofBody .catalog
    let dest := (⟨some "d", none, .empty, .ofStem "fresh"⟩ : Package Sequential).run
      [.add (e.withId "e1"), .add (e.withId "e2")]
    let src := (⟨some "s", none, .empty, ⟨["e2"]⟩⟩ : Package Listed).run
      [.add (e.withId "e1"), .add (e.withId "fresh-1"), .add e]
    Reachable dest ∧ Reachable src ∧
      (reserveAll src.ids dest.generator).HasRoom (src.elements.countP (clashes dest.ids)) ∧
      ∃ outcomes images after,
        dest.merge .merge src = (.ok ⟨.merge, outcomes⟩, after) ∧
        after.elements = dest.elements ++ images ∧ after.size = dest.size + src.size := by
  intro e dest src
  have hdest : Reachable dest := (Reachable.new _ _ _).run _
  have hsrc : Reachable src := (Reachable.new _ _ _).run _
  have hd : dest.roster =
      ⟨some "d", none, [e.withId "e1", e.withId "e2"], ⟨"fresh", 0⟩⟩ := by
    rw [roster_run Slots.coherent_empty]
    cbv
  have hs : src.roster =
      ⟨some "s", none, [e.withId "e1", e.withId "fresh-1", e.withId "e2"], ⟨["e2"]⟩⟩ := by
    rw [roster_run Slots.coherent_empty]
    cbv
  have hroom : (reserveAll src.ids dest.generator).HasRoom
      (src.elements.countP (clashes dest.ids)) := by
    rw [← ids_roster, ← ids_roster, ← generator_roster, ← elements_roster, hd, hs]
    unfold Sequential.HasRoom
    decide
  obtain ⟨outcomes, images, after, hmerge, himages, -, -, hsize, -⟩ :=
    hdest.merge_keeps_all hsrc hroom
  exact ⟨hdest, hsrc, hroom, outcomes, images, after, hmerge, himages, hsize⟩

end Package

end MediaManifest
