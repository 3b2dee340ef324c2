import Mathlib.Data.List.Forall2
import MediaManifest.Proofs.Identifier.Drawing
import MediaManifest.Proofs.Package.Roster

/-!
# Adding elements that lack identifiers

Added elements keep the identifiers that they have, and the others get drawn
ones.  If the generator has settled the identifiers of all elements before the
first is added, the missing ones are the next that it draws.
-/

namespace MediaManifest

open Generator (draws reserveAll)

namespace Element

variable {γ : Type} [Generator γ]

/-- The element `e` as it is added with the generator `g`, and the generator afterwards. -/
def fill (g : γ) (e : Element) : Element × γ :=
  match e.id with
  | some key => (e, Generator.reserve key g)
  | none =>
    (e.withId (Generator.next g).1,
      Generator.reserve (Generator.next g).1 (Generator.next g).2)

/-- Elements as they are added one after the other, beginning with the generator `g`. -/
def fillAll (g : γ) : List Element → List Element × γ
  | [] => ([], g)
  | e :: es =>
    ((fill g e).1 :: (fillAll (fill g e).2 es).1, (fillAll (fill g e).2 es).2)

/-- How many of the elements `es` lack an identifier. -/
def missing (es : List Element) : Nat :=
  es.countP fun e => e.id.isNone

variable {g : γ} {e : Element} {es : List Element} {key : String}

theorem fill_of_some (g : γ) (hid : e.id = some key) :
    fill g e = (e, Generator.reserve key g) := by
  rw [fill, hid]

theorem fill_of_none (g : γ) (hid : e.id = none) :
    fill g e = (e.withId (Generator.next g).1,
      Generator.reserve (Generator.next g).1 (Generator.next g).2) := by
  rw [fill, hid]

theorem missing_cons_of_some (hid : e.id = some key) (es : List Element) :
    missing (e :: es) = missing es := by
  simp [missing, hid]

theorem missing_cons_of_none (hid : e.id = none) (es : List Element) :
    missing (e :: es) = missing es + 1 := by
  simp [missing, hid]

theorem exists_id_fill (g : γ) (e : Element) : ∃ key, (fill g e).1.id = some key := by
  cases hid : e.id with
  | some key => exact ⟨key, by rw [fill_of_some g hid, hid]⟩
  | none => exact ⟨(Generator.next g).1, by rw [fill_of_none g hid]; rfl⟩

theorem length_fillAll (g : γ) (es : List Element) : (fillAll g es).1.length = es.length := by
  induction es generalizing g with
  | nil => rfl
  | cons e es ih => rw [fillAll, List.length_cons, List.length_cons, ih]

/-- Elements `es` that have identifiers only make the generator reserve them. -/
theorem snd_fillAll_of_identified (g : γ) (h : ∀ e ∈ es, ∃ key, e.id = some key) :
    (fillAll g es).2 = reserveAll (es.filterMap Element.id) g := by
  induction es generalizing g with
  | nil => rfl
  | cons e es ih =>
      obtain ⟨⟨key, hid⟩, hrest⟩ := List.forall_mem_cons.mp h
      rw [fillAll, fill_of_some g hid, ih _ hrest, List.filterMap_cons_some hid]
      rfl

/-- If `g` knows the identifiers of `es`, the filled elements have these and the next drawn ones. -/
theorem mem_ids_fillAll {knows : γ → String → Prop} (hknows : Generator.Settles knows)
    (h : ∀ e ∈ es, ∀ key, e.id = some key → knows g key) (key : String) :
    key ∈ (fillAll g es).1.filterMap Element.id ↔
      key ∈ es.filterMap Element.id ∨ key ∈ draws g (missing es) := by
  -- All that is reserved on the way is settled, so the generator only moves by drawing.
  induction es generalizing g with
  | nil => simp [fillAll, missing, draws]
  | cons e es ih =>
      have hrest : ∀ x ∈ es, ∀ other, x.id = some other → knows g other := fun x hx =>
        h x (List.mem_cons_of_mem e hx)
      cases hid : e.id with
      | some own =>
          have hsame : Generator.reserve own g = g :=
            hknows.reserve_eq (h e List.mem_cons_self own hid)
          rw [fillAll, fill_of_some g hid, hsame, List.filterMap_cons_some hid,
            List.filterMap_cons_some hid, List.mem_cons, List.mem_cons, ih hrest,
            missing_cons_of_some hid, or_assoc]
      | none =>
          have hsame : Generator.reserve (Generator.next g).1 (Generator.next g).2 =
              (Generator.next g).2 := hknows.reserve_eq (hknows.drawn g)
          have hnext : ∀ x ∈ es, ∀ other, x.id = some other →
              knows (Generator.next g).2 other := fun x hx other hother =>
            hknows.next (hrest x hx other hother)
          have hdrawn : (e.withId (Generator.next g).1).id = some (Generator.next g).1 := rfl
          rw [fillAll, fill_of_none g hid, hsame, List.filterMap_cons_some hdrawn,
            List.filterMap_cons_none hid, List.mem_cons, ih hnext,
            missing_cons_of_none hid, draws,
            List.mem_cons, or_left_comm]

end Element

/-! ## Filling with numbers -/

namespace Element

variable {g : Sequential} {e : Element} {es : List Element} {key : String}

/-- An element `e` that lacks an identifier gets the next number of `g`. -/
theorem fill_sequential_of_none (g : Sequential) (hid : e.id = none) :
    fill g e = (e.withId (Generator.next g).1, (Generator.next g).2) := by
  rw [fill_of_none g hid, Sequential.settles_covers.reserve_eq (Sequential.covers_next g)]

theorem fill_sequential_of_some (hid : e.id = some key) (hcovers : g.Covers key) :
    fill g e = (e, g) := by
  rw [fill_of_some g hid, Sequential.reserve_of_covers hcovers]

theorem covers_fill (hcovers : g.Covers key) (e : Element) : (fill g e).2.Covers key := by
  cases hid : e.id with
  | some own =>
      rw [fill_of_some g hid]
      exact Sequential.remembers_covers.reserve own hcovers
  | none =>
      rw [fill_sequential_of_none g hid]
      exact Sequential.remembers_covers.next hcovers

/-- Elements of `es` that lack an identifier get the numbers after those `g` has issued, and all
others stay as they are.  The generator takes one step for each `missing` identifier. -/
theorem fillAll_sequential (hcovers : ∀ e ∈ es, ∀ key, e.id = some key → g.Covers key) :
    List.Forall₂
      (fun e image => (e.id.isSome ∧ image = e) ∨ e.id = none ∧
        ∃ n, g.issued < n ∧ n ≤ g.issued + missing es ∧
          image = e.withId (Sequential.identifier g.stem n))
      es (fillAll g es).1 ∧
    (fillAll g es).2 = ⟨g.stem, g.issued + missing es⟩ := by
  induction es generalizing g with
  | nil => exact ⟨.nil, rfl⟩
  | cons e es ih =>
      have hrest : ∀ x ∈ es, ∀ key, x.id = some key → g.Covers key := fun x hx =>
        hcovers x (List.mem_cons_of_mem e hx)
      rw [fillAll]
      cases hid : e.id with
      | some key =>
          rw [fill_sequential_of_some hid (hcovers e List.mem_cons_self key hid),
            missing_cons_of_some hid]
          obtain ⟨himages, hafter⟩ := ih hrest
          exact ⟨.cons (.inl ⟨by rw [hid]; rfl, rfl⟩) himages, hafter⟩
      | none =>
          have hlater : ∀ x ∈ es, ∀ key, x.id = some key →
              Sequential.Covers (Generator.next g).2 key := fun x hx key hkey =>
            Sequential.remembers_covers.next (hrest x hx key hkey)
          obtain ⟨himages, hafter⟩ := ih hlater
          rw [fill_sequential_of_none g hid, missing_cons_of_none hid]
          refine ⟨.cons (.inr ⟨hid, g.issued + 1, by omega, by omega, rfl⟩) (himages.imp ?_), ?_⟩
          · rintro x image (hkept | ⟨hnone, n, hlow, hhigh, himage⟩)
            · exact .inl hkept
            · rw [Sequential.issued_next] at hlow hhigh
              exact .inr ⟨hnone, n, by omega, by omega, himage⟩
          · rw [hafter, Sequential.stem_next, Sequential.issued_next, Sequential.mk.injEq]
            exact ⟨rfl, by omega⟩

end Element

namespace Roster

open Element (fill fillAll)

variable {γ : Type} [Generator γ] {r after : Roster γ} {e : Element} {key : String}

/-- The element `e` is added to `r` as it was filled if its identifier `key` is free. -/
theorem add_of_free (hid : (fill r.generator e).1.id = some key) (hfree : key ∉ r.ids) :
    r.add e = (.ok key, r.extend ([(fill r.generator e).1], (fill r.generator e).2)) := by
  cases hown : e.id with
  | some own =>
      rw [Element.fill_of_some _ hown] at hid ⊢
      obtain rfl : own = key := Option.some.inj (hown.symm.trans hid)
      rw [add, hown]
      exact append_of_free hfree e
  | none =>
      rw [Element.fill_of_none _ hown] at hid ⊢
      obtain rfl : (Generator.next r.generator).1 = key := Option.some.inj hid
      have hdrawn : r.draw.1 ∉ r.draw.2.ids := hfree
      rw [add, hown]
      exact append_of_free hdrawn (e.withId r.draw.1)

theorem fst_add_of_taken (hid : (fill r.generator e).1.id = some key) (htaken : key ∈ r.ids) :
    (r.add e).1 = .error (.duplicateElement key) := by
  cases hown : e.id with
  | some own =>
      rw [Element.fill_of_some _ hown] at hid
      obtain rfl : own = key := Option.some.inj (hown.symm.trans hid)
      rw [add, hown]
      exact congrArg Prod.fst (if_pos htaken)
  | none =>
      rw [Element.fill_of_none _ hown] at hid
      obtain rfl : (Generator.next r.generator).1 = key := Option.some.inj hid
      have hdrawn : r.draw.1 ∈ r.draw.2.ids := htaken
      rw [add, hown]
      exact congrArg Prod.fst (if_pos hdrawn)

theorem add_eq_of_ok {answer : String} (hadd : r.add e = (.ok answer, after)) :
    after = r.extend ([(fill r.generator e).1], (fill r.generator e).2) := by
  obtain ⟨key, hid⟩ := Element.exists_id_fill r.generator e
  by_cases htaken : key ∈ r.ids
  · have herror := fst_add_of_taken hid htaken
    rw [hadd] at herror
    cases herror
  · rw [add_of_free hid htaken] at hadd
    exact (congrArg Prod.snd hadd).symm

/-- If the elements `es` are all added to `r`, they stand filled behind the others. -/
theorem addAll_eq_of_ok {es : List Element} (hadd : r.addAll es = (.ok (), after)) :
    after = r.extend (fillAll r.generator es) := by
  induction es generalizing r with
  | nil =>
      obtain rfl : r = after := congrArg Prod.snd hadd
      exact (extend_nil r).symm
  | cons e es ih =>
      unfold addAll at hadd
      split at hadd
      · cases hadd
      · next hstep =>
        have hfirst := add_eq_of_ok hstep
        rw [ih hadd, hfirst, extend_extend]
        rfl

/-- Elements `es` with identifiers of their own that are all free are added as they are. -/
theorem addAll_of_free {es : List Element} (hidentified : ∀ e ∈ es, ∃ key, e.id = some key)
    (hdistinct : es.Pairwise fun a b => a.id ≠ b.id)
    (hfree : ∀ e ∈ es, ∀ key, e.id = some key → key ∉ r.ids) :
    r.addAll es = (.ok (), r.extend (es, reserveAll (es.filterMap Element.id) r.generator)) := by
  induction es generalizing r with
  | nil => exact Prod.ext rfl (extend_nil r).symm
  | cons e es ih =>
      obtain ⟨key, hid⟩ := hidentified e List.mem_cons_self
      obtain ⟨hfirst, hrest⟩ := List.pairwise_cons.mp hdistinct
      have hfilled := Element.fill_of_some r.generator hid
      have hadd : r.add e = (.ok key, r.extend ([e], Generator.reserve key r.generator)) := by
        rw [add_of_free (by rw [hfilled, hid]) (hfree e List.mem_cons_self key hid), hfilled]
      have hstill := free_extend (Generator.reserve key r.generator) hid hfirst hfree
      rw [addAll, hadd]
      simp only
      rw [ih (fun x hx => hidentified x (List.mem_cons_of_mem e hx)) hrest hstill,
        List.filterMap_cons_some hid]
      exact Prod.ext rfl (extend_extend r e _ _)

end Roster

end MediaManifest
