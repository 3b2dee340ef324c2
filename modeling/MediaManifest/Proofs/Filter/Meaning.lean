import Mathlib.Data.List.Permutation
import MediaManifest.Filter.Basic
import MediaManifest.Proofs.Package.Reachable

/-!
# What combined filters accept

The combinators rewrite their operands: conjunctions and disjunctions are taken
apart and put together again, and a negation may cancel another one or swap two
filters.  Whatever the operands are, a combined filter accepts what the words of
its combinator say.  A filter and its negation therefore divide the elements of
a package between them.
-/

namespace MediaManifest

/-- The lists `kept` and `dropped` that `whole` is divided into.  Both keep its order, together
they hold all of it, and no element of one has the identifier of an element of the other. -/
structure Element.Divided (whole kept dropped : List Element) : Prop where
  kept_sublist : kept.Sublist whole
  dropped_sublist : dropped.Sublist whole
  perm : (kept ++ dropped).Perm whole
  apart : ∀ x ∈ kept, ∀ y ∈ dropped, x.id ≠ y.id

namespace Filter

/-! ## The cases of a filter -/

@[simp] theorem accepts_any (e : Element) : accepts e any = true := by
  rw [accepts]

@[simp] theorem accepts_and (fs : List Filter) (e : Element) :
    accepts e (and fs) = fs.all (accepts e) := by
  rw [accepts, allAccept_eq]

@[simp] theorem accepts_or (fs : List Filter) (e : Element) :
    accepts e (or fs) = fs.any (accepts e) := by
  rw [accepts, someAccepts_eq]

@[simp] theorem accepts_not (f : Filter) (e : Element) :
    accepts e (not f) = !accepts e f := by
  rw [accepts]

/-! ## The combinators -/

/-- A conjunction accepts what both `f` and `g` accept, whichever of them it takes apart. -/
theorem accepts_conj (f g : Filter) (e : Element) :
    accepts e (f.conj g) = (accepts e f && accepts e g) := by
  fun_cases conj f g with
  | case1 => rw [accepts_any, Bool.true_and]
  | case2 => rw [accepts_any, Bool.and_true]
  | case3 => rw [accepts_and, List.all_append, accepts_and, accepts_and]
  | case4 => simp only [accepts_and, List.all_append, List.all_cons, List.all_nil, Bool.and_true]
  | case5 => rw [accepts_and, List.all_cons, accepts_and]
  | case6 => simp only [accepts_and, List.all_cons, List.all_nil, Bool.and_true]

/-- A disjunction accepts what `f` or `g` accepts, whichever of them it takes apart. -/
theorem accepts_disj (f g : Filter) (e : Element) :
    accepts e (f.disj g) = (accepts e f || accepts e g) := by
  fun_cases disj f g with
  | case1 => rw [accepts_or, List.any_append, accepts_or, accepts_or]
  | case2 => simp only [accepts_or, List.any_append, List.any_cons, List.any_nil, Bool.or_false]
  | case3 => rw [accepts_or, List.any_cons, accepts_or]
  | case4 => simp only [accepts_or, List.any_cons, List.any_nil, Bool.or_false]

theorem accepts_noChecksum (e : Element) : accepts e noChecksum = !accepts e checksum := by
  rw [accepts, accepts]
  cases e.checksum <;> rfl

/-- A negation accepts what `f` does not, whether or not it cancels another one. -/
theorem accepts_negate (f : Filter) (e : Element) : accepts e f.negate = !accepts e f := by
  fun_cases negate f with
  | case1 f => rw [accepts_not, Bool.not_not]
  | case2 => rw [accepts_noChecksum]
  | case3 => rw [accepts_noChecksum, Bool.not_not]
  | case4 => rw [accepts_not]

theorem accepts_foldl_conj (first : Filter) (fs : List Filter) (e : Element) :
    accepts e (fs.foldl conj first) = (accepts e first && fs.all (accepts e)) := by
  induction fs generalizing first with
  | nil => rw [List.foldl_nil, List.all_nil, Bool.and_true]
  | cons f fs ih => rw [List.foldl_cons, ih, accepts_conj, List.all_cons, Bool.and_assoc]

theorem accepts_all (fs : List Filter) (e : Element) :
    accepts e (all fs) = fs.all (accepts e) := by
  rw [all, accepts_foldl_conj, accepts_any, Bool.true_and]

/-! ## Selections -/

theorem select_negate (f : Filter) (es : List Element) :
    f.negate.select es = es.filter fun e => !accepts e f := by
  simp only [select, accepts_negate]

/-- Elements `es` with identifiers of their own are divided by the filter `f` and its negation. -/
theorem divided_select (f : Filter) {es : List Element}
    (hdistinct : es.Pairwise fun a b => a.id ≠ b.id) :
    Element.Divided es (f.select es) (f.negate.select es) := by
  have hperm : (f.select es ++ f.negate.select es).Perm es := by
    rw [select_negate]
    exact List.filter_append_perm _ es
  have hpairwise := (hperm.pairwise_iff fun h => Ne.symm h).mpr hdistinct
  exact ⟨List.filter_sublist, List.filter_sublist, hperm, (List.pairwise_append.mp hpairwise).2.2⟩

/-- Combined filters accept what their combinators say, for operands of any shape: `f.conj g` what
both accept, `f.disj g` what either accepts, `f.negate` what `f` does not, and `all fs` what all
of `fs` accept.  The selections by `f` and by `f.negate` divide the elements of every reachable
package. -/
theorem accepts_combined (f g : Filter) (fs : List Filter) (e : Element) :
    accepts e (f.conj g) = (accepts e f && accepts e g) ∧
    accepts e (f.disj g) = (accepts e f || accepts e g) ∧
    accepts e f.negate = !accepts e f ∧
    accepts e (all fs) = fs.all (accepts e) ∧
    ∀ {γ : Type} [Generator γ] {p : Package γ}, p.Reachable →
      Element.Divided p.elements (f.select p.elements) (f.negate.select p.elements) :=
  ⟨accepts_conj f g e, accepts_disj f g e, accepts_negate f e, accepts_all fs e,
    fun hp => divided_select f hp.coherent.pairwise_ne⟩

/-- Bare lists and negations as operands, and a package from which an element was removed. -/
theorem accepts_combined_of_bare_operands :
    let track := (Element.ofBody (.track true false none)).withId "t"
    let catalog := (Element.ofBody .catalog).withId "c"
    let f : Filter := .and [.any, .not (.not .video)]
    let g : Filter := .or [.and [], .or []]
    let p := (⟨none, none, .empty, ⟨["x"]⟩⟩ : Package Listed).run
      [.add track, .add (catalog.withId "a"), .add catalog, .removeById "a"]
    p.Reachable ∧ accepts track (f.conj g) = true ∧ accepts catalog (f.conj g) = false ∧
      accepts catalog (f.disj g) = true ∧ accepts track f.negate = false ∧
      accepts catalog (all [.any, f, g]) = false ∧
      Element.Divided [track, catalog] [track] [catalog] := by
  intro track catalog f g p
  have hp : p.Reachable := (Package.Reachable.new _ _ _).run _
  have hroster : p.roster = ⟨none, none, [track, catalog], ⟨["x"]⟩⟩ := by
    rw [Package.roster_run Slots.coherent_empty]
    cbv
  obtain ⟨hconj, -, hnegate, -, hdivided⟩ := accepts_combined f g [.any, f, g] track
  obtain ⟨hconj', hdisj, -, hall, -⟩ := accepts_combined f g [.any, f, g] catalog
  have hparts := hdivided hp
  rw [← Package.elements_roster, hroster] at hparts
  exact ⟨hp, hconj.trans rfl, hconj'.trans rfl, hdisj.trans rfl, hnegate.trans rfl,
    hall.trans rfl, hparts⟩

end Filter

end MediaManifest
