import MediaManifest.Package.Merge
import MediaManifest.Proofs.Package.Roster
import MediaManifest.Support.Except

/-!
# Merging plain lists

A merge is written once more on rosters, and merging a source into a package
with coherent slots refines merging the elements of the source into its roster.
What a mode does with one element is then a matter of lists.
-/

namespace MediaManifest

open Generator (reserveAll)

namespace Roster

variable {γ : Type} [Generator γ]

omit [Generator γ] in
/-- The name of the roster `r` in messages. -/
def display (r : Roster γ) : String :=
  r.identifier.getD "<no id>"

/-- Merges the element `e` of the source into `r`. -/
def mergeElement (mode : Mode) (r : Roster γ) (e : Element) :
    Except Error Outcome × Roster γ :=
  match e.id.filter (· ∈ r.ids) with
  | none => (r.add e).map (Except.map .added) id
  | some key =>
    match mode with
    | .replace => ((r.removeById key).2.add e).map (Except.map fun _ => .replaced key) id
    | .skip => (.ok (.skipped key), r)
    | .merge => (r.add { e with id := none }).map (Except.map (.renamed key)) id
    | .fail => (.error (.conflict r.display key), r)

/-- Merges elements of the source one after the other into `r`, up to the first that fails. -/
def mergeElements (mode : Mode) (r : Roster γ) :
    List Element → Except Error (List Outcome) × Roster γ
  | [] => (.ok [], r)
  | e :: es =>
    match r.mergeElement mode e with
    | (.error error, r) => (.error error, r)
    | (.ok outcome, r) => (r.mergeElements mode es).map (Except.map (outcome :: ·)) id

omit [Generator γ] in
/-- The identifier for which a merge is refused before it begins. -/
def refusal? (mode : Mode) (r : Roster γ) (keys : List String) : Option String :=
  if mode = .fail then keys.find? (· ∈ r.ids) else none

/-- The target as a merge begins with it. -/
def primed (mode : Mode) (r : Roster γ) (keys : List String) : Roster γ :=
  if mode = .merge then { r with generator := reserveAll keys r.generator } else r

/-- Merges the elements `es` of a source into `r`. -/
def merge (mode : Mode) (r : Roster γ) (es : List Element) :
    Except Error MergeReport × Roster γ :=
  match r.refusal? mode (es.filterMap Element.id) with
  | some key => (.error (.conflict r.display key), r)
  | none =>
    ((r.primed mode (es.filterMap Element.id)).mergeElements mode es).map
      (Except.map (⟨mode, ·⟩)) id

@[simp] theorem elements_primed (mode : Mode) (r : Roster γ) (keys : List String) :
    (r.primed mode keys).elements = r.elements := by
  unfold primed
  split <;> rfl

@[simp] theorem ids_primed (mode : Mode) (r : Roster γ) (keys : List String) :
    (r.primed mode keys).ids = r.ids := by
  rw [ids, elements_primed, ids]

omit [Generator γ] in
theorem refusal?_of_disjoint (mode : Mode) {r : Roster γ} {keys : List String}
    (hdisjoint : ∀ key ∈ r.ids, key ∉ keys) : r.refusal? mode keys = none := by
  unfold refusal?
  split
  · rw [List.find?_eq_none]
    intro key hkey htaken
    exact hdisjoint key (of_decide_eq_true htaken) hkey
  · rfl

/-! ## Merging one element -/

variable {r : Roster γ} {e : Element} {key : String}

/-- An element `e` whose identifier `key` is free is added in every mode. -/
theorem mergeElement_of_free (mode : Mode) (hid : e.id = some key) (hfree : key ∉ r.ids) :
    r.mergeElement mode e =
      (.ok (.added key), r.extend ([e], Generator.reserve key r.generator)) := by
  have hadd : r.add e = r.append key e := by
    rw [add, hid]
  rw [mergeElement, hid, Option.filter_some, if_neg (by simpa using hfree), hadd,
    append_of_free hfree]
  rfl

/-- An element `e` whose identifier `key` is taken is added under the next drawn identifier, if
that one is free. -/
theorem mergeElement_of_taken (hid : e.id = some key) (htaken : key ∈ r.ids)
    (hfree : r.draw.1 ∉ r.ids) :
    r.mergeElement .merge e =
      (.ok (.renamed key r.draw.1),
        r.extend ([e.withId r.draw.1],
          Generator.reserve r.draw.1 (Generator.next r.generator).2)) := by
  have hadd : r.add { e with id := none } = r.draw.2.append r.draw.1 (e.withId r.draw.1) := rfl
  have hdrawn : r.draw.1 ∉ r.draw.2.ids := hfree
  rw [mergeElement, hid, Option.filter_some, if_pos (by simpa using htaken)]
  simp only
  rw [hadd, append_of_free hdrawn]
  rfl

theorem mergeElements_cons_of_ok {mode : Mode} {outcome : Outcome} {after : Roster γ}
    (hstep : r.mergeElement mode e = (.ok outcome, after)) (es : List Element) :
    r.mergeElements mode (e :: es) =
      (after.mergeElements mode es).map (Except.map (outcome :: ·)) id := by
  rw [mergeElements, hstep]

/-- An element `e` whose identifier `key` is taken is not reported as `added`. -/
theorem ne_added_of_taken {mode : Mode} {outcome : Outcome} {after : Roster γ}
    (hid : e.id = some key) (htaken : key ∈ r.ids)
    (hstep : r.mergeElement mode e = (.ok outcome, after)) (other : String) :
    outcome ≠ .added other := by
  rw [mergeElement, hid, Option.filter_some, if_pos (by simpa using htaken)] at hstep
  have hanswer := congrArg Prod.fst hstep
  cases mode with
  | replace =>
      obtain ⟨_, _, rfl⟩ := Except.map_eq_ok_iff.mp hanswer
      exact Outcome.noConfusion
  | skip =>
      obtain rfl := Except.ok.inj hanswer
      exact Outcome.noConfusion
  | merge =>
      obtain ⟨_, _, rfl⟩ := Except.map_eq_ok_iff.mp hanswer
      exact Outcome.noConfusion
  | fail => cases hanswer

/-! ## Elements that share no identifier with the target -/

/-- Elements `es` with identifiers of their own that are all free are added in every mode. -/
theorem mergeElements_of_free (mode : Mode) {es : List Element}
    (hidentified : ∀ e ∈ es, ∃ key, e.id = some key)
    (hdistinct : es.Pairwise fun a b => a.id ≠ b.id)
    (hfree : ∀ e ∈ es, ∀ key, e.id = some key → key ∉ r.ids) :
    r.mergeElements mode es =
      (.ok ((es.filterMap Element.id).map .added),
        r.extend (es, reserveAll (es.filterMap Element.id) r.generator)) := by
  induction es generalizing r with
  | nil => exact Prod.ext rfl (extend_nil r).symm
  | cons e es ih =>
      obtain ⟨key, hid⟩ := hidentified e List.mem_cons_self
      obtain ⟨hfirst, hrest⟩ := List.pairwise_cons.mp hdistinct
      have hstill := free_extend (Generator.reserve key r.generator) hid hfirst hfree
      rw [mergeElements_cons_of_ok
          (mergeElement_of_free mode hid (hfree e List.mem_cons_self key hid)),
        ih (fun x hx => hidentified x (List.mem_cons_of_mem e hx)) hrest hstill,
        List.filterMap_cons_some hid]
      exact Prod.ext rfl (extend_extend r e _ _)

/-- If all elements of `es` are reported as `added`, their identifiers were free. -/
theorem free_of_added {mode : Mode} {es : List Element} {outcomes : List Outcome}
    {after : Roster γ} (hidentified : ∀ e ∈ es, ∃ key, e.id = some key)
    (hloop : r.mergeElements mode es = (.ok outcomes, after))
    (hadded : ∀ outcome ∈ outcomes, ∃ key, outcome = .added key) :
    ∀ e ∈ es, ∀ key, e.id = some key → key ∉ r.ids := by
  induction es generalizing r outcomes after with
  | nil => exact fun e he => absurd he List.not_mem_nil
  | cons e es ih =>
      obtain ⟨own, hown⟩ := hidentified e List.mem_cons_self
      rcases hstep : r.mergeElement mode e with ⟨answer, next⟩
      cases answer with
      | error error =>
          rw [mergeElements, hstep] at hloop
          cases congrArg Prod.fst hloop
      | ok outcome =>
          have hcons := mergeElements_cons_of_ok hstep es
          rw [hloop] at hcons
          obtain ⟨rest, hrest, rfl⟩ := Except.map_eq_ok_iff.mp (congrArg Prod.fst hcons).symm
          have hfree : own ∉ r.ids := by
            intro htaken
            obtain ⟨other, hother⟩ := hadded outcome List.mem_cons_self
            exact ne_added_of_taken hown htaken hstep other hother
          -- The roster has only grown, so what is free later was free at the beginning.
          have hnext : next = r.extend ([e], Generator.reserve own r.generator) := by
            rw [mergeElement_of_free mode hown hfree] at hstep
            exact (congrArg Prod.snd hstep).symm
          intro x hx key hid htaken
          rcases List.mem_cons.mp hx with rfl | hx
          · obtain rfl : own = key := Option.some.inj (hown.symm.trans hid)
            exact hfree htaken
          · have hlater := ih (fun y hy => hidentified y (List.mem_cons_of_mem e hy))
              (Prod.ext hrest rfl) (fun o ho => hadded o (List.mem_cons_of_mem _ ho))
            apply hlater x hx key hid
            rw [hnext, mem_ids_extend _ hown]
            exact Or.inl htaken

theorem merge_of_mergeElements {mode : Mode} {es : List Element} {outcomes : List Outcome}
    {after : Roster γ} (hrefusal : r.refusal? mode (es.filterMap Element.id) = none)
    (hloop : (r.primed mode (es.filterMap Element.id)).mergeElements mode es =
      (.ok outcomes, after)) :
    r.merge mode es = (.ok ⟨mode, outcomes⟩, after) := by
  rw [merge, hrefusal]
  simp only [hloop]
  rfl

end Roster

namespace Package

variable {γ δ : Type} [Generator γ] {dest : Package γ}

/-! ## Merges of packages -/

omit [Generator γ] in
/-- The identifier for which a merge is refused before it begins. -/
def refusal? (mode : Mode) (dest : Package γ) (keys : List String) : Option String :=
  if mode = .fail then firstConflict? dest keys else none

/-- The target as a merge begins with it. -/
def primed (mode : Mode) (dest : Package γ) (keys : List String) : Package γ :=
  if mode = .merge then { dest with generator := reserveAll keys dest.generator }
  else dest

theorem merge_of_refusal {mode : Mode} {src : Package δ} {key : String}
    (hrefusal : refusal? mode dest src.ids = some key) :
    dest.merge mode src = (.error (.conflict dest.display key), dest) := by
  unfold refusal? at hrefusal
  simp only [merge, hrefusal]

theorem merge_of_no_refusal {mode : Mode} {src : Package δ}
    (hrefusal : refusal? mode dest src.ids = none) :
    dest.merge mode src =
      (mergeElements mode (primed mode dest src.ids) src.elements).map
        (Except.map (⟨mode, ·⟩)) id := by
  unfold refusal? at hrefusal
  simp only [merge, hrefusal]
  rfl

omit [Generator γ] in
theorem contains_eq (h : dest.slots.Coherent) :
    dest.contains = fun key => decide (key ∈ dest.roster.ids) := by
  funext key
  rw [Bool.eq_iff_iff, decide_eq_true_eq]
  exact contains_iff h

omit [Generator γ] in
theorem refusal?_eq (h : dest.slots.Coherent) (mode : Mode) (keys : List String) :
    refusal? mode dest keys = dest.roster.refusal? mode keys := by
  rw [refusal?, Roster.refusal?, firstConflict?, contains_eq h]

theorem roster_primed (mode : Mode) (dest : Package γ) (keys : List String) :
    (primed mode dest keys).roster = dest.roster.primed mode keys := by
  unfold primed Roster.primed
  split <;> rfl

theorem coherent_primed (h : dest.slots.Coherent) (mode : Mode) (keys : List String) :
    (primed mode dest keys).slots.Coherent := by
  unfold primed
  split <;> exact h

theorem refines_mergeElement (h : dest.slots.Coherent) (mode : Mode) (e : Element) :
    Refines (mergeElement mode dest e) (dest.roster.mergeElement mode e) := by
  unfold mergeElement Roster.mergeElement
  rw [contains_eq h]
  cases e.id.filter (· ∈ dest.roster.ids) with
  | none => exact (refines_add h e).map _
  | some key =>
      cases mode with
      | replace =>
          have hremove := refines_removeById h key
          have hadd := refines_add hremove.coherent e
          rw [hremove.roster] at hadd
          exact hadd.map _
      | skip => exact ⟨rfl, rfl, h⟩
      | merge => exact (refines_add h { e with id := none }).map _
      | fail => exact ⟨rfl, rfl, h⟩

theorem refines_mergeElements (h : dest.slots.Coherent) (mode : Mode) (es : List Element) :
    Refines (mergeElements mode dest es) (dest.roster.mergeElements mode es) := by
  induction es generalizing dest with
  | nil => exact ⟨rfl, rfl, h⟩
  | cons e es ih =>
      have hfirst := refines_mergeElement h mode e
      rw [mergeElements, Roster.mergeElements, hfirst.model_eq]
      have hcoherent := hfirst.coherent
      rcases hstep : mergeElement mode dest e with ⟨answer, after⟩
      rw [hstep] at hcoherent
      cases answer with
      | error error => exact ⟨rfl, rfl, hcoherent⟩
      | ok outcome => exact (ih hcoherent).map _

/-- Merging `src` into `dest` is merging the elements of `src` into the roster of `dest`. -/
theorem refines_merge (h : dest.slots.Coherent) (mode : Mode) (src : Package δ) :
    Refines (dest.merge mode src) (dest.roster.merge mode src.elements) := by
  unfold Roster.merge
  cases hrefusal : refusal? mode dest src.ids with
  | some key =>
      have hroster : dest.roster.refusal? mode src.ids = some key :=
        (refusal?_eq h mode src.ids).symm.trans hrefusal
      rw [merge_of_refusal hrefusal, show src.elements.filterMap Element.id = src.ids from rfl,
        hroster]
      exact ⟨rfl, rfl, h⟩
  | none =>
      have hroster : dest.roster.refusal? mode src.ids = none :=
        (refusal?_eq h mode src.ids).symm.trans hrefusal
      have hloop := refines_mergeElements (coherent_primed h mode src.ids) mode src.elements
      rw [roster_primed] at hloop
      rw [merge_of_no_refusal hrefusal, show src.elements.filterMap Element.id = src.ids from rfl,
        hroster]
      exact hloop.map _

/-! ## Packages that share no identifier -/

variable {src : Package δ}

/-- Merging `src` into `dest`, which share no identifier, appends the elements of `src` to those
of `dest` in every mode. -/
theorem merge_of_disjoint (hdest : dest.slots.Coherent) (hsrc : src.slots.Coherent)
    (mode : Mode) (hdisjoint : ∀ key ∈ dest.ids, key ∉ src.ids) :
    ∃ after, dest.merge mode src = (.ok ⟨mode, src.ids.map .added⟩, after) ∧
      after.elements = dest.elements ++ src.elements ∧ after.slots.Coherent := by
  have hfree : ∀ e ∈ src.elements, ∀ key, e.id = some key →
      key ∉ (dest.roster.primed mode src.ids).ids := by
    intro e he key hid htaken
    rw [Roster.ids_primed] at htaken
    exact hdisjoint key htaken (mem_ids_iff.mpr ⟨e, he, hid⟩)
  have hloop := Roster.mergeElements_of_free mode hsrc.identified hsrc.pairwise_ne hfree
  have hrefusal : dest.roster.refusal? mode src.ids = none :=
    Roster.refusal?_of_disjoint mode hdisjoint
  have hmodel := refines_merge hdest mode src
  rw [Roster.merge_of_mergeElements hrefusal hloop] at hmodel
  obtain ⟨after, hmerge, hroster, hcoherent⟩ := hmodel.exists_eq
  have helements := congrArg Roster.elements hroster
  rw [Roster.extend, Roster.elements_primed] at helements
  exact ⟨after, hmerge, helements, hcoherent⟩

/-- If a merge of `src` into `dest` only adds, the packages share no identifier. -/
theorem disjoint_of_added {mode : Mode} {report : MergeReport} {after : Package γ}
    (hdest : dest.slots.Coherent) (hsrc : src.slots.Coherent)
    (hmerge : dest.merge mode src = (.ok report, after))
    (hadded : ∀ outcome ∈ report.outcomes, ∃ key, outcome = .added key) :
    ∀ key ∈ dest.ids, key ∉ src.ids := by
  have hmodel := refines_merge hdest mode src
  rw [hmerge] at hmodel
  have heq := hmodel.model_eq
  unfold Roster.merge at heq
  split at heq
  · cases congrArg Prod.fst heq
  · obtain ⟨outcomes, houtcomes, rfl⟩ := Except.map_eq_ok_iff.mp (congrArg Prod.fst heq)
    have hfree := Roster.free_of_added hsrc.identified (Prod.ext houtcomes rfl) hadded
    intro key htaken hkey
    obtain ⟨e, he, hid⟩ := mem_ids_iff.mp hkey
    apply hfree e he key hid
    rw [Roster.ids_primed]
    exact htaken

end Package

end MediaManifest
