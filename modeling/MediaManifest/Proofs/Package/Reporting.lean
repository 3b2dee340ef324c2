import Mathlib.Data.Finset.Card
import MediaManifest.Proofs.Package.Overlap

/-!
# What merge reports tell

An outcome is written down while the target still changes, but it is read when
the merge is over.  One step of a merge is told as a step between lists of
elements (`Outcome.Step`): it appends an element, and only in the mode that
replaces it deletes one, which has the identifier of the element being merged.
The elements of the source have identifiers of their own, so no later step
touches what an outcome tells, even if a drawn identifier is one that the source
brings later.
-/

namespace MediaManifest

namespace Element

/-- The element of `es` with the identifier `key`. -/
def lookup (key : String) (es : List Element) : Option Element :=
  es.find? fun e => e.id == some key

variable {es : List Element} {e x : Element} {key : String}

theorem lookup_eq_none_iff : lookup key es = none ↔ key ∉ es.filterMap Element.id := by
  simp [lookup, List.find?_eq_none]

theorem exists_lookup (hmem : key ∈ es.filterMap Element.id) : ∃ x, lookup key es = some x := by
  rw [← Option.ne_none_iff_exists', ne_eq, lookup_eq_none_iff]
  exact not_not_intro hmem

theorem lookup_append_of_some (hget : lookup key es = some x) (more : List Element) :
    lookup key (es ++ more) = some x := by
  unfold lookup at hget ⊢
  rw [List.find?_append, hget]
  rfl

theorem lookup_append_of_free (hfree : key ∉ es.filterMap Element.id) (hid : e.id = some key) :
    lookup key (es ++ [e]) = some e := by
  have hnone := lookup_eq_none_iff.mpr hfree
  unfold lookup at hnone ⊢
  rw [List.find?_append, hnone, Option.none_or, List.find?_cons_of_pos (by simp [hid])]

theorem lookup_filter_ne {other : String} (hne : key ≠ other) (es : List Element) :
    lookup key (es.filter fun x => x.id != some other) = lookup key es := by
  unfold lookup
  rw [List.find?_filter]
  congr 1
  funext x
  by_cases hid : x.id = some key
  · simp [hid, hne]
  · simp [hid]

/-- Deleting the element under `key` deletes exactly one. -/
theorem length_filter_ne (hdistinct : es.Pairwise fun a b => a.id ≠ b.id)
    (hmem : key ∈ es.filterMap Element.id) :
    (es.filter fun x => x.id != some key).length + 1 = es.length := by
  obtain ⟨e, he, hid⟩ := List.mem_filterMap.mp hmem
  obtain ⟨front, back, rfl⟩ := List.append_of_mem he
  obtain ⟨-, hback, hacross⟩ := List.pairwise_append.mp hdistinct
  have hfront : (front.filter fun x => x.id != some key) = front := by
    apply List.filter_eq_self.mpr
    intro x hx
    have hne := hacross x hx e List.mem_cons_self
    rw [hid] at hne
    simpa using hne
  have hrest : (back.filter fun x => x.id != some key) = back := by
    apply List.filter_eq_self.mpr
    intro x hx
    have hne := (List.pairwise_cons.mp hback).1 x hx
    rw [hid] at hne
    simpa using hne.symm
  rw [List.filter_append, hfront, List.filter_cons_of_neg (by simp [hid]), hrest]
  simp only [List.length_append, List.length_cons]
  omega

end Element

namespace Outcome

open Element (lookup)

/-- What an outcome tells of an element `e` of the source, by what the target holds under each
identifier `before` and `after` the merge. -/
def Tells (mode : Mode) (before after : String → Option Element) (e : Element) :
    Outcome → Prop
  | added key => e.id = some key ∧ after key = some e
  | replaced key => mode = .replace ∧ e.id = some key ∧ after key = some e
  | skipped key =>
    mode = .skip ∧ e.id = some key ∧ ∃ x, before key = some x ∧ after key = some x
  | renamed source target =>
    mode = .merge ∧ e.id = some source ∧ after target = some (e.withId target) ∧
      ∀ x, before source = some x → after source = some x

/-- The element `e` of the source is merged into the elements `held` so far. -/
inductive Step (mode : Mode) (held : List Element) (e : Element) : Outcome → List Element → Prop
  | added {key : String} (hid : e.id = some key) (hfree : key ∉ held.filterMap Element.id) :
      Step mode held e (.added key) (held ++ [e])
  | replaced {key : String} (hmode : mode = .replace) (hid : e.id = some key)
      (htaken : key ∈ held.filterMap Element.id) :
      Step mode held e (.replaced key) ((held.filter fun x => x.id != some key) ++ [e])
  | skipped {key : String} (hmode : mode = .skip) (hid : e.id = some key)
      (htaken : key ∈ held.filterMap Element.id) : Step mode held e (.skipped key) held
  | renamed {source target : String} (hmode : mode = .merge) (hid : e.id = some source)
      (htaken : source ∈ held.filterMap Element.id)
      (hfree : target ∉ held.filterMap Element.id) :
      Step mode held e (.renamed source target) (held ++ [e.withId target])

/-- Elements of the source are merged one after the other. -/
inductive Run (mode : Mode) : List Element → List Element → List Outcome → List Element → Prop
  | nil (held : List Element) : Run mode held [] [] held
  | cons {held next final es : List Element} {e : Element} {outcome : Outcome}
      {outcomes : List Outcome} (hfirst : Step mode held e outcome next)
      (hrest : Run mode next es outcomes final) :
      Run mode held (e :: es) (outcome :: outcomes) final

variable {mode : Mode} {held next final es : List Element} {e x : Element} {outcome : Outcome}
  {outcomes : List Outcome} {key : String} {before : String → Option Element}

/-! ## What a step keeps -/

/-- The element `x` that is held under `key` stays, unless it is replaced. -/
theorem Step.lookup_of_lookup (h : Step mode held e outcome next)
    (hget : lookup key held = some x) (hne : mode = .replace → e.id ≠ some key) :
    lookup key next = some x := by
  cases h with
  | added hid hfree => exact Element.lookup_append_of_some hget _
  | @replaced own hmode hid htaken =>
      have hother : key ≠ own := by
        rintro rfl
        exact hne hmode hid
      apply Element.lookup_append_of_some
      rw [Element.lookup_filter_ne hother, hget]
  | skipped hmode hid htaken => exact hget
  | renamed hmode hid htaken hfree => exact Element.lookup_append_of_some hget _

/-- Apart from the mode `merge`, only the identifier of `e` itself is new. -/
theorem Step.mem_ids_iff (h : Step mode held e outcome next) (hmode : mode ≠ .merge)
    (hne : e.id ≠ some key) :
    key ∈ next.filterMap Element.id ↔ key ∈ held.filterMap Element.id := by
  rw [← not_iff_not, ← Element.lookup_eq_none_iff, ← Element.lookup_eq_none_iff]
  cases h with
  | added hid hfree => simp [lookup, List.find?_append, hne]
  | @replaced own _ hid htaken =>
      have hother : key ≠ own := by
        rintro rfl
        exact hne hid
      have hkept := Element.lookup_filter_ne hother held
      unfold lookup at hkept ⊢
      rw [List.find?_append, hkept]
      simp [hne]
  | skipped _ hid htaken => exact Iff.rfl
  | renamed hmerge hid htaken hfree => exact absurd hmerge hmode

theorem Step.pairwise_ne (h : Step mode held e outcome next)
    (hdistinct : held.Pairwise fun a b => a.id ≠ b.id) :
    next.Pairwise fun a b => a.id ≠ b.id := by
  have happend : ∀ {es : List Element} {e : Element} {key : String},
      es.Pairwise (fun a b => a.id ≠ b.id) → e.id = some key →
      key ∉ es.filterMap Element.id → (es ++ [e]).Pairwise fun a b => a.id ≠ b.id := by
    intro es e key hes hid hfree
    refine List.pairwise_append.mpr ⟨hes, List.pairwise_singleton _ _, ?_⟩
    intro a ha b hb
    obtain rfl := List.mem_singleton.mp hb
    intro hsame
    exact hfree (List.mem_filterMap.mpr ⟨a, ha, hsame.trans hid⟩)
  cases h with
  | added hid hfree => exact happend hdistinct hid hfree
  | @replaced key hmode hid htaken =>
      refine happend (hdistinct.filter _) hid ?_
      simp
  | skipped hmode hid htaken => exact hdistinct
  | renamed hmode hid htaken hfree => exact happend hdistinct rfl hfree

end Outcome

/-! ## Counting outcomes -/

namespace MergeReport

variable (mode : Mode) (outcome : Outcome) (outcomes : List Outcome)

theorem added_cons :
    added ⟨mode, outcome :: outcomes⟩ = added ⟨mode, [outcome]⟩ + added ⟨mode, outcomes⟩ := by
  simp only [added, List.countP_cons, List.countP_nil]
  omega

theorem renamed_cons :
    renamed ⟨mode, outcome :: outcomes⟩ =
      renamed ⟨mode, [outcome]⟩ + renamed ⟨mode, outcomes⟩ := by
  simp only [renamed, List.countP_cons, List.countP_nil]
  omega

theorem conflicts_cons :
    conflicts ⟨mode, outcome :: outcomes⟩ =
      conflicts ⟨mode, [outcome]⟩ + conflicts ⟨mode, outcomes⟩ := by
  simp only [conflicts, replaced, skipped, renamed, List.countP_cons, List.countP_nil]
  omega

/-- Every element is either added without a conflict or met one. -/
theorem added_add_conflicts (r : MergeReport) : r.added + r.conflicts = r.outcomes.length := by
  obtain ⟨mode, outcomes⟩ := r
  induction outcomes with
  | nil => rfl
  | cons outcome outcomes ih =>
      have hone : added ⟨mode, [outcome]⟩ + conflicts ⟨mode, [outcome]⟩ = 1 := by
        cases outcome <;> rfl
      rw [added_cons, conflicts_cons, List.length_cons, ← ih, ← hone]
      omega

end MergeReport

namespace Outcome

open Element (lookup)

variable {mode : Mode} {held next final es : List Element} {e x : Element} {outcome : Outcome}
  {outcomes : List Outcome} {key : String} {before : String → Option Element}

/-- A step makes the list longer exactly if it adds or renames. -/
theorem Step.length_eq (h : Step mode held e outcome next)
    (hdistinct : held.Pairwise fun a b => a.id ≠ b.id) :
    next.length =
      held.length + MergeReport.added ⟨mode, [outcome]⟩ +
        MergeReport.renamed ⟨mode, [outcome]⟩ := by
  cases h with
  | added hid hfree => simp [MergeReport.added, MergeReport.renamed]
  | replaced hmode hid htaken =>
      have hone := Element.length_filter_ne hdistinct htaken
      simpa [MergeReport.added, MergeReport.renamed] using hone
  | skipped hmode hid htaken => simp [MergeReport.added, MergeReport.renamed]
  | renamed hmode hid htaken hfree => simp [MergeReport.added, MergeReport.renamed]

theorem Run.length_eq (h : Run mode held es outcomes final)
    (hdistinct : held.Pairwise fun a b => a.id ≠ b.id) :
    final.length =
      held.length + MergeReport.added ⟨mode, outcomes⟩ +
        MergeReport.renamed ⟨mode, outcomes⟩ := by
  induction h with
  | nil held => rfl
  | @cons held next final es e outcome outcomes hfirst hrest ih =>
      rw [ih (hfirst.pairwise_ne hdistinct), hfirst.length_eq hdistinct,
        MergeReport.added_cons mode outcome outcomes,
        MergeReport.renamed_cons mode outcome outcomes]
      omega

/-- A step meets a conflict exactly if the identifier of `e` is `held`. -/
theorem Step.conflicts_eq (h : Step mode held e outcome next) :
    MergeReport.conflicts ⟨mode, [outcome]⟩ =
      if e.clashes (held.filterMap Element.id) then 1 else 0 := by
  cases h with
  | added hid hfree => rw [if_neg (hfree ∘ (Element.clashes_iff hid).mp)]; rfl
  | replaced hmode hid htaken => rw [if_pos ((Element.clashes_iff hid).mpr htaken)]; rfl
  | skipped hmode hid htaken => rw [if_pos ((Element.clashes_iff hid).mpr htaken)]; rfl
  | renamed hmode hid htaken hfree => rw [if_pos ((Element.clashes_iff hid).mpr htaken)]; rfl

/-- Apart from the mode `merge`, the conflicts are those with what was `held` at the beginning. -/
theorem Run.conflicts_eq (h : Run mode held es outcomes final) (hmode : mode ≠ .merge)
    (hdistinct : es.Pairwise fun a b => a.id ≠ b.id) :
    MergeReport.conflicts ⟨mode, outcomes⟩ =
      es.countP (Element.clashes (held.filterMap Element.id)) := by
  induction h with
  | nil held => rfl
  | @cons held next final es e outcome outcomes hfirst hrest ih =>
      obtain ⟨hothers, hes⟩ := List.pairwise_cons.mp hdistinct
      have hsame : es.countP (Element.clashes (next.filterMap Element.id)) =
          es.countP (Element.clashes (held.filterMap Element.id)) := by
        apply List.countP_congr
        intro x hx
        cases hid : x.id with
        | none => simp [Element.clashes, hid]
        | some key =>
            have hne : e.id ≠ some key := fun he => hothers x hx (he.trans hid.symm)
            rw [Element.clashes_iff hid, Element.clashes_iff hid, hfirst.mem_ids_iff hmode hne]
      rw [MergeReport.conflicts_cons, ih hes, hsame, hfirst.conflicts_eq, List.countP_cons,
        Nat.add_comm]

/-! ## What is told stays true -/

theorem Run.lookup_of_lookup (h : Run mode held es outcomes final)
    (hget : lookup key held = some x) (hne : mode = .replace → ∀ e ∈ es, e.id ≠ some key) :
    lookup key final = some x := by
  induction h with
  | nil held => exact hget
  | cons hfirst hrest ih =>
      apply ih
      · exact hfirst.lookup_of_lookup hget fun hmode => hne hmode _ List.mem_cons_self
      · exact fun hmode e he => hne hmode e (List.mem_cons_of_mem _ he)

/-- A target between two elements of a merge, compared with what it held under each identifier
`before`: nothing of it is gone unless elements are replaced, and a merge that skips meets nothing
else. -/
structure Recalls (mode : Mode) (before : String → Option Element) (held es : List Element) :
    Prop where
  distinct : es.Pairwise fun a b => a.id ≠ b.id
  kept : mode ≠ .replace → ∀ key x, before key = some x → lookup key held = some x
  met : mode = .skip → ∀ e ∈ es, ∀ key, e.id = some key → key ∈ held.filterMap Element.id →
    ∃ x, before key = some x

theorem Recalls.step (h : Recalls mode before held (e :: es))
    (hstep : Step mode held e outcome next) : Recalls mode before next es := by
  obtain ⟨hothers, hes⟩ := List.pairwise_cons.mp h.distinct
  refine ⟨hes, ?_, ?_⟩
  · intro hmode key x hbefore
    exact hstep.lookup_of_lookup (h.kept hmode key x hbefore) fun hreplace =>
      absurd hreplace hmode
  · intro hmode x hx key hid hmem
    have hne : e.id ≠ some key := fun he => hothers x hx (he.trans hid.symm)
    have hother : mode ≠ .merge := by
      rw [hmode]
      exact Mode.noConfusion
    exact h.met hmode x (List.mem_cons_of_mem e hx) key hid
      ((hstep.mem_ids_iff hother hne).mp hmem)

/-- What a step tells of `e` is true as soon as it is told, and the elements still to come leave
it true. -/
theorem Recalls.tells (h : Recalls mode before held (e :: es))
    (hstep : Step mode held e outcome next) (hrest : Run mode next es outcomes final) :
    outcome.Tells mode before (lookup · final) e := by
  have hothers : ∀ x ∈ es, e.id ≠ x.id := (List.pairwise_cons.mp h.distinct).1
  have hown : ∀ key, e.id = some key → ∀ x ∈ es, x.id ≠ some key := fun key hid x hx hsame =>
    hothers x hx (hid.trans hsame.symm)
  cases hstep with
  | added hid hfree =>
      refine ⟨hid, hrest.lookup_of_lookup ?_ fun _ => hown _ hid⟩
      exact Element.lookup_append_of_free hfree hid
  | replaced hmode hid htaken =>
      refine ⟨hmode, hid, hrest.lookup_of_lookup ?_ fun _ => hown _ hid⟩
      exact Element.lookup_append_of_free (by simp) hid
  | @skipped key hmode hid htaken =>
      obtain ⟨x, hbefore⟩ := h.met hmode e List.mem_cons_self key hid htaken
      have hother : mode ≠ .replace := by
        rw [hmode]
        exact Mode.noConfusion
      exact ⟨hmode, hid, x, hbefore,
        hrest.lookup_of_lookup (h.kept hother key x hbefore) fun _ => hown key hid⟩
  | @renamed source target hmode hid htaken hfree =>
      have hother : mode ≠ .replace := by
        rw [hmode]
        exact Mode.noConfusion
      refine ⟨hmode, hid, ?_, ?_⟩
      · exact hrest.lookup_of_lookup (Element.lookup_append_of_free hfree rfl)
          fun hreplace => absurd hreplace hother
      · intro x hbefore
        apply hrest.lookup_of_lookup _ fun hreplace => absurd hreplace hother
        exact Element.lookup_append_of_some (h.kept hother source x hbefore) _

theorem Run.tells (h : Run mode held es outcomes final) (hrecalls : Recalls mode before held es) :
    List.Forall₂ (fun e outcome => outcome.Tells mode before (lookup · final) e) es outcomes := by
  induction h with
  | nil held => exact .nil
  | cons hfirst hrest ih =>
      exact .cons (hrecalls.tells hfirst hrest) (ih (hrecalls.step hfirst))

end Outcome

/-! ## Merges as runs -/

namespace Roster

variable {γ : Type} [Generator γ] {mode : Mode} {r after : Roster γ} {e : Element}
  {es : List Element} {outcome : Outcome} {outcomes : List Outcome} {key : String}

theorem draw_free_of_renamed (hid : e.id = some key) (htaken : key ∈ r.ids)
    (hmerge : r.mergeElement .merge e = (.ok outcome, after)) : r.draw.1 ∉ r.ids := by
  intro hmem
  have hadd : r.add { e with id := none } = r.draw.2.append r.draw.1 (e.withId r.draw.1) := rfl
  have hdrawn : r.draw.1 ∈ r.draw.2.ids := hmem
  rw [mergeElement, hid, Option.filter_some, if_pos (by simpa using htaken)] at hmerge
  simp only [hadd, append, if_pos hdrawn] at hmerge
  cases congrArg Prod.fst hmerge

/-- What the `mode` does with `e` is a step, whatever identifier is drawn. -/
theorem step_of_mergeElement (hid : e.id = some key)
    (hmerge : r.mergeElement mode e = (.ok outcome, after)) :
    Outcome.Step mode r.elements e outcome after.elements := by
  by_cases htaken : key ∈ r.ids
  · cases mode with
    | merge =>
        have hfree := draw_free_of_renamed hid htaken hmerge
        rw [mergeElement_of_taken hid htaken hfree] at hmerge
        obtain ⟨hanswer, rfl⟩ := Prod.mk.inj hmerge
        obtain rfl := Except.ok.inj hanswer
        exact .renamed rfl hid htaken hfree
    | replace =>
        rw [mergeElement_replace hid, if_pos htaken] at hmerge
        obtain ⟨hanswer, rfl⟩ := Prod.mk.inj hmerge
        obtain rfl := Except.ok.inj hanswer
        exact .replaced rfl hid htaken
    | skip =>
        rw [mergeElement_skip_of_taken hid htaken] at hmerge
        obtain ⟨hanswer, rfl⟩ := Prod.mk.inj hmerge
        obtain rfl := Except.ok.inj hanswer
        exact .skipped rfl hid htaken
    | fail =>
        rw [mergeElement, hid, Option.filter_some, if_pos (by simpa using htaken)] at hmerge
        cases congrArg Prod.fst hmerge
  · rw [mergeElement_of_free mode hid htaken] at hmerge
    obtain ⟨hanswer, rfl⟩ := Prod.mk.inj hmerge
    obtain rfl := Except.ok.inj hanswer
    exact .added hid htaken

theorem run_of_mergeElements (hidentified : ∀ e ∈ es, ∃ key, e.id = some key)
    (hmerge : r.mergeElements mode es = (.ok outcomes, after)) :
    Outcome.Run mode r.elements es outcomes after.elements := by
  induction es generalizing r outcomes with
  | nil =>
      obtain ⟨hanswer, rfl⟩ := Prod.mk.inj hmerge
      obtain rfl := Except.ok.inj hanswer
      exact .nil _
  | cons e es ih =>
      obtain ⟨key, hid⟩ := hidentified e List.mem_cons_self
      rcases hstep : r.mergeElement mode e with ⟨answer, next⟩
      cases answer with
      | error error =>
          rw [mergeElements, hstep] at hmerge
          cases congrArg Prod.fst hmerge
      | ok outcome =>
          rw [mergeElements_cons_of_ok hstep] at hmerge
          obtain ⟨hanswer, rfl⟩ := Prod.mk.inj hmerge
          obtain ⟨rest, hrest, rfl⟩ := Except.map_eq_ok_iff.mp hanswer
          exact .cons (step_of_mergeElement hid hstep)
            (ih (fun x hx => hidentified x (List.mem_cons_of_mem e hx)) (Prod.ext hrest rfl))

/-- The `report` of a merge that succeeds tells a run from the elements of `r`. -/
theorem run_of_merge {report : MergeReport} (hidentified : ∀ e ∈ es, ∃ key, e.id = some key)
    (hmerge : r.merge mode es = (.ok report, after)) :
    report.mode = mode ∧ Outcome.Run mode r.elements es report.outcomes after.elements := by
  unfold merge at hmerge
  split at hmerge
  · cases congrArg Prod.fst hmerge
  · obtain ⟨hanswer, rfl⟩ := Prod.mk.inj hmerge
    obtain ⟨outcomes, houtcomes, rfl⟩ := Except.map_eq_ok_iff.mp hanswer
    have hrun := run_of_mergeElements hidentified (Prod.ext houtcomes rfl)
    rw [elements_primed] at hrun
    exact ⟨rfl, hrun⟩

end Roster

namespace Package

open Element (lookup)

variable {γ δ : Type} [Generator γ] [Generator δ] {dest after : Package γ} {src : Package δ}
  {mode : Mode} {report : MergeReport}

omit [Generator γ] in
theorem get?_eq_lookup (h : dest.slots.Coherent) : dest.get? = (lookup · dest.elements) := by
  funext key
  exact get?_eq h key

omit [Generator γ] in
theorem nodup_ids (h : dest.slots.Coherent) : dest.ids.Nodup := by
  refine h.pairwise_ne.filterMap Element.id ?_
  intro a b hne key hkey other hother hsame
  exact hne (hkey.trans (hsame ▸ hother.symm))

omit [Generator γ] [Generator δ] in
/-- The elements of `src` that clash with `dest` are as many as the identifiers that both have. -/
theorem countP_clashes_eq_card (hsrc : src.slots.Coherent) :
    src.elements.countP (Element.clashes dest.ids) =
      (dest.ids.toFinset ∩ src.ids.toFinset).card := by
  have hcount : ∀ es : List Element, es.countP (Element.clashes dest.ids) =
      ((es.filterMap Element.id).filter (· ∈ dest.ids)).length := by
    intro es
    rw [← List.countP_eq_length_filter, List.countP_filterMap]
    apply List.countP_congr
    intro e _
    cases hid : e.id <;> simp [Element.clashes, hid]
  have hnodup : (src.ids.filter (· ∈ dest.ids)).Nodup := (nodup_ids hsrc).filter _
  have hinter : dest.ids.toFinset ∩ src.ids.toFinset =
      (src.ids.filter (· ∈ dest.ids)).toFinset := by
    ext key
    simp [and_comm]
  rw [hcount, hinter, List.toFinset_card_of_nodup hnodup]
  rfl

/-- The `report` of a merge of `src` into `dest` that succeeds is a faithful log of it.  It has
one `outcome` for each element `e` of `src`, and what that one `Tells` of `e` is true of the
package `after` the merge. -/
theorem Reachable.merge_report_tells (hdest : Reachable dest) (hsrc : Reachable src)
    (hmerge : dest.merge mode src = (.ok report, after)) :
    report.mode = mode ∧
    List.Forall₂ (fun e outcome => outcome.Tells mode dest.get? after.get? e)
      src.elements report.outcomes ∧
    report.added + report.conflicts = src.size ∧
    after.size = dest.size + report.added + report.renamed ∧
    (mode ≠ .merge →
      report.conflicts = (dest.ids.toFinset ∩ src.ids.toFinset).card) := by
  have hrefines := refines_merge hdest.coherent mode src
  rw [hmerge] at hrefines
  have hafter : after.slots.Coherent := hrefines.coherent
  have hdistinct : src.elements.Pairwise fun a b => a.id ≠ b.id := hsrc.coherent.pairwise_ne
  obtain ⟨hmode, hrun⟩ := Roster.run_of_merge hsrc.coherent.identified hrefines.model_eq
  obtain ⟨told, outcomes⟩ := report
  obtain rfl : told = mode := hmode
  have hrun : Outcome.Run told dest.elements src.elements outcomes after.elements := hrun
  have hrecalls : Outcome.Recalls told dest.get? dest.elements src.elements := by
    refine ⟨hdistinct, ?_, ?_⟩
    · intro _ key x hbefore
      rwa [get?_eq_lookup hdest.coherent] at hbefore
    · intro _ _ _ key _ hmem
      rw [get?_eq_lookup hdest.coherent]
      exact Element.exists_lookup hmem
  have htells := hrun.tells hrecalls
  refine ⟨rfl, ?_, ?_, ?_, ?_⟩
  · rw [get?_eq_lookup hafter]
    exact htells
  · rw [MergeReport.added_add_conflicts, size_eq hsrc.coherent]
    exact htells.length_eq.symm
  · rw [size_eq hafter, size_eq hdest.coherent]
    exact hrun.length_eq hdest.coherent.pairwise_ne
  · intro hother
    rw [hrun.conflicts_eq hother hdistinct, ← countP_clashes_eq_card hsrc.coherent]
    rfl

/-- The first identifier drawn is one that the source brings later, whose element is then
renamed as well although the target did not hold it at the beginning. -/
theorem Reachable.merge_report_tells_of_drawn_identifier :
    let e := Element.ofBody .catalog
    let f := Element.ofBody .attachment
    let dest := (⟨some "d", none, .empty, ⟨["b", "c"]⟩⟩ : Package Listed).run
      [.add (e.withId "a")]
    let src := (⟨some "s", none, .empty, ⟨["x"]⟩⟩ : Package Listed).run
      [.add (f.withId "a"), .add (f.withId "b")]
    Reachable dest ∧ Reachable src ∧
      ∃ after, dest.merge .merge src =
          (.ok ⟨.merge, [.renamed "a" "b", .renamed "b" "c"]⟩, after) ∧
        after.get? "a" = some (e.withId "a") ∧ after.get? "b" = some (f.withId "b") ∧
        after.get? "c" = some (f.withId "c") ∧ after.size = 3 := by
  intro e f dest src
  have hdest : Reachable dest := (Reachable.new _ _ _).run _
  have hsrc : Reachable src := (Reachable.new _ _ _).run _
  have hd : dest.roster = ⟨some "d", none, [e.withId "a"], ⟨["b", "c"]⟩⟩ := by
    rw [roster_run Slots.coherent_empty]
    cbv
  have hs : src.roster =
      ⟨some "s", none, [f.withId "a", f.withId "b"], ⟨["x"]⟩⟩ := by
    rw [roster_run Slots.coherent_empty]
    cbv
  have hmerged : dest.roster.merge .merge src.elements =
      (.ok ⟨.merge, [.renamed "a" "b", .renamed "b" "c"]⟩,
        ⟨some "d", none, [e.withId "a", f.withId "b", f.withId "c"], ⟨["c"]⟩⟩) := by
    rw [← elements_roster src, hd, hs]
    cbv
  have hmodel := refines_merge hdest.coherent .merge src
  rw [hmerged] at hmodel
  obtain ⟨after, hmerge, -⟩ := hmodel.exists_eq
  obtain ⟨-, htells, -, hsize, -⟩ := hdest.merge_report_tells hsrc hmerge
  rw [← elements_roster src, hs] at htells
  rcases htells with _ | ⟨⟨-, -, hfirst, hkept⟩, _ | ⟨⟨-, -, hsecond, -⟩, -⟩⟩
  have hold : dest.get? "a" = some (e.withId "a") := by
    rw [get?_eq hdest.coherent, hd]
    rfl
  rw [size_eq hdest.coherent, ← elements_roster dest, hd] at hsize
  exact ⟨hdest, hsrc, after, hmerge, hkept _ hold, hfirst, hsecond, hsize⟩

end Package

end MediaManifest
