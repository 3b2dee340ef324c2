import MediaManifest.Proofs.Package.Overlap

/-!
# Updating elements

An update removes whatever has the identifier of the new element, and a merge
that replaces removes it only where the target holds it.  Removing an identifier
that is absent leaves the slots as they are, so the two do the same with every
element, and leave the same package after all elements of the source, down to
its slots.
-/

namespace MediaManifest

open Generator (reserveAll)

namespace Slots

theorem remove_of_absent {s : Slots} {key : String} (habsent : s.contains key = false) :
    s.remove key = (none, s) := by
  rw [remove, Std.HashMap.getElem?_eq_none_of_contains_eq_false habsent]

end Slots

namespace Roster

variable {γ : Type} [Generator γ] {r : Roster γ} {e : Element} {key : String}

theorem updateElement_of_some (hid : e.id = some key) :
    r.updateElement e = (.ok key, r.supersede key e) := by
  rw [updateElement, remove, hid]
  exact add_removeById hid

end Roster

namespace Package

variable {γ δ : Type} [Generator γ] [Generator δ] {p dest : Package γ} {src : Package δ}
  {e : Element} {es : List Element} {key : String}

/-- Updates elements one after the other, up to the first that cannot be added, and answers
the identifiers that they are held under. -/
def updateAll (p : Package γ) : List Element → Except Error (List String) × Package γ
  | [] => (.ok [], p)
  | e :: es =>
    match p.updateElement e with
    | (.error error, p) => (.error error, p)
    | (.ok key, p) => (p.updateAll es).map (Except.map (key :: ·)) id

omit [Generator γ] in
theorem removeById_of_absent (habsent : p.contains key = false) :
    (p.removeById key).2 = p := by
  rw [removeById, Slots.remove_of_absent habsent]

/-- An element `e` with the identifier `key` is added under `key` or not at all. -/
theorem map_add (f : String → Outcome) (hid : e.id = some key) :
    (p.add e).1.map f = (p.add e).1.map fun _ => f key := by
  rw [add, hid]
  simp only [insert]
  split <;> rfl

/-- A merge that replaces does with `e` what an update does. -/
theorem mergeElement_replace (hid : e.id = some key) :
    mergeElement .replace p e =
      (p.updateElement e).map
        (Except.map fun _ => if p.contains key then .replaced key else .added key) id := by
  have hremove : p.remove e = p.removeById key := by
    rw [remove, hid]
  rw [mergeElement, hid, Option.filter_some, updateElement, hremove]
  by_cases htaken : p.contains key = true
  · rw [if_pos htaken]
    simp only [htaken, if_true]
    rfl
  · rw [if_neg htaken, removeById_of_absent (by simpa using htaken)]
    simp only [htaken]
    exact Prod.ext (map_add .added hid) rfl

/-- Updating the elements `es`, which have identifiers, succeeds at every step, and leaves what
merging them in the mode `replace` leaves. -/
theorem exists_updateAll (h : p.slots.Coherent) (hes : ∀ e ∈ es, ∃ key, e.id = some key) :
    ∃ outcomes after, mergeElements .replace p es = (.ok outcomes, after) ∧
      p.updateAll es = (.ok (es.filterMap Element.id), after) := by
  induction es generalizing p with
  | nil => exact ⟨[], p, rfl, rfl⟩
  | cons e es ih =>
      obtain ⟨⟨key, hid⟩, hrest⟩ := List.forall_mem_cons.mp hes
      have hmodel := refines_updateElement h e
      rw [Roster.updateElement_of_some hid] at hmodel
      obtain ⟨next, hupdate, -, hcoherent⟩ := hmodel.exists_eq
      obtain ⟨outcomes, after, hmerge, hall⟩ := ih hcoherent hrest
      have hstep := mergeElement_replace (p := p) hid
      rw [hupdate] at hstep
      refine ⟨(if p.contains key then .replaced key else .added key) :: outcomes, after,
        ?_, ?_⟩
      · rw [mergeElements, hstep]
        simp only [Prod.map, Except.map, id_eq, hmerge]
      · rw [updateAll, hupdate, List.filterMap_cons_some hid]
        simp only [hall]
        rfl

/-- Updating an element `e` with the identifier `key` always succeeds, and leaves the other
elements of `dest` in order and `e` behind them.  Updating all elements of `src` one after the
other succeeds at every step and leaves the very package `after` that merging `src` in the mode
`replace` leaves. -/
theorem Reachable.update_replaces (hdest : Reachable dest) (hsrc : Reachable src) :
    (∀ e key, e.id = some key →
      ∃ after, dest.updateElement e = (.ok key, after) ∧
        after.elements = (dest.elements.filter fun x => x.id != some key) ++ [e] ∧
        Updates [key] dest after) ∧
    ∃ outcomes after, dest.merge .replace src = (.ok ⟨.replace, outcomes⟩, after) ∧
      dest.updateAll src.elements = (.ok src.ids, after) := by
  constructor
  · intro e key hid
    have hmodel := refines_updateElement hdest.coherent e
    rw [Roster.updateElement_of_some hid] at hmodel
    obtain ⟨after, hupdate, hroster, hcoherent⟩ := hmodel.exists_eq
    exact ⟨after, hupdate, congrArg Roster.elements hroster,
      updates_of_roster hroster hcoherent⟩
  · obtain ⟨outcomes, after, hloop, hall⟩ :=
      exists_updateAll hdest.coherent hsrc.coherent.identified
    have hrefusal : refusal? .replace dest src.ids = none := rfl
    refine ⟨outcomes, after, ?_, hall⟩
    rw [merge_of_no_refusal hrefusal]
    exact congrArg (Prod.map (Except.map (MergeReport.mk .replace)) id) hloop

/-- The source shares two identifiers with a target that has lost an element, and brings the
lost one back. -/
theorem Reachable.update_replaces_of_two_overlaps :
    let e := Element.ofBody .catalog
    let f := Element.ofBody .attachment
    let dest := (⟨some "d", none, .empty, ⟨["x"]⟩⟩ : Package Listed).run
      [.add (e.withId "a"), .add (e.withId "b"), .add (e.withId "c"), .add (e.withId "d"),
        .removeById "b"]
    let src := (⟨some "s", none, .empty, ⟨["x"]⟩⟩ : Package Listed).run
      [.add (f.withId "d"), .add (f.withId "b"), .add (f.withId "a")]
    Reachable dest ∧ Reachable src ∧
      (∃ after, dest.updateElement (f.withId "c") = (.ok "c", after) ∧
        after.elements = [e.withId "a", e.withId "d", f.withId "c"]) ∧
      ∃ outcomes after, dest.merge .replace src = (.ok ⟨.replace, outcomes⟩, after) ∧
        dest.updateAll src.elements = (.ok ["d", "b", "a"], after) ∧
        after.elements = [e.withId "c", f.withId "d", f.withId "b", f.withId "a"] := by
  intro e f dest src
  have hdest : Reachable dest := (Reachable.new _ _ _).run _
  have hsrc : Reachable src := (Reachable.new _ _ _).run _
  have hd : dest.roster =
      ⟨some "d", none, [e.withId "a", e.withId "c", e.withId "d"], ⟨["x"]⟩⟩ := by
    rw [roster_run Slots.coherent_empty]
    cbv
  have hs : src.roster =
      ⟨some "s", none, [f.withId "d", f.withId "b", f.withId "a"], ⟨["x"]⟩⟩ := by
    rw [roster_run Slots.coherent_empty]
    cbv
  obtain ⟨hupdate, outcomes, after, hmerge, hall⟩ := hdest.update_replaces hsrc
  refine ⟨hdest, hsrc, ?_, outcomes, after, hmerge, ?_, ?_⟩
  · obtain ⟨updated, hupdated, helements, -⟩ := hupdate (f.withId "c") "c" rfl
    rw [← elements_roster dest, hd] at helements
    exact ⟨updated, hupdated, helements⟩
  · rw [← ids_roster, hs] at hall
    exact hall
  · have hmodel := (refines_merge hdest.coherent .replace src).roster
    rw [hmerge, ← elements_roster src, hd, hs] at hmodel
    exact (congrArg Roster.elements hmodel).trans (by cbv)

end Package

end MediaManifest
