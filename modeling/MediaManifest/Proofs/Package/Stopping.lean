import MediaManifest.Proofs.Package.Reporting

/-!
# Merges that stop

A merge goes through the elements of the source and stops at the first that
fails.  In the mode that renames only a drawn identifier can make an element
fail: it is drawn for an element that met its own identifier in the target, and
the target as it has grown until then holds the drawn one as well (`Clash`).  A
generator that repeats itself does that, and one that draws an identifier still
to come from the source does not, for that element is then renamed in its turn.
-/

namespace MediaManifest

open Generator (next)

/-- The element that a merge adds for the element `e` of the source. -/
def Outcome.image (e : Element) : Outcome → Element
  | .renamed _ target => e.withId target
  | _ => e

namespace Roster

variable {γ : Type} [Generator γ] {mode : Mode} {r after : Roster γ} {e : Element}
  {es : List Element} {outcome : Outcome} {outcomes : List Outcome} {error : Error} {key : String}

/-- The mode `merge` adds the image of `e` and does nothing else. -/
theorem eq_extend_of_mergeElement (hid : e.id = some key)
    (hmerge : r.mergeElement .merge e = (.ok outcome, after)) :
    ∃ g, after = r.extend ([outcome.image e], g) := by
  by_cases htaken : key ∈ r.ids
  · have hfree := draw_free_of_renamed hid htaken hmerge
    rw [mergeElement_of_taken hid htaken hfree] at hmerge
    obtain ⟨hanswer, rfl⟩ := Prod.mk.inj hmerge
    obtain rfl := Except.ok.inj hanswer
    exact ⟨_, rfl⟩
  · rw [mergeElement_of_free .merge hid htaken] at hmerge
    obtain ⟨hanswer, rfl⟩ := Prod.mk.inj hmerge
    obtain rfl := Except.ok.inj hanswer
    exact ⟨_, rfl⟩

theorem eq_extend_of_mergeElements (hidentified : ∀ e ∈ es, ∃ key, e.id = some key)
    (hmerge : r.mergeElements .merge es = (.ok outcomes, after)) :
    outcomes.length = es.length ∧
      ∃ g, after = r.extend (List.zipWith Outcome.image es outcomes, g) := by
  induction es generalizing r outcomes with
  | nil =>
      obtain ⟨hanswer, rfl⟩ := Prod.mk.inj hmerge
      obtain rfl := Except.ok.inj hanswer
      exact ⟨rfl, r.generator, (extend_nil r).symm⟩
  | cons e es ih =>
      obtain ⟨key, hid⟩ := hidentified e List.mem_cons_self
      rcases hstep : r.mergeElement .merge e with ⟨answer, grown⟩
      cases answer with
      | error error =>
          rw [mergeElements, hstep] at hmerge
          cases congrArg Prod.fst hmerge
      | ok outcome =>
          rw [mergeElements_cons_of_ok hstep] at hmerge
          obtain ⟨hanswer, rfl⟩ := Prod.mk.inj hmerge
          obtain ⟨rest, hrest, rfl⟩ := Except.map_eq_ok_iff.mp hanswer
          obtain ⟨first, rfl⟩ := eq_extend_of_mergeElement hid hstep
          obtain ⟨hlength, g, hafter⟩ :=
            ih (fun x hx => hidentified x (List.mem_cons_of_mem e hx)) (Prod.ext hrest rfl)
          exact ⟨congrArg Nat.succ hlength, g, hafter.trans (extend_extend r _ first _)⟩

end Roster

namespace Package

variable {γ δ : Type} [Generator γ] {dest grown after : Package γ} {src : Package δ}
  {mode : Mode} {e : Element} {error : Error} {key : String}

/-- A merge of the elements `es` succeeds, or it ends as the merge of the first `e` that fails
ends, which meets the target as the elements `front` before it have left it. -/
theorem mergeElements_cases (mode : Mode) (dest : Package γ) (es : List Element) :
    (∃ outcomes after, mergeElements mode dest es = (.ok outcomes, after)) ∨
      ∃ front e back outcomes grown error after, es = front ++ e :: back ∧
        mergeElements mode dest front = (.ok outcomes, grown) ∧
        mergeElement mode grown e = (.error error, after) ∧
        mergeElements mode dest es = (.error error, after) := by
  induction es generalizing dest with
  | nil => exact .inl ⟨[], dest, rfl⟩
  | cons e es ih =>
      rcases hstep : mergeElement mode dest e with ⟨answer, next⟩
      cases answer with
      | error error =>
          -- The first element fails already, so nothing is merged before it.
          refine .inr ⟨[], e, es, [], dest, error, next, rfl, rfl, hstep, ?_⟩
          rw [mergeElements, hstep]
      | ok outcome =>
          have hcons (rest : List Element) : mergeElements mode dest (e :: rest) =
              (mergeElements mode next rest).map (Except.map (outcome :: ·)) id := by
            rw [mergeElements, hstep]
            rfl
          rcases ih next with ⟨outcomes, after, hrest⟩ | hstops
          · refine .inl ⟨outcome :: outcomes, after, ?_⟩
            rw [hcons, hrest]
            rfl
          · obtain ⟨front, x, back, outcomes, grown, error, after, rfl, hfront, hx, hrest⟩ := hstops
            refine .inr ⟨e :: front, x, back, outcome :: outcomes, grown, error, after, rfl, ?_,
              hx, ?_⟩
            · rw [hcons, hfront]
              rfl
            · rw [hcons, hrest]
              rfl

/-- An element `e` whose identifier is taken cannot be added under a drawn one that is taken too. -/
theorem mergeElement_of_draw_taken (h : dest.slots.Coherent) (hid : e.id = some key)
    (htaken : key ∈ dest.ids) (hdraw : (next dest.generator).1 ∈ dest.ids) :
    mergeElement .merge dest e =
      (.error (.duplicateElement (next dest.generator).1),
        { dest with generator := (next dest.generator).2 }) := by
  have hkey : e.id.filter dest.contains = some key := by
    rw [hid, Option.filter_some, if_pos ((contains_iff h).mpr htaken)]
  have hdrawn : dest.draw.2.contains dest.draw.1 = true := (contains_iff h).mpr hdraw
  have hadd : dest.add { e with id := none } =
      (.error (.duplicateElement dest.draw.1), dest.draw.2) := by
    simp only [add, insert, hdrawn, if_true]
  rw [mergeElement, hkey]
  simp only
  rw [hadd]
  rfl

/-- In the mode `merge` an element `e` fails only at a drawn identifier. -/
theorem eq_of_mergeElement_error (h : dest.slots.Coherent) (hid : e.id = some key)
    (hmerge : mergeElement .merge dest e = (.error error, after)) :
    key ∈ dest.ids ∧ (next dest.generator).1 ∈ dest.ids ∧
      error = .duplicateElement (next dest.generator).1 ∧
      after = { dest with generator := (next dest.generator).2 } := by
  have hmodel := refines_mergeElement h .merge e
  rw [hmerge] at hmodel
  have htaken : key ∈ dest.ids := by
    by_contra hfree
    have hok := Roster.mergeElement_of_free (r := dest.roster) .merge hid hfree
    cases (congrArg Prod.fst hok).symm.trans hmodel.answer.symm
  have hdraw : (next dest.generator).1 ∈ dest.ids := by
    by_contra hfree
    have hok := Roster.mergeElement_of_taken (r := dest.roster) hid htaken hfree
    cases (congrArg Prod.fst hok).symm.trans hmodel.answer.symm
  rw [mergeElement_of_draw_taken h hid htaken hdraw] at hmerge
  obtain ⟨hanswer, hafter⟩ := Prod.mk.inj hmerge
  exact ⟨htaken, hdraw, (Except.error.inj hanswer).symm, hafter.symm⟩

/-- The target `dest` has grown by the elements `front` of the source in the mode `merge`. -/
structure Grown (dest : Package γ) (front : List Element) (outcomes : List Outcome)
    (grown : Package γ) : Prop where
  run : Outcome.Run .merge dest.elements front outcomes grown.elements
  length_eq : outcomes.length = front.length
  elements : grown.elements = dest.elements ++ List.zipWith Outcome.image front outcomes
  identifier : grown.identifier = dest.identifier
  title : grown.title = dest.title
  coherent : grown.slots.Coherent

theorem grown_of_mergeElements (h : dest.slots.Coherent) {front : List Element}
    {outcomes : List Outcome} {keys : List String}
    (hidentified : ∀ e ∈ front, ∃ key, e.id = some key)
    (hmerge : mergeElements .merge (primed .merge dest keys) front = (.ok outcomes, grown)) :
    Grown dest front outcomes grown := by
  have hmodel := refines_mergeElements (coherent_primed h .merge keys) .merge front
  rw [hmerge] at hmodel
  have hroster := hmodel.model_eq
  obtain ⟨hlength, g, hgrown⟩ := Roster.eq_extend_of_mergeElements hidentified hroster
  exact ⟨Roster.run_of_mergeElements hidentified hroster, hlength,
    congrArg Roster.elements hgrown, congrArg Roster.identifier hgrown,
    congrArg Roster.title hgrown, hmodel.coherent⟩

/-- The moment at which a merge that renames meets an identifier that the target holds: the
elements `front` of `src` before the element `e` that has it are merged, and have made the target
grow. -/
structure Clash (dest : Package γ) (src : Package δ) (front : List Element) (e : Element)
    (outcomes : List Outcome) (grown : Package γ) : Prop where
  order : ∃ back, src.elements = front ++ e :: back
  merged : mergeElements .merge (primed .merge dest src.ids) front = (.ok outcomes, grown)
  held : ∃ key, e.id = some key ∧ key ∈ grown.ids

theorem exists_clash_of_error (hdest : dest.slots.Coherent) (hsrc : src.slots.Coherent)
    (hmerge : dest.merge .merge src = (.error error, after)) :
    ∃ front e outcomes grown, Clash dest src front e outcomes grown ∧
      Grown dest front outcomes grown ∧ (next grown.generator).1 ∈ grown.ids ∧
      error = .duplicateElement (next grown.generator).1 ∧
      after = { grown with generator := (next grown.generator).2 } := by
  have hrefusal : refusal? .merge dest src.ids = none := rfl
  rw [merge_of_no_refusal hrefusal] at hmerge
  rcases mergeElements_cases .merge (primed .merge dest src.ids) src.elements with
    ⟨outcomes, grown, hall⟩ | ⟨front, e, back, outcomes, grown, last, stopped, horder, hfront, he,
      hall⟩
  · rw [hall] at hmerge
    cases congrArg Prod.fst hmerge
  · rw [hall] at hmerge
    obtain ⟨hanswer, rfl⟩ := Prod.mk.inj hmerge
    obtain rfl := Except.error.inj hanswer
    have hidentified : ∀ x ∈ front ++ e :: back, ∃ key, x.id = some key := by
      rw [← horder]
      exact hsrc.identified
    obtain ⟨key, hid⟩ := hidentified e (List.mem_append_right _ List.mem_cons_self)
    have hgrown := grown_of_mergeElements hdest
      (fun x hx => hidentified x (List.mem_append_left _ hx)) hfront
    obtain ⟨hheld, hdraw, herror, hafter⟩ := eq_of_mergeElement_error hgrown.coherent hid he
    exact ⟨front, e, outcomes, grown, ⟨⟨back, horder⟩, hfront, key, hid, hheld⟩, hgrown, hdraw,
      herror, hafter⟩

/-- A merge that renames and succeeds adds every element of `src` to `dest`. -/
theorem size_of_merge (hdest : dest.slots.Coherent) (hsrc : src.slots.Coherent)
    {report : MergeReport} (hmerge : dest.merge .merge src = (.ok report, after)) :
    after.size = dest.size + src.size := by
  have hrefusal : refusal? .merge dest src.ids = none := rfl
  rw [merge_of_no_refusal hrefusal] at hmerge
  obtain ⟨outcomes, hloop, -⟩ := Except.exists_of_map_eq_ok hmerge
  have hgrown := grown_of_mergeElements hdest hsrc.identified hloop
  have hlength : (List.zipWith Outcome.image src.elements outcomes).length =
      src.elements.length := by
    rw [List.length_zipWith, hgrown.length_eq]
    exact Nat.min_self _
  rw [size_eq hgrown.coherent, size_eq hdest, size_eq hsrc, ← hlength, ← List.length_append]
  exact congrArg List.length hgrown.elements

/-- A merge of `src` into `dest` that renames fails only where the identifier that the generator
has just drawn for an element `e` whose own one is held is held as well.  The target then holds
what `dest` held, followed by the images of exactly the elements `front` before `e`, and has kept
its identifier, its title and the coherence of its slots.  If the generator never does that, the
merge adds as many elements as `src` has. -/
theorem Reachable.merge_stops_cleanly [Generator δ] (hdest : Reachable dest)
    (hsrc : Reachable src) :
    (∀ error after, dest.merge .merge src = (.error error, after) →
      ∃ front e outcomes grown, Clash dest src front e outcomes grown ∧
        (next grown.generator).1 ∈ grown.ids ∧
        error = .duplicateElement (next grown.generator).1 ∧
        after = { grown with generator := (next grown.generator).2 } ∧
        Outcome.Run .merge dest.elements front outcomes after.elements ∧
        after.elements = dest.elements ++ List.zipWith Outcome.image front outcomes ∧
        after.identifier = dest.identifier ∧ after.title = dest.title ∧
        after.slots.Coherent) ∧
    ((∀ front e outcomes grown, Clash dest src front e outcomes grown →
        (next grown.generator).1 ∉ grown.ids) →
      ∃ report after, dest.merge .merge src = (.ok report, after) ∧
        after.size = dest.size + src.size) := by
  refine ⟨fun error after hfails => ?_, fun hnever => ?_⟩
  · obtain ⟨front, e, outcomes, grown, hclash, hgrown, hdraw, herror, rfl⟩ :=
      exists_clash_of_error hdest.coherent hsrc.coherent hfails
    exact ⟨front, e, outcomes, grown, hclash, hdraw, herror, rfl, hgrown.run, hgrown.elements,
      hgrown.identifier, hgrown.title, hgrown.coherent⟩
  · rcases hmerge : dest.merge .merge src with ⟨answer, after⟩
    cases answer with
    | error error =>
        obtain ⟨front, e, outcomes, grown, hclash, -, hdraw, -⟩ :=
          exists_clash_of_error hdest.coherent hsrc.coherent hmerge
        exact absurd hdraw (hnever front e outcomes grown hclash)
    | ok report => exact ⟨report, after, rfl, size_of_merge hdest.coherent hsrc.coherent hmerge⟩

/-- The second identifier drawn is one that the source has brought before. -/
theorem Reachable.merge_stops_cleanly_at_repeated_identifier :
    let e := Element.ofBody .catalog
    let f := Element.ofBody .attachment
    let dest := (⟨some "d", some "t", .empty, ⟨["x", "c", "y"]⟩⟩ : Package Listed).run
      [.add (e.withId "a"), .add (e.withId "b")]
    let src := (⟨some "s", none, .empty, ⟨["z"]⟩⟩ : Package Listed).run
      [.add (f.withId "a"), .add (f.withId "c"), .add (f.withId "b"), .add (f.withId "g")]
    Reachable dest ∧ Reachable src ∧
      ∃ front x outcomes grown after,
        dest.merge .merge src = (.error (.duplicateElement "c"), after) ∧
        Clash dest src front x outcomes grown ∧ "c" ∈ grown.ids ∧
        after.elements = dest.elements ++ List.zipWith Outcome.image front outcomes ∧
        after.elements = [e.withId "a", e.withId "b", f.withId "x", f.withId "c"] ∧
        after.title = dest.title ∧ after.slots.Coherent := by
  intro e f dest src
  have hdest : Reachable dest := (Reachable.new _ _ _).run _
  have hsrc : Reachable src := (Reachable.new _ _ _).run _
  have hd : dest.roster =
      ⟨some "d", some "t", [e.withId "a", e.withId "b"], ⟨["x", "c", "y"]⟩⟩ := by
    rw [roster_run Slots.coherent_empty]
    cbv
  have hs : src.roster = ⟨some "s", none,
      [f.withId "a", f.withId "c", f.withId "b", f.withId "g"], ⟨["z"]⟩⟩ := by
    rw [roster_run Slots.coherent_empty]
    cbv
  have hmerged : dest.roster.merge .merge src.elements =
      (.error (.duplicateElement "c"), ⟨some "d", some "t",
        [e.withId "a", e.withId "b", f.withId "x", f.withId "c"], ⟨["y"]⟩⟩) := by
    rw [← elements_roster src, hd, hs]
    cbv
  have hmodel := refines_merge hdest.coherent .merge src
  rw [hmerged] at hmodel
  obtain ⟨after, hmerge, hroster, -⟩ := hmodel.exists_eq
  obtain ⟨front, x, outcomes, grown, hclash, hheld, herror, -, -, himages, -, htitle, hcoherent⟩ :=
    (hdest.merge_stops_cleanly hsrc).1 _ _ hmerge
  have hdrawn : (next grown.generator).1 = "c" := (Error.duplicateElement.inj herror).symm
  rw [hdrawn] at hheld
  exact ⟨hdest, hsrc, front, x, outcomes, grown, after, hmerge, hclash, hheld, himages,
    congrArg Roster.elements hroster, htitle, hcoherent⟩

/-! ## Which modes fail -/

/-- A merge in the mode `fail` reports a conflict if `dest` and `src` share an identifier. -/
theorem fst_merge_of_shared (hdest : dest.slots.Coherent)
    (hshared : ∃ key ∈ dest.ids, key ∈ src.ids) :
    ∃ key, (dest.merge .fail src).1 = .error (.conflict dest.display key) := by
  obtain ⟨shared, hheld, hbrought⟩ := hshared
  obtain ⟨-, key, -, -, -, -, hfirst⟩ := exists_firstConflict hdest ⟨shared, hbrought, hheld⟩
  have hrefusal : refusal? .fail dest src.ids = some key := hfirst
  exact ⟨key, congrArg Prod.fst (merge_of_refusal hrefusal)⟩

theorem apart_of_merge_fail (hdest : dest.slots.Coherent) {report : MergeReport}
    (hmerge : dest.merge .fail src = (.ok report, after)) : ∀ key ∈ dest.ids, key ∉ src.ids := by
  intro key hheld hbrought
  obtain ⟨first, hconflict⟩ := fst_merge_of_shared hdest ⟨key, hheld, hbrought⟩
  cases (congrArg Prod.fst hmerge).symm.trans hconflict

/-- Merges fail on a conflict in the mode `fail`, at a drawn identifier in the mode `merge`, and
in no other way. -/
theorem merge_error_cases (hdest : dest.slots.Coherent) (hsrc : src.slots.Coherent)
    (hmerge : dest.merge mode src = (.error error, after)) :
    (mode = .fail ∧ (∃ key ∈ dest.ids, key ∈ src.ids) ∧
        ∃ key, error = .conflict dest.display key) ∨
      (mode = .merge ∧ ∃ key, error = .duplicateElement key) := by
  have hawaits := awaits_of_coherent hsrc dest
  have hmodel := refines_merge hdest mode src
  rw [hmerge] at hmodel
  cases mode with
  | merge =>
      obtain ⟨_, _, _, grown, -, -, -, herror, -⟩ := exists_clash_of_error hdest hsrc hmerge
      exact .inr ⟨rfl, _, herror⟩
  | replace =>
      rw [Roster.merge_of_mergeElements (r := dest.roster) rfl hawaits.mergeElements_replace]
        at hmodel
      cases hmodel.answer
  | skip =>
      rw [Roster.merge_of_mergeElements (r := dest.roster) rfl hawaits.mergeElements_skip]
        at hmodel
      cases hmodel.answer
  | fail =>
      by_cases hshared : ∃ key ∈ dest.ids, key ∈ src.ids
      · obtain ⟨key, hconflict⟩ := fst_merge_of_shared hdest hshared
        rw [hmerge] at hconflict
        exact .inl ⟨rfl, hshared, key, Except.error.inj hconflict⟩
      · have hdisjoint : ∀ key ∈ dest.ids, key ∉ src.ids := fun key hheld hbrought =>
          hshared ⟨key, hheld, hbrought⟩
        obtain ⟨_, hok, -⟩ := merge_of_disjoint hdest hsrc .fail hdisjoint
        cases congrArg Prod.fst (hok.symm.trans hmerge)

end Package

end MediaManifest
