import MediaManifest.Proofs.Package.Reachable

/-!
# Editing elements

An edit is made before it is known whether the identifier that it asks for is
free.  The edited element therefore stands in the old place in any case, and
only its identifier is decided afterwards: it is the one asked for, or the old
one again if that is taken.  An edit that clears the identifier asks for the
next one drawn, which may be any identifier at all, the old one among them.
-/

namespace MediaManifest

namespace Roster

variable {γ : Type} {r : Roster γ} {front back : List Element} {e : Element} {key : String}

/-- The element `e` of `r` with the identifier `key`, and the elements `front` and `back` around
it, which do not have it. -/
structure Cut (r : Roster γ) (key : String) (front : List Element) (e : Element)
    (back : List Element) : Prop where
  elements : r.elements = front ++ e :: back
  id : e.id = some key
  others : ∀ x ∈ front ++ back, x.id ≠ some key

theorem exists_cut (hdistinct : r.elements.Pairwise fun a b => a.id ≠ b.id)
    (hkey : key ∈ r.ids) : ∃ front e back, r.Cut key front e back := by
  obtain ⟨e, he, hid⟩ := List.mem_filterMap.mp hkey
  obtain ⟨front, back, helements⟩ := List.append_of_mem he
  rw [helements, List.pairwise_append, List.pairwise_cons] at hdistinct
  obtain ⟨-, ⟨hback, -⟩, hfront⟩ := hdistinct
  refine ⟨front, e, back, helements, hid, ?_⟩
  intro x hx
  rw [← hid]
  rcases List.mem_append.mp hx with hx | hx
  · exact hfront x hx e List.mem_cons_self
  · exact (hback x hx).symm

theorem Cut.get?_eq (h : r.Cut key front e back) : r.get? key = some e := by
  have hfront : front.find? (fun x => x.id == some key) = none := by
    rw [List.find?_eq_none]
    intro x hx
    simpa using h.others x (List.mem_append_left _ hx)
  rw [get?, h.elements, List.find?_append, hfront, Option.none_or,
    List.find?_cons_of_pos (by simp [h.id])]

theorem Cut.substitute_eq (h : r.Cut key front e back) (new : Element) :
    r.substitute key new = { r with elements := front ++ new :: back } := by
  rw [substitute, h.elements, Slots.map_substitute h.id h.others]

variable [Generator γ]

theorem Cut.settle_eq (h : r.Cut key front e back) (new : String) (edited : Element) :
    r.settle key new edited =
      if new ∈ r.ids then
        (.error (.duplicateElement new),
          { r with elements := front ++ edited.withId key :: back })
      else
        (.ok true,
          { r with
            elements := front ++ edited.withId new :: back
            generator := Generator.reserve new r.generator }) := by
  rw [settle, h.substitute_eq, h.substitute_eq]
  rfl

/-- An edit in full.  The identifier `asked` for is the one that the edit left, or a drawn one; it
is the generator after drawing that is told of an identifier that is taken up. -/
theorem Cut.editElement_eq (h : r.Cut key front e back) (edit : Element → Element) :
    let edited := edit e
    let asked := edited.id.getD (Generator.next r.generator).1
    let drawn := if edited.id = none then (Generator.next r.generator).2 else r.generator
    r.editElement key edit =
      if edited.id = some key then (.ok true, { r with elements := front ++ edited :: back })
      else if asked ∈ r.ids then
        (.error (.duplicateElement asked),
          { r with elements := front ++ edited.withId key :: back, generator := drawn })
      else
        (.ok true,
          { r with
            elements := front ++ edited.withId asked :: back
            generator := Generator.reserve asked drawn }) := by
  intro edited asked drawn
  have hdraw : r.draw.2.Cut key front e back := ⟨h.elements, h.id, h.others⟩
  cases hid : (edit e).id with
  | none =>
      have hasked : asked = r.draw.1 := by simp [asked, edited, hid, draw]
      have hdrawn : drawn = (Generator.next r.generator).2 := by simp [drawn, edited, hid]
      simp only [editElement, h.get?_eq, hid]
      have hcleared : ¬ (none : Option String) = some key := nofun
      rw [if_neg hcleared, hdraw.settle_eq, hasked, hdrawn]
      rfl
  | some new =>
      have hasked : asked = new := by simp [asked, edited, hid]
      have hdrawn : drawn = r.generator := by simp [drawn, edited, hid]
      simp only [editElement, h.get?_eq, hid]
      rw [h.substitute_eq, h.settle_eq, hasked, hdrawn]
      simp only [edited, Option.some.injEq]

end Roster

namespace Package

variable {γ : Type} {p : Package γ} {e : Element} {key : String}

theorem get?_of_mem (h : p.slots.Coherent) (he : e ∈ p.elements) (hid : e.id = some key) :
    p.get? key = some e := by
  obtain ⟨pos, hcell⟩ := Slots.mem_elements_iff.mp he
  rw [get?, Slots.get?, h.find?_eq_some_iff.mpr ⟨hcell, hid⟩]
  rfl

theorem get?_eq_none_iff (h : p.slots.Coherent) : p.get? key = none ↔ key ∉ p.ids := by
  rw [get?_eq h, Roster.get?, List.find?_eq_none, mem_ids_iff]
  simp

/-- The package `after` is `p` with another element `x` between the same elements as before. -/
structure Replaced (p after : Package γ) (front : List Element) (x : Element)
    (back : List Element) (g : γ) : Prop where
  elements : after.elements = front ++ x :: back
  generator : after.generator = g
  coherent : after.slots.Coherent
  size : after.size = p.size
  identifier : after.identifier = p.identifier
  title : after.title = p.title

theorem replaced_of_refines {α : Type} {step : α × Package γ} {answer : α}
    {front back : List Element} {x : Element} {g : γ} (h : p.slots.Coherent)
    (helements : p.elements = front ++ e :: back)
    (hrefines : Refines step
      (answer, { p.roster with elements := front ++ x :: back, generator := g })) :
    step.1 = answer ∧ Replaced p step.2 front x back g := by
  have hroster := hrefines.roster
  have hafter : step.2.elements = front ++ x :: back := congrArg Roster.elements hroster
  refine ⟨hrefines.answer, hafter, congrArg Roster.generator hroster, hrefines.coherent, ?_,
    congrArg Roster.identifier hroster, congrArg Roster.title hroster⟩
  rw [size_eq hrefines.coherent, size_eq h, hafter, helements]
  simp

theorem Replaced.get?_eq {after : Package γ} {front back : List Element} {x : Element} {g : γ}
    (h : Replaced p after front x back g) (hid : x.id = some key) : after.get? key = some x := by
  refine get?_of_mem h.coherent ?_ hid
  rw [h.elements]
  exact List.mem_append_right _ List.mem_cons_self

/-- An element `x` that replaces the one under `key` by another identifier leaves `key` unknown. -/
theorem Replaced.not_mem_ids {after : Package γ} {front back : List Element} {x : Element}
    {g : γ} (h : Replaced p after front x back g) (hx : x.id ≠ some key)
    (hothers : ∀ y ∈ front ++ back, y.id ≠ some key) : key ∉ after.ids := by
  rw [mem_ids_iff, h.elements]
  rintro ⟨y, hy, hid⟩
  rcases List.mem_append.mp hy with hfront | hmore
  · exact hothers y (List.mem_append_left _ hfront) hid
  · rcases List.mem_cons.mp hmore with rfl | hback
    · exact hx hid
    · exact hothers y (List.mem_append_right _ hback) hid

variable [Generator γ]

/-- An `edit` touches the element `e` under the identifier `key` and nothing else.  Without such
an element it changes nothing.  Otherwise the `edited` element stands in the old place: under the
identifier `asked` for, if the edit kept `key` or no element has it, and under `key` if that is
refused.  The generator draws once if the edit cleared the identifier, and not at all if it did
not. -/
theorem Reachable.editElement_in_place (h : Reachable p) (key : String)
    (edit : Element → Element) :
    (key ∉ p.ids → p.editElement key edit = (.ok false, p)) ∧
    (key ∈ p.ids → ∃ front e back, p.elements = front ++ e :: back ∧ e.id = some key ∧
      let edited := edit e
      let asked := edited.id.getD (Generator.next p.generator).1
      let drawn := if edited.id = none then (Generator.next p.generator).2 else p.generator
      let answer := (p.editElement key edit).1
      let after := (p.editElement key edit).2
      (edited.id = some key ∨ asked ∉ p.ids →
        answer = .ok true ∧
        after.elements = front ++ edited.withId asked :: back ∧
        after.get? asked = some (edited.withId asked) ∧
        (asked ≠ key → after.get? key = none ∧ after.contains key = false) ∧
        after.generator =
          if edited.id = some key then drawn else Generator.reserve asked drawn) ∧
      (¬(edited.id = some key ∨ asked ∉ p.ids) →
        answer = .error (.duplicateElement asked) ∧
        after.elements = front ++ edited.withId key :: back ∧
        after.get? key = some (edited.withId key) ∧
        after.generator = drawn) ∧
      after.size = p.size ∧ after.identifier = p.identifier ∧ after.title = p.title) := by
  have hrefines := refines_editElement h.coherent key edit
  refine ⟨fun hunknown => ?_, fun hknown => ?_⟩
  · have hnone := (get?_eq_none_iff h.coherent).mpr hunknown
    rw [get?, Slots.get?, Option.map_eq_none_iff] at hnone
    rw [editElement, hnone]
  · obtain ⟨front, e, back, hcut⟩ := Roster.exists_cut (r := p.roster) h.coherent.pairwise_ne hknown
    refine ⟨front, e, back, hcut.elements, hcut.id, ?_⟩
    intro edited asked drawn answer after
    -- What the slots do is read off the list of elements, case by case.
    have hmodel := hcut.editElement_eq edit
    change _ = if edited.id = some key then _ else if asked ∈ p.ids then _ else _ at hmodel
    rw [hmodel] at hrefines
    by_cases hkept : edited.id = some key
    · have hasked : asked = key := by simp [asked, hkept]
      have hdrawn : drawn = p.generator := by simp [drawn, hkept]
      rw [if_pos hkept] at hrefines
      obtain ⟨hanswer, hafter⟩ := replaced_of_refines h.coherent hcut.elements hrefines
      have hsame := Element.withId_of_id_eq hkept
      refine ⟨fun _ => ?_, fun hrefused => absurd (Or.inl hkept) hrefused, hafter.size,
        hafter.identifier, hafter.title⟩
      rw [hasked, hdrawn, hsame, if_pos hkept]
      exact ⟨hanswer, hafter.elements, hafter.get?_eq hkept, fun hne => absurd rfl hne,
        hafter.generator⟩
    · rw [if_neg hkept] at hrefines
      by_cases htaken : asked ∈ p.ids
      · rw [if_pos htaken] at hrefines
        obtain ⟨hanswer, hafter⟩ := replaced_of_refines h.coherent hcut.elements hrefines
        refine ⟨fun haccepted => absurd haccepted ?_, fun _ => ?_, hafter.size,
          hafter.identifier, hafter.title⟩
        · exact fun hor => hor.elim hkept fun hfree => hfree htaken
        · exact ⟨hanswer, hafter.elements, hafter.get?_eq rfl, hafter.generator⟩
      · rw [if_neg htaken] at hrefines
        obtain ⟨hanswer, hafter⟩ := replaced_of_refines h.coherent hcut.elements hrefines
        refine ⟨fun _ => ?_, fun hrefused => absurd (Or.inr htaken) hrefused, hafter.size,
          hafter.identifier, hafter.title⟩
        rw [if_neg hkept]
        have hunknown (hne : asked ≠ key) : key ∉ after.ids :=
          hafter.not_mem_ids (fun hsame => hne (Option.some.inj hsame)) hcut.others
        exact ⟨hanswer, hafter.elements, hafter.get?_eq rfl, fun hne =>
          ⟨(get?_eq_none_iff hafter.coherent).mpr (hunknown hne),
            contains_eq_false hafter.coherent (hunknown hne)⟩, hafter.generator⟩

/-- An edit that clears an identifier, which is then the very next one drawn. -/
theorem Reachable.editElement_in_place_of_own_identifier :
    let e := Element.ofBody .catalog
    let p := (⟨some "mp", none, .empty, ⟨["a", "c"]⟩⟩ : Package Listed).run
      [.add (e.withId "a"), .add (e.withId "b")]
    let edit (x : Element) : Element := { x with id := none, uri := some "a.xml" }
    let after := (p.editElement "a" edit).2
    Reachable p ∧ ∃ front x back, p.elements = front ++ x :: back ∧ x.id = some "a" ∧
      (p.editElement "a" edit).1 = .error (.duplicateElement "a") ∧
      after.elements = front ++ (edit x).withId "a" :: back ∧ after.generator = ⟨["c"]⟩ ∧
      after.size = p.size := by
  intro e p edit after
  have h : Reachable p := (Reachable.new _ _ _).run _
  have hp : p.roster = ⟨some "mp", none, [e.withId "a", e.withId "b"], ⟨["a", "c"]⟩⟩ := by
    rw [roster_run Slots.coherent_empty]
    rfl
  have hgenerator : p.generator = ⟨["a", "c"]⟩ := congrArg Roster.generator hp
  have hids : p.ids = ["a", "b"] := congrArg Roster.ids hp
  have hknown : "a" ∈ p.ids := by
    rw [hids]
    decide
  obtain ⟨front, x, back, helements, hid, -, hrefused, hsize, -⟩ :=
    (h.editElement_in_place "a" edit).2 hknown
  rw [hgenerator, hids] at hrefused
  obtain ⟨hanswer, hafter, -, hdrawn⟩ := hrefused (by simp [edit, Generator.next, Listed.next])
  exact ⟨h, front, x, back, helements, hid, hanswer, hafter, hdrawn, hsize⟩

end Package

end MediaManifest
