import MediaManifest.Package.Overview
import MediaManifest.Proofs.Package.Editing
import MediaManifest.Proofs.Package.Reporting

/-!
# Summaries account for every element

A summary counts the elements by walking the slots, while the size of a package is read from
its index.  The two agree because the slots of a reachable package are coherent.  The
summary of a plain list knows neither slots nor index; whatever is done to a package, its
summary is that of the list after the same operations.
-/

namespace MediaManifest

/-- Every kind is one of the four, and it is only one of them. -/
theorem Kind.foldl_countP (es : List Element) :
    (all.map fun kind => es.countP fun e => e.kind == kind).foldl (· + ·) 0 = es.length := by
  induction es with
  | nil => rfl
  | cons e es ih =>
      rw [all] at ih ⊢
      simp only [List.map_cons, List.map_nil, List.foldl_cons, List.foldl_nil,
        List.countP_cons] at ih ⊢
      rw [List.length_cons, ← ih]
      cases e.kind <;> simp <;> omega

/-- The summary of the plain list `r`. -/
def Roster.describe {γ : Type} (r : Roster γ) : Summary where
  package := r.display
  title := r.title
  counts := Kind.all.map fun kind => (kind, r.elements.countP fun e => e.kind == kind)
  elements := r.elements.map Element.display

namespace Package

variable {γ δ : Type} {p : Package γ}

theorem describe_roster (p : Package γ) : p.roster.describe = p.describe := by
  have hcounts (kind : Kind) :
      p.elements.countP (fun e => e.kind == kind) = (p.elementsOf kind).length :=
    List.countP_eq_length_filter
  simp only [Roster.describe, describe, elements_roster, hcounts]
  rfl

theorem countP_cells (s : Slots) (kind : Kind) :
    s.cells.countP (fun cell => cell.any fun e => e.kind == kind) =
      s.elements.countP fun e => e.kind == kind := by
  rw [Slots.elements, List.countP_filterMap, ← Array.countP_toList]
  apply List.countP_congr
  rintro (_ | e) _
  · exact Iff.rfl
  · exact Iff.rfl

theorem total_describe (h : p.slots.Coherent) : p.describe.total = p.size := by
  rw [size_eq h, ← Kind.foldl_countP, Summary.total, ← describe_roster, Roster.describe,
    List.map_map]
  rfl

/-- The lines of a summary are those of the elements that are found under the identifiers. -/
theorem forall₂_ids_describe (h : p.slots.Coherent) :
    List.Forall₂ (fun key line => ∃ e, p.get? key = some e ∧ line = e.display)
      p.ids p.describe.elements := by
  have hpart : ∀ es : List Element, es ⊆ p.elements →
      List.Forall₂ (fun key line => ∃ e, p.get? key = some e ∧ line = e.display)
        (es.filterMap Element.id) (es.map Element.display) := by
    intro es hes
    induction es with
    | nil => exact .nil
    | cons e es ih =>
        obtain ⟨he, hrest⟩ := List.cons_subset.mp hes
        obtain ⟨key, hid⟩ := h.identified e he
        rw [List.filterMap_cons_some hid, List.map_cons]
        exact .cons ⟨e, get?_of_mem h he hid, rfl⟩ (ih hrest)
  exact hpart p.elements (List.Subset.refl _)

variable [Generator γ]

/-- The summary `describe` of a reachable package `p` counts each kind as often as it stands in
the slots, and the counts together are the `size` that the index knows.  It has a line for every
identifier `key` that `p` contains and no other: the one of the element under `key`, in the order
of the slots.  After further operations `ops` or a merge of `src` it is the summary of the plain
list `p.roster` after the same, to which elements are added at the end, in which they are changed
at their place, and from which they are deleted. -/
theorem Reachable.describe_accounts (h : Reachable p) :
    p.describe.counts = Kind.all.map (fun kind =>
      (kind, p.slots.cells.countP fun cell => cell.any fun e => e.kind == kind)) ∧
    p.describe.total = p.size ∧
    p.ids.Nodup ∧ (∀ key, key ∈ p.ids ↔ p.contains key = true) ∧
    List.Forall₂ (fun key line => ∃ e, p.get? key = some e ∧ line = e.display)
      p.ids p.describe.elements ∧
    p.describe.elements =
      p.slots.cells.toList.filterMap (fun cell => cell.map Element.display) ∧
    (∀ ops, (p.run ops).describe = (p.roster.run ops).describe) ∧
    ∀ (mode : Mode) (src : Package δ),
      (p.merge mode src).2.describe = (p.roster.merge mode src.elements).2.describe := by
  have hcoherent := h.coherent
  refine ⟨?_, total_describe hcoherent, nodup_ids hcoherent, fun key =>
    (contains_iff hcoherent).symm, forall₂_ids_describe hcoherent, ?_, ?_, ?_⟩
  · rw [← describe_roster]
    simp only [countP_cells]
    rfl
  · exact List.map_filterMap
  · intro ops
    rw [← describe_roster, roster_run hcoherent]
  · intro mode src
    rw [← describe_roster, (refines_merge hcoherent mode src).roster]

/-- Of four elements one changes its kind and its identifier, two are removed, so that the slots
are compacted, and one gets a drawn identifier. -/
theorem Reachable.describe_accounts_of_changed_kind :
    let e := Element.ofBody .catalog
    let start : Package Listed := ⟨some "mp", some "Lecture", .empty, ⟨["n"]⟩⟩
    let p := start.run
      [.add (e.withId "a"), .add (e.withId "b"), .add (e.withId "c"),
        .editElement "b" fun e => { e with id := some "d", body := .track true false none },
        .removeElements ["c", "a"], .add e]
    Reachable p ∧ p.describe.total = p.size ∧
      p.describe = ⟨"mp", some "Lecture",
        [(.track, 1), (.catalog, 1), (.attachment, 0), (.publication, 0)],
        ["track d", "catalog n"]⟩ := by
  intro e start p
  have hstart : Reachable start := .new _ _ _
  have hreachable : Reachable p := hstart.run _
  obtain ⟨-, htotal, -⟩ := hreachable.describe_accounts (δ := Listed)
  obtain ⟨-, -, -, -, -, -, hrun, -⟩ := hstart.describe_accounts (δ := Listed)
  exact ⟨hreachable, htotal, (hrun _).trans (by decide +kernel)⟩

end Package

end MediaManifest
