import MediaManifest.Identifier.Generator
import MediaManifest.Proofs.Package.Operation

/-!
# Reachable packages

A package is reachable if a finite sequence of operations leads to it, from an
empty package or from one that was decoded.  Merges draw from any reachable
source.  An operation that fails leads to a package as well.

The slots of every reachable package are coherent, whatever its generators do.
-/

namespace MediaManifest.Package

open Generator (reserveAll)

/-- Packages that a finite sequence of operations leads to.  The index tells its
identifiers to a new generator in an order of its own. -/
inductive Reachable : {γ : Type} → [Generator γ] → Package γ → Prop
  | new {γ : Type} [Generator γ] (identifier title : Option String) (generator : γ) :
      Reachable ⟨identifier, title, .empty, generator⟩
  | decoded {γ : Type} [Generator γ] {generator : γ} {document : Json.Value}
      {p : Package γ} (hdecode : (Codec.decodeValue generator document).1 = .ok p) :
      Reachable p
  | performed {γ : Type} [Generator γ] {p : Package γ} (h : Reachable p) (op : Operation) :
      Reachable (p.perform op).2
  | regenerated {γ δ : Type} [Generator γ] [Generator δ] {p : Package γ} (h : Reachable p)
      (generator : δ) {keys : List String} (hkeys : keys.Perm p.ids) :
      Reachable ⟨p.identifier, p.title, p.slots, reserveAll keys generator⟩
  | merged {γ δ : Type} [Generator γ] [Generator δ] {dest : Package γ} {src : Package δ}
      (hdest : Reachable dest) (hsrc : Reachable src) (mode : Mode) :
      Reachable (dest.merge mode src).2

variable {γ δ : Type} [Generator γ] [Generator δ] {p : Package γ}

theorem Reachable.withGenerator (h : Reachable p) (generator : δ) :
    Reachable (p.withGenerator generator) :=
  h.regenerated generator (List.Perm.refl _)

theorem Reachable.decode {generator : γ} {content : Text.Content}
    (hdecode : (Codec.decode generator content).1 = .ok p) : Reachable p := by
  unfold Codec.decode at hdecode
  split at hdecode
  · cases hdecode
  · exact .decoded hdecode

theorem Reachable.run (h : Reachable p) (ops : List Operation) : Reachable (p.run ops) := by
  induction ops generalizing p with
  | nil => exact h
  | cons op ops ih => exact ih (h.performed op)

theorem Reachable.coherent (h : Reachable p) : p.slots.Coherent := by
  induction h with
  | new => exact Slots.coherent_empty
  | decoded hdecode =>
      obtain ⟨identifier, title, ops, rfl⟩ := exists_run_decodeValue hdecode
      exact coherent_run Slots.coherent_empty ops
  | performed _ op ih => exact (refines_perform ih op).coherent
  | regenerated _ _ _ ih => exact ih
  | @merged _ _ _ _ dest src _ _ mode ih _ =>
      obtain ⟨ops, hops⟩ := exists_run_merge mode dest src
      rw [hops]
      exact coherent_run ih ops

/-- In every reachable package `p` the index knows exactly the identifiers of the elements, each
at its slot `pos`.  Every element has an identifier of its own, `size` counts the occupied slots,
and these are at least half of the slots. -/
theorem Reachable.index_exact (h : Reachable p) :
    (∀ key pos, p.slots.index[key]? = some pos ↔
      pos < p.slots.cells.size ∧
        ∃ e, p.slots.cells[pos]? = some (some e) ∧ e.id = some key) ∧
    (∀ e ∈ p.elements, ∃ key, e.id = some key) ∧
    (p.elements.Pairwise fun a b => a.id ≠ b.id) ∧
    p.size = p.slots.cells.countP Option.isSome ∧
    p.slots.cells.size ≤ 2 * p.size := by
  have hcoherent := h.coherent
  refine ⟨?_, hcoherent.identified, hcoherent.pairwise_ne, ?_, hcoherent.dense⟩
  · intro key pos
    rw [hcoherent.index_iff]
    constructor
    · rintro ⟨e, hcell, hid⟩
      obtain ⟨hpos, -⟩ := Array.getElem?_eq_some_iff.mp hcell
      exact ⟨hpos, e, hcell, hid⟩
    · rintro ⟨-, hholds⟩
      exact hholds
  · rw [size_eq hcoherent, elements, Slots.elements, List.length_filterMap_eq_countP,
      ← Array.countP_toList]
    rfl

/-- A generator that draws `a` again and again makes two of the operations fail; the last one
compacts the slots. -/
theorem Reachable.index_exact_of_repeated_draws :
    let e := Element.ofBody .catalog
    let p := (⟨some "mp", none, .empty, ⟨["a"]⟩⟩ : Package Listed).run
      [.add e, .add e, .add (e.withId "b"), .add (e.withId "c"),
        .editElement "c" fun e => { e with id := none }, .removeById "b", .removeById "a"]
    Reachable p ∧ (p.elements.Pairwise fun a b => a.id ≠ b.id) ∧
      p.size = p.slots.cells.countP Option.isSome ∧ p.slots.cells.size ≤ 2 * p.size := by
  intro e p
  have h : Reachable p := (Reachable.new _ _ _).run _
  exact ⟨h, h.index_exact.2.2⟩

end MediaManifest.Package
