import MediaManifest.Proofs.Package.Reachable

/-!
# Packages refine plain lists

Between operations a package can be asked for its elements, their identifiers
and their number, and for the element under an identifier.  A run on a
reachable package and the same run on its roster give the same answers at every
step, so neither empty slots nor compaction can be told from outside.
-/

namespace MediaManifest

/-- What can be asked of a package between operations. -/
structure Observation where
  elements : List Element
  ids : List String
  size : Nat
  isEmpty : Bool
  contains : String → Bool
  get? : String → Option Element

variable {γ : Type}

def Package.observe (p : Package γ) : Observation :=
  ⟨p.elements, p.ids, p.size, p.isEmpty, p.contains, p.get?⟩

def Roster.observe (r : Roster γ) : Observation where
  elements := r.elements
  ids := r.ids
  size := r.elements.length
  isEmpty := r.elements.isEmpty
  contains key := decide (key ∈ r.ids)
  get? := r.get?

theorem Package.observe_roster {p : Package γ} (h : p.slots.Coherent) :
    p.roster.observe = p.observe := by
  have hsize : p.roster.elements.length = p.size := (size_eq h).symm
  have hempty : p.roster.elements.isEmpty = p.isEmpty := by
    rw [Bool.eq_iff_iff, isEmpty, ← hsize, List.isEmpty_iff, beq_iff_eq,
      List.length_eq_zero_iff]
  have hcontains : (fun key => decide (key ∈ p.roster.ids)) = p.contains := by
    funext key
    rw [Bool.eq_iff_iff, contains_iff h, decide_eq_true_iff]
    rfl
  have hget : p.roster.get? = p.get? := by
    funext key
    exact (get?_eq h key).symm
  simp only [Roster.observe, Package.observe, hsize, hempty, hcontains, hget]
  rfl

variable [Generator γ]

/-- The answers of the operations `ops`, each with what can be observed after it. -/
def Package.trace (p : Package γ) : List Operation → List (Operation.Answer × Observation)
  | [] => []
  | op :: ops => ((p.perform op).1, (p.perform op).2.observe) :: (p.perform op).2.trace ops

def Roster.trace (r : Roster γ) : List Operation → List (Operation.Answer × Observation)
  | [] => []
  | op :: ops => ((r.perform op).1, (r.perform op).2.observe) :: (r.perform op).2.trace ops

namespace Package

variable {p : Package γ}

theorem trace_roster (h : p.slots.Coherent) (ops : List Operation) :
    p.roster.trace ops = p.trace ops := by
  induction ops generalizing p with
  | nil => rfl
  | cons op ops ih =>
      have hstep := refines_perform h op
      rw [Roster.trace, trace, ← hstep.answer, ← hstep.roster,
        observe_roster hstep.coherent, ih hstep.coherent]

/-- Every run of operations `ops` on a reachable package `p` answers at every step what the run on
the plain list `p.roster` answers, and shows the same elements, identifiers and look-ups before it
and after every step.  The identifiers of the list are unique. -/
theorem Reachable.refines_list (h : Reachable p) (ops : List Operation) :
    (p.roster.elements.Pairwise fun a b => a.id ≠ b.id) ∧
    p.observe = p.roster.observe ∧
    p.trace ops = p.roster.trace ops :=
  ⟨h.coherent.pairwise_ne, (observe_roster h.coherent).symm, (trace_roster h.coherent ops).symm⟩

/-- A package from which so much is removed that its slots are compacted twice. -/
theorem Reachable.refines_list_across_compaction :
    let e := Element.ofBody .catalog
    let p : Package Listed := ⟨none, none, .empty, ⟨["a", "b"]⟩⟩
    let ops : List Operation :=
      [.add e, .add e, .add (e.withId "c"), .removeElements ["b", "d", "b", "a"],
        .add (e.withId "a"), .editElement "c" fun e => e.withId "a", .remove (e.withId "c"),
        .clear]
    Reachable p ∧ p.trace ops = p.roster.trace ops := by
  intro e p ops
  have h : Reachable p := .new _ _ _
  exact ⟨h, (h.refines_list ops).2.2⟩

end Package

end MediaManifest
