/-!
# Results and errors

When a chain of steps gives a result, every step of it gave one; when it fails,
the error is that of one of its steps.
-/

namespace Except

variable {ε ε' α β : Type} {x : Except ε α}

theorem map_eq_ok_iff {f : α → β} {b : β} : x.map f = .ok b ↔ ∃ a, x = .ok a ∧ f a = b := by
  cases x with
  | error e => simp [Except.map]
  | ok a => simp [Except.map]

theorem exists_map_eq_ok_iff {f : α → β} : (∃ b, x.map f = .ok b) ↔ ∃ a, x = .ok a := by
  cases x with
  | error e => simp [Except.map]
  | ok a => simp [Except.map]

theorem bind_eq_ok_iff {f : α → Except ε β} {b : β} :
    (x >>= f) = .ok b ↔ ∃ a, x = .ok a ∧ f a = .ok b := by
  cases x with
  | error e => simp [bind, Except.bind]
  | ok a => simp [bind, Except.bind]

/-- Two steps `x` and `f` of which the second one succeeds or not whatever the first one gives. -/
theorem exists_bind_eq_ok_iff {f : α → Except ε β} {p q : Prop} (hfirst : (∃ a, x = .ok a) ↔ p)
    (hsecond : ∀ a, (∃ b, f a = .ok b) ↔ q) : (∃ b, (x >>= f) = .ok b) ↔ p ∧ q := by
  simp only [bind_eq_ok_iff]
  rw [exists_comm]
  simp only [exists_and_left, hsecond]
  rw [← hfirst, exists_and_right]

theorem mapError_eq_ok_iff {f : ε → ε'} {a : α} : x.mapError f = .ok a ↔ x = .ok a := by
  cases x with
  | error e =>
      constructor <;> rintro ⟨⟩
  | ok b =>
      constructor <;> rintro ⟨⟩ <;> rfl

theorem mapError_eq_error_iff {f : ε → ε'} {e' : ε'} :
    x.mapError f = .error e' ↔ ∃ e, x = .error e ∧ f e = e' := by
  cases x with
  | error e =>
      constructor
      · rintro ⟨⟩
        exact ⟨e, rfl, rfl⟩
      · rintro ⟨e, ⟨⟩, rfl⟩
        rfl
  | ok a =>
      constructor
      · rintro ⟨⟩
      · rintro ⟨e, ⟨⟩, -⟩

theorem map_eq_error_iff {f : α → β} {e : ε} : x.map f = .error e ↔ x = .error e := by
  cases x with
  | error e => simp [Except.map]
  | ok a => simp [Except.map]

/-- The result of `step` that is told in other words by `f` while what it leaves is handed on. -/
theorem exists_of_map_eq_ok {σ : Type} {step : Except ε α × σ} {f : α → β} {b : β} {after : σ}
    (h : step.map (Except.map f) id = (.ok b, after)) : ∃ a, step = (.ok a, after) ∧ f a = b := by
  obtain ⟨answer, next⟩ := step
  obtain rfl : next = after := congrArg Prod.snd h
  have hanswer : answer.map f = .ok b := congrArg Prod.fst h
  obtain ⟨a, rfl, hb⟩ := map_eq_ok_iff.mp hanswer
  exact ⟨a, rfl, hb⟩

end Except
