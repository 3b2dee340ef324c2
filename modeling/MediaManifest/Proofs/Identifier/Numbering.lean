import MediaManifest.Identifier.Sequential

/-!
# Numbers in identifiers

A number that fits 64 bits is read back from the identifier that it is written
into, so different numbers give different identifiers.  A sequential generator
covers an identifier (`Covers`) if the number in it, if there is one, is not
above the numbers already issued.  What is covered once stays covered, and an
identifier that was reserved is covered.
-/

namespace MediaManifest

namespace Text

theorem isDigit_of_charIsDigit {c : Char} (hc : c.isDigit = true) : isDigit c = true := by
  simp only [Char.isDigit, ge_iff_le, Bool.and_eq_true, decide_eq_true_eq] at hc
  simp only [isDigit, Bool.and_eq_true, decide_eq_true_eq]
  exact hc

theorem toList_decimal (n : Nat) : (decimal n).toList = Nat.toDigits 10 n :=
  Nat.toList_repr

theorem digitsValue_decimal (n : Nat) : digitsValue (decimal n).toList = n := by
  rw [toList_decimal, digitsValue]
  exact Nat.ofDigitChars_eq_foldl.symm.trans Nat.ofDigitChars_ten_toDigits

theorem isDigit_of_mem_decimal {n : Nat} {c : Char} (hc : c ∈ (decimal n).toList) :
    isDigit c = true := by
  rw [toList_decimal] at hc
  exact isDigit_of_charIsDigit (Nat.isDigit_of_mem_toDigits (by decide) (by decide) hc)

/-- A number `n` is read back from its numeral if it fits a word. -/
theorem readWord_decimal (n : Nat) :
    readWord (decimal n).toList = if n < 2 ^ 64 then some n else none := by
  have hall : (decimal n).toList.all isDigit = true :=
    List.all_eq_true.mpr fun c hc => isDigit_of_mem_decimal hc
  have hnonempty : (decimal n).toList.isEmpty = false := by
    rw [toList_decimal, List.isEmpty_eq_false_iff]
    exact Nat.toDigits_ne_nil
  have hsign : ∀ rest, (decimal n).toList ≠ '+' :: rest := by
    intro rest hplus
    have hdigit : isDigit '+' = true :=
      isDigit_of_mem_decimal (n := n) (hplus ▸ List.mem_cons_self)
    exact absurd hdigit (by decide)
  have hvalue := digitsValue_decimal n
  unfold readWord
  split
  · next rest hplus => exact absurd hplus (hsign rest)
  · simp [hnonempty, hall, hvalue]

end Text

namespace Sequential

variable {stem key : String} {n m : Nat}

theorem number?_eq_some_iff :
    number? stem key = some n ↔
      ∃ numeral, key.toList = stem.toList ++ '-' :: numeral ∧ Text.readWord numeral = some n := by
  unfold number?
  constructor
  · intro hnumber
    split at hnumber
    · next numeral hdrop =>
      rw [Text.dropFront_eq_some_iff] at hdrop
      exact ⟨numeral, by simpa using hdrop, hnumber⟩
    · cases hnumber
  · rintro ⟨numeral, hkey, hread⟩
    have hdrop : Text.dropFront (stem.toList ++ ['-']) key.toList = some numeral := by
      rw [Text.dropFront_eq_some_iff, hkey]
      simp
    rw [hdrop]
    exact hread

theorem toList_identifier (stem : String) (n : Nat) :
    (identifier stem n).toList = stem.toList ++ '-' :: (Text.decimal n).toList := by
  simp [identifier, String.toList_append]

theorem number?_identifier (stem : String) (n : Nat) :
    number? stem (identifier stem n) = if n < 2 ^ 64 then some n else none := by
  have hdrop : Text.dropFront (stem.toList ++ ['-']) (identifier stem n).toList =
      some (Text.decimal n).toList := by
    rw [Text.dropFront_eq_some_iff, toList_identifier]
    simp
  rw [number?, hdrop, ← Text.readWord_decimal]

/-! ## Covered identifiers -/

/-- The number in `key`, if it has the form of an identifier of `g`, is not above the numbers
issued. -/
def Covers (g : Sequential) (key : String) : Prop :=
  ∀ n, number? g.stem key = some n → n ≤ g.issued

@[simp] theorem stem_next (g : Sequential) : (Generator.next g).2.stem = g.stem := rfl

@[simp] theorem issued_next (g : Sequential) : (Generator.next g).2.issued = g.issued + 1 := rfl

@[simp] theorem fst_next (g : Sequential) :
    (Generator.next g).1 = identifier g.stem (g.issued + 1) := rfl

theorem reserve_eq (key : String) (g : Sequential) :
    Generator.reserve key g = ⟨g.stem, max g.issued ((number? g.stem key).getD 0)⟩ := by
  show reserve key g = _
  unfold reserve
  cases number? g.stem key with
  | none => simp
  | some n => rfl

@[simp] theorem stem_reserve (key : String) (g : Sequential) :
    (Generator.reserve key g).stem = g.stem := by
  rw [reserve_eq]

theorem issued_reserve (key : String) (g : Sequential) :
    (Generator.reserve key g).issued = max g.issued ((number? g.stem key).getD 0) := by
  rw [reserve_eq]

@[simp] theorem stem_reserveAll (keys : List String) (g : Sequential) :
    (Generator.reserveAll keys g).stem = g.stem := by
  induction keys generalizing g with
  | nil => rfl
  | cons key keys ih => rw [Generator.reserveAll_cons, ih, stem_reserve]

theorem reserve_of_covers {g : Sequential} (h : g.Covers key) : Generator.reserve key g = g := by
  rw [reserve_eq]
  cases hnumber : number? g.stem key with
  | none => simp
  | some n =>
      have hle := h n hnumber
      rw [Option.getD_some, Nat.max_eq_left hle]

theorem covers_next (g : Sequential) : (Generator.next g).2.Covers (Generator.next g).1 := by
  intro n hnumber
  rw [stem_next, fst_next, number?_identifier] at hnumber
  split at hnumber
  · obtain rfl := Option.some.inj hnumber
    exact Nat.le_refl _
  · cases hnumber

theorem Covers.mono {low high : Nat} (h : Covers ⟨stem, low⟩ key) (hle : low ≤ high) :
    Covers ⟨stem, high⟩ key := fun n hnumber => Nat.le_trans (h n hnumber) hle

/-- Reserving numbers up to the bound `b` stays within `b`. -/
theorem issued_reserveAll_le {keys : List String} {g : Sequential} {b : Nat}
    (hkeys : ∀ key ∈ keys, Covers ⟨g.stem, b⟩ key) (hg : g.issued ≤ b) :
    (Generator.reserveAll keys g).issued ≤ b := by
  induction keys generalizing g with
  | nil => exact hg
  | cons key keys ih =>
      obtain ⟨hfirst, hrest⟩ := List.forall_mem_cons.mp hkeys
      rw [Generator.reserveAll_cons]
      apply ih
      · rw [stem_reserve]
        exact hrest
      · rw [issued_reserve]
        apply Nat.max_le.mpr ⟨hg, ?_⟩
        cases hnumber : number? g.stem key with
        | none => exact Nat.zero_le b
        | some n => exact hfirst n hnumber

/-! ## Room for further identifiers -/

/-- The generator `g` does not reach the end of its numbers, `2 ^ 64 - 1`, in the next `steps`. -/
def HasRoom (g : Sequential) (steps : Nat) : Prop :=
  ∀ j < steps, g.issued + j < 2 ^ 64 - 1

theorem HasRoom.rest {g : Sequential} {steps : Nat} (h : g.HasRoom (steps + 1)) :
    HasRoom (Generator.next g).2 steps := by
  intro j hj
  have hstep := h (j + 1) (Nat.succ_lt_succ hj)
  rw [issued_next]
  omega

theorem HasRoom.lt {g : Sequential} {steps : Nat} (h : g.HasRoom steps)
    (hn : g.issued < n) (hle : n ≤ g.issued + steps) : n < 2 ^ 64 := by
  have hstep := h (n - g.issued - 1) (by omega)
  omega

/-- An identifier that is handed out in one of the next `steps` is not covered yet. -/
theorem HasRoom.not_covers {g : Sequential} {steps : Nat} (h : g.HasRoom steps)
    (hn : g.issued < n) (hle : n ≤ g.issued + steps) :
    ¬ g.Covers (identifier g.stem n) := by
  intro hcovers
  have hnumber : number? g.stem (identifier g.stem n) = some n := by
    rw [number?_identifier, if_pos (h.lt hn hle)]
  have hbelow := hcovers n hnumber
  omega

end Sequential

end MediaManifest
