import Mathlib.Data.List.Forall2
import MediaManifest.Json.Printer
import MediaManifest.Json.Reading
import MediaManifest.Proofs.Identifier.Numbering

/-!
# Scanning what was written

A written text is scanned back up to its closing quote, whatever characters it
holds and whatever follows it.  A written integer is scanned back if nothing
follows that could belong to a number.
-/

namespace MediaManifest.Json

open Text (Symbol isDigit)

/-! ## Texts -/

theorem hexUnit_hexDigit {n : Nat} (hn : n < 0x20) :
    hexUnit (.char '0') (.char '0') (.char (Text.hexDigit (n / 16)))
      (.char (Text.hexDigit (n % 16))) = some n := by
  revert n
  decide

/-- The piece `p` of a written text stands for the character `c`: as `c` itself, or as a control
character by its number. -/
def Piece.StandsFor (p : Piece) (c : Char) : Prop :=
  p = .char c ∨ (p = .unit c.toNat ∧ c.toNat < 0x20)

variable {rest : List Symbol}

theorem scanPieces_of_escapeLetter {letter c : Char} (hletter : escapeLetter letter = some c)
    (rest : List Symbol) :
    scanPieces (.char '\\' :: .char letter :: rest) =
      (.char c :: (scanPieces rest).1, (scanPieces rest).2) := by
  have hu : letter ≠ 'u' := by
    rintro rfl
    cases hletter
  rw [scanPieces.eq_5 _ _ (fun _ _ _ _ _ _ h => hu h) hu, hletter]

theorem scanPieces_of_plain {c : Char} (hslash : c ≠ '\\') (hquote : c ≠ '"')
    (hcontrol : ¬ c.toNat < 0x20) (rest : List Symbol) :
    scanPieces (.char c :: rest) = (.char c :: (scanPieces rest).1, (scanPieces rest).2) := by
  rw [scanPieces.eq_8, if_neg hquote, if_neg hcontrol]
  · exact fun _ _ _ _ _ _ h => hslash h
  · exact fun _ _ h => hslash h
  · exact fun _ _ _ h => hslash h
  · exact fun _ _ _ h => hslash h
  · exact fun _ h => hslash h

theorem scanPieces_of_unit {n : Nat} (hn : n < 0x20) (rest : List Symbol) :
    scanPieces (.char '\\' :: .char 'u' :: .char '0' :: .char '0' ::
        .char (Text.hexDigit (n / 16)) :: .char (Text.hexDigit (n % 16)) :: rest) =
      (.unit n :: (scanPieces rest).1, (scanPieces rest).2) := by
  rw [scanPieces.eq_3, hexUnit_hexDigit hn]

theorem eq_ofNat_of_toNat_eq {c : Char} {n : Nat} (h : c.toNat = n) : c = Char.ofNat n := by
  rw [← h, Char.ofNat_toNat]

/-- A written character `c` is found as one piece that stands for it. -/
theorem exists_scanPieces_escapeChar (c : Char) (rest : List Symbol) :
    ∃ p : Piece, p.StandsFor c ∧
      scanPieces ((escapeChar c).map .char ++ rest) =
        (p :: (scanPieces rest).1, (scanPieces rest).2) := by
  unfold escapeChar
  split_ifs with hquote hslash hb ht hn hf hr hcontrol
  · subst hquote
    exact ⟨.char '"', .inl rfl, scanPieces_of_escapeLetter rfl rest⟩
  · subst hslash
    exact ⟨.char '\\', .inl rfl, scanPieces_of_escapeLetter rfl rest⟩
  · exact ⟨.char c, .inl rfl, eq_ofNat_of_toNat_eq hb ▸ scanPieces_of_escapeLetter rfl rest⟩
  · exact ⟨.char c, .inl rfl, eq_ofNat_of_toNat_eq ht ▸ scanPieces_of_escapeLetter rfl rest⟩
  · exact ⟨.char c, .inl rfl, eq_ofNat_of_toNat_eq hn ▸ scanPieces_of_escapeLetter rfl rest⟩
  · exact ⟨.char c, .inl rfl, eq_ofNat_of_toNat_eq hf ▸ scanPieces_of_escapeLetter rfl rest⟩
  · exact ⟨.char c, .inl rfl, eq_ofNat_of_toNat_eq hr ▸ scanPieces_of_escapeLetter rfl rest⟩
  · exact ⟨.unit c.toNat, .inr ⟨rfl, hcontrol⟩, scanPieces_of_unit hcontrol rest⟩
  · exact ⟨.char c, .inl rfl, scanPieces_of_plain hslash hquote hcontrol rest⟩

/-- A written text is found as the pieces `ps` of its characters `cs`, up to its closing quote. -/
theorem exists_scanPieces (cs : List Char) (rest : List Symbol) :
    ∃ ps, List.Forall₂ Piece.StandsFor ps cs ∧
      scanPieces ((cs.flatMap escapeChar).map .char ++ .char '"' :: rest) =
        (ps, .closed rest) := by
  induction cs with
  | nil => exact ⟨[], .nil, rfl⟩
  | cons c cs ih =>
      obtain ⟨ps, hps, hscan⟩ := ih
      obtain ⟨p, hp, hfirst⟩ := exists_scanPieces_escapeChar c
        ((cs.flatMap escapeChar).map .char ++ .char '"' :: rest)
      refine ⟨p :: ps, .cons hp hps, ?_⟩
      rw [List.flatMap_cons, List.map_append, List.append_assoc, hfirst, hscan]

theorem readPieces_unit {n : Nat} (hn : n < 0x20) (ps : List Piece) :
    readPieces none (.unit n :: ps) = consChar (Char.ofNat n) (readPieces none ps) := by
  have htrailing : isTrailing n = false := by
    simp only [isTrailing, Bool.and_eq_false_imp, decide_eq_true_eq]
    omega
  have hleading : isLeading n = false := by
    simp only [isLeading, Bool.and_eq_false_imp, decide_eq_true_eq]
    omega
  cases ps with
  | nil => simp [readPieces, htrailing, hleading]
  | cons p ps => cases p <;> simp [readPieces, htrailing, hleading]

/-- Pieces `ps` read as the characters `cs` that they stand for. -/
theorem readPieces_of_standsFor {ps : List Piece} {cs : List Char}
    (h : List.Forall₂ Piece.StandsFor ps cs) : readPieces none ps = .ok cs := by
  induction h with
  | nil => rfl
  | @cons p c ps cs hp _ ih =>
      rcases hp with rfl | ⟨rfl, hcontrol⟩
      · rw [readPieces, ih]
        rfl
      · rw [readPieces_unit hcontrol, ih, Char.ofNat_toNat]
        rfl

/-- A written text `s` is read back, whatever `rest` follows it. -/
theorem scanText_quoted (s : String) (rest : List Symbol) :
    scanText ((s.toList.flatMap escapeChar).map .char ++ .char '"' :: rest) =
      .done (.ok s) rest := by
  obtain ⟨ps, hps, hscan⟩ := exists_scanPieces s.toList rest
  rw [scanText, hscan]
  simp only [readPieces_of_standsFor hps, Except.map, String.ofList_toList]

/-! ## Numbers -/

/-- What follows, `rest`, does not belong to a number that ends before it. -/
def EndsNumber (rest : List Symbol) : Prop :=
  ∀ c more, rest = .char c :: more → isDigit c = false ∧ c ≠ '.' ∧ c ≠ 'e' ∧ c ≠ 'E'

theorem spanDigits_append {ds : List Char} (hdigits : ∀ d ∈ ds, isDigit d = true)
    (hrest : EndsNumber rest) : spanDigits (ds.map .char ++ rest) = (ds, rest) := by
  induction ds with
  | nil =>
      cases rest with
      | nil => rfl
      | cons s more =>
          cases s with
          | char c =>
              have hc := (hrest c more rfl).1
              simp [spanDigits, hc]
          | stray b => rfl
  | cons d ds ih =>
      have hd := hdigits d List.mem_cons_self
      have hds := ih fun x hx => hdigits x (List.mem_cons_of_mem d hx)
      rw [List.map_cons, List.cons_append, spanDigits, if_pos hd, hds]

theorem scanFraction_of_endsNumber (literal : Literal) (hrest : EndsNumber rest) :
    scanFraction literal rest = .done literal rest := by
  have hexponent : scanExponent literal rest = .done literal rest := by
    cases rest with
    | nil => rfl
    | cons s more =>
        cases s with
        | char c =>
            obtain ⟨-, -, he, hE⟩ := hrest c more rfl
            unfold scanExponent
            split
            all_goals simp_all
        | stray b => rfl
  rw [scanFraction.eq_2, hexponent]
  rintro more rfl
  exact (hrest '.' more rfl).2.1 rfl

theorem head?_toDigits_ne_zero {n : Nat} (hn : 0 < n) :
    (Nat.toDigits 10 n).head? ≠ some '0' := by
  induction n using Nat.strongRecOn with
  | _ n ih =>
      by_cases hsmall : n < 10
      · have hdigit : ∀ m < 10, 0 < m → some m.digitChar ≠ some '0' := by decide
        rw [Nat.toDigits_of_lt_base hsmall]
        exact hdigit n hsmall hn
      · have hfront := ih (n / 10) (Nat.div_lt_self hn (by omega)) (by omega)
        rw [Nat.toDigits_of_base_le (by omega) (by omega), List.head?_append_of_ne_nil]
        · exact hfront
        · exact Nat.toDigits_ne_nil

/-- The numeral of `n` has no leading zero. -/
theorem decimal_ne_zero_cons (n : Nat) (d : Char) (ds : List Char) :
    (Text.decimal n).toList ≠ '0' :: d :: ds := by
  intro hdigits
  rw [Text.toList_decimal] at hdigits
  rcases Nat.eq_zero_or_pos n with rfl | hn
  · cases hdigits
  · exact head?_toDigits_ne_zero hn (by rw [hdigits]; rfl)

theorem exists_decimal_eq_cons (n : Nat) :
    ∃ d ds, (Text.decimal n).toList = d :: ds ∧ isDigit d = true := by
  have hnonempty : (Text.decimal n).toList ≠ [] := by
    rw [Text.toList_decimal]
    exact Nat.toDigits_ne_nil
  obtain ⟨d, ds, hdigits⟩ := List.exists_cons_of_ne_nil hnonempty
  exact ⟨d, ds, hdigits, Text.isDigit_of_mem_decimal (hdigits ▸ List.mem_cons_self)⟩

theorem scanUnsigned_decimal (minus : Bool) (n : Nat) (hrest : EndsNumber rest) :
    scanUnsigned minus ((Text.decimal n).toList.map .char ++ rest) =
      .done ⟨minus, (Text.decimal n).toList, none, none⟩ rest := by
  obtain ⟨first, others, hdigits, -⟩ := exists_decimal_eq_cons n
  rw [scanUnsigned, spanDigits_append (fun d hd => Text.isDigit_of_mem_decimal hd) hrest]
  split
  · next heq => cases hdigits.symm.trans (congrArg Prod.fst heq)
  · next heq => exact absurd (congrArg Prod.fst heq) (decimal_ne_zero_cons n _ _)
  · next heq =>
    cases heq
    exact scanFraction_of_endsNumber _ hrest

theorem number_of_digits {minus : Bool} {n : Nat} {k : Int}
    (hk : k = if minus then -(n : Int) else n) (hminus : minus = true → k ≠ 0)
    (hrange : -(2 ^ 63) ≤ k ∧ k < 2 ^ 64) :
    Literal.number ⟨minus, (Text.decimal n).toList, none, none⟩ = .ok (.integer k hrange) := by
  subst hk
  have hzero : ¬ (minus = true ∧ (if minus then -(n : Int) else n) = 0) := by
    rintro ⟨hm, h⟩
    exact hminus hm h
  simp only [Literal.number, Text.digitsValue_decimal]
  rw [dif_pos hrange, if_neg hzero]

theorem scanLiteral_of_digit {d : Char} (hd : isDigit d = true) (s : List Symbol) :
    scanLiteral (.char d :: s) = scanUnsigned false (.char d :: s) := by
  rw [scanLiteral.eq_2]
  rintro more hminus
  cases hminus
  exact absurd hd (by decide)

/-- A written integer `k` is read back, if nothing follows that could belong to it. -/
theorem scanLiteral_signedDecimal (k : Int) (hrange : -(2 ^ 63) ≤ k ∧ k < 2 ^ 64)
    (hrest : EndsNumber rest) :
    ∃ literal : Literal,
      scanLiteral ((Text.signedDecimal k).toList.map .char ++ rest) = .done literal rest ∧
        literal.number = .ok (.integer k hrange) := by
  rcases Int.lt_or_le k 0 with hneg | hpos
  · refine ⟨⟨true, (Text.decimal k.natAbs).toList, none, none⟩, ?_, ?_⟩
    · rw [Text.signedDecimal, if_pos hneg, String.toList_append, List.map_append,
        List.append_assoc]
      exact scanUnsigned_decimal true k.natAbs hrest
    · refine number_of_digits ?_ (fun _ => by omega) hrange
      rw [if_pos rfl]
      omega
  · refine ⟨⟨false, (Text.decimal k.natAbs).toList, none, none⟩, ?_, ?_⟩
    · obtain ⟨d, ds, hdigits, hd⟩ := exists_decimal_eq_cons k.natAbs
      have hscan := scanUnsigned_decimal false k.natAbs hrest
      rw [Text.signedDecimal, if_neg (by omega)]
      rw [hdigits] at hscan ⊢
      rw [List.map_cons, List.cons_append] at hscan ⊢
      rw [scanLiteral_of_digit hd, hscan]
    · refine number_of_digits ?_ (fun h => absurd h (by decide)) hrange
      rw [if_neg (by decide)]
      omega

end MediaManifest.Json
