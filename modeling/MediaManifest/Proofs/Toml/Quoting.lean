import Mathlib.Data.List.Infix
import MediaManifest.Toml.Quote

/-!
# Reading quoted texts

A quoted text is read back whatever it holds.  Between double quotes this is so because every
character that cannot stand for itself has an escape; between single quotes, because the text
was found to hold none of those characters.  Of the quotes in a text of several lines, the
reader takes three in a row for the end, and at most two are ever written.
-/

namespace MediaManifest.Toml

variable {c : Char} {cs rest : List Char} {long : Bool}

/-! ## Escaped characters -/

/-- Reads a text between double quotes, over several lines if it is a `long` one. -/
def readQuoted (long : Bool) (cs : List Char) : Reading :=
  if long then readLongBasic false cs else readBasic cs

/-- A character `c` other than a double quote as it is written between double quotes. -/
def writtenChar (long : Bool) (c : Char) : List Char :=
  (escape? long c).getD [c]

theorem escapeChars_cons_of_ne (hquote : c ≠ '"') (long : Bool) (run : Nat) (cs : List Char) :
    escapeChars long run (c :: cs) = writtenChar long c ++ escapeChars long 0 cs := by
  rw [escapeChars, if_neg hquote, writtenChar]
  cases escape? long c with
  | none => rfl
  | some e => rfl

theorem escapeChars_quote_of_lt {run : Nat} (hrun : run < 2) (cs : List Char) :
    escapeChars true run ('"' :: cs) = '"' :: escapeChars true (run + 1) cs := by
  rw [escapeChars, if_pos rfl]
  exact if_pos hrun

theorem escapeChars_quote_of_le {run : Nat} (hrun : long = true → 2 ≤ run) (cs : List Char) :
    escapeChars long run ('"' :: cs) = '\\' :: '"' :: escapeChars long 0 cs := by
  rw [escapeChars, if_pos rfl, if_neg]
  split
  · next hlong => exact Nat.not_lt.mpr (hrun hlong)
  · exact Nat.not_lt_zero run

theorem hexChar_control (hcontrol : c.toNat < 0x20 ∨ c.toNat = 0x7F) :
    hexChar ['0', '0', upperHexDigit (c.toNat / 16), upperHexDigit (c.toNat % 16)] = some c := by
  have hall : ∀ n < 0x80,
      hexChar ['0', '0', upperHexDigit (n / 16), upperHexDigit (n % 16)] =
        some (Char.ofNat n) := by
    decide
  rw [hall c.toNat (by omega), Char.ofNat_toNat]

theorem endsLine_of_escapeLetter {letter : Char} (hletter : escapeLetter letter = some c)
    (rest : List Char) : endsLine (letter :: rest) = false := by
  unfold escapeLetter at hletter
  split at hletter
  case h_9 => cases hletter
  all_goals rfl

theorem readQuoted_letter {letter : Char} (hletter : escapeLetter letter = some c) (long : Bool)
    (rest : List Char) :
    readQuoted long ('\\' :: letter :: rest) = .cons c (readQuoted long rest) := by
  have hx : letter ≠ 'x' := by
    rintro rfl
    cases hletter
  have hu : letter ≠ 'u' := by
    rintro rfl
    cases hletter
  have hU : letter ≠ 'U' := by
    rintro rfl
    cases hletter
  cases long with
  | false =>
      show readBasic _ = .cons c (readBasic rest)
      rw [readBasic.eq_7 _ _ (fun _ _ _ h => absurd h hx) (fun _ _ _ _ _ h => absurd h hu)
        (fun _ _ _ _ _ _ _ _ _ h => absurd h hU), hletter]
      rfl
  | true =>
      show readLongBasic false _ = .cons c (readLongBasic false rest)
      rw [readLongBasic.eq_9 _ _ _ (fun _ _ _ h => absurd h hx)
        (fun _ _ _ _ _ h => absurd h hu) (fun _ _ _ _ _ _ _ _ _ h => absurd h hU),
        endsLine_of_escapeLetter hletter, if_neg Bool.false_ne_true, hletter]
      rfl

theorem readQuoted_doubleQuote (long : Bool) (rest : List Char) :
    readQuoted long ('\\' :: '"' :: rest) = .cons '"' (readQuoted long rest) :=
  readQuoted_letter rfl long rest

theorem readQuoted_number (hcontrol : c.toNat < 0x20 ∨ c.toNat = 0x7F) (long : Bool)
    (rest : List Char) :
    readQuoted long ('\\' :: 'u' :: '0' :: '0' :: upperHexDigit (c.toNat / 16) ::
        upperHexDigit (c.toNat % 16) :: rest) =
      .cons c (readQuoted long rest) := by
  cases long with
  | false =>
      show readBasic _ = .cons c (readBasic rest)
      rw [readBasic.eq_4, hexChar_control hcontrol]
      rfl
  | true =>
      show readLongBasic false _ = .cons c (readLongBasic false rest)
      rw [readLongBasic.eq_6, hexChar_control hcontrol]
      rfl

/-- A character `c` that stands for itself is passed by. -/
theorem readQuoted_plain (hquote : c ≠ '"') (hslash : c ≠ '\\')
    (hplain : isControl c = false ∨ long = true ∧ c = '\n') (rest : List Char) :
    readQuoted long (c :: rest) = .cons c (readQuoted long rest) := by
  cases long with
  | false =>
      have hcontrol : isControl c = false := by simpa using hplain
      show readBasic _ = .cons c (readBasic rest)
      rw [readBasic.eq_8 _ _ (fun h => hquote h) (fun _ _ _ h => absurd h hslash)
        (fun _ _ _ _ _ h => absurd h hslash) (fun _ _ _ _ _ _ _ _ _ h => absurd h hslash)
        (fun h => absurd h hslash) (fun _ _ h => absurd h hslash), hcontrol,
        if_neg Bool.false_ne_true]
  | true =>
      have hcontrol : (isControl c && c != '\n') = false := by
        rcases hplain with hcontrol | ⟨-, rfl⟩
        · rw [hcontrol, Bool.false_and]
        · rfl
      have hreturn : c ≠ '\r' := by
        rintro rfl
        exact absurd hcontrol (by decide)
      show readLongBasic false _ = .cons c (readLongBasic false rest)
      rw [readLongBasic.eq_11 _ _ _ (fun _ h => absurd h hquote) (fun _ h => absurd h hquote)
        (fun _ h => absurd h hquote) (fun _ _ _ h => absurd h hslash)
        (fun _ _ _ _ _ h => absurd h hslash) (fun _ _ _ _ _ _ _ _ _ h => absurd h hslash)
        (fun h => absurd h hslash) (fun _ _ h => absurd h hslash)
        (fun _ h => absurd h hreturn), hcontrol, Bool.false_and, if_neg Bool.false_ne_true,
        if_neg Bool.false_ne_true]

/-- Every character `c` but a double quote is read back as it is written. -/
theorem readQuoted_writtenChar (hquote : c ≠ '"') (long : Bool) (rest : List Char) :
    readQuoted long (writtenChar long c ++ rest) = .cons c (readQuoted long rest) := by
  unfold writtenChar escape?
  split_ifs with hb ht hn hlong hf hr hslash hcontrol
  · subst hb
    exact readQuoted_letter rfl long rest
  · subst ht
    exact readQuoted_letter rfl long rest
  · subst hn
    exact readQuoted_plain hquote (by decide) (.inr ⟨hlong, rfl⟩) rest
  · subst hn
    exact readQuoted_letter rfl long rest
  · subst hf
    exact readQuoted_letter rfl long rest
  · subst hr
    exact readQuoted_letter rfl long rest
  · subst hslash
    exact readQuoted_letter rfl long rest
  · exact readQuoted_number hcontrol long rest
  · have hplain : isControl c = false := by
      simp only [isControl, Bool.or_eq_false_iff, Bool.and_eq_false_imp, decide_eq_true_eq,
        beq_eq_false_iff_ne]
      omega
    exact readQuoted_plain hquote hslash (.inl hplain) rest

theorem readBasic_escapeChars (cs rest : List Char) (run : Nat) :
    readBasic (escapeChars false run cs ++ '"' :: rest) = some (cs, rest) := by
  induction cs generalizing run with
  | nil => exact readBasic.eq_2 rest
  | cons c cs ih =>
      have hnext : Reading.cons c (readBasic (escapeChars false 0 cs ++ '"' :: rest)) =
          some (c :: cs, rest) := by
        rw [ih 0]
        rfl
      by_cases hquote : c = '"'
      · subst hquote
        rw [escapeChars_quote_of_le Bool.noConfusion]
        exact (readQuoted_doubleQuote false _).trans hnext
      · rw [escapeChars_cons_of_ne hquote, List.append_assoc]
        exact (readQuoted_writtenChar hquote false _).trans hnext

/-! ## Quotes in texts of several lines -/

/-- The reader `read` takes three quotes `q` in a row for the end of a text, and one or two more
quotes behind them for its last characters.  Fewer quotes are part of the text. -/
structure ClosesAtThree (q : Char) (read : List Char → Reading) : Prop where
  three : ∀ {rest : List Char}, rest.head? ≠ some q → read (q :: q :: q :: rest) = some ([], rest)
  four : ∀ {rest : List Char}, rest.head? ≠ some q →
    read (q :: q :: q :: q :: rest) = some ([q], rest)
  five : ∀ rest, read (q :: q :: q :: q :: q :: rest) = some ([q, q], rest)
  few : ∀ {cs : List Char}, (∀ more, cs ≠ q :: q :: more) → read (q :: cs) = .cons q (read cs)

/-- A quote `q` is passed by if no two quotes stand behind it in the text. -/
theorem ClosesAtThree.quote {q : Char} {read : List Char → Reading} (h : ClosesAtThree q read)
    (hrest : rest.head? ≠ some q) (hcs : ¬ [q, q] <+: cs) :
    read (q :: (cs ++ q :: q :: q :: rest)) = .cons q (read (cs ++ q :: q :: q :: rest)) := by
  match cs, hcs with
  | [], _ => exact (h.four hrest).trans (congrArg (Reading.cons q) (h.three hrest)).symm
  | [c], _ =>
      by_cases hc : c = q
      · subst hc
        exact (h.five rest).trans (congrArg (Reading.cons c) (h.four hrest)).symm
      · exact h.few fun more heq => hc (List.cons.inj heq).1
  | c :: d :: cs, hcs =>
      apply h.few
      intro more heq
      obtain ⟨rfl, heq⟩ := List.cons.inj heq
      obtain ⟨rfl, -⟩ := List.cons.inj heq
      exact hcs ⟨cs, rfl⟩

theorem closesAtThree_readLongBasic : ClosesAtThree '"' (readLongBasic false) where
  three := fun hrest => readLongBasic.eq_4 _ _ (fun _ h => hrest (h ▸ rfl))
    (fun _ h => hrest (h ▸ rfl))
  four := fun hrest => readLongBasic.eq_3 _ _ fun _ h => hrest (h ▸ rfl)
  five := readLongBasic.eq_2 _
  few := by
    intro cs hfew
    rw [readLongBasic.eq_11 _ _ _ (fun _ _ h => hfew _ h) (fun _ _ h => hfew _ h)
      (fun _ _ h => hfew _ h) (fun _ _ _ h => absurd h (by decide))
      (fun _ _ _ _ _ h => absurd h (by decide)) (fun _ _ _ _ _ _ _ _ _ h => absurd h (by decide))
      (fun h => absurd h (by decide)) (fun _ _ h => absurd h (by decide))
      (fun _ h => absurd h (by decide))]
    rfl

theorem closesAtThree_readLongLiteral : ClosesAtThree '\'' readLongLiteral where
  three := fun hrest => readLongLiteral.eq_4 _ (fun _ h => hrest (h ▸ rfl))
    (fun _ h => hrest (h ▸ rfl))
  four := fun hrest => readLongLiteral.eq_3 _ fun _ h => hrest (h ▸ rfl)
  five := readLongLiteral.eq_2
  few := by
    intro cs hfew
    rw [readLongLiteral.eq_6 _ _ (fun _ _ h => hfew _ h) (fun _ _ h => hfew _ h)
      (fun _ _ h => hfew _ h) (fun _ h => absurd h (by decide))]
    rfl

/-- No double quote is written first unless the text `cs` begins with one that may stand for
itself. -/
theorem head?_escapeChars_ne {run : Nat} (hrun : cs.head? = some '"' → long = true → 2 ≤ run) :
    (escapeChars long run cs).head? ≠ some '"' := by
  cases cs with
  | nil => simp [escapeChars]
  | cons c cs =>
      by_cases hquote : c = '"'
      · subst hquote
        rw [escapeChars_quote_of_le (hrun rfl)]
        simp
      · rw [escapeChars_cons_of_ne hquote, writtenChar]
        unfold escape?
        split_ifs
        all_goals simp [hquote]

/-- Behind a double quote that stands for itself, at most one more is written. -/
theorem not_prefix_escapeChars (run : Nat) (cs : List Char) :
    ¬ ['"', '"'] <+: escapeChars true (run + 1) cs := by
  intro hprefix
  have hhead : (escapeChars true (run + 1) cs).head? = some '"' := by
    obtain ⟨more, hmore⟩ := hprefix
    rw [← hmore]
    rfl
  have hfirst : cs.head? = some '"' ∧ run + 1 < 2 := by
    by_contra hother
    exact head?_escapeChars_ne (fun hquote _ => Nat.not_lt.mp fun h => hother ⟨hquote, h⟩) hhead
  cases cs with
  | nil => cases hfirst.1
  | cons c cs =>
      obtain rfl : c = '"' := Option.some.inj hfirst.1
      obtain ⟨more, hmore⟩ := hprefix
      rw [escapeChars_quote_of_lt hfirst.2] at hmore
      have hsecond : (escapeChars true (run + 1 + 1) cs).head? ≠ some '"' :=
        head?_escapeChars_ne fun _ _ => Nat.le_add_left 2 run
      rw [← (List.cons.inj hmore).2] at hsecond
      exact hsecond rfl

theorem readLongBasic_escapeChars (hrest : rest.head? ≠ some '"') (cs : List Char) (run : Nat) :
    readLongBasic false (escapeChars true run cs ++ '"' :: '"' :: '"' :: rest) =
      some (cs, rest) := by
  induction cs generalizing run with
  | nil => exact closesAtThree_readLongBasic.three hrest
  | cons c cs ih =>
      have hnext (run : Nat) : Reading.cons c (readLongBasic false
          (escapeChars true run cs ++ '"' :: '"' :: '"' :: rest)) = some (c :: cs, rest) := by
        rw [ih run]
        rfl
      by_cases hquote : c = '"'
      · subst hquote
        by_cases hrun : run < 2
        · rw [escapeChars_quote_of_lt hrun]
          have hpass := closesAtThree_readLongBasic.quote hrest (not_prefix_escapeChars run cs)
          exact hpass.trans (hnext (run + 1))
        · rw [escapeChars_quote_of_le fun _ => Nat.not_lt.mp hrun]
          exact (readQuoted_doubleQuote true _).trans (hnext 0)
      · rw [escapeChars_cons_of_ne hquote, List.append_assoc]
        exact (readQuoted_writtenChar hquote true _).trans (hnext 0)

/-! ## Texts between single quotes -/

theorem readLiteral_append (hcontrol : ∀ c ∈ cs, isControl c = false) (hquote : '\'' ∉ cs)
    (rest : List Char) : readLiteral (cs ++ '\'' :: rest) = some (cs, rest) := by
  induction cs with
  | nil => rfl
  | cons c cs ih =>
      have hc : c ≠ '\'' := by
        rintro rfl
        exact hquote List.mem_cons_self
      rw [List.cons_append, readLiteral.eq_3 _ _ hc, hcontrol c List.mem_cons_self,
        if_neg Bool.false_ne_true, ih (fun d hd => hcontrol d (List.mem_cons_of_mem c hd))
          fun hd => hquote (List.mem_cons_of_mem c hd)]
      rfl

theorem readLongLiteral_append (hcontrol : ∀ c ∈ cs, isControl c = true → c = '\n')
    (htriple : ¬ ['\'', '\'', '\''] <:+: cs) (hrest : rest.head? ≠ some '\'') :
    readLongLiteral (cs ++ '\'' :: '\'' :: '\'' :: rest) = some (cs, rest) := by
  induction cs with
  | nil => exact closesAtThree_readLongLiteral.three hrest
  | cons c cs ih =>
      have hnext : Reading.cons c (readLongLiteral (cs ++ '\'' :: '\'' :: '\'' :: rest)) =
          some (c :: cs, rest) := by
        rw [ih (fun d hd => hcontrol d (List.mem_cons_of_mem c hd))
          fun h => htriple (h.trans (List.suffix_cons c cs).isInfix)]
        rfl
      by_cases hquote : c = '\''
      · subst hquote
        have hcs : ¬ ['\'', '\''] <+: cs := fun h =>
          htriple (List.cons_prefix_cons.mpr ⟨rfl, h⟩).isInfix
        exact (closesAtThree_readLongLiteral.quote hrest hcs).trans hnext
      · have hplain : (isControl c && c != '\n') = false := by
          simpa using hcontrol c List.mem_cons_self
        have hreturn : c ≠ '\r' := by
          rintro rfl
          exact absurd hplain (by decide)
        rw [List.cons_append, readLongLiteral.eq_6 _ _ (fun _ h => absurd h hquote)
          (fun _ h => absurd h hquote) (fun _ h => absurd h hquote) (fun _ h => absurd h hreturn),
          hplain, if_neg Bool.false_ne_true]
        exact hnext

/-! ## Runs of quotes -/

/-- One step of the search for the longest run. -/
def stepRun (q : Char) (state : Nat × Nat) (c : Char) : Nat × Nat :=
  if c = q then (state.1 + 1, max state.2 (state.1 + 1)) else (0, state.2)

theorem longestRun_eq (q : Char) (cs : List Char) :
    longestRun q cs = (cs.foldl (stepRun q) (0, 0)).2 := rfl

theorem le_foldl_stepRun (q : Char) (cs : List Char) (state : Nat × Nat) :
    state.2 ≤ (cs.foldl (stepRun q) state).2 := by
  induction cs generalizing state with
  | nil => exact Nat.le_refl _
  | cons c cs ih =>
      refine Nat.le_trans ?_ (ih (stepRun q state c))
      unfold stepRun
      split
      · exact Nat.le_max_left _ _
      · exact Nat.le_refl _

theorem fst_foldl_stepRun_le (q : Char) (cs : List Char) (state : Nat × Nat)
    (hstate : state.1 ≤ state.2) :
    (cs.foldl (stepRun q) state).1 ≤ (cs.foldl (stepRun q) state).2 := by
  induction cs generalizing state with
  | nil => exact hstate
  | cons c cs ih =>
      apply ih (stepRun q state c)
      unfold stepRun
      split
      · exact Nat.le_max_right _ _
      · exact Nat.zero_le _

theorem fst_foldl_stepRun_replicate (q : Char) (k : Nat) (state : Nat × Nat) :
    ((List.replicate k q).foldl (stepRun q) state).1 = state.1 + k := by
  induction k generalizing state with
  | zero => rfl
  | succ k ih =>
      rw [List.replicate_succ, List.foldl_cons, ih, stepRun, if_pos rfl]
      exact Nat.succ_add_eq_add_succ state.1 k

/-- As many quotes as stand in a row somewhere, `k` of them, the longest run has at least. -/
theorem le_longestRun {q : Char} {k : Nat} (hrun : List.replicate k q <:+: cs) :
    k ≤ longestRun q cs := by
  obtain ⟨front, back, rfl⟩ := hrun
  rw [longestRun_eq, List.foldl_append, List.foldl_append]
  have hfront := fst_foldl_stepRun_le q front (0, 0) (Nat.le_refl 0)
  have hbest := fst_foldl_stepRun_le q (List.replicate k q) _ hfront
  rw [fst_foldl_stepRun_replicate] at hbest
  exact Nat.le_trans (Nat.le_trans (Nat.le_add_left _ _) hbest) (le_foldl_stepRun q back _)

/-! ## The choice of quotes -/

/-- What the text `cs` must be like to be read back from quotes of the kind `quoting`. -/
def Quoting.Suits (quoting : Quoting) (cs : List Char) : Prop :=
  match quoting with
  | .basic | .longBasic => True
  | .literal => (∀ c ∈ cs, isControl c = false) ∧ '\'' ∉ cs
  | .longLiteral =>
    (∀ c ∈ cs, isControl c = true → c = '\n') ∧ ¬ ['\'', '\'', '\''] <:+: cs

/-- The quotes that are chosen for the text `cs` suit it. -/
theorem standardQuoting_suits (cs : List Char) : (standardQuoting cs).Suits cs := by
  have hcodes (hnone : (cs.any fun c => isControl c && c != '\n') = false) :
      ∀ c ∈ cs, isControl c = true → c = '\n' := by
    simpa using hnone
  unfold standardQuoting
  dsimp only
  split_ifs with _ hliteral _ hlong
  · trivial
  · simp only [Bool.and_eq_true, Bool.not_eq_true', beq_iff_eq, List.contains_eq_mem,
      decide_eq_false_iff_not] at hliteral
    obtain ⟨⟨hnone, hrun⟩, hline⟩ := hliteral
    refine ⟨fun c hc => ?_, fun hquote => ?_⟩
    · rw [← Bool.not_eq_true]
      intro hcontrol
      exact hline (hcodes hnone c hc hcontrol ▸ hc)
    · have hone : 1 ≤ longestRun '\'' cs :=
        le_longestRun ((List.singleton_infix_iff _ _).mpr hquote)
      omega
  · trivial
  · simp only [Bool.and_eq_true, Bool.not_eq_true', decide_eq_true_eq] at hlong
    refine ⟨hcodes hlong.1, fun htriple => ?_⟩
    have hthree : 3 ≤ longestRun '\'' cs := le_longestRun htriple
    omega
  · trivial
  · trivial

/-! ## Quoted texts -/

/-- The text `cs` does not begin a new line. -/
def StaysOnLine (cs : List Char) : Prop :=
  cs.head? ≠ some '\n' ∧ cs.head? ≠ some '\r'

theorem dropNewLine_of_staysOnLine (h : StaysOnLine cs) : dropNewLine cs = cs := by
  unfold dropNewLine
  split
  · exact absurd rfl h.1
  · exact absurd rfl h.2
  · rfl

/-- The new line that is put before a text `cs` of several lines is dropped again. -/
theorem dropNewLine_lead {inner : List Char} (hinner : '\n' ∉ cs → StaysOnLine inner) :
    dropNewLine ((if '\n' ∈ cs then ['\n'] else []) ++ inner) = inner := by
  split
  · rfl
  · next hline => exact dropNewLine_of_staysOnLine (hinner hline)

theorem staysOnLine_escapeChars (hline : '\n' ∉ cs) (run : Nat) (more : List Char) :
    StaysOnLine (escapeChars true run cs ++ '"' :: more) := by
  cases cs with
  | nil => exact ⟨by simp [escapeChars], by simp [escapeChars]⟩
  | cons c cs =>
      have hc : c ≠ '\n' := by
        rintro rfl
        exact hline List.mem_cons_self
      by_cases hquote : c = '"'
      · subst hquote
        by_cases hrun : run < 2
        · rw [escapeChars_quote_of_lt hrun]
          exact ⟨by simp, by simp⟩
        · rw [escapeChars_quote_of_le fun _ => Nat.not_lt.mp hrun]
          exact ⟨by simp, by simp⟩
      · rw [escapeChars_cons_of_ne hquote, writtenChar]
        unfold escape? StaysOnLine
        split_ifs
        all_goals simp_all

/-- Of control characters, a text between single quotes holds new lines alone. -/
theorem staysOnLine_of_codes (hcontrol : ∀ c ∈ cs, isControl c = true → c = '\n')
    (hline : '\n' ∉ cs) (more : List Char) : StaysOnLine (cs ++ '\'' :: more) := by
  cases cs with
  | nil => exact ⟨by simp, by simp⟩
  | cons c cs =>
      have hplain : isControl c = false := by
        rw [← Bool.not_eq_true]
        intro hc
        exact hline (hcontrol c List.mem_cons_self hc ▸ List.mem_cons_self)
      refine ⟨?_, ?_⟩
      all_goals
        rintro ⟨⟩
        exact absurd hplain (by decide)

/-- A single quote `q` that ends a text `cs` is not taken for one of three. -/
theorem ne_quote_quote {q : Char} (hcs : cs.head? ≠ some q) (hrest : rest.head? ≠ some q)
    (more : List Char) : cs ++ q :: rest ≠ q :: q :: more := by
  intro heq
  cases cs with
  | nil =>
      rw [(List.cons.inj heq).2] at hrest
      exact hrest rfl
  | cons c cs =>
      rw [(List.cons.inj heq).1] at hcs
      exact hcs rfl

/-- A text `cs` in quotes that suit it is read back, if no further quote follows. -/
theorem readText_quoteChars {quoting : Quoting} (hsuits : quoting.Suits cs)
    (hdouble : rest.head? ≠ some '"') (hsingle : rest.head? ≠ some '\'') :
    readText (quoteChars quoting cs ++ rest) = some (cs, rest) := by
  cases quoting with
  | basic =>
      have hhead : (escapeChars false 0 cs).head? ≠ some '"' :=
        head?_escapeChars_ne fun _ => Bool.noConfusion
      rw [quoteChars, List.cons_append, List.append_assoc]
      exact (readText.eq_2 _ (ne_quote_quote hhead hdouble)).trans
        (readBasic_escapeChars cs rest 0)
  | literal =>
      obtain ⟨hcontrol, hquote⟩ := hsuits
      have hhead : cs.head? ≠ some '\'' := fun h => hquote (List.mem_of_head? h)
      rw [quoteChars, List.cons_append, List.append_assoc]
      exact (readText.eq_4 _ (ne_quote_quote hhead hsingle)).trans
        (readLiteral_append hcontrol hquote rest)
  | longBasic =>
      have hread := readLongBasic_escapeChars hdouble cs 0
      rw [← dropNewLine_lead fun hline => staysOnLine_escapeChars hline 0 _] at hread
      rw [quoteChars, List.append_assoc, List.append_assoc, List.append_assoc]
      exact (readText.eq_1 _).trans hread
  | longLiteral =>
      obtain ⟨hcontrol, htriple⟩ := hsuits
      have hread := readLongLiteral_append hcontrol htriple hsingle
      rw [← dropNewLine_lead fun hline => staysOnLine_of_codes hcontrol hline _] at hread
      rw [quoteChars, List.append_assoc, List.append_assoc, List.append_assoc]
      exact (readText.eq_3 _).trans hread

/-- A text `s` is read back from the quotes that are chosen for it. -/
theorem readText_quote (s : String) (hdouble : rest.head? ≠ some '"')
    (hsingle : rest.head? ≠ some '\'') :
    readText ((quote s).toList ++ rest) = some (s.toList, rest) := by
  rw [quote, String.toList_ofList]
  exact readText_quoteChars (standardQuoting_suits s.toList) hdouble hsingle

end MediaManifest.Toml
