import MediaManifest.Proofs.Json.Scanning

/-!
# Laying out values

The two ways of writing a value differ only in the blanks between its tokens. A
`Layout` says what these blanks are, and a value that is written in any layout
is read back as its own tree, whatever follows it that is no part of a number.
The values are those whose numbers are integers.
-/

namespace MediaManifest.Json

open Text (Symbol isDigit)

/-- The blanks before an item at a level of nesting (`line`), and those behind the colon of an
entry. -/
structure Layout where
  line : Nat → List Char
  gap : List Char
  line_blank : ∀ level, ∀ c ∈ line level, isSpace (.char c) = true
  gap_blank : ∀ c ∈ gap, isSpace (.char c) = true

namespace Layout

def compact : Layout where
  line _ := []
  gap := []
  line_blank _ _ hc := absurd hc List.not_mem_nil
  gap_blank _ hc := absurd hc List.not_mem_nil

def indented : Layout where
  line := Value.newLine
  gap := [' ']
  line_blank level c hc := by
    rcases List.mem_cons.mp hc with rfl | hc
    · rfl
    · rw [(List.mem_replicate.mp hc).2]
      rfl
  gap_blank c hc := by
    rw [List.mem_singleton.mp hc]
    rfl

mutual

/-- A value in the layout `l`, at a `level` of nesting. -/
def chars (l : Layout) (level : Nat) : Value → List Char
  | .null => ['n', 'u', 'l', 'l']
  | .bool true => ['t', 'r', 'u', 'e']
  | .bool false => ['f', 'a', 'l', 's', 'e']
  | .number n => n.chars
  | .text s => quotedChars s
  | .list [] => ['[', ']']
  | .list (v :: rest) =>
    '[' :: (l.line (level + 1) ++ (chars l (level + 1) v ++ charsAfterItem l level rest))
  | .object [] => ['{', '}']
  | .object ((k, v) :: rest) =>
    '{' :: (l.line (level + 1) ++ (quotedChars k ++ ':' ::
      (l.gap ++ (chars l (level + 1) v ++ charsAfterEntry l level rest))))

/-- What follows an item of a list: the other ones, and the closing bracket. -/
def charsAfterItem (l : Layout) (level : Nat) : List Value → List Char
  | [] => l.line level ++ [']']
  | v :: rest =>
    ',' :: (l.line (level + 1) ++ (chars l (level + 1) v ++ charsAfterItem l level rest))

/-- What follows an entry of an object: the other ones, and the closing brace. -/
def charsAfterEntry (l : Layout) (level : Nat) : List (String × Value) → List Char
  | [] => l.line level ++ ['}']
  | (k, v) :: rest =>
    ',' :: (l.line (level + 1) ++ (quotedChars k ++ ':' ::
      (l.gap ++ (chars l (level + 1) v ++ charsAfterEntry l level rest))))

end

mutual

theorem chars_compact (level : Nat) : ∀ v, compact.chars level v = v.compactChars
  | .null => rfl
  | .bool true => rfl
  | .bool false => rfl
  | .number _ => rfl
  | .text _ => rfl
  | .list [] => rfl
  | .list (v :: rest) => by
      rw [chars, Value.compactChars, chars_compact (level + 1) v, charsAfterItem_compact]
      rfl
  | .object [] => rfl
  | .object ((k, v) :: rest) => by
      rw [chars, Value.compactChars, chars_compact (level + 1) v, charsAfterEntry_compact]
      rfl

theorem charsAfterItem_compact (level : Nat) :
    ∀ vs, compact.charsAfterItem level vs = Value.compactItems vs ++ [']']
  | [] => rfl
  | v :: rest => by
      rw [charsAfterItem, Value.compactItems, chars_compact (level + 1) v,
        charsAfterItem_compact level rest, List.cons_append, List.append_assoc]
      rfl

theorem charsAfterEntry_compact (level : Nat) :
    ∀ es, compact.charsAfterEntry level es = Value.compactEntries es ++ ['}']
  | [] => rfl
  | (k, v) :: rest => by
      rw [charsAfterEntry, Value.compactEntries, chars_compact (level + 1) v,
        charsAfterEntry_compact level rest, List.cons_append, List.append_assoc,
        List.cons_append, List.append_assoc]
      rfl

end

mutual

theorem chars_indented (level : Nat) : ∀ v, indented.chars level v = v.prettyChars level
  | .null => rfl
  | .bool true => rfl
  | .bool false => rfl
  | .number _ => rfl
  | .text _ => rfl
  | .list [] => rfl
  | .list (v :: rest) => by
      rw [chars, Value.prettyChars, chars_indented (level + 1) v, charsAfterItem_indented]
      rfl
  | .object [] => rfl
  | .object ((k, v) :: rest) => by
      rw [chars, Value.prettyChars, chars_indented (level + 1) v, charsAfterEntry_indented]
      rfl

theorem charsAfterItem_indented (level : Nat) :
    ∀ vs, indented.charsAfterItem level vs =
      Value.prettyItems (level + 1) vs ++ (Value.newLine level ++ [']'])
  | [] => rfl
  | v :: rest => by
      rw [charsAfterItem, Value.prettyItems, chars_indented (level + 1) v,
        charsAfterItem_indented level rest, List.cons_append, List.append_assoc,
        List.append_assoc]
      rfl

theorem charsAfterEntry_indented (level : Nat) :
    ∀ es, indented.charsAfterEntry level es =
      Value.prettyEntries (level + 1) es ++ (Value.newLine level ++ ['}'])
  | [] => rfl
  | (k, v) :: rest => by
      rw [charsAfterEntry, Value.prettyEntries, chars_indented (level + 1) v,
        charsAfterEntry_indented level rest, List.cons_append, List.append_assoc,
        List.append_assoc, List.cons_append, List.cons_append, List.append_assoc]
      rfl

end

end Layout

/-- Both ways of writing a value `v` are layouts. -/
theorem exists_layout (indented : Bool) (v : Value) :
    ∃ l : Layout, (v.render indented).toList = l.chars 0 v := by
  cases indented with
  | false => exact ⟨.compact, by rw [Layout.chars_compact]; exact String.toList_ofList⟩
  | true => exact ⟨.indented, by rw [Layout.chars_indented]; exact String.toList_ofList⟩

/-! ## Blanks -/

variable {rest s : List Symbol} {cs : List Char} {c : Char}

theorem skipSpace_append (hcs : ∀ c ∈ cs, isSpace (.char c) = true) (s : List Symbol) :
    skipSpace (cs.map .char ++ s) = skipSpace s := by
  apply List.dropWhile_append_of_pos
  intro x hx
  obtain ⟨c, hc, rfl⟩ := List.mem_map.mp hx
  exact hcs c hc

theorem skipSpace_cons (hc : isSpace (.char c) = false) (s : List Symbol) :
    skipSpace (.char c :: s) = .char c :: s :=
  List.dropWhile_cons_of_neg (by simp [hc])

theorem endsNumber_cons (hc : isSpace (.char c) = true ∨ c = ',' ∨ c = ']' ∨ c = '}')
    (s : List Symbol) : EndsNumber (.char c :: s) := by
  intro d more heq
  cases heq
  simp only [isSpace, Bool.or_eq_true, beq_iff_eq] at hc
  rcases hc with (((rfl | rfl) | rfl) | rfl) | rfl | rfl | rfl <;> decide

/-- Blanks and a closing bracket end a number. -/
theorem endsNumber_append (hcs : ∀ c ∈ cs, isSpace (.char c) = true) (hc : c = ']' ∨ c = '}')
    (s : List Symbol) : EndsNumber (cs.map .char ++ .char c :: s) := by
  cases cs with
  | nil => exact endsNumber_cons (.inr (.inr hc)) s
  | cons d cs => exact endsNumber_cons (.inl (hcs d List.mem_cons_self)) _

/-! ## Steps of reading -/

variable {fuel : Nat} {mid : List Symbol} {tree : Tree} {trees : List Tree}
  {entries : List (Except Fault String × Tree)}

theorem growItem_succ (hvalue : growValue fuel s = (tree, some mid))
    (hmore : growMore fuel mid = ⟨trees, none, some rest⟩) :
    growItem (fuel + 1) s = ⟨tree :: trees, none, some rest⟩ := by
  rw [growItem, hvalue]
  simp only [hmore]

/-- The text `s` starts with a character that is neither blank nor a closing bracket. -/
def StartsItem (s : List Symbol) : Prop :=
  ∃ c rest, s = .char c :: rest ∧ isSpace (.char c) = false ∧ c ≠ ']'

theorem StartsItem.skipSpace_eq (h : StartsItem s) : skipSpace s = s := by
  obtain ⟨c, rest, rfl, hc, -⟩ := h
  exact skipSpace_cons hc rest

theorem growFirst_succ (h : StartsItem mid) (hs : skipSpace s = mid) :
    growFirst (fuel + 1) s = growItem fuel mid := by
  obtain ⟨c, rest, rfl, -, hc⟩ := h
  rw [growFirst, hs]
  split
  · next heq => cases heq
  · next heq =>
    cases heq
    exact absurd rfl hc
  · rfl

theorem growMore_close (hs : skipSpace s = .char ']' :: rest) :
    growMore (fuel + 1) s = ⟨[], none, some rest⟩ := by
  rw [growMore, hs]
  rfl

theorem growMore_comma (h : StartsItem mid) (hs : skipSpace s = mid) :
    growMore (fuel + 1) (.char ',' :: s) = growItem fuel mid := by
  obtain ⟨c, rest, rfl, -, hc⟩ := h
  rw [growMore, skipSpace_cons rfl]
  simp only [hs]
  split
  · next heq => cases heq
  · next heq =>
    cases heq
    exact absurd rfl hc
  · rfl

theorem growFirstEntry_succ (hs : skipSpace s = .char '"' :: rest) :
    growFirstEntry (fuel + 1) s = growEntry fuel rest := by
  rw [growFirstEntry, hs]
  rfl

theorem growEntry_succ (key : String) (hvalue : growValue fuel s = (tree, some mid))
    (hmore : growMoreEntries fuel mid = ⟨entries, none, some rest⟩) :
    growEntry (fuel + 1)
        ((key.toList.flatMap escapeChar).map .char ++ .char '"' :: .char ':' :: s) =
      ⟨(.ok key, tree) :: entries, none, some rest⟩ := by
  rw [growEntry, scanText_quoted]
  simp only [skipSpace_cons (c := ':') rfl, hvalue, hmore]

theorem growMoreEntries_close (hs : skipSpace s = .char '}' :: rest) :
    growMoreEntries (fuel + 1) s = ⟨[], none, some rest⟩ := by
  rw [growMoreEntries, hs]
  rfl

theorem growMoreEntries_comma (hs : skipSpace s = .char '"' :: rest) :
    growMoreEntries (fuel + 1) (.char ',' :: s) = growEntry fuel rest := by
  rw [growMoreEntries, skipSpace_cons rfl]
  simp only [hs]

/-! ## Values of integers -/

namespace Value

mutual

/-- All numbers in the value are integers. -/
def whole : Value → Bool
  | .null | .bool _ | .text _ => true
  | .number (.integer _ _) => true
  | .number (.fraction _) => false
  | .list items => wholeItems items
  | .object entries => wholeEntries entries

def wholeItems : List Value → Bool
  | [] => true
  | v :: rest => whole v && wholeItems rest

def wholeEntries : List (String × Value) → Bool
  | [] => true
  | (_, v) :: rest => whole v && wholeEntries rest

end

end Value

theorem exists_signedDecimal_eq_cons (k : Int) :
    ∃ c cs, (Text.signedDecimal k).toList = c :: cs ∧ (c = '-' ∨ isDigit c = true) := by
  obtain ⟨d, ds, hdigits, hd⟩ := exists_decimal_eq_cons k.natAbs
  unfold Text.signedDecimal
  split
  · exact ⟨'-', (Text.decimal k.natAbs).toList, by rw [String.toList_append]; rfl, .inl rfl⟩
  · exact ⟨d, ds, hdigits, .inr hd⟩

theorem not_space_of_digit (hc : c = '-' ∨ isDigit c = true) : isSpace (.char c) = false := by
  rw [← Bool.not_eq_true]
  intro hspace
  simp only [isSpace, Bool.or_eq_true, beq_iff_eq] at hspace
  rcases hspace with ((rfl | rfl) | rfl) | rfl <;> revert hc <;> decide

theorem Layout.startsItem_chars (l : Layout) (level : Nat) {v : Value} (hwhole : v.whole = true)
    (rest : List Symbol) : StartsItem ((l.chars level v).map .char ++ rest) := by
  cases v with
  | null => exact ⟨'n', _, rfl, rfl, by decide⟩
  | bool b => cases b with
    | true => exact ⟨'t', _, rfl, rfl, by decide⟩
    | false => exact ⟨'f', _, rfl, rfl, by decide⟩
  | number n => cases n with
    | fraction x => cases hwhole
    | integer k hrange =>
        obtain ⟨c, cs, hcs, hc⟩ := exists_signedDecimal_eq_cons k
        have hchars : l.chars level (.number (.integer k hrange)) = c :: cs := hcs
        refine ⟨c, cs.map .char ++ rest, by rw [hchars]; rfl, not_space_of_digit hc, ?_⟩
        rintro rfl
        revert hc
        decide
  | text t => exact ⟨'"', _, rfl, rfl, by decide⟩
  | list items => cases items with
    | nil => exact ⟨'[', _, rfl, rfl, by decide⟩
    | cons v rest => exact ⟨'[', _, rfl, rfl, by decide⟩
  | object entries => cases entries with
    | nil => exact ⟨'{', _, rfl, rfl, by decide⟩
    | cons entry rest => exact ⟨'{', _, rfl, rfl, by decide⟩

theorem growValue_integer (k : Int) (hrange : -(2 ^ 63) ≤ k ∧ k < 2 ^ 64)
    (hs : skipSpace s = (Text.signedDecimal k).toList.map .char ++ rest)
    (hrest : EndsNumber rest) :
    growValue (fuel + 1) s = (.number (.ok (.integer k hrange)), some rest) := by
  obtain ⟨literal, hscan, hnumber⟩ := scanLiteral_signedDecimal k hrange hrest
  obtain ⟨c, cs, hcs, hc⟩ := exists_signedDecimal_eq_cons k
  rw [hcs, List.map_cons, List.cons_append] at hs hscan
  -- No other kind of value starts with a minus sign or a digit.
  have hother : ∀ d : Char, ¬ (d = '-' ∨ isDigit d = true) → c ≠ d := by
    rintro d hd rfl
    exact hd hc
  rw [growValue, hs]
  split
  · next heq => cases heq
  · next heq => cases heq
  iterate 6
    · next heq =>
      cases heq
      exact absurd rfl (hother _ (by decide))
  · next heq =>
    cases heq
    rw [if_pos hc, hscan, Growth.ofLeaf, hnumber]

theorem growValue_text (t : String)
    (hs : skipSpace s = (quotedChars t).map .char ++ rest) :
    growValue (fuel + 1) s = (.text (.ok t), some rest) := by
  rw [quotedChars, List.map_cons, List.map_append, List.cons_append, List.append_assoc] at hs
  rw [growValue, hs]
  exact congrArg (Growth.ofLeaf Tree.text) (scanText_quoted t rest)

theorem growValue_list (hs : skipSpace s = .char '[' :: mid)
    (hitems : growFirst fuel mid = ⟨trees, none, some rest⟩) :
    growValue (fuel + 1) s = (.list trees none, some rest) := by
  rw [growValue, hs]
  simp only [hitems]

theorem growValue_object (hs : skipSpace s = .char '{' :: mid)
    (hentries : growFirstEntry fuel mid = ⟨entries, none, some rest⟩) :
    growValue (fuel + 1) s = (.object entries none, some rest) := by
  rw [growValue, hs]
  simp only [hentries]

/-! ## Reading what was laid out -/

theorem Layout.endsNumber_charsAfterItem (l : Layout) (level : Nat) (vs : List Value)
    (rest : List Symbol) : EndsNumber ((l.charsAfterItem level vs).map .char ++ rest) := by
  cases vs with
  | nil =>
      rw [charsAfterItem, List.map_append, List.append_assoc]
      exact endsNumber_append (l.line_blank level) (.inl rfl) rest
  | cons v vs => exact endsNumber_cons (.inr (.inl rfl)) _

theorem Layout.endsNumber_charsAfterEntry (l : Layout) (level : Nat)
    (es : List (String × Value)) (rest : List Symbol) :
    EndsNumber ((l.charsAfterEntry level es).map .char ++ rest) := by
  cases es with
  | nil =>
      rw [charsAfterEntry, List.map_append, List.append_assoc]
      exact endsNumber_append (l.line_blank level) (.inr rfl) rest
  | cons entry es => exact endsNumber_cons (.inr (.inl rfl)) _

/-- Behind the opening quote of a `key`, an entry is read as far as its value and what follows it
are. -/
theorem growEntry_chars (key : String) (hvalue : growValue fuel s = (tree, some mid))
    (hmore : growMoreEntries fuel mid = ⟨entries, none, some rest⟩)
    (hblank : ∀ c ∈ cs, isSpace (.char c) = true) :
    ∃ tail, skipSpace (cs.map .char ++ ((quotedChars key).map .char ++ .char ':' :: s)) =
        .char '"' :: tail ∧
      growEntry (fuel + 1) tail = ⟨(.ok key, tree) :: entries, none, some rest⟩ := by
  refine ⟨_, ?_, growEntry_succ key hvalue hmore⟩
  rw [skipSpace_append hblank, quotedChars, List.map_cons, List.cons_append,
    skipSpace_cons rfl, List.map_append, List.append_assoc]
  rfl

mutual

/-- A value `v` of integers is read back from any layout `l`. -/
theorem growValue_chars (l : Layout) (level fuel : Nat) (s rest : List Symbol) :
    ∀ v : Value, v.whole = true → skipSpace s = (l.chars level v).map .char ++ rest →
      3 * (l.chars level v).length ≤ fuel → EndsNumber rest →
      growValue (fuel + 1) s = (Tree.ofValue v, some rest)
  | .null, _, hs, _, _ => by
      rw [growValue, hs]
      rfl
  | .bool true, _, hs, _, _ => by
      rw [growValue, hs]
      rfl
  | .bool false, _, hs, _, _ => by
      rw [growValue, hs]
      rfl
  | .number (.fraction x), hwhole, _, _, _ => by
      cases hwhole
  | .number (.integer k hrange), _, hs, _, hrest => growValue_integer k hrange hs hrest
  | .text t, _, hs, _, _ => growValue_text t hs
  | .list [], _, hs, hfuel, _ => by
      obtain ⟨k, rfl⟩ := Nat.exists_eq_add_of_le' (show 1 ≤ fuel from by
        simp only [Layout.chars, List.length_cons, List.length_nil] at hfuel
        omega)
      have hopen : skipSpace s = .char '[' :: .char ']' :: rest := hs
      refine growValue_list hopen ?_
      rw [growFirst, skipSpace_cons rfl]
      rfl
  | .list (v :: vs), hwhole, hs, hfuel, _ => by
      obtain ⟨hv, hvs⟩ := Bool.and_eq_true_iff.mp hwhole
      simp only [Layout.chars, List.length_cons, List.length_append] at hfuel
      obtain ⟨k, rfl⟩ := Nat.exists_eq_add_of_le' (show 3 ≤ fuel by omega)
      have hstart := l.startsItem_chars (level + 1) hv
        ((l.charsAfterItem level vs).map .char ++ rest)
      have hvalue := growValue_chars l (level + 1) k _ _ v hv hstart.skipSpace_eq (by omega)
        (l.endsNumber_charsAfterItem level vs rest)
      have hmore := growMore_chars l level k rest vs hvs (by omega)
      have hskip := (skipSpace_append (l.line_blank (level + 1)) _).trans hstart.skipSpace_eq
      have hfirst := (growFirst_succ hstart hskip).trans (growItem_succ hvalue hmore)
      refine growValue_list ?_ hfirst
      rw [hs]
      simp [Layout.chars]
  | .object [], _, hs, hfuel, _ => by
      obtain ⟨k, rfl⟩ := Nat.exists_eq_add_of_le' (show 1 ≤ fuel from by
        simp only [Layout.chars, List.length_cons, List.length_nil] at hfuel
        omega)
      have hopen : skipSpace s = .char '{' :: .char '}' :: rest := hs
      refine growValue_object hopen ?_
      rw [growFirstEntry, skipSpace_cons rfl]
      rfl
  | .object ((key, v) :: es), hwhole, hs, hfuel, _ => by
      obtain ⟨hv, hes⟩ := Bool.and_eq_true_iff.mp hwhole
      simp only [Layout.chars, List.length_cons, List.length_append] at hfuel
      obtain ⟨k, rfl⟩ := Nat.exists_eq_add_of_le' (show 3 ≤ fuel by omega)
      have hstart := l.startsItem_chars (level + 1) hv
        ((l.charsAfterEntry level es).map .char ++ rest)
      have hgap := (skipSpace_append l.gap_blank _).trans hstart.skipSpace_eq
      have hvalue := growValue_chars l (level + 1) k _ _ v hv hgap (by omega)
        (l.endsNumber_charsAfterEntry level es rest)
      have hmore := growMoreEntries_chars l level k rest es hes (by omega)
      obtain ⟨tail, hskip, hentry⟩ :=
        growEntry_chars key hvalue hmore (l.line_blank (level + 1))
      refine growValue_object ?_ ((growFirstEntry_succ hskip).trans hentry)
      rw [hs]
      simp [Layout.chars]

theorem growMore_chars (l : Layout) (level fuel : Nat) (rest : List Symbol) :
    ∀ vs : List Value, Value.wholeItems vs = true →
      3 * (l.charsAfterItem level vs).length ≤ fuel →
      growMore (fuel + 1) ((l.charsAfterItem level vs).map .char ++ rest) =
        ⟨Tree.ofItems vs, none, some rest⟩
  | [], _, _ => by
      apply growMore_close
      rw [Layout.charsAfterItem, List.map_append, List.append_assoc,
        skipSpace_append (l.line_blank level)]
      exact skipSpace_cons rfl rest
  | v :: vs, hwhole, hfuel => by
      obtain ⟨hv, hvs⟩ := Bool.and_eq_true_iff.mp hwhole
      simp only [Layout.charsAfterItem, List.length_cons, List.length_append] at hfuel
      obtain ⟨k, rfl⟩ := Nat.exists_eq_add_of_le' (show 2 ≤ fuel by omega)
      have hstart := l.startsItem_chars (level + 1) hv
        ((l.charsAfterItem level vs).map .char ++ rest)
      have hvalue := growValue_chars l (level + 1) k _ _ v hv hstart.skipSpace_eq (by omega)
        (l.endsNumber_charsAfterItem level vs rest)
      have hmore := growMore_chars l level k rest vs hvs (by omega)
      have hskip := (skipSpace_append (l.line_blank (level + 1)) _).trans hstart.skipSpace_eq
      have hnext := (growMore_comma hstart hskip).trans (growItem_succ hvalue hmore)
      rw [Tree.ofItems, ← hnext]
      simp [Layout.charsAfterItem]

theorem growMoreEntries_chars (l : Layout) (level fuel : Nat) (rest : List Symbol) :
    ∀ es : List (String × Value), Value.wholeEntries es = true →
      3 * (l.charsAfterEntry level es).length ≤ fuel →
      growMoreEntries (fuel + 1) ((l.charsAfterEntry level es).map .char ++ rest) =
        ⟨Tree.ofEntries es, none, some rest⟩
  | [], _, _ => by
      apply growMoreEntries_close
      rw [Layout.charsAfterEntry, List.map_append, List.append_assoc,
        skipSpace_append (l.line_blank level)]
      exact skipSpace_cons rfl rest
  | (key, v) :: es, hwhole, hfuel => by
      obtain ⟨hv, hes⟩ := Bool.and_eq_true_iff.mp hwhole
      simp only [Layout.charsAfterEntry, List.length_cons, List.length_append] at hfuel
      obtain ⟨k, rfl⟩ := Nat.exists_eq_add_of_le' (show 2 ≤ fuel by omega)
      have hstart := l.startsItem_chars (level + 1) hv
        ((l.charsAfterEntry level es).map .char ++ rest)
      have hgap := (skipSpace_append l.gap_blank _).trans hstart.skipSpace_eq
      have hvalue := growValue_chars l (level + 1) k _ _ v hv hgap (by omega)
        (l.endsNumber_charsAfterEntry level es rest)
      have hmore := growMoreEntries_chars l level k rest es hes (by omega)
      obtain ⟨tail, hskip, hentry⟩ :=
        growEntry_chars key hvalue hmore (l.line_blank (level + 1))
      have hnext := (growMoreEntries_comma hskip).trans hentry
      rw [Tree.ofEntries, ← hnext]
      simp [Layout.charsAfterEntry]

end

/-- The text of a value `v` of integers is read back as its tree, with nothing after it. -/
theorem ofSymbols_render (indented : Bool) {v : Value} (hwhole : v.whole = true) :
    Draft.ofSymbols (Text.symbols (v.render indented)) = ⟨Tree.ofValue v, false⟩ := by
  obtain ⟨l, hl⟩ := exists_layout indented v
  have hstart := l.startsItem_chars 0 hwhole []
  have hends : EndsNumber [] := by
    rintro c more ⟨⟩
  have hgrow := growValue_chars l 0 (3 * (l.chars 0 v).length + 2)
    ((l.chars 0 v).map .char ++ []) [] v hwhole hstart.skipSpace_eq (by omega) hends
  rw [List.append_nil] at hgrow
  rw [Draft.ofSymbols, Text.symbols, hl, List.length_map, hgrow]
  rfl

end MediaManifest.Json
