import MediaManifest.Proofs.Toml.Keys
import MediaManifest.Proofs.Toml.Quoting

/-!
# Documents of plain lines

A document whose lines each give a value to a bare key (`Line`) is read as those
keys with those values, in the order of the lines, if no key stands twice.
-/

namespace MediaManifest.Toml

variable {value : Value} {key cs : List Char}

/-! ## Characters of a kind -/

variable {p : Char → Bool} {c d : Char}

theorem ne_of_kind (hc : p c = true) (hd : p d = false) : c ≠ d := by
  rintro rfl
  rw [hc] at hd
  cases hd

theorem cons_ne_cons (hc : p c = true) (hd : p d = false) (cs rest : List Char) :
    c :: cs ≠ d :: rest :=
  fun h => ne_of_kind hc hd (List.cons.inj h).1

/-- The characters `cs` with `p` at the front end with the first one, `d`, without. -/
theorem takeWhile_append_cons (hcs : cs.all p = true) (hd : p d = false) (rest : List Char) :
    (cs ++ d :: rest).takeWhile p = cs := by
  rw [List.takeWhile_append_of_pos (List.all_eq_true.mp hcs),
    List.takeWhile_cons_of_neg (by simp [hd]), List.append_nil]

theorem dropWhile_append_cons (hcs : cs.all p = true) (hd : p d = false) (rest : List Char) :
    (cs ++ d :: rest).dropWhile p = d :: rest := by
  rw [List.dropWhile_append_of_pos (List.all_eq_true.mp hcs),
    List.dropWhile_cons_of_neg (by simp [hd])]

/-! ## Values -/

/-- The `text` stands for the `value`: it is read as that value up to the end of its line. -/
structure Denotes (text : List Char) (value : Value) : Prop where
  starts : ∀ c ∈ text.head?, isSpace c = false
  read : ∀ fuel room rest,
    readValue (fuel + 1) room (text ++ '\n' :: rest) = some (value, '\n' :: rest)

theorem skipSpace_of_head? (hhead : ∀ c ∈ cs.head?, isSpace c = false) : skipSpace cs = cs := by
  cases cs with
  | nil => rfl
  | cons c cs => exact List.dropWhile_cons_of_neg (by simp [hhead c rfl])

theorem Denotes.skipSpace_append {text : List Char} (h : Denotes text value)
    (rest : List Char) : skipSpace (text ++ '\n' :: rest) = text ++ '\n' :: rest := by
  apply skipSpace_of_head?
  cases text with
  | nil => simp [isSpace]
  | cons c text => exact h.starts

theorem exists_quoteChars_eq (quoting : Quoting) (cs : List Char) :
    ∃ more, quoteChars quoting cs = '"' :: more ∨ quoteChars quoting cs = '\'' :: more := by
  cases quoting with
  | basic => exact ⟨_, .inl rfl⟩
  | literal => exact ⟨_, .inr rfl⟩
  | longBasic => exact ⟨_, .inl rfl⟩
  | longLiteral => exact ⟨_, .inr rfl⟩

/-- A text `s` in quotes stands for itself. -/
theorem denotes_quote (s : String) : Denotes (quote s).toList (.text s) := by
  have hread (rest : List Char) :
      readText ((quote s).toList ++ '\n' :: rest) = some (s.toList, '\n' :: rest) :=
    readText_quote s (by simp) (by simp)
  have hquotes := exists_quoteChars_eq (standardQuoting s.toList) s.toList
  rw [quote, String.toList_ofList] at hread ⊢
  obtain ⟨more, hquotes | hquotes⟩ := hquotes
  all_goals
    rw [hquotes] at hread ⊢
    refine ⟨?_, fun fuel room rest => ?_⟩
    · rintro c ⟨⟩
      rfl
    · have hvalue := hread rest
      rw [List.cons_append] at hvalue ⊢
      rw [readValue, hvalue]
      simp only [Option.map_some, String.ofList_toList]

theorem spanAtom_append (hchars : cs.all isAtomChar = true) (fuel : Nat) (rest : List Char) :
    spanAtom (fuel + 1) (cs ++ '\n' :: rest) = (cs, '\n' :: rest) := by
  rw [spanAtom, takeWhile_append_cons hchars rfl, dropWhile_append_cons hchars rfl]
  apply if_neg
  rw [List.dropWhile_cons_of_neg (by decide), List.head?_cons]
  simp [isAtomChar]

/-- An atom of the characters `cs` stands for its `value`. -/
theorem denotes_atom (hchars : cs.all isAtomChar = true) (hdouble : cs.head? ≠ some '"')
    (hsingle : cs.head? ≠ some '\'') (hatom : atom? cs = some value) : Denotes cs value := by
  cases cs with
  | nil => cases hatom
  | cons c cs =>
      have hc := List.all_eq_true.mp hchars c List.mem_cons_self
      refine ⟨?_, fun fuel room rest => ?_⟩
      · rintro _ ⟨⟩
        rw [isSpace, beq_false_of_ne (ne_of_kind hc rfl), beq_false_of_ne (ne_of_kind hc rfl)]
        rfl
      · have hread : readAtom (c :: cs ++ '\n' :: rest) = some (value, '\n' :: rest) := by
          rw [readAtom, spanAtom_append hchars]
          simp only [hatom, Option.map_some]
        rw [← hread, List.cons_append]
        unfold readValue
        split
        · next h => exact absurd (congrArg some (List.cons.inj h).1) hdouble
        · next h => exact absurd (congrArg some (List.cons.inj h).1) hsingle
        · next h => exact absurd h (cons_ne_cons hc rfl _ _)
        · next h => exact absurd h (cons_ne_cons hc rfl _ _)
        · rfl

/-! ## Keys -/

/-- The `key` needs no quotes. -/
def IsBare (key : List Char) : Prop :=
  key ≠ [] ∧ key.all isKeyChar = true

instance : DecidablePred IsBare :=
  fun key => inferInstanceAs (Decidable (key ≠ [] ∧ key.all isKeyChar = true))

theorem IsBare.exists_cons (h : IsBare key) :
    ∃ c more, key = c :: more ∧ isKeyChar c = true := by
  cases key with
  | nil => exact absurd rfl h.1
  | cons c more => exact ⟨c, more, rfl, List.all_eq_true.mp h.2 c List.mem_cons_self⟩

theorem IsBare.skipSpace_append (h : IsBare key) (rest : List Char) :
    skipSpace (key ++ rest) = key ++ rest := by
  obtain ⟨c, more, rfl, hc⟩ := h.exists_cons
  apply skipSpace_of_head?
  rintro _ ⟨⟩
  rw [isSpace, beq_false_of_ne (ne_of_kind hc rfl), beq_false_of_ne (ne_of_kind hc rfl)]
  rfl

theorem IsBare.readSimpleKey_append (h : IsBare key) (hd : isKeyChar d = false)
    (rest : List Char) :
    readSimpleKey (key ++ d :: rest) = some (String.ofList key, d :: rest) := by
  obtain ⟨c, more, rfl, hc⟩ := h.exists_cons
  unfold readSimpleKey
  split
  · next hquote => exact absurd hquote (cons_ne_cons hc rfl _ _)
  · next hquote => exact absurd hquote (cons_ne_cons hc rfl _ _)
  · rw [takeWhile_append_cons h.2 hd, dropWhile_append_cons h.2 hd]
    exact if_neg (by simp)

theorem IsBare.readKey_append (h : IsBare key) (rest : List Char) :
    readKey (key ++ ' ' :: '=' :: rest) = some ([String.ofList key], '=' :: rest) := by
  rw [readKey, keyLimit, readDotted, h.skipSpace_append, h.readSimpleKey_append rfl]
  rfl

/-! ## Lines -/

/-- A line that gives a value to a bare key. -/
structure Line where
  key : String
  text : String
  value : Value
  bare : IsBare key.toList
  denotes : Denotes text.toList value

namespace Line

def entry (l : Line) : String × Value :=
  (l.key, l.value)

/-- The characters of the line `l`, the end of the line included. -/
def chars (l : Line) : List Char :=
  l.key.toList ++ ' ' :: '=' :: ' ' :: (l.text.toList ++ ['\n'])

variable {l : Line} {root : Entries} {lines : List Line}

theorem chars_append (l : Line) (rest : List Char) :
    l.chars ++ rest = l.key.toList ++ ' ' :: '=' :: ' ' :: (l.text.toList ++ '\n' :: rest) := by
  simp [chars]

theorem readAssignment_chars (l : Line) (fuel room : Nat) (rest : List Char) :
    readAssignment (fuel + 2) room (fun cs => some (skipSpace cs)) (l.chars ++ rest) =
      some ([l.key], l.value, '\n' :: rest) := by
  have hspace : skipSpace (' ' :: (l.text.toList ++ '\n' :: rest)) =
      l.text.toList ++ '\n' :: rest :=
    (List.dropWhile_cons_of_pos rfl).trans (l.denotes.skipSpace_append rest)
  have hsign (rest : List Char) : skipSpace ('=' :: rest) = '=' :: rest := rfl
  rw [readAssignment, chars_append, l.bare.readKey_append, String.ofList_toList]
  simp only [hsign, hspace, l.denotes.read fuel room rest, Option.map_some]

theorem assign_of_new (hnew : l.key ∉ root.map Prod.fst) :
    Entries.assign l.value none [l.key] root = some (root ++ [l.entry]) := by
  rw [Entries.assign, if_neg (by simp), Entries.find?_eq_none_iff.mpr hnew]
  rfl

/-- A line `l` adds its entry to the table `root`, if its key is new. -/
theorem readLine_chars (hnew : l.key ∉ root.map Prod.fst) (rest : List Char) :
    (⟨root, []⟩ : Draft).readLine (l.chars ++ rest) =
      some (⟨root ++ [l.entry], []⟩, '\n' :: rest) := by
  have hread := l.readAssignment_chars (2 * (l.chars ++ rest).length) depthLimit rest
  obtain ⟨c, more, hkey, hc⟩ := l.bare.exists_cons
  obtain ⟨after, hchars⟩ : ∃ after, l.chars ++ rest = c :: after :=
    ⟨_, by rw [chars_append, hkey]; rfl⟩
  have hother (d : Char) (hd : isKeyChar d = false) (cs : List Char) : c :: after ≠ d :: cs :=
    cons_ne_cons hc hd after cs
  rw [hchars] at hread ⊢
  rw [Draft.readLine.eq_7 _ _ (List.cons_ne_nil c after) (hother '\n' rfl) (hother '\r' rfl)
    (hother '#' rfl) (fun cs => hother '[' rfl ('[' :: cs)) (hother '[' rfl), hread]
  simp only [Option.bind_eq_bind, Option.bind_some, Entries.within, assign_of_new hnew]
  rfl

/-- The `lines` add their entries in their order, if no key stands twice. -/
theorem readLines_flatMap {fuel : Nat} (hfuel : lines.length < fuel)
    (hdistinct : (root.map Prod.fst ++ lines.map Line.key).Nodup) :
    (⟨root, []⟩ : Draft).readLines fuel (lines.flatMap chars) =
      some ⟨root ++ lines.map entry, []⟩ := by
  induction lines generalizing fuel root with
  | nil =>
      obtain ⟨fuel, rfl⟩ := Nat.exists_eq_add_one.mpr hfuel
      rw [List.map_nil, List.append_nil]
      rfl
  | cons l lines ih =>
      obtain ⟨fuel, rfl⟩ := Nat.exists_eq_add_one.mpr (Nat.zero_lt_of_lt hfuel)
      have hnew : l.key ∉ root.map Prod.fst := fun hold =>
        List.disjoint_of_nodup_append hdistinct hold List.mem_cons_self
      have hdistinct : ((root ++ [l.entry]).map Prod.fst ++ lines.map Line.key).Nodup := by
        rw [List.map_append, List.append_assoc]
        exact hdistinct
      have hrest := ih (Nat.lt_of_succ_lt_succ hfuel) hdistinct
      rw [List.append_assoc] at hrest
      rw [List.flatMap_cons, Draft.readLines, chars_append, l.bare.skipSpace_append, ← chars_append,
        readLine_chars hnew]
      exact hrest

theorem length_le_length_flatMap (lines : List Line) :
    lines.length ≤ (lines.flatMap chars).length := by
  induction lines with
  | nil => exact Nat.le_refl 0
  | cons l lines ih =>
      rw [List.flatMap_cons, List.length_append, chars, List.length_append]
      simp only [List.length_cons]
      omega

theorem skipMark_flatMap (lines : List Line) :
    skipMark (lines.flatMap chars) = lines.flatMap chars := by
  cases lines with
  | nil => rfl
  | cons l lines =>
      obtain ⟨c, more, hkey, hc⟩ := l.bare.exists_cons
      rw [List.flatMap_cons, chars_append, hkey, List.cons_append]
      unfold skipMark
      split
      · next h => exact absurd h (cons_ne_cons hc rfl _ _)
      · rfl

/-- A document `s` of `lines` with different keys is read as the entries of its lines. -/
theorem entries?_of_toList_eq {s : String} (hs : s.toList = lines.flatMap chars)
    (hdistinct : (lines.map Line.key).Nodup) : entries? s = some (lines.map entry) := by
  have hfuel := Nat.lt_succ_of_le (length_le_length_flatMap lines)
  have hread : (⟨[], []⟩ : Draft).readLines ((lines.flatMap chars).length + 1)
      (lines.flatMap chars) = some ⟨lines.map entry, []⟩ := readLines_flatMap hfuel hdistinct
  rw [entries?, hs, skipMark_flatMap]
  exact congrArg (Option.map Draft.root) hread

end Line

end MediaManifest.Toml
