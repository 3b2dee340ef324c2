/-!
# Cutting texts at a separator

A text is cut once, at the first separator, or at every one of them.
-/

namespace MediaManifest.Text

/-- The characters before and after the first `sep`, if there is one. -/
def cutChars (sep : Char) : List Char → Option (List Char × List Char)
  | [] => none
  | c :: rest =>
    if c = sep then some ([], rest)
    else (cutChars sep rest).map fun (front, back) => (c :: front, back)

/-- The parts of a text before and after the first `sep`, if there is one. -/
def cut (sep : Char) (s : String) : Option (String × String) :=
  (cutChars sep s.toList).map fun (front, back) =>
    (String.ofList front, String.ofList back)

/-- What follows `front` in a text that starts with it. -/
def dropFront : List Char → List Char → Option (List Char)
  | [], cs => some cs
  | _ :: _, [] => none
  | f :: fs, c :: cs => if f = c then dropFront fs cs else none

/-- The stretches between separators, at least one of them. -/
def splitChars (isSep : Char → Bool) : List Char → List (List Char)
  | [] => [[]]
  | c :: rest =>
    if isSep c then [] :: splitChars isSep rest
    else
      match splitChars isSep rest with
      | [] => [[c]]
      | piece :: pieces => (c :: piece) :: pieces

/-- The stretches of the text `s` between separators, at least one of them. -/
def split (isSep : Char → Bool) (s : String) : List String :=
  (splitChars isSep s.toList).map String.ofList

/-- The last stretch of the text `s` after its separators. -/
def lastPiece (isSep : Char → Bool) (s : String) : String :=
  ((split isSep s).getLast?).getD s

/-- Texts one after the other with `sep` between each two. -/
def join (sep : String) : List String → String
  | [] => ""
  | [s] => s
  | s :: rest => s ++ sep ++ join sep rest

def replicate (n : Nat) (s : String) : String :=
  join "" (List.replicate n s)

/-- ASCII letters in lower case, all else as it is. -/
def lowerAscii (s : String) : String :=
  String.ofList (s.toList.map Char.toLower)

/-- A cut text is its parts `front` and `back` with the separator `sep` between them, and `front`
holds no separator. -/
theorem cutChars_eq_some_iff {sep : Char} {cs front back : List Char} :
    cutChars sep cs = some (front, back) ↔
      cs = front ++ sep :: back ∧ sep ∉ front := by
  induction cs generalizing front with
  | nil => simp [cutChars]
  | cons c cs ih =>
    by_cases hc : c = sep
    · subst hc
      simp only [cutChars, if_true, Option.some.injEq, Prod.mk.injEq]
      constructor
      · rintro ⟨rfl, rfl⟩
        simp
      · rintro ⟨h, hn⟩
        cases front with
        | nil => simpa using h
        | cons f fs =>
          simp only [List.cons_append, List.cons.injEq] at h
          exact absurd (h.1 ▸ List.mem_cons_self) hn
    · simp only [cutChars, if_neg hc, Option.map_eq_some_iff, Prod.exists,
        Prod.mk.injEq]
      constructor
      · rintro ⟨f, b, h, rfl, rfl⟩
        obtain ⟨rfl, hn⟩ := ih.1 h
        refine ⟨by simp, ?_⟩
        simp only [List.mem_cons, not_or]
        exact ⟨fun h => hc h.symm, hn⟩
      · rintro ⟨h, hn⟩
        cases front with
        | nil =>
          simp only [List.nil_append, List.cons.injEq] at h
          exact absurd h.1 hc
        | cons f fs =>
          simp only [List.cons_append, List.cons.injEq] at h
          simp only [List.mem_cons, not_or] at hn
          exact ⟨fs, back, ih.2 ⟨h.2, hn.2⟩, by rw [h.1], rfl⟩

/-- The characters `cs` cannot be cut exactly when they hold no separator. -/
theorem cutChars_eq_none_iff {sep : Char} {cs : List Char} :
    cutChars sep cs = none ↔ sep ∉ cs := by
  induction cs with
  | nil => simp [cutChars]
  | cons c cs ih =>
    by_cases hc : c = sep
    · simp [cutChars, hc]
    · simp only [cutChars, if_neg hc, Option.map_eq_none_iff, ih, List.mem_cons,
        not_or]
      exact ⟨fun h => ⟨fun e => hc e.symm, h⟩, fun h => h.2⟩

/-- A text starts with `front` exactly if it is `front` with what follows it. -/
theorem dropFront_eq_some_iff {front cs rest : List Char} :
    dropFront front cs = some rest ↔ cs = front ++ rest := by
  induction front generalizing cs with
  | nil => simp [dropFront]
  | cons f fs ih =>
    cases cs with
    | nil => simp [dropFront]
    | cons c cs =>
      by_cases h : f = c
      · simp [dropFront, h, ih]
      · simp [dropFront, h, Ne.symm h]

end MediaManifest.Text
