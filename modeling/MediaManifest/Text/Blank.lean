/-!
# White space and trimming

White space is Unicode's property `White_Space`.  Trimming removes it from
both ends of a text and nowhere else.
-/

namespace MediaManifest.Text

/-- The characters with Unicode's property `White_Space`. -/
def isBlank (c : Char) : Bool :=
  let n := c.toNat
  (0x09 ≤ n && n ≤ 0x0D) || n == 0x20 || n == 0x85 || n == 0xA0 || n == 0x1680 ||
    (0x2000 ≤ n && n ≤ 0x200A) || n == 0x2028 || n == 0x2029 || n == 0x202F ||
    n == 0x205F || n == 0x3000

/-- The characters `cs` without the white space at their front. -/
def trimFront (cs : List Char) : List Char :=
  cs.dropWhile isBlank

/-- The characters `cs` without the white space at their end. -/
def trimBack (cs : List Char) : List Char :=
  (cs.reverse.dropWhile isBlank).reverse

/-- The characters `cs` without the white space at either end. -/
def trimChars (cs : List Char) : List Char :=
  trimBack (trimFront cs)

def trim (s : String) : String :=
  String.ofList (trimChars s.toList)

/-- Whether `s` is a text of white space only; the empty text is one. -/
def blank (s : String) : Bool :=
  s.toList.all isBlank

@[simp] theorem toList_trim (s : String) :
    (trim s).toList = trimChars s.toList := by
  simp [trim]

theorem trimFront_eq_nil_iff {cs : List Char} :
    trimFront cs = [] ↔ ∀ c ∈ cs, isBlank c := by
  induction cs with
  | nil => simp [trimFront]
  | cons c cs ih =>
    by_cases hc : isBlank c
    · have hdrop : trimFront (c :: cs) = trimFront cs := List.dropWhile_cons_of_pos hc
      rw [hdrop, ih, List.forall_mem_cons]
      exact (and_iff_right hc).symm
    · simp [trimFront, hc]

theorem trimBack_eq_nil_iff {cs : List Char} :
    trimBack cs = [] ↔ ∀ c ∈ cs, isBlank c := by
  have hfront : trimFront cs.reverse = [] ↔ ∀ c ∈ cs.reverse, isBlank c := trimFront_eq_nil_iff
  simp only [List.mem_reverse] at hfront
  rw [trimBack, List.reverse_eq_nil_iff]
  exact hfront

/-- Trimming `cs` leaves nothing exactly if they are all white space. -/
theorem trimChars_eq_nil_iff {cs : List Char} :
    trimChars cs = [] ↔ ∀ c ∈ cs, isBlank c := by
  rw [trimChars, trimBack_eq_nil_iff]
  constructor
  · intro h
    induction cs with
    | nil => simp
    | cons c cs ih =>
      by_cases hc : isBlank c
      · simp only [trimFront, List.dropWhile_cons, hc, if_true] at h
        simpa [hc] using ih h
      · simp only [trimFront, List.dropWhile_cons, hc] at h
        exact absurd (h c (by simp)) hc
  · intro h c hc
    exact h c (List.dropWhile_suffix _ |>.mem hc)

/-- Trimming at the front keeps `cs` exactly if they start with no white space. -/
theorem trimFront_eq_self_iff {cs : List Char} :
    trimFront cs = cs ↔ ∀ c, cs.head? = some c → isBlank c = false := by
  cases cs with
  | nil => simp [trimFront]
  | cons c cs =>
    by_cases hc : isBlank c
    · simp only [trimFront, List.dropWhile_cons, hc, if_true, List.head?_cons,
        Option.some.injEq, forall_eq', Bool.true_eq_false, iff_false]
      intro h
      have this : (cs.dropWhile isBlank).length ≤ cs.length :=
        (List.dropWhile_suffix _).length_le
      rw [h] at this
      exact absurd this (by simp)
    · simp [trimFront, hc]

theorem trimFront_trimFront (cs : List Char) :
    trimFront (trimFront cs) = trimFront cs := by
  rw [trimFront_eq_self_iff]
  intro c hc
  have h := List.head?_dropWhile_not isBlank cs
  rw [show (cs.dropWhile isBlank).head? = some c from hc] at h
  exact h

theorem trimBack_trimBack (cs : List Char) :
    trimBack (trimBack cs) = trimBack cs := by
  have h := trimFront_trimFront cs.reverse
  simp only [trimFront] at h
  simp [trimBack, h]

/-- Trimming `cs` at the back leaves a front part. -/
theorem exists_eq_trimBack_append (cs : List Char) :
    ∃ rest, cs = trimBack cs ++ rest := by
  have hs : cs.reverse.dropWhile isBlank <:+ cs.reverse := List.dropWhile_suffix _
  obtain ⟨front, h⟩ := hs
  refine ⟨front.reverse, ?_⟩
  have h := congrArg List.reverse h
  simpa [trimBack] using h.symm

/-- What is left of the trimmed characters `cs` starts with no white space. -/
theorem trimFront_trimChars (cs : List Char) :
    trimFront (trimChars cs) = trimChars cs := by
  rw [trimFront_eq_self_iff]
  intro c hc
  obtain ⟨rest, h⟩ := exists_eq_trimBack_append (trimFront cs)
  refine trimFront_eq_self_iff.1 (trimFront_trimFront cs) c ?_
  rw [h]
  simp only [trimChars] at hc
  cases hb : trimBack (trimFront cs) with
  | nil => simp [hb] at hc
  | cons d ds => simpa [hb] using hc

/-- Trimming twice is trimming once. -/
@[simp] theorem trimChars_trimChars (cs : List Char) :
    trimChars (trimChars cs) = trimChars cs := by
  rw [trimChars, trimFront_trimChars, trimChars, trimBack_trimBack]

@[simp] theorem trim_trim (s : String) : trim (trim s) = trim s := by
  simp [trim]

end MediaManifest.Text
