import Mathlib.Data.List.Induction
import Mathlib.Data.List.Nodup
import MediaManifest.Proofs.Identifier.Drawing

/-!
# Generators with several holders

Whoever holds a generator may draw from it and tell it of identifiers in use, and the calls of all
holders come in some order.  What a sequential generator gives (`handedOut`) depends on that order
alone.  It covers whatever was reserved or handed out before, and as long as its numbers last, the
next identifier is one that it does not cover.
-/

namespace MediaManifest

/-! ## Numerals -/

namespace Text

/-- Decimal `digits`, at least one of them, for a number `n` that fits 64 bits. -/
structure WordDigits (digits : List Char) (n : Nat) : Prop where
  nonempty : digits ≠ []
  all_digits : ∀ c ∈ digits, isDigit c = true
  value : digitsValue digits = n
  fits : n < 2 ^ 64

/-- The numeral of an unsigned 64-bit word `n`: its digits, with a plus sign before them or
without one. -/
def Numeral (numeral : List Char) (n : Nat) : Prop :=
  ∃ digits, (numeral = digits ∨ numeral = '+' :: digits) ∧ WordDigits digits n

theorem wordDigits_iff {digits : List Char} {n : Nat} :
    (if digits.isEmpty || !digits.all isDigit then none
      else if digitsValue digits < 2 ^ 64 then some (digitsValue digits) else none) = some n ↔
      WordDigits digits n := by
  rw [Option.ite_none_left_eq_some, Option.ite_none_right_eq_some, Option.some.injEq,
    Bool.or_eq_true, not_or, Bool.not_eq_true', Bool.not_eq_false, List.isEmpty_iff,
    List.all_eq_true]
  constructor
  · rintro ⟨⟨hsome, hall⟩, hfits, rfl⟩
    exact ⟨hsome, hall, rfl, hfits⟩
  · rintro ⟨hsome, hall, rfl, hfits⟩
    exact ⟨⟨hsome, hall⟩, hfits, rfl⟩

/-- Reading takes a `numeral` to its number `n`, and takes no other text. -/
theorem readWord_eq_some_iff {numeral : List Char} {n : Nat} :
    readWord numeral = some n ↔ Numeral numeral n := by
  unfold readWord
  split
  · next rest =>
    rw [wordDigits_iff]
    constructor
    · exact fun hword => ⟨rest, .inr rfl, hword⟩
    · rintro ⟨digits, rfl | hsigned, hword⟩
      · -- A plus sign among the digits would be a digit itself.
        exact absurd (hword.all_digits '+' List.mem_cons_self) (by decide)
      · obtain rfl := (List.cons.inj hsigned).2
        exact hword
  · next hunsigned =>
    rw [wordDigits_iff]
    constructor
    · exact fun hword => ⟨numeral, .inl rfl, hword⟩
    · rintro ⟨digits, rfl | rfl, hword⟩
      · exact hword
      · exact absurd rfl (hunsigned digits)

end Text

/-! ## Calls of holders -/

namespace Generator

/-- What a holder asks of a generator. -/
inductive Request where
  | next
  | reserve (key : String)

/-- A request, and the holder that makes it. -/
structure Call (ι : Type) where
  holder : ι
  request : Request

variable {γ ι : Type}

/-- The identifiers that calls reserve. -/
def reserved : List (Call ι) → List String
  | [] => []
  | ⟨_, .next⟩ :: calls => reserved calls
  | ⟨_, .reserve key⟩ :: calls => key :: reserved calls

theorem reserved_append (front back : List (Call ι)) :
    reserved (front ++ back) = reserved front ++ reserved back := by
  induction front with
  | nil => rfl
  | cons call front ih =>
      obtain ⟨holder, request⟩ := call
      cases request with
      | next => exact ih
      | reserve key => exact congrArg (List.cons key) ih

variable [Generator γ]

/-- The generator `g` after a request. -/
def heed (g : γ) : Request → γ
  | .next => (next g).2
  | .reserve key => reserve key g

/-- The generator `g` after the `calls` one after the other. -/
def after (g : γ) (calls : List (Call ι)) : γ :=
  calls.foldl (fun g call => heed g call.request) g

/-- The identifiers that calls of `g` give, each with the holder that gets it. -/
def handedOut (g : γ) : List (Call ι) → List (ι × String)
  | [] => []
  | ⟨holder, .next⟩ :: calls => (holder, (next g).1) :: handedOut (next g).2 calls
  | ⟨_, .reserve key⟩ :: calls => handedOut (reserve key g) calls

theorem after_append (g : γ) (front back : List (Call ι)) :
    after g (front ++ back) = after (after g front) back :=
  List.foldl_append

theorem handedOut_append (g : γ) (front back : List (Call ι)) :
    handedOut g (front ++ back) = handedOut g front ++ handedOut (after g front) back := by
  induction front generalizing g with
  | nil => rfl
  | cons call front ih =>
      obtain ⟨holder, request⟩ := call
      cases request with
      | next => exact congrArg (List.cons (holder, (next g).1)) (ih (next g).2)
      | reserve key => exact ih (reserve key g)

variable {knows : γ → String → Prop} {g : γ} {key : String} {calls : List (Call ι)}

theorem Remembers.heed (h : Remembers knows) (hkey : knows g key) (request : Request) :
    knows (Generator.heed g request) key := by
  cases request with
  | next => exact h.next hkey
  | reserve other => exact h.reserve other hkey

theorem Remembers.after (h : Remembers knows) (hkey : knows g key) (calls : List (Call ι)) :
    knows (Generator.after g calls) key := by
  induction calls generalizing g with
  | nil => exact hkey
  | cons call calls ih => exact ih (h.heed hkey call.request)

theorem Remembers.after_reserved (h : Remembers knows) (hmem : key ∈ Generator.reserved calls) :
    knows (Generator.after g calls) key := by
  induction calls generalizing g with
  | nil => cases hmem
  | cons call calls ih =>
      obtain ⟨holder, request⟩ := call
      cases request with
      | next => exact ih hmem
      | reserve other =>
          rcases List.mem_cons.mp hmem with rfl | hmem
          · exact h.after (h.reserved g key) calls
          · exact ih hmem

/-- The generator `g` knows each `key` that it has handed out, whoever got it. -/
theorem Settles.after_handedOut (h : Settles knows)
    (hmem : key ∈ (Generator.handedOut g calls).map Prod.snd) :
    knows (Generator.after g calls) key := by
  induction calls generalizing g with
  | nil => cases hmem
  | cons call calls ih =>
      obtain ⟨holder, request⟩ := call
      cases request with
      | next =>
          rcases List.mem_cons.mp hmem with rfl | hmem
          · exact h.toRemembers.after (h.drawn g) calls
          · exact ih hmem
      | reserve other => exact ih hmem

end Generator

open Generator (Call after handedOut reserved after_append handedOut_append reserved_append)

/-! ## Numbers that are issued -/

namespace Sequential

variable {ι : Type} {g : Sequential} {calls front back : List (Call ι)} {holder : ι}
  {key stem : String} {numbers : List Nat}

/-- No identifier is drawn from `g` once the numbers have come to their end, `2 ^ 64 - 1`. -/
def Lasts (g : Sequential) : List (Call ι) → Prop
  | [] => True
  | ⟨_, .next⟩ :: calls => g.issued < 2 ^ 64 - 1 ∧ Lasts (Generator.next g).2 calls
  | ⟨_, .reserve key⟩ :: calls => Lasts (Generator.reserve key g) calls

theorem lasts_append_iff :
    Lasts g (front ++ back) ↔ Lasts g front ∧ Lasts (after g front) back := by
  induction front generalizing g with
  | nil => exact iff_of_eq (true_and _).symm
  | cons call front ih =>
      obtain ⟨holder, request⟩ := call
      cases request with
      | next => exact (and_congr_right fun _ => ih).trans and_assoc.symm
      | reserve key => exact ih

theorem stem_after (g : Sequential) (calls : List (Call ι)) : (after g calls).stem = g.stem := by
  induction calls generalizing g with
  | nil => rfl
  | cons call calls ih =>
      refine (ih _).trans ?_
      obtain ⟨holder, request⟩ := call
      cases request with
      | next => exact stem_next g
      | reserve key => exact stem_reserve key g

/-- What is drawn while the numbers last is not covered before. -/
theorem Lasts.not_covers (h : Lasts g (front ++ ⟨holder, .next⟩ :: back)) :
    ¬ (after g front).Covers (Generator.next (after g front)).1 := by
  obtain ⟨-, hlast, -⟩ := lasts_append_iff.mp h
  have hroom : (after g front).HasRoom 1 := by
    intro j hj
    omega
  exact hroom.not_covers (Nat.lt_succ_self _) (Nat.le_refl _)

/-- The highest number of the `stem` among the reserved identifiers `keys`, or zero. -/
def highest (stem : String) (keys : List String) : Nat :=
  (keys.filterMap (number? stem)).foldl max 0

theorem highest_concat (stem : String) (keys : List String) (key : String) :
    highest stem (keys ++ [key]) = max (highest stem keys) ((number? stem key).getD 0) := by
  rw [highest, List.filterMap_append, List.foldl_append]
  cases hnumber : number? stem key with
  | none =>
      rw [List.filterMap_cons_none hnumber]
      exact (Nat.max_zero _).symm
  | some n =>
      rw [List.filterMap_cons_some hnumber]
      rfl

/-- The `numbers` in the identifiers that the `calls` gave: they increase, and the generator is at
the last of them or at the highest one reserved. -/
structure Issues (g : Sequential) (calls : List (Call ι)) (numbers : List Nat) : Prop where
  read : (handedOut g calls).map (fun entry => number? g.stem entry.2) = numbers.map some
  increasing : numbers.Pairwise (· < ·)
  le_issued : ∀ n ∈ numbers, n ≤ (after g calls).issued
  issued : (after g calls).issued =
    max (numbers.getLast?.getD g.issued) (highest g.stem (reserved calls))

theorem Issues.next (h : Issues g calls numbers) (hlast : (after g calls).issued < 2 ^ 64 - 1)
    (holder : ι) :
    Issues g (calls ++ [⟨holder, .next⟩]) (numbers ++ [(after g calls).issued + 1]) := by
  have hafter : (after g (calls ++ [⟨holder, .next⟩])).issued = (after g calls).issued + 1 := by
    rw [after_append]
    rfl
  refine ⟨?_, ?_, ?_, ?_⟩
  · have hread : number? g.stem (Generator.next (after g calls)).1 =
        some ((after g calls).issued + 1) := by
      rw [fst_next, stem_after, number?_identifier, if_pos (by omega)]
    rw [handedOut_append, List.map_append, List.map_append, h.read]
    exact congrArg (fun n => numbers.map some ++ [n]) hread
  · rw [List.pairwise_append]
    refine ⟨h.increasing, List.pairwise_singleton _ _, ?_⟩
    rintro n hn m hm
    obtain rfl := List.mem_singleton.mp hm
    exact Nat.lt_succ_of_le (h.le_issued n hn)
  · intro n hn
    rw [hafter]
    rcases List.mem_append.mp hn with hn | hn
    · exact Nat.le_succ_of_le (h.le_issued n hn)
    · exact Nat.le_of_eq (List.mem_singleton.mp hn)
  · have hreserved : reserved (calls ++ [⟨holder, .next⟩]) = reserved calls := by
      rw [reserved_append]
      exact List.append_nil _
    have hissued := h.issued
    rw [hafter, hreserved, List.getLast?_concat, Option.getD_some]
    omega

theorem Issues.reserve (h : Issues g calls numbers) (holder : ι) (key : String) :
    Issues g (calls ++ [⟨holder, .reserve key⟩]) numbers := by
  have hafter : (after g (calls ++ [⟨holder, .reserve key⟩])).issued =
      max (after g calls).issued ((number? g.stem key).getD 0) := by
    rw [after_append, ← stem_after g calls]
    exact issued_reserve key (after g calls)
  refine ⟨?_, h.increasing, ?_, ?_⟩
  · rw [handedOut_append, ← h.read]
    exact congrArg _ (List.append_nil _)
  · intro n hn
    rw [hafter]
    exact Nat.le_trans (h.le_issued n hn) (Nat.le_max_left _ _)
  · rw [hafter, h.issued, reserved_append, Nat.max_assoc]
    exact congrArg _ (highest_concat g.stem (reserved calls) key).symm

/-- The `calls` of all holders together, in whatever order they come. -/
theorem exists_issues (calls : List (Call ι)) (hlasts : Lasts g calls) :
    ∃ numbers, Issues g calls numbers := by
  induction calls using List.reverseRecOn with
  | nil => exact ⟨[], rfl, .nil, fun _ hn => absurd hn List.not_mem_nil, (Nat.max_zero _).symm⟩
  | append_singleton calls call ih =>
      obtain ⟨hfront, hlast⟩ := lasts_append_iff.mp hlasts
      obtain ⟨numbers, hissues⟩ := ih hfront
      obtain ⟨holder, request⟩ := call
      cases request with
      | next => exact ⟨_, hissues.next hlast.1 holder⟩
      | reserve key => exact ⟨numbers, hissues.reserve holder key⟩

/-! ## Identifiers that are handed out -/

/-- Holders that draw from `g` after one another get different identifiers. -/
theorem nodup_handedOut (calls : List (Call ι)) (hlasts : Lasts g calls) :
    ((handedOut g calls).map Prod.snd).Nodup := by
  induction calls using List.reverseRecOn with
  | nil => exact List.nodup_nil
  | append_singleton calls call ih =>
      have hfront := ih (lasts_append_iff.mp hlasts).1
      obtain ⟨holder, request⟩ := call
      rw [handedOut_append, List.map_append]
      cases request with
      | next =>
          refine List.nodup_append.mpr ⟨hfront, List.nodup_singleton _, ?_⟩
          rintro key hkey other hother rfl
          obtain rfl := List.mem_singleton.mp hother
          exact hlasts.not_covers (settles_covers.after_handedOut hkey)
      | reserve key =>
          refine Eq.subst ?_ hfront
          exact (List.append_nil _).symm

/-! ## What is reserved -/

theorem reserve_comm (first second : String) (g : Sequential) :
    Generator.reserve second (Generator.reserve first g) =
      Generator.reserve first (Generator.reserve second g) := by
  rw [reserve_eq second (Generator.reserve first g), reserve_eq first (Generator.reserve second g),
    stem_reserve, stem_reserve, issued_reserve, issued_reserve, Nat.max_right_comm]

theorem startingAfter_perm {keys others : List String} (hperm : keys.Perm others) (stem : String) :
    startingAfter stem keys = startingAfter stem others :=
  hperm.foldl_eq' (fun first _ second _ g => reserve_comm first second g) _

theorem startingAfter_eq (stem : String) (keys : List String) :
    startingAfter stem keys = ⟨stem, highest stem keys⟩ := by
  induction keys using List.reverseRecOn with
  | nil => rfl
  | append_singleton keys key ih =>
      have hlast : startingAfter stem (keys ++ [key]) =
          Generator.reserve key (startingAfter stem keys) :=
        Generator.reserveAll_append keys [key] (ofStem stem)
      rw [hlast, ih, reserve_eq, highest_concat]

theorem number?_eq_some_iff_numeral {n : Nat} :
    number? stem key = some n ↔
      ∃ numeral, key = stem ++ "-" ++ numeral ∧ Text.Numeral numeral.toList n := by
  have hwhole (numeral : String) :
      key = stem ++ "-" ++ numeral ↔ key.toList = stem.toList ++ '-' :: numeral.toList := by
    rw [← String.toList_inj, String.toList_append, String.toList_append, List.append_assoc]
    rfl
  simp only [number?_eq_some_iff, Text.readWord_eq_some_iff, hwhole]
  constructor
  · rintro ⟨numeral, hkey, hread⟩
    refine ⟨String.ofList numeral, ?_⟩
    rw [String.toList_ofList]
    exact ⟨hkey, hread⟩
  · rintro ⟨numeral, hkey, hread⟩
    exact ⟨numeral.toList, hkey, hread⟩

theorem reserve_of_numeral {numeral : String} {n : Nat} (hnumeral : Text.Numeral numeral.toList n)
    (stem : String) (issued : Nat) :
    Generator.reserve (stem ++ "-" ++ numeral) (⟨stem, issued⟩ : Sequential) =
      ⟨stem, max issued n⟩ := by
  have hnumber : number? stem (stem ++ "-" ++ numeral) = some n :=
    number?_eq_some_iff_numeral.mpr ⟨numeral, rfl, hnumeral⟩
  rw [reserve_eq, hnumber]
  rfl

/-- A text `key` of another form changes nothing. -/
theorem reserve_of_other
    (hother : ∀ numeral n, Text.Numeral numeral.toList n → key ≠ stem ++ "-" ++ numeral)
    (issued : Nat) :
    Generator.reserve key (⟨stem, issued⟩ : Sequential) = ⟨stem, issued⟩ := by
  apply reserve_of_covers
  intro n hnumber
  obtain ⟨numeral, hkey, hnumeral⟩ := number?_eq_some_iff_numeral.mp hnumber
  exact absurd hkey (hother numeral n hnumeral)

/-- Whoever makes the `calls` of a sequential generator in whatever order, as long as its numbers
last: no two of the identifiers that are `handedOut` are equal.  At every moment their numbers
have increased, and the generator stands at the last of them or at the highest number `reserved`.
No identifier is one that was reserved before it was handed out.  Only a text of the stem, a dash
and a `numeral` moves the generator, namely to its number if that is higher, so the order of texts
to start after makes no difference. -/
theorem calls_never_repeat (stem : String) (calls : List (Call ι))
    (hlasts : Lasts (ofStem stem) calls) :
    ((handedOut (ofStem stem) calls).map Prod.snd).Nodup ∧
    (∀ front, front <+: calls → ∃ numbers : List Nat,
      (handedOut (ofStem stem) front).map (fun entry => number? stem entry.2) =
        numbers.map some ∧
      numbers.Pairwise (· < ·) ∧
      (after (ofStem stem) front).issued =
        max (numbers.getLast?.getD 0) (highest stem (reserved front))) ∧
    (∀ front holder back, calls = front ++ ⟨holder, .next⟩ :: back → ∃ key later,
      handedOut (ofStem stem) calls = handedOut (ofStem stem) front ++ (holder, key) :: later ∧
        key ∉ reserved front) ∧
    (∀ key issued, (∀ numeral n, Text.Numeral numeral.toList n → key ≠ stem ++ "-" ++ numeral) →
      Generator.reserve key (⟨stem, issued⟩ : Sequential) = ⟨stem, issued⟩) ∧
    (∀ numeral n issued, Text.Numeral numeral.toList n →
      Generator.reserve (stem ++ "-" ++ numeral) (⟨stem, issued⟩ : Sequential) =
        ⟨stem, max issued n⟩) ∧
    (∀ keys, startingAfter stem keys = ⟨stem, highest stem keys⟩) ∧
    (∀ keys others : List String, keys.Perm others →
      startingAfter stem keys = startingAfter stem others) := by
  refine ⟨nodup_handedOut calls hlasts, ?_, ?_, fun key issued hother =>
    reserve_of_other hother issued, fun numeral n issued hnumeral =>
    reserve_of_numeral hnumeral stem issued, startingAfter_eq stem, fun keys others hperm =>
    startingAfter_perm hperm stem⟩
  · rintro front ⟨back, rfl⟩
    obtain ⟨numbers, hissues⟩ := exists_issues front (lasts_append_iff.mp hlasts).1
    exact ⟨numbers, hissues.read, hissues.increasing, hissues.issued⟩
  · rintro front holder back rfl
    refine ⟨_, _, handedOut_append (ofStem stem) front _, ?_⟩
    intro hreserved
    exact hlasts.not_covers (remembers_covers.after_reserved hreserved)

/-- Two holders of a generator whose stem holds a dash and a digit.  Zeros and a plus sign in a
reserved identifier are taken for its number, and the stem of a shorter one is not. -/
theorem calls_never_repeat_of_odd_numerals :
    let calls : List (Call Bool) :=
      [⟨true, .next⟩, ⟨false, .reserve "x-1-007"⟩, ⟨true, .reserve "x-40"⟩, ⟨true, .next⟩,
        ⟨true, .reserve "x-1-+9"⟩, ⟨false, .next⟩]
    handedOut (ofStem "x-1") calls = [(true, "x-1-1"), (true, "x-1-8"), (false, "x-1-10")] ∧
      ((handedOut (ofStem "x-1") calls).map Prod.snd).Nodup ∧
      startingAfter "x-1" ["x-1-007", "x-40", "x-1-+9"] =
        startingAfter "x-1" ["x-1-+9", "x-1-007", "x-40"] := by
  intro calls
  have hlasts : Lasts (ofStem "x-1") calls :=
    ⟨by decide, by decide, by decide, trivial⟩
  obtain ⟨hnodup, -, -, -, -, -, hperm⟩ := calls_never_repeat "x-1" calls hlasts
  exact ⟨by decide +kernel, hnodup, hperm _ _ (by decide)⟩

end Sequential

end MediaManifest
