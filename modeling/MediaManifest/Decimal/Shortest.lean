import MediaManifest.Decimal.Binary
import MediaManifest.Text.Numeral

/-!
# Shortest decimals

The shortest decimal of a finite number is the one with the fewest digits
among those that round to the number; of two equally short ones the nearer is
taken, and of two equally near ones the even one.  All comparisons are between
whole numbers.
-/

namespace MediaManifest.Decimal

/-- The decimal `digits * 10 ^ power`. -/
structure Numeral where
  digits : Nat
  power : Int
deriving DecidableEq

/-- A positive fraction with the interval of fractions that round to it, all
over one denominator. -/
structure Target where
  low : Nat
  value : Nat
  high : Nat
  denominator : Nat
  /-- Whether the ends of the interval round to the value. -/
  closed : Bool

/-- The target of the finite number `x`, without its sign. -/
def Target.ofBinary (x : Binary64) : Target :=
  let m := 4 * x.significand
  let below := if x.unevenGap then 1 else 2
  let q := x.power - 2
  let scale := Nat.pow 2 q.toNat
  { low := (m - below) * scale
    value := m * scale
    high := (m + 2) * scale
    denominator := Nat.pow 2 (-q).toNat
    closed := x.significand % 2 == 0 }

/-- Whether `n` over the denominator rounds to the value. -/
def Target.admits (t : Target) (n : Nat) : Bool :=
  if t.closed then t.low ≤ n && n ≤ t.high else t.low < n && n < t.high

/-- How far `n` over the denominator is from the value. -/
def Target.distance (t : Target) (n : Nat) : Nat :=
  (n - t.value) + (t.value - n)

/-- The least `j` from `from` on with `n * 10 ^ j ≥ d`, looking `fuel` steps far. -/
def raiseTo (n d : Nat) : Nat → Nat → Nat
  | 0, j => j
  | fuel + 1, j => if d ≤ n * Nat.pow 10 j then j else raiseTo n d fuel (j + 1)

/-- The power of ten of the leading digit of `n / d`. -/
def leadingPower (n d : Nat) : Int :=
  if d ≤ n then ((Nat.toDigits 10 (n / d)).length : Int) - 1
  else -((raiseTo n d 400 0 : Nat) : Int)

/-- The best decimal on the grid of `10 ^ k` if one rounds to the value: the two
neighbours of the value on that grid are looked at. -/
def Target.onGrid (t : Target) (k : Int) : Option Nat :=
  let up := Nat.pow 10 k.toNat
  let t : Target :=
    { t with
      low := t.low * Nat.pow 10 (-k).toNat
      value := t.value * Nat.pow 10 (-k).toNat
      high := t.high * Nat.pow 10 (-k).toNat }
  let unit := t.denominator * up
  let below := t.value / unit
  let above := below + 1
  let near := t.distance (below * unit)
  let far := t.distance (above * unit)
  match t.admits (below * unit), t.admits (above * unit) with
  | true, true =>
    if near < far then some below
    else if far < near then some above
    else some (if below % 2 == 0 then below else above)
  | true, false => some below
  | false, true => some above
  | false, false => none

/-- The first grid with a decimal that rounds to the value, from `10 ^ k` downwards. -/
def Target.search (t : Target) : Nat → Int → Numeral
  | 0, k => ⟨(t.onGrid k).getD 0, k⟩
  | fuel + 1, k =>
    match t.onGrid k with
    | some n => ⟨n, k⟩
    | none => t.search fuel (k - 1)

def Numeral.strip : Nat → Numeral → Numeral
  | 0, d => d
  | fuel + 1, d =>
    if d.digits != 0 && d.digits % 10 == 0 then strip fuel ⟨d.digits / 10, d.power + 1⟩
    else d

/-- The shortest decimal of the finite number `x`, without its sign. -/
def shortest (x : Binary64) : Numeral :=
  if x.significand = 0 then ⟨0, 0⟩
  else
    let t := Target.ofBinary x
    (t.search 17 (leadingPower t.value t.denominator)).strip 20

def Numeral.leading (d : Numeral) : Int :=
  d.power + ((Text.decimal d.digits).length : Int) - 1

/-- All digits of the value with a point, and at least one digit on each side of it. -/
def Numeral.positional (d : Numeral) : String :=
  let ds := (Text.decimal d.digits).toList
  if 0 ≤ d.power then
    String.ofList (ds ++ List.replicate d.power.toNat '0' ++ ['.', '0'])
  else
    let places := (-d.power).toNat
    if places < ds.length then
      String.ofList (ds.take (ds.length - places) ++ '.' :: ds.drop (ds.length - places))
    else
      String.ofList ('0' :: '.' :: (List.replicate (places - ds.length) '0' ++ ds))

/-- One digit before the point and a signed power of ten behind; no point if there is
only one digit. -/
def Numeral.scientific (d : Numeral) : String :=
  let e := d.leading
  let mantissa :=
    match (Text.decimal d.digits).toList with
    | [] => []
    | [c] => [c]
    | c :: rest => c :: '.' :: rest
  let sign := if e < 0 then "e-" else "e+"
  String.ofList mantissa ++ sign ++ Text.decimal e.natAbs

/-- A number with all its digits; an infinity is `inf`, and what is no number is `NaN`. -/
def Binary64.plain (x : Binary64) : String :=
  let sign := if x.negative then "-" else ""
  if x.finite then sign ++ (shortest x).positional
  else if x.fractionBits = 0 then sign ++ "inf"
  else "NaN"

/-- A number by its shortest decimal: with all its digits from `0.00001` to below
`10 ^ 16`, else with a power of ten. -/
def Binary64.text (x : Binary64) : String :=
  let d := shortest x
  let sign := if x.negative then "-" else ""
  if d.digits = 0 || (-5 ≤ d.leading && d.leading ≤ 15) then sign ++ d.positional
  else sign ++ d.scientific

end MediaManifest.Decimal
