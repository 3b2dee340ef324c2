import MediaManifest.Json.Value
import MediaManifest.Json.Fault
import MediaManifest.Text.Numeral
import MediaManifest.Text.Symbol

/-!
# Number literals

A literal has an optional minus sign, digits without a leading zero, an
optional fraction and an optional exponent.  A literal of digits alone stands
for an integer while it fits 64 bits.  Every other literal stands for a binary
fraction: as many leading digits as fit 64 bits, rounded to a binary fraction,
times or divided by a power of ten.
-/

namespace MediaManifest.Json

open Text (Symbol isDigit digitValue)

/-- The parts of a number as written. -/
structure Literal where
  minus : Bool
  whole : List Char
  /-- The digits after the point, if there is one. -/
  places : Option (List Char)
  /-- Whether the exponent is below zero, and its digits, if there is one. -/
  exponent : Option (Bool × List Char)
deriving DecidableEq

/-- The digits at the front of a text, and what follows them. -/
def spanDigits : List Symbol → List Char × List Symbol
  | .char c :: rest =>
    if isDigit c then
      let (ds, after) := spanDigits rest
      (c :: ds, after)
    else ([], .char c :: rest)
  | rest => ([], rest)

/-- What reading something from the front of a text gives: the thing and what follows, or
the place where the text breaks off. -/
inductive Scan (α : Type) where
  | done (value : α) (rest : List Symbol)
  | broken (cut : Break)

def Literal.cutShort (rest : List Symbol) : Break :=
  .inUnnamed (if rest.isEmpty then .endInValue else .invalidNumber) .invalidNumber

def scanExponent (literal : Literal) : List Symbol → Scan Literal
  | .char c :: rest =>
    if c = 'e' ∨ c = 'E' then
      let (below, digits) :=
        match rest with
        | .char '+' :: more => (false, more)
        | .char '-' :: more => (true, more)
        | more => (false, more)
      match spanDigits digits with
      | ([], after) => .broken (Literal.cutShort after)
      | (ds, after) => .done { literal with exponent := some (below, ds) } after
    else .done literal (.char c :: rest)
  | rest => .done literal rest

/-- The optional fraction and exponent at the front of a text. -/
def scanFraction (literal : Literal) : List Symbol → Scan Literal
  | .char '.' :: rest =>
    match spanDigits rest with
    | ([], after) => .broken (Literal.cutShort after)
    | (ds, after) => scanExponent { literal with places := some ds } after
  | rest => scanExponent literal rest

/-- The literal at the front of the text `s`, after its sign. -/
def scanUnsigned (minus : Bool) (s : List Symbol) : Scan Literal :=
  match spanDigits s with
  | ([], after) => .broken (Literal.cutShort after)
  | ('0' :: _ :: _, _) => .broken (.inUnnamed .invalidNumber .invalidNumber)
  | (ds, after) => scanFraction ⟨minus, ds, none, none⟩ after

def scanLiteral : List Symbol → Scan Literal
  | .char '-' :: rest => scanUnsigned true rest
  | rest => scanUnsigned false rest

/-- The digits that fit 64 bits, with the power of ten they are to be multiplied by. -/
structure Mantissa where
  digits : Nat
  power : Int

/-- Takes whole digits while they fit; each one past that counts as a power of ten. -/
def Mantissa.ofWhole : List Char → Nat → Mantissa
  | [], n => ⟨n, 0⟩
  | c :: rest, n =>
    if 10 * n + digitValue c < 2 ^ 64 then ofWhole rest (10 * n + digitValue c)
    else ⟨n, (rest.length : Int) + 1⟩

/-- Takes digits after the point while they fit; the ones past that are dropped. -/
def Mantissa.addPlaces : List Char → Mantissa → Mantissa
  | [], m => m
  | c :: rest, m =>
    if 10 * m.digits + digitValue c < 2 ^ 64 then
      addPlaces rest ⟨10 * m.digits + digitValue c, m.power - 1⟩
    else m

/-- The power of ten `10 ^ n` as a binary fraction. -/
def tenTo (n : Nat) : Float :=
  Float.ofScientific 1 false n

/-- Divides by `10 ^ 308` until the power of ten is at hand or nothing is left. -/
def scaleDown : Nat → Float → Nat → Float
  | 0, x, _ => x
  | fuel + 1, x, n =>
    if n ≤ 308 then x / tenTo n
    else if x == 0.0 then x
    else scaleDown fuel (x / tenTo 308) (n - 308)

/-- The binary fraction of the mantissa `m`; it must not be infinite. -/
def Mantissa.toFloat (m : Mantissa) : Except Fault Float :=
  let x := m.digits.toUInt64.toFloat
  if 0 ≤ m.power then
    let n := m.power.toNat
    if n ≤ 308 then
      let y := x * tenTo n
      if y.isInf then .error .numberOutOfRange else .ok y
    else if x == 0.0 then .ok x
    else .error .numberOutOfRange
  else .ok (scaleDown 8 x (-m.power).toNat)

def negate (x : Float) : Float :=
  -x

def Literal.toFloat (l : Literal) : Except Fault Float :=
  let m := Mantissa.addPlaces (l.places.getD []) (Mantissa.ofWhole l.whole 0)
  match l.exponent with
  | none => m.toFloat
  | some (below, ds) =>
    let e := Text.digitsValue ds
    if e < 2 ^ 31 then
      Mantissa.toFloat ⟨m.digits, if below then m.power - e else m.power + e⟩
    else if m.digits ≠ 0 ∧ !below then .error .numberOutOfRange
    else .ok 0.0

def Literal.number (l : Literal) : Except Fault Number :=
  let asFraction :=
    l.toFloat.map fun x => Number.fraction (.ofFloat (if l.minus then negate x else x))
  match l.places, l.exponent with
  | none, none =>
    let n : Int := Text.digitsValue l.whole
    let n := if l.minus then -n else n
    if h : -(2 ^ 63) ≤ n ∧ n < 2 ^ 64 then
      if l.minus ∧ n = 0 then asFraction else .ok (.integer n h)
    else asFraction
  | _, _ => asFraction

end MediaManifest.Json
