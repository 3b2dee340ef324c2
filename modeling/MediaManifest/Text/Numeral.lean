/-!
# Numerals

Writing natural numbers in decimal and in hexadecimal, and reading the decimal
numerals of unsigned 64-bit words: an optional plus sign, then at least one
ASCII digit, leading zeros allowed.
-/

-- A power of numbers is the built-in one, also where a library knows another instance.
attribute [default_instance 20000] instPowNat

namespace MediaManifest.Text

def isDigit (c : Char) : Bool :=
  '0' ≤ c && c ≤ '9'

def digitValue (c : Char) : Nat :=
  c.toNat - '0'.toNat

def hexValue (c : Char) : Option Nat :=
  if isDigit c then some (digitValue c)
  else if 'a' ≤ c ∧ c ≤ 'f' then some (c.toNat - 'a'.toNat + 10)
  else if 'A' ≤ c ∧ c ≤ 'F' then some (c.toNat - 'A'.toNat + 10)
  else none

/-- The digit of a number `n` below sixteen, in lower case. -/
def hexDigit (n : Nat) : Char :=
  if n < 10 then Char.ofNat ('0'.toNat + n) else Char.ofNat ('a'.toNat + (n - 10))

/-- The number `n` in lower-case hexadecimal without leading zeros. -/
def hexadecimal (n : Nat) : List Char :=
  Nat.toDigits 16 n

/-- The value of the decimal digits `ds`, the first one weighing most. -/
def digitsValue (ds : List Char) : Nat :=
  ds.foldl (fun n c => 10 * n + digitValue c) 0

/-- The value of the numeral `cs` of an unsigned 64-bit word. -/
def readWord (cs : List Char) : Option Nat :=
  let digits :=
    match cs with
    | '+' :: rest => rest
    | cs => cs
  if digits.isEmpty || !digits.all isDigit then none
  else
    let n := digitsValue digits
    if n < 2 ^ 64 then some n else none

def decimal (n : Nat) : String :=
  Nat.repr n

/-- The integer `n` as text in decimal, with a minus sign below zero. -/
def signedDecimal (n : Int) : String :=
  if n < 0 then "-" ++ decimal n.natAbs else decimal n.natAbs

end MediaManifest.Text
