import MediaManifest.Toml.Value
import MediaManifest.Toml.Quote

/-!
# Atoms of TOML

Truth values, numbers, dates and times are written without quotes.
-/

namespace MediaManifest.Toml

open Text (isDigit digitsValue hexValue)
open Decimal (Binary64)

/-- Whether the numeral `cs` is parted well by its underscores, if it has any: no part is empty,
every part but the first begins with a digit, and every part but the last ends with one unless it
is a single character. -/
def isParted (digit : Char → Bool) (cs : List Char) : Bool :=
  match Text.splitChars (· == '_') cs with
  | [] => true
  | [_] => true
  | first :: rest =>
    let begins (part : List Char) : Bool := part.head?.any digit
    let ends (part : List Char) : Bool := part.length < 2 || part.getLast?.any digit
    !first.isEmpty && rest.all begins && (first :: rest).dropLast.all ends

def ungroup (cs : List Char) : List Char :=
  cs.filter (· != '_')

/-- Whether a number below zero is meant, and what follows the sign. -/
def takeSign : List Char → Bool × List Char
  | '+' :: rest => (false, rest)
  | '-' :: rest => (true, rest)
  | rest => (false, rest)

def signed (below : Bool) (n : Nat) : Int :=
  if below then -(n : Int) else n

/-- The integer `n` as a value: between the least number of 128 bits with a sign and the greatest
one without. -/
def held (n : Int) : Value :=
  if -(2 ^ 127) ≤ n ∧ n < 2 ^ 128 then .integer n else .unheld

/-- Whether `c` is a digit of a number to `base`. -/
def isRadixDigit (base : Nat) (c : Char) : Bool :=
  (hexValue c).any (· < base)

/-- An integer to `base`, from the digits `cs` behind the mark of the base.  They may be missing,
but then there is no number. -/
def radixInteger? (base : Nat) (cs : List Char) : Option Value :=
  let ds := ungroup cs
  if ds.all (isRadixDigit base) && isParted (isRadixDigit 16) cs then
    some (if ds.isEmpty then .unheld
      else held (ds.foldl (fun n c => base * n + (hexValue c).getD 0) 0 : Nat))
  else none

/-- An integer with perhaps a sign: `cs` in all, `ds` without the sign.  Behind an underscore
digits may be missing or others than decimal, but then there is no number. -/
def integer? (cs ds : List Char) : Option Value :=
  if (1 < ds.length ∧ ds.head? = some '0') ∨ !isParted (isRadixDigit 16) cs then none
  else
    let (below, digits) := takeSign (ungroup cs)
    some (if digits.all isDigit && !digits.isEmpty then held (signed below (digitsValue digits))
      else .unheld)

/-- The binary fraction nearest to `digits * 10 ^ power`. -/
def nearest (digits : Nat) (power : Int) : Float :=
  let leading := (Text.decimal digits).length + power
  if digits = 0 ∨ leading < -400 then 0.0
  else if 400 < leading then 1.0 / 0.0
  else if 0 ≤ power then Float.ofScientific digits false power.toNat
  else Float.ofScientific digits true power.natAbs

/-- The decimal digits at the front of a text, one at least, and what follows them;
underscores among them are left out. -/
def takeGroup (cs : List Char) : Option (List Char × List Char) :=
  let inGroup (c : Char) : Bool := isDigit c || c == '_'
  let ds := ungroup (cs.takeWhile inGroup)
  if ds.isEmpty then none else some (ds, cs.dropWhile inGroup)

/-- The digits behind the point at the front of a text, if there is one. -/
def takeFractionDigits : List Char → Option (List Char × List Char)
  | '.' :: rest => takeGroup rest
  | rest => some ([], rest)

/-- The exponent at the front of a text, if there is one. -/
def takeExponent : List Char → Option (Int × List Char)
  | [] => some (0, [])
  | c :: rest =>
    if c = 'e' ∨ c = 'E' then
      let (below, rest) := takeSign rest
      (takeGroup rest).map fun (ds, rest) => (signed below (digitsValue ds), rest)
    else some (0, c :: rest)

/-- A decimal with a point, an exponent or both, and perhaps a sign: `cs` in all, `ds` without
the sign.  It has no number if that cannot be told from infinity. -/
def fraction? (cs ds : List Char) : Option Value := do
  let (front, rest) ← takeGroup ds
  if 1 < front.length ∧ ds.head? = some '0' then none
  let (back, rest) ← takeFractionDigits rest
  let (power, rest) ← takeExponent rest
  if !rest.isEmpty ∨ !isParted isDigit cs then none
  let x := nearest (digitsValue (front ++ back)) (power - back.length)
  let below := (takeSign cs).1
  some (if x.isInf then .unheld else .fraction (.ofFloat (if below then -x else x)))

/-- The number of exactly `k` digits at the front of a text, and what follows them. -/
def takeDigits (k : Nat) (cs : List Char) : Option (Nat × List Char) :=
  let ds := cs.take k
  if ds.length = k ∧ ds.all isDigit then some (digitsValue ds, cs.drop k) else none

/-- What follows a character at the front of a text. -/
def dropChar (c : Char) : List Char → Option (List Char)
  | d :: rest => if d = c then some rest else none
  | [] => none

def daysIn (year month : Nat) : Nat :=
  if month = 2 then
    if year % 4 = 0 ∧ (year % 100 ≠ 0 ∨ year % 400 = 0) then 29 else 28
  else if month = 4 ∨ month = 6 ∨ month = 9 ∨ month = 11 then 30
  else 31

def dropDate (cs : List Char) : Option (List Char) := do
  let (year, cs) ← takeDigits 4 cs
  let (month, cs) ← takeDigits 2 (← dropChar '-' cs)
  let (day, cs) ← takeDigits 2 (← dropChar '-' cs)
  if 1 ≤ month ∧ month ≤ 12 ∧ 1 ≤ day ∧ day ≤ daysIn year month then some cs else none

/-- What follows a time of day at the front of a text; seconds and their fraction may be
left out. -/
def dropTime (cs : List Char) : Option (List Char) := do
  let (hour, cs) ← takeDigits 2 cs
  let (minute, cs) ← takeDigits 2 (← dropChar ':' cs)
  if hour > 23 ∨ minute > 59 then none
  match cs with
  | ':' :: cs =>
    let (second, cs) ← takeDigits 2 cs
    if second > 60 then none
    match cs with
    | '.' :: cs =>
      if (cs.takeWhile isDigit).isEmpty then none else some (cs.dropWhile isDigit)
    | cs => some cs
  | cs => some cs

/-- What follows an offset from universal time at the front of a text. -/
def dropOffset : List Char → Option (List Char)
  | 'Z' :: cs => some cs
  | 'z' :: cs => some cs
  | '+' :: cs => dropHours cs
  | '-' :: cs => dropHours cs
  | cs => some cs
where
  dropHours (cs : List Char) : Option (List Char) := do
    let (hour, cs) ← takeDigits 2 cs
    let (minute, cs) ← takeDigits 2 (← dropChar ':' cs)
    if hour > 23 ∨ minute > 59 then none else some cs

/-- Whether `cs` is a date, a time, or a date with a time and perhaps an offset. -/
def isMoment (cs : List Char) : Bool :=
  match dropDate cs with
  | some [] => true
  | some (c :: rest) =>
    (c == 'T' || c == 't' || c == ' ') && ((dropTime rest).bind dropOffset) == some []
  | none => dropTime cs == some []

/-- The decimal number or the moment that `cs` is in all and `ds` without its sign; what
follows the leading digits tells them apart. -/
def number? (cs ds : List Char) : Option Value :=
  let rest := ds.dropWhile isDigit
  match rest with
  | [] => integer? cs ds
  | c :: _ =>
    if c = '-' ∨ c = ':' then if isMoment cs then some .moment else none
    else if rest.contains ' ' then none
    else if rest.any fun d => d == '.' || d == 'e' || d == 'E' then fraction? cs ds
    else if c = '_' then integer? cs ds
    else none

def atom? (cs : List Char) : Option Value :=
  match cs with
  | ['t', 'r', 'u', 'e'] => some (.boolean true)
  | ['f', 'a', 'l', 's', 'e'] => some (.boolean false)
  | '0' :: 'x' :: ds => radixInteger? 16 ds
  | '0' :: 'o' :: ds => radixInteger? 8 ds
  | '0' :: 'b' :: ds => radixInteger? 2 ds
  | cs =>
    match takeSign cs with
    | (_, []) => none
    | (below, ['i', 'n', 'f']) =>
      some (.fraction (.ofFloat (if below then -(1.0 / 0.0) else 1.0 / 0.0)))
    | (_, ['n', 'a', 'n']) => some (.fraction (.ofFloat (0.0 / 0.0)))
    | (_, ds) => number? cs ds

/-- The characters that atoms are made of: all but blanks and the signs between values. -/
def isAtomChar (c : Char) : Bool :=
  !([' ', '\t', '\r', '\n', '=', ',', '[', ']', '{', '}', '#'].contains c)

/-- The atom at the front of a text and what follows it.  Blanks with more of the like behind
them belong to it, as between a date and a time. -/
def spanAtom : Nat → List Char → List Char × List Char
  | 0, cs => ([], cs)
  | fuel + 1, cs =>
    let front := cs.takeWhile isAtomChar
    let back := cs.dropWhile isAtomChar
    let goesOn (c : Char) : Bool := isAtomChar c && c != '"' && c != '\'' && c != '.'
    if !front.isEmpty && (back.dropWhile isSpace).head?.any goesOn then
      let (more, rest) := spanAtom fuel (back.dropWhile isSpace)
      (front ++ back.takeWhile isSpace ++ more, rest)
    else (front, back)

def readAtom (cs : List Char) : Option (Value × List Char) :=
  let (atom, rest) := spanAtom (cs.length + 1) cs
  (atom? atom).map (·, rest)

end MediaManifest.Toml
