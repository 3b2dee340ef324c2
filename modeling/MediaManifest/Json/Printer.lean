import MediaManifest.Json.Value
import MediaManifest.Decimal.Shortest
import MediaManifest.Text.Numeral

/-!
# Writing JSON

A value is written on one line without blanks, or indented by two spaces per
level.  Texts stand between quotes; quotes, backslashes and the control
characters below the space are escaped, all else is written as it is.
-/

namespace MediaManifest.Json

/-- The character `c` as it stands inside a written text. -/
def escapeChar (c : Char) : List Char :=
  if c = '"' then ['\\', '"']
  else if c = '\\' then ['\\', '\\']
  else if c.toNat = 0x08 then ['\\', 'b']
  else if c.toNat = 0x09 then ['\\', 't']
  else if c.toNat = 0x0A then ['\\', 'n']
  else if c.toNat = 0x0C then ['\\', 'f']
  else if c.toNat = 0x0D then ['\\', 'r']
  else if c.toNat < 0x20 then
    ['\\', 'u', '0', '0', Text.hexDigit (c.toNat / 16), Text.hexDigit (c.toNat % 16)]
  else [c]

def quotedChars (s : String) : List Char :=
  '"' :: (s.toList.flatMap escapeChar ++ ['"'])

/-- A number: an integer in decimal, a fraction by its shortest decimal. -/
def Number.chars : Number → List Char
  | .integer n _ => (Text.signedDecimal n).toList
  | .fraction x => x.text.toList

namespace Value

mutual

def compactChars : Value → List Char
  | .null => ['n', 'u', 'l', 'l']
  | .bool true => ['t', 'r', 'u', 'e']
  | .bool false => ['f', 'a', 'l', 's', 'e']
  | .number n => n.chars
  | .text s => quotedChars s
  | .list [] => ['[', ']']
  | .list (v :: rest) => '[' :: (compactChars v ++ (compactItems rest ++ [']']))
  | .object [] => ['{', '}']
  | .object ((k, v) :: rest) =>
    '{' :: (quotedChars k ++ ':' :: (compactChars v ++ (compactEntries rest ++ ['}'])))

/-- The items after the first, each with a comma before it. -/
def compactItems : List Value → List Char
  | [] => []
  | v :: rest => ',' :: (compactChars v ++ compactItems rest)

/-- The entries after the first, each with a comma before it. -/
def compactEntries : List (String × Value) → List Char
  | [] => []
  | (k, v) :: rest =>
    ',' :: (quotedChars k ++ ':' :: (compactChars v ++ compactEntries rest))

end

def newLine (level : Nat) : List Char :=
  '\n' :: List.replicate (2 * level) ' '

mutual

/-- A value over several lines, the ones inside it indented one deeper than `level`. -/
def prettyChars (level : Nat) : Value → List Char
  | .null => ['n', 'u', 'l', 'l']
  | .bool true => ['t', 'r', 'u', 'e']
  | .bool false => ['f', 'a', 'l', 's', 'e']
  | .number n => n.chars
  | .text s => quotedChars s
  | .list [] => ['[', ']']
  | .list (v :: rest) =>
    '[' :: (newLine (level + 1) ++ (prettyChars (level + 1) v ++
      (prettyItems (level + 1) rest ++ (newLine level ++ [']']))))
  | .object [] => ['{', '}']
  | .object ((k, v) :: rest) =>
    '{' :: (newLine (level + 1) ++ (quotedChars k ++ ':' :: ' ' ::
      (prettyChars (level + 1) v ++
        (prettyEntries (level + 1) rest ++ (newLine level ++ ['}'])))))

/-- The items after the first, each on a new line after a comma. -/
def prettyItems (level : Nat) : List Value → List Char
  | [] => []
  | v :: rest => ',' :: (newLine level ++ (prettyChars level v ++ prettyItems level rest))

/-- The entries after the first, each on a new line after a comma. -/
def prettyEntries (level : Nat) : List (String × Value) → List Char
  | [] => []
  | (k, v) :: rest =>
    ',' :: (newLine level ++ (quotedChars k ++ ':' :: ' ' ::
      (prettyChars level v ++ prettyEntries level rest)))

end

def compact (v : Value) : String :=
  String.ofList v.compactChars

def pretty (v : Value) : String :=
  String.ofList (v.prettyChars 0)

def render (indented : Bool) (v : Value) : String :=
  if indented then v.pretty else v.compact

end Value

end MediaManifest.Json
