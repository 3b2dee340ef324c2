import MediaManifest.Text.Alphanumeric
import MediaManifest.Text.Cut
import MediaManifest.Text.Numeral

/-!
# Patterns

The value that a directive asks of a field is a truth value, a number, or else a
regular expression.  No message is compared with it; what matters is whether it
is in order.  A brace cannot be closed in it, for a closing brace ends the field.
-/

namespace MediaManifest.Log

namespace Pattern

open Text (isDigit)

/-- What an escape stands for: a character, a class of characters, or a place between
characters. -/
inductive Escape where
  | char (c : Char)
  | kind
  | place

/-- The character with the code point given by `k` hexadecimal digits at the front of a text,
and what follows them. -/
def takeHex (k : Nat) (cs : List Char) : Option (Escape × List Char) := do
  if cs.length < k then none
  let n ← (cs.take k).foldlM (fun n c => (Text.hexValue c).map (16 * n + ·)) 0
  if n.isValidChar then some (.char (Char.ofNat n), cs.drop k) else none

def controls : List (Char × Char) :=
  [('a', '\x07'), ('f', '\x0c'), ('t', '\t'), ('n', '\n'), ('r', '\r'), ('v', '\x0b')]

/-- Reads an escape from behind its backslash.  Letters and digits, angle brackets and
characters behind ASCII stand for themselves only without one. -/
def takeEscape : List Char → Option (Escape × List Char)
  | [] => none
  | 'x' :: cs => takeHex 2 cs
  | 'u' :: cs => takeHex 4 cs
  | 'U' :: cs => takeHex 8 cs
  | c :: cs =>
    if c = 'p' ∨ c = 'P' then
      match cs with
      | category :: rest =>
        if "clmnpsz".toList.contains category.toLower then some (.kind, rest) else none
      | [] => none
    else if "dDsSwW".toList.contains c then some (.kind, cs)
    else if c = 'A' ∨ c = 'z' then some (.place, cs)
    else
      match controls.lookup c with
      | some control => some (.char control, cs)
      | none =>
        if c.isAlphanum || c == '<' || c == '>' || 0x80 ≤ c.toNat then none
        else some (.char c, cs)

def takeMember : List Char → Option (Escape × List Char)
  | [] => none
  | '\\' :: cs =>
    match takeEscape cs with
    | some (.place, _) => none
    | member => member
  | c :: cs => some (.char c, cs)

/-- Reads a member of a set, or a range from one character to another that is not before
it. -/
def takeRange (cs : List Char) : Option (List Char) := do
  let (first, rest) ← takeMember cs
  match rest with
  | '-' :: more =>
    match more with
    | ']' :: _ => some rest
    | '-' :: _ => some rest
    | _ =>
      match first, ← takeMember more with
      | .char a, (.char b, rest) => if a ≤ b then some rest else none
      | _, _ => none
  | _ => some rest

/-- What follows the opening of a set: the sign that turns it around, dashes, and a closing
bracket that stands for itself. -/
def dropOpening (cs : List Char) : List Char :=
  let cs :=
    match cs with
    | '^' :: cs => cs
    | cs => cs
  match cs with
  | ']' :: cs => cs
  | cs => cs.dropWhile (· == '-')

/-- What follows a set of characters, from behind its opening; `depth` sets are open around
it. -/
def dropSet : Nat → Nat → List Char → Option (List Char)
  | 0, _, _ => none
  | fuel + 1, depth, cs =>
    match cs with
    | [] => none
    | '[' :: cs => dropSet fuel (depth + 1) (dropOpening cs)
    | ']' :: cs => if depth = 0 then some cs else dropSet fuel (depth - 1) cs
    | '&' :: '&' :: cs => dropSet fuel depth cs
    | '-' :: '-' :: cs => dropSet fuel depth cs
    | '~' :: '~' :: cs => dropSet fuel depth cs
    | cs => (takeRange cs).bind (dropSet fuel depth)

/-- Whether the `flags` are in order: known ones, none twice, and at most one dash with a flag
behind it. -/
def areFlags (flags : List Char) : Bool :=
  flags.all ("imsUuxR-".toList.contains ·) && decide flags.Nodup && flags.getLast? != some '-'

def isGroupName : List Char → Bool
  | [] => false
  | c :: cs =>
    (c == '_' || (Text.isAlphanumeric c && !isDigit c)) &&
      cs.all fun c => Text.isAlphanumeric c || ['_', '.', '[', ']'].contains c

/-- What follows the name of a group, from behind its opening bracket. -/
def dropName (cs : List Char) : Option (List Char) :=
  match Text.cutChars '>' cs with
  | some (name, rest) => if isGroupName name then some rest else none
  | none => none

/-- What follows the head of a group from behind its parenthesis, and whether the group is
open then; a head of flags alone opens none. -/
def dropHead : List Char → Option (Bool × List Char)
  | '?' :: 'P' :: '<' :: cs => (dropName cs).map (true, ·)
  | '?' :: '<' :: cs => (dropName cs).map (true, ·)
  | '?' :: cs =>
    let isFlag (c : Char) : Bool := c != ':' && c != ')'
    let flags := cs.takeWhile isFlag
    match cs.dropWhile isFlag with
    | ':' :: rest => if areFlags flags then some (true, rest) else none
    | ')' :: rest => if areFlags flags && !flags.isEmpty then some (false, rest) else none
    | _ => none
  | cs => some (true, cs)

/-- Whether a text is a regular expression; `depth` groups are open before it, and `operand`
says whether something stands there that can be repeated. -/
def isExpression : Nat → Nat → Bool → List Char → Bool
  | 0, _, _, _ => false
  | _ + 1, depth, _, [] => depth = 0
  | fuel + 1, depth, operand, c :: cs =>
    if c = '(' then
      match dropHead cs with
      | some (opened, rest) =>
        isExpression fuel (if opened then depth + 1 else depth) false rest
      | none => false
    else if c = ')' then depth ≠ 0 && isExpression fuel (depth - 1) true cs
    else if c = '|' then isExpression fuel depth false cs
    else if c = '*' ∨ c = '+' ∨ c = '?' then
      operand && isExpression fuel depth true
        (match cs with
          | '?' :: rest => rest
          | rest => rest)
    else if c = '\x7b' then false
    else if c = '[' then
      match dropSet cs.length 0 (dropOpening cs) with
      | some rest => isExpression fuel depth true rest
      | none => false
    else if c = '\\' then
      match takeEscape cs with
      | some (_, rest) => isExpression fuel depth true rest
      | none => false
    else isExpression fuel depth true cs

/-- Whether a text with a plus sign in front is a number. -/
def isUnsigned (cs : List Char) : Bool :=
  let word := cs.map Char.toLower
  let named := [['i', 'n', 'f'], ['i', 'n', 'f', 'i', 'n', 'i', 't', 'y'], ['n', 'a', 'n']]
  let whole := cs.takeWhile isDigit
  let (places, rest) :=
    match cs.dropWhile isDigit with
    | '.' :: rest => (rest.takeWhile isDigit, rest.dropWhile isDigit)
    | rest => ([], rest)
  let isExponent : List Char → Bool
    | [] => true
    | e :: rest =>
      let digits :=
        match rest with
        | '+' :: ds => ds
        | '-' :: ds => ds
        | ds => ds
      (e == 'e' || e == 'E') && !digits.isEmpty && digits.all isDigit
  named.contains word || (!(whole ++ places).isEmpty && isExponent rest)

end Pattern

/-- Whether the text `s` can be asked of a field.  A number is a regular expression too, unless a
plus sign is in front of it. -/
def isPattern (s : String) : Bool :=
  match s.toList with
  | '+' :: cs => Pattern.isUnsigned cs
  | cs => Pattern.isExpression (cs.length + 1) 0 false cs

end MediaManifest.Log
