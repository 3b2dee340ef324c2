import MediaManifest.Json.Literal

/-!
# Written texts

Between its quotes a text is a list of pieces: characters, code units given
by `\u` escapes, and stray bytes.  The pieces are found first; reading them
then joins surrogate pairs.
-/

namespace MediaManifest.Json

open Text (Symbol)

/-- A piece of a written text. -/
inductive Piece where
  | char (c : Char)
  | unit (n : Nat)
  | stray
deriving DecidableEq

/-- How a written text ends: with its closing quote, or at a fault. -/
inductive Ending where
  | closed (rest : List Symbol)
  | broken (fault : Fault)

/-- The value of a symbol that is a hexadecimal digit. -/
def hexValue : Symbol → Option Nat
  | .char c => Text.hexValue c
  | .stray _ => none

def hexUnit (a b c d : Symbol) : Option Nat := do
  return (((← hexValue a) * 16 + (← hexValue b)) * 16 + (← hexValue c)) * 16 + (← hexValue d)

def escapeLetter : Char → Option Char
  | '"' => some '"'
  | '\\' => some '\\'
  | '/' => some '/'
  | 'b' => some '\x08'
  | 'f' => some '\x0c'
  | 'n' => some '\n'
  | 'r' => some '\r'
  | 't' => some '\t'
  | _ => none

/-- The fault of a `\u` escape without four hexadecimal digits: the text ends within the
next four bytes, or one of them is no digit. -/
def hexFault (rest : List Symbol) : Fault :=
  if (rest.take 4).foldl (fun n s => n + s.width) 0 < 4 then .endInText else .brokenHexEscape

/-- The pieces up to the closing quote or the first fault. -/
def scanPieces : List Symbol → List Piece × Ending
  | [] => ([], .broken .endInText)
  | .stray _ :: rest =>
    let (ps, ending) := scanPieces rest
    (.stray :: ps, ending)
  | .char '\\' :: .char 'u' :: a :: b :: c :: d :: rest =>
    match hexUnit a b c d with
    | some n =>
      let (ps, ending) := scanPieces rest
      (.unit n :: ps, ending)
    | none => ([], .broken .brokenHexEscape)
  | .char '\\' :: .char 'u' :: rest => ([], .broken (hexFault rest))
  | .char '\\' :: .char e :: rest =>
    match escapeLetter e with
    | some c =>
      let (ps, ending) := scanPieces rest
      (.char c :: ps, ending)
    | none => ([], .broken .unknownEscape)
  | .char '\\' :: .stray _ :: _ => ([], .broken .unknownEscape)
  | [.char '\\'] => ([], .broken .endInText)
  | .char c :: rest =>
    if c = '"' then ([], .closed rest)
    else if c.toNat < 0x20 then ([], .broken .controlCharacter)
    else
      let (ps, ending) := scanPieces rest
      (.char c :: ps, ending)

def isLeading (n : Nat) : Bool :=
  0xD800 ≤ n && n ≤ 0xDBFF

def isTrailing (n : Nat) : Bool :=
  0xDC00 ≤ n && n ≤ 0xDFFF

def pairChar (leading trailing : Nat) : Char :=
  Char.ofNat ((leading - 0xD800) * 0x400 + (trailing - 0xDC00) + 0x10000)

def consChar (c : Char) (text : Except Fault (List Char)) : Except Fault (List Char) :=
  text.map (c :: ·)

/-- The characters of the pieces of a text that ends as given.  A surrogate must stand in a
pair; a stray byte is a fault only of a text that is otherwise in order. -/
def readPieces (last : Option Fault) : List Piece → Except Fault (List Char)
  | [] =>
    match last with
    | none => .ok []
    | some fault => .error fault
  | .char c :: rest => consChar c (readPieces last rest)
  | .stray :: rest =>
    match readPieces last rest with
    | .ok _ => .error .invalidCodePoint
    | .error fault => .error fault
  | .unit n :: .unit m :: rest =>
    if isTrailing n then .error .loneSurrogate
    else if isLeading n then
      if isTrailing m then consChar (pairChar n m) (readPieces last rest)
      else .error .loneSurrogate
    else consChar (Char.ofNat n) (readPieces last (.unit m :: rest))
  | .unit n :: rest =>
    if isTrailing n then .error .loneSurrogate
    else if isLeading n then
      match rest, last with
      | [], some .endInText => .error .endInText
      | [], some .brokenHexEscape => .error .brokenHexEscape
      | _, _ => .error .unpairedSurrogate
    else consChar (Char.ofNat n) (readPieces last rest)

/-- The text `s` after an opening quote: what it reads as, if its closing quote is found. -/
def scanText (s : List Symbol) : Scan (Except Fault String) :=
  match scanPieces s with
  | (ps, .closed rest) => .done ((readPieces none ps).map String.ofList) rest
  | (ps, .broken fault) =>
    match readPieces (some fault) ps with
    | .ok _ => .broken (.plain fault)
    | .error first => .broken (.unlessSkipped first fault)

end MediaManifest.Json
