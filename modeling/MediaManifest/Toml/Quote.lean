import MediaManifest.Text.Numeral

/-!
# Quoted texts in TOML

A text is written between double quotes with escapes, or between single quotes
as it is.  Three quotes instead of one let it have several lines; a new line
right behind them is not part of it.
-/

namespace MediaManifest.Toml

def isControl (c : Char) : Bool :=
  (c.toNat < 0x20 && c != '\t') || c.toNat == 0x7F

/-- The value of the hexadecimal digits `cs`, the first one weighing most. -/
def hexNumber (cs : List Char) : Option Nat :=
  cs.foldlM (fun n c => (Text.hexValue c).map (16 * n + ·)) 0

/-- The character with the code point given by the hexadecimal digits `cs`, if there is one. -/
def hexChar (cs : List Char) : Option Char :=
  match hexNumber cs with
  | some n => if n.isValidChar then some (Char.ofNat n) else none
  | none => none

def escapeLetter : Char → Option Char
  | 'b' => some '\x08'
  | 't' => some '\t'
  | 'n' => some '\n'
  | 'f' => some '\x0c'
  | 'r' => some '\r'
  | 'e' => some '\x1b'
  | '"' => some '"'
  | '\\' => some '\\'
  | _ => none

/-- A text read from the front of a list of characters, and what follows it. -/
abbrev Reading := Option (List Char × List Char)

def Reading.cons (c : Char) (r : Reading) : Reading :=
  r.map fun (s, rest) => (c :: s, rest)

/-- Puts a character that may be missing before what was read. -/
def Reading.consOption (c : Option Char) (r : Reading) : Reading :=
  match c with
  | some c => r.cons c
  | none => none

/-- Reads a text of one line from behind its opening double quote. -/
def readBasic : List Char → Reading
  | [] => none
  | '"' :: rest => some ([], rest)
  | '\\' :: 'x' :: a :: b :: rest => .consOption (hexChar [a, b]) (readBasic rest)
  | '\\' :: 'u' :: a :: b :: c :: d :: rest =>
    .consOption (hexChar [a, b, c, d]) (readBasic rest)
  | '\\' :: 'U' :: a :: b :: c :: d :: e :: f :: g :: h :: rest =>
    .consOption (hexChar [a, b, c, d, e, f, g, h]) (readBasic rest)
  | ['\\'] => none
  | '\\' :: e :: rest => .consOption (escapeLetter e) (readBasic rest)
  | c :: rest => if isControl c then none else .cons c (readBasic rest)

def isSpace (c : Char) : Bool :=
  c == ' ' || c == '\t'

/-- Whether nothing but blanks stands before the end of the line. -/
def endsLine (cs : List Char) : Bool :=
  match cs.dropWhile isSpace with
  | '\n' :: _ => true
  | '\r' :: '\n' :: _ => true
  | _ => false

/-- Reads a text of several lines from behind its opening double quotes.  While
`skipping`, blanks and new lines are passed over: a backslash at the end of a line starts
that. -/
def readLongBasic (skipping : Bool) : List Char → Reading
  | [] => none
  | '"' :: '"' :: '"' :: '"' :: '"' :: rest => some (['"', '"'], rest)
  | '"' :: '"' :: '"' :: '"' :: rest => some (['"'], rest)
  | '"' :: '"' :: '"' :: rest => some ([], rest)
  | '\\' :: 'x' :: a :: b :: rest =>
    .consOption (hexChar [a, b]) (readLongBasic false rest)
  | '\\' :: 'u' :: a :: b :: c :: d :: rest =>
    .consOption (hexChar [a, b, c, d]) (readLongBasic false rest)
  | '\\' :: 'U' :: a :: b :: c :: d :: e :: f :: g :: h :: rest =>
    .consOption (hexChar [a, b, c, d, e, f, g, h]) (readLongBasic false rest)
  | ['\\'] => none
  | '\\' :: e :: rest =>
    if endsLine (e :: rest) then readLongBasic true (e :: rest)
    else .consOption (escapeLetter e) (readLongBasic false rest)
  | '\r' :: '\n' :: rest =>
    if skipping then readLongBasic true rest
    else .cons '\r' (.cons '\n' (readLongBasic false rest))
  | c :: rest =>
    if skipping && (isSpace c || c == '\n') then readLongBasic true rest
    else if isControl c && c != '\n' then none
    else .cons c (readLongBasic false rest)

/-- Reads a text of one line from behind its opening single quote. -/
def readLiteral : List Char → Reading
  | [] => none
  | '\'' :: rest => some ([], rest)
  | c :: rest => if isControl c then none else .cons c (readLiteral rest)

/-- Reads a text of several lines from behind its opening single quotes. -/
def readLongLiteral : List Char → Reading
  | [] => none
  | '\'' :: '\'' :: '\'' :: '\'' :: '\'' :: rest => some (['\'', '\''], rest)
  | '\'' :: '\'' :: '\'' :: '\'' :: rest => some (['\''], rest)
  | '\'' :: '\'' :: '\'' :: rest => some ([], rest)
  | '\r' :: '\n' :: rest => .cons '\r' (.cons '\n' (readLongLiteral rest))
  | c :: rest =>
    if isControl c && c != '\n' then none else .cons c (readLongLiteral rest)

def dropNewLine : List Char → List Char
  | '\n' :: rest => rest
  | '\r' :: '\n' :: rest => rest
  | rest => rest

/-- Reads a text from its opening quotes on; `none` if it is none or not in order. -/
def readText : List Char → Reading
  | '"' :: '"' :: '"' :: rest => readLongBasic false (dropNewLine rest)
  | '"' :: rest => readBasic rest
  | '\'' :: '\'' :: '\'' :: rest => readLongLiteral (dropNewLine rest)
  | '\'' :: rest => readLiteral rest
  | _ => none

/-! ## Writing -/

/-- The digit of a number `n` below sixteen, in upper case. -/
def upperHexDigit (n : Nat) : Char :=
  if n < 10 then Char.ofNat ('0'.toNat + n) else Char.ofNat ('A'.toNat + (n - 10))

def longestRun (q : Char) (cs : List Char) : Nat :=
  (cs.foldl (fun (run, best) c => if c = q then (run + 1, max best (run + 1)) else (0, best))
    (0, 0)).2

/-- The escape of a character `c` that cannot stand for itself between double quotes; new lines
can if the text is `long`. -/
def escape? (long : Bool) (c : Char) : Option (List Char) :=
  if c = '\x08' then some ['\\', 'b']
  else if c = '\t' then some ['\\', 't']
  else if c = '\n' then if long then none else some ['\\', 'n']
  else if c = '\x0c' then some ['\\', 'f']
  else if c = '\r' then some ['\\', 'r']
  else if c = '\\' then some ['\\', '\\']
  else if c.toNat < 0x20 ∨ c.toNat = 0x7F then
    some ['\\', 'u', '0', '0', upperHexDigit (c.toNat / 16), upperHexDigit (c.toNat % 16)]
  else none

/-- The characters of a text between double quotes.  Of double quotes in a row as many stand
for themselves as cannot be taken for the end; `run` of them have just been written. -/
def escapeChars (long : Bool) : Nat → List Char → List Char
  | _, [] => []
  | run, c :: cs =>
    if c = '"' then
      if run < (if long then 2 else 0) then '"' :: escapeChars long (run + 1) cs
      else '\\' :: '"' :: escapeChars long 0 cs
    else
      match escape? long c with
      | some e => e ++ escapeChars long 0 cs
      | none => c :: escapeChars long 0 cs

/-- How a text is quoted. -/
inductive Quoting where
  | basic
  | literal
  | longBasic
  | longLiteral
deriving DecidableEq

/-- The text `cs` in the chosen quotes.  A long one with new lines starts on a line of its own. -/
def quoteChars (quoting : Quoting) (cs : List Char) : List Char :=
  let lead := if '\n' ∈ cs then ['\n'] else []
  match quoting with
  | .basic => '"' :: (escapeChars false 0 cs ++ ['"'])
  | .literal => '\'' :: (cs ++ ['\''])
  | .longBasic => ['"', '"', '"'] ++ lead ++ escapeChars true 0 cs ++ ['"', '"', '"']
  | .longLiteral => ['\'', '\'', '\''] ++ lead ++ cs ++ ['\'', '\'', '\'']

/-- How the text `cs` is quoted where nothing is chosen: without escapes if there is a way. -/
def standardQuoting (cs : List Char) : Quoting :=
  let codes := cs.any fun c => isControl c && c != '\n'
  let slashes := cs.contains '\\'
  let newLine := cs.contains '\n'
  let double := longestRun '"' cs
  let single := longestRun '\'' cs
  if !codes && !slashes && double == 0 && !newLine then .basic
  else if !codes && single == 0 && !newLine then .literal
  else if !codes && !slashes && double ≤ 2 then .longBasic
  else if !codes && single ≤ 2 then .longLiteral
  else if newLine then .longBasic
  else .basic

def quote (s : String) : String :=
  String.ofList (quoteChars (standardQuoting s.toList) s.toList)

end MediaManifest.Toml
