import MediaManifest.Toml.Atom

/-!
# TOML documents

A document is a list of lines.  A line is empty, opens a table by its header,
or gives a value to a key in the table opened last.
-/

namespace MediaManifest.Toml

/-- What follows the blanks at the front of `cs`. -/
def skipSpace (cs : List Char) : List Char :=
  cs.dropWhile isSpace

/-- What follows a comment at the front of a text, up to the end of its line. -/
def skipComment : List Char → Option (List Char)
  | '#' :: cs =>
    let body := cs.takeWhile fun c => c != '\n'
    let body := if body.getLast? = some '\r' ∧ cs.contains '\n' then body.dropLast else body
    if body.any isControl then none else some (cs.drop body.length)
  | cs => some cs

/-- What follows blanks, comments and new lines at the front of a text. -/
def skipLines : Nat → List Char → Option (List Char)
  | 0, _ => none
  | fuel + 1, cs =>
    match skipSpace cs with
    | '\n' :: rest => skipLines fuel rest
    | '\r' :: '\n' :: rest => skipLines fuel rest
    | '#' :: rest => (skipComment ('#' :: rest)).bind (skipLines fuel)
    | rest => some rest

def skipGap (cs : List Char) : Option (List Char) :=
  skipLines (cs.length + 1) cs

def isKeyChar (c : Char) : Bool :=
  c.isAlphanum || c == '_' || c == '-'

def readSimpleKey : List Char → Option (String × List Char)
  | '"' :: rest => (readBasic rest).map fun (s, rest) => (String.ofList s, rest)
  | '\'' :: rest => (readLiteral rest).map fun (s, rest) => (String.ofList s, rest)
  | cs =>
    let key := cs.takeWhile isKeyChar
    if key.isEmpty then none else some (String.ofList key, cs.dropWhile isKeyChar)

/-- The most simple keys that a dotted key may have. -/
def keyLimit : Nat :=
  80

/-- Reads a key with at most `room` simple keys and dots between them, up to a blank or another
character behind it. -/
def readDotted : Nat → List Char → Option (List String × List Char)
  | 0, _ => none
  | room + 1, cs =>
    match readSimpleKey (skipSpace cs) with
    | none => none
    | some (key, rest) =>
      match skipSpace rest with
      | '.' :: rest => (readDotted room rest).map fun (keys, rest) => (key :: keys, rest)
      | rest => some ([key], rest)

def readKey (cs : List Char) : Option (List String × List Char) :=
  readDotted keyLimit cs

/-- How deep lists and tables between braces may be nested. -/
def depthLimit : Nat :=
  80

mutual

/-- Reads a value; `room` levels of nesting are left. -/
def readValue : Nat → Nat → List Char → Option (Value × List Char)
  | 0, _, _ => none
  | fuel + 1, room, cs =>
    match cs with
    | '"' :: _ => (readText cs).map fun (s, rest) => (.text (String.ofList s), rest)
    | '\'' :: _ => (readText cs).map fun (s, rest) => (.text (String.ofList s), rest)
    | '[' :: rest =>
      if room = 0 then none
      else (readItems fuel (room - 1) rest).map fun (items, rest) => (.list items, rest)
    | '{' :: rest =>
      if room = 0 then none
      else (readFields fuel (room - 1) [] rest).map fun (fields, rest) =>
        (.table .closed fields, rest)
    | cs => readAtom cs

/-- Reads the items of a list from behind its bracket or a comma. -/
def readItems : Nat → Nat → List Char → Option (List Value × List Char)
  | 0, _, _ => none
  | fuel + 1, room, cs =>
    match skipGap cs with
    | none => none
    | some (']' :: rest) => some ([], rest)
    | some cs =>
      match readValue fuel room cs with
      | none => none
      | some (item, rest) =>
        match skipGap rest with
        | some (']' :: rest) => some ([item], rest)
        | some (',' :: rest) =>
          (readItems fuel room rest).map fun (items, rest) => (item :: items, rest)
        | _ => none

/-- Reads the fields of a table from behind its brace or a comma, after the ones read so
far. -/
def readFields : Nat → Nat → Entries → List Char → Option (Entries × List Char)
  | 0, _, _, _ => none
  | fuel + 1, room, fields, cs =>
    match skipGap cs with
    | none => none
    | some ('}' :: rest) => some (fields, rest)
    | some cs =>
      match readAssignment fuel room skipGap cs with
      | none => none
      | some (key, value, rest) =>
        match fields.assign value none key with
        | none => none
        | some fields =>
          match skipGap rest with
          | some ('}' :: rest) => some (fields, rest)
          | some (',' :: rest) => readFields fuel room fields rest
          | _ => none

/-- Reads a key, an equals sign and a value; `skip` drops what may stand around the sign. -/
def readAssignment : Nat → Nat → (List Char → Option (List Char)) → List Char →
    Option (List String × Value × List Char)
  | 0, _, _, _ => none
  | fuel + 1, room, skip, cs =>
    match readKey cs with
    | none => none
    | some (key, rest) =>
      match skip rest with
      | some ('=' :: rest) =>
        match skip rest with
        | none => none
        | some rest => (readValue fuel room rest).map fun (value, rest) => (key, value, rest)
      | _ => none

end

/-- A document as far as it was read: its root table, and the path of the table opened
last. -/
structure Draft where
  root : Entries
  path : List String

/-- Reads the header of a table from behind its brackets; `close` ends it. -/
def readHeader (close : List Char) (cs : List Char) : Option (List String × List Char) :=
  match readKey cs with
  | some (key, rest) => (Text.dropFront close rest).map (key, ·)
  | none => none

/-- Opens a table in the draft `d` by the last key of a header. -/
def Draft.enter (d : Draft) (path : List String) (opening : String → Entries → Option Entries) :
    Option Draft :=
  match path.getLast? with
  | some key => (d.root.within (opening key) path.dropLast).map (⟨·, path⟩)
  | none => none

/-- Reads what the line at the front of `cs` says, up to a comment or its end. -/
def Draft.readLine (d : Draft) (cs : List Char) : Option (Draft × List Char) :=
  match cs with
  | [] => some (d, [])
  | '\n' :: _ => some (d, cs)
  | '\r' :: _ => some (d, cs)
  | '#' :: _ => some (d, cs)
  | '[' :: '[' :: rest => do
    let (path, rest) ← readHeader [']', ']'] rest
    return (← d.enter path Entries.openItem, rest)
  | '[' :: rest => do
    let (path, rest) ← readHeader [']'] rest
    return (← d.enter path Entries.openTable, rest)
  | cs => do
    let (key, value, rest) ←
      readAssignment (2 * cs.length + 2) depthLimit (fun cs => some (skipSpace cs)) cs
    let root ← d.root.within (Entries.assign value none key) d.path
    return ({ d with root := root }, rest)

def Draft.readLines (d : Draft) : Nat → List Char → Option Draft
  | 0, _ => none
  | fuel + 1, cs =>
    match d.readLine (skipSpace cs) with
    | none => none
    | some (d, rest) =>
      match skipComment (skipSpace rest) with
      | some [] => some d
      | some ('\n' :: rest) => d.readLines fuel rest
      | some ('\r' :: '\n' :: rest) => d.readLines fuel rest
      | _ => none

/-- What follows a byte order mark at the front of a text. -/
def skipMark : List Char → List Char
  | '\uFEFF' :: rest => rest
  | cs => cs

def entries? (s : String) : Option Entries :=
  let cs := skipMark s.toList
  ((⟨[], []⟩ : Draft).readLines (cs.length + 1) cs).map Draft.root

end MediaManifest.Toml
