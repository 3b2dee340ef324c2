import MediaManifest.Json.Piece

/-!
# JSON texts as trees

A text that should be JSON is read into a tree as far as it can be read.
Where it breaks off, the tree says so; the rest of the tree stands.  What is
wrong with a single number or text that is read to its end is kept at that
leaf.  Readers of the tree so meet the first fault in the order of the text.
-/

namespace MediaManifest.Json

open Text (Symbol)

/-- A text as far as it can be read. -/
inductive Tree where
  | null
  | bool (b : Bool)
  | number (n : Except Fault Number)
  | text (s : Except Fault String)
  /-- The items, and where the list breaks off if it does so between them. -/
  | list (items : List Tree) (cut : Option Break)
  /-- The entries, and where the object breaks off if it does so between them. -/
  | object (entries : List (Except Fault String × Tree)) (cut : Option Break)
  | broken (cut : Break)

def isSpace : Symbol → Bool
  | .char c => c == ' ' || c == '\t' || c == '\n' || c == '\r'
  | .stray _ => false

def skipSpace (s : List Symbol) : List Symbol :=
  s.dropWhile isSpace

/-- Reads the given characters, which stand for `tree`, from the front of a text. -/
def scanIdent (tree : Tree) : List Char → List Symbol → Scan Tree
  | [], rest => .done tree rest
  | _ :: _, [] => .broken (.inUnnamed .endInValue .endInValue)
  | c :: cs, s :: rest =>
    if s = .char c then scanIdent tree cs rest
    else .broken (.inUnnamed .expectedIdent .expectedIdent)

/-- A tree and what follows it, or nothing if the text breaks off within the tree. -/
abbrev Growth := Tree × Option (List Symbol)

def Growth.ofScan : Scan Tree → Growth
  | .done tree rest => (tree, some rest)
  | .broken cut => (.broken cut, none)

/-- The growth of a leaf that holds what was scanned. -/
def Growth.ofLeaf {α : Type} (leaf : α → Tree) : Scan α → Growth
  | .done a rest => (leaf a, some rest)
  | .broken cut => (.broken cut, none)

/-- The items of a list, and what follows it unless the text breaks off within it. -/
structure Items where
  items : List Tree
  cut : Option Break
  rest : Option (List Symbol)

/-- The entries of an object, and what follows it unless the text breaks off within it. -/
structure Entries where
  entries : List (Except Fault String × Tree)
  cut : Option Break
  rest : Option (List Symbol)

/-- A list or its tail that breaks off between items. -/
def Items.stop (cut : Break) : Items :=
  ⟨[], some cut, none⟩

/-- An object or its tail that breaks off between entries. -/
def Entries.stop (cut : Break) : Entries :=
  ⟨[], some cut, none⟩

mutual

def growValue : Nat → List Symbol → Growth
  | 0, _ => (.broken (.plain .tooDeep), none)
  | fuel + 1, s =>
    match skipSpace s with
    | [] => (.broken (.plain .endInValue), none)
    | .stray _ :: _ => (.broken (.plain .expectedValue), none)
    | .char 'n' :: rest => .ofScan (scanIdent .null ['u', 'l', 'l'] rest)
    | .char 't' :: rest => .ofScan (scanIdent (.bool true) ['r', 'u', 'e'] rest)
    | .char 'f' :: rest => .ofScan (scanIdent (.bool false) ['a', 'l', 's', 'e'] rest)
    | .char '"' :: rest => .ofLeaf .text (scanText rest)
    | .char '[' :: rest =>
      let items := growFirst fuel rest
      (.list items.items items.cut, items.rest)
    | .char '{' :: rest =>
      let entries := growFirstEntry fuel rest
      (.object entries.entries entries.cut, entries.rest)
    | .char c :: rest =>
      if c = '-' ∨ Text.isDigit c then
        .ofLeaf (fun l : Literal => .number l.number) (scanLiteral (.char c :: rest))
      else (.broken (.plain .expectedValue), none)

/-- The items of a list, from behind its opening bracket. -/
def growFirst : Nat → List Symbol → Items
  | 0, _ => .stop (.plain .tooDeep)
  | fuel + 1, s =>
    match skipSpace s with
    | [] => .stop (.plain .endInList)
    | .char ']' :: rest => ⟨[], none, some rest⟩
    | s => growItem fuel s

def growItem : Nat → List Symbol → Items
  | 0, _ => .stop (.plain .tooDeep)
  | fuel + 1, s =>
    match growValue fuel s with
    | (tree, none) => ⟨[tree], none, none⟩
    | (tree, some rest) =>
      let more := growMore fuel rest
      ⟨tree :: more.items, more.cut, more.rest⟩

def growMore : Nat → List Symbol → Items
  | 0, _ => .stop (.plain .tooDeep)
  | fuel + 1, s =>
    match skipSpace s with
    | [] => .stop (.plain .endInList)
    | .char ']' :: rest => ⟨[], none, some rest⟩
    | .char ',' :: rest =>
      match skipSpace rest with
      | [] => .stop (.plain .endInValue)
      | .char ']' :: _ => .stop (.unlessSkipped .trailingComma .expectedValue)
      | s => growItem fuel s
    | _ => .stop (.plain .expectedListEnd)

/-- The entries of an object, from behind its opening brace. -/
def growFirstEntry : Nat → List Symbol → Entries
  | 0, _ => .stop (.plain .tooDeep)
  | fuel + 1, s =>
    match skipSpace s with
    | [] => .stop (.plain .endInObject)
    | .char '}' :: rest => ⟨[], none, some rest⟩
    | .char '"' :: rest => growEntry fuel rest
    | _ => .stop (.plain .keyNotText)

/-- An entry of an object from behind the opening quote of its key, and the ones after
it. -/
def growEntry : Nat → List Symbol → Entries
  | 0, _ => .stop (.plain .tooDeep)
  | fuel + 1, s =>
    match scanText s with
    | .broken cut => .stop cut
    | .done key rest =>
      match skipSpace rest with
      | [] => ⟨[(key, .broken (.plain .endInObject))], none, none⟩
      | .char ':' :: rest =>
        match growValue fuel rest with
        | (tree, none) => ⟨[(key, tree)], none, none⟩
        | (tree, some rest) =>
          let more := growMoreEntries fuel rest
          ⟨(key, tree) :: more.entries, more.cut, more.rest⟩
      | _ => ⟨[(key, .broken (.plain .expectedColon))], none, none⟩

/-- The entries of an object from behind an entry. -/
def growMoreEntries : Nat → List Symbol → Entries
  | 0, _ => .stop (.plain .tooDeep)
  | fuel + 1, s =>
    match skipSpace s with
    | [] => .stop (.plain .endInObject)
    | .char '}' :: rest => ⟨[], none, some rest⟩
    | .char ',' :: rest =>
      match skipSpace rest with
      | [] => .stop (.unlessSkipped .endInValue .endInObject)
      | .char '"' :: rest => growEntry fuel rest
      | .char '}' :: _ => .stop (.unlessSkipped .trailingComma .keyNotText)
      | _ => .stop (.plain .keyNotText)
    | _ => .stop (.plain .expectedObjectEnd)

end

/-- A whole text as a tree, and whether something other than white space follows it. -/
structure Draft where
  root : Tree
  trailing : Bool

def Draft.ofSymbols (s : List Symbol) : Draft :=
  match growValue (3 * s.length + 3) s with
  | (tree, none) => ⟨tree, false⟩
  | (tree, some rest) => ⟨tree, !(skipSpace rest).isEmpty⟩

/-- Hands on what was read of the root of `draft` unless more text follows it. -/
def Draft.finish {α ε : Type} (draft : Draft) (fault : Fault → ε) (read : Tree → Except ε α) :
    Except ε α :=
  match read draft.root with
  | .error e => .error e
  | .ok a => if draft.trailing then .error (fault .trailingCharacters) else .ok a

end MediaManifest.Json
