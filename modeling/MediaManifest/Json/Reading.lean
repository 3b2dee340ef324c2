import MediaManifest.Json.Tree

/-!
# Reading trees

A tree is read into a value if nothing is wrong with it; the first fault in
the order of the text is reported otherwise.  Lists and objects may be nested
127 deep.  A tree that is only skipped need not make sense: numbers out of
range, lone surrogates and any depth of nesting are passed over.
-/

namespace MediaManifest.Json

open Text (Symbol Content)

/-- How deep lists and objects may be nested, plus one. -/
def depthLimit : Nat :=
  128

namespace Tree

/-- The levels of nesting left inside a list or an object, of `room` outside it. -/
def enter (room : Nat) : Except Fault Nat :=
  if room ≤ 1 then .error .tooDeep else .ok (room - 1)

def checkCut : Option Break → Except Fault Unit
  | none => .ok ()
  | some cut => .error cut.reading

mutual

/-- The value of a tree with `room` levels left. -/
def read (room : Nat) : Tree → Except Fault Value
  | null => .ok .null
  | bool b => .ok (.bool b)
  | number n => n.map Value.number
  | text s => s.map Value.text
  | list items cut =>
    match enter room with
    | .error fault => .error fault
    | .ok room =>
      match readItems room items with
      | .error fault => .error fault
      | .ok values => (checkCut cut).map fun _ => .list values
  | object entries cut =>
    match enter room with
    | .error fault => .error fault
    | .ok room =>
      match readEntries room [] entries with
      | .error fault => .error fault
      | .ok values => (checkCut cut).map fun _ => .object values
  | broken cut => .error cut.reading

def readItems (room : Nat) : List Tree → Except Fault (List Value)
  | [] => .ok []
  | tree :: rest =>
    match read room tree with
    | .error fault => .error fault
    | .ok value => (readItems room rest).map (value :: ·)

/-- The entries of an object, put among those that are `done`, read before. -/
def readEntries (room : Nat) (done : List (String × Value)) :
    List (Except Fault String × Tree) → Except Fault (List (String × Value))
  | [] => .ok done
  | (key, tree) :: rest =>
    match key with
    | .error fault => .error fault
    | .ok key =>
      match read room tree with
      | .error fault => .error fault
      | .ok value => readEntries room (Value.insertEntry key value done) rest

end

mutual

/-- The first thing in a tree at which a reader that only skips it stops. -/
def skip : Tree → Except Fault Unit
  | null | bool _ | number _ | text _ => .ok ()
  | list items cut =>
    match skipItems items with
    | .error fault => .error fault
    | .ok _ =>
      match cut with
      | none => .ok ()
      | some cut => .error cut.skipping
  | object entries cut =>
    match skipEntries entries with
    | .error fault => .error fault
    | .ok _ =>
      match cut with
      | none => .ok ()
      | some cut => .error cut.skipping
  | broken cut => .error cut.skipping

def skipItems : List Tree → Except Fault Unit
  | [] => .ok ()
  | tree :: rest =>
    match skip tree with
    | .error fault => .error fault
    | .ok _ => skipItems rest

def skipEntries : List (Except Fault String × Tree) → Except Fault Unit
  | [] => .ok ()
  | (_, tree) :: rest =>
    match skip tree with
    | .error fault => .error fault
    | .ok _ => skipEntries rest

end

mutual

def ofValue : Value → Tree
  | .null => null
  | .bool b => bool b
  | .number n => number (.ok n)
  | .text s => text (.ok s)
  | .list items => list (ofItems items) none
  | .object entries => object (ofEntries entries) none

def ofItems : List Value → List Tree
  | [] => []
  | value :: rest => ofValue value :: ofItems rest

def ofEntries : List (String × Value) → List (Except Fault String × Tree)
  | [] => []
  | (key, value) :: rest => (.ok key, ofValue value) :: ofEntries rest

end

end Tree

def Value.ofContent (content : Content) : Except Fault Value :=
  (Draft.ofSymbols content.symbols).finish id (Tree.read depthLimit)

end MediaManifest.Json
