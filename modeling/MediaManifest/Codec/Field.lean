import MediaManifest.Codec.Fault
import MediaManifest.Element.Basic
import MediaManifest.Json.Reading
import MediaManifest.Decimal.Shortest

/-!
# Fields of encoded elements

Reading the single fields of an encoded element from a tree.  A checksum or a
reference is an object with its two fields, or a list of the two in order.
-/

namespace MediaManifest.Codec

open Json (Tree Break Number)

/-- A fault of the JSON text in `result` as a fault of the element. -/
def lift {α : Type} (result : Except Json.Fault α) : Except Fault α :=
  result.mapError Fault.json

def foundNumber : Number → Found
  | .integer n _ => .integer n
  | .fraction x => .fraction x.text

/-- What is found where something else is expected, unless the text breaks off there. -/
def found : Tree → Except Fault Found
  | .null => .ok .null
  | .bool b => .ok (.boolean b)
  | .number n => lift (n.map foundNumber)
  | .text s => lift (s.map Found.text)
  | .list _ _ => .ok .sequence
  | .object _ _ => .ok .map
  | .broken cut => .error (.json cut.reading)

/-- The fault of a `tree` that is not what is `expected`. -/
def mismatch {α : Type} (expected : Expected) (tree : Tree) : Except Fault α :=
  match found tree with
  | .ok found => .error (.invalidType found expected)
  | .error fault => .error fault

def checkCut (cut : Option Break) : Except Fault Unit :=
  lift (Tree.checkCut cut)

def readText : Tree → Except Fault String
  | .text s => lift s
  | tree => mismatch .text tree

def readOptional {α : Type} (read : Tree → Except Fault α) : Tree → Except Fault (Option α)
  | .null => .ok none
  | tree => (read tree).map some

def readFlavor (tree : Tree) : Except Fault Flavor := do
  let s ← readText tree
  (Flavor.parse s).mapError Fault.flavor

/-- Adds the texts among some trees to the set `tags`. -/
def readTagItems (tags : Tags) : List Tree → Except Fault Tags
  | [] => .ok tags
  | tree :: rest => do
    let tag ← readText tree
    readTagItems (tags.insert tag) rest

def readTags : Tree → Except Fault Tags
  | .list items cut => do
    let tags ← readTagItems .empty items
    checkCut cut
    return tags
  | tree => mismatch .sequence tree

def checksumTypeNamed (name : String) : Except Fault ChecksumType :=
  match ChecksumType.ofName? name with
  | some kind => .ok kind
  | none => .error (.unknownVariant name (ChecksumType.all.map ChecksumType.name))

def readNull : Tree → Except Fault Unit
  | .null => .ok ()
  | tree => mismatch .unit tree

/-- Reads the type of a checksum: its name, or an object with the name as its only key and
null as its value. -/
def readChecksumType : Tree → Except Fault ChecksumType
  | .text s => do checksumTypeNamed (← lift s)
  | .object [] none => .error (.json .expectedValue)
  | .object [] (some cut) => .error (.json cut.naming)
  | .object ((key, value) :: rest) cut => do
    let kind ← checksumTypeNamed (← lift key)
    match value with
    | .broken cut => .error (.json cut.reading)
    | value =>
      readNull value
      match rest, cut with
      | [], none => return kind
      | [], some cut =>
        if cut.reading = .endInObject then .error (.json .endInObject)
        else .error (.json .expectedValue)
      | _ :: _, _ => .error (.json .expectedValue)
  | .broken cut => .error (.json cut.naming)
  | _ => .error (.json .expectedValue)

/-- The two fields of a small structure as far as they were read. -/
structure Halves (α β : Type) where
  first : Option α
  second : Option β

/-- How the two fields of a small structure are read. -/
structure PairFormat (α β : Type) where
  firstName : String
  secondName : String
  expected : Expected
  readFirst : Tree → Except Fault α
  readSecond : Tree → Except Fault β

namespace PairFormat

variable {α β : Type}

/-- Reads the entries of an object into `halves`.  A known key must not repeat; the values of
unknown keys are skipped. -/
def readEntries (format : PairFormat α β) (halves : Halves α β) :
    List (Except Json.Fault String × Tree) → Except Fault (Halves α β)
  | [] => .ok halves
  | (key, value) :: rest => do
    let key ← lift key
    if key = format.firstName then
      if halves.first.isSome then .error (.duplicateField key)
      else
        let first ← format.readFirst value
        readEntries format { halves with first := some first } rest
    else if key = format.secondName then
      if halves.second.isSome then .error (.duplicateField key)
      else
        let second ← format.readSecond value
        readEntries format { halves with second := some second } rest
    else
      lift value.skip
      readEntries format halves rest

def finish (format : PairFormat α β) (halves : Halves α β) : Except Fault (α × β) :=
  match halves.first, halves.second with
  | none, _ => .error (.missingField format.firstName)
  | some _, none => .error (.missingField format.secondName)
  | some first, some second => .ok (first, second)

/-- What follows the two fields of a list must be its end. -/
def readEnd (more : List Tree) (cut : Option Break) : Except Fault Unit :=
  match more, cut with
  | [], none => .ok ()
  | [], some cut =>
    .error (.json (if cut.reading = .trailingComma ∨ cut.reading = .endInList then cut.reading
      else .trailingCharacters))
  | _ :: _, _ => .error (.json .trailingCharacters)

def read (format : PairFormat α β) : Tree → Except Fault (α × β)
  | .object entries cut => do
    let halves ← format.readEntries ⟨none, none⟩ entries
    checkCut cut
    format.finish halves
  | .list [] cut => do
    checkCut cut
    .error (.invalidLength 0 format.expected)
  | .list [first] cut => do
    let _ ← format.readFirst first
    checkCut cut
    .error (.invalidLength 1 format.expected)
  | .list (first :: second :: more) cut => do
    let first ← format.readFirst first
    let second ← format.readSecond second
    readEnd more cut
    return (first, second)
  | tree => mismatch format.expected tree

end PairFormat

def checksumFormat : PairFormat ChecksumType String :=
  ⟨"type", "value", .checksum, readChecksumType, readText⟩

def referenceFormat : PairFormat String String :=
  ⟨"type", "id", .reference, readText, readText⟩

def readChecksum (tree : Tree) : Except Fault Checksum :=
  (checksumFormat.read tree).map fun (kind, value) => ⟨kind, value⟩

def readReference (tree : Tree) : Except Fault Reference :=
  (referenceFormat.read tree).map fun (kind, id) => ⟨kind, id⟩

end MediaManifest.Codec
