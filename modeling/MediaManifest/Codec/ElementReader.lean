import MediaManifest.Codec.Body

/-!
# Reading encoded elements

An element is read key by key in the order of its text.  A common key must not
repeat and is read where it stands; the other keys are collected for the body,
which is read at the end of the object.  The values of the other keys may be
nested below a given number of levels.
-/

namespace MediaManifest.Codec

open Json (Tree Draft Value)

/-- The keys that are common to all kinds. -/
inductive CommonKey where
  | id
  | flavor
  | tags
  | checksum
  | reference
  | uri
  | mimeType
deriving DecidableEq

def CommonKey.ofName? : String → Option CommonKey
  | "id" => some id
  | "flavor" => some flavor
  | "tags" => some tags
  | "checksum" => some checksum
  | "ref" => some reference
  | "uri" => some uri
  | "mime_type" => some mimeType
  | _ => none

/-- What was read of an element: the keys met so far, their values, and the other entries
in their order. -/
structure Partial where
  met : List CommonKey
  element : Element
  others : List (String × Value)

def Partial.empty : Partial :=
  ⟨[], .ofBody .catalog, []⟩

/-- Reads the value `tree` of a common key into the element `e`. -/
def readCommon (e : Element) (tree : Tree) : CommonKey → Except Fault Element
  | .id => (readOptional readText tree).map fun id => { e with id := id }
  | .flavor => (readOptional readFlavor tree).map fun flavor => { e with flavor := flavor }
  | .tags => (readTags tree).map fun tags => { e with tags := tags }
  | .checksum =>
    (readOptional readChecksum tree).map fun checksum => { e with checksum := checksum }
  | .reference =>
    (readOptional readReference tree).map fun reference => { e with reference := reference }
  | .uri => (readOptional readText tree).map fun uri => { e with uri := uri }
  | .mimeType => (readOptional readText tree).map fun mime => { e with mimeType := mime }

def Partial.readEntry (p : Partial) (room : Nat) (name : String) (tree : Tree) :
    Except Fault Partial :=
  match CommonKey.ofName? name with
  | some key =>
    if p.met.contains key then .error (.duplicateField name)
    else
      (readCommon p.element tree key).map fun e =>
        { p with met := key :: p.met, element := e }
  | none =>
    (lift (tree.read room)).map fun value =>
      { p with others := p.others ++ [(name, value)] }

def Partial.readEntries (p : Partial) (room : Nat) :
    List (Except Json.Fault String × Tree) → Except Fault Partial
  | [] => .ok p
  | (key, tree) :: rest => do
    let p ← p.readEntry room (← lift key) tree
    readEntries p room rest

def readElement (room : Nat) : Tree → Except Fault Element
  | .object entries cut => do
    let p ← Partial.empty.readEntries room entries
    checkCut cut
    let body ← readBody p.others
    return { p.element with body := body }
  | tree => mismatch .element tree

def decodeText {α : Type} (read : Tree → Except Fault α) (text : String) : Except Error α :=
  ((Draft.ofSymbols (Text.symbols text)).finish Fault.json read).mapError Error.codec

def decodeElement (text : String) : Except Error Element :=
  decodeText (readElement (Json.depthLimit - 1)) text

def decodeFlavor (text : String) : Except Error Flavor :=
  decodeText readFlavor text

end MediaManifest.Codec
