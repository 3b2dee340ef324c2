import MediaManifest.Codec.ElementReader
import MediaManifest.Codec.Schema
import MediaManifest.Json.Document
import MediaManifest.Package.Basic

/-!
# Decoding packages

A content is read as JSON and checked against the schema.  The identifiers
written anywhere in it are reserved before the first element is added, so that
no fresh identifier meets one that is still to come.  The elements are then
decoded and added in order, up to the first that fails.
-/

namespace MediaManifest.Codec

open Json (Document Tree Value)
open Text (Content)

def textField? (key : String) (value : Value) : Option String :=
  (value.field? key).bind Value.text?

/-- The entries of a `document` that are to be elements. -/
def rawElements (document : Value) : List Value :=
  ((document.field? "elements").bind Value.items?).getD []

/-- The identifiers written in the entries `raws`, in order. -/
def writtenIds (raws : List Value) : List String :=
  raws.filterMap (textField? "id")

/-- Decodes the entry `raw`; its kind is looked at first.  An entry that was read before is taken
as deep as it is nested. -/
def decodeRaw (raw : Value) : Except Error Element :=
  match textField? "type" raw with
  | none => .error .untypedElement
  | some name =>
    match Kind.parse name with
    | .error error => .error error
    | .ok _ => (readElement raw.depth (Tree.ofValue raw)).mapError Error.codec

variable {γ : Type} [Generator γ]

/-- Decodes entries and adds them to the package `p`, up to the first that fails. -/
def addRaws (p : Package γ) : List Value → Except Error Unit × Package γ
  | [] => (.ok (), p)
  | raw :: rest =>
    match decodeRaw raw with
    | .error error => (.error error, p)
    | .ok e =>
      match p.add e with
      | (.error error, p) => (.error error, p)
      | (.ok _, p) => addRaws p rest

/-- The package that a `document` stands for.  The `generator` is handed back in any case. -/
def decodeValue (generator : γ) (document : Value) : Except Error (Package γ) × γ :=
  match validate document with
  | .error error => (.error error, generator)
  | .ok _ =>
    let raws := rawElements document
    let p : Package γ :=
      { Package.ofGenerator (Generator.reserveAll (writtenIds raws) generator) with
        identifier := textField? "id" document
        title := textField? "title" document }
    match addRaws p raws with
    | (.error error, p) => (.error error, p.generator)
    | (.ok _, p) => (.ok p, p.generator)

def readDocument (content : Content) : Except Error Document :=
  (Document.ofContent content).mapError fun fault => .codec (.json fault)

def decode (generator : γ) (content : Content) : Except Error (Package γ) × γ :=
  match readDocument content with
  | .error error => (.error error, generator)
  | .ok document => decodeValue generator document

end MediaManifest.Codec
