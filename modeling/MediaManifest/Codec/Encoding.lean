import MediaManifest.Package.Basic
import MediaManifest.Json.Printer

/-!
# Encoded packages

An element is an object with its identifier, its kind, the attributes of its
kind and then the common ones.  What is absent is left out, and so are empty
tags.
-/

namespace MediaManifest

open Json (Value)

abbrev Codec.Entry := String × Value

def Codec.textEntry (key : String) (value : Option String) : List Codec.Entry :=
  match value with
  | some s => [(key, .text s)]
  | none => []

def Checksum.toJson (c : Checksum) : Value :=
  .object [("type", .text c.kind.name), ("value", .text c.value)]

def Reference.toJson (r : Reference) : Value :=
  .object [("type", .text r.kind), ("id", .text r.id)]

/-- The entries of what a kind carries of its own. -/
def Body.entries : Body → List Codec.Entry
  | track video audio duration =>
    [("type", .text Kind.track.name), ("has_video", .bool video), ("has_audio", .bool audio)]
      ++ match duration with
        | some ms => [("duration_ms", .ofNat ms.toNat)]
        | none => []
  | catalog => [("type", .text Kind.catalog.name)]
  | attachment => [("type", .text Kind.attachment.name)]
  | publication channel =>
    [("type", .text Kind.publication.name), ("channel", .text channel)]

def Element.entries (e : Element) : List Codec.Entry :=
  Codec.textEntry "id" e.id ++ e.body.entries ++
    Codec.textEntry "flavor" (e.flavor.map Flavor.text) ++
    (if e.tags.toList.isEmpty then []
      else [("tags", .list (e.tags.toList.map Value.text))]) ++
    (match e.checksum with
      | some c => [("checksum", c.toJson)]
      | none => []) ++
    (match e.reference with
      | some r => [("ref", r.toJson)]
      | none => []) ++
    Codec.textEntry "uri" e.uri ++ Codec.textEntry "mime_type" e.mimeType

def Element.toJson (e : Element) : Value :=
  .object e.entries

/-- The contents `c` of a package as a value of a document. -/
def Contents.toJson (c : Contents) : Value :=
  .object (Codec.textEntry "id" c.identifier ++ Codec.textEntry "title" c.title ++
    [("elements", .list (c.elements.map Element.toJson))])

/-- The contents `c` of a package as text, on one line or `indented`. -/
def Contents.encode (indented : Bool) (c : Contents) : String :=
  c.toJson.render indented

def Package.encode {γ : Type} (indented : Bool) (p : Package γ) : String :=
  p.contents.encode indented

end MediaManifest
