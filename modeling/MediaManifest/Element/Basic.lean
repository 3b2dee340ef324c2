import MediaManifest.Element.Checksum
import MediaManifest.Element.Kind
import MediaManifest.Element.Tags

/-!
# Elements

An element is a classified part of a media package.  Tracks and publications
carry attributes of their own; all else is common to the four kinds.
-/

namespace MediaManifest

/-- A link from an element to another element or to its package: what kind of thing is
meant, and its identifier. -/
structure Reference where
  kind : String
  id : String
deriving DecidableEq

namespace Reference

def packageKind : String :=
  "mediapackage"

/-- The reference to the package with the identifier `id`. -/
def toPackage (id : String) : Reference :=
  ⟨packageKind, id⟩

/-- The reference to the element of the given kind with the identifier `id`. -/
def toElement (kind : Kind) (id : String) : Reference :=
  ⟨kind.name, id⟩

def isPackage (r : Reference) : Bool :=
  r.kind == packageKind

end Reference

/-- What the kinds of elements carry of their own. -/
inductive Body where
  | track (video audio : Bool) (duration : Option UInt64)
  | catalog
  | attachment
  | publication (channel : String)
deriving DecidableEq

def Body.kind : Body → Kind
  | track _ _ _ => .track
  | catalog => .catalog
  | attachment => .attachment
  | publication _ => .publication

/-- An element of a media package.  Its identifier may be unset until it is added to a
package. -/
structure Element where
  id : Option String
  body : Body
  flavor : Option Flavor
  tags : Tags
  checksum : Option Checksum
  reference : Option Reference
  uri : Option String
  mimeType : Option String
deriving DecidableEq

namespace Element

def ofBody (body : Body) : Element :=
  ⟨none, body, none, .empty, none, none, none, none⟩

def kind (e : Element) : Kind :=
  e.body.kind

def withId (e : Element) (id : String) : Element :=
  { e with id := some id }

def hasVideo (e : Element) : Bool :=
  match e.body with
  | .track video _ _ => video
  | _ => false

def hasAudio (e : Element) : Bool :=
  match e.body with
  | .track _ audio _ => audio
  | _ => false

def channel? (e : Element) : Option String :=
  match e.body with
  | .publication channel => some channel
  | _ => none

/-- Whether `e` carries at least one of the `tags`; no tags place no restriction. -/
def hasAnyTag (e : Element) (tags : List String) : Bool :=
  tags.isEmpty || tags.any e.tags.contains

/-- The element `e` in a line of text: its kind, its identifier and its flavor. -/
def display (e : Element) : String :=
  e.kind.name ++ " " ++ e.id.getD "<unset>" ++
    match e.flavor with
    | some flavor => " (" ++ flavor.text ++ ")"
    | none => ""

/-- The last piece of the location of `e`, unless it is blank. -/
def fileName? (e : Element) : Option String :=
  match e.uri with
  | none => none
  | some uri =>
    let name := Text.lastPiece (fun c => c == '/' || c == '\\') uri
    if Text.blank name then none else some name

@[simp] theorem id_withId (e : Element) (id : String) : (e.withId id).id = some id :=
  rfl

theorem withId_of_id_eq {e : Element} {id : String} (h : e.id = some id) :
    e.withId id = e := by
  cases e
  simp only at h
  subst h
  rfl

end Element

end MediaManifest
