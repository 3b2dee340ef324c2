import MediaManifest.Element.Basic

/-!
# Edits of elements

The changes and questions that one element answers.  A flavor is fixed once it
is set: setting it again is refused and keeps the current one.
-/

namespace MediaManifest

/-- A change of an element, or a question about its tags. -/
inductive Edit where
  | setId (id : Option String)
  | setFlavor (flavor : Flavor)
  | addTag (tag : String)
  | removeTag (tag : String)
  | clearTags
  | setChecksum (checksum : Option Checksum)
  | setReference (reference : Option Reference)
  | setUri (uri : Option String)
  | containsTag (tag : String)
  | containsAnyTag (tags : List String)

/-- What an edit answers. -/
inductive Edit.Answer where
  | done
  | flag (b : Bool)
  | refused (error : Error)
deriving DecidableEq

namespace Element

def setFlavor (e : Element) (flavor : Flavor) : Except Error Element :=
  match e.flavor with
  | some current =>
    .error (.invalidFlavor (e.display ++ " already has flavor " ++ current.text))
  | none => .ok { e with flavor := some flavor }

/-- Makes an edit of `e`: its answer and the element afterwards. -/
def edit (e : Element) : Edit → Edit.Answer × Element
  | .setId id => (.done, { e with id := id })
  | .setFlavor flavor =>
    match e.setFlavor flavor with
    | .ok e => (.done, e)
    | .error error => (.refused error, e)
  | .addTag tag => (.done, { e with tags := e.tags.insert tag })
  | .removeTag tag => (.flag (e.tags.contains tag), { e with tags := e.tags.erase tag })
  | .clearTags => (.done, { e with tags := .empty })
  | .setChecksum checksum => (.done, { e with checksum := checksum })
  | .setReference reference => (.done, { e with reference := reference })
  | .setUri uri => (.done, { e with uri := uri })
  | .containsTag tag => (.flag (e.tags.contains tag), e)
  | .containsAnyTag tags => (.flag (e.hasAnyTag tags), e)

end Element

end MediaManifest
