import MediaManifest.Codec.Fault

/-!
# Errors

Why an operation on packages, elements, filters or documents fails.
-/

namespace MediaManifest

/-- Why an operation fails. -/
inductive Error where
  /-- The package breaks rules, each given by its message. -/
  | validation (violations : List String)
  /-- The target of a merge already holds an element of the source. -/
  | conflict (package element : String)
  | unsupportedElement (what : String)
  | duplicateElement (id : String)
  | invalidFlavor (reason : String)
  | invalidMergeMode (name : String)
  | invalidFilter (expression : String)
  | codec (fault : Codec.Fault)
  | schema (reason : String)
deriving DecidableEq

namespace Error

def message : Error → String
  | validation violations => "Validation error: " ++ Text.join ", " violations
  | conflict package element =>
    "Target media package " ++ package ++ " already contains element with id " ++ element
  | unsupportedElement what => "Unsupported element: " ++ what
  | duplicateElement id => "Duplicate element identifier: " ++ id
  | invalidFlavor reason => "Invalid flavor: " ++ reason
  | invalidMergeMode name => "Invalid merge mode: " ++ name
  | invalidFilter expression => "Invalid filter expression: " ++ expression
  | codec fault => "Codec error: " ++ fault.message
  | schema reason => "Schema error: " ++ reason

/-- Whether an error is a conflict between two packages. -/
def isConflict : Error → Bool
  | conflict _ _ => true
  | _ => false

def ofFlavorFault (fault : FlavorFault) : Error :=
  .invalidFlavor fault.message

/-- The error of a `name` that is no kind of element. -/
def unknownKind (name : String) : Error :=
  .unsupportedElement ("unknown element type '" ++ name ++ "'")

/-- The error of a `name` that is no checksum algorithm. -/
def unknownChecksumType (name : String) : Error :=
  .unsupportedElement ("unknown checksum type '" ++ name ++ "'")

def checksumNotPair (text : String) : Error :=
  .unsupportedElement ("checksum '" ++ text ++ "' is not type:value")

/-- The error of an encoded element whose type is no text. -/
def untypedElement : Error :=
  .unsupportedElement "element without type"

end Error

end MediaManifest
