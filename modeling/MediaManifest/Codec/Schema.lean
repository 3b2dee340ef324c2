import MediaManifest.Error
import MediaManifest.Json.Printer

/-!
# The schema of documents

A check looks at a value at a place of a document and lists what is wrong with
it.  The schema of package documents is built from a few kinds of checks: the
type of a value, the properties of an object, the items of a list, and rules
for texts.
-/

namespace MediaManifest.Codec

open Json (Value Number)

/-- Something wrong at a place of a document; the place is a JSON pointer. -/
structure Violation where
  place : String
  text : String
deriving DecidableEq

abbrev Check := String → Value → List Violation

namespace Check

def report (place : String) (value : Value) (text : String) : List Violation :=
  [⟨place, value.compact ++ text⟩]

def isText : Check := fun place value =>
  match value with
  | .text _ => []
  | _ => report place value " is not of type \"string\""

def isTextOrNull : Check := fun place value =>
  match value with
  | .null | .text _ => []
  | _ => report place value " is not of types \"null\", \"string\""

def isNonemptyText : Check := fun place value =>
  match value with
  | .text s => if s = "" then report place value " is shorter than 1 character" else []
  | _ => isText place value

/-- Whether `s` is a text of two parts that are not empty and hold no slash, with a slash between
them. -/
def isPair (s : String) : Bool :=
  match Text.cut '/' s with
  | some (front, back) => front ≠ "" && back ≠ "" && !back.toList.contains '/'
  | none => false

/-- The value is a text of two parts with a slash between them. -/
def isPairText : Check := fun place value =>
  match value with
  | .text s =>
    if isPair s then [] else report place value " does not match \"^[^/]+/[^/]+$\""
  | _ => isText place value

def below (place key : String) : String :=
  place ++ "/" ++ key

/-- The violations of the properties that an object has, in the order given. -/
def properties (checks : List (String × Check)) (place : String) (value : Value) :
    List Violation :=
  checks.flatMap fun (key, check) =>
    match value.field? key with
    | some v => check (below place key) v
    | none => []

/-- The properties among `keys` that an object lacks, in the order given. -/
def required (keys : List String) (place : String) (value : Value) : List Violation :=
  keys.flatMap fun key =>
    match value.field? key with
    | some _ => []
    | none => [⟨place, (Value.text key).compact ++ " is a required property"⟩]

/-- The value is an object whose properties pass their `checks`, and which has all of the `keys`. -/
def isObject (checks : List (String × Check)) (keys : List String) : Check :=
  fun place value =>
    match value with
    | .object _ => properties checks place value ++ required keys place value
    | _ => report place value " is not of type \"object\""

/-- The violations of the items of a list, counted from `n`. -/
def items (check : Check) (place : String) : Nat → List Value → List Violation
  | _, [] => []
  | n, v :: rest => check (below place (Text.decimal n)) v ++ items check place (n + 1) rest

def isList (check : Check) : Check := fun place value =>
  match value with
  | .list vs => items check place 0 vs
  | _ => report place value " is not of type \"array\""

def distinct (same : Value → Value → Bool) : List Value → Bool
  | [] => true
  | v :: rest => !rest.any (same v) && distinct same rest

/-- The equality that the items `vs` of a list are told apart by: up to fifteen of them by the
values of their numbers, more of them by the forms of their numbers. -/
def itemEquality (vs : List Value) : Value → Value → Bool :=
  if vs.length ≤ 15 then Value.sameBy Number.sameValue else Value.sameBy Number.sameForm

/-- The value is a list of different items that pass `check`. -/
def isSet (check : Check) : Check := fun place value =>
  isList check place value ++
    match value with
    | .list vs =>
      if distinct (itemEquality vs) vs then []
      else report place value " has non-unique elements"
    | _ => []

end Check

def checksumSchema : Check :=
  .isObject [("type", .isText), ("value", .isText)] ["type", "value"]

def referenceSchema : Check :=
  .isObject [("id", .isNonemptyText), ("type", .isNonemptyText)] ["type", "id"]

def elementSchema : Check :=
  .isObject
    [("channel", .isText),
      ("checksum", checksumSchema),
      ("flavor", .isPairText),
      ("id", .isNonemptyText),
      ("ref", referenceSchema),
      ("tags", .isSet .isText),
      ("type", .isNonemptyText),
      ("uri", .isText)]
    ["type"]

def packageSchema : Check :=
  .isObject
    [("elements", .isList elementSchema),
      ("id", .isTextOrNull),
      ("title", .isTextOrNull)]
    ["elements"]

def Violation.line (v : Violation) : String :=
  v.place ++ ": " ++ v.text

def schemaError (violations : List Violation) : Error :=
  .schema ("Media package validation failed:\n  - " ++
    Text.join "\n  - " (violations.map Violation.line))

def validate (document : Value) : Except Error Unit :=
  match packageSchema "" document with
  | [] => .ok ()
  | violations => .error (schemaError violations)

end MediaManifest.Codec
