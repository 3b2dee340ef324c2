import MediaManifest.Log.Directive
import MediaManifest.Json.Printer

/-!
# Log records

A record is written to the log file as a line of JSON, and to the error output
as a line of text.  What no input decides is left out: the time, the thread and
the place in the program that it comes from.
-/

namespace MediaManifest.Log

/-- A message with its level, the part of the program that it comes from, and further
fields. -/
structure Record where
  level : Level
  target : String
  message : String
  fields : List (String × Json.Value)

namespace Record

def toJson (r : Record) : Json.Value :=
  .object
    [("level", .text r.level.title),
      ("fields", .object (("message", .text r.message) :: r.fields)),
      ("target", .text r.target)]

/-- The line of the log file for `r`. -/
def line (r : Record) : String :=
  r.toJson.compact ++ "\n"

/-- The line of the error output for `r`. -/
def display (r : Record) : String :=
  r.level.title ++ " " ++ r.target ++ ": " ++ r.message ++
    Text.join "" (r.fields.map fun (key, value) => " " ++ key ++ "=" ++ value.compact) ++ "\n"

/-- The names of the fields of a record; its message is one of them. -/
def fieldNames (r : Record) : List String :=
  "message" :: r.fields.map (·.1)

def isKept (r : Record) (ds : List Directive) : Bool :=
  Directive.keeps ds r.level r.target r.fieldNames

end Record

end MediaManifest.Log
