import MediaManifest.Text.Printable
import MediaManifest.Text.Cut

/-!
# Mismatches

Where a document holds something else than what its reader expects, the
message names both.
-/

namespace MediaManifest

/-- What was found in a document. -/
inductive Found where
  | null
  | boolean (b : Bool)
  | integer (n : Int)
  /-- An integer outside the signed and the unsigned 64-bit range. -/
  | wideInteger (n : Int)
  /-- A fraction, with its numeral as the kind of document writes it. -/
  | fraction (numeral : String)
  | text (s : String)
  | sequence
  | map
deriving DecidableEq

def Found.describe : Found → String
  | null => "null"
  | boolean b => "boolean `" ++ (if b then "true" else "false") ++ "`"
  | integer n => "integer `" ++ Text.signedDecimal n ++ "`"
  | wideInteger n =>
    "integer `" ++ Text.signedDecimal n ++ "` as " ++ (if n < 2 ^ 127 then "i128" else "u128")
  | fraction numeral => "floating point `" ++ numeral ++ "`"
  | text s => "string " ++ Text.cited s
  | sequence => "sequence"
  | map => "map"

/-- What a reader expects. -/
inductive Expected where
  | boolean
  | text
  | path
  | word
  | sequence
  | unit
  | variantName
  | checksum
  | reference
  | element
deriving DecidableEq

def Expected.describe : Expected → String
  | boolean => "a boolean"
  | text => "a string"
  | path => "path string"
  | word => "u64"
  | sequence => "a sequence"
  | unit => "unit"
  | variantName => "variant identifier"
  | checksum => "struct Checksum"
  | reference => "struct Reference"
  | element => "struct MediaPackageElement"

def invalidType (found : Found) (expected : Expected) : String :=
  "invalid type: " ++ found.describe ++ ", expected " ++ expected.describe

/-- The message of a `name` that is none of the `known` ones. -/
def unknownVariant (name : String) (known : List String) : String :=
  "unknown variant `" ++ name ++ "`, expected one of " ++
    Text.join ", " (known.map fun k => "`" ++ k ++ "`")

def missingField (name : String) : String :=
  "missing field `" ++ name ++ "`"

end MediaManifest
