import MediaManifest.Json.Fault
import MediaManifest.Flavor
import MediaManifest.Mismatch

/-!
# Faults of encoded elements

Why an encoded element cannot be decoded: its text is no JSON, or a value in
it is not what its field holds.
-/

namespace MediaManifest.Codec

/-- Why an encoded element cannot be decoded. -/
inductive Fault where
  | json (fault : Json.Fault)
  | invalidType (found : Found) (expected : Expected)
  /-- A negative number where a word is expected. -/
  | negativeWord (n : Int)
  /-- A number that is no position in a list of four variants. -/
  | variantPosition (n : Nat)
  | unknownVariant (name : String) (known : List String)
  | missingField (name : String)
  | duplicateField (name : String)
  /-- A list of fields that is too short. -/
  | invalidLength (length : Nat) (expected : Expected)
  | flavor (fault : FlavorFault)
deriving DecidableEq

def Fault.message : Fault → String
  | json fault => fault.message
  | invalidType found expected => MediaManifest.invalidType found expected
  | negativeWord n =>
    "invalid value: " ++ (Found.integer n).describe ++ ", expected " ++
      Expected.word.describe
  | variantPosition n =>
    "invalid value: " ++ (Found.integer n).describe ++
      ", expected variant index 0 <= i < 4"
  | unknownVariant name known => MediaManifest.unknownVariant name known
  | missingField name => MediaManifest.missingField name
  | duplicateField name => "duplicate field `" ++ name ++ "`"
  | invalidLength length expected =>
    "invalid length " ++ Text.decimal length ++ ", expected " ++ expected.describe ++
      " with 2 elements"
  | flavor fault => "Invalid flavor: " ++ fault.message

end MediaManifest.Codec
