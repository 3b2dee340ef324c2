import MediaManifest.Error

/-!
# Checksums

A checksum is written `type:value`.  The type is read without regard to ASCII
case, and a dash after `sha` may be written.
-/

namespace MediaManifest

/-- The algorithms of checksums. -/
inductive ChecksumType where
  | md5
  | sha1
  | sha256
  | sha512
deriving DecidableEq

namespace ChecksumType

def all : List ChecksumType :=
  [md5, sha1, sha256, sha512]

def name : ChecksumType → String
  | md5 => "md5"
  | sha1 => "sha1"
  | sha256 => "sha256"
  | sha512 => "sha512"

def ofName? : String → Option ChecksumType
  | "md5" => some md5
  | "sha1" => some sha1
  | "sha256" => some sha256
  | "sha512" => some sha512
  | _ => none

/-- The algorithm that the text `s` names in any of its spellings. -/
def parse (s : String) : Except Error ChecksumType :=
  match Text.lowerAscii s with
  | "md5" => .ok md5
  | "sha1" | "sha-1" => .ok sha1
  | "sha256" | "sha-256" => .ok sha256
  | "sha512" | "sha-512" => .ok sha512
  | _ => .error (.unknownChecksumType s)

@[simp] theorem ofName?_name (kind : ChecksumType) : ofName? kind.name = some kind := by
  cases kind <;> rfl

/-- Only the name of an algorithm names it. -/
theorem ofName?_eq_some_iff {s : String} {kind : ChecksumType} :
    ofName? s = some kind ↔ s = kind.name := by
  constructor
  · unfold ofName?
    split <;> rintro ⟨⟩ <;> rfl
  · rintro rfl
    exact ofName?_name kind

end ChecksumType

/-- A checksum: its algorithm and its value. -/
structure Checksum where
  kind : ChecksumType
  value : String
deriving DecidableEq

namespace Checksum

def text (c : Checksum) : String :=
  c.kind.name ++ ":" ++ c.value

/-- The checksum that the text `s` names; it is cut at its first colon. -/
def parse (s : String) : Except Error Checksum :=
  match Text.cut ':' s with
  | some (kind, value) => (ChecksumType.parse kind).map (⟨·, value⟩)
  | none => .error (.checksumNotPair s)

end Checksum

end MediaManifest
