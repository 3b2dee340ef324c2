/-!
# Faults of JSON texts

What can be wrong with a text that should be JSON, each with its wording.
-/

namespace MediaManifest.Json

/-- What is wrong with a text that should be JSON. -/
inductive Fault where
  | endInValue
  | endInObject
  | endInList
  | endInText
  | expectedValue
  | expectedIdent
  | expectedColon
  | expectedListEnd
  | expectedObjectEnd
  | keyNotText
  | trailingComma
  | trailingCharacters
  | invalidNumber
  | numberOutOfRange
  | unknownEscape
  | brokenHexEscape
  | controlCharacter
  | loneSurrogate
  | unpairedSurrogate
  | invalidCodePoint
  | tooDeep
deriving DecidableEq

def Fault.message : Fault → String
  | endInValue => "EOF while parsing a value"
  | endInObject => "EOF while parsing an object"
  | endInList => "EOF while parsing a list"
  | endInText => "EOF while parsing a string"
  | expectedValue => "expected value"
  | expectedIdent => "expected ident"
  | expectedColon => "expected `:`"
  | expectedListEnd => "expected `,` or `]`"
  | expectedObjectEnd => "expected `,` or `\x7d`"
  | keyNotText => "key must be a string"
  | trailingComma => "trailing comma"
  | trailingCharacters => "trailing characters"
  | invalidNumber => "invalid number"
  | numberOutOfRange => "number out of range"
  | unknownEscape => "invalid escape"
  | brokenHexEscape => "invalid escape"
  | controlCharacter => "control character (\\u0000-\\u001F) found while parsing a string"
  | loneSurrogate => "lone leading surrogate in hex escape"
  | unpairedSurrogate => "unexpected end of hex escape"
  | invalidCodePoint => "invalid unicode code point"
  | tooDeep => "recursion limit exceeded"

/-- The place where a text breaks off: the fault for a reader of the value, the fault for a
reader that only skips it, and the fault for a reader of a name, which looks at the first
character of a value and goes on only in a text or an object. -/
structure Break where
  reading : Fault
  skipping : Fault
  naming : Fault
deriving DecidableEq

namespace Break

def plain (fault : Fault) : Break :=
  ⟨fault, fault, fault⟩

/-- A break that is the same for a reader of the value and a reader of a name. -/
def unlessSkipped (reading skipping : Fault) : Break :=
  ⟨reading, skipping, reading⟩

def inUnnamed (reading skipping : Fault) : Break :=
  ⟨reading, skipping, .expectedValue⟩

end Break

end MediaManifest.Json
