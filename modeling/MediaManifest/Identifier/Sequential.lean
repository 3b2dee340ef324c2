import MediaManifest.Identifier.Generator
import MediaManifest.Text.Cut
import MediaManifest.Text.Numeral

/-!
# Numbered identifiers

A sequential generator hands out its stem, a dash and a number that grows by
one each time.  An identifier in use that has this form moves the numbering
past it, so that it is never handed out later.

The numbers are those of an unsigned 64-bit word: an identifier whose numeral
does not fit is no numbered one, and moves nothing.  The generator itself is
described up to the last such number, `2 ^ 64 - 1`.  A word would begin again
at `0` there; what is said of a generator that has come to this end is said of
numbers that go on, and a result that depends on it asks for room below.
-/

namespace MediaManifest

/-- A generator of numbered identifiers: the `stem` that stands before the dash, and the
highest number that was `issued`, by being handed out or reserved.  It stands for a 64-bit
word as long as it stays below `2 ^ 64`. -/
structure Sequential where
  stem : String
  issued : Nat
deriving DecidableEq

namespace Sequential

def ofStem (stem : String) : Sequential :=
  ⟨stem, 0⟩

def identifier (stem : String) (n : Nat) : String :=
  stem ++ "-" ++ Text.decimal n

/-- The number of the identifier `id`, if it has the given stem and its numeral is that of a
64-bit word. -/
def number? (stem id : String) : Option Nat :=
  match Text.dropFront (stem.toList ++ ['-']) id.toList with
  | some numeral => Text.readWord numeral
  | none => none

/-- The identifier with the number behind the last one `issued`.  At `2 ^ 64 - 1` this is no
longer the number of a 64-bit word. -/
def next (g : Sequential) : String × Sequential :=
  (identifier g.stem (g.issued + 1), { g with issued := g.issued + 1 })

/-- Moves the numbering past the identifier `id`, which is in use. -/
def reserve (id : String) (g : Sequential) : Sequential :=
  match number? g.stem id with
  | some n => { g with issued := max g.issued n }
  | none => g

instance : Generator Sequential where
  next := next
  reserve := reserve

/-- The generator that continues after the highest number among the identifiers `ids`. -/
def startingAfter (stem : String) (ids : List String) : Sequential :=
  Generator.reserveAll ids (ofStem stem)

end Sequential

end MediaManifest
