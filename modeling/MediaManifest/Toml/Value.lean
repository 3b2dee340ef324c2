import MediaManifest.Decimal.Shortest
import MediaManifest.Mismatch

/-!
# TOML values

A table knows how it came about, for that decides whether later lines of a
document may add to it.  A numeral without a number that can be held is in
order in a document; it is at fault only for a reader that looks at it.
-/

namespace MediaManifest.Toml

open Decimal (Binary64)

/-- How a table came about: by a header of its own, as part of the header of another
table, by a dotted key, or between braces. -/
inductive Origin where
  | header
  | implied
  | dotted
  | closed
deriving DecidableEq

/-- A value of a document. -/
inductive Value where
  | text (s : String)
  | integer (n : Int)
  | fraction (x : Binary64)
  /-- A numeral that is too large for the numbers there are, or that stands for none. -/
  | unheld
  | boolean (b : Bool)
  /-- A date, a time or both. -/
  | moment
  | list (items : List Value)
  | table (origin : Origin) (entries : List (String × Value))
  /-- Tables under headers in double brackets, the last one first. -/
  | tables (items : List (List (String × Value)))
deriving Inhabited

abbrev Entries := List (String × Value)

namespace Value

/-- What a value is to a reader that expects something else; the look at a numeral without
a number fails. -/
def found? : Value → Option Found
  | text s => some (.text s)
  | integer n => some (if -(2 ^ 63) ≤ n ∧ n < 2 ^ 64 then .integer n else .wideInteger n)
  | fraction x => some (.fraction x.plain)
  | unheld => none
  | boolean b => some (.boolean b)
  | moment => some .map
  | list _ => some .sequence
  | table _ _ => some .map
  | tables _ => some .sequence

mutual

/-- Whether every numeral in a value has a number. -/
def isHeld : Value → Bool
  | unheld => false
  | list items => allHeld items
  | table _ entries => entriesHeld entries
  | tables items => tablesHeld items
  | _ => true

/-- Whether every numeral in a list of values has a number. -/
def allHeld : List Value → Bool
  | [] => true
  | item :: rest => isHeld item && allHeld rest

/-- Whether every numeral in the entries of a table has a number. -/
def entriesHeld : List (String × Value) → Bool
  | [] => true
  | (_, value) :: rest => isHeld value && entriesHeld rest

/-- Whether every numeral in a list of tables has a number. -/
def tablesHeld : List (List (String × Value)) → Bool
  | [] => true
  | entries :: rest => entriesHeld entries && tablesHeld rest

end

end Value

namespace Entries

def find? (key : String) (entries : Entries) : Option Value :=
  entries.lookup key

/-- Puts `value` under a `key` that is there, in its place. -/
def replace (key : String) (value : Value) : Entries → Entries
  | [] => []
  | (k, v) :: rest => if k = key then (k, value) :: rest else (k, v) :: replace key value rest

/-- Puts `value` under a `key` that is not there yet, at the end. -/
def append (entries : Entries) (key : String) (value : Value) : Entries :=
  List.append entries [(key, value)]

/-- Changes the table at a path of keys from headers.  Tables that are missing are made;
among tables under one header in double brackets the last one is meant. -/
def within (change : Entries → Option Entries) : List String → Entries → Option Entries
  | [], entries => change entries
  | key :: path, entries =>
    match entries.find? key with
    | none => (within change path []).map fun inner =>
      entries.append key (.table .implied inner)
    | some (.table origin inner) =>
      if origin = .closed then none
      else (within change path inner).map fun inner =>
        entries.replace key (.table origin inner)
    | some (.tables (last :: done)) =>
      (within change path last).map fun last => entries.replace key (.tables (last :: done))
    | some _ => none

/-- Opens a table under `key` by a header.  It must not be there yet, except as part of the header
of another table. -/
def openTable (key : String) (entries : Entries) : Option Entries :=
  match entries.find? key with
  | none => some (entries.append key (.table .header []))
  | some (.table .implied inner) => some (entries.replace key (.table .header inner))
  | some _ => none

/-- Opens one more table under `key` by a header in double brackets. -/
def openItem (key : String) (entries : Entries) : Option Entries :=
  match entries.find? key with
  | none => some (entries.append key (.tables [[]]))
  | some (.tables items) => some (entries.replace key (.tables ([] :: items)))
  | some _ => none

/-- Puts a value under a dotted key; `origin` is how the table came about, unless it is the
one that the key starts from.  The way may lead through tables that came about by keys
longer than themselves and through the last table under a header in double brackets.  The
table that takes the value must have come about by a dotted key, and the last part of the key
must be new. -/
def assign (value : Value) (origin : Option Origin) : List String → Entries → Option Entries
  | [], _ => none
  | [key], entries =>
    if origin = some .implied ∨ origin = some .header then none
    else
      match entries.find? key with
      | none => some (entries.append key value)
      | some _ => none
  | key :: path, entries =>
    match entries.find? key with
    | none => (assign value (some .dotted) path []).map fun inner =>
      entries.append key (.table .dotted inner)
    | some (.table inside inner) =>
      if inside = .dotted ∨ inside = .implied then
        (assign value (some inside) path inner).map fun inner =>
          entries.replace key (.table inside inner)
      else none
    | some (.tables (last :: done)) =>
      (assign value (some .header) path last).map fun last =>
        entries.replace key (.tables (last :: done))
    | some _ => none

end Entries

end MediaManifest.Toml
