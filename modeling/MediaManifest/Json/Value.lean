import MediaManifest.Decimal.Binary

/-!
# JSON values

The values of the format.  A number is held as an integer if it was written
as one and fits the signed or the unsigned 64-bit range, and as a binary
fraction otherwise.  An object is the list of its entries; an object that was
read has them in the order of their keys, each key once, which makes it a
`Json.Document`.
-/

namespace MediaManifest.Json

open Decimal (Binary64)

/-- A number of a document. -/
inductive Number where
  | integer (n : Int) (range : -(2 ^ 63) ≤ n ∧ n < 2 ^ 64)
  | fraction (x : Binary64)
deriving DecidableEq

/-- The number that holds a natural number; past 64 bits it is rounded. -/
def Number.ofNat (n : Nat) : Number :=
  if h : n < 2 ^ 64 then .integer n (by omega) else .fraction (.ofFloat (Float.ofNat n))

/-- A value of a document. -/
inductive Value where
  | null
  | bool (b : Bool)
  | number (n : Number)
  | text (s : String)
  | list (items : List Value)
  | object (entries : List (String × Value))
deriving Inhabited

namespace Value

def ofNat (n : Nat) : Value :=
  .number (.ofNat n)

/-- Puts an entry at its place among entries sorted by key; of two equal keys the later
one stays. -/
def insertEntry (key : String) (value : Value) :
    List (String × Value) → List (String × Value)
  | [] => [(key, value)]
  | (k, v) :: rest =>
    if key = k then (key, value) :: rest
    else if key < k then (key, value) :: (k, v) :: rest
    else (k, v) :: insertEntry key value rest

/-- The value of the first entry with the given key. -/
def lookup (key : String) : List (String × Value) → Option Value
  | [] => none
  | (k, v) :: rest => if k = key then some v else lookup key rest

def field? (key : String) : Value → Option Value
  | .object entries => lookup key entries
  | _ => none

def text? : Value → Option String
  | .text s => some s
  | _ => none

def items? : Value → Option (List Value)
  | .list items => some items
  | _ => none

mutual

/-- How deep lists and objects are nested. -/
def depth : Value → Nat
  | .null | .bool _ | .number _ | .text _ => 0
  | .list items => depthItems items + 1
  | .object entries => depthEntries entries + 1

def depthItems : List Value → Nat
  | [] => 0
  | v :: rest => max (depth v) (depthItems rest)

def depthEntries : List (String × Value) → Nat
  | [] => 0
  | (_, v) :: rest => max (depth v) (depthEntries rest)

end

end Value

def Number.sameValue : Number → Number → Bool
  | .integer a _, .integer b _ => a == b
  | .integer a _, .fraction y => y.isInteger a
  | .fraction x, .integer b _ => x.isInteger b
  | .fraction x, .fraction y => x.toFloat == y.toFloat

/-- Equality of numbers by form: an integer differs from every fraction. -/
def Number.sameForm : Number → Number → Bool
  | .integer a _, .integer b _ => a == b
  | .fraction a, .fraction b => a == b
  | _, _ => false

namespace Value

mutual

/-- Equality of values up to the given equality of numbers. -/
def sameBy (same : Number → Number → Bool) : Value → Value → Bool
  | .null, .null => true
  | .bool a, .bool b => a == b
  | .number a, .number b => same a b
  | .text a, .text b => a == b
  | .list as, .list bs => sameItems same as bs
  | .object as, .object bs => sameEntries same as bs
  | _, _ => false

def sameItems (same : Number → Number → Bool) : List Value → List Value → Bool
  | [], [] => true
  | a :: as, b :: bs => sameBy same a b && sameItems same as bs
  | _, _ => false

def sameEntries (same : Number → Number → Bool) :
    List (String × Value) → List (String × Value) → Bool
  | [], [] => true
  | (k, a) :: as, (l, b) :: bs => k == l && sameBy same a b && sameEntries same as bs
  | _, _ => false

end

end Value

end MediaManifest.Json
