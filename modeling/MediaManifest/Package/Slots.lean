import MediaManifest.Element.Basic
import Std.Data.HashMap

/-!
# Slots

The elements of a package stand in slots in the order in which they were
added, and an index tells the slot of each identifier.  Removing an element
leaves its slot empty.  The slots are compacted once more than half of them
are empty, so that adding, removing and looking up take constant time on
average.
-/

namespace MediaManifest

/-- Slots in order, and the slot of each identifier. -/
structure Slots where
  cells : Array (Option Element)
  index : Std.HashMap String Nat

namespace Slots

def empty : Slots :=
  ⟨#[], ∅⟩

def elements (s : Slots) : List Element :=
  s.cells.toList.filterMap id

def size (s : Slots) : Nat :=
  s.index.size

def contains (s : Slots) (id : String) : Bool :=
  s.index.contains id

/-- The slot of the identifier `id`, with the element in it. -/
def find? (s : Slots) (id : String) : Option (Nat × Element) :=
  match s.index[id]? with
  | none => none
  | some pos =>
    match s.cells[pos]? with
    | some (some e) => some (pos, e)
    | _ => none

def get? (s : Slots) (id : String) : Option Element :=
  (s.find? id).map Prod.snd

def push (s : Slots) (id : String) (e : Element) : Slots :=
  ⟨s.cells.push (some e), s.index.insert id s.cells.size⟩

/-- The index with the positions of the given elements counted from `pos`.  An element
whose identifier the index does not know is passed over. -/
def renumber (index : Std.HashMap String Nat) : List Element → Nat → Std.HashMap String Nat
  | [], _ => index
  | e :: rest, pos =>
    match e.id with
    | some id =>
      renumber (if index.contains id then index.insert id pos else index) rest (pos + 1)
    | none => renumber index rest (pos + 1)

/-- Drops the empty slots and counts the positions anew. -/
def compact (s : Slots) : Slots :=
  let cells := s.cells.filter Option.isSome
  ⟨cells, renumber s.index (cells.toList.filterMap id) 0⟩

/-- Compacts the slots if more than half of them are empty. -/
def tidy (s : Slots) : Slots :=
  if s.cells.size > 2 * s.index.size then s.compact else s

/-- Takes the element under `id` out of its slot. -/
def remove (s : Slots) (id : String) : Option Element × Slots :=
  match s.index[id]? with
  | none => (none, s)
  | some pos =>
    (s.cells[pos]?.join, tidy ⟨s.cells.setIfInBounds pos none, s.index.erase id⟩)

def put (s : Slots) (pos : Nat) (e : Element) : Slots :=
  { s with cells := s.cells.setIfInBounds pos (some e) }

/-- Lets the index know the slot `pos` by the identifier `new` instead of the `old` one. -/
def rename (s : Slots) (old new : String) (pos : Nat) : Slots :=
  { s with index := (s.index.erase old).insert new pos }

end Slots

end MediaManifest
