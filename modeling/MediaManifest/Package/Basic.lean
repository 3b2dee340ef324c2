import MediaManifest.Package.Slots
import MediaManifest.Identifier.Generator

/-!
# Media packages

A media package holds elements in the order in which they were added, each
under an identifier of its own.  Elements that come without one get it from
the generator of the package.

An operation that can fail gives its result together with the package
afterwards: identifiers drawn from the generator stay drawn.
-/

namespace MediaManifest

/-- A package whose identifiers come from a generator of type `γ`. -/
structure Package (γ : Type) where
  identifier : Option String
  title : Option String
  slots : Slots
  generator : γ

/-- What a package holds, apart from where it keeps it and how it invents identifiers. -/
structure Contents where
  identifier : Option String
  title : Option String
  elements : List Element
deriving DecidableEq

namespace Package

variable {γ : Type}

def ofGenerator (generator : γ) : Package γ :=
  ⟨none, none, .empty, generator⟩

def elements (p : Package γ) : List Element :=
  p.slots.elements

def ids (p : Package γ) : List String :=
  p.elements.filterMap Element.id

def contents (p : Package γ) : Contents :=
  ⟨p.identifier, p.title, p.elements⟩

def size (p : Package γ) : Nat :=
  p.slots.size

def isEmpty (p : Package γ) : Bool :=
  p.size == 0

/-- Whether `p` holds an element under `id`. -/
def contains (p : Package γ) (id : String) : Bool :=
  p.slots.contains id

def get? (p : Package γ) (id : String) : Option Element :=
  p.slots.get? id

def elementsOf (p : Package γ) (kind : Kind) : List Element :=
  p.elements.filter fun e => e.kind == kind

def hasTracks (p : Package γ) : Bool :=
  !(p.elementsOf .track).isEmpty

def display (p : Package γ) : String :=
  p.identifier.getD "<no id>"

def removeById (p : Package γ) (id : String) : Option Element × Package γ :=
  let (removed, slots) := p.slots.remove id
  (removed, { p with slots := slots })

/-- Removes the element that shares the identifier of `e`. -/
def remove (p : Package γ) (e : Element) : Option Element × Package γ :=
  match e.id with
  | some id => p.removeById id
  | none => (none, p)

/-- Removes the elements under the listed identifiers from `p`, and hands out the ones that were
there in the order listed. -/
def removeElements (p : Package γ) : List String → List Element × Package γ
  | [] => ([], p)
  | id :: rest =>
    let (removed, p) := p.removeById id
    let (more, p) := removeElements p rest
    (removed.toList ++ more, p)

/-- Removes all elements of `p` and hands them out in order. -/
def clear (p : Package γ) : List Element × Package γ :=
  (p.elements, { p with slots := .empty })

variable [Generator γ]

def draw (p : Package γ) : String × Package γ :=
  let (id, generator) := Generator.next p.generator
  (id, { p with generator := generator })

def reserve (p : Package γ) (id : String) : Package γ :=
  { p with generator := Generator.reserve id p.generator }

/-- Gives `p` another `generator`, which is told of the identifiers in it. -/
def withGenerator {δ : Type} (p : Package δ) (generator : γ) : Package γ :=
  ⟨p.identifier, p.title, p.slots, Generator.reserveAll p.ids generator⟩

/-- Adds the element `e` under `id` unless this is taken. -/
def insert (p : Package γ) (id : String) (e : Element) : Except Error String × Package γ :=
  if p.contains id then (.error (.duplicateElement id), p)
  else
    (.ok id,
      { p with
        slots := p.slots.push id e
        generator := Generator.reserve id p.generator })

/-- Adds the element `e` and answers the identifier that it is held under: its own, or a fresh one
if it has none. -/
def add (p : Package γ) (e : Element) : Except Error String × Package γ :=
  match e.id with
  | some id => p.insert id e
  | none =>
    let (id, p) := p.draw
    p.insert id (e.withId id)

/-- Puts the edited element `e` back into its slot `pos`, under the identifier `new`.  If another
element has it, `e` keeps the `old` one. -/
def settle (p : Package γ) (pos : Nat) (old new : String) (e : Element) :
    Except Error Bool × Package γ :=
  if p.contains new then
    (.error (.duplicateElement new), { p with slots := p.slots.put pos (e.withId old) })
  else
    (.ok true,
      { p with
        slots := (p.slots.put pos (e.withId new)).rename old new pos
        generator := Generator.reserve new p.generator })

/-- Edits the element under `id` in its place, and answers whether there is one.  The `edit` may
change the identifier to one that is free; if it clears it, a fresh one is drawn. -/
def editElement (p : Package γ) (id : String) (edit : Element → Element) :
    Except Error Bool × Package γ :=
  match p.slots.find? id with
  | none => (.ok false, p)
  | some (pos, e) =>
    let e := edit e
    match e.id with
    | some new =>
      if new = id then (.ok true, { p with slots := p.slots.put pos e })
      else p.settle pos id new e
    | none =>
      let (new, p) := p.draw
      p.settle pos id new e

/-- Adds elements to `p` one after the other up to the first that cannot be added. -/
def addAll (p : Package γ) : List Element → Except Error Unit × Package γ
  | [] => (.ok (), p)
  | e :: rest =>
    match p.add e with
    | (.error error, p) => (.error error, p)
    | (.ok _, p) => addAll p rest

/-- Adds the element `e` at the end, instead of the one that shares its identifier. -/
def updateElement (p : Package γ) (e : Element) : Except Error String × Package γ :=
  (p.remove e).2.add e

/-- Puts the listed `elements` into `p` instead of all others.  It stops at the first one that
cannot be added; the ones before it stay. -/
def replaceElements (p : Package γ) (elements : List Element) :
    Except Error Unit × Package γ :=
  p.clear.2.addAll elements

end Package

end MediaManifest
