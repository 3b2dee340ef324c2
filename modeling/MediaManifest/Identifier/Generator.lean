/-!
# Identifier generators

A generator hands out identifiers one after the other, and is told of
identifiers that are in use.  The plainest one hands out the identifiers of a
list in turn and then repeats the last one; it takes no notice of identifiers
in use.
-/

namespace MediaManifest

/-- A type `γ` of states that identifiers are drawn from. -/
class Generator (γ : Type) where
  /-- The next identifier, and the state after it was drawn. -/
  next : γ → String × γ
  /-- The state after being told that an identifier is in use. -/
  reserve : String → γ → γ

namespace Generator

variable {γ : Type} [Generator γ]

/-- The state after `g` was told of the identifiers `ids` in use, in their order. -/
def reserveAll (ids : List String) (g : γ) : γ :=
  ids.foldl (fun g id => reserve id g) g

@[simp] theorem reserveAll_nil (g : γ) : reserveAll [] g = g :=
  rfl

@[simp] theorem reserveAll_cons (id : String) (ids : List String) (g : γ) :
    reserveAll (id :: ids) g = reserveAll ids (reserve id g) :=
  rfl

theorem reserveAll_append (ids more : List String) (g : γ) :
    reserveAll (ids ++ more) g = reserveAll more (reserveAll ids g) := by
  simp [reserveAll]

end Generator

/-- A generator of listed identifiers: the ones still to come. -/
structure Listed where
  pending : List String
deriving DecidableEq

namespace Listed

/-- The next identifier of `g`; the empty text if nothing was listed. -/
def next (g : Listed) : String × Listed :=
  match g.pending with
  | [] => ("", g)
  | [id] => (id, g)
  | id :: rest => (id, ⟨rest⟩)

instance : Generator Listed where
  next := next
  reserve _ g := g

end Listed

end MediaManifest
