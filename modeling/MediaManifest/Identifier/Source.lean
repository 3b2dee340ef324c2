import MediaManifest.Identifier.Sequential
import MediaManifest.Identifier.Random

/-!
# Sources of identifiers

A source is a generator of any of the three kinds.
-/

namespace MediaManifest

/-- A generator of any kind. -/
inductive Source where
  | sequential (g : Sequential)
  | listed (g : Listed)
  | random (g : Random)

namespace Source

def next : Source → String × Source
  | sequential g =>
    let (id, g) := g.next
    (id, sequential g)
  | listed g =>
    let (id, g) := g.next
    (id, listed g)
  | random g =>
    let (id, g) := g.next
    (id, random g)

/-- Tells a source of the identifier `id` in use; only the sequential ones take notice. -/
def reserve (id : String) : Source → Source
  | sequential g => sequential (g.reserve id)
  | listed g => listed g
  | random g => random g

instance : Generator Source where
  next := next
  reserve := reserve

end Source

end MediaManifest
