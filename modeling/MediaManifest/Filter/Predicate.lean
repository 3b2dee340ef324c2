import MediaManifest.Filter.Basic

/-!
# Named predicates

Questions about elements that are asked often, and their combination.  The
second of two combined predicates is asked only where the first one leaves the
answer open.
-/

namespace MediaManifest

/-- A question about an element. -/
inductive Predicate where
  | isPublication
  | isNotPublication
  | isEpisodeDublinCore
  | isSeriesDublinCore
  | isEpisodePolicy
  | isSmilCatalog
deriving DecidableEq

namespace Predicate

def all : List Predicate :=
  [isPublication, isNotPublication, isEpisodeDublinCore, isSeriesDublinCore,
    isEpisodePolicy, isSmilCatalog]

def holds (e : Element) : Predicate → Bool
  | isPublication => e.kind == .publication
  | isNotPublication => !(e.kind == .publication)
  | isEpisodeDublinCore => Flavor.episode.agreesWith e.flavor
  | isSeriesDublinCore => Flavor.series.agreesWith e.flavor
  | isEpisodePolicy => Flavor.episodePolicy.agreesWith e.flavor
  | isSmilCatalog => Flavor.smil.agreesWith e.flavor

/-- The answer of a combination, and whether its second predicate was asked. -/
structure Asked where
  answer : Bool
  second : Bool
deriving DecidableEq

/-- Whether both `a` and `b` hold; `b` is asked if `a` holds. -/
def both (a b : Element → Bool) (e : Element) : Asked :=
  if a e then ⟨b e, true⟩ else ⟨false, false⟩

/-- Whether `a` or `b` holds; `b` is asked if `a` does not. -/
def either (a b : Element → Bool) (e : Element) : Asked :=
  if a e then ⟨true, false⟩ else ⟨b e, true⟩

end Predicate

end MediaManifest
