import MediaManifest.Element.Basic

/-!
# Filters

A filter is a predicate on elements that can be written down.  The combinators
keep filters flat: conjunctions and disjunctions take up the operands of their
own kind, a conjunction leaves out what restricts nothing, and a negation
cancels a negation.
-/

namespace MediaManifest

/-- A predicate on elements. -/
inductive Filter where
  | any
  | kind (kind : Kind)
  | flavor (flavor : Flavor)
  | tag (tag : String)
  /-- At least one of the tags; no tags place no restriction. -/
  | tags (tags : List String)
  | checksum
  | noChecksum
  | video
  | audio
  | channel (channel : String)
  | and (filters : List Filter)
  | or (filters : List Filter)
  | not (filter : Filter)
deriving Inhabited

namespace Filter

mutual

def accepts (e : Element) : Filter → Bool
  | any => true
  | kind k => e.kind == k
  | flavor f => f.agreesWith e.flavor
  | tag t => e.tags.contains t
  | tags ts => e.hasAnyTag ts
  | checksum => e.checksum.isSome
  | noChecksum => e.checksum.isNone
  | video => e.hasVideo
  | audio => e.hasAudio
  | channel c => e.channel? == some c
  | and filters => allAccept e filters
  | or filters => someAccepts e filters
  | not filter => !accepts e filter

/-- Whether every filter of a list accepts the element `e`. -/
def allAccept (e : Element) : List Filter → Bool
  | [] => true
  | filter :: rest => accepts e filter && allAccept e rest

/-- Whether a filter of a list accepts the element `e`. -/
def someAccepts (e : Element) : List Filter → Bool
  | [] => false
  | filter :: rest => accepts e filter || someAccepts e rest

end

/-- The filter that accepts what both filters accept. -/
def conj : Filter → Filter → Filter
  | any, g => g
  | f, any => f
  | and fs, and gs => and (fs ++ gs)
  | and fs, g => and (fs ++ [g])
  | f, and gs => and (f :: gs)
  | f, g => and [f, g]

/-- The filter that accepts what either filter accepts. -/
def disj : Filter → Filter → Filter
  | or fs, or gs => or (fs ++ gs)
  | or fs, g => or (fs ++ [g])
  | f, or gs => or (f :: gs)
  | f, g => or [f, g]

/-- The filter that accepts what the given one does not. -/
def negate : Filter → Filter
  | not f => f
  | checksum => noChecksum
  | noChecksum => checksum
  | f => not f

/-- The filter that accepts what all of the `filters` accept. -/
def all (filters : List Filter) : Filter :=
  filters.foldl conj any

/-- Those of the `elements` that `f` accepts, in their order. -/
def select (f : Filter) (elements : List Element) : List Element :=
  elements.filter fun e => f.accepts e

mutual

def display : Filter → String
  | any => "any"
  | kind k => "type:" ++ k.name
  | flavor f => "flavor:" ++ f.text
  | tag t => "tag:" ++ t
  | tags ts => "tags:" ++ Text.join "," ts
  | checksum => "checksum"
  | noChecksum => "no-checksum"
  | video => "video"
  | audio => "audio"
  | channel c => "channel:" ++ c
  | and filters => "(" ++ Text.join " & " (displayAll filters) ++ ")"
  | or filters => "(" ++ Text.join " | " (displayAll filters) ++ ")"
  | not filter => "!" ++ display filter

def displayAll : List Filter → List String
  | [] => []
  | filter :: rest => display filter :: displayAll rest

end

@[simp] theorem allAccept_eq (e : Element) (fs : List Filter) :
    allAccept e fs = fs.all (accepts e) := by
  induction fs with
  | nil => rfl
  | cons f fs ih => simp [allAccept, ih]

@[simp] theorem someAccepts_eq (e : Element) (fs : List Filter) :
    someAccepts e fs = fs.any (accepts e) := by
  induction fs with
  | nil => rfl
  | cons f fs ih => simp [someAccepts, ih]

@[simp] theorem displayAll_eq (fs : List Filter) : displayAll fs = fs.map display := by
  induction fs with
  | nil => rfl
  | cons f fs ih => simp [displayAll, ih]

end Filter

end MediaManifest
