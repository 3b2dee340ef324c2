import MediaManifest.Text.Blank
import MediaManifest.Text.Cut

/-!
# Flavors

A flavor classifies an element by a type and a subtype, written
`type/subtype`.  Either part may be the wildcard `*`, which matches every part
in its place.
-/

namespace MediaManifest

/-- A part of a flavor: a text that is not empty, has no white space at its ends and
holds no slash. -/
structure FlavorPart where
  text : String
  nonempty : text ≠ ""
  trimmed : Text.trim text = text
  unbroken : '/' ∉ text.toList
deriving DecidableEq

/-- A classifier of two parts. -/
structure Flavor where
  major : FlavorPart
  minor : FlavorPart
deriving DecidableEq

/-- Why a text is no flavor. -/
inductive FlavorFault where
  | notPair (text : String)
  | emptyPart
  | slashInPart (part : String)
deriving DecidableEq

def FlavorFault.message : FlavorFault → String
  | notPair text => "'" ++ text ++ "' is not of the form type/subtype"
  | emptyPart => "flavor component is empty"
  | slashInPart part => "flavor component '" ++ part ++ "' contains '/'"

namespace FlavorPart

/-- Parts `a` and `b` with the same text are the same. -/
theorem eq_of_text_eq {a b : FlavorPart} (h : a.text = b.text) : a = b := by
  cases a
  cases b
  simp only at h
  subst h
  rfl

def ofText (s : String) : Except FlavorFault FlavorPart :=
  if empty : Text.trim s = "" then .error .emptyPart
  else if broken : '/' ∈ (Text.trim s).toList then .error (.slashInPart (Text.trim s))
  else .ok ⟨Text.trim s, empty, Text.trim_trim s, broken⟩

def wildcard : FlavorPart :=
  ⟨"*", by decide, by decide +kernel, by decide⟩

/-- Whether the parts `a` and `b` match: they are equal, or one is the wildcard. -/
def agrees (a b : FlavorPart) : Bool :=
  a == wildcard || b == wildcard || a == b

/-- The part `a`, or `target` in its place if `a` is the wildcard. -/
def fill (a target : FlavorPart) : FlavorPart :=
  if a = wildcard then target else a

end FlavorPart

namespace Flavor

def ofTexts (major minor : String) : Except FlavorFault Flavor := do
  let major ← FlavorPart.ofText major
  let minor ← FlavorPart.ofText minor
  return ⟨major, minor⟩

/-- The flavor that the text `s` names; it is cut at its first slash. -/
def parse (s : String) : Except FlavorFault Flavor :=
  match Text.cut '/' s with
  | some (major, minor) => ofTexts major minor
  | none => .error (.notPair s)

def text (f : Flavor) : String :=
  f.major.text ++ "/" ++ f.minor.text

def any : Flavor :=
  ⟨.wildcard, .wildcard⟩

def episode : Flavor :=
  ⟨⟨"dublincore", by decide, by decide +kernel, by decide⟩,
    ⟨"episode", by decide, by decide +kernel, by decide⟩⟩

def series : Flavor :=
  ⟨⟨"dublincore", by decide, by decide +kernel, by decide⟩,
    ⟨"series", by decide, by decide +kernel, by decide⟩⟩

def episodePolicy : Flavor :=
  ⟨⟨"security", by decide, by decide +kernel, by decide⟩,
    ⟨"xacml+episode", by decide, by decide +kernel, by decide⟩⟩

def smil : Flavor :=
  ⟨⟨"smil", by decide, by decide +kernel, by decide⟩,
    ⟨"smil", by decide, by decide +kernel, by decide⟩⟩

def isWildcard (f : Flavor) : Bool :=
  f.major == .wildcard || f.minor == .wildcard

def agrees (f g : Flavor) : Bool :=
  f.major.agrees g.major && f.minor.agrees g.minor

/-- Whether `f` matches a flavor that may be absent; an absent one matches nothing. -/
def agreesWith (f : Flavor) : Option Flavor → Bool
  | none => false
  | some g => f.agrees g

/-- The flavor `f` with its wildcards filled in from `target`. -/
def applyTo (f target : Flavor) : Flavor :=
  ⟨f.major.fill target.major, f.minor.fill target.minor⟩

/-- The order of flavors: by their major parts, then by their minor parts. -/
def order (f g : Flavor) : Ordering :=
  (compare f.major.text g.major.text).then (compare f.minor.text g.minor.text)

end Flavor

end MediaManifest
