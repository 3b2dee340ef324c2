import MediaManifest.Json.Value
import MediaManifest.Package.Basic

/-!
# Packages at a glance

A package may break rules, it may be fit to be published, and it can be told in
short.  The reports of these are records of their own, with their JSON form.
-/

namespace MediaManifest

/-! ## Rules -/

/-- A rule that a package breaks. -/
inductive Violation where
  | noId
  | blankId
deriving DecidableEq

def Violation.message : Violation → String
  | noId => "no ID"
  | blankId => "blank ID"

namespace Package

variable {γ : Type}

/-- The rules that the package `p` breaks; they are about its identifier alone. -/
def violations (p : Package γ) : List Violation :=
  match p.identifier with
  | none => [.noId]
  | some id => if Text.blank id then [.blankId] else []

/-- Nothing if `p` breaks no rules, and otherwise the error that lists the broken ones. -/
def ensureSane (p : Package γ) : Except Error Unit :=
  match p.violations with
  | [] => .ok ()
  | violations => .error (.validation (violations.map Violation.message))

/-- Whether `p` can be published: it has a title that is not blank, and a track. -/
def publishable (p : Package γ) : Bool :=
  (match p.title with
    | some title => !Text.blank title
    | none => false) && p.hasTracks

end Package

/-! ## Checks -/

/-- What a check says of a package that breaks no rules. -/
structure CheckReport where
  package : String
  elements : Nat
  publishable : Bool
deriving DecidableEq

def CheckReport.toJson (r : CheckReport) : Json.Value :=
  .object
    [("package", .text r.package), ("elements", .ofNat r.elements),
      ("publishable", .bool r.publishable)]

def Package.checkReport {γ : Type} (p : Package γ) : CheckReport :=
  ⟨p.display, p.size, p.publishable⟩

/-! ## Summaries -/

/-- A package in short: its name and title, how many elements of each kind it holds, and
a line for each element. -/
structure Summary where
  package : String
  title : Option String
  counts : List (Kind × Nat)
  elements : List String
deriving DecidableEq

namespace Summary

/-- The sum of the counts in `s`. -/
def total (s : Summary) : Nat :=
  (s.counts.map Prod.snd).foldl (· + ·) 0

def toJson (s : Summary) : Json.Value :=
  .object
    [("package", .text s.package),
      ("title", match s.title with
        | some title => .text title
        | none => .null),
      ("counts", .list (s.counts.map fun (kind, n) => .list [.text kind.name, .ofNat n])),
      ("elements", .list (s.elements.map .text))]

end Summary

/-- The summary of `p`: the kinds in the order of `Kind.all`, the elements in that of `p`. -/
def Package.describe {γ : Type} (p : Package γ) : Summary where
  package := p.display
  title := p.title
  counts := Kind.all.map fun kind => (kind, (p.elementsOf kind).length)
  elements := p.elements.map Element.display

end MediaManifest
