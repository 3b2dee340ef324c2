import MediaManifest.Package.Merge
import MediaManifest.Identifier.Source

/-!
# Workspaces

A workspace holds packages by name.  Copies of a package share its source of
identifiers: the workspace keeps the sources in a table, and a package says
which one it draws from.  What is drawn stays drawn, whatever becomes of the
package that it was drawn for.
-/

namespace MediaManifest

/-- Packages by name, and the sources of identifiers that they share. -/
structure Workspace where
  sources : Array Source
  packages : List (String × Package Nat)

namespace Workspace

def empty : Workspace :=
  ⟨#[], []⟩

def package? (w : Workspace) (name : String) : Option (Package Nat) :=
  w.packages.lookup name

/-- Holds the package `p` under `name`, instead of the one that had it. -/
def store (w : Workspace) (name : String) (p : Package Nat) : Workspace :=
  { w with packages := w.packages.filter (·.1 != name) ++ [(name, p)] }

def source (w : Workspace) (n : Nat) : Source :=
  w.sources.getD n (.listed ⟨[]⟩)

/-- Adds the source `s` to the table and answers its number. -/
def addSource (w : Workspace) (s : Source) : Nat × Workspace :=
  (w.sources.size, { w with sources := w.sources.push s })

/-- The package `p` with its source in place of the number of the source. -/
def equip (w : Workspace) (p : Package Nat) : Package Source :=
  { p with generator := w.source p.generator }

/-- Lets an `operation` work on `p`, and keeps what was drawn from its source. -/
def act {α : Type} (w : Workspace) (p : Package Nat)
    (operation : Package Source → α × Package Source) : α × Package Nat × Workspace :=
  let (answer, q) := operation (w.equip p)
  (answer, { q with generator := p.generator },
    { w with sources := w.sources.setIfInBounds p.generator q.generator })

/-- The package `p` with the source `n` of the table as its own; the source is told of the
identifiers in the package. -/
def share (w : Workspace) (p : Package Nat) (n : Nat) : Package Nat × Workspace :=
  let q := (w.equip p).withGenerator (w.source n)
  ({ p with generator := n },
    { w with sources := w.sources.setIfInBounds n q.generator })

def withSource (w : Workspace) (p : Package Nat) (s : Source) : Package Nat × Workspace :=
  let (n, w) := w.addSource s
  w.share p n

/-- A package of the given `elements` in the workspace `w`, or the error of the first that cannot
be added. -/
def build (w : Workspace) (identifier title : Option String) (s : Source)
    (elements : List Element) : Except Error (Package Nat × Workspace) :=
  let (n, w) := w.addSource s
  let p : Package Nat := { Package.ofGenerator n with identifier := identifier, title := title }
  match w.act p fun p => p.addAll elements with
  | (.error error, _, _) => .error error
  | (.ok _, p, w) => .ok (p, w)

end Workspace

end MediaManifest
