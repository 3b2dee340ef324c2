import MediaManifest.Codec.Decoding
import MediaManifest.Codec.Encoding
import MediaManifest.Desk
import MediaManifest.Filter.Expression
import MediaManifest.Package.Merge
import MediaManifest.Package.Overview
import MediaManifest.Settings
import MediaManifest.ToolError

/-!
# Operations on package files

Packages are loaded from files, worked on, and written back.  Each operation
gives its result and the desk as it leaves it.  Every load draws identifiers
from a source of its own.
-/

namespace MediaManifest

open Log (Record)

/-- What an operation gives: its result, and the desk afterwards. -/
structure Ran (α : Type) where
  result : Except ToolError α
  desk : Desk

namespace Ran

/-- Goes on with the result of the operation `ran`, unless it failed. -/
def andThen {α β : Type} (ran : Ran α) (next : α → Desk → Ran β) : Ran β :=
  match ran.result with
  | .ok a => next a ran.desk
  | .error e => ⟨.error e, ran.desk⟩

/-- Changes the result of the operation `ran` by `f`, unless it failed. -/
def map {α β : Type} (f : α → β) (ran : Ran α) : Ran β :=
  ⟨ran.result.map f, ran.desk⟩

end Ran

namespace Operations

/-- The part of the program that the records of operations come from. -/
def target : String :=
  "mpkg::ops"

/-- The part of the program that the records of merges come from. -/
def mergeTarget : String :=
  "mpkg_core_manifest::merge"

variable {γ δ : Type}

def loadedRecord (path : String) (p : Package γ) : Record :=
  ⟨.debug, target, "Loaded media package",
    [("path", .text path), ("package", .text p.display), ("elements", .ofNat p.size)]⟩

def savedRecord (path : String) (p : Package γ) : Record :=
  ⟨.debug, target, "Saved media package", [("path", .text path), ("package", .text p.display)]⟩

def mergingRecord (dest : Package γ) (src : Package δ) (mode : Mode) : Record :=
  ⟨.info, target, "Merging media packages",
    [("target_package", .text dest.display), ("source_package", .text src.display),
      ("mode", .text mode.name)]⟩

/-- What a merge does with an element that meets its identifier in the target, if it
does. -/
def conflictWord? : Outcome → Option (String × String)
  | .added _ => none
  | .replaced id => some ("Replacing", id)
  | .skipped id => some ("Skipping", id)
  | .renamed source _ => some ("Renaming", source)

/-- The records of the merge of `src` into `dest` that is told by `r`: one for each conflict, and
one for the whole. -/
def mergeRecords (dest : Package γ) (src : Package δ) (r : MergeReport) : List Record :=
  r.outcomes.filterMap (fun outcome =>
    (conflictWord? outcome).map fun (word, id) =>
      ⟨.debug, mergeTarget,
        word ++ " element " ++ id ++ " while merging " ++ dest.display ++ " with " ++
          src.display, []⟩) ++
    [⟨.info, mergeTarget, "Merged media packages",
      [("package", .text dest.display), ("source", .text src.display),
        ("mode", .text r.mode.name), ("added", .ofNat r.added),
        ("conflicts", .ofNat r.conflicts)]⟩]

def loadPackage (source : Source) (files : FileTree) (path : String) :
    Except ToolError (Package Source) :=
  if files.has path then
    match files.read path with
    | .error problem => .error (.io problem.message)
    | .ok content => (Codec.decode source content).1.mapError .manifest
  else .error (.notFound path)

def load (source : Source) (desk : Desk) (path : String) : Ran (Package Source) :=
  match loadPackage source desk.files path with
  | .error e => ⟨.error e, desk⟩
  | .ok p => ⟨.ok p, desk.note (loadedRecord path p)⟩

/-- The package `p` as text in the layout of the `settings`. -/
def render (settings : Settings) (p : Package γ) : String :=
  p.encode settings.pretty

def save (settings : Settings) (desk : Desk) (path : String) (p : Package γ) : Ran Unit :=
  match desk.files.write path (.text (render settings p)) with
  | .error problem => ⟨.error (.io problem.message), desk⟩
  | .ok files => ⟨.ok (), { desk with files := files }.note (savedRecord path p)⟩

/-- The two sources that a merge of files draws identifiers from. -/
structure Sources where
  dest : Source
  src : Source

/-- Merges the package in the file `src` into that in the file `dest`.  The result is written to
`output` if it is given, and over `dest` otherwise; nothing is written if anything fails before. -/
def merge (settings : Settings) (sources : Sources) (desk : Desk) (dest src : String)
    (output : Option String) (mode : Mode) : Ran MergeReport :=
  (load sources.dest desk dest).andThen fun p desk =>
    (load sources.src desk src).andThen fun q desk =>
      let desk := desk.note (mergingRecord p q mode)
      match p.merge mode q with
      | (.error e, _) => ⟨.error (.manifest e), desk⟩
      | (.ok report, merged) =>
        let desk := desk.noteAll (mergeRecords p q report)
        (save settings desk (output.getD dest) merged).map fun _ => report

def violationRecord (p : Package γ) (message : String) : Record :=
  ⟨.warn, target, message, [("package", .text p.display)]⟩

/-- Checks the package in the file at `path`; one that breaks rules is an error. -/
def check (source : Source) (desk : Desk) (path : String) : Ran CheckReport :=
  (load source desk path).andThen fun p desk =>
    match p.violations with
    | [] => ⟨.ok p.checkReport, desk⟩
    | violations =>
      let messages := violations.map Violation.message
      ⟨.error (.sanityCheck p.display messages), desk.noteAll (messages.map (violationRecord p))⟩

def filteredRecord (f : Filter) (selected : List Element) : Record :=
  ⟨.debug, target, "Filtered elements",
    [("filter", .text f.display), ("matched", .ofNat selected.length)]⟩

/-- The elements of the package in the file at `path` that all `expressions` ask for.  The
expressions are looked at before the file. -/
def filter (source : Source) (desk : Desk) (path : String) (expressions : List String) :
    Ran (List Element) :=
  match Filter.ofExpressions expressions with
  | .error e => ⟨.error (.manifest e), desk⟩
  | .ok f =>
    (load source desk path).andThen fun p desk =>
      let selected := f.select p.elements
      ⟨.ok selected, desk.note (filteredRecord f selected)⟩

end Operations

end MediaManifest
