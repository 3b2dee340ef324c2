import MediaManifest.Package.Basic
import MediaManifest.Merge.Report

/-!
# Merging packages

The elements of the source are added to the target one after the other.  Where
the target already holds an element under the same identifier, the mode
decides.  The target looked at is the one that has grown so far.
-/

namespace MediaManifest.Package

variable {γ : Type} [Generator γ]

/-- The `result` of adding an element, told as an outcome. -/
def reportAs (outcome : String → Outcome) (result : Except Error String × Package γ) :
    Except Error Outcome × Package γ :=
  (result.1.map outcome, result.2)

/-- Merges the element `e` of the source into `dest`. -/
def mergeElement (mode : Mode) (dest : Package γ) (e : Element) :
    Except Error Outcome × Package γ :=
  match e.id.filter dest.contains with
  | none => reportAs .added (dest.add e)
  | some id =>
    match mode with
    | .replace => reportAs (fun _ => .replaced id) ((dest.removeById id).2.add e)
    | .skip => (.ok (.skipped id), dest)
    | .merge => reportAs (.renamed id) (dest.add { e with id := none })
    | .fail => (.error (.conflict dest.display id), dest)

/-- Merges elements of the source into `dest` one after the other, up to the first that fails. -/
def mergeElements (mode : Mode) (dest : Package γ) :
    List Element → Except Error (List Outcome) × Package γ
  | [] => (.ok [], dest)
  | e :: rest =>
    match mergeElement mode dest e with
    | (.error error, dest) => (.error error, dest)
    | (.ok outcome, dest) =>
      let (outcomes, dest) := mergeElements mode dest rest
      (outcomes.map (outcome :: ·), dest)

/-- The first of the identifiers `ids` that `dest` holds. -/
def firstConflict? (dest : Package γ) (ids : List String) : Option String :=
  ids.find? dest.contains

/-- Merges the source into the target.  Mode `fail` looks for conflicts before anything
is added.  Mode `merge` first reserves the identifiers of the source, so that no fresh
one meets an identifier still to come. -/
def merge {δ : Type} (mode : Mode) (dest : Package γ) (src : Package δ) :
    Except Error MergeReport × Package γ :=
  let conflict := if mode = .fail then firstConflict? dest src.ids else none
  match conflict with
  | some id => (.error (.conflict dest.display id), dest)
  | none =>
    let dest :=
      if mode = .merge then
        { dest with generator := Generator.reserveAll src.ids dest.generator }
      else dest
    let (outcomes, dest) := mergeElements mode dest src.elements
    (outcomes.map (⟨mode, ·⟩), dest)

end MediaManifest.Package
