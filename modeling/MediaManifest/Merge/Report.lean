import MediaManifest.Merge.Mode
import MediaManifest.Json.Value

/-!
# Merge reports

A report tells what became of each element of the source, in order.
-/

namespace MediaManifest

/-- What became of an element of the source. -/
inductive Outcome where
  | added (id : String)
  /-- It took the place of the target's element. -/
  | replaced (id : String)
  /-- It was dropped in favour of the target's element. -/
  | skipped (id : String)
  /-- It was added under a fresh identifier. -/
  | renamed (source target : String)
deriving DecidableEq

namespace Outcome

def name : Outcome → String
  | added _ => "added"
  | replaced _ => "replaced"
  | skipped _ => "skipped"
  | renamed _ _ => "renamed"

def toJson (o : Outcome) : Json.Value :=
  let tag := ("outcome", Json.Value.text o.name)
  match o with
  | added id | replaced id | skipped id => .object [tag, ("id", .text id)]
  | renamed source target => .object [tag, ("from", .text source), ("to", .text target)]

end Outcome

/-- The mode of a merge and what became of each element. -/
structure MergeReport where
  mode : Mode
  outcomes : List Outcome
deriving DecidableEq

namespace MergeReport

/-- How many elements were added under their own identifier without a conflict. -/
def added (r : MergeReport) : Nat :=
  r.outcomes.countP fun | .added _ => true | _ => false

def replaced (r : MergeReport) : Nat :=
  r.outcomes.countP fun | .replaced _ => true | _ => false

def skipped (r : MergeReport) : Nat :=
  r.outcomes.countP fun | .skipped _ => true | _ => false

/-- How many elements were added under a fresh identifier. -/
def renamed (r : MergeReport) : Nat :=
  r.outcomes.countP fun | .renamed _ _ => true | _ => false

/-- How many elements met their identifier in the target. -/
def conflicts (r : MergeReport) : Nat :=
  r.replaced + r.skipped + r.renamed

def display (r : MergeReport) : String :=
  r.mode.name ++ " merge: " ++ Text.decimal r.added ++ " added, " ++
    Text.decimal r.replaced ++ " replaced, " ++ Text.decimal r.skipped ++ " skipped, " ++
    Text.decimal r.renamed ++ " renamed"

def toJson (r : MergeReport) : Json.Value :=
  .object [("mode", .text r.mode.name), ("outcomes", .list (r.outcomes.map Outcome.toJson))]

end MergeReport

end MediaManifest
