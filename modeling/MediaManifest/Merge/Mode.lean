import MediaManifest.Error

/-!
# Merge modes
-/

namespace MediaManifest

/-- What a merge does with an element whose identifier the target already holds: add it
under a fresh identifier, let it take the other's place, drop it, or fail. -/
inductive Mode where
  | merge
  | replace
  | skip
  | fail
deriving DecidableEq

namespace Mode

def all : List Mode :=
  [merge, replace, skip, fail]

def name : Mode → String
  | merge => "merge"
  | replace => "replace"
  | skip => "skip"
  | fail => "fail"

def ofName? : String → Option Mode
  | "merge" => some merge
  | "replace" => some replace
  | "skip" => some skip
  | "fail" => some fail
  | _ => none

/-- The mode that the text `s` names without regard to ASCII case. -/
def parse (s : String) : Except Error Mode :=
  match ofName? (Text.lowerAscii s) with
  | some mode => .ok mode
  | none => .error (.invalidMergeMode s)

def standard : Mode :=
  merge

@[simp] theorem ofName?_name (mode : Mode) : ofName? mode.name = some mode := by
  cases mode <;> rfl

end Mode

end MediaManifest
