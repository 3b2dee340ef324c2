import MediaManifest.Error

/-!
# Errors of the tool

What the tool reports: an error of a package operation, or of its surroundings.
Each has a category for the log and an exit code.
-/

namespace MediaManifest

/-- Why a command of the tool fails. -/
inductive ToolError where
  /-- There is no package file at the `path`. -/
  | notFound (path : String)
  | io (reason : String)
  | config (reason : String)
  | manifest (error : Error)
  /-- The package breaks rules, each given by its message. -/
  | sanityCheck (package : String) (violations : List String)
  | other (text : String)
deriving DecidableEq

/-- The categories of errors. -/
inductive Category where
  | io
  | configuration
  | conflict
  | validation
  | unsupported
  | codec
  | unknown
deriving DecidableEq

def Category.name : Category → String
  | io => "io"
  | configuration => "configuration"
  | conflict => "conflict"
  | validation => "validation"
  | unsupported => "unsupported"
  | codec => "codec"
  | unknown => "unknown"

/-- How the tool ends: well, with broken rules, with an error, or with a conflict. -/
inductive ExitCode where
  | success
  | partly
  | fatal
  | conflict
deriving DecidableEq

def ExitCode.toNat : ExitCode → Nat
  | success => 0
  | partly => 1
  | fatal => 2
  | conflict => 3

namespace ToolError

def message : ToolError → String
  | notFound path => "Media package not found: " ++ path
  | io reason => "I/O error: " ++ reason
  | config reason => "Configuration error: " ++ reason
  | manifest error => error.message
  | sanityCheck package violations =>
    "Media package " ++ package ++ " failed sanity check: " ++ Text.join ", " violations
  | other text => text

def exitCode : ToolError → ExitCode
  | manifest (.conflict _ _) => .conflict
  | manifest (.validation _) => .partly
  | sanityCheck _ _ => .partly
  | _ => .fatal

/-- No error ends with success. -/
theorem exitCode_ne_success (e : ToolError) : e.exitCode ≠ .success := by
  unfold exitCode
  split <;> decide

def isConflict : ToolError → Bool
  | manifest error => error.isConflict
  | _ => false

def hasSource : ToolError → Bool
  | io _ => true
  | manifest _ => true
  | _ => false

def category : ToolError → Category
  | notFound _ => .io
  | io _ => .io
  | config _ => .configuration
  | sanityCheck _ _ => .validation
  | other _ => .unknown
  | manifest error =>
    match error with
    | .invalidMergeMode _ => .configuration
    | .conflict _ _ => .conflict
    | .validation _ => .validation
    | .unsupportedElement _ => .unsupported
    | .codec _ => .codec
    | .schema _ => .codec
    | .invalidFlavor _ => .codec
    | .duplicateElement _ => .unknown
    | .invalidFilter _ => .unknown

end ToolError

end MediaManifest
