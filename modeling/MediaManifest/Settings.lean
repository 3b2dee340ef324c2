import MediaManifest.Toml.Document
import MediaManifest.Merge.Mode
import MediaManifest.Log.Level
import MediaManifest.Identifier.Source

/-!
# Settings

The settings of the tool are kept in a TOML file.  A setting that is not given
has its standard value, and keys that are no settings are ignored.
-/

namespace MediaManifest

/-- The settings of the tool. -/
structure Settings where
  mergeMode : Mode
  logLevel : Log.Level
  /-- The file that log records go to instead of the error output. -/
  logFile : Option String
  /-- Messages for debugging are logged whatever the log level. -/
  verbose : Bool
  /-- Documents are written over several lines. -/
  pretty : Bool
  /-- What fresh identifiers start with; they are random if it is not given. -/
  idStem : Option String
deriving DecidableEq

namespace Settings

def standard : Settings :=
  ⟨.standard, .info, none, false, true, none⟩

/-- What is wrong with a file of settings. -/
inductive Fault where
  /-- It is no TOML, or holds a numeral without a number. -/
  | form
  | invalidType (found : Found) (expected : Expected)
  | unknownVariant (name : String) (known : List String)
  /-- A name from a list is given neither as a text nor as a table. -/
  | notNameable
  /-- A name from a list is given as a table without exactly one key. -/
  | notOneKey
  /-- A name from a list is given as the key of something that is not empty. -/
  | notEmpty
deriving DecidableEq

/-- The wording of a fault; its last line tells what is wrong with a setting. -/
def Fault.message : Fault → String
  | form => "TOML parse error"
  | invalidType found expected =>
    "TOML parse error\n" ++ MediaManifest.invalidType found expected
  | unknownVariant name known =>
    "TOML parse error\n" ++ MediaManifest.unknownVariant name known
  | notNameable => "TOML parse error\nwanted string or table"
  | notOneKey => "TOML parse error\nwanted exactly 1 element"
  | notEmpty => "TOML parse error\nexpected empty table"

open Toml (Value Entries)

/-- What is wrong with a `value` where something else is `expected`. -/
def mismatch (value : Value) (expected : Expected) : Fault :=
  match value.found? with
  | some found => .invalidType found expected
  | none => .form

def readText (expected : Expected) : Value → Except Fault String
  | .text s => .ok s
  | value => .error (mismatch value expected)

def readFlag : Value → Except Fault Bool
  | .boolean b => .ok b
  | value => .error (mismatch value .boolean)

def named {α : Type} (ofName? : String → Option α) (known : List String) (name : String) :
    Except Fault α :=
  match ofName? name with
  | some a => .ok a
  | none => .error (.unknownVariant name known)

/-- Whether a value is a list or a table without anything in it. -/
def isEmptyValue : Value → Bool
  | .list [] => true
  | .table _ [] => true
  | .tables [] => true
  | _ => false

/-- Reads a name from the list `known`: a text, or a table with the name as its only key and
nothing under it. -/
def readName {α : Type} (ofName? : String → Option α) (known : List String) :
    Value → Except Fault α
  | .text s => named ofName? known s
  | .table _ [(key, value)] =>
    match named ofName? known key with
    | .error fault => .error fault
    | .ok a => if isEmptyValue value then .ok a else .error .notEmpty
  | .table _ _ => .error .notOneKey
  | _ => .error .notNameable

/-- The settings `s` with the one under `key` read from a `value`.  Under a key that is no setting
every numeral must have a number all the same. -/
def set (s : Settings) (key : String) (value : Value) : Except Fault Settings :=
  match key with
  | "id_prefix" => (readText .text value).map fun stem => { s with idStem := some stem }
  | "log_file" => (readText .path value).map fun path => { s with logFile := some path }
  | "log_level" =>
    (readName Log.Level.ofName? (Log.Level.all.map Log.Level.name) value).map
      fun level => { s with logLevel := level }
  | "merge_mode" =>
    (readName Mode.ofName? (Mode.all.map Mode.name) value).map
      fun mode => { s with mergeMode := mode }
  | "pretty" => (readFlag value).map fun b => { s with pretty := b }
  | "verbose" => (readFlag value).map fun b => { s with verbose := b }
  | _ => if value.isHeld then .ok s else .error .form

/-- Reads settings; of several faults the one of the alphabetically first key counts. -/
def ofEntries (entries : Entries) : Except Fault Settings :=
  (entries.mergeSort fun a b => decide (a.1 ≤ b.1)).foldlM
    (fun s (key, value) => s.set key value) standard

def ofText (s : String) : Except Fault Settings :=
  match Toml.entries? s with
  | some entries => ofEntries entries
  | none => .error .form

def settingLine (key value : String) : String :=
  key ++ " = " ++ value ++ "\n"

def optionalLine (key : String) (value : Option String) : String :=
  match value with
  | some s => settingLine key (Toml.quote s)
  | none => ""

def flagText (b : Bool) : String :=
  if b then "true" else "false"

/-- The settings `s` as text, a line for each that is given. -/
def text (s : Settings) : String :=
  settingLine "merge_mode" (Toml.quote s.mergeMode.name) ++
    settingLine "log_level" (Toml.quote s.logLevel.name) ++
    optionalLine "log_file" s.logFile ++
    settingLine "verbose" (flagText s.verbose) ++
    settingLine "pretty" (flagText s.pretty) ++
    optionalLine "id_prefix" s.idStem

def effectiveLevel (s : Settings) : Log.Level :=
  if s.verbose then .debug else s.logLevel

/-- The parts of the program whose messages are logged. -/
def logTargets : List String :=
  ["mpkg", "mpkg_core_manifest"]

/-- The directive that logs every part of the program up to a `level`. -/
def directiveFor (level : Log.Level) : String :=
  Text.join "," (logTargets.map fun target => target ++ "=" ++ level.title)

/-- The directive where none is given from outside. -/
def directive (s : Settings) : String :=
  directiveFor s.effectiveLevel

/-- A fresh source of identifiers: numbered ones if the settings give a stem, and otherwise
the ones that `random` draws. -/
def source (s : Settings) (random : Random) : Source :=
  match s.idStem with
  | some stem => .sequential (.ofStem stem)
  | none => .random random

end Settings

end MediaManifest
