import MediaManifest.CommandLine.Arguments
import MediaManifest.Operations
import MediaManifest.Report.Tables

/-!
# Execution of commands

A command works on the files it finds, and ends with an exit code, what it
writes to its two outputs, and the files it leaves.
-/

namespace MediaManifest.CommandLine

open Log (Record Directive)
open Operations (Sources)

/-- What a command finds: the files, and the log directives given from outside. -/
structure Surroundings where
  files : FileTree
  logVariable : Option String
  /-- The random generators that may be used, one for each package that is loaded. -/
  random : Nat → Random

/-- How a command ends. -/
structure Ending where
  exitCode : ExitCode
  output : String
  errors : String
  files : FileTree
  /-- Log records that go to the error output. -/
  records : List Record

def versionText : String :=
  "mpkg 0.1.0\n"

def usageText : String :=
  "Merge, filter and check media package manifests\n\n" ++
    "Usage: mpkg [OPTIONS] <COMMAND>\n\n" ++
    "Commands:\n" ++
    "  merge   Merge the elements of SRC into DEST\n" ++
    "  check   Run the sanity check on a package\n" ++
    "  filter  List the elements matching every --where expression\n" ++
    "  show    Summarize a package\n" ++
    "  help    Print this message or the help of the given subcommand(s)\n\n" ++
    "Options:\n" ++
    "  -c, --config <FILE>          Configuration file (TOML)\n" ++
    "      --log-level <LOG_LEVEL>  Log level\n" ++
    "      --log <FILE>             Write JSON logs to this file instead of stderr\n" ++
    "  -v, --verbose                Verbose output (debug logging)\n" ++
    "      --json                   Emit machine-readable JSON instead of tables\n" ++
    "  -h, --help                   Print help\n" ++
    "  -V, --version                Print version\n"

def line (s : String) : String :=
  s ++ "\n"

def warningLine (s : String) : String :=
  line ("⚠ " ++ s)

def errorLines (e : ToolError) : String :=
  line ("✗ Error: " ++ e.message) ++
    if e.isConflict then line "  → Retry with --mode merge, replace or skip" else ""

def sectionHeader (title : String) : String :=
  "\n" ++ line (title ++ " " ++ Text.replicate (50 - min title.utf8ByteSize 40) "─")

def settingsIn (files : FileTree) (path : String) : Except ToolError Settings :=
  match files.readText path with
  | .error problem => .error (.io problem.message)
  | .ok s => (Settings.ofText s).mapError fun fault => .config fault.message

/-- The settings in the file at `path`, or the standard ones with a warning. -/
def loadSettings (files : FileTree) (path : Option String) : Settings × String :=
  match path with
  | none => (.standard, "")
  | some path =>
    match settingsIn files path with
    | .ok settings => (settings, "")
    | .error e => (.standard, warningLine ("Failed to load config file: " ++ e.message))

/-- The `settings` with the `options` of the command line over them. -/
def Options.over (options : Options) (settings : Settings) : Settings :=
  { settings with
    logLevel := options.logLevel.getD settings.logLevel
    logFile := options.log <|> settings.logFile
    verbose := settings.verbose || options.verbose }

/-- The directives that say what is logged: the ones of `logVariable`, given from outside, if they
are in order, and else those of the `settings`. -/
def directives (settings : Settings) (logVariable : Option String) : List Directive :=
  match logVariable.bind Directive.parseAll with
  | some ds => ds
  | none => (Directive.parseAll settings.directive).getD []

/-- Opens the log: a log file is created empty.  If that fails, a warning says so and
nothing is logged. -/
def openLog (settings : Settings) (logVariable : Option String) (files : FileTree) :
    Desk × String :=
  let directives := directives settings logVariable
  match settings.logFile with
  | none => (⟨files, directives, .errors, [], 0⟩, "")
  | some path =>
    match files.target path with
    | .ok names => (⟨files.put names (.file (.text "")), directives, .file names, [], 0⟩, "")
    | .error problem =>
      let e : ToolError := .config ("Failed to create log file: " ++ problem.message)
      (.quiet files, line ("Warning: Failed to initialize logging: " ++ e.message))

/-- What a command prints: to its output, and to the error output. -/
structure Printed where
  output : String
  errors : String

def Printed.text (s : String) : Printed :=
  ⟨s, ""⟩

def effectiveMode (settings : Settings) (mode : Option Mode) : Mode :=
  mode.getD settings.mergeMode

def printMerge (json : Bool) (r : MergeReport) : Printed :=
  .text <|
    if json then line r.toJson.pretty
    else sectionHeader "Merge" ++ line (Report.merge r) ++ line ("✓ " ++ r.display)

def printCheck (json : Bool) (r : CheckReport) : Printed :=
  if json then .text (line r.toJson.pretty)
  else
    ⟨line (Report.check r),
      if r.publishable then ""
      else warningLine "Package needs a title and at least one track to publish"⟩

def printElements (json : Bool) (es : List Element) : Printed :=
  .text <|
    if json then line (Json.Value.list (es.map Element.toJson)).pretty
    else if es.isEmpty then line "ℹ No matching elements"
    else line (Report.elements es)

def printPackage {γ : Type} (settings : Settings) (json : Bool) (p : Package γ) : Printed :=
  .text <|
    if json then line (Operations.render settings p)
    else
      sectionHeader ("Package " ++ p.describe.package) ++ line (Report.summary p.describe) ++
        if p.isEmpty then "" else line (Report.elements p.elements)

/-- Runs the operation of a command at `desk` and says what is printed of its result. -/
def Command.run (settings : Settings) (json : Bool) (sources : Sources) (desk : Desk) :
    Command → Ran Printed
  | .merge dest src mode output =>
    (Operations.merge settings sources desk dest src output (effectiveMode settings mode)).map
      (printMerge json)
  | .check file => (Operations.check sources.dest desk file).map (printCheck json)
  | .filter file expressions =>
    (Operations.filter sources.dest desk file expressions).map (printElements json)
  | .summarize file =>
    (Operations.load sources.dest desk file).map (printPackage settings json)

def failureRecord (e : ToolError) : Record :=
  ⟨.debug, "mpkg", "Command failed", [("category", .text e.category.name)]⟩

def execute (s : Surroundings) (options : Options) (command : Command) : Ending :=
  let (settings, configWarning) := loadSettings s.files options.config
  let settings := options.over settings
  let (desk, logWarning) := openLog settings s.logVariable s.files
  let sources : Sources := ⟨settings.source (s.random 0), settings.source (s.random 1)⟩
  let ran := command.run settings options.json sources desk
  let warnings := configWarning ++ logWarning
  match ran.result with
  | .ok printed =>
    ⟨.success, printed.output, warnings ++ printed.errors, ran.desk.files, ran.desk.shown⟩
  | .error e =>
    let desk := ran.desk.note (failureRecord e)
    ⟨e.exitCode, "", warnings ++ errorLines e, desk.files, desk.shown⟩

def run (s : Surroundings) (args : List String) : Ending :=
  match parse args with
  | some (.run options command) => execute s options command
  | some .help => ⟨.success, usageText, "", s.files, []⟩
  | some .version => ⟨.success, versionText, "", s.files, []⟩
  | none => ⟨.fatal, "", usageText, s.files, []⟩

end MediaManifest.CommandLine
