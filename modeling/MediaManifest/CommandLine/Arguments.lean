import MediaManifest.Log.Level
import MediaManifest.Merge.Mode
import MediaManifest.Text.Cut

/-!
# Command line arguments

A command line names a command, after options that hold for all commands, and
before options and operands of the command.  The options for all commands may
also stand behind it, and then win.  An option is given once on either side.
-/

namespace MediaManifest.CommandLine

/-- What an option can be. -/
inductive Switch where
  | config
  | logLevel
  | log
  | verbose
  | json
  | mode
  | output
  | expression
  | help
  | version
deriving DecidableEq

namespace Switch

def long : Switch → String
  | config => "config"
  | logLevel => "log-level"
  | log => "log"
  | verbose => "verbose"
  | json => "json"
  | mode => "mode"
  | output => "output"
  | expression => "where"
  | help => "help"
  | version => "version"

def letter? : Switch → Option Char
  | config => some 'c'
  | verbose => some 'v'
  | mode => some 'm'
  | output => some 'o'
  | expression => some 'w'
  | help => some 'h'
  | version => some 'V'
  | logLevel | log | json => none

def hasValue : Switch → Bool
  | verbose | json | help | version => false
  | _ => true

def common : List Switch :=
  [config, logLevel, log, verbose, json, help]

end Switch

/-- What was given on one side of the name of the command. -/
structure Given where
  config : Option String
  logLevel : Option Log.Level
  log : Option String
  verbose : Bool
  json : Bool
  mode : Option Mode
  output : Option String
  expressions : List String
  operands : List String

namespace Given

def nothing : Given :=
  ⟨none, none, none, false, false, none, none, [], []⟩

def once {α : Type} (old new : Option α) : Option (Option α) :=
  if old.isSome then none else new.map some

def path? (s : String) : Option String :=
  if s = "" then none else some s

/-- Takes an option with its `value`, if it may be given and the value is one of its. -/
def take (g : Given) (value : String) : Switch → Option Given
  | .config => (once g.config (path? value)).map fun v => { g with config := v }
  | .logLevel => (once g.logLevel (Log.Level.ofName? value)).map fun v =>
    { g with logLevel := v }
  | .log => (once g.log (path? value)).map fun v => { g with log := v }
  | .mode => (once g.mode (Mode.ofName? value)).map fun v => { g with mode := v }
  | .output => (once g.output (path? value)).map fun v => { g with output := v }
  | .expression => some { g with expressions := g.expressions ++ [value] }
  | .verbose => if g.verbose then none else some { g with verbose := true }
  | .json => if g.json then none else some { g with json := true }
  | .help | .version => none

/-- Takes `operands` up to a `limit`; none may be empty. -/
def takeOperands (limit : Nat) (g : Given) (operands : List String) : Option Given :=
  let all := g.operands ++ operands
  if all.contains "" || limit < all.length then none
  else some { g with operands := all }

end Given

/-- What the arguments on one side of the name of the command come to. -/
inductive Scan where
  | finished (g : Given)
  /-- The name of a command, and the arguments behind it. -/
  | command (g : Given) (name : String) (rest : List String)
  | help
  | version
  | refused

/-- What a cluster of letters comes to. -/
inductive Cluster where
  | finished (g : Given)
  /-- The last option of the cluster has its value in the next argument. -/
  | pending (g : Given) (switch : Switch)
  | help
  | version
  | refused

/-- The outcome of an option that was taken or not. -/
def Cluster.ofTaken : Option Given → Cluster
  | some g => .finished g
  | none => .refused

/-- Reads the letters of a cluster.  What follows the letter of an option with a value is
that value, an equals sign aside. -/
def readCluster (known : List Switch) (g : Given) : List Char → Cluster
  | [] => .finished g
  | c :: cs =>
    match known.find? fun s => s.letter? == some c with
    | none => .refused
    | some .help => .help
    | some .version => .version
    | some switch =>
      if switch.hasValue then
        match cs with
        | [] => .pending g switch
        | '=' :: value => .ofTaken (g.take (String.ofList value) switch)
        | value => .ofTaken (g.take (String.ofList value) switch)
      else
        match g.take "" switch with
        | some g => readCluster known g cs
        | none => .refused

/-- Reads a long option with the value that stands behind its equals sign, if there is
one. -/
def readLong (known : List Switch) (g : Given) (name : String) (value : Option String) :
    Cluster :=
  match known.find? fun s => s.long == name, value with
  | none, _ => .refused
  | some .help, none => .help
  | some .version, none => .version
  | some switch, none =>
    if switch.hasValue then .pending g switch else .ofTaken (g.take "" switch)
  | some switch, some value =>
    if switch.hasValue then .ofTaken (g.take value switch) else .refused

/-- Whether an argument is an option or ends the options. -/
def isOption (arg : String) : Bool :=
  match arg.toList with
  | '-' :: _ :: _ => true
  | _ => false

def readOption (known : List Switch) (g : Given) (arg : String) : Cluster :=
  match arg.toList with
  | '-' :: '-' :: name =>
    match Text.cutChars '=' name with
    | some (name, value) =>
      readLong known g (String.ofList name) (some (String.ofList value))
    | none => readLong known g (String.ofList name) none
  | '-' :: letters => readCluster known g letters
  | _ => .refused

/-- Reads the arguments on one side of the name of the command.  Behind it there may be
operands up to a limit; in front of it there is no limit, and the first argument that is
no option is that name. -/
def scan (limit? : Option Nat) (known : List Switch) (g : Given) : List String → Scan
  | [] => .finished g
  | arg :: rest =>
    if arg = "--" then
      match limit?.bind fun limit => g.takeOperands limit rest with
      | some g => .finished g
      | none => .refused
    else if isOption arg then
      match readOption known g arg with
      | .finished g => scan limit? known g rest
      | .help => .help
      | .version => .version
      | .refused => .refused
      | .pending g switch =>
        match rest with
        | [] => .refused
        | value :: rest =>
          if isOption value then .refused
          else
            match g.take value switch with
            | some g => scan limit? known g rest
            | none => .refused
    else
      match limit? with
      | none => .command g arg rest
      | some limit =>
        match g.takeOperands limit [arg] with
        | some g => scan limit? known g rest
        | none => .refused

/-- What the tool is to do. -/
inductive Command where
  | merge (dest src : String) (mode : Option Mode) (output : Option String)
  | check (file : String)
  | filter (file : String) (expressions : List String)
  | summarize (file : String)
deriving DecidableEq

/-- The options that hold for all commands. -/
structure Options where
  config : Option String
  logLevel : Option Log.Level
  log : Option String
  verbose : Bool
  json : Bool
deriving DecidableEq

/-- What a command line asks for. -/
inductive Request where
  | run (options : Options) (command : Command)
  | help
  | version
deriving DecidableEq

def commandNames : List String :=
  ["merge", "check", "filter", "show"]

/-- The options that a command has besides those for all commands. -/
def ownSwitches : String → List Switch
  | "merge" => [.mode, .output]
  | "filter" => [.expression]
  | _ => []

def operandCount : String → Nat
  | "merge" => 2
  | _ => 1

/-- The command called `name`, from what was given behind it. -/
def Command.ofGiven? (name : String) (g : Given) : Option Command :=
  match name, g.operands with
  | "merge", [dest, src] => some (.merge dest src g.mode g.output)
  | "check", [file] => some (.check file)
  | "filter", [file] => some (.filter file g.expressions)
  | "show", [file] => some (.summarize file)
  | _, _ => none

/-- The options given on both sides of the name of the command. -/
def Options.ofGiven (front back : Given) : Options :=
  ⟨back.config <|> front.config, back.logLevel <|> front.logLevel, back.log <|> front.log,
    back.verbose || front.verbose, back.json || front.json⟩

def parseCommand (front : Given) (name : String) (rest : List String) : Option Request :=
  if commandNames.contains name then
    match scan (some (operandCount name)) (Switch.common ++ ownSwitches name) .nothing rest with
    | .finished back =>
      (Command.ofGiven? name back).map fun command => .run (.ofGiven front back) command
    | .help => some .help
    | _ => none
  else if name = "help" then
    match rest with
    | [] => some .help
    | [topic] => if commandNames.contains topic ∨ topic = "help" then some .help else none
    | _ => none
  else none

/-- What the arguments ask for; `none` if they are not in order. -/
def parse (args : List String) : Option Request :=
  match scan none (Switch.common ++ [.version]) .nothing args with
  | .command front name rest => parseCommand front name rest
  | .help => some .help
  | .version => some .version
  | .finished _ => none
  | .refused => none

end MediaManifest.CommandLine
