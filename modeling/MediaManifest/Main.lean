import MediaManifest.CommandLine.Execution

/-!
# The tool

The files that a command names are read first.  The command is then executed on
what was read, and the files that it changed are written back.
-/

namespace MediaManifest.Main

open CommandLine (Command Request Surroundings)
open Text (Content)

def commandPaths : Command → List String
  | .merge dest src _ output => [dest, src] ++ output.toList
  | .check file => [file]
  | .filter file _ => [file]
  | .summarize file => [file]

def systemPath (path : List String) : String :=
  "/" ++ Text.join "/" path

/-- What stands at the names of `path`: reading tells files from directories. -/
def readNode (path : List String) : IO (Option FileTree.Node) := do
  try
    let bytes ← IO.FS.readBinFile (systemPath path)
    return some (.file (.ofBytes bytes))
  catch
    | .inappropriateType _ code _ => return if code == 21 then some .directory else none
    | _ => return none

/-- Adds what stands on the way along names from the directory `here` to the tree `t`. -/
def readAlong (t : FileTree) (here : List String) : List String → IO FileTree
  | [] => return t
  | name :: rest => do
    if name = "" ∨ name = "." then readAlong t here rest
    else if name = ".." then readAlong t here.dropLast rest
    else
      let path := here ++ [name]
      match t.node? path, ← readNode path with
      | none, some node => readAlong (t.put path node) path rest
      | _, _ => readAlong t path rest

/-- Adds what stands on the way of `path` to the tree `t`. -/
def readPath (t : FileTree) (path : String) : IO FileTree :=
  match Text.split (· == '/') path with
  | "" :: names => readAlong t [] names
  | names => readAlong t t.here names

/-- The files that a request names, and those that the settings among them name. -/
def readFiles (t : FileTree) : Request → IO FileTree
  | .run options command => do
    let t ← (options.config.toList ++ options.log.toList ++ commandPaths command).foldlM
      readPath t
    let (settings, _) := CommandLine.loadSettings t options.config
    settings.logFile.toList.foldlM readPath t
  | _ => return t

def writeFile (path : List String) : Content → IO Unit
  | .text s => IO.FS.writeFile (systemPath path) s
  | .bytes bs => IO.FS.writeBinFile (systemPath path) ⟨bs.toArray⟩

/-- Free bits for UUIDs: the `n`-th of those that belong to a seed below `2 ^ 61`.  Seeds and
positions are spread over the bits by an odd number, so that different ones differ. -/
def freeBits (seed n : Nat) : Nat :=
  (n * 2 ^ 61 + seed) * 3210987654321098765432109876543210987 % 2 ^ 122

end MediaManifest.Main

open MediaManifest in
def main (args : List String) : IO UInt32 := do
  let here := (Text.split (· == '/') (toString (← IO.currentDir))).filter (· != "")
  let files ← match CommandLine.parse args with
    | some request => Main.readFiles ⟨here, []⟩ request
    | none => pure ⟨here, []⟩
  let seed ← IO.rand 0 (2 ^ 60)
  let surroundings : CommandLine.Surroundings :=
    ⟨files, ← IO.getEnv "RUST_LOG", fun i => .ofBits (Main.freeBits (seed + i))⟩
  let ending := CommandLine.run surroundings args
  for (path, content) in ending.files.changedFrom files do
    Main.writeFile path content
  (← IO.getStdout).putStr ending.output
  let errors ← IO.getStderr
  for record in ending.records do
    errors.putStr record.display
  errors.putStr ending.errors
  return ending.exitCode.toNat.toUInt32
