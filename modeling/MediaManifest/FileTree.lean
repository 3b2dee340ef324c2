import MediaManifest.Text.Cut
import MediaManifest.Text.Symbol

/-!
# File trees

The files and directories that the tool can see, and the directory that it is
started in.  A path is followed from that directory, or from the root if it
starts with a slash.
-/

namespace MediaManifest

open Text (Content)

/-- What a name in a directory stands for. -/
inductive FileTree.Node where
  | file (content : Content)
  | directory
deriving DecidableEq

/-- Files and directories by their path, given as the names on the way from the root, and
the path of the working directory. -/
structure FileTree where
  here : List String
  nodes : List (List String × FileTree.Node)
deriving DecidableEq

namespace FileTree

/-- Why a file cannot be read or written. -/
inductive Problem where
  | missing
  | notDirectory
  | isDirectory
  | notText
  | nameTooLong
  /-- A path holds the character that ends paths. -/
  | nulInPath
deriving DecidableEq

def Problem.message : Problem → String
  | missing => "No such file or directory (os error 2)"
  | notDirectory => "Not a directory (os error 20)"
  | isDirectory => "Is a directory (os error 21)"
  | notText => "stream did not contain valid UTF-8"
  | nameTooLong => "File name too long (os error 36)"
  | nulInPath => "file name contained an unexpected NUL byte"

def nameLimit : Nat :=
  255

def pathLimit : Nat :=
  4095

/-- Where a path leads: to a file, to a directory, or to a free place in a directory. -/
inductive Place where
  | file (path : List String) (content : Content)
  | directory (path : List String)
  | free (path : List String)
deriving DecidableEq

/-- What stands at the names of `path`.  The working directory and the directories on the way to
it are always there. -/
def node? (t : FileTree) (path : List String) : Option Node :=
  if path.isPrefixOf t.here then some .directory else t.nodes.lookup path

def walk (t : FileTree) (here : List String) : List String → Except Problem Place
  | [] => .ok (.directory here)
  | name :: rest =>
    if name = "" ∨ name = "." then t.walk here rest
    else if name = ".." then t.walk here.dropLast rest
    else if nameLimit < name.utf8ByteSize then .error .nameTooLong
    else
      match t.node? (here ++ [name]) with
      | some .directory => t.walk (here ++ [name]) rest
      | some (.file content) =>
        if rest = [] then .ok (.file (here ++ [name]) content) else .error .notDirectory
      | none => if rest = [] then .ok (.free (here ++ [name])) else .error .missing

/-- The place that `path` leads to.  The empty path leads nowhere. -/
def place (t : FileTree) (path : String) : Except Problem Place :=
  if path.toList.contains '\x00' then .error .nulInPath
  else if pathLimit < path.utf8ByteSize then .error .nameTooLong
  else
    match Text.split (· == '/') path with
    | [""] => .error .missing
    | "" :: names => t.walk [] names
    | names => t.walk t.here names

def has (t : FileTree) (path : String) : Bool :=
  match t.place path with
  | .ok (.file _ _) => true
  | .ok (.directory _) => true
  | _ => false

def read (t : FileTree) (path : String) : Except Problem Content :=
  match t.place path with
  | .ok (.file _ content) => .ok content
  | .ok (.directory _) => .error .isDirectory
  | .ok (.free _) => .error .missing
  | .error problem => .error problem

def readText (t : FileTree) (path : String) : Except Problem String :=
  match t.read path with
  | .ok (.text s) => .ok s
  | .ok (.bytes _) => .error .notText
  | .error problem => .error problem

def put (t : FileTree) (path : List String) (node : Node) : FileTree :=
  { t with nodes := (path, node) :: t.nodes.filter (·.1 != path) }

/-- The text `path` without the slashes at its end.  A path of slashes alone leads to the root and
keeps them. -/
def trimSlashes (path : String) : String :=
  match (path.toList.reverse.dropWhile (· == '/')).reverse with
  | [] => path
  | cs => String.ofList cs

/-- The path of names that a file to be written at `path` gets.  A path that ends in a slash
cannot be that of a file. -/
def target (t : FileTree) (path : String) : Except Problem (List String) :=
  match t.place (trimSlashes path) with
  | .error problem => .error problem
  | .ok (.directory _) => .error .isDirectory
  | .ok (.file names _) | .ok (.free names) =>
    if trimSlashes path = path then .ok names else .error .isDirectory

def write (t : FileTree) (path : String) (content : Content) : Except Problem FileTree :=
  (t.target path).map fun names => t.put names (.file content)

/-- Writes a text into the file at a path of names, from the byte at `offset` on. -/
def writeAt (t : FileTree) (path : List String) (offset : Nat) (s : String) : FileTree :=
  match t.node? path with
  | some (.file content) => t.put path (.file (content.overwrite offset s.toUTF8.toList))
  | _ => t

/-- The directories on the way to the names of `path`. -/
def parents (path : List String) : List (List String) :=
  (List.range path.length).map path.take

/-- Adds a `node` and the directories on the way to it. -/
def add (t : FileTree) (path : List String) (node : Node) : FileTree :=
  let t := (parents path).foldl
    (fun t parent => if (t.node? parent).isSome then t else t.put parent .directory) t
  t.put path node

/-- The tree of files and directories below the working directory `here`, given by their relative
paths. -/
def ofList (here : List String) (nodes : List (String × Node)) : FileTree :=
  nodes.foldl (fun t (path, node) => t.add (here ++ Text.split (· == '/') path) node) ⟨here, []⟩

/-- The files whose content the tree `old` does not have at the same path. -/
def changedFrom (t old : FileTree) : List (List String × Content) :=
  t.nodes.filterMap fun (path, node) =>
    match node with
    | .directory => none
    | .file content => if old.node? path = some (.file content) then none else some (path, content)

/-- The path of a file relative to the working directory, if it is below it. -/
def relative? (t : FileTree) (path : List String) : Option String :=
  if t.here.isPrefixOf path then some (Text.join "/" (path.drop t.here.length)) else none

end FileTree

end MediaManifest
