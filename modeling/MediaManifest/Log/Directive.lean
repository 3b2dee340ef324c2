import MediaManifest.Log.Level
import MediaManifest.Log.Pattern
import MediaManifest.Text.Blank

/-!
# Log directives

A list of directives says which messages are kept.  A directive names the front
of targets, a span, a field, a level, or some of them:
`target[span{field=value}]=level`.  A message belongs to no span, so directives
that ask for a span, or for the value of a field, keep none.  Of the others the
one that says most about a message decides.
-/

namespace MediaManifest.Log

/-- A directive: the messages of the targets that start with its name, with its field, are
kept up to a rank; the rank 0 keeps none. -/
structure Directive where
  target : Option String
  span : Option String
  field : Option String
  /-- The field must have a certain value. -/
  valued : Bool
  rank : Nat
deriving DecidableEq

namespace Directive

/-- The rank that the text `s` names: a number up to five, or a name without regard to ASCII case.
-/
def rank? (s : String) : Option Nat :=
  match Text.readWord s.toList with
  | some n => if n ≤ 5 then some n else none
  | none =>
    match Text.lowerAscii s with
    | "off" => some 0
    | "error" => some 1
    | "warn" => some 2
    | "info" => some 3
    | "debug" => some 4
    | "trace" => some 5
    | _ => none

def everyRank : Nat :=
  5

def blank : Directive :=
  ⟨none, none, none, false, everyRank⟩

/-! ## Reading

A directive is read without the blanks at its ends, but its parts are cut out of
the text with them, at the places they have without them. -/

/-- The character `c` can stand first in a directive that starts with a name: a letter, a number,
an underscore, a colon or a dash. -/
def startsName (c : Char) : Bool :=
  Text.isAlphanumeric c || c == '_' || c == ':' || c == '-'

/-- The characters of a text from the one at a count of bytes on. -/
def fromByte : Nat → List Char → List Char
  | _, [] => []
  | n, c :: cs => if n = 0 then c :: cs else fromByte (n - c.utf8Size) cs

/-- The characters of a text before the one at a count of bytes. -/
def upToByte : Nat → List Char → List Char
  | _, [] => []
  | n, c :: cs => if n = 0 then [] else c :: upToByte (n - c.utf8Size) cs

/-- The part of the text `s` between the counts of bytes `first` and `last`. -/
def between (s : String) (first last : Nat) : String :=
  String.ofList (fromByte first (upToByte last s.toList))

def rest (s : String) (first : Nat) : String :=
  String.ofList (fromByte first s.toList)

/-- The part of a directive that is being read, and where it began. -/
inductive Part where
  | start
  /-- A level or a target. -/
  | name (first : Nat)
  | span (first : Nat)
  | field (first : Nat)
  | afterField
  | afterSpan
  | level (first : Nat)

/-- A directive with a field from its text: its name, and perhaps a value behind an equals
sign.  What follows a second one does not count. -/
def withField? (d : Directive) (s : String) : Option Directive :=
  match Text.split (· == '=') s with
  | name :: value :: _ =>
    if isPattern value then some { d with field := some name, valued := true } else none
  | _ => some { d with field := some s }

def step (s : String) (i : Nat) (c : Char) : Part × Directive → Option (Part × Directive)
  | (.start, d) =>
    if c = '[' then some (.span (i + 1), d)
    else if startsName c then some (.name i, d)
    else none
  | (.name first, d) =>
    let named := { d with target := some (between s first i) }
    if c = '=' then some (.level (i + 1), named)
    else if c = '[' then some (.span (i + 1), named)
    else some (.name first, d)
  | (.span first, d) =>
    let span := between s first i
    if c = ']' then some (.afterSpan, { d with span := some span })
    else if c = '\x7b' then
      some (.field (i + 1), if span = "" then d else { d with span := some span })
    else some (.span first, d)
  | (.field first, d) =>
    if c = '\x7d' then
      let field := between s first i
      if field = "" then none else (d.withField? field).map (.afterField, ·)
    else some (.field first, d)
  | (.afterField, d) => if c = ']' then some (.afterSpan, d) else none
  | (.afterSpan, d) => if c = '=' then some (.level (i + 1), d) else none
  | (.level first, d) => some (.level first, d)

/-- What a directive is once all its characters are read.  A name is a level if it can be
one. -/
def finish (s : String) : Part × Directive → Option Directive
  | (.name first, d) =>
    let name := rest s first
    match rank? name with
    | some rank => some { d with rank := rank }
    | none => some { d with target := some name }
  | (.level first, d) =>
    let level := rest s first
    if level = "" then some d else (rank? level).map fun rank => { d with rank := rank }
  | (.afterSpan, d) => some d
  | _ => none

/-- Reads the characters of a directive from a count of bytes on. -/
def readFrom (s : String) : Nat → List Char → Part × Directive → Option Directive
  | _, [], state => finish s state
  | i, c :: cs, state => (step s i c state).bind (readFrom s (i + c.utf8Size) cs)

def parse (s : String) : Option Directive :=
  readFrom s 0 (Text.trim s).toList (.start, blank)

/-- The directives of a text, separated by commas; `none` if one of them is none.  Where there
is not a single one, errors are kept. -/
def parseAll (s : String) : Option (List Directive) :=
  (((Text.split (· == ',') s).filter (· != "")).mapM parse).map fun ds =>
    if ds.isEmpty then [{ blank with rank := Level.error.rank }] else ds

/-! ## Deciding -/

/-- Whether `d` says something about a message of `target` with the `fields`. -/
def fits (d : Directive) (target : String) (fields : List String) : Bool :=
  d.span.isNone && !d.valued &&
    d.target.all (fun front => (Text.dropFront front.toList target.toList).isSome) &&
    d.field.all fields.contains

/-- How much of a target `d` names; to name none is less than to name an empty one. -/
def reach (d : Directive) : Nat :=
  match d.target with
  | some s => s.length + 1
  | none => 0

/-- Whether `d` says as much as `e` about a message that both fit: it names more of the target, or
a field where `e` does not, or the later of two fields. -/
def outranks (d e : Directive) : Bool :=
  if d.reach = e.reach then
    match d.field, e.field with
    | _, none => true
    | none, some _ => false
    | some a, some b => decide (b ≤ a)
  else e.reach < d.reach

/-- The one of the directives `ds` that decides on a message, if one fits; of two that say the
same it is the later. -/
def deciding (ds : List Directive) (target : String) (fields : List String) :
    Option Directive :=
  (ds.filter (·.fits target fields)).foldl
    (fun best d => if best.all d.outranks then some d else best) none

/-- Whether a message of `level` and `target` with the `fields` is kept. -/
def keeps (ds : List Directive) (level : Level) (target : String) (fields : List String) :
    Bool :=
  (deciding ds target fields).any fun d => level.rank ≤ d.rank

end Directive

end MediaManifest.Log
