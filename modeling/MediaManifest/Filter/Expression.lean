import MediaManifest.Filter.Basic

/-!
# Filter expressions

A filter is written as a word, or as a key and a value with a colon between
them.  Exclamation marks in front negate it, one after the other.  White space
around the marks, the key and the value means nothing.
-/

namespace MediaManifest.Filter

/-- How many exclamation marks stand in front of a text, white space between them
aside, and what follows them. -/
def peel : List Char → Nat × List Char
  | [] => (0, [])
  | c :: cs =>
    if Text.isBlank c then peel cs
    else if c = '!' then
      let (n, rest) := peel cs
      (n + 1, rest)
    else (0, c :: cs)

def negateTimes : Nat → Filter → Filter
  | 0, f => f
  | n + 1, f => negate (negateTimes n f)

/-- The parts of the list `value` of tags that say something. -/
def tagList (value : String) : List String :=
  ((Text.split (· == ',') value).map Text.trim).filter (· != "")

def ofWord? : String → Option Filter
  | "any" => some any
  | "checksum" => some checksum
  | "no-checksum" => some noChecksum
  | "video" => some video
  | "audio" => some audio
  | _ => none

/-- The filter of a key and a value; `whole` is the expression that they were cut from. -/
def ofPair (whole key value : String) : Except Error Filter :=
  match key with
  | "type" => (Kind.parse value).map kind
  | "flavor" =>
    match Flavor.parse value with
    | .ok f => .ok (flavor f)
    | .error fault => .error (.ofFlavorFault fault)
  | "tag" => if value = "" then .error (.invalidFilter whole) else .ok (tag value)
  | "tags" => .ok (tags (tagList value))
  | "channel" => if value = "" then .error (.invalidFilter whole) else .ok (channel value)
  | _ => .error (.invalidFilter whole)

/-- The filter of an expression `s` without exclamation marks in front and without white space at
its ends. -/
def parseBase (s : String) : Except Error Filter :=
  match Text.cut ':' s with
  | some (key, value) => ofPair s (Text.trim key) (Text.trim value)
  | none =>
    match ofWord? s with
    | some f => .ok f
    | none => .error (.invalidFilter s)

def parse (s : String) : Except Error Filter :=
  let (n, rest) := peel s.toList
  (parseBase (String.ofList (Text.trimBack rest))).map (negateTimes n)

/-- The filters of several expressions, or the error of the first one that is none. -/
def parseAll : List String → Except Error (List Filter)
  | [] => .ok []
  | s :: rest =>
    match parse s with
    | .error e => .error e
    | .ok f => (parseAll rest).map (f :: ·)

/-- The filter that asks for all of the `expressions`. -/
def ofExpressions (expressions : List String) : Except Error Filter :=
  (parseAll expressions).map all

end MediaManifest.Filter
