import MediaManifest.Codec.Field

/-!
# Bodies of encoded elements

The keys of an element that are not common to all kinds are collected first.
Then the kind is read from them, and after it what the kind carries of its
own.  All other keys are ignored.
-/

namespace MediaManifest.Codec

open Json (Value Number)

def foundValue : Value → Found
  | .null => .null
  | .bool b => .boolean b
  | .number n => foundNumber n
  | .text s => .text s
  | .list _ => .sequence
  | .object _ => .map

/-- The fault of a `value` that is not what is `expected`. -/
def mismatchValue {α : Type} (expected : Expected) (value : Value) : Except Fault α :=
  .error (.invalidType (foundValue value) expected)

/-- The kind at the position `n` in the order of the kinds. -/
def kindAt (n : Nat) : Except Fault Kind :=
  match Kind.all[n]? with
  | some kind => .ok kind
  | none => .error (.variantPosition n)

def kindNamed (name : String) : Except Fault Kind :=
  match Kind.ofName? name with
  | some kind => .ok kind
  | none => .error (.unknownVariant name (Kind.all.map Kind.name))

def readKind : Value → Except Fault Kind
  | .text s => kindNamed s
  | .number (.integer n h) =>
    if 0 ≤ n then kindAt n.toNat else mismatchValue .variantName (.number (.integer n h))
  | value => mismatchValue .variantName value

def readBool : Value → Except Fault Bool
  | .bool b => .ok b
  | value => mismatchValue .boolean value

def readDuration : Value → Except Fault (Option UInt64)
  | .null => .ok none
  | .number (.integer n _) =>
    if 0 ≤ n then .ok (some (UInt64.ofNat n.toNat)) else .error (.negativeWord n)
  | value => mismatchValue .word value

def readOwnText : Value → Except Fault String
  | .text s => .ok s
  | value => mismatchValue .text value

/-- Reads the kind among the entries, under the key `type`; it must be there once. -/
def findKind (kind : Option Kind) : List (String × Value) → Except Fault Kind
  | [] =>
    match kind with
    | some kind => .ok kind
    | none => .error (.missingField "type")
  | (key, value) :: rest =>
    if key = "type" then
      match kind with
      | some _ => .error (.duplicateField "type")
      | none => do
        let kind ← readKind value
        findKind (some kind) rest
    else findKind kind rest

/-- What was read of a track. -/
structure TrackFields where
  video : Option Bool
  audio : Option Bool
  duration : Option (Option UInt64)

def readTrack (fields : TrackFields) : List (String × Value) → Except Fault TrackFields
  | [] => .ok fields
  | (key, value) :: rest =>
    if key = "has_video" then
      if fields.video.isSome then .error (.duplicateField key)
      else do
        let video ← readBool value
        readTrack { fields with video := some video } rest
    else if key = "has_audio" then
      if fields.audio.isSome then .error (.duplicateField key)
      else do
        let audio ← readBool value
        readTrack { fields with audio := some audio } rest
    else if key = "duration_ms" then
      if fields.duration.isSome then .error (.duplicateField key)
      else do
        let duration ← readDuration value
        readTrack { fields with duration := some duration } rest
    else readTrack fields rest

/-- Reads the channel of a publication, under the key `channel`; it must be there once. -/
def readChannel (channel : Option String) : List (String × Value) → Except Fault String
  | [] =>
    match channel with
    | some channel => .ok channel
    | none => .error (.missingField "channel")
  | (key, value) :: rest =>
    if key = "channel" then
      match channel with
      | some _ => .error (.duplicateField key)
      | none => do
        let channel ← readOwnText value
        readChannel (some channel) rest
    else readChannel channel rest

/-- Reads what the kind of an element carries of its own. -/
def readBody (entries : List (String × Value)) : Except Fault Body := do
  match ← findKind none entries with
  | .track =>
    let fields ← readTrack ⟨none, none, none⟩ entries
    return .track (fields.video.getD false) (fields.audio.getD false)
      (fields.duration.getD none)
  | .catalog => return .catalog
  | .attachment => return .attachment
  | .publication => return .publication (← readChannel none entries)

end MediaManifest.Codec
