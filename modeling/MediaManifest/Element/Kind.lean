import MediaManifest.Error

/-!
# Kinds of elements
-/

namespace MediaManifest

/-- The kinds of elements. -/
inductive Kind where
  | track
  | catalog
  | attachment
  | publication
deriving DecidableEq

namespace Kind

def all : List Kind :=
  [track, catalog, attachment, publication]

def name : Kind → String
  | track => "track"
  | catalog => "catalog"
  | attachment => "attachment"
  | publication => "publication"

def ofName? : String → Option Kind
  | "track" => some track
  | "catalog" => some catalog
  | "attachment" => some attachment
  | "publication" => some publication
  | _ => none

def parse (s : String) : Except Error Kind :=
  match ofName? s with
  | some kind => .ok kind
  | none => .error (.unknownKind s)

@[simp] theorem ofName?_name (kind : Kind) : ofName? kind.name = some kind := by
  cases kind <;> rfl

/-- Only the name of a kind names it. -/
theorem ofName?_eq_some_iff {s : String} {kind : Kind} :
    ofName? s = some kind ↔ s = kind.name := by
  constructor
  · unfold ofName?
    split <;> rintro ⟨⟩ <;> rfl
  · rintro rfl
    exact ofName?_name kind

end Kind

end MediaManifest
