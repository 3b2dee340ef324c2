import MediaManifest.Proofs.Codec.Schema

/-!
# The language of documents

Which values stand for packages (`IsDocument`), told by what is found under
their keys and not by how they are checked or read.  Only objects have anything
under a key.

The schema sees a part of this language.  It does not know the kinds and the
checksum algorithms, takes blank parts of flavors, and leaves out what only
tracks carry and the identifiers of other entries.
-/

namespace MediaManifest

open Json (Value)
open Json.Value (lookup)

namespace Json.Value

/-- What `v` has under `key`, if it has anything there, is of the given `form`. -/
def Optionally (key : String) (form : Value → Prop) (v : Value) : Prop :=
  ∀ w, v.field? key = some w → form w

/-- The value `v` has something of the given `form` under `key`. -/
def Has (key : String) (form : Value → Prop) (v : Value) : Prop :=
  ∃ w, v.field? key = some w ∧ form w

def IsText (v : Value) : Prop :=
  ∃ s, v = .text s

def IsFilledText (v : Value) : Prop :=
  ∃ s, v = .text s ∧ s ≠ ""

def IsTextOrNull (v : Value) : Prop :=
  v = .null ∨ v.IsText

def IsNamed (names : List String) (v : Value) : Prop :=
  ∃ name ∈ names, v = .text name

def IsBool (v : Value) : Prop :=
  ∃ b, v = .bool b

/-- A number of milliseconds that is held as an integer, or null. -/
def IsDuration (v : Value) : Prop :=
  v = .null ∨ ∃ n range, v = .number (.integer n range) ∧ 0 ≤ n ∧ n ≤ 2 ^ 64 - 1

/-- A text of two parts around its only slash that are more than white space. -/
def IsFlavorText (v : Value) : Prop :=
  ∃ front back, v = .text (front ++ "/" ++ back) ∧ '/' ∉ front.toList ∧ '/' ∉ back.toList ∧
    Text.blank front = false ∧ Text.blank back = false

/-- A list of distinct texts. -/
def IsTagList (v : Value) : Prop :=
  ∃ ts : List String, v = .list (ts.map .text) ∧ ts.Nodup

structure IsChecksum (v : Value) : Prop where
  kind : v.Has "type" (IsNamed ["md5", "sha1", "sha256", "sha512"])
  value : v.Has "value" IsText

structure IsReference (v : Value) : Prop where
  kind : v.Has "type" IsFilledText
  id : v.Has "id" IsFilledText

/-- The entry `v` of a document stands for an element. -/
structure IsEntry (v : Value) : Prop where
  kind : v.Has "type" (IsNamed ["track", "catalog", "attachment", "publication"])
  id : v.Optionally "id" IsFilledText
  flavor : v.Optionally "flavor" IsFlavorText
  tags : v.Optionally "tags" IsTagList
  checksum : v.Optionally "checksum" IsChecksum
  reference : v.Optionally "ref" IsReference
  uri : v.Optionally "uri" IsText
  channel : v.Optionally "channel" IsText
  mime : v.Optionally "mime_type" IsTextOrNull
  track : v.Has "type" (IsNamed ["track"]) →
    v.Optionally "has_video" IsBool ∧ v.Optionally "has_audio" IsBool ∧
      v.Optionally "duration_ms" IsDuration
  publication : v.Has "type" (IsNamed ["publication"]) → v.Has "channel" IsText

/-- The document `v` stands for a package: its entries are as `IsEntry` says, and no two of them
have the same identifier. -/
structure IsDocument (v : Value) : Prop where
  id : v.Optionally "id" IsTextOrNull
  title : v.Optionally "title" IsTextOrNull
  elements : v.Has "elements" fun w =>
    ∃ raws, w = .list raws ∧ (∀ raw ∈ raws, raw.IsEntry) ∧
      raws.Pairwise fun a b => ∀ key, a.field? "id" = some (.text key) →
        b.field? "id" ≠ some (.text key)

variable {key : String} {form : Value → Prop} {v : Value} {es : List Codec.Entry}

theorem Has.exists_object (h : v.Has key form) : ∃ es, v = .object es := by
  obtain ⟨w, hw, -⟩ := h
  cases v with
  | object es => exact ⟨es, rfl⟩
  | null => cases hw
  | bool b => cases hw
  | number n => cases hw
  | text s => cases hw
  | list vs => cases hw

theorem Optionally.mono {weaker : Value → Prop} (h : v.Optionally key form)
    (himp : ∀ w, form w → weaker w) : v.Optionally key weaker :=
  fun w hw => himp w (h w hw)

theorem Optionally.of_absent (h : v.field? key = none) : v.Optionally key form := by
  intro w hw
  rw [h] at hw
  cases hw

theorem Has.mono {weaker : Value → Prop} (h : v.Has key form)
    (himp : ∀ w, form w → weaker w) : v.Has key weaker := by
  obtain ⟨w, hw, hform⟩ := h
  exact ⟨w, hw, himp w hform⟩

theorem Has.optionally (h : v.Has key form) : v.Optionally key form := by
  obtain ⟨w, hw, hform⟩ := h
  intro x hx
  obtain rfl := Option.some.inj (hw.symm.trans hx)
  exact hform

theorem has_iff : v.Has key form ↔ v.Optionally key form ∧ (v.field? key).isSome := by
  constructor
  · intro h
    refine ⟨h.optionally, ?_⟩
    obtain ⟨w, hw, -⟩ := h
    rw [hw]
    rfl
  · rintro ⟨hform, hsome⟩
    obtain ⟨w, hw⟩ := Option.isSome_iff_exists.mp hsome
    exact ⟨w, hw, hform w hw⟩

theorem exists_texts {vs : List Value} (h : ∀ v ∈ vs, v.IsText) :
    ∃ ts : List String, vs = ts.map .text := by
  induction vs with
  | nil => exact ⟨[], rfl⟩
  | cons v vs ih =>
      obtain ⟨t, rfl⟩ := h v List.mem_cons_self
      obtain ⟨ts, rfl⟩ := ih fun w hw => h w (List.mem_cons_of_mem _ hw)
      exact ⟨t :: ts, rfl⟩

end Json.Value

open Json.Value (Optionally Has IsText IsFilledText IsTextOrNull IsTagList IsReference)

namespace Codec

/-! ## What the checks of the schema accept -/

namespace Check

variable {place : String} {v : Value}

theorem isText_iff : isText place v = [] ↔ v.IsText := by
  cases v <;> simp [isText, report, IsText]

theorem isTextOrNull_iff : isTextOrNull place v = [] ↔ v.IsTextOrNull := by
  cases v <;> simp [isTextOrNull, report, IsTextOrNull, IsText]

theorem isNonemptyText_iff : isNonemptyText place v = [] ↔ v.IsFilledText := by
  cases v with
  | text s => simp [isNonemptyText_eq_nil_iff, IsFilledText]
  | null => simp [isNonemptyText, isText, report, IsFilledText]
  | bool b => simp [isNonemptyText, isText, report, IsFilledText]
  | number n => simp [isNonemptyText, isText, report, IsFilledText]
  | list vs => simp [isNonemptyText, isText, report, IsFilledText]
  | object es => simp [isNonemptyText, isText, report, IsFilledText]

/-- The value `v` passes as an object if it is one, what it has under the keys of `checks` passes,
and it has the required `keys`. -/
theorem isObject_iff {checks : List (String × Check)} {keys : List String} :
    isObject checks keys place v = [] ↔
      (∃ es, v = .object es) ∧
      (∀ property ∈ checks,
        v.Optionally property.1 fun w => property.2 (below place property.1) w = []) ∧
      ∀ key ∈ keys, (v.field? key).isSome := by
  cases v with
  | object es => rw [isObject_eq_nil_iff]; simp [Optionally, Json.Value.field?]
  | null => simp [isObject, report]
  | bool b => simp [isObject, report]
  | number n => simp [isObject, report]
  | text s => simp [isObject, report]
  | list vs => simp [isObject, report]

/-- An object that must have both of its properties `a` and `b` has them in the form that passes. -/
theorem isObject_pair_iff {checkA checkB : Check} {a b : String} {keys : List String}
    {formA formB : Value → Prop} (hA : ∀ w place, checkA place w = [] ↔ formA w)
    (hB : ∀ w place, checkB place w = [] ↔ formB w)
    (hkeys : ∀ key, key ∈ keys ↔ key = a ∨ key = b) :
    isObject [(a, checkA), (b, checkB)] keys place v = [] ↔ v.Has a formA ∧ v.Has b formB := by
  rw [isObject_iff]
  simp only [List.forall_mem_cons, hA, hB]
  constructor
  · rintro ⟨-, ⟨hformA, hformB, -⟩, hsome⟩
    exact ⟨Value.has_iff.mpr ⟨hformA, hsome a ((hkeys a).mpr (.inl rfl))⟩,
      Value.has_iff.mpr ⟨hformB, hsome b ((hkeys b).mpr (.inr rfl))⟩⟩
  · rintro ⟨hhasA, hhasB⟩
    refine ⟨hhasA.exists_object, ⟨hhasA.optionally, hhasB.optionally, ?_⟩, ?_⟩
    · exact fun _ hmem => absurd hmem List.not_mem_nil
    · intro key hkey
      rcases (hkeys key).mp hkey with rfl | rfl
      · exact (Value.has_iff.mp hhasA).2
      · exact (Value.has_iff.mp hhasB).2

theorem isList_iff {check : Check} {valid : Value → Prop}
    (h : ∀ w place, check place w = [] ↔ valid w) :
    isList check place v = [] ↔ ∃ vs, v = .list vs ∧ ∀ w ∈ vs, valid w := by
  cases v with
  | list vs => simp [isList, items_eq_nil_iff fun w _ => h w]
  | null => simp [isList, report]
  | bool b => simp [isList, report]
  | number n => simp [isList, report]
  | text s => simp [isList, report]
  | object es => simp [isList, report]

theorem isSet_iff : isSet .isText place v = [] ↔ v.IsTagList := by
  constructor
  · intro h
    have hlist : isList .isText place v = [] := (List.append_eq_nil_iff.mp h).1
    have hitems : ∀ w place, isText place w = [] ↔ w.IsText := fun _ _ => isText_iff
    obtain ⟨vs, rfl, htexts⟩ := (isList_iff hitems).mp hlist
    obtain ⟨ts, rfl⟩ := Json.Value.exists_texts htexts
    exact ⟨ts, rfl, (isSet_texts_iff place).mp h⟩
  · rintro ⟨ts, rfl, hnodup⟩
    exact (isSet_texts_iff place).mpr hnodup

theorem isPair_iff {s : String} :
    isPair s = true ↔ ∃ front back, s = front ++ "/" ++ back ∧ '/' ∉ front.toList ∧
      '/' ∉ back.toList ∧ front ≠ "" ∧ back ≠ "" := by
  constructor
  · intro h
    unfold isPair at h
    split at h
    · next front back hcut =>
      obtain ⟨hs, hfront⟩ := Text.cut_slash_eq_some_iff.mp hcut
      simp only [Bool.and_eq_true, decide_eq_true_eq, Bool.not_eq_true'] at h
      obtain ⟨⟨hsome, hmore⟩, hback⟩ := h
      exact ⟨front, back, hs, hfront, by simpa using hback, hsome, hmore⟩
    · cases h
  · rintro ⟨front, back, hs, hfront, hback, hsome, hmore⟩
    have hcut := Text.cut_slash_eq_some_iff.mpr ⟨hs, hfront⟩
    simp [isPair, hcut, hsome, hmore, hback]

end Check

/-- What the schema asks of the entry `v`. -/
structure FitsSchema (v : Value) : Prop where
  kind : v.Has "type" IsFilledText
  id : v.Optionally "id" IsFilledText
  flavor : v.Optionally "flavor" fun w => ∃ s, w = .text s ∧ Check.isPair s = true
  tags : v.Optionally "tags" IsTagList
  checksum : v.Optionally "checksum" fun w => w.Has "type" IsText ∧ w.Has "value" IsText
  reference : v.Optionally "ref" IsReference
  uri : v.Optionally "uri" IsText
  channel : v.Optionally "channel" IsText

variable {place : String} {v : Value}

theorem isPairText_iff :
    Check.isPairText place v = [] ↔ ∃ s, v = .text s ∧ Check.isPair s = true := by
  cases v <;> simp [Check.isPairText, Check.isText, Check.report]

/-- What the schema takes for a flavor is one if `Flavor.parse` reads it. -/
theorem isFlavorText_iff :
    v.IsFlavorText ↔ ∃ s f, v = .text s ∧ Check.isPair s = true ∧ Flavor.parse s = .ok f := by
  constructor
  · rintro ⟨front, back, rfl, hfront, hback, hsome, hmore⟩
    obtain ⟨f, hparse⟩ := (Flavor.exists_parse_iff hfront hback).mpr ⟨hsome, hmore⟩
    refine ⟨_, f, rfl, Check.isPair_iff.mpr ⟨front, back, rfl, hfront, hback, ?_, ?_⟩, hparse⟩
    · rintro rfl
      cases hsome
    · rintro rfl
      cases hmore
  · rintro ⟨s, f, rfl, hpair, hparse⟩
    obtain ⟨front, back, rfl, hfront, hback, -, -⟩ := Check.isPair_iff.mp hpair
    obtain ⟨hsome, hmore⟩ := (Flavor.exists_parse_iff hfront hback).mp ⟨f, hparse⟩
    exact ⟨front, back, rfl, hfront, hback, hsome, hmore⟩

theorem checksumSchema_iff :
    checksumSchema place v = [] ↔ v.Has "type" IsText ∧ v.Has "value" IsText :=
  Check.isObject_pair_iff (fun _ _ => Check.isText_iff) (fun _ _ => Check.isText_iff) (by simp)

theorem referenceSchema_iff : referenceSchema place v = [] ↔ v.IsReference := by
  have hpair : referenceSchema place v = [] ↔ v.Has "id" IsFilledText ∧ v.Has "type" IsFilledText :=
    Check.isObject_pair_iff (fun _ _ => Check.isNonemptyText_iff)
      (fun _ _ => Check.isNonemptyText_iff) (by simp [or_comm])
  rw [hpair]
  exact ⟨fun ⟨hid, hkind⟩ => ⟨hkind, hid⟩, fun ⟨hkind, hid⟩ => ⟨hid, hkind⟩⟩

theorem elementSchema_iff : elementSchema place v = [] ↔ FitsSchema v := by
  rw [elementSchema, Check.isObject_iff]
  simp only [List.forall_mem_cons, Check.isText_iff, Check.isNonemptyText_iff, Check.isSet_iff,
    checksumSchema_iff, referenceSchema_iff, isPairText_iff]
  constructor
  · rintro ⟨-, ⟨hchannel, hchecksum, hflavor, hid, hreference, htags, hkind, huri, -⟩, htype, -⟩
    exact ⟨Value.has_iff.mpr ⟨hkind, htype⟩, hid, hflavor, htags, hchecksum, hreference, huri,
      hchannel⟩
  · intro h
    obtain ⟨hkind, htype⟩ := Value.has_iff.mp h.kind
    refine ⟨h.kind.exists_object, ⟨h.channel, h.checksum, h.flavor, h.id, h.reference, h.tags,
      hkind, h.uri, ?_⟩, htype, ?_⟩
    · exact fun _ hmem => absurd hmem List.not_mem_nil
    · exact fun _ hmem => absurd hmem List.not_mem_nil

/-- The schema accepts a `document` if its names are texts or null and its entries fit. -/
theorem validate_eq_ok_iff {document : Value} :
    validate document = .ok () ↔
      document.Optionally "id" IsTextOrNull ∧ document.Optionally "title" IsTextOrNull ∧
        document.Has "elements" fun w => ∃ raws, w = .list raws ∧ ∀ raw ∈ raws, FitsSchema raw := by
  have hvalid : validate document = .ok () ↔ packageSchema "" document = [] := by
    unfold validate
    split
    · next h => exact iff_of_true rfl h
    · next h => exact iff_of_false (fun herror => nomatch herror) h
  have hlist : ∀ w place, Check.isList elementSchema place w = [] ↔
      ∃ raws, w = .list raws ∧ ∀ raw ∈ raws, FitsSchema raw := fun w place =>
    Check.isList_iff fun _ _ => elementSchema_iff
  rw [hvalid, packageSchema, Check.isObject_iff]
  simp only [List.forall_mem_cons, Check.isTextOrNull_iff, hlist]
  constructor
  · rintro ⟨-, ⟨helements, hid, htitle, -⟩, hsome, -⟩
    exact ⟨hid, htitle, Value.has_iff.mpr ⟨helements, hsome⟩⟩
  · rintro ⟨hid, htitle, hhas⟩
    obtain ⟨helements, hsome⟩ := Value.has_iff.mp hhas
    refine ⟨hhas.exists_object, ⟨helements, hid, htitle, ?_⟩, hsome, ?_⟩
    · exact fun _ hmem => absurd hmem List.not_mem_nil
    · exact fun _ hmem => absurd hmem List.not_mem_nil

end Codec

end MediaManifest
