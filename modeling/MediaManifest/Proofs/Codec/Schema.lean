import MediaManifest.Codec.Decoding
import MediaManifest.Proofs.Codec.Elements

/-!
# Written packages and the schema

A written element meets the schema of elements unless its identifier is empty
or its reference is empty in one of its parts; nothing else that an element
can hold violates it.  A written package meets the schema of documents if all
of its elements meet theirs.
-/

namespace MediaManifest

open Json (Value)
open Json.Value (lookup sortedEntries)

namespace Codec

namespace Check

variable {check : Check} {checks : List (String × Check)} {keys : List String} {place : String}
  {es : List Entry} {vs : List Value}

theorem properties_eq_nil_iff :
    properties checks place (.object es) = [] ↔
      ∀ property ∈ checks, ∀ v, lookup property.1 es = some v →
        property.2 (below place property.1) v = [] := by
  rw [properties, List.flatMap_eq_nil_iff]
  refine forall₂_congr fun property _ => ?_
  simp only [Value.field?]
  cases lookup property.1 es with
  | none => simp
  | some v => simp

theorem required_eq_nil_iff :
    required keys place (.object es) = [] ↔ ∀ key ∈ keys, (lookup key es).isSome := by
  rw [required, List.flatMap_eq_nil_iff]
  refine forall₂_congr fun key _ => ?_
  simp only [Value.field?]
  cases lookup key es with
  | none => simp
  | some v => simp

/-- The object of `es` passes if the properties that it has pass their `checks`, and it has those
in `keys`. -/
theorem isObject_eq_nil_iff :
    isObject checks keys place (.object es) = [] ↔
      (∀ property ∈ checks, ∀ v, lookup property.1 es = some v →
        property.2 (below place property.1) v = []) ∧
      ∀ key ∈ keys, (lookup key es).isSome := by
  rw [isObject, List.append_eq_nil_iff, properties_eq_nil_iff, required_eq_nil_iff]

/-- The items `vs` of a list pass if each of them is `valid`, when their places do not matter. -/
theorem items_eq_nil_iff {valid : Value → Prop}
    (h : ∀ v ∈ vs, ∀ place, check place v = [] ↔ valid v) (n : Nat) :
    items check place n vs = [] ↔ ∀ v ∈ vs, valid v := by
  induction vs generalizing n with
  | nil => simp [items]
  | cons v vs ih =>
      have hrest := ih (fun w hw => h w (List.mem_cons_of_mem v hw)) (n + 1)
      rw [items, List.append_eq_nil_iff, h v List.mem_cons_self, hrest, List.forall_mem_cons]

theorem distinct_texts_iff (same : Json.Number → Json.Number → Bool) {ts : List String} :
    distinct (Value.sameBy same) (ts.map Value.text) = true ↔ ts.Nodup := by
  induction ts with
  | nil => simp [distinct]
  | cons t ts ih =>
      have hsame : ∀ u, Value.sameBy same (.text t) (.text u) = true ↔ u = t := by
        intro u
        rw [Value.sameBy, beq_iff_eq, eq_comm]
      have hfirst : (ts.map Value.text).any (Value.sameBy same (.text t)) = true ↔ t ∈ ts := by
        rw [List.any_map, List.any_eq_true]
        simp only [Function.comp_apply, hsame, exists_eq_right]
      rw [List.map_cons, distinct, Bool.and_eq_true, Bool.not_eq_true', ← Bool.not_eq_true, hfirst,
        ih, List.nodup_cons]

/-- The texts `ts` pass as a set if they are distinct, however many there are. -/
theorem isSet_texts_iff (place : String) {ts : List String} :
    isSet .isText place (.list (ts.map Value.text)) = [] ↔ ts.Nodup := by
  have hitems : items .isText place 0 (ts.map Value.text) = [] := by
    have hpass : ∀ v ∈ ts.map Value.text, ∀ place, isText place v = [] ↔ True := by
      intro v hv place
      obtain ⟨t, _, rfl⟩ := List.mem_map.mp hv
      exact iff_true_intro rfl
    exact (items_eq_nil_iff hpass 0).mpr fun _ _ => trivial
  have hdistinct : distinct (itemEquality (ts.map Value.text)) (ts.map Value.text) = true ↔
      ts.Nodup := by
    unfold itemEquality
    split
    · exact distinct_texts_iff _
    · exact distinct_texts_iff _
  rw [← hdistinct]
  simp [isSet, isList, hitems, report]

theorem isPair_text (f : Flavor) : isPair f.text = true := by
  have hslash : f.minor.text.toList.contains '/' = false := by
    simpa using f.minor.unbroken
  simp only [isPair, f.cut_text, hslash]
  simp [f.major.nonempty, f.minor.nonempty]

theorem isNonemptyText_eq_nil_iff {s : String} :
    isNonemptyText place (.text s) = [] ↔ s ≠ "" := by
  by_cases hs : s = ""
  · simp [isNonemptyText, report, hs]
  · simp [isNonemptyText, hs]

end Check

theorem checksumSchema_toJson (place : String) (c : Checksum) :
    checksumSchema place c.toJson = [] :=
  rfl

theorem referenceSchema_eq_nil_iff (place : String) (r : Reference) :
    referenceSchema place r.toJson.sorted = [] ↔ r.kind ≠ "" ∧ r.id ≠ "" := by
  rw [sorted_reference, referenceSchema, Check.isObject_eq_nil_iff]
  simp [lookup, Check.isNonemptyText_eq_nil_iff, and_comm]

end Codec

open Codec (Check CommonKey)

theorem Tags.nodup (tags : Tags) : tags.toList.Nodup := by
  refine tags.ascending.imp ?_
  rintro a b hlt rfl
  exact String.lt_irrefl a hlt

namespace Element

/-- What the schema asks of the written element `e`: no text of it is empty that must not be. -/
def Filled (e : Element) : Prop :=
  e.id ≠ some "" ∧ ∀ r, e.reference = some r → r.kind ≠ "" ∧ r.id ≠ ""

variable {e : Element} {name : String} {v : Value}

theorem isText_of_channel (place : String) (h : lookup "channel" e.entries = some v) :
    Check.isText place v.sorted = [] := by
  rw [lookup_entries_of_none e rfl] at h
  cases hbody : e.body with
  | track video audio duration =>
      rw [hbody, Value.lookup_eq_some_iff (Body.nodup_keys _)] at h
      cases duration <;> simp [Body.entries] at h
  | catalog =>
      rw [hbody] at h
      cases h
  | attachment =>
      rw [hbody] at h
      cases h
  | publication channel =>
      rw [hbody] at h
      obtain rfl : Value.text channel = v := Option.some.inj h
      rfl

theorem lookup_sorted_common (e : Element) (key : CommonKey) :
    lookup key.name (sortedEntries [] e.entries) = (e.written key).map Value.sorted := by
  rw [lookup_sorted, lookup_entries_common]

/-- The property of the common key `key` passes a `check` if what was written of it passes. -/
theorem passes_of_common {check : Check} {place : String} (key : CommonKey)
    (hpass : ∀ w, e.written key = some w → check place w.sorted = [])
    (hv : lookup key.name (sortedEntries [] e.entries) = some v) : check place v = [] := by
  rw [lookup_sorted_common] at hv
  obtain ⟨w, hw, rfl⟩ := Option.map_eq_some_iff.mp hv
  exact hpass w hw

theorem filled_of_elementSchema {place : String}
    (h : Codec.elementSchema place e.toJson.sorted = []) : e.Filled := by
  rw [toJson, Value.sorted, Codec.elementSchema, Check.isObject_eq_nil_iff] at h
  obtain ⟨hproperties, -⟩ := h
  constructor
  · intro hid
    have hwritten : lookup "id" (sortedEntries [] e.entries) = some (.text "") := by
      refine (lookup_sorted_common e .id).trans ?_
      rw [written, hid]
      rfl
    have hpass := hproperties ("id", Check.isNonemptyText) (by simp) _ hwritten
    exact Check.isNonemptyText_eq_nil_iff.mp hpass rfl
  · intro r hr
    have hwritten : lookup "ref" (sortedEntries [] e.entries) = some r.toJson.sorted := by
      refine (lookup_sorted_common e .reference).trans ?_
      rw [written, hr]
      rfl
    have hpass := hproperties ("ref", Codec.referenceSchema) (by simp) _ hwritten
    exact (Codec.referenceSchema_eq_nil_iff _ r).mp hpass

theorem elementSchema_of_filled (place : String) (h : e.Filled) :
    Codec.elementSchema place e.toJson.sorted = [] := by
  obtain ⟨hid, hreference⟩ := h
  rw [toJson, Value.sorted, Codec.elementSchema, Check.isObject_eq_nil_iff]
  constructor
  · intro property hproperty v hv
    simp only [List.mem_cons, List.not_mem_nil, or_false] at hproperty
    -- One case for each property of the schema, in its order.
    rcases hproperty with rfl | rfl | rfl | rfl | rfl | rfl | rfl | rfl
    · rw [lookup_sorted] at hv
      obtain ⟨w, hw, rfl⟩ := Option.map_eq_some_iff.mp hv
      exact isText_of_channel _ hw
    · refine passes_of_common .checksum ?_ hv
      intro w hw
      obtain ⟨c, _, rfl⟩ := Option.map_eq_some_iff.mp hw
      rw [Codec.sorted_checksum]
      exact Codec.checksumSchema_toJson _ c
    · refine passes_of_common .flavor ?_ hv
      intro w hw
      obtain ⟨f, _, rfl⟩ := Option.map_eq_some_iff.mp hw
      exact if_pos (Check.isPair_text f)
    · refine passes_of_common .id ?_ hv
      intro w hw
      obtain ⟨s, hs, rfl⟩ := Option.map_eq_some_iff.mp hw
      refine Check.isNonemptyText_eq_nil_iff.mpr ?_
      rintro rfl
      exact hid hs
    · refine passes_of_common .reference ?_ hv
      intro w hw
      obtain ⟨r, hr, rfl⟩ := Option.map_eq_some_iff.mp hw
      exact (Codec.referenceSchema_eq_nil_iff _ r).mpr (hreference r hr)
    · refine passes_of_common .tags ?_ hv
      intro w hw
      obtain ⟨-, hlist⟩ := Option.ite_none_left_eq_some.mp hw
      obtain rfl := Option.some.inj hlist
      rw [Value.sorted, Codec.sortedItems_texts]
      exact (Check.isSet_texts_iff _).mpr e.tags.nodup
    · have hkind : e.kind.name ≠ "" := by
        cases e.kind <;> decide
      rw [lookup_sorted, lookup_type] at hv
      obtain rfl : Value.text e.kind.name = v := Option.some.inj hv
      exact Check.isNonemptyText_eq_nil_iff.mpr hkind
    · refine passes_of_common .uri ?_ hv
      intro w hw
      obtain ⟨s, _, rfl⟩ := Option.map_eq_some_iff.mp hw
      rfl
  · intro key hkey
    obtain rfl := List.mem_singleton.mp hkey
    rw [lookup_sorted, lookup_type]
    rfl

/-- The written element `e` meets the schema exactly if no text of it is empty that must not be. -/
theorem elementSchema_eq_nil_iff (place : String) (e : Element) :
    Codec.elementSchema place e.toJson.sorted = [] ↔ e.Filled :=
  ⟨filled_of_elementSchema, elementSchema_of_filled place⟩

end Element

namespace Contents

theorem field?_sorted (c : Contents) (name : String) :
    c.toJson.sorted.field? name = (lookup name c.entries).map Value.sorted :=
  Value.field?_sorted c.nodup_keys name

theorem id_sorted (c : Contents) :
    c.toJson.sorted.field? "id" = c.identifier.map Value.text := by
  rw [field?_sorted, lookup_entries]
  cases c.identifier <;> rfl

theorem title_sorted (c : Contents) :
    c.toJson.sorted.field? "title" = c.title.map Value.text := by
  rw [field?_sorted, lookup_entries]
  cases c.title <;> rfl

theorem elements_sorted (c : Contents) :
    c.toJson.sorted.field? "elements" =
      some (.list (c.elements.map fun e => e.toJson.sorted)) := by
  have hitems : Value.sortedItems (c.elements.map Element.toJson) =
      c.elements.map fun e => e.toJson.sorted := by
    rw [Value.sortedItems_eq, List.map_map]
    rfl
  rw [field?_sorted, lookup_entries, ← hitems]
  rfl

theorem isTextOrNull_of_map {place : String} {s : Option String} {v : Value}
    (hv : s.map Value.text = some v) : Check.isTextOrNull place v = [] := by
  obtain ⟨t, _, rfl⟩ := Option.map_eq_some_iff.mp hv
  rfl

theorem elements_eq_nil_iff (place : String) (c : Contents) :
    Check.isList Codec.elementSchema place (.list (c.elements.map fun e => e.toJson.sorted)) =
      [] ↔ ∀ e ∈ c.elements, e.Filled := by
  have hvalid : ∀ v ∈ c.elements.map fun e => e.toJson.sorted, ∀ place,
      Codec.elementSchema place v = [] ↔ Codec.elementSchema "" v = [] := by
    intro v hv place
    obtain ⟨e, _, rfl⟩ := List.mem_map.mp hv
    rw [e.elementSchema_eq_nil_iff place, e.elementSchema_eq_nil_iff ""]
  rw [Check.isList, Check.items_eq_nil_iff hvalid, List.forall_mem_map]
  exact forall₂_congr fun e _ => e.elementSchema_eq_nil_iff ""

/-- What is written of `c` meets the schema exactly if the elements of `c` meet theirs. -/
theorem packageSchema_eq_nil_iff (c : Contents) :
    Codec.packageSchema "" c.toJson.sorted = [] ↔ ∀ e ∈ c.elements, e.Filled := by
  have hid := c.id_sorted
  have htitle := c.title_sorted
  have helements := c.elements_sorted
  rw [toJson_eq, Value.sorted, Value.field?] at hid htitle helements
  rw [toJson_eq, Value.sorted, Codec.packageSchema, Check.isObject_eq_nil_iff]
  constructor
  · rintro ⟨hproperties, -⟩
    have hpass := hproperties ("elements", Check.isList Codec.elementSchema) (by simp) _ helements
    exact (elements_eq_nil_iff _ c).mp hpass
  · intro hfilled
    constructor
    · intro property hproperty v hv
      simp only [List.mem_cons, List.not_mem_nil, or_false] at hproperty
      rcases hproperty with rfl | rfl | rfl
      · obtain rfl := Option.some.inj (helements.symm.trans hv)
        exact (elements_eq_nil_iff _ c).mpr hfilled
      · exact isTextOrNull_of_map (hid.symm.trans hv)
      · exact isTextOrNull_of_map (htitle.symm.trans hv)
    · intro key hkey
      obtain rfl := List.mem_singleton.mp hkey
      rw [helements]
      rfl

theorem validate_of_filled {c : Contents} (h : ∀ e ∈ c.elements, e.Filled) :
    Codec.validate c.toJson.sorted = .ok () := by
  rw [Codec.validate, c.packageSchema_eq_nil_iff.mpr h]

theorem exists_schema_of_not_filled {c : Contents} (h : ∃ e ∈ c.elements, ¬ e.Filled) :
    ∃ reason, Codec.validate c.toJson.sorted = .error (.schema reason) := by
  have hviolated : Codec.packageSchema "" c.toJson.sorted ≠ [] := by
    intro hnil
    obtain ⟨e, he, hempty⟩ := h
    exact hempty (c.packageSchema_eq_nil_iff.mp hnil e he)
  unfold Codec.validate
  split
  · next hnil => exact absurd hnil hviolated
  · exact ⟨_, rfl⟩

end Contents

end MediaManifest
