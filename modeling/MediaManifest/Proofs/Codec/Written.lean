import MediaManifest.Codec.ElementReader
import MediaManifest.Codec.Encoding
import MediaManifest.Proofs.Json.Sorting

/-!
# Written elements

What a written element holds under each key.  A key stands for an attribute
that all kinds have or for one of its kind; no key repeats, and an absent
attribute has no key.
-/

namespace MediaManifest

open Json (Value)
open Json.Value (lookup)

namespace Codec

namespace CommonKey

def name : CommonKey → String
  | id => "id"
  | flavor => "flavor"
  | tags => "tags"
  | checksum => "checksum"
  | reference => "ref"
  | uri => "uri"
  | mimeType => "mime_type"

/-- Only the name of `key` names it. -/
theorem ofName?_eq_some_iff {s : String} {key : CommonKey} :
    ofName? s = some key ↔ s = key.name := by
  constructor
  · unfold ofName?
    split <;> rintro ⟨⟩ <;> rfl
  · rintro rfl
    cases key <;> rfl

@[simp] theorem ofName?_name (key : CommonKey) : ofName? key.name = some key :=
  ofName?_eq_some_iff.mpr rfl

theorem name_injective : Function.Injective name := by
  intro a b hname
  have ha := ofName?_name a
  rw [hname, ofName?_name] at ha
  exact (Option.some.inj ha).symm

theorem name_ne_of_ofName?_eq_none {s : String} (h : ofName? s = none) (key : CommonKey) :
    key.name ≠ s := by
  rintro rfl
  rw [ofName?_name] at h
  cases h

end CommonKey

/-- The keys of attributes that not all kinds have. -/
def bodyKeys : List String :=
  ["type", "has_video", "has_audio", "duration_ms", "channel"]

theorem ofName?_of_mem_bodyKeys {name : String} (h : name ∈ bodyKeys) :
    CommonKey.ofName? name = none := by
  revert name
  decide

/-- The entry under the key `name` for a `value` that may be absent. -/
def optionalEntry (name : String) (value : Option Value) : List Entry :=
  (value.map fun v => (name, v)).toList

theorem textEntry_eq (name : String) (s : Option String) :
    textEntry name s = optionalEntry name (s.map Value.text) := by
  cases s <;> rfl

theorem lookup_optionalEntry (key name : String) (value : Option Value) :
    lookup key (optionalEntry name value) = if name = key then value else none := by
  cases value with
  | none => simp [optionalEntry, lookup]
  | some v => simp [optionalEntry, lookup]

theorem keys_optionalEntry (name : String) (value : Option Value) :
    ((optionalEntry name value).map Prod.fst).Sublist [name] := by
  cases value with
  | none => exact List.nil_sublist _
  | some v => exact List.Sublist.refl _

end Codec

open Codec (CommonKey bodyKeys optionalEntry textEntry_eq lookup_optionalEntry
  keys_optionalEntry)

theorem Body.keys_sublist (b : Body) : (b.entries.map Prod.fst).Sublist bodyKeys := by
  have hshort : List.Sublist ["type", "has_video", "has_audio"] bodyKeys := by decide
  have hlong : List.Sublist ["type", "has_video", "has_audio", "duration_ms"] bodyKeys := by
    decide
  have htype : List.Sublist ["type"] bodyKeys := by decide
  have hchannel : List.Sublist ["type", "channel"] bodyKeys := by decide
  cases b with
  | track video audio duration => cases duration with
    | none => exact hshort
    | some ms => exact hlong
  | catalog => exact htype
  | attachment => exact htype
  | publication channel => exact hchannel

theorem Body.nodup_keys (b : Body) : (b.entries.map Prod.fst).Nodup := by
  have hall : bodyKeys.Nodup := by decide
  exact hall.sublist b.keys_sublist

namespace Element

/-- What the written element `e` holds under a common key. -/
def written (e : Element) : CommonKey → Option Value
  | .id => e.id.map .text
  | .flavor => e.flavor.map fun f => .text f.text
  | .tags => if e.tags.toList.isEmpty then none else some (.list (e.tags.toList.map .text))
  | .checksum => e.checksum.map Checksum.toJson
  | .reference => e.reference.map Reference.toJson
  | .uri => e.uri.map .text
  | .mimeType => e.mimeType.map .text

/-- The entry of the common key `key`, if `e` has one. -/
def piece (e : Element) (key : CommonKey) : List Codec.Entry :=
  optionalEntry key.name (e.written key)

variable {e : Element} {name : String} {v : Value}

theorem entries_eq (e : Element) :
    e.entries = e.piece .id ++ e.body.entries ++ e.piece .flavor ++ e.piece .tags ++
      e.piece .checksum ++ e.piece .reference ++ e.piece .uri ++ e.piece .mimeType := by
  have hflavor : Codec.textEntry "flavor" (e.flavor.map Flavor.text) = e.piece .flavor := by
    unfold piece written
    cases e.flavor <;> rfl
  have htags : e.piece .tags = if e.tags.toList.isEmpty then []
      else [("tags", .list (e.tags.toList.map Value.text))] := by
    rw [piece, written]
    cases e.tags.toList.isEmpty <;> rfl
  rw [entries, textEntry_eq "id", textEntry_eq "uri", textEntry_eq "mime_type", hflavor, htags]
  unfold piece written
  cases e.checksum <;> cases e.reference <;> rfl

/-- The keys of the written element `e` are distinct. -/
theorem nodup_keys (e : Element) : (e.entries.map Prod.fst).Nodup := by
  have hall : (["id"] ++ bodyKeys ++ ["flavor"] ++ ["tags"] ++ ["checksum"] ++ ["ref"] ++
      ["uri"] ++ ["mime_type"]).Nodup := by decide
  refine List.Nodup.sublist ?_ hall
  rw [entries_eq]
  simp only [List.map_append]
  exact ((((((((keys_optionalEntry _ _).append e.body.keys_sublist).append
    (keys_optionalEntry _ _)).append (keys_optionalEntry _ _)).append
    (keys_optionalEntry _ _)).append (keys_optionalEntry _ _)).append
    (keys_optionalEntry _ _)).append (keys_optionalEntry _ _))

/-- Under the common key `key` stands what `e` has of it. -/
theorem lookup_entries_common (e : Element) (key : CommonKey) :
    lookup key.name e.entries = e.written key := by
  have hbody : lookup key.name e.body.entries = none := by
    rw [Value.lookup_eq_none_iff]
    intro hmem
    have hnone := Codec.ofName?_of_mem_bodyKeys (e.body.keys_sublist.subset hmem)
    rw [CommonKey.ofName?_name] at hnone
    cases hnone
  simp only [entries_eq, Value.lookup_append, piece, lookup_optionalEntry, hbody]
  cases key <;> simp [CommonKey.name]

/-- Under any other key `name` stands what the kind of `e` has of it. -/
theorem lookup_entries_of_none (e : Element) (hname : CommonKey.ofName? name = none) :
    lookup name e.entries = lookup name e.body.entries := by
  have hne := CommonKey.name_ne_of_ofName?_eq_none hname
  simp only [entries_eq, Value.lookup_append, piece, lookup_optionalEntry, if_neg (hne _)]
  simp

/-! ## Nesting and numbers -/

theorem whole_ofNat {n : Nat} (hn : n < 2 ^ 64) : (Value.ofNat n).whole = true := by
  rw [Value.ofNat, Json.Number.ofNat, dif_pos hn]
  rfl

/-- What a kind has of its own is neither a list nor an object. -/
theorem simple_of_mem_body {b : Body} {entry : Codec.Entry} (h : entry ∈ b.entries) :
    entry.2.whole = true ∧ entry.2.depth = 0 := by
  cases b with
  | track video audio duration =>
      rcases List.mem_append.mp h with h | h
      · simp only [List.mem_cons, List.not_mem_nil, or_false] at h
        rcases h with rfl | rfl | rfl <;> exact ⟨rfl, rfl⟩
      · cases duration with
        | none => cases h
        | some ms =>
            obtain rfl := List.mem_singleton.mp h
            exact ⟨whole_ofNat ms.toNat_lt, rfl⟩
  | catalog =>
      obtain rfl := List.mem_singleton.mp h
      exact ⟨rfl, rfl⟩
  | attachment =>
      obtain rfl := List.mem_singleton.mp h
      exact ⟨rfl, rfl⟩
  | publication channel =>
      simp only [Body.entries, List.mem_cons, List.not_mem_nil, or_false] at h
      rcases h with rfl | rfl <;> exact ⟨rfl, rfl⟩

/-- What a common key holds is at most one level deep. -/
theorem shallow_of_written {key : CommonKey} (h : e.written key = some v) :
    v.whole = true ∧ v.depth ≤ 1 := by
  cases key with
  | id =>
      obtain ⟨s, _, rfl⟩ := Option.map_eq_some_iff.mp h
      exact ⟨rfl, Nat.zero_le 1⟩
  | flavor =>
      obtain ⟨f, _, rfl⟩ := Option.map_eq_some_iff.mp h
      exact ⟨rfl, Nat.zero_le 1⟩
  | tags =>
      obtain ⟨-, hlist⟩ := Option.ite_none_left_eq_some.mp h
      obtain rfl := Option.some.inj hlist
      have hwhole : ∀ w ∈ e.tags.toList.map Value.text, w.whole = true := by
        intro w hw
        obtain ⟨_, _, rfl⟩ := List.mem_map.mp hw
        rfl
      have hdepth : ∀ w ∈ e.tags.toList.map Value.text, w.depth ≤ 0 := by
        intro w hw
        obtain ⟨_, _, rfl⟩ := List.mem_map.mp hw
        exact Nat.le_refl 0
      exact ⟨Value.wholeItems_iff.mpr hwhole,
        Nat.succ_le_succ (Value.depthItems_le_iff.mpr hdepth)⟩
  | checksum =>
      obtain ⟨c, _, rfl⟩ := Option.map_eq_some_iff.mp h
      exact ⟨rfl, Nat.le_refl 1⟩
  | reference =>
      obtain ⟨r, _, rfl⟩ := Option.map_eq_some_iff.mp h
      exact ⟨rfl, Nat.le_refl 1⟩
  | uri =>
      obtain ⟨s, _, rfl⟩ := Option.map_eq_some_iff.mp h
      exact ⟨rfl, Nat.zero_le 1⟩
  | mimeType =>
      obtain ⟨s, _, rfl⟩ := Option.map_eq_some_iff.mp h
      exact ⟨rfl, Nat.zero_le 1⟩

/-- An `entry` of the written element `e` is that of a common key, or one of its kind. -/
theorem mem_entries {entry : Codec.Entry} (h : entry ∈ e.entries) :
    (∃ key, entry.1 = CommonKey.name key ∧ e.written key = some entry.2) ∨
      entry ∈ e.body.entries := by
  obtain ⟨name, v⟩ := entry
  have hlookup := (Value.lookup_eq_some_iff e.nodup_keys).mpr h
  cases hname : CommonKey.ofName? name with
  | some key =>
      obtain rfl := CommonKey.ofName?_eq_some_iff.mp hname
      rw [lookup_entries_common] at hlookup
      exact .inl ⟨key, rfl, hlookup⟩
  | none =>
      rw [lookup_entries_of_none e hname] at hlookup
      exact .inr ((Value.lookup_eq_some_iff e.body.nodup_keys).mp hlookup)

theorem shallow_of_mem_entries {entry : Codec.Entry} (h : entry ∈ e.entries) :
    entry.2.whole = true ∧ entry.2.depth ≤ 1 := by
  rcases mem_entries h with ⟨key, -, hwritten⟩ | hbody
  · exact shallow_of_written hwritten
  · obtain ⟨hwhole, hdepth⟩ := simple_of_mem_body hbody
    exact ⟨hwhole, by omega⟩

theorem whole_toJson (e : Element) : e.toJson.whole = true :=
  Value.wholeEntries_iff.mpr fun _ h => (shallow_of_mem_entries h).1

theorem depth_toJson_le (e : Element) : e.toJson.depth ≤ 2 :=
  Nat.succ_le_succ (Value.depthEntries_le_iff.mpr fun _ h => (shallow_of_mem_entries h).2)

end Element

namespace Contents

/-- The entries of the object that is written of `c`. -/
def entries (c : Contents) : List Codec.Entry :=
  Codec.textEntry "id" c.identifier ++ Codec.textEntry "title" c.title ++
    [("elements", .list (c.elements.map Element.toJson))]

theorem toJson_eq (c : Contents) : c.toJson = .object c.entries :=
  rfl

theorem nodup_keys (c : Contents) : (c.entries.map Prod.fst).Nodup := by
  have hall : (["id"] ++ ["title"] ++ ["elements"]).Nodup := by decide
  refine List.Nodup.sublist ?_ hall
  rw [entries, textEntry_eq, textEntry_eq, List.map_append, List.map_append]
  exact ((keys_optionalEntry _ _).append (keys_optionalEntry _ _)).append (List.Sublist.refl _)

theorem lookup_entries (c : Contents) (name : String) :
    lookup name c.entries =
      ((if "id" = name then c.identifier.map Value.text else none).or
        (if "title" = name then c.title.map Value.text else none)).or
          (if "elements" = name then some (.list (c.elements.map Element.toJson)) else none) := by
  rw [entries, textEntry_eq, textEntry_eq, Value.lookup_append, Value.lookup_append,
    lookup_optionalEntry, lookup_optionalEntry]
  rfl

theorem shallow_of_mem_textEntry {key : String} {s : Option String} {entry : Codec.Entry}
    (h : entry ∈ Codec.textEntry key s) : entry.2.whole = true ∧ entry.2.depth = 0 := by
  cases s with
  | none => cases h
  | some s =>
      obtain rfl := List.mem_singleton.mp h
      exact ⟨rfl, rfl⟩

theorem shallow_of_mem_entries {c : Contents} {entry : Codec.Entry} (h : entry ∈ c.entries) :
    entry.2.whole = true ∧ entry.2.depth ≤ 3 := by
  rcases List.mem_append.mp h with h | h
  · rcases List.mem_append.mp h with h | h
    · obtain ⟨hwhole, hdepth⟩ := shallow_of_mem_textEntry h
      exact ⟨hwhole, by omega⟩
    · obtain ⟨hwhole, hdepth⟩ := shallow_of_mem_textEntry h
      exact ⟨hwhole, by omega⟩
  · obtain rfl := List.mem_singleton.mp h
    have hwhole : ∀ w ∈ c.elements.map Element.toJson, w.whole = true := by
      intro w hw
      obtain ⟨e, _, rfl⟩ := List.mem_map.mp hw
      exact e.whole_toJson
    have hdepth : ∀ w ∈ c.elements.map Element.toJson, w.depth ≤ 2 := by
      intro w hw
      obtain ⟨e, _, rfl⟩ := List.mem_map.mp hw
      exact e.depth_toJson_le
    exact ⟨Value.wholeItems_iff.mpr hwhole,
      Nat.succ_le_succ (Value.depthItems_le_iff.mpr hdepth)⟩

/-- The text of `c` is read back as its value with the objects in the order of their keys. -/
theorem ofContent_encode (indented : Bool) (c : Contents) :
    Value.ofContent (.text (c.encode indented)) = .ok c.toJson.sorted := by
  have hwhole : c.toJson.whole = true :=
    Value.wholeEntries_iff.mpr fun _ h => (shallow_of_mem_entries h).1
  have hdepth : c.toJson.depth ≤ 4 :=
    Nat.succ_le_succ (Value.depthEntries_le_iff.mpr fun _ h => (shallow_of_mem_entries h).2)
  have hroom : c.toJson.depth < Json.depthLimit := Nat.lt_of_le_of_lt hdepth (by decide)
  exact Json.ofContent_render indented hwhole hroom

end Contents

end MediaManifest
