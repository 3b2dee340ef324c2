import MediaManifest.Proofs.Codec.Elements

/-!
# Texts of single elements

An element or a flavor can be written as a text of its own.  Reading it back asks no schema, so
an empty identifier or an empty reference is no obstacle, and it meets the keys in the order
they were written in.  Only in a reference is that not the order of the keys themselves.
-/

namespace MediaManifest

open Json (Tree Value)

namespace Codec

variable {α : Type}

/-- The text of a value `v` of integers, texts and what holds them is decoded as its tree is read.
-/
theorem decodeText_render (read : Tree → Except Fault α) (indented : Bool) {v : Value}
    (hwhole : v.whole = true) :
    decodeText read (v.render indented) = (read (Tree.ofValue v)).mapError Error.codec := by
  have hfinish : Json.Draft.finish ⟨Tree.ofValue v, false⟩ Fault.json read =
      read (Tree.ofValue v) := by
    unfold Json.Draft.finish
    split
    · next fault hread => exact hread.symm
    · next a hread => exact hread.symm
  rw [decodeText, Json.ofSymbols_render indented hwhole, hfinish]

/-- The fields of the reference `r` are read in the order they were written in as well. -/
theorem readReference_toJson (r : Reference) : readReference (Tree.ofValue r.toJson) = .ok r :=
  rfl

end Codec

open Codec (CommonKey readCommon readBody)

/-- The text of the flavor `f` is read as `f`. -/
theorem Flavor.decodeFlavor_render (indented : Bool) (f : Flavor) :
    Codec.decodeFlavor ((Value.text f.text).render indented) = .ok f := by
  have hwhole : (Value.text f.text).whole = true := rfl
  rw [Codec.decodeFlavor, Codec.decodeText_render _ indented hwhole, Codec.readFlavor_ofValue]
  rfl

/-- What is written of the body `b` is read as it was, in the order it was written in. -/
theorem Body.readBody_entries (b : Body) : readBody b.entries = .ok b := by
  rcases b with ⟨video, audio, _ | ms⟩ | _ | _ | channel
  · rfl
  · have hkind : Codec.findKind none (track video audio (some ms)).entries = .ok .track := rfl
    have hfields : Codec.readTrack ⟨none, none, none⟩ (track video audio (some ms)).entries =
        .ok ⟨some video, some audio, some (some ms)⟩ := by
      simp only [entries, List.cons_append, List.nil_append, Codec.readTrack,
        Codec.readDuration_ofNat]
      rfl
    rw [readBody, hkind]
    simp only [hfields]
    rfl
  · rfl
  · rfl
  · rfl

namespace Element

variable {e : Element} {key : CommonKey} {v : Value} {room : Nat}

/-- Only what is written of a reference has its keys out of order. -/
theorem sorted_of_written (h : e.written key = some v) (hkey : key ≠ .reference) :
    v.sorted = v := by
  cases key with
  | reference => exact absurd rfl hkey
  | tags =>
      obtain ⟨-, hlist⟩ := Option.ite_none_left_eq_some.mp h
      obtain rfl := Option.some.inj hlist
      rw [Value.sorted, Codec.sortedItems_texts]
  | checksum =>
      obtain ⟨c, -, rfl⟩ := Option.map_eq_some_iff.mp h
      exact Codec.sorted_checksum c
  | id | flavor | uri | mimeType =>
      obtain ⟨-, -, rfl⟩ := Option.map_eq_some_iff.mp h
      exact Value.sorted_of_depth_eq_zero rfl

/-- The value `v` that `e` has written under `key` is read as what `e` has of it. -/
theorem readCommon_ofValue (h : e.written key = some v) (x : Element) :
    readCommon x (Tree.ofValue v) key = .ok (x.withCommon e key) := by
  by_cases hkey : key = .reference
  · subst hkey
    obtain ⟨r, hr, rfl⟩ := Option.map_eq_some_iff.mp h
    have hread := Codec.readOptional_of_ok (Codec.readReference_toJson r) Tree.noConfusion
    rw [withCommon, hr]
    exact congrArg (Except.map fun reference => { x with reference := reference }) hread
  · rw [← sorted_of_written h hkey]
    exact readCommon_written h x

/-- The entries of the written element `e` are read as what it has, each where it stands. -/
theorem readAs_of_mem_entries {entry : Codec.Entry} (hroom : 0 < room)
    (h : entry ∈ e.entries) : e.ReadAs room entry := by
  obtain ⟨name, v⟩ := entry
  rcases mem_entries h with ⟨key, hname, hwritten⟩ | hbody
  · obtain rfl : name = key.name := hname
    simp only [ReadAs, CommonKey.ofName?_name]
    exact readCommon_ofValue hwritten
  · have hname : CommonKey.ofName? name = none :=
      Codec.ofName?_of_mem_bodyKeys (e.body.keys_sublist.subset (List.mem_map_of_mem hbody))
    obtain ⟨-, hdepth⟩ := simple_of_mem_body hbody
    have hfits : v.depth < room := by
      rw [hdepth]
      exact hroom
    simp only [ReadAs, hname]
    rw [Json.read_ofValue _ v hfits, Value.sorted_of_depth_eq_zero hdepth]

/-- The written element `e` is read as it was, its keys in the order they were written in. -/
theorem readElement_toJson (hroom : 0 < room) (e : Element) :
    Codec.readElement room (Tree.ofValue e.toJson) = .ok e := by
  apply Codec.readElement_object
  · exact fun _ => readAs_of_mem_entries hroom
  · exact e.nodup_keys
  · intro key habsent
    rw [← Value.lookup_eq_none_iff, lookup_entries_common] at habsent
    exact agreesAt_of_written_eq_none habsent .catalog
  · rw [filter_entries]
    exact e.body.readBody_entries

/-- Every element `e` is read back from its text, on one line or `indented`, whatever it has and
whatever it lacks. -/
theorem decodeElement_render (indented : Bool) (e : Element) :
    Codec.decodeElement (e.toJson.render indented) = .ok e := by
  have hroom : 0 < Json.depthLimit - 1 := by decide
  rw [Codec.decodeElement, Codec.decodeText_render _ indented e.whole_toJson,
    readElement_toJson hroom]
  rfl

end Element

end MediaManifest
