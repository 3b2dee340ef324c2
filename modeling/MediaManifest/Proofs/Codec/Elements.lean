import MediaManifest.Proofs.Codec.Entries
import MediaManifest.Proofs.Codec.Fields

/-!
# Reading written elements

An object is read as a given element if no key of it repeats, if the value of
each common key is read as what the element has of it, and if the other
entries are read as what its kind has of its own.  The entries of a written
element are such an object, in the order of their keys as well.
-/

namespace MediaManifest

open Codec (CommonKey Partial readCommon readBody)
open Json (Tree Value)
open Json.Value (lookup sortedEntries)

namespace Element

/-- Elements `x` and `e` that have the same of the common key `key`. -/
def AgreesAt (key : CommonKey) (x e : Element) : Prop :=
  match key with
  | .id => x.id = e.id
  | .flavor => x.flavor = e.flavor
  | .tags => x.tags = e.tags
  | .checksum => x.checksum = e.checksum
  | .reference => x.reference = e.reference
  | .uri => x.uri = e.uri
  | .mimeType => x.mimeType = e.mimeType

/-- The element `x` with what `e` has of a common key. -/
def withCommon (x e : Element) : CommonKey → Element
  | .id => { x with id := e.id }
  | .flavor => { x with flavor := e.flavor }
  | .tags => { x with tags := e.tags }
  | .checksum => { x with checksum := e.checksum }
  | .reference => { x with reference := e.reference }
  | .uri => { x with uri := e.uri }
  | .mimeType => { x with mimeType := e.mimeType }

variable {x y e : Element} {key other : CommonKey} {v : Value}

theorem agreesAt_refl (key : CommonKey) (x : Element) : AgreesAt key x x := by
  cases key <;> rfl

theorem AgreesAt.trans (hxy : AgreesAt key x y) (hye : AgreesAt key y e) :
    AgreesAt key x e := by
  cases key <;> exact Eq.trans hxy hye

theorem agreesAt_withCommon (key : CommonKey) (x e : Element) :
    AgreesAt key (x.withCommon e key) e := by
  cases key <;> rfl

theorem agreesAt_withCommon_of_ne (hne : other ≠ key) (x e : Element) :
    AgreesAt other (x.withCommon e key) x := by
  cases key <;> cases other <;> first | rfl | exact absurd rfl hne

/-- Elements `x` and `e` are equal if they agree at all common keys and in what their kinds have. -/
theorem eq_of_agreesAt (h : ∀ key, AgreesAt key x e) (hbody : x.body = e.body) : x = e := by
  have hid : x.id = e.id := h .id
  have hflavor : x.flavor = e.flavor := h .flavor
  have htags : x.tags = e.tags := h .tags
  have hchecksum : x.checksum = e.checksum := h .checksum
  have hreference : x.reference = e.reference := h .reference
  have huri : x.uri = e.uri := h .uri
  have hmime : x.mimeType = e.mimeType := h .mimeType
  cases x
  cases e
  simp_all

/-- What `e` has written under a common key is read as what `e` has of it. -/
theorem readCommon_written (h : e.written key = some v) (x : Element) :
    readCommon x (Tree.ofValue v.sorted) key = .ok (x.withCommon e key) := by
  cases key with
  | id =>
      obtain ⟨s, hs, rfl⟩ := Option.map_eq_some_iff.mp h
      rw [withCommon, hs]
      rfl
  | flavor =>
      obtain ⟨f, hf, rfl⟩ := Option.map_eq_some_iff.mp h
      have hread := Codec.readOptional_of_ok (Codec.readFlavor_ofValue f) Tree.noConfusion
      rw [withCommon, hf]
      exact congrArg (Except.map fun flavor => { x with flavor := flavor }) hread
  | tags =>
      obtain ⟨-, hlist⟩ := Option.ite_none_left_eq_some.mp h
      obtain rfl := Option.some.inj hlist
      rw [withCommon, Value.sorted, Codec.sortedItems_texts, readCommon,
        Codec.readTags_ofValue]
      rfl
  | checksum =>
      obtain ⟨c, hc, rfl⟩ := Option.map_eq_some_iff.mp h
      have hread := Codec.readOptional_of_ok (Codec.readChecksum_ofValue c) Tree.noConfusion
      rw [withCommon, hc, Codec.sorted_checksum]
      exact congrArg (Except.map fun checksum => { x with checksum := checksum }) hread
  | reference =>
      obtain ⟨r, hr, rfl⟩ := Option.map_eq_some_iff.mp h
      have hread := Codec.readOptional_of_ok (Codec.readReference_ofValue r) Tree.noConfusion
      rw [withCommon, hr]
      exact congrArg (Except.map fun reference => { x with reference := reference }) hread
  | uri =>
      obtain ⟨s, hs, rfl⟩ := Option.map_eq_some_iff.mp h
      rw [withCommon, hs]
      rfl
  | mimeType =>
      obtain ⟨s, hs, rfl⟩ := Option.map_eq_some_iff.mp h
      rw [withCommon, hs]
      rfl

/-- What is not written under a common key is absent. -/
theorem agreesAt_of_written_eq_none (h : e.written key = none) (body : Body) :
    AgreesAt key (ofBody body) e := by
  cases key with
  | id => exact (Option.map_eq_none_iff.mp h).symm
  | flavor => exact (Option.map_eq_none_iff.mp h).symm
  | tags =>
      have hempty : e.tags.toList.isEmpty := by
        by_contra hfull
        rw [written, if_neg hfull] at h
        cases h
      exact Tags.eq_of_toList_eq (List.isEmpty_iff.mp hempty).symm
  | checksum => exact (Option.map_eq_none_iff.mp h).symm
  | reference => exact (Option.map_eq_none_iff.mp h).symm
  | uri => exact (Option.map_eq_none_iff.mp h).symm
  | mimeType => exact (Option.map_eq_none_iff.mp h).symm

/-- An entry of a common key that is read as what `e` has of it, or an entry of another key that
is read as it stands, with `room` levels left. -/
def ReadAs (e : Element) (room : Nat) (entry : Codec.Entry) : Prop :=
  match CommonKey.ofName? entry.1 with
  | some key => ∀ x, readCommon x (Tree.ofValue entry.2) key = .ok (x.withCommon e key)
  | none => (Tree.ofValue entry.2).read room = .ok entry.2

end Element

namespace Codec

open Element (AgreesAt ReadAs)

/-- Whether a key is not one of those common to all kinds. -/
def ownKey (name : String) : Bool :=
  (CommonKey.ofName? name).isNone

variable {e : Element} {es : List Entry} {p q : Partial} {key : CommonKey} {room : Nat}
  {name : String} {v : Value}

theorem readEntry_common (hread : e.ReadAs room (key.name, v)) (hmet : key ∉ p.met) :
    p.readEntry room key.name (Tree.ofValue v) =
      .ok { p with met := key :: p.met, element := p.element.withCommon e key } := by
  have hname := CommonKey.ofName?_name key
  simp only [ReadAs, hname] at hread
  rw [Partial.readEntry, hname]
  simp only [List.contains_iff_mem, if_neg hmet, hread p.element]
  rfl

theorem readEntry_own (hread : e.ReadAs room (name, v)) (hname : CommonKey.ofName? name = none) :
    p.readEntry room name (Tree.ofValue v) = .ok { p with others := p.others ++ [(name, v)] } := by
  simp only [ReadAs, hname] at hread
  rw [Partial.readEntry, hname]
  simp only [hread]
  rfl

/-- What becomes of a partial element as entries with what `e` has are read: the common
keys among them are set, and the other entries are collected in order. -/
structure Absorbs (e : Element) (es : List Entry) (p q : Partial) : Prop where
  others : q.others = p.others ++ es.filter fun entry => ownKey entry.1
  set : ∀ key, CommonKey.name key ∈ es.map Prod.fst → AgreesAt key q.element e
  kept : ∀ key, CommonKey.name key ∉ es.map Prod.fst → AgreesAt key q.element p.element

theorem Absorbs.nil (e : Element) (p : Partial) : Absorbs e [] p p := by
  refine ⟨(List.append_nil _).symm, ?_, ?_⟩
  · intro key hkey
    cases hkey
  · intro key _
    exact Element.agreesAt_refl key p.element

theorem Absorbs.cons_common
    (h : Absorbs e es { p with met := key :: p.met, element := p.element.withCommon e key } q) :
    Absorbs e ((key.name, v) :: es) p q := by
  have hname := CommonKey.ofName?_name key
  refine ⟨?_, ?_, ?_⟩
  · rw [h.others, List.filter_cons_of_neg (by simp [ownKey, hname])]
  · intro other hmem
    by_cases hlater : CommonKey.name other ∈ es.map Prod.fst
    · exact h.set other hlater
    · have hsame : other.name = key.name := (List.mem_cons.mp hmem).resolve_right hlater
      obtain rfl := CommonKey.name_injective hsame
      exact (h.kept other hlater).trans (Element.agreesAt_withCommon other p.element e)
  · intro other hmem
    obtain ⟨hfirst, hlater⟩ := not_or.mp (mt List.mem_cons.mpr hmem)
    have hne : other ≠ key := fun hsame => hfirst (congrArg CommonKey.name hsame)
    exact (h.kept other hlater).trans (Element.agreesAt_withCommon_of_ne hne p.element e)

theorem Absorbs.cons_own (hname : CommonKey.ofName? name = none)
    (h : Absorbs e es { p with others := p.others ++ [(name, v)] } q) :
    Absorbs e ((name, v) :: es) p q := by
  have hne := CommonKey.name_ne_of_ofName?_eq_none hname
  refine ⟨?_, ?_, ?_⟩
  · rw [h.others, List.filter_cons_of_pos (by simp [ownKey, hname]), List.append_assoc,
      List.singleton_append]
  · intro key hmem
    exact h.set key ((List.mem_cons.mp hmem).resolve_left (hne key))
  · intro key hmem
    exact h.kept key fun hlater => hmem (List.mem_cons_of_mem _ hlater)

/-- Entries with distinct keys that were not met before are read if each of them is. -/
theorem exists_readEntries (hreads : ∀ entry ∈ es, e.ReadAs room entry)
    (hdistinct : (es.map Prod.fst).Nodup)
    (hfresh : ∀ key ∈ p.met, CommonKey.name key ∉ es.map Prod.fst) :
    ∃ q, p.readEntries room (Tree.ofEntries es) = .ok q ∧ Absorbs e es p q := by
  -- No key met so far has an entry among those to come, so none of them is refused.
  induction es generalizing p with
  | nil => exact ⟨p, rfl, .nil e p⟩
  | cons entry es ih =>
      obtain ⟨name, v⟩ := entry
      have hfirst := hreads (name, v) List.mem_cons_self
      have hrest : ∀ entry ∈ es, e.ReadAs room entry := fun entry hentry =>
        hreads entry (List.mem_cons_of_mem _ hentry)
      obtain ⟨hnot, htail⟩ := List.nodup_cons.mp hdistinct
      have hlater : ∀ key ∈ p.met, CommonKey.name key ∉ es.map Prod.fst := fun key hkey hmem =>
        hfresh key hkey (List.mem_cons_of_mem _ hmem)
      cases hname : CommonKey.ofName? name with
      | some own =>
          obtain rfl := CommonKey.ofName?_eq_some_iff.mp hname
          have hmet : own ∉ p.met := fun hmem => hfresh own hmem List.mem_cons_self
          have hstep := readEntry_common hfirst hmet
          have hfresh' : ∀ key ∈ own :: p.met, CommonKey.name key ∉ es.map Prod.fst := by
            intro key hkey
            rcases List.mem_cons.mp hkey with rfl | hkey
            · exact hnot
            · exact hlater key hkey
          obtain ⟨q, hq, habsorbs⟩ := ih hrest htail hfresh'
            (p := ⟨own :: p.met, p.element.withCommon e own, p.others⟩)
          exact ⟨q, readEntries_cons_iff.mpr ⟨_, hstep, hq⟩, habsorbs.cons_common⟩
      | none =>
          have hstep := readEntry_own hfirst hname (p := p)
          obtain ⟨q, hq, habsorbs⟩ := ih hrest htail hlater
            (p := ⟨p.met, p.element, p.others ++ [(name, v)]⟩)
          exact ⟨q, readEntries_cons_iff.mpr ⟨_, hstep, hq⟩, habsorbs.cons_own hname⟩

/-- An object of the entries `es` is read as `e` if its common keys hold what `e` has and its
other entries what the kind of `e` has. -/
theorem readElement_object (hreads : ∀ entry ∈ es, e.ReadAs room entry)
    (hdistinct : (es.map Prod.fst).Nodup)
    (habsent : ∀ key, CommonKey.name key ∉ es.map Prod.fst →
      AgreesAt key (.ofBody .catalog) e)
    (hbody : readBody (es.filter fun entry => ownKey entry.1) = .ok e.body) :
    readElement room (Tree.ofValue (.object es)) = .ok e := by
  have hfresh : ∀ key ∈ Partial.empty.met, CommonKey.name key ∉ es.map Prod.fst :=
    fun _ hkey => absurd hkey List.not_mem_nil
  obtain ⟨q, hq, habsorbs⟩ := exists_readEntries hreads hdistinct hfresh
  have hagrees : ∀ key, AgreesAt key { q.element with body := e.body } e := by
    intro key
    have hsame : AgreesAt key q.element e := by
      by_cases hkey : CommonKey.name key ∈ es.map Prod.fst
      · exact habsorbs.set key hkey
      · exact (habsorbs.kept key hkey).trans (habsent key hkey)
    cases key <;> exact hsame
  have hread : readElement room (Tree.ofValue (.object es)) =
      (Partial.empty.readEntries room (Tree.ofEntries es)).bind fun p =>
        (readBody p.others).bind fun body => .ok { p.element with body := body } := rfl
  have hown : readBody q.others = .ok e.body := by
    rw [habsorbs.others]
    exact hbody
  rw [hread, hq]
  simp only [Except.bind, hown]
  exact congrArg Except.ok (Element.eq_of_agreesAt hagrees rfl)

end Codec

open Codec (ownKey)

theorem Codec.readDuration_ofNat (ms : UInt64) :
    Codec.readDuration (.ofNat ms.toNat) = .ok (some ms) := by
  rw [Value.ofNat, Json.Number.ofNat, dif_pos ms.toNat_lt]
  simp [Codec.readDuration]

theorem Body.filter_entries (b : Body) :
    b.entries.filter (fun entry => ownKey entry.1) = b.entries := by
  refine List.filter_eq_self.mpr ?_
  intro entry hentry
  have hkey := b.keys_sublist.subset (List.mem_map_of_mem hentry)
  rw [ownKey, Codec.ofName?_of_mem_bodyKeys hkey]
  rfl

/-- What is written of the body `b` is read as it was, in the order of the keys. -/
theorem Body.readBody_sortedEntries (b : Body) :
    readBody (sortedEntries [] b.entries) = .ok b := by
  cases b with
  | track video audio duration =>
      cases duration with
      | none => rfl
      | some ms =>
          have hsorted : sortedEntries [] (track video audio (some ms)).entries =
              [("duration_ms", (Value.ofNat ms.toNat).sorted), ("has_audio", .bool audio),
                ("has_video", .bool video), ("type", .text Kind.track.name)] := rfl
          have hkind : Codec.findKind none
              (sortedEntries [] (track video audio (some ms)).entries) = .ok .track := rfl
          have hfields : Codec.readTrack ⟨none, none, none⟩
              (sortedEntries [] (track video audio (some ms)).entries) =
              .ok ⟨some video, some audio, some (some ms)⟩ := by
            rw [hsorted, Value.sorted_of_depth_eq_zero rfl]
            simp only [Codec.readTrack, Codec.readDuration_ofNat]
            rfl
          rw [readBody, hkind]
          simp only [hfields]
          rfl
  | catalog => rfl
  | attachment => rfl
  | publication channel => rfl

namespace Element

variable {e : Element}

theorem filter_piece (e : Element) (key : CommonKey) :
    (e.piece key).filter (fun entry => ownKey entry.1) = [] := by
  have hown : ownKey key.name = false := by
    rw [ownKey, CommonKey.ofName?_name]
    rfl
  unfold piece Codec.optionalEntry
  cases e.written key with
  | none => rfl
  | some v => simp [hown]

theorem filter_entries (e : Element) :
    e.entries.filter (fun entry => ownKey entry.1) = e.body.entries := by
  simp [entries_eq, filter_piece, Body.filter_entries]

/-- The entries of the written element `e` are read as what it has. -/
theorem readAs_of_mem_sortedEntries {entry : Codec.Entry} {room : Nat} (hroom : 0 < room)
    (h : entry ∈ sortedEntries [] e.entries) : e.ReadAs room entry := by
  obtain ⟨name, v⟩ := entry
  have hlookup := (Value.lookup_eq_some_iff (Value.nodup_sortedEntries e.entries)).mpr h
  rw [Value.lookup_sortedEntries e.nodup_keys, Value.lookup, Option.or_none] at hlookup
  obtain ⟨w, hw, rfl⟩ := Option.map_eq_some_iff.mp hlookup
  cases hname : CommonKey.ofName? name with
  | some key =>
      obtain rfl := CommonKey.ofName?_eq_some_iff.mp hname
      rw [lookup_entries_common] at hw
      simp only [ReadAs, hname]
      exact readCommon_written hw
  | none =>
      rw [lookup_entries_of_none e hname, Value.lookup_eq_some_iff e.body.nodup_keys] at hw
      obtain ⟨-, hdepth⟩ := simple_of_mem_body hw
      have hfits : w.depth < room := by
        rw [hdepth]
        exact hroom
      simp only [ReadAs, hname, Value.sorted_of_depth_eq_zero hdepth]
      rw [Json.read_ofValue _ w hfits, Value.sorted_of_depth_eq_zero hdepth]

theorem lookup_sorted (e : Element) (name : String) :
    lookup name (sortedEntries [] e.entries) = (lookup name e.entries).map Value.sorted := by
  rw [Value.lookup_sortedEntries e.nodup_keys, Value.lookup, Option.or_none]

/-- A written element is read as it was. -/
theorem readElement_sorted {room : Nat} (hroom : 0 < room) (e : Element) :
    Codec.readElement room (Tree.ofValue e.toJson.sorted) = .ok e := by
  refine Codec.readElement_object (fun _ => readAs_of_mem_sortedEntries hroom)
    (Value.nodup_sortedEntries e.entries) ?_ ?_
  · intro key habsent
    rw [← Value.lookup_eq_none_iff, lookup_sorted, lookup_entries_common,
      Option.map_eq_none_iff] at habsent
    exact agreesAt_of_written_eq_none habsent .catalog
  · rw [Value.filter_sortedEntries ownKey e.entries .nil, filter_entries]
    exact e.body.readBody_sortedEntries

theorem lookup_type (e : Element) : lookup "type" e.entries = some (.text e.kind.name) := by
  rw [lookup_entries_of_none e rfl, kind]
  cases e.body <;> rfl

/-- The entry that is written for `e` is decoded as `e`. -/
theorem decodeRaw_sorted (e : Element) : Codec.decodeRaw e.toJson.sorted = .ok e := by
  have htype : Codec.textField? "type" e.toJson.sorted = some e.kind.name := by
    rw [Codec.textField?, toJson, Value.field?_sorted e.nodup_keys, lookup_type]
    rfl
  have hkind : Kind.parse e.kind.name = .ok e.kind := by
    rw [Kind.parse, Kind.ofName?_name]
  have hroom : 0 < e.toJson.sorted.depth := by
    rw [toJson, Value.sorted, Value.depth]
    exact Nat.succ_pos _
  rw [Codec.decodeRaw, htype]
  simp only [hkind, readElement_sorted hroom]
  rfl

end Element

end MediaManifest
