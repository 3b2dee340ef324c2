import MediaManifest.Proofs.Codec.Acceptance
import MediaManifest.Proofs.Codec.Assignment

/-!
# Documents that are decoded

The schema, the look at the kind, the readers of elements and the check for
repeated identifiers each refuse some documents.  Together they accept the
language of documents (`IsDocument`): an entry is decoded if it stands for an
element, and a document if its entries do and no two of them have the same
identifier.
-/

namespace MediaManifest

open Generator (reserveAll)
open Json (Tree Value)
open Json.Value (lookup)

namespace Json.Value

variable {key : String} {form : Value → Prop} {v : Value} {es : List Codec.Entry}

theorem optionally_object_iff (hdistinct : (es.map Prod.fst).Nodup) :
    (Value.object es).Optionally key form ↔ ∀ w, (key, w) ∈ es → form w := by
  simp only [Optionally, field?, lookup_eq_some_iff hdistinct]

theorem has_object_iff (hdistinct : (es.map Prod.fst).Nodup) :
    (Value.object es).Has key form ↔ ∃ w, (key, w) ∈ es ∧ form w := by
  simp only [Has, field?, lookup_eq_some_iff hdistinct]

theorem isText_sorted_iff : v.sorted.IsText ↔ v.IsText := by
  cases v <;> simp [sorted, IsText]

theorem isBool_sorted_iff : v.sorted.IsBool ↔ v.IsBool := by
  cases v <;> simp [sorted, IsBool]

theorem isDuration_sorted_iff : v.sorted.IsDuration ↔ v.IsDuration := by
  cases v <;> simp [sorted, IsDuration]

end Json.Value

namespace Codec

open Json.Value (IsText IsTextOrNull IsNamed IsFlavorText IsChecksum IsBool IsDuration)

variable {es : List Entry} {raw : Value} {kind : Kind}

/-! ## Entries -/

/-- Under the common keys of an object that fits the schema it is left open whether the parts of a
`flavor` are blank, which algorithm a `checksum` is of, and what `mime_type` is. -/
theorem takes_iff_of_fits (hkeys : (Value.object es).distinctKeys = true)
    (hfits : FitsSchema (.object es)) :
    (∀ key w, (CommonKey.name key, w) ∈ es → key.Takes w) ↔
      (Value.object es).Optionally "flavor" IsFlavorText ∧
        (Value.object es).Optionally "checksum" IsChecksum ∧
        (Value.object es).Optionally "mime_type" IsTextOrNull := by
  obtain ⟨hdistinct, hinner⟩ := Value.distinctKeys_object_iff.mp hkeys
  have hflavor : ∀ w, ("flavor", w) ∈ es → (CommonKey.flavor.Takes w ↔ w.IsFlavorText) := by
    intro w hw
    obtain ⟨s, rfl, hpair⟩ := (Value.optionally_object_iff hdistinct).mp hfits.flavor w hw
    rw [takes_flavor_iff, isFlavorText_iff]
    constructor
    · rintro ⟨f, hf⟩
      exact ⟨s, f, rfl, hpair, hf⟩
    · rintro ⟨t, f, hsame, -, hf⟩
      obtain rfl := Value.text.inj hsame
      exact ⟨f, hf⟩
  have hchecksum : ∀ w, ("checksum", w) ∈ es → (CommonKey.checksum.Takes w ↔ w.IsChecksum) := by
    intro w hw
    obtain ⟨htype, -⟩ := (Value.optionally_object_iff hdistinct).mp hfits.checksum w hw
    obtain ⟨fields, rfl⟩ := htype.exists_object
    exact takes_checksum_iff (Value.distinctKeys_object_iff.mp (hinner _ hw)).1 htype
  simp only [Value.optionally_object_iff hdistinct]
  constructor
  · intro htakes
    refine ⟨?_, ?_, ?_⟩
    · exact fun w hw => (hflavor w hw).mp (htakes .flavor w hw)
    · exact fun w hw => (hchecksum w hw).mp (htakes .checksum w hw)
    · exact fun w hw => takes_mimeType_iff.mp (htakes .mimeType w hw)
  · rintro ⟨hflavors, hchecksums, hmimes⟩ key w hw
    cases key with
    | id =>
        obtain ⟨s, rfl, -⟩ := (Value.optionally_object_iff hdistinct).mp hfits.id w hw
        exact takes_id_iff.mpr (.inr ⟨s, rfl⟩)
    | flavor => exact (hflavor w hw).mpr (hflavors w hw)
    | tags =>
        obtain ⟨ts, rfl, -⟩ := (Value.optionally_object_iff hdistinct).mp hfits.tags w hw
        exact takes_tags
    | checksum => exact (hchecksum w hw).mpr (hchecksums w hw)
    | reference =>
        have hreference := (Value.optionally_object_iff hdistinct).mp hfits.reference w hw
        obtain ⟨fields, rfl⟩ := hreference.kind.exists_object
        have htext : ∀ v : Value, v.IsFilledText → v.IsText := fun _ ⟨s, hs, _⟩ => ⟨s, hs⟩
        refine (takes_reference_iff (Value.distinctKeys_object_iff.mp (hinner _ hw)).1).mpr ?_
        exact ⟨hreference.kind.mono htext, hreference.id.mono htext⟩
    | uri =>
        obtain ⟨s, rfl⟩ := (Value.optionally_object_iff hdistinct).mp hfits.uri w hw
        exact takes_uri_iff.mpr (.inr ⟨s, rfl⟩)
    | mimeType => exact takes_mimeType_iff.mpr (hmimes w hw)

theorem findKind_ownEntries_iff {other : Kind} (hdistinct : (es.map Prod.fst).Nodup)
    (htype : ("type", .text kind.name) ∈ es) :
    findKind none (ownEntries es) = .ok other ↔ kind = other := by
  have hown := nodup_ownEntries hdistinct
  have hmem : ("type", .text kind.name) ∈ ownEntries es :=
    mem_ownEntries_iff.mpr ⟨rfl, _, htype, rfl⟩
  have hread : readKind (.text kind.name) = .ok kind := by
    rw [readKind, kindNamed, Kind.ofName?_name]
  rw [findKind_eq_ok_iff hown]
  constructor
  · rintro ⟨w, hw, hother⟩
    obtain rfl : Value.text kind.name = w := by
      rw [← Value.lookup_eq_some_iff hown] at hmem hw
      exact Option.some.inj (hmem.symm.trans hw)
    exact Except.ok.inj (hread.symm.trans hother)
  · rintro rfl
    exact ⟨_, hmem, hread⟩

theorem exists_readTrack_ownEntries_iff (hdistinct : (es.map Prod.fst).Nodup) :
    (∃ fields, readTrack ⟨none, none, none⟩ (ownEntries es) = .ok fields) ↔
      (Value.object es).Optionally "has_video" IsBool ∧
        (Value.object es).Optionally "has_audio" IsBool ∧
        (Value.object es).Optionally "duration_ms" IsDuration := by
  rw [exists_readTrack_iff _ (nodup_ownEntries hdistinct) (by simp) (by simp) (by simp)]
  simp only [Value.optionally_object_iff hdistinct]
  have hleft : ∀ {name : String} {w : Value}, ownKey name = true → (name, w) ∈ es →
      (name, w.sorted) ∈ ownEntries es := fun hown hw =>
    mem_ownEntries_iff.mpr ⟨hown, _, hw, rfl⟩
  constructor
  · intro htakes
    refine ⟨?_, ?_, ?_⟩
    · exact fun w hw => Value.isBool_sorted_iff.mp ((htakes _ (hleft rfl hw)).video rfl)
    · exact fun w hw => Value.isBool_sorted_iff.mp ((htakes _ (hleft rfl hw)).audio rfl)
    · exact fun w hw => Value.isDuration_sorted_iff.mp ((htakes _ (hleft rfl hw)).duration rfl)
  · rintro ⟨hvideo, haudio, hduration⟩ ⟨name, w⟩ hentry
    obtain ⟨-, v, hv, rfl⟩ := mem_ownEntries_iff.mp hentry
    refine ⟨?_, ?_, ?_⟩
    · rintro rfl
      exact Value.isBool_sorted_iff.mpr (hvideo v hv)
    · rintro rfl
      exact Value.isBool_sorted_iff.mpr (haudio v hv)
    · rintro rfl
      exact Value.isDuration_sorted_iff.mpr (hduration v hv)

theorem exists_readChannel_ownEntries_iff (hdistinct : (es.map Prod.fst).Nodup) :
    (∃ channel, readChannel none (ownEntries es) = .ok channel) ↔
      (Value.object es).Has "channel" IsText := by
  rw [exists_readChannel_iff (nodup_ownEntries hdistinct), Value.has_object_iff hdistinct]
  constructor
  · rintro ⟨w, hw, htext⟩
    obtain ⟨-, v, hv, rfl⟩ := mem_ownEntries_iff.mp hw
    exact ⟨v, hv, Value.isText_sorted_iff.mp htext⟩
  · rintro ⟨v, hv, htext⟩
    exact ⟨v.sorted, mem_ownEntries_iff.mpr ⟨rfl, v, hv, rfl⟩, Value.isText_sorted_iff.mpr htext⟩

/-- What the `kind` that `es` name asks of the entries that are left for it. -/
theorem exists_readBody_ownEntries_iff (hdistinct : (es.map Prod.fst).Nodup)
    (htype : ("type", .text kind.name) ∈ es) :
    (∃ body, readBody (ownEntries es) = .ok body) ↔
      (kind = .track →
        (Value.object es).Optionally "has_video" IsBool ∧
        (Value.object es).Optionally "has_audio" IsBool ∧
        (Value.object es).Optionally "duration_ms" IsDuration) ∧
      (kind = .publication → (Value.object es).Has "channel" IsText) := by
  rw [exists_readBody_iff]
  simp only [findKind_ownEntries_iff hdistinct htype, exists_readTrack_ownEntries_iff hdistinct,
    exists_readChannel_ownEntries_iff hdistinct]
  exact exists_eq_left'

/-- The names that the entries of a document may have for a type are those of the kinds. -/
theorem isNamed_kinds_iff {v : Value} :
    v.IsNamed ["track", "catalog", "attachment", "publication"] ↔
      ∃ kind : Kind, v = .text kind.name := by
  constructor
  · rintro ⟨name, hname, rfl⟩
    simp only [List.mem_cons, List.not_mem_nil, or_false] at hname
    rcases hname with rfl | rfl | rfl | rfl
    exacts [⟨.track, rfl⟩, ⟨.catalog, rfl⟩, ⟨.attachment, rfl⟩, ⟨.publication, rfl⟩]
  · rintro ⟨kind, rfl⟩
    exact ⟨kind.name, by cases kind <;> decide, rfl⟩

theorem exists_decodeRaw_iff :
    (∃ e, decodeRaw raw = .ok e) ↔ ∃ kind : Kind, raw.field? "type" = some (.text kind.name) ∧
      ∃ e, readElement raw.depth (Tree.ofValue raw) = .ok e := by
  constructor
  · rintro ⟨e, hdecode⟩
    cases htype : textField? "type" raw with
    | none => simp [decodeRaw, htype] at hdecode
    | some name =>
        cases hkind : Kind.ofName? name with
        | none => simp [decodeRaw, htype, Kind.parse, hkind] at hdecode
        | some kind =>
            rw [decodeRaw_of_ofName? htype hkind, Except.mapError_eq_ok_iff] at hdecode
            obtain rfl := Kind.ofName?_eq_some_iff.mp hkind
            exact ⟨kind, textField?_eq_some_iff.mp htype, e, hdecode⟩
  · rintro ⟨kind, htype, e, hread⟩
    refine ⟨e, ?_⟩
    rw [decodeRaw_of_ofName? (textField?_eq_some_iff.mpr htype) (Kind.ofName?_name kind),
      Except.mapError_eq_ok_iff]
    exact hread

/-- What the readers ask of the object of `es` once it fits the schema. -/
theorem exists_decodeRaw_iff_of_fits (hkeys : (Value.object es).distinctKeys = true)
    (hfits : FitsSchema (.object es)) :
    (∃ e, decodeRaw (.object es) = .ok e) ↔
      ∃ kind : Kind, (Value.object es).field? "type" = some (.text kind.name) ∧
        ((Value.object es).Optionally "flavor" IsFlavorText ∧
          (Value.object es).Optionally "checksum" IsChecksum ∧
          (Value.object es).Optionally "mime_type" IsTextOrNull) ∧
        (kind = .track →
          (Value.object es).Optionally "has_video" IsBool ∧
          (Value.object es).Optionally "has_audio" IsBool ∧
          (Value.object es).Optionally "duration_ms" IsDuration) ∧
        (kind = .publication → (Value.object es).Has "channel" IsText) := by
  have hdistinct := (Value.distinctKeys_object_iff.mp hkeys).1
  have hdeep : ∀ entry ∈ es, entry.2.depth < (Value.object es).depth := by
    intro entry hentry
    rw [Value.depth]
    exact Nat.lt_succ_of_le (Value.depthEntries_le_iff.mp (Nat.le_refl _) entry hentry)
  rw [exists_decodeRaw_iff, exists_readElement_iff hdistinct hdeep,
    takes_iff_of_fits hkeys hfits]
  refine exists_congr fun kind => and_congr_right fun htype => and_congr_right fun _ => ?_
  exact exists_readBody_ownEntries_iff hdistinct (Value.mem_of_lookup htype)

theorem fitsSchema_of_isEntry (h : raw.IsEntry) : FitsSchema raw where
  kind := by
    refine h.kind.mono ?_
    rintro _ ⟨name, hname, rfl⟩
    refine ⟨name, rfl, ?_⟩
    rintro rfl
    exact absurd hname (by decide)
  id := h.id
  flavor := by
    refine h.flavor.mono ?_
    intro w hw
    obtain ⟨s, -, hs, hpair, -⟩ := isFlavorText_iff.mp hw
    exact ⟨s, hs, hpair⟩
  tags := h.tags
  checksum := by
    refine h.checksum.mono ?_
    rintro w ⟨hkind, hvalue⟩
    refine ⟨hkind.mono ?_, hvalue⟩
    rintro _ ⟨name, -, rfl⟩
    exact ⟨name, rfl⟩
  reference := h.reference
  uri := h.uri
  channel := h.channel

theorem has_named_singleton_iff {name : String}
    (htype : raw.field? "type" = some (.text kind.name)) :
    raw.Has "type" (IsNamed [name]) ↔ kind.name = name := by
  simp [Value.Has, htype, IsNamed]

/-- The entry `raw` stands for an element exactly if it fits the schema and is decoded. -/
theorem isEntry_iff (hkeys : raw.distinctKeys = true) :
    raw.IsEntry ↔ FitsSchema raw ∧ ∃ e, decodeRaw raw = .ok e := by
  have htrack : ∀ kind : Kind, kind.name = "track" ↔ kind = .track := by
    intro kind
    cases kind <;> decide
  have hpublication : ∀ kind : Kind, kind.name = "publication" ↔ kind = .publication := by
    intro kind
    cases kind <;> decide
  constructor
  · intro h
    have hfits := fitsSchema_of_isEntry h
    obtain ⟨es, rfl⟩ := h.kind.exists_object
    refine ⟨hfits, (exists_decodeRaw_iff_of_fits hkeys hfits).mpr ?_⟩
    obtain ⟨w, htype, hnamed⟩ := h.kind
    obtain ⟨kind, rfl⟩ := isNamed_kinds_iff.mp hnamed
    refine ⟨kind, htype, ⟨h.flavor, h.checksum, h.mime⟩, ?_, ?_⟩
    · intro hkind
      exact h.track ((has_named_singleton_iff htype).mpr ((htrack kind).mpr hkind))
    · intro hkind
      exact h.publication ((has_named_singleton_iff htype).mpr ((hpublication kind).mpr hkind))
  · rintro ⟨hfits, hdecode⟩
    obtain ⟨es, rfl⟩ := hfits.kind.exists_object
    obtain ⟨kind, htype, ⟨hflavor, hchecksum, hmime⟩, hvideo, hchannel⟩ :=
      (exists_decodeRaw_iff_of_fits hkeys hfits).mp hdecode
    refine ⟨⟨_, htype, isNamed_kinds_iff.mpr ⟨kind, rfl⟩⟩, hfits.id, hflavor, hfits.tags, hchecksum,
      hfits.reference, hfits.uri, hfits.channel, hmime, ?_, ?_⟩
    · intro hnamed
      exact hvideo ((htrack kind).mp ((has_named_singleton_iff htype).mp hnamed))
    · intro hnamed
      exact hchannel ((hpublication kind).mp ((has_named_singleton_iff htype).mp hnamed))

/-! ## Documents -/

variable {g : Sequential} {document : Value} {raws : List Value}

theorem nodup_writtenIds_iff :
    (writtenIds raws).Nodup ↔ raws.Pairwise fun a b => ∀ key, a.field? "id" = some (.text key) →
      b.field? "id" ≠ some (.text key) := by
  rw [writtenIds, List.Nodup, List.pairwise_filterMap]
  simp only [textField?_eq_some_iff]
  refine List.Pairwise.iff fun a b => ?_
  constructor
  · exact fun h key ha hb => h key ha key hb rfl
  · rintro h key ha other hb rfl
    exact h key ha hb

/-- A `document` is decoded if it fits the schema and no entry is at fault. -/
theorem exists_decodeValue_iff (hlasts : Lasts g (rawElements document)) :
    (∃ p, (decodeValue g document).1 = .ok p) ↔
      validate document = .ok () ∧ Sound [] (rawElements document) := by
  constructor
  · rintro ⟨p, hdecode⟩
    have hvalid := (decodeValue_eq_ok_iff.mp hdecode).1
    rcases decodeValue_or hvalid hlasts with ⟨hsound, -⟩ | ⟨err, -, herr⟩
    · exact ⟨hvalid, hsound⟩
    · cases herr.symm.trans hdecode
  · rintro ⟨hvalid, hsound⟩
    rcases decodeValue_or hvalid hlasts with ⟨-, hdecode⟩ | ⟨err, hfault, -⟩
    · exact hdecode
    · exact absurd hsound hfault.not_sound

/-- The decoder accepts a `document` exactly if it is in the language of documents, as long as
the generator `g` has numbers left for its entries.  No object of a `Json.Document` has a key
twice. -/
theorem decodeValue_accepts_iff {document : Json.Document}
    (hlasts : Lasts g (rawElements document)) :
    (∃ p, (decodeValue g document.value).1 = .ok p) ↔ document.value.IsDocument := by
  rw [exists_decodeValue_iff hlasts, validate_eq_ok_iff]
  have hentries : ∀ {raws}, document.value.field? "elements" = some (.list raws) →
      rawElements document = raws ∧ ∀ raw ∈ raws, raw.distinctKeys = true := by
    intro raws hfield
    have hlist := Value.distinctKeys_of_field? document.distinct hfield
    exact ⟨by rw [rawElements, hfield]; rfl, Value.distinctItems_iff.mp hlist⟩
  constructor
  · rintro ⟨⟨hid, htitle, _, hfield, raws, rfl, hfits⟩, hsound⟩
    obtain ⟨hraws, hdistinct⟩ := hentries hfield
    rw [hraws] at hsound
    refine ⟨hid, htitle, _, hfield, raws, rfl, ?_, nodup_writtenIds_iff.mp hsound.nodup⟩
    intro raw hraw
    exact (isEntry_iff (hdistinct raw hraw)).mpr ⟨hfits raw hraw, hsound.decodes raw hraw⟩
  · rintro ⟨hid, htitle, _, hfield, raws, rfl, hentry, hpairwise⟩
    obtain ⟨hraws, hdistinct⟩ := hentries hfield
    have hboth := fun raw hraw => (isEntry_iff (hdistinct raw hraw)).mp (hentry raw hraw)
    rw [hraws]
    refine ⟨⟨hid, htitle, _, hfield, raws, rfl, fun raw hraw => (hboth raw hraw).1⟩, ?_⟩
    exact ⟨fun raw hraw => (hboth raw hraw).2, nodup_writtenIds_iff.mpr hpairwise,
      fun _ _ => List.not_mem_nil⟩

/-- In `whole` a track without an identifier stands beside a publication; in `lacking` the
publication has no channel and is refused. -/
theorem decodeValue_accepts_iff_of_publications :
    let track := Value.object
      [("flavor", .text "a/ b"), ("has_audio", .bool true), ("type", .text "track")]
    let content := fun publication : List Entry =>
      Value.object [("elements", .list [track, .object publication])]
    let whole : Json.Document := ⟨content
      [("channel", .text ""), ("id", .text "p"), ("type", .text "publication")], by decide⟩
    let lacking : Json.Document :=
      ⟨content [("id", .text "p"), ("type", .text "publication")], by decide⟩
    (∃ p, (decodeValue (Sequential.ofStem "x") whole.value).1 = .ok p) ∧
      whole.value.IsDocument ∧
      ¬ (∃ p, (decodeValue (Sequential.ofStem "x") lacking.value).1 = .ok p) ∧
      ¬ lacking.value.IsDocument := by
  intro track content whole lacking
  have hlasts : ∀ raws, (reserveAll (writtenIds raws) (Sequential.ofStem "x")).issued +
      missing raws < 10 → Lasts (Sequential.ofStem "x") raws := by
    intro raws hfew
    apply Lasts.of_hasRoom
    intro j hj
    omega
  have htrack : track.IsEntry := by
    have htype : track.field? "type" = some (.text Kind.track.name) := rfl
    refine ⟨⟨_, rfl, _, by decide, rfl⟩, .of_absent rfl, ?_, .of_absent rfl, .of_absent rfl,
      .of_absent rfl, .of_absent rfl, .of_absent rfl, .of_absent rfl, ?_, ?_⟩
    · refine Value.Has.optionally ⟨_, rfl, "a", " b", rfl, ?_, ?_, ?_, ?_⟩ <;> decide
    · intro _
      exact ⟨.of_absent rfl, Value.Has.optionally ⟨_, rfl, true, rfl⟩, .of_absent rfl⟩
    · exact fun h => absurd ((has_named_singleton_iff htype).mp h) (by decide)
  have hpublication : Value.IsEntry
      (.object [("channel", .text ""), ("id", .text "p"), ("type", .text "publication")]) := by
    have htype : (Value.object [("channel", .text ""), ("id", .text "p"),
      ("type", .text "publication")]).field? "type" = some (.text Kind.publication.name) := rfl
    refine ⟨⟨_, rfl, _, by decide, rfl⟩, Value.Has.optionally ⟨_, rfl, "p", rfl, by decide⟩,
      .of_absent rfl, .of_absent rfl, .of_absent rfl, .of_absent rfl, .of_absent rfl,
      Value.Has.optionally ⟨_, rfl, "", rfl⟩, .of_absent rfl, ?_, ?_⟩
    · exact fun h => absurd ((has_named_singleton_iff htype).mp h) (by decide)
    · intro _
      exact ⟨_, rfl, "", rfl⟩
  have hwhole : whole.value.IsDocument := by
    refine ⟨.of_absent rfl, .of_absent rfl, _, rfl, _, rfl, ?_, ?_⟩
    · intro raw hraw
      rw [List.mem_pair] at hraw
      rcases hraw with rfl | rfl
      exacts [htrack, hpublication]
    · rw [List.pairwise_pair]
      intro key hid
      cases hid
  have hlacking : ¬ lacking.value.IsDocument := by
    rintro ⟨-, -, _, hfield, raws, rfl, hentry, -⟩
    obtain rfl := Value.list.inj (Option.some.inj hfield)
    have hlast := hentry _ (List.mem_pair.mpr (.inr rfl))
    obtain ⟨w, hchannel, -⟩ := hlast.publication ⟨_, rfl, _, List.mem_singleton_self _, rfl⟩
    cases hchannel
  refine ⟨(decodeValue_accepts_iff (hlasts _ (by decide))).mpr hwhole, hwhole, ?_, hlacking⟩
  exact mt (decodeValue_accepts_iff (hlasts _ (by decide))).mp hlacking

end Codec

end MediaManifest
