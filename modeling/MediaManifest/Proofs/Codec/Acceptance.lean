import MediaManifest.Proofs.Codec.Language

/-!
# What the readers accept

The readers of elements go through the entries of an object one by one and
refuse a key that they met before.  Where no key repeats, what they accept
(`Takes`) can be told key by key, whatever the order of the entries.  Entries
that a reader passes over can hold anything.
-/

namespace MediaManifest

open Json (Tree Value)
open Json.Value (lookup)

namespace Json

mutual

theorem skip_ofValue : ∀ v : Value, (Tree.ofValue v).skip = .ok ()
  | .null => rfl
  | .bool _ => rfl
  | .number _ => rfl
  | .text _ => rfl
  | .list vs => by rw [Tree.ofValue, Tree.skip, skipItems_ofItems vs]
  | .object es => by rw [Tree.ofValue, Tree.skip, skipEntries_ofEntries es]

theorem skipItems_ofItems : ∀ vs : List Value, Tree.skipItems (Tree.ofItems vs) = .ok ()
  | [] => rfl
  | v :: vs => by
      rw [Tree.ofItems, Tree.skipItems, skip_ofValue v]
      exact skipItems_ofItems vs

theorem skipEntries_ofEntries :
    ∀ es : List (String × Value), Tree.skipEntries (Tree.ofEntries es) = .ok ()
  | [] => rfl
  | (key, v) :: es => by
      rw [Tree.ofEntries, Tree.skipEntries, skip_ofValue v]
      exact skipEntries_ofEntries es

end

end Json

namespace Codec

/-! ## Two fields -/

namespace PairFormat

variable {α β : Type} {format : PairFormat α β} {halves : Halves α β} {es : List Entry}

/-- The field `name` is there already as `half`, or an entry of `es` holds it in a form that
`read` takes. -/
def Supplied {α : Type} (read : Tree → Except Fault α) (name : String) (half : Option α)
    (es : List Entry) : Prop :=
  half.isSome ∨ ∃ v a, (name, v) ∈ es ∧ read (Tree.ofValue v) = .ok a

theorem supplied_cons_of_ne {read : Tree → Except Fault α} {name key : String} {half : Option α}
    {v : Value} (hne : key ≠ name) :
    Supplied read name half ((key, v) :: es) ↔ Supplied read name half es := by
  simp [Supplied, hne.symm]

/-- A field that is not there yet is supplied by its first entry `v` if `name` is the key of no
other one. -/
theorem supplied_cons_self {read : Tree → Except Fault α} {name : String} {v : Value}
    (hnot : name ∉ es.map Prod.fst) :
    Supplied read name none ((name, v) :: es) ↔ ∃ a, read (Tree.ofValue v) = .ok a := by
  have hrest : ∀ w, (name, w) ∉ es := fun w hw => hnot (List.mem_map.mpr ⟨_, hw, rfl⟩)
  simp [Supplied, hrest]

theorem readEntries_first {v : Value} {second : Option β} :
    format.readEntries ⟨none, second⟩ (Tree.ofEntries ((format.firstName, v) :: es)) =
      format.readFirst (Tree.ofValue v) >>= fun a =>
        format.readEntries ⟨some a, second⟩ (Tree.ofEntries es) := by
  have hkey : lift (.ok format.firstName : Except Json.Fault String) = .ok format.firstName := rfl
  rw [Tree.ofEntries, readEntries, hkey]
  exact if_pos rfl

theorem readEntries_second (hnames : format.firstName ≠ format.secondName) {v : Value}
    {first : Option α} :
    format.readEntries ⟨first, none⟩ (Tree.ofEntries ((format.secondName, v) :: es)) =
      format.readSecond (Tree.ofValue v) >>= fun b =>
        format.readEntries ⟨first, some b⟩ (Tree.ofEntries es) := by
  have hkey : lift (.ok format.secondName : Except Json.Fault String) = .ok format.secondName := rfl
  rw [Tree.ofEntries, readEntries, hkey]
  exact (if_neg hnames.symm).trans (if_pos rfl)

theorem readEntries_other {key : String} {v : Value} (hfirst : key ≠ format.firstName)
    (hsecond : key ≠ format.secondName) :
    format.readEntries halves (Tree.ofEntries ((key, v) :: es)) =
      format.readEntries halves (Tree.ofEntries es) := by
  have hkey : lift (.ok key : Except Json.Fault String) = .ok key := rfl
  have hskip : lift (Tree.ofValue v).skip = .ok () := by
    rw [Json.skip_ofValue]
    rfl
  rw [Tree.ofEntries, readEntries, hkey]
  refine (if_neg hfirst).trans ((if_neg hsecond).trans ?_)
  rw [hskip]
  rfl

theorem exists_readEntries_iff (halves : Halves α β) (hnames : format.firstName ≠ format.secondName)
    (hdistinct : (es.map Prod.fst).Nodup)
    (hfirst : halves.first.isSome → format.firstName ∉ es.map Prod.fst)
    (hsecond : halves.second.isSome → format.secondName ∉ es.map Prod.fst) :
    (∃ out pair, format.readEntries halves (Tree.ofEntries es) = .ok out ∧
        format.finish out = .ok pair) ↔
      Supplied format.readFirst format.firstName halves.first es ∧
        Supplied format.readSecond format.secondName halves.second es := by
  induction es generalizing halves with
  | nil =>
      obtain ⟨first, second⟩ := halves
      cases first <;> cases second <;> simp [Supplied, Tree.ofEntries, readEntries, finish]
  | cons entry es ih =>
      obtain ⟨key, v⟩ := entry
      obtain ⟨first, second⟩ := halves
      obtain ⟨hnot, hrest⟩ := List.nodup_cons.mp hdistinct
      have hlater : ∀ {name : String}, name ∉ (((key, v) :: es).map Prod.fst) →
          name ∉ es.map Prod.fst := fun h hmem => h (List.mem_cons_of_mem _ hmem)
      by_cases hkey : key = format.firstName
      · subst hkey
        obtain rfl : first = none := by
          rw [← Option.not_isSome_iff_eq_none]
          exact fun hsome => hfirst hsome List.mem_cons_self
        rw [readEntries_first, supplied_cons_self hnot, supplied_cons_of_ne hnames]
        cases hread : format.readFirst (Tree.ofValue v) with
        | error fault => simp [bind, Except.bind]
        | ok a =>
            have hnext := ih ⟨some a, second⟩ hrest (fun _ => hnot)
              fun h => hlater (hsecond h)
            simpa [bind, Except.bind, Supplied] using hnext
      · by_cases hother : key = format.secondName
        · subst hother
          obtain rfl : second = none := by
            rw [← Option.not_isSome_iff_eq_none]
            exact fun hsome => hsecond hsome List.mem_cons_self
          rw [readEntries_second hnames, supplied_cons_self hnot, supplied_cons_of_ne hkey]
          cases hread : format.readSecond (Tree.ofValue v) with
          | error fault => simp [bind, Except.bind]
          | ok b =>
              have hnext := ih ⟨first, some b⟩ hrest (fun h => hlater (hfirst h))
                fun _ => hnot
              simpa [bind, Except.bind, Supplied] using hnext
        · rw [readEntries_other hkey hother, supplied_cons_of_ne hkey, supplied_cons_of_ne hother]
          exact ih _ hrest (fun h => hlater (hfirst h)) fun h => hlater (hsecond h)

/-- The object of `es` is read as a pair if both fields of `format` are there in a form that can
be read. -/
theorem exists_read_object_iff (format : PairFormat α β)
    (hnames : format.firstName ≠ format.secondName)
    (hdistinct : (es.map Prod.fst).Nodup) :
    (∃ pair, format.read (Tree.ofValue (.object es)) = .ok pair) ↔
      (Value.object es).Has format.firstName
          (fun v => ∃ a, format.readFirst (Tree.ofValue v) = .ok a) ∧
        (Value.object es).Has format.secondName
          fun v => ∃ b, format.readSecond (Tree.ofValue v) = .ok b := by
  have hread : format.read (Tree.ofValue (.object es)) =
      format.readEntries ⟨none, none⟩ (Tree.ofEntries es) >>= format.finish := rfl
  have hhas : ∀ {γ : Type} (read : Tree → Except Fault γ) (name : String),
      Supplied read name none es ↔
        (Value.object es).Has name fun v => ∃ a, read (Tree.ofValue v) = .ok a := by
    intro γ read name
    simp [Supplied, Value.Has, Value.field?, Value.lookup_eq_some_iff hdistinct]
  rw [hread, ← hhas, ← hhas,
    ← exists_readEntries_iff ⟨none, none⟩ hnames hdistinct (by simp) (by simp)]
  simp only [Except.bind_eq_ok_iff]
  exact exists_comm

end PairFormat

/-! ## Common keys -/

variable {v : Value} {es : List Entry} {p q : Partial} {room : Nat} {name : String}

/-- The reader of the common key `key` takes the value `v`, whatever was read before. -/
def CommonKey.Takes (key : CommonKey) (v : Value) : Prop :=
  ∀ e, ∃ x, readCommon e (Tree.ofValue v) key = .ok x

theorem takes_iff_of_map {α : Type} {key : CommonKey} {read : Tree → Except Fault α}
    {put : Element → α → Element}
    (h : ∀ e tree, readCommon e tree key = (read tree).map (put e)) :
    key.Takes v ↔ ∃ a, read (Tree.ofValue v) = .ok a := by
  simp only [CommonKey.Takes, h, Except.exists_map_eq_ok_iff]
  exact ⟨fun htakes => htakes (.ofBody .catalog), fun hread _ => hread⟩

theorem mismatch_ne_ok {α : Type} {expected : Expected} {tree : Tree} {a : α} :
    mismatch expected tree ≠ .ok a := by
  unfold mismatch
  split
  · exact fun hok => nomatch hok
  · exact fun hok => nomatch hok

theorem exists_readText_iff : (∃ s, readText (Tree.ofValue v) = .ok s) ↔ v.IsText := by
  cases v with
  | text s => exact iff_of_true ⟨s, rfl⟩ ⟨s, rfl⟩
  | _ => simp [Tree.ofValue, readText, mismatch_ne_ok, Value.IsText]

theorem readOptional_ofValue {α : Type} {read : Tree → Except Fault α} (hv : v ≠ .null) :
    readOptional read (Tree.ofValue v) = (read (Tree.ofValue v)).map some := by
  cases v <;> first | rfl | exact absurd rfl hv

/-- An optional field takes what its reader `read` takes, and null. -/
theorem takes_iff_of_optional {α : Type} {key : CommonKey} {read : Tree → Except Fault α}
    {put : Element → Option α → Element}
    (h : ∀ e tree, readCommon e tree key = (readOptional read tree).map (put e)) :
    key.Takes v ↔ v = .null ∨ ∃ a, read (Tree.ofValue v) = .ok a := by
  rw [takes_iff_of_map h]
  by_cases hv : v = .null
  · subst hv
    exact iff_of_true ⟨none, rfl⟩ (.inl rfl)
  · rw [readOptional_ofValue hv, Except.exists_map_eq_ok_iff]
    exact (or_iff_right hv).symm

theorem takes_id_iff : CommonKey.id.Takes v ↔ v.IsTextOrNull := by
  rw [takes_iff_of_optional fun _ _ => rfl, exists_readText_iff, Value.IsTextOrNull]

theorem takes_uri_iff : CommonKey.uri.Takes v ↔ v.IsTextOrNull := by
  rw [takes_iff_of_optional fun _ _ => rfl, exists_readText_iff, Value.IsTextOrNull]

theorem takes_mimeType_iff : CommonKey.mimeType.Takes v ↔ v.IsTextOrNull := by
  rw [takes_iff_of_optional fun _ _ => rfl, exists_readText_iff, Value.IsTextOrNull]

theorem takes_flavor_iff {s : String} :
    CommonKey.flavor.Takes (.text s) ↔ ∃ f, Flavor.parse s = .ok f := by
  have hread : readFlavor (Tree.ofValue (.text s)) = (Flavor.parse s).mapError Fault.flavor := rfl
  rw [takes_iff_of_optional fun _ _ => rfl, hread]
  simp [Except.mapError_eq_ok_iff]

theorem exists_readTagItems (tags : Tags) (ts : List String) :
    ∃ all, readTagItems tags (Tree.ofItems (ts.map .text)) = .ok all := by
  induction ts generalizing tags with
  | nil => exact ⟨tags, rfl⟩
  | cons t ts ih => exact ih (tags.insert t)

theorem takes_tags {ts : List String} : CommonKey.tags.Takes (.list (ts.map .text)) := by
  rw [takes_iff_of_map fun _ _ => rfl]
  obtain ⟨all, hall⟩ := exists_readTagItems .empty ts
  refine ⟨all, ?_⟩
  rw [Tree.ofValue, readTags, hall]
  rfl

/-- A reference is taken if both of its fields are texts. -/
theorem takes_reference_iff (hdistinct : (es.map Prod.fst).Nodup) :
    CommonKey.reference.Takes (.object es) ↔
      (Value.object es).Has "type" Value.IsText ∧ (Value.object es).Has "id" Value.IsText := by
  have hpair := referenceFormat.exists_read_object_iff (by decide) hdistinct
  rw [takes_iff_of_optional fun _ _ => rfl]
  simp only [readReference, Except.exists_map_eq_ok_iff, hpair, reduceCtorEq, false_or]
  simp only [referenceFormat, exists_readText_iff]

/-- The text `s` is read as an algorithm if it is the name of one. -/
theorem exists_readChecksumType_iff {s : String} :
    (∃ kind, readChecksumType (Tree.ofValue (.text s)) = .ok kind) ↔
      s ∈ ["md5", "sha1", "sha256", "sha512"] := by
  have hread : readChecksumType (Tree.ofValue (.text s)) = checksumTypeNamed s := rfl
  have hnames : (∃ kind, ChecksumType.ofName? s = some kind) ↔
      s ∈ ["md5", "sha1", "sha256", "sha512"] := by
    simp only [ChecksumType.ofName?_eq_some_iff]
    constructor
    · rintro ⟨kind, rfl⟩
      cases kind <;> decide
    · intro hs
      simp only [List.mem_cons, List.not_mem_nil, or_false] at hs
      rcases hs with rfl | rfl | rfl | rfl
      exacts [⟨.md5, rfl⟩, ⟨.sha1, rfl⟩, ⟨.sha256, rfl⟩, ⟨.sha512, rfl⟩]
  rw [hread, checksumTypeNamed, ← hnames]
  cases ChecksumType.ofName? s <;> simp

/-- A checksum is taken if its value is a text and its type the name of an algorithm. -/
theorem takes_checksum_iff (hdistinct : (es.map Prod.fst).Nodup)
    (hkind : (Value.object es).Has "type" Value.IsText) :
    CommonKey.checksum.Takes (.object es) ↔ (Value.object es).IsChecksum := by
  have hpair := checksumFormat.exists_read_object_iff (by decide) hdistinct
  obtain ⟨w, hw, s, rfl⟩ := hkind
  have hnamed : (∃ kind, readChecksumType (Tree.ofValue (.text s)) = .ok kind) ↔
      Value.IsNamed ["md5", "sha1", "sha256", "sha512"] (.text s) := by
    rw [exists_readChecksumType_iff]
    simp [Value.IsNamed]
  rw [takes_iff_of_optional fun _ _ => rfl]
  simp only [readChecksum, Except.exists_map_eq_ok_iff, hpair, reduceCtorEq, false_or]
  simp only [checksumFormat, exists_readText_iff]
  constructor
  · rintro ⟨hfirst, hvalue⟩
    exact ⟨⟨_, hw, hnamed.mp (hfirst.optionally _ hw)⟩, hvalue⟩
  · rintro ⟨hfirst, hvalue⟩
    exact ⟨⟨_, hw, hnamed.mpr (hfirst.optionally _ hw)⟩, hvalue⟩

/-! ## Entries of elements -/

/-- The entries of `es` that are left for what a kind carries of its own, as they are read. -/
def ownEntries (es : List Entry) : List Entry :=
  (es.filter fun entry => ownKey entry.1).map fun entry => (entry.1, entry.2.sorted)

theorem readEntry_eq_of_common {key : CommonKey} (hname : CommonKey.ofName? name = some key)
    (hmet : key ∉ p.met) (tree : Tree) :
    p.readEntry room name tree =
      (readCommon p.element tree key).map fun e =>
        { p with met := key :: p.met, element := e } := by
  simp [Partial.readEntry, hname, hmet]

theorem readEntry_eq_of_own (hname : CommonKey.ofName? name = none) (hfits : v.depth < room) :
    p.readEntry room name (Tree.ofValue v) =
      .ok { p with others := p.others ++ [(name, v.sorted)] } := by
  simp only [Partial.readEntry, hname, Json.read_ofValue room v hfits]
  rfl

theorem ownEntries_cons_of_common {key : CommonKey} (hname : CommonKey.ofName? name = some key) :
    ownEntries ((name, v) :: es) = ownEntries es := by
  simp [ownEntries, ownKey, hname]

theorem ownEntries_cons_of_own (hname : CommonKey.ofName? name = none) :
    ownEntries ((name, v) :: es) = (name, v.sorted) :: ownEntries es := by
  simp [ownEntries, ownKey, hname]

/-- Whether `key` takes `v` does not depend on the element `e` that was read before. -/
theorem takes_of_readCommon {key : CommonKey} {e x : Element}
    (hread : readCommon e (Tree.ofValue v) key = .ok x) : key.Takes v := by
  intro other
  cases key <;>
    exact Except.exists_map_eq_ok_iff.mpr (Except.exists_map_eq_ok_iff.mp ⟨x, hread⟩)

/-- Reading `es` leaves `ownEntries es` for the kind, behind what was left before. -/
theorem others_readEntries (hfits : ∀ entry ∈ es, entry.2.depth < room)
    (hread : p.readEntries room (Tree.ofEntries es) = .ok q) :
    q.others = p.others ++ ownEntries es ∧
      ∀ key v, (CommonKey.name key, v) ∈ es → key.Takes v := by
  induction es generalizing p with
  | nil =>
      obtain rfl := Except.ok.inj hread
      exact ⟨(List.append_nil _).symm, fun _ _ hmem => absurd hmem List.not_mem_nil⟩
  | cons entry es ih =>
      obtain ⟨name, v⟩ := entry
      obtain ⟨next, hnext, hrest⟩ := readEntries_cons_iff.mp hread
      have hrestFits : ∀ entry ∈ es, entry.2.depth < room := fun entry hentry =>
        hfits entry (List.mem_cons_of_mem _ hentry)
      obtain ⟨hothers, htakes⟩ := ih hrestFits hrest
      cases hname : CommonKey.ofName? name with
      | some own =>
          obtain rfl := CommonKey.ofName?_eq_some_iff.mp hname
          have hmet : own ∉ p.met := by
            intro hmem
            simp [Partial.readEntry, hname, hmem] at hnext
          rw [readEntry_eq_of_common hname hmet] at hnext
          obtain ⟨x, hx, rfl⟩ := Except.map_eq_ok_iff.mp hnext
          refine ⟨by rw [hothers, ownEntries_cons_of_common hname], ?_⟩
          intro key w hmem
          rcases List.mem_cons.mp hmem with hfirst | hmem
          · obtain ⟨hkey, rfl⟩ := Prod.mk.inj hfirst
            obtain rfl := CommonKey.name_injective hkey
            exact takes_of_readCommon hx
          · exact htakes key w hmem
      | none =>
          rw [readEntry_eq_of_own hname (hfits (name, v) List.mem_cons_self)] at hnext
          obtain rfl := Except.ok.inj hnext
          refine ⟨by rw [hothers, ownEntries_cons_of_own hname, List.append_assoc]; rfl, ?_⟩
          intro key w hmem
          rcases List.mem_cons.mp hmem with hfirst | hmem
          · exact absurd (Prod.mk.inj hfirst).1 (CommonKey.name_ne_of_ofName?_eq_none hname key)
          · exact htakes key w hmem

/-- Entries `es` whose keys do not repeat are read if every common key takes what is under it. -/
theorem exists_readEntries_of_takes (hfits : ∀ entry ∈ es, entry.2.depth < room)
    (hdistinct : (es.map Prod.fst).Nodup)
    (hfresh : ∀ key ∈ p.met, CommonKey.name key ∉ es.map Prod.fst)
    (htakes : ∀ key v, (CommonKey.name key, v) ∈ es → key.Takes v) :
    ∃ q, p.readEntries room (Tree.ofEntries es) = .ok q := by
  induction es generalizing p with
  | nil => exact ⟨p, rfl⟩
  | cons entry es ih =>
      obtain ⟨name, v⟩ := entry
      obtain ⟨hnot, hrest⟩ := List.nodup_cons.mp hdistinct
      have hlater : ∀ p : Partial, (∀ key ∈ p.met, CommonKey.name key ∉ es.map Prod.fst) →
          ∃ q, p.readEntries room (Tree.ofEntries es) = .ok q :=
        fun p hmet => ih (fun entry hentry => hfits entry (List.mem_cons_of_mem _ hentry)) hrest
          hmet fun key w hmem => htakes key w (List.mem_cons_of_mem _ hmem)
      have hold : ∀ key ∈ p.met, CommonKey.name key ∉ es.map Prod.fst := fun key hkey hmem =>
        hfresh key hkey (List.mem_cons_of_mem _ hmem)
      cases hname : CommonKey.ofName? name with
      | some own =>
          obtain rfl := CommonKey.ofName?_eq_some_iff.mp hname
          have hmet : own ∉ p.met := fun hmem => hfresh own hmem List.mem_cons_self
          obtain ⟨x, hx⟩ := htakes own v List.mem_cons_self p.element
          have hnext : ∀ key ∈ own :: p.met, CommonKey.name key ∉ es.map Prod.fst := by
            intro key hkey
            rcases List.mem_cons.mp hkey with rfl | hkey
            · exact hnot
            · exact hold key hkey
          obtain ⟨q, hq⟩ := hlater ⟨own :: p.met, x, p.others⟩ hnext
          refine ⟨q, readEntries_cons_iff.mpr ⟨_, ?_, hq⟩⟩
          rw [readEntry_eq_of_common hname hmet, hx]
          rfl
      | none =>
          obtain ⟨q, hq⟩ := hlater ⟨p.met, p.element, p.others ++ [(name, v.sorted)]⟩ hold
          refine ⟨q, readEntries_cons_iff.mpr ⟨_, ?_, hq⟩⟩
          exact readEntry_eq_of_own hname (hfits (name, v) List.mem_cons_self)

/-! ## What kinds carry of their own -/

variable {kind : Kind}

theorem findKind_of_found (hnot : "type" ∉ es.map Prod.fst) :
    findKind (some kind) es = .ok kind := by
  induction es with
  | nil => rfl
  | cons entry es ih =>
      obtain ⟨key, v⟩ := entry
      have hne : key ≠ "type" := fun heq => hnot (heq ▸ List.mem_cons_self)
      rw [findKind, if_neg hne]
      exact ih fun hmem => hnot (List.mem_cons_of_mem _ hmem)

theorem findKind_eq_ok_iff (hdistinct : (es.map Prod.fst).Nodup) :
    findKind none es = .ok kind ↔ ∃ v, ("type", v) ∈ es ∧ readKind v = .ok kind := by
  induction es with
  | nil => simp [findKind]
  | cons entry es ih =>
      obtain ⟨key, v⟩ := entry
      obtain ⟨hnot, hrest⟩ := List.nodup_cons.mp hdistinct
      by_cases hkey : key = "type"
      · subst hkey
        have hothers : ∀ w, ("type", w) ∉ es := fun w hw => hnot (List.mem_map.mpr ⟨_, hw, rfl⟩)
        have hstep : findKind none (("type", v) :: es) =
            readKind v >>= fun kind => findKind (some kind) es := rfl
        rw [hstep, Except.bind_eq_ok_iff]
        simp [hothers, findKind_of_found hnot]
      · rw [findKind, if_neg hkey, ih hrest]
        simp [Ne.symm hkey]

theorem exists_readBool_iff : (∃ b, readBool v = .ok b) ↔ v.IsBool := by
  cases v <;> simp [readBool, mismatchValue, Value.IsBool]

theorem exists_readDuration_iff : (∃ ms, readDuration v = .ok ms) ↔ v.IsDuration := by
  cases v with
  | number n =>
      cases n with
      | integer n range =>
          by_cases hn : 0 ≤ n
          · simp [readDuration, Value.IsDuration, hn]
            omega
          · simp [readDuration, Value.IsDuration, hn]
      | fraction x => simp [readDuration, mismatchValue, Value.IsDuration]
  | _ => simp [readDuration, mismatchValue, Value.IsDuration]

/-- What a track takes as `v` under the key `name`, if that is one that only tracks have. -/
structure TrackTakes (name : String) (v : Value) : Prop where
  video : name = "has_video" → v.IsBool
  audio : name = "has_audio" → v.IsBool
  duration : name = "duration_ms" → v.IsDuration

theorem trackTakes_video_iff : TrackTakes "has_video" v ↔ v.IsBool :=
  ⟨fun h => h.video rfl,
    fun h => ⟨fun _ => h, fun heq => by simp at heq, fun heq => by simp at heq⟩⟩

theorem trackTakes_audio_iff : TrackTakes "has_audio" v ↔ v.IsBool :=
  ⟨fun h => h.audio rfl,
    fun h => ⟨fun heq => by simp at heq, fun _ => h, fun heq => by simp at heq⟩⟩

theorem trackTakes_duration_iff : TrackTakes "duration_ms" v ↔ v.IsDuration :=
  ⟨fun h => h.duration rfl,
    fun h => ⟨fun heq => by simp at heq, fun heq => by simp at heq, fun _ => h⟩⟩

theorem trackTakes_other (hvideo : name ≠ "has_video") (haudio : name ≠ "has_audio")
    (hduration : name ≠ "duration_ms") : TrackTakes name v :=
  ⟨fun heq => absurd heq hvideo, fun heq => absurd heq haudio, fun heq => absurd heq hduration⟩

/-- The fields of a track are read from entries `es` whose keys do not repeat if each of them is
taken. -/
theorem exists_readTrack_iff (fields : TrackFields) (hdistinct : (es.map Prod.fst).Nodup)
    (hvideo : fields.video.isSome → "has_video" ∉ es.map Prod.fst)
    (haudio : fields.audio.isSome → "has_audio" ∉ es.map Prod.fst)
    (hduration : fields.duration.isSome → "duration_ms" ∉ es.map Prod.fst) :
    (∃ out, readTrack fields es = .ok out) ↔ ∀ entry ∈ es, TrackTakes entry.1 entry.2 := by
  induction es generalizing fields with
  | nil => simp [readTrack]
  | cons entry es ih =>
      obtain ⟨key, v⟩ := entry
      obtain ⟨hnot, hrest⟩ := List.nodup_cons.mp hdistinct
      have hlater : ∀ {name : String} {half : Bool}, (half → name ∉ ((key, v) :: es).map Prod.fst) →
          half → name ∉ es.map Prod.fst := fun h hhalf hmem => h hhalf (List.mem_cons_of_mem _ hmem)
      have habsent : ∀ {α : Type} {half : Option α},
          (half.isSome → key ∉ ((key, v) :: es).map Prod.fst) → half.isSome = false := by
        intro α half h
        rw [← Bool.not_eq_true]
        exact fun hsome => h hsome List.mem_cons_self
      rw [List.forall_mem_cons]
      by_cases hkey : key = "has_video"
      · subst hkey
        have hstep : readTrack fields (("has_video", v) :: es) =
            readBool v >>= fun b => readTrack { fields with video := some b } es := by
          simp [readTrack, habsent hvideo]
        rw [hstep, trackTakes_video_iff]
        exact Except.exists_bind_eq_ok_iff exists_readBool_iff fun b =>
          ih { fields with video := some b } hrest (fun _ => hnot) (hlater haudio)
            (hlater hduration)
      by_cases hkey : key = "has_audio"
      · subst hkey
        have hstep : readTrack fields (("has_audio", v) :: es) =
            readBool v >>= fun b => readTrack { fields with audio := some b } es := by
          simp [readTrack, habsent haudio]
        rw [hstep, trackTakes_audio_iff]
        exact Except.exists_bind_eq_ok_iff exists_readBool_iff fun b =>
          ih { fields with audio := some b } hrest (hlater hvideo) (fun _ => hnot)
            (hlater hduration)
      by_cases hkey : key = "duration_ms"
      · subst hkey
        have hstep : readTrack fields (("duration_ms", v) :: es) =
            readDuration v >>= fun ms => readTrack { fields with duration := some ms } es := by
          simp [readTrack, habsent hduration]
        rw [hstep, trackTakes_duration_iff]
        exact Except.exists_bind_eq_ok_iff exists_readDuration_iff fun ms =>
          ih { fields with duration := some ms } hrest (hlater hvideo) (hlater haudio)
            fun _ => hnot
      have hstep : readTrack fields ((key, v) :: es) = readTrack fields es := by
        simp [readTrack, *]
      rw [hstep, ih fields hrest (hlater hvideo) (hlater haudio) (hlater hduration)]
      exact (and_iff_right (trackTakes_other ‹_› ‹_› ‹_›)).symm

theorem readChannel_of_found {channel : String} (hnot : "channel" ∉ es.map Prod.fst) :
    readChannel (some channel) es = .ok channel := by
  induction es with
  | nil => rfl
  | cons entry es ih =>
      obtain ⟨key, v⟩ := entry
      have hne : key ≠ "channel" := fun heq => hnot (heq ▸ List.mem_cons_self)
      rw [readChannel, if_neg hne]
      exact ih fun hmem => hnot (List.mem_cons_of_mem _ hmem)

theorem exists_readChannel_iff (hdistinct : (es.map Prod.fst).Nodup) :
    (∃ channel, readChannel none es = .ok channel) ↔ ∃ v, ("channel", v) ∈ es ∧ v.IsText := by
  induction es with
  | nil => simp [readChannel]
  | cons entry es ih =>
      obtain ⟨key, v⟩ := entry
      obtain ⟨hnot, hrest⟩ := List.nodup_cons.mp hdistinct
      by_cases hkey : key = "channel"
      · subst hkey
        have hothers : ∀ w, ("channel", w) ∉ es := fun w hw => hnot (List.mem_map.mpr ⟨_, hw, rfl⟩)
        have hstep : readChannel none (("channel", v) :: es) =
            readOwnText v >>= fun channel => readChannel (some channel) es := rfl
        have htext : (∃ channel, readOwnText v = .ok channel) ↔ v.IsText := by
          cases v <;> simp [readOwnText, mismatchValue, Value.IsText]
        rw [hstep, Except.exists_bind_eq_ok_iff htext fun channel => iff_true_intro
          ⟨channel, readChannel_of_found hnot⟩]
        simp [hothers]
      · rw [readChannel, if_neg hkey, ih hrest]
        simp [Ne.symm hkey]

/-- A body is read from `es` if its `kind` is, and with it what that kind carries. -/
theorem exists_readBody_iff :
    (∃ body, readBody es = .ok body) ↔ ∃ kind, findKind none es = .ok kind ∧
      (kind = .track → ∃ fields, readTrack ⟨none, none, none⟩ es = .ok fields) ∧
      (kind = .publication → ∃ channel, readChannel none es = .ok channel) := by
  constructor
  · rintro ⟨body, hread⟩
    obtain ⟨kind, hkind, hrest⟩ := Except.bind_eq_ok_iff.mp hread
    refine ⟨kind, hkind, ?_, ?_⟩
    · rintro rfl
      obtain ⟨fields, hfields, -⟩ := Except.bind_eq_ok_iff.mp hrest
      exact ⟨fields, hfields⟩
    · rintro rfl
      obtain ⟨channel, hchannel, -⟩ := Except.bind_eq_ok_iff.mp hrest
      exact ⟨channel, hchannel⟩
  · rintro ⟨kind, hkind, htrack, hpublication⟩
    have hrest : ∀ {body}, _ → ∃ body, readBody es = .ok body := fun {body} h =>
      ⟨body, Except.bind_eq_ok_iff.mpr ⟨kind, hkind, h⟩⟩
    cases kind with
    | track =>
        obtain ⟨fields, hfields⟩ := htrack rfl
        exact hrest (Except.bind_eq_ok_iff.mpr ⟨fields, hfields, rfl⟩)
    | catalog => exact hrest rfl
    | attachment => exact hrest rfl
    | publication =>
        obtain ⟨channel, hchannel⟩ := hpublication rfl
        exact hrest (Except.bind_eq_ok_iff.mpr ⟨channel, hchannel, rfl⟩)

/-- The object of entries `es` whose keys do not repeat is read as an element if what is under the
common keys is taken and `ownEntries es` are read as a body. -/
theorem exists_readElement_iff (hdistinct : (es.map Prod.fst).Nodup)
    (hfits : ∀ entry ∈ es, entry.2.depth < room) :
    (∃ e, readElement room (Tree.ofValue (.object es)) = .ok e) ↔
      (∀ key v, (CommonKey.name key, v) ∈ es → key.Takes v) ∧
        ∃ body, readBody (ownEntries es) = .ok body := by
  have hread : readElement room (Tree.ofValue (.object es)) =
      Partial.empty.readEntries room (Tree.ofEntries es) >>= fun p =>
        readBody p.others >>= fun body => .ok { p.element with body := body } := rfl
  rw [hread]
  constructor
  · rintro ⟨e, he⟩
    obtain ⟨p, hp, hrest⟩ := Except.bind_eq_ok_iff.mp he
    obtain ⟨body, hbody, -⟩ := Except.bind_eq_ok_iff.mp hrest
    obtain ⟨hothers, htakes⟩ := others_readEntries hfits hp
    rw [hothers] at hbody
    exact ⟨htakes, body, hbody⟩
  · rintro ⟨htakes, body, hbody⟩
    have hfresh : ∀ key ∈ Partial.empty.met, CommonKey.name key ∉ es.map Prod.fst := fun _ hkey =>
      absurd hkey List.not_mem_nil
    obtain ⟨p, hp⟩ := exists_readEntries_of_takes hfits hdistinct hfresh htakes
    have hothers : p.others = ownEntries es := (others_readEntries hfits hp).1
    refine ⟨_, Except.bind_eq_ok_iff.mpr ⟨p, hp, Except.bind_eq_ok_iff.mpr ⟨body, ?_, rfl⟩⟩⟩
    rw [hothers]
    exact hbody

theorem mem_ownEntries_iff {w : Value} :
    (name, w) ∈ ownEntries es ↔ ownKey name = true ∧ ∃ v, (name, v) ∈ es ∧ v.sorted = w := by
  simp only [ownEntries, List.mem_map, List.mem_filter, Prod.exists, Prod.mk.injEq]
  constructor
  · rintro ⟨key, v, ⟨hmem, hown⟩, rfl, hsorted⟩
    exact ⟨hown, v, hmem, hsorted⟩
  · rintro ⟨hown, v, hmem, hsorted⟩
    exact ⟨name, v, ⟨hmem, hown⟩, rfl, hsorted⟩

theorem nodup_ownEntries (hdistinct : (es.map Prod.fst).Nodup) :
    ((ownEntries es).map Prod.fst).Nodup := by
  have hkeys : (ownEntries es).map Prod.fst =
      (es.filter fun entry => ownKey entry.1).map Prod.fst := by
    rw [ownEntries, List.map_map]
    rfl
  rw [hkeys]
  exact hdistinct.sublist (List.filter_sublist.map Prod.fst)

end Codec

end MediaManifest
