import MediaManifest.Proofs.Codec.Decoding
import MediaManifest.Proofs.Codec.Language
import MediaManifest.Proofs.Package.Memory

/-!
# Identifiers assigned while decoding

Decoding adds the elements of the entries one after the other.  The generator
knows all written identifiers before the first of them, so a number that it
draws is written nowhere in the document, neither before nor behind.  The only
identifier that an entry can find taken is therefore the one written in an
earlier entry.

From this follows what is reported of a document at fault: the fault of its
first entry that has one (`FirstFault`).
-/

namespace MediaManifest

open Generator (reserveAll)
open Json (Value Tree)

namespace Codec

variable {seen : List String} {raw : Value} {raws front back : List Value} {err other : Error}
  {key : String} {e : Element}

/-! ## Faults of entries -/

/-- What is wrong with the entry `raw` behind others that wrote the identifiers `seen`.  The kind
is looked at first, then the fields, and then whether the identifier was written before. -/
inductive EntryFault (seen : List String) (raw : Value) : Error → Prop
  | kind {name : String} (htype : textField? "type" raw = some name)
      (hkind : Kind.ofName? name = none) : EntryFault seen raw (.unknownKind name)
  | field {name : String} {kind : Kind} {fault : Fault}
      (htype : textField? "type" raw = some name) (hkind : Kind.ofName? name = some kind)
      (hread : readElement raw.depth (Tree.ofValue raw) = .error fault) :
      EntryFault seen raw (.codec fault)
  | repeated {e : Element} {key : String} (hdecode : decodeRaw raw = .ok e)
      (hid : textField? "id" raw = some key) (hseen : key ∈ seen) :
      EntryFault seen raw (.duplicateElement key)

/-- The entries `raws` are without a fault behind others that wrote `seen`: all can be decoded,
and no identifier is written twice. -/
structure Sound (seen : List String) (raws : List Value) : Prop where
  decodes : ∀ raw ∈ raws, ∃ e, decodeRaw raw = .ok e
  nodup : (writtenIds raws).Nodup
  fresh : ∀ key ∈ writtenIds raws, key ∉ seen

/-- The fault `err` is that of the first entry of `raws` that has one; those in front of it are
`Sound`. -/
def FirstFault (seen : List String) (raws : List Value) (err : Error) : Prop :=
  ∃ front raw back, raws = front ++ raw :: back ∧ Sound seen front ∧
    EntryFault (seen ++ writtenIds front) raw err

/-- The generator `g` has numbers left for the entries of `raws` in front of the first one at
fault. -/
def Lasts (g : Sequential) (raws : List Value) : Prop :=
  ∀ front, front <+: raws → Sound [] front →
    (reserveAll (writtenIds raws) g).HasRoom (missing front)

theorem Sound.nil (seen : List String) : Sound seen [] :=
  ⟨fun _ h => absurd h List.not_mem_nil, .nil, fun _ h => absurd h List.not_mem_nil⟩

theorem writtenIds_append (front back : List Value) :
    writtenIds (front ++ back) = writtenIds front ++ writtenIds back :=
  List.filterMap_append

theorem writtenIds_cons (raw : Value) (raws : List Value) :
    writtenIds (raw :: raws) = writtenIds [raw] ++ writtenIds raws :=
  writtenIds_append [raw] raws

theorem writtenIds_cons_of_some (hid : textField? "id" raw = some key) (raws : List Value) :
    writtenIds (raw :: raws) = key :: writtenIds raws :=
  List.filterMap_cons_some hid

theorem writtenIds_cons_of_none (hid : textField? "id" raw = none) (raws : List Value) :
    writtenIds (raw :: raws) = writtenIds raws :=
  List.filterMap_cons_none hid

theorem sound_append_iff :
    Sound seen (front ++ back) ↔ Sound seen front ∧ Sound (seen ++ writtenIds front) back := by
  constructor
  · rintro ⟨hdecodes, hnodup, hfresh⟩
    rw [writtenIds_append] at hnodup hfresh
    obtain ⟨hfront, hback, hacross⟩ := List.nodup_append.mp hnodup
    refine ⟨⟨?_, hfront, ?_⟩, ⟨?_, hback, ?_⟩⟩
    · exact fun raw hraw => hdecodes raw (List.mem_append_left _ hraw)
    · exact fun key hkey => hfresh key (List.mem_append_left _ hkey)
    · exact fun raw hraw => hdecodes raw (List.mem_append_right _ hraw)
    · intro key hkey hmem
      rcases List.mem_append.mp hmem with hseen | hwritten
      · exact hfresh key (List.mem_append_right _ hkey) hseen
      · exact hacross key hwritten key hkey rfl
  · rintro ⟨hfront, hback⟩
    refine ⟨?_, ?_, ?_⟩
    · intro raw hraw
      rcases List.mem_append.mp hraw with hraw | hraw
      · exact hfront.decodes raw hraw
      · exact hback.decodes raw hraw
    · rw [writtenIds_append]
      refine List.nodup_append.mpr ⟨hfront.nodup, hback.nodup, ?_⟩
      rintro key hkey other hother rfl
      exact hback.fresh key hother (List.mem_append_right _ hkey)
    · intro key hkey hseen
      rw [writtenIds_append] at hkey
      rcases List.mem_append.mp hkey with hkey | hkey
      · exact hfront.fresh key hkey hseen
      · exact hback.fresh key hkey (List.mem_append_left _ hseen)

theorem sound_singleton_iff :
    Sound seen [raw] ↔ (∃ e, decodeRaw raw = .ok e) ∧
      ∀ key, textField? "id" raw = some key → key ∉ seen := by
  constructor
  · intro h
    refine ⟨h.decodes raw List.mem_cons_self, ?_⟩
    intro key hid
    apply h.fresh
    rw [writtenIds_cons_of_some hid]
    exact List.mem_cons_self
  · rintro ⟨hdecode, hfresh⟩
    refine ⟨?_, ?_, ?_⟩
    · intro other hother
      obtain rfl := List.mem_singleton.mp hother
      exact hdecode
    · cases hid : textField? "id" raw with
      | some key =>
          rw [writtenIds_cons_of_some hid]
          exact List.nodup_cons.mpr ⟨List.not_mem_nil, .nil⟩
      | none =>
          rw [writtenIds_cons_of_none hid]
          exact .nil
    · intro key hkey
      obtain ⟨other, hother, hid⟩ := List.mem_filterMap.mp hkey
      obtain rfl := List.mem_singleton.mp hother
      exact hfresh key hid

theorem decodeRaw_of_ofName? {name : String} {kind : Kind}
    (htype : textField? "type" raw = some name) (hkind : Kind.ofName? name = some kind) :
    decodeRaw raw = (readElement raw.depth (Tree.ofValue raw)).mapError Error.codec := by
  simp only [decodeRaw, htype, Kind.parse, hkind]

/-- The error `err` that hinders the decoding of an entry `raw` with a type is its fault. -/
theorem EntryFault.of_decodeRaw (htype : (textField? "type" raw).isSome)
    (hdecode : decodeRaw raw = .error err) : EntryFault seen raw err := by
  obtain ⟨name, hname⟩ := Option.isSome_iff_exists.mp htype
  cases hkind : Kind.ofName? name with
  | none =>
      simp only [decodeRaw, hname, Kind.parse, hkind] at hdecode
      obtain rfl := Except.error.inj hdecode
      exact .kind hname hkind
  | some kind =>
      rw [decodeRaw_of_ofName? hname hkind] at hdecode
      cases hread : readElement raw.depth (Tree.ofValue raw) with
      | ok e =>
          rw [hread] at hdecode
          cases hdecode
      | error fault =>
          rw [hread] at hdecode
          obtain rfl := Except.error.inj hdecode
          exact .field hname hkind hread

/-- A fault of `raw` hinders its decoding, unless it is that an identifier in `seen` is repeated. -/
theorem EntryFault.decodeRaw_eq_or (h : EntryFault seen raw err) :
    decodeRaw raw = .error err ∨
      ∃ e key, decodeRaw raw = .ok e ∧ textField? "id" raw = some key ∧ key ∈ seen ∧
        err = .duplicateElement key := by
  cases h with
  | kind htype hkind =>
      left
      simp only [decodeRaw, htype, Kind.parse, hkind]
  | field htype hkind hread =>
      left
      rw [decodeRaw_of_ofName? htype hkind, hread]
      rfl
  | repeated hdecode hid hseen => exact .inr ⟨_, _, hdecode, hid, hseen, rfl⟩

theorem decodeRaw_ne_duplicateElement : decodeRaw raw ≠ .error (.duplicateElement key) := by
  intro hdecode
  unfold decodeRaw at hdecode
  split at hdecode
  · cases hdecode
  · split at hdecode
    · next hkind =>
      unfold Kind.parse at hkind
      split at hkind
      · cases hkind
      · cases hkind
        cases hdecode
    · cases hread : readElement raw.depth (Tree.ofValue raw) with
      | ok e =>
          rw [hread] at hdecode
          cases hdecode
      | error fault =>
          rw [hread] at hdecode
          cases hdecode

theorem EntryFault.unique (h : EntryFault seen raw err) (hother : EntryFault seen raw other) :
    err = other := by
  rcases h.decodeRaw_eq_or with herr | ⟨e, key, hdecode, hid, -, rfl⟩
  · rcases hother.decodeRaw_eq_or with hother | ⟨_, _, hdecode, -⟩
    · exact Except.error.inj (herr.symm.trans hother)
    · cases herr.symm.trans hdecode
  · rcases hother.decodeRaw_eq_or with hother | ⟨_, own, -, hown, -, rfl⟩
    · cases hdecode.symm.trans hother
    · obtain rfl := Option.some.inj (hid.symm.trans hown)
      rfl

theorem EntryFault.not_sound (h : EntryFault seen raw err) : ¬ Sound seen [raw] := by
  intro hsound
  obtain ⟨⟨e, hdecode⟩, hfresh⟩ := sound_singleton_iff.mp hsound
  rcases h.decodeRaw_eq_or with herr | ⟨_, key, -, hid, hseen, -⟩
  · cases hdecode.symm.trans herr
  · exact hfresh key hid hseen

/-- Entries with a first fault are not sound. -/
theorem FirstFault.not_sound (h : FirstFault seen raws err) : ¬ Sound seen raws := by
  obtain ⟨front, raw, back, rfl, -, hfault⟩ := h
  intro hsound
  obtain ⟨-, hrest⟩ := sound_append_iff.mp hsound
  have hone : Sound (seen ++ writtenIds front) ([raw] ++ back) := hrest
  exact hfault.not_sound (sound_append_iff.mp hone).1

/-- There is at most one first fault. -/
theorem FirstFault.unique (h : FirstFault seen raws err) (hother : FirstFault seen raws other) :
    err = other := by
  obtain ⟨front, raw, back, rfl, hsound, hfault⟩ := h
  obtain ⟨front', raw', back', hcut, hsound', hfault'⟩ := hother
  -- The entry at fault of the shorter front would stand in the longer one.
  have hshort : ∀ {front more : List Value} {raw : Value} {err : Error},
      Sound seen (front ++ raw :: more) → ¬ EntryFault (seen ++ writtenIds front) raw err :=
    fun hsound hfault => FirstFault.not_sound ⟨_, _, _, rfl, (sound_append_iff.mp hsound).1,
      hfault⟩ hsound
  rcases List.append_eq_append_iff.mp hcut with ⟨gap, rfl, hgap⟩ | ⟨gap, rfl, hgap⟩
  · cases gap with
    | nil =>
        obtain ⟨rfl, -⟩ := List.cons_eq_cons.mp hgap
        rw [List.append_nil] at hfault'
        exact hfault.unique hfault'
    | cons x gap =>
        obtain ⟨rfl, -⟩ := List.cons_eq_cons.mp hgap
        exact absurd hfault (hshort hsound')
  · cases gap with
    | nil =>
        obtain ⟨rfl, -⟩ := List.cons_eq_cons.mp hgap
        rw [List.append_nil] at hfault
        exact hfault.unique hfault'
    | cons x gap =>
        obtain ⟨rfl, -⟩ := List.cons_eq_cons.mp hgap
        exact absurd hfault' (hshort hsound)

/-! ## Adding entries in order -/

/-- The roster `r` between two entries of a document, with `raws` still to come.  Its generator
covers what it holds and what is still to come; of the latter it holds what is in `seen`; and
numbers are left for the entries in front of the next fault. -/
structure Assigning (seen : List String) (r : Roster Sequential) (raws : List Value) : Prop where
  known : r.Known Sequential.Covers
  covered : ∀ key ∈ writtenIds raws, r.generator.Covers key
  agree : ∀ key ∈ writtenIds raws, key ∈ r.ids ↔ key ∈ seen
  room : ∀ front, front <+: raws → Sound seen front → r.generator.HasRoom (missing front)

variable {r : Roster Sequential}

theorem Assigning.room_cons (h : Assigning seen r (raw :: raws)) (hfirst : Sound seen [raw])
    (hfront : front <+: raws) (hsound : Sound (seen ++ writtenIds [raw]) front) :
    r.generator.HasRoom (missing (raw :: front)) := by
  apply h.room (raw :: front) (List.cons_prefix_cons.mpr ⟨rfl, hfront⟩)
  exact sound_append_iff.mpr ⟨hfirst, hsound⟩

/-- The identifier that an entry `raw` without a fault gets is free in `r`, and still to come only
if it is written in `raw`. -/
theorem Assigning.free (h : Assigning seen r (raw :: raws)) (hfirst : Sound seen [raw])
    (hdecode : decodeRaw raw = .ok e) :
    ∃ key, (Element.fill r.generator e).1.id = some key ∧ key ∉ r.ids ∧
      ∀ other ∈ writtenIds raws, other = key ↔ other ∈ writtenIds [raw] := by
  have hsame := id_of_decodeRaw hdecode
  cases hid : textField? "id" raw with
  | some key =>
      have hown : e.id = some key := hsame.trans hid
      have hmem : key ∈ writtenIds (raw :: raws) := by
        rw [writtenIds_cons_of_some hid]
        exact List.mem_cons_self
      rw [Element.fill_of_some _ hown, writtenIds_cons_of_some hid]
      refine ⟨key, hown, ?_, ?_⟩
      · rw [h.agree key hmem]
        exact (sound_singleton_iff.mp hfirst).2 key hid
      · exact fun other _ => List.mem_singleton.symm
  | none =>
      have hroom := h.room_cons hfirst List.nil_prefix (.nil _)
      rw [missing_cons_of_none hid] at hroom
      -- What is held and what is still to come is covered; the next number is not.
      have hnew : ¬ r.generator.Covers (Generator.next r.generator).1 :=
        hroom.not_covers (Nat.lt_succ_self _) (by omega)
      rw [Element.fill_of_none _ (hsame.trans hid), writtenIds_cons_of_none hid]
      refine ⟨_, rfl, ?_, ?_⟩
      · exact fun hmem => hnew (h.known.of_mem_ids hmem)
      · intro other hother
        refine iff_of_false ?_ List.not_mem_nil
        rintro rfl
        apply hnew
        apply h.covered
        rwa [writtenIds_cons_of_none hid]

/-- Adding the element of an entry `raw` without a fault keeps the invariant `Assigning`. -/
theorem Assigning.step (h : Assigning seen r (raw :: raws)) (hfirst : Sound seen [raw])
    (hdecode : decodeRaw raw = .ok e) :
    Assigning (seen ++ writtenIds [raw])
      (r.extend ([(Element.fill r.generator e).1], (Element.fill r.generator e).2)) raws := by
  have hsame := id_of_decodeRaw hdecode
  obtain ⟨key, hfilled, hfree, honly⟩ := h.free hfirst hdecode
  have hlater : ∀ other ∈ writtenIds raws, other ∈ writtenIds (raw :: raws) := by
    intro other hother
    rw [writtenIds_cons]
    exact List.mem_append_right _ hother
  refine ⟨?_, ?_, ?_, ?_⟩
  · have hknown := h.known.add Sequential.remembers_covers e
    rw [Roster.add_of_free hfilled hfree] at hknown
    exact hknown
  · exact fun other hother => Element.covers_fill (h.covered other (hlater other hother)) e
  · intro other hother
    rw [Roster.mem_ids_extend _ hfilled, List.mem_append, h.agree other (hlater other hother),
      honly other hother]
  · intro front hfront hsound
    have hroom := h.room_cons hfirst hfront hsound
    cases hid : textField? "id" raw with
    | some own =>
        have hcovers : r.generator.Covers own := by
          apply h.covered
          rw [writtenIds_cons_of_some hid]
          exact List.mem_cons_self
        rw [Element.fill_sequential_of_some (hsame.trans hid) hcovers]
        rwa [missing_cons_of_some hid] at hroom
    | none =>
        rw [Element.fill_sequential_of_none _ (hsame.trans hid)]
        rw [missing_cons_of_none hid] at hroom
        exact hroom.rest

/-- Adding an entry whose identifier `key` is in `seen` is refused for it. -/
theorem Assigning.refuse (h : Assigning seen r (raw :: raws)) (hdecode : decodeRaw raw = .ok e)
    (hid : textField? "id" raw = some key) (hseen : key ∈ seen) :
    (r.add e).1 = .error (.duplicateElement key) := by
  have hown : e.id = some key := (id_of_decodeRaw hdecode).trans hid
  have hmem : key ∈ writtenIds (raw :: raws) := by
    rw [writtenIds_cons_of_some hid]
    exact List.mem_cons_self
  apply Roster.fst_add_of_taken
  · rw [Element.fill_of_some _ hown]
    exact hown
  · exact (h.agree key hmem).mpr hseen

theorem FirstFault.cons (hfirst : Sound seen [raw])
    (h : FirstFault (seen ++ writtenIds [raw]) raws err) : FirstFault seen (raw :: raws) err := by
  obtain ⟨front, at_fault, back, rfl, hsound, hfault⟩ := h
  refine ⟨raw :: front, at_fault, back, rfl, sound_append_iff.mpr ⟨hfirst, hsound⟩, ?_⟩
  rwa [writtenIds_cons, ← List.append_assoc]

/-- The entries `raws` are all added if none of them is at fault; otherwise the first fault is
reported. -/
theorem Assigning.addRaws {p : Package Sequential} (hcoherent : p.slots.Coherent)
    (h : Assigning seen p.roster raws) (htyped : ∀ raw ∈ raws, (textField? "type" raw).isSome) :
    (Sound seen raws ∧ ∃ q, addRaws p raws = (.ok (), q)) ∨
      ∃ err q, FirstFault seen raws err ∧ addRaws p raws = (.error err, q) := by
  induction raws generalizing seen p with
  | nil => exact .inl ⟨.nil seen, p, rfl⟩
  | cons raw raws ih =>
      have hfaulty : ∀ {err}, EntryFault seen raw err → FirstFault seen (raw :: raws) err := by
        intro err hfault
        refine ⟨[], raw, raws, rfl, .nil seen, ?_⟩
        rwa [show writtenIds [] = [] from rfl, List.append_nil]
      cases hdecode : decodeRaw raw with
      | error err =>
          right
          refine ⟨err, p, hfaulty (.of_decodeRaw (htyped raw List.mem_cons_self) hdecode), ?_⟩
          rw [Codec.addRaws, hdecode]
      | ok e =>
          have hmodel := Package.refines_add hcoherent e
          by_cases hwritten : ∃ key, textField? "id" raw = some key ∧ key ∈ seen
          · obtain ⟨key, hid, hseen⟩ := hwritten
            right
            have hrefused : p.add e = (.error (.duplicateElement key), (p.add e).2) :=
              Prod.ext (hmodel.answer.trans (h.refuse hdecode hid hseen)) rfl
            refine ⟨_, (p.add e).2, hfaulty (.repeated hdecode hid hseen), ?_⟩
            rw [Codec.addRaws, hdecode]
            simp only
            rw [hrefused]
          · have hfirst : Sound seen [raw] := by
              refine sound_singleton_iff.mpr ⟨⟨e, hdecode⟩, ?_⟩
              exact fun key hid hseen => hwritten ⟨key, hid, hseen⟩
            obtain ⟨key, hfilled, hfree, -⟩ := h.free hfirst hdecode
            rw [Roster.add_of_free hfilled hfree] at hmodel
            obtain ⟨after, hadd, hafter, hcoherent'⟩ := hmodel.exists_eq
            have hnext := h.step hfirst hdecode
            rw [← hafter] at hnext
            have hloop : addRaws p (raw :: raws) = addRaws after raws := by
              rw [Codec.addRaws, hdecode]
              simp only [hadd]
            rw [hloop]
            rcases ih hcoherent' hnext fun x hx => htyped x (List.mem_cons_of_mem _ hx) with
              ⟨hsound, q, hq⟩ | ⟨err, q, hfault, hq⟩
            · exact .inl ⟨sound_append_iff.mpr ⟨hfirst, hsound⟩, q, hq⟩
            · exact .inr ⟨err, q, hfault.cons hfirst, hq⟩

/-! ## Decoding documents -/

variable {g : Sequential} {document : Value}

theorem Lasts.of_hasRoom (h : (reserveAll (writtenIds raws) g).HasRoom (missing raws)) :
    Lasts g raws := by
  intro front hfront _ j hj
  have hcount : missing front ≤ missing raws := hfront.sublist.countP_le
  exact h j (Nat.lt_of_lt_of_le hj hcount)

theorem assigning_opening (hlasts : Lasts g (rawElements document)) :
    Assigning [] (opening g document).roster (rawElements document) where
  known _ he := absurd he List.not_mem_nil
  covered _ hkey := Sequential.remembers_covers.reservedAll hkey
  agree _ _ := Iff.rfl
  room := hlasts

theorem fst_decodeValue (hvalid : validate document = .ok ()) :
    (decodeValue g document).1 =
      (addRaws (opening g document) (rawElements document)).1.map fun _ =>
        (addRaws (opening g document) (rawElements document)).2 := by
  have hopening : { Package.ofGenerator (reserveAll (writtenIds (rawElements document)) g) with
      identifier := textField? "id" document
      title := textField? "title" document } = opening g document := rfl
  unfold decodeValue
  simp only [hvalid, hopening]
  rcases addRaws (opening g document) (rawElements document) with ⟨answer, q⟩
  cases answer with
  | ok done => rfl
  | error err => rfl

/-- A `document` that fits the schema is decoded if its entries are `Sound`, and fails with the
first fault among them otherwise. -/
theorem decodeValue_or (hvalid : validate document = .ok ())
    (hlasts : Lasts g (rawElements document)) :
    (Sound [] (rawElements document) ∧ ∃ p, (decodeValue g document).1 = .ok p) ∨
      ∃ err, FirstFault [] (rawElements document) err ∧
        (decodeValue g document).1 = .error err := by
  have htyped : ∀ raw ∈ rawElements document, (textField? "type" raw).isSome := by
    obtain ⟨-, -, w, hw, raws, rfl, hfits⟩ := validate_eq_ok_iff.mp hvalid
    rw [rawElements, hw]
    intro raw hraw
    obtain ⟨v, hv, name, rfl, -⟩ := (hfits raw hraw).kind
    rw [textField?, hv]
    rfl
  rw [fst_decodeValue hvalid]
  rcases (assigning_opening hlasts).addRaws (p := opening g document) Slots.coherent_empty htyped
    with ⟨hsound, q, hq⟩ | ⟨err, q, hfault, hq⟩
  · exact .inl ⟨hsound, q, by rw [hq]; rfl⟩
  · exact .inr ⟨err, hfault, by rw [hq]; rfl⟩

/-- The element `e` of a decoded package holds what its entry `raw` is decoded to, under the
identifier written there or under one that is not in `written`. -/
def Assigned (written : List String) (raw : Value) (e : Element) : Prop :=
  ∃ d, decodeRaw raw = .ok d ∧
    ((∃ key, textField? "id" raw = some key ∧ e = d ∧ e.id = some key) ∨
      textField? "id" raw = none ∧ ∃ key, e = d.withId key ∧ key ∉ written)

theorem forall₂_assigned {p : Package Sequential} (hlasts : Lasts g (rawElements document))
    (hdecode : (decodeValue g document).1 = .ok p) (hsound : Sound [] (rawElements document)) :
    List.Forall₂ (Assigned (writtenIds (rawElements document))) (rawElements document)
        p.elements ∧
      p.generator = ⟨g.stem,
        (reserveAll (writtenIds (rawElements document)) g).issued +
          missing (rawElements document)⟩ := by
  obtain ⟨es, hes, hroster, -⟩ := exists_roster_of_decodeValue hdecode
  have hroom := hlasts _ List.prefix_rfl hsound
  have hcovers : ∀ e ∈ es, ∀ key, e.id = some key →
      (opening g document).generator.Covers key := by
    intro e he key hid
    apply Sequential.remembers_covers.reservedAll
    rw [← hes.ids_eq]
    exact List.mem_filterMap.mpr ⟨e, he, hid⟩
  obtain ⟨himages, hafter⟩ := Element.fillAll_sequential hcovers
  rw [hes.missing_eq] at himages hafter
  have helements : p.elements = (Element.fillAll _ es).1 := congrArg Roster.elements hroster
  have hgenerator : p.generator = (Element.fillAll _ es).2 := congrArg Roster.generator hroster
  have hstem : (opening g document).generator.stem = g.stem := Sequential.stem_reserveAll _ g
  rw [helements, hgenerator, hafter, hstem]
  refine ⟨hes.comp himages ?_, rfl⟩
  intro raw e image hraw himage
  have hsame := id_of_decodeRaw hraw
  refine ⟨e, hraw, ?_⟩
  rcases himage with ⟨hsome, rfl⟩ | ⟨hnone, n, hlow, hhigh, rfl⟩
  · obtain ⟨key, hkey⟩ := Option.isSome_iff_exists.mp hsome
    exact .inl ⟨key, hsame.symm.trans hkey, rfl, hkey⟩
  · refine .inr ⟨hsame.symm.trans hnone, _, rfl, ?_⟩
    -- The numbers drawn are past all written identifiers.
    intro hwritten
    exact hroom.not_covers hlow hhigh (Sequential.remembers_covers.reservedAll hwritten)

/-- Decoding a `document` that fits the schema assigns identifiers without collision, as long as
`g` has numbers.  Every entry becomes an element of `p`, in order and as `Assigned` says; written
identifiers are kept, and the others are distinct numbers that are written nowhere, for each of
which the generator takes one step.  A decoding fails exactly with the `FirstFault` among the
entries, so what is reported as `duplicateElement` is written twice. -/
theorem decodeValue_assigns (hvalid : validate document = .ok ())
    (hlasts : Lasts g (rawElements document)) :
    (∀ p, (decodeValue g document).1 = .ok p →
      List.Forall₂ (Assigned (writtenIds (rawElements document))) (rawElements document)
        p.elements ∧
      p.elements.Pairwise (fun a b => a.id ≠ b.id) ∧
      p.generator = ⟨g.stem,
        (reserveAll (writtenIds (rawElements document)) g).issued +
          missing (rawElements document)⟩) ∧
    (∀ err, (decodeValue g document).1 = .error err ↔
      FirstFault [] (rawElements document) err) ∧
    ∀ key, (decodeValue g document).1 = .error (.duplicateElement key) →
      2 ≤ (writtenIds (rawElements document)).count key := by
  have hiff : ∀ err, (decodeValue g document).1 = .error err ↔
      FirstFault [] (rawElements document) err := by
    intro err
    rcases decodeValue_or hvalid hlasts with ⟨hsound, p, hp⟩ | ⟨first, hfault, hfirst⟩
    · rw [hp]
      exact iff_of_false (fun herror => nomatch herror) fun hfault => hfault.not_sound hsound
    · rw [hfirst]
      constructor
      · intro hsame
        obtain rfl := Except.error.inj hsame
        exact hfault
      · intro hother
        rw [hfault.unique hother]
  refine ⟨?_, hiff, ?_⟩
  · intro p hdecode
    have hsound : Sound [] (rawElements document) := by
      rcases decodeValue_or hvalid hlasts with ⟨hsound, -⟩ | ⟨err, -, herr⟩
      · exact hsound
      · cases herr.symm.trans hdecode
    obtain ⟨hassigned, hgenerator⟩ := forall₂_assigned hlasts hdecode hsound
    exact ⟨hassigned, (Package.Reachable.decoded hdecode).coherent.pairwise_ne, hgenerator⟩
  · intro key hduplicate
    obtain ⟨front, raw, back, hcut, -, hfault⟩ := (hiff _).mp hduplicate
    rcases hfault.decodeRaw_eq_or with hdecode | ⟨e, other, -, hid, hseen, hsame⟩
    · exact absurd hdecode decodeRaw_ne_duplicateElement
    · obtain rfl := Error.duplicateElement.inj hsame
      have hfront : 1 ≤ (writtenIds front).count key := List.one_le_count_iff.mpr hseen
      rw [hcut, writtenIds_append, List.count_append, writtenIds_cons_of_some hid,
        List.count_cons_self]
      omega

/-- The first number is written in an entry between two that lack an identifier.  In another
document an identifier is repeated in front of an entry of no known kind. -/
theorem decodeValue_assigns_around_written_number :
    let document := fun raws => Value.object [("elements", .list raws)]
    let numbered := document [.object [("type", .text "track")],
      .object [("id", .text "x-1"), ("type", .text "catalog")],
      .object [("type", .text "attachment")]]
    let repeated := document [.object [("id", .text "a"), ("type", .text "track")],
      .object [("id", .text "a"), ("type", .text "catalog")],
      .object [("type", .text "series")]]
    (∃ p, (decodeValue (Sequential.ofStem "x") numbered).1 = .ok p ∧
      p.elements.Pairwise (fun a b => a.id ≠ b.id) ∧ p.generator = ⟨"x", 3⟩) ∧
    (decodeValue (Sequential.ofStem "x") repeated).1 = .error (.duplicateElement "a") := by
  intro document numbered repeated
  let g := Sequential.ofStem "x"
  have hlasts : ∀ raws, (reserveAll (writtenIds raws) g).issued + missing raws < 10 →
      Lasts g raws := by
    intro raws hfew
    apply Lasts.of_hasRoom
    intro j hj
    omega
  constructor
  · have hvalid : validate numbered = .ok () := by cbv
    have hroom : Lasts g (rawElements numbered) := hlasts _ (by decide)
    have hsound : Sound [] (rawElements numbered) := by
      have hdecodes : Decodes (rawElements numbered)
          [.ofBody (.track false false none), (Element.ofBody .catalog).withId "x-1",
            .ofBody .attachment] :=
        .cons (by cbv) (.cons (by cbv) (.cons (by cbv) .nil))
      exact ⟨fun _ hraw => hdecodes.exists_of_mem hraw, by decide, fun _ _ => List.not_mem_nil⟩
    obtain ⟨hok, herror, -⟩ := decodeValue_assigns hvalid hroom
    cases hdecode : (decodeValue g numbered).1 with
    | error err => exact absurd hsound ((herror err).mp hdecode).not_sound
    | ok p =>
        obtain ⟨-, hdistinct, hgenerator⟩ := hok p hdecode
        exact ⟨p, rfl, hdistinct, hgenerator.trans (by decide)⟩
  · have hvalid : validate repeated = .ok () := by cbv
    have hroom : Lasts g (rawElements repeated) := hlasts _ (by decide)
    have hfirst : Sound [] [.object [("id", .text "a"), ("type", .text "track")]] :=
      sound_singleton_iff.mpr ⟨⟨_, by cbv⟩, fun _ _ => List.not_mem_nil⟩
    refine ((decodeValue_assigns hvalid hroom).2.1 _).mpr ?_
    exact ⟨_, _, _, rfl, hfirst, .repeated (by cbv) rfl (by decide)⟩

end Codec

end MediaManifest
