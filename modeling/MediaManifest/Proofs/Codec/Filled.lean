import MediaManifest.Proofs.Codec.Acceptance
import MediaManifest.Proofs.Codec.Decoding
import MediaManifest.Proofs.Package.Lineage
import MediaManifest.Proofs.Package.Merging
import MediaManifest.Settings

/-!
# Packages that can be written and read again

The schema refuses an empty identifier and a reference with an empty part.  It
does so for every entry that is decoded, and a generator that never hands out
the empty text gives none to the entries that lack an identifier.  A merge only
passes elements on and renames some to identifiers that it draws.  So what is
decoded, or merged from what was decoded, is `Filled`: it can be written and
decoded again.
-/

namespace MediaManifest

open Generator (Leads reserveAll)
open Json (Tree Value)

namespace Codec

/-! ## Decoded references -/

variable {e after : Element} {p q : Partial} {room : Nat} {name : String} {tree : Tree}
  {es : List Entry} {r : Reference} {v raw : Value}

/-- Only the key `ref` sets the reference `r`. -/
theorem reference_readCommon {key : CommonKey} (hread : readCommon e tree key = .ok after)
    (hr : after.reference = some r) :
    e.reference = some r ∨ key = .reference ∧ readOptional readReference tree = .ok (some r) := by
  cases key with
  | reference =>
      obtain ⟨reference, hreference, rfl⟩ := Except.map_eq_ok_iff.mp hread
      obtain rfl : reference = some r := hr
      exact .inr ⟨rfl, hreference⟩
  | _ =>
      obtain ⟨_, _, rfl⟩ := Except.map_eq_ok_iff.mp hread
      exact .inl hr

theorem reference_readEntry (hread : p.readEntry room name tree = .ok q)
    (hr : q.element.reference = some r) :
    p.element.reference = some r ∨
      name = "ref" ∧ readOptional readReference tree = .ok (some r) := by
  unfold Partial.readEntry at hread
  split at hread
  · next key hkey =>
    split at hread
    · cases hread
    · obtain ⟨after, hafter, rfl⟩ := Except.map_eq_ok_iff.mp hread
      refine (reference_readCommon hafter hr).imp_right ?_
      rintro ⟨rfl, hreference⟩
      exact ⟨CommonKey.ofName?_eq_some_iff.mp hkey, hreference⟩
  · obtain ⟨_, _, rfl⟩ := Except.map_eq_ok_iff.mp hread
    exact .inl hr

/-- A reference `r` that was read stands in an entry `w`. -/
theorem reference_readEntries (hread : p.readEntries room (Tree.ofEntries es) = .ok q)
    (hr : q.element.reference = some r) :
    p.element.reference = some r ∨
      ∃ w, ("ref", w) ∈ es ∧ readOptional readReference (Tree.ofValue w) = .ok (some r) := by
  induction es generalizing p with
  | nil =>
      obtain rfl := Except.ok.inj hread
      exact .inl hr
  | cons entry es ih =>
      obtain ⟨name, v⟩ := entry
      obtain ⟨next, hnext, hrest⟩ := readEntries_cons_iff.mp hread
      rcases ih hrest with hbefore | ⟨w, hw, hreference⟩
      · refine (reference_readEntry hnext hbefore).imp_right ?_
        rintro ⟨rfl, hreference⟩
        exact ⟨v, List.mem_cons_self, hreference⟩
      · exact .inr ⟨w, List.mem_cons_of_mem _ hw, hreference⟩

namespace PairFormat

variable {α β : Type} {format : PairFormat α β} {halves out : Halves α β} {a : α} {b : β}

/-- Both fields that are read were there before or stand in an entry. -/
theorem mem_of_readEntries (hread : format.readEntries halves (Tree.ofEntries es) = .ok out) :
    (∀ a, out.first = some a → halves.first = some a ∨
        ∃ v, (format.firstName, v) ∈ es ∧ format.readFirst (Tree.ofValue v) = .ok a) ∧
      ∀ b, out.second = some b → halves.second = some b ∨
        ∃ v, (format.secondName, v) ∈ es ∧ format.readSecond (Tree.ofValue v) = .ok b := by
  induction es generalizing halves with
  | nil =>
      obtain rfl := Except.ok.inj hread
      exact ⟨fun _ h => .inl h, fun _ h => .inl h⟩
  | cons entry es ih =>
      obtain ⟨key, v⟩ := entry
      have hlater : ∀ {γ : Type} {name : String} {read : Tree → Except Fault γ} {c : γ},
          (∃ w, (name, w) ∈ es ∧ read (Tree.ofValue w) = .ok c) →
            ∃ w, (name, w) ∈ (key, v) :: es ∧ read (Tree.ofValue w) = .ok c :=
        fun ⟨w, hw, hc⟩ => ⟨w, List.mem_cons_of_mem _ hw, hc⟩
      have hkey : lift (.ok key : Except Json.Fault String) = .ok key := rfl
      rw [Tree.ofEntries, readEntries, hkey, Except.bind_eq_ok_iff] at hread
      obtain ⟨name, hname, hread⟩ := hread
      obtain rfl := Except.ok.inj hname
      split at hread
      · next hfirst =>
        subst hfirst
        split at hread
        · cases hread
        · obtain ⟨a, ha, hrest⟩ := Except.bind_eq_ok_iff.mp hread
          obtain ⟨hfirsts, hseconds⟩ := ih hrest
          refine ⟨?_, fun b hb => (hseconds b hb).imp_right hlater⟩
          intro other hother
          rcases hfirsts other hother with hsame | hrest
          · obtain rfl := Option.some.inj hsame
            exact .inr ⟨v, List.mem_cons_self, ha⟩
          · exact .inr (hlater hrest)
      · split at hread
        · next hsecond =>
          subst hsecond
          split at hread
          · cases hread
          · obtain ⟨b, hb, hrest⟩ := Except.bind_eq_ok_iff.mp hread
            obtain ⟨hfirsts, hseconds⟩ := ih hrest
            refine ⟨fun a ha => (hfirsts a ha).imp_right hlater, ?_⟩
            intro other hother
            rcases hseconds other hother with hsame | hrest
            · obtain rfl := Option.some.inj hsame
              exact .inr ⟨v, List.mem_cons_self, hb⟩
            · exact .inr (hlater hrest)
        · obtain ⟨_, _, hrest⟩ := Except.bind_eq_ok_iff.mp hread
          obtain ⟨hfirsts, hseconds⟩ := ih hrest
          exact ⟨fun a ha => (hfirsts a ha).imp_right hlater,
            fun b hb => (hseconds b hb).imp_right hlater⟩

/-- The fields `a` and `b` of an object that is read stand in its entries. -/
theorem mem_of_read (hread : format.read (Tree.ofValue (.object es)) = .ok (a, b)) :
    (∃ v, (format.firstName, v) ∈ es ∧ format.readFirst (Tree.ofValue v) = .ok a) ∧
      ∃ v, (format.secondName, v) ∈ es ∧ format.readSecond (Tree.ofValue v) = .ok b := by
  obtain ⟨out, hout, hread⟩ := Except.bind_eq_ok_iff.mp hread
  obtain ⟨_, _, hfinish⟩ := Except.bind_eq_ok_iff.mp hread
  obtain ⟨first, second⟩ := out
  obtain ⟨hfirsts, hseconds⟩ := mem_of_readEntries hout
  cases first with
  | none => cases hfinish
  | some x =>
      cases second with
      | none => cases hfinish
      | some y =>
          obtain ⟨rfl, rfl⟩ := Prod.mk.inj (Except.ok.inj hfinish)
          exact ⟨(hfirsts _ rfl).resolve_left (by simp), (hseconds _ rfl).resolve_left (by simp)⟩

end PairFormat

/-! ## Decoded elements -/

theorem ne_empty_of_readText {s : String} (hfilled : v.IsFilledText)
    (hread : readText (Tree.ofValue v) = .ok s) : s ≠ "" := by
  obtain ⟨t, rfl, ht⟩ := hfilled
  obtain rfl : t = s := Except.ok.inj hread
  exact ht

theorem ne_empty_of_readReference (hdistinct : v.distinctKeys = true) (hv : v.IsReference)
    (hread : readReference (Tree.ofValue v) = .ok r) : r.kind ≠ "" ∧ r.id ≠ "" := by
  obtain ⟨es, rfl⟩ := hv.kind.exists_object
  obtain ⟨hkeys, -⟩ := Value.distinctKeys_object_iff.mp hdistinct
  obtain ⟨⟨kind, id⟩, hpair, rfl⟩ := Except.map_eq_ok_iff.mp hread
  obtain ⟨⟨w, hw, hkind⟩, ⟨x, hx, hid⟩⟩ := PairFormat.mem_of_read hpair
  have hkindFilled := hv.kind.optionally _ ((Value.lookup_eq_some_iff hkeys).mpr hw)
  have hidFilled := hv.id.optionally _ ((Value.lookup_eq_some_iff hkeys).mpr hx)
  exact ⟨ne_empty_of_readText hkindFilled hkind, ne_empty_of_readText hidFilled hid⟩

theorem exists_readEntries_of_decodeRaw (hdecode : decodeRaw raw = .ok e) :
    ∃ es p, raw = .object es ∧
      Partial.empty.readEntries raw.depth (Tree.ofEntries es) = .ok p ∧
      e.reference = p.element.reference := by
  unfold decodeRaw at hdecode
  split at hdecode
  · cases hdecode
  · split at hdecode
    · cases hdecode
    · have hread := Except.mapError_eq_ok_iff.mp hdecode
      cases raw with
      | object es =>
          obtain ⟨p, hp, hrest⟩ := Except.bind_eq_ok_iff.mp hread
          obtain ⟨_, _, hrest⟩ := Except.bind_eq_ok_iff.mp hrest
          obtain ⟨body, _, hbody⟩ := Except.bind_eq_ok_iff.mp hrest
          obtain rfl := Except.ok.inj hbody
          exact ⟨es, p, rfl, hp, rfl⟩
      | _ => cases hread

/-- The element `e` that is decoded from an entry `raw` that fits the schema can be written. -/
theorem filled_of_decodeRaw (hkeys : raw.distinctKeys = true) (hfits : FitsSchema raw)
    (hdecode : decodeRaw raw = .ok e) : e.Filled := by
  constructor
  · intro hempty
    have hid : textField? "id" raw = some "" := (id_of_decodeRaw hdecode).symm.trans hempty
    obtain ⟨s, hs, hne⟩ := hfits.id _ (textField?_eq_some_iff.mp hid)
    obtain rfl := Value.text.inj hs
    exact hne rfl
  · intro r hr
    obtain ⟨es, p, rfl, hread, hsame⟩ := exists_readEntries_of_decodeRaw hdecode
    obtain ⟨hdistinct, hinner⟩ := Value.distinctKeys_object_iff.mp hkeys
    rcases reference_readEntries hread (hsame.symm.trans hr) with hnone | ⟨w, hw, hreference⟩
    · cases hnone
    · have hsome := hfits.reference w ((Value.lookup_eq_some_iff hdistinct).mpr hw)
      have hread : readReference (Tree.ofValue w) = .ok r := by
        obtain ⟨fields, rfl⟩ := hsome.kind.exists_object
        obtain ⟨s, hs, hr⟩ := Except.map_eq_ok_iff.mp hreference
        obtain rfl := Option.some.inj hr
        exact hs
      exact ne_empty_of_readReference (hinner _ hw) hsome hread

end Codec

/-! ## Filled elements -/

namespace Generator

variable {γ : Type} [Generator γ] {g h : γ}

/-- No state that `g` leads to hands out the empty text. -/
def Filling (g : γ) : Prop :=
  ∀ h, Leads g h → (next h).1 ≠ ""

theorem Filling.ne_empty (hg : Filling g) : (next g).1 ≠ "" :=
  hg g (.refl g)

theorem Filling.leads (hg : Filling g) (hleads : Leads g h) : Filling h := fun k hk =>
  hg k (hleads.trans hk)

end Generator

open Generator (Filling)

theorem Sequential.identifier_ne_empty (stem : String) (n : Nat) : identifier stem n ≠ "" := by
  intro hempty
  have hlist := congrArg String.toList hempty
  rw [toList_identifier] at hlist
  simp at hlist

namespace Source

/-- A sequential source stays one, with the same stem. -/
theorem exists_sequential_of_leads {g : Sequential} {source : Source}
    (hleads : Leads (sequential g) source) : ∃ h, source = sequential h ∧ h.stem = g.stem := by
  refine hleads.keeps (fun source => ∃ h, source = sequential h ∧ h.stem = g.stem) ?_ ?_
    ⟨g, rfl, rfl⟩
  · rintro _ ⟨h, rfl, hstem⟩
    exact ⟨_, rfl, hstem⟩
  · rintro key _ ⟨h, rfl, hstem⟩
    exact ⟨_, rfl, (Sequential.stem_reserve key h).trans hstem⟩

/-- A random source stays one. -/
theorem exists_random_of_leads {g : Random} {source : Source}
    (hleads : Leads (random g) source) : ∃ h, source = random h := by
  refine hleads.keeps (fun source => ∃ h, source = random h) ?_ ?_ ⟨g, rfl⟩
  · rintro _ ⟨h, rfl⟩
    exact ⟨_, rfl⟩
  · rintro _ _ ⟨h, rfl⟩
    exact ⟨_, rfl⟩

end Source

/-- Numbered identifiers are never empty. -/
theorem Source.filling_sequential (g : Sequential) : Filling (sequential g) := by
  intro h hleads
  obtain ⟨later, rfl, -⟩ := exists_sequential_of_leads hleads
  exact Sequential.identifier_ne_empty later.stem (later.issued + 1)

/-- Random identifiers are never empty. -/
theorem Source.filling_random (g : Random) : Filling (random g) := by
  intro h hleads
  obtain ⟨later, rfl⟩ := exists_random_of_leads hleads
  exact later.ne_empty later.drawn

theorem Settings.filling_source (settings : Settings) (random : Random) :
    Filling (settings.source random) := by
  unfold source
  split
  · exact Source.filling_sequential _
  · exact Source.filling_random _

namespace Element

variable {γ : Type} [Generator γ] {g : γ} {e x : Element} {es : List Element} {key : String}

theorem Filled.withId (h : e.Filled) (hkey : key ≠ "") : (e.withId key).Filled :=
  ⟨fun hid => hkey (Option.some.inj hid), h.2⟩

theorem leads_fill (g : γ) (e : Element) : Leads g (fill g e).2 := by
  cases hid : e.id with
  | some key =>
      rw [fill_of_some g hid]
      exact Generator.leads_reserve key g
  | none =>
      rw [fill_of_none g hid]
      exact (Generator.leads_next g).trans (Generator.leads_reserve _ _)

theorem Filled.fill (h : e.Filled) (hg : Filling g) : (fill g e).1.Filled := by
  cases hid : e.id with
  | some key =>
      rw [fill_of_some g hid]
      exact h
  | none =>
      rw [fill_of_none g hid]
      exact h.withId hg.ne_empty

/-- The elements `es` stay filled when they are added, whether they have an identifier or get one.
-/
theorem filled_fillAll (hg : Filling g) (hes : ∀ e ∈ es, e.Filled) :
    ∀ x ∈ (fillAll g es).1, x.Filled := by
  induction es generalizing g with
  | nil => exact fun x hx => absurd hx List.not_mem_nil
  | cons e es ih =>
      obtain ⟨hfirst, hrest⟩ := List.forall_mem_cons.mp hes
      exact List.forall_mem_cons.mpr ⟨hfirst.fill hg, ih (hg.leads (leads_fill g e)) hrest⟩

end Element

/-! ## Decoded packages -/

namespace Codec

variable {γ : Type} [Generator γ] {generator : γ} {content : Text.Content} {p : Package γ}

/-- The elements of the package `p` can be written, whatever `content` it is decoded from. -/
theorem filled_of_decode (hfilling : Filling generator)
    (hdecode : (decode generator content).1 = .ok p) : ∀ e ∈ p.elements, e.Filled := by
  obtain ⟨document, -, hvalue⟩ := decode_eq_ok_iff.mp hdecode
  obtain ⟨hvalid, -⟩ := decodeValue_eq_ok_iff.mp hvalue
  obtain ⟨es, hes, hroster, -⟩ := exists_roster_of_decodeValue hvalue
  obtain ⟨-, -, _, hfield, raws, rfl, hfits⟩ := validate_eq_ok_iff.mp hvalid
  have hraws : rawElements document = raws := by
    rw [rawElements, hfield]
    rfl
  have hkeys : ∀ raw ∈ raws, raw.distinctKeys = true :=
    Value.distinctItems_iff.mp (Value.distinctKeys_of_field? document.distinct hfield)
  have hfilled : ∀ e ∈ es, e.Filled := by
    intro e he
    obtain ⟨raw, hraw, hdecode⟩ := hes.exists_entry_of_mem he
    rw [hraws] at hraw
    exact filled_of_decodeRaw (hkeys raw hraw) (hfits raw hraw) hdecode
  have helements : p.elements = (Element.fillAll _ es).1 := congrArg Roster.elements hroster
  rw [helements]
  exact Element.filled_fillAll (hfilling.leads (Generator.leads_reserveAll _ _)) hfilled

theorem generator_of_decode (hdecode : (decode generator content).1 = .ok p) :
    Leads generator p.generator := by
  have hleads := leads_decode generator content
  rcases hpair : decode generator content with ⟨answer, after⟩
  rw [hpair] at hdecode hleads
  obtain rfl : answer = .ok p := hdecode
  rw [snd_decode_of_ok hpair] at hleads
  exact hleads

end Codec

/-! ## Merged packages -/

namespace Roster

variable {γ : Type} [Generator γ] {r after : Roster γ} {e : Element} {es : List Element}
  {mode : Mode}

/-- All elements can be written, and so can those that get drawn identifiers. -/
structure Writable (r : Roster γ) : Prop where
  generator : Filling r.generator
  elements : ∀ e ∈ r.elements, e.Filled

theorem Writable.add (h : r.Writable) (he : e.Filled) {key : String}
    (hadd : r.add e = (.ok key, after)) : after.Writable := by
  rw [add_eq_of_ok hadd]
  refine ⟨h.generator.leads (Element.leads_fill r.generator e), ?_⟩
  intro x hx
  rcases List.mem_append.mp hx with hx | hx
  · exact h.elements x hx
  · obtain rfl := List.mem_singleton.mp hx
    exact he.fill h.generator

theorem Writable.removeById (h : r.Writable) (key : String) : (r.removeById key).2.Writable :=
  ⟨h.generator, fun x hx => h.elements x (List.mem_of_mem_filter hx)⟩

/-- Merging one element `e` keeps the target `r` writable. -/
theorem Writable.mergeElement (h : r.Writable) (he : e.Filled) {outcome : Outcome}
    (hstep : r.mergeElement mode e = (.ok outcome, after)) : after.Writable := by
  have hadd : ∀ {r' : Roster γ} {x : Element} {told : String → Outcome}, r'.Writable → x.Filled →
      (r'.add x).map (Except.map told) id = (.ok outcome, after) → after.Writable := by
    intro r' x told hr' hx hmap
    obtain ⟨key, hok, -⟩ := Except.exists_of_map_eq_ok hmap
    exact hr'.add hx hok
  unfold Roster.mergeElement at hstep
  split at hstep
  · exact hadd h he hstep
  · next key _ =>
    cases mode with
    | replace => exact hadd (h.removeById key) he hstep
    | skip =>
        obtain rfl : r = after := congrArg Prod.snd hstep
        exact h
    | merge =>
        have hbare : Element.Filled { e with id := none } :=
          ⟨(Option.some_ne_none "").symm, he.2⟩
        exact hadd h hbare hstep
    | fail => cases congrArg Prod.fst hstep

/-- Merging the elements `es` one after the other keeps the target `r` writable. -/
theorem Writable.mergeElements (h : r.Writable) (hes : ∀ e ∈ es, e.Filled)
    {outcomes : List Outcome} (hloop : r.mergeElements mode es = (.ok outcomes, after)) :
    after.Writable := by
  induction es generalizing r outcomes with
  | nil =>
      obtain rfl : r = after := congrArg Prod.snd hloop
      exact h
  | cons e es ih =>
      obtain ⟨hfirst, hrest⟩ := List.forall_mem_cons.mp hes
      unfold Roster.mergeElements at hloop
      split at hloop
      · cases congrArg Prod.fst hloop
      · next hstep =>
        obtain ⟨rest, hok, -⟩ := Except.exists_of_map_eq_ok hloop
        exact ih (h.mergeElement hfirst hstep) hrest hok

theorem Writable.merge (h : r.Writable) (hes : ∀ e ∈ es, e.Filled) {report : MergeReport}
    (hmerge : r.merge mode es = (.ok report, after)) : after.Writable := by
  unfold Roster.merge at hmerge
  split at hmerge
  · cases congrArg Prod.fst hmerge
  · obtain ⟨outcomes, hok, -⟩ := Except.exists_of_map_eq_ok hmerge
    have hprimed : (r.primed mode (es.filterMap Element.id)).Writable := by
      unfold primed
      split
      · exact ⟨h.generator.leads (Generator.leads_reserveAll _ _), h.elements⟩
      · exact h
    exact hprimed.mergeElements hes hok

end Roster

namespace Package

variable {γ δ : Type} [Generator γ] {dest after : Package γ} {src : Package δ} {mode : Mode}
  {report : MergeReport}

/-- A merge of `dest` and `src`, both of which can be written, gives a package `after` that can be
written. -/
theorem filled_of_merge (hcoherent : dest.slots.Coherent) (hfilling : Filling dest.generator)
    (hdest : ∀ e ∈ dest.elements, e.Filled) (hsrc : ∀ e ∈ src.elements, e.Filled)
    (hmerge : dest.merge mode src = (.ok report, after)) :
    after.slots.Coherent ∧ ∀ e ∈ after.elements, e.Filled := by
  have hmodel := refines_merge hcoherent mode src
  rw [hmerge] at hmodel
  have hwritable : dest.roster.Writable := ⟨hfilling, hdest⟩
  exact ⟨hmodel.coherent, (hwritable.merge hsrc hmodel.model_eq).elements⟩

end Package

end MediaManifest
