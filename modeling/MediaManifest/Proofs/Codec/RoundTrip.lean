import Mathlib.Data.List.Permutation
import MediaManifest.Proofs.Codec.Decoding
import MediaManifest.Proofs.Codec.Schema
import MediaManifest.Proofs.Package.Reachable

/-!
# Decoding encoded packages

What is written of a package is a document with its identifier, its title and
an entry for each of its elements.  Decoding it gives an equal package with any
generator, unless an element has an empty text where the schema wants one that
is not.
-/

namespace MediaManifest

open Json (Value)
open Text (Content)

/-- The bytes of `s` are read as the text `s`. -/
theorem Text.Content.ofBytes_toUTF8 (s : String) : Content.ofBytes s.toUTF8 = .text s := by
  have hread : String.fromUTF8? s.toUTF8 = some s := dif_pos s.isValidUTF8
  rw [Content.ofBytes, hread]

namespace Contents

open Codec (rawElements textField? Decodes)
open Generator (reserveAll)

variable {δ : Type} [Generator δ] {c : Contents}

/-- Decoding what is written of `c` decodes its sorted JSON value. -/
theorem decode_eq_decodeValue (generator : δ) (indented : Bool) (c : Contents) :
    Codec.decode generator (.ofBytes (c.encode indented).toUTF8) =
      Codec.decodeValue generator c.toJson.sorted := by
  rw [Content.ofBytes_toUTF8]
  exact Codec.decode_of_ofContent generator (c.ofContent_encode indented)

theorem rawElements_sorted (c : Contents) :
    rawElements c.toJson.sorted = c.elements.map fun e => e.toJson.sorted := by
  rw [rawElements, c.elements_sorted]
  rfl

theorem decodes_sorted (c : Contents) : Decodes (rawElements c.toJson.sorted) c.elements := by
  rw [rawElements_sorted, Decodes, List.forall₂_map_left_iff, List.forall₂_same]
  exact fun e _ => e.decodeRaw_sorted

/-- What the elements of `c` are added to when what is written of `c` is decoded: it has the
names of `c`, and its generator knows the identifiers in `c`. -/
def start (generator : δ) (c : Contents) : Roster δ :=
  ⟨c.identifier, c.title, [], reserveAll (c.elements.filterMap Element.id) generator⟩

theorem roster_opening (generator : δ) (c : Contents) :
    (Codec.opening generator c.toJson.sorted).roster = c.start generator := by
  have hid : textField? "id" c.toJson.sorted = c.identifier := by
    rw [textField?, c.id_sorted]
    cases c.identifier <;> rfl
  have htitle : textField? "title" c.toJson.sorted = c.title := by
    rw [textField?, c.title_sorted]
    cases c.title <;> rfl
  have hopening : (Codec.opening generator c.toJson.sorted).roster =
      ⟨textField? "id" c.toJson.sorted, textField? "title" c.toJson.sorted, [],
        reserveAll (Codec.writtenIds (rawElements c.toJson.sorted)) generator⟩ := rfl
  rw [hopening, hid, htitle, ← c.decodes_sorted.ids_eq]
  rfl

/-- Written contents `c` that meet the schema are decoded by adding their elements to `c.start`,
whether or not these have identifiers. -/
theorem exists_decode_of_addAll (generator : δ) (indented : Bool)
    (hfilled : ∀ e ∈ c.elements, e.Filled) {r : Roster δ}
    (hadd : (c.start generator).addAll c.elements = (.ok (), r)) :
    ∃ q, (Codec.decode generator (.ofBytes (c.encode indented).toUTF8)).1 = .ok q ∧
      q.roster = r := by
  rw [← roster_opening] at hadd
  rw [decode_eq_decodeValue]
  exact Codec.exists_decodeValue (validate_of_filled hfilled) c.decodes_sorted hadd

/-- Written contents `c` that meet the schema, with an identifier of its own for each element, are
decoded as they were. -/
theorem exists_decode (generator : δ) (indented : Bool)
    (hidentified : ∀ e ∈ c.elements, ∃ key, e.id = some key)
    (hdistinct : c.elements.Pairwise fun a b => a.id ≠ b.id)
    (hfilled : ∀ e ∈ c.elements, e.Filled) :
    ∃ q, (Codec.decode generator (.ofBytes (c.encode indented).toUTF8)).1 = .ok q ∧
      q.contents = c := by
  have hfree : ∀ e ∈ c.elements, ∀ key, e.id = some key → key ∉ (c.start generator).ids :=
    fun _ _ _ _ => List.not_mem_nil
  obtain ⟨q, hdecode, hroster⟩ := exists_decode_of_addAll generator indented hfilled
    (Roster.addAll_of_free hidentified hdistinct hfree)
  have hcontents : q.contents = ⟨q.roster.identifier, q.roster.title, q.roster.elements⟩ := rfl
  refine ⟨q, hdecode, ?_⟩
  rw [hcontents, hroster]
  rfl

/-- Written contents `c` whose elements have identifiers make the generator reserve these, all of
them in advance and each once more as it is added. -/
theorem generator_of_decode {generator : δ} {indented : Bool} {q : Package δ}
    (hidentified : ∀ e ∈ c.elements, ∃ key, e.id = some key)
    (hdecode : (Codec.decode generator (.ofBytes (c.encode indented).toUTF8)).1 = .ok q) :
    q.generator = reserveAll (c.elements.filterMap Element.id)
      (reserveAll (c.elements.filterMap Element.id) generator) := by
  rw [decode_eq_decodeValue] at hdecode
  obtain ⟨es, hes, hroster, -⟩ := Codec.exists_roster_of_decodeValue hdecode
  have hids := c.decodes_sorted.ids_eq
  obtain rfl : es = c.elements := by
    refine List.right_unique_forall₂' ?_ hes c.decodes_sorted
    intro raw a b ha hb
    exact Except.ok.inj (ha.symm.trans hb)
  have hgenerator : q.generator = (Element.fillAll _ c.elements).2 :=
    congrArg Roster.generator hroster
  rw [hgenerator, Element.snd_fillAll_of_identified _ hidentified, hids]
  rfl

/-- Written contents `c` with an element that is not `Filled` are refused for it. -/
theorem exists_schema_of_decode (generator : δ) (indented : Bool)
    (hempty : ∃ e ∈ c.elements, ¬ e.Filled) :
    ∃ reason, (Codec.decode generator (.ofBytes (c.encode indented).toUTF8)).1 =
      .error (.schema reason) := by
  obtain ⟨reason, hreason⟩ := exists_schema_of_not_filled hempty
  refine ⟨reason, ?_⟩
  rw [decode_eq_decodeValue]
  simp only [Codec.decodeValue, hreason]

end Contents

namespace Package

variable {γ δ : Type} [Generator γ] [Generator δ] {p : Package γ}

/-- A reachable package `p` is decoded from its encoding, on one line or `indented` and with any
`generator`, unless an element has an empty identifier or a reference with an empty part; then the
schema refuses it. -/
theorem Reachable.decode_encode (h : Reachable p) (generator : δ) (indented : Bool) :
    ((∀ e ∈ p.elements, e.id ≠ some "" ∧
        ∀ r, e.reference = some r → r.kind ≠ "" ∧ r.id ≠ "") →
      ∃ q, (Codec.decode generator (.ofBytes (p.encode indented).toUTF8)).1 = .ok q ∧
        q.contents = p.contents) ∧
    ((∃ e ∈ p.elements, e.id = some "" ∨
        ∃ r, e.reference = some r ∧ (r.kind = "" ∨ r.id = "")) →
      ∃ reason, (Codec.decode generator (.ofBytes (p.encode indented).toUTF8)).1 =
        .error (.schema reason)) := by
  have hcoherent := h.coherent
  constructor
  · intro hfilled
    exact Contents.exists_decode generator indented hcoherent.identified hcoherent.pairwise_ne
      hfilled
  · rintro ⟨e, he, hempty⟩
    have hnot : ¬ e.Filled := by
      rintro ⟨hid, hreference⟩
      rcases hempty with hempty | ⟨r, hr, hkind | hr'⟩
      · exact hid hempty
      · exact (hreference r hr).1 hkind
      · exact (hreference r hr).2 hr'
    have hrefused : ∃ e ∈ p.contents.elements, ¬ e.Filled := ⟨e, he, hnot⟩
    exact Contents.exists_schema_of_decode generator indented hrefused

/-- A `track` with all attributes, and with control characters in them, comes back from indented
text; the same package with an element under the empty identifier does not. -/
theorem Reachable.decode_encode_of_full_track :
    let track : Element :=
      ⟨some "t\n\"1\"", .track true false (some 18446744073709551615), some .episode,
        .ofList ["b", "a/\t"], some ⟨.sha256, ""⟩, some ⟨"track", "\\"⟩, some "", some " "⟩
    let p : Package Listed :=
      (⟨none, some " ", .empty, ⟨["p"]⟩⟩ : Package Listed).run
        [.add track, .add (.ofBody (.publication ""))]
    let refused : Package Listed := p.run [.add ((Element.ofBody .catalog).withId "")]
    Reachable p ∧ Reachable refused ∧
      (∃ q, (Codec.decode (⟨[]⟩ : Listed) (.ofBytes (p.encode true).toUTF8)).1 = .ok q ∧
        q.contents = ⟨none, some " ", [track, (Element.ofBody (.publication "")).withId "p"]⟩) ∧
      ∃ reason, (Codec.decode (⟨[]⟩ : Listed) (.ofBytes (refused.encode true).toUTF8)).1 =
        .error (.schema reason) := by
  intro track p refused
  have hp : Reachable p := (Reachable.new _ _ _).run _
  have hrefused : Reachable refused := hp.run _
  have hroster : p.roster = ⟨none, some " ",
      [track, (Element.ofBody (.publication "")).withId "p"], ⟨["p"]⟩⟩ := by
    rw [roster_run Slots.coherent_empty]
    cbv
  have hmore : refused.roster.elements =
      [track, (Element.ofBody (.publication "")).withId "p",
        (Element.ofBody .catalog).withId ""] := by
    rw [roster_run hp.coherent, hroster]
    cbv
  refine ⟨hp, hrefused, ?_, ?_⟩
  · have hfilled : ∀ e ∈ p.elements, e.id ≠ some "" ∧
        ∀ r, e.reference = some r → r.kind ≠ "" ∧ r.id ≠ "" := by
      rw [← elements_roster, hroster]
      simp [track, Element.ofBody, Element.withId]
    have hcontents : p.contents = ⟨p.roster.identifier, p.roster.title, p.roster.elements⟩ := rfl
    obtain ⟨q, hdecode, hq⟩ := (hp.decode_encode (⟨[]⟩ : Listed) true).1 hfilled
    rw [hcontents, hroster] at hq
    exact ⟨q, hdecode, hq⟩
  · have hempty : (Element.ofBody .catalog).withId "" ∈ refused.elements := by
      rw [← elements_roster, hmore]
      simp
    exact (hrefused.decode_encode (⟨[]⟩ : Listed) true).2 ⟨_, hempty, .inl rfl⟩

end Package

end MediaManifest
