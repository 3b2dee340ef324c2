import Mathlib.Data.List.Forall2
import MediaManifest.Proofs.Codec.Entries
import MediaManifest.Proofs.Package.Filling

/-!
# Decoded packages

A document is decoded by decoding its entries and adding the elements in order
to an empty package whose generator knows the written identifiers.  The
identifiers of the package are therefore those written in the document and the
next ones that are drawn.
-/

namespace MediaManifest.Codec

open Generator (draws reserveAll)
open Json (Value)

/-- The elements `es` are decoded from the entries `raws`, one by one. -/
def Decodes (raws : List Value) (es : List Element) : Prop :=
  List.Forall₂ (fun raw e => decodeRaw raw = .ok e) raws es

/-- How many of the entries `raws` have no identifier written. -/
def missing (raws : List Value) : Nat :=
  raws.countP fun raw => (textField? "id" raw).isNone

theorem textField?_eq_some_iff {raw : Value} {key name : String} :
    textField? key raw = some name ↔ raw.field? key = some (.text name) := by
  rw [textField?, Option.bind_eq_some_iff]
  constructor
  · rintro ⟨w, hw, hname⟩
    rw [hw]
    cases w with
    | text s => exact congrArg (some ∘ Value.text) (Option.some.inj hname)
    | _ => cases hname
  · intro hfield
    exact ⟨_, hfield, rfl⟩

theorem readDocument_eq_ok_iff {content : Text.Content} {document : Json.Document} :
    readDocument content = .ok document ↔ Value.ofContent content = .ok document.value := by
  rw [readDocument, Except.mapError_eq_ok_iff, Json.Document.ofContent_eq_ok_iff]

variable {raws : List Value} {es : List Element}

theorem Decodes.ids_eq (h : Decodes raws es) : es.filterMap Element.id = writtenIds raws := by
  induction h with
  | nil => rfl
  | cons hfirst _ ih =>
      rw [writtenIds, List.filterMap_cons, List.filterMap_cons, id_of_decodeRaw hfirst, ih]
      rfl

theorem Decodes.missing_eq (h : Decodes raws es) : Element.missing es = missing raws := by
  induction h with
  | nil => rfl
  | cons hfirst _ ih =>
      rw [Element.missing, missing, List.countP_cons, List.countP_cons,
        id_of_decodeRaw hfirst]
      exact congrArg (· + _) ih

theorem Decodes.exists_of_mem {raw : Value} (hes : Decodes raws es) (hraw : raw ∈ raws) :
    ∃ e, decodeRaw raw = .ok e := by
  induction hes with
  | nil => exact absurd hraw List.not_mem_nil
  | cons hfirst _ ih =>
      rcases List.mem_cons.mp hraw with rfl | hraw
      · exact ⟨_, hfirst⟩
      · exact ih hraw

theorem Decodes.exists_entry_of_mem {e : Element} (hes : Decodes raws es) (he : e ∈ es) :
    ∃ raw ∈ raws, decodeRaw raw = .ok e := by
  induction hes with
  | nil => exact absurd he List.not_mem_nil
  | cons hfirst _ ih =>
      rcases List.mem_cons.mp he with rfl | he
      · exact ⟨_, List.mem_cons_self, hfirst⟩
      · obtain ⟨raw, hraw, hdecode⟩ := ih he
        exact ⟨raw, List.mem_cons_of_mem _ hraw, hdecode⟩

/-- What holds between decoded elements `es` and `images` holds between the entries `raws` and
`images`. -/
theorem Decodes.comp {images : List Element} {kept : Element → Element → Prop}
    {told : Value → Element → Prop} (hes : Decodes raws es) (himages : List.Forall₂ kept es images)
    (h : ∀ raw e image, decodeRaw raw = .ok e → kept e image → told raw image) :
    List.Forall₂ told raws images := by
  induction hes generalizing images with
  | nil =>
      cases himages
      exact .nil
  | cons hfirst _ ih =>
      obtain ⟨image, rest, hkept, hrest, rfl⟩ := List.forall₂_cons_left_iff.mp himages
      exact .cons (h _ _ _ hfirst hkept) (ih hrest)

theorem missing_cons_of_some {raw : Value} {key : String}
    (hid : textField? "id" raw = some key) (raws : List Value) :
    missing (raw :: raws) = missing raws := by
  simp [missing, hid]

theorem missing_cons_of_none {raw : Value} (hid : textField? "id" raw = none) (raws : List Value) :
    missing (raw :: raws) = missing raws + 1 := by
  simp [missing, hid]

variable {γ : Type} [Generator γ] {generator : γ} {document : Value} {p q : Package γ}

/-- Adding the entries `raws` is adding the elements `es` that are decoded from them. -/
theorem addRaws_eq_ok_iff :
    addRaws p raws = (.ok (), q) ↔ ∃ es, Decodes raws es ∧ p.addAll es = (.ok (), q) := by
  induction raws generalizing p with
  | nil =>
      constructor
      · intro hadd
        exact ⟨[], .nil, hadd⟩
      · rintro ⟨es, hes, hadd⟩
        cases hes
        exact hadd
  | cons raw raws ih =>
      constructor
      · intro hadd
        unfold addRaws at hadd
        split at hadd
        · cases hadd
        · next e hdecode =>
          split at hadd
          · cases hadd
          · next hstep =>
            obtain ⟨es, hes, hrest⟩ := ih.mp hadd
            refine ⟨e :: es, .cons hdecode hes, ?_⟩
            rw [Package.addAll, hstep]
            exact hrest
      · rintro ⟨es, hes, hadd⟩
        cases hes with
        | cons hdecode hes =>
            rw [addRaws, hdecode]
            unfold Package.addAll at hadd
            split at hadd
            · cases hadd
            · next hstep =>
              simp only [hstep]
              exact ih.mpr ⟨_, hes, hadd⟩

/-- The package that the elements of `document` are added to: it has the names of `document`, and
its generator knows the identifiers written there. -/
def opening (generator : γ) (document : Value) : Package γ :=
  ⟨textField? "id" document, textField? "title" document, .empty,
    reserveAll (writtenIds (rawElements document)) generator⟩

theorem decodeValue_eq_ok_iff :
    (decodeValue generator document).1 = .ok p ↔
      validate document = .ok () ∧
        ∃ es, Decodes (rawElements document) es ∧
          (opening generator document).addAll es = (.ok (), p) := by
  rw [← addRaws_eq_ok_iff]
  unfold decodeValue
  cases validate document with
  | error error => simp
  | ok valid =>
      have hopening : { Package.ofGenerator
          (reserveAll (writtenIds (rawElements document)) generator) with
          identifier := textField? "id" document
          title := textField? "title" document } = opening generator document := rfl
      simp only [hopening, true_and]
      rcases hadd : addRaws (opening generator document) (rawElements document) with ⟨answer, q⟩
      cases answer with
      | error error => simp
      | ok done => simp

/-- The value `v` that is read of a `content` decides how the content is decoded. -/
theorem decode_of_ofContent (generator : γ) {content : Text.Content} {v : Value}
    (hread : Value.ofContent content = .ok v) :
    decode generator content = decodeValue generator v := by
  have hdocument : readDocument content = .ok ⟨v, Json.distinctKeys_of_ofContent hread⟩ :=
    readDocument_eq_ok_iff.mpr hread
  rw [decode, hdocument]

theorem decode_eq_ok_iff {content : Text.Content} :
    (decode generator content).1 = .ok p ↔
      ∃ document : Json.Document, readDocument content = .ok document ∧
        (decodeValue generator document).1 = .ok p := by
  unfold decode
  cases readDocument content with
  | error error => simp
  | ok document => simp

/-- If the elements `es` of the entries can be added to the roster, giving `r`, then the
`document` is decoded as a package with the roster `r`. -/
theorem exists_decodeValue {r : Roster γ} (hvalid : validate document = .ok ())
    (hes : Decodes (rawElements document) es)
    (hadd : (opening generator document).roster.addAll es = (.ok (), r)) :
    ∃ p, (decodeValue generator document).1 = .ok p ∧ p.roster = r := by
  have hmodel := Package.refines_addAll
    (p := opening generator document) Slots.coherent_empty es
  rw [hadd] at hmodel
  obtain ⟨p, hstep, hroster, -⟩ := hmodel.exists_eq
  exact ⟨p, decodeValue_eq_ok_iff.mpr ⟨hvalid, es, hes, hstep⟩, hroster⟩

theorem exists_roster_of_decodeValue (hdecode : (decodeValue generator document).1 = .ok p) :
    ∃ es, Decodes (rawElements document) es ∧
      p.roster = (opening generator document).roster.extend
        (Element.fillAll (opening generator document).generator es) ∧
      p.slots.Coherent := by
  obtain ⟨-, es, hes, hadd⟩ := decodeValue_eq_ok_iff.mp hdecode
  have hmodel := Package.refines_addAll
    (p := opening generator document) Slots.coherent_empty es
  rw [hadd] at hmodel
  exact ⟨es, hes, Roster.addAll_eq_of_ok hmodel.model_eq, hmodel.coherent⟩

/-- The package `p` that is decoded from `document` has an element for each entry. -/
theorem length_elements_of_decodeValue
    (hdecode : (decodeValue generator document).1 = .ok p) :
    p.elements.length = (rawElements document).length := by
  obtain ⟨es, hes, hroster, -⟩ := exists_roster_of_decodeValue hdecode
  have helements : p.elements = (Element.fillAll _ es).1 := congrArg Roster.elements hroster
  rw [helements, Element.length_fillAll, hes.length_eq]

/-- A `key` is in the decoded package `p` if it is written in `document` or is among those that
the generator draws next, one for each entry without an identifier. -/
theorem mem_ids_of_decodeValue {knows : γ → String → Prop}
    (hknows : Generator.Settles knows) (hdecode : (decodeValue generator document).1 = .ok p)
    (key : String) :
    key ∈ p.ids ↔ key ∈ writtenIds (rawElements document) ∨
      key ∈ draws (reserveAll (writtenIds (rawElements document)) generator)
        (missing (rawElements document)) := by
  obtain ⟨es, hes, hroster, -⟩ := exists_roster_of_decodeValue hdecode
  have helements : p.elements = (Element.fillAll _ es).1 := congrArg Roster.elements hroster
  have hreserved : ∀ e ∈ es, ∀ key, e.id = some key →
      knows (opening generator document).generator key := by
    intro e he key hid
    apply hknows.reservedAll
    rw [← hes.ids_eq]
    exact List.mem_filterMap.mpr ⟨e, he, hid⟩
  rw [Package.ids, helements, Element.mem_ids_fillAll hknows hreserved, hes.ids_eq,
    hes.missing_eq]
  rfl

end MediaManifest.Codec
