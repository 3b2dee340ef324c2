import Mathlib
import MediaManifest.Proofs.Codec.Filled
import MediaManifest.Proofs.Codec.RoundTrip

/-!
# The normal form of documents

What is written of a package is the normal form of all documents that stand for
it.  Packages are written alike exactly if they are equal, whether or not the
schema lets them be read again.  A document that was accepted is always written
in a form that is accepted again, for an equal package, and that is left as it
is from then on.
-/

namespace MediaManifest

open Generator (Filling)
open Json (Value)

/-! ## Equal texts -/

namespace Contents

open Codec (rawElements)

variable {c d : Contents}

/-- Entries that are written alike are decoded as one element. -/
theorem toJson_sorted_injective :
    Function.Injective fun e : Element => e.toJson.sorted := by
  intro a b hsame
  have hdecode := congrArg Codec.decodeRaw hsame
  rw [a.decodeRaw_sorted, b.decodeRaw_sorted] at hdecode
  exact Except.ok.inj hdecode

theorem text_injective : Function.Injective Value.text := fun _ _ => Value.text.inj

/-- The contents `c` and `d` are told apart by what is read of their texts, without the schema. -/
theorem eq_of_sorted_eq (h : c.toJson.sorted = d.toJson.sorted) : c = d := by
  have hidText := congrArg (Value.field? "id") h
  have htitleText := congrArg (Value.field? "title") h
  have hraws := congrArg rawElements h
  rw [c.id_sorted, d.id_sorted] at hidText
  rw [c.title_sorted, d.title_sorted] at htitleText
  rw [c.rawElements_sorted, d.rawElements_sorted] at hraws
  have hid : c.identifier = d.identifier := Option.map_injective text_injective hidText
  have htitle : c.title = d.title := Option.map_injective text_injective htitleText
  have helements : c.elements = d.elements :=
    List.map_injective_iff.mpr toJson_sorted_injective hraws
  cases c
  cases d
  simp_all only

theorem encode_injective (indented : Bool) : Function.Injective (encode indented) := by
  intro c d hsame
  have hread := c.ofContent_encode indented
  rw [hsame, d.ofContent_encode indented] at hread
  exact eq_of_sorted_eq (Except.ok.inj hread).symm

end Contents

/-- The packages `p` and `q` are written alike, on one line or `indented`, exactly if they have
the same identifier, the same title and the same elements in the same order.  Neither their slots
nor their generators nor the texts in them make a difference. -/
theorem Package.encode_eq_encode_iff {γ δ : Type} (indented : Bool) (p : Package γ)
    (q : Package δ) :
    p.encode indented = q.encode indented ↔
      p.identifier = q.identifier ∧ p.title = q.title ∧ p.elements = q.elements := by
  constructor
  · intro hsame
    obtain ⟨hidentifier, htitle, helements⟩ :=
      Contents.mk.inj (Contents.encode_injective indented hsame)
    exact ⟨hidentifier, htitle, helements⟩
  · rintro ⟨hidentifier, htitle, helements⟩
    simp only [encode, contents, hidentifier, htitle, helements]

/-! ## Texts of what was read -/

namespace Codec

variable {γ δ : Type} [Generator γ] [Generator δ] {generator : γ} {content : Text.Content}
  {p : Package γ}

/-- What is written of a decoded package `p` is decoded with any generator `again`, if no
identifier that was invented for `p` is empty. -/
theorem exists_decode_encode (hfilling : Filling generator)
    (hdecode : (decode generator content).1 = .ok p) (again : δ) (indented : Bool) :
    ∃ q, (decode again (.ofBytes (p.encode indented).toUTF8)).1 = .ok q ∧
      q.contents = p.contents := by
  have hcoherent := (Package.Reachable.decode hdecode).coherent
  exact Contents.exists_decode again indented hcoherent.identified hcoherent.pairwise_ne
    (filled_of_decode hfilling hdecode)

/-- Decoding brings documents to their normal form in one step.  If `bytes` are decoded as `p`
with a `generator` that is `Filling`, which numbered and random sources are, then what is written
of `p`, on one line or `indented`, is decoded with any generator `again`.  The package `q` that it
gives is equal to `p`, and what is written of `q` is the same text. -/
theorem decode_normalizes (bytes : ByteArray) (again : δ) (indented : Bool) :
    (∀ (generator : γ) (p : Package γ), Filling generator →
      (decode generator (.ofBytes bytes)).1 = .ok p →
      ∃ q, (decode again (.ofBytes (p.encode indented).toUTF8)).1 = .ok q ∧
        q.contents = p.contents ∧ q.encode indented = p.encode indented) ∧
    (∀ g, Filling (Source.sequential g)) ∧ ∀ g, Filling (Source.random g) := by
  refine ⟨?_, Source.filling_sequential, Source.filling_random⟩
  intro generator p hfilling hdecode
  obtain ⟨q, hagain, hcontents⟩ := exists_decode_encode hfilling hdecode again indented
  exact ⟨q, hagain, hcontents, congrArg (Contents.encode indented) hcontents⟩

/-- A document with repeated, unknown and absent keys, escapes, blanks around a flavor, unsorted
tags, and an entry without identifier before one that has the next number. -/
theorem decode_normalizes_of_untidy_document :
    let source := Source.sequential (.ofStem "x")
    let text := " \x7b\"id\":\"old\",\"elements\":[\x7b\"tags\":[\"b\",\"\\u0061\"], " ++
      "\"flavor\":\" dublincore / episode \",\"type\":\"track\",\"has_audio\":true," ++
      "\"size\":[]\x7d ,\n\x7b\"type\":\"catalog\",\"id\":\"x-1\",\"mime_type\":null\x7d]," ++
      "\"title\":null,\"id\":\"new\"\x7d"
    ∃ p, (decode source (.ofBytes text.toUTF8)).1 = .ok p ∧
      p.encode false = "\x7b\"id\":\"new\",\"elements\":[\x7b\"id\":\"x-2\",\"type\":\"track\"," ++
        "\"has_video\":false,\"has_audio\":true,\"flavor\":\"dublincore/episode\"," ++
        "\"tags\":[\"a\",\"b\"]\x7d,\x7b\"id\":\"x-1\",\"type\":\"catalog\"\x7d]\x7d" ∧
      ∃ q, (decode source (.ofBytes (p.encode false).toUTF8)).1 = .ok q ∧
        q.contents = p.contents ∧ q.encode false = p.encode false := by
  intro source text
  let first : Element :=
    ⟨none, .track false true none, some .episode, .ofList ["b", "a"], none, none, none, none⟩
  let second := (Element.ofBody .catalog).withId "x-1"
  let document : Value := .object [
    ("elements", .list [
      .object [("flavor", .text " dublincore / episode "), ("has_audio", .bool true),
        ("size", .list []), ("tags", .list [.text "b", .text "a"]), ("type", .text "track")],
      .object [("id", .text "x-1"), ("mime_type", .null), ("type", .text "catalog")]]),
    ("id", .text "new"), ("title", .null)]
  have hread : Value.ofContent (.ofBytes text.toUTF8) = .ok document := by
    rw [Text.Content.ofBytes_toUTF8]
    subst text document
    cbv
  -- From here on the document stands for the text, whose symbols `cbv` would copy at each step.
  clear_value text
  have hes : Decodes (rawElements document) [first, second] :=
    .cons (by cbv) (.cons (by cbv) .nil)
  have hadd : (opening source document).roster.addAll [first, second] =
      (.ok (), ⟨some "new", none, [first.withId "x-2", second], .sequential ⟨"x", 2⟩⟩) := by
    cbv
  obtain ⟨p, hvalue, hroster⟩ := exists_decodeValue (by cbv) hes hadd
  have hdecode : (decode source (.ofBytes text.toUTF8)).1 = .ok p := by
    rw [decode_of_ofContent source hread]
    exact hvalue
  have hcontents : p.contents = ⟨p.roster.identifier, p.roster.title, p.roster.elements⟩ := rfl
  obtain ⟨hnormal, hsequential, -⟩ := decode_normalizes (γ := Source) text.toUTF8 source false
  refine ⟨p, hdecode, ?_, hnormal source p (hsequential _) hdecode⟩
  rw [Package.encode, hcontents, hroster]
  cbv

end Codec

end MediaManifest
