import MediaManifest.Proofs.Codec.Language
import MediaManifest.Proofs.Codec.Standalone

/-!
# The grammar of flavors

A text is a flavor exactly if it holds a single slash (`Halved`) with more than white space on
either side.  The parser cuts at the first slash, trims the sides and looks for further slashes in
what is left of them; two given parts are trimmed and checked without being joined; the pattern of
the schema asks for sides that are not empty and does not trim.  All three come to the same
grammar, up to sides of white space, which only the pattern accepts.
-/

namespace MediaManifest

/-- The text `s` has exactly one slash, between its sides `front` and `back`. -/
structure Text.Halved (s front back : String) : Prop where
  whole : s = front ++ "/" ++ back
  single : s.toList.count '/' = 1

open Text (Halved blank)

namespace Text

variable {s front back : String}

/-- The slash of a halved text `s` stands on neither side. -/
theorem halved_iff :
    Halved s front back ↔ s = front ++ "/" ++ back ∧ '/' ∉ front.toList ∧ '/' ∉ back.toList := by
  have hcount (hwhole : s = front ++ "/" ++ back) :
      s.toList.count '/' = front.toList.count '/' + 1 + back.toList.count '/' := by
    rw [hwhole, String.toList_append, String.toList_append, List.count_append, List.count_append]
    rfl
  rw [← List.count_eq_zero, ← List.count_eq_zero]
  constructor
  · rintro ⟨hwhole, hsingle⟩
    rw [hcount hwhole] at hsingle
    exact ⟨hwhole, by omega, by omega⟩
  · rintro ⟨hwhole, hfront, hback⟩
    refine ⟨hwhole, ?_⟩
    rw [hcount hwhole, hfront, hback]

theorem Halved.unique {front' back' : String} (h : Halved s front back)
    (h' : Halved s front' back') : front = front' ∧ back = back' := by
  obtain ⟨hwhole, hfront, -⟩ := halved_iff.mp h
  obtain ⟨hwhole', hfront', -⟩ := halved_iff.mp h'
  have hcut := cut_slash_eq_some_iff.mpr ⟨hwhole, hfront⟩
  rw [cut_slash_eq_some_iff.mpr ⟨hwhole', hfront'⟩] at hcut
  obtain ⟨rfl, rfl⟩ := Prod.mk.inj (Option.some.inj hcut)
  exact ⟨rfl, rfl⟩

/-- The pattern of the schema takes the halved texts with sides that are not empty. -/
theorem isPair_iff_halved : Codec.Check.isPair s = true ↔
    ∃ front back, Halved s front back ∧ front ≠ "" ∧ back ≠ "" := by
  simp only [Codec.Check.isPair_iff, halved_iff, and_assoc]

end Text

/-! ## Parts -/

namespace FlavorPart

variable {s : String} {a : FlavorPart} {fault : FlavorFault}

/-- A part `a` is made of the texts `s` that are trimmed to it. -/
theorem ofText_eq_ok_iff : ofText s = .ok a ↔ a.text = Text.trim s := by
  constructor
  · intro hmade
    unfold ofText at hmade
    split at hmade
    · exact nomatch hmade
    · split at hmade
      · exact nomatch hmade
      · rw [← Except.ok.inj hmade]
  · intro htext
    have hnonempty : Text.trim s ≠ "" := htext ▸ a.nonempty
    have hunbroken : '/' ∉ (Text.trim s).toList := htext ▸ a.unbroken
    rw [ofText, dif_neg hnonempty, dif_neg hunbroken]
    exact congrArg Except.ok (eq_of_text_eq htext.symm)

/-- A text `s` that is trimmed to a part `a` holds no slash itself. -/
theorem unbroken_of_trim (htext : a.text = Text.trim s) : '/' ∉ s.toList := by
  have hunbroken := a.unbroken
  rwa [htext, Text.toList_trim, Text.mem_trimChars_iff (by decide)] at hunbroken

/-- White space is all that keeps a text `s` without a slash from being a part. -/
theorem ofText_eq_error_iff (hslash : '/' ∉ s.toList) :
    ofText s = .error fault ↔ fault = .emptyPart ∧ blank s = true := by
  constructor
  · intro hrefused
    have hblank : blank s = true := by
      rw [← Bool.not_eq_false, ← exists_ofText_iff hslash]
      rintro ⟨a, hmade⟩
      rw [hmade] at hrefused
      exact nomatch hrefused
    unfold ofText at hrefused
    split at hrefused
    · exact ⟨(Except.error.inj hrefused).symm, hblank⟩
    · split at hrefused
      · next hbroken =>
        rw [Text.toList_trim] at hbroken
        exact absurd (Text.trimChars_sublist.subset hbroken) hslash
      · exact nomatch hrefused
  · rintro ⟨rfl, hblank⟩
    have hempty : Text.trim s = "" := by
      rw [← String.toList_inj, Text.toList_trim, String.toList_empty, Text.trimChars_eq_nil_iff]
      exact List.all_eq_true.mp hblank
    rw [ofText, dif_pos hempty]

end FlavorPart

namespace Flavor

variable {s a b front back : String} {f : Flavor} {fault : FlavorFault}

theorem ofTexts_eq_ok_iff :
    ofTexts a b = .ok f ↔ f.major.text = Text.trim a ∧ f.minor.text = Text.trim b := by
  rw [← FlavorPart.ofText_eq_ok_iff, ← FlavorPart.ofText_eq_ok_iff]
  constructor
  · intro hmade
    obtain ⟨major, hmajor, hrest⟩ := Except.bind_eq_ok_iff.mp hmade
    obtain ⟨minor, hminor, hboth⟩ := Except.bind_eq_ok_iff.mp hrest
    rw [← Except.ok.inj hboth]
    exact ⟨hmajor, hminor⟩
  · rintro ⟨hmajor, hminor⟩
    rw [ofTexts, hmajor, hminor]
    rfl

/-- A halved text `s` is parsed as its sides `front` and `back` are put together. -/
theorem parse_of_halved (h : Halved s front back) : parse s = ofTexts front back := by
  obtain ⟨hwhole, hfront, -⟩ := Text.halved_iff.mp h
  rw [parse, Text.cut_slash_eq_some_iff.mpr ⟨hwhole, hfront⟩]

/-- The parts of a parsed flavor `f` are the trimmed sides of a halved text. -/
theorem parse_eq_ok_iff : parse s = .ok f ↔
    ∃ front back, Halved s front back ∧ f.major.text = Text.trim front ∧
      f.minor.text = Text.trim back := by
  constructor
  · intro hparse
    unfold parse at hparse
    split at hparse
    · next front back hcut =>
      obtain ⟨hwhole, hfront⟩ := Text.cut_slash_eq_some_iff.mp hcut
      obtain ⟨hmajor, hminor⟩ := ofTexts_eq_ok_iff.mp hparse
      -- A further slash on the second side would have been left in the minor part.
      have hback := FlavorPart.unbroken_of_trim hminor
      exact ⟨front, back, Text.halved_iff.mpr ⟨hwhole, hfront, hback⟩, hmajor, hminor⟩
    · exact nomatch hparse
  · rintro ⟨front, back, hhalved, hparts⟩
    rw [parse_of_halved hhalved, ofTexts_eq_ok_iff]
    exact hparts

theorem exists_parse_iff_halved : (∃ g, parse s = .ok g) ↔
    ∃ front back, Halved s front back ∧ blank front = false ∧ blank back = false := by
  constructor
  · rintro ⟨g, hparse⟩
    obtain ⟨front, back, hhalved, -⟩ := parse_eq_ok_iff.mp hparse
    obtain ⟨rfl, hfront, hback⟩ := Text.halved_iff.mp hhalved
    exact ⟨front, back, hhalved, (exists_parse_iff hfront hback).mp ⟨g, hparse⟩⟩
  · rintro ⟨front, back, hhalved, hsome⟩
    obtain ⟨rfl, hfront, hback⟩ := Text.halved_iff.mp hhalved
    exact (exists_parse_iff hfront hback).mpr hsome

/-- Two texts `a` and `b` make the flavor that they make with a slash between them. -/
theorem parse_joined_iff : parse (a ++ "/" ++ b) = .ok f ↔ ofTexts a b = .ok f := by
  rw [parse_eq_ok_iff, ofTexts_eq_ok_iff]
  constructor
  · rintro ⟨front, back, hhalved, hparts⟩
    have hgiven : Halved (a ++ "/" ++ b) a b := ⟨rfl, hhalved.single⟩
    obtain ⟨rfl, rfl⟩ := hgiven.unique hhalved
    exact hparts
  · rintro ⟨hmajor, hminor⟩
    have hhalved : Halved (a ++ "/" ++ b) a b := Text.halved_iff.mpr
      ⟨rfl, FlavorPart.unbroken_of_trim hmajor, FlavorPart.unbroken_of_trim hminor⟩
    exact ⟨a, b, hhalved, hmajor, hminor⟩

/-- A halved text `s` is refused only for a side of white space. -/
theorem parse_eq_error_iff (h : Halved s front back) :
    parse s = .error fault ↔ fault = .emptyPart ∧ (blank front = true ∨ blank back = true) := by
  obtain ⟨-, hfront, hback⟩ := Text.halved_iff.mp h
  rw [parse_of_halved h]
  cases hmajor : FlavorPart.ofText front with
  | error first =>
      obtain ⟨rfl, hblank⟩ := (FlavorPart.ofText_eq_error_iff hfront).mp hmajor
      rw [ofTexts, hmajor, hblank]
      constructor
      · exact fun hrefused => ⟨(Except.error.inj hrefused).symm, .inl rfl⟩
      · rintro ⟨rfl, -⟩
        rfl
  | ok major =>
      have hsome := (FlavorPart.exists_ofText_iff hfront).mp ⟨major, hmajor⟩
      have hmade : ofTexts front back = (FlavorPart.ofText back).map (Flavor.mk major) := by
        rw [ofTexts, hmajor]
        rfl
      rw [hmade, Except.map_eq_error_iff, FlavorPart.ofText_eq_error_iff hback, hsome]
      simp

/-- The parser, the constructor `ofTexts` and the pattern `isPair` of the schema follow one
grammar.  A text `s` is parsed exactly if it holds a single slash with more than white space on
either side, and the parts are its trimmed sides.  The pattern takes all of these texts, and of
those it takes only the ones with a side of white space are refused.  Two parts `a` and `b` make
the flavor that their joined text is parsed as, and every flavor `f` is read back from its text,
also from the JSON text of it. -/
theorem parse_follows_grammar (s a b : String) (f : Flavor) :
    ((∃ g, parse s = .ok g) ↔
      ∃ front back, Halved s front back ∧ blank front = false ∧ blank back = false) ∧
    (parse s = .ok f ↔
      ∃ front back, Halved s front back ∧ f.major.text = Text.trim front ∧
        f.minor.text = Text.trim back) ∧
    (Codec.Check.isPair s = true ↔
      ∃ front back, Halved s front back ∧ front ≠ "" ∧ back ≠ "") ∧
    ((∃ g, parse s = .ok g) → Codec.Check.isPair s = true) ∧
    (Codec.Check.isPair s = true → ∀ fault, parse s = .error fault ↔
      fault = .emptyPart ∧
        ∃ front back, Halved s front back ∧ (blank front = true ∨ blank back = true)) ∧
    (ofTexts a b = .ok f ↔ parse (a ++ "/" ++ b) = .ok f) ∧
    parse f.text = .ok f ∧
    ∀ indented, Codec.decodeFlavor ((Json.Value.text f.text).render indented) = .ok f := by
  refine ⟨exists_parse_iff_halved, parse_eq_ok_iff, Text.isPair_iff_halved, ?_, ?_,
    parse_joined_iff.symm, f.parse_text, fun indented => f.decodeFlavor_render indented⟩
  · intro hparses
    obtain ⟨front, back, hhalved, hfront, hback⟩ := exists_parse_iff_halved.mp hparses
    refine Text.isPair_iff_halved.mpr ⟨front, back, hhalved, ?_, ?_⟩
    · rintro rfl
      exact Bool.noConfusion hfront
    · rintro rfl
      exact Bool.noConfusion hback
  · intro hpair fault
    obtain ⟨front, back, hhalved, -⟩ := Text.isPair_iff_halved.mp hpair
    rw [parse_eq_error_iff hhalved]
    constructor
    · rintro ⟨hfault, hblank⟩
      exact ⟨hfault, front, back, hhalved, hblank⟩
    · rintro ⟨hfault, front', back', hhalved', hblank⟩
      obtain ⟨rfl, rfl⟩ := hhalved.unique hhalved'
      exact ⟨hfault, hblank⟩

/-- Wide blanks around the sides are no part of a flavor, and a side of nothing else is what the
pattern lets through and the parser does not. -/
theorem parse_follows_grammar_of_wide_blanks :
    let f : Flavor := ⟨⟨"a b", by decide, by decide +kernel, by decide⟩, .wildcard⟩
    let wide := "\u2003a b\t/ *\u0085"
    parse wide = .ok f ∧ Codec.Check.isPair wide = true ∧
      Codec.Check.isPair "\u3000/x" = true ∧ parse "\u3000/x" = .error .emptyPart ∧
      ofTexts "\u2003a b\t" " *\u0085" = .ok f := by
  intro f wide
  have hwide : Halved wide "\u2003a b\t" " *\u0085" := ⟨rfl, by decide⟩
  have hempty : Halved "\u3000/x" "\u3000" "x" := ⟨rfl, by decide⟩
  obtain ⟨-, hread, -, hpasses, -, hjoined, -⟩ :=
    parse_follows_grammar wide "\u2003a b\t" " *\u0085" f
  obtain ⟨-, -, htakes, -, hrefused, -⟩ := parse_follows_grammar "\u3000/x" "" "" f
  have hparse : parse wide = .ok f := hread.mpr ⟨_, _, hwide, by decide +kernel, by decide +kernel⟩
  have hpair := htakes.mpr ⟨_, _, hempty, by decide, by decide⟩
  refine ⟨hparse, hpasses ⟨f, hparse⟩, hpair, ?_, hjoined.mpr hparse⟩
  exact (hrefused hpair .emptyPart).mpr ⟨rfl, _, _, hempty, .inl (by decide)⟩

end Flavor

end MediaManifest
