import MediaManifest.Flavor
import MediaManifest.Support.Except
import MediaManifest.Proofs.Text.Pieces

/-!
# Written flavors

What is written of a flavor is read as the same flavor again, and whatever is
read as a flavor has parts that say something.  Two flavors match if each part
of one is that of the other, unless one of the two is the wildcard.
-/

namespace MediaManifest

namespace Text

/-- A text `s` is cut at a slash if that is its first one. -/
theorem cut_slash_eq_some_iff {s front back : String} :
    cut '/' s = some (front, back) ↔ s = front ++ "/" ++ back ∧ '/' ∉ front.toList := by
  have hchars : s = front ++ "/" ++ back ↔ s.toList = front.toList ++ '/' :: back.toList := by
    rw [← String.toList_inj]
    simp
  rw [hchars, cut_eq_some_iff]

end Text

theorem FlavorPart.ofText_text (a : FlavorPart) : FlavorPart.ofText a.text = .ok a := by
  have hnonempty : Text.trim a.text ≠ "" := by
    rw [a.trimmed]
    exact a.nonempty
  have hunbroken : '/' ∉ (Text.trim a.text).toList := by
    rw [a.trimmed]
    exact a.unbroken
  rw [FlavorPart.ofText, dif_neg hnonempty, dif_neg hunbroken]
  exact congrArg Except.ok (FlavorPart.eq_of_text_eq a.trimmed)

namespace Flavor

/-- The first slash of a written flavor `f` is the one between its parts. -/
theorem cut_text (f : Flavor) : Text.cut '/' f.text = some (f.major.text, f.minor.text) :=
  Text.cut_slash_eq_some_iff.mpr ⟨rfl, f.major.unbroken⟩

theorem tight_text (f : Flavor) : Text.Tight f.text :=
  Text.Tight.frame ⟨f.major.nonempty, f.major.trimmed⟩ ⟨f.minor.nonempty, f.minor.trimmed⟩ "/"

theorem parse_text (f : Flavor) : parse f.text = .ok f := by
  rw [parse, cut_text]
  simp only [ofTexts, FlavorPart.ofText_text]
  rfl

end Flavor

/-- A part of a flavor is read from a text `s` that is more than white space and holds no slash. -/
theorem FlavorPart.exists_ofText_iff {s : String} (hslash : '/' ∉ s.toList) :
    (∃ a, FlavorPart.ofText s = .ok a) ↔ Text.blank s = false := by
  have hunbroken : '/' ∉ (Text.trim s).toList := by
    rw [Text.toList_trim]
    exact fun hmem => hslash (Text.trimChars_sublist.subset hmem)
  have hempty : Text.trim s = "" ↔ Text.blank s = true := by
    rw [← String.toList_inj, Text.toList_trim, String.toList_empty, Text.trimChars_eq_nil_iff,
      Text.blank, List.all_eq_true]
  by_cases hblank : Text.trim s = ""
  · rw [ofText, dif_pos hblank, hempty.mp hblank]
    simp
  · rw [ofText, dif_neg hblank, dif_neg hunbroken, Bool.eq_false_iff, ne_eq, ← hempty]
    exact iff_of_true ⟨_, rfl⟩ hblank

/-- A text with a single slash is a flavor if the parts around it are more than white space. -/
theorem Flavor.exists_parse_iff {front back : String} (hfront : '/' ∉ front.toList)
    (hback : '/' ∉ back.toList) :
    (∃ f, Flavor.parse (front ++ "/" ++ back) = .ok f) ↔
      Text.blank front = false ∧ Text.blank back = false := by
  have hcut : Text.cut '/' (front ++ "/" ++ back) = some (front, back) :=
    Text.cut_slash_eq_some_iff.mpr ⟨rfl, hfront⟩
  rw [← FlavorPart.exists_ofText_iff hfront, ← FlavorPart.exists_ofText_iff hback, parse, hcut]
  constructor
  · rintro ⟨f, hparse⟩
    obtain ⟨a, ha, hrest⟩ := Except.bind_eq_ok_iff.mp hparse
    obtain ⟨b, hb, -⟩ := Except.bind_eq_ok_iff.mp hrest
    exact ⟨⟨a, ha⟩, b, hb⟩
  · rintro ⟨⟨a, ha⟩, b, hb⟩
    refine ⟨⟨a, b⟩, ?_⟩
    simp only [ofTexts, ha, hb]
    rfl

/-! ## Matching -/

/-- The parts `a` and `b` are the same, unless one of them is the wildcard. -/
def FlavorPart.Matches (a b : FlavorPart) : Prop :=
  a = wildcard ∨ b = wildcard ∨ a = b

def Flavor.Matches (f g : Flavor) : Prop :=
  f.major.Matches g.major ∧ f.minor.Matches g.minor

theorem FlavorPart.agrees_iff {a b : FlavorPart} : a.agrees b = true ↔ a.Matches b := by
  rw [agrees, Bool.or_eq_true, Bool.or_eq_true, beq_iff_eq, beq_iff_eq, beq_iff_eq, or_assoc,
    Matches]

theorem Flavor.agrees_iff {f g : Flavor} : f.agrees g = true ↔ f.Matches g := by
  rw [agrees, Bool.and_eq_true, FlavorPart.agrees_iff, FlavorPart.agrees_iff, Matches]

/-- An absent flavor is matched by no `f`. -/
theorem Flavor.agreesWith_iff {f : Flavor} {g? : Option Flavor} :
    f.agreesWith g? = true ↔ ∃ g, g? = some g ∧ f.Matches g := by
  rcases g? with _ | g
  · simp [agreesWith]
  · simp [agreesWith, agrees_iff]

end MediaManifest
