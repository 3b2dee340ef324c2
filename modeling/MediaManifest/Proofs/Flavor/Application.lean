import Mathlib.Logic.Basic
import MediaManifest.Proofs.Text.Flavors

/-!
# Filling in the wildcards of flavors

Filling in is an operation on parts with the wildcard as its unit: the first part that is no
wildcard stays.  Matching is symmetric and reflexive but not transitive, since a wildcard
matches parts that differ.  A filled flavor matches less than the one it was made from, and
it matches the one that it was filled from only if the two matched before.
-/

namespace MediaManifest

namespace FlavorPart

variable {a b c : FlavorPart}

/-! ## Filling in one part -/

@[simp] theorem wildcard_fill (a : FlavorPart) : wildcard.fill a = a :=
  if_pos rfl

theorem fill_of_ne (ha : a ≠ wildcard) (b : FlavorPart) : a.fill b = a :=
  if_neg ha

@[simp] theorem fill_wildcard (a : FlavorPart) : a.fill wildcard = a := by
  by_cases ha : a = wildcard
  · rw [ha, wildcard_fill]
  · exact fill_of_ne ha wildcard

theorem fill_assoc (a b c : FlavorPart) : a.fill (b.fill c) = (a.fill b).fill c := by
  by_cases ha : a = wildcard
  · rw [ha, wildcard_fill, wildcard_fill]
  · rw [fill_of_ne ha, fill_of_ne ha, fill_of_ne ha]

/-! ## Matching of filled parts -/

theorem Matches.refl (a : FlavorPart) : a.Matches a :=
  .inr (.inr rfl)

theorem matches_comm : a.Matches b ↔ b.Matches a := by
  rw [Matches, Matches, or_left_comm, eq_comm (a := a) (b := b)]

theorem wildcard_matches (a : FlavorPart) : wildcard.Matches a :=
  .inl rfl

theorem fill_matches_self (a b : FlavorPart) : (a.fill b).Matches a := by
  by_cases ha : a = wildcard
  · rw [ha]
    exact matches_comm.mp (wildcard_matches _)
  · rw [fill_of_ne ha]
    exact .refl a

theorem fill_matches_iff : (a.fill b).Matches b ↔ a.Matches b := by
  by_cases ha : a = wildcard
  · rw [ha, wildcard_fill]
    exact iff_of_true (.refl b) (wildcard_matches b)
  · rw [fill_of_ne ha]

/-- A part `a` matches whatever it matches once it is filled from `b`. -/
theorem Matches.of_fill (h : (a.fill b).Matches c) : a.Matches c := by
  by_cases ha : a = wildcard
  · rw [ha]
    exact wildcard_matches c
  · rwa [fill_of_ne ha] at h

end FlavorPart

namespace Flavor

variable {f g h : Flavor}

theorem Matches.refl (f : Flavor) : f.Matches f :=
  ⟨.refl f.major, .refl f.minor⟩

theorem matches_comm : f.Matches g ↔ g.Matches f :=
  and_congr FlavorPart.matches_comm FlavorPart.matches_comm

theorem applyTo_assoc (f g h : Flavor) : f.applyTo (g.applyTo h) = (f.applyTo g).applyTo h := by
  have hmajor := FlavorPart.fill_assoc f.major g.major h.major
  have hminor := FlavorPart.fill_assoc f.minor g.minor h.minor
  exact congrArg₂ Flavor.mk hmajor hminor

@[simp] theorem any_applyTo (f : Flavor) : any.applyTo f = f :=
  congrArg₂ Flavor.mk (FlavorPart.wildcard_fill f.major) (FlavorPart.wildcard_fill f.minor)

@[simp] theorem applyTo_any (f : Flavor) : f.applyTo any = f :=
  congrArg₂ Flavor.mk (FlavorPart.fill_wildcard f.major) (FlavorPart.fill_wildcard f.minor)

theorem applyTo_matches_self (f g : Flavor) : (f.applyTo g).Matches f :=
  ⟨FlavorPart.fill_matches_self f.major g.major, FlavorPart.fill_matches_self f.minor g.minor⟩

theorem applyTo_matches_iff : (f.applyTo g).Matches g ↔ f.Matches g :=
  and_congr FlavorPart.fill_matches_iff FlavorPart.fill_matches_iff

theorem Matches.of_applyTo (hfilled : (f.applyTo g).Matches h) : f.Matches h :=
  ⟨hfilled.1.of_fill, hfilled.2.of_fill⟩

/-- Each part of `f` that is a wildcard is filled in from `g`, and the other one stays.  Filling in
is associative, with the flavor `any` of two wildcards as its unit on either side.  The filled
flavor `f.applyTo g` matches `f`, and it matches `g` exactly if `f` does.  Matching is symmetric
and reflexive, and `f.applyTo g` matches no `h` that `f` does not match. -/
theorem applyTo_agrees (f g h : Flavor) :
    (f.applyTo g).major = (if f.major = .wildcard then g.major else f.major) ∧
    (f.applyTo g).minor = (if f.minor = .wildcard then g.minor else f.minor) ∧
    f.applyTo (g.applyTo h) = (f.applyTo g).applyTo h ∧
    f.applyTo any = f ∧ any.applyTo f = f ∧
    (f.applyTo g).agrees f = true ∧
    (f.applyTo g).agrees g = f.agrees g ∧
    f.agrees g = g.agrees f ∧ f.agrees f = true ∧
    ((f.applyTo g).agrees h = true → f.agrees h = true) := by
  refine ⟨rfl, rfl, applyTo_assoc f g h, applyTo_any f, any_applyTo f, ?_, ?_, ?_, ?_, ?_⟩
  · exact agrees_iff.mpr (applyTo_matches_self f g)
  · rw [Bool.eq_iff_iff, agrees_iff, agrees_iff]
    exact applyTo_matches_iff
  · rw [Bool.eq_iff_iff, agrees_iff, agrees_iff]
    exact matches_comm
  · exact agrees_iff.mpr (.refl f)
  · intro hfilled
    exact agrees_iff.mpr (agrees_iff.mp hfilled).of_applyTo

/-- A flavor that the wildcard of another one leaves as it is: it does not match the other, but
it does match a third one through its own wildcard. -/
theorem applyTo_agrees_of_mixed_wildcards :
    let preview : FlavorPart := ⟨"preview", by decide, by decide +kernel, by decide⟩
    let source : FlavorPart := ⟨"source", by decide, by decide +kernel, by decide⟩
    let presenter : FlavorPart := ⟨"presenter", by decide, by decide +kernel, by decide⟩
    let f : Flavor := ⟨.wildcard, preview⟩
    let g : Flavor := ⟨.wildcard, source⟩
    let h : Flavor := ⟨presenter, .wildcard⟩
    f.applyTo g = f ∧ (f.applyTo g).agrees g = false ∧
      (f.applyTo g).agrees h = true ∧ f.agrees h = true := by
  intro preview source presenter f g h
  obtain ⟨-, -, -, -, -, -, hfilled, -, -, hkeeps⟩ := applyTo_agrees f g h
  have hapart : f.agrees g = false := by decide
  have hmatch : (f.applyTo g).agrees h = true := by decide
  exact ⟨by decide, hfilled.trans hapart, hmatch, hkeeps hmatch⟩

end Flavor

end MediaManifest
