import MediaManifest.Text.Blank
import MediaManifest.Text.Cut

/-!
# Pieces of texts

A text is cut at its first separator, and split at every one of them; putting
pieces without separators together again undoes both.  A text is `Tight` if
trimming leaves it and leaves something of it.  What stands between two tight
texts, with the texts around it, is tight whatever it is.
-/

namespace MediaManifest.Text

/-! ## Cutting -/

/-- A text `s` is cut at a separator `sep` if that is its first one. -/
theorem cut_eq_some_iff {sep : Char} {s front back : String} :
    cut sep s = some (front, back) ↔
      s.toList = front.toList ++ sep :: back.toList ∧ sep ∉ front.toList := by
  rw [← cutChars_eq_some_iff, cut, Option.map_eq_some_iff]
  constructor
  · rintro ⟨⟨cs, ds⟩, hcut, hsame⟩
    obtain ⟨rfl, rfl⟩ := Prod.mk.inj hsame
    simpa using hcut
  · intro hcut
    exact ⟨_, hcut, by simp⟩

/-! ## Splitting -/

theorem splitChars_eq_splitOnP (isSep : Char → Bool) (cs : List Char) :
    splitChars isSep cs = cs.splitOnP isSep := by
  induction cs with
  | nil => rw [splitChars, List.splitOnP_nil]
  | cons c cs ih =>
      rw [splitChars, List.splitOnP_cons_eq_if_modifyHead, ih]
      split
      · rfl
      · cases hpieces : cs.splitOnP isSep with
        | nil => exact absurd hpieces (List.splitOnP_ne_nil isSep cs)
        | cons piece pieces => rfl

/-- The pieces of the characters `cs` hold no separators. -/
theorem isSep_of_mem_splitChars {isSep : Char → Bool} {cs piece : List Char}
    (hpiece : piece ∈ splitChars isSep cs) : ∀ c ∈ piece, isSep c = false := by
  induction cs generalizing piece with
  | nil =>
      obtain rfl : piece = [] := List.mem_singleton.mp hpiece
      exact fun c hc => absurd hc List.not_mem_nil
  | cons c cs ih =>
      rw [splitChars] at hpiece
      split at hpiece
      · rcases List.mem_cons.mp hpiece with rfl | hpiece
        · exact fun c hc => absurd hc List.not_mem_nil
        · exact ih hpiece
      · next hsep =>
        split at hpiece
        · obtain rfl := List.mem_singleton.mp hpiece
          simpa using hsep
        · next first rest hpieces =>
          rw [hpieces] at ih
          rcases List.mem_cons.mp hpiece with rfl | hpiece
          · have hfirst := ih List.mem_cons_self
            simpa [hsep] using hfirst
          · exact ih (List.mem_cons_of_mem _ hpiece)

theorem toList_join (sep : String) (ss : List String) :
    (join sep ss).toList = sep.toList.intercalate (ss.map String.toList) := by
  fun_induction join sep ss with
  | case1 => rfl
  | case2 s => rw [List.map_singleton, List.intercalate_singleton]
  | case3 s rest hrest ih =>
      obtain ⟨t, ts, rfl⟩ := List.exists_cons_of_ne_nil hrest
      simp only [List.map_cons] at ih ⊢
      rw [String.toList_append, String.toList_append, ih, List.intercalate_cons_cons,
        List.append_assoc]

/-- Joined pieces `ss` without separators are split into the same pieces. -/
theorem split_join {sep : Char} {ss : List String} (hne : ss ≠ [])
    (hss : ∀ s ∈ ss, sep ∉ s.toList) :
    split (· == sep) (join (String.singleton sep) ss) = ss := by
  have hchars : splitChars (· == sep) (join (String.singleton sep) ss).toList =
      ss.map String.toList := by
    rw [splitChars_eq_splitOnP, ← List.splitOn_eq_splitOnP, toList_join, String.toList_singleton]
    apply List.splitOn_intercalate
    · simpa using hss
    · simpa using hne
  rw [split, hchars, List.map_map]
  simp

/-- The text `s`, cut at every one of its separators `sep` into `pieces`. -/
structure Separated (sep : Char) (s : String) (pieces : List String) : Prop where
  nonempty : pieces ≠ []
  unbroken : ∀ p ∈ pieces, sep ∉ p.toList
  whole : join (String.singleton sep) pieces = s

theorem Separated.split_eq {sep : Char} {s : String} {pieces : List String}
    (h : Separated sep s pieces) : split (· == sep) s = pieces := by
  rw [← h.whole]
  exact split_join h.nonempty h.unbroken

/-- Splitting `s` at a separator `sep` cuts it at every one. -/
theorem separated_split (sep : Char) (s : String) : Separated sep s (split (· == sep) s) := by
  have hpieces : splitChars (· == sep) s.toList = s.toList.splitOn sep := by
    rw [splitChars_eq_splitOnP, List.splitOn_eq_splitOnP]
  refine ⟨?_, ?_, ?_⟩
  · rw [split, hpieces]
    simp [List.splitOn_eq_splitOnP]
  · intro p hp hsep
    obtain ⟨cs, hcs, rfl⟩ := List.mem_map.mp hp
    rw [String.toList_ofList] at hsep
    simpa using isSep_of_mem_splitChars hcs sep hsep
  · rw [← String.toList_inj, toList_join, split, hpieces, List.map_map]
    simp [List.intercalate_splitOn]

/-! ## Trimming -/

/-- Trimming at the back keeps `cs` exactly if it ends with no white space. -/
theorem trimBack_eq_self_iff {cs : List Char} :
    trimBack cs = cs ↔ ∀ c, cs.getLast? = some c → isBlank c = false := by
  rw [← List.head?_reverse, ← trimFront_eq_self_iff, trimFront, trimBack, List.reverse_eq_iff]

theorem trimBack_append_of_blank {cs bs : List Char} (hbs : ∀ c ∈ bs, isBlank c = true) :
    trimBack (cs ++ bs) = trimBack cs := by
  rw [trimBack, List.reverse_append, List.dropWhile_append_of_pos, trimBack]
  simpa using hbs

/-- What trimming takes away at the back of `cs` is white space. -/
theorem exists_blank_append_trimBack (cs : List Char) :
    ∃ bs, (∀ c ∈ bs, isBlank c = true) ∧ trimBack cs ++ bs = cs := by
  refine ⟨(cs.reverse.takeWhile isBlank).reverse, ?_, ?_⟩
  · intro c hc
    exact List.all_eq_true.mp List.all_takeWhile c (List.mem_reverse.mp hc)
  · rw [trimBack, ← List.reverse_append, List.takeWhile_append_dropWhile, List.reverse_reverse]

theorem trimChars_sublist {cs : List Char} : (trimChars cs).Sublist cs := by
  obtain ⟨rest, hback⟩ := exists_eq_trimBack_append (trimFront cs)
  have hkept : (trimChars cs).Sublist (trimFront cs) := by
    have hpart := List.sublist_append_left (trimBack (trimFront cs)) rest
    rwa [← hback] at hpart
  exact hkept.trans (List.dropWhile_sublist _)

/-- Trimming takes away no character `c` but white space. -/
theorem mem_trimChars_iff {c : Char} {cs : List Char} (hc : isBlank c = false) :
    c ∈ trimChars cs ↔ c ∈ cs := by
  have hdrop (ds : List Char) : c ∈ ds.dropWhile isBlank ↔ c ∈ ds := by
    constructor
    · exact fun hmem => (List.dropWhile_sublist _).subset hmem
    · intro hmem
      rw [← List.takeWhile_append_dropWhile (p := isBlank) (l := ds), List.mem_append] at hmem
      apply hmem.resolve_left
      intro hfront
      rw [List.all_eq_true.mp List.all_takeWhile c hfront] at hc
      exact Bool.noConfusion hc
  rw [trimChars, trimBack, List.mem_reverse, hdrop, List.mem_reverse, trimFront, hdrop]

/-- Trimming keeps what it keeps at the front and at the back. -/
theorem trimChars_eq_self_iff {cs : List Char} :
    trimChars cs = cs ↔ trimFront cs = cs ∧ trimBack cs = cs := by
  constructor
  · intro hkept
    have hfront : trimFront cs = cs := by
      rw [← hkept]
      exact trimFront_trimChars cs
    exact ⟨hfront, by rwa [trimChars, hfront] at hkept⟩
  · rintro ⟨hfront, hback⟩
    rw [trimChars, hfront, hback]

/-- The text `s` is not empty and has no white space at its ends. -/
structure Tight (s : String) : Prop where
  nonempty : s ≠ ""
  trimmed : trim s = s

variable {s t : String}

theorem tight_trim (hs : trim s ≠ "") : Tight (trim s) :=
  ⟨hs, trim_trim s⟩

/-- A text `s` that starts and ends with no white space is tight. -/
theorem tight_iff :
    Tight s ↔ (∃ c, s.toList.head? = some c ∧ isBlank c = false) ∧
      ∃ c, s.toList.getLast? = some c ∧ isBlank c = false := by
  have hkept : trim s = s ↔ trimFront s.toList = s.toList ∧ trimBack s.toList = s.toList := by
    rw [← trimChars_eq_self_iff, ← toList_trim, String.toList_inj]
  constructor
  · rintro ⟨hne, htrim⟩
    obtain ⟨hfront, hback⟩ := hkept.mp htrim
    have hchars : s.toList ≠ [] := by simpa using hne
    have hhead := List.head?_eq_some_head hchars
    have hlast := List.getLast?_eq_some_getLast hchars
    exact ⟨⟨_, hhead, trimFront_eq_self_iff.mp hfront _ hhead⟩,
      _, hlast, trimBack_eq_self_iff.mp hback _ hlast⟩
  · rintro ⟨⟨c, hhead, hc⟩, d, hlast, hd⟩
    refine ⟨?_, hkept.mpr ⟨trimFront_eq_self_iff.mpr ?_, trimBack_eq_self_iff.mpr ?_⟩⟩
    · rintro rfl
      simp at hhead
    · intro c' hc'
      obtain rfl := Option.some.inj (hhead.symm.trans hc')
      exact hc
    · intro d' hd'
      obtain rfl := Option.some.inj (hlast.symm.trans hd')
      exact hd

/-- Whatever stands in the `middle` of two tight texts `s` and `t`, the whole is tight. -/
theorem Tight.frame (hs : Tight s) (ht : Tight t) (middle : String) :
    Tight (s ++ middle ++ t) := by
  obtain ⟨⟨c, hc, hfirst⟩, -⟩ := tight_iff.mp hs
  obtain ⟨-, d, hd, hlast⟩ := tight_iff.mp ht
  refine tight_iff.mpr ⟨⟨c, ?_, hfirst⟩, d, ?_, hlast⟩
  · rw [String.toList_append, String.toList_append, List.append_assoc, List.head?_append, hc]
    rfl
  · rw [String.toList_append, List.getLast?_append, hd]
    rfl

/-- A value `t` without white space at its ends may be empty after a colon. -/
theorem tight_pair (hs : Tight s) (ht : trim t = t) : Tight (s ++ ":" ++ t) := by
  by_cases hempty : t = ""
  · have hcolon : Tight ":" := ⟨by decide, by decide +kernel⟩
    subst hempty
    simpa using hs.frame hcolon ""
  · exact hs.frame ⟨hempty, ht⟩ ":"

/-- Tight texts `ss` joined by whatever separator `sep` are a tight text. -/
theorem tight_join (sep : String) {ss : List String} (hne : ss ≠ []) (hss : ∀ s ∈ ss, Tight s) :
    Tight (join sep ss) := by
  fun_induction join sep ss with
  | case1 => exact absurd rfl hne
  | case2 s => exact hss s List.mem_cons_self
  | case3 s rest hrest ih =>
      obtain ⟨hs, hothers⟩ := List.forall_mem_cons.mp hss
      exact hs.frame (ih hrest hothers) sep

end MediaManifest.Text
