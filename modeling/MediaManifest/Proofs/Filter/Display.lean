import MediaManifest.Filter.Expression
import MediaManifest.Proofs.Text.Flavors

/-!
# Displayed filters

What is displayed of a filter is an expression for it, if the filter was read
from an expression at all.  Such a filter is that of an expression without
exclamation marks (`Plain`), or the negation of one that negation neither
cancels nor swaps.  Marks are peeled off one at a time, so a mark in front
negates whatever the rest is read as.
-/

namespace MediaManifest.Filter

open Text (Tight)

variable {f : Filter} {s key value whole : String}

/-! ## The filters of expressions -/

/-- The filters of expressions without exclamation marks. -/
inductive Plain : Filter → Prop where
  | word {s : String} {f : Filter} (hword : ofWord? s = some f) : Plain f
  | kind (k : Kind) : Plain (kind k)
  | flavor (f : Flavor) : Plain (flavor f)
  | tag {t : String} (ht : Tight t) : Plain (tag t)
  | tags {ts : List String} (hts : ∀ t ∈ ts, Tight t ∧ ',' ∉ t.toList) : Plain (tags ts)
  | channel {c : String} (hc : Tight c) : Plain (channel c)

/-- The `value` of a list of tags is read as texts `t` without white space at their ends and
without commas. -/
theorem tight_of_mem_tagList {t : String} (ht : t ∈ tagList value) :
    Tight t ∧ ',' ∉ t.toList := by
  obtain ⟨hpiece, hne⟩ := List.mem_filter.mp ht
  obtain ⟨piece, hsplit, rfl⟩ := List.mem_map.mp hpiece
  obtain ⟨cs, hcs, rfl⟩ := List.mem_map.mp hsplit
  refine ⟨Text.tight_trim (by simpa using hne), fun hcomma => ?_⟩
  rw [Text.toList_trim, String.toList_ofList] at hcomma
  have hsep := Text.isSep_of_mem_splitChars hcs ',' (Text.trimChars_sublist.subset hcomma)
  exact absurd hsep (by decide)

theorem plain_of_ofPair (h : ofPair whole key (Text.trim value) = .ok f) : Plain f := by
  unfold ofPair at h
  split at h
  · obtain ⟨k, -, rfl⟩ := Except.map_eq_ok_iff.mp h
    exact .kind k
  · split at h
    · obtain rfl := Except.ok.inj h
      exact .flavor _
    · exact nomatch h
  · split at h
    · exact nomatch h
    · next hne =>
      obtain rfl := Except.ok.inj h
      exact .tag (Text.tight_trim hne)
  · obtain rfl := Except.ok.inj h
    exact .tags fun t ht => tight_of_mem_tagList ht
  · split at h
    · exact nomatch h
    · next hne =>
      obtain rfl := Except.ok.inj h
      exact .channel (Text.tight_trim hne)
  · exact nomatch h

theorem plain_of_parseBase (h : parseBase s = .ok f) : Plain f := by
  unfold parseBase at h
  split at h
  · exact plain_of_ofPair h
  · split at h
    · next hword =>
      obtain rfl := Except.ok.inj h
      exact .word hword
    · exact nomatch h

/-- The filters of expressions. -/
inductive Signed : Filter → Prop where
  | plain {f : Filter} (hplain : Plain f) : Signed f
  | negated {f : Filter} (hplain : Plain f) (hnegate : f.negate = .not f) : Signed (.not f)

/-- A word is negated by another word or under a `not`. -/
theorem negate_of_word (hword : ofWord? s = some f) : Plain f.negate ∨ f.negate = .not f := by
  unfold ofWord? at hword
  split at hword <;> cases hword
  · exact .inr rfl
  · exact .inl (.word (s := "no-checksum") rfl)
  · exact .inl (.word (s := "checksum") rfl)
  · exact .inr rfl
  · exact .inr rfl

theorem Plain.negate (hplain : Plain f) : Plain f.negate ∨ f.negate = .not f := by
  cases hplain with
  | word hword => exact negate_of_word hword
  | kind | flavor | tag | tags | channel => exact .inr rfl

theorem Signed.negate (hsigned : Signed f) : Signed f.negate := by
  cases hsigned with
  | plain hplain =>
      rcases hplain.negate with hnegate | hnegate
      · exact .plain hnegate
      · rw [hnegate]
        exact .negated hplain hnegate
  | negated hplain _ => exact .plain hplain

/-- The base of an expression `s` is read and then negated by its marks. -/
theorem parse_eq (s : String) :
    parse s = (parseBase (String.ofList (Text.trimBack (peel s.toList).2))).map
      (negateTimes (peel s.toList).1) :=
  rfl

theorem signed_of_parse (h : parse s = .ok f) : Signed f := by
  rw [parse_eq] at h
  obtain ⟨base, hbase, rfl⟩ := Except.map_eq_ok_iff.mp h
  -- The marks are applied one after the other to a filter that is plain before the first.
  generalize (peel s.toList).1 = n
  induction n with
  | zero => exact .plain (plain_of_parseBase hbase)
  | succ n ih => exact ih.negate

/-! ## Words and keys -/

/-- A text `s` that neither a mark nor a colon nor white space at the ends tells anything about. -/
structure Bare (s : String) : Prop where
  tight : Tight s
  uncut : ':' ∉ s.toList
  unmarked : s.toList.head? ≠ some '!'

theorem bare_of_word (hword : ofWord? s = some f) : Bare s := by
  unfold ofWord? at hword
  split at hword <;> cases hword
  all_goals exact ⟨⟨by decide, by decide +kernel⟩, by decide, by decide⟩

/-- Only the display of the filter `f` of a word is read as the word. -/
theorem eq_display_of_word (hword : ofWord? s = some f) : s = f.display := by
  unfold ofWord? at hword
  split at hword <;> cases hword <;> rfl

/-- The keys that stand in front of a colon. -/
def keys : List String :=
  ["type", "flavor", "tag", "tags", "channel"]

theorem bare_of_key (hkey : key ∈ keys) : Bare key := by
  have hall : ∀ key ∈ keys, (key ≠ "" ∧ Text.trim key = key) ∧ ':' ∉ key.toList ∧
      key.toList.head? ≠ some '!' := by
    decide +kernel
  obtain ⟨⟨hne, htrim⟩, huncut, hunmarked⟩ := hall key hkey
  exact ⟨⟨hne, htrim⟩, huncut, hunmarked⟩

theorem tagList_join {ts : List String} (hts : ∀ t ∈ ts, Tight t ∧ ',' ∉ t.toList) :
    tagList (Text.join "," ts) = ts := by
  by_cases hempty : ts = []
  · subst hempty
    rfl
  · have hsplit : Text.split (· == ',') (Text.join "," ts) = ts :=
      Text.split_join hempty fun t ht => (hts t ht).2
    have htrim : ts.map Text.trim = ts :=
      (List.map_congr_left fun t ht => (hts t ht).1.trimmed).trans (List.map_id' ts)
    rw [tagList, hsplit, htrim, List.filter_eq_self]
    intro t ht
    simpa using (hts t ht).1.nonempty

/-- A joined list of the tags `ts` has no white space at its ends; it is empty if the list is. -/
theorem trim_join_tags {ts : List String} (hts : ∀ t ∈ ts, Tight t) :
    Text.trim (Text.join "," ts) = Text.join "," ts := by
  by_cases hempty : ts = []
  · subst hempty
    rfl
  · exact (Text.tight_join "," hempty hts).trimmed

/-! ## Reading displayed filters -/

/-- The filter `f` is displayed as a `key` and a `value` from which it is read. -/
structure Keyed (f : Filter) (key value : String) : Prop where
  display : f.display = key ++ ":" ++ value
  known : key ∈ keys
  trimmed : Text.trim value = value
  read (whole : String) : ofPair whole key value = .ok f

theorem Plain.word_or_keyed (hplain : Plain f) :
    ofWord? f.display = some f ∨ ∃ key value, Keyed f key value := by
  cases hplain with
  | word hword =>
      left
      rwa [← eq_display_of_word hword]
  | kind k =>
      refine .inr ⟨"type", k.name, rfl, by decide, ?_, fun whole => ?_⟩
      · cases k <;> decide +kernel
      · rw [ofPair, Kind.parse, Kind.ofName?_name]
        rfl
  | flavor g =>
      refine .inr ⟨"flavor", g.text, rfl, by decide, ?_, fun whole => ?_⟩
      · exact g.tight_text.trimmed
      · rw [ofPair, g.parse_text]
  | tag ht =>
      refine .inr ⟨"tag", _, rfl, by decide, ht.trimmed, fun whole => ?_⟩
      rw [ofPair, if_neg ht.nonempty]
  | tags hts =>
      refine .inr ⟨"tags", _, rfl, by decide, trim_join_tags fun t ht => (hts t ht).1,
        fun whole => ?_⟩
      rw [ofPair, tagList_join hts]
  | channel hc =>
      refine .inr ⟨"channel", _, rfl, by decide, hc.trimmed, fun whole => ?_⟩
      rw [ofPair, if_neg hc.nonempty]

/-- No mark is peeled off the display of a plain filter `f`, and nothing is trimmed. -/
theorem Plain.tight_display (hplain : Plain f) :
    Tight f.display ∧ f.display.toList.head? ≠ some '!' := by
  rcases hplain.word_or_keyed with hword | ⟨key, value, hkeyed⟩
  · have hbare := bare_of_word hword
    exact ⟨hbare.tight, hbare.unmarked⟩
  · have hbare := bare_of_key hkeyed.known
    obtain ⟨⟨c, hfirst, -⟩, -⟩ := Text.tight_iff.mp hbare.tight
    have hunmarked := hbare.unmarked
    rw [hfirst] at hunmarked
    rw [hkeyed.display]
    refine ⟨Text.tight_pair hbare.tight hkeyed.trimmed, ?_⟩
    rw [String.toList_append, String.toList_append, List.append_assoc, List.head?_append, hfirst]
    exact hunmarked

theorem Plain.parseBase_display (hplain : Plain f) : parseBase f.display = .ok f := by
  rcases hplain.word_or_keyed with hword | ⟨key, value, hkeyed⟩
  · have hcut : Text.cut ':' f.display = none := by
      rw [Text.cut, Text.cutChars_eq_none_iff.mpr (bare_of_word hword).uncut]
      rfl
    rw [parseBase, hcut]
    simp only [hword]
  · have hbare := bare_of_key hkeyed.known
    have hcut : Text.cut ':' f.display = some (key, value) := by
      rw [Text.cut_eq_some_iff, hkeyed.display]
      exact ⟨by simp, hbare.uncut⟩
    rw [parseBase, hcut]
    simp only [hbare.tight.trimmed, hkeyed.trimmed]
    exact hkeyed.read _

/-- An expression `s` without a mark and without white space at its ends is read as it is. -/
theorem parse_of_unmarked (hs : Text.trim s = s) (hmark : s.toList.head? ≠ some '!') :
    parse s = parseBase s := by
  have hkept : Text.trimChars s.toList = s.toList := by
    rw [← Text.toList_trim, hs]
  obtain ⟨hfront, hback⟩ := Text.trimChars_eq_self_iff.mp hkept
  have hpeel : peel s.toList = (0, s.toList) := by
    cases hchars : s.toList with
    | nil => rfl
    | cons c cs =>
        rw [hchars] at hmark hfront
        have hblank : Text.isBlank c = false := Text.trimFront_eq_self_iff.mp hfront c rfl
        have hc : c ≠ '!' := by simpa using hmark
        rw [peel, hblank, if_neg Bool.false_ne_true, if_neg hc]
  have hnone : negateTimes 0 = id := rfl
  rw [parse, hpeel]
  simp only [hback, String.ofList_toList, hnone, Except.map_id, id]

/-- A mark in front negates what the rest `s` is read as. -/
theorem parse_marked (s : String) : parse ("!" ++ s) = (parse s).map negate := by
  have hpeel : peel ("!" ++ s).toList = ((peel s.toList).1 + 1, (peel s.toList).2) := by
    rw [String.toList_append]
    rfl
  simp only [parse, hpeel]
  cases parseBase (String.ofList (Text.trimBack (peel s.toList).2)) with
  | error fault => rfl
  | ok base => rfl

theorem Signed.read_display (hsigned : Signed f) : parse f.display = .ok f := by
  have hread {g : Filter} (hplain : Plain g) : parse g.display = .ok g := by
    obtain ⟨htight, hmark⟩ := hplain.tight_display
    rw [parse_of_unmarked htight.trimmed hmark, hplain.parseBase_display]
  cases hsigned with
  | plain hplain => exact hread hplain
  | negated hplain hnegate =>
      rw [display, parse_marked, hread hplain]
      exact congrArg Except.ok hnegate

/-- For every filter `f` that is read from an expression `s`, the text `f.display` is an
expression for the same filter, however many marks, how much white space and which empty tags `s`
had. -/
theorem parse_display (h : parse s = .ok f) : parse f.display = .ok f :=
  (signed_of_parse h).read_display

/-- Three marks, white space between them, empty tags and a colon in a tag. -/
theorem parse_display_of_marked_tags :
    let f := Filter.not (.tags ["a b", "é:c"])
    parse " !\t! !tags : a b ,, é:c ," = .ok f ∧ parse f.display = .ok f := by
  intro f
  have hread : parse " !\t! !tags : a b ,, é:c ," = .ok f := by
    rfl
  exact ⟨hread, parse_display hread⟩

end MediaManifest.Filter
