import Mathlib.Algebra.Group.Nat.Even
import MediaManifest.Proofs.Filter.Display
import MediaManifest.Proofs.Filter.Meaning

/-!
# The grammar of filter expressions

An expression is a number of exclamation marks with white space around each of them, and behind
them a word or a key with a value.  The grammar says what such an expression asks of an element
(`Asks`) and why any other text is refused (`Refused`), without a word on how it is read.  The
reader skips blanks and marks in one pass and trims what is left; every mark adds a negation that
may cancel the one before, so that in the end only their parity counts.
-/

namespace MediaManifest

namespace Kind

variable {s : String} {kind : Kind} {error : Error}

theorem parse_eq_ok_iff : parse s = .ok kind ↔ s = kind.name := by
  rw [← ofName?_eq_some_iff, parse]
  cases ofName? s with
  | none => simp
  | some other => simp

theorem parse_eq_error_iff :
    parse s = .error error ↔ (∀ k : Kind, s ≠ k.name) ∧ error = .unknownKind s := by
  simp only [ne_eq, ← ofName?_eq_some_iff, ← Option.eq_none_iff_forall_ne_some, parse]
  cases ofName? s with
  | none => simp [eq_comm]
  | some kind => simp

end Kind

namespace Element

variable {e : Element}

theorem hasVideo_iff :
    e.hasVideo = true ↔ ∃ audio duration, e.body = .track true audio duration := by
  constructor
  · intro hvideo
    unfold hasVideo at hvideo
    split at hvideo
    · next video audio duration hbody => exact ⟨audio, duration, hvideo ▸ hbody⟩
    · exact nomatch hvideo
  · rintro ⟨audio, duration, hbody⟩
    rw [hasVideo, hbody]

theorem hasAudio_iff :
    e.hasAudio = true ↔ ∃ video duration, e.body = .track video true duration := by
  constructor
  · intro haudio
    unfold hasAudio at haudio
    split at haudio
    · next video audio duration hbody => exact ⟨video, duration, haudio ▸ hbody⟩
    · exact nomatch haudio
  · rintro ⟨video, duration, hbody⟩
    rw [hasAudio, hbody]

theorem channel?_eq_some_iff {channel : String} :
    e.channel? = some channel ↔ e.body = .publication channel := by
  constructor
  · intro hchannel
    unfold channel? at hchannel
    split at hchannel
    · next other hbody => rw [hbody, Option.some.inj hchannel]
    · exact nomatch hchannel
  · intro hbody
    rw [channel?, hbody]

end Element

namespace Filter

open Text (Separated trim)

/-! ## The grammar -/

/-- A text of `n` exclamation marks, each with white space around it, and behind them a base
without a mark in front and without white space at its ends. -/
inductive Marked : Nat → String → String → Prop where
  | base {s : String} (hmark : (trim s).toList.head? ≠ some '!') : Marked 0 s (trim s)
  | mark {n : Nat} {s rest base : String} (hmark : trim s = "!" ++ rest)
      (hrest : Marked n rest base) : Marked (n + 1) s base

/-- The text `s` gives the `key` a `value`: they stand on either side of its first colon, with
white space around them. -/
def Gives (s key value : String) : Prop :=
  ∃ front back, s = front ++ ":" ++ back ∧ ':' ∉ front.toList ∧ trim front = key ∧
    trim back = value

/-- What an expression without marks asks of an element. -/
inductive Asks : String → (Element → Prop) → Prop where
  | any : Asks "any" fun _ => True
  | checksum : Asks "checksum" fun e => ∃ c, e.checksum = some c
  | noChecksum : Asks "no-checksum" fun e => e.checksum = none
  | video : Asks "video" fun e => ∃ audio duration, e.body = .track true audio duration
  | audio : Asks "audio" fun e => ∃ video duration, e.body = .track video true duration
  | kind {s : String} {k : Kind} (h : Gives s "type" k.name) : Asks s fun e => e.kind = k
  | flavor {s value : String} {f : Flavor} (h : Gives s "flavor" value)
      (hvalue : Flavor.parse value = .ok f) :
      Asks s fun e => ∃ g, e.flavor = some g ∧ f.Matches g
  | tag {s value : String} (h : Gives s "tag" value) (hvalue : value ≠ "") :
      Asks s fun e => value ∈ e.tags.toList
  /-- A list of tags; one that names none asks nothing. -/
  | tags {s value : String} {pieces : List String} (h : Gives s "tags" value)
      (hpieces : Separated ',' value pieces) :
      Asks s fun e => (∀ p ∈ pieces, trim p = "") ∨
        ∃ p ∈ pieces, trim p ≠ "" ∧ trim p ∈ e.tags.toList
  | channel {s value : String} (h : Gives s "channel" value) (hvalue : value ≠ "") :
      Asks s fun e => e.body = .publication value

/-- Why an expression without marks is none. -/
inductive Refused : String → Error → Prop where
  | kind {s value : String} (h : Gives s "type" value) (hvalue : ∀ k : Kind, value ≠ k.name) :
      Refused s (.unknownKind value)
  | flavor {s value : String} {fault : FlavorFault} (h : Gives s "flavor" value)
      (hvalue : Flavor.parse value = .error fault) : Refused s (.ofFlavorFault fault)
  | other {s : String} (hasks : ∀ p, ¬ Asks s p) (hkind : ∀ value, ¬ Gives s "type" value)
      (hflavor : ∀ value, ¬ Gives s "flavor" value) : Refused s (.invalidFilter s)

variable {s base key value whole : String} {f : Filter} {error : Error} {p : Element → Prop}

/-! ## Keys and values -/

/-- The `key` and the `value` stand on the sides of the cut. -/
theorem gives_iff :
    Gives s key value ↔ ∃ front back, Text.cut ':' s = some (front, back) ∧ trim front = key ∧
      trim back = value := by
  have hcut (front back : String) :
      Text.cut ':' s = some (front, back) ↔ s = front ++ ":" ++ back ∧ ':' ∉ front.toList := by
    rw [Text.cut_eq_some_iff, ← String.toList_inj]
    simp
  simp only [Gives, hcut, and_assoc]

theorem parseBase_of_gives (h : Gives s key value) : parseBase s = ofPair s key value := by
  obtain ⟨front, back, hcut, rfl, rfl⟩ := gives_iff.mp h
  rw [parseBase, hcut]

/-! ## What is asked -/

theorem parseBase_of_word (hword : ofWord? s = some f) : parseBase s = .ok f := by
  have hread := (Plain.word hword).parseBase_display
  rwa [← eq_display_of_word hword] at hread

/-- A list of tags accepts what carries a tag among its `pieces`, and everything if these are
blank. -/
theorem accepts_tags_iff {pieces : List String} (hpieces : Separated ',' value pieces)
    (e : Element) :
    accepts e (tags (tagList value)) = true ↔
      (∀ p ∈ pieces, trim p = "") ∨ ∃ p ∈ pieces, trim p ≠ "" ∧ trim p ∈ e.tags.toList := by
  have hlist : tagList value = (pieces.map trim).filter (· != "") := by
    rw [tagList, hpieces.split_eq]
  have hempty : tagList value = [] ↔ ∀ p ∈ pieces, trim p = "" := by
    simp [hlist, List.filter_eq_nil_iff]
  have hany : (tagList value).any e.tags.contains = true ↔
      ∃ p ∈ pieces, trim p ≠ "" ∧ trim p ∈ e.tags.toList := by
    simp [hlist, Tags.contains]
  rw [accepts, Element.hasAnyTag, Bool.or_eq_true, List.isEmpty_iff, hempty, hany]

/-- What the grammar has is read as a filter that accepts the elements with `p`. -/
theorem Asks.exists_parseBase (h : Asks s p) :
    ∃ f, parseBase s = .ok f ∧ ∀ e, accepts e f = true ↔ p e := by
  cases h with
  | any => exact ⟨_, parseBase_of_word rfl, fun e => by simp⟩
  | checksum =>
      refine ⟨_, parseBase_of_word rfl, fun e => ?_⟩
      rw [accepts, Option.isSome_iff_exists]
  | noChecksum =>
      refine ⟨_, parseBase_of_word rfl, fun e => ?_⟩
      rw [accepts, Option.isNone_iff_eq_none]
  | video =>
      refine ⟨_, parseBase_of_word rfl, fun e => ?_⟩
      rw [accepts, Element.hasVideo_iff]
  | audio =>
      refine ⟨_, parseBase_of_word rfl, fun e => ?_⟩
      rw [accepts, Element.hasAudio_iff]
  | @kind _ k h =>
      refine ⟨Filter.kind k, ?_, fun e => ?_⟩
      · rw [parseBase_of_gives h, ofPair, Kind.parse_eq_ok_iff.mpr rfl, Except.map]
      · rw [accepts, beq_iff_eq]
  | @flavor _ value g h hvalue =>
      refine ⟨Filter.flavor g, ?_, fun e => ?_⟩
      · rw [parseBase_of_gives h, ofPair, hvalue]
      · rw [accepts, Flavor.agreesWith_iff]
  | @tag _ value h hvalue =>
      refine ⟨Filter.tag value, ?_, fun e => ?_⟩
      · rw [parseBase_of_gives h, ofPair, if_neg hvalue]
      · rw [accepts, Tags.contains, List.contains_iff_mem]
  | tags h hpieces =>
      refine ⟨_, ?_, accepts_tags_iff hpieces⟩
      rw [parseBase_of_gives h, ofPair]
  | @channel _ value h hvalue =>
      refine ⟨Filter.channel value, ?_, fun e => ?_⟩
      · rw [parseBase_of_gives h, ofPair, if_neg hvalue]
      · rw [accepts, beq_iff_eq, Element.channel?_eq_some_iff]

theorem exists_asks_of_ofPair (hgives : Gives s key value)
    (h : ofPair whole key value = .ok f) : ∃ p, Asks s p := by
  unfold ofPair at h
  split at h
  · obtain ⟨k, hparse, -⟩ := Except.map_eq_ok_iff.mp h
    obtain rfl := Kind.parse_eq_ok_iff.mp hparse
    exact ⟨_, .kind hgives⟩
  · split at h
    · next g hvalue => exact ⟨_, .flavor hgives hvalue⟩
    · exact nomatch h
  · split at h
    · exact nomatch h
    · next hvalue => exact ⟨_, .tag hgives hvalue⟩
  · exact ⟨_, .tags hgives (Text.separated_split ',' value)⟩
  · split at h
    · exact nomatch h
    · next hvalue => exact ⟨_, .channel hgives hvalue⟩
  · exact nomatch h

/-- Only a text `s` that the grammar has is read. -/
theorem exists_asks (h : parseBase s = .ok f) : ∃ p, Asks s p := by
  unfold parseBase at h
  split at h
  · next front back hcut => exact exists_asks_of_ofPair (gives_iff.mpr ⟨_, _, hcut, rfl, rfl⟩) h
  · split at h
    · next hword =>
      unfold ofWord? at hword
      split at hword
      · exact ⟨_, .any⟩
      · exact ⟨_, .checksum⟩
      · exact ⟨_, .noChecksum⟩
      · exact ⟨_, .video⟩
      · exact ⟨_, .audio⟩
      · exact nomatch hword
    · exact nomatch h

/-! ## What is refused -/

theorem eq_invalidFilter_of_ofPair (h : ofPair whole key value = .error error)
    (hkind : key ≠ "type") (hflavor : key ≠ "flavor") : error = .invalidFilter whole := by
  unfold ofPair at h
  split at h
  · exact absurd rfl hkind
  · exact absurd rfl hflavor
  · split at h
    · exact (Except.error.inj h).symm
    · exact nomatch h
  · exact nomatch h
  · split at h
    · exact (Except.error.inj h).symm
    · exact nomatch h
  · exact (Except.error.inj h).symm

theorem eq_invalidFilter_of_parseBase (h : parseBase s = .error error)
    (hkind : ∀ value, ¬ Gives s "type" value) (hflavor : ∀ value, ¬ Gives s "flavor" value) :
    error = .invalidFilter s := by
  unfold parseBase at h
  split at h
  · next front back hcut =>
    have hgives : Gives s (trim front) (trim back) := gives_iff.mpr ⟨_, _, hcut, rfl, rfl⟩
    apply eq_invalidFilter_of_ofPair h
    · intro hkey
      exact hkind _ (hkey ▸ hgives)
    · intro hkey
      exact hflavor _ (hkey ▸ hgives)
  · split at h
    · exact nomatch h
    · exact (Except.error.inj h).symm

theorem refused_of_parseBase (h : parseBase s = .error error) : Refused s error := by
  have hasks : ∀ p, ¬ Asks s p := by
    intro p hp
    obtain ⟨f, hread, -⟩ := hp.exists_parseBase
    rw [h] at hread
    cases hread
  by_cases hkind : ∃ value, Gives s "type" value
  · obtain ⟨value, hgives⟩ := hkind
    rw [parseBase_of_gives hgives, ofPair, Except.map_eq_error_iff] at h
    obtain ⟨hvalue, rfl⟩ := Kind.parse_eq_error_iff.mp h
    exact .kind hgives hvalue
  by_cases hflavor : ∃ value, Gives s "flavor" value
  · obtain ⟨value, hgives⟩ := hflavor
    cases hvalue : Flavor.parse value with
    | ok g => exact absurd (.flavor hgives hvalue) (hasks _)
    | error fault =>
        rw [parseBase_of_gives hgives, ofPair, hvalue] at h
        obtain rfl := Except.error.inj h
        exact .flavor hgives hvalue
  · have hkind' := not_exists.mp hkind
    have hflavor' := not_exists.mp hflavor
    obtain rfl := eq_invalidFilter_of_parseBase h hkind' hflavor'
    exact .other hasks hkind' hflavor'

theorem Refused.parseBase_eq (h : Refused s error) : parseBase s = .error error := by
  cases h with
  | kind hgives hvalue =>
      rw [parseBase_of_gives hgives, ofPair, Kind.parse_eq_error_iff.mpr ⟨hvalue, rfl⟩, Except.map]
  | flavor hgives hvalue => rw [parseBase_of_gives hgives, ofPair, hvalue]
  | other hasks hkind hflavor =>
      cases hread : parseBase s with
      | ok f =>
          obtain ⟨p, hp⟩ := exists_asks hread
          exact absurd hp (hasks p)
      | error e => rw [eq_invalidFilter_of_parseBase hread hkind hflavor]

theorem parseBase_eq_error_iff : parseBase s = .error error ↔ Refused s error :=
  ⟨refused_of_parseBase, Refused.parseBase_eq⟩

/-! ## Marks -/

theorem peel_trimFront (cs : List Char) : peel (Text.trimFront cs) = peel cs := by
  induction cs with
  | nil => rfl
  | cons c cs ih =>
      by_cases hc : Text.isBlank c = true
      · rw [Text.trimFront, List.dropWhile_cons_of_pos hc, ← Text.trimFront, ih, peel, if_pos hc]
      · rw [Text.trimFront, List.dropWhile_cons_of_neg hc]

/-- White space `bs` behind a text changes neither its marks nor what is left of the rest. -/
theorem peel_append_of_blank {bs : List Char} (hbs : ∀ c ∈ bs, Text.isBlank c = true)
    (cs : List Char) :
    (peel (cs ++ bs)).1 = (peel cs).1 ∧
      Text.trimBack (peel (cs ++ bs)).2 = Text.trimBack (peel cs).2 := by
  induction cs with
  | nil =>
      have hnone : Text.trimFront bs = [] := Text.trimFront_eq_nil_iff.mpr hbs
      rw [List.nil_append, ← peel_trimFront, hnone]
      exact ⟨rfl, rfl⟩
  | cons c cs ih =>
      rw [List.cons_append]
      by_cases hc : Text.isBlank c = true
      · rw [peel, if_pos hc, peel, if_pos hc]
        exact ih
      by_cases hmark : c = '!'
      · rw [peel, if_neg hc, if_pos hmark, peel, if_neg hc, if_pos hmark]
        exact ⟨congrArg (· + 1) ih.1, ih.2⟩
      · rw [peel, if_neg hc, if_neg hmark, peel, if_neg hc, if_neg hmark]
        have hback : Text.trimBack (c :: cs ++ bs) = Text.trimBack (c :: cs) :=
          Text.trimBack_append_of_blank hbs
        exact ⟨rfl, hback⟩

/-- White space around the expression `s` means nothing. -/
theorem parse_trim (s : String) : parse (trim s) = parse s := by
  obtain ⟨bs, hbs, hback⟩ := Text.exists_blank_append_trimBack (Text.trimFront s.toList)
  obtain ⟨hcount, hrest⟩ := peel_append_of_blank hbs (Text.trimChars s.toList)
  have hfront : Text.trimChars s.toList ++ bs = Text.trimFront s.toList := hback
  rw [hfront, peel_trimFront] at hcount hrest
  simp only [parse, Text.toList_trim, hcount, hrest]

/-- Every one of the `n` marks negates what `base` is read as. -/
theorem Marked.parse_eq {n : Nat} (h : Marked n s base) :
    parse s = (parseBase base).map (negateTimes n) := by
  induction h with
  | @base s hmark =>
      have hnone : negateTimes 0 = id := rfl
      rw [← parse_trim, parse_of_unmarked (Text.trim_trim s) hmark, hnone, Except.map_id, id]
  | @mark n s rest base hmark _ ih =>
      rw [← parse_trim, hmark, parse_marked, ih]
      cases parseBase base with
      | error e => rfl
      | ok f => rfl

/-- Every text `s` is some marks and a base. -/
theorem exists_marked (s : String) : ∃ n base, Marked n s base := by
  by_cases hmark : (trim s).toList.head? = some '!'
  · obtain ⟨cs, hcs⟩ := List.head?_eq_some_iff.mp hmark
    have hstart : trim s = "!" ++ String.ofList cs := by
      rw [← String.toList_inj, hcs]
      simp
    have hshort : cs.length < s.toList.length := by
      have hpart : (Text.trimChars s.toList).Sublist s.toList := Text.trimChars_sublist
      have hle := hpart.length_le
      rw [← Text.toList_trim, hcs, List.length_cons] at hle
      omega
    obtain ⟨n, base, hrest⟩ := exists_marked (String.ofList cs)
    exact ⟨n + 1, base, .mark hstart hrest⟩
  · exact ⟨0, trim s, .base hmark⟩
termination_by s.toList.length
decreasing_by simpa using hshort

theorem Marked.unique {n m : Nat} {base' : String} (h : Marked n s base)
    (h' : Marked m s base') : m = n ∧ base' = base := by
  induction h generalizing m base' with
  | base hmark =>
      cases h' with
      | base => exact ⟨rfl, rfl⟩
      | mark hmark' =>
          rw [hmark', String.toList_append] at hmark
          exact absurd rfl hmark
  | mark hmark _ ih =>
      cases h' with
      | base hmark' =>
          rw [hmark, String.toList_append] at hmark'
          exact absurd rfl hmark'
      | mark hmark' hrest' =>
          have hsame := hmark.symm.trans hmark'
          rw [String.append_right_inj] at hsame
          subst hsame
          obtain ⟨rfl, rfl⟩ := ih hrest'
          exact ⟨rfl, rfl⟩

/-- Two negations leave the meaning of `f` as it was, so the parity of `n` decides. -/
theorem accepts_negateTimes (n : Nat) (f : Filter) (e : Element) :
    accepts e (negateTimes n f) = true ↔ if Even n then accepts e f = true else
      ¬ accepts e f = true := by
  induction n with
  | zero => simp [negateTimes]
  | succ n ih =>
      rw [negateTimes, accepts_negate, Bool.not_eq_true', ← Bool.not_eq_true, ih]
      by_cases hn : Even n
      · simp [hn, Nat.even_add_one]
      · simp [hn, Nat.even_add_one]

/-- Every text `s` is read as the grammar has it.  Its number `n` of marks and its `base` are told
by the text; it is an expression exactly if `base` asks something, and then accepts what `base`
asks for, or, behind an odd number of marks, what it does not.  Any other text is refused for an
unknown kind, for a flavor that is none, or else with its base. -/
theorem parse_as_grammar (s : String) :
    ∃ n base, Marked n s base ∧ (∀ m other, Marked m s other → m = n ∧ other = base) ∧
      ((∃ f, parse s = .ok f) ↔ ∃ p, Asks base p) ∧
      (∀ f p, parse s = .ok f → Asks base p →
        ∀ e, accepts e f = true ↔ if Even n then p e else ¬ p e) ∧
      ∀ error, parse s = .error error ↔ Refused base error := by
  obtain ⟨n, base, hmarked⟩ := exists_marked s
  refine ⟨n, base, hmarked, fun m other h => hmarked.unique h, ?_, ?_, ?_⟩
  · rw [hmarked.parse_eq, Except.exists_map_eq_ok_iff]
    constructor
    · rintro ⟨f, hread⟩
      exact exists_asks hread
    · rintro ⟨p, hasks⟩
      obtain ⟨f, hread, -⟩ := hasks.exists_parseBase
      exact ⟨f, hread⟩
  · intro f p hparse hasks e
    rw [hmarked.parse_eq] at hparse
    obtain ⟨g, hread, rfl⟩ := Except.map_eq_ok_iff.mp hparse
    obtain ⟨g', hread', haccepts⟩ := hasks.exists_parseBase
    obtain rfl := Except.ok.inj (hread.symm.trans hread')
    rw [accepts_negateTimes, haccepts]
  · intro error
    rw [hmarked.parse_eq, Except.map_eq_error_iff, parseBase_eq_error_iff]

/-- Three marks with white space of different widths between them turn a list of tags around,
and two marks in front of a key without a value are not told in the error. -/
theorem parse_as_grammar_of_wide_marks :
    (∃ f, parse " !\u2003! !\ttags : é ,, b" = .ok f ∧
      ∀ e, accepts e f = true ↔ "é" ∉ e.tags.toList ∧ "b" ∉ e.tags.toList) ∧
    parse "! !tag :\u00a0" = .error (.invalidFilter "tag :") := by
  constructor
  · have hbase : Marked 0 "\ttags : é ,, b" (trim "\ttags : é ,, b") := .base (by decide +kernel)
    have hone : Marked 1 " !\ttags : é ,, b" _ := .mark (by decide +kernel) hbase
    have htwo : Marked 2 "\u2003! !\ttags : é ,, b" _ := .mark (by decide +kernel) hone
    have hthree : Marked 3 " !\u2003! !\ttags : é ,, b" _ := .mark (by decide +kernel) htwo
    have hgives : Gives (trim "\ttags : é ,, b") "tags" "é ,, b" :=
      ⟨"tags ", " é ,, b", by decide +kernel, by decide, by decide +kernel, by decide +kernel⟩
    have hpieces : Separated ',' "é ,, b" ["é ", "", " b"] :=
      ⟨by decide, by decide, by decide +kernel⟩
    obtain ⟨n, base, -, hunique, hreads, hmeans, -⟩ :=
      parse_as_grammar " !\u2003! !\ttags : é ,, b"
    obtain ⟨rfl, rfl⟩ := hunique 3 _ hthree
    have hasks := Asks.tags hgives hpieces
    obtain ⟨f, hf⟩ := hreads.mpr ⟨_, hasks⟩
    refine ⟨f, hf, fun e => ?_⟩
    have hfirst : trim "é " = "é" := by decide +kernel
    have hsecond : trim "" = "" := by decide +kernel
    have hthird : trim " b" = "b" := by decide +kernel
    rw [hmeans f _ hf hasks e, if_neg (by decide)]
    simp [hfirst, hsecond, hthird]
  · have hbase : Marked 0 "tag :" (trim "tag :") := .base (by decide +kernel)
    have hone : Marked 1 " !tag :" _ := .mark (by decide +kernel) hbase
    have htwo : Marked 2 "! !tag :\u00a0" _ := .mark (by decide +kernel) hone
    have hgives : Gives (trim "tag :") "tag" "" :=
      ⟨"tag ", "", by decide +kernel, by decide, by decide +kernel, by decide +kernel⟩
    have htrim : trim "tag :" = "tag :" := by decide +kernel
    have hrefused : Refused (trim "tag :") (.invalidFilter (trim "tag :")) := by
      rw [← parseBase_eq_error_iff, parseBase_of_gives hgives, ofPair, if_pos rfl]
    obtain ⟨n, base, -, hunique, -, -, hrefuses⟩ := parse_as_grammar "! !tag :\u00a0"
    obtain ⟨rfl, rfl⟩ := hunique 2 _ htwo
    rw [(hrefuses _).mpr hrefused, htrim]

end Filter

end MediaManifest
