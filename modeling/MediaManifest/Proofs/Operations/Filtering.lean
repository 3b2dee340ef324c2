import MediaManifest.Proofs.Filter.Meaning
import MediaManifest.Proofs.Operations.Failures

/-!
# Filtering files

The expressions of a filter are read before its file is looked at, one after the other up to the
first that cannot be read.  What they are read as is put together into one conjunction, yet an
element is selected exactly if each of them accepts it on its own.  So neither their order
counts nor how often one of them is given, and a further one only takes elements away.
-/

namespace MediaManifest

namespace Filter

/-- Every one of the `expressions` is read as the one of the `filters` in its place. -/
def Reads (expressions : List String) (filters : List Filter) : Prop :=
  List.Forall₂ (fun s f => parse s = .ok f) expressions filters

/-- The first of the `expressions` that cannot be read has the `error`. -/
def FirstRefused (expressions : List String) (error : Error) : Prop :=
  ∃ front s rest, expressions = front ++ s :: rest ∧ (∀ t ∈ front, ∃ f, parse t = .ok f) ∧
    parse s = .error error

variable {expressions others : List String} {filters : List Filter} {s : String} {f : Filter}
  {error : Error} {e : Element}

/-! ## Reading several expressions -/

theorem parseAll_eq_ok_iff : parseAll expressions = .ok filters ↔ Reads expressions filters := by
  induction expressions generalizing filters with
  | nil =>
      rw [Reads, List.forall₂_nil_left_iff, parseAll, Except.ok.injEq, eq_comm]
  | cons s expressions ih =>
      rw [Reads, List.forall₂_cons_left_iff, parseAll]
      cases parse s with
      | error error => simp
      | ok f =>
          simp only [Except.map_eq_ok_iff, ih, Reads, Except.ok.injEq]
          constructor
          · rintro ⟨fs, hrest, rfl⟩
            exact ⟨f, fs, rfl, hrest, rfl⟩
          · rintro ⟨g, fs, rfl, hrest, rfl⟩
            exact ⟨fs, hrest, rfl⟩

theorem firstRefused_cons_iff : FirstRefused (s :: expressions) error ↔
    parse s = .error error ∨ (∃ f, parse s = .ok f) ∧ FirstRefused expressions error := by
  constructor
  · rintro ⟨front, t, rest, hsplit, hreads, hrefused⟩
    rcases List.cons_eq_append_iff.mp hsplit with ⟨rfl, hrest⟩ | ⟨more, rfl, rfl⟩
    · obtain ⟨rfl, -⟩ := List.cons.inj hrest
      exact .inl hrefused
    · obtain ⟨hs, hmore⟩ := List.forall_mem_cons.mp hreads
      exact .inr ⟨hs, more, t, rest, rfl, hmore, hrefused⟩
  · rintro (hrefused | ⟨hs, front, t, rest, rfl, hreads, hrefused⟩)
    · exact ⟨[], s, expressions, rfl, fun _ hmem => absurd hmem List.not_mem_nil, hrefused⟩
    · exact ⟨s :: front, t, rest, rfl, List.forall_mem_cons.mpr ⟨hs, hreads⟩, hrefused⟩

/-- Reading the `expressions` stops at the first that cannot be read. -/
theorem parseAll_eq_error_iff :
    parseAll expressions = .error error ↔ FirstRefused expressions error := by
  induction expressions with
  | nil =>
      refine iff_of_false (fun herror => nomatch herror) ?_
      rintro ⟨front, s, rest, hsplit, -⟩
      simp at hsplit
  | cons s expressions ih =>
      rw [firstRefused_cons_iff, ← ih, parseAll]
      cases parse s with
      | error other => simp
      | ok f => simp [Except.map_eq_error_iff]

theorem firstRefused_or_reads (expressions : List String) :
    (∃ error, FirstRefused expressions error) ∨ ∃ filters, Reads expressions filters := by
  simp only [← parseAll_eq_error_iff, ← parseAll_eq_ok_iff]
  cases parseAll expressions with
  | error error => exact .inl ⟨error, rfl⟩
  | ok filters => exact .inr ⟨filters, rfl⟩

theorem exists_reads_iff :
    (∃ filters, Reads expressions filters) ↔ ∀ s ∈ expressions, ∃ f, parse s = .ok f := by
  simp only [← exists_ofExpressions_iff, ofExpressions, Except.exists_map_eq_ok_iff,
    parseAll_eq_ok_iff]

/-- An element `e` passes all `filters` exactly if every expression `s` on its own is read as a
filter that accepts it. -/
theorem Reads.all_accept_iff (h : Reads expressions filters) :
    filters.all (accepts e) = true ↔
      ∀ s ∈ expressions, ∃ f, parse s = .ok f ∧ accepts e f = true := by
  induction h with
  | nil => simp
  | cons hread _ ih => simp [ih, hread]

end Filter

namespace Operations

open MediaManifest.Filter (Reads FirstRefused parse accepts)

variable {source : Source} {desk : Desk} {path : String} {expressions others : List String}
  {filters : List Filter} {f : Filter} {error : Error} {selected : List Element}

theorem load_of_error {e : ToolError} (h : (load source desk path).result = .error e) :
    load source desk path = ⟨.error e, desk⟩ := by
  unfold load at h ⊢
  split
  · next other heq =>
    rw [heq] at h
    rw [Except.error.inj h]
  · next p heq =>
    rw [heq] at h
    exact nomatch h

/-- Whatever the file at `path` is, it is not looked at if an expression cannot be read. -/
theorem filter_of_firstRefused (h : FirstRefused expressions error) :
    filter source desk path expressions = ⟨.error (.manifest error), desk⟩ := by
  rw [filter, Filter.ofExpressions, Filter.parseAll_eq_error_iff.mpr h]
  rfl

/-- The conjunction of the `expressions` selects what all of the `filters` accept. -/
theorem filter_of_reads (h : Reads expressions filters) :
    filter source desk path expressions =
      (load source desk path).andThen fun p desk =>
        let selected := p.elements.filter fun e => filters.all (accepts e)
        ⟨.ok selected, desk.note (filteredRecord (.all filters) selected)⟩ := by
  rw [filter, Filter.ofExpressions, Filter.parseAll_eq_ok_iff.mpr h]
  simp only [Except.map, Filter.select, Filter.accepts_all]

theorem result_filter_of_reads (h : Reads expressions filters) :
    (filter source desk path expressions).result =
      (load source desk path).result.map fun p =>
        p.elements.filter fun e => filters.all (accepts e) := by
  rw [filter_of_reads h, Ran.andThen]
  split
  · next hload => rw [hload, Except.map]
  · next hload => rw [hload, Except.map]

/-- What was `selected` was asked for by expressions that can all be read, in a file that loads. -/
theorem exists_reads_of_filter (h : (filter source desk path expressions).result = .ok selected) :
    ∃ filters p, Reads expressions filters ∧ (load source desk path).result = .ok p ∧
      selected = p.elements.filter fun e => filters.all (accepts e) := by
  rcases Filter.firstRefused_or_reads expressions with ⟨error, hrefused⟩ | ⟨filters, hreads⟩
  · rw [filter_of_firstRefused hrefused] at h
    exact nomatch h
  · rw [result_filter_of_reads hreads] at h
    obtain ⟨p, hload, hselected⟩ := Except.map_eq_ok_iff.mp h
    exact ⟨filters, p, hreads, hload, hselected.symm⟩

/-- The same expressions `others`, in whatever order and however often, select the same elements. -/
theorem filter_of_same_members (hsame : ∀ s, s ∈ others ↔ s ∈ expressions)
    (h : (filter source desk path expressions).result = .ok selected) :
    (filter source desk path others).result = .ok selected := by
  obtain ⟨filters, p, hreads, hload, rfl⟩ := exists_reads_of_filter h
  have hparse := Filter.exists_reads_iff.mp ⟨filters, hreads⟩
  obtain ⟨filters', hreads'⟩ : ∃ filters', Reads others filters' :=
    Filter.exists_reads_iff.mpr fun s hs => hparse s ((hsame s).mp hs)
  have hall : (fun e => filters'.all (accepts e)) = fun e => filters.all (accepts e) := by
    funext e
    rw [Bool.eq_iff_iff, hreads'.all_accept_iff, hreads.all_accept_iff]
    simp only [hsame]
  rw [result_filter_of_reads hreads', hload, hall]
  rfl

/-- A further expression `s` selects among the elements that the others select. -/
theorem filter_insert {front rest : List String} {s : String} (hparse : parse s = .ok f)
    (h : (filter source desk path (front ++ rest)).result = .ok selected) :
    (filter source desk path (front ++ s :: rest)).result = .ok (f.select selected) := by
  obtain ⟨filters, p, hreads, hload, rfl⟩ := exists_reads_of_filter h
  have hothers : Reads (s :: (front ++ rest)) (f :: filters) := .cons hparse hreads
  have hfirst : (filter source desk path (s :: (front ++ rest))).result =
      .ok (f.select (p.elements.filter fun e => filters.all (accepts e))) := by
    rw [result_filter_of_reads hothers, hload, Filter.select, List.filter_filter]
    rfl
  have hsame : ∀ t, t ∈ front ++ s :: rest ↔ t ∈ s :: (front ++ rest) := fun t =>
    List.perm_middle.mem_iff
  exact filter_of_same_members hsame hfirst

/-- Filtering the file at `path` by several `expressions` means their conjunction.  The first of
them that cannot be read is the error, whatever the file is, and otherwise the error of loading
it; otherwise the elements are selected, in their order, that every expression accepts on its own.
The `others`, given in another order or more than once, select the same, and a further expression
`s` that can be read only takes away what it does not accept. -/
theorem filter_means_conjunction (source : Source) (desk : Desk) (path : String)
    (expressions : List String) :
    ((∃ error, FirstRefused expressions error) ∨ ∃ filters, Reads expressions filters) ∧
    (∀ error, FirstRefused expressions error →
      filter source desk path expressions = ⟨.error (.manifest error), desk⟩) ∧
    (∀ filters, Reads expressions filters →
      (∀ e, (load source desk path).result = .error e →
        filter source desk path expressions = ⟨.error e, desk⟩) ∧
      ∀ p, (load source desk path).result = .ok p →
        (filter source desk path expressions).result =
          .ok (p.elements.filter fun e => filters.all fun f => f.accepts e)) ∧
    ∀ selected, (filter source desk path expressions).result = .ok selected →
      (∀ others, (∀ s, s ∈ others ↔ s ∈ expressions) →
        (filter source desk path others).result = .ok selected) ∧
      ∀ front rest s f, expressions = front ++ rest → parse s = .ok f →
        (filter source desk path (front ++ s :: rest)).result = .ok (f.select selected) ∧
          (f.select selected).Sublist selected := by
  refine ⟨Filter.firstRefused_or_reads expressions, fun error => filter_of_firstRefused, ?_, ?_⟩
  · intro filters hreads
    constructor
    · intro e hfails
      rw [filter_of_reads hreads, load_of_error hfails]
      rfl
    · intro p hload
      rw [result_filter_of_reads hreads, hload]
      rfl
  · intro selected h
    refine ⟨fun others hsame => filter_of_same_members hsame h, ?_⟩
    rintro front rest s f rfl hparse
    exact ⟨filter_insert hparse h, List.filter_sublist⟩

/-- A track with a tag and a catalog are told apart by two expressions, in either order and with
one of them repeated; a third one takes the track away.  A file that is not there is missed only
if all expressions can be read. -/
theorem filter_means_conjunction_of_two_entries :
    let track : Element :=
      ⟨some "a", .track false false none, none, .ofList ["x"], none, none, none, none⟩
    let c : Contents := ⟨none, none, [track, (Element.ofBody .catalog).withId "b"]⟩
    let desk : Desk := .quiet ⟨[], [(["p"], .file (.text (c.encode false)))]⟩
    let source : Source := .sequential (.ofStem "x")
    (filter source desk "p" ["tag:x", "no-checksum"]).result = .ok [track] ∧
    (filter source desk "p" ["no-checksum", "tag:x", "no-checksum"]).result = .ok [track] ∧
    (filter source desk "p" ["tag:x", "video", "no-checksum"]).result = .ok [] ∧
    filter source desk "q" ["tag:x", "video"] = ⟨.error (.notFound "q"), desk⟩ ∧
    filter source desk "q" ["tag:x", "tag", "type:?"] =
      ⟨.error (.manifest (.invalidFilter "tag")), desk⟩ := by
  intro track c desk source
  have htag : parse "tag:x" = .ok (.tag "x") := by cbv
  have hchecksum : parse "no-checksum" = .ok .noChecksum := by cbv
  have hvideo : parse "video" = .ok .video := by cbv
  have hnone : parse "tag" = .error (.invalidFilter "tag") := by cbv
  have hidentified : ∀ e ∈ c.elements, ∃ key, e.id = some key := by
    simp [c, track]
  have hdistinct : c.elements.Pairwise fun a b => a.id ≠ b.id := by
    simp [c, track]
  have hfilled : ∀ e ∈ c.elements, e.Filled := by
    simp [c, track, Element.Filled, Element.withId, Element.ofBody]
  obtain ⟨p, hdecode, hcontents⟩ :=
    Contents.exists_decode source false hidentified hdistinct hfilled
  rw [Text.Content.ofBytes_toUTF8] at hdecode
  have hload : (load source desk "p").result = .ok p :=
    result_load_eq_ok_iff.mpr ⟨_, rfl, hdecode⟩
  have hselect : (filter source desk "p" ["tag:x", "no-checksum"]).result = .ok [track] := by
    have hreads : Reads ["tag:x", "no-checksum"] [.tag "x", .noChecksum] :=
      .cons htag (.cons hchecksum .nil)
    have helements : p.elements = c.elements := congrArg Contents.elements hcontents
    rw [((filter_means_conjunction source desk "p" _).2.2.1 _ hreads).2 p hload, helements]
    rfl
  obtain ⟨hsame, hmore⟩ :=
    (filter_means_conjunction source desk "p" ["tag:x", "no-checksum"]).2.2.2 _ hselect
  refine ⟨hselect, hsame _ ?_, ?_, ?_, ?_⟩
  · intro s
    simp [or_comm]
  · exact (hmore ["tag:x"] ["no-checksum"] "video" .video rfl hvideo).1
  · have hreads : Reads ["tag:x", "video"] [.tag "x", .video] := .cons htag (.cons hvideo .nil)
    exact ((filter_means_conjunction source desk "q" _).2.2.1 _ hreads).1 _ rfl
  · apply (filter_means_conjunction source desk "q" _).2.1
    refine ⟨["tag:x"], "tag", ["type:?"], rfl, ?_, hnone⟩
    exact List.forall_mem_singleton.mpr ⟨_, htag⟩

end Operations

end MediaManifest
