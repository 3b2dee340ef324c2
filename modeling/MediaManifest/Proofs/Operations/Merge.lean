import Mathlib
import MediaManifest.Operations
import MediaManifest.Proofs.Codec.Decoding
import MediaManifest.Proofs.FileTree.Writing
import MediaManifest.Proofs.Package.Merging

/-!
# Merging files

A merge of files loads both packages with sources of their own.  The elements
that lack an identifier in their document get one while it is loaded, without
regard to the other document.  If both documents write different identifiers,
the merge adds all elements exactly if the invented identifiers keep out of the
way of each other and of those written in the other document (`Apart`).
-/

namespace MediaManifest.Operations

open Codec (rawElements writtenIds)
open Generator (draws reserveAll)

/-- The file at `path` holds a `document` that is loaded as the package `p`. -/
structure Loads (source : Source) (desk : Desk) (path : String) (document : Json.Document)
    (p : Package Source) : Prop where
  present : desk.files.has path = true
  readable : ∃ content, desk.files.read path = .ok content ∧
    Codec.readDocument content = .ok document
  decodable : (Codec.decodeValue source document).1 = .ok p

/-- The desk as a merge of the files `dest` and `src` saves the merged package. -/
def beforeSaving (desk : Desk) (dest src : String) (p q : Package Source) (mode : Mode)
    (report : MergeReport) : Desk :=
  (((desk.note (loadedRecord dest p)).note (loadedRecord src q)).note
    (mergingRecord p q mode)).noteAll (mergeRecords p q report)

/-- What loading a document invents as the identifier of an entry that lacks one, if `i`
entries before lack one too: the next number after the highest that is written and those
invented, or a random one. -/
def inventedId (settings : Settings) (random : Random) (document : Json.Document) (i : Nat) :
    String :=
  match settings.idStem with
  | some stem =>
    Sequential.identifier stem
      ((Sequential.startingAfter stem (writtenIds (rawElements document))).issued + i + 1)
  | none => random.texts (random.drawn + i)

/-- The identifiers that loading a `document` invents, one for each entry that lacks one. -/
def inventedIds (settings : Settings) (random : Random) (document : Json.Document) : List String :=
  (List.range (Codec.missing (rawElements document))).map (inventedId settings random document)

/-- What is invented for one of the documents `target` and `other` is neither invented for the
other nor written in it. -/
structure Apart (settings : Settings) (u v : Random) (target other : Json.Document) : Prop where
  invented : ∀ key ∈ inventedIds settings u target, key ∉ inventedIds settings v other
  written : ∀ key ∈ inventedIds settings u target, key ∉ writtenIds (rawElements other)
  later : ∀ key ∈ inventedIds settings v other, key ∉ writtenIds (rawElements target)

variable {settings : Settings} {source : Source} {desk : Desk} {path : String}
  {document : Json.Document} {p q : Package Source}

theorem Loads.load_eq (h : Loads source desk path document p) :
    load source desk path = ⟨.ok p, desk.note (loadedRecord path p)⟩ := by
  obtain ⟨content, hread, hdocument⟩ := h.readable
  have hdecode : (Codec.decode source content).1 = .ok p := by
    rw [Codec.decode, hdocument]
    exact h.decodable
  have hload : loadPackage source desk.files path = .ok p := by
    rw [loadPackage, if_pos h.present, hread]
    simp only [hdecode]
    rfl
  rw [load, hload]

theorem Loads.coherent (h : Loads source desk path document p) : p.slots.Coherent := by
  obtain ⟨_, _, _, hcoherent⟩ := Codec.exists_roster_of_decodeValue h.decodable
  exact hcoherent

theorem draws_source (settings : Settings) (random : Random) (document : Json.Document) :
    draws (reserveAll (writtenIds (rawElements document)) (settings.source random))
      (Codec.missing (rawElements document)) = inventedIds settings random document := by
  unfold Settings.source inventedIds inventedId
  cases settings.idStem with
  | some stem =>
      simp only [Source.reserveAll_sequential, Source.draws_sequential, Sequential.draws_eq,
        Sequential.stem_reserveAll]
      rfl
  | none =>
      simp only [Source.reserveAll_random, Source.draws_random, Random.draws_eq]

/-- A package `p` that is loaded from a `document` has the written and the invented identifiers. -/
theorem Loads.mem_ids_iff {random : Random}
    (h : Loads (settings.source random) desk path document p) (key : String) :
    key ∈ p.ids ↔
      key ∈ writtenIds (rawElements document) ∨ key ∈ inventedIds settings random document := by
  rw [Codec.mem_ids_of_decodeValue Source.settles_covers h.decodable, draws_source]

/-- A file whose `document` makes the roster `r` is loaded as a package with that roster. -/
theorem exists_loads {content : Text.Content} {es : List Element} {r : Roster Source}
    (hread : desk.files.read path = .ok content)
    (hvalue : Json.Value.ofContent content = .ok document.value)
    (hvalid : Codec.validate document = .ok ())
    (hes : Codec.Decodes (rawElements document) es)
    (hadd : (Codec.opening source document.value).roster.addAll es = (.ok (), r)) :
    ∃ p, Loads source desk path document p ∧ p.roster = r := by
  obtain ⟨p, hdecode, hroster⟩ := Codec.exists_decodeValue hvalid hes hadd
  have hdocument := Codec.readDocument_eq_ok_iff.mpr hvalue
  exact ⟨p, ⟨FileTree.has_of_read hread, ⟨content, hread, hdocument⟩, hdecode⟩, hroster⟩

section Merge

variable {first second : Source} {dest src : String} {output : Option String} {mode : Mode}
  {target other : Json.Document}

theorem merge_of_error {error : Error} {after : Package Source}
    (hdest : Loads first desk dest target p)
    (hsrc : Loads second (desk.note (loadedRecord dest p)) src other q)
    (hmerge : p.merge mode q = (.error error, after)) :
    (merge settings ⟨first, second⟩ desk dest src output mode).result =
      .error (.manifest error) := by
  simp only [merge, Ran.andThen, hdest.load_eq, hsrc.load_eq, hmerge]

theorem merge_of_ok {report : MergeReport} {merged : Package Source}
    (hdest : Loads first desk dest target p)
    (hsrc : Loads second (desk.note (loadedRecord dest p)) src other q)
    (hmerge : p.merge mode q = (.ok report, merged)) :
    merge settings ⟨first, second⟩ desk dest src output mode =
      (save settings (beforeSaving desk dest src p q mode report) (output.getD dest)
        merged).map fun _ => report := by
  simp only [merge, Ran.andThen, hdest.load_eq, hsrc.load_eq, hmerge]
  rfl

/-- Saving fails only with an error of the files. -/
theorem result_map_save {α : Type} (settings : Settings) (desk : Desk) (path : String)
    (p : Package Source) (a : α) :
    ((save settings desk path p).map fun _ => a).result = .ok a ∨
      ∃ message, ((save settings desk path p).map fun _ => a).result = .error (.io message) := by
  unfold save
  cases desk.files.write path (.text (render settings p)) with
  | error problem => exact Or.inr ⟨problem.message, rfl⟩
  | ok files => exact Or.inl rfl

/-- The packages `p` and `q`, whose documents write different identifiers, share none exactly if
the documents are `Apart`. -/
theorem disjoint_ids_iff {u v : Random} {later : Desk}
    (hdest : Loads (settings.source u) desk dest target p)
    (hsrc : Loads (settings.source v) later src other q)
    (hwritten : ∀ key ∈ writtenIds (rawElements target),
      key ∉ writtenIds (rawElements other)) :
    (∀ key ∈ p.ids, key ∉ q.ids) ↔ Apart settings u v target other := by
  simp only [hdest.mem_ids_iff, hsrc.mem_ids_iff]
  constructor
  · intro hdisjoint
    constructor
    · intro key hkey hother
      exact hdisjoint key (Or.inr hkey) (Or.inr hother)
    · intro key hkey hother
      exact hdisjoint key (Or.inr hkey) (Or.inl hother)
    · intro key hother hkey
      exact hdisjoint key (Or.inl hkey) (Or.inr hother)
  · intro hapart key hkey hother
    rcases hkey with hkey | hkey
    · rcases hother with hother | hother
      · exact hwritten key hkey hother
      · exact hapart.later key hother hkey
    · rcases hother with hother | hother
      · exact hapart.written key hkey hother
      · exact hapart.invented key hkey hother

/-- A merge whose documents are `Apart` saves the elements of the target `p` followed by those of
the source `q`. -/
theorem merge_of_apart {u v : Random}
    (hdest : Loads (settings.source u) desk dest target p)
    (hsrc : Loads (settings.source v) (desk.note (loadedRecord dest p)) src other q)
    (hwritten : ∀ key ∈ writtenIds (rawElements target),
      key ∉ writtenIds (rawElements other))
    (hapart : Apart settings u v target other) :
    ∃ (report : MergeReport) (merged : Package Source),
      report = ⟨mode, q.ids.map .added⟩ ∧
      merge settings ⟨settings.source u, settings.source v⟩ desk dest src output mode =
        (save settings (beforeSaving desk dest src p q mode report) (output.getD dest)
          merged).map (fun _ => report) ∧
      merged.elements = p.elements ++ q.elements ∧
      merged.size = (rawElements target).length + (rawElements other).length := by
  have hdisjoint := (disjoint_ids_iff hdest hsrc hwritten).mpr hapart
  obtain ⟨merged, hmerge, helements, hcoherent⟩ :=
    Package.merge_of_disjoint hdest.coherent hsrc.coherent mode hdisjoint
  refine ⟨_, merged, rfl, merge_of_ok hdest hsrc hmerge, helements, ?_⟩
  rw [Package.size_eq hcoherent, helements, List.length_append,
    Codec.length_elements_of_decodeValue hdest.decodable,
    Codec.length_elements_of_decodeValue hsrc.decodable]

/-- The documents of a merge that only adds are `Apart`. -/
theorem apart_of_added {u v : Random} {report : MergeReport}
    (hdest : Loads (settings.source u) desk dest target p)
    (hsrc : Loads (settings.source v) (desk.note (loadedRecord dest p)) src other q)
    (hwritten : ∀ key ∈ writtenIds (rawElements target),
      key ∉ writtenIds (rawElements other))
    (hresult : (merge settings ⟨settings.source u, settings.source v⟩ desk dest src output
      mode).result = .ok report)
    (hadded : ∀ outcome ∈ report.outcomes, ∃ key, outcome = .added key) :
    Apart settings u v target other := by
  apply (disjoint_ids_iff hdest hsrc hwritten).mp
  rcases hmerge : p.merge mode q with ⟨answer, merged⟩
  cases answer with
  | error error =>
      rw [merge_of_error hdest hsrc hmerge] at hresult
      cases hresult
  | ok done =>
      rw [merge_of_ok hdest hsrc hmerge] at hresult
      rcases result_map_save settings _ _ merged done with hsaved | ⟨message, hfailed⟩
      · obtain rfl : report = done := Except.ok.inj (hresult.symm.trans hsaved)
        exact Package.disjoint_of_added hdest.coherent hsrc.coherent hmerge hadded
      · rw [hfailed] at hresult
        cases hresult

/-- At a desk without a log, files `dest` and `src` that are loaded and a target that can be
written leave no room for an error of the files. -/
theorem result_ne_io_of_quiet {files : FileTree} {names : List String}
    (hdest : Loads first (.quiet files) dest target p)
    (hsrc : Loads second (.quiet files) src other q)
    (htarget : files.target (output.getD dest) = .ok names) (message : String) :
    (merge settings ⟨first, second⟩ (.quiet files) dest src output mode).result ≠
      .error (.io message) := by
  intro hresult
  rcases hmerge : p.merge mode q with ⟨answer, merged⟩
  cases answer with
  | error error =>
      rw [merge_of_error hdest hsrc hmerge] at hresult
      cases hresult
  | ok report =>
      have hwrite : files.write (output.getD dest) (.text (render settings merged)) =
          .ok (files.put names (.file (.text (render settings merged)))) := by
        rw [FileTree.write, htarget]
        rfl
      have hbefore : beforeSaving (.quiet files) dest src p q mode report = .quiet files := by
        simp [beforeSaving]
      rw [merge_of_ok hdest hsrc hmerge, hbefore, save, Desk.files_quiet, hwrite] at hresult
      cases hresult

/-- If the documents `target` and `other` write different identifiers, merging their files `dest`
and `src` adds every element of `other` in every `mode` exactly if the documents are `Apart`, that
is, if no identifier invented while one of them is loaded is written in the other or invented for
it.  The package `merged` that is saved then has an element for each entry of both documents. -/
theorem merge_adds_all_iff {u v : Random} {ran : Ran MergeReport}
    (hdest : Loads (settings.source u) desk dest target p)
    (hsrc : Loads (settings.source v) (desk.note (loadedRecord dest p)) src other q)
    (hwritten : ∀ key ∈ writtenIds (rawElements target),
      key ∉ writtenIds (rawElements other))
    (hran : merge settings ⟨settings.source u, settings.source v⟩ desk dest src output mode =
      ran)
    (hio : ∀ message, ran.result ≠ .error (.io message)) :
    ((∃ report, ran.result = .ok report ∧
        ∀ outcome ∈ report.outcomes, ∃ key, outcome = .added key) ↔
      Apart settings u v target other) ∧
    (Apart settings u v target other →
      ∃ (report : MergeReport) (merged : Package Source),
        report = ⟨mode, q.ids.map .added⟩ ∧
        ran.result = .ok report ∧
        ran = (save settings (beforeSaving desk dest src p q mode report) (output.getD dest)
          merged).map (fun _ => report) ∧
        merged.elements = p.elements ++ q.elements ∧
        merged.size = (rawElements target).length + (rawElements other).length) := by
  subst hran
  have hok : ∀ {report : MergeReport} {merged : Package Source},
      merge settings ⟨settings.source u, settings.source v⟩ desk dest src output mode =
        (save settings (beforeSaving desk dest src p q mode report) (output.getD dest)
          merged).map (fun _ => report) →
      (merge settings ⟨settings.source u, settings.source v⟩ desk dest src output
        mode).result = .ok report := by
    intro report merged hsave
    rw [hsave] at hio ⊢
    rcases result_map_save settings _ _ merged report with hsaved | ⟨message, hfailed⟩
    · exact hsaved
    · exact absurd hfailed (hio message)
  refine ⟨⟨?_, ?_⟩, ?_⟩
  · rintro ⟨report, hresult, hadded⟩
    exact apart_of_added hdest hsrc hwritten hresult hadded
  · intro hapart
    obtain ⟨report, merged, hreport, hsave, -, -⟩ := merge_of_apart hdest hsrc hwritten hapart
    refine ⟨report, hok hsave, ?_⟩
    rw [hreport]
    intro outcome houtcome
    obtain ⟨key, -, rfl⟩ := List.mem_map.mp houtcome
    exact ⟨key, rfl⟩
  · intro hapart
    obtain ⟨report, merged, hreport, hsave, helements, hsize⟩ :=
      merge_of_apart hdest hsrc hwritten hapart
    exact ⟨report, merged, hreport, hok hsave, hsave, helements, hsize⟩

/-- Each of three files holds an entry without identifier.  Those in the first two get different
numbers, and those in the first and the third the same. -/
theorem merge_adds_all_iff_of_numbered_entries :
    let settings := { Settings.standard with idStem := some "x" }
    let u := Random.ofBits id
    let d := "\x7b\"elements\":[\x7b\"type\":\"track\"\x7d]\x7d"
    let s :=
      "\x7b\"elements\":[\x7b\"id\":\"x-2\",\"type\":\"track\"\x7d,\x7b\"type\":\"track\"\x7d]\x7d"
    let files : FileTree := ⟨[],
      [(["d"], .file (.text d)), (["s"], .file (.text s)), (["t"], .file (.text d))]⟩
    let run := fun src =>
      merge settings ⟨settings.source u, settings.source u⟩ (.quiet files) "d" src none .skip
    (∃ report, (run "s").result = .ok report ∧
      ∀ outcome ∈ report.outcomes, ∃ key, outcome = .added key) ∧
    ¬ ∃ report, (run "t").result = .ok report ∧
      ∀ outcome ∈ report.outcomes, ∃ key, outcome = .added key := by
  intro settings u d s files run
  let e := Element.ofBody (.track false false none)
  let track : Json.Value := .object [("type", .text "track")]
  let numbered : Json.Value := .object [("id", .text "x-2"), ("type", .text "track")]
  let single : Json.Document := ⟨.object [("elements", .list [track])], by decide⟩
  let pair : Json.Document := ⟨.object [("elements", .list [numbered, track])], by decide⟩
  have hsingle : ∀ path, files.read path = .ok (.text d) →
      ∃ p, Loads (settings.source u) (.quiet files) path single p ∧
        p.roster = ⟨none, none, [e.withId "x-1"], .sequential ⟨"x", 1⟩⟩ := by
    intro path hread
    have hes : Codec.Decodes [track] [e] := .cons (by cbv) .nil
    exact exists_loads hread (by cbv) (by cbv) hes (by cbv)
  have hpair : ∃ q, Loads (settings.source u) (.quiet files) "s" pair q ∧
      q.roster =
        ⟨none, none, [e.withId "x-2", e.withId "x-3"], .sequential ⟨"x", 3⟩⟩ := by
    have hes : Codec.Decodes [numbered, track] [e.withId "x-2", e] :=
      .cons (by cbv) (.cons (by cbv) .nil)
    exact exists_loads rfl (by cbv) (by cbv) hes (by cbv)
  obtain ⟨p, hd, -⟩ := hsingle "d" rfl
  obtain ⟨q, hs, -⟩ := hpair
  obtain ⟨q', ht, -⟩ := hsingle "t" rfl
  have htarget : files.target ((none : Option String).getD "d") = .ok ["d"] := rfl
  have hran : ∀ src, merge settings ⟨settings.source u, settings.source u⟩ (.quiet files) "d" src
      none .skip = run src := fun _ => rfl
  constructor
  · have hio : ∀ message, (run "s").result ≠ .error (.io message) :=
      result_ne_io_of_quiet hd hs htarget
    apply (merge_adds_all_iff hd hs (by decide) (hran "s") hio).1.mpr
    exact ⟨by decide, by decide, by decide⟩
  · intro hadded
    have hio : ∀ message, (run "t").result ≠ .error (.io message) :=
      result_ne_io_of_quiet hd ht htarget
    have hapart := (merge_adds_all_iff hd ht (by decide) (hran "t") hio).1.mp hadded
    exact hapart.invented "x-1" (by decide) (by decide)

end Merge

end MediaManifest.Operations
