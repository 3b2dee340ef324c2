import MediaManifest.Proofs.Codec.Filled
import MediaManifest.Proofs.Codec.RoundTrip
import MediaManifest.Proofs.FileTree.Writing
import MediaManifest.Operations

/-!
# What operations do to files

An operation notes in the log what it does, and a merge stores one file at its
very end (`Stored`).  Whatever fails before leaves all files but the log as they
were (`Touches`).  What is stored can be loaded again, since what a merge makes
of two loaded packages meets the schema.
-/

namespace MediaManifest

open FileTree (DiffersAt)
open Log (Record)

namespace Desk

variable {d d' d'' : Desk} {paths more : List (List String)}

/-- The path of names of the file that the log of `d` is kept in, if it is kept in one. -/
def logPaths (d : Desk) : List (List String) :=
  match d.sink with
  | .file names => [names]
  | .errors | .nowhere => []

/-- From `d` to `d'` the log goes on where it was, and apart from its file at most the files at
the given paths of names differ. -/
structure Touches (paths : List (List String)) (d d' : Desk) : Prop where
  sink : d'.sink = d.sink
  files : DiffersAt (paths ++ d.logPaths) d.files d'.files

theorem Touches.logPaths_eq (h : d.Touches paths d') : d'.logPaths = d.logPaths := by
  rw [logPaths, logPaths, h.sink]

theorem Touches.refl (paths : List (List String)) (d : Desk) : d.Touches paths d :=
  ⟨rfl, .refl _ _⟩

theorem Touches.trans (hfirst : d.Touches paths d') (hrest : d'.Touches paths d'') :
    d.Touches paths d'' := by
  refine ⟨hrest.sink.trans hfirst.sink, hfirst.files.trans ?_⟩
  rw [← hfirst.logPaths_eq]
  exact hrest.files

theorem Touches.mono (h : d.Touches paths d') (hsub : paths ⊆ more) : d.Touches more d' :=
  ⟨h.sink, h.files.mono (List.append_subset.mpr
    ⟨List.subset_append_of_subset_left _ hsub, List.subset_append_right _ _⟩)⟩

theorem touches_note (d : Desk) (r : Record) : d.Touches [] (d.note r) := by
  unfold note
  split
  · split
    · exact .refl [] d
    · exact ⟨rfl, .refl _ _⟩
    · next names hsink =>
      refine ⟨rfl, ?_⟩
      rw [logPaths, hsink]
      exact FileTree.differsAt_writeAt d.files names d.logged r.line
  · exact .refl [] d

theorem touches_noteAll (d : Desk) (rs : List Record) : d.Touches [] (d.noteAll rs) := by
  induction rs generalizing d with
  | nil => exact .refl [] d
  | cons r rs ih => exact (touches_note d r).trans (ih (d.note r))

end Desk

namespace Operations

variable {settings : Settings} {source : Source} {desk after : Desk}
  {path dest src : String} {output : Option String} {mode : Mode} {p q merged : Package Source}
  {report : MergeReport} {names : List String} {paths : List (List String)}

/-! ## Loading -/

theorem touches_load (source : Source) (desk : Desk) (path : String) :
    desk.Touches [] (load source desk path).desk := by
  unfold load
  split
  · exact .refl [] desk
  · exact Desk.touches_note desk _

theorem result_load (source : Source) (desk : Desk) (path : String) :
    (load source desk path).result = loadPackage source desk.files path := by
  unfold load
  split
  · next h => exact h.symm
  · next h => exact h.symm

theorem result_load_eq_ok_iff :
    (load source desk path).result = .ok p ↔
      ∃ content, desk.files.read path = .ok content ∧ (Codec.decode source content).1 = .ok p := by
  rw [result_load, loadPackage]
  constructor
  · intro h
    split at h
    · split at h
      · cases h
      · next content hread => exact ⟨content, hread, Except.mapError_eq_ok_iff.mp h⟩
    · cases h
  · rintro ⟨content, hread, hdecode⟩
    rw [if_pos (FileTree.has_of_read hread), hread]
    exact Except.mapError_eq_ok_iff.mpr hdecode

/-- The package `p` is loaded as before from a `path` that leads to none of the files that differ.
-/
theorem result_load_of_touches (hload : (load source desk path).result = .ok p)
    (htouches : desk.Touches paths after)
    (hapart : ∀ names ∈ paths ++ desk.logPaths, ¬ desk.files.LeadsTo path names) :
    (load source after path).result = .ok p := by
  obtain ⟨content, hread, hdecode⟩ := result_load_eq_ok_iff.mp hload
  exact result_load_eq_ok_iff.mpr
    ⟨content, FileTree.read_of_differsAt hread hapart htouches.files, hdecode⟩

/-- A log that is not kept in the file at `path` changes nothing for it while another file is
loaded. -/
theorem result_load_after (first : Source) (other : String)
    (hload : (load source desk path).result = .ok p)
    (hapart : ∀ log ∈ desk.logPaths, ¬ desk.files.LeadsTo path log) :
    (load source (load first desk other).desk path).result = .ok p :=
  result_load_of_touches hload (touches_load first desk other) hapart

/-- A file that holds what is written of `c` is loaded by adding the elements of `c`. -/
theorem exists_load_encode {c : Contents} {indented : Bool} {r : Roster Source}
    (hread : desk.files.read path = .ok (.text (c.encode indented)))
    (hfilled : ∀ e ∈ c.elements, e.Filled)
    (hadd : (c.start source).addAll c.elements = (.ok (), r)) :
    ∃ p, (load source desk path).result = .ok p ∧ p.roster = r := by
  obtain ⟨p, hdecode, hroster⟩ := c.exists_decode_of_addAll source indented hfilled hadd
  rw [Text.Content.ofBytes_toUTF8] at hdecode
  exact ⟨p, result_load_eq_ok_iff.mpr ⟨_, hread, hdecode⟩, hroster⟩

/-- A package `p` that is loaded with a source of the `settings` can be written. -/
theorem filled_of_load {random : Random}
    (hload : (load (settings.source random) desk path).result = .ok p) :
    p.slots.Coherent ∧ Generator.Filling p.generator ∧ ∀ e ∈ p.elements, e.Filled := by
  obtain ⟨content, -, hdecode⟩ := result_load_eq_ok_iff.mp hload
  have hfilling := settings.filling_source random
  have hcoherent := (Package.Reachable.decode hdecode).coherent
  exact ⟨hcoherent, hfilling.leads (Codec.generator_of_decode hdecode),
    Codec.filled_of_decode hfilling hdecode⟩

/-! ## Saving -/

/-- A package `p` that is saved replaces what stands at its target `names`, and nothing else. -/
theorem save_of_target (settings : Settings) (p : Package Source)
    (htarget : desk.files.target path = .ok names) :
    (save settings desk path p).result = .ok () ∧
      desk.Touches [names] (save settings desk path p).desk ∧
      (names ∉ desk.logPaths → (save settings desk path p).desk.files.node? names =
        some (.file (.text (render settings p)))) := by
  have hwrite : desk.files.write path (.text (render settings p)) =
      .ok (desk.files.put names (.file (.text (render settings p)))) :=
    FileTree.write_eq_ok_iff.mpr ⟨names, htarget, rfl⟩
  let stored : Desk :=
    { desk with files := desk.files.put names (.file (.text (render settings p))) }
  have hsave : save settings desk path p = ⟨.ok (), stored.note (savedRecord path p)⟩ := by
    rw [save, hwrite]
  have hstored : desk.Touches [names] stored :=
    ⟨rfl, (FileTree.differsAt_write htarget _).mono (List.subset_append_left _ _)⟩
  have hnoted := Desk.touches_note stored (savedRecord path p)
  rw [hsave]
  refine ⟨rfl, hstored.trans (hnoted.mono (List.nil_subset _)), ?_⟩
  intro hlog
  have hfree := (FileTree.target_eq_ok_iff.mp htarget).2.free
  have hsame := hnoted.files.elsewhere names hlog
  exact hsame.trans (FileTree.node?_put_self hfree _)

theorem save_of_problem {problem : FileTree.Problem}
    (htarget : desk.files.target path = .error problem) :
    save settings desk path p = ⟨.error (.io problem.message), desk⟩ := by
  have hwrite : desk.files.write path (.text (render settings p)) = .error problem := by
    rw [FileTree.write, htarget]
    rfl
  rw [save, hwrite]

/-! ## Checking and filtering -/

theorem touches_andThen {α β : Type} {ran : Ran α} {next : α → Desk → Ran β}
    (hran : desk.Touches [] ran.desk)
    (hnext : ∀ a, ran.desk.Touches [] (next a ran.desk).desk) :
    desk.Touches [] (ran.andThen next).desk := by
  unfold Ran.andThen
  split
  · next a _ => exact hran.trans (hnext a)
  · exact hran

theorem touches_check (source : Source) (desk : Desk) (path : String) :
    desk.Touches [] (check source desk path).desk := by
  refine touches_andThen (touches_load source desk path) fun p => ?_
  split
  · exact .refl [] _
  · exact Desk.touches_noteAll _ _

theorem touches_filter (source : Source) (desk : Desk) (path : String)
    (expressions : List String) :
    desk.Touches [] (filter source desk path expressions).desk := by
  unfold filter
  split
  · exact .refl [] desk
  · exact touches_andThen (touches_load source desk path) fun p => Desk.touches_note _ _

/-! ## Merging -/

/-- The desk as a merge has loaded `p` and `q` and noted that it merges them. -/
def middle (sources : Sources) (desk : Desk) (dest src : String) (p q : Package Source)
    (mode : Mode) : Desk :=
  (load sources.src (load sources.dest desk dest).desk src).desk.note (mergingRecord p q mode)

theorem touches_middle (sources : Sources) (desk : Desk) (dest src : String)
    (p q : Package Source) (mode : Mode) :
    desk.Touches [] (middle sources desk dest src p q mode) :=
  ((touches_load sources.dest desk dest).trans (touches_load sources.src _ src)).trans
    (Desk.touches_note _ _)

/-- A merge of files goes through the merge of the packages `p` and `q`, and saves at the very
end. -/
theorem merge_of_loads {sources : Sources}
    (hdest : (load sources.dest desk dest).result = .ok p)
    (hsrc : (load sources.src (load sources.dest desk dest).desk src).result = .ok q) :
    merge settings sources desk dest src output mode =
      match p.merge mode q with
      | (.error e, _) => ⟨.error (.manifest e), middle sources desk dest src p q mode⟩
      | (.ok report, merged) =>
        (save settings
          ((middle sources desk dest src p q mode).noteAll (mergeRecords p q report))
          (output.getD dest) merged).map fun _ => report := by
  simp only [merge, Ran.andThen, hdest, hsrc]
  rfl

/-- What a merge of files that gives a `report` has done: it merged the packages `p` and `q` as
they were loaded, and stored the result `merged` at the target `names`. -/
structure Stored (settings : Settings) (sources : Sources) (desk : Desk)
    (dest src path : String) (mode : Mode) (report : MergeReport) (after : Desk)
    (p q merged : Package Source) (names : List String) : Prop where
  loads : (load sources.dest desk dest).result = .ok p ∧
    (load sources.src (load sources.dest desk dest).desk src).result = .ok q
  merge : p.merge mode q = (.ok report, merged)
  target : desk.files.target path = .ok names
  touches : desk.Touches [names] after
  content : names ∉ desk.logPaths →
    after.files.node? names = some (.file (.text (render settings merged)))

/-- A merge whose packages `p` and `q` are merged stores the result `merged` if the target can be
written. -/
theorem stored_of_merge (sources : Sources)
    (hdest : (load sources.dest desk dest).result = .ok p)
    (hsrc : (load sources.src (load sources.dest desk dest).desk src).result = .ok q)
    (hmerge : p.merge mode q = (.ok report, merged))
    (htarget : desk.files.target (output.getD dest) = .ok names) :
    (merge settings sources desk dest src output mode).result = .ok report ∧
      Stored settings sources desk dest src (output.getD dest) mode report
        (merge settings sources desk dest src output mode).desk p q merged names := by
  let noted := (middle sources desk dest src p q mode).noteAll (mergeRecords p q report)
  have hnoted : desk.Touches [] noted :=
    (touches_middle sources desk dest src p q mode).trans (Desk.touches_noteAll _ _)
  have hran : merge settings sources desk dest src output mode =
      (save settings noted (output.getD dest) merged).map fun _ => report := by
    rw [merge_of_loads hdest hsrc, hmerge]
  obtain ⟨hresult, htouches, hcontent⟩ :=
    save_of_target settings merged (FileTree.target_of_differsAt htarget hnoted.files)
  rw [hran]
  refine ⟨congrArg (Except.map fun _ => report) hresult, ⟨hdest, hsrc⟩, hmerge, htarget, ?_, ?_⟩
  · exact (hnoted.mono (List.nil_subset _)).trans htouches
  · intro hlog
    rw [← hnoted.logPaths_eq] at hlog
    exact hcontent hlog

/-- A merge of files fails and leaves every file but the log as it was, or it stores what the
merge of the loaded packages gives. -/
theorem merge_cases (settings : Settings) (sources : Sources) (desk : Desk)
    (dest src : String) (output : Option String) (mode : Mode) :
    (∃ e, (merge settings sources desk dest src output mode).result = .error e ∧
        desk.Touches [] (merge settings sources desk dest src output mode).desk) ∨
      ∃ report p q merged names,
        (merge settings sources desk dest src output mode).result = .ok report ∧
          Stored settings sources desk dest src (output.getD dest) mode report
            (merge settings sources desk dest src output mode).desk p q merged names := by
  cases hdest : (load sources.dest desk dest).result with
  | error e =>
      refine .inl ⟨e, ?_⟩
      simp only [merge, Ran.andThen, hdest]
      exact ⟨trivial, touches_load sources.dest desk dest⟩
  | ok p =>
      cases hsrc : (load sources.src (load sources.dest desk dest).desk src).result with
      | error e =>
          refine .inl ⟨e, ?_⟩
          simp only [merge, Ran.andThen, hdest, hsrc]
          exact ⟨trivial, (touches_load sources.dest desk dest).trans (touches_load _ _ src)⟩
      | ok q =>
          have hmiddle := touches_middle sources desk dest src p q mode
          rcases hmerge : p.merge mode q with ⟨answer, merged⟩
          cases answer with
          | error e =>
              refine .inl ⟨.manifest e, ?_⟩
              rw [merge_of_loads hdest hsrc, hmerge]
              exact ⟨rfl, hmiddle⟩
          | ok report =>
              have hnoted := hmiddle.trans (Desk.touches_noteAll _ (mergeRecords p q report))
              cases htarget : desk.files.target (output.getD dest) with
              | error problem =>
                  obtain ⟨other, hother⟩ :=
                    FileTree.exists_problem_of_differsAt htarget hnoted.files
                  refine .inl ⟨.io other.message, ?_⟩
                  rw [merge_of_loads hdest hsrc, hmerge]
                  simp only [save_of_problem hother]
                  exact ⟨rfl, hnoted⟩
              | ok names =>
                  exact .inr ⟨report, p, q, merged, names,
                    stored_of_merge sources hdest hsrc hmerge htarget⟩

theorem Stored.read {sources : Sources}
    (h : Stored settings sources desk dest src path mode report after p q merged names)
    (hlog : names ∉ desk.logPaths) {other : String} (hleads : desk.files.LeadsTo other names) :
    after.files.read other = .ok (.text (render settings merged)) :=
  FileTree.read_eq_ok_iff.mpr ⟨names, hleads.of_differsAt h.touches.files, h.content hlog⟩

variable {u v : Random}

/-- The package `merged` that was stored can be written. -/
theorem Stored.filled
    (h : Stored settings ⟨settings.source u, settings.source v⟩ desk dest src path mode report
      after p q merged names) :
    merged.slots.Coherent ∧ ∀ e ∈ merged.elements, e.Filled := by
  obtain ⟨hcoherent, hfilling, hp⟩ := filled_of_load h.loads.1
  obtain ⟨-, -, hq⟩ := filled_of_load h.loads.2
  exact Package.filled_of_merge hcoherent hfilling hp hq h.merge

/-- The package `merged` that was stored can be loaded, under every path `other` that leads to it,
and holds what was merged. -/
theorem Stored.reload
    (h : Stored settings ⟨settings.source u, settings.source v⟩ desk dest src path mode report
      after p q merged names) (hlog : names ∉ desk.logPaths) (random : Random) {other : String}
    (hleads : desk.files.LeadsTo other names) :
    ∃ r, (load (settings.source random) after other).result = .ok r ∧
      r.contents = merged.contents := by
  obtain ⟨hmerged, hfilled⟩ := h.filled
  obtain ⟨r, hdecode, hcontents⟩ := Contents.exists_decode (c := merged.contents)
    (settings.source random) settings.pretty hmerged.identified hmerged.pairwise_ne hfilled
  rw [Text.Content.ofBytes_toUTF8] at hdecode
  exact ⟨r, result_load_eq_ok_iff.mpr ⟨_, h.read hlog hleads, hdecode⟩, hcontents⟩

end Operations

end MediaManifest
