import MediaManifest.Proofs.Operations.Files
import MediaManifest.Proofs.Operations.Merge
import MediaManifest.Proofs.Package.Embedding
import MediaManifest.Proofs.Package.Memory

/-!
# Merging the same file again and again

With numbered identifiers a merge that renames needs nothing but numbers: it
adds every element of the source.  What it stores can be loaded again, so the
same source can be merged into it once more (`Round.next`).  Every round moves
the numbering by at most one number for each element of the source.
-/

namespace MediaManifest.Operations

open Element (clashes relabelAll)
open Generator (Leads reserveAll)

variable {settings : Settings} {stem : String} {u v : Random} {desk later : Desk}
  {dest src path : String} {p q p' q' merged : Package Source} {names : List String} {k b : Nat}

/-! ## Numbered packages -/

/-- If `p` draws numbers, they last for all elements of `q` that meet an identifier of `p`. -/
def NumbersLast (p q : Package Source) : Prop :=
  ∀ g, p.generator = .sequential g →
    (reserveAll q.ids g).HasRoom (q.elements.countP (clashes p.ids))

/-- A package `p` that is loaded with a `stem` numbers its identifiers past all that it has. -/
theorem exists_numbering (hstem : settings.idStem = some stem)
    (hload : (load (settings.source u) desk path).result = .ok p) :
    ∃ g, p.generator = .sequential g ∧ g.stem = stem ∧ ∀ key ∈ p.ids, g.Covers key := by
  obtain ⟨content, -, hdecode⟩ := result_load_eq_ok_iff.mp hload
  have hleads := Codec.generator_of_decode hdecode
  have hsource : settings.source u = .sequential (.ofStem stem) := by
    rw [Settings.source, hstem]
  rw [hsource] at hleads
  obtain ⟨g, hg, hsame⟩ := Source.exists_sequential_of_leads hleads
  refine ⟨g, hg, hsame, ?_⟩
  intro key hkey
  have hknown := (Package.Reachable.decode hdecode).known Source.settles_covers.toRemembers
  have hcovers := hknown.of_mem_ids hkey
  have hgenerator : p.roster.generator = .sequential g := hg
  rw [hgenerator] at hcovers
  exact hcovers

/-- Loaded packages `p` and `q` are merged if the numbers last, and no element is lost. -/
theorem exists_merge_of_loads (hstem : settings.idStem = some stem)
    (hdest : (load (settings.source u) desk dest).result = .ok p)
    (hsrc : (load (settings.source v) later src).result = .ok q) (hlast : NumbersLast p q) :
    ∃ report merged, p.merge .merge q = (.ok report, merged) ∧
      merged.elements.length = p.size + q.size := by
  obtain ⟨g, hg, -, hcovers⟩ := exists_numbering hstem hdest
  obtain ⟨hp, -, -⟩ := filled_of_load hdest
  obtain ⟨hq, -, -⟩ := filled_of_load hsrc
  obtain ⟨outcomes, merged, hmerge, helements, -⟩ :=
    Package.merge_of_sequential hp hq hg hcovers (hlast g hg)
  have hlength := (Element.forall₂_relabelAll p.ids (reserveAll q.ids g) q.elements).length_eq
  refine ⟨_, merged, hmerge, ?_⟩
  rw [helements, List.length_append, Package.size_eq hp, Package.size_eq hq, ← hlength]

/-- The numbers that are in use when `q` is merged into `p` are not above the bound `b`. -/
def NumberedUpTo (b : Nat) (p q : Package Source) : Prop :=
  ∀ g, p.generator = .sequential g → (reserveAll q.ids g).issued ≤ b

theorem NumberedUpTo.of_generator {g : Sequential} (hg : p.generator = .sequential g)
    (hissued : (reserveAll q.ids g).issued ≤ b) : NumberedUpTo b p q := by
  intro other hother
  obtain rfl := Source.sequential.inj (hg.symm.trans hother)
  exact hissued

theorem NumberedUpTo.numbersLast (h : NumberedUpTo b p q)
    (hroom : b + q.elements.length < 2 ^ 64) : NumbersLast p q := by
  intro g hg j hj
  have hissued := h g hg
  have hcount : q.elements.countP (clashes p.ids) ≤ q.elements.length := List.countP_le_length
  omega

theorem NumbersLast.of_generator {g : Sequential} (hg : p.generator = .sequential g)
    (hroom : (reserveAll q.ids g).issued + q.elements.length < 2 ^ 64) : NumbersLast p q :=
  (NumberedUpTo.of_generator hg (Nat.le_refl _)).numbersLast hroom

/-- A merge of `q` into `p` takes at most one number for each element of `q`. -/
theorem covers_of_merge (hstem : settings.idStem = some stem)
    (hdest : (load (settings.source u) desk dest).result = .ok p)
    (hsrc : (load (settings.source v) later src).result = .ok q) (hlast : NumbersLast p q)
    (hbound : NumberedUpTo b p q) {report : MergeReport}
    (hmerge : p.merge .merge q = (.ok report, merged)) :
    ∀ key ∈ merged.ids ++ q.ids, Sequential.Covers ⟨stem, b + q.elements.length⟩ key := by
  obtain ⟨g, hg, rfl, hcovers⟩ := exists_numbering hstem hdest
  obtain ⟨hp, -, -⟩ := filled_of_load hdest
  obtain ⟨hq, -, -⟩ := filled_of_load hsrc
  obtain ⟨outcomes, after, hmerged, helements, -⟩ :=
    Package.merge_of_sequential hp hq hg hcovers (hlast g hg)
  obtain rfl : after = merged := congrArg Prod.snd (hmerged.symm.trans hmerge)
  have hissued := hbound g hg
  have hcount : q.elements.countP (clashes p.ids) ≤ q.elements.length := List.countP_le_length
  have hreserved : ∀ key ∈ q.ids, (reserveAll q.ids g).Covers key := fun key hkey =>
    Sequential.remembers_covers.reservedAll hkey
  -- Everything is covered by the numbering that the merge leaves behind.
  have hall : ∀ key ∈ after.ids ++ q.ids,
      (relabelAll p.ids (reserveAll q.ids g) q.elements).2.Covers key := by
    intro key hkey
    rcases List.mem_append.mp hkey with hkey | hkey
    · obtain ⟨e, he, hid⟩ := Package.mem_ids_iff.mp hkey
      rw [helements] at he
      rcases List.mem_append.mp he with he | he
      · apply Element.covers_relabelAll
        exact Sequential.remembers_covers.reserveAll _
          (hcovers key (Package.mem_ids_iff.mpr ⟨e, he, hid⟩))
      · refine Element.covers_of_mem_relabelAll ?_ he hid
        exact fun x hx other hother => hreserved other (Package.mem_ids_iff.mpr ⟨x, hx, hother⟩)
    · exact Element.covers_relabelAll _ _ (hreserved key hkey)
  intro key hkey
  have hkey := hall key hkey
  rw [Element.snd_relabelAll, Sequential.stem_reserveAll] at hkey
  exact hkey.mono (by omega)

/-- The package `merged` that was stored is loaded with the numbering of its identifiers. -/
theorem generator_of_stored (hstem : settings.idStem = some stem)
    (hidentified : ∀ e ∈ merged.elements, ∃ key, e.id = some key)
    (hread : desk.files.read path = .ok (.text (render settings merged)))
    (hload : (load (settings.source u) desk path).result = .ok p') :
    p'.generator =
      .sequential (reserveAll merged.ids (reserveAll merged.ids (.ofStem stem))) := by
  obtain ⟨content, hcontent, hdecode⟩ := result_load_eq_ok_iff.mp hload
  obtain rfl := Except.ok.inj (hread.symm.trans hcontent)
  rw [← Text.Content.ofBytes_toUTF8] at hdecode
  have hsource : settings.source u = .sequential (.ofStem stem) := by
    rw [Settings.source, hstem]
  have hgenerator := Contents.generator_of_decode hidentified hdecode
  rw [hsource, Source.reserveAll_sequential, Source.reserveAll_sequential] at hgenerator
  exact hgenerator

/-! ## Rounds -/

/-- A merge of files that renames, by the desk it begins at, its target and its output. -/
structure Round where
  desk : Desk
  dest : String
  output : Option String

namespace Round

variable (settings : Settings) (u v : Random) (src : String) (round : Round)

/-- The path that the round writes to. -/
def goal : String :=
  round.output.getD round.dest

def run : Ran MergeReport :=
  merge settings ⟨settings.source u, settings.source v⟩ round.desk round.dest src round.output
    .merge

/-- The round that merges the same `src` into what this one has written. -/
def next : Round :=
  ⟨(round.run settings u v src).desk, round.goal, none⟩

/-- The round that comes after the given number of rounds. -/
def after : Nat → Round
  | 0 => round
  | k + 1 => next settings u v src (after k)

/-- If both packages are loaded, the numbers last in this round (`NumbersLast`). -/
def Lasts : Prop :=
  ∀ p q, (load (settings.source u) round.desk round.dest).result = .ok p →
    (load (settings.source v) round.desk src).result = .ok q → NumbersLast p q

/-- The packages `p` and `q` that the round merges are loaded, its target `names` can be written,
and the log is kept in neither of the files of the source and the target. -/
structure Ready (p q : Package Source) (names : List String) : Prop where
  loadsDest : (load (settings.source u) round.desk round.dest).result = .ok p
  loadsSrc : (load (settings.source v) round.desk src).result = .ok q
  target : round.desk.files.target round.goal = .ok names
  logApart : ∀ log ∈ round.desk.logPaths, log ≠ names ∧ ¬ round.desk.files.LeadsTo src log

variable {settings u v src round}

/-- What a `round` leaves behind once the packages `p` and `q` are merged. -/
theorem Ready.stored {report : MergeReport} (h : Ready settings u v src round p q names)
    (hmerge : p.merge .merge q = (.ok report, merged)) :
    (round.run settings u v src).result = .ok report ∧
      Stored settings ⟨settings.source u, settings.source v⟩ round.desk round.dest src round.goal
        .merge report (round.run settings u v src).desk p q merged names := by
  have hsrc := result_load_after (settings.source u) round.dest h.loadsSrc
    fun log hmem => (h.logApart log hmem).2
  exact stored_of_merge ⟨settings.source u, settings.source v⟩ h.loadsDest hsrc hmerge h.target

/-- A `round` that is ready and whose numbers last adds all elements of `q`, and leaves its file
ready for the next round. -/
theorem Ready.next (h : Ready settings u v src round p q names)
    (hstem : settings.idStem = some stem) (hlast : NumbersLast p q) :
    ∃ report merged p' q', (round.run settings u v src).result = .ok report ∧
      p.merge .merge q = (.ok report, merged) ∧
      Ready settings u v src (round.next settings u v src) p' q' names ∧
      round.desk.Touches [names] (round.next settings u v src).desk ∧
      p'.contents = merged.contents ∧ p'.size = p.size + q.size ∧
      (¬ round.desk.files.LeadsTo src names → q' = q) := by
  obtain ⟨report, merged, hmerge, hsize⟩ :=
    exists_merge_of_loads hstem h.loadsDest h.loadsSrc hlast
  have hlog : names ∉ round.desk.logPaths := fun hmem => (h.logApart names hmem).1 rfl
  obtain ⟨hresult, hstored⟩ := h.stored hmerge
  have htouches := hstored.touches
  have hgoal := (FileTree.target_eq_ok_iff.mp h.target).2
  obtain ⟨p', hp', hcontents⟩ := hstored.reload hlog u hgoal
  have hsource : ∃ q', (load (settings.source v) (round.run settings u v src).desk src).result =
      .ok q' ∧ (¬ round.desk.files.LeadsTo src names → q' = q) := by
    by_cases hleads : round.desk.files.LeadsTo src names
    · obtain ⟨q', hq', -⟩ := hstored.reload hlog v hleads
      exact ⟨q', hq', fun hnot => absurd hleads hnot⟩
    · refine ⟨q, result_load_of_touches h.loadsSrc htouches ?_, fun _ => rfl⟩
      intro other hother
      rcases List.mem_cons.mp hother with rfl | hother
      · exact hleads
      · exact (h.logApart other hother).2
  obtain ⟨q', hq', hsame⟩ := hsource
  have hsizes : p'.size = p.size + q.size := by
    rw [Package.size_eq (filled_of_load hp').1, ← hsize]
    exact congrArg (fun c => c.elements.length) hcontents
  refine ⟨report, merged, p', q', hresult, hmerge, ⟨hp', hq', ?_, ?_⟩, htouches, hcontents, hsizes,
    hsame⟩
  · exact FileTree.target_of_differsAt h.target htouches.files
  · intro log hmem
    have hbefore : log ∈ round.desk.logPaths := by
      rw [← htouches.logPaths_eq]
      exact hmem
    obtain ⟨hne, hapart⟩ := h.logApart log hbefore
    exact ⟨hne, fun hleads => hapart (hleads.of_differsAt htouches.files.symm)⟩

/-- The round after `round` finds the numbers moved by at most one for each element of `q`. -/
theorem Ready.numberedUpTo_next (h : Ready settings u v src round p q names)
    (hstem : settings.idStem = some stem) (hlast : NumbersLast p q) (hbound : NumberedUpTo b p q)
    (hnext : Ready settings u v src (round.next settings u v src) p' q' names) :
    NumberedUpTo (b + q.elements.length) p' q := by
  obtain ⟨report, merged, hmerge, -⟩ :=
    exists_merge_of_loads hstem h.loadsDest h.loadsSrc hlast
  have hcovers := covers_of_merge hstem h.loadsDest h.loadsSrc hlast hbound hmerge
  obtain ⟨hmerged, hsource⟩ := List.forall_mem_append.mp hcovers
  obtain ⟨-, hstored⟩ := h.stored hmerge
  have hlog : names ∉ round.desk.logPaths := fun hmem => (h.logApart names hmem).1 rfl
  have hread := hstored.read hlog (FileTree.target_eq_ok_iff.mp h.target).2
  have hgenerator :=
    generator_of_stored hstem hstored.filled.1.identified hread hnext.loadsDest
  apply NumberedUpTo.of_generator hgenerator
  apply Sequential.issued_reserveAll_le
  · rw [Sequential.stem_reserveAll, Sequential.stem_reserveAll]
    exact hsource
  · apply Sequential.issued_reserveAll_le
    · rw [Sequential.stem_reserveAll]
      exact hmerged
    · exact Sequential.issued_reserveAll_le hmerged (Nat.zero_le _)

/-- A round that follows `k` rounds whose numbers last is ready.  If the source is not the file
that is written, each round has added it once. -/
theorem Ready.after (h : Ready settings u v src round p q names)
    (hstem : settings.idStem = some stem) (k : Nat)
    (hlast : ∀ j < k, Lasts settings u v src (round.after settings u v src j)) :
    ∃ p' q', Ready settings u v src (round.after settings u v src k) p' q' names ∧
      round.desk.Touches [names] (round.after settings u v src k).desk ∧
      (¬ round.desk.files.LeadsTo src names → q' = q ∧ p'.size = p.size + k * q.size) := by
  induction k with
  | zero => exact ⟨p, q, h, .refl _ _, fun _ => ⟨rfl, by simp⟩⟩
  | succ k ih =>
      obtain ⟨p', q', hready, htouches, hsizes⟩ := ih fun j hj => hlast j (Nat.lt_succ_of_lt hj)
      have hlasts := hlast k (Nat.lt_succ_self k) p' q' hready.loadsDest hready.loadsSrc
      obtain ⟨_, _, p'', q'', -, -, hnext, hstep, -, hsize, hsame⟩ := hready.next hstem hlasts
      refine ⟨p'', q'', hnext, htouches.trans hstep, ?_⟩
      intro hapart
      obtain ⟨rfl, hsizes⟩ := hsizes hapart
      obtain rfl := hsame fun hleads => hapart (hleads.of_differsAt htouches.files.symm)
      refine ⟨rfl, ?_⟩
      rw [hsize, hsizes, Nat.succ_mul]
      omega

/-! ## Rounds before the numbers run out -/

theorem Ready.lasts_iff (h : Ready settings u v src round p q names) :
    Lasts settings u v src round ↔ NumbersLast p q := by
  constructor
  · exact fun hlast => hlast p q h.loadsDest h.loadsSrc
  · intro hlast p' q' hp' hq'
    obtain rfl := Except.ok.inj (h.loadsDest.symm.trans hp')
    obtain rfl := Except.ok.inj (h.loadsSrc.symm.trans hq')
    exact hlast

theorem Ready.exists_numberedUpTo (h : Ready settings u v src round p q names)
    (hstem : settings.idStem = some stem) (hapart : ¬ round.desk.files.LeadsTo src names)
    (hbound : NumberedUpTo b p q) (k : Nat) (hroom : b + k * q.elements.length < 2 ^ 64) :
    ∃ p', Ready settings u v src (round.after settings u v src k) p' q names ∧
      round.desk.Touches [names] (round.after settings u v src k).desk ∧
      NumberedUpTo (b + k * q.elements.length) p' q := by
  induction k with
  | zero => exact ⟨p, h, .refl _ _, by simpa using hbound⟩
  | succ k ih =>
      rw [Nat.succ_mul, ← Nat.add_assoc] at hroom ⊢
      obtain ⟨p', hready, htouches, hbefore⟩ := ih (by omega)
      have hlast := hbefore.numbersLast hroom
      obtain ⟨_, _, p'', q'', -, -, hnext, hstep, -, -, hsame⟩ := hready.next hstem hlast
      obtain rfl := hsame fun hleads => hapart (hleads.of_differsAt htouches.files.symm)
      exact ⟨p'', hnext, htouches.trans hstep, hready.numberedUpTo_next hstem hlast hbefore hnext⟩

/-- The numbers last for as many rounds `k` as there are numbers left for all elements of `q`, as
long as the source is not the file that is written. -/
theorem Ready.lasts_of_room (h : Ready settings u v src round p q names)
    (hstem : settings.idStem = some stem) (hapart : ¬ round.desk.files.LeadsTo src names)
    (hbound : NumberedUpTo b p q) (k : Nat) (hroom : b + (k + 1) * q.elements.length < 2 ^ 64) :
    Lasts settings u v src (round.after settings u v src k) := by
  rw [Nat.succ_mul, ← Nat.add_assoc] at hroom
  obtain ⟨p', hready, -, hbefore⟩ := h.exists_numberedUpTo hstem hapart hbound k (by omega)
  exact hready.lasts_iff.mpr (hbefore.numbersLast hroom)

variable (settings u v src round) in
theorem goal_after (k : Nat) : (round.after settings u v src k).goal = round.goal := by
  induction k with
  | zero => rfl
  | succ k ih => exact ih

end Round

/-- A merge of the files `dest` and `src` that fails leaves every file as it was, and one that
succeeds changes no file but its target, from which the package `merged` of the loaded ones can be
loaded again.  With numbered identifiers the merge that renames succeeds as long as the numbers
last (`Round.Ready`), and stores all elements of both packages, in every round of merging `src`
into the result.  Files are compared apart from the one that the log is kept in. -/
theorem merge_stores_or_keeps (settings : Settings) (u v : Random) (desk : Desk) (dest src : String)
    (output : Option String) :
    let run := fun mode =>
      merge settings ⟨settings.source u, settings.source v⟩ desk dest src output mode
    let rounds := Round.after settings u v src ⟨desk, dest, output⟩
    (∀ mode e, (run mode).result = .error e → desk.Touches [] (run mode).desk) ∧
    (∀ mode report, (run mode).result = .ok report → ∃ p q merged names,
      Stored settings ⟨settings.source u, settings.source v⟩ desk dest src (output.getD dest) mode
        report (run mode).desk p q merged names ∧
      (names ∉ desk.logPaths → ∀ random, ∃ r,
        (load (settings.source random) (run mode).desk (output.getD dest)).result = .ok r ∧
          r.contents = merged.contents)) ∧
    (∀ stem p q names, settings.idStem = some stem →
      Round.Ready settings u v src ⟨desk, dest, output⟩ p q names →
      ∀ k, (∀ j ≤ k, Round.Lasts settings u v src (rounds j)) → ∃ report p' q' saved,
        ((rounds k).run settings u v src).result = .ok report ∧
        (load (settings.source u) (rounds k).desk (rounds k).dest).result = .ok p' ∧
        (load (settings.source v) (rounds k).desk src).result = .ok q' ∧
        (load (settings.source u) ((rounds k).run settings u v src).desk
          (output.getD dest)).result = .ok saved ∧
        saved.size = p'.size + q'.size ∧
        (¬ desk.files.LeadsTo src names → saved.size = p.size + (k + 1) * q.size)) := by
  intro run rounds
  have hcases :=
    merge_cases settings ⟨settings.source u, settings.source v⟩ desk dest src output
  refine ⟨?_, ?_, ?_⟩
  · intro mode e herror
    rcases hcases mode with ⟨_, -, htouches⟩ | ⟨_, _, _, _, _, hok, -⟩
    · exact htouches
    · cases hok.symm.trans herror
  · intro mode report hok
    rcases hcases mode with ⟨_, herror, -⟩ | ⟨_, p, q, merged, names, hother, hstored⟩
    · cases hok.symm.trans herror
    · obtain rfl := Except.ok.inj (hok.symm.trans hother)
      refine ⟨p, q, merged, names, hstored, ?_⟩
      intro hlog random
      exact hstored.reload hlog random (FileTree.target_eq_ok_iff.mp hstored.target).2
  · intro stem p q names hstem hready k hlast
    obtain ⟨p', q', hround, -, hsizes⟩ :=
      hready.after hstem k fun j hj => hlast j (Nat.le_of_lt hj)
    have hlasts := hround.lasts_iff.mp (hlast k (Nat.le_refl k))
    obtain ⟨report, _, saved, _, hresult, -, hnext, -, -, hsize, -⟩ := hround.next hstem hlasts
    have hsaved : (load (settings.source u) ((rounds k).run settings u v src).desk
        (rounds k).goal).result = .ok saved := hnext.loadsDest
    rw [Round.goal_after settings u v src ⟨desk, dest, output⟩ k] at hsaved
    refine ⟨report, p', q', saved, hresult, hround.loadsDest, hround.loadsSrc, hsaved, hsize, ?_⟩
    intro hapart
    obtain ⟨rfl, hbefore⟩ := hsizes hapart
    rw [hsize, hbefore, Nat.succ_mul]
    omega

/-- Both files write the same number, and the source has an entry without one.  The merge that
fails on conflicts changes nothing; three merges that rename store seven elements. -/
theorem merge_stores_or_keeps_of_shared_number :
    let settings := { Settings.standard with idStem := some "x" }
    let u := Random.ofBits id
    let d := "\x7b\"elements\":[\x7b\"id\":\"x-1\",\"type\":\"catalog\"\x7d]\x7d"
    let s := "\x7b\"elements\":[\x7b\"id\":\"x-1\",\"type\":\"catalog\"\x7d," ++
      "\x7b\"type\":\"catalog\"\x7d]\x7d"
    let desk : Desk := .quiet ⟨[], [(["d"], .file (.text d)), (["s"], .file (.text s))]⟩
    let run := fun mode =>
      merge settings ⟨settings.source u, settings.source u⟩ desk "d" "s" (some "o") mode
    let third := Round.after settings u u "s" ⟨desk, "d", some "o"⟩ 2
    (∃ e, (run .fail).result = .error e ∧ desk.Touches [] (run .fail).desk) ∧
    (∃ report r, (run .merge).result = .ok report ∧
      (load (settings.source u) (run .merge).desk "o").result = .ok r) ∧
    ∃ report saved, (third.run settings u u "s").result = .ok report ∧
      (load (settings.source u) (third.run settings u u "s").desk "o").result = .ok saved ∧
      saved.size = 7 := by
  intro settings u d s desk run third
  let e := Element.ofBody .catalog
  have hd : d = Contents.encode false ⟨none, none, [e.withId "x-1"]⟩ := by cbv
  have hs : s = Contents.encode false ⟨none, none, [e.withId "x-1", e]⟩ := by cbv
  obtain ⟨p, hdest, hp⟩ : ∃ p, (load (settings.source u) desk "d").result = .ok p ∧
      p.roster = ⟨none, none, [e.withId "x-1"], .sequential ⟨"x", 1⟩⟩ :=
    exists_load_encode (congrArg (Except.ok ∘ Text.Content.text) hd)
      (by simp [e, Element.Filled, Element.ofBody, Element.withId]) (by cbv)
  obtain ⟨q, hsrc, hq⟩ : ∃ q, (load (settings.source u) desk "s").result = .ok q ∧
      q.roster = ⟨none, none, [e.withId "x-1", e.withId "x-2"], .sequential ⟨"x", 2⟩⟩ :=
    exists_load_encode (congrArg (Except.ok ∘ Text.Content.text) hs)
      (by simp [e, Element.Filled, Element.ofBody, Element.withId]) (by cbv)
  have hids : p.ids = ["x-1"] ∧ q.ids = ["x-1", "x-2"] :=
    ⟨congrArg Roster.ids hp, congrArg Roster.ids hq⟩
  have hlengths : p.elements.length = 1 ∧ q.elements.length = 2 :=
    ⟨congrArg (fun r => r.elements.length) hp, congrArg (fun r => r.elements.length) hq⟩
  have hready : Round.Ready settings u u "s" ⟨desk, "d", some "o"⟩ p q ["o"] :=
    ⟨hdest, hsrc, by cbv, fun log hlog => absurd hlog List.not_mem_nil⟩
  have hapart : ¬ desk.files.LeadsTo "s" ["o"] := by
    intro hleads
    have hself : desk.files.LeadsTo "s" ["s"] := ⟨by decide, rfl⟩
    exact absurd (hself.unique hleads) (by decide)
  have hbound : NumberedUpTo 2 p q := by
    apply NumberedUpTo.of_generator (congrArg Roster.generator hp)
    rw [hids.2]
    decide
  have hlasts : ∀ j ≤ 2, Round.Lasts settings u u "s"
      (Round.after settings u u "s" ⟨desk, "d", some "o"⟩ j) := by
    intro j hj
    apply hready.lasts_of_room rfl hapart hbound
    rw [hlengths.2]
    show 2 + (j + 1) * 2 < 2 ^ 64
    omega
  obtain ⟨hkeeps, hstores, hrounds⟩ :=
    merge_stores_or_keeps settings u u desk "d" "s" (some "o")
  refine ⟨?_, ?_, ?_⟩
  · cases hresult : (run .fail).result with
    | error error => exact ⟨error, rfl, hkeeps .fail error hresult⟩
    | ok report =>
        obtain ⟨p', q', _, _, hstored, -⟩ := hstores .fail report hresult
        obtain rfl := Except.ok.inj (hdest.symm.trans hstored.loads.1)
        have hafter := result_load_after (settings.source u) "d" hsrc
          fun log hlog => absurd hlog List.not_mem_nil
        obtain rfl := Except.ok.inj (hafter.symm.trans hstored.loads.2)
        have hrefusal : Package.refusal? .fail p q.ids = some "x-1" := by
          rw [Package.refusal?_eq (filled_of_load hdest).1, hids.2, hp]
          decide
        cases (Package.merge_of_refusal hrefusal).symm.trans hstored.merge
  · obtain ⟨report, _, _, _, hresult, -⟩ := hrounds "x" p q ["o"] rfl hready 0
      fun j hj => hlasts j (Nat.le_trans hj (Nat.zero_le 2))
    obtain ⟨_, _, merged, names, hstored, hreload⟩ := hstores .merge report hresult
    obtain ⟨r, hr, -⟩ := hreload List.not_mem_nil u
    exact ⟨report, r, hresult, hr⟩
  · obtain ⟨report, _, _, saved, hresult, -, -, hsaved, -, hsize⟩ :=
      hrounds "x" p q ["o"] rfl hready 2 hlasts
    refine ⟨report, saved, hresult, hsaved, ?_⟩
    rw [hsize hapart, Package.size_eq (filled_of_load hdest).1,
      Package.size_eq (filled_of_load hsrc).1, hlengths.1, hlengths.2]

end MediaManifest.Operations
