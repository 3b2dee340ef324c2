import MediaManifest.Proofs.Operations.Files
import MediaManifest.Proofs.Package.Stopping

/-!
# Failures of operations

Errors come from many places, and two of them are told apart by the exit code:
the conflict of a merge, and the broken rules of a check.  Neither reading and
decoding a file nor reading a filter reports such an error (`IsFatal`), and a
merge reports a conflict only when the mode says so.
-/

namespace MediaManifest

/-- The error `e` is neither a conflict nor a broken rule. -/
def Error.IsFatal (e : Error) : Prop :=
  (ToolError.manifest e).exitCode = .fatal

theorem Kind.fatal_of_parse {s : String} {error : Error} (h : Kind.parse s = .error error) :
    error.IsFatal := by
  unfold Kind.parse at h
  split at h
  · cases h
  · obtain rfl := Except.error.inj h
    rfl

/-! ## Decoding -/

namespace Codec

variable {γ : Type} [Generator γ] {p : Package γ} {raw document : Json.Value} {error : Error}
  {source : γ} {content : Text.Content}

theorem fatal_of_decodeRaw (h : decodeRaw raw = .error error) : error.IsFatal := by
  unfold decodeRaw at h
  split at h
  · obtain rfl := Except.error.inj h
    rfl
  · next name _ =>
    split at h
    · next fault hkind =>
      obtain rfl := Except.error.inj h
      exact Kind.fatal_of_parse hkind
    · obtain ⟨fault, -, rfl⟩ := Except.mapError_eq_error_iff.mp h
      rfl

theorem fatal_of_insert {key : String} {e : Element}
    (h : (p.insert key e).1 = .error error) : error.IsFatal := by
  unfold Package.insert at h
  split at h
  · obtain rfl := Except.error.inj h
    rfl
  · cases h

theorem fatal_of_add {e : Element} (h : (p.add e).1 = .error error) : error.IsFatal := by
  unfold Package.add at h
  split at h
  · exact fatal_of_insert h
  · exact fatal_of_insert h

theorem fatal_of_addRaws {raws : List Json.Value} (h : (addRaws p raws).1 = .error error) :
    error.IsFatal := by
  induction raws generalizing p with
  | nil => cases h
  | cons raw raws ih =>
      unfold addRaws at h
      split at h
      · next fault hraw =>
        obtain rfl := Except.error.inj h
        exact fatal_of_decodeRaw hraw
      · next e _ =>
        split at h
        · next fault after hadd =>
          obtain rfl := Except.error.inj h
          exact fatal_of_add (congrArg Prod.fst hadd)
        · exact ih h

theorem fatal_of_decodeValue (h : (decodeValue source document).1 = .error error) :
    error.IsFatal := by
  unfold decodeValue at h
  split at h
  · next fault hvalid =>
    obtain rfl := Except.error.inj h
    unfold validate at hvalid
    split at hvalid
    · cases hvalid
    · obtain rfl := Except.error.inj hvalid
      rfl
  · simp only at h
    split at h
    · next fault after hraws =>
      obtain rfl := Except.error.inj h
      exact fatal_of_addRaws (congrArg Prod.fst hraws)
    · cases h

theorem fatal_of_decode (h : (decode source content).1 = .error error) : error.IsFatal := by
  unfold decode at h
  split at h
  · next fault hdocument =>
    obtain rfl := Except.error.inj h
    obtain ⟨_, -, rfl⟩ := Except.mapError_eq_error_iff.mp hdocument
    rfl
  · exact fatal_of_decodeValue h

end Codec

/-! ## Reading filters -/

namespace Filter

variable {s : String} {expressions : List String} {error : Error}

theorem fatal_of_ofPair {whole key value : String} (h : ofPair whole key value = .error error) :
    error.IsFatal := by
  unfold ofPair at h
  split at h
  · exact Kind.fatal_of_parse (Except.map_eq_error_iff.mp h)
  · split at h
    · cases h
    · obtain rfl := Except.error.inj h
      rfl
  · split at h
    · obtain rfl := Except.error.inj h
      rfl
    · cases h
  · cases h
  · split at h
    · obtain rfl := Except.error.inj h
      rfl
    · cases h
  · obtain rfl := Except.error.inj h
    rfl

theorem fatal_of_parse (h : parse s = .error error) : error.IsFatal := by
  have hbase := Except.map_eq_error_iff.mp h
  unfold parseBase at hbase
  split at hbase
  · exact fatal_of_ofPair hbase
  · split at hbase
    · cases hbase
    · obtain rfl := Except.error.inj hbase
      rfl

theorem fatal_of_ofExpressions (h : ofExpressions expressions = .error error) :
    error.IsFatal := by
  have hall := Except.map_eq_error_iff.mp h
  clear h
  induction expressions with
  | nil => cases hall
  | cons s expressions ih =>
      unfold parseAll at hall
      split at hall
      · next fault hparse =>
        obtain rfl := Except.error.inj hall
        exact fatal_of_parse hparse
      · exact ih (Except.map_eq_error_iff.mp hall)

/-- The `expressions` are read as one filter exactly if each of them is read as a filter. -/
theorem exists_ofExpressions_iff :
    (∃ f, ofExpressions expressions = .ok f) ↔ ∀ s ∈ expressions, ∃ f, parse s = .ok f := by
  unfold ofExpressions
  rw [Except.exists_map_eq_ok_iff]
  induction expressions with
  | nil => exact iff_of_true ⟨[], rfl⟩ fun s hs => absurd hs List.not_mem_nil
  | cons s expressions ih =>
      rw [List.forall_mem_cons, ← ih, parseAll]
      cases parse s with
      | error fault => simp
      | ok f => simp [Except.exists_map_eq_ok_iff]

end Filter

/-! ## Exit codes -/

/-- The exit code `code`, by what leads to each of those that scripts tell apart.  The fourth one,
`fatal`, is for everything else. -/
structure ExitCode.Tells (code : ExitCode) (conflict partly success : Prop) : Prop where
  conflict_iff : code = .conflict ↔ conflict
  partly_iff : code = .partly ↔ partly
  success_iff : code = .success ↔ success

namespace ExitCode

variable {code : ExitCode} {conflict partly success : Prop}

theorem tells_conflict (hconflict : conflict) (hpartly : ¬ partly) (hsuccess : ¬ success) :
    Tells .conflict conflict partly success :=
  ⟨iff_of_true rfl hconflict, iff_of_false nofun hpartly, iff_of_false nofun hsuccess⟩

theorem tells_partly (hconflict : ¬ conflict) (hpartly : partly) (hsuccess : ¬ success) :
    Tells .partly conflict partly success :=
  ⟨iff_of_false nofun hconflict, iff_of_true rfl hpartly, iff_of_false nofun hsuccess⟩

theorem tells_success (hconflict : ¬ conflict) (hpartly : ¬ partly) (hsuccess : success) :
    Tells .success conflict partly success :=
  ⟨iff_of_false nofun hconflict, iff_of_false nofun hpartly, iff_of_true rfl hsuccess⟩

theorem tells_fatal (hconflict : ¬ conflict) (hpartly : ¬ partly) (hsuccess : ¬ success) :
    Tells .fatal conflict partly success :=
  ⟨iff_of_false nofun hconflict, iff_of_false nofun hpartly, iff_of_false nofun hsuccess⟩

/-- The exit code `fatal` is that of all that leads to none of the others. -/
theorem Tells.fatal_iff (h : Tells code conflict partly success) :
    code = .fatal ↔ ¬ conflict ∧ ¬ partly ∧ ¬ success := by
  rw [← h.conflict_iff, ← h.partly_iff, ← h.success_iff]
  cases code <;> decide

/-- No two exit codes have one number. -/
theorem toNat_inj {code other : ExitCode} : code.toNat = other.toNat ↔ code = other := by
  cases code <;> cases other <;> decide

end ExitCode

open ExitCode (Tells tells_conflict tells_partly tells_success tells_fatal)

namespace Ran

variable {α β : Type} {ran : Ran α}

/-- The exit code that the result of the operation `ran` leads to. -/
def exitCode (ran : Ran α) : ExitCode :=
  match ran.result with
  | .ok _ => .success
  | .error e => e.exitCode

theorem exitCode_of_ok {a : α} (h : ran.result = .ok a) : ran.exitCode = .success := by
  rw [exitCode, h]

theorem exitCode_of_error {e : ToolError} (h : ran.result = .error e) :
    ran.exitCode = e.exitCode := by
  rw [exitCode, h]

@[simp] theorem exitCode_map (f : α → β) (ran : Ran α) :
    (ran.map f).exitCode = ran.exitCode := by
  unfold exitCode map
  cases ran.result <;> rfl

end Ran

namespace Operations

variable {settings : Settings} {source : Source} {sources : Sources} {desk : Desk}
  {path dest src : String} {output : Option String} {mode : Mode} {p q p' q' : Package Source}
  {expressions : List String}

theorem fatal_of_load {e : ToolError} (h : (load source desk path).result = .error e) :
    e.exitCode = .fatal := by
  rw [result_load, loadPackage] at h
  split at h
  · split at h
    · obtain rfl := Except.error.inj h
      rfl
    · obtain ⟨fault, hdecode, rfl⟩ := Except.mapError_eq_error_iff.mp h
      exact Codec.fatal_of_decode hdecode
  · obtain rfl := Except.error.inj h
    rfl

theorem coherent_of_load (h : (load source desk path).result = .ok p) : p.slots.Coherent := by
  obtain ⟨content, -, hdecode⟩ := result_load_eq_ok_iff.mp h
  exact (Package.Reachable.decode hdecode).coherent

theorem load_cases (source : Source) (desk : Desk) (path : String) :
    (∃ p, (load source desk path).result = .ok p) ∨
      (∀ p, (load source desk path).result ≠ .ok p) ∧
        ∃ e, (load source desk path).result = .error e ∧ e.exitCode = .fatal := by
  cases hload : (load source desk path).result with
  | ok p => exact .inl ⟨p, rfl⟩
  | error e => exact .inr ⟨nofun, e, rfl, fatal_of_load hload⟩

theorem tells_load (source : Source) (desk : Desk) (path : String) :
    Tells (load source desk path).exitCode False False
      (∃ p, (load source desk path).result = .ok p) := by
  rcases load_cases source desk path with ⟨p, hload⟩ | ⟨hnone, e, hload, hfatal⟩
  · rw [Ran.exitCode_of_ok hload]
    exact tells_success not_false not_false ⟨p, hload⟩
  · rw [Ran.exitCode_of_error hload, hfatal]
    exact tells_fatal not_false not_false fun ⟨p, hp⟩ => hnone p hp

/-! ## Checking and filtering -/

theorem violations_eq_nil_iff :
    p.violations = [] ↔ ∃ id, p.identifier = some id ∧ Text.blank id = false := by
  unfold Package.violations
  cases p.identifier with
  | none => simp
  | some id => cases hblank : Text.blank id <;> simp [hblank]

/-- A check of the file at `path` ends well if the package has an identifier that is not blank. -/
theorem tells_check (source : Source) (desk : Desk) (path : String) :
    Tells (check source desk path).exitCode False
      (∃ p, (load source desk path).result = .ok p ∧
        ∀ id, p.identifier = some id → Text.blank id = true)
      (∃ p id, (load source desk path).result = .ok p ∧ p.identifier = some id ∧
        Text.blank id = false) := by
  rcases load_cases source desk path with ⟨p, hload⟩ | ⟨hnone, e, hload, hfatal⟩
  · cases hviolations : p.violations with
    | nil =>
        have hresult : (check source desk path).result = .ok p.checkReport := by
          simp only [check, Ran.andThen, hload, hviolations]
        obtain ⟨id, hid, hblank⟩ := violations_eq_nil_iff.mp hviolations
        rw [Ran.exitCode_of_ok hresult]
        refine tells_success not_false ?_ ⟨p, id, hload, hid, hblank⟩
        rintro ⟨p', hload', hbroken⟩
        obtain rfl := Except.ok.inj (hload.symm.trans hload')
        exact absurd (hbroken id hid) (by simp [hblank])
    | cons violation violations =>
        have hresult : ∃ messages,
            (check source desk path).result = .error (.sanityCheck p.display messages) := by
          simp only [check, Ran.andThen, hload, hviolations]
          exact ⟨_, rfl⟩
        obtain ⟨messages, hresult⟩ := hresult
        have hbroken : ¬ ∃ id, p.identifier = some id ∧ Text.blank id = false := by
          rw [← violations_eq_nil_iff, hviolations]
          exact List.cons_ne_nil _ _
        rw [Ran.exitCode_of_error hresult]
        refine tells_partly not_false ⟨p, hload, fun id hid => ?_⟩ ?_
        · by_contra hblank
          exact hbroken ⟨id, hid, Bool.eq_false_iff.mpr hblank⟩
        · rintro ⟨p', id, hload', hid, hblank⟩
          obtain rfl := Except.ok.inj (hload.symm.trans hload')
          exact hbroken ⟨id, hid, hblank⟩
  · have hresult : (check source desk path).result = .error e := by
      simp only [check, Ran.andThen, hload]
    rw [Ran.exitCode_of_error hresult, hfatal]
    refine tells_fatal not_false ?_ ?_
    · rintro ⟨p, hp, -⟩
      exact hnone p hp
    · rintro ⟨p, -, hp, -⟩
      exact hnone p hp

theorem tells_filter (source : Source) (desk : Desk) (path : String) (expressions : List String) :
    Tells (filter source desk path expressions).exitCode False False
      ((∀ s ∈ expressions, ∃ f, Filter.parse s = .ok f) ∧
        ∃ p, (load source desk path).result = .ok p) := by
  cases hread : Filter.ofExpressions expressions with
  | error error =>
      have hresult : (filter source desk path expressions).result = .error (.manifest error) := by
        simp only [filter, hread]
      have hfatal : (ToolError.manifest error).exitCode = .fatal :=
        Filter.fatal_of_ofExpressions hread
      rw [Ran.exitCode_of_error hresult, hfatal]
      refine tells_fatal not_false not_false ?_
      rintro ⟨hall, -⟩
      obtain ⟨f, hf⟩ := Filter.exists_ofExpressions_iff.mpr hall
      cases hread.symm.trans hf
  | ok f =>
      have hall := Filter.exists_ofExpressions_iff.mp ⟨f, hread⟩
      rcases load_cases source desk path with ⟨p, hload⟩ | ⟨hnone, e, hload, hfatal⟩
      · have hresult :
            (filter source desk path expressions).result = .ok (f.select p.elements) := by
          simp only [filter, hread, Ran.andThen, hload]
        rw [Ran.exitCode_of_ok hresult]
        exact tells_success not_false not_false ⟨hall, p, hload⟩
      · have hresult : (filter source desk path expressions).result = .error e := by
          simp only [filter, hread, Ran.andThen, hload]
        rw [Ran.exitCode_of_error hresult, hfatal]
        refine tells_fatal not_false not_false ?_
        rintro ⟨-, p, hp⟩
        exact hnone p hp

/-! ## Merging -/

/-- Both packages `p` and `q` of a merge load, the second one where the first one was noted as
loaded. -/
structure LoadsBoth (sources : Sources) (desk : Desk) (target other : String)
    (p q : Package Source) : Prop where
  dest : (load sources.dest desk target).result = .ok p
  src : (load sources.src (load sources.dest desk target).desk other).result = .ok q

theorem LoadsBoth.of_apart (hdest : (load sources.dest desk dest).result = .ok p)
    (hsrc : (load sources.src desk src).result = .ok q)
    (hapart : ∀ log ∈ desk.logPaths, ¬ desk.files.LeadsTo src log) :
    LoadsBoth sources desk dest src p q :=
  ⟨hdest, result_load_after sources.dest dest hsrc hapart⟩

theorem LoadsBoth.unique (h : LoadsBoth sources desk dest src p q)
    (hother : LoadsBoth sources desk dest src p' q') : p' = p ∧ q' = q :=
  ⟨Except.ok.inj (hother.dest.symm.trans h.dest), Except.ok.inj (hother.src.symm.trans h.src)⟩

theorem exitCode_merge_of_not_loads (h : ∀ p q, ¬ LoadsBoth sources desk dest src p q)
    (settings : Settings) (output : Option String) (mode : Mode) :
    (merge settings sources desk dest src output mode).exitCode = .fatal := by
  rcases load_cases sources.dest desk dest with ⟨p, hdest⟩ | ⟨-, e, hdest, hfatal⟩
  · rcases load_cases sources.src (load sources.dest desk dest).desk src with
      ⟨q, hsrc⟩ | ⟨-, e, hsrc, hfatal⟩
    · exact absurd ⟨hdest, hsrc⟩ (h p q)
    · have hresult : (merge settings sources desk dest src output mode).result = .error e := by
        simp only [merge, Ran.andThen, hdest, hsrc]
      rw [Ran.exitCode_of_error hresult, hfatal]
  · have hresult : (merge settings sources desk dest src output mode).result = .error e := by
      simp only [merge, Ran.andThen, hdest]
    rw [Ran.exitCode_of_error hresult, hfatal]

theorem exitCode_merge_of_error {error : Error} {merged : Package Source}
    (h : LoadsBoth sources desk dest src p q) (hmerge : p.merge mode q = (.error error, merged)) :
    (merge settings sources desk dest src output mode).exitCode =
      (ToolError.manifest error).exitCode := by
  rw [merge_of_loads h.dest h.src, hmerge]
  rfl

/-- A merge whose packages `p` and `q` are merged ends well if the target can be written. -/
theorem exitCode_merge_of_ok {report : MergeReport} {merged : Package Source}
    (h : LoadsBoth sources desk dest src p q) (hmerge : p.merge mode q = (.ok report, merged)) :
    (merge settings sources desk dest src output mode).exitCode =
      match desk.files.target (output.getD dest) with
      | .ok _ => .success
      | .error _ => .fatal := by
  cases htarget : desk.files.target (output.getD dest) with
  | ok names =>
      have hresult : (merge settings sources desk dest src output mode).result = .ok report :=
        (stored_of_merge sources h.dest h.src hmerge htarget).1
      exact Ran.exitCode_of_ok hresult
  | error problem =>
      -- What was noted since cannot have made room for the target.
      have hnoted := (touches_middle sources desk dest src p q mode).trans
        (Desk.touches_noteAll _ (mergeRecords p q report))
      obtain ⟨other, hother⟩ := FileTree.exists_problem_of_differsAt htarget hnoted.files
      rw [merge_of_loads h.dest h.src, hmerge]
      simp only [save_of_problem hother]
      rfl

theorem tells_merge (hspare : mode = .merge → ∀ p q, LoadsBoth sources desk dest src p q →
      ∃ report merged, p.merge .merge q = (.ok report, merged)) :
    Tells (merge settings sources desk dest src output mode).exitCode
      (mode = .fail ∧ ∃ p q, LoadsBoth sources desk dest src p q ∧ ∃ key ∈ p.ids, key ∈ q.ids)
      False
      ((∃ p q, LoadsBoth sources desk dest src p q ∧
          (mode = .fail → ∀ key ∈ p.ids, key ∉ q.ids)) ∧
        ∃ names, desk.files.target (output.getD dest) = .ok names) := by
  by_cases hloads : ∃ p q, LoadsBoth sources desk dest src p q
  · obtain ⟨p, q, hboth⟩ := hloads
    have hp := coherent_of_load hboth.dest
    have hq := coherent_of_load hboth.src
    rcases hmerge : p.merge mode q with ⟨answer, merged⟩
    cases answer with
    | error error =>
        rw [exitCode_merge_of_error hboth hmerge]
        rcases Package.merge_error_cases hp hq hmerge with
          ⟨hmode, hshared, key, rfl⟩ | ⟨hmode, -⟩
        · refine tells_conflict ⟨hmode, p, q, hboth, hshared⟩ not_false ?_
          rintro ⟨⟨p', q', hother, hapart⟩, -⟩
          obtain ⟨rfl, rfl⟩ := hboth.unique hother
          obtain ⟨key, hheld, hbrought⟩ := hshared
          exact hapart hmode key hheld hbrought
        · obtain ⟨report, after, hok⟩ := hspare hmode p q hboth
          rw [hmode, hok] at hmerge
          cases congrArg Prod.fst hmerge
    | ok report =>
        have hapart : mode = .fail → ∀ key ∈ p.ids, key ∉ q.ids := by
          rintro rfl
          exact Package.apart_of_merge_fail hp hmerge
        have hnoConflict : ¬ (mode = .fail ∧ ∃ p q, LoadsBoth sources desk dest src p q ∧
            ∃ key ∈ p.ids, key ∈ q.ids) := by
          rintro ⟨hmode, p', q', hother, key, hheld, hbrought⟩
          obtain ⟨rfl, rfl⟩ := hboth.unique hother
          exact hapart hmode key hheld hbrought
        rw [exitCode_merge_of_ok hboth hmerge]
        cases htarget : desk.files.target (output.getD dest) with
        | ok names => exact tells_success hnoConflict not_false ⟨⟨p, q, hboth, hapart⟩, names, rfl⟩
        | error problem =>
            refine tells_fatal hnoConflict not_false ?_
            rintro ⟨-, names, hnames⟩
            cases hnames
  · rw [exitCode_merge_of_not_loads fun p q hboth => hloads ⟨p, q, hboth⟩]
    refine tells_fatal ?_ not_false ?_
    · rintro ⟨-, p, q, hboth, -⟩
      exact hloads ⟨p, q, hboth⟩
    · rintro ⟨⟨p, q, hboth, -⟩, -⟩
      exact hloads ⟨p, q, hboth⟩

end Operations

end MediaManifest
