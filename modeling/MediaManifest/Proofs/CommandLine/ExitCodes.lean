import MediaManifest.Proofs.CommandLine.Configuration
import MediaManifest.Proofs.Operations.Failures
import MediaManifest.Proofs.Operations.Repetition
import MediaManifest.Proofs.Settings.RoundTrip

/-!
# Exit codes

Scripts tell a conflict from broken rules and from all other failures by the
exit code alone.  What leads to each of the codes (`Conflicts`, `FailsCheck`,
`Succeeds`) is said here by what the command finds: the files as they are once
the log is open, and the packages in them.  The code does not depend on what is
printed or logged.  A command that succeeds leaves the files as `Leaves` says.

Two things are beyond the files.  A merge that renames also fails if a random
identifier turns up twice, or if numbers run out; one that is `Spared` meets
neither.
-/

namespace MediaManifest.CommandLine

open FileTree (DiffersAt)
open Operations (LoadsBoth NumbersLast Sources Stored load)

/-! ## What a command finds -/

namespace Surroundings

variable (s : Surroundings) (options : Options)

/-- The settings that a command is run with under the `options`. -/
def settings : Settings :=
  options.over (loadSettings s.files options.config).1

/-- The files and the log as a command finds them under the `options`. -/
def desk : Desk :=
  (openLog (s.settings options) s.logVariable s.files).1

/-- Where the packages of a command draw identifiers from. -/
def sources : Sources :=
  ⟨(s.settings options).source (s.random 0), (s.settings options).source (s.random 1)⟩

/-- What a `command` gives under the `options`. -/
def ran (command : Command) : Ran Printed :=
  command.run (s.settings options) options.json (s.sources options) (s.desk options)

variable {s options}

/-- Without a log file a command finds the files as they were. -/
theorem desk_of_logFile_eq_none (h : (s.settings options).logFile = none) :
    (s.desk options).files = s.files ∧ (s.desk options).logPaths = [] := by
  rw [desk, openLog, h]
  exact ⟨rfl, rfl⟩

end Surroundings

namespace Command

/-- A merge in the mode `fail` whose packages `p` and `q` load and share an identifier. -/
def Conflicts (s : Surroundings) (options : Options) : Command → Prop
  | .merge dest src given _ =>
    chosenMode s.files options given = .fail ∧
      ∃ p q, LoadsBoth (s.sources options) (s.desk options) dest src p q ∧
        ∃ key ∈ p.ids, key ∈ q.ids
  | _ => False

/-- A check whose package `p` loads and has no identifier or a blank one. -/
def FailsCheck (s : Surroundings) (options : Options) : Command → Prop
  | .check file =>
    ∃ p, (load (s.sources options).dest (s.desk options) file).result = .ok p ∧
      ∀ id, p.identifier = some id → Text.blank id = true
  | _ => False

/-- What a command needs in order to do what it is for.  `Leaves` says what it then does to the
files. -/
def Succeeds (s : Surroundings) (options : Options) : Command → Prop
  | .merge dest src given output =>
    (∃ p q, LoadsBoth (s.sources options) (s.desk options) dest src p q ∧
        (chosenMode s.files options given = .fail → ∀ key ∈ p.ids, key ∉ q.ids)) ∧
      ∃ names, (s.desk options).files.target (output.getD dest) = .ok names
  | .check file =>
    ∃ p id, (load (s.sources options).dest (s.desk options) file).result = .ok p ∧
      p.identifier = some id ∧ Text.blank id = false
  | .filter file expressions =>
    (∀ x ∈ expressions, ∃ f, Filter.parse x = .ok f) ∧
      ∃ p, (load (s.sources options).dest (s.desk options) file).result = .ok p
  | .summarize file => ∃ p, (load (s.sources options).dest (s.desk options) file).result = .ok p

/-- The `files` that a command leaves when it has done what it is for: after a merge the target
holds the merged package, and nothing but the target and the log differs; all other commands
change only the log. -/
def Leaves (s : Surroundings) (options : Options) (files : FileTree) : Command → Prop
  | .merge dest src given output =>
    ∃ report after p q merged names, after.files = files ∧
      Stored (s.settings options) (s.sources options) (s.desk options) dest src
        (output.getD dest) (chosenMode s.files options given) report after p q merged names
  | .check _ | .filter _ _ | .summarize _ =>
    DiffersAt (s.desk options).logPaths (s.desk options).files files

/-- If a merge renames, its numbers last, or no random identifier is one that the target holds
when it is drawn.  Other commands than `merge` need nothing. -/
def Spared (s : Surroundings) (options : Options) : Command → Prop
  | .merge dest src given _ =>
    chosenMode s.files options given = .merge →
      ∀ p q, LoadsBoth (s.sources options) (s.desk options) dest src p q →
        match (s.settings options).idStem with
        | some _ => NumbersLast p q
        | none => ∀ front e outcomes grown, Package.Clash p q front e outcomes grown →
          (Generator.next grown.generator).1 ∉ grown.ids
  | _ => True

variable {s : Surroundings} {options : Options} {command : Command} {dest src : String}
  {given : Option Mode} {output : Option String} {p q : Package Source}

/-- A merge that renames and is spared merges its packages `p` and `q`. -/
theorem Spared.exists_merge (h : Spared s options (.merge dest src given output))
    (hmode : chosenMode s.files options given = .merge)
    (hloads : LoadsBoth (s.sources options) (s.desk options) dest src p q) :
    ∃ report merged, p.merge .merge q = (.ok report, merged) := by
  have hspared := h hmode p q hloads
  cases hstem : (s.settings options).idStem with
  | some stem =>
      rw [hstem] at hspared
      obtain ⟨report, merged, hmerge, -⟩ :=
        Operations.exists_merge_of_loads hstem hloads.dest hloads.src hspared
      exact ⟨report, merged, hmerge⟩
  | none =>
      rw [hstem] at hspared
      rcases hmerge : p.merge .merge q with ⟨answer, merged⟩
      cases answer with
      | ok report => exact ⟨report, merged, rfl⟩
      | error error =>
          obtain ⟨front, e, outcomes, grown, hclash, -, hdraw, -⟩ :=
            Package.exists_clash_of_error (Operations.coherent_of_load hloads.dest)
              (Operations.coherent_of_load hloads.src) hmerge
          exact absurd hdraw (hspared front e outcomes grown hclash)

theorem tells_run (h : command.Spared s options) :
    (s.ran options command).exitCode.Tells (command.Conflicts s options)
      (command.FailsCheck s options) (command.Succeeds s options) := by
  cases command with
  | merge dest src given output =>
      rw [Surroundings.ran, run, Ran.exitCode_map, Surroundings.settings,
        effectiveMode_eq_chosenMode]
      exact Operations.tells_merge fun hmode p q hloads => h.exists_merge hmode hloads
  | check file =>
      rw [Surroundings.ran, run, Ran.exitCode_map]
      exact Operations.tells_check _ _ _
  | filter file expressions =>
      rw [Surroundings.ran, run, Ran.exitCode_map]
      exact Operations.tells_filter _ _ _ _
  | summarize file =>
      rw [Surroundings.ran, run, Ran.exitCode_map]
      exact Operations.tells_load _ _ _

/-- A `command` that gives a result has left the files as it should. -/
theorem leaves_run {printed : Printed}
    (h : (s.ran options command).result = .ok printed) :
    command.Leaves s options (s.ran options command).desk.files := by
  cases command with
  | merge dest src given output =>
      obtain ⟨report, hresult, -⟩ := Except.map_eq_ok_iff.mp h
      have hmode : effectiveMode (s.settings options) given = chosenMode s.files options given :=
        effectiveMode_eq_chosenMode s.files options given
      rcases Operations.merge_cases (s.settings options) (s.sources options) (s.desk options) dest
        src output (effectiveMode (s.settings options) given) with
        ⟨error, herror, -⟩ | ⟨report, p, q, merged, names, -, hstored⟩
      · cases hresult.symm.trans herror
      · refine ⟨report, _, p, q, merged, names, rfl, ?_⟩
        rw [← hmode]
        exact hstored
  | check file => exact (Operations.touches_check _ _ file).files
  | filter file expressions => exact (Operations.touches_filter _ _ file expressions).files
  | summarize file => exact (Operations.touches_load _ _ file).files

/-- What a merge of `p` and `q` gives is read as text from its target `names` when the merge has
left the files as it should, unless the log is kept there. -/
theorem Leaves.exists_read {files : FileTree} {names : List String}
    (h : (Command.merge dest src given output).Leaves s options files)
    (hloads : LoadsBoth (s.sources options) (s.desk options) dest src p q)
    (htarget : (s.desk options).files.target (output.getD dest) = .ok names)
    (hlog : names ∉ (s.desk options).logPaths) :
    ∃ report merged, p.merge (chosenMode s.files options given) q = (.ok report, merged) ∧
      files.read (output.getD dest) =
        .ok (.text (Operations.render (s.settings options) merged)) := by
  obtain ⟨report, after, p', q', merged, names', rfl, hstored⟩ := h
  obtain ⟨rfl, rfl⟩ := hloads.unique ⟨hstored.loads.1, hstored.loads.2⟩
  obtain rfl := Except.ok.inj (htarget.symm.trans hstored.target)
  exact ⟨report, merged, hstored.merge,
    hstored.read hlog (FileTree.target_eq_ok_iff.mp htarget).2⟩

end Command

/-- How a `command` ends is told by its result, whatever is printed and logged. -/
theorem exitCode_execute (s : Surroundings) (options : Options) (command : Command) :
    (execute s options command).exitCode = (s.ran options command).exitCode := by
  cases hresult : (s.ran options command).result with
  | ok printed =>
      rw [Ran.exitCode_of_ok hresult]
      simp only [Surroundings.ran, Surroundings.settings, Surroundings.desk,
        Surroundings.sources] at hresult
      simp only [execute, hresult]
  | error e =>
      rw [Ran.exitCode_of_error hresult]
      simp only [Surroundings.ran, Surroundings.settings, Surroundings.desk,
        Surroundings.sources] at hresult
      simp only [execute, hresult]

/-- A `command` that ends with success leaves the files as its operation does. -/
theorem leaves_execute (s : Surroundings) (options : Options) (command : Command)
    (h : (execute s options command).exitCode = .success) :
    command.Leaves s options (execute s options command).files := by
  rw [exitCode_execute] at h
  cases hresult : (s.ran options command).result with
  | ok printed =>
      have hleaves := Command.leaves_run hresult
      simp only [Surroundings.ran, Surroundings.settings, Surroundings.desk,
        Surroundings.sources] at hresult hleaves
      simp only [execute, hresult]
      exact hleaves
  | error e =>
      rw [Ran.exitCode_of_error hresult] at h
      exact absurd h e.exitCode_ne_success

namespace Request

def Conflicts (s : Surroundings) : Request → Prop
  | .run options command => command.Conflicts s options
  | .help | .version => False

def FailsCheck (s : Surroundings) : Request → Prop
  | .run options command => command.FailsCheck s options
  | .help | .version => False

def Succeeds (s : Surroundings) : Request → Prop
  | .run options command => command.Succeeds s options
  | .help | .version => True

def Leaves (s : Surroundings) (files : FileTree) : Request → Prop
  | .run options command => command.Leaves s options files
  | .help | .version => files = s.files

def Spared (s : Surroundings) : Request → Prop
  | .run options command => command.Spared s options
  | .help | .version => True

end Request

variable {s : Surroundings} {args : List String} {request : Request}

theorem tells_of_parse (hparse : parse args = some request) (hspared : request.Spared s) :
    (run s args).exitCode.Tells (request.Conflicts s) (request.FailsCheck s)
      (request.Succeeds s) := by
  cases request with
  | run options command =>
      rw [run, hparse]
      simp only
      rw [exitCode_execute]
      exact Command.tells_run hspared
  | help =>
      rw [run, hparse]
      exact ExitCode.tells_success not_false not_false trivial
  | version =>
      rw [run, hparse]
      exact ExitCode.tells_success not_false not_false trivial

theorem leaves_of_parse (hparse : parse args = some request)
    (h : (run s args).exitCode = .success) : request.Leaves s (run s args).files := by
  cases request with
  | run options command =>
      rw [run, hparse] at h ⊢
      exact leaves_execute s options command h
  | help =>
      rw [run, hparse]
      rfl
  | version =>
      rw [run, hparse]
      rfl

/-- Every command line `args` that is in order ends with one of four codes, and each `code` tells
what happened.  It is 3 for a merge whose packages load and share an identifier in the mode that
fails on that (`Conflicts`), 1 for a check of a package that loads and has no identifier or a
blank one (`FailsCheck`), 0 for a request that has what it needs (`Succeeds`), and 2 for
everything else.  After code 0 the files are as they should be (`Leaves`): a merge has put the
merged package into its target. -/
theorem exitCode_tells (hparse : parse args = some request) (hspared : request.Spared s) :
    let code := (run s args).exitCode.toNat
    (code = 3 ↔ request.Conflicts s) ∧
    (code = 1 ↔ request.FailsCheck s) ∧
    (code = 0 ↔ request.Succeeds s) ∧
    (code = 2 ↔ ¬ request.Conflicts s ∧ ¬ request.FailsCheck s ∧ ¬ request.Succeeds s) ∧
    (code = 0 → request.Leaves s (run s args).files) := by
  have htells := tells_of_parse hparse hspared
  intro code
  have hcode (other : ExitCode) : code = other.toNat ↔ (run s args).exitCode = other :=
    ExitCode.toNat_inj
  exact ⟨(hcode .conflict).trans htells.conflict_iff, (hcode .partly).trans htells.partly_iff,
    (hcode .success).trans htells.success_iff, (hcode .fatal).trans htells.fatal_iff,
    fun hsuccess => leaves_of_parse hparse ((hcode .success).mp hsuccess)⟩

/-- The settings name the mode that fails on conflicts and number identifiers; both files write
the same number.  The mode on the command line wins, and what it merges is written to the
output. -/
theorem exitCode_tells_of_shared_number :
    let d := "\x7b\"elements\":[\x7b\"id\":\"x-1\",\"type\":\"catalog\"\x7d]\x7d"
    let c := "merge_mode = \"fail\"\nlog_level = \"info\"\nverbose = false\npretty = true\n" ++
      "id_prefix = \"x\"\n"
    let s : Surroundings := ⟨⟨[], [(["d"], .file (.text d)), (["s"], .file (.text d)),
      (["c"], .file (.text c))]⟩, none, fun n => .ofBits (· + n)⟩
    let merging := ["-c", "c", "merge", "d", "s", "-m", "merge", "-o", "o"]
    (run s ["-c", "c", "merge", "d", "s"]).exitCode.toNat = 3 ∧
      (run s merging).exitCode.toNat = 0 ∧
      ∃ merged : Package Source, merged.size = 2 ∧
        (run s merging).files.read "o" = .ok (.text (merged.encode true)) := by
  intro d c s merging
  let options : Options := ⟨some "c", none, none, false, false⟩
  have hfails : parse ["-c", "c", "merge", "d", "s"] =
      some (.run options (.merge "d" "s" none none)) := by
    rfl
  have hmerges : parse merging =
      some (.run options (.merge "d" "s" (some .merge) (some "o"))) := by
    rfl
  let settings := { Settings.standard with mergeMode := .fail, idStem := some "x" }
  have hsettings : s.settings options = settings := by
    have hc : c = settings.text := by cbv
    have htext : s.files.readText "c" = .ok c := rfl
    rw [hc] at htext
    rw [Surroundings.settings, loadSettings_of_ofText htext settings.ofText_text]
    rfl
  have hmode : chosenMode s.files options none = .fail := by
    rw [← effectiveMode_eq_chosenMode]
    exact congrArg Settings.mergeMode hsettings
  have hsources : s.sources options = ⟨.sequential (.ofStem "x"), .sequential (.ofStem "x")⟩ := by
    rw [Surroundings.sources, hsettings]
    rfl
  obtain ⟨hfiles, hlog⟩ :=
    Surroundings.desk_of_logFile_eq_none (congrArg Settings.logFile hsettings)
  let e := Element.ofBody .catalog
  have hd : d = Contents.encode false ⟨none, none, [e.withId "x-1"]⟩ := by cbv
  have hload : ∀ path, s.files.read path = .ok (.text d) → ∃ p,
      (load (.sequential (.ofStem "x")) (s.desk options) path).result = .ok p ∧
        p.roster = ⟨none, none, [e.withId "x-1"], .sequential ⟨"x", 1⟩⟩ := by
    intro path hread
    rw [← hfiles, hd] at hread
    exact Operations.exists_load_encode hread
      (by simp [e, Element.Filled, Element.ofBody, Element.withId]) (by cbv)
  obtain ⟨p, hdest, hp⟩ := hload "d" rfl
  obtain ⟨q, hsrc, hq⟩ := hload "s" rfl
  have hboth : LoadsBoth (s.sources options) (s.desk options) "d" "s" p q := by
    rw [hsources]
    refine .of_apart hdest hsrc ?_
    rw [hlog]
    exact fun log hmem => absurd hmem List.not_mem_nil
  have hids : p.ids = ["x-1"] ∧ q.ids = ["x-1"] :=
    ⟨congrArg Roster.ids hp, congrArg Roster.ids hq⟩
  have hlengths : p.elements.length = 1 ∧ q.elements.length = 1 :=
    ⟨congrArg (fun r => r.elements.length) hp, congrArg (fun r => r.elements.length) hq⟩
  constructor
  · have hspared : Request.Spared s (.run options (.merge "d" "s" none none)) := fun hother =>
      absurd (hmode.symm.trans hother) (by decide)
    refine (exitCode_tells hfails hspared).1.mpr ⟨hmode, p, q, hboth, "x-1", ?_⟩
    rw [hids.1, hids.2]
    decide
  · have hspared :
        Request.Spared s (.run options (.merge "d" "s" (some .merge) (some "o"))) := by
      intro _ p' q' hother
      obtain ⟨rfl, rfl⟩ := hboth.unique hother
      rw [hsettings]
      refine NumbersLast.of_generator (congrArg Roster.generator hp) ?_
      rw [hids.2, hlengths.2]
      decide
    have htarget : (s.desk options).files.target "o" = .ok ["o"] := by
      rw [hfiles]
      rfl
    obtain ⟨-, -, hsucceeds, -, hleaves⟩ := exitCode_tells hmerges hspared
    have hcode := hsucceeds.mpr
      ⟨⟨p, q, hboth, fun hother => absurd hother (by decide)⟩, ["o"], htarget⟩
    obtain ⟨_, merged, hmerge, hread⟩ := Command.Leaves.exists_read (hleaves hcode) hboth htarget
      (by rw [hlog]; exact List.not_mem_nil)
    refine ⟨hcode, merged, ?_, ?_⟩
    · have hp := Operations.coherent_of_load hdest
      have hq := Operations.coherent_of_load hsrc
      rw [Package.size_of_merge hp hq hmerge, Package.size_eq hp, Package.size_eq hq,
        hlengths.1, hlengths.2]
    · rw [hsettings] at hread
      exact hread

end MediaManifest.CommandLine
