import Mathlib.Data.List.Perm.Basic
import MediaManifest.CommandLine.Execution
import MediaManifest.Support.Except
import MediaManifest.Proofs.Toml.Keys

/-!
# The mode of a merge

The mode given on the command line wins.  Without one it is what the settings
file names, if there is such a file, all of it is in order and it names one.
Settings are read key by key in alphabetical order; since no key stands twice,
what is read under one key is not changed by what is read under another.
-/

namespace MediaManifest

open Toml (Value Entries)

namespace Settings

variable {s after : Settings} {key : String} {value : Value} {entries : List (String × Value)}

/-- The mode that a `value` names. -/
def readMode (value : Value) : Except Fault Mode :=
  readName Mode.ofName? (Mode.all.map Mode.name) value

theorem readMode_of_set (hset : s.set "merge_mode" value = .ok after) :
    readMode value = .ok after.mergeMode := by
  obtain ⟨mode, hmode, rfl⟩ := Except.map_eq_ok_iff.mp hset
  exact hmode

theorem mergeMode_of_set (hkey : key ≠ "merge_mode") (hset : s.set key value = .ok after) :
    after.mergeMode = s.mergeMode := by
  unfold set at hset
  split at hset
  · obtain ⟨_, -, rfl⟩ := Except.map_eq_ok_iff.mp hset
    rfl
  · obtain ⟨_, -, rfl⟩ := Except.map_eq_ok_iff.mp hset
    rfl
  · obtain ⟨_, -, rfl⟩ := Except.map_eq_ok_iff.mp hset
    rfl
  · exact absurd rfl hkey
  · obtain ⟨_, -, rfl⟩ := Except.map_eq_ok_iff.mp hset
    rfl
  · obtain ⟨_, -, rfl⟩ := Except.map_eq_ok_iff.mp hset
    rfl
  · split at hset
    · obtain rfl := Except.ok.inj hset
      rfl
    · cases hset

/-- The `entries`, without a key twice, set the mode that stands under the key `merge_mode`, and
leave it as it is if nothing stands there. -/
theorem mergeMode_of_foldlM (hdistinct : (entries.map Prod.fst).Nodup)
    (hfold : entries.foldlM (fun s (key, value) => s.set key value) s = .ok after) :
    (∀ value, ("merge_mode", value) ∈ entries → readMode value = .ok after.mergeMode) ∧
      ("merge_mode" ∉ entries.map Prod.fst → after.mergeMode = s.mergeMode) := by
  induction entries generalizing s with
  | nil =>
      obtain rfl := Except.ok.inj hfold
      exact ⟨fun value hmem => absurd hmem List.not_mem_nil, fun _ => rfl⟩
  | cons entry entries ih =>
      obtain ⟨key, first⟩ := entry
      obtain ⟨hnew, hrest⟩ := List.nodup_cons.mp hdistinct
      rw [List.foldlM_cons] at hfold
      obtain ⟨next, hset, hfold⟩ := Except.bind_eq_ok_iff.mp hfold
      obtain ⟨hset', hkeep⟩ := ih hrest hfold
      by_cases hkey : key = "merge_mode"
      · subst hkey
        have hmode := readMode_of_set hset
        rw [← hkeep hnew] at hmode
        refine ⟨fun value hmem => ?_, fun hnot => absurd List.mem_cons_self hnot⟩
        rcases List.mem_cons.mp hmem with hsame | hmem
        · obtain ⟨-, rfl⟩ := Prod.mk.inj hsame
          exact hmode
        · exact absurd (List.mem_map_of_mem (f := Prod.fst) hmem) hnew
      · refine ⟨fun value hmem => ?_, fun hnot => ?_⟩
        · rcases List.mem_cons.mp hmem with hsame | hmem
          · exact absurd (Prod.mk.inj hsame).1.symm hkey
          · exact hset' value hmem
        · rw [hkeep fun hmem => hnot (List.mem_cons_of_mem _ hmem), mergeMode_of_set hkey hset]

theorem mergeMode_of_ofEntries {entries : Entries} (hdistinct : entries.Distinct)
    (hread : ofEntries entries = .ok after) :
    after.mergeMode =
      ((entries.find? "merge_mode").bind fun value => (readMode value).toOption).getD .merge := by
  -- Sorting moves the entries but brings no key a second time.
  have hperm := List.mergeSort_perm entries fun a b => decide (a.1 ≤ b.1)
  have hkeys := hperm.map Prod.fst
  obtain ⟨hset, hkeep⟩ := mergeMode_of_foldlM (hkeys.nodup_iff.mpr hdistinct) hread
  cases hfind : entries.find? "merge_mode" with
  | some value =>
      obtain ⟨front, back, rfl, -⟩ := List.lookup_eq_some_iff.mp hfind
      have hmem := hperm.mem_iff.mpr (List.mem_append_right front List.mem_cons_self)
      rw [Option.bind_some, hset value hmem]
      rfl
  | none =>
      apply hkeep
      rw [hkeys.mem_iff]
      exact Toml.Entries.find?_eq_none_iff.mp hfind

end Settings

namespace CommandLine

/-- The mode that the settings file at `path` names: it can be read, everything in it is in order,
and the key of the mode stands in it. -/
def configuredMode? (files : FileTree) (path : String) : Option Mode :=
  match files.readText path with
  | .error _ => none
  | .ok text =>
    match Toml.entries? text with
    | none => none
    | some entries =>
      match Settings.ofEntries entries with
      | .error _ => none
      | .ok _ => (entries.find? "merge_mode").bind fun value => (Settings.readMode value).toOption

theorem loadSettings_of_ofText {files : FileTree} {path text : String} {settings : Settings}
    (htext : files.readText path = .ok text) (hread : Settings.ofText text = .ok settings) :
    loadSettings files (some path) = (settings, "") := by
  simp only [loadSettings, settingsIn, htext, hread]
  rfl

/-- The mode of the settings is the one that their file names, and else `merge`, the one that
renames. -/
theorem mergeMode_loadSettings (files : FileTree) (path : Option String) :
    (loadSettings files path).1.mergeMode = (path.bind (configuredMode? files)).getD .merge := by
  cases path with
  | none => rfl
  | some path =>
      rw [Option.bind_some, loadSettings, configuredMode?, settingsIn]
      cases files.readText path with
      | error problem => rfl
      | ok text =>
          simp only [Settings.ofText]
          cases hentries : Toml.entries? text with
          | none => rfl
          | some entries =>
              simp only
              cases hread : Settings.ofEntries entries with
              | error fault => rfl
              | ok settings =>
                  exact Settings.mergeMode_of_ofEntries (Toml.distinct_of_entries? hentries) hread

/-- The mode of a merge: the one `given` on the command line, else the one that the settings file
names, else the one that renames. -/
def chosenMode (files : FileTree) (options : Options) (given : Option Mode) : Mode :=
  given.getD ((options.config.bind (configuredMode? files)).getD .merge)

theorem effectiveMode_eq_chosenMode (files : FileTree) (options : Options)
    (given : Option Mode) :
    effectiveMode (options.over (loadSettings files options.config).1) given =
      chosenMode files options given := by
  have hsettings := mergeMode_loadSettings files options.config
  exact congrArg given.getD hsettings

end CommandLine

end MediaManifest
