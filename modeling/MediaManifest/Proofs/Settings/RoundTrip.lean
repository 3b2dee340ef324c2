import Mathlib.Data.List.Perm.Basic
import MediaManifest.CommandLine.Execution
import MediaManifest.Proofs.FileTree.Writing
import MediaManifest.Proofs.Toml.Lines

/-!
# Settings that are stored and read again

Settings are written with a line for each one that is given, and read key by
key in alphabetical order.  Which key is read first makes no difference, since
each sets what stands under it and leaves the rest; what is not given is
absent in the standard settings too.
-/

namespace MediaManifest

open Toml (Line IsBare)

namespace Settings

variable {s : Settings}

/-! ## Lines -/

/-- The line of the setting `key` that is a text `s`. -/
def textLine (key : String) (bare : IsBare key.toList) (s : String) : Line :=
  ⟨key, Toml.quote s, .text s, bare, Toml.denotes_quote s⟩

theorem denotes_flagText (b : Bool) : Toml.Denotes (flagText b).toList (.boolean b) := by
  cases b with
  | true => exact Toml.denotes_atom (by decide) (by decide) (by decide) rfl
  | false => exact Toml.denotes_atom (by decide) (by decide) (by decide) rfl

/-- The line of the setting `key` that is true or false. -/
def flagLine (key : String) (bare : IsBare key.toList) (b : Bool) : Line :=
  ⟨key, flagText b, .boolean b, bare, denotes_flagText b⟩

/-- The lines of the settings `s`, in the order in which they are written. -/
def lines (s : Settings) : List Line :=
  [textLine "merge_mode" (by decide) s.mergeMode.name,
      textLine "log_level" (by decide) s.logLevel.name] ++
    (s.logFile.map (textLine "log_file" (by decide))).toList ++
    [flagLine "verbose" (by decide) s.verbose, flagLine "pretty" (by decide) s.pretty] ++
    (s.idStem.map (textLine "id_prefix" (by decide))).toList

def entries (s : Settings) : Toml.Entries :=
  s.lines.map Line.entry

theorem toList_text (s : Settings) : s.text.toList = s.lines.flatMap Line.chars := by
  obtain ⟨mode, level, file, verbose, pretty, stem⟩ := s
  cases file <;> cases stem <;>
    simp [text, lines, settingLine, optionalLine, textLine, flagLine, Line.chars]

theorem nodup_keys (s : Settings) : (s.lines.map Line.key).Nodup := by
  obtain ⟨mode, level, file, verbose, pretty, stem⟩ := s
  cases file <;> cases stem <;> simp [lines, textLine, flagLine]

theorem entries?_text (s : Settings) : Toml.entries? s.text = some s.entries :=
  Line.entries?_of_toList_eq s.toList_text s.nodup_keys

/-! ## Reading -/

/-- The settings `t` with the one under `key` taken from `s`. -/
def take (s t : Settings) (key : String) : Settings where
  mergeMode := if key = "merge_mode" then s.mergeMode else t.mergeMode
  logLevel := if key = "log_level" then s.logLevel else t.logLevel
  logFile := if key = "log_file" then s.logFile else t.logFile
  verbose := if key = "verbose" then s.verbose else t.verbose
  pretty := if key = "pretty" then s.pretty else t.pretty
  idStem := if key = "id_prefix" then s.idStem else t.idStem

/-- The settings under the keys `first` and `second` are taken in either order. -/
theorem take_comm (s t : Settings) (first second : String) :
    s.take (s.take t first) second = s.take (s.take t second) first := by
  have hswap {α : Type} (p q : Prop) [Decidable p] [Decidable q] (a b : α) :
      (if p then a else if q then a else b) = if q then a else if p then a else b := by
    split_ifs <;> rfl
  unfold take
  congr 1 <;> exact hswap _ _ _ _

/-- A line `l` of the settings `s` sets what they have under its key. -/
theorem set_of_mem_lines {l : Line} (hmem : l ∈ s.lines) (t : Settings) :
    t.set l.key l.value = .ok (s.take t l.key) := by
  simp only [lines, List.mem_append, List.mem_cons, List.not_mem_nil, or_false,
    Option.mem_toList, Option.map_eq_some_iff] at hmem
  obtain (((rfl | rfl) | ⟨path, hpath, rfl⟩) | rfl | rfl) | ⟨stem, hstem, rfl⟩ := hmem
  · simp [set, take, textLine, readName, named, Except.map]
  · simp [set, take, textLine, readName, named, Except.map]
  · simp [set, take, textLine, readText, hpath, Except.map]
  · simp [set, take, flagLine, readFlag, Except.map]
  · simp [set, take, flagLine, readFlag, Except.map]
  · simp [set, take, textLine, readText, hstem, Except.map]

/-- The lines `entries` of `s` set what `s` has under their keys, in whatever order they come. -/
theorem foldlM_set {entries : Toml.Entries} (hsub : entries ⊆ s.entries) (t : Settings) :
    entries.foldlM (fun t entry => t.set entry.1 entry.2) t =
      (.ok ((entries.map Prod.fst).foldl s.take t) : Except Fault Settings) := by
  induction entries generalizing t with
  | nil => rfl
  | cons entry entries ih =>
      obtain ⟨hmem, hrest⟩ := List.cons_subset.mp hsub
      obtain ⟨l, hl, rfl⟩ := List.mem_map.mp hmem
      have hset : t.set l.entry.1 l.entry.2 = .ok (s.take t l.entry.1) := set_of_mem_lines hl t
      rw [List.foldlM_cons, hset]
      exact ih hrest (s.take t l.entry.1)

/-- What is not given is absent in the settings `standard` too. -/
theorem foldl_take_standard (s : Settings) :
    (s.entries.map Prod.fst).foldl s.take standard = s := by
  obtain ⟨mode, level, file, verbose, pretty, stem⟩ := s
  cases file <;> cases stem <;>
    simp [entries, lines, textLine, flagLine, Line.entry, take, standard]

theorem ofEntries_entries (s : Settings) : ofEntries s.entries = .ok s := by
  have hperm := List.mergeSort_perm s.entries fun a b => decide (a.1 ≤ b.1)
  have hread := foldlM_set hperm.subset standard
  have hkeys := (hperm.map Prod.fst).foldl_eq' (fun _ _ _ _ t => s.take_comm t _ _) standard
  rw [hkeys, foldl_take_standard] at hread
  exact hread

theorem ofText_text (s : Settings) : ofText s.text = .ok s := by
  rw [ofText, entries?_text]
  exact s.ofEntries_entries

end Settings

namespace CommandLine

/-- Stores the settings `s` in the file at `path`. -/
def storeSettings (files : FileTree) (path : String) (s : Settings) :
    Except ToolError FileTree :=
  (files.write path (.text s.text)).mapError fun problem => .io problem.message

variable {files after : FileTree} {path : String}

theorem exists_storeSettings_iff (s : Settings) :
    (∃ after, storeSettings files path s = .ok after) ↔
      ∃ names, files.target path = .ok names := by
  simp only [storeSettings, Except.mapError_eq_ok_iff, FileTree.write,
    Except.exists_map_eq_ok_iff]

/-- Settings `s` are read back equal from their text, and from every file that they can be stored
in, which is every `path` that leads to a file or to a free place for one. -/
theorem settingsIn_storeSettings (s : Settings) (files : FileTree) (path : String) :
    Settings.ofText s.text = .ok s ∧
      ((∃ after, storeSettings files path s = .ok after) ↔
        ∃ names, files.target path = .ok names) ∧
      ∀ after, storeSettings files path s = .ok after → settingsIn after path = .ok s := by
  refine ⟨s.ofText_text, exists_storeSettings_iff s, fun after hstore => ?_⟩
  have htext := FileTree.readText_of_write (Except.mapError_eq_ok_iff.mp hstore)
  rw [settingsIn, htext]
  exact Except.mapError_eq_ok_iff.mpr s.ofText_text

/-- Both texts have several lines.  The first one holds a backslash and three quotes in a row of
each kind, the second one characters that have no letter to escape them. -/
theorem settingsIn_storeSettings_of_awkward_texts :
    let s : Settings :=
      ⟨.fail, .trace, some "a\\\"\"\"b\n'''c\r\n", true, false, some "\n\x00\x7f'\""⟩
    let files := FileTree.ofList ["work"] [("old.toml", .file (.text "verbose = 3"))]
    ∃ after, storeSettings files "old.toml" s = .ok after ∧
      settingsIn after "old.toml" = .ok s := by
  intro s files
  obtain ⟨-, hstores, hreads⟩ := settingsIn_storeSettings s files "old.toml"
  obtain ⟨after, hstore⟩ := hstores.mpr ⟨["work", "old.toml"], rfl⟩
  exact ⟨after, hstore, hreads after hstore⟩

end CommandLine

end MediaManifest
