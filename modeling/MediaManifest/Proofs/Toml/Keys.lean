import Mathlib.Data.List.Nodup
import MediaManifest.Toml.Document

/-!
# Keys of TOML documents

No key stands twice in the root table of a document.  A line puts something new
under a key that is not there, or something else in the place of what is there.
-/

namespace MediaManifest.Toml

namespace Entries

variable {entries after : Entries} {key : String} {value : Value}

/-- No key stands twice among the `entries`. -/
def Distinct (entries : Entries) : Prop :=
  (entries.map Prod.fst).Nodup

theorem find?_eq_none_iff : entries.find? key = none ↔ key ∉ entries.map Prod.fst := by
  rw [find?, List.lookup_eq_none_iff, List.mem_map, not_exists]
  simp only [not_and, bne_iff_ne]
  exact forall₂_congr fun _ _ => ne_comm

theorem map_fst_replace (key : String) (value : Value) (entries : Entries) :
    (entries.replace key value).map Prod.fst = entries.map Prod.fst := by
  induction entries with
  | nil => rfl
  | cons entry entries ih =>
      obtain ⟨k, v⟩ := entry
      unfold replace
      split
      · rfl
      · rw [List.map_cons, List.map_cons, ih]

theorem Distinct.replace (h : entries.Distinct) (key : String) (value : Value) :
    (entries.replace key value).Distinct := by
  rw [Distinct, map_fst_replace]
  exact h

theorem Distinct.append (h : entries.Distinct) (hnew : entries.find? key = none)
    (value : Value) : (entries.append key value).Distinct := by
  have hfree := find?_eq_none_iff.mp hnew
  have hkeys : (entries.append key value).map Prod.fst = entries.map Prod.fst ++ [key] :=
    List.map_append
  rw [Distinct, hkeys, List.nodup_append]
  refine ⟨h, List.nodup_singleton key, ?_⟩
  rintro other hother _ hkey rfl
  obtain rfl := List.mem_singleton.mp hkey
  exact hfree hother

theorem Distinct.within {change : Entries → Option Entries} {path : List String}
    (hchange : ∀ {es es'}, es.Distinct → change es = some es' → es'.Distinct)
    (h : entries.Distinct) (hwithin : entries.within change path = some after) :
    after.Distinct := by
  unfold Entries.within at hwithin
  split at hwithin
  · exact hchange h hwithin
  · split at hwithin
    · next hnew =>
      obtain ⟨inner, -, rfl⟩ := Option.map_eq_some_iff.mp hwithin
      exact h.append hnew _
    · split at hwithin
      · cases hwithin
      · obtain ⟨inner, -, rfl⟩ := Option.map_eq_some_iff.mp hwithin
        exact h.replace _ _
    · obtain ⟨last, -, rfl⟩ := Option.map_eq_some_iff.mp hwithin
      exact h.replace _ _
    · cases hwithin

theorem Distinct.openTable (h : entries.Distinct) (hopen : entries.openTable key = some after) :
    after.Distinct := by
  unfold Entries.openTable at hopen
  split at hopen
  · next hnew =>
    obtain rfl := Option.some.inj hopen
    exact h.append hnew _
  · obtain rfl := Option.some.inj hopen
    exact h.replace _ _
  · cases hopen

theorem Distinct.openItem (h : entries.Distinct) (hopen : entries.openItem key = some after) :
    after.Distinct := by
  unfold Entries.openItem at hopen
  split at hopen
  · next hnew =>
    obtain rfl := Option.some.inj hopen
    exact h.append hnew _
  · obtain rfl := Option.some.inj hopen
    exact h.replace _ _
  · cases hopen

theorem Distinct.assign {origin : Option Origin} {path : List String} (h : entries.Distinct)
    (hassign : entries.assign value origin path = some after) : after.Distinct := by
  unfold Entries.assign at hassign
  split at hassign
  · cases hassign
  · split at hassign
    · cases hassign
    · split at hassign
      · next hnew =>
        obtain rfl := Option.some.inj hassign
        exact h.append hnew _
      · cases hassign
  · split at hassign
    · next hnew =>
      obtain ⟨inner, -, rfl⟩ := Option.map_eq_some_iff.mp hassign
      exact h.append hnew _
    · split at hassign
      · obtain ⟨inner, -, rfl⟩ := Option.map_eq_some_iff.mp hassign
        exact h.replace _ _
      · cases hassign
    · obtain ⟨last, -, rfl⟩ := Option.map_eq_some_iff.mp hassign
      exact h.replace _ _
    · cases hassign

end Entries

namespace Draft

variable {d after : Draft} {cs rest : List Char}

theorem distinct_enter {path : List String} {opening : String → Entries → Option Entries}
    (hopening : ∀ {key es es'}, Entries.Distinct es → opening key es = some es' →
      Entries.Distinct es')
    (h : d.root.Distinct) (henter : d.enter path opening = some after) : after.root.Distinct := by
  unfold enter at henter
  split at henter
  · obtain ⟨root, hroot, rfl⟩ := Option.map_eq_some_iff.mp henter
    exact h.within hopening hroot
  · cases henter

theorem distinct_readLine (h : d.root.Distinct) (hread : d.readLine cs = some (after, rest)) :
    after.root.Distinct := by
  unfold readLine at hread
  split at hread
  · obtain ⟨rfl, -⟩ := Prod.mk.inj (Option.some.inj hread)
    exact h
  · obtain ⟨rfl, -⟩ := Prod.mk.inj (Option.some.inj hread)
    exact h
  · obtain ⟨rfl, -⟩ := Prod.mk.inj (Option.some.inj hread)
    exact h
  · obtain ⟨rfl, -⟩ := Prod.mk.inj (Option.some.inj hread)
    exact h
  · obtain ⟨⟨path, behind⟩, -, hrest⟩ := Option.bind_eq_some_iff.mp hread
    obtain ⟨entered, henter, hsame⟩ := Option.bind_eq_some_iff.mp hrest
    obtain ⟨rfl, -⟩ := Prod.mk.inj (Option.some.inj hsame)
    exact distinct_enter Entries.Distinct.openItem h henter
  · obtain ⟨⟨path, behind⟩, -, hrest⟩ := Option.bind_eq_some_iff.mp hread
    obtain ⟨entered, henter, hsame⟩ := Option.bind_eq_some_iff.mp hrest
    obtain ⟨rfl, -⟩ := Prod.mk.inj (Option.some.inj hsame)
    exact distinct_enter Entries.Distinct.openTable h henter
  · obtain ⟨⟨key, value, behind⟩, -, hrest⟩ := Option.bind_eq_some_iff.mp hread
    obtain ⟨root, hroot, hsame⟩ := Option.bind_eq_some_iff.mp hrest
    obtain ⟨rfl, -⟩ := Prod.mk.inj (Option.some.inj hsame)
    exact h.within Entries.Distinct.assign hroot

theorem distinct_readLines {fuel : Nat} (h : d.root.Distinct)
    (hread : d.readLines fuel cs = some after) : after.root.Distinct := by
  induction fuel generalizing d cs with
  | zero => cases hread
  | succ fuel ih =>
      unfold readLines at hread
      split at hread
      · cases hread
      · next next behind hline =>
        have hnext := distinct_readLine h hline
        split at hread
        · obtain rfl := Option.some.inj hread
          exact hnext
        · exact ih hnext hread
        · exact ih hnext hread
        · cases hread

end Draft

/-- No key stands twice in the root table of the document `s`. -/
theorem distinct_of_entries? {s : String} {entries : Entries} (hread : entries? s = some entries) :
    entries.Distinct := by
  obtain ⟨d, hlines, rfl⟩ := Option.map_eq_some_iff.mp hread
  have hempty : (⟨[], []⟩ : Draft).root.Distinct := List.nodup_nil
  exact Draft.distinct_readLines hempty hlines

end MediaManifest.Toml
