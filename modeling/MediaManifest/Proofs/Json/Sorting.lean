import MediaManifest.Json.Document
import MediaManifest.Proofs.Json.Layout

/-!
# What is read of a written value

A written value is read back with its objects in the order of their keys.
Looking up a key gives the same value as before, provided that no key repeats,
and the keys of an object that was read are distinct.  Nesting must stay within
what a reader takes.
-/

namespace MediaManifest.Json

namespace Value

mutual

/-- The value with the entries of its objects in the order of their keys. -/
def sorted : Value → Value
  | .null => .null
  | .bool b => .bool b
  | .number n => .number n
  | .text s => .text s
  | .list items => .list (sortedItems items)
  | .object entries => .object (sortedEntries [] entries)

def sortedItems : List Value → List Value
  | [] => []
  | v :: rest => sorted v :: sortedItems rest

/-- Entries put among those that are `done`, sorted before. -/
def sortedEntries (done : List (String × Value)) :
    List (String × Value) → List (String × Value)
  | [] => done
  | (key, v) :: rest => sortedEntries (insertEntry key (sorted v) done) rest

end

theorem sortedItems_eq (vs : List Value) : sortedItems vs = vs.map sorted := by
  induction vs with
  | nil => rfl
  | cons v vs ih => rw [sortedItems, List.map_cons, ih]

theorem wholeItems_iff {vs : List Value} :
    wholeItems vs = true ↔ ∀ v ∈ vs, v.whole = true := by
  induction vs with
  | nil => simp [wholeItems]
  | cons v vs ih => simp [wholeItems, ih]

theorem wholeEntries_iff {es : List (String × Value)} :
    wholeEntries es = true ↔ ∀ entry ∈ es, entry.2.whole = true := by
  induction es with
  | nil => simp [wholeEntries]
  | cons entry es ih => simp [wholeEntries, ih]

theorem depthItems_le_iff {vs : List Value} {n : Nat} :
    depthItems vs ≤ n ↔ ∀ v ∈ vs, v.depth ≤ n := by
  induction vs with
  | nil => simp [depthItems]
  | cons v vs ih => rw [depthItems, Nat.max_le, ih, List.forall_mem_cons]

theorem depthEntries_le_iff {es : List (String × Value)} {n : Nat} :
    depthEntries es ≤ n ↔ ∀ entry ∈ es, entry.2.depth ≤ n := by
  induction es with
  | nil => simp [depthEntries]
  | cons entry es ih => rw [depthEntries, Nat.max_le, ih, List.forall_mem_cons]

/-- A value `v` without lists and objects is sorted as it is. -/
theorem sorted_of_depth_eq_zero {v : Value} (h : v.depth = 0) : v.sorted = v := by
  cases v with
  | list items => cases h
  | object entries => cases h
  | null => rfl
  | bool b => rfl
  | number n => rfl
  | text s => rfl

end Value

open Value (depth depthItems depthEntries sortedItems sortedEntries insertEntry lookup)

mutual

/-- The tree of a value `v` that is not nested deeper than `room` is read as the sorted value. -/
theorem read_ofValue (room : Nat) :
    ∀ v : Value, v.depth < room → Tree.read room (Tree.ofValue v) = .ok v.sorted
  | .null, _ => rfl
  | .bool _, _ => rfl
  | .number _, _ => rfl
  | .text _, _ => rfl
  | .list items, hdepth => by
      rw [depth] at hdepth
      have hitems := readItems_ofItems (room - 1) items (by omega)
      rw [Tree.ofValue, Tree.read, Tree.enter, if_neg (by omega)]
      simp only [hitems]
      rfl
  | .object entries, hdepth => by
      rw [depth] at hdepth
      have hentries := readEntries_ofEntries (room - 1) [] entries (by omega)
      rw [Tree.ofValue, Tree.read, Tree.enter, if_neg (by omega)]
      simp only [hentries]
      rfl

theorem readItems_ofItems (room : Nat) :
    ∀ vs : List Value, depthItems vs < room →
      Tree.readItems room (Tree.ofItems vs) = .ok (sortedItems vs)
  | [], _ => rfl
  | v :: vs, hdepth => by
      rw [depthItems] at hdepth
      rw [Tree.ofItems, Tree.readItems, read_ofValue room v (by omega),
        readItems_ofItems room vs (by omega)]
      rfl

theorem readEntries_ofEntries (room : Nat) (done : List (String × Value)) :
    ∀ es : List (String × Value), depthEntries es < room →
      Tree.readEntries room done (Tree.ofEntries es) = .ok (sortedEntries done es)
  | [], _ => rfl
  | (key, v) :: es, hdepth => by
      rw [depthEntries] at hdepth
      rw [Tree.ofEntries, Tree.readEntries]
      simp only [read_ofValue room v (by omega)]
      exact readEntries_ofEntries room (insertEntry key v.sorted done) es (by omega)

end

/-- The text of a value `v` of integers that is not nested too deep (`depthLimit`) is read back as
the sorted value. -/
theorem ofContent_render (indented : Bool) {v : Value} (hwhole : v.whole = true)
    (hdepth : v.depth < depthLimit) :
    Value.ofContent (.text (v.render indented)) = .ok v.sorted := by
  rw [Value.ofContent, Text.Content.symbols, ofSymbols_render indented hwhole, Draft.finish]
  simp only [read_ofValue depthLimit v hdepth]
  rfl

/-! ## Looking up keys -/

namespace Value

variable {key other : String} {v : Value} {es done : List (String × Value)}

theorem lookup_eq_none_iff : lookup key es = none ↔ key ∉ es.map Prod.fst := by
  induction es with
  | nil => simp [lookup]
  | cons entry es ih =>
      obtain ⟨k, w⟩ := entry
      by_cases hk : k = key
      · simp [lookup, hk]
      · simp [lookup, hk, Ne.symm hk, ih]

theorem lookup_append (key : String) (es more : List (String × Value)) :
    lookup key (es ++ more) = (lookup key es).or (lookup key more) := by
  induction es with
  | nil => rfl
  | cons entry es ih =>
      obtain ⟨k, w⟩ := entry
      by_cases hk : k = key
      · simp [lookup, hk]
      · simp [lookup, hk, ih]

/-- Among entries `es` with distinct keys the entry that is found is the only one. -/
theorem lookup_eq_some_iff (hdistinct : (es.map Prod.fst).Nodup) :
    lookup key es = some v ↔ (key, v) ∈ es := by
  induction es with
  | nil => simp [lookup]
  | cons entry es ih =>
      obtain ⟨k, w⟩ := entry
      obtain ⟨hfirst, hrest⟩ := List.nodup_cons.mp hdistinct
      by_cases hk : k = key
      · subst hk
        have hnot : (k, v) ∉ es := fun hmem => hfirst (List.mem_map.mpr ⟨(k, v), hmem, rfl⟩)
        simp [lookup, hnot, eq_comm]
      · simp [lookup, hk, Ne.symm hk, ih hrest]

theorem lookup_insertEntry (key other : String) (v : Value) (es : List (String × Value)) :
    lookup other (insertEntry key v es) = if key = other then some v else lookup other es := by
  induction es with
  | nil => rfl
  | cons entry es ih =>
      obtain ⟨k, w⟩ := entry
      unfold insertEntry
      split
      · next hsame =>
        subst hsame
        by_cases hother : key = other <;> simp [lookup, hother]
      · next hne =>
        split
        · rfl
        · rw [lookup, ih, lookup]
          by_cases hk : k = other
          · have hkey : key ≠ other := fun h => hne (h.trans hk.symm)
            simp [hk, hkey]
          · simp [hk]

/-- Sorting `es` changes no look-up except for sorting what is found. -/
theorem lookup_sortedEntries (hdistinct : (es.map Prod.fst).Nodup) (key : String)
    (done : List (String × Value)) :
    lookup key (sortedEntries done es) = ((lookup key es).map sorted).or (lookup key done) := by
  induction es generalizing done with
  | nil => rfl
  | cons entry es ih =>
      obtain ⟨k, w⟩ := entry
      obtain ⟨hfirst, hrest⟩ := List.nodup_cons.mp hdistinct
      rw [sortedEntries, ih hrest, lookup_insertEntry, lookup]
      by_cases hk : k = key
      · subst hk
        rw [if_pos rfl, if_pos rfl, lookup_eq_none_iff.mpr hfirst]
        rfl
      · rw [if_neg hk, if_neg hk]

theorem pairwise_sortedEntries (es : List (String × Value))
    (hdone : done.Pairwise fun a b => a.1 < b.1) :
    (sortedEntries done es).Pairwise fun a b => a.1 < b.1 := by
  induction es generalizing done with
  | nil => exact hdone
  | cons entry es ih => exact ih (pairwise_insertEntry entry.1 entry.2.sorted hdone)

/-- The keys of the sorted entries `es` are distinct. -/
theorem nodup_sortedEntries (es : List (String × Value)) :
    ((sortedEntries [] es).map Prod.fst).Nodup := by
  exact nodup_of_ascending (pairwise_sortedEntries es .nil)

theorem insertEntry_of_forall_lt (h : ∀ entry ∈ es, key < entry.1) :
    insertEntry key v es = (key, v) :: es := by
  cases es with
  | nil => rfl
  | cons first es =>
      obtain ⟨k, w⟩ := first
      have hlt : key < k := h (k, w) List.mem_cons_self
      have hne : key ≠ k := by
        rintro rfl
        exact String.lt_irrefl key hlt
      rw [insertEntry, if_neg hne, if_pos hlt]

/-- An entry under `key` is inserted where it stands among those that are kept, if it is kept. -/
theorem filter_insertEntry (keep : String → Bool) (key : String) (v : Value)
    (h : es.Pairwise fun a b => a.1 < b.1) :
    (insertEntry key v es).filter (fun entry => keep entry.1) =
      if keep key then insertEntry key v (es.filter fun entry => keep entry.1)
      else es.filter fun entry => keep entry.1 := by
  induction es with
  | nil => simp [insertEntry, List.filter_cons]
  | cons first es ih =>
      obtain ⟨k, w⟩ := first
      obtain ⟨hlow, hrest⟩ := List.pairwise_cons.mp h
      by_cases hsame : key = k
      · subst hsame
        cases hkeep : keep key <;> simp [insertEntry, hkeep]
      · by_cases hlt : key < k
        · have hfront : ∀ entry ∈ (es.filter fun entry => keep entry.1), key < entry.1 := by
            intro entry hentry
            exact String.lt_trans hlt (hlow entry (List.mem_filter.mp hentry).1)
          cases hkeep : keep key <;> cases hk : keep k <;>
            simp [insertEntry, hsame, hlt, hkeep, hk, insertEntry_of_forall_lt hfront]
        · cases hkeep : keep key <;> cases hk : keep k <;>
            simp [insertEntry, hsame, hlt, hkeep, hk, ih hrest]

theorem filter_sortedEntries (keep : String → Bool) (es : List (String × Value))
    (hdone : done.Pairwise fun a b => a.1 < b.1) :
    (sortedEntries done es).filter (fun entry => keep entry.1) =
      sortedEntries (done.filter fun entry => keep entry.1)
        (es.filter fun entry => keep entry.1) := by
  induction es generalizing done with
  | nil => rfl
  | cons entry es ih =>
      rw [sortedEntries, ih (pairwise_insertEntry entry.1 entry.2.sorted hdone),
        filter_insertEntry keep entry.1 entry.2.sorted hdone]
      cases hkeep : keep entry.1 with
      | true => simp [hkeep, sortedEntries]
      | false => simp [hkeep]

theorem field?_sorted (hdistinct : (es.map Prod.fst).Nodup) (key : String) :
    (sorted (.object es)).field? key = (lookup key es).map sorted := by
  rw [sorted, field?, lookup_sortedEntries hdistinct]
  exact Option.or_none

end Value

end MediaManifest.Json
