import MediaManifest.Json.Reading
import MediaManifest.Support.Except

/-!
# JSON documents

An object of a document has no key twice.  A text may write one twice, and then
the later entry stands, so that every text that is read at all is read as a
document.
-/

namespace MediaManifest.Json

namespace Value

mutual

/-- Whether no object within the value has a key twice. -/
def distinctKeys : Value → Bool
  | .null | .bool _ | .number _ | .text _ => true
  | .list items => distinctItems items
  | .object entries => decide (entries.map Prod.fst).Nodup && distinctEntries entries

def distinctItems : List Value → Bool
  | [] => true
  | v :: rest => distinctKeys v && distinctItems rest

def distinctEntries : List (String × Value) → Bool
  | [] => true
  | (_, v) :: rest => distinctKeys v && distinctEntries rest

end

variable {key : String} {v w : Value} {vs : List Value} {es : List (String × Value)}

theorem distinctItems_iff :
    distinctItems vs = true ↔ ∀ v ∈ vs, v.distinctKeys = true := by
  induction vs with
  | nil => simp [distinctItems]
  | cons v vs ih => simp [distinctItems, ih]

theorem distinctEntries_iff :
    distinctEntries es = true ↔ ∀ entry ∈ es, entry.2.distinctKeys = true := by
  induction es with
  | nil => simp [distinctEntries]
  | cons entry es ih => simp [distinctEntries, ih]

theorem distinctKeys_object_iff :
    distinctKeys (.object es) = true ↔
      (es.map Prod.fst).Nodup ∧ ∀ entry ∈ es, entry.2.distinctKeys = true := by
  rw [distinctKeys, Bool.and_eq_true, decide_eq_true_eq, distinctEntries_iff]

theorem mem_of_lookup (h : lookup key es = some v) : (key, v) ∈ es := by
  induction es with
  | nil => cases h
  | cons entry es ih =>
      obtain ⟨k, w⟩ := entry
      rw [lookup] at h
      split at h
      · next hk =>
        subst hk
        obtain rfl := Option.some.inj h
        exact List.mem_cons_self
      · exact List.mem_cons_of_mem _ (ih h)

theorem distinctKeys_of_field? (h : v.distinctKeys = true) (hw : v.field? key = some w) :
    w.distinctKeys = true := by
  cases v with
  | object es => exact (distinctKeys_object_iff.mp h).2 (key, w) (mem_of_lookup hw)
  | null => cases hw
  | bool b => cases hw
  | number n => cases hw
  | text s => cases hw
  | list vs => cases hw

theorem mem_insertEntry {entry : String × Value} (h : entry ∈ insertEntry key v es) :
    entry = (key, v) ∨ entry ∈ es := by
  induction es with
  | nil => exact .inl (List.mem_singleton.mp h)
  | cons first es ih =>
      obtain ⟨k, w⟩ := first
      unfold insertEntry at h
      split at h
      · rcases List.mem_cons.mp h with h | h
        · exact .inl h
        · exact .inr (List.mem_cons_of_mem _ h)
      · split at h
        · rcases List.mem_cons.mp h with h | h
          · exact .inl h
          · exact .inr h
        · rcases List.mem_cons.mp h with rfl | h
          · exact .inr List.mem_cons_self
          · exact (ih h).imp_right (List.mem_cons_of_mem _)

/-- Inserting `v` under `key` keeps the keys in strictly ascending order. -/
theorem pairwise_insertEntry (key : String) (v : Value)
    (h : es.Pairwise fun a b => a.1 < b.1) :
    (insertEntry key v es).Pairwise fun a b => a.1 < b.1 := by
  induction es with
  | nil => exact List.pairwise_singleton _ _
  | cons first es ih =>
      obtain ⟨k, w⟩ := first
      obtain ⟨hlow, hrest⟩ := List.pairwise_cons.mp h
      unfold insertEntry
      split
      · next hsame =>
        subst hsame
        exact List.pairwise_cons.mpr ⟨hlow, hrest⟩
      · next hne =>
        split
        · next hlt =>
          refine List.pairwise_cons.mpr ⟨?_, h⟩
          intro entry hentry
          rcases List.mem_cons.mp hentry with rfl | hentry
          · exact hlt
          · exact String.lt_trans hlt (hlow entry hentry)
        · next hnlt =>
          refine List.pairwise_cons.mpr ⟨?_, ih hrest⟩
          intro entry hentry
          rcases mem_insertEntry hentry with rfl | hentry
          · refine Decidable.byContradiction fun hnot => hne ?_
            exact String.le_antisymm (String.not_lt.mp hnot) (String.not_lt.mp hnlt)
          · exact hlow entry hentry

theorem nodup_of_ascending (h : es.Pairwise fun a b => a.1 < b.1) :
    (es.map Prod.fst).Nodup := by
  refine List.pairwise_map.mpr (h.imp ?_)
  intro a b hlt heq
  rw [heq] at hlt
  exact absurd hlt (String.lt_irrefl b.1)

end Value

/-! ## Reading

Reading puts the entries of an object in the order of their keys, so that none repeats. -/

mutual

theorem distinctKeys_of_read (room : Nat) :
    ∀ (tree : Tree) {v : Value}, tree.read room = .ok v → v.distinctKeys = true
  | .null, v, h => by
      obtain rfl := Except.ok.inj h
      rfl
  | .bool b, v, h => by
      obtain rfl := Except.ok.inj h
      rfl
  | .number n, v, h => by
      obtain ⟨number, -, rfl⟩ := Except.map_eq_ok_iff.mp h
      rfl
  | .text s, v, h => by
      obtain ⟨text, -, rfl⟩ := Except.map_eq_ok_iff.mp h
      rfl
  | .list items cut, v, h => by
      rw [Tree.read] at h
      split at h
      · cases h
      · next inner _ =>
        split at h
        · cases h
        · next values hread =>
          obtain ⟨-, -, rfl⟩ := Except.map_eq_ok_iff.mp h
          exact Value.distinctItems_iff.mpr (distinctKeys_of_readItems inner items hread)
  | .object entries cut, v, h => by
      rw [Tree.read] at h
      split at h
      · cases h
      · next inner _ =>
        split at h
        · cases h
        · next values hread =>
          obtain ⟨-, -, rfl⟩ := Except.map_eq_ok_iff.mp h
          obtain ⟨hsorted, hinner⟩ :=
            distinctKeys_of_readEntries inner entries hread .nil (by simp)
          exact Value.distinctKeys_object_iff.mpr ⟨Value.nodup_of_ascending hsorted, hinner⟩
  | .broken cut, v, h => by cases h

theorem distinctKeys_of_readItems (room : Nat) :
    ∀ (trees : List Tree) {vs : List Value}, Tree.readItems room trees = .ok vs →
      ∀ v ∈ vs, v.distinctKeys = true
  | [], vs, h => by
      obtain rfl := Except.ok.inj h
      simp
  | tree :: trees, vs, h => by
      rw [Tree.readItems] at h
      split at h
      · cases h
      · next value hvalue =>
        obtain ⟨rest, hrest, rfl⟩ := Except.map_eq_ok_iff.mp h
        refine List.forall_mem_cons.mpr ⟨distinctKeys_of_read room tree hvalue, ?_⟩
        exact distinctKeys_of_readItems room trees hrest

theorem distinctKeys_of_readEntries (room : Nat) :
    ∀ (entries : List (Except Fault String × Tree)) {done es : List (String × Value)},
      Tree.readEntries room done entries = .ok es →
      done.Pairwise (fun a b => a.1 < b.1) → (∀ entry ∈ done, entry.2.distinctKeys = true) →
      es.Pairwise (fun a b => a.1 < b.1) ∧ ∀ entry ∈ es, entry.2.distinctKeys = true
  | [], done, es, h, hsorted, hdone => by
      obtain rfl := Except.ok.inj h
      exact ⟨hsorted, hdone⟩
  | (.error fault, tree) :: entries, done, es, h, hsorted, hdone => by cases h
  | (.ok key, tree) :: entries, done, es, h, hsorted, hdone => by
      simp only [Tree.readEntries] at h
      split at h
      · cases h
      · next value hvalue =>
        have hnext := Value.pairwise_insertEntry key value hsorted
        refine distinctKeys_of_readEntries room entries h hnext ?_
        intro entry hentry
        rcases Value.mem_insertEntry hentry with rfl | hentry
        · exact distinctKeys_of_read room tree hvalue
        · exact hdone entry hentry

end

/-- A value `v` that is read from a `content` has no key twice. -/
theorem distinctKeys_of_ofContent {content : Text.Content} {v : Value}
    (h : Value.ofContent content = .ok v) : v.distinctKeys = true := by
  simp only [Value.ofContent, Draft.finish] at h
  split at h
  · cases h
  · next value hread =>
    split at h
    · cases h
    · obtain rfl := Except.ok.inj h
      exact distinctKeys_of_read depthLimit _ hread

/-- A value none of whose objects has a key twice. -/
structure Document where
  value : Value
  distinct : value.distinctKeys = true

namespace Document

instance : Coe Document Value :=
  ⟨value⟩

/-- Reads a `content` as a document. -/
def ofContent (content : Text.Content) : Except Fault Document :=
  match h : Value.ofContent content with
  | .error fault => .error fault
  | .ok value => .ok ⟨value, distinctKeys_of_ofContent h⟩

variable {content : Text.Content} {document : Document}

theorem ofContent_eq_ok_iff :
    ofContent content = .ok document ↔ Value.ofContent content = .ok document.value := by
  unfold ofContent
  split
  · next other h => simp [h]
  · next value h =>
    obtain ⟨found, hdistinct⟩ := document
    simp [h]

end Document

end MediaManifest.Json
