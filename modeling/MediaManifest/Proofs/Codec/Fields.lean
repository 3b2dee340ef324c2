import MediaManifest.Proofs.Codec.Written
import MediaManifest.Proofs.Text.Flavors

/-!
# Reading written fields

What is written of a flavor, of tags, of a checksum and of a reference is read
as the same again.
-/

namespace MediaManifest

open Json (Tree Value)

namespace Tags

theorem eq_of_toList_eq {a b : Tags} (h : a.toList = b.toList) : a = b := by
  cases a
  cases b
  simp only at h
  subst h
  rfl

theorem insertIn_of_forall_lt {tag : String} {ts : List String} (h : ∀ t ∈ ts, t < tag) :
    insertIn tag ts = ts ++ [tag] := by
  induction ts with
  | nil => rfl
  | cons t ts ih =>
      have hlt : t < tag := h t List.mem_cons_self
      have hne : tag ≠ t := by
        rintro rfl
        exact String.lt_irrefl tag hlt
      rw [insertIn, if_neg hne, if_neg (String.lt_asymm hlt),
        ih fun u hu => h u (List.mem_cons_of_mem t hu), List.cons_append]

end Tags

namespace Codec

theorem readOptional_of_ok {α : Type} {read : Tree → Except Fault α} {tree : Tree} {a : α}
    (hread : read tree = .ok a) (hpresent : tree ≠ .null) :
    readOptional read tree = .ok (some a) := by
  unfold readOptional
  split
  · exact absurd rfl hpresent
  · rw [hread]
    rfl

/-- Tags `rest` that are read in ascending order all go behind the tags `front`. -/
theorem readTagItems_ofItems {front all : Tags} {rest : List String}
    (h : all.toList = front.toList ++ rest) :
    readTagItems front (Tree.ofItems (rest.map Value.text)) = .ok all := by
  induction rest generalizing front with
  | nil =>
      rw [List.append_nil] at h
      exact congrArg Except.ok (Tags.eq_of_toList_eq h.symm)
  | cons tag rest ih =>
      have hascending := all.ascending
      rw [h] at hascending
      have hlow : ∀ t ∈ front.toList, t < tag := fun t ht =>
        (List.pairwise_append.mp hascending).2.2 t ht tag List.mem_cons_self
      have hinsert : (front.insert tag).toList = front.toList ++ [tag] :=
        Tags.insertIn_of_forall_lt hlow
      have hrest : all.toList = (front.insert tag).toList ++ rest := by
        rw [h, hinsert, List.append_assoc, List.singleton_append]
      exact ih hrest

theorem readTags_ofValue (tags : Tags) :
    readTags (Tree.ofValue (.list (tags.toList.map Value.text))) = .ok tags := by
  have hitems : readTagItems .empty (Tree.ofItems (tags.toList.map Value.text)) = .ok tags :=
    readTagItems_ofItems rfl
  rw [Tree.ofValue, readTags, hitems]
  rfl

theorem sortedItems_texts (ts : List String) :
    Value.sortedItems (ts.map Value.text) = ts.map Value.text := by
  rw [Value.sortedItems_eq, List.map_map]
  rfl

theorem readFlavor_ofValue (f : Flavor) :
    readFlavor (Tree.ofValue (.text f.text)) = .ok f := by
  have hread : readFlavor (Tree.ofValue (.text f.text)) =
      (Flavor.parse f.text).mapError Fault.flavor := rfl
  rw [hread, f.parse_text]
  rfl

theorem sorted_checksum (c : Checksum) : c.toJson.sorted = c.toJson :=
  rfl

theorem readChecksum_ofValue (c : Checksum) :
    readChecksum (Tree.ofValue c.toJson) = .ok c := by
  obtain ⟨kind, value⟩ := c
  cases kind <;> rfl

/-- The fields of a reference are read in the other order than they were written in. -/
theorem sorted_reference (r : Reference) :
    r.toJson.sorted = .object [("id", .text r.id), ("type", .text r.kind)] :=
  rfl

theorem readReference_ofValue (r : Reference) :
    readReference (Tree.ofValue r.toJson.sorted) = .ok r := by
  rw [sorted_reference]
  rfl

end Codec

end MediaManifest
