import MediaManifest.Package.Slots

/-!
# Coherence of slots

Slots are `Aligned` when the index knows exactly the identifiers of the elements
in them, each at its slot.  They are `Coherent` when moreover at least half of
them are occupied.  Removing an element breaks the second part and compaction
restores it, so that every operation leads from coherent slots to coherent ones.

Each operation is also described by what it does to the list of elements.  The
descriptions do not mention positions: a reader of the list cannot tell when the
slots were compacted.
-/

namespace MediaManifest.Slots

variable {s : Slots} {key : String} {pos : Nat} {e x : Element}

/-- An element with the identifier `key` stands at the position `pos`. -/
def Holds (s : Slots) (key : String) (pos : Nat) : Prop :=
  ∃ e, s.cells[pos]? = some (some e) ∧ e.id = some key

/-- The index tells where each identifier stands, and no element lacks one. -/
structure Aligned (s : Slots) : Prop where
  index_iff : ∀ key pos, s.index[key]? = some pos ↔ s.Holds key pos
  identified : ∀ e ∈ s.elements, ∃ key, e.id = some key
  size_eq : s.index.size = s.elements.length

/-- The index is right, and at most half of the slots are empty. -/
structure Coherent (s : Slots) : Prop extends Aligned s where
  dense : s.cells.size ≤ 2 * s.index.size

/-! ## Elements and positions -/

theorem mem_elements_iff : e ∈ s.elements ↔ ∃ pos : Nat, s.cells[pos]? = some (some e) := by
  simp only [elements, List.mem_filterMap, id_eq, exists_eq_right]
  rw [List.mem_iff_getElem?]
  simp

/-- The elements `front` and `back` around the occupied slot `pos`. -/
theorem exists_cut (hcell : s.cells[pos]? = some (some e)) :
    ∃ front back : List (Option Element),
      s.cells.toList = front ++ some e :: back ∧ front.length = pos := by
  rw [← Array.getElem?_toList] at hcell
  obtain ⟨hpos, hget⟩ := List.getElem?_eq_some_iff.mp hcell
  refine ⟨s.cells.toList.take pos, s.cells.toList.drop (pos + 1), ?_, ?_⟩
  · rw [← hget, ← List.drop_eq_getElem_cons hpos, List.take_append_drop]
  · rw [List.length_take]
    omega

/-- What a new content `cell` of the slot `pos` does to the elements. -/
theorem elements_setIfInBounds {front back : List (Option Element)}
    (hcells : s.cells.toList = front ++ some e :: back) (hlength : front.length = pos)
    (cell : Option Element) (index : Std.HashMap String Nat) :
    elements ⟨s.cells.setIfInBounds pos cell, index⟩ =
      front.filterMap id ++ cell.toList ++ back.filterMap id := by
  subst hlength
  cases cell with
  | none => simp [elements, hcells]
  | some new => simp [elements, hcells]

theorem index_eq_of_holds (h : s.Aligned) {first second : Nat}
    (hfirst : s.Holds key first) (hsecond : s.Holds key second) : first = second := by
  have hpos := (h.index_iff key first).mpr hfirst
  rw [(h.index_iff key second).mpr hsecond] at hpos
  exact (Option.some.inj hpos).symm

/-- No two elements share an identifier. -/
theorem Aligned.pairwise_ne (h : s.Aligned) :
    s.elements.Pairwise fun a b => a.id ≠ b.id := by
  rw [elements, List.pairwise_filterMap, List.pairwise_iff_getElem]
  intro i j hi hj hlt a ha b hb hid
  have hcellA : s.cells[i]? = some (some a) := by
    rw [← Array.getElem?_toList, List.getElem?_eq_getElem hi]
    exact congrArg some ha
  have hcellB : s.cells[j]? = some (some b) := by
    rw [← Array.getElem?_toList, List.getElem?_eq_getElem hj]
    exact congrArg some hb
  obtain ⟨key, hkey⟩ := h.identified a (mem_elements_iff.mpr ⟨i, hcellA⟩)
  have hfirst : s.Holds key i := ⟨a, hcellA, hkey⟩
  have hsecond : s.Holds key j := ⟨b, hcellB, hid ▸ hkey⟩
  have hij := index_eq_of_holds h hfirst hsecond
  omega

/-- The elements `front` and `back` around the occupied slot `pos`, none of which has the
identifier of the element `e` in it. -/
theorem Aligned.exists_cut (h : s.Aligned) (hcell : s.cells[pos]? = some (some e)) :
    ∃ front back : List (Option Element),
      s.cells.toList = front ++ some e :: back ∧ front.length = pos ∧
        s.elements = front.filterMap id ++ e :: back.filterMap id ∧
        ∀ x ∈ front.filterMap id ++ back.filterMap id, x.id ≠ e.id := by
  obtain ⟨front, back, hcells, hlength⟩ := Slots.exists_cut hcell
  have helements : s.elements = front.filterMap id ++ e :: back.filterMap id := by
    simp [elements, hcells]
  refine ⟨front, back, hcells, hlength, helements, ?_⟩
  have hpairwise := h.pairwise_ne
  rw [helements, List.pairwise_append, List.pairwise_cons] at hpairwise
  obtain ⟨-, ⟨hback, -⟩, hfront⟩ := hpairwise
  intro x hx
  rcases List.mem_append.mp hx with hx | hx
  · exact hfront x hx e List.mem_cons_self
  · exact (hback x hx).symm

/-! ## Looking up -/

theorem Aligned.find?_eq_some_iff (h : s.Aligned) :
    s.find? key = some (pos, e) ↔ s.cells[pos]? = some (some e) ∧ e.id = some key := by
  unfold find?
  constructor
  · intro hfind
    split at hfind
    · cases hfind
    · next found hindex =>
      obtain ⟨a, hcell, ha⟩ := (h.index_iff key found).mp hindex
      rw [hcell] at hfind
      simp only [Option.some.injEq, Prod.mk.injEq] at hfind
      obtain ⟨rfl, rfl⟩ := hfind
      exact ⟨hcell, ha⟩
  · rintro ⟨hcell, he⟩
    rw [(h.index_iff key pos).mpr ⟨e, hcell, he⟩]
    simp [hcell]

theorem Aligned.find?_eq_none_iff (h : s.Aligned) :
    s.find? key = none ↔ ∀ e ∈ s.elements, e.id ≠ some key := by
  rw [Option.eq_none_iff_forall_ne_some]
  constructor
  · intro hnone e he hid
    obtain ⟨pos, hcell⟩ := mem_elements_iff.mp he
    exact hnone (pos, e) (h.find?_eq_some_iff.mpr ⟨hcell, hid⟩)
  · rintro hall ⟨pos, e⟩ hfind
    obtain ⟨hcell, hid⟩ := h.find?_eq_some_iff.mp hfind
    exact hall e (mem_elements_iff.mpr ⟨pos, hcell⟩) hid

/-- A look-up answers the first element with the identifier `key`. -/
theorem Aligned.get?_eq (h : s.Aligned) (key : String) :
    s.get? key = s.elements.find? fun e => e.id == some key := by
  rw [get?]
  cases hfind : s.find? key with
  | none =>
    symm
    simpa using h.find?_eq_none_iff.mp hfind
  | some found =>
    obtain ⟨pos, e⟩ := found
    obtain ⟨hcell, hid⟩ := h.find?_eq_some_iff.mp hfind
    obtain ⟨front, back, -, -, helements, hothers⟩ := h.exists_cut hcell
    have hfront : (front.filterMap id).find? (fun e => e.id == some key) = none := by
      rw [List.find?_eq_none]
      intro x hx
      simpa [hid] using hothers x (List.mem_append_left _ hx)
    have hsame : (e.id == some key) = true := beq_iff_eq.mpr hid
    rw [helements, List.find?_append, hfront, Option.none_or, List.find?_cons, hsame]
    rfl

theorem Aligned.contains_iff (h : s.Aligned) :
    s.contains key = true ↔ ∃ e ∈ s.elements, e.id = some key := by
  rw [contains, Std.HashMap.contains_eq_isSome_getElem?, Option.isSome_iff_exists]
  constructor
  · rintro ⟨pos, hindex⟩
    obtain ⟨e, hcell, hid⟩ := (h.index_iff key pos).mp hindex
    exact ⟨e, mem_elements_iff.mpr ⟨pos, hcell⟩, hid⟩
  · rintro ⟨e, he, hid⟩
    obtain ⟨pos, hcell⟩ := mem_elements_iff.mp he
    exact ⟨pos, (h.index_iff key pos).mpr ⟨e, hcell, hid⟩⟩

/-! ## Adding, removing and editing -/

@[simp] theorem elements_empty : empty.elements = [] := rfl

theorem coherent_empty : empty.Coherent where
  index_iff := by simp [empty, Holds]
  identified := by simp
  size_eq := by simp [empty, elements]
  dense := by simp [empty]

@[simp] theorem elements_push (s : Slots) (key : String) (e : Element) :
    (s.push key e).elements = s.elements ++ [e] := by
  simp [elements, push]

theorem Coherent.push (h : s.Coherent) (hfree : s.contains key = false)
    (he : e.id = some key) : (s.push key e).Coherent := by
  have hsize : (s.index.insert key s.cells.size).size = s.index.size + 1 := by
    rw [Std.HashMap.size_insert, if_neg]
    rw [Std.HashMap.mem_iff_contains]
    exact ne_true_of_eq_false hfree
  refine ⟨⟨?_, ?_, ?_⟩, ?_⟩
  · intro other pos
    have hfresh : s.index[key]? = none :=
      Std.HashMap.getElem?_eq_none_of_contains_eq_false hfree
    have hold := h.index_iff other pos
    simp only [Slots.push, Holds, Std.HashMap.getElem?_insert, Array.getElem?_push,
      beq_iff_eq] at hold ⊢
    by_cases hpos : pos = s.cells.size
    · subst hpos
      have hnone : s.cells[s.cells.size]? = none := by simp
      grind
    · by_cases hkey : key = other
      · subst hkey
        grind
      · grind
  · intro x hx
    rw [elements_push, List.mem_append, List.mem_singleton] at hx
    rcases hx with hx | rfl
    · exact h.identified x hx
    · exact ⟨key, he⟩
  · rw [elements_push, List.length_append, ← h.size_eq]
    exact hsize
  · have hdense := h.dense
    simp only [Slots.push, Array.size_push, hsize]
    omega

/-- Emptying the slot `pos` and forgetting its identifier `key` keeps the index right. -/
theorem Aligned.vacate (h : s.Aligned) (hcell : s.cells[pos]? = some (some e))
    (he : e.id = some key) :
    Aligned ⟨s.cells.setIfInBounds pos none, s.index.erase key⟩ := by
  obtain ⟨front, back, hcells, hlength, helements, -⟩ := h.exists_cut hcell
  have hrest := elements_setIfInBounds hcells hlength none (s.index.erase key)
  have hindex := (h.index_iff key pos).mpr ⟨e, hcell, he⟩
  refine ⟨?_, ?_, ?_⟩
  · intro other place
    have hold := h.index_iff other place
    have hmine := h.index_iff key place
    simp only [Holds, Std.HashMap.getElem?_erase, Array.getElem?_setIfInBounds,
      beq_iff_eq] at hold hmine ⊢
    by_cases hplace : pos = place
    · subst hplace
      grind
    · grind
  · intro x hx
    apply h.identified x
    rw [helements]
    rw [hrest] at hx
    simp only [Option.toList_none, List.append_nil, List.mem_append] at hx
    rcases hx with hx | hx
    · exact List.mem_append_left _ hx
    · exact List.mem_append_right _ (List.mem_cons_of_mem _ hx)
  · have hmem : key ∈ s.index := by
      rw [Std.HashMap.mem_iff_isSome_getElem?, hindex]
      rfl
    have hsize := h.size_eq
    rw [helements, List.length_append, List.length_cons] at hsize
    rw [hrest]
    simp only [Std.HashMap.size_erase, if_pos hmem, Option.toList_none, List.append_nil,
      List.length_append]
    omega

/-- Emptying the slot `pos` takes the element with the identifier `key` out of the list. -/
theorem Aligned.elements_vacate (h : s.Aligned) (hcell : s.cells[pos]? = some (some e))
    (he : e.id = some key) (index : Std.HashMap String Nat) :
    elements ⟨s.cells.setIfInBounds pos none, index⟩ =
      s.elements.filter fun x => x.id != some key := by
  obtain ⟨front, back, hcells, hlength, helements, hothers⟩ := h.exists_cut hcell
  rw [elements_setIfInBounds hcells hlength none index, helements]
  simp only [he, List.mem_append] at hothers
  rw [List.filter_append, List.filter_cons_of_neg (by simp [he])]
  rw [List.filter_eq_self.mpr fun x hx => by simpa using hothers x (Or.inl hx)]
  rw [List.filter_eq_self.mpr fun x hx => by simpa using hothers x (Or.inr hx)]
  simp

/-! ## Compaction -/

theorem contains_renumber (index : Std.HashMap String Nat) (es : List Element)
    (start : Nat) (key : String) :
    (renumber index es start).contains key = index.contains key := by
  induction es generalizing index start with
  | nil => rfl
  | cons e es ih =>
      unfold renumber
      split
      · next own _ =>
        rw [ih]
        split
        · next hknown =>
          rw [Std.HashMap.contains_insert]
          by_cases hkey : own = key
          · simp [← hkey, hknown]
          · simp [hkey]
        · rfl
      · exact ih index (start + 1)

theorem size_renumber (index : Std.HashMap String Nat) (es : List Element) (start : Nat) :
    (renumber index es start).size = index.size := by
  induction es generalizing index start with
  | nil => rfl
  | cons e es ih =>
      unfold renumber
      split
      · next own _ =>
        rw [ih]
        split
        · next hknown =>
          rw [Std.HashMap.size_insert, if_pos (Std.HashMap.mem_iff_contains.mpr hknown)]
        · rfl
      · exact ih index (start + 1)

/-- An identifier `key` that none of the elements `es` has keeps its position. -/
theorem getElem?_renumber_of_forall_ne (index : Std.HashMap String Nat)
    {es : List Element} (start : Nat) (hne : ∀ e ∈ es, e.id ≠ some key) :
    (renumber index es start)[key]? = index[key]? := by
  induction es generalizing index start with
  | nil => rfl
  | cons e es ih =>
      have hrest : ∀ e ∈ es, e.id ≠ some key := fun x hx =>
        hne x (List.mem_cons_of_mem _ hx)
      unfold renumber
      split
      · next own hown =>
        have hkey : own ≠ key := by
          rintro rfl
          exact hne e List.mem_cons_self hown
        rw [ih _ _ hrest]
        split
        · rw [Std.HashMap.getElem?_insert, if_neg (by simpa using hkey)]
        · rfl
      · exact ih index (start + 1) hrest

/-- An identifier `key` that the index knows gets the position of its element `e`. -/
theorem getElem?_renumber_of_getElem? (index : Std.HashMap String Nat)
    {es : List Element} (start : Nat) (hes : es.Pairwise fun a b => a.id ≠ b.id)
    (hknown : index.contains key = true) {i : Nat} (hget : es[i]? = some e)
    (he : e.id = some key) :
    (renumber index es start)[key]? = some (start + i) := by
  induction es generalizing index start i with
  | nil => simp at hget
  | cons first es ih =>
      obtain ⟨hfirst, hrest⟩ := List.pairwise_cons.mp hes
      cases i with
      | zero =>
          simp only [List.getElem?_cons_zero, Option.some.injEq] at hget
          subst hget
          have hne : ∀ x ∈ es, x.id ≠ some key := fun x hx => he ▸ (hfirst x hx).symm
          simp only [renumber, he, if_pos hknown]
          rw [getElem?_renumber_of_forall_ne _ _ hne, Std.HashMap.getElem?_insert_self]
          rfl
      | succ i =>
          rw [List.getElem?_cons_succ] at hget
          have hstart : start + (i + 1) = start + 1 + i := by omega
          rw [hstart]
          unfold renumber
          split
          · next own hown =>
            refine ih _ (start + 1) hrest ?_ hget
            split
            · simp [hknown]
            · exact hknown
          · exact ih index (start + 1) hrest hknown hget

theorem toList_filter_isSome (s : Slots) :
    (s.cells.filter Option.isSome).toList = s.elements.map some := by
  rw [Array.toList_filter, elements]
  induction s.cells.toList with
  | nil => rfl
  | cons cell cells ih =>
      cases cell with
      | none => simpa using ih
      | some e => simpa using ih

theorem compact_eq (s : Slots) :
    s.compact = ⟨s.cells.filter Option.isSome, renumber s.index s.elements 0⟩ := by
  have hself : (s.elements.map some).filterMap id = s.elements := by
    rw [List.filterMap_map, Function.id_comp, List.filterMap_some]
  simp only [compact, toList_filter_isSome, hself]

@[simp] theorem elements_compact (s : Slots) : s.compact.elements = s.elements := by
  rw [compact_eq, elements, toList_filter_isSome, List.filterMap_map, Function.id_comp,
    List.filterMap_some]

/-- Compaction leaves exactly one slot for each identifier. -/
theorem Aligned.compact (h : s.Aligned) : s.compact.Coherent := by
  have hcells (pos : Nat) (e : Element) :
      s.compact.cells[pos]? = some (some e) ↔ s.elements[pos]? = some e := by
    rw [compact_eq, ← Array.getElem?_toList, toList_filter_isSome, List.getElem?_map]
    simp
  have hsize : s.compact.index.size = s.index.size := by
    rw [compact_eq]
    exact size_renumber s.index s.elements 0
  refine ⟨⟨?_, ?_, ?_⟩, ?_⟩
  · intro key pos
    simp only [Holds, hcells]
    constructor
    · intro hindex
      have hcontains : s.index.contains key = true := by
        rw [← contains_renumber s.index s.elements 0 key,
          Std.HashMap.contains_eq_isSome_getElem?]
        rw [compact_eq] at hindex
        rw [hindex]
        rfl
      obtain ⟨e, he, hid⟩ := h.contains_iff.mp hcontains
      obtain ⟨i, hget⟩ := List.mem_iff_getElem?.mp he
      have hplace := getElem?_renumber_of_getElem? s.index 0 h.pairwise_ne hcontains hget hid
      rw [compact_eq, hplace] at hindex
      obtain rfl : i = pos := by simpa using hindex
      exact ⟨e, hget, hid⟩
    · rintro ⟨e, hget, hid⟩
      have hcontains := h.contains_iff.mpr ⟨e, List.mem_of_getElem? hget, hid⟩
      rw [compact_eq,
        getElem?_renumber_of_getElem? s.index 0 h.pairwise_ne hcontains hget hid]
      rw [Nat.zero_add]
  · rw [elements_compact]
    exact h.identified
  · rw [hsize, elements_compact]
    exact h.size_eq
  · have hlength : s.compact.cells.size = s.elements.length := by
      rw [compact_eq, ← Array.length_toList, toList_filter_isSome, List.length_map]
    rw [hlength, hsize, h.size_eq]
    omega

@[simp] theorem elements_tidy (s : Slots) : s.tidy.elements = s.elements := by
  unfold tidy
  split
  · exact elements_compact s
  · rfl

theorem Aligned.tidy (h : s.Aligned) : s.tidy.Coherent := by
  unfold Slots.tidy
  split
  · exact h.compact
  · next hdense =>
    exact ⟨h, Nat.not_lt.mp hdense⟩

/-! ## Operations on coherent slots -/

/-- Removing `key` hands out its element. -/
theorem Coherent.fst_remove (h : s.Coherent) (key : String) :
    (s.remove key).1 = s.elements.find? fun e => e.id == some key := by
  rw [← h.get?_eq, get?, find?, remove]
  cases hindex : s.index[key]? with
  | none => rfl
  | some pos =>
      obtain ⟨e, hcell, -⟩ := (h.index_iff key pos).mp hindex
      simp [hcell]

/-- Removing `key` keeps the other elements in their order. -/
theorem Coherent.elements_remove (h : s.Coherent) (key : String) :
    (s.remove key).2.elements = s.elements.filter fun e => e.id != some key := by
  unfold remove
  split
  · next hindex =>
    have hall : ∀ e ∈ s.elements, e.id ≠ some key := by
      rw [← h.find?_eq_none_iff, find?, hindex]
    symm
    exact List.filter_eq_self.mpr fun e he => by simpa using hall e he
  · next pos hindex =>
    obtain ⟨e, hcell, he⟩ := (h.index_iff key pos).mp hindex
    rw [elements_tidy, h.elements_vacate hcell he]

theorem Coherent.remove (h : s.Coherent) (key : String) : (s.remove key).2.Coherent := by
  unfold Slots.remove
  split
  · exact h
  · next pos hindex =>
    obtain ⟨e, hcell, he⟩ := (h.index_iff key pos).mp hindex
    exact (h.vacate hcell he).tidy

/-- A `new` element in the place of the one under `key` leaves what stands around it. -/
theorem map_substitute {front back : List Element} (he : e.id = some key)
    (hothers : ∀ x ∈ front ++ back, x.id ≠ some key) (new : Element) :
    (front ++ e :: back).map (fun x => if x.id = some key then new else x) =
      front ++ new :: back := by
  have hkeep {es : List Element} (hes : ∀ x ∈ es, x.id ≠ some key) :
      es.map (fun x => if x.id = some key then new else x) = es :=
    (List.map_congr_left fun x hx => if_neg (hes x hx)).trans (List.map_id' es)
  have hfront := hkeep fun x hx => hothers x (List.mem_append_left _ hx)
  have hback := hkeep fun x hx => hothers x (List.mem_append_right _ hx)
  rw [List.map_append, List.map_cons, hfront, hback, if_pos he]

/-- A `new` element in the slot `pos` takes the place of the old one in the list. -/
theorem Coherent.elements_put (h : s.Coherent) (hfind : s.find? key = some (pos, e))
    (new : Element) :
    (s.put pos new).elements = s.elements.map fun x => if x.id = some key then new else x := by
  obtain ⟨hcell, he⟩ := h.find?_eq_some_iff.mp hfind
  obtain ⟨front, back, hcells, hlength, helements, hothers⟩ := h.exists_cut hcell
  rw [he] at hothers
  rw [put, elements_setIfInBounds hcells hlength (some new) s.index, helements,
    map_substitute he hothers, Option.toList_some, List.append_assoc, List.singleton_append]

/-- An element `new` with the same identifier `key` may be put into its slot. -/
theorem Coherent.put (h : s.Coherent) (hfind : s.find? key = some (pos, e))
    {new : Element} (hnew : new.id = some key) : (s.put pos new).Coherent := by
  obtain ⟨hcell, he⟩ := h.find?_eq_some_iff.mp hfind
  have helements := h.elements_put hfind new
  refine ⟨⟨?_, ?_, ?_⟩, ?_⟩
  · intro other place
    have hold := h.index_iff other place
    simp only [Slots.put, Holds, Array.getElem?_setIfInBounds] at hold ⊢
    by_cases hplace : pos = place
    · subst hplace
      grind
    · grind
  · intro x hx
    rw [helements, List.mem_map] at hx
    obtain ⟨y, hy, rfl⟩ := hx
    split
    · exact ⟨key, hnew⟩
    · exact h.identified y hy
  · rw [helements, List.length_map]
    exact h.size_eq
  · have hdense := h.dense
    simpa [Slots.put] using hdense

/-- An element `x` with a free identifier `new` may be put into the slot `pos`, whose old
identifier `key` the index then forgets. -/
theorem Coherent.rename (h : s.Coherent) (hfind : s.find? key = some (pos, e))
    {new : String} (hfree : s.contains new = false) {x : Element} (hx : x.id = some new) :
    ((s.put pos x).rename key new pos).Coherent := by
  obtain ⟨hcell, he⟩ := h.find?_eq_some_iff.mp hfind
  have helements := h.elements_put hfind x
  have hindex := (h.index_iff key pos).mpr ⟨e, hcell, he⟩
  have hnone : s.index[new]? = none :=
    Std.HashMap.getElem?_eq_none_of_contains_eq_false hfree
  have hne : key ≠ new := by
    rintro rfl
    rw [hindex] at hnone
    cases hnone
  have hsize : ((s.put pos x).rename key new pos).index.size = s.index.size := by
    have hmem : key ∈ s.index := by
      rw [Std.HashMap.mem_iff_isSome_getElem?, hindex]
      rfl
    have hnot : new ∉ s.index.erase key := by
      rw [Std.HashMap.mem_erase, Std.HashMap.mem_iff_contains]
      exact fun hboth => ne_true_of_eq_false hfree hboth.2
    have hpos : 0 < s.index.size := by
      rw [h.size_eq]
      exact List.length_pos_of_mem (mem_elements_iff.mpr ⟨pos, hcell⟩)
    simp only [Slots.rename, Slots.put, Std.HashMap.size_insert, if_neg hnot,
      Std.HashMap.size_erase, if_pos hmem]
    omega
  refine ⟨⟨?_, ?_, ?_⟩, ?_⟩
  · intro other place
    have hold := h.index_iff other place
    have hmine := h.index_iff key place
    have htheirs := h.index_iff new place
    simp only [Slots.rename, Slots.put, Holds, Array.getElem?_setIfInBounds,
      Std.HashMap.getElem?_insert, Std.HashMap.getElem?_erase, beq_iff_eq]
      at hold hmine htheirs ⊢
    by_cases hplace : pos = place
    · subst hplace
      grind
    · grind
  · intro y hy
    have hy' : y ∈ (s.put pos x).elements := hy
    rw [helements, List.mem_map] at hy'
    obtain ⟨z, hz, rfl⟩ := hy'
    split
    · exact ⟨new, hx⟩
    · exact h.identified z hz
  · rw [hsize, h.size_eq]
    show s.elements.length = (s.put pos x).elements.length
    rw [helements, List.length_map]
  · rw [hsize]
    have hdense := h.dense
    simpa [Slots.rename, Slots.put] using hdense

end MediaManifest.Slots
