/-!
# Tags

The tags of an element form a set, kept as a list in ascending order.
-/

namespace MediaManifest

/-- A set of tags in ascending order of code points. -/
structure Tags where
  toList : List String
  ascending : toList.Pairwise (· < ·)
deriving DecidableEq

namespace Tags

def insertIn (tag : String) : List String → List String
  | [] => [tag]
  | t :: ts =>
    if tag = t then t :: ts
    else if tag < t then tag :: t :: ts
    else t :: insertIn tag ts

theorem mem_insertIn {tag t : String} {ts : List String} :
    t ∈ insertIn tag ts ↔ t = tag ∨ t ∈ ts := by
  induction ts with
  | nil => simp [insertIn]
  | cons u us ih =>
    unfold insertIn
    split
    · next h =>
      subst h
      simp only [List.mem_cons]
      exact ⟨Or.inr, fun h => h.elim Or.inl id⟩
    · split
      · simp
      · simp only [List.mem_cons, ih]
        exact ⟨fun h => h.elim (fun h => .inr (.inl h)) (fun h => h.elim .inl (.inr ∘ .inr)),
          fun h => h.elim (fun h => .inr (.inl h))
            (fun h => h.elim .inl (fun h => .inr (.inr h)))⟩

theorem pairwise_insertIn {tag : String} {ts : List String}
    (h : ts.Pairwise (· < ·)) : (insertIn tag ts).Pairwise (· < ·) := by
  induction ts with
  | nil => simp [insertIn]
  | cons t ts ih =>
    obtain ⟨low, rest⟩ := List.pairwise_cons.1 h
    unfold insertIn
    split
    · exact h
    · next ne =>
      split
      · next lt =>
        refine List.pairwise_cons.2 ⟨fun u hu => ?_, h⟩
        rcases List.mem_cons.1 hu with rfl | hu
        · exact lt
        · exact String.lt_trans lt (low u hu)
      · next nlt =>
        refine List.pairwise_cons.2 ⟨fun u hu => ?_, ih rest⟩
        rcases mem_insertIn.1 hu with rfl | hu
        · refine Decidable.byContradiction fun h => ne ?_
          exact String.le_antisymm (String.not_lt.1 h) (String.not_lt.1 nlt)
        · exact low u hu

def empty : Tags :=
  ⟨[], .nil⟩

def insert (tag : String) (tags : Tags) : Tags :=
  ⟨insertIn tag tags.toList, pairwise_insertIn tags.ascending⟩

def erase (tag : String) (tags : Tags) : Tags :=
  ⟨tags.toList.filter (· != tag), tags.ascending.filter _⟩

def contains (tag : String) (tags : Tags) : Bool :=
  tags.toList.contains tag

def ofList (tags : List String) : Tags :=
  tags.foldl (fun set tag => set.insert tag) empty

end Tags

end MediaManifest
