import MediaManifest.Proofs.Filter.Display
import MediaManifest.Proofs.Filter.Meaning

/-!
# Filters in normal form

The combinators see a filter as the list of its operands: a conjunction joins
the conjuncts of both sides, and a disjunction joins their disjuncts.  Joining
lists is associative, so combining filters is, whatever lists they hold.

A filter is in normal form (`Normal`) if no node of it could have been
simplified by the combinator that makes such nodes (`Tidy`).  What the
combinators make of filters in normal form is in normal form, and expressions
are read through them.
-/

namespace MediaManifest.Filter

variable {f g x : Filter} {fs : List Filter} {s : String}

/-! ## Operands -/

/-- What a filter brings into a conjunction: the operands of an `and`, or itself. -/
def conjuncts : Filter → List Filter
  | and fs => fs
  | f => [f]

/-- What a filter brings into a disjunction: the operands of an `or`, or itself. -/
def disjuncts : Filter → List Filter
  | or fs => fs
  | f => [f]

theorem conjuncts_of_ne (hf : ∀ fs, f ≠ and fs) : f.conjuncts = [f] := by
  fun_cases conjuncts f with
  | case1 fs => exact absurd rfl (hf fs)
  | case2 => rfl

theorem disjuncts_of_ne (hf : ∀ fs, f ≠ or fs) : f.disjuncts = [f] := by
  fun_cases disjuncts f with
  | case1 fs => exact absurd rfl (hf fs)
  | case2 => rfl

theorem conj_any (f : Filter) : f.conj any = f := by
  cases f <;> rfl

theorem conj_eq (hf : f ≠ any) (hg : g ≠ any) :
    f.conj g = and (f.conjuncts ++ g.conjuncts) := by
  fun_cases conj f g with
  | case1 => exact absurd rfl hf
  | case2 => exact absurd rfl hg
  | case3 fs gs => rfl
  | case4 fs g _ hand => rw [conjuncts_of_ne hand, conjuncts]
  | case5 f gs _ hand => rw [conjuncts_of_ne hand, conjuncts, List.singleton_append]
  | case6 f g _ _ _ hf hg => rw [conjuncts_of_ne hf, conjuncts_of_ne hg, List.singleton_append]

theorem disj_eq (f g : Filter) : f.disj g = or (f.disjuncts ++ g.disjuncts) := by
  fun_cases disj f g with
  | case1 fs gs => rfl
  | case2 fs g hor => rw [disjuncts_of_ne hor, disjuncts]
  | case3 f gs hor => rw [disjuncts_of_ne hor, disjuncts, List.singleton_append]
  | case4 f g _ hf hg => rw [disjuncts_of_ne hf, disjuncts_of_ne hg, List.singleton_append]

theorem conj_ne_any (hf : f ≠ any) (hg : g ≠ any) : f.conj g ≠ any := by
  rw [conj_eq hf hg]
  exact Filter.noConfusion

/-- Conjunctions can be grouped freely, whatever lists the filters hold. -/
theorem conj_assoc (f g h : Filter) : (f.conj g).conj h = f.conj (g.conj h) := by
  by_cases hf : f = any
  · rw [hf, conj, conj]
  by_cases hg : g = any
  · rw [hg, conj_any, conj]
  by_cases hh : h = any
  · rw [hh, conj_any, conj_any]
  -- None of the three is left out, so both sides join all conjuncts.
  rw [conj_eq (conj_ne_any hf hg) hh, conj_eq hf (conj_ne_any hg hh), conj_eq hf hg,
    conj_eq hg hh, conjuncts, conjuncts, List.append_assoc]

/-- Disjunctions can be grouped freely, whatever lists the filters hold. -/
theorem disj_assoc (f g h : Filter) : (f.disj g).disj h = f.disj (g.disj h) := by
  rw [disj_eq (f.disj g), disj_eq f (g.disj h), disj_eq f g, disj_eq g h, disjuncts, disjuncts,
    List.append_assoc]

/-! ## Nodes -/

/-- The relation `Within x f` is that `x` is `f`, or what `f` is put together from at any depth. -/
inductive Within : Filter → Filter → Prop
  | self (f : Filter) : Within f f
  | and {x g : Filter} {fs : List Filter} (hg : g ∈ fs) (hx : Within x g) : Within x (and fs)
  | or {x g : Filter} {fs : List Filter} (hg : g ∈ fs) (hx : Within x g) : Within x (or fs)
  | not {x g : Filter} (hx : Within x g) : Within x (not g)

/-- The combinator that makes such nodes has nothing to simplify in this one. -/
def Tidy : Filter → Prop
  | and fs => 2 ≤ fs.length ∧ ∀ g ∈ fs, g ≠ any ∧ ∀ gs, g ≠ and gs
  | or fs => 2 ≤ fs.length ∧ ∀ g ∈ fs, ∀ gs, g ≠ or gs
  | not g => (∀ h, g ≠ not h) ∧ g ≠ checksum ∧ g ≠ noChecksum
  | _ => True

/-- A filter `f` all nodes of which are `Tidy`. -/
def Normal (f : Filter) : Prop :=
  ∀ x, Within x f → x.Tidy

/-- A filter that is not put together from others. -/
def Leaf : Filter → Prop
  | and _ | or _ | not _ => False
  | _ => True

theorem Normal.tidy (hf : f.Normal) : f.Tidy :=
  hf f (.self f)

theorem Leaf.normal (hf : f.Leaf) : f.Normal := by
  intro x hx
  cases hx with
  | self => cases f <;> trivial
  | and | or | not => exact hf.elim

theorem normal_and_iff : (and fs).Normal ↔ (and fs).Tidy ∧ ∀ g ∈ fs, g.Normal := by
  constructor
  · intro h
    exact ⟨h.tidy, fun g hg x hx => h x (.and hg hx)⟩
  · rintro ⟨htidy, hfs⟩ x hx
    cases hx with
    | self => exact htidy
    | and hg hx => exact hfs _ hg x hx

theorem normal_or_iff : (or fs).Normal ↔ (or fs).Tidy ∧ ∀ g ∈ fs, g.Normal := by
  constructor
  · intro h
    exact ⟨h.tidy, fun g hg x hx => h x (.or hg hx)⟩
  · rintro ⟨htidy, hfs⟩ x hx
    cases hx with
    | self => exact htidy
    | or hg hx => exact hfs _ hg x hx

theorem normal_not_iff : (not g).Normal ↔ (not g).Tidy ∧ g.Normal := by
  constructor
  · intro h
    exact ⟨h.tidy, fun x hx => h x (.not hx)⟩
  · rintro ⟨htidy, hg⟩ x hx
    cases hx with
    | self => exact htidy
    | not hx => exact hg x hx

/-! ## What the combinators keep -/

/-- A filter `f` in normal form brings filters in normal form into a conjunction, at least one,
and none that the conjunction would leave out or take apart. -/
theorem Normal.conjuncts (hf : f.Normal) (hany : f ≠ any) :
    1 ≤ f.conjuncts.length ∧
      ∀ x ∈ f.conjuncts, x.Normal ∧ x ≠ any ∧ ∀ gs, x ≠ and gs := by
  by_cases hand : ∃ fs, f = and fs
  · obtain ⟨fs, rfl⟩ := hand
    obtain ⟨⟨hlength, htidy⟩, hfs⟩ := normal_and_iff.mp hf
    exact ⟨Nat.le_of_succ_le hlength, fun x hx => ⟨hfs x hx, htidy x hx⟩⟩
  · have hne := not_exists.mp hand
    rw [conjuncts_of_ne hne]
    exact ⟨Nat.le_refl _, List.forall_mem_singleton.mpr ⟨hf, hany, hne⟩⟩

theorem Normal.disjuncts (hf : f.Normal) :
    1 ≤ f.disjuncts.length ∧ ∀ x ∈ f.disjuncts, x.Normal ∧ ∀ gs, x ≠ or gs := by
  by_cases hor : ∃ fs, f = or fs
  · obtain ⟨fs, rfl⟩ := hor
    obtain ⟨⟨hlength, htidy⟩, hfs⟩ := normal_or_iff.mp hf
    exact ⟨Nat.le_of_succ_le hlength, fun x hx => ⟨hfs x hx, htidy x hx⟩⟩
  · have hne := not_exists.mp hor
    rw [disjuncts_of_ne hne]
    exact ⟨Nat.le_refl _, List.forall_mem_singleton.mpr ⟨hf, hne⟩⟩

theorem Normal.conj (hf : f.Normal) (hg : g.Normal) : (f.conj g).Normal := by
  by_cases hfany : f = any
  · rwa [hfany, Filter.conj]
  by_cases hgany : g = any
  · rwa [hgany, conj_any]
  obtain ⟨hflength, hfs⟩ := hf.conjuncts hfany
  obtain ⟨hglength, hgs⟩ := hg.conjuncts hgany
  have hall := List.forall_mem_append.mpr ⟨hfs, hgs⟩
  rw [conj_eq hfany hgany, normal_and_iff]
  refine ⟨⟨?_, fun x hx => (hall x hx).2⟩, fun x hx => (hall x hx).1⟩
  rw [List.length_append]
  omega

theorem Normal.disj (hf : f.Normal) (hg : g.Normal) : (f.disj g).Normal := by
  obtain ⟨hflength, hfs⟩ := hf.disjuncts
  obtain ⟨hglength, hgs⟩ := hg.disjuncts
  have hall := List.forall_mem_append.mpr ⟨hfs, hgs⟩
  rw [disj_eq, normal_or_iff]
  refine ⟨⟨?_, fun x hx => (hall x hx).2⟩, fun x hx => (hall x hx).1⟩
  rw [List.length_append]
  omega

theorem Normal.negate (hf : f.Normal) : f.negate.Normal := by
  fun_cases Filter.negate f with
  | case1 g => exact (normal_not_iff.mp hf).2
  | case2 => exact Leaf.normal trivial
  | case3 => exact Leaf.normal trivial
  | case4 f hnot hchecksum hnoChecksum =>
      exact normal_not_iff.mpr ⟨⟨hnot, hchecksum, hnoChecksum⟩, hf⟩

theorem Normal.foldl_conj (hfirst : f.Normal) (hfs : ∀ g ∈ fs, g.Normal) :
    (fs.foldl Filter.conj f).Normal := by
  induction fs generalizing f with
  | nil => exact hfirst
  | cons g fs ih =>
      obtain ⟨hg, hrest⟩ := List.forall_mem_cons.mp hfs
      exact ih (hfirst.conj hg) hrest

/-- Negating a tidy filter `f` twice gives it back. -/
theorem Tidy.negate_negate (hf : f.Tidy) : f.negate.negate = f := by
  fun_cases Filter.negate f with
  | case1 g =>
      obtain ⟨hnot, hchecksum, hnoChecksum⟩ := hf
      exact negate.eq_4 g hnot hchecksum hnoChecksum
  | case2 => rfl
  | case3 => rfl
  | case4 => rfl

/-! ## Built filters -/

theorem leaf_of_word (hword : ofWord? s = some f) : f.Leaf := by
  unfold ofWord? at hword
  split at hword <;> cases hword <;> trivial

theorem Plain.leaf (hplain : Plain f) : f.Leaf := by
  cases hplain with
  | word hword => exact leaf_of_word hword
  | kind | flavor | tag | tags | channel => trivial

/-- Every mark of an expression negates a filter in normal form. -/
theorem normal_of_parse (h : parse s = .ok f) : f.Normal := by
  rw [parse_eq] at h
  obtain ⟨base, hbase, rfl⟩ := Except.map_eq_ok_iff.mp h
  generalize (peel s.toList).1 = n
  induction n with
  | zero => exact (plain_of_parseBase hbase).leaf.normal
  | succ n ih => exact ih.negate

/-- Filters that are built by the combinators from leaves (`Leaf`), or read from expressions. -/
inductive Built : Filter → Prop
  | leaf {f : Filter} (hf : f.Leaf) : Built f
  | conj {f g : Filter} (hf : Built f) (hg : Built g) : Built (f.conj g)
  | disj {f g : Filter} (hf : Built f) (hg : Built g) : Built (f.disj g)
  | negate {f : Filter} (hf : Built f) : Built f.negate
  | all {fs : List Filter} (hfs : ∀ f ∈ fs, Built f) : Built (all fs)
  | parsed {s : String} {f : Filter} (h : parse s = .ok f) : Built f

theorem Built.normal (hf : f.Built) : f.Normal := by
  induction hf with
  | leaf hf => exact hf.normal
  | conj _ _ hf hg => exact hf.conj hg
  | disj _ _ hf hg => exact hf.disj hg
  | negate _ hf => exact hf.negate
  | all _ hfs => exact Normal.foldl_conj (Leaf.normal trivial) hfs
  | parsed h => exact normal_of_parse h

/-- Filters that are `Built` are `Normal`, and negating them twice gives them back.  Filters `f`,
`g` and `h` of any shape, bare lists and negations among them, can be grouped freely by `conj` and
by `disj`, and `any` can be left out of a conjunction. -/
theorem combined_normal (f g h : Filter) :
    (f.Built → f.Normal ∧ f.negate.negate = f) ∧
    (f.conj g).conj h = f.conj (g.conj h) ∧
    (f.disj g).disj h = f.disj (g.disj h) ∧
    any.conj f = f ∧ f.conj any = f :=
  ⟨fun hf => ⟨hf.normal, hf.normal.tidy.negate_negate⟩, conj_assoc f g h, disj_assoc f g h,
    rfl, conj_any f⟩

/-- A filter that uses every combinator and an expression, with bare lists to its right. -/
theorem combined_normal_of_every_combinator :
    let f := ((disj video (tag "a")).negate.conj (all [any, checksum.negate])).conj
      (not (tags ["a", "b"]))
    let g : Filter := and []
    let h : Filter := and [any]
    f.Built ∧ f = and [not (or [video, tag "a"]), noChecksum, not (tags ["a", "b"])] ∧
      f.Normal ∧ f.negate.negate = f ∧ (f.conj g).conj h = f.conj (g.conj h) ∧
      (f.disj g).disj h = or [f, g, h] := by
  intro f g h
  have hread : parse "! !!tags: a ,, b" = .ok (not (tags ["a", "b"])) := by
    rfl
  have hall : ∀ x ∈ [any, checksum.negate], x.Built := by
    rw [List.forall_mem_cons, List.forall_mem_singleton]
    exact ⟨.leaf trivial, .negate (.leaf trivial)⟩
  have hf : f.Built := by
    apply Built.conj ?_ (.parsed hread)
    apply Built.conj ?_ (.all hall)
    exact .negate (.disj (.leaf trivial) (.leaf trivial))
  obtain ⟨hbuilt, hconj, hdisj, -⟩ := combined_normal f g h
  obtain ⟨hnormal, htwice⟩ := hbuilt hf
  exact ⟨hf, rfl, hnormal, htwice, hconj, hdisj.trans rfl⟩

end MediaManifest.Filter
