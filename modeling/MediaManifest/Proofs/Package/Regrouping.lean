import MediaManifest.Proofs.Package.Overlap

/-!
# Regrouping merges

What merges that skip or replace leave, as operations on lists of elements.
Skipping supplements the elements of the target by those of the source
(`supplement`), and replacing overrides them (`override`).  Overriding is
supplementing seen from the end of the lists, so what holds of the one holds of
the other: both are associative, and elements with identifiers are neither
supplemented nor overridden by themselves.  Merges in these modes can therefore
be grouped and repeated freely.
-/

namespace MediaManifest

namespace Element

variable {taken others : List String} {xs ys zs : List Element}

theorem avoids_congr (h : ∀ key, key ∈ taken ↔ key ∈ others) (e : Element) :
    e.avoids taken = e.avoids others := by
  simp only [avoids, clashes, h]

theorem avoids_append (taken others : List String) (e : Element) :
    e.avoids (taken ++ others) = (e.avoids taken && e.avoids others) := by
  cases hid : e.id with
  | none => simp [avoids, clashes, hid]
  | some key => simp [avoids, clashes, hid]

/-- The elements `xs`, followed by those of `ys` whose identifiers are not among theirs. -/
def supplement (xs ys : List Element) : List Element :=
  xs ++ ys.filter (avoids (xs.filterMap id))

/-- The elements `xs` whose identifiers are not among those of `ys`, followed by all of `ys`. -/
def override (xs ys : List Element) : List Element :=
  xs.filter (avoids (ys.filterMap id)) ++ ys

/-! ## Supplementing -/

theorem mem_ids_supplement (xs ys : List Element) (key : String) :
    key ∈ (supplement xs ys).filterMap id ↔ key ∈ xs.filterMap id ++ ys.filterMap id := by
  rw [supplement, List.filterMap_append, List.mem_append, List.mem_append]
  constructor
  · refine Or.imp_right fun hkey => ?_
    obtain ⟨y, hy, hid⟩ := List.mem_filterMap.mp hkey
    exact List.mem_filterMap.mpr ⟨y, List.mem_of_mem_filter hy, hid⟩
  · rintro (hkey | hkey)
    · exact .inl hkey
    · refine Decidable.or_iff_not_imp_left.mpr fun hfree => ?_
      obtain ⟨y, hy, hid⟩ := List.mem_filterMap.mp hkey
      have hkept : y.avoids (xs.filterMap Element.id) = true := (avoids_iff hid).mpr hfree
      exact List.mem_filterMap.mpr ⟨y, List.mem_filter.mpr ⟨hy, hkept⟩, hid⟩

theorem supplement_assoc (xs ys zs : List Element) :
    supplement (supplement xs ys) zs = supplement xs (supplement ys zs) := by
  have hids : avoids ((supplement xs ys).filterMap id) =
      fun z => z.avoids (xs.filterMap id) && z.avoids (ys.filterMap id) := by
    funext z
    rw [avoids_congr (mem_ids_supplement xs ys), avoids_append]
  calc supplement (supplement xs ys) zs
      = supplement xs ys ++
          zs.filter fun z => z.avoids (xs.filterMap id) && z.avoids (ys.filterMap id) := by
        rw [supplement.eq_def (supplement xs ys), hids]
    _ = xs ++ (ys.filter (avoids (xs.filterMap id)) ++
          (zs.filter (avoids (ys.filterMap id))).filter (avoids (xs.filterMap id))) := by
        rw [List.filter_filter, supplement, List.append_assoc]
    _ = supplement xs (supplement ys zs) := by
        rw [← List.filter_append]
        rfl

theorem supplement_self (h : ∀ x ∈ xs, ∃ key, x.id = some key) : supplement xs xs = xs := by
  have hnone : xs.filter (avoids (xs.filterMap id)) = [] := by
    refine List.filter_eq_nil_iff.mpr ?_
    intro x hx hkept
    obtain ⟨key, hid⟩ := h x hx
    exact (avoids_iff hid).mp hkept (List.mem_filterMap.mpr ⟨x, hx, hid⟩)
  rw [supplement, hnone, List.append_nil]

/-! ## Overriding -/

/-- Read from the end, overriding `xs` by `ys` is supplementing `ys` by `xs`. -/
theorem reverse_override (xs ys : List Element) :
    (override xs ys).reverse = supplement ys.reverse xs.reverse := by
  have hids : avoids (ys.reverse.filterMap id) = avoids (ys.filterMap id) := by
    funext x
    apply avoids_congr
    intro key
    rw [List.filterMap_reverse, List.mem_reverse]
  rw [override, supplement, List.reverse_append, hids, List.filter_reverse]

theorem override_assoc (xs ys zs : List Element) :
    override (override xs ys) zs = override xs (override ys zs) := by
  apply List.reverse_injective
  simp only [reverse_override, supplement_assoc]

theorem override_self (h : ∀ x ∈ xs, ∃ key, x.id = some key) : override xs xs = xs := by
  apply List.reverse_injective
  rw [reverse_override]
  exact supplement_self fun x hx => h x (List.mem_reverse.mp hx)

end Element

/-! ## Contents that merges leave -/

/-- The contents `c` with the elements that `op` gives for theirs and those of `d`. -/
def Contents.join (op : List Element → List Element → List Element) (c d : Contents) :
    Contents :=
  { c with elements := op c.elements d.elements }

namespace Package

variable {γ δ : Type} [Generator γ] {dest : Package γ} {src : Package δ}

/-- Merging `src` into `dest` succeeds and leaves the package `after`. -/
def Merges (mode : Mode) (dest : Package γ) (src : Package δ) (after : Package γ) : Prop :=
  ∃ report, dest.merge mode src = (.ok report, after)

/-- A loop over the roster of `dest` that succeeds is a merge that leaves what the roster `r`
holds. -/
theorem exists_merges {mode : Mode} {outcomes : List Outcome} {r : Roster γ}
    (hdest : dest.slots.Coherent) (hrefusal : dest.roster.refusal? mode src.ids = none)
    (hloop : (dest.roster.primed mode src.ids).mergeElements mode src.elements =
      (.ok outcomes, r)) :
    ∃ after, dest.Merges mode src after ∧
      after.contents = ⟨r.identifier, r.title, r.elements⟩ ∧ after.slots.Coherent := by
  have hmodel := refines_merge hdest mode src
  rw [Roster.merge_of_mergeElements hrefusal hloop] at hmodel
  obtain ⟨after, hmerge, rfl, hcoherent⟩ := hmodel.exists_eq
  exact ⟨after, ⟨_, hmerge⟩, rfl, hcoherent⟩

end Package

/-- Merges in the mode `mode` succeed and join the contents by `op`, which is associative, and
leaves elements as they are that it is given twice. -/
structure Mode.JoinsBy (mode : Mode) (op : List Element → List Element → List Element) :
    Prop where
  merges : ∀ {γ δ : Type} [Generator γ] {dest : Package γ} {src : Package δ},
    dest.slots.Coherent → src.slots.Coherent →
      ∃ after, dest.Merges mode src after ∧
        after.contents = dest.contents.join op src.contents ∧ after.slots.Coherent
  assoc : ∀ xs ys zs, op (op xs ys) zs = op xs (op ys zs)
  self : ∀ xs : List Element, (∀ x ∈ xs, ∃ key, x.id = some key) → op xs xs = xs

namespace Mode

variable {mode : Mode} {op : List Element → List Element → List Element} {c d : Contents}

theorem joinsBy_skip : JoinsBy .skip Element.supplement where
  merges hdest hsrc :=
    Package.exists_merges hdest rfl (Package.awaits_of_coherent hsrc _).mergeElements_skip
  assoc := Element.supplement_assoc
  self _ := Element.supplement_self

theorem joinsBy_replace : JoinsBy .replace Element.override where
  merges hdest hsrc :=
    Package.exists_merges hdest rfl (Package.awaits_of_coherent hsrc _).mergeElements_replace
  assoc := Element.override_assoc
  self _ := Element.override_self

theorem JoinsBy.join_assoc (h : mode.JoinsBy op) (b c d : Contents) :
    (b.join op c).join op d = b.join op (c.join op d) :=
  congrArg (Contents.mk _ _) (h.assoc _ _ _)

/-- The contents `d` that were joined to `c` already are not joined again. -/
theorem JoinsBy.join_join_self (h : mode.JoinsBy op) (c : Contents)
    (hidentified : ∀ e ∈ d.elements, ∃ key, e.id = some key) :
    (c.join op d).join op d = c.join op d := by
  have hself : d.join op d = d := congrArg (Contents.mk _ _) (h.self _ hidentified)
  rw [h.join_assoc, hself]

end Mode

namespace Package

variable {γ δ ε : Type} [Generator γ] [Generator δ] [Generator ε] {a : Package γ}
  {b : Package δ} {c : Package ε} {mode : Mode}

/-- Merges that `skip` or `replace` can be grouped and repeated freely.  All of them succeed;
merging first `b` and then `c` into `a` leaves what merging `c` into `b` and the result `bc` into
`a` leaves; and merging `b` into `ab` a second time changes nothing. -/
theorem Reachable.merge_regroups (ha : Reachable a) (hb : Reachable b) (hc : Reachable c)
    (hmode : mode = .skip ∨ mode = .replace) :
    ∃ ab bc front back again,
      a.Merges mode b ab ∧ ab.Merges mode c front ∧
      b.Merges mode c bc ∧ a.Merges mode bc back ∧ front.contents = back.contents ∧
      ab.Merges mode b again ∧ again.contents = ab.contents := by
  obtain ⟨op, hop⟩ : ∃ op, mode.JoinsBy op := by
    rcases hmode with rfl | rfl
    · exact ⟨_, Mode.joinsBy_skip⟩
    · exact ⟨_, Mode.joinsBy_replace⟩
  obtain ⟨ab, hab, habContents, habCoherent⟩ := hop.merges ha.coherent hb.coherent
  obtain ⟨bc, hbc, hbcContents, hbcCoherent⟩ := hop.merges hb.coherent hc.coherent
  obtain ⟨front, hfront, hfrontContents, -⟩ := hop.merges habCoherent hc.coherent
  obtain ⟨back, hback, hbackContents, -⟩ := hop.merges ha.coherent hbcCoherent
  obtain ⟨again, hagain, hagainContents, -⟩ := hop.merges habCoherent hb.coherent
  refine ⟨ab, bc, front, back, again, hab, hfront, hbc, hback, ?_, hagain, ?_⟩
  · rw [hfrontContents, hbackContents, habContents, hbcContents, hop.join_assoc]
  · rw [hagainContents, habContents]
    exact hop.join_join_self _ hb.coherent.identified

/-- Replacing in two groupings with three packages of which every two overlap.  Two elements of
the first one were removed before. -/
theorem Reachable.merge_regroups_of_three_overlaps :
    let e := Element.ofBody .catalog
    let f := Element.ofBody .attachment
    let a := (⟨some "a", none, .empty, ⟨["x"]⟩⟩ : Package Listed).run
      [.add (e.withId "1"), .add (e.withId "2"), .add (e.withId "3"), .add (e.withId "4"),
        .removeElements ["2", "4"], .add (e.withId "2")]
    let b := (⟨none, none, .empty, .ofStem "x"⟩ : Package Sequential).run
      [.add (f.withId "3"), .add f, .add (f.withId "1")]
    let c := (⟨none, some "c", .empty, ⟨["x"]⟩⟩ : Package Listed).run
      [.add (e.withId "x-1"), .add (e.withId "2")]
    Reachable a ∧ Reachable b ∧ Reachable c ∧
      ∃ ab bc front back again, a.Merges .replace b ab ∧ ab.Merges .replace c front ∧
        b.Merges .replace c bc ∧ a.Merges .replace bc back ∧ front.contents = back.contents ∧
        back.elements = [f.withId "3", f.withId "1", e.withId "x-1", e.withId "2"] ∧
        ab.Merges .replace b again ∧ again.contents = ab.contents := by
  intro e f a b c
  have ha : Reachable a := (Reachable.new _ _ _).run _
  have hb : Reachable b := (Reachable.new _ _ _).run _
  have hc : Reachable c := (Reachable.new _ _ _).run _
  have har : a.roster = ⟨some "a", none, [e.withId "1", e.withId "3", e.withId "2"], ⟨["x"]⟩⟩ := by
    rw [roster_run Slots.coherent_empty]
    cbv
  have hbr : b.roster = ⟨none, none, [f.withId "3", f.withId "x-1", f.withId "1"], ⟨"x", 1⟩⟩ := by
    rw [roster_run Slots.coherent_empty]
    cbv
  have hcr : c.roster = ⟨none, some "c", [e.withId "x-1", e.withId "2"], ⟨["x"]⟩⟩ := by
    rw [roster_run Slots.coherent_empty]
    cbv
  obtain ⟨ab, bc, front, back, again, hab, hfront, hbc, hback, hsame, hagain⟩ :=
    ha.merge_regroups hb hc (.inr rfl)
  refine ⟨ha, hb, hc, ab, bc, front, back, again, hab, hfront, hbc, hback, hsame, ?_, hagain⟩
  have hbcElements : bc.elements =
      [f.withId "3", f.withId "1", e.withId "x-1", e.withId "2"] := by
    obtain ⟨report, hbc⟩ := hbc
    have hmodel := (refines_merge hb.coherent .replace c).roster
    rw [hbc, ← elements_roster c, hbr, hcr] at hmodel
    exact (congrArg Roster.elements hmodel).trans (by cbv)
  obtain ⟨report, hback⟩ := hback
  have hmodel := (refines_merge ha.coherent .replace bc).roster
  rw [hback, har, hbcElements] at hmodel
  exact (congrArg Roster.elements hmodel).trans (by cbv)

end Package

end MediaManifest
