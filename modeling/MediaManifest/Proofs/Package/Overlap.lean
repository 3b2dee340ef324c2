import MediaManifest.Proofs.Package.Renaming

/-!
# Merging packages that overlap

What becomes of the elements that share their identifier with an element of the
target, in the modes that invent no identifiers.  A merge that skips leaves them
out, and one that replaces leaves out those of the target; both only tell the
generator of identifiers and never draw from it.  A merge that fails finds the
first of them before it begins and leaves the target alone.

The loop works on a target that grows, while the results are told in terms of
the target at the beginning.  No two elements of the source share an identifier,
so what is still to come meets only what was there at the beginning (`Awaits`).
-/

namespace MediaManifest

open Generator (reserveAll)

namespace Element

variable {taken : List String} {e : Element} {key : String}

/-- The identifier of `e` is none of those `taken`. -/
def avoids (taken : List String) (e : Element) : Bool :=
  !e.clashes taken

theorem avoids_iff (hid : e.id = some key) : e.avoids taken = true ↔ key ∉ taken := by
  rw [avoids, Bool.not_eq_true', ← Bool.not_eq_true, clashes_iff hid]

theorem avoids_nil (e : Element) : e.avoids [] = true := by
  cases hid : e.id <;> simp [avoids, clashes, hid]

theorem avoids_cons (key : String) (taken : List String) (e : Element) :
    e.avoids (key :: taken) = (e.avoids taken && e.id != some key) := by
  cases hid : e.id with
  | none => simp [avoids, clashes, hid]
  | some own => by_cases hown : own = key <;> simp [avoids, clashes, hid, hown]

end Element

namespace Roster

open Element (avoids)

variable {γ : Type} [Generator γ] {r : Roster γ} {taken : List String} {e : Element}
  {es : List Element} {key : String}

/-- A target `r` between two elements of a merge.  The elements `es` still to come have
identifiers of their own, and `r` holds those of their identifiers that were `taken` at the
beginning. -/
structure Awaits (taken : List String) (r : Roster γ) (es : List Element) : Prop where
  identified : ∀ e ∈ es, ∃ key, e.id = some key
  distinct : es.Pairwise fun a b => a.id ≠ b.id
  agree : ∀ e ∈ es, ∀ key, e.id = some key → (key ∈ r.ids ↔ key ∈ taken)

omit [Generator γ] in
/-- A step at `e` that changes nothing about the identifiers of the other elements leaves a target
that waits for them. -/
theorem Awaits.rest {after : Roster γ} (h : Awaits taken r (e :: es))
    (hids : ∀ key, e.id ≠ some key → (key ∈ after.ids ↔ key ∈ r.ids)) :
    Awaits taken after es := by
  obtain ⟨hfirst, hrest⟩ := List.pairwise_cons.mp h.distinct
  refine ⟨fun x hx => h.identified x (List.mem_cons_of_mem e hx), hrest, ?_⟩
  intro x hx key hid
  rw [hids key fun hsame => hfirst x hx (hsame.trans hid.symm)]
  exact h.agree x (List.mem_cons_of_mem e hx) key hid

/-! ## Skipping -/

theorem mergeElement_skip_of_taken (hid : e.id = some key) (htaken : key ∈ r.ids) :
    r.mergeElement .skip e = (.ok (.skipped key), r) := by
  rw [mergeElement, hid, Option.filter_some, if_pos (by simpa using htaken)]

/-- Skipping adds the elements of `es` whose identifiers were not `taken` at the beginning. -/
theorem Awaits.mergeElements_skip (h : Awaits taken r es) :
    r.mergeElements .skip es =
      (.ok ((es.filterMap Element.id).map fun key =>
          if key ∈ taken then .skipped key else .added key),
        r.extend (es.filter (avoids taken),
          reserveAll ((es.filter (avoids taken)).filterMap Element.id) r.generator)) := by
  induction es generalizing r with
  | nil => exact Prod.ext rfl (extend_nil r).symm
  | cons e es ih =>
      obtain ⟨key, hid⟩ := h.identified e List.mem_cons_self
      have hagree := h.agree e List.mem_cons_self key hid
      have havoids : e.avoids taken = true ↔ key ∉ taken := Element.avoids_iff hid
      rw [List.filterMap_cons_some hid, List.map_cons]
      by_cases hkey : key ∈ taken
      · have hstep := mergeElement_skip_of_taken hid (hagree.mpr hkey)
        have hdropped : ¬ e.avoids taken = true := fun hkept => havoids.mp hkept hkey
        rw [mergeElements_cons_of_ok hstep, ih (h.rest fun _ _ => Iff.rfl), if_pos hkey,
          List.filter_cons_of_neg hdropped]
        rfl
      · have hstep := mergeElement_of_free .skip hid (hagree.not.mpr hkey)
        have hrest : Awaits taken (r.extend ([e], Generator.reserve key r.generator)) es := by
          apply h.rest
          intro other hother
          rw [mem_ids_extend _ hid]
          refine or_iff_left ?_
          rintro rfl
          exact hother hid
        rw [mergeElements_cons_of_ok hstep, ih hrest, if_neg hkey,
          List.filter_cons_of_pos (havoids.mpr hkey), List.filterMap_cons_some hid]
        exact Prod.ext rfl (extend_extend r e _ _)

/-! ## Replacing -/

/-- The target `r` without the element under `key`, and with `e` at its end instead. -/
def supersede (r : Roster γ) (key : String) (e : Element) : Roster γ :=
  { r with
    elements := (r.elements.filter fun x => x.id != some key) ++ [e]
    generator := Generator.reserve key r.generator }

omit [Generator γ] in
theorem mem_ids_removeById (r : Roster γ) (key other : String) :
    other ∈ (r.removeById key).2.ids ↔ other ∈ r.ids ∧ other ≠ key := by
  simp only [removeById, ids, List.mem_filterMap, List.mem_filter, bne_iff_ne]
  constructor
  · rintro ⟨x, ⟨hx, hne⟩, hid⟩
    refine ⟨⟨x, hx, hid⟩, ?_⟩
    rintro rfl
    exact hne hid
  · rintro ⟨⟨x, hx, hid⟩, hne⟩
    refine ⟨x, ⟨hx, ?_⟩, hid⟩
    rw [hid]
    simpa using hne

omit [Generator γ] in
theorem removeById_of_free (hfree : key ∉ r.ids) : (r.removeById key).2 = r := by
  have hall : (r.elements.filter fun x => x.id != some key) = r.elements := by
    apply List.filter_eq_self.mpr
    intro x hx
    rw [bne_iff_ne]
    intro hid
    exact hfree (List.mem_filterMap.mpr ⟨x, hx, hid⟩)
  simp only [removeById, hall]

theorem supersede_eq (r : Roster γ) (key : String) (e : Element) :
    r.supersede key e =
      (r.removeById key).2.extend ([e], Generator.reserve key r.generator) :=
  rfl

/-- Once the element under `key` was deleted, `e` is added and supersedes it. -/
theorem add_removeById (hid : e.id = some key) :
    (r.removeById key).2.add e = (.ok key, r.supersede key e) := by
  have hfree : key ∉ (r.removeById key).2.ids := fun hmem =>
    ((mem_ids_removeById r key key).mp hmem).2 rfl
  rw [add, hid, supersede_eq]
  exact append_of_free hfree e

/-- Whether or not its identifier `key` is taken, `e` supersedes what has it. -/
theorem mergeElement_replace (hid : e.id = some key) :
    r.mergeElement .replace e =
      (.ok (if key ∈ r.ids then .replaced key else .added key), r.supersede key e) := by
  by_cases htaken : key ∈ r.ids
  · rw [mergeElement, hid, Option.filter_some, if_pos (by simpa using htaken), if_pos htaken]
    simp only
    rw [add_removeById hid]
    rfl
  · rw [mergeElement_of_free .replace hid htaken, if_neg htaken, supersede_eq,
      removeById_of_free htaken]

/-- Replacing keeps the elements of `r` whose identifiers `es` does not have, and puts all of `es`
behind them. -/
theorem Awaits.mergeElements_replace (h : Awaits taken r es) :
    r.mergeElements .replace es =
      (.ok ((es.filterMap Element.id).map fun key =>
          if key ∈ taken then .replaced key else .added key),
        { r with
          elements := r.elements.filter (avoids (es.filterMap Element.id)) ++ es
          generator := reserveAll (es.filterMap Element.id) r.generator }) := by
  induction es generalizing r with
  | nil =>
      have hall : r.elements.filter (avoids []) = r.elements :=
        List.filter_eq_self.mpr fun x _ => x.avoids_nil
      simp only [mergeElements, List.filterMap_nil, List.map_nil, hall, List.append_nil,
        Generator.reserveAll_nil]
  | cons e es ih =>
      obtain ⟨key, hid⟩ := h.identified e List.mem_cons_self
      obtain ⟨hfirst, -⟩ := List.pairwise_cons.mp h.distinct
      have hagree := h.agree e List.mem_cons_self key hid
      have hrest : Awaits taken (r.supersede key e) es := by
        apply h.rest
        intro other hother
        have hne : other ≠ key := by
          rintro rfl
          exact hother hid
        rw [supersede_eq, mem_ids_extend _ hid, mem_ids_removeById]
        simp [hne]
      -- The element just added stays, since no other one of the source has its identifier.
      have hkept : e.avoids (es.filterMap Element.id) = true := by
        rw [Element.avoids_iff hid]
        intro hmem
        obtain ⟨x, hx, hsame⟩ := List.mem_filterMap.mp hmem
        exact hfirst x hx (hid.trans hsame.symm)
      have hkeeps : r.elements.filter (avoids (key :: es.filterMap Element.id)) =
          (r.elements.filter fun x => x.id != some key).filter
            (avoids (es.filterMap Element.id)) := by
        rw [List.filter_filter]
        exact List.filter_congr fun x _ => x.avoids_cons key _
      rw [mergeElements_cons_of_ok (mergeElement_replace hid), ih hrest,
        List.filterMap_cons_some hid, List.map_cons, hkeeps]
      simp only [supersede, List.filter_append, List.filter_cons_of_pos hkept,
        List.filter_nil, List.append_assoc, List.singleton_append, Generator.reserveAll_cons,
        hagree]
      rfl

omit [Generator γ] in
theorem ids_extend (r : Roster γ) (es : List Element) (g : γ) :
    (r.extend (es, g)).ids = r.ids ++ es.filterMap Element.id :=
  List.filterMap_append

end Roster

namespace Package

open Element (avoids)

variable {γ δ : Type} [Generator γ] [Generator δ] {dest after : Package γ} {src : Package δ}

/-! ## Merges that draw no identifier -/

/-- The package `after` comes from `dest` by changing elements and telling the generator of the
identifiers `told`, and finds exactly the elements that it lists. -/
structure Updates (told : List String) (dest after : Package γ) : Prop where
  identifier : after.identifier = dest.identifier
  title : after.title = dest.title
  generator : after.generator = reserveAll told dest.generator
  size : after.size = after.elements.length
  contains : ∀ key, after.contains key = true ↔ ∃ e ∈ after.elements, e.id = some key
  get? : ∀ key, after.get? key = after.elements.find? fun e => e.id == some key

theorem updates_of_roster {told : List String} {es : List Element}
    (hroster : after.roster =
      ⟨dest.identifier, dest.title, es, reserveAll told dest.generator⟩)
    (hcoherent : after.slots.Coherent) : Updates told dest after where
  identifier := congrArg Roster.identifier hroster
  title := congrArg Roster.title hroster
  generator := congrArg Roster.generator hroster
  size := size_eq hcoherent
  contains _ := hcoherent.contains_iff
  get? := get?_eq hcoherent

omit [Generator γ] [Generator δ] in
theorem awaits_of_coherent (hsrc : src.slots.Coherent) (dest : Package γ) :
    Roster.Awaits dest.ids dest.roster src.elements where
  identified := hsrc.identified
  distinct := hsrc.pairwise_ne
  agree _ _ _ _ := Iff.rfl

/-- Merges that `skip` or `replace` always succeed and draw no identifier.  The first one leaves
the elements of `dest` followed by those of `src` that avoid `dest.ids`; the second one leaves
those of `dest` that avoid `src.ids`, followed by all elements of `src`. -/
theorem Reachable.merge_without_drawing (hdest : Reachable dest) (hsrc : Reachable src) :
    (∃ outcomes after, dest.merge .skip src = (.ok ⟨.skip, outcomes⟩, after) ∧
      after.elements = dest.elements ++ src.elements.filter (avoids dest.ids) ∧
      Updates ((src.elements.filter (avoids dest.ids)).filterMap Element.id) dest after) ∧
    (∃ outcomes after, dest.merge .replace src = (.ok ⟨.replace, outcomes⟩, after) ∧
      after.elements = dest.elements.filter (avoids src.ids) ++ src.elements ∧
      Updates src.ids dest after) := by
  have hawaits := awaits_of_coherent hsrc.coherent dest
  constructor
  · have hmodel := refines_merge hdest.coherent .skip src
    rw [Roster.merge_of_mergeElements (r := dest.roster) rfl hawaits.mergeElements_skip] at hmodel
    obtain ⟨after, hmerge, hroster, hcoherent⟩ := hmodel.exists_eq
    exact ⟨_, after, hmerge, congrArg Roster.elements hroster,
      updates_of_roster hroster hcoherent⟩
  · have hmodel := refines_merge hdest.coherent .replace src
    rw [Roster.merge_of_mergeElements (r := dest.roster) rfl hawaits.mergeElements_replace]
      at hmodel
    obtain ⟨after, hmerge, hroster, hcoherent⟩ := hmodel.exists_eq
    exact ⟨_, after, hmerge, congrArg Roster.elements hroster,
      updates_of_roster hroster hcoherent⟩

/-- Of three elements in each package two overlap, in another order, and one of the target was
removed before. -/
theorem Reachable.merge_without_drawing_of_two_overlaps :
    let e := Element.ofBody .catalog
    let f := Element.ofBody .attachment
    let dest := (⟨some "d", none, .empty, ⟨["a"]⟩⟩ : Package Listed).run
      [.add (e.withId "a"), .add (e.withId "b"), .add (e.withId "c"), .add (e.withId "d"),
        .removeById "b"]
    let src := (⟨some "s", none, .empty, ⟨["a"]⟩⟩ : Package Listed).run
      [.add (f.withId "d"), .add (f.withId "b"), .add (f.withId "a")]
    Reachable dest ∧ Reachable src ∧
      (∃ outcomes after, dest.merge .skip src = (.ok ⟨.skip, outcomes⟩, after) ∧
        after.elements = [e.withId "a", e.withId "c", e.withId "d", f.withId "b"]) ∧
      (∃ outcomes after, dest.merge .replace src = (.ok ⟨.replace, outcomes⟩, after) ∧
        after.elements = [e.withId "c", f.withId "d", f.withId "b", f.withId "a"]) := by
  intro e f dest src
  have hdest : Reachable dest := (Reachable.new _ _ _).run _
  have hsrc : Reachable src := (Reachable.new _ _ _).run _
  have hd : dest.roster =
      ⟨some "d", none, [e.withId "a", e.withId "c", e.withId "d"], ⟨["a"]⟩⟩ := by
    rw [roster_run Slots.coherent_empty]
    cbv
  have hs : src.roster =
      ⟨some "s", none, [f.withId "d", f.withId "b", f.withId "a"], ⟨["a"]⟩⟩ := by
    rw [roster_run Slots.coherent_empty]
    cbv
  obtain ⟨⟨skipped, left, hskip, hleft, -⟩, ⟨replaced, put, hreplace, hput, -⟩⟩ :=
    hdest.merge_without_drawing hsrc
  rw [← ids_roster, ← elements_roster dest, ← elements_roster src, hd, hs] at hleft
  rw [← ids_roster, ← elements_roster dest, ← elements_roster src, hd, hs] at hput
  exact ⟨hdest, hsrc, ⟨skipped, left, hskip, hleft⟩, ⟨replaced, put, hreplace, hput⟩⟩

/-! ## Merges that fail -/

omit [Generator γ] in
theorem display_roster (p : Package γ) : p.roster.display = p.display := rfl

omit [Generator γ] in
/-- If `dest` has one of the identifiers `keys`, the first such one is found. -/
theorem exists_firstConflict (hdest : dest.slots.Coherent) {keys : List String}
    (hshared : ∃ key ∈ keys, key ∈ dest.ids) :
    ∃ front key back, keys = front ++ key :: back ∧ key ∈ dest.ids ∧
      (∀ other ∈ front, other ∉ dest.ids) ∧ firstConflict? dest keys = some key := by
  obtain ⟨shared, hmem, htaken⟩ := hshared
  have hsome : (firstConflict? dest keys).isSome = true :=
    List.find?_isSome.mpr ⟨shared, hmem, (contains_iff hdest).mpr htaken⟩
  obtain ⟨key, hfirst⟩ := Option.isSome_iff_exists.mp hsome
  obtain ⟨hkey, front, back, hkeys, hfront⟩ := List.find?_eq_some_iff_append.mp hfirst
  refine ⟨front, key, back, hkeys, (contains_iff hdest).mp hkey, ?_, hfirst⟩
  intro other hother hmem
  have hfree := hfront other hother
  rw [(contains_iff hdest).mpr hmem] at hfree
  cases hfree

omit [Generator δ] in
/-- If `dest` and `src` share no identifier, the loop adds element after element: what it holds
before any `e` does not have the identifier of `e`. -/
theorem mergeElement_of_disjoint (hdest : dest.slots.Coherent) (hsrc : src.slots.Coherent)
    (mode : Mode) (hdisjoint : ∀ key ∈ dest.ids, key ∉ src.ids) {front back : List Element}
    {e : Element} (hcut : src.elements = front ++ e :: back) :
    ∃ grown key, mergeElements mode dest front =
        (.ok ((front.filterMap Element.id).map .added), grown) ∧
      e.id = some key ∧ grown.contains key = false ∧
      (mergeElement mode grown e).1 = .ok (.added key) := by
  have hidentified := hsrc.identified
  have hdistinct := hsrc.pairwise_ne
  rw [← elements, hcut] at hidentified hdistinct
  obtain ⟨hfront, -, hacross⟩ := List.pairwise_append.mp hdistinct
  obtain ⟨key, hid⟩ := hidentified e (List.mem_append_right front List.mem_cons_self)
  have hfree : ∀ x ∈ src.elements, ∀ other, x.id = some other → other ∉ dest.roster.ids :=
    fun x hx other hother htaken =>
      hdisjoint other htaken (mem_ids_iff.mpr ⟨x, hx, hother⟩)
  rw [hcut] at hfree
  have hloop := Roster.mergeElements_of_free (r := dest.roster) mode
    (fun x hx => hidentified x (List.mem_append_left _ hx)) hfront
    (fun x hx => hfree x (List.mem_append_left _ hx))
  have hmodel := refines_mergeElements hdest mode front
  rw [hloop] at hmodel
  obtain ⟨grown, hgrown, hroster, hcoherent⟩ := hmodel.exists_eq
  have hnew : key ∉ grown.roster.ids := by
    rw [hroster, Roster.ids_extend, List.mem_append, not_or]
    refine ⟨hfree e (List.mem_append_right front List.mem_cons_self) key hid, ?_⟩
    intro hmem
    obtain ⟨x, hx, hsame⟩ := List.mem_filterMap.mp hmem
    exact hacross x hx e List.mem_cons_self (hsame.trans hid.symm)
  refine ⟨grown, key, hgrown, hid, contains_eq_false hcoherent hnew, ?_⟩
  rw [(refines_mergeElement hcoherent mode e).answer, Roster.mergeElement_of_free mode hid hnew]

/-- A merge in the mode `fail` is all or nothing.  If `dest` and `src` share an identifier, it
names the first one of `src` and leaves `dest` as it was.  If they share none, it adds all
elements of `src`, and no step of its loop meets a conflict: at every element `e` the package
`grown` so far does not contain its identifier `key`. -/
theorem Reachable.merge_all_or_nothing (hdest : Reachable dest) (hsrc : Reachable src) :
    ((∃ key ∈ src.ids, key ∈ dest.ids) →
      ∃ front key back, src.ids = front ++ key :: back ∧ key ∈ dest.ids ∧
        (∀ other ∈ front, other ∉ dest.ids) ∧
        dest.merge .fail src = (.error (.conflict dest.display key), dest)) ∧
    ((∀ key ∈ src.ids, key ∉ dest.ids) →
      (∃ after, dest.merge .fail src = (.ok ⟨.fail, src.ids.map .added⟩, after) ∧
        after.elements = dest.elements ++ src.elements) ∧
      ∀ front e back, src.elements = front ++ e :: back →
        ∃ grown key, mergeElements .fail dest front =
            (.ok ((front.filterMap Element.id).map .added), grown) ∧
          e.id = some key ∧ grown.contains key = false ∧
          (mergeElement .fail grown e).1 = .ok (.added key)) := by
  constructor
  · intro hshared
    obtain ⟨front, key, back, hkeys, htaken, hfront, hfirst⟩ :=
      exists_firstConflict hdest.coherent hshared
    have hrefusal : refusal? .fail dest src.ids = some key := by
      rw [refusal?, if_pos rfl, hfirst]
    exact ⟨front, key, back, hkeys, htaken, hfront, merge_of_refusal hrefusal⟩
  · intro hfree
    have hdisjoint : ∀ key ∈ dest.ids, key ∉ src.ids := fun key htaken hkey =>
      hfree key hkey htaken
    constructor
    · obtain ⟨after, hmerge, helements, -⟩ :=
        merge_of_disjoint hdest.coherent hsrc.coherent .fail hdisjoint
      exact ⟨after, hmerge, helements⟩
    · intro front e back hcut
      exact mergeElement_of_disjoint hdest.coherent hsrc.coherent .fail hdisjoint hcut

/-- The source shares its last two identifiers with the first target, which has them in the
other order, and none with the second. -/
theorem Reachable.merge_all_or_nothing_of_two_targets :
    let e := Element.ofBody .catalog
    let dest := fun first second : String =>
      (⟨none, none, .empty, .ofStem "x"⟩ : Package Sequential).run
        [.add (e.withId "a"), .add (e.withId first), .removeById "a", .add (e.withId second)]
    let src := (⟨some "s", none, .empty, ⟨["c"]⟩⟩ : Package Listed).run
      [.add (e.withId "a"), .add e, .add (e.withId "d")]
    Reachable (dest "d" "c") ∧ Reachable (dest "e" "f") ∧ Reachable src ∧
      (dest "d" "c").merge .fail src = (.error (.conflict "<no id>" "c"), dest "d" "c") ∧
      ∃ after, (dest "e" "f").merge .fail src =
          (.ok ⟨.fail, [.added "a", .added "c", .added "d"]⟩, after) ∧
        after.elements =
          [e.withId "e", e.withId "f", e.withId "a", e.withId "c", e.withId "d"] := by
  intro e dest src
  have hdest : ∀ first second, Reachable (dest first second) := fun _ _ =>
    (Reachable.new _ _ _).run _
  have hsrc : Reachable src := (Reachable.new _ _ _).run _
  have hs : src.roster =
      ⟨some "s", none, [e.withId "a", e.withId "c", e.withId "d"], ⟨["c"]⟩⟩ := by
    rw [roster_run Slots.coherent_empty]
    cbv
  have hshared : (dest "d" "c").roster =
      ⟨none, none, [e.withId "d", e.withId "c"], ⟨"x", 0⟩⟩ := by
    rw [roster_run Slots.coherent_empty]
    cbv
  have hother : (dest "e" "f").roster =
      ⟨none, none, [e.withId "e", e.withId "f"], ⟨"x", 0⟩⟩ := by
    rw [roster_run Slots.coherent_empty]
    cbv
  have hsids : src.ids = ["a", "c", "d"] := by
    rw [← ids_roster, hs]
    rfl
  have hsharedIds : (dest "d" "c").ids = ["d", "c"] := by
    rw [← ids_roster, hshared]
    rfl
  have hotherIds : (dest "e" "f").ids = ["e", "f"] := by
    rw [← ids_roster, hother]
    rfl
  refine ⟨hdest _ _, hdest _ _, hsrc, ?_, ?_⟩
  · obtain ⟨front, key, back, hkeys, htaken, hfront, hmerge⟩ :=
      ((hdest "d" "c").merge_all_or_nothing hsrc).1 (by rw [hsids, hsharedIds]; decide)
    have hdisplay : (dest "d" "c").display = "<no id>" := by
      rw [← display_roster, hshared]
      rfl
    rw [hsids] at hkeys
    rw [hsharedIds] at htaken hfront
    rw [hdisplay] at hmerge
    obtain rfl : key = "c" := by
      rcases front with _ | ⟨first, _ | ⟨second, front⟩⟩
      · obtain ⟨rfl, -⟩ := List.cons_eq_cons.mp hkeys
        exact absurd htaken (by decide)
      · obtain ⟨-, hrest⟩ := List.cons_eq_cons.mp hkeys
        exact (List.cons_eq_cons.mp hrest).1.symm
      · obtain ⟨-, hrest⟩ := List.cons_eq_cons.mp hkeys
        obtain ⟨rfl, -⟩ := List.cons_eq_cons.mp hrest
        exact absurd (by decide) (hfront "c" (List.mem_cons_of_mem _ List.mem_cons_self))
    exact hmerge
  · obtain ⟨⟨after, hmerge, helements⟩, -⟩ :=
      ((hdest "e" "f").merge_all_or_nothing hsrc).2 (by rw [hsids, hotherIds]; decide)
    rw [hsids] at hmerge
    rw [← elements_roster (dest "e" "f"), ← elements_roster src, hother, hs] at helements
    exact ⟨after, hmerge, helements⟩

end Package

end MediaManifest
