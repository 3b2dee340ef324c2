import MediaManifest.Proofs.Identifier.Drawing
import MediaManifest.Proofs.Package.Reachable

/-!
# What generators remember of the identifiers in use

Every way in which an identifier enters a package reserves it, so the generator
of a reachable package has every relation that generators remember with every
identifier in the package.  For a sequential generator this means that it covers them all.
-/

namespace MediaManifest

namespace Roster

variable {γ : Type} [Generator γ] {knows : γ → String → Prop} {r : Roster γ} {key : String}
  {e : Element}

/-- The generator of `r` knows every identifier in the list. -/
def Known (knows : γ → String → Prop) (r : Roster γ) : Prop :=
  ∀ e ∈ r.elements, ∀ key, e.id = some key → knows r.generator key

omit [Generator γ] in
theorem Known.of_mem_ids (h : r.Known knows) (hkey : key ∈ r.ids) : knows r.generator key := by
  obtain ⟨e, he, hid⟩ := List.mem_filterMap.mp hkey
  exact h e he key hid

omit [Generator γ] in
theorem Known.of_subset (h : r.Known knows) {es : List Element}
    (hes : ∀ e ∈ es, e ∈ r.elements) : Known knows { r with elements := es } :=
  fun e he => h e (hes e he)

theorem Known.draw (h : r.Known knows) (hknows : Generator.Remembers knows) :
    r.draw.2.Known knows :=
  fun e he key hkey => hknows.next (h e he key hkey)

theorem Known.reserve (h : r.Known knows) (hknows : Generator.Remembers knows)
    (key : String) : (r.reserve key).Known knows :=
  fun e he other hother => hknows.reserve key (h e he other hother)

omit [Generator γ] in
theorem Known.removeById (h : r.Known knows) (key : String) :
    (r.removeById key).2.Known knows :=
  h.of_subset fun _ he => (List.mem_filter.mp he).1

omit [Generator γ] in
theorem Known.remove (h : r.Known knows) (e : Element) : (r.remove e).2.Known knows := by
  unfold Roster.remove
  split
  · exact h.removeById _
  · exact h

theorem Known.append (h : r.Known knows) (hknows : Generator.Remembers knows)
    (he : e.id = some key) : (r.append key e).2.Known knows := by
  unfold Roster.append
  split
  · exact h
  · intro x hx other hother
    rcases List.mem_append.mp hx with hx | hx
    · exact hknows.reserve key (h x hx other hother)
    · obtain rfl : x = e := List.mem_singleton.mp hx
      obtain rfl : key = other := by simpa [he] using hother
      exact hknows.reserved r.generator key

theorem Known.add (h : r.Known knows) (hknows : Generator.Remembers knows) (e : Element) :
    (r.add e).2.Known knows := by
  unfold Roster.add
  split
  · next key hid => exact h.append hknows hid
  · exact (h.draw hknows).append hknows rfl

theorem Known.addAll (h : r.Known knows) (hknows : Generator.Remembers knows)
    (es : List Element) : (r.addAll es).2.Known knows := by
  induction es generalizing r with
  | nil => exact h
  | cons e es ih =>
      have hadd := h.add hknows e
      unfold Roster.addAll
      split
      · next hstep =>
        rw [hstep] at hadd
        exact hadd
      · next hstep =>
        rw [hstep] at hadd
        exact ih hadd

omit [Generator γ] in
/-- An element `e` that keeps the identifier `key` of the one it replaces adds nothing to be
known. -/
theorem Known.substitute (h : r.Known knows) (he : e.id = some key) :
    (r.substitute key e).Known knows := by
  intro x hx other hother
  obtain ⟨y, hy, rfl⟩ := List.mem_map.mp hx
  split at hother
  · next hsame => exact h y hy other (hsame.trans (he.symm.trans hother))
  · exact h y hy other hother

theorem Known.settle (h : r.Known knows) (hknows : Generator.Remembers knows)
    (old new : String) (e : Element) : (r.settle old new e).2.Known knows := by
  unfold Roster.settle
  split
  · exact h.substitute rfl
  · intro x hx other hother
    obtain ⟨y, hy, rfl⟩ := List.mem_map.mp hx
    split at hother
    · obtain rfl : new = other := by simpa using hother
      exact hknows.reserved r.generator new
    · exact hknows.reserve new (h y hy other hother)

theorem Known.editElement (h : r.Known knows) (hknows : Generator.Remembers knows)
    (key : String) (edit : Element → Element) : (r.editElement key edit).2.Known knows := by
  unfold Roster.editElement
  split
  · exact h
  · split
    · next new hid =>
      split
      · next hsame => exact h.substitute (hsame ▸ hid)
      · exact h.settle hknows key new _
    · exact (h.draw hknows).settle hknows key _ _

/-- No operation `op` leaves an identifier in the list that the generator does not know. -/
theorem Known.perform (h : r.Known knows) (hknows : Generator.Remembers knows)
    (op : Operation) : (r.perform op).2.Known knows := by
  cases op with
  | add e => exact h.add hknows e
  | remove e => exact h.remove e
  | removeById key => exact h.removeById key
  | removeElements keys => exact h.of_subset fun _ he => (List.mem_filter.mp he).1
  | clear => exact h.of_subset fun _ he => absurd he List.not_mem_nil
  | editElement key edit => exact h.editElement hknows key edit
  | updateElement e => exact (h.remove e).add hknows e
  | replaceElements es =>
      have hclear : r.clear.2.Known knows := h.of_subset fun _ he => absurd he List.not_mem_nil
      exact hclear.addAll hknows es
  | setIdentifier identifier => exact h
  | setTitle title => exact h
  | draw => exact h.draw hknows
  | reserve key => exact h.reserve hknows key

end Roster

namespace Package

open Generator (reserveAll)

variable {γ : Type} [Generator γ] {knows : γ → String → Prop} {p : Package γ}

theorem known_run (hcoherent : p.slots.Coherent) (h : p.roster.Known knows)
    (hknows : Generator.Remembers knows) (ops : List Operation) :
    (p.run ops).roster.Known knows := by
  induction ops generalizing p with
  | nil => exact h
  | cons op ops ih =>
      have hstep := refines_perform hcoherent op
      apply ih hstep.coherent
      rw [hstep.roster]
      exact h.perform hknows op

/-- The generator of a reachable package `p` knows every identifier in it. -/
theorem Reachable.known (h : Reachable p) :
    ∀ {knows : γ → String → Prop}, Generator.Remembers knows → p.roster.Known knows := by
  induction h with
  | new => exact fun _ _ he => absurd he List.not_mem_nil
  | decoded hdecode =>
      intro knows hknows
      obtain ⟨identifier, title, ops, rfl⟩ := exists_run_decodeValue hdecode
      exact known_run Slots.coherent_empty (fun _ he => absurd he List.not_mem_nil) hknows ops
  | performed hp op ih =>
      intro knows hknows
      exact known_run hp.coherent (ih hknows) hknows [op]
  | regenerated _ generator hkeys _ =>
      intro knows hknows e he key hid
      apply hknows.reservedAll
      exact hkeys.mem_iff.mpr (mem_ids_iff.mpr ⟨e, he, hid⟩)
  | @merged _ _ _ _ dest src hdest _ mode ih _ =>
      intro knows hknows
      obtain ⟨ops, hops⟩ := exists_run_merge mode dest src
      rw [hops]
      exact known_run hdest.coherent (ih hknows) hknows ops

/-- The numbering of a reachable package `p` is past every identifier in it. -/
theorem Reachable.covers {p : Package Sequential} (h : Reachable p) {key : String}
    (hkey : key ∈ p.ids) : p.generator.Covers key :=
  (h.known Sequential.remembers_covers).of_mem_ids hkey

end Package

end MediaManifest
