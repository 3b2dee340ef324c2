import MediaManifest.Package.Basic
import MediaManifest.Proofs.Slots.Coherence

/-!
# Packages as plain lists

A roster is the list of elements that a package stands for, without slots and
without an index.  Its operations are written with the usual operations on
lists.  Every operation on a package with coherent slots answers what the same
operation on its roster answers, and leaves coherent slots and the roster that
the list operation leaves (`Refines`).
-/

namespace MediaManifest

/-- The elements of a package as a plain list, with its names and its generator. -/
structure Roster (γ : Type) where
  identifier : Option String
  title : Option String
  elements : List Element
  generator : γ

namespace Roster

variable {γ : Type}

def ids (r : Roster γ) : List String :=
  r.elements.filterMap Element.id

/-- The element with the identifier `key`. -/
def get? (r : Roster γ) (key : String) : Option Element :=
  r.elements.find? fun e => e.id == some key

/-- Deletes the element with the identifier `key` and answers it. -/
def removeById (r : Roster γ) (key : String) : Option Element × Roster γ :=
  (r.get? key, { r with elements := r.elements.filter fun e => e.id != some key })

/-- Deletes the element that shares the identifier of `e`. -/
def remove (r : Roster γ) (e : Element) : Option Element × Roster γ :=
  match e.id with
  | some key => r.removeById key
  | none => (none, r)

/-- Deletes the elements under the identifiers `keys`.  Identifiers that are absent or repeat
earlier ones answer nothing. -/
def removeElements (r : Roster γ) (keys : List String) : List Element × Roster γ :=
  (keys.eraseDups.filterMap r.get?,
    { r with elements := r.elements.filter fun e => !keys.any fun key => e.id == some key })

def clear (r : Roster γ) : List Element × Roster γ :=
  (r.elements, { r with elements := [] })

/-- Writes `e` in the place of the element with the identifier `key`. -/
def substitute (r : Roster γ) (key : String) (e : Element) : Roster γ :=
  { r with elements := r.elements.map fun x => if x.id = some key then e else x }

/-- The roster `r` with further elements and another generator. -/
def extend (r : Roster γ) (more : List Element × γ) : Roster γ :=
  { r with elements := r.elements ++ more.1, generator := more.2 }

section Generator

variable [Generator γ]

def draw (r : Roster γ) : String × Roster γ :=
  ((Generator.next r.generator).1, { r with generator := (Generator.next r.generator).2 })

def reserve (r : Roster γ) (key : String) : Roster γ :=
  { r with generator := Generator.reserve key r.generator }

/-- Appends `e` unless its identifier `key` is present. -/
def append (r : Roster γ) (key : String) (e : Element) : Except Error String × Roster γ :=
  if key ∈ r.ids then (.error (.duplicateElement key), r)
  else (.ok key, { r.reserve key with elements := r.elements ++ [e] })

/-- Appends `e` under its own identifier or a drawn one. -/
def add (r : Roster γ) (e : Element) : Except Error String × Roster γ :=
  match e.id with
  | some key => r.append key e
  | none => r.draw.2.append r.draw.1 (e.withId r.draw.1)

/-- Appends elements up to the first that is refused. -/
def addAll (r : Roster γ) : List Element → Except Error Unit × Roster γ
  | [] => (.ok (), r)
  | e :: es =>
    match r.add e with
    | (.error error, r) => (.error error, r)
    | (.ok _, r) => addAll r es

/-- Writes the edited element `e` in its place under the identifier `new`, or under the `old` one
if `new` is present. -/
def settle (r : Roster γ) (old new : String) (e : Element) : Except Error Bool × Roster γ :=
  if new ∈ r.ids then (.error (.duplicateElement new), r.substitute old (e.withId old))
  else (.ok true, (r.substitute old (e.withId new)).reserve new)

/-- Edits the element with the identifier `key` at its place. -/
def editElement (r : Roster γ) (key : String) (edit : Element → Element) :
    Except Error Bool × Roster γ :=
  match r.get? key with
  | none => (.ok false, r)
  | some e =>
    match (edit e).id with
    | some new =>
      if new = key then (.ok true, r.substitute key (edit e)) else r.settle key new (edit e)
    | none => r.draw.2.settle key r.draw.1 (edit e)

/-- Appends `e` after deleting the element that shares its identifier. -/
def updateElement (r : Roster γ) (e : Element) : Except Error String × Roster γ :=
  (r.remove e).2.add e

/-- Appends the elements `es` after deleting all others. -/
def replaceElements (r : Roster γ) (es : List Element) : Except Error Unit × Roster γ :=
  r.clear.2.addAll es

end Generator

/-! ## Further elements -/

@[simp] theorem extend_nil (r : Roster γ) : r.extend ([], r.generator) = r := by
  simp [extend]

theorem extend_extend (r : Roster γ) (e : Element) (g : γ) (more : List Element × γ) :
    (r.extend ([e], g)).extend more = r.extend (e :: more.1, more.2) := by
  simp [extend]

theorem mem_ids_extend {r : Roster γ} {e : Element} {new : String} (g : γ)
    (hid : e.id = some new) (key : String) :
    key ∈ (r.extend ([e], g)).ids ↔ key ∈ r.ids ∨ key = new := by
  simp only [ids, extend, List.filterMap_append, List.mem_append]
  simp [hid, eq_comm]

/-- Identifiers of `es` that are free and differ from the one of an added element `e` stay free. -/
theorem free_extend {r : Roster γ} {e : Element} {es : List Element} {key : String} (g : γ)
    (hid : e.id = some key) (hfirst : ∀ x ∈ es, e.id ≠ x.id)
    (hfree : ∀ x ∈ e :: es, ∀ other, x.id = some other → other ∉ r.ids) :
    ∀ x ∈ es, ∀ other, x.id = some other → other ∉ (r.extend ([e], g)).ids := by
  intro x hx other hother hmem
  rcases (mem_ids_extend g hid other).mp hmem with hold | rfl
  · exact hfree x (List.mem_cons_of_mem e hx) other hother hold
  · exact hfirst x hx (hid.trans hother.symm)

theorem append_of_free [Generator γ] {r : Roster γ} {key : String} (hfree : key ∉ r.ids)
    (e : Element) :
    r.append key e = (.ok key, r.extend ([e], Generator.reserve key r.generator)) := by
  rw [append, if_neg hfree]
  rfl

/-! ## Deleting several identifiers -/

theorem get?_removeById (r : Roster γ) (key other : String) :
    (r.removeById key).2.get? other = if other = key then none else r.get? other := by
  simp only [get?, removeById, List.find?_filter]
  split
  · next hsame =>
    subst hsame
    rw [List.find?_eq_none]
    simp
  · next hne =>
    congr 1
    funext e
    by_cases he : e.id = some other
    · simp [he, hne]
    · simp [he]

theorem eraseDups_filter (keys : List String) (keep : String → Bool) :
    (keys.filter keep).eraseDups = keys.eraseDups.filter keep := by
  induction hlength : keys.length using Nat.strongRecOn generalizing keys with
  | _ n ih =>
      cases keys with
      | nil => rfl
      | cons key rest =>
          have hshorter : (rest.filter fun x => !x == key).length < n := by
            have := List.length_filter_le (fun x => !x == key) rest
            rw [List.length_cons] at hlength
            omega
          have hrest := ih _ hshorter (rest.filter fun x => !x == key) rfl
          rw [List.filter_filter] at hrest
          by_cases hkeep : keep key = true
          · rw [List.filter_cons_of_pos hkeep, List.eraseDups_cons, List.eraseDups_cons,
              List.filter_cons_of_pos hkeep, List.filter_filter, ← hrest]
            simp only [Bool.and_comm]
          · have hdrop : rest.filter keep = rest.filter fun x => keep x && !x == key := by
              apply List.filter_congr
              intro x _
              by_cases hx : x = key
              · subst hx
                simpa using hkeep
              · simp [hx]
            rw [List.filter_cons_of_neg hkeep, List.eraseDups_cons,
              List.filter_cons_of_neg hkeep, ← hrest, hdrop]

/-- Deleting `key :: keys` deletes `key` and then the others. -/
theorem removeElements_cons (r : Roster γ) (key : String) (keys : List String) :
    r.removeElements (key :: keys) =
      ((r.removeById key).1.toList ++ ((r.removeById key).2.removeElements keys).1,
        ((r.removeById key).2.removeElements keys).2) := by
  have hanswers : (keys.filter fun x => !x == key).eraseDups.filterMap r.get? =
      keys.eraseDups.filterMap (r.removeById key).2.get? := by
    rw [eraseDups_filter, List.filterMap_filter]
    congr 1
    funext x
    rw [get?_removeById]
    by_cases hx : x = key <;> simp [hx]
  have helements : (r.elements.filter fun e => !(key :: keys).any fun x => e.id == some x) =
      (r.elements.filter fun e => e.id != some key).filter
        fun e => !keys.any fun x => e.id == some x := by
    rw [List.filter_filter]
    congr 1
    funext e
    simp [Bool.and_comm, bne]
  simp only [removeElements, List.eraseDups_cons, helements]
  rw [← hanswers]
  cases hget : r.get? key with
  | none => simp [removeById, hget]
  | some e => simp [removeById, hget]

end Roster

namespace Package

variable {γ : Type}

/-- The plain list that a package stands for. -/
def roster (p : Package γ) : Roster γ :=
  ⟨p.identifier, p.title, p.elements, p.generator⟩

/-- A `step` on a package answers what the step `model` on its roster answers, and leaves coherent
slots and the same roster. -/
structure Refines {α : Type} (step : α × Package γ) (model : α × Roster γ) : Prop where
  answer : step.1 = model.1
  roster : step.2.roster = model.2
  coherent : step.2.slots.Coherent

theorem Refines.model_eq {α : Type} {step : α × Package γ} {model : α × Roster γ}
    (h : Refines step model) : model = (step.1, step.2.roster) :=
  Prod.ext h.answer.symm h.roster.symm

theorem Refines.exists_eq {α : Type} {step : α × Package γ} {answer : α} {r : Roster γ}
    (h : Refines step (answer, r)) :
    ∃ after, step = (answer, after) ∧ after.roster = r ∧ after.slots.Coherent :=
  ⟨step.2, Prod.ext h.answer rfl, h.roster, h.coherent⟩

theorem Refines.map {α β : Type} {step : α × Package γ} {model : α × Roster γ}
    (h : Refines step model) (f : α → β) :
    Refines (step.map f id) (model.map f id) where
  answer := congrArg f h.answer
  roster := h.roster
  coherent := h.coherent

variable {p : Package γ} {key : String} {e : Element}

@[simp] theorem elements_roster (p : Package γ) : p.roster.elements = p.elements := rfl

@[simp] theorem generator_roster (p : Package γ) : p.roster.generator = p.generator := rfl

@[simp] theorem ids_roster (p : Package γ) : p.roster.ids = p.ids := rfl

theorem mem_ids_iff : key ∈ p.ids ↔ ∃ e ∈ p.elements, e.id = some key := by
  simp [ids]

theorem contains_iff (h : p.slots.Coherent) : p.contains key = true ↔ key ∈ p.ids := by
  rw [mem_ids_iff]
  exact h.contains_iff

theorem contains_eq_false (h : p.slots.Coherent) (hkey : key ∉ p.ids) :
    p.contains key = false := by
  rw [← Bool.not_eq_true, contains_iff h]
  exact hkey

theorem get?_eq (h : p.slots.Coherent) (key : String) : p.get? key = p.roster.get? key :=
  h.get?_eq key

theorem size_eq (h : p.slots.Coherent) : p.size = p.elements.length :=
  h.size_eq

/-! ## Removing -/

theorem refines_removeById (h : p.slots.Coherent) (key : String) :
    Refines (p.removeById key) (p.roster.removeById key) where
  answer := h.fst_remove key
  roster := by
    simp only [removeById, Package.roster, Roster.removeById, elements]
    rw [h.elements_remove key]
  coherent := h.remove key

theorem refines_remove (h : p.slots.Coherent) (e : Element) :
    Refines (p.remove e) (p.roster.remove e) := by
  unfold remove Roster.remove
  cases e.id with
  | none => exact ⟨rfl, rfl, h⟩
  | some key => exact refines_removeById h key

theorem refines_clear (p : Package γ) : Refines p.clear p.roster.clear where
  answer := rfl
  roster := rfl
  coherent := Slots.coherent_empty

theorem refines_removeElements (h : p.slots.Coherent) (keys : List String) :
    Refines (p.removeElements keys) (p.roster.removeElements keys) := by
  induction keys generalizing p with
  | nil =>
      have hall : p.elements.filter (fun _ => true) = p.elements :=
        List.filter_eq_self.mpr fun _ _ => rfl
      refine ⟨rfl, ?_, h⟩
      simp [removeElements, Roster.removeElements, Package.roster, hall]
  | cons key keys ih =>
      have hfirst := refines_removeById h key
      have hrest := ih hfirst.coherent
      rw [Roster.removeElements_cons, ← hfirst.answer, ← hfirst.roster]
      exact ⟨congrArg _ hrest.answer, hrest.roster, hrest.coherent⟩

/-! ## Looking into a slot -/

theorem get?_eq_of_find? {pos : Nat} (h : p.slots.Coherent)
    (hfind : p.slots.find? key = some (pos, e)) : p.roster.get? key = some e := by
  rw [← get?_eq h, get?, Slots.get?, hfind]
  rfl

theorem roster_put {pos : Nat} (h : p.slots.Coherent)
    (hfind : p.slots.find? key = some (pos, e)) (new : Element) :
    roster { p with slots := p.slots.put pos new } = p.roster.substitute key new := by
  simp only [roster, Roster.substitute, elements]
  rw [h.elements_put hfind new]

/-! ## Adding -/

section Generator

variable [Generator γ]

theorem refines_draw (h : p.slots.Coherent) : Refines p.draw p.roster.draw :=
  ⟨rfl, rfl, h⟩

theorem refines_insert (h : p.slots.Coherent) (hid : e.id = some key) :
    Refines (p.insert key e) (p.roster.append key e) := by
  unfold insert Roster.append
  by_cases hkey : key ∈ p.ids
  · rw [if_pos ((contains_iff h).mpr hkey), if_pos (show key ∈ p.roster.ids from hkey)]
    exact ⟨rfl, rfl, h⟩
  · have hfree := contains_eq_false h hkey
    rw [if_neg (by simp [hfree]), if_neg (show key ∉ p.roster.ids from hkey)]
    refine ⟨rfl, ?_, h.push hfree hid⟩
    simp [Package.roster, Roster.reserve, elements]

theorem refines_add (h : p.slots.Coherent) (e : Element) :
    Refines (p.add e) (p.roster.add e) := by
  unfold add Roster.add
  cases hid : e.id with
  | none =>
      have hdraw := refines_draw h
      simp only
      rw [← hdraw.roster, ← hdraw.answer]
      exact refines_insert hdraw.coherent rfl
  | some key => exact refines_insert h hid

theorem refines_addAll (h : p.slots.Coherent) (es : List Element) :
    Refines (p.addAll es) (p.roster.addAll es) := by
  induction es generalizing p with
  | nil => exact ⟨rfl, rfl, h⟩
  | cons e es ih =>
      have hadd := refines_add h e
      rw [addAll, Roster.addAll, hadd.model_eq]
      have hcoherent := hadd.coherent
      rcases hstep : p.add e with ⟨answer, q⟩
      rw [hstep] at hcoherent
      cases answer with
      | error error => exact ⟨rfl, rfl, hcoherent⟩
      | ok key => exact ih hcoherent

theorem refines_updateElement (h : p.slots.Coherent) (e : Element) :
    Refines (p.updateElement e) (p.roster.updateElement e) := by
  have hremove := refines_remove h e
  have hadd := refines_add hremove.coherent e
  rw [hremove.roster] at hadd
  exact hadd

theorem refines_replaceElements (p : Package γ) (es : List Element) :
    Refines (p.replaceElements es) (p.roster.replaceElements es) :=
  refines_addAll (refines_clear p).coherent es

/-! ## Editing -/

theorem refines_settle {pos : Nat} (h : p.slots.Coherent)
    (hfind : p.slots.find? key = some (pos, e)) (new : String) (edited : Element) :
    Refines (p.settle pos key new edited) (p.roster.settle key new edited) := by
  unfold settle Roster.settle
  by_cases hnew : new ∈ p.ids
  · rw [if_pos ((contains_iff h).mpr hnew), if_pos (show new ∈ p.roster.ids from hnew)]
    exact ⟨rfl, roster_put h hfind _, h.put hfind rfl⟩
  · have hfree := contains_eq_false h hnew
    rw [if_neg (by simp [hfree]), if_neg (show new ∉ p.roster.ids from hnew)]
    refine ⟨rfl, ?_, h.rename hfind hfree rfl⟩
    rw [← roster_put h hfind]
    rfl

theorem refines_editElement (h : p.slots.Coherent) (key : String)
    (edit : Element → Element) :
    Refines (p.editElement key edit) (p.roster.editElement key edit) := by
  unfold editElement Roster.editElement
  cases hfind : p.slots.find? key with
  | none =>
      have hget : p.roster.get? key = none := by
        rw [← get?_eq h, get?, Slots.get?, hfind]
        rfl
      rw [hget]
      exact ⟨rfl, rfl, h⟩
  | some found =>
      obtain ⟨pos, e⟩ := found
      rw [get?_eq_of_find? h hfind]
      cases hid : (edit e).id with
      | none =>
          simp only [hid]
          exact refines_settle (refines_draw h).coherent hfind _ _
      | some new =>
          simp only [hid]
          by_cases hsame : new = key
          · rw [if_pos hsame, if_pos hsame]
            exact ⟨rfl, roster_put h hfind _, h.put hfind (hsame ▸ hid)⟩
          · rw [if_neg hsame, if_neg hsame]
            exact refines_settle h hfind new _

end Generator

end Package

end MediaManifest
