import MediaManifest.Proofs.Codec.Decoding
import MediaManifest.Proofs.Package.Merging

/-!
# Operations on packages

The operations on a single package as data, with what they answer.  They are
performed on packages and on rosters; performing one on a package with
coherent slots refines performing it on the roster.

Merging and decoding are runs of such operations, so what every operation
keeps, they keep.
-/

namespace MediaManifest

/-- An operation on a package.  The last two are what other holders of the same generator
do between the operations on the package. -/
inductive Operation where
  | add (e : Element)
  | remove (e : Element)
  | removeById (key : String)
  | removeElements (keys : List String)
  | clear
  | editElement (key : String) (edit : Element → Element)
  | updateElement (e : Element)
  | replaceElements (es : List Element)
  | setIdentifier (identifier : Option String)
  | setTitle (title : Option String)
  | draw
  | reserve (key : String)

/-- What an operation answers. -/
inductive Operation.Answer where
  | stored (result : Except Error String)
  | removed (element : Option Element)
  | handedOut (elements : List Element)
  | edited (result : Except Error Bool)
  | replaced (result : Except Error Unit)
  | drawn (key : String)
  | done

variable {γ : Type} [Generator γ]

/-- The answer of an operation on a package, and the package afterwards. -/
def Package.perform (p : Package γ) : Operation → Operation.Answer × Package γ
  | .add e => (p.add e).map .stored id
  | .remove e => (p.remove e).map .removed id
  | .removeById key => (p.removeById key).map .removed id
  | .removeElements keys => (p.removeElements keys).map .handedOut id
  | .clear => p.clear.map .handedOut id
  | .editElement key edit => (p.editElement key edit).map .edited id
  | .updateElement e => (p.updateElement e).map .stored id
  | .replaceElements es => (p.replaceElements es).map .replaced id
  | .setIdentifier identifier => (.done, { p with identifier := identifier })
  | .setTitle title => (.done, { p with title := title })
  | .draw => p.draw.map .drawn id
  | .reserve key => (.done, p.reserve key)

/-- The answer of an operation on a roster, and the roster afterwards. -/
def Roster.perform (r : Roster γ) : Operation → Operation.Answer × Roster γ
  | .add e => (r.add e).map .stored id
  | .remove e => (r.remove e).map .removed id
  | .removeById key => (r.removeById key).map .removed id
  | .removeElements keys => (r.removeElements keys).map .handedOut id
  | .clear => r.clear.map .handedOut id
  | .editElement key edit => (r.editElement key edit).map .edited id
  | .updateElement e => (r.updateElement e).map .stored id
  | .replaceElements es => (r.replaceElements es).map .replaced id
  | .setIdentifier identifier => (.done, { r with identifier := identifier })
  | .setTitle title => (.done, { r with title := title })
  | .draw => r.draw.map .drawn id
  | .reserve key => (.done, r.reserve key)

namespace Package

variable {p : Package γ}

/-- The operation `op` on the package `p` is the same operation on its roster. -/
theorem refines_perform (h : p.slots.Coherent) (op : Operation) :
    Refines (p.perform op) (p.roster.perform op) := by
  cases op with
  | add e => exact (refines_add h e).map _
  | remove e => exact (refines_remove h e).map _
  | removeById key => exact (refines_removeById h key).map _
  | removeElements keys => exact (refines_removeElements h keys).map _
  | clear => exact (refines_clear p).map _
  | editElement key edit => exact (refines_editElement h key edit).map _
  | updateElement e => exact (refines_updateElement h e).map _
  | replaceElements es => exact (refines_replaceElements p es).map _
  | setIdentifier identifier => exact ⟨rfl, rfl, h⟩
  | setTitle title => exact ⟨rfl, rfl, h⟩
  | draw => exact (refines_draw h).map _
  | reserve key => exact ⟨rfl, rfl, h⟩

/-! ## Runs of operations -/

end Package

/-- The roster `r` after the operations `ops` one after the other. -/
def Roster.run (r : Roster γ) (ops : List Operation) : Roster γ :=
  ops.foldl (fun r op => (r.perform op).2) r

namespace Package

variable {p : Package γ}

/-- The package `p` after the operations `ops` one after the other, failed ones among them. -/
def run (p : Package γ) (ops : List Operation) : Package γ :=
  ops.foldl (fun p op => (p.perform op).2) p

@[simp] theorem run_nil (p : Package γ) : p.run [] = p := rfl

@[simp] theorem run_cons (p : Package γ) (op : Operation) (ops : List Operation) :
    p.run (op :: ops) = (p.perform op).2.run ops := rfl

theorem run_append (p : Package γ) (ops more : List Operation) :
    p.run (ops ++ more) = (p.run ops).run more :=
  List.foldl_append

theorem run_reserve (p : Package γ) (keys : List String) :
    p.run (keys.map .reserve) =
      { p with generator := Generator.reserveAll keys p.generator } := by
  induction keys generalizing p with
  | nil => rfl
  | cons key keys ih =>
      rw [List.map_cons, run_cons, ih]
      rfl

theorem exists_run_mergeElement (mode : Mode) (dest : Package γ) (e : Element) :
    ∃ ops, (mergeElement mode dest e).2 = dest.run ops := by
  unfold mergeElement
  split
  · exact ⟨[.add e], rfl⟩
  · next key _ =>
    cases mode with
    | replace => exact ⟨[.removeById key, .add e], rfl⟩
    | skip => exact ⟨[], rfl⟩
    | merge => exact ⟨[.add { e with id := none }], rfl⟩
    | fail => exact ⟨[], rfl⟩

theorem exists_run_mergeElements (mode : Mode) (dest : Package γ) (es : List Element) :
    ∃ ops, (mergeElements mode dest es).2 = dest.run ops := by
  induction es generalizing dest with
  | nil => exact ⟨[], rfl⟩
  | cons e es ih =>
      obtain ⟨first, hfirst⟩ := exists_run_mergeElement mode dest e
      unfold mergeElements
      split
      · next error after hstep =>
        rw [hstep] at hfirst
        exact ⟨first, hfirst⟩
      · next outcome after hstep =>
        rw [hstep] at hfirst
        obtain ⟨rest, hrest⟩ := ih after
        refine ⟨first ++ rest, ?_⟩
        rw [run_append, ← hfirst]
        exact hrest

theorem exists_run_primed (mode : Mode) (dest : Package γ) (keys : List String) :
    ∃ ops, primed mode dest keys = dest.run ops := by
  unfold primed
  split
  · exact ⟨keys.map .reserve, (run_reserve dest keys).symm⟩
  · exact ⟨[], rfl⟩

/-- Merging `src` into `dest` runs operations on `dest` alone. -/
theorem exists_run_merge {δ : Type} (mode : Mode) (dest : Package γ) (src : Package δ) :
    ∃ ops, (dest.merge mode src).2 = dest.run ops := by
  cases hrefusal : refusal? mode dest src.ids with
  | some key =>
      rw [merge_of_refusal hrefusal]
      exact ⟨[], rfl⟩
  | none =>
      obtain ⟨first, hfirst⟩ := exists_run_primed mode dest src.ids
      obtain ⟨rest, hrest⟩ :=
        exists_run_mergeElements mode (primed mode dest src.ids) src.elements
      refine ⟨first ++ rest, ?_⟩
      rw [merge_of_no_refusal hrefusal, run_append, ← hfirst]
      exact hrest

theorem run_of_addAll {es : List Element} {after : Package γ}
    (hadd : p.addAll es = (.ok (), after)) : after = p.run (es.map .add) := by
  induction es generalizing p with
  | nil => exact (congrArg Prod.snd hadd).symm
  | cons e es ih =>
      unfold addAll at hadd
      split at hadd
      · cases hadd
      · next key next hstep =>
        have hnext : (p.add e).2 = next := congrArg Prod.snd hstep
        rw [List.map_cons, run_cons, ih hadd, ← hnext]
        rfl

/-- The package `p` that is decoded from a `document` is what a run of operations makes of an
empty one. -/
theorem exists_run_decodeValue {generator : γ} {document : Json.Value}
    (hdecode : (Codec.decodeValue generator document).1 = .ok p) :
    ∃ identifier title ops, p = run ⟨identifier, title, .empty, generator⟩ ops := by
  obtain ⟨-, es, -, hadd⟩ := Codec.decodeValue_eq_ok_iff.mp hdecode
  refine ⟨Codec.textField? "id" document, Codec.textField? "title" document,
    (Codec.writtenIds (Codec.rawElements document)).map .reserve ++ es.map .add, ?_⟩
  rw [run_append, run_reserve]
  exact run_of_addAll hadd

theorem coherent_run (h : p.slots.Coherent) (ops : List Operation) :
    (p.run ops).slots.Coherent := by
  induction ops generalizing p with
  | nil => exact h
  | cons op ops ih => exact ih (refines_perform h op).coherent

theorem roster_run (h : p.slots.Coherent) (ops : List Operation) :
    (p.run ops).roster = p.roster.run ops := by
  induction ops generalizing p with
  | nil => rfl
  | cons op ops ih =>
      have hstep := refines_perform h op
      rw [run_cons, ih hstep.coherent, hstep.roster]
      rfl

end Package

end MediaManifest
