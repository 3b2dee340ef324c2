import Mathlib.Logic.Relation
import MediaManifest.Proofs.Package.Operation

/-!
# Lineages of generators

A state of a generator leads to another (`Leads`) if drawing and reserving, in
any order and number, make the second out of the first.  Every operation on a
package, every merge and every decoding takes the generator to a state that it
leads to, also where it fails.  So whatever a generator remembers survives them
all.
-/

namespace MediaManifest

namespace Generator

variable {γ : Type} [Generator γ] {g h : γ} {key : String}

/-- One draw or one reservation. -/
inductive Step (g : γ) : γ → Prop
  | next : Step g (next g).2
  | reserve (key : String) : Step g (reserve key g)

/-- Draws and reservations make the second state out of the first; any number of a `Step`. -/
def Leads : γ → γ → Prop :=
  Relation.ReflTransGen Step

theorem Leads.refl (g : γ) : Leads g g :=
  Relation.ReflTransGen.refl

theorem Leads.trans {k : γ} (hfirst : Leads g h) (hrest : Leads h k) : Leads g k :=
  Relation.ReflTransGen.trans hfirst hrest

theorem leads_next (g : γ) : Leads g (next g).2 :=
  Relation.ReflTransGen.single .next

theorem leads_reserve (key : String) (g : γ) : Leads g (reserve key g) :=
  Relation.ReflTransGen.single (.reserve key)

theorem leads_reserveAll (keys : List String) (g : γ) : Leads g (reserveAll keys g) := by
  induction keys generalizing g with
  | nil => exact .refl g
  | cons key keys ih => exact (leads_reserve key g).trans (ih _)

/-- A property `good` that every draw and every reservation keeps holds of all states that `g`
leads to. -/
theorem Leads.keeps (good : γ → Prop) (hnext : ∀ g, good g → good (Generator.next g).2)
    (hreserve : ∀ key g, good g → good (Generator.reserve key g)) (hleads : Leads g h)
    (hg : good g) : good h := by
  induction hleads with
  | refl => exact hg
  | tail _ hstep ih =>
      cases hstep with
      | next => exact hnext _ ih
      | reserve key => exact hreserve key _ ih

/-- What is remembered in the state `g` is remembered in all states that it leads to. -/
theorem Remembers.leads {knows : γ → String → Prop} (hknows : Remembers knows)
    (hleads : Leads g h) (hkey : knows g key) : knows h key :=
  hleads.keeps (fun g => knows g key) (fun _ hknown => hknows.next hknown)
    (fun other _ hknown => hknows.reserve other hknown) hkey

end Generator

open Generator (Leads reserveAll)

variable {γ : Type} [Generator γ]

namespace Package

theorem leads_insert (p : Package γ) (key : String) (e : Element) :
    Leads p.generator (p.insert key e).2.generator := by
  unfold insert
  split
  · exact .refl _
  · exact Generator.leads_reserve key p.generator

theorem leads_add (p : Package γ) (e : Element) :
    Leads p.generator (p.add e).2.generator := by
  unfold add
  split
  · exact leads_insert p _ e
  · exact (Generator.leads_next p.generator).trans (leads_insert p.draw.2 _ _)

theorem leads_addAll (p : Package γ) (es : List Element) :
    Leads p.generator (p.addAll es).2.generator := by
  induction es generalizing p with
  | nil => exact .refl _
  | cons e es ih =>
      have hadd := leads_add p e
      unfold addAll
      split
      · next hstep =>
        rw [hstep] at hadd
        exact hadd
      · next hstep =>
        rw [hstep] at hadd
        exact hadd.trans (ih _)

omit [Generator γ] in
@[simp] theorem generator_remove (p : Package γ) (e : Element) :
    (p.remove e).2.generator = p.generator := by
  unfold remove
  split <;> rfl

omit [Generator γ] in
@[simp] theorem generator_removeElements (p : Package γ) (keys : List String) :
    (p.removeElements keys).2.generator = p.generator := by
  induction keys generalizing p with
  | nil => rfl
  | cons key keys ih => exact ih (p.removeById key).2

theorem leads_settle (p : Package γ) (pos : Nat) (old new : String) (e : Element) :
    Leads p.generator (p.settle pos old new e).2.generator := by
  unfold settle
  split
  · exact .refl _
  · exact Generator.leads_reserve new p.generator

theorem leads_editElement (p : Package γ) (key : String) (edit : Element → Element) :
    Leads p.generator (p.editElement key edit).2.generator := by
  unfold editElement
  split
  · exact .refl _
  · dsimp only
    split
    · split
      · exact .refl _
      · exact leads_settle p _ key _ _
    · exact (Generator.leads_next p.generator).trans (leads_settle p.draw.2 _ key _ _)

theorem leads_perform (p : Package γ) (op : Operation) :
    Leads p.generator (p.perform op).2.generator := by
  cases op with
  | add e => exact leads_add p e
  | remove e => exact generator_remove p e ▸ .refl _
  | removeById key => exact .refl _
  | removeElements keys => exact generator_removeElements p keys ▸ .refl _
  | clear => exact .refl _
  | editElement key edit => exact leads_editElement p key edit
  | updateElement e => exact generator_remove p e ▸ leads_add (p.remove e).2 e
  | replaceElements es => exact leads_addAll p.clear.2 es
  | setIdentifier identifier => exact .refl _
  | setTitle title => exact .refl _
  | draw => exact Generator.leads_next p.generator
  | reserve key => exact Generator.leads_reserve key p.generator

theorem leads_run (p : Package γ) (ops : List Operation) :
    Leads p.generator (p.run ops).generator := by
  induction ops generalizing p with
  | nil => exact .refl _
  | cons op ops ih => exact (leads_perform p op).trans (ih _)

end Package

namespace Codec

open Json (Value)

theorem leads_addRaws (p : Package γ) (raws : List Value) :
    Leads p.generator (addRaws p raws).2.generator := by
  induction raws generalizing p with
  | nil => exact .refl _
  | cons raw raws ih =>
      unfold addRaws
      split
      · exact .refl _
      · next e _ =>
        have hadd := Package.leads_add p e
        split
        · next hstep =>
          rw [hstep] at hadd
          exact hadd
        · next hstep =>
          rw [hstep] at hadd
          exact hadd.trans (ih _)

theorem leads_decodeValue (g : γ) (document : Value) :
    Leads g (decodeValue g document).2 := by
  unfold decodeValue
  split
  · exact .refl _
  · have hraws := leads_addRaws (opening g document) (rawElements document)
    have hfirst := Generator.leads_reserveAll (writtenIds (rawElements document)) g
    rw [opening] at hraws
    dsimp only [Package.ofGenerator]
    split
    · next hstep =>
      rw [hstep] at hraws
      exact hfirst.trans hraws
    · next hstep =>
      rw [hstep] at hraws
      exact hfirst.trans hraws

/-- The generator `h` that a decoding hands back is the one of the decoded package `p`. -/
theorem snd_decode_of_ok {g h : γ} {content : Text.Content} {p : Package γ}
    (hdecode : decode g content = (.ok p, h)) : h = p.generator := by
  unfold decode at hdecode
  split at hdecode
  · cases hdecode
  · unfold decodeValue at hdecode
    split at hdecode
    · cases hdecode
    · dsimp only at hdecode
      split at hdecode
      · cases hdecode
      · cases hdecode
        rfl

theorem leads_decode (g : γ) (content : Text.Content) : Leads g (decode g content).2 := by
  unfold decode
  split
  · exact .refl _
  · exact leads_decodeValue g _

end Codec

end MediaManifest
