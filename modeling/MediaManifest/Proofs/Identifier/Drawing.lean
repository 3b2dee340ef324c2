import MediaManifest.Identifier.Source
import MediaManifest.Proofs.Identifier.Numbering

/-!
# What generators remember and draw

A relation between generators and identifiers is remembered (`Remembers`) if
reserving an identifier establishes it and no further step of the generator
destroys it.  It is settled (`Settles`) if it also holds of what was drawn last,
and if reserving an identifier that has it changes nothing.  A sequential
generator settles the identifiers that it covers.
-/

namespace MediaManifest

/-- Reserving an identifier establishes `knows`, and no step destroys it. -/
structure Generator.Remembers {γ : Type} [Generator γ] (knows : γ → String → Prop) : Prop where
  next : ∀ {g key}, knows g key → knows (Generator.next g).2 key
  reserve : ∀ {g key} (other), knows g key → knows (Generator.reserve other g) key
  reserved : ∀ g key, knows (Generator.reserve key g) key

/-- A drawn identifier is known as well, and reserving what is known changes nothing. -/
structure Generator.Settles {γ : Type} [Generator γ] (knows : γ → String → Prop) : Prop
    extends Generator.Remembers knows where
  drawn : ∀ g, knows (Generator.next g).2 (Generator.next g).1
  reserve_eq : ∀ {g key}, knows g key → Generator.reserve key g = g

namespace Generator

variable {γ : Type} [Generator γ] {knows : γ → String → Prop} {g : γ} {key : String}

theorem Remembers.reserveAll (h : Remembers knows) (keys : List String) (hkey : knows g key) :
    knows (Generator.reserveAll keys g) key := by
  induction keys generalizing g with
  | nil => exact hkey
  | cons other keys ih => exact ih (h.reserve other hkey)

theorem Remembers.reservedAll (h : Remembers knows) {keys : List String} (hmem : key ∈ keys) :
    knows (Generator.reserveAll keys g) key := by
  induction keys generalizing g with
  | nil => cases hmem
  | cons other keys ih =>
      rw [reserveAll_cons]
      rcases List.mem_cons.mp hmem with rfl | hmem
      · exact h.reserveAll keys (h.reserved g key)
      · exact ih hmem

/-- The identifiers that are drawn from `g` one after the other. -/
def draws (g : γ) : Nat → List String
  | 0 => []
  | n + 1 => (next g).1 :: draws (next g).2 n

end Generator

open Generator (draws reserveAll)

/-! ## Numbered identifiers -/

namespace Sequential

theorem settles_covers : Generator.Settles Covers where
  next := by
    intro g key hcovers n hnumber
    have hle := hcovers n hnumber
    rw [issued_next]
    omega
  reserve := by
    intro g key other hcovers n hnumber
    rw [stem_reserve] at hnumber
    have hle := hcovers n hnumber
    rw [issued_reserve]
    omega
  reserved := by
    intro g key n hnumber
    rw [stem_reserve] at hnumber
    rw [issued_reserve, hnumber, Option.getD_some]
    omega
  drawn := covers_next
  reserve_eq := reserve_of_covers

theorem remembers_covers : Generator.Remembers Covers :=
  settles_covers.toRemembers

/-- The numbers of the `n` drawn identifiers follow the last one issued. -/
theorem draws_eq (g : Sequential) (n : Nat) :
    draws g n = (List.range n).map fun i => identifier g.stem (g.issued + i + 1) := by
  induction n generalizing g with
  | zero => rfl
  | succ n ih =>
      rw [draws, ih, List.range_succ_eq_map, List.map_cons, List.map_map, fst_next, stem_next,
        issued_next]
      refine List.cons_eq_cons.mpr ⟨by rw [Nat.add_zero], List.map_congr_left ?_⟩
      intro i _
      rw [Function.comp_apply, Nat.succ_eq_add_one, Nat.add_right_comm g.issued 1 i,
        Nat.add_assoc g.issued i 1]

end Sequential

/-! ## Identifiers from sources -/

namespace Random

@[simp] theorem fst_next (g : Random) :
    (Generator.next g).1 = g.texts g.drawn := rfl

@[simp] theorem snd_next (g : Random) :
    (Generator.next g).2 = { g with drawn := g.drawn + 1 } := rfl

/-- The `n` drawn identifiers are the texts behind those drawn before. -/
theorem draws_eq (g : Random) (n : Nat) :
    draws g n = (List.range n).map fun i => g.texts (g.drawn + i) := by
  induction n generalizing g with
  | zero => rfl
  | succ n ih =>
      rw [draws, ih, List.range_succ_eq_map, List.map_cons, List.map_map, fst_next, snd_next]
      refine List.cons_eq_cons.mpr ⟨by rw [Nat.add_zero], List.map_congr_left ?_⟩
      intro i _
      rw [Function.comp_apply, Nat.succ_eq_add_one, Nat.add_right_comm, Nat.add_assoc]

end Random

namespace Source

/-- A sequential source covers what its generator covers; the other sources ignore what is
reserved. -/
def Covers : Source → String → Prop
  | sequential g, key => g.Covers key
  | listed _, _ => True
  | random _, _ => True

theorem settles_covers : Generator.Settles Covers where
  next := by
    intro g key hcovers
    cases g with
    | sequential g => exact Sequential.settles_covers.next hcovers
    | listed g => trivial
    | random g => trivial
  reserve := by
    intro g key other hcovers
    cases g with
    | sequential g => exact Sequential.settles_covers.reserve other hcovers
    | listed g => trivial
    | random g => trivial
  reserved := by
    intro g key
    cases g with
    | sequential g => exact Sequential.settles_covers.reserved g key
    | listed g => trivial
    | random g => trivial
  drawn := by
    intro g
    cases g with
    | sequential g => exact Sequential.settles_covers.drawn g
    | listed g => trivial
    | random g => trivial
  reserve_eq := by
    intro g key hcovers
    cases g with
    | sequential g => exact congrArg sequential (Sequential.settles_covers.reserve_eq hcovers)
    | listed g => rfl
    | random g => rfl

theorem reserveAll_sequential (keys : List String) (g : Sequential) :
    reserveAll keys (sequential g) = sequential (reserveAll keys g) := by
  induction keys generalizing g with
  | nil => rfl
  | cons key keys ih => exact ih (g.reserve key)

theorem reserveAll_random (keys : List String) (g : Random) :
    reserveAll keys (random g) = random g := by
  induction keys with
  | nil => rfl
  | cons key keys ih => exact ih

theorem draws_sequential (g : Sequential) (n : Nat) : draws (sequential g) n = draws g n := by
  induction n generalizing g with
  | zero => rfl
  | succ n ih => exact congrArg (List.cons g.next.1) (ih g.next.2)

theorem draws_random (g : Random) (n : Nat) : draws (random g) n = draws g n := by
  induction n generalizing g with
  | zero => rfl
  | succ n ih => exact congrArg (List.cons g.next.1) (ih g.next.2)

end Source

end MediaManifest
