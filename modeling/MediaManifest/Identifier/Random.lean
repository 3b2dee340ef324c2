import MediaManifest.Identifier.Generator
import MediaManifest.Text.Numeral

/-!
# Random identifiers

A random generator hands out the texts of a sequence in turn.  Nothing is known
of them but that none is empty: a text may come up twice, and it may be one
that is in use.  The generator takes no notice of identifiers in use.

Version 4 UUIDs are such texts; each writes 122 bits.
-/

namespace MediaManifest

/-- A generator of random identifiers: the texts it draws from, none of which is empty, and
how many of them were drawn. -/
structure Random where
  texts : Nat → String
  ne_empty : ∀ n, texts n ≠ ""
  drawn : Nat

namespace Random

/-- The last `k` hexadecimal digits of `n`. -/
def hexDigits (k n : Nat) : List Char :=
  (List.range k).reverse.map fun i => Text.hexDigit (n / Nat.pow 16 i % 16)

/-- The version 4 UUID with the free bits `n`: 48 bits, the version, 12 bits, the
variant with 2 bits, and 60 bits. -/
def uuid (n : Nat) : String :=
  let head := hexDigits 12 (n / 2 ^ 74)
  let middle := hexDigits 3 (n / 2 ^ 62)
  let variant := Text.hexDigit (8 + n / 2 ^ 60 % 4)
  let tail := hexDigits 15 n
  String.ofList (head.take 8 ++ '-' :: head.drop 8 ++ '-' :: '4' :: middle ++
    '-' :: variant :: tail.take 3 ++ '-' :: tail.drop 3)

theorem uuid_ne_empty (n : Nat) : uuid n ≠ "" := by
  intro hempty
  have hlist := congrArg String.toList hempty
  rw [uuid, String.toList_ofList] at hlist
  simp at hlist

/-- The generator whose `n`-th text is the version 4 UUID with the free bits `bits n`. -/
def ofBits (bits : Nat → Nat) : Random :=
  ⟨fun n => uuid (bits n), fun n => uuid_ne_empty (bits n), 0⟩

def next (g : Random) : String × Random :=
  (g.texts g.drawn, { g with drawn := g.drawn + 1 })

instance : Generator Random where
  next := next
  reserve _ g := g

end Random

end MediaManifest
