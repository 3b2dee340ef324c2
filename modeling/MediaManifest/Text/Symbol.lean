/-!
# Byte texts as symbols

What a file holds is read as a list of symbols: the characters of its UTF-8
text, and every byte that belongs to no well-formed sequence as a stray.
-/

namespace MediaManifest.Text

/-- A character, or a byte that belongs to none. -/
inductive Symbol where
  | char (c : Char)
  | stray (byte : UInt8)
deriving DecidableEq

def Symbol.width : Symbol → Nat
  | .char c => c.utf8Size
  | .stray _ => 1

def symbols (s : String) : List Symbol :=
  s.toList.map Symbol.char

def isTail (b : UInt8) : Bool :=
  0x80 ≤ b && b ≤ 0xBF

def tailBits (b : UInt8) : Nat :=
  b.toNat % 64

/-- The symbols of a list of bytes: at each place the well-formed sequence
that starts there, or one stray byte. -/
def decodeBytes : List UInt8 → List Symbol
  | [] => []
  | a :: rest =>
    if a < 0x80 then .char (Char.ofNat a.toNat) :: decodeBytes rest
    else
      match rest with
      | b :: c :: d :: more =>
        if isPair a b then .char (pair a b) :: decodeBytes (c :: d :: more)
        else if isTriple a b c then .char (triple a b c) :: decodeBytes (d :: more)
        else if isQuadruple a b c d then .char (quadruple a b c d) :: decodeBytes more
        else .stray a :: decodeBytes (b :: c :: d :: more)
      | [b, c] =>
        if isPair a b then .char (pair a b) :: decodeBytes [c]
        else if isTriple a b c then [.char (triple a b c)]
        else .stray a :: decodeBytes [b, c]
      | [b] => if isPair a b then [.char (pair a b)] else .stray a :: decodeBytes [b]
      | [] => [.stray a]
where
  /-- A well-formed sequence of two bytes. -/
  isPair (a b : UInt8) : Bool :=
    0xC2 ≤ a && a ≤ 0xDF && isTail b
  /-- A well-formed sequence of three bytes: no shorter spelling, no surrogate. -/
  isTriple (a b c : UInt8) : Bool :=
    0xE0 ≤ a && a ≤ 0xEF && isTail b && isTail c &&
      !(a == 0xE0 && b < 0xA0) && !(a == 0xED && b > 0x9F)
  /-- A well-formed sequence of four bytes: no shorter spelling, none past the last
  code point. -/
  isQuadruple (a b c d : UInt8) : Bool :=
    0xF0 ≤ a && a ≤ 0xF4 && isTail b && isTail c && isTail d &&
      !(a == 0xF0 && b < 0x90) && !(a == 0xF4 && b > 0x8F)
  /-- The character of a sequence of two bytes. -/
  pair (a b : UInt8) : Char :=
    Char.ofNat (a.toNat % 32 * 64 + tailBits b)
  /-- The character of a sequence of three bytes. -/
  triple (a b c : UInt8) : Char :=
    Char.ofNat ((a.toNat % 16 * 64 + tailBits b) * 64 + tailBits c)
  /-- The character of a sequence of four bytes. -/
  quadruple (a b c d : UInt8) : Char :=
    Char.ofNat (((a.toNat % 8 * 64 + tailBits b) * 64 + tailBits c) * 64 + tailBits d)

/-- What a file holds: text, or bytes that are no UTF-8. -/
inductive Content where
  | text (s : String)
  | bytes (bs : List UInt8)
deriving DecidableEq

/-- The content made of the bytes `bs`; it is text whenever they are UTF-8. -/
def Content.ofBytes (bs : ByteArray) : Content :=
  match String.fromUTF8? bs with
  | some s => .text s
  | none => .bytes bs.toList

def Content.toBytes : Content → List UInt8
  | .text s => s.toUTF8.toList
  | .bytes bs => bs

/-- The content after `bs` was written from the byte at `offset` on: what stood there is
overwritten, and a gap behind the end is filled with zeros. -/
def Content.overwrite (content : Content) (offset : Nat) (bs : List UInt8) : Content :=
  let before := content.toBytes
  .ofBytes ⟨(before.take offset ++ List.replicate (offset - before.length) 0 ++ bs ++
    before.drop (offset + bs.length)).toArray⟩

def Content.symbols : Content → List Symbol
  | .text s => Text.symbols s
  | .bytes bs => decodeBytes bs

end MediaManifest.Text
