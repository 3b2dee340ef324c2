import MediaManifest.Text.Columns
import MediaManifest.Text.Pictograph

/-!
# Display width

The columns a text takes on a terminal.  They are the columns of its characters
but for the sequences that are shown as one: pictures joined to pictures, flags,
skin tones, pictures chosen by a selector, and the ligatures of some scripts.
A text is measured from its end, for what a character adds depends on what
stands behind it.
-/

namespace MediaManifest.Text

/-- Characters that join the ones before them in a ligature of two or more. -/
inductive Ligating where
  | lamed
  | ya
  /-- A vowel sign and a joined letter `ya`. -/
  | signAndYa
  | consonant
  /-- A joiner and a consonant. -/
  | joinerAndConsonant
  | toneLetter
  | orkhonI
  /-- A consonant that is written below another one. -/
  | subjoined
deriving DecidableEq

/-- What stands behind a place, as far as it matters to the character before. -/
inductive Sequel where
  | plain
  | newLine
  | tone
  | picture
  /-- A picture behind a joiner. -/
  | joinedPicture
  /-- The frame of a key and a picture behind a joiner. -/
  | joinedKey
  /-- So many letters of flags. -/
  | flagLetters (n : Nat)
  /-- So many letters of flags and a picture behind a joiner. -/
  | joinedFlagLetters (n : Nat)
  /-- The tags of a flag, letters last, and a picture behind a joiner. -/
  | tags (letters digits : Nat)
  | vowelE
  | vowelAi
  | alef
  | ligating (part : Ligating) (joined : Bool)
deriving DecidableEq

/-- What stands behind a place, and whether a selector in front of it asks for a picture or
for text. -/
structure Behind where
  sequel : Sequel
  wantsPicture : Bool
  wantsText : Bool
deriving DecidableEq

namespace Behind

/-- Behind a place stands what is given, without a selector. -/
def of (sequel : Sequel) : Behind :=
  ⟨sequel, false, false⟩

def plain : Behind :=
  of .plain

end Behind

namespace Sequel

/-- Whether a sequel may be part of a ligature, so that selectors do not hide it. -/
def isLigating : Sequel → Bool
  | alef => true
  | ligating _ _ => true
  | _ => false

/-- Whether a sequel starts with a joiner and a picture may be joined to it. -/
def isJoined : Sequel → Bool
  | joinedPicture => true
  | joinedKey => true
  | _ => false

end Sequel

/-! ## Characters of ligatures -/

def joiner : Char := '\u200D'

/-- The letters `alef`, which join a letter `lam` before them. -/
def isAlef (c : Char) : Bool :=
  inRanges [(0x622, 0x623), (0x625, 0x625), (0x627, 0x627), (0x671, 0x673), (0x675, 0x675),
    (0x773, 0x774), (0x870, 0x882)] c.toNat

def isLam (c : Char) : Bool :=
  inRanges [(0x644, 0x644), (0x6B5, 0x6B8), (0x76A, 0x76A), (0x8A6, 0x8A6), (0x8C7, 0x8C7)]
    c.toNat

def isTifinaghConsonant (c : Char) : Bool :=
  inRanges [(0x2D31, 0x2D65), (0x2D6F, 0x2D6F)] c.toNat

/-- The Khmer letters that can be written below another one. -/
def isSubjoinable (c : Char) : Bool :=
  inRanges [(0x1780, 0x1782), (0x1784, 0x1787), (0x1789, 0x178C), (0x178E, 0x1793),
    (0x1795, 0x1798), (0x179B, 0x179D), (0x17A0, 0x17A0), (0x17A2, 0x17A2), (0x17A7, 0x17A7),
    (0x17AB, 0x17AC), (0x17AF, 0x17AF)] c.toNat

/-- The characters without a column that nevertheless part a `lam` from an `alef`
(`Joining_Type` other than `T`). -/
def partingRanges : List (Nat × Nat) :=
  [(0x605, 0x605), (0x890, 0x891), (0x8E2, 0x8E2), (0x9BE, 0x9BE), (0x9D7, 0x9D7),
   (0xB3E, 0xB3E), (0xB57, 0xB57), (0xBBE, 0xBBE), (0xBD7, 0xBD7), (0xCC0, 0xCC0),
   (0xCC2, 0xCC2), (0xCC7, 0xCC8), (0xCCA, 0xCCB), (0xCD5, 0xCD6), (0xD3E, 0xD3E),
   (0xD57, 0xD57), (0xDCF, 0xDCF), (0xDDF, 0xDDF), (0x1160, 0x11FF), (0x1715, 0x1715),
   (0x1734, 0x1734), (0x180E, 0x180E), (0x1B35, 0x1B35), (0x1B3B, 0x1B3B), (0x1B3D, 0x1B3D),
   (0x1B43, 0x1B44), (0x1BAA, 0x1BAA), (0x1BF2, 0x1BF3), (0x200C, 0x200D), (0x2065, 0x2069),
   (0x302E, 0x302F), (0x3164, 0x3164), (0xA8FA, 0xA8FA), (0xA953, 0xA953), (0xA9C0, 0xA9C0),
   (0xD7B0, 0xD7C6), (0xD7CB, 0xD7FB), (0xFF9E, 0xFFA0), (0xFFF0, 0xFFF8),
   (0x111C0, 0x111C0), (0x11235, 0x11235), (0x1133E, 0x1133E), (0x1134D, 0x1134D),
   (0x11357, 0x11357), (0x113B8, 0x113B8), (0x113C2, 0x113C2), (0x113C5, 0x113C5),
   (0x113C7, 0x113C9), (0x113CF, 0x113CF), (0x114B0, 0x114B0), (0x114BD, 0x114BD),
   (0x115AF, 0x115AF), (0x116B6, 0x116B6), (0x11930, 0x11930), (0x1193D, 0x1193D),
   (0x11F41, 0x11F41), (0x16FF0, 0x16FF1), (0x1D165, 0x1D166), (0x1D16D, 0x1D172),
   (0xE0000, 0xE0000), (0xE0002, 0xE001F), (0xE0080, 0xE00FF), (0xE01F0, 0xE0FFF)]

/-- Whether a character may stand inside the ligature of `lam` and `alef`. -/
def isTransparent (c : Char) : Bool :=
  columns c == 0 && !inRanges partingRanges c.toNat

/-- Whether a character is a tag that is a letter. -/
def isTagLetter (c : Char) : Bool :=
  0xE0061 ≤ c.toNat && c.toNat ≤ 0xE007A

def isTagDigit (c : Char) : Bool :=
  0xE0030 ≤ c.toNat && c.toNat ≤ 0xE0039

/-- Whether a picture is text if a selector asks for text; the framed ideographs are not. -/
def isTextWhenAsked (c : Char) : Bool :=
  isSelectable c && isPicture c && !(0x1F200 ≤ c.toNat && c.toNat ≤ 0x1F2FF)

/-! ## Measuring -/

def sequelOf (c : Char) : Sequel :=
  if c.toNat ≤ 0xA0 then .plain
  else if isAlef c then .alef
  else if isSubjoinable c then .ligating .subjoined false
  else if isTifinaghConsonant c then .ligating .consonant false
  else if isFlagLetter c then .flagLetters 1
  else if isTone c then .tone
  else if isPicture c then .picture
  else
    match c with
    | '\u05DC' => .ligating .lamed false
    | '\u1A10' => .ligating .ya false
    | '\uA4FC' => .ligating .toneLetter false
    | '\uA4FD' => .ligating .toneLetter false
    | _ =>
      if c.toNat = 0x10C03 then .ligating .orkhonI false
      else if c.toNat = 0x16D67 then .vowelE
      else if c.toNat = 0x16D68 then .vowelAi
      else .plain

def alone (c : Char) : Int × Sequel :=
  (columns c, sequelOf c)

/-- What `c` adds before a `part` of a ligature. -/
def beforeLigating (c : Char) (part : Ligating) (joined : Bool) : Int × Sequel :=
  if c = joiner then (0, .ligating part true)
  else if isMark c && isIgnorable c then (0, .ligating part joined)
  else
    let whole : Option (Int × Sequel) :=
      match part with
      | .lamed => if joined ∧ c = '\u05D0' then some (0, .plain) else none
      | .ya => if joined ∧ c = '\u1A17' then some (0, .ligating .signAndYa true) else none
      | .signAndYa => if c = '\u1A15' then some (0, .plain) else none
      | .consonant =>
        if c = consonantJoiner then some (1, .ligating .joinerAndConsonant true)
        else if joined ∧ isTifinaghConsonant c then some (0, .plain)
        else none
      | .joinerAndConsonant => if isTifinaghConsonant c then some (-1, .plain) else none
      | .toneLetter => if '\uA4F8' ≤ c ∧ c ≤ '\uA4FB' then some (0, .plain) else none
      | .orkhonI => if joined ∧ c.toNat = 0x10C32 then some (0, .plain) else none
      | .subjoined => if c = '\u17D2' then some (-1, .plain) else none
    whole.getD (alone c)

/-- What `c` adds before a joiner and a picture. -/
def beforeJoined (c : Char) : Int × Sequel :=
  if c = '\u20E3' then (0, .joinedKey)
  else if isFlagLetter c then (1, .joinedFlagLetters 1)
  else if isTone c then (0, .tone)
  else if c.toNat = 0xE007F then (0, .tags 0 0)
  else if isPicture c then (0, .picture)
  else alone c

/-- What `c` adds before the tags of a flag: up to six letters, or three digits and up to four
letters. -/
def beforeTags (c : Char) (letters digits : Nat) : Int × Sequel :=
  if isTagLetter c ∧ digits = 0 ∧ letters < 6 then (0, .tags (letters + 1) 0)
  else if isTagDigit c ∧ digits < 3 ∧ letters ≤ 4 then (0, .tags letters (digits + 1))
  else if c.toNat = 0x1F3F4 ∧ ((digits = 0 ∧ 3 ≤ letters) ∨ digits = 3) then (0, .picture)
  else alone c

/-- What a character adds before the vowel `e` of Kirat Rai, with which it may make up one
vowel. -/
def beforeVowelE (c : Char) : Int × Sequel :=
  if c.toNat = 0x16D63 ∨ c.toNat = 0x16D69 then (0, .plain)
  else if c.toNat = 0x16D67 then (0, .vowelAi)
  else if c.toNat = 0x16D68 then (1, .vowelE)
  else alone c

/-- What `c` adds before a sequel without a selector, and what the two are to the character
before. -/
def before (c : Char) : Sequel → Int × Sequel
  | .plain => alone c
  | .newLine => alone c
  | .tone =>
    if isTonable c then (0, .picture)
    else if c = joiner then (0, .joinedPicture)
    else alone c
  | .picture => if c = joiner then (0, .joinedPicture) else alone c
  | .joinedPicture => beforeJoined c
  | .joinedKey => alone c
  | .flagLetters n =>
    if isFlagLetter c then (1, .flagLetters (n + 1))
    else if c = joiner ∧ 2 ≤ n then (0, .joinedPicture)
    else alone c
  | .joinedFlagLetters n =>
    if isFlagLetter c then (if n % 2 = 1 then -1 else 3, .joinedFlagLetters (n + 1))
    else if c = joiner ∧ 2 ≤ n then (0, .joinedPicture)
    else alone c
  | .tags letters digits => beforeTags c letters digits
  | .vowelE => beforeVowelE c
  | .vowelAi => if c.toNat = 0x16D63 then (0, .plain) else alone c
  | .alef =>
    if isLam c then (0, .plain)
    else if isTransparent c then (0, .alef)
    else alone c
  | .ligating part joined => beforeLigating c part joined

namespace Behind

/-- What stands behind a selector that asks for a picture. -/
def askPicture (b : Behind) : Behind :=
  if b.sequel.isLigating || b.sequel.isJoined then { b with wantsPicture := true }
  else ⟨.plain, true, false⟩

/-- What stands behind a selector that asks for text. -/
def askText (b : Behind) : Behind :=
  if b.sequel.isLigating then { b with wantsText := true } else ⟨.plain, false, true⟩

/-- What stands behind a place when no picture can be chosen there. -/
def refusePicture (b : Behind) : Behind :=
  if !b.wantsPicture then b
  else if b.sequel.isLigating then { b with wantsPicture := false }
  else plain

end Behind

/-- What `c` adds to the columns of the text behind it, and what stands behind the character
before. -/
def step (c : Char) (b : Behind) : Int × Behind :=
  if b.wantsPicture && isSelectable c then
    (if b.sequel.isJoined then 0 else 2, .of .picture)
  else
    let b := b.refusePicture
    if c = '\n' then (1, .of .newLine)
    else if c = '\r' ∧ b.sequel = .newLine then (0, .plain)
    else if c.toNat ≤ 0xA0 then (1, .plain)
    else if c = '\uFE0F' then (0, b.askPicture)
    else if c = '\uFE0E' then (0, b.askText)
    else if b.wantsText && isTextWhenAsked c then (1, .plain)
    else
      let (n, sequel) := before c b.sequel
      (n, .of sequel)

def width (s : String) : Nat :=
  let (n, _) := s.toList.foldr
    (fun c (n, b) =>
      let (k, b) := step c b
      (n + k, b))
    ((0 : Int), Behind.plain)
  n.toNat

end MediaManifest.Text
