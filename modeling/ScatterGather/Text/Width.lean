import ScatterGather.Text.Ranges
/-!
How many columns of a screen a text fills.

Characters that are drawn as one, such as a letter with its marks, the two letters of a flag or the
parts of an emoji, fill no more columns than what is drawn. A text is measured from its end: of what
stands behind a character, `Behind` keeps all that decides whether they are drawn as one.
-/
namespace ScatterGather.Text

/-- How many columns a character fills that stands alone. -/
def charWidth (c : Char) : Nat :=
  if c.toNat ≤ 0xa0 then 1
  else if c.toNat = 0x17d8 then 3
  else if inRanges wide c then 2
  else if inRanges zeroWidth c then 0
  else 1

def zeroWidthJoiner : Char := '\u200d'

def isAlef : Char → Bool :=
  inRanges [(0x622, 0x623), (0x625, 0x625), (0x627, 0x627), (0x671, 0x673), (0x675, 0x675),
    (0x773, 0x774), (0x870, 0x882)]

def isLam : Char → Bool :=
  inRanges [(0x644, 0x644), (0x6b5, 0x6b8), (0x76a, 0x76a), (0x8a6, 0x8a6), (0x8c7, 0x8c7)]

/-- Khmer letters that may stand below another. -/
def isSubscript : Char → Bool :=
  inRanges [(0x1780, 0x1782), (0x1784, 0x1787), (0x1789, 0x178c), (0x178e, 0x1793),
    (0x1795, 0x1798), (0x179b, 0x179d), (0x17a0, 0x17a0), (0x17a2, 0x17a2), (0x17a7, 0x17a7),
    (0x17ab, 0x17ac), (0x17af, 0x17af)]

def isTifinagh : Char → Bool := inRanges [(0x2d31, 0x2d65), (0x2d6f, 0x2d6f)]

/-- Lisu tones that may stand before another. -/
def isLeadingTone : Char → Bool := inRanges [(0xa4f8, 0xa4fb)]

def isFinalTone : Char → Bool := inRanges [(0xa4fc, 0xa4fd)]

/-- The letters that flags are spelled with. -/
def isFlagLetter : Char → Bool := inRanges [(0x1f1e6, 0x1f1ff)]

def isSkinTone : Char → Bool := inRanges [(0x1f3fb, 0x1f3ff)]

def isTagLetter : Char → Bool := inRanges [(0xe0061, 0xe007a)]

def isTagDigit : Char → Bool := inRanges [(0xe0030, 0xe0039)]

/-- Quotation marks that may be drawn in two columns. -/
def isQuotationMark : Char → Bool := inRanges [(0x2018, 0x2019), (0x201c, 0x201d)]

/-- Emoji that fill one column when they are drawn as text. -/
def isTextBase (c : Char) : Bool :=
  inRanges emojiBases c && inRanges emojiPresentation c && !inRanges [(0x1f200, 0x1f2ff)] c

/-- What the text behind a character begins with. A letter is `joined` if a joiner stands before
it. -/
inductive Behind
  | nothing
  | lineFeed
  | alef
  | lamed (joined : Bool)
  | ya (joined : Bool)
  | vowelAndYa
  | tifinagh (joined : Bool)
  | tifinaghJoiner
  | finalTone
  | orkhon (joined : Bool)
  | subscript
  | vowelE
  | vowelAi
  | skinTone
  | flagLetter
  | flagLetters
  | emoji
  /-- An emoji behind a joiner. -/
  | joinedEmoji
  | joinedKeycap
  /-- Flag letters that stand before a joiner, as an emoji does. -/
  | joinedFlagLetter
  | joinedFlags
  | joinedFlagsAndLetter
  /-- The end of the tags of a flag, behind so many letters or digits of them. -/
  | tagLetters (count : Nat)
  | tagDigits (count : Nat)
  deriving DecidableEq

namespace Behind

def of (c : Char) : Behind :=
  if c = '\n' then lineFeed
  else if c.toNat ≤ 0xa0 then nothing
  else if isAlef c then alef
  else if c.toNat = 0x5dc then lamed false
  else if isSubscript c then subscript
  else if c.toNat = 0x1a10 then ya false
  else if isTifinagh c then tifinagh false
  else if isFinalTone c then finalTone
  else if c.toNat = 0x10c03 then orkhon false
  else if c.toNat = 0x16d67 then vowelE
  else if c.toNat = 0x16d68 then vowelAi
  else if isFlagLetter c then flagLetter
  else if isSkinTone c then skinTone
  else if inRanges emojiPresentation c then emoji
  else nothing

/-- Whether marks that show nothing, and joiners, may stand before it without a change. -/
def isOpen : Behind → Bool
  | lamed _ | ya _ | vowelAndYa | tifinagh _ | tifinaghJoiner | finalTone | orkhon _ | subscript =>
    true
  | _ => false

/-- Whether it is a letter, which keeps what is asked of characters before it apart. -/
def isLetter (b : Behind) : Bool := b.isOpen || b = alef

/-- Whether it is an emoji, or a keycap, behind a joiner. -/
def isJoinedEmoji : Behind → Bool
  | joinedEmoji | joinedKeycap => true
  | _ => false

/-- What is behind once a joiner stands before it. -/
def join : Behind → Behind
  | lamed _ => lamed true
  | ya _ => ya true
  | tifinagh _ => tifinagh true
  | orkhon _ => orkhon true
  | b => b

/-- How a character is drawn as one with what stands behind it: the columns that it adds, and what
then stands behind the character before it. -/
def fuse (c : Char) : Behind → Option (Int × Behind)
  | lineFeed => if c = '\r' then some (0, nothing) else none
  | alef =>
    if isLam c then some (0, nothing)
    else if inRanges zeroWidth c && !inRanges joiningBreaks c then some (0, alef)
    else none
  | lamed true => if c.toNat = 0x5d0 then some (0, nothing) else none
  | ya true => if c.toNat = 0x1a17 then some (0, vowelAndYa) else none
  | vowelAndYa => if c.toNat = 0x1a15 then some (0, nothing) else none
  | tifinagh joined =>
    if c.toNat = 0x2d7f then some (1, tifinaghJoiner)
    else if joined && isTifinagh c then some (0, nothing)
    else none
  | tifinaghJoiner => if isTifinagh c then some (-1, nothing) else none
  | finalTone => if isLeadingTone c then some (0, nothing) else none
  | orkhon true => if c.toNat = 0x10c32 then some (0, nothing) else none
  | subscript => if c.toNat = 0x17d2 then some (-1, nothing) else none
  | vowelE =>
    if c.toNat = 0x16d63 ∨ c.toNat = 0x16d69 then some (0, nothing)
    else if c.toNat = 0x16d67 then some (0, vowelAi)
    else if c.toNat = 0x16d68 then some (1, vowelE)
    else none
  | vowelAi => if c.toNat = 0x16d63 then some (0, nothing) else none
  | skinTone =>
    if inRanges modifierBases c then some (0, emoji)
    else if c = zeroWidthJoiner then some (0, joinedEmoji)
    else none
  | flagLetter => if isFlagLetter c then some (1, flagLetters) else none
  | flagLetters =>
    if isFlagLetter c then some (1, flagLetters)
    else if c = zeroWidthJoiner then some (0, joinedEmoji)
    else none
  | emoji => if c = zeroWidthJoiner then some (0, joinedEmoji) else none
  | joinedEmoji =>
    if c.toNat = 0x20e3 then some (0, joinedKeycap)
    else if isFlagLetter c then some (1, joinedFlagLetter)
    else if isSkinTone c then some (0, skinTone)
    else if c.toNat = 0xe007f then some (0, tagLetters 0)
    else if of c = emoji then some (0, emoji)
    else none
  | joinedFlagLetter => if isFlagLetter c then some (-1, joinedFlags) else none
  | joinedFlags =>
    if isFlagLetter c then some (3, joinedFlagsAndLetter)
    else if c = zeroWidthJoiner then some (0, joinedEmoji)
    else none
  | joinedFlagsAndLetter =>
    if isFlagLetter c then some (-1, joinedFlags)
    else if c = zeroWidthJoiner then some (0, joinedEmoji)
    else none
  | tagLetters n =>
    if isTagLetter c ∧ n < 6 then some (0, tagLetters (n + 1))
    else if isTagDigit c ∧ n < 5 then some (0, tagDigits 1)
    else if c.toNat = 0x1f3f4 ∧ 3 ≤ n then some (0, emoji)
    else none
  | tagDigits n =>
    if isTagDigit c ∧ n < 3 then some (0, tagDigits (n + 1))
    else if c.toNat = 0x1f3f4 ∧ n = 3 then some (0, emoji)
    else none
  | _ => none

end Behind

/-- The columns of a text, what it begins with, and what its first characters ask of the character
before them: to be drawn as emoji, as text, or in two columns. -/
structure Measure where
  columns : Int
  behind : Behind
  asksEmoji : Bool
  asksText : Bool
  asksWide : Bool

namespace Measure

def empty : Measure := ⟨0, .nothing, false, false, false⟩

/-- A character that asks nothing is put before the text. -/
def add (m : Measure) (columns : Int) (behind : Behind) : Measure :=
  ⟨m.columns + columns, behind, false, false, false⟩

/-- What is asked keeps a letter that is behind it, and what else was asked there. -/
def selected (m : Measure) : Measure :=
  if m.behind.isLetter then m else m.add 0 .nothing

/-- A character that cannot be drawn as emoji leaves that request, and what it stood before. -/
def declineEmoji (m : Measure) : Measure :=
  if m.asksEmoji then { m.selected with asksEmoji := false } else m

/-- One request of the two others is left with each character. -/
def declineOthers (m : Measure) : Measure :=
  if m.asksText then { m with asksText := false } else { m with asksWide := false }

def asksNothing (m : Measure) : Bool := !(m.asksEmoji || m.asksText || m.asksWide)

/-- A character that fuses with what is behind it, or stands for itself. -/
def plain (c : Char) (m : Measure) : Measure :=
  if m.behind.isOpen ∧ c = zeroWidthJoiner then { m with behind := m.behind.join }
  else if m.behind.isOpen ∧ inRanges ignorableMarks c then m
  else
    match (if m.asksNothing then m.behind.fuse c else none) with
    | some (columns, behind) => m.add columns behind
    | none => m.add (charWidth c) (.of c)

/-- Text as asked comes before two columns as asked. -/
def asked (c : Char) (m : Measure) : Measure :=
  if m.asksText ∧ isTextBase c then m.add 1 .nothing
  else if !m.asksText ∧ m.asksWide ∧ isQuotationMark c then m.add 2 .nothing
  else m.declineOthers.plain c

/-- The text with a character before it. -/
def before (c : Char) (m : Measure) : Measure :=
  if m.asksEmoji ∧ inRanges emojiBases c then
    m.add (if m.behind.isJoinedEmoji then 0 else 2) .emoji
  else
    let m := m.declineEmoji
    if c = '\ufe0f' then
      { (if m.behind.isJoinedEmoji then m else m.selected) with asksEmoji := true }
    else if c = '\ufe0e' then { m.selected with asksText := true }
    else if c = '\ufe01' then { m.selected with asksWide := true }
    else m.asked c

def of (s : String) : Measure := s.toList.foldr before empty

end Measure

def width (s : String) : Nat := (Measure.of s).columns.toNat

end ScatterGather.Text
