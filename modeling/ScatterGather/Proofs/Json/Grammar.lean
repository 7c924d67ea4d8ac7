import ScatterGather.Json.Reading

/-!
The grammar of JSON texts. What is derived stands beside what it is read as, so a text of the
grammar has its reading without a reader: a string has the characters that its pieces spell, a
number the value of its parts, an object its members in the order of the text.
-/
namespace ScatterGather.Json.Grammar

open Token

def Gaps (cs : List Char) : Prop := ∀ c ∈ cs, isGap c = true

/-- One digit or more. -/
def Digits (cs : List Char) : Prop := cs ≠ [] ∧ ∀ c ∈ cs, c.isDigit = true

/-- No zero stands before another digit. -/
def Whole (cs : List Char) : Prop := Digits cs ∧ ∀ c r, cs ≠ '0' :: c :: r

inductive Fraction : List Char → Option (List Char) → Prop
  | none : Fraction [] none
  | digits {ds : List Char} (hd : Digits ds) : Fraction ('.' :: ds) (some ds)

inductive Exponent : List Char → Option (Bool × List Char) → Prop
  | none : Exponent [] none
  | bare {m : Char} {ds : List Char} (hm : m = 'e' ∨ m = 'E') (hd : Digits ds) :
      Exponent (m :: ds) (some (true, ds))
  | plus {m : Char} {ds : List Char} (hm : m = 'e' ∨ m = 'E') (hd : Digits ds) :
      Exponent (m :: '+' :: ds) (some (true, ds))
  | minus {m : Char} {ds : List Char} (hm : m = 'e' ∨ m = 'E') (hd : Digits ds) :
      Exponent (m :: '-' :: ds) (some (false, ds))

def sign (negative : Bool) : List Char := if negative then ['-'] else []

inductive Number : List Char → Numeral → Prop
  | parts {negative : Bool} {ds fs es : List Char} {f : Option (List Char)}
      {e : Option (Bool × List Char)} (hd : Whole ds) (hf : Fraction fs f) (he : Exponent es e) :
      Number (sign negative ++ (ds ++ (fs ++ es))) ⟨negative, ds, f, e⟩

inductive StringPiece : List Char → Piece → Prop
  | plain {c : Char} (hquote : c ≠ '"') (hslash : c ≠ '\\') (hlow : ¬ c.toNat < 0x20) :
      StringPiece [c] (.char c)
  | letter {d c : Char} (hd : escaped? d = some c) : StringPiece ['\\', d] (.char c)
  | unit {x₁ x₂ x₃ x₄ : Char} {n : Nat} (hn : hexUnit? [x₁, x₂, x₃, x₄] = some n) :
      StringPiece ['\\', 'u', x₁, x₂, x₃, x₄] (.code n)

inductive Pieces : List Char → List Piece → Prop
  | nil : Pieces [] []
  | cons {cs r : List Char} {p : Piece} {ps : List Piece} (hp : StringPiece cs p)
      (hr : Pieces r ps) : Pieces (cs ++ r) (p :: ps)

/-- Half of a surrogate pair alone is grammatical; such a string has no value. -/
inductive Quoted : List Char → Except Error String → Prop
  | pieces {cs : List Char} {ps : List Piece} (h : Pieces cs ps) :
      Quoted ('"' :: (cs ++ ['"'])) ((spell .closed ps).map String.ofList)

mutual

inductive Value : List Char → Reading → Prop
  | null : Value ['n', 'u', 'l', 'l'] .null
  | true : Value ['t', 'r', 'u', 'e'] (.bool true)
  | false : Value ['f', 'a', 'l', 's', 'e'] (.bool false)
  | number {cs : List Char} {n : Numeral} (h : Number cs n) : Value cs (.number n.value)
  | string {cs : List Char} {s : Except Error String} (h : Quoted cs s) : Value cs (.string s)
  | emptyArray {gs : List Char} (hg : Gaps gs) : Value ('[' :: (gs ++ [']'])) (.array [] .closed)
  | array {cs : List Char} {items : List Reading} (h : Elements cs items) :
      Value ('[' :: (cs ++ [']'])) (.array items .closed)
  | emptyObject {gs : List Char} (hg : Gaps gs) :
      Value ('\x7b' :: (gs ++ ['\x7d'])) (.object [] .closed)
  | object {cs : List Char} {members : List (Key × Reading)} (h : Members cs members) :
      Value ('\x7b' :: (cs ++ ['\x7d'])) (.object members .closed)

/-- A value with gaps around it. -/
inductive Element : List Char → Reading → Prop
  | value {gs cs gs' : List Char} {r : Reading} (hg : Gaps gs) (h : Value cs r) (hg' : Gaps gs') :
      Element (gs ++ (cs ++ gs')) r

inductive Elements : List Char → List Reading → Prop
  | last {cs : List Char} {r : Reading} (h : Element cs r) : Elements cs [r]
  | more {cs cs' : List Char} {r : Reading} {items : List Reading} (h : Element cs r)
      (hs : Elements cs' items) : Elements (cs ++ ',' :: cs') (r :: items)

inductive Member : List Char → Key × Reading → Prop
  | pair {gs ks gs' cs : List Char} {k : Except Error String} {r : Reading} (hg : Gaps gs)
      (hk : Quoted ks k) (hg' : Gaps gs') (h : Element cs r) :
      Member (gs ++ (ks ++ (gs' ++ ':' :: cs))) (.ofString k, r)

inductive Members : List Char → List (Key × Reading) → Prop
  | last {cs : List Char} {m : Key × Reading} (h : Member cs m) : Members cs [m]
  | more {cs cs' : List Char} {m : Key × Reading} {members : List (Key × Reading)}
      (h : Member cs m) (hs : Members cs' members) :
      Members (cs ++ ',' :: cs') (m :: members)

end

/-- `s` is a JSON text, and reads as `r`. -/
def Text (s : String) (r : Reading) : Prop := Element s.toList r

end ScatterGather.Json.Grammar
