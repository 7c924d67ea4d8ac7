import ScatterGather.Json.Error
/-!
Tokens of a JSON text. A string or number may be well formed and still have no value; a flawed
token ends the list, because nothing behind it is ever looked at.

A flaw has a name for each use of the place: when the value is wanted, when it is only skipped, and
when the name of a variant is wanted, which is given up at once unless a string starts there.
-/
namespace ScatterGather.Json

structure Flaw where
  wanted : Error
  skipped : Error
  variant : Error
  deriving DecidableEq

def Flaw.always (e : Error) : Flaw := ⟨e, e, e⟩

/-- A flaw of something that is no string. -/
def Flaw.ofPlain (wanted skipped : Error) : Flaw := ⟨wanted, skipped, .grammar .value⟩

inductive Token
  | openArray
  | closeArray
  | openObject
  | closeObject
  | comma
  | colon
  | null
  | bool (b : Bool)
  | number (n : Except Error Number)
  | string (s : Except Error String)
  /-- Starts like a string, and breaks off. -/
  | brokenString (f : Flaw)
  | flawed (f : Flaw)

namespace Token

def isGap (c : Char) : Bool := c = ' ' || c = '\n' || c = '\t' || c = '\r'

def digitsOf (cs : List Char) : List Nat := cs.map fun c => c.toNat - '0'.toNat

/-- Takes digits into the significand while it fits in 64 bits; counts the rest. -/
def fill (significand : Nat) : List Nat → Nat × Nat × Nat
  | [] => (significand, 0, 0)
  | d :: r =>
    if significand * 10 + d < UInt64.size then
      let (s, taken, left) := fill (significand * 10 + d) r
      (s, taken + 1, left)
    else (significand, 0, r.length + 1)

/-- Scales in steps that a double can hold, the way the text's exponent says. `none` is an
overflow. -/
def scale : Nat → Float → Int → Option Float
  | 0, f, _ => some f
  | fuel + 1, f, e =>
    if e.natAbs ≤ 308 then
      let p := Float.ofScientific 1 false e.natAbs
      if 0 ≤ e then
        let g := f * p
        if g.isInf then none else some g
      else some (f / p)
    else if f == 0.0 then some f
    else if 0 ≤ e then none
    else scale fuel (f / 1e308) (e + 308)

def decimal? (negative : Bool) (significand : Nat) (e : Int) : Option Number :=
  (scale 8 (Float.ofNat significand) e).map fun f =>
    .decimal ((if negative then -f else f).toBits.toNat)

/-- The parts of a number: its sign, whole digits, fraction digits and exponent. -/
structure Numeral where
  negative : Bool
  whole : List Char
  fraction : Option (List Char)
  exponent : Option (Bool × List Char)

/-- Beyond this the exponent is not read any more. -/
def exponentLimit : Nat := 0x80000000

def Numeral.value (n : Numeral) : Except Error Number :=
  let (whole, _, beyond) := fill 0 (digitsOf n.whole)
  if beyond = 0 ∧ n.fraction.isNone ∧ n.exponent.isNone then
    if n.negative then
      if whole = 0 ∨ 0x8000000000000000 < whole then
        .ok (.decimal ((-(Float.ofNat whole)).toBits.toNat))
      else .ok (.negative whole)
    else .ok (.natural whole)
  else
    let (significand, taken, _) := fill whole (digitsOf (n.fraction.getD []))
    let start : Int := beyond - taken
    let (up, digits) := n.exponent.getD (true, [])
    let e := (digitsOf digits).foldl (fun e d => 10 * e + d) 0
    if exponentLimit ≤ e then
      if significand ≠ 0 ∧ up then .error (.grammar .numberRange)
      else .ok (.decimal ((if n.negative then (-0.0 : Float) else 0.0).toBits.toNat))
    else
      match decimal? n.negative significand (if up then start + e else start - e) with
      | some v => .ok v
      | none => .error (.grammar .numberRange)

/-- A number that breaks off: the end of the text has its own name unless the value is skipped. -/
def badNumber (rest : List Char) : Flaw :=
  .ofPlain (if rest.isEmpty then .ended .value else .grammar .number) (.grammar .number)

def spanDigits (cs : List Char) : List Char × List Char :=
  (cs.takeWhile Char.isDigit, cs.dropWhile Char.isDigit)

def scanExponent (n : Numeral) (cs : List Char) : Token × List Char :=
  match cs with
  | c :: r =>
    if c = 'e' ∨ c = 'E' then
      let (up, r) := match r with
        | '+' :: r => (true, r)
        | '-' :: r => (false, r)
        | r => (true, r)
      let (ds, rest) := spanDigits r
      if ds.isEmpty then (.flawed (badNumber rest), [])
      else (.number { n with exponent := some (up, ds) }.value, rest)
    else (.number n.value, cs)
  | [] => (.number n.value, [])

def scanFraction (n : Numeral) (cs : List Char) : Token × List Char :=
  match cs with
  | '.' :: r =>
    let (ds, rest) := spanDigits r
    if ds.isEmpty then (.flawed (badNumber rest), [])
    else scanExponent { n with fraction := some ds } rest
  | _ => scanExponent n cs

/-- A leading zero stands alone. -/
def scanNumber (negative : Bool) (cs : List Char) : Token × List Char :=
  let (ds, rest) := spanDigits cs
  match ds with
  | [] => (.flawed (badNumber rest), [])
  | '0' :: _ :: _ => (.flawed (.ofPlain (.grammar .number) (.grammar .number)), [])
  | ds => scanFraction ⟨negative, ds, none, none⟩ rest

/-- A character of a string, or a 16-bit unit written in hexadecimal. -/
inductive Piece
  | char (c : Char)
  | code (n : Nat)
  deriving DecidableEq

/-- What ends the pieces of a string: its quote, the end of the text, a control character, an
unknown escape or digits that are no unit. -/
inductive Stop
  | closed
  | ended
  | control
  | escape
  | digits (e : Error)
  deriving DecidableEq

/-- Fewer than four bytes are an early end. -/
def badDigits (cs : List Char) : Error :=
  if (String.ofList (cs.take 4)).utf8ByteSize < 4 then .ended .string else .grammar .escape

def hexUnit? (ds : List Char) : Option Nat :=
  (ds.mapM Uuid.digitValue?).map fun ds => ds.foldl (fun n d => 16 * n + d) 0

def escaped? (c : Char) : Option Char :=
  if c = '"' ∨ c = '\\' ∨ c = '/' then some c
  else if c = 'b' then some '\x08'
  else if c = 'f' then some '\x0c'
  else if c = 'n' then some '\x0a'
  else if c = 'r' then some '\x0d'
  else if c = 't' then some '\x09'
  else none

structure Body where
  pieces : List Piece
  stop : Stop
  rest : List Char

def Body.cons (p : Piece) (b : Body) : Body := { b with pieces := p :: b.pieces }

/-- The body of a string, behind its opening quote. -/
def scanBody : List Char → Body
  | [] => ⟨[], .ended, []⟩
  | c :: r =>
    if c = '"' then ⟨[], .closed, r⟩
    else if c = '\\' then
      match r with
      | [] => ⟨[], .ended, []⟩
      | d :: r =>
        if d = 'u' then
          match r with
          | x₁ :: x₂ :: x₃ :: x₄ :: r' =>
            match hexUnit? [x₁, x₂, x₃, x₄] with
            | some n => (scanBody r').cons (.code n)
            | none => ⟨[], .digits (badDigits r), []⟩
          | r => ⟨[], .digits (badDigits r), []⟩
        else
          match escaped? d with
          | some e => (scanBody r).cons (.char e)
          | none => ⟨[], .escape, []⟩
    else if c.toNat < 0x20 then ⟨[], .control, []⟩
    else (scanBody r).cons (.char c)

def Stop.error : Stop → Option Error
  | .closed => none
  | .ended => some (.ended .string)
  | .control => some (.grammar .control)
  | .escape => some (.grammar .escape)
  | .digits e => some e

/-- What is said of a leading surrogate with no unit behind it. -/
def Stop.halfPair : Stop → Error
  | .ended => .ended .string
  | .digits e => e
  | _ => .grammar .halfPair

def isLeading (n : Nat) : Bool := 0xd800 ≤ n && n < 0xdc00

def isTrailing (n : Nat) : Bool := 0xdc00 ≤ n && n < 0xe000

/-- The characters that the pieces spell; surrogates must come in pairs. -/
def spell (stop : Stop) : List Piece → Except Error (List Char)
  | [] =>
    match stop.error with
    | none => .ok []
    | some e => .error e
  | .char c :: r => (spell stop r).map (c :: ·)
  | .code n :: r =>
    if isTrailing n then .error (.grammar .loneSurrogate)
    else if isLeading n then
      match r with
      | .code m :: r =>
        if isTrailing m then
          (spell stop r).map (Char.ofNat ((n - 0xd800) * 0x400 + (m - 0xdc00) + 0x10000) :: ·)
        else .error (.grammar .loneSurrogate)
      | .char _ :: _ => .error (.grammar .halfPair)
      | [] => .error stop.halfPair
    else (spell stop r).map (Char.ofNat n :: ·)

def Body.token (b : Body) : Token :=
  let value := (spell b.stop b.pieces).map String.ofList
  match b.stop.error with
  | none => .string value
  | some e =>
    match value with
    | .ok _ => .brokenString (.always e)
    | .error first => .brokenString ⟨first, e, first⟩

def scanString (cs : List Char) : Token × List Char :=
  let b := scanBody cs
  (b.token, b.rest)

/-- The rest of a word after its first letter. -/
def scanWord (t : Token) : List Char → List Char → Token × List Char
  | [], cs => (t, cs)
  | _ :: _, [] => (.flawed (.ofPlain (.ended .value) (.ended .value)), [])
  | w :: ws, c :: cs =>
    if w = c then scanWord t ws cs
    else (.flawed (.ofPlain (.grammar .ident) (.grammar .ident)), [])

/-- The token that starts with `c`. -/
def scan (c : Char) (r : List Char) : Token × List Char :=
  if c = '[' then (.openArray, r)
  else if c = ']' then (.closeArray, r)
  else if c = '\x7b' then (.openObject, r)
  else if c = '\x7d' then (.closeObject, r)
  else if c = ',' then (.comma, r)
  else if c = ':' then (.colon, r)
  else if c = '"' then scanString r
  else if c = 'n' then scanWord .null ['u', 'l', 'l'] r
  else if c = 't' then scanWord (.bool true) ['r', 'u', 'e'] r
  else if c = 'f' then scanWord (.bool false) ['a', 'l', 's', 'e'] r
  else if c = '-' then scanNumber true r
  else if c.isDigit then scanNumber false (c :: r)
  else (.flawed (.always (.grammar .value)), [])

theorem scanBody_rest_le (cs : List Char) : (scanBody cs).rest.length ≤ cs.length := by
  fun_induction scanBody cs with
  | case1 | case3 | case5 | case6 | case8 | case9 => exact Nat.zero_le _
  | case2 => exact Nat.le_succ _
  | case4 | case7 | case10 =>
    simp only [Body.cons, List.length_cons]
    omega

theorem spanDigits_le (cs : List Char) : (spanDigits cs).2.length ≤ cs.length :=
  (List.dropWhile_suffix _).length_le

theorem scanExponent_le (n : Numeral) (cs : List Char) :
    (scanExponent n cs).2.length ≤ cs.length := by
  fun_cases scanExponent n cs with
  | case1 => exact Nat.zero_le _
  | case2 c r _ up t hsign ds rest hdigits _ =>
    have ht : t.length ≤ r.length := by
      split at hsign
      · obtain ⟨_, rfl⟩ := Prod.mk.inj hsign
        exact Nat.le_succ _
      · obtain ⟨_, rfl⟩ := Prod.mk.inj hsign
        exact Nat.le_succ _
      · obtain ⟨_, rfl⟩ := Prod.mk.inj hsign
        exact Nat.le_refl _
    have hrest : rest.length ≤ t.length := by
      have := spanDigits_le t
      rwa [hdigits] at this
    exact Nat.le_succ_of_le (Nat.le_trans hrest ht)
  | case3 | case4 => exact Nat.le_refl _

theorem scanFraction_le (n : Numeral) (cs : List Char) :
    (scanFraction n cs).2.length ≤ cs.length := by
  unfold scanFraction
  split
  · rename_i r
    have := spanDigits_le r
    simp only
    split
    · simp
    · have := scanExponent_le { n with fraction := some (spanDigits r).1 } (spanDigits r).2
      simp
      omega
  · exact scanExponent_le ..

theorem spanDigits_cons_le {c : Char} (h : c.isDigit) (r : List Char) :
    (spanDigits (c :: r)).2.length ≤ r.length := by
  simp [spanDigits, h, (List.dropWhile_suffix _).length_le]

theorem scanNumber_le (negative : Bool) (cs : List Char) :
    (scanNumber negative cs).2.length ≤ (spanDigits cs).2.length := by
  unfold scanNumber
  split
  rename_i ds rest h
  split
  · simp
  · simp
  · rw [h]
    exact scanFraction_le ..

theorem scanWord_le (t : Token) (ws cs : List Char) :
    (scanWord t ws cs).2.length ≤ cs.length := by
  fun_induction scanWord t ws cs with
  | case1 => exact Nat.le_refl _
  | case2 | case4 => exact Nat.zero_le _
  | case3 _ _ _ ih => exact Nat.le_succ_of_le ih

theorem length_ite_le {p : Prop} [Decidable p] {a b : Token × List Char} {n : Nat}
    (ha : p → a.2.length ≤ n) (hb : ¬p → b.2.length ≤ n) :
    (if p then a else b).2.length ≤ n := by
  by_cases h : p
  · simpa only [if_pos h] using ha h
  · simpa only [if_neg h] using hb h

theorem scan_le (c : Char) (r : List Char) : (scan c r).2.length ≤ r.length := by
  unfold scan
  iterate 6 refine length_ite_le (fun _ => Nat.le_refl _) fun _ => ?_
  refine length_ite_le (fun _ => scanBody_rest_le r) fun _ => ?_
  iterate 3 refine length_ite_le (fun _ => scanWord_le ..) fun _ => ?_
  refine length_ite_le (fun _ => Nat.le_trans (scanNumber_le ..) (spanDigits_le r)) fun _ => ?_
  exact length_ite_le (fun h => Nat.le_trans (scanNumber_le ..) (spanDigits_cons_le h r))
    fun _ => Nat.zero_le _

/-- The tokens of a text, up to the first flaw. -/
def ofChars : List Char → List Token
  | [] => []
  | c :: r =>
    if isGap c then ofChars r
    else (scan c r).1 :: ofChars (scan c r).2
termination_by cs => cs.length
decreasing_by
  · simp
  · have := scan_le c r
    simp
    omega

end Token
end ScatterGather.Json
