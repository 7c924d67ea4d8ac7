/-!
The shortest decimal that reads back as a given double, in exact arithmetic.

A finite double is `m * 2 ^ q`. The reals that round to it form an interval around it, whose ends
belong to it when `m` is even. Grids of one, two, ... seventeen digits are tried; on each, only the
two neighbours of the value can lie in the interval.
-/
namespace ScatterGather.Decimal

/-- A positive double and its interval, as numerators over one denominator. -/
structure Interval where
  low : Nat
  value : Nat
  high : Nat
  den : Nat
  closed : Bool

/-- What the leading binary digit, which is not written, adds to the fraction. -/
def hiddenBit : Nat := 0x10000000000000

def signBit : Nat := 0x8000000000000000

def tenTo (k : Nat) : Nat := Nat.pow 10 k

/-- The gap below a power of two is half the gap above it, the least exponent apart. -/
def Interval.ofBits (bits : Nat) : Interval :=
  let fraction := bits % hiddenBit
  let exponent := bits / hiddenBit % 0x800
  let m := if exponent = 0 then fraction else fraction + hiddenBit
  let shift := max exponent 1
  let below := if fraction = 0 ∧ 1 < exponent then 1 else 2
  let up := 1 <<< (shift - 1077)
  ⟨(4 * m - below) * up, 4 * m * up, (4 * m + 2) * up, 1 <<< (1077 - shift), m % 2 = 0⟩

def Interval.holds (i : Interval) (num den : Nat) : Bool :=
  if i.closed then i.low * den ≤ num * i.den ∧ num * i.den ≤ i.high * den
  else i.low * den < num * i.den ∧ num * i.den < i.high * den

/-- A number times a power of ten, as a fraction. -/
def power (num : Nat) (e : Int) : Nat × Nat := (num * tenTo e.toNat, tenTo (-e).toNat)

/-- The decimal exponent of the leading digit. -/
def Interval.leading (i : Interval) : Int :=
  if i.den ≤ i.value then ((Nat.toDigits 10 (i.value / i.den)).length : Int) - 1
  else -(((List.range 400).find? fun k => i.den ≤ i.value * tenTo k).getD 0 : Int)

/-- The neighbour of the value on the grid `10 ^ e` that reads back, the nearer one of two. -/
def Interval.onGrid (i : Interval) (e : Int) : Option Nat :=
  let (unitNum, unitDen) := power 1 e
  let below := i.value * unitDen / (i.den * unitNum)
  let fits := fun n => i.holds (n * unitNum) unitDen
  let twice := (2 * below + 1) * unitNum * i.den
  let position := 2 * i.value * unitDen
  match fits below, fits (below + 1) with
  | true, true =>
    some (if position < twice ∨ position = twice ∧ below % 2 = 0 then below else below + 1)
  | true, false => some below
  | false, true => some (below + 1)
  | false, false => none

/-- Digits and the exponent of the last of them. -/
def Interval.shortest (i : Interval) : Nat × Int :=
  let top := i.leading
  ((List.range 17).findSome? fun (k : Nat) =>
    (i.onGrid (top - k)).map fun digits => (digits, top - k)).getD (0, 0)

def trimmed : List Char → Int → List Char × Int
  | ds, e =>
    let zeros := (ds.reverse.takeWhile (· = '0')).length
    (ds.take (ds.length - zeros), e + zeros)

/-- Positional from `10 ^ -5` up to below `10 ^ 16`, with a point and at least one digit behind it;
otherwise with a signed exponent. -/
def layout (ds : List Char) (e : Int) : List Char :=
  let lead := e + ds.length - 1
  if -5 ≤ lead ∧ lead < 16 then
    if 0 ≤ e then ds ++ List.replicate e.toNat '0' ++ ['.', '0']
    else if 0 ≤ lead then ds.take (lead + 1).toNat ++ '.' :: ds.drop (lead + 1).toNat
    else '0' :: '.' :: List.replicate (-lead - 1).toNat '0' ++ ds
  else
    let mantissa := match ds with
      | d :: [] => [d]
      | d :: r => d :: '.' :: r
      | [] => []
    mantissa ++ 'e' :: (if lead < 0 then '-' else '+') :: Nat.toDigits 10 lead.natAbs

/-- The text of a finite double given by its bits. -/
def ofBits (bits : Nat) : String :=
  let magnitude := bits % signBit
  let body :=
    if magnitude = 0 then ['0', '.', '0']
    else
      let (digits, e) := (Interval.ofBits magnitude).shortest
      let (ds, e) := trimmed (Nat.toDigits 10 digits) e
      layout ds e
  String.ofList (if signBit ≤ bits then '-' :: body else body)

end ScatterGather.Decimal
