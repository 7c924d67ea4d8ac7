import ScatterGather.Sum
/-!
Universally unique identifiers: the hyphenated form, the forms that are read, and the fault of a
text that has none of them.
-/
namespace ScatterGather

structure Uuid where
  bits : BitVec 128
  deriving DecidableEq

namespace Uuid

def ofNat (n : Nat) : Uuid := ⟨BitVec.ofNat 128 n⟩

/-- The 32 hexadecimal digits, most significant first. -/
def digits (u : Uuid) : List Nat :=
  (List.range 32).map fun i => (u.bits.toNat >>> (4 * (31 - i))) % 16

/-- The first eight digits, by which an identifier is shown. -/
def short (u : Uuid) : String :=
  String.ofList ((u.digits.take 8).map Nat.digitChar)

def hyphenatedChars (u : Uuid) : List Char :=
  let ds := u.digits.map Nat.digitChar
  ds.take 8 ++ '-' :: (ds.drop 8).take 4 ++ '-' :: (ds.drop 12).take 4 ++
    '-' :: (ds.drop 16).take 4 ++ '-' :: ds.drop 20

def hyphenated (u : Uuid) : String := String.ofList u.hyphenatedChars

def digitValue? (c : Char) : Option Nat :=
  if '0' ≤ c ∧ c ≤ '9' then some (c.toNat - '0'.toNat)
  else if 'a' ≤ c ∧ c ≤ 'f' then some (c.toNat - 'a'.toNat + 10)
  else if 'A' ≤ c ∧ c ≤ 'F' then some (c.toNat - 'A'.toNat + 10)
  else none

def ofDigits (ds : List Nat) : Uuid := ofNat (ds.foldl (fun n d => 16 * n + d) 0)

/-- Reads exactly 32 digits. -/
def ofSimple? (cs : List Char) : Option Uuid :=
  if cs.length = 32 then (cs.mapM digitValue?).map ofDigits else none

/-- Reads 36 characters with hyphens at 8, 13, 18 and 23. -/
def ofHyphenated? (cs : List Char) : Option Uuid :=
  if cs.length = 36 ∧ [8, 13, 18, 23].all (fun i => cs[i]? == some '-') then
    ofSimple? (cs.take 8 ++ (cs.drop 9).take 4 ++ (cs.drop 14).take 4 ++ (cs.drop 19).take 4 ++
      cs.drop 24)
  else none

def urn : List Char := "urn:uuid:".toList

/-- Whether a text begins with `urn:uuid:` in capital or small letters. -/
def isUrn (cs : List Char) : Bool := (cs.take 9).map Char.toLower = urn

def isBraced (cs : List Char) : Bool :=
  cs.head? = some '{' ∧ cs.getLast? = some '}' ∧ 2 ≤ cs.length

/-- How many bytes a text takes. -/
def byteCount (cs : List Char) : Nat := (cs.map Char.utf8Size).sum

/-- Which form a text has to be in by its length and by what encloses it. -/
inductive Form
  | simple (cs : List Char)
  | hyphenated (cs : List Char)
  | unknown

/-- 32 bytes are digits alone, and 36 bytes have hyphens, bare, in braces or behind `urn:uuid:`. -/
def Form.of (text : List Char) : Form :=
  let size := byteCount text
  if size = 32 then .simple text
  else if size = 36 then .hyphenated text
  else if size = 38 ∧ isBraced text then .hyphenated text.tail.dropLast
  else if size = 45 ∧ isUrn text then .hyphenated (text.drop 9)
  else .unknown

/-- Why a text is no identifier. -/
inductive Fault
  | character (found : Char) (position : Nat)
  | length (found : Nat)
  | groupCount (found : Nat)
  | groupLength (group expected found : Nat)
  deriving DecidableEq

def Fault.message : Fault → String
  | .character c i => s!"invalid character: found `{c}` at {i}"
  | .length n => s!"invalid length: found {n}"
  | .groupCount n => s!"invalid group count: expected 5, found {n}"
  | .groupLength g e n => s!"invalid group length in group {g}: expected {e}, found {n}"

/-- The first character that is neither a digit nor a hyphen, with its byte position. -/
def strayFrom (i : Nat) : List Char → Option (Char × Nat)
  | [] => none
  | c :: r =>
    if c = '-' ∨ (digitValue? c).isSome then strayFrom (i + c.utf8Size) r else some (c, i)

/-- Positions of the hyphens. -/
def hyphens (cs : List Char) : List Nat :=
  (List.range cs.length).filter fun i => cs[i]? == some '-'

/-- The first of the leading four groups that does not end where it should. -/
def misplaced : List (Nat × Nat × Nat × Nat) → Option Fault
  | [] => none
  | (group, start, expected, stop) :: r =>
    if stop = start + expected then misplaced r
    else some (.groupLength group expected (stop - start))

/-- The fault of a text whose form begins `offset` bytes into it and may be `bare` digits. The last
group is counted up to the end of `size` bytes. -/
def faultWithin (cs : List Char) (offset : Nat) (bare : Bool) (size : Nat) : Fault :=
  match strayFrom offset cs with
  | some (c, i) => .character c i
  | none =>
    match hyphens cs with
    | [] => if bare then .length size else .groupCount 1
    | [a, b, c, d] =>
      (misplaced [(0, 0, 8, a), (1, 9, 4, b), (2, 14, 4, c), (3, 19, 4, d)]).getD
        (.groupLength 4 12 (size - 24))
    | hs => .groupCount (hs.length + 1)

/-- The greatest length that a form has. -/
def longest : Nat := 45

/-- The fault of a text in no form: it is too long to look at, or its characters show the fault. -/
def faultOf (text : List Char) : Fault :=
  let size := byteCount text
  if longest < size then .length size
  else if isBraced text then faultWithin text.tail.dropLast 1 false size
  else if isUrn text then faultWithin (text.drop 9) 9 false size
  else faultWithin text 0 true size

/-- Reads 32 digits, or the hyphenated form bare, in braces or behind `urn:uuid:`. The positions in
the fault of a form count from where the form begins. -/
def ofChars (text : List Char) : Except Fault Uuid :=
  match Form.of text with
  | .simple cs =>
    match ofSimple? cs with
    | some u => .ok u
    | none => .error (faultWithin cs 0 true (byteCount cs))
  | .hyphenated cs =>
    match ofHyphenated? cs with
    | some u => .ok u
    | none => .error (faultWithin cs 0 false (byteCount cs))
  | .unknown => .error (faultOf text)

end Uuid

/-- Identifies a query or one of its sub queries. -/
structure QueryId where
  uuid : Uuid
  deriving DecidableEq

def QueryId.display (id : QueryId) : String := s!"query-{id.uuid.short}"

/-- Identifies an execution. -/
structure ExecutionId where
  uuid : Uuid
  deriving DecidableEq

def ExecutionId.display (id : ExecutionId) : String := s!"exec-{id.uuid.short}"

end ScatterGather
