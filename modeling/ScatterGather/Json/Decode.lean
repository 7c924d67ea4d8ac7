import ScatterGather.Json.Reading
/-!
Decoding of readings into typed values: scalars, lists, maps and records.

A record is given as an object, its members in any order, unknown ones skipped, or as an array of
its fields in order. Both stop at the first fault in the order of the text.
-/
namespace ScatterGather.Json

abbrev Decoder (α : Type) := Reading → Except Error α

/-- What is said of an array's end by one who reads items to the last. -/
def Ending.ofList : Ending → Except Error Unit
  | .closed => .ok ()
  | .cut => .error (.ended .list)
  | .cutBehindComma => .error (.ended .value)
  | .commaBeforeClose => .error (.grammar .trailingComma)
  | .stray => .error (.grammar .listEnd)

/-- What is said of an object's end by one who reads members to the last. -/
def Ending.ofObject : Ending → Except Error Unit
  | .closed => .ok ()
  | .cut => .error (.ended .object)
  | .cutBehindComma => .error (.ended .value)
  | .commaBeforeClose => .error (.grammar .trailingComma)
  | .stray => .error (.grammar .objectEnd)

def Ending.skipList : Ending → Except Error Unit
  | .commaBeforeClose => .error (.grammar .value)
  | e => e.ofList

def Ending.skipObject : Ending → Except Error Unit
  | .commaBeforeClose => .error (.grammar .key)
  | .cutBehindComma => .error (.ended .object)
  | e => e.ofObject

namespace Reading

mutual

/-- Passes over a value; only its grammar counts. -/
def skip : Reading → Except Error Unit
  | array items e => do skipItems items; e.skipList
  | object members e => do skipMembers members; e.skipObject
  | flawed f => .error f.skipped
  | _ => .ok ()

def skipItems : List Reading → Except Error Unit
  | [] => .ok ()
  | r :: rs => do skip r; skipItems rs

def skipMembers : List (Key × Reading) → Except Error Unit
  | [] => .ok ()
  | (k, r) :: ms =>
    if k = .absent then .error (.grammar .key)
    else do skip r; skipMembers ms

end

def kind (found : Found) (expected : String) : Error := .data (.kind found expected)

/-- The complaint about a value of another kind, or about its own flaw. -/
def mismatch (expected : String) : Reading → Error
  | null => kind .null expected
  | bool b => kind (.bool b) expected
  | number (.ok n) => kind (.number n) expected
  | number (.error e) => e
  | string (.ok s) => kind (.string s) expected
  | string (.error e) => e
  | array _ _ => kind .sequence expected
  | object _ _ => kind .map expected
  | flawed f => f.wanted

/-- Whole numbers from `low` to `high`. -/
def whole (expected : String) (low high : Int) : Decoder Int
  | number (.ok (.natural n)) =>
    if (n : Int) ≤ high then .ok n else .error (.data (.value (.number (.natural n)) expected))
  | number (.ok (.negative n)) =>
    if low ≤ -(n : Int) then .ok (-n)
    else .error (.data (.value (.number (.negative n)) expected))
  | r => .error (mismatch expected r)

def word : Decoder UInt64 := fun r =>
  (whole "usize" 0 (UInt64.size - 1) r).map fun n => UInt64.ofNat n.toNat

def milliseconds : Decoder UInt64 := fun r =>
  (whole "u64" 0 (UInt64.size - 1) r).map fun n => UInt64.ofNat n.toNat

def ordinal : Decoder UInt32 := fun r =>
  (whole "u32" 0 (UInt32.size - 1) r).map fun n => UInt32.ofNat n.toNat

def instant : Decoder Int64 := fun r =>
  (whole "i64" Int64.minValue.toInt Int64.maxValue.toInt r).map Int64.ofInt

def text : Decoder String
  | string (.ok s) => .ok s
  | r => .error (mismatch "a string" r)

def uuid : Decoder Uuid
  | string (.ok s) =>
    match Uuid.ofChars s.toList with
    | .ok u => .ok u
    | .error f => .error (.data (.uuid f))
  | r => .error (mismatch "a formatted UUID string" r)

def optional {α : Type} (d : Decoder α) : Decoder (Option α)
  | null => .ok none
  | r => (d r).map some

def named {α : Type} (known : List (String × α)) (name : String) : Except Error α :=
  match known.lookup name with
  | some a => .ok a
  | none => .error (.data (.variant name (known.map (·.1))))

def unit : Decoder Unit
  | null => .ok ()
  | r => .error (mismatch "unit" r)

/-- What may stand behind the one member of a variant. -/
def behindVariant (members : List (Key × Reading)) (e : Ending) : Except Error Unit :=
  match members, e with
  | [], .closed => .ok ()
  | [], .cut => .error (.ended .object)
  | _, _ => .error (.grammar .value)

/-- A variant without content: its name, or an object with the name as the only key. -/
def variant {α : Type} (known : List (String × α)) : Decoder α
  | string (.ok s) => named known s
  | string (.error e) => .error e
  | object [] .cut => .error (.ended .object)
  | object [] _ => .error (.grammar .key)
  | object ((.absent, _) :: _) _ => .error (.grammar .key)
  | object ((.unreadable e, _) :: _) _ => .error e
  | object ((.broken f, _) :: _) _ => .error f.wanted
  | object ((.text s, r) :: ms) e => do
    let a ← named known s
    unit r
    behindVariant ms e
    return a
  | flawed f => .error f.variant
  | _ => .error (.grammar .value)

def list {α : Type} (d : Decoder α) : Decoder (List α)
  | array items e => do
    let values ← items.mapM d
    e.ofList
    return values
  | r => .error (mismatch "a sequence" r)

def Key.read : Key → Except Error String
  | .text s => .ok s
  | .unreadable e => .error e
  | .broken f => .error f.wanted
  | .absent => .error (.grammar .key)

/-- Members in the order of the text. -/
def entries {α : Type} (d : Decoder α) : Decoder (List (String × α))
  | object members e => do
    let values ← members.mapM fun (k, r) => do return (← Key.read k, ← d r)
    e.ofObject
    return values
  | r => .error (mismatch "a map" r)

end Reading

/-- A field sets its part of a draft `δ`. An optional field may be missing at the end of an
array. -/
structure Field (δ : Type) where
  name : String
  isOptional : Bool
  decode : Reading → Except Error (δ → δ)

/-- A field of type `α` with the way to set it. -/
def Field.of {δ α : Type} (name : String) (isOptional : Bool) (d : Decoder α) (set : α → δ → δ) :
    Field δ :=
  ⟨name, isOptional, fun r => (d r).map set⟩

/-- A record of type `ρ`, made from a draft once all fields are read. -/
structure Record (δ ρ : Type) where
  name : String
  fields : List (Field δ)
  empty : δ
  finish : δ → Except Error ρ

namespace Record

variable {δ ρ : Type}

def lookup (fields : List (Field δ)) (name : String) : Option (Field δ) :=
  fields.find? fun f => f.name = name

/-- Reads the members from the first to the last; `seen` are the fields read so far. -/
def readMembers (fields : List (Field δ)) (seen : List String) (draft : δ) :
    List (Key × Reading) → Except Error δ
  | [] => .ok draft
  | (k, r) :: ms =>
    match Reading.Key.read k with
    | .error e => .error e
    | .ok name =>
      match lookup fields name with
      | none =>
        match r.skip with
        | .error e => .error e
        | .ok () => readMembers fields seen draft ms
      | some f =>
        if name ∈ seen then .error (.data (.duplicate name))
        else
          match f.decode r with
          | .error e => .error e
          | .ok set => readMembers fields (name :: seen) (set draft) ms

/-- Whether fields from position `i` on may all be missing. -/
def missingFrom (expected : String) (i : Nat) : List (Field δ) → Except Error Unit
  | [] => .ok ()
  | f :: fs =>
    if f.isOptional then missingFrom expected (i + 1) fs
    else .error (.data (.length i expected))

/-- What follows the last field in an array. -/
def behindFields (items : List Reading) (e : Ending) : Except Error Unit :=
  match items, e with
  | [], .closed => .ok ()
  | [], .cut => .error (.ended .list)
  | [], .commaBeforeClose => .error (.grammar .trailingComma)
  | _, _ => .error (.grammar .trailingCharacters)

/-- Reads the items as the fields from position `i` on. -/
def readItems (expected : String) (e : Ending) (i : Nat) (draft : δ) :
    List (Field δ) → List Reading → Except Error δ
  | [], items => (behindFields items e).map fun _ => draft
  | fs, [] =>
    match e.ofList with
    | .error e => .error e
    | .ok () => (missingFrom expected i fs).map fun _ => draft
  | f :: fs, r :: rs =>
    match f.decode r with
    | .error e => .error e
    | .ok set => readItems expected e (i + 1) (set draft) fs rs

def expectation (s : Record δ ρ) : String :=
  let n := s.fields.length
  let plural := if n = 1 then "" else "s"
  s!"struct {s.name} with {n} element{plural}"

def decode (s : Record δ ρ) : Decoder ρ
  | .object members e => do
    let draft ← readMembers s.fields [] s.empty members
    e.ofObject
    s.finish draft
  | .array items e => do
    let draft ← readItems s.expectation e 0 s.empty s.fields items
    s.finish draft
  | r => .error (r.mismatch s!"struct {s.name}")

end Record

/-- A field that has to be there. -/
def required {α : Type} (name : String) : Option α → Except Error α
  | some a => .ok a
  | none => .error (.data (.missing name))

/-- The value comes first, what stands behind it second. -/
def decode {α : Type} (d : Decoder α) (s : String) : Except Error α :=
  let (r, trailing) := Reading.ofString s
  match d r with
  | .error e => .error e
  | .ok v => if trailing then .error (.grammar .trailingCharacters) else .ok v

end ScatterGather.Json
