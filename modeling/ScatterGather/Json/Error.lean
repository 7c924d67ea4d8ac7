import ScatterGather.Text.Quoted
import ScatterGather.Decimal.Shortest
import ScatterGather.Uuid
/-!
What can be wrong with a JSON text: its grammar, an end that comes too early, or a value of the
wrong kind.
-/
namespace ScatterGather.Json

/-- A number as read. A `decimal` is any number with a fraction or an exponent, a whole number
beyond 64 bits, or minus zero; `bits` is the double nearest to what was read. -/
inductive Number
  | natural (n : Nat)
  | negative (n : Nat)
  | decimal (bits : Nat)
  deriving DecidableEq

/-- What stands where something else was wanted. -/
inductive Found
  | null
  | bool (b : Bool)
  | number (n : Number)
  | string (s : String)
  | sequence
  | map
  deriving DecidableEq

def Found.text : Found → String
  | .null => "null"
  | .bool b => s!"boolean `{b}`"
  | .number (.natural n) => s!"integer `{n}`"
  | .number (.negative n) => s!"integer `-{n}`"
  | .number (.decimal bits) => s!"floating point `{Decimal.ofBits bits}`"
  | .string s => s!"string {Text.quote s}"
  | .sequence => "sequence"
  | .map => "map"

/-- A breach of the grammar. -/
inductive Breach
  | value
  | ident
  | colon
  | listEnd
  | objectEnd
  | trailingComma
  | trailingCharacters
  | key
  | number
  | numberRange
  | escape
  | control
  | loneSurrogate
  | halfPair
  deriving DecidableEq

def Breach.message : Breach → String
  | .value => "expected value"
  | .ident => "expected ident"
  | .colon => "expected `:`"
  | .listEnd => "expected `,` or `]`"
  | .objectEnd => "expected `,` or `\x7d`"
  | .trailingComma => "trailing comma"
  | .trailingCharacters => "trailing characters"
  | .key => "key must be a string"
  | .number => "invalid number"
  | .numberRange => "number out of range"
  | .escape => "invalid escape"
  | .control => "control character (\\u0000-\\u001F) found while parsing a string"
  | .loneSurrogate => "lone leading surrogate in hex escape"
  | .halfPair => "unexpected end of hex escape"

/-- What was unfinished when the text ended. -/
inductive Unfinished
  | value
  | string
  | list
  | object
  deriving DecidableEq

def Unfinished.message : Unfinished → String
  | .value => "EOF while parsing a value"
  | .string => "EOF while parsing a string"
  | .list => "EOF while parsing a list"
  | .object => "EOF while parsing an object"

/-- A value that does not fit the type it is read as. -/
inductive Mismatch
  | kind (found : Found) (expected : String)
  | value (found : Found) (expected : String)
  | missing (field : String)
  | duplicate (field : String)
  | length (found : Nat) (expected : String)
  | variant (found : String) (known : List String)
  | uuid (fault : Uuid.Fault)
  deriving DecidableEq

def Mismatch.message : Mismatch → String
  | .kind found expected => s!"invalid type: {found.text}, expected {expected}"
  | .value found expected => s!"invalid value: {found.text}, expected {expected}"
  | .missing field => s!"missing field `{field}`"
  | .duplicate field => s!"duplicate field `{field}`"
  | .length found expected => s!"invalid length {found}, expected {expected}"
  | .variant found known =>
    let names := ", ".intercalate (known.map fun name => s!"`{name}`")
    s!"unknown variant `{found}`, expected one of {names}"
  | .uuid fault => s!"UUID parsing failed: {fault.message}"

inductive Error
  | grammar (breach : Breach)
  | ended (unfinished : Unfinished)
  | data (mismatch : Mismatch)
  deriving DecidableEq

def Error.message : Error → String
  | .grammar b => b.message
  | .ended u => u.message
  | .data m => m.message

end ScatterGather.Json
