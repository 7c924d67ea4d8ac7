import ScatterGather.Json.Token
/-!
What a text reads as, whether or not it is JSON. A reading keeps each flaw in its place, so that a
decoder that walks it in order meets the wrong kinds of value and the breaches of grammar in the
order of the text.

The tokens are folded into a stack of open containers. A flaw closes everything around it.
-/
namespace ScatterGather.Json

/-- How a container ended: by its bracket, by the end of the text before or behind a comma, by a
bracket behind a comma, or where a separator was due. -/
inductive Ending
  | closed
  | cut
  | cutBehindComma
  | commaBeforeClose
  | stray
  deriving DecidableEq

/-- The key of a member. A broken one ends the text; `absent` stands before a value that is no
string. -/
inductive Key
  | text (s : String)
  | unreadable (e : Error)
  | broken (f : Flaw)
  | absent
  deriving DecidableEq

inductive Reading
  | null
  | bool (b : Bool)
  | number (n : Except Error Number)
  | string (s : Except Error String)
  | array (items : List Reading) (ending : Ending)
  | object (members : List (Key × Reading)) (ending : Ending)
  | flawed (f : Flaw)

def Key.ofString : Except Error String → Key
  | .ok s => .text s
  | .error e => .unreadable e

namespace Reading

/-- An open container with what it holds so far, last first. `member` waits for a value. -/
inductive Open
  | array (items : List Reading)
  | object (members : List (Key × Reading))
  | member (key : Key) (members : List (Key × Reading))

/-- What the next token may be. -/
inductive Due
  | value
  | firstItem
  | item
  | firstKey
  | key
  | colon
  | separator
  deriving DecidableEq

inductive Progress
  | within (stack : List Open) (due : Due)
  | whole (r : Reading) (trailing : Bool)
  | broken (r : Reading)

/-- Puts a finished value into the innermost container. -/
def put (r : Reading) : List Open → Progress
  | [] => .whole r false
  | .array items :: s => .within (.array (r :: items) :: s) .separator
  | .object members :: s => .within (.object ((.absent, r) :: members) :: s) .separator
  | .member k members :: s => .within (.object ((k, r) :: members) :: s) .separator

/-- Ends all open containers around a flaw. -/
def unwind (r : Reading) : List Open → Reading
  | [] => r
  | .array items :: s => unwind (.array (r :: items).reverse .cut) s
  | .object members :: s => unwind (.object ((.absent, r) :: members).reverse .cut) s
  | .member k members :: s => unwind (.object ((k, r) :: members).reverse .cut) s

/-- Ends the innermost container in a flawed way. -/
def abandon (e : Ending) : List Open → Reading
  | [] => .flawed (.always (.ended .value))
  | .array items :: s => unwind (.array items.reverse e) s
  | .object members :: s => unwind (.object members.reverse e) s
  | .member k members :: s =>
    unwind (.object ((k, .flawed (.always (.ended .value))) :: members).reverse .cut) s

def close : List Open → Progress
  | .array items :: s => put (.array items.reverse .closed) s
  | .object members :: s => put (.object members.reverse .closed) s
  | s => .broken (abandon .stray s)

/-- What a token is when nothing may follow it. -/
def ofToken : Token → Reading
  | .null => .null
  | .bool b => .bool b
  | .number n => .number n
  | .string s => .string s
  | .openArray => .array [] .cut
  | .openObject => .object [] .cut
  | .brokenString f => .flawed f
  | .flawed f => .flawed f
  | _ => .flawed (.always (.grammar .value))

def onValue (s : List Open) : Token → Progress
  | .openArray => .within (.array [] :: s) .firstItem
  | .openObject => .within (.object [] :: s) .firstKey
  | .null => put .null s
  | .bool b => put (.bool b) s
  | .number n => put (.number n) s
  | .string t => put (.string t) s
  | t => .broken (unwind (ofToken t) s)

def onKey : List Open → Token → Progress
  | .object members :: s, .string k => .within (.member (.ofString k) members :: s) .colon
  | .object members :: s, .brokenString f =>
    .broken (unwind (.object ((.broken f, .flawed f) :: members).reverse .cut) s)
  | s, t => .broken (unwind (ofToken t) s)

def onSeparator : List Open → Token → Progress
  | .array items :: s, .comma => .within (.array items :: s) .item
  | .array items :: s, .closeArray => close (.array items :: s)
  | .object members :: s, .comma => .within (.object members :: s) .key
  | .object members :: s, .closeObject => close (.object members :: s)
  | s, _ => .broken (abandon .stray s)

def feed : Progress → Token → Progress
  | .broken r, _ => .broken r
  | .whole r _, _ => .whole r true
  | .within s .value, t => onValue s t
  | .within s .firstItem, .closeArray => close s
  | .within s .firstItem, t => onValue s t
  | .within s .item, .closeArray => .broken (abandon .commaBeforeClose s)
  | .within s .item, t => onValue s t
  | .within s .firstKey, .closeObject => close s
  | .within s .firstKey, t => onKey s t
  | .within s .key, .closeObject => .broken (abandon .commaBeforeClose s)
  | .within s .key, t => onKey s t
  | .within s .colon, .colon => .within s .value
  | .within s .colon, _ => .broken (unwind (.flawed (.always (.grammar .colon))) s)
  | .within s .separator, t => onSeparator s t

/-- The reading at the end of the text, and whether anything stands behind the value. -/
def Progress.finish : Progress → Reading × Bool
  | .broken r => (r, false)
  | .whole r trailing => (r, trailing)
  | .within s .value => (unwind (.flawed (.always (.ended .value))) s, false)
  | .within s .colon => (unwind (.flawed (.always (.ended .object))) s, false)
  | .within s .item => (abandon .cutBehindComma s, false)
  | .within s .key => (abandon .cutBehindComma s, false)
  | .within s _ => (abandon .cut s, false)

def ofTokens (ts : List Token) : Reading × Bool :=
  (ts.foldl feed (.within [] .value)).finish

def ofString (s : String) : Reading × Bool := ofTokens (Token.ofChars s.toList)

end Reading
end ScatterGather.Json
