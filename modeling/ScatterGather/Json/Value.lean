/-!
JSON values as this library writes them. One writer serves both layouts: everything on one line, or
one item a line with two blanks a level.
-/
namespace ScatterGather

/-- Members keep their order; numbers are whole. -/
inductive Json
  | null
  | bool (b : Bool)
  | number (n : Int)
  | string (s : String)
  | array (items : List Json)
  | object (members : List (String × Json))

namespace Json

def escapeUnit (n : Nat) : List Char :=
  ['\\', 'u', '0', '0', Nat.digitChar (n / 16), Nat.digitChar (n % 16)]

/-- Escapes the quote, the backslash and the control characters below a blank. -/
def escape (c : Char) : List Char :=
  if c = '"' then ['\\', '"']
  else if c = '\\' then ['\\', '\\']
  else if c = '\x08' then ['\\', 'b']
  else if c = '\x09' then ['\\', 't']
  else if c = '\x0a' then ['\\', 'n']
  else if c = '\x0c' then ['\\', 'f']
  else if c = '\x0d' then ['\\', 'r']
  else if c.toNat < 0x20 then escapeUnit c.toNat
  else [c]

def quoted (s : String) : List Char :=
  '"' :: s.toList.flatMap escape ++ ['"']

def numeral (n : Int) : List Char := (toString n).toList

/-- What separates the items of a container and what follows a colon. -/
structure Layout where
  newline : Nat → List Char
  gap : List Char

def Layout.line : Layout := ⟨fun _ => [], []⟩

def Layout.pretty : Layout := ⟨fun depth => '\n' :: List.replicate (2 * depth) ' ', [' ']⟩

/-- An empty container has no line break inside. -/
def Layout.enclose (l : Layout) (depth : Nat) (start stop : Char) (body : List Char) : List Char :=
  start :: l.newline (depth + 1) ++ body ++ l.newline depth ++ [stop]

mutual

def chars (l : Layout) (depth : Nat) : Json → List Char
  | null => "null".toList
  | bool true => "true".toList
  | bool false => "false".toList
  | number n => numeral n
  | string s => quoted s
  | array [] => ['[', ']']
  | array (j :: r) => l.enclose depth '[' ']' (itemChars l (depth + 1) (j :: r))
  | object [] => ['\x7b', '\x7d']
  | object (m :: r) => l.enclose depth '\x7b' '\x7d' (memberChars l (depth + 1) (m :: r))

def itemChars (l : Layout) (depth : Nat) : List Json → List Char
  | [] => []
  | j :: [] => chars l depth j
  | j :: r => chars l depth j ++ ',' :: l.newline depth ++ itemChars l depth r

def memberChars (l : Layout) (depth : Nat) : List (String × Json) → List Char
  | [] => []
  | (k, j) :: [] => quoted k ++ ':' :: l.gap ++ chars l depth j
  | (k, j) :: r =>
    quoted k ++ ':' :: l.gap ++ chars l depth j ++ ',' :: l.newline depth ++ memberChars l depth r

end

def line (j : Json) : String := String.ofList (j.chars .line 0)

def pretty (j : Json) : String := String.ofList (j.chars .pretty 0)

end Json
end ScatterGather
