/-!
Reading of command lines: options with long and short names, and the word behind which another set
of options begins.

An option is read as soon as it is met, so of two things that stop the reading the first one counts.
-/
namespace ScatterGather.Cli

/-- Why the reading stops without a command. -/
inductive Stop
  | misuse
  | help
  | version
  deriving DecidableEq

/-- What an option does to a draft `δ`: a flag by itself, the others with a value. -/
inductive Effect (δ : Type)
  | flag (set : δ → Except Stop δ)
  | value (set : String → δ → Except Stop δ)

structure Opt (δ : Type) where
  long : String
  short : Option Char
  effect : Effect δ

namespace Opt

variable {δ : Type}

def byLong (os : List (Opt δ)) (name : List Char) : Option (Opt δ) :=
  os.find? fun o => o.long.toList = name

def byShort (os : List (Opt δ)) (c : Char) : Option (Opt δ) := os.find? fun o => o.short = some c

/-- A lone hyphen is a value; what begins with a hyphen otherwise is not. -/
def isValue (word : String) : Bool :=
  match word.toList with
  | '-' :: _ :: _ => false
  | _ => true

/-- The value of an option is attached to it or is the next word. -/
def setValue (set : String → δ → Except Stop δ) (attached : Option (List Char))
    (rest : List String) (d : δ) : Except Stop (δ × List String) :=
  match attached, rest with
  | some v, rest => (set (String.ofList v) d).map fun d => (d, rest)
  | none, v :: rest =>
    if isValue v then (set v d).map fun d => (d, rest) else .error .misuse
  | none, [] => .error .misuse

/-- An option by its long name, with the part behind an equals sign attached. -/
def readLong (os : List (Opt δ)) (word : List Char) (rest : List String) (d : δ) :
    Except Stop (δ × List String) :=
  let name := word.takeWhile (· ≠ '=')
  let attached := match word.dropWhile (· ≠ '=') with
    | _ :: v => some v
    | [] => none
  match (byLong os name).map effect, attached with
  | none, _ => .error .misuse
  | some (.flag set), none => (set d).map fun d => (d, rest)
  | some (.flag _), some _ => .error .misuse
  | some (.value set), attached => setValue set attached rest d

/-- What is attached to a short option; an equals sign before it does not count. -/
def attachedTo : List Char → Option (List Char)
  | [] => none
  | '=' :: v => some v
  | v => some v

/-- Short options in one word: flags up to the first one that takes a value. -/
def readShorts (os : List (Opt δ)) : List Char → List String → δ →
    Except Stop (δ × List String)
  | [], rest, d => .ok (d, rest)
  | c :: cs, rest, d =>
    match (byShort os c).map effect with
    | none => .error .misuse
    | some (.flag set) =>
      match set d with
      | .ok d => readShorts os cs rest d
      | .error s => .error s
    | some (.value set) => setValue set (attachedTo cs) rest d

theorem rest_of_map {x : Except Stop δ} {rest rest' : List String} {d' : δ}
    (h : (x.map fun d => (d, rest)) = .ok (d', rest')) : rest' = rest := by
  cases x <;> cases h
  rfl

theorem length_of_setValue {set : String → δ → Except Stop δ} {attached : Option (List Char)}
    {rest rest' : List String} {d d' : δ} (h : setValue set attached rest d = .ok (d', rest')) :
    rest'.length ≤ rest.length := by
  unfold setValue at h
  split at h
  · exact Nat.le_of_eq (congrArg _ (rest_of_map h))
  · split at h
    · rw [rest_of_map h]
      exact Nat.le_succ _
    · cases h
  · cases h

theorem length_of_readLong {os : List (Opt δ)} {word : List Char} {rest rest' : List String}
    {d d' : δ} (h : readLong os word rest d = .ok (d', rest')) : rest'.length ≤ rest.length := by
  unfold readLong at h
  simp only at h
  split at h
  · cases h
  · exact Nat.le_of_eq (congrArg _ (rest_of_map h))
  · cases h
  · exact length_of_setValue h

theorem length_of_readShorts {os : List (Opt δ)} {word : List Char} {rest rest' : List String}
    {d d' : δ} (h : readShorts os word rest d = .ok (d', rest')) : rest'.length ≤ rest.length := by
  induction word generalizing d with
  | nil =>
    cases h
    exact Nat.le_refl _
  | cons c cs ih =>
    unfold readShorts at h
    split at h
    · cases h
    · split at h
      · exact ih h
      · cases h
    · exact length_of_setValue h

/-- Options up to the first word that is none. Nothing may stand behind a double hyphen. -/
def read (os : List (Opt δ)) : List String → δ → Except Stop (δ × Option (String × List String))
  | [], d => .ok (d, none)
  | word :: rest, d =>
    match word.toList with
    | ['-', '-'] => if rest.isEmpty then .ok (d, none) else .error .misuse
    | '-' :: '-' :: long =>
      match _h : readLong os long rest d with
      | .ok (d, rest') => read os rest' d
      | .error s => .error s
    | '-' :: c :: cs =>
      match _h : readShorts os (c :: cs) rest d with
      | .ok (d, rest') => read os rest' d
      | .error s => .error s
    | _ => .ok (d, some (word, rest))
termination_by words => words.length
decreasing_by
  · exact Nat.lt_succ_of_le (length_of_readLong _h)
  · exact Nat.lt_succ_of_le (length_of_readShorts _h)

end Opt
end ScatterGather.Cli
