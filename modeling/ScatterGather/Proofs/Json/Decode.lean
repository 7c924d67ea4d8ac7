import Mathlib.Data.List.Forall2
import ScatterGather.Proofs.Json.Value

/-! Decoders take from a written value what was put into it. -/
namespace ScatterGather.Json

variable {α β : Type} {l : Layout} {d : Decoder α}

/-- A decoder makes of a text what it makes of the text's reading. -/
theorem decode_text {s : String} {r : Reading} (h : Grammar.Text s r) (d : Decoder α) :
    decode d s = d r := by
  simp only [decode, Reading.ofString_text h]
  cases d r <;> rfl

/-- On one line or on many, a decoder makes of a value's text what it makes of its reading. -/
theorem decode_written (hl : l.Blank) (d : Decoder α) (j : Json) :
    decode d (String.ofList (j.chars l 0)) = d j.reading :=
  decode_text (text_chars hl j) d

theorem decode_line (d : Decoder α) (j : Json) : decode d j.line = d j.reading :=
  decode_written blank_line d j

theorem decode_pretty (d : Decoder α) (j : Json) : decode d j.pretty = d j.reading :=
  decode_written blank_pretty d j

namespace Reading

variable {s : String} {a : α}

theorem text_string (s : String) : text (Json.string s).reading = .ok s := rfl

theorem optional_string (h : d (Json.string s).reading = .ok a) :
    optional d (Json.string s).reading = .ok (some a) := by
  change (d (Json.string s).reading).map some = _
  rw [h]
  rfl

theorem optional_of {write : α → String}
    (h : ∀ a, d (Json.string (write a)).reading = .ok a) (o : Option α) :
    optional d ((o.map fun a => Json.string (write a)).getD .null).reading = .ok o := by
  cases o with
  | none => rfl
  | some a => exact optional_string (h a)

theorem whole_number {expected : String} {low high n : Int} (hlow : low ≤ n) (hhigh : n ≤ high)
    (hmin : Int64.minValue.toInt ≤ n) (hmax : n < UInt64.size) :
    whole expected low high (Json.number n).reading = .ok n := by
  rw [Json.reading, Token.value_ofInt hmin hmax]
  by_cases hn : n < 0
  · have habs : -(n.natAbs : Int) = n := by omega
    rw [if_pos hn, whole, habs, if_pos hlow]
  · have habs : (n.natAbs : Int) = n := by omega
    rw [if_neg hn, whole, habs, if_pos hhigh]

theorem instant_number (t : Int64) : instant (Json.number t.toInt).reading = .ok t := by
  have hlow := Int64.minValue_le_toInt t
  have hhigh := Int64.toInt_le t
  have hmax : t.toInt < UInt64.size := Int.lt_of_le_of_lt hhigh (by decide)
  rw [instant, whole_number hlow hhigh hlow hmax, Except.map, Int64.ofInt_toInt]

/-- Unsigned numbers of 64 bits or less. -/
theorem whole_natural {expected : String} {size n : Nat} (hn : n < size)
    (hsize : size ≤ UInt64.size) :
    whole expected 0 (size - 1) (Json.number n).reading = .ok (n : Int) := by
  have hlow := Int.natCast_nonneg n
  have hmin : Int64.minValue.toInt ≤ n := Int.le_trans (by decide) hlow
  exact whole_number hlow (by omega) hmin (by omega)

theorem ordinal_number (n : UInt32) : ordinal (Json.number n.toNat).reading = .ok n := by
  rw [ordinal, whole_natural n.toNat_lt (by decide), Except.map, Int.toNat_natCast,
    UInt32.ofNat_toNat]

theorem word_number (n : UInt64) : word (Json.number n.toNat).reading = .ok n := by
  rw [word, whole_natural n.toNat_lt (Nat.le_refl _), Except.map, Int.toNat_natCast,
    UInt64.ofNat_toNat]

theorem milliseconds_number (n : UInt64) :
    milliseconds (Json.number n.toNat).reading = .ok n := by
  rw [milliseconds, whole_natural n.toNat_lt (Nat.le_refl _), Except.map, Int.toNat_natCast,
    UInt64.ofNat_toNat]

theorem mapM_ok {f : α → Except Error β} {xs : List α} {ys : List β}
    (h : List.Forall₂ (fun x y => f x = .ok y) xs ys) : xs.mapM f = .ok ys := by
  induction h with
  | nil => rfl
  | cons hx _ ih =>
    rw [List.mapM_cons, hx, ih]
    rfl

theorem mapM_error {f : α → Except Error β} {xs : List α} {x : α} {e : Error} (hx : x ∈ xs)
    (hf : f x = .error e) : ∃ e, xs.mapM f = .error e := by
  induction xs with
  | nil => cases hx
  | cons x' xs ih =>
    rw [List.mapM_cons]
    cases hf' : f x' with
    | error e => exact ⟨e, rfl⟩
    | ok y =>
      rcases List.mem_cons.1 hx with rfl | hx
      · cases hf.symm.trans hf'
      · obtain ⟨e', he'⟩ := ih hx
        rw [he']
        exact ⟨e', rfl⟩

theorem list_items {items : List Reading} {xs : List α}
    (h : List.Forall₂ (fun r x => d r = .ok x) items xs) :
    list d (.array items .closed) = .ok xs := by
  rw [list, mapM_ok h]
  rfl

/-- A list with an item that cannot be read is not read. -/
theorem list_error {items : List Reading} {ending : Ending} {r : Reading} {e : Error}
    (hr : r ∈ items) (hd : d r = .error e) : ∃ e, list d (.array items ending) = .error e := by
  obtain ⟨e', he'⟩ := mapM_error hr hd
  rw [list, he']
  exact ⟨e', rfl⟩

theorem entries_object {write : α → Json} {es : List (String × α)}
    (h : ∀ x, d (write x).reading = .ok x) :
    entries d (Json.object (es.map fun e => (e.1, write e.2))).reading = .ok es := by
  have hm : (memberReadings (es.map fun e => (e.1, write e.2))).mapM
      (fun m => do return (← Key.read m.1, ← d m.2)) = .ok es := by
    refine mapM_ok ?_
    induction es with
    | nil => exact .nil
    | cons e es ih =>
      refine .cons ?_ ih
      change (do return (← Key.read (.text e.1), ← d (write e.2).reading)) = Except.ok e
      rw [h]
      rfl
  rw [Json.reading, entries, hm]
  rfl

end ScatterGather.Json.Reading
