import ScatterGather.Json.Value
import ScatterGather.Proofs.Json.Reading

/-! What the writer makes of a value is a text of the grammar, on one line or on many, so a written
value is read as it was. -/
namespace ScatterGather.Json

open Token Grammar

variable {c : Char} {n : Nat}

namespace Token

theorem hexUnit?_escapeUnit (hn : n < 0x20) :
    hexUnit? ['0', '0', Nat.digitChar (n / 16), Nat.digitChar (n % 16)] = some n := by
  revert n
  decide

/-- A character is written with a letter for it, with its number, or as it is. -/
theorem escape_cases (c : Char) :
    (∃ d, escaped? d = some c ∧ escape c = ['\\', d]) ∨
      (c.toNat < 0x20 ∧ escape c = escapeUnit c.toNat) ∨
      (c ≠ '"' ∧ c ≠ '\\' ∧ ¬ c.toNat < 0x20 ∧ escape c = [c]) := by
  unfold escape
  split
  case isTrue h => exact .inl ⟨'"', by rw [h]; rfl, rfl⟩
  case isFalse hquote =>
  split
  case isTrue h => exact .inl ⟨'\\', by rw [h]; rfl, rfl⟩
  case isFalse hslash =>
  split
  case isTrue h => exact .inl ⟨'b', h ▸ rfl, rfl⟩
  split
  case isTrue h => exact .inl ⟨'t', h ▸ rfl, rfl⟩
  split
  case isTrue h => exact .inl ⟨'n', h ▸ rfl, rfl⟩
  split
  case isTrue h => exact .inl ⟨'f', h ▸ rfl, rfl⟩
  split
  case isTrue h => exact .inl ⟨'r', h ▸ rfl, rfl⟩
  split
  case isTrue h => exact .inr (.inl ⟨h, rfl⟩)
  case isFalse h => exact .inr (.inr ⟨hquote, hslash, h, rfl⟩)

/-- A character is written as one piece, which spells it. -/
theorem exists_piece (c : Char) : ∃ p, StringPiece (escape c) p ∧
    ∀ stop ps, spell stop (p :: ps) = (spell stop ps).map (c :: ·) := by
  rcases escape_cases c with ⟨d, hd, he⟩ | ⟨hlt, he⟩ | ⟨hquote, hslash, hlow, he⟩
  · exact ⟨.char c, he ▸ .letter hd, fun _ _ => rfl⟩
  · refine ⟨.code c.toNat, he ▸ .unit (hexUnit?_escapeUnit hlt), ?_⟩
    intro stop ps
    have htrail : ¬ isTrailing c.toNat = true := by
      simp [isTrailing]
      omega
    have hlead : ¬ isLeading c.toNat = true := by
      simp [isLeading]
      omega
    rw [spell.eq_def]
    simp only [htrail, hlead, Char.ofNat_toNat]
    rfl
  · exact ⟨.char c, he ▸ .plain hquote hslash hlow, fun _ _ => rfl⟩

theorem exists_pieces (cs : List Char) :
    ∃ ps, Pieces (cs.flatMap escape) ps ∧ spell .closed ps = .ok cs := by
  induction cs with
  | nil => exact ⟨[], .nil, rfl⟩
  | cons c cs ih =>
    obtain ⟨ps, hps, hcs⟩ := ih
    obtain ⟨p, hp, hc⟩ := exists_piece c
    refine ⟨p :: ps, .cons hp hps, ?_⟩
    rw [hc, hcs]
    rfl

end Token

theorem quoted_derives (s : String) : Quoted (quoted s) (.ok s) := by
  obtain ⟨ps, hps, hs⟩ := exists_pieces s.toList
  have h := Quoted.pieces hps
  rw [hs, Except.map, String.ofList_toList] at h
  exact h

namespace Token

theorem head?_toDigits (hn : n ≠ 0) : (Nat.toDigits 10 n).head? ≠ some '0' := by
  induction n using Nat.strongRecOn with
  | ind n ih =>
    rcases Nat.lt_or_ge n 10 with hlt | hge
    · rw [Nat.toDigits_of_lt_base hlt]
      intro hx
      exact hn (Nat.digitChar_eq_zero.1 (Option.some.inj hx))
    · have hdiv : n / 10 ≠ 0 := by omega
      have hhead := ih (n / 10) (by omega) hdiv
      rw [Nat.toDigits_of_base_le (by decide) hge,
        List.head?_append_of_ne_nil _ Nat.toDigits_ne_nil]
      exact hhead

/-- The parts of a whole number. -/
def Numeral.ofInt (n : Int) : Numeral := ⟨n < 0, Nat.toDigits 10 n.natAbs, none, none⟩

theorem whole_toDigits (n : Nat) : Whole (Nat.toDigits 10 n) := by
  refine ⟨⟨Nat.toDigits_ne_nil, fun c hc => ?_⟩, fun c r hx => ?_⟩
  · exact Nat.isDigit_of_mem_toDigits (by decide) (by decide) hc
  · rcases Nat.eq_zero_or_pos n with rfl | hpos
    · cases hx
    · exact head?_toDigits (Nat.ne_of_gt hpos) (congrArg List.head? hx)

theorem numeral_eq (n : Int) : numeral n = sign (n < 0) ++ Nat.toDigits 10 n.natAbs := by
  cases n with
  | ofNat n =>
    have hneg : decide (Int.ofNat n < 0) = false :=
      decide_eq_false (Int.not_lt.2 (Int.natCast_nonneg n))
    rw [hneg]
    exact Nat.toList_repr
  | negSucc n =>
    have hneg : decide (Int.negSucc n < 0) = true := decide_eq_true (Int.negSucc_lt_zero n)
    rw [hneg]
    change ("-" ++ Nat.repr (n + 1)).toList = _
    rw [String.toList_append, Nat.toList_repr]
    rfl

theorem numeral_derives (n : Int) : Grammar.Number (numeral n) (Numeral.ofInt n) := by
  have h : Grammar.Number _ (Numeral.ofInt n) :=
    .parts (whole_toDigits n.natAbs) .none .none
  rwa [List.append_nil, List.append_nil, ← numeral_eq] at h

theorem le_foldl (s : Nat) (ds : List Nat) : s ≤ ds.foldl (fun n d => 10 * n + d) s := by
  induction ds generalizing s with
  | nil => exact Nat.le_refl s
  | cons d ds ih =>
    have := ih (10 * s + d)
    simp only [List.foldl_cons]
    omega

theorem fill_eq (s : Nat) (ds : List Nat) (h : ds.foldl (fun n d => 10 * n + d) s < UInt64.size) :
    fill s ds = (ds.foldl (fun n d => 10 * n + d) s, ds.length, 0) := by
  induction ds generalizing s with
  | nil => rfl
  | cons d ds ih =>
    simp only [List.foldl_cons] at h ⊢
    have hle := le_foldl (10 * s + d) ds
    have hs : s * 10 + d < UInt64.size := by omega
    rw [fill, if_pos hs, Nat.mul_comm s, ih _ h]
    rfl

theorem fill_toDigits (hn : n < UInt64.size) :
    fill 0 (digitsOf (Nat.toDigits 10 n)) = (n, (Nat.toDigits 10 n).length, 0) := by
  have hv : (digitsOf (Nat.toDigits 10 n)).foldl (fun n d => 10 * n + d) 0 = n := by
    rw [digitsOf, List.foldl_map, ← Nat.ofDigitChars_eq_foldl]
    exact Nat.ofDigitChars_ten_toDigits
  rw [fill_eq 0 _ (by rwa [hv]), hv, digitsOf, List.length_map]

/-- Whole numbers of 64 bits, signed or not, are read exactly. -/
theorem value_ofInt {n : Int} (hlow : Int64.minValue.toInt ≤ n) (hhigh : n < UInt64.size) :
    (Numeral.ofInt n).value =
      .ok (if n < 0 then .negative n.natAbs else .natural n.natAbs) := by
  have hmin : Int64.minValue.toInt = -0x8000000000000000 := rfl
  have hsize : n.natAbs < UInt64.size := by
    change n < 0x10000000000000000 at hhigh
    change n.natAbs < 0x10000000000000000
    omega
  by_cases hn : n < 0
  · have hrange : ¬ (n.natAbs = 0 ∨ 0x8000000000000000 < n.natAbs) := by omega
    rw [Numeral.ofInt, Numeral.value, fill_toDigits hsize]
    simp only [hn, hrange]
    rfl
  · rw [Numeral.ofInt, Numeral.value, fill_toDigits hsize]
    simp only [hn]
    rfl

end Token

mutual

/-- What a value is read as once it is written. -/
def reading : Json → Reading
  | null => .null
  | bool b => .bool b
  | number n => .number (Numeral.ofInt n).value
  | string s => .string (.ok s)
  | array items => .array (readings items) .closed
  | object members => .object (memberReadings members) .closed

def readings : List Json → List Reading
  | [] => []
  | j :: r => j.reading :: readings r

def memberReadings : List (String × Json) → List (Key × Reading)
  | [] => []
  | (k, j) :: r => (.text k, j.reading) :: memberReadings r

end

/-- The members that an object has. -/
def keys : Json → List String
  | object members => members.map (·.1)
  | _ => []

/-- A layout puts nothing but gaps between tokens. -/
structure Layout.Blank (l : Layout) : Prop where
  newline : ∀ depth, ∀ c ∈ l.newline depth, isGap c = true
  gap : ∀ c ∈ l.gap, isGap c = true

theorem blank_line : Layout.line.Blank := ⟨nofun, nofun⟩

theorem blank_pretty : Layout.pretty.Blank := by
  constructor
  · intro depth c hc
    rcases List.mem_cons.1 hc with rfl | hc
    · rfl
    · obtain rfl := List.eq_of_mem_replicate hc
      rfl
  · intro c hc
    obtain rfl := List.mem_singleton.1 hc
    rfl

theorem gaps_nil : Gaps [] := nofun

/-- A value with gaps before it only. -/
theorem Grammar.Element.behind {gs cs : List Char} {r : Reading} (hg : Gaps gs)
    (h : Value cs r) : Element (gs ++ cs) r := by
  simpa only [List.append_nil] using Element.value hg h gaps_nil

theorem member_derives {gs cs : List Char} {r : Reading} (hg : Gaps gs) (k : String)
    (h : Element cs r) : Member (gs ++ (quoted k ++ ':' :: cs)) (.text k, r) :=
  .pair hg (quoted_derives k) gaps_nil h
mutual

theorem chars_derives {l : Layout} (hl : l.Blank) : ∀ (j : Json) (d : Nat),
    Value (j.chars l d) j.reading
  | .null, _ => .null
  | .bool true, _ => .true
  | .bool false, _ => .false
  | .number n, _ => .number (numeral_derives n)
  | .string s, _ => .string (quoted_derives s)
  | .array [], _ => .emptyArray gaps_nil
  | .array (j :: js), d => by
    have h := Value.array (itemChars_derives hl (j :: js) (d + 1) (l.newline (d + 1)) (l.newline d)
      (List.cons_ne_nil _ _) (hl.newline _) (hl.newline _))
    simpa only [chars, reading, Layout.enclose, List.cons_append, List.append_assoc] using h
  | .object [], _ => .emptyObject gaps_nil
  | .object (m :: ms), d => by
    have h := Value.object (memberChars_derives hl (m :: ms) (d + 1) (l.newline (d + 1))
      (l.newline d) (List.cons_ne_nil _ _) (hl.newline _) (hl.newline _))
    simpa only [chars, reading, Layout.enclose, List.cons_append, List.append_assoc] using h

theorem itemChars_derives {l : Layout} (hl : l.Blank) : ∀ (js : List Json) (d : Nat)
    (gs gs' : List Char), js ≠ [] → Gaps gs → Gaps gs' →
      Elements (gs ++ (itemChars l d js ++ gs')) (readings js)
  | [], _, _, _, hn, _, _ => (hn rfl).elim
  | [j], d, gs, gs', _, hg, hg' => .last (.value hg (chars_derives hl j d) hg')
  | j :: j' :: js, d, gs, gs', _, hg, hg' => by
    have h := Elements.more (.behind hg (chars_derives hl j d))
      (itemChars_derives hl (j' :: js) d (l.newline d) gs' (List.cons_ne_nil _ _) (hl.newline d)
        hg')
    simpa only [itemChars, readings, List.cons_append, List.append_assoc] using h

theorem memberChars_derives {l : Layout} (hl : l.Blank) : ∀ (ms : List (String × Json)) (d : Nat)
    (gs gs' : List Char), ms ≠ [] → Gaps gs → Gaps gs' →
      Members (gs ++ (memberChars l d ms ++ gs')) (memberReadings ms)
  | [], _, _, _, hn, _, _ => (hn rfl).elim
  | [(k, j)], d, gs, gs', _, hg, hg' => by
    have h := Members.last (member_derives hg k (.value hl.gap (chars_derives hl j d) hg'))
    simpa only [memberChars, memberReadings, List.cons_append, List.append_assoc] using h
  | (k, j) :: m :: ms, d, gs, gs', _, hg, hg' => by
    have h := Members.more (member_derives hg k (.behind hl.gap (chars_derives hl j d)))
      (memberChars_derives hl (m :: ms) d (l.newline d) gs' (List.cons_ne_nil _ _) (hl.newline d)
        hg')
    simpa only [memberChars, memberReadings, List.cons_append, List.append_assoc] using h

end

/-- A written value is a text of the grammar. -/
theorem text_chars {l : Layout} (hl : l.Blank) (j : Json) :
    Text (String.ofList (j.chars l 0)) j.reading := by
  have h := Element.behind gaps_nil (chars_derives hl j 0)
  rwa [Text, String.toList_ofList]

theorem skip_reading (j : Json) : j.reading.skip = .ok () :=
  Reading.skip_value (chars_derives blank_line j 0)

end ScatterGather.Json
