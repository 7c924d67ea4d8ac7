import Mathlib.Algebra.Group.Nat.Defs

/-! The order of texts by their characters is that of their bytes in UTF-8. -/
namespace ScatterGather.Text

/-- The bytes in UTF-8. -/
def bytes (s : String) : List UInt8 := s.toUTF8.data.toList

theorem bytes_eq (s : String) : bytes s = s.toList.flatMap String.utf8EncodeChar := by
  conv => lhs; rw [← String.ofList_toList (s := s)]
  exact List.toList_data_toByteArray

/-- The last `k` digits of `n` to the base 64, one in each byte. -/
def trail : Nat → Nat → List UInt8
  | 0, _ => []
  | k + 1, n => UInt8.ofNat (n / 64 ^ k % 64 + 128) :: trail k n

/-- A character of number `n` has `k` bytes behind the first one, which is marked with `mark`. -/
inductive Led : Nat → Nat → Nat → Prop
  | alone {n} (h : n < 0x80) : Led n 0 0
  | two {n} (h : 0x80 ≤ n) (h' : n < 0x800) : Led n 1 0xc0
  | three {n} (h : 0x800 ≤ n) (h' : n < 0x10000) : Led n 2 0xe0
  | four {n} (h : 0x10000 ≤ n) (h' : n < 0x110000) : Led n 3 0xf0

variable {k mark k' mark' m n : Nat} {c d : Char} {s t : String}

theorem exists_led (c : Char) : ∃ k mark, Led c.val.toNat k mark ∧ String.utf8EncodeChar c =
    UInt8.ofNat (c.val.toNat / 64 ^ k + mark) :: trail k c.val.toNat := by
  have hc : c.val.toNat < 0x110000 := by
    rcases c.valid with h | ⟨_, h⟩
    · exact Nat.lt_trans h (by decide)
    · exact h
  generalize hn : c.val.toNat = n at hc
  fun_cases String.utf8EncodeChar c with
  | case1 v h => exact ⟨0, 0, .alone (by omega), by simp [trail, v, hn]⟩
  | case2 v h h' =>
    have hlead : n / 64 < 0x20 := by omega
    exact ⟨1, 0xc0, .two (by omega) (by omega), by simp [trail, v, hn, Nat.mod_eq_of_lt hlead]⟩
  | case3 v h h' h'' =>
    have hlead : n / 4096 < 0x10 := by omega
    exact ⟨2, 0xe0, .three (by omega) (by omega), by simp [trail, v, hn, Nat.mod_eq_of_lt hlead]⟩
  | case4 v h h' h'' =>
    have hlead : n / 262144 < 0x08 := by omega
    exact ⟨3, 0xf0, .four (by omega) (by omega), by simp [trail, v, hn, Nat.mod_eq_of_lt hlead]⟩

theorem ofNat_lt (h : m < n) (hn : n < 256) : UInt8.ofNat m < UInt8.ofNat n := by
  rw [UInt8.lt_iff_toNat_lt, UInt8.toNat_ofNat', UInt8.toNat_ofNat']
  omega

theorem trail_lt (h : m % 64 ^ k < n % 64 ^ k) (l r : List UInt8) :
    trail k m ++ l < trail k n ++ r := by
  induction k with
  | zero => simp [Nat.mod_one] at h
  | succ k ih =>
    have hpos : 0 < 64 ^ k := Nat.pow_pos (by decide)
    have hm := Nat.mod_lt m hpos
    have hn := Nat.mod_lt n hpos
    rw [Nat.pow_succ, Nat.mod_mul, Nat.mod_mul] at h
    have hle : m / 64 ^ k % 64 ≤ n / 64 ^ k % 64 := by
      refine Nat.le_of_not_lt fun hlt => ?_
      have := Nat.mul_le_mul_left (64 ^ k) hlt
      rw [Nat.mul_succ] at this
      omega
    simp only [trail, List.cons_append, List.cons_lt_cons_iff]
    rcases Nat.lt_or_eq_of_le hle with hlt | heq
    · exact .inl (ofNat_lt (by omega) (by omega))
    · rw [heq] at h ⊢
      exact .inr ⟨rfl, ih (by omega)⟩

theorem led_lt_256 (h : Led n k mark) : n / 64 ^ k + mark < 256 := by
  cases h <;> simp only [Nat.reducePow] <;> omega

/-- The first bytes decide, or else the digits behind them. -/
theorem led_lt (hm : Led m k mark) (hn : Led n k' mark') (h : m < n) :
    m / 64 ^ k + mark < n / 64 ^ k' + mark' ∨
      k = k' ∧ m / 64 ^ k + mark = n / 64 ^ k' + mark' ∧ m % 64 ^ k < n % 64 ^ k := by
  cases hm <;> cases hn <;> simp only [Nat.reducePow, true_and] <;> omega

theorem encode_lt (h : c < d) (l r : List UInt8) :
    String.utf8EncodeChar c ++ l < String.utf8EncodeChar d ++ r := by
  obtain ⟨k, mark, hc, hx⟩ := exists_led c
  obtain ⟨k', mark', hd, hy⟩ := exists_led d
  rw [hx, hy, List.cons_append, List.cons_append, List.cons_lt_cons_iff]
  rcases led_lt hc hd h with hlt | ⟨rfl, heq, hlt⟩
  · exact .inl (ofNat_lt hlt (led_lt_256 hd))
  · exact .inr ⟨by rw [heq], trail_lt hlt l r⟩

theorem flatMap_encode_lt {cs ds : List Char} (h : cs < ds) :
    cs.flatMap String.utf8EncodeChar < ds.flatMap String.utf8EncodeChar := by
  induction h with
  | @nil d ds =>
    rw [List.flatMap_nil, List.flatMap_cons]
    obtain ⟨k, mark, _, hx⟩ := exists_led d
    rw [hx, List.cons_append]
    exact List.nil_lt_cons ..
  | rel h => exact encode_lt h ..
  | cons _ ih => exact List.append_left_lt ih

theorem bytes_lt_iff : bytes s < bytes t ↔ s < t := by
  have hmono {s t : String} (h : s < t) : bytes s < bytes t := by
    rw [bytes_eq, bytes_eq]
    exact flatMap_encode_lt (String.lt_iff.1 h)
  refine ⟨fun h => ?_, hmono⟩
  rw [← String.not_le]
  intro hle
  by_cases hgt : t < s
  · exact List.lt_asymm h (hmono hgt)
  · obtain rfl : s = t := String.le_antisymm (String.not_lt.1 hgt) hle
    exact List.lt_irrefl _ h

end ScatterGather.Text
