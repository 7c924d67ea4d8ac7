import Mathlib.Algebra.Group.Nat.Defs
import Mathlib.Data.List.Basic
import ScatterGather.Uuid

/-! An identifier is read back from its hyphenated form. -/
namespace ScatterGather.Uuid

variable {n k : Nat} {ds : List Nat}

theorem digitValue?_digitChar (hn : n < 16) : digitValue? (Nat.digitChar n) = some n := by
  revert n
  decide

theorem utf8Size_digitChar (hn : n < 16) : (Nat.digitChar n).utf8Size = 1 := by
  revert n
  decide

theorem mapM_digitValue? (h : ∀ d ∈ ds, d < 16) :
    (ds.map Nat.digitChar).mapM digitValue? = some ds := by
  induction ds with
  | nil => rfl
  | cons d ds ih =>
    obtain ⟨hd, hds⟩ := List.forall_mem_cons.1 h
    rw [List.map_cons, List.mapM_cons, digitValue?_digitChar hd, ih hds]
    rfl

/-- The digits of a number, read from the front, are the number again, up to what they can hold. -/
theorem foldl_digits (k n : Nat) :
    ((List.range k).map fun i => n / 16 ^ (k - 1 - i) % 16).foldl (fun n d => 16 * n + d) 0 =
      n % 16 ^ k := by
  induction k generalizing n with
  | zero => simp [Nat.mod_one]
  | succ k ih =>
    have hfront : (List.range k).map (fun i => n / 16 ^ (k - i) % 16) =
        (List.range k).map fun i => n / 16 / 16 ^ (k - 1 - i) % 16 := by
      refine List.map_congr_left ?_
      intro i hi
      have hlt := List.mem_range.1 hi
      have hk : k - i = (k - 1 - i) + 1 := by omega
      rw [hk, Nat.pow_succ', Nat.div_div_eq_div_mul]
    rw [List.range_succ, List.map_append, List.foldl_append, Nat.add_sub_cancel, hfront, ih]
    simp only [List.map_cons, List.map_nil, List.foldl_cons, List.foldl_nil, Nat.sub_self,
      Nat.pow_zero, Nat.div_one]
    rw [Nat.pow_succ', Nat.mod_mul]
    omega

theorem length_digits (u : Uuid) : u.digits.length = 32 := by simp [digits]

theorem digits_lt (u : Uuid) : ∀ d ∈ u.digits, d < 16 := by
  intro d hd
  obtain ⟨i, _, rfl⟩ := List.mem_map.1 hd
  exact Nat.mod_lt _ (by decide)

theorem ofDigits_digits (u : Uuid) : ofDigits u.digits = u := by
  have hf := foldl_digits 32 u.bits.toNat
  have hd : u.digits = (List.range 32).map fun i => u.bits.toNat / 16 ^ (32 - 1 - i) % 16 := by
    refine List.map_congr_left ?_
    intro i _
    rw [Nat.shiftRight_eq_div_pow, Nat.pow_mul]
  rw [ofDigits, hd, hf, Nat.mod_eq_of_lt]
  · rw [ofNat, BitVec.ofNat_toNat, BitVec.setWidth_eq]
  · exact u.bits.isLt

theorem ofSimple?_digits (u : Uuid) : ofSimple? (u.digits.map Nat.digitChar) = some u := by
  rw [ofSimple?, if_pos (by simp [length_digits]), mapM_digitValue? u.digits_lt, Option.map_some,
    ofDigits_digits]

/-- Five groups with hyphens between them are taken for their digits. -/
theorem ofHyphenated?_groups {a b c d e : List Char} (ha : a.length = 8) (hb : b.length = 4)
    (hc : c.length = 4) (hd : d.length = 4) (he : e.length = 12) :
    ofHyphenated? (a ++ '-' :: b ++ '-' :: c ++ '-' :: d ++ '-' :: e) =
      ofSimple? (a ++ b ++ c ++ d ++ e) := by
  rw [ofHyphenated?, if_pos]
  · simp [List.drop_append, List.drop_eq_nil_of_le, ha, hb, hc, hd]
  · simp [List.getElem?_append, ha, hb, hc, hd, he]

theorem byteCount_groups (a b c d e : List Char) :
    byteCount (a ++ '-' :: b ++ '-' :: c ++ '-' :: d ++ '-' :: e) =
      byteCount (a ++ b ++ c ++ d ++ e) + 4 := by
  have hyphen : Char.utf8Size '-' = 1 := rfl
  simp only [byteCount, List.map_append, List.map_cons, List.sum_append_nat, List.sum_cons, hyphen]
  omega

theorem form_of_byteCount {cs : List Char} (h : byteCount cs = 36) :
    Form.of cs = .hyphenated cs := by
  rw [Form.of, h]
  rfl

theorem byteCount_digits {ds : List Nat} (h : ∀ d ∈ ds, d < 16) :
    byteCount (ds.map Nat.digitChar) = ds.length := by
  induction ds with
  | nil => rfl
  | cons d ds ih =>
    obtain ⟨hd, hds⟩ := List.forall_mem_cons.1 h
    have hs := ih hds
    rw [byteCount] at hs ⊢
    rw [List.map_cons, List.map_cons, List.sum_cons, utf8Size_digitChar hd, hs,
      List.length_cons, Nat.add_comm]

theorem append_groups {α : Type} (l : List α) :
    l.take 8 ++ (l.drop 8).take 4 ++ (l.drop 12).take 4 ++ (l.drop 16).take 4 ++ l.drop 20 = l := by
  have h (n : Nat) : (l.drop n).take 4 ++ l.drop (n + 4) = l.drop n := by
    rw [← List.drop_drop, List.take_append_drop]
  rw [List.append_assoc, h 16, List.append_assoc, h 12, List.append_assoc, h 8,
    List.take_append_drop]

theorem ofChars_hyphenated (u : Uuid) : ofChars u.hyphenatedChars = .ok u := by
  have hlen : (u.digits.map Nat.digitChar).length = 32 := by simp [length_digits]
  have hbytes : byteCount (u.digits.map Nat.digitChar) = 32 := by
    rw [byteCount_digits u.digits_lt, length_digits]
  have hread := ofSimple?_digits u
  rw [ofChars, hyphenatedChars]
  generalize u.digits.map Nat.digitChar = ds at hlen hbytes hread ⊢
  have hsize : byteCount (ds.take 8 ++ '-' :: (ds.drop 8).take 4 ++ '-' :: (ds.drop 12).take 4 ++
      '-' :: (ds.drop 16).take 4 ++ '-' :: ds.drop 20) = 36 := by
    rw [byteCount_groups, append_groups, hbytes]
  simp only [form_of_byteCount hsize]
  rw [ofHyphenated?_groups (by simp [hlen]) (by simp [hlen]) (by simp [hlen]) (by simp [hlen])
    (by simp [hlen]), append_groups, hread]

end ScatterGather.Uuid
