import Mathlib.Algebra.Order.Ring.Int
import ScatterGather.Samples

/-! The times of samples: no 64-bit operation behind them overflows, and they lie in their range. -/
namespace ScatterGather

section Parts

variable {d n i : Int}

/-- Fewer than `n` steps of an `n`-th part go no further than the whole, and short of its end. -/
theorem tdiv_mul_of_nonneg (hd : 0 ≤ d) (hi : 0 ≤ i) (hn : i < n) :
    0 ≤ d.tdiv n * i ∧ d.tdiv n * i ≤ d ∧ (0 < d → d.tdiv n * i < d) := by
  have hq : 0 ≤ d.tdiv n := Int.tdiv_nonneg hd (by omega)
  have hwhole : n * d.tdiv n ≤ d := Int.mul_tdiv_self_le hd
  have hpart : d.tdiv n * i ≤ d.tdiv n * (n - 1) := Int.mul_le_mul_of_nonneg_left (by omega) hq
  rw [Int.mul_sub, Int.mul_one, Int.mul_comm _ n] at hpart
  refine ⟨Int.mul_nonneg hq hi, by omega, fun hpos => ?_⟩
  rcases Int.lt_or_eq_of_le hq with hq | hq
  · omega
  · rwa [← hq, Int.zero_mul]

theorem tdiv_mul_of_nonpos (hd : d ≤ 0) (hi : 0 ≤ i) (hn : i < n) :
    d ≤ d.tdiv n * i ∧ d.tdiv n * i ≤ 0 := by
  obtain ⟨hlow, hhigh, _⟩ := tdiv_mul_of_nonneg (Int.neg_nonneg_of_nonpos hd) hi hn
  rw [Int.neg_tdiv, Int.neg_mul] at hlow hhigh
  omega

end Parts

namespace TimeRange

variable {t : TimeRange}

theorem toInt_duration (t : TimeRange) :
    t.duration.toInt = max (-2 ^ 63) (min (2 ^ 63 - 1) (t.stop.toInt - t.start.toInt)) := by
  rw [duration, Int64.toInt_minValue, Int64.toInt_maxValue]
  exact Int64.toInt_ofInt_of_le (by omega) (by omega)

theorem isValid_iff : t.isValid = true ↔ t.start.toInt < t.stop.toInt := by
  rw [isValid, decide_eq_true_iff, Int64.lt_iff_toInt_lt]

end TimeRange

namespace Samples

variable {s : Samples} {i j : Nat}

/-- The column of times. -/
def timestamps (s : Samples) : List Int64 := (List.range s.points).map s.timestamp

/-- What the duration is divided by. -/
def divisor (s : Samples) : Int64 := Int64.ofNat (max s.points 1)

theorem toInt_divisor (hp : s.points < 2 ^ 63) : s.divisor.toInt = max s.points 1 := by
  rw [divisor, Int64.toInt_ofNat_of_lt (by omega)]

theorem toInt_spacing (hp : s.points < 2 ^ 63) :
    s.spacing.toInt = s.time.duration.toInt.tdiv s.divisor.toInt := by
  refine Int64.toInt_div_of_ne_right _ s.divisor fun hd => ?_
  have hpos := toInt_divisor hp
  have hneg : (-1 : Int64).toInt = -1 := rfl
  rw [hd, hneg] at hpos
  omega

theorem toInt_index (hp : s.points < 2 ^ 63) (hi : i < s.points) : (Int64.ofNat i).toInt = i :=
  Int64.toInt_ofNat_of_lt (by omega)

/-- How far sample `i` is from the start, in exact arithmetic: on the way to the end, and short of
it. -/
theorem spacing_mul (hp : s.points < 2 ^ 63) (hi : i < s.points) :
    (s.time.start.toInt ≤ s.time.stop.toInt → 0 ≤ s.spacing.toInt * i ∧
      s.spacing.toInt * i ≤ s.time.duration.toInt ∧
      (0 < s.time.duration.toInt → s.spacing.toInt * i < s.time.duration.toInt)) ∧
    (s.time.stop.toInt ≤ s.time.start.toInt →
      s.time.duration.toInt ≤ s.spacing.toInt * i ∧ s.spacing.toInt * i ≤ 0) := by
  have hd := s.time.toInt_duration
  have hn : (i : Int) < s.divisor.toInt := by
    rw [toInt_divisor hp]
    omega
  rw [toInt_spacing hp]
  constructor
  · intro hle
    exact tdiv_mul_of_nonneg (by omega) (Int.natCast_nonneg i) hn
  · intro hle
    exact tdiv_mul_of_nonpos (by omega) (Int.natCast_nonneg i) hn

theorem product_fits (hp : s.points < 2 ^ 63) (hi : i < s.points) :
    s.spacing.toBitVec.smulOverflow (Int64.ofNat i).toBitVec = false := by
  obtain ⟨hup, hdown⟩ := spacing_mul hp hi
  have hd := s.time.toInt_duration
  have hsame : s.spacing.toBitVec.toInt * (Int64.ofNat i).toBitVec.toInt = s.spacing.toInt * i :=
    congrArg (s.spacing.toInt * ·) (toInt_index hp hi)
  rw [BitVec.smulOverflow, hsame]
  simp only [Bool.or_eq_false_iff, decide_eq_false_iff_not]
  omega

theorem toInt_product (hp : s.points < 2 ^ 63) (hi : i < s.points) :
    (s.spacing * Int64.ofNat i).toInt = s.spacing.toInt * i := by
  have hm := BitVec.toInt_mul_of_not_smulOverflow (Bool.eq_false_iff.1 (product_fits hp hi))
  exact hm.trans (congrArg (s.spacing.toInt * ·) (toInt_index hp hi))

theorem sum_fits (hp : s.points < 2 ^ 63) (hi : i < s.points) :
    s.time.start.toBitVec.saddOverflow (s.spacing * Int64.ofNat i).toBitVec = false := by
  obtain ⟨hup, hdown⟩ := spacing_mul hp hi
  have hd := s.time.toInt_duration
  have hstart := s.time.start.le_toInt
  have hstart' := s.time.start.toInt_lt
  have hstop := s.time.stop.le_toInt
  have hstop' := s.time.stop.toInt_lt
  have hsame : s.time.start.toBitVec.toInt + (s.spacing * Int64.ofNat i).toBitVec.toInt =
      s.time.start.toInt + s.spacing.toInt * i :=
    congrArg (s.time.start.toInt + ·) (toInt_product hp hi)
  rw [BitVec.saddOverflow, hsame]
  simp only [Bool.or_eq_false_iff, decide_eq_false_iff_not]
  omega

theorem toInt_timestamp (hp : s.points < 2 ^ 63) (hi : i < s.points) :
    (s.timestamp i).toInt = s.time.start.toInt + s.spacing.toInt * i := by
  have ha := BitVec.toInt_add_of_not_saddOverflow (Bool.eq_false_iff.1 (sum_fits hp hi))
  exact ha.trans (congrArg (s.time.start.toInt + ·) (toInt_product hp hi))

/-- Sample `i` between the ends of its range, and before the end if the range is valid. -/
theorem timestamp_between (hp : s.points < 2 ^ 63) (hi : i < s.points) :
    (s.time.start ≤ s.timestamp i ∧ s.timestamp i ≤ s.time.stop ∨
      s.time.stop ≤ s.timestamp i ∧ s.timestamp i ≤ s.time.start) ∧
    (s.time.isValid = true → s.timestamp i < s.time.stop) := by
  obtain ⟨hup, hdown⟩ := spacing_mul hp hi
  have hd := s.time.toInt_duration
  rw [TimeRange.isValid_iff]
  simp only [Int64.le_iff_toInt_le, Int64.lt_iff_toInt_lt, toInt_timestamp hp hi]
  omega

theorem spacing_nonneg (hp : s.points < 2 ^ 63) (hv : s.time.isValid = true) :
    0 ≤ s.spacing.toInt := by
  have hd := s.time.toInt_duration
  have hn := toInt_divisor hp
  rw [TimeRange.isValid_iff] at hv
  rw [toInt_spacing hp]
  exact Int.tdiv_nonneg (by omega) (by omega)

theorem spacing_pos (hp : s.points < 2 ^ 63) (hi : i < s.points)
    (hlong : (s.points : Int) ≤ s.time.duration.toInt) : 0 < s.spacing.toInt := by
  have hn : s.divisor.toInt = s.points := by
    rw [toInt_divisor hp]
    omega
  rw [toInt_spacing hp, hn]
  rw [Int.tdiv_eq_ediv_of_nonneg (by omega)]
  exact (Int.le_ediv_iff_mul_le (by omega)).2 (by omega)

/-- Times are in order as the distances to the start are. -/
theorem timestamp_mono (hp : s.points < 2 ^ 63) (hi : i < s.points) (hj : j < s.points)
    (hij : i < j) : (0 ≤ s.spacing.toInt → s.timestamp i ≤ s.timestamp j) ∧
      (0 < s.spacing.toInt → s.timestamp i < s.timestamp j) := by
  simp only [Int64.le_iff_toInt_le, Int64.lt_iff_toInt_lt, toInt_timestamp hp hi,
    toInt_timestamp hp hj]
  constructor
  · intro hq
    have := Int.mul_le_mul_of_nonneg_left (Int.ofNat_le.2 (Nat.le_of_lt hij)) hq
    omega
  · intro hq
    have := Int.mul_lt_mul_of_pos_left (Int.ofNat_lt.2 hij) hq
    omega

theorem pairwise_timestamps {R : Int64 → Int64 → Prop}
    (h : ∀ i j, j < s.points → i < j → R (s.timestamp i) (s.timestamp j)) :
    s.timestamps.Pairwise R := by
  rw [timestamps, List.pairwise_map]
  refine List.pairwise_lt_range.imp_of_mem ?_
  intro i j _ hj hij
  exact h i j (List.mem_range.1 hj) hij

/-- The column of times of up to 2^63 - 1 samples. The duration is divided by a positive number, and
neither that nor a product or a sum leaves the 64 bits. There is a time for each sample, the first
one is the start, they are evenly spaced, and they lie between start and stop. In a valid range they
do not go down and stop before its end; they go up if the duration has a millisecond for each. -/
theorem timestamps_in_range (s : Samples) (hp : s.points < 2 ^ 63) :
    s.batch.columns.head? = some (s.timestamps.map fun t => .int t.toInt) ∧
      (s.divisor.toInt = max s.points 1 ∧
        s.spacing.toInt = s.time.duration.toInt.tdiv s.divisor.toInt) ∧
      (∀ i < s.points, (Int64.ofNat i).toInt = i ∧
        s.spacing.toBitVec.smulOverflow (Int64.ofNat i).toBitVec = false ∧
        s.time.start.toBitVec.saddOverflow (s.spacing * Int64.ofNat i).toBitVec = false) ∧
      s.timestamps.length = s.points ∧
      (∀ t ∈ s.timestamps.head?, t = s.time.start) ∧
      (∀ (i : Nat) (t : Int64), s.timestamps[i]? = some t →
        t.toInt = s.time.start.toInt + s.spacing.toInt * i) ∧
      (∀ t ∈ s.timestamps, s.time.start ≤ t ∧ t ≤ s.time.stop ∨
        s.time.stop ≤ t ∧ t ≤ s.time.start) ∧
      (s.time.isValid = true → s.timestamps.Pairwise (· ≤ ·) ∧
        (∀ t ∈ s.timestamps, t < s.time.stop) ∧
        ((s.points : Int) ≤ s.time.duration.toInt → s.timestamps.Pairwise (· < ·))) := by
  have hmem : ∀ t ∈ s.timestamps, ∃ i < s.points, s.timestamp i = t := by
    intro t ht
    obtain ⟨i, hi, ht⟩ := List.mem_map.1 ht
    exact ⟨i, List.mem_range.1 hi, ht⟩
  have hget : ∀ (i : Nat) (t : Int64), s.timestamps[i]? = some t →
      t.toInt = s.time.start.toInt + s.spacing.toInt * i := by
    intro i t ht
    obtain ⟨k, hk, rfl⟩ : ∃ k, (List.range s.points)[i]? = some k ∧ s.timestamp k = t := by
      simpa [timestamps] using ht
    obtain ⟨hi, rfl⟩ := List.getElem?_eq_some_iff.1 hk
    rw [List.getElem_range]
    exact toInt_timestamp hp (by simpa using hi)
  refine ⟨by simp [batch, timestamps], ⟨toInt_divisor hp, toInt_spacing hp⟩, ?_,
    by simp [timestamps], ?_, hget, ?_, fun hv => ⟨?_, ?_, ?_⟩⟩
  · intro i hi
    exact ⟨toInt_index hp hi, product_fits hp hi, sum_fits hp hi⟩
  · intro t ht
    have hfirst := hget 0 t (by rwa [← List.head?_eq_getElem?])
    exact Int64.toInt_inj.1 (by simpa using hfirst)
  · intro t ht
    obtain ⟨i, hi, rfl⟩ := hmem t ht
    exact (timestamp_between hp hi).1
  · refine pairwise_timestamps fun i j hj hij => ?_
    exact (timestamp_mono hp (by omega) hj hij).1 (spacing_nonneg hp hv)
  · intro t ht
    obtain ⟨i, hi, rfl⟩ := hmem t ht
    exact (timestamp_between hp hi).2 hv
  · intro hlong
    refine pairwise_timestamps fun i j hj hij => ?_
    exact (timestamp_mono hp (by omega) hj hij).2 (spacing_pos hp hj hlong)

/-- Three samples of the widest range, whose duration does not fit in 64 bits. -/
def widest : Samples := ⟨"cpu", 0, ⟨Int64.minValue, Int64.maxValue⟩, 3⟩

theorem timestamps_in_range_widest :
    widest.timestamps.map Int64.toInt =
        [-9223372036854775808, -6148914691236517206, -3074457345618258604] ∧
      widest.timestamps.Pairwise (· < ·) ∧ ∀ t ∈ widest.timestamps, t < Int64.maxValue := by
  obtain ⟨_, _, _, _, _, _, _, hvalid⟩ := timestamps_in_range widest (by decide)
  obtain ⟨_, hend, hup⟩ := hvalid (by decide)
  exact ⟨by decide, hup (by decide), hend⟩

end Samples
end ScatterGather
