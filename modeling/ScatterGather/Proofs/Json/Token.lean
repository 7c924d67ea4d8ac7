import Mathlib.Data.List.Basic
import ScatterGather.Proofs.Json.Grammar

/-! What the grammar derives as a string or a number is one token, with the value it stands for. -/
namespace ScatterGather.Json

open Grammar

namespace Token

variable {c : Char} {t : Token} {r r' gs cs ds : List Char}

theorem ofChars_gap (hc : isGap c = true) : ofChars (c :: r) = ofChars r := by
  rw [ofChars, if_pos hc]

theorem ofChars_gaps (hg : Gaps gs) : ofChars (gs ++ r) = ofChars r := by
  induction gs with
  | nil => rfl
  | cons c gs ih =>
    obtain ⟨hc, hgs⟩ := List.forall_mem_cons.1 hg
    rw [List.cons_append, ofChars_gap hc, ih hgs]

theorem ofChars_scan (hc : isGap c = false) (hs : scan c r = (t, r')) :
    ofChars (c :: r) = t :: ofChars r' := by
  rw [ofChars, if_neg (Bool.eq_false_iff.1 hc), hs]

/-- Tokens of one character. -/
def mark? (c : Char) : Option Token :=
  if c = '[' then some .openArray
  else if c = ']' then some .closeArray
  else if c = '\x7b' then some .openObject
  else if c = '\x7d' then some .closeObject
  else if c = ',' then some .comma
  else if c = ':' then some .colon
  else none

theorem scan_mark (hc : mark? c = some t) : isGap c = false ∧ scan c r = (t, r) := by
  unfold mark? at hc
  repeat'
    split at hc
    case isTrue h =>
      cases hc
      rw [h]
      exact ⟨rfl, rfl⟩
  cases hc

theorem scanBody_piece {p : Piece} (h : StringPiece cs p) (r : List Char) :
    scanBody (cs ++ r) = (scanBody r).cons p := by
  cases h with
  | plain hquote hslash hlow =>
    rw [List.cons_append, List.nil_append, scanBody.eq_def]
    simp [hquote, hslash, hlow]
  | @letter d c hd =>
    have hu : d ≠ 'u' := by
      rintro rfl
      cases hd
    rw [List.cons_append, List.cons_append, List.nil_append, scanBody.eq_def]
    simp [hu, hd]
  | unit hn =>
    simp only [List.cons_append, List.nil_append]
    rw [scanBody.eq_def]
    simp [hn]

theorem scanBody_pieces {ps : List Piece} (h : Pieces cs ps) (r : List Char) :
    scanBody (cs ++ '"' :: r) = ⟨ps, .closed, r⟩ := by
  induction h with
  | nil =>
    rw [List.nil_append, scanBody.eq_def]
    rfl
  | cons hp hr ih =>
    rw [List.append_assoc, scanBody_piece hp, ih]
    rfl

theorem ofChars_quoted {s : Except Error String} (h : Quoted cs s) (r : List Char) :
    ofChars (cs ++ r) = .string s :: ofChars r := by
  cases h with
  | @pieces cs ps h =>
    have ht : scanString (cs ++ '"' :: r) =
        (.string ((spell .closed ps).map String.ofList), r) := by
      rw [scanString, scanBody_pieces h]
      rfl
    rw [List.cons_append, List.append_assoc]
    exact ofChars_scan rfl ht

/-- Nothing here would go on with a run of digits. -/
def DigitFree (r : List Char) : Prop := ∀ c, r.head? = some c → c.isDigit = false

/-- Nothing here would go on with a number. -/
def Delimited (r : List Char) : Prop :=
  ∀ c, r.head? = some c → c.isDigit = false ∧ c ≠ '.' ∧ c ≠ 'e' ∧ c ≠ 'E'

theorem delimited_nil : Delimited [] := nofun

theorem delimited_cons (hd : c.isDigit = false) (hc : c ∉ ['.', 'e', 'E']) :
    Delimited (c :: r) := by
  intro c' hc'
  obtain rfl := Option.some.inj hc'
  simpa [hd] using hc

theorem delimited_gaps (hg : Gaps gs) (hr : Delimited r) : Delimited (gs ++ r) := by
  cases gs with
  | nil => exact hr
  | cons c gs =>
    have hc := hg c List.mem_cons_self
    simp only [isGap, Bool.or_eq_true, decide_eq_true_eq] at hc
    rcases hc with ((rfl | rfl) | rfl) | rfl <;> exact delimited_cons rfl (by decide)

theorem Delimited.digitFree (hr : Delimited r) : DigitFree r := fun c hc => (hr c hc).1

theorem digitFree_cons (hc : c.isDigit = false) : DigitFree (c :: r) := by
  intro c' hc'
  obtain rfl := Option.some.inj hc'
  exact hc

theorem spanDigits_append (hd : Digits ds) (hr : DigitFree r) : spanDigits (ds ++ r) = (ds, r) := by
  have htail : r.takeWhile Char.isDigit = [] ∧ r.dropWhile Char.isDigit = r := by
    cases r with
    | nil => exact ⟨rfl, rfl⟩
    | cons c r =>
      have hc := hr c rfl
      simp [hc]
  rw [spanDigits, List.takeWhile_append_of_pos hd.2, List.dropWhile_append_of_pos hd.2, htail.1,
    htail.2, List.append_nil]

theorem exists_digit (hd : Digits ds) : ∃ c r, ds = c :: r ∧ c.isDigit = true := by
  obtain ⟨hne, hall⟩ := hd
  obtain ⟨c, r, rfl⟩ := List.exists_cons_of_ne_nil hne
  exact ⟨c, r, rfl, hall c List.mem_cons_self⟩

theorem ne_of_isDigit {c' : Char} (hc : c.isDigit = true) (hc' : c'.isDigit = false) : c ≠ c' := by
  rintro rfl
  simp [hc] at hc'

theorem isEmpty_digits (hd : Digits ds) : ds.isEmpty = false := by
  obtain ⟨c, r, rfl, _⟩ := exists_digit hd
  rfl

theorem scanExponent_delimited {n : Numeral} (hr : Delimited r) :
    scanExponent n r = (.number n.value, r) := by
  cases r with
  | nil => rfl
  | cons c r =>
    obtain ⟨_, _, he, hE⟩ := hr c rfl
    simp [scanExponent, he, hE]

theorem scanExponent_exponent {negative : Bool} {whole es : List Char} {f : Option (List Char)}
    {e : Option (Bool × List Char)} (he : Exponent es e) (hr : Delimited r) :
    scanExponent ⟨negative, whole, f, none⟩ (es ++ r) =
      (.number (Numeral.value ⟨negative, whole, f, e⟩), r) := by
  cases he with
  | none => exact scanExponent_delimited hr
  | @bare m ds hm hd =>
    obtain ⟨c, ds', hds, hc⟩ := exists_digit hd
    have hplus : c ≠ '+' := ne_of_isDigit hc rfl
    have hminus : c ≠ '-' := ne_of_isDigit hc rfl
    have hspan := spanDigits_append hd hr.digitFree
    subst hds
    rw [List.cons_append] at hspan
    simp [scanExponent, hm, hplus, hminus, hspan]
  | plus hm hd | minus hm hd =>
    simp [scanExponent, hm, spanDigits_append hd hr.digitFree, isEmpty_digits hd]

/-- Behind the digits before it, an exponent goes on with no digit and no point. -/
theorem head_exponent {es : List Char} {e : Option (Bool × List Char)} (he : Exponent es e)
    (hr : Delimited r) (hc : (es ++ r).head? = some c) : c.isDigit = false ∧ c ≠ '.' := by
  have hmark (hm : c = 'e' ∨ c = 'E') : c.isDigit = false ∧ c ≠ '.' := by
    rcases hm with rfl | rfl <;> decide
  cases he with
  | none =>
    obtain ⟨hdigit, hdot, _⟩ := hr c hc
    exact ⟨hdigit, hdot⟩
  | bare hm _ | plus hm _ | minus hm _ =>
    cases hc
    exact hmark hm

theorem scanFraction_fraction {negative : Bool} {whole fs es : List Char}
    {f : Option (List Char)} {e : Option (Bool × List Char)} (hf : Fraction fs f)
    (he : Exponent es e) (hr : Delimited r) :
    scanFraction ⟨negative, whole, none, none⟩ (fs ++ (es ++ r)) =
      (.number (Numeral.value ⟨negative, whole, f, e⟩), r) := by
  cases hf with
  | none =>
    have hdot (r' : List Char) : es ++ r ≠ '.' :: r' := by
      intro hx
      exact (head_exponent he hr (congrArg List.head? hx)).2 rfl
    rw [List.nil_append, scanFraction]
    · exact scanExponent_exponent he hr
    · exact hdot
  | digits hd =>
    have hfree : DigitFree (es ++ r) := fun c hc => (head_exponent he hr hc).1
    simp [scanFraction, spanDigits_append hd hfree, isEmpty_digits hd, scanExponent_exponent he hr]

theorem scanNumber_number (negative : Bool) {fs es : List Char} {f : Option (List Char)}
    {e : Option (Bool × List Char)} (hd : Whole ds) (hf : Fraction fs f) (he : Exponent es e)
    (hr : Delimited r) :
    scanNumber negative (ds ++ (fs ++ (es ++ r))) =
      (.number (Numeral.value ⟨negative, ds, f, e⟩), r) := by
  have hfree : DigitFree (fs ++ (es ++ r)) := by
    cases hf with
    | none => exact fun c hc => (head_exponent he hr hc).1
    | digits _ => exact digitFree_cons rfl
  obtain ⟨hd, hzero⟩ := hd
  rw [scanNumber, spanDigits_append hd hfree]
  dsimp only
  split
  · exact (hd.1 rfl).elim
  · exact (hzero _ _ rfl).elim
  · exact scanFraction_fraction hf he hr

theorem scan_digit (hc : c.isDigit = true) : scan c r = scanNumber false (c :: r) := by
  have hne (c' : Char) (hc' : c'.isDigit = false) : c ≠ c' := ne_of_isDigit hc hc'
  unfold scan
  iterate 11 rw [if_neg (hne _ rfl)]
  rw [if_pos hc]

theorem isGap_digit (hc : c.isDigit = true) : isGap c = false := by
  by_contra hg
  simp only [isGap, Bool.not_eq_false, Bool.or_eq_true, decide_eq_true_eq] at hg
  rcases hg with ((rfl | rfl) | rfl) | rfl <;> cases hc

theorem ofChars_number {n : Numeral} (h : Grammar.Number cs n) (hr : Delimited r) :
    ofChars (cs ++ r) = .number n.value :: ofChars r := by
  cases h with
  | @parts negative ds fs es f e hd hf he =>
    have hs := scanNumber_number negative hd hf he hr
    simp only [List.append_assoc]
    cases negative with
    | true =>
      have hscan : scan '-' (ds ++ (fs ++ (es ++ r))) = _ := hs
      exact ofChars_scan rfl hscan
    | false =>
      obtain ⟨c, ds', rfl, hc⟩ := exists_digit hd.1
      rw [List.cons_append] at hs
      exact ofChars_scan (isGap_digit hc) ((scan_digit hc).trans hs)

end Token
end ScatterGather.Json
