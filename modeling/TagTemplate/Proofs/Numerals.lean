import Mathlib
import TagTemplate.Proofs.NumberTexts

/-! Numbers are read back from what is written for them. A decimal is written as a numeral for
its value, so the text of a double, and that of an integer, names the number it was made from. -/

namespace TagTemplate

namespace Decimal

theorem digitsValue_append_zeros (n k : Nat) :
    digitsValue (Nat.toDigits 10 n ++ List.replicate k '0') = n * 10 ^ k := by
  rw [digitsValue, Nat.ofDigitChars_append, Nat.ofDigitChars_ten_toDigits,
    Nat.ofDigitChars_replicate_zero, Nat.mul_comm]

theorem digitsValue_zeros_append (n k : Nat) :
    digitsValue (List.replicate k '0' ++ Nat.toDigits 10 n) = n := by
  rw [digitsValue, Nat.ofDigitChars_append, Nat.ofDigitChars_replicate_zero, Nat.mul_zero,
    Nat.ofDigitChars_ten_toDigits]

/-- A text with a minus sign in front, if there is one. -/
def signed (negative : Bool) (cs : List Char) : List Char :=
  if negative then '-' :: cs else cs

@[simp] theorem signed_false (cs : List Char) : signed false cs = cs := rfl

@[simp] theorem signed_true (cs : List Char) : signed true cs = '-' :: cs := rfl

theorem digits_toDigits (n : Nat) : Digits (Nat.toDigits 10 n) :=
  fun _ hc => Nat.isDigit_of_mem_toDigits (by decide) (by decide) hc

theorem digits_zeros (k : Nat) : Digits (List.replicate k '0') := by
  intro c hc
  rw [List.eq_of_mem_replicate hc]
  decide

theorem positional_of_nonneg (n : Nat) {e : Int} (h : 0 ≤ e) :
    positional n e = Nat.toDigits 10 n ++ List.replicate e.toNat '0' := by
  have hplaces : (-e).toNat = 0 := by omega
  simp [positional, hplaces]

theorem positional_of_neg (n : Nat) {e : Int} (h : e < 0) : ∃ ds fs k,
    positional n e = ds ++ '.' :: fs ∧ ds ≠ [] ∧ (fs.length : Int) = -e ∧
      ds ++ fs = List.replicate k '0' ++ Nat.toDigits 10 n := by
  have hplaces : (-e).toNat ≠ 0 := by omega
  let k := (-e).toNat + 1 - (Nat.toDigits 10 n).length
  let ds := List.replicate k '0' ++ Nat.toDigits 10 n
  have hlen : (-e).toNat + 1 ≤ ds.length := by
    simp only [ds, k, List.length_append, List.length_replicate]
    omega
  refine ⟨ds.take (ds.length - (-e).toNat), ds.drop (ds.length - (-e).toNat), k, ?_, ?_, ?_,
    List.take_append_drop _ _⟩
  · simp [positional, hplaces, ds, k]
  · intro hnil
    have htake := congrArg List.length hnil
    rw [List.length_take, List.length_nil] at htake
    omega
  · rw [List.length_drop]
    omega

theorem numeral_signed {cs whole fractional : List Char} (negative : Bool)
    (hm : MantissaText cs whole fractional) : Numeral (signed negative cs) negative
      (digitsValue (whole ++ fractional) * 10 ^ (-fractional.length : Int)) := by
  have hvalue := magnitude_mk negative whole fractional 0
  rw [magnitude, ofDigits_eq, zero_sub] at hvalue
  rw [hvalue]
  cases negative with
  | false => simpa using Numeral.spelled .absent hm .absent
  | true => simpa using Numeral.spelled .minus hm .absent

/-- What is written for a decimal is a numeral for its value. -/
theorem numeral_positional (negative : Bool) (n : Nat) (e : Int) :
    Numeral (signed negative (positional n e)) negative (n * 10 ^ e) := by
  by_cases h : 0 ≤ e
  · have hd : Digits (positional n e) := by
      rw [positional_of_nonneg n h]
      exact fun c hc => (List.mem_append.mp hc).elim (digits_toDigits n c) (digits_zeros _ c)
    have hne : positional n e ≠ [] := by
      rw [positional_of_nonneg n h]
      exact List.append_ne_nil_of_left_ne_nil Nat.toDigits_ne_nil _
    have hspelled := numeral_signed negative (.whole hne hd)
    obtain ⟨k, rfl⟩ := Int.eq_ofNat_of_zero_le h
    rw [List.append_nil, positional_of_nonneg n h, digitsValue_append_zeros] at hspelled
    rw [positional_of_nonneg n h]
    simpa using hspelled
  · obtain ⟨ds, fs, k, hp, hne, hlen, hall⟩ := positional_of_neg n (not_le.mp h)
    have hd : Digits (ds ++ fs) := by
      rw [hall]
      exact fun c hc => (List.mem_append.mp hc).elim (digits_zeros k c) (digits_toDigits n c)
    have hspelled := numeral_signed negative (.point hne
      (fun c hc => hd c (List.mem_append_left _ hc)) fun c hc => hd c (List.mem_append_right _ hc))
    have he : -(fs.length : Int) = e := by omega
    rw [hall, digitsValue_zeros_append, he, ← hp] at hspelled
    exact hspelled

end Decimal

namespace Binary64

def withSign (negative : Bool) : Binary64 → Binary64
  | nan => nan
  | infinite _ => infinite negative
  | finite _ rank => finite negative rank

theorem withSign_toBinary64 (negative : Bool) (n : Nat) (e : Int) :
    (Decimal.mk negative n e).toBinary64 =
      (Decimal.mk false n e).toBinary64.withSign negative := by
  rw [Decimal.toBinary64_eq, Decimal.toBinary64_eq, ofQuotient, ofQuotient, ofRank, ofRank]
  split <;> rfl

theorem dropFinalZeros_keeps (n : Nat) (e : Int) :
    (Decimal.mk false (dropFinalZeros n e).1 (dropFinalZeros n e).2).toBinary64 =
      (Decimal.mk false n e).toBinary64 := by
  fun_induction dropFinalZeros n e with
  | case1 n e h ih =>
    obtain ⟨k, rfl⟩ := Nat.dvd_of_mod_eq_zero h.2
    rw [ih, Nat.mul_div_cancel_left k (by decide)]
    refine Decimal.toBinary64_congr rfl ?_
    simp only [Decimal.magnitude, zpow_add₀ (show (10 : ℚ) ≠ 0 by norm_num), zpow_one]
    push_cast
    ring
  | case2 n e h => rfl

/-- A decimal whose value is the magnitude of a double reads as that double. -/
theorem toBinary64_of_units {n rank : Nat} {e : Int} (hfin : rank < finiteRanks)
    (hvalue : n * tenTo e.toNat * twoTo 1074 = units rank * tenTo (-e).toNat) :
    (Decimal.mk false n e).toBinary64 = finite false ⟨rank, hfin⟩ := by
  have hmul := nearestRank_mul (units rank) 1 (tenTo_pos (-e).toNat)
  rw [Nat.one_mul, nearestRank_units] at hmul
  rw [Decimal.toBinary64_eq, ofQuotient, hvalue, hmul, ofRank, dif_pos hfin]

theorem expansion_reads_back {rank : Nat} (hfin : rank < finiteRanks) :
    (Decimal.mk false (units rank * Nat.pow 5 1074) (-1074)).toBinary64 =
      finite false ⟨rank, hfin⟩ := by
  have hten : Nat.pow 5 1074 * twoTo 1074 = tenTo 1074 := by decide +kernel
  refine toBinary64_of_units hfin ?_
  show units rank * Nat.pow 5 1074 * tenTo 0 * twoTo 1074 = units rank * tenTo 1074
  rw [tenTo_zero, Nat.mul_one, Nat.mul_assoc, hten]

theorem fewest_eq (rank : Nat) : fewest rank =
    ((List.range 17).findSome? fun n : Nat => onGrid? rank (digitsBeforePoint rank - (n + 1))).getD
      (units rank * Nat.pow 5 1074, -1074) := rfl

theorem shortest_eq (rank : Nat) :
    shortest rank = dropFinalZeros (fewest rank).1 (fewest rank).2 := rfl

theorem onGrid?_reads_back {rank n : Nat} {e e' : Int} (hfin : rank < finiteRanks)
    (h : onGrid? rank e = some (n, e')) :
    (Decimal.mk false n e').toBinary64 = finite false ⟨rank, hfin⟩ := by
  obtain ⟨m, hm, hp⟩ := Option.map_eq_some_iff.mp h
  obtain ⟨rfl, rfl⟩ := Prod.mk.inj hp
  have hback := List.find?_some hm
  unfold readsBack at hback
  split at hback
  · rename_i r hr
    obtain rfl : r = ⟨rank, hfin⟩ := Fin.ext (beq_iff_eq.mp hback)
    exact hr
  · cases hback

theorem shortest_reads_back {rank : Nat} (hfin : rank < finiteRanks) :
    (Decimal.mk false (shortest rank).1 (shortest rank).2).toBinary64 =
      finite false ⟨rank, hfin⟩ := by
  rw [shortest_eq, dropFinalZeros_keeps, fewest_eq]
  cases hfound : (List.range 17).findSome? fun n : Nat =>
      onGrid? rank (digitsBeforePoint rank - (n + 1)) with
  | none =>
    rw [Option.getD_none]
    exact expansion_reads_back hfin
  | some r =>
    obtain ⟨i, -, hi⟩ := List.exists_of_findSome?_eq_some hfound
    rw [Option.getD_some]
    exact onGrid?_reads_back hfin hi

theorem exists_magnitudeText {rank : Nat} (hfin : rank < finiteRanks) : ∃ n e,
    magnitudeText rank = Decimal.positional n e ∧
      (Decimal.mk false n e).toBinary64 = finite false ⟨rank, hfin⟩ := by
  by_cases h : rank = 0
  · subst h
    exact ⟨0, 0, rfl, rfl⟩
  · have ht : magnitudeText rank = if rank = 0 then ['0'] else
        Decimal.positional (shortest rank).1 (shortest rank).2 := rfl
    rw [if_neg h] at ht
    exact ⟨_, _, ht, shortest_reads_back hfin⟩

theorem toList_text (negative : Bool) (rank : Fin finiteRanks) :
    (finite negative rank).text.toList = Decimal.signed negative (magnitudeText rank) := by
  cases negative with
  | false => rw [text, String.toList_ofList, Decimal.signed_false]
  | true => rw [text, String.toList_ofList, Decimal.signed_true]

end Binary64

namespace Scalar

/-- What is written for a decimal is coerced to the double nearest to it, if that is finite. -/
theorem ofText_of_written {s : String} {negative : Bool} {n : Nat} {e : Int} {x : Binary64}
    (hs : s.toList = Decimal.signed negative (Decimal.positional n e))
    (hx : (Decimal.mk negative n e).toBinary64 = x) (hfin : x.isFinite = true) :
    ofText s = number x := by
  cases x with
  | nan => cases hfin
  | infinite _ => cases hfin
  | finite negative' rank =>
    obtain ⟨rfl, hr⟩ := (Decimal.toBinary64_eq_finite_iff _).mp hx
    have ht : s.toList = [] ++ Decimal.signed negative (Decimal.positional n e) ++ [] := by
      rw [hs, List.nil_append, List.append_nil]
    exact ofText_eq_number_iff.mpr
      (.between ht (by simp) (by simp) (Decimal.numeral_positional negative n e) hr)

theorem ofText_text {x : Binary64} (h : x.isFinite = true) : ofText x.text = number x := by
  cases x with
  | nan => cases h
  | infinite negative => cases h
  | finite negative rank =>
    obtain ⟨n, e, htext, hback⟩ := Binary64.exists_magnitudeText rank.isLt
    have hs : (Binary64.finite negative rank).text.toList =
        Decimal.signed negative (Decimal.positional n e) := by
      rw [Binary64.toList_text, htext]
    have hx : (Decimal.mk negative n e).toBinary64 = .finite negative rank := by
      rw [Binary64.withSign_toBinary64, hback]
      rfl
    exact ofText_of_written hs hx h

theorem toList_toString (i : Int) :
    (toString i).toList = Decimal.signed (decide (i < 0)) (Decimal.positional i.natAbs 0) := by
  have hp : ∀ n : Nat, Decimal.positional n 0 = Nat.toDigits 10 n := by
    intro n
    rw [Decimal.positional_of_nonneg n le_rfl]
    simp
  rw [hp]
  cases i with
  | ofNat n =>
    show n.repr.toList = _
    rw [Nat.toList_repr]
    rfl
  | negSucc n =>
    have hneg : decide (Int.negSucc n < 0) = true := decide_eq_true (Int.negSucc_lt_zero n)
    show ("-" ++ (n + 1).repr).toList = _
    rw [String.toList_append, Nat.toList_repr, hneg, Decimal.signed_true]
    rfl

theorem ofText_toString {i : Int} (h : i.natAbs ≤ 2 ^ 63) :
    ofText (toString i) = number (.ofInt i) := by
  obtain ⟨hfin, hi⟩ := Binary64.ofInt_eq h
  refine ofText_of_written (toList_toString i) ?_ (by rw [hi]; rfl)
  rw [Decimal.toBinary64_eq, Binary64.ofInt]
  show Binary64.ofQuotient _ (i.natAbs * 1 * twoTo 1074) 1 = _
  rw [Nat.mul_one]

end Scalar

end TagTemplate
