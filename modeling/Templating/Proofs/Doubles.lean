import Mathlib
import Templating.Number.Basic

/-!
# Doubles of integers

The double of an integer stands for the integer rounded to its first 53 binary digits. Doubles that stand
for integers compare as these do, and sums, differences and products of the doubles of 64-bit integers are
finite.
-/

namespace Templating.Number

open Float.Model UnpackedFloat

/-! ### Rounding -/

theorem le_roundDiv (num den : Nat) : num / den ≤ roundDiv num den := by
  unfold roundDiv
  grind

theorem roundDiv_le (num den : Nat) : roundDiv num den ≤ num / den + 1 := by
  unfold roundDiv
  grind

theorem roundDiv_one (n : Nat) : roundDiv n 1 = n := by
  simp [roundDiv, Nat.mod_one]

theorem roundDiv_mono {a b : Nat} (h : a ≤ b) (den : Nat) : roundDiv a den ≤ roundDiv b den := by
  rcases (Nat.div_le_div_right h : a / den ≤ b / den).lt_or_eq with hlt | heq
  · calc
      roundDiv a den ≤ a / den + 1 := roundDiv_le a den
      _ ≤ b / den := hlt
      _ ≤ roundDiv b den := le_roundDiv b den
  · -- with the same quotient the remainders are in order
    have hmod : a % den ≤ b % den := by
      have ha := Nat.div_add_mod a den
      have hb := Nat.div_add_mod b den
      rw [heq] at ha
      omega
    unfold roundDiv
    grind

/-- The weight of the last binary digit of a number that its double keeps. -/
def unit (n : Nat) : Nat := 2 ^ (n.log2 - 52)

/-- A number rounded to its first 53 binary digits, half to even. -/
def roundedNat (n : Nat) : Nat := roundDiv n (unit n) * unit n

/-- The integer that the double of an integer stands for. -/
def rounded (n : Int) : Int := if n < 0 then -roundedNat n.natAbs else roundedNat n.natAbs

theorem roundedNat_of_lt {n : Nat} (h : n < 2 ^ 53) : roundedNat n = n := by
  have hlog : n.log2 ≤ 52 := by
    rcases Nat.eq_zero_or_pos n with rfl | hn
    · decide
    · exact Nat.le_of_lt_succ ((Nat.log2_lt hn.ne').2 h)
  have hunit : unit n = 1 := by rw [unit, Nat.sub_eq_zero_of_le hlog, Nat.pow_zero]
  rw [roundedNat, hunit, roundDiv_one, Nat.mul_one]

/-! ### Significands -/

theorem two_pow_mul {a b c : Nat} (h : a + b = c) : 2 ^ a * 2 ^ b = 2 ^ c := by rw [← pow_add, h]

theorem scaled_of_le {n e : Nat} (h : e ≤ n.log2) :
    scaled n 1 ((n.log2 : Int) - e) = (n, 2 ^ (n.log2 - e)) := by
  have hq : ((n.log2 : Int) - e).toNat = n.log2 - e := by omega
  rw [scaled, if_pos (by omega), hq, Nat.one_mul]
  rfl

theorem scaled_of_lt {n e : Nat} (h : n.log2 < e) :
    scaled n 1 ((n.log2 : Int) - e) = (n * 2 ^ (e - n.log2), 1) := by
  have hq : (-((n.log2 : Int) - e)).toNat = e - n.log2 := by omega
  rw [scaled, if_neg (by omega), hq]
  rfl

/-- A number scaled to a quotient with `e + 1` binary digits before the point. -/
def aligned (n e : Nat) : Nat × Nat := scaled n 1 ((n.log2 : Int) - e)

theorem le_aligned {n : Nat} (hn : n ≠ 0) (e : Nat) : 2 ^ e ≤ (aligned n e).1 / (aligned n e).2 := by
  have hlow := Nat.log2_self_le hn
  unfold aligned
  rcases le_or_gt e n.log2 with h | h
  · rw [scaled_of_le h, Nat.le_div_iff_mul_le (Nat.two_pow_pos _), two_pow_mul (Nat.add_sub_cancel' h)]
    exact hlow
  · rw [scaled_of_lt h, Nat.div_one, ← two_pow_mul (Nat.add_sub_cancel' h.le)]
    exact Nat.mul_le_mul_right _ hlow

theorem aligned_lt (n e : Nat) : (aligned n e).1 / (aligned n e).2 < 2 ^ (e + 1) := by
  have hhigh : n < 2 ^ (n.log2 + 1) := Nat.lt_log2_self
  unfold aligned
  rcases le_or_gt e n.log2 with h | h
  · have hpow : 2 ^ (e + 1) * 2 ^ (n.log2 - e) = 2 ^ (n.log2 + 1) := two_pow_mul (by omega)
    rw [scaled_of_le h, Nat.div_lt_iff_lt_mul (Nat.two_pow_pos _), hpow]
    exact hhigh
  · have hpow : 2 ^ (n.log2 + 1) * 2 ^ (e - n.log2) = 2 ^ (e + 1) := two_pow_mul (by omega)
    rw [scaled_of_lt h, Nat.div_one, ← hpow]
    exact Nat.mul_lt_mul_of_pos_right hhigh (Nat.two_pow_pos _)

/-- The first 53 binary digits of a number, rounded, with zeros behind the number if it has fewer. -/
def significand (n : Nat) : Nat := roundDiv (aligned n 52).1 (aligned n 52).2

theorem le_significand {n : Nat} (hn : n ≠ 0) : 2 ^ 52 ≤ significand n :=
  (le_aligned hn 52).trans (le_roundDiv _ _)

theorem significand_le (n : Nat) : significand n ≤ 2 ^ 53 :=
  (roundDiv_le _ _).trans (aligned_lt n 52)

theorem significand_mul (n : Nat) : significand n * 2 ^ n.log2 = roundedNat n * 2 ^ 52 := by
  unfold significand aligned
  rcases le_or_gt 52 n.log2 with h | h
  · have hpow : unit n * 2 ^ 52 = 2 ^ n.log2 := two_pow_mul (by omega)
    rw [scaled_of_le h, ← hpow, ← mul_assoc]
    rfl
  · have hsmall : n < 2 ^ 53 := by
      calc
        n < 2 ^ (n.log2 + 1) := Nat.lt_log2_self
        _ ≤ 2 ^ 53 := Nat.pow_le_pow_right (by decide) (by omega)
    rw [scaled_of_lt h, roundDiv_one, roundedNat_of_lt hsmall, mul_assoc,
      two_pow_mul (Nat.sub_add_cancel h.le)]

theorem two_pow_log2_le_roundedNat {n : Nat} (hn : n ≠ 0) : 2 ^ n.log2 ≤ roundedNat n := by
  have h : 2 ^ 52 * 2 ^ n.log2 ≤ roundedNat n * 2 ^ 52 :=
    (Nat.mul_le_mul_right _ (le_significand hn)).trans_eq (significand_mul n)
  rw [mul_comm] at h
  exact Nat.le_of_mul_le_mul_right h (by decide)

theorem roundedNat_le_two_pow (n : Nat) : roundedNat n ≤ 2 ^ (n.log2 + 1) := by
  have h : roundedNat n * 2 ^ 52 ≤ 2 ^ (n.log2 + 1) * 2 ^ 52 := by
    calc
      roundedNat n * 2 ^ 52 = significand n * 2 ^ n.log2 := (significand_mul n).symm
      _ ≤ 2 ^ 53 * 2 ^ n.log2 := Nat.mul_le_mul_right _ (significand_le n)
      _ = 2 ^ (n.log2 + 1) * 2 ^ 52 := by rw [two_pow_mul rfl, two_pow_mul rfl]; exact congrArg _ (by omega)
  exact Nat.le_of_mul_le_mul_right h (by decide)

theorem roundedNat_mono {a b : Nat} (h : a ≤ b) : roundedNat a ≤ roundedNat b := by
  rcases Nat.eq_zero_or_pos a with rfl | ha
  · exact (roundedNat_of_lt (by decide : 0 < 2 ^ 53)).trans_le (Nat.zero_le _)
  · have hlog : a.log2 ≤ b.log2 := by
      rw [Nat.le_log2 (by omega)]
      exact (Nat.log2_self_le ha.ne').trans h
    rcases hlog.lt_or_eq with hlt | heq
    · calc
        roundedNat a ≤ 2 ^ (a.log2 + 1) := roundedNat_le_two_pow a
        _ ≤ 2 ^ b.log2 := Nat.pow_le_pow_right (by decide) hlt
        _ ≤ roundedNat b := two_pow_log2_le_roundedNat (by omega)
    · have hunit : unit a = unit b := by rw [unit, unit, heq]
      rw [roundedNat, roundedNat, hunit]
      exact Nat.mul_le_mul_right _ (roundDiv_mono h _)

theorem rounded_of_nonneg {n : Int} (h : 0 ≤ n) : rounded n = roundedNat n.natAbs := if_neg (by omega)

theorem rounded_of_neg {n : Int} (h : n < 0) : rounded n = -roundedNat n.natAbs := if_pos h

theorem rounded_mono {a b : Int} (h : a ≤ b) : rounded a ≤ rounded b := by
  rcases lt_or_ge a 0 with ha | ha
  · rw [rounded_of_neg ha]
    rcases lt_or_ge b 0 with hb | hb
    · rw [rounded_of_neg hb]
      exact neg_le_neg (Int.ofNat_le.2 (roundedNat_mono (by omega)))
    · rw [rounded_of_nonneg hb]
      omega
  · rw [rounded_of_nonneg ha, rounded_of_nonneg (ha.trans h)]
    exact Int.ofNat_le.2 (roundedNat_mono (by omega))

theorem rounded_le_iff {a b : Int} (h : rounded a = rounded b → a = b) : rounded a ≤ rounded b ↔ a ≤ b := by
  refine ⟨fun hle => ?_, rounded_mono⟩
  by_contra hlt
  have hge : rounded b ≤ rounded a := rounded_mono (not_le.1 hlt).le
  exact hlt (h (le_antisymm hle hge)).le

/-- An integer of 53 binary digits or fewer stands as it is, and so does the first one that has more. -/
theorem rounded_of_natAbs_le {n : Int} (h : n.natAbs ≤ 2 ^ 53) : rounded n = n := by
  have hnat : roundedNat n.natAbs = n.natAbs := by
    rcases h.lt_or_eq with hlt | heq
    · exact roundedNat_of_lt hlt
    · rw [heq]
      decide +kernel
  unfold rounded
  split <;> omega

/-! ### The bits of the double of a number -/

theorem exponentFor_one {n : Nat} (hn : n ≠ 0) : exponentFor n 1 = (n.log2 : Int) - 52 := by
  have hguess : max ((n.log2 : Int) - (1 : Nat).log2 - 53) (-1074) = n.log2 - (53 : Nat) := by
    have hone : (1 : Nat).log2 = 0 := rfl
    omega
  -- the guess leaves 54 digits
  have hlarge : ¬ (aligned n 53).1 / (aligned n 53).2 < Nat.pow 2 53 := not_lt.2 (le_aligned hn 53)
  unfold exponentFor
  rw [hguess]
  refine (if_neg hlarge).trans ?_
  omega

theorem nearestBits_one {n : Nat} (hn : n ≠ 0) (hbound : n < 2 ^ 64) :
    nearestBits n 1 = (n.log2 + 1022) * 2 ^ 52 + significand n := by
  have hlog : n.log2 < 64 := (Nat.log2_lt hn).2 hbound
  have hfinite : (n.log2 + 1022) * 2 ^ 52 + significand n ≤ infinityBits := by
    have hhigh := significand_le n
    show _ ≤ 2047 * 2 ^ 52
    omega
  have hexponent : ((n.log2 : Int) - 52 + 1074).toNat = n.log2 + 1022 := by omega
  unfold nearestBits
  rw [if_neg hn, exponentFor_one hn]
  dsimp only
  rw [hexponent]
  exact min_eq_left hfinite

/-! ### What a double stands for -/

/-- The integer that a double stands for. The double is zero, or it has 53 binary digits and the last of them
weighs from `2 ^ -52` to `2 ^ 12`. -/
inductive StandsFor : UnpackedFloat → Int → Prop where
  | zero (s : Sign) : StandsFor (.zero s) 0
  | normal {s : Sign} {m k : Nat} {n : Int} (hpos : 0 < m) (hk : k ≤ 64) (hlow : 2 ^ 52 ≤ m)
    (hhigh : m < 2 ^ 53) (hvalue : n * 2 ^ 52 = s.apply (m * 2 ^ k)) :
    StandsFor (.finite s m ((k : Int) - 52) hpos) n

theorem unpack_ofBits (u : UInt64) :
    (Float.ofBits u).toModel.unpack = UnpackedFloat.unpack .binary64 u.toBitVec := by
  show UnpackedFloat.unpack .binary64
    (UnpackedFloat.pack .binary64 (UnpackedFloat.unpack .binary64 u.toBitVec)) = _
  rw [pack_unpack]
  split
  · next h =>
    obtain ⟨hexponent, hfraction⟩ := of_decide_eq_true h
    rw [unpack_packedNaN, UnpackedFloat.unpack, if_pos hexponent, if_neg hfraction]
  · rfl

theorem toNat_packComponents (s : Sign) (exponent : BitVec 11) (fraction : BitVec 52) :
    (packComponents .binary64 s exponent fraction).toNat =
      (s.toBitVec.toNat * 2 ^ 11 + exponent.toNat) * 2 ^ 52 + fraction.toNat := by
  show (s.toBitVec ++ exponent ++ fraction).toNat = _
  rw [BitVec.toNat_append, BitVec.toNat_append, ← Nat.shiftLeft_add_eq_or_of_lt fraction.isLt,
    ← Nat.shiftLeft_add_eq_or_of_lt exponent.isLt, Nat.shiftLeft_eq, Nat.shiftLeft_eq]

theorem finite_eq {s : Sign} {m m' : Nat} {e e' : Int} {h : 0 < m} {h' : 0 < m'} (hm : m = m')
    (he : e = e') : UnpackedFloat.finite s m e h = .finite s m' e' h' := by
  subst hm he
  rfl

/-- A normal double has the digits of its fraction behind a one. -/
theorem unpack_packComponents (s : Sign) {k f : Nat} (hk : k ≤ 64) (hf : f < 2 ^ 52) :
    UnpackedFloat.unpack .binary64 (packComponents .binary64 s (.ofNat 11 (k + 1023)) (.ofNat 52 f)) =
      .finite s (2 ^ 52 + f) ((k : Int) - 52) (by omega) := by
  have hexponent : (BitVec.ofNat 11 (k + 1023)).toNat = k + 1023 := Nat.mod_eq_of_lt (by omega)
  have hzero : BitVec.ofNat 11 (k + 1023) ≠ 0#11 := fun h => by
    have : k + 1023 = 0 := hexponent.symm.trans (congrArg BitVec.toNat h)
    omega
  have hones : BitVec.ofNat 11 (k + 1023) ≠ -1#11 := fun h => by
    have : k + 1023 = 2047 := hexponent.symm.trans (congrArg BitVec.toNat h)
    omega
  have hmantissa : (1#1 ++ BitVec.ofNat 52 f).toNat = 2 ^ 52 + f := by
    have hfraction : (BitVec.ofNat 52 f).toNat = f := Nat.mod_eq_of_lt hf
    rw [BitVec.toNat_append, hfraction, ← Nat.shiftLeft_add_eq_or_of_lt hf]
    rfl
  have hbias : ((k + 1023 : Nat) : Int) - (1023 + 52) = (k : Int) - 52 := by omega
  unfold UnpackedFloat.unpack
  simp only [unpackMantissa_packComponents, unpackExponent_packComponents, unpackSign_packComponents,
    Sign.ofBitVec_toBitVec]
  rw [if_neg hones, if_neg hzero]
  refine finite_eq hmantissa ?_
  rw [hexponent]
  exact hbias

def signOf (negative : Bool) : Sign := if negative then .negative else .positive

theorem toBitVec_normal (negative : Bool) {e f : Nat} (he : e < 2047) (hf : f < 2 ^ 52) :
    (UInt64.ofNat ((if negative then Nat.pow 2 63 else 0) + (e * 2 ^ 52 + f))).toBitVec =
      packComponents .binary64 (signOf negative) (.ofNat 11 e) (.ofNat 52 f) := by
  have hexponent : (BitVec.ofNat 11 e).toNat = e := Nat.mod_eq_of_lt (by omega)
  have hfraction : (BitVec.ofNat 52 f).toNat = f := Nat.mod_eq_of_lt hf
  apply BitVec.eq_of_toNat_eq
  rw [toNat_packComponents, hexponent, hfraction, UInt64.toBitVec_ofNat', BitVec.toNat_ofNat]
  cases negative with
  | false =>
    have hsign : (signOf false).toBitVec.toNat = 0 := rfl
    rw [hsign, if_neg Bool.false_ne_true]
    omega
  | true =>
    have hsign : (signOf true).toBitVec.toNat = 1 := rfl
    rw [hsign, if_pos rfl]
    simp only [Nat.pow_eq]
    omega

theorem exists_fields {n : Nat} (hn : n ≠ 0) (hbound : n < 2 ^ 64) :
    ∃ k f, k ≤ 64 ∧ f < 2 ^ 52 ∧ nearestBits n 1 = (k + 1023) * 2 ^ 52 + f ∧
      roundedNat n * 2 ^ 52 = (2 ^ 52 + f) * 2 ^ k := by
  have hlog : n.log2 < 64 := (Nat.log2_lt hn).2 hbound
  have hlow := le_significand hn
  rcases (significand_le n).lt_or_eq with hlt | heq
  · refine ⟨n.log2, significand n - 2 ^ 52, hlog.le, by omega, ?_, ?_⟩
    · rw [nearestBits_one hn hbound]
      omega
    · rw [Nat.add_sub_cancel' hlow, significand_mul]
  · -- rounding up has led to the next power of two
    refine ⟨n.log2 + 1, 0, hlog, by decide, ?_, ?_⟩
    · rw [nearestBits_one hn hbound, heq]
      omega
    · rw [← significand_mul, heq, pow_succ 2 n.log2]
      omega

theorem apply_mul (s : Sign) (a b : Int) : s.apply a * b = s.apply (a * b) := by
  cases s with
  | negative => exact neg_mul a b
  | positive => rfl

theorem standsFor_nearest {n : Nat} (hn : n ≠ 0) (hbound : n < 2 ^ 64) (negative : Bool) :
    StandsFor (nearest negative n 1).toModel.unpack ((signOf negative).apply (roundedNat n)) := by
  obtain ⟨k, f, hk, hf, hbits, hvalue⟩ := exists_fields hn hbound
  unfold nearest
  rw [unpack_ofBits, hbits, toBitVec_normal negative (by omega) hf, unpack_packComponents _ hk hf]
  refine .normal _ hk (Nat.le_add_right _ _) (by omega) ?_
  rw [apply_mul]
  exact congrArg _ (by exact_mod_cast hvalue)

theorem standsFor_ofInt {n : Int} (h : n.natAbs < 2 ^ 64) :
    StandsFor (ofInt n).toModel.unpack (rounded n) := by
  rcases lt_trichotomy n 0 with hneg | rfl | hpos
  · have hofInt : ofInt n = nearest true n.natAbs 1 := by rw [ofInt, decide_eq_true hneg]
    rw [hofInt, rounded_of_neg hneg]
    exact standsFor_nearest (by omega) h true
  · have hzero : (ofInt 0).toModel.unpack = .zero .positive := by
      have hbits : ofInt 0 = Float.ofBits 0 := rfl
      rw [hbits, unpack_ofBits]
      rfl
    rw [hzero]
    exact .zero _
  · have hofInt : ofInt n = nearest false n.natAbs 1 := by rw [ofInt, decide_eq_false (by omega)]
    rw [hofInt, rounded_of_nonneg hpos.le]
    exact standsFor_nearest (by omega) h false

/-! ### Comparisons -/

theorem compare_scaled {m m' k k' : Nat} (hlow : 2 ^ 52 ≤ m) (hhigh : m < 2 ^ 53) (hlow' : 2 ^ 52 ≤ m')
    (hhigh' : m' < 2 ^ 53) : (compare ((k : Int) - 52) (k' - 52)).then (compare m m') =
      compare (m * 2 ^ k) (m' * 2 ^ k') := by
  have hless : ∀ {m m' k k' : Nat}, m < 2 ^ 53 → 2 ^ 52 ≤ m' → k < k' → m * 2 ^ k < m' * 2 ^ k' := by
    intro m m' k k' hm hm' hk
    calc
      m * 2 ^ k < 2 ^ 53 * 2 ^ k := Nat.mul_lt_mul_of_pos_right hm (Nat.two_pow_pos k)
      _ = 2 ^ 52 * 2 ^ (k + 1) := by rw [two_pow_mul rfl, two_pow_mul rfl]; exact congrArg _ (by omega)
      _ ≤ 2 ^ 52 * 2 ^ k' := Nat.mul_le_mul_left _ (Nat.pow_le_pow_right (by decide) hk)
      _ ≤ m' * 2 ^ k' := Nat.mul_le_mul_right _ hm'
  rcases lt_trichotomy k k' with hk | rfl | hk
  · rw [compare_lt_iff_lt.2 (by omega), compare_lt_iff_lt.2 (hless hhigh hlow' hk)]
    rfl
  · rw [compare_eq_iff_eq.2 rfl, ← cmp_eq_compare, ← cmp_eq_compare, cmp_mul_pos_right (Nat.two_pow_pos k)]
    rfl
  · rw [compare_gt_iff_gt.2 (by omega), compare_gt_iff_gt.2 (hless hhigh' hlow hk)]
    rfl

theorem compare_values {a b : Int} {u v : Nat} (ha : a * 2 ^ 52 = u) (hb : b * 2 ^ 52 = v) :
    compare u v = compare a b := by
  have hcast : cmp (u : Int) v = cmp u v := Nat.strictMono_cast.cmp_map_eq u v
  rw [← cmp_eq_compare, ← cmp_eq_compare, ← hcast, ← ha, ← hb, cmp_mul_pos_right (by decide)]

theorem swap_compare_values {a b : Int} {u v : Nat} (ha : a * 2 ^ 52 = -(u : Int))
    (hb : b * 2 ^ 52 = -(v : Int)) : (compare u v).swap = compare a b := by
  have hcast : cmp (u : Int) v = cmp u v := Nat.strictMono_cast.cmp_map_eq u v
  have hu : a * -2 ^ 52 = u := by omega
  have hv : b * -2 ^ 52 = v := by omega
  rw [← cmp_eq_compare, ← cmp_eq_compare, ← hcast, ← hu, ← hv, cmp_mul_neg_right (by decide), cmp_swap]

theorem value_pos {a : Int} {m k : Nat} (hm : 0 < m)
    (h : a * 2 ^ 52 = Sign.positive.apply (m * 2 ^ k : Nat)) : 0 < a := by
  have hpos : 0 < m * 2 ^ k := Nat.mul_pos hm (Nat.two_pow_pos k)
  change a * 2 ^ 52 = (m * 2 ^ k : Nat) at h
  omega

theorem value_neg {a : Int} {m k : Nat} (hm : 0 < m)
    (h : a * 2 ^ 52 = Sign.negative.apply (m * 2 ^ k : Nat)) : a < 0 := by
  have hpos : 0 < m * 2 ^ k := Nat.mul_pos hm (Nat.two_pow_pos k)
  change a * 2 ^ 52 = -(m * 2 ^ k : Nat) at h
  omega

/-- Doubles that stand for integers compare as these do. -/
theorem StandsFor.compare_eq {x y : UnpackedFloat} {a b : Int} (hx : StandsFor x a) (hy : StandsFor y b) :
    x.compare y = some (compare a b) := by
  cases hx with
  | zero s =>
    cases hy with
    | zero => rfl
    | @normal s' _ _ _ hpos _ _ _ hvalue =>
      cases s' with
      | negative => rw [compare_gt_iff_gt.2 (value_neg hpos hvalue)]; rfl
      | positive => rw [compare_lt_iff_lt.2 (value_pos hpos hvalue)]; rfl
  | @normal s _ _ _ hpos _ hlow hhigh hvalue =>
    cases hy with
    | zero =>
      cases s with
      | negative => rw [compare_lt_iff_lt.2 (value_neg hpos hvalue)]; rfl
      | positive => rw [compare_gt_iff_gt.2 (value_pos hpos hvalue)]; rfl
    | @normal s' _ _ _ hpos' _ hlow' hhigh' hvalue' =>
      cases s with
      | negative =>
        cases s' with
        | negative =>
          rw [← swap_compare_values hvalue hvalue', ← compare_scaled hlow hhigh hlow' hhigh']
          rfl
        | positive => rw [compare_lt_iff_lt.2 ((value_neg hpos hvalue).trans (value_pos hpos' hvalue'))]; rfl
      | positive =>
        cases s' with
        | negative => rw [compare_gt_iff_gt.2 ((value_neg hpos' hvalue').trans (value_pos hpos hvalue))]; rfl
        | positive =>
          rw [← compare_values hvalue hvalue', ← compare_scaled hlow hhigh hlow' hhigh']
          rfl

theorem lt_iff_compare (x y : Float) : x < y ↔ x.toModel.unpack.compare y.toModel.unpack = some .lt := by
  show decide (x.toModel < y.toModel) = true ↔ _
  rw [decide_eq_true_iff]
  exact beq_iff_eq

theorem beq_iff_compare (x y : Float) :
    (x == y) = true ↔ x.toModel.unpack.compare y.toModel.unpack = some .eq := by
  show (x.toModel.unpack.compare y.toModel.unpack == some .eq) = true ↔ _
  exact beq_iff_eq

section

variable {a b : Int} (ha : a.natAbs < 2 ^ 64) (hb : b.natAbs < 2 ^ 64)

include ha hb

theorem lt_ofInt_iff : ofInt a < ofInt b ↔ rounded a < rounded b := by
  rw [lt_iff_compare, (standsFor_ofInt ha).compare_eq (standsFor_ofInt hb), Option.some_inj,
    compare_lt_iff_lt]

theorem beq_ofInt_iff : (ofInt a == ofInt b) = true ↔ rounded a = rounded b := by
  rw [beq_iff_compare, (standsFor_ofInt ha).compare_eq (standsFor_ofInt hb), Option.some_inj,
    compare_eq_iff_eq]

end

/-! ### Finite results -/

/-- A double whose exponent is in the range of finite ones. -/
inductive InRange : UnpackedFloat → Prop where
  | zero (s : Sign) : InRange (.zero s)
  | finite (s : Sign) {m : Nat} {e : Int} (hpos : 0 < m) (he : e ≤ 971) : InRange (.finite s m e hpos)

theorem isFinite_unpack {b : BitVec 64} (h : @unpackExponent .binary64 b ≠ -1#11) :
    (UnpackedFloat.unpack .binary64 b).isFinite = true := by
  unfold UnpackedFloat.unpack
  dsimp only
  rw [if_neg h]
  split
  · split <;> rfl
  · rfl

theorem InRange.isFinite {x : UnpackedFloat} (h : InRange x) : (Float.Model.pack x).isFinite = true := by
  show (UnpackedFloat.unpack .binary64 (UnpackedFloat.pack .binary64 x)).isFinite = true
  cases h with
  | zero s =>
    show (UnpackedFloat.unpack .binary64 (packedZero .binary64 s)).isFinite = true
    rw [unpack_packedZero]
    rfl
  | @finite s m e hpos he =>
    have hexponent :
        @unpackExponent .binary64 (UnpackedFloat.pack .binary64 (.finite s m e hpos)) ≠ -1#11 := by
      have hbias : (Format.binary64.exponentBias : Int) = 1023 := rfl
      have hbiased : (e + (Format.binary64.exponentBias : Int) + (52 : Nat)).toNat + 1 < 2 ^ 11 := by
        rw [hbias]
        omega
      unfold UnpackedFloat.pack
      dsimp only
      generalize (e + (Format.binary64.exponentBias : Int) + (52 : Nat)).toNat = biased at hbiased ⊢
      rw [if_neg (Nat.not_le.2 hbiased)]
      split
      · rw [unpackExponent_packComponents]
        intro hones
        have htoNat := congrArg BitVec.toNat hones
        rw [BitVec.toNat_ofNat, Nat.mod_eq_of_lt (Nat.lt_of_succ_lt hbiased)] at htoNat
        change biased = 2047 at htoNat
        omega
      · rw [unpackExponent_packComponents]
        decide
    exact isFinite_unpack hexponent

theorem mantissa_shiftRight_le (em : ExtendedMantissa) (k : Nat) : (em >>> k).mantissa ≤ em.mantissa := by
  induction k with
  | zero => exact le_refl _
  | succ k ih => exact (Nat.div_le_self _ 2).trans ih

theorem roundedMantissa_le (em : ExtendedMantissa) : em.roundedMantissa ≤ em.mantissa + 1 := by
  obtain ⟨m, round, sticky⟩ := em
  cases round <;> cases sticky <;>
    simp only [ExtendedMantissa.roundedMantissa, ExtendedMantissa.accuracy, Accuracy.roundToNearestEven] <;>
    omega

theorem targetExponent_le {m b : Nat} (hm : m < 2 ^ b) (hb : 0 < b) (e : Int) :
    Format.binary64.targetExponent (totalExponent m e) ≤ max e (-1074) + b := by
  have hlog : m.log2 < b := by
    rcases Nat.eq_zero_or_pos m with rfl | hpos
    · exact hb
    · exact (Nat.log2_lt hpos.ne').2 hm
  show max ((m.log2 : Int) + 1 + e - 53) (-1074) ≤ _
  omega

/-- Rounding a number of not too many binary digits leads to no infinity. -/
theorem inRange_roundWithAccuracy (s : Sign) {m b : Nat} {e : Int} (hm : m < 2 ^ b) (hpos : 0 < b)
    (hb : b ≤ 400) (he : e ≤ 64) : InRange (roundWithAccuracy .binary64 s m e .exact) := by
  unfold roundWithAccuracy shiftToTargetExponent shiftToExponent
  dsimp only
  have htarget := targetExponent_le hm hpos e
  generalize hshift : (Format.binary64.targetExponent (totalExponent m e) - e).toNat = shift
  generalize hr : (ExtendedMantissa.ofMantissaAndAccuracy m .exact >>> shift).roundedMantissa = r
  have hround : r < 2 ^ (b + 1) := by
    have hmantissa : (ExtendedMantissa.ofMantissaAndAccuracy m .exact >>> shift).mantissa ≤ m :=
      mantissa_shiftRight_le _ shift
    have hle := roundedMantissa_le (ExtendedMantissa.ofMantissaAndAccuracy m .exact >>> shift)
    have hpow : 2 ^ b < 2 ^ (b + 1) := Nat.pow_lt_pow_succ (by decide)
    omega
  -- the digit that rounding may have carried is shifted out once more
  have htarget' := targetExponent_le hround (Nat.succ_pos b) (e + shift)
  split
  · exact .zero s
  · refine .finite s _ ?_
    omega

theorem inRange_round (s : Sign) {m b : Nat} {e : Int} (hm : m < 2 ^ b) (hpos : 0 < b) (hb : b ≤ 300)
    (he : e ≤ 64) : InRange (UnpackedFloat.round .binary64 s m e) := by
  unfold UnpackedFloat.round decreaseExponent
  dsimp only
  have hshift : (e - Format.binary64.targetExponent (totalExponent m e)).toNat ≤ 52 := by
    have htarget : Format.binary64.targetExponent (totalExponent m e) =
        max ((m.log2 : Int) + 1 + e - 53) (-1074) := rfl
    omega
  generalize (e - Format.binary64.targetExponent (totalExponent m e)).toNat = shift at hshift ⊢
  have hshifted : m <<< shift < 2 ^ (b + 52) := by
    rw [Nat.shiftLeft_eq, pow_add]
    exact Nat.mul_lt_mul_of_lt_of_le hm (Nat.pow_le_pow_right (by decide) hshift) (Nat.two_pow_pos _)
  exact inRange_roundWithAccuracy s hshifted (by omega) (by omega) (by omega)

theorem inRange_normalize {m : Int} {b : Nat} {e : Int} (hm : m.natAbs < 2 ^ b) (hpos : 0 < b) (hb : b ≤ 300)
    (he : e ≤ 64) (s : Sign) : InRange (UnpackedFloat.normalize .binary64 m e s) := by
  unfold UnpackedFloat.normalize
  split
  · exact inRange_round _ (by omega) hpos hb he
  · exact .zero s
  · exact inRange_round _ (by omega) hpos hb he

theorem natAbs_apply (s : Sign) (m : Int) : (s.apply m).natAbs = m.natAbs := by
  cases s with
  | negative => exact Int.natAbs_neg m
  | positive => rfl

theorem decreased_lt {m k : Nat} (hk : k ≤ 64) (hm : m < 2 ^ 53) {e : Int} (he : -52 ≤ e) :
    m <<< ((k : Int) - 52 - e).toNat < 2 ^ 117 := by
  rw [Nat.shiftLeft_eq]
  calc
    m * 2 ^ ((k : Int) - 52 - e).toNat ≤ m * 2 ^ 64 :=
      Nat.mul_le_mul_left _ (Nat.pow_le_pow_right (by decide) (by omega))
    _ < 2 ^ 53 * 2 ^ 64 := Nat.mul_lt_mul_of_pos_right hm (by decide)
    _ = 2 ^ 117 := two_pow_mul rfl

/-- Two mantissas that are brought to one exponent, and then added or subtracted. -/
theorem inRange_combined {f : Int → Int → Int} (hf : ∀ i j, (f i j).natAbs ≤ i.natAbs + j.natAbs)
    {m k m' k' : Nat} (hk : k ≤ 64) (hm : m < 2 ^ 53) (hk' : k' ≤ 64) (hm' : m' < 2 ^ 53) (s s' : Sign) :
    let e := min ((k : Int) - 52) ((k' : Int) - 52)
    InRange (UnpackedFloat.normalize .binary64 (f (s.apply (m <<< ((k : Int) - 52 - e).toNat : Nat))
      (s'.apply (m' <<< ((k' : Int) - 52 - e).toNat : Nat))) e .positive) := by
  intro e
  have he : -52 ≤ e := by omega
  have hleft := decreased_lt hk hm he
  have hright := decreased_lt hk' hm' he
  refine @inRange_normalize _ 118 _ ?_ (by decide) (by decide) (by omega) _
  refine (hf _ _).trans_lt ?_
  rw [natAbs_apply, natAbs_apply, Int.natAbs_natCast, Int.natAbs_natCast]
  omega

section

variable {x y : UnpackedFloat} {a b : Int} (hx : StandsFor x a) (hy : StandsFor y b)

include hx hy

theorem StandsFor.inRange_add : InRange (UnpackedFloat.add .binary64 x y) := by
  cases hx with
  | zero s =>
    cases hy with
    | zero s' => cases s <;> cases s' <;> exact .zero _
    | normal hpos hk => exact .finite _ hpos (by omega)
  | normal hpos hk _ hm =>
    cases hy with
    | zero => exact .finite _ hpos (by omega)
    | normal _ hk' _ hm' => exact inRange_combined Int.natAbs_add_le hk hm hk' hm' _ _

theorem StandsFor.inRange_sub : InRange (UnpackedFloat.sub .binary64 x y) := by
  cases hx with
  | zero s =>
    cases hy with
    | zero s' => cases s <;> cases s' <;> exact .zero _
    | normal hpos hk => exact .finite _ hpos (by omega)
  | normal hpos hk _ hm =>
    cases hy with
    | zero => exact .finite _ hpos (by omega)
    | normal _ hk' _ hm' => exact inRange_combined Int.natAbs_sub_le hk hm hk' hm' _ _

theorem StandsFor.inRange_mul : InRange (UnpackedFloat.mul .binary64 x y) := by
  cases hx with
  | zero =>
    cases hy with
    | zero => exact .zero _
    | normal => exact .zero _
  | normal _ hk _ hm =>
    cases hy with
    | zero => exact .zero _
    | normal _ hk' _ hm' =>
      have hproduct := Nat.mul_lt_mul'' hm hm'
      rw [← pow_add] at hproduct
      exact inRange_roundWithAccuracy _ hproduct (by decide) (by decide) (by omega)

end

section

variable {a b : Int} (ha : a.natAbs < 2 ^ 64) (hb : b.natAbs < 2 ^ 64)

include ha hb

theorem isFinite_add_ofInt : (ofInt a + ofInt b).isFinite = true :=
  ((standsFor_ofInt ha).inRange_add (standsFor_ofInt hb)).isFinite

theorem isFinite_sub_ofInt : (ofInt a - ofInt b).isFinite = true :=
  ((standsFor_ofInt ha).inRange_sub (standsFor_ofInt hb)).isFinite

theorem isFinite_mul_ofInt : (ofInt a * ofInt b).isFinite = true :=
  ((standsFor_ofInt ha).inRange_mul (standsFor_ofInt hb)).isFinite

end

end Templating.Number
