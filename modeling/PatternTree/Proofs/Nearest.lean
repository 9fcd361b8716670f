import Mathlib.Algebra.Order.Field.Basic
import Mathlib.Data.Rat.Cast.Order
import Mathlib.Tactic.Linarith
import Mathlib.Tactic.Ring
import PatternTree.Proofs.ExactNumber

/-!
# Rounding gives the nearest double

A double stands for a rational number, `Number.value?`, and rounding picks the double that is
nearest to a quotient, of two equally near ones the one with the even mantissa.

* `roundDiv` gives a nearest multiple of the denominator (`natAbs_roundDiv_le`), and an even one if
  there is a choice (`roundDiv_even_of_tie`).
* `Magnitude.nearest?_units` says which multiple of which scale rounding gives. Magnitudes on that
  scale or a coarser one are multiples too; those on finer scales all lie below the smallest one of
  this scale (`Magnitude.units_lt_of_exponent_lt`), so that none of them is as near.
* `Number.nearest_ofInt` puts the signs back.
-/

namespace PatternTree

theorem unitsPerOne_eq : unitsPerOne = 2 ^ 1074 := by
  unfold unitsPerOne
  generalize 1074 = k
  rfl

/-! ## Multiples -/

/-- A quotient is rounded down if the remainder is less than half, up if it is more, and to the even
one if it is half. -/
theorem roundDiv_cases (num den : Nat) :
    (2 * (num % den) = den → roundDiv num den % 2 = 0) ∧
      (roundDiv num den = num / den ∧ 2 * (num % den) ≤ den ∨
        roundDiv num den = num / den + 1 ∧ den ≤ 2 * (num % den)) := by
  unfold roundDiv
  simp only
  split
  · exact ⟨by omega, .inl ⟨rfl, by omega⟩⟩
  · split
    · exact ⟨by omega, .inr ⟨rfl, by omega⟩⟩
    · split
      · exact ⟨by omega, .inl ⟨rfl, by omega⟩⟩
      · exact ⟨by omega, .inr ⟨rfl, by omega⟩⟩

/-- Different multiples lie apart. -/
theorem mul_add_le_or {k q : Nat} (h : k ≠ q) (den : Nat) :
    k * den + den ≤ q * den ∨ q * den + den ≤ k * den := by
  simp only [← Nat.succ_mul]
  rcases Nat.lt_or_gt_of_ne h with h | h
  · exact .inl (Nat.mul_le_mul_right den h)
  · exact .inr (Nat.mul_le_mul_right den h)

/-- No multiple of the denominator is nearer than the rounded quotient. -/
theorem natAbs_roundDiv_le (num : Nat) {den : Nat} (hden : 0 < den) (k : Nat) :
    (((roundDiv num den * den : Nat) : Int) - num).natAbs ≤
      (((k * den : Nat) : Int) - num).natAbs := by
  by_cases hk : k = roundDiv num den
  · rw [hk]
  have hnum := Nat.div_add_mod' num den
  have hmod := Nat.mod_lt num hden
  have hapart := mul_add_le_or hk den
  obtain ⟨-, ⟨hround, hrem⟩ | ⟨hround, hrem⟩⟩ := roundDiv_cases num den
  · rw [hround] at hapart ⊢
    omega
  · rw [hround, Nat.succ_mul] at hapart ⊢
    omega

/-- If another multiple is as near, the rounded quotient is even. -/
theorem roundDiv_even_of_tie {num den k : Nat} (hden : 0 < den) (hk : k ≠ roundDiv num den)
    (htie : (((roundDiv num den * den : Nat) : Int) - num).natAbs =
      (((k * den : Nat) : Int) - num).natAbs) : roundDiv num den % 2 = 0 := by
  have hnum := Nat.div_add_mod' num den
  have hmod := Nat.mod_lt num hden
  have hapart := mul_add_le_or hk den
  obtain ⟨heven, ⟨hround, hrem⟩ | ⟨hround, hrem⟩⟩ := roundDiv_cases num den
  · rw [hround] at hapart htie
    exact heven (by omega)
  · rw [hround, Nat.succ_mul] at hapart htie
    exact heven (by omega)

/-! ## Magnitudes -/

namespace Magnitude

variable {num den : Nat} {m : Magnitude}

theorem units_eq (m : Magnitude) : m.units = m.mantissa * 2 ^ m.exponent :=
  rfl

theorem ofParts?_eq_some_iff {mantissa exponent : Nat} :
    ofParts? mantissa exponent = some m ↔ mantissa = m.mantissa ∧ exponent = m.exponent := by
  refine ⟨?_, ?_⟩
  · intro h
    rw [ofParts?] at h
    split at h
    · obtain rfl := Option.some.inj h
      exact ⟨rfl, rfl⟩
    · cases h
  · rintro ⟨rfl, rfl⟩
    exact ofParts?_self m

/-- The exponent that a quotient is rounded on. -/
def scale (num den : Nat) : Nat :=
  (num * unitsPerOne / den).log2 - 52

/-- The multiple of that power of two that it is rounded to. -/
def multiple (num den : Nat) : Nat :=
  roundDiv (num * unitsPerOne) (den * 2 ^ scale num den)

theorem nearest?_eq (num den : Nat) :
    nearest? num den =
      if multiple num den = 0x20000000000000 then ofParts? 0x10000000000000 (scale num den + 1)
      else ofParts? (multiple num den) (scale num den) :=
  rfl

/-- A quotient is rounded to a multiple of its scale, the even one having an even mantissa. -/
theorem nearest?_units (h : nearest? num den = some m) :
    m.units = multiple num den * 2 ^ scale num den ∧
      (multiple num den % 2 = 0 → m.mantissa % 2 = 0) := by
  rw [nearest?_eq] at h
  split at h
  · next hcarry =>
    obtain ⟨hmantissa, hexponent⟩ := ofParts?_eq_some_iff.mp h
    rw [units_eq, ← hmantissa, ← hexponent, hcarry, Nat.pow_succ]
    exact ⟨by omega, by omega⟩
  · obtain ⟨hmantissa, hexponent⟩ := ofParts?_eq_some_iff.mp h
    rw [units_eq, ← hmantissa, ← hexponent]
    exact ⟨rfl, id⟩

/-- On its scale a quotient has at most 53 bits. -/
theorem lt_scale (num : Nat) (hden : 0 < den) :
    num * unitsPerOne < 0x20000000000000 * (den * 2 ^ scale num den) := by
  have hlog : num * unitsPerOne / den < 2 ^ (53 + scale num den) := by
    refine Nat.lt_of_lt_of_le Nat.lt_log2_self (Nat.pow_le_pow_right (by decide) ?_)
    rw [scale]
    omega
  rw [Nat.div_lt_iff_lt_mul hden, Nat.pow_add] at hlog
  calc num * unitsPerOne
      < 2 ^ 53 * 2 ^ scale num den * den := hlog
    _ = 0x20000000000000 * (den * 2 ^ scale num den) := by
      rw [Nat.mul_assoc, Nat.mul_comm (2 ^ scale num den)]

/-- It has all of them, except on the finest scale. -/
theorem scale_le (hden : 0 < den) (hscale : 0 < scale num den) :
    0x10000000000000 * (den * 2 ^ scale num den) ≤ num * unitsPerOne := by
  have hlog : (num * unitsPerOne / den).log2 = 52 + scale num den := by
    rw [scale] at hscale ⊢
    omega
  have hne : num * unitsPerOne / den ≠ 0 := by
    intro h₀
    rw [h₀, Nat.log2_zero] at hlog
    omega
  have hle := Nat.log2_self_le hne
  rw [hlog, Nat.le_div_iff_mul_le hden, Nat.pow_add] at hle
  calc 0x10000000000000 * (den * 2 ^ scale num den)
      = 2 ^ 52 * 2 ^ scale num den * den := by
        rw [Nat.mul_assoc, Nat.mul_comm (2 ^ scale num den)]
    _ ≤ num * unitsPerOne := hle

/-- A magnitude on a scale or a coarser one is a multiple of the scale. -/
theorem units_of_le_exponent {e : Nat} (h : e ≤ m.exponent) : ∃ k, m.units = k * 2 ^ e := by
  refine ⟨m.mantissa * 2 ^ (m.exponent - e), ?_⟩
  rw [units_eq, Nat.mul_assoc, ← Nat.pow_add, Nat.sub_add_cancel h]

/-- Magnitudes on finer scales are smaller than all those that need the scale. -/
theorem units_lt_of_exponent_lt {e : Nat} (h : m.exponent < e) :
    m.units < 0x10000000000000 * 2 ^ e := by
  calc m.units
      < 0x20000000000000 * 2 ^ m.exponent :=
        Nat.mul_lt_mul_of_pos_right m.mantissa_lt (Nat.two_pow_pos _)
    _ = 0x10000000000000 * 2 ^ (m.exponent + 1) := by
      rw [Nat.pow_succ]
      omega
    _ ≤ 0x10000000000000 * 2 ^ e :=
      Nat.mul_le_mul_left _ (Nat.pow_le_pow_right (by decide) h)

/-- How far a magnitude is from a quotient, in units of the denominator. -/
def distance (m : Magnitude) (num den : Nat) : Nat :=
  (((m.units * den : Nat) : Int) - (num * unitsPerOne : Nat)).natAbs

/-- Rounding gives the nearest magnitude, of two equally near ones the one with the even
mantissa. -/
theorem nearest?_le (hden : 0 < den) (h : nearest? num den = some m) (k : Magnitude) :
    m.distance num den ≤ k.distance num den ∧
      (m.distance num den = k.distance num den → m.units = k.units ∨ m.mantissa % 2 = 0) := by
  have hpos : 0 < den * 2 ^ scale num den := Nat.mul_pos hden (Nat.two_pow_pos _)
  obtain ⟨hunits, heven⟩ := nearest?_units h
  have hm : m.units * den = multiple num den * (den * 2 ^ scale num den) := by
    rw [hunits, Nat.mul_assoc, Nat.mul_comm (2 ^ scale num den)]
  rcases Nat.lt_or_ge k.exponent (scale num den) with hfiner | hcoarser
  · -- the smallest magnitude that needs the scale lies between the other one and the quotient
    have hk : k.units * den < 0x10000000000000 * (den * 2 ^ scale num den) := by
      rw [Nat.mul_comm den, ← Nat.mul_assoc]
      exact Nat.mul_lt_mul_of_pos_right (units_lt_of_exponent_lt hfiner) hden
    have hbetween := scale_le hden (Nat.lt_of_le_of_lt (Nat.zero_le _) hfiner)
    have hle := natAbs_roundDiv_le (num * unitsPerOne) hpos 0x10000000000000
    have hlt : m.distance num den < k.distance num den := by
      rw [distance, distance, hm, multiple]
      generalize num * unitsPerOne = scaled at hbetween hle ⊢
      omega
    exact ⟨Nat.le_of_lt hlt, fun heq => absurd heq (Nat.ne_of_lt hlt)⟩
  · obtain ⟨q, hq⟩ := units_of_le_exponent hcoarser
    have hk : k.units * den = q * (den * 2 ^ scale num den) := by
      rw [hq, Nat.mul_assoc, Nat.mul_comm (2 ^ scale num den)]
    rw [distance, distance, hm, hk]
    refine ⟨natAbs_roundDiv_le _ hpos q, ?_⟩
    intro htie
    by_cases hne : q = multiple num den
    · left
      rw [hunits, hq, hne]
    · right
      exact heven (roundDiv_even_of_tie hpos hne htie)

/-- The multiple has at most 53 bits or is the next power of two, and on all but the finest scale it
has no fewer. -/
theorem multiple_bounds (num : Nat) (hden : 0 < den) :
    multiple num den ≤ 0x20000000000000 ∧
      (scale num den = 0 ∨ 0x10000000000000 ≤ multiple num den) := by
  have hpos : 0 < den * 2 ^ scale num den := Nat.mul_pos hden (Nat.two_pow_pos _)
  have hlt := (Nat.div_lt_iff_lt_mul hpos).mpr (lt_scale num hden)
  obtain ⟨-, hround⟩ := roundDiv_cases (num * unitsPerOne) (den * 2 ^ scale num den)
  refine ⟨?_, ?_⟩
  · rw [multiple]
    omega
  · rcases Nat.eq_zero_or_pos (scale num den) with hscale | hscale
    · exact .inl hscale
    · have hle := (Nat.le_div_iff_mul_le hpos).mpr (scale_le hden hscale)
      rw [multiple]
      omega

/-- The scale of a quotient is bounded by its size. -/
theorem scale_le_of_lt {size : Nat} (hden : 0 < den) (h : num < 2 ^ size * den) :
    scale num den ≤ size + 1021 := by
  rw [scale]
  by_cases h₀ : num * unitsPerOne / den = 0
  · rw [h₀, Nat.log2_zero]
    omega
  · have hlog : (num * unitsPerOne / den).log2 < size + 1074 := by
      rw [Nat.log2_lt h₀, Nat.div_lt_iff_lt_mul hden]
      calc num * unitsPerOne
          < 2 ^ size * den * unitsPerOne := Nat.mul_lt_mul_of_pos_right h unitsPerOne_pos
        _ = 2 ^ (size + 1074) * den := by rw [unitsPerOne_eq, Nat.mul_right_comm, ← Nat.pow_add]
    omega

/-- A quotient below `2 ^ 1023` has a nearest double. -/
theorem exists_nearest? {size : Nat} (hden : 0 < den) (h : num < 2 ^ size * den)
    (hsize : size ≤ 1023) : ∃ m, nearest? num den = some m := by
  have hscale := scale_le_of_lt hden h
  obtain ⟨hle, hcanonical⟩ := multiple_bounds num hden
  rw [nearest?_eq]
  split
  · exact ⟨_, dif_pos ⟨by decide, .inr (by decide), by omega⟩⟩
  · exact ⟨_, dif_pos ⟨by omega, hcanonical, by omega⟩⟩

/-- A whole number of at most 53 bits is a double. -/
theorem units_of_nearest?_of_lt (hnum : num < 2 ^ 53) (h : nearest? num 1 = some m) :
    m.units = num * unitsPerOne := by
  have hscale : scale num 1 ≤ 1074 :=
    scale_le_of_lt Nat.one_pos (by rw [Nat.mul_one]; exact hnum)
  have hscaled : num * unitsPerOne = num * 2 ^ (1074 - scale num 1) * 2 ^ scale num 1 := by
    rw [unitsPerOne_eq, Nat.mul_assoc, ← Nat.pow_add, Nat.sub_add_cancel hscale]
  rw [(nearest?_units h).1, multiple, Nat.one_mul, hscaled, roundDiv_mul _ (Nat.two_pow_pos _)]

/-! ## Values -/

/-- The value as a rational number. -/
def value (m : Magnitude) : ℚ :=
  m.units / unitsPerOne

theorem value_nonneg (m : Magnitude) : 0 ≤ m.value :=
  div_nonneg (Nat.cast_nonneg _) (Nat.cast_nonneg _)

theorem value_zero : zero.value = 0 := by
  rw [value, units_eq_zero_iff.mpr rfl, Nat.cast_zero, zero_div]

theorem value_inj {k : Magnitude} : m.value = k.value ↔ m.units = k.units := by
  have hpos : (unitsPerOne : ℚ) ≠ 0 := Nat.cast_ne_zero.mpr (Nat.ne_of_gt unitsPerOne_pos)
  rw [value, value, div_left_inj' hpos, Nat.cast_inj]

theorem abs_value_sub (m : Magnitude) (num : Nat) (hden : 0 < den) :
    |m.value - num / den| = m.distance num den / (unitsPerOne * den) := by
  have hunit : (0 : ℚ) < unitsPerOne := Nat.cast_pos.mpr unitsPerOne_pos
  have hden : (0 : ℚ) < den := Nat.cast_pos.mpr hden
  have hsub : m.value - num / den =
      (((m.units * den : Nat) : ℚ) - (num * unitsPerOne : Nat)) / (unitsPerOne * den) := by
    rw [value, div_sub_div _ _ (ne_of_gt hunit) (ne_of_gt hden), Nat.cast_mul, Nat.cast_mul,
      mul_comm (unitsPerOne : ℚ) num]
  rw [hsub, abs_div, abs_of_pos (mul_pos hunit hden), distance, Nat.cast_natAbs, Int.cast_abs,
    Int.cast_sub, Int.cast_natCast, Int.cast_natCast]

/-- Rounding gives the nearest value, of two equally near ones that with the even mantissa. -/
theorem abs_nearest?_sub_le (hden : 0 < den) (h : nearest? num den = some m) (k : Magnitude) :
    |m.value - num / den| ≤ |k.value - num / den| ∧
      (|m.value - num / den| = |k.value - num / den| → m.value = k.value ∨ m.mantissa % 2 = 0) := by
  have hpos : (0 : ℚ) < unitsPerOne * den :=
    mul_pos (Nat.cast_pos.mpr unitsPerOne_pos) (Nat.cast_pos.mpr hden)
  rw [abs_value_sub m num hden, abs_value_sub k num hden, div_le_div_iff_of_pos_right hpos,
    div_left_inj' (ne_of_gt hpos), Nat.cast_le, Nat.cast_inj, value_inj]
  exact nearest?_le hden h k

end Magnitude

namespace Number

/-- The value of a finite number as a rational number. -/
def value? : Number → Option ℚ
  | .finite negative m => some (if negative then -m.value else m.value)
  | _ => none

theorem abs_value? {negative : Bool} {m : Magnitude} {v : ℚ}
    (h : (finite negative m).value? = some v) : |v| = m.value := by
  obtain rfl := Option.some.inj h
  cases negative with
  | false => exact abs_of_nonneg m.value_nonneg
  | true => exact (abs_neg _).trans (abs_of_nonneg m.value_nonneg)

/-- The number is finite, no finite number is nearer to the given one, and if another is as near its
mantissa is even. -/
def Nearest (x : Number) (q : ℚ) : Prop :=
  ∃ negative m v, x = finite negative m ∧ x.value? = some v ∧ ∀ y w, value? y = some w →
    |v - q| ≤ |w - q| ∧ (|v - q| = |w - q| → v = w ∨ m.mantissa % 2 = 0)

/-- An integer that is not too large is read as a double with its sign. -/
theorem ofInt_eq {n : Int} {size : Nat} (hn : n.natAbs < 2 ^ size) (hsize : size ≤ 1023) :
    ∃ m, Magnitude.nearest? n.natAbs 1 = some m ∧ ofInt n = finite (n < 0) m := by
  obtain ⟨m, hm⟩ := Magnitude.exists_nearest? Nat.one_pos (by rw [Nat.mul_one]; exact hn) hsize
  refine ⟨m, hm, ?_⟩
  rw [ofInt, hm, ofMagnitude]

theorem cast_natAbs_div_one (n : Int) : ((n.natAbs : Nat) : ℚ) / (1 : Nat) = |(n : ℚ)| := by
  rw [Nat.cast_one, div_one, Nat.cast_natAbs, Int.cast_abs]

/-- On one side of zero only the magnitudes count. -/
theorem abs_sub_of_sign {n : Int} {x v : ℚ} (hv : v = if n < 0 then -x else x) :
    |v - n| = |x - (|(n : ℚ)|)| := by
  rcases lt_or_ge n 0 with hneg | hnonneg
  · rw [hv, if_pos hneg, abs_of_neg (Int.cast_lt_zero.mpr hneg), ← abs_neg]
    congr 1
    ring
  · rw [hv, if_neg (Int.not_lt.mpr hnonneg), abs_of_nonneg (Int.cast_nonneg hnonneg)]

/-- Of the two numbers with a magnitude only the one on the same side is as near, unless it is
zero. -/
theorem eq_of_abs_eq {n : Int} {v w : ℚ} (hv : n = 0 → v = 0) (habs : |v| = |w|)
    (hdist : |v - n| = |w - n|) : v = w := by
  rcases abs_eq_abs.mp habs with hsame | hopposite
  · exact hsame
  · rcases abs_eq_abs.mp hdist with h | h
    · linarith
    · have hn : (n : ℚ) = 0 := by linarith
      have := hv (Int.cast_eq_zero.mp hn)
      linarith

/-- An integer is read as the double nearest to it. -/
theorem nearest_ofInt {n : Int} {size : Nat} (hn : n.natAbs < 2 ^ size) (hsize : size ≤ 1023) :
    Nearest (ofInt n) n := by
  obtain ⟨m, hm, hx⟩ := ofInt_eq hn hsize
  have hnear (k : Magnitude) := Magnitude.abs_nearest?_sub_le Nat.one_pos hm k
  simp only [cast_natAbs_div_one] at hnear
  obtain ⟨v, hv⟩ : ∃ v, (finite (n < 0) m).value? = some v := ⟨_, rfl⟩
  have hdist : |v - n| = |m.value - (|(n : ℚ)|)| := by
    refine abs_sub_of_sign ?_
    simpa [value?] using hv.symm
  refine ⟨_, m, v, hx, hx ▸ hv, ?_⟩
  intro y w hw
  cases y with
  | nan => cases hw
  | infinite s => cases hw
  | finite s k =>
    obtain ⟨hle, htie⟩ := hnear k
    have hbelow : |k.value - (|(n : ℚ)|)| ≤ |w - n| := by
      rw [← abs_value? hw]
      exact abs_abs_sub_abs_le w n
    refine ⟨hdist ▸ hle.trans hbelow, ?_⟩
    intro heq
    rcases htie (le_antisymm hle (hdist ▸ heq ▸ hbelow)) with hsame | heven
    · left
      refine eq_of_abs_eq ?_ ?_ heq
      · rintro rfl
        have hzero := (hnear .zero).1
        rw [Magnitude.value_zero, Int.cast_zero, abs_zero, sub_zero, sub_zero, abs_zero] at hzero
        rw [← abs_eq_zero, abs_value? hv]
        exact abs_nonpos_iff.mp hzero
      · rw [abs_value? hv, abs_value? hw, hsame]
    · exact .inr heven

/-- Halfway between two doubles the even mantissa is taken, above and below. -/
example : ofInt 9007199254740993 = ofInt 9007199254740992 ∧
    ofInt 9007199254740995 = ofInt 9007199254740996 := by
  decide +kernel

end Number

end PatternTree
