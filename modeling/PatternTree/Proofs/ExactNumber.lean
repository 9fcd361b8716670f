import PatternTree.Export

/-!
# Numbers that documents hold exactly

A whole number that is small enough is written as an integer, and an integer is read as the double
nearest to it. Between the two nothing is lost but the sign of a zero:

* rounding a quotient that is a double gives that double (`Magnitude.nearest?_of_units`);
* so the integer that a double is written as is read as that double again
  (`Number.ofInt_safeInteger`).
-/

namespace PatternTree

theorem unitsPerOne_pos : 0 < unitsPerOne := by
  unfold unitsPerOne
  generalize 1074 = k
  exact Nat.two_pow_pos k

theorem roundDiv_mul (q : Nat) {den : Nat} (h : 0 < den) : roundDiv (q * den) den = q := by
  simp [roundDiv, Nat.mul_div_cancel _ h, h]

namespace Magnitude

theorem units_eq_zero_iff {m : Magnitude} : m.units = 0 ↔ m = zero := by
  refine ⟨?_, ?_⟩
  · intro h
    have hmantissa : m.mantissa = 0 :=
      (Nat.mul_eq_zero.mp h).resolve_right (Nat.ne_of_gt (Nat.two_pow_pos _))
    obtain ⟨mantissa, exponent, _, canonical, _⟩ := m
    obtain rfl : mantissa = 0 := hmantissa
    obtain rfl : exponent = 0 := by omega
    rfl
  · rintro rfl
    rfl

/-- The scale of a magnitude can be told from its size: all 53 bits are used, except on the finest
scale. -/
theorem log2_units_sub (m : Magnitude) : m.units.log2 - 52 = m.exponent := by
  by_cases h₀ : m.units = 0
  · rw [h₀, units_eq_zero_iff.mp h₀, Nat.log2_zero]
    rfl
  · rcases m.canonical with hexponent | hmantissa
    · -- on the finest scale there are fewer bits, and the subtraction stops at zero
      have hlog : m.units.log2 < 53 := by
        rw [Nat.log2_lt h₀, units, hexponent]
        simpa using m.mantissa_lt
      omega
    · have hlog : m.units.log2 = 52 + m.exponent := by
        rw [Nat.log2_eq_iff h₀, Nat.pow_add, Nat.add_right_comm, Nat.pow_add]
        exact ⟨Nat.mul_le_mul_right _ hmantissa,
          Nat.mul_lt_mul_of_pos_right m.mantissa_lt (Nat.two_pow_pos _)⟩
      omega

theorem ofParts?_self (m : Magnitude) : ofParts? m.mantissa m.exponent = some m := by
  rw [ofParts?, dif_pos ⟨m.mantissa_lt, m.canonical, m.exponent_le⟩]

/-- A quotient that is a double is rounded to itself. -/
theorem nearest?_of_units {m : Magnitude} {num den : Nat} (hden : 0 < den)
    (h : num * unitsPerOne = m.units * den) : nearest? num den = some m := by
  have hscaled : m.units * den = m.mantissa * (den * Nat.pow 2 m.exponent) := by
    rw [units, Nat.mul_assoc, Nat.mul_comm (Nat.pow 2 m.exponent)]
  have hpos : 0 < den * Nat.pow 2 m.exponent := Nat.mul_pos hden (Nat.two_pow_pos _)
  unfold nearest?
  simp only
  rw [h, Nat.mul_div_cancel _ hden, log2_units_sub, hscaled, roundDiv_mul _ hpos,
    if_neg (Nat.ne_of_lt m.mantissa_lt)]
  exact ofParts?_self m

theorem mul_unitsPerOne_of_whole? {m : Magnitude} {n : Nat} (h : m.whole? = some n) :
    n * unitsPerOne = m.units := by
  unfold whole? at h
  split at h
  · next hmod =>
    obtain rfl := Option.some.inj h
    exact Nat.div_mul_cancel (Nat.dvd_of_mod_eq_zero hmod)
  · cases h

end Magnitude

namespace Number

theorem safeInteger?_eq_some_iff {negative : Bool} {m : Magnitude} {k : Int} :
    (finite negative m).safeInteger? = some k ↔
      ∃ n : Nat, m.whole? = some n ∧ n ≤ maxSafe ∧ k = if negative then -(n : Int) else n := by
  simp only [safeInteger?]
  cases m.whole? with
  | none => simp
  | some n => simp [eq_comm]

/-- Either zero is written as an integer. -/
theorem safeInteger?_zero (negative : Bool) : (finite negative .zero).safeInteger? = some 0 := by
  rw [safeInteger?_eq_some_iff]
  refine ⟨0, ?_, Nat.zero_le _, ?_⟩
  · rw [Magnitude.whole?, Magnitude.units_eq_zero_iff.mpr rfl, Nat.zero_mod, if_pos rfl,
      Nat.zero_div]
  · cases negative <;> rfl

/-- The integer that a double is written as is read as that double, zero without its sign. -/
theorem ofInt_safeInteger {negative : Bool} {m : Magnitude} {k : Int}
    (h : (finite negative m).safeInteger? = some k) :
    ofInt k = if m = .zero then zero else finite negative m := by
  obtain ⟨n, hwhole, -, rfl⟩ := safeInteger?_eq_some_iff.mp h
  have hunits := Magnitude.mul_unitsPerOne_of_whole? hwhole
  have hnearest : Magnitude.nearest? n 1 = some m :=
    Magnitude.nearest?_of_units Nat.one_pos (by rw [hunits, Nat.mul_one])
  have habs : (if negative = true then -(n : Int) else n).natAbs = n := by
    cases negative <;> simp
  rw [ofInt, habs, hnearest, ofMagnitude]
  by_cases hzero : m = .zero
  · have hn : n = 0 := by
      rw [hzero, Magnitude.units_eq_zero_iff.mpr rfl] at hunits
      exact (Nat.mul_eq_zero.mp hunits).resolve_right (Nat.ne_of_gt unitsPerOne_pos)
    rw [if_pos hzero, hn, hzero]
    cases negative <;> rfl
  · have hn : n ≠ 0 := by
      rintro rfl
      rw [Nat.zero_mul, eq_comm] at hunits
      exact hzero (Magnitude.units_eq_zero_iff.mp hunits)
    rw [if_neg hzero]
    cases negative with
    | false => simp
    | true => simp [Nat.pos_of_ne_zero hn]

end Number

end PatternTree
