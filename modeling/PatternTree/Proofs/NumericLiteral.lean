import PatternTree.Proofs.Nearest
import PatternTree.Proofs.RoundTrip

/-!
# Numeric literals keep their values

A number is read as a double and written as an integer if the double is whole and small enough, and
as a real otherwise. `Numeral.Survives` says what that leaves of it: the value of the double,
always, and the form of an integer exactly up to `maxSafe`.

* `Number.safeInteger?_eq_some_iff_value?` says when a double is written as an integer in terms of
  its value.
* `Number.toInt64` is the conversion that keeps the result within 64 bits. An integer that is
  written is what it gives, and the bounds are out of reach.
* Integers up to `maxSafe` are doubles themselves (`Number.value?_ofInt_of_le`), and larger ones are
  read as larger doubles (`Number.maxSafe_lt_abs_value?`), so that rounding cannot turn one of them
  into a small one.
-/

namespace PatternTree

namespace Magnitude

theorem value_eq_natCast_iff {m : Magnitude} {n : Nat} :
    m.value = n ↔ m.units = n * unitsPerOne := by
  have hpos : (unitsPerOne : ℚ) ≠ 0 := Nat.cast_ne_zero.mpr (Nat.ne_of_gt unitsPerOne_pos)
  rw [value, div_eq_iff hpos, ← Nat.cast_mul, Nat.cast_inj]

/-- A magnitude is a whole number if its value is one. -/
theorem whole?_eq_some_iff {m : Magnitude} {n : Nat} : m.whole? = some n ↔ m.value = n := by
  rw [value_eq_natCast_iff]
  refine ⟨fun h => (mul_unitsPerOne_of_whole? h).symm, ?_⟩
  intro h
  rw [whole?, h, if_pos (Nat.mul_mod_left _ _), Nat.mul_div_cancel _ unitsPerOne_pos]

theorem units_eq_of_exponent {m : Magnitude} {e : Nat} (h : m.exponent = e + 1) :
    m.units = 2 * m.mantissa * 2 ^ e := by
  rw [units_eq, h, Nat.pow_succ, Nat.mul_comm 2, Nat.mul_assoc, Nat.mul_comm 2]

/-- The first whole number beyond `maxSafe`, `2 ^ 53`. -/
def beyondSafe : Magnitude :=
  ⟨0x10000000000000, 1074 + 1, by decide, .inr (by decide), by decide⟩

theorem value_beyondSafe : beyondSafe.value = (Number.maxSafe + 1 : Nat) := by
  have hmantissa : 2 * beyondSafe.mantissa = Number.maxSafe + 1 := rfl
  rw [value_eq_natCast_iff, units_eq_of_exponent (e := 1074) rfl, ← unitsPerOne_eq, hmantissa]

end Magnitude

namespace Number

/-! ## Numbers that are written as integers -/

section

variable {negative : Bool} {m : Magnitude} {k : Int} {v : ℚ}

/-- A double is written as an integer exactly when its value is that integer and is small enough. -/
theorem safeInteger?_eq_some_iff_value? (hv : (finite negative m).value? = some v) :
    (finite negative m).safeInteger? = some k ↔ v = k ∧ k.natAbs ≤ maxSafe := by
  simp only [safeInteger?_eq_some_iff, Magnitude.whole?_eq_some_iff]
  refine ⟨?_, ?_⟩
  · rintro ⟨n, hvalue, hn, rfl⟩
    obtain rfl := Option.some.inj hv
    cases negative with
    | false => exact ⟨by simpa using hvalue, by simpa using hn⟩
    | true => exact ⟨by simpa using hvalue, by simpa using hn⟩
  · rintro ⟨rfl, hk⟩
    have hvalue : m.value = k.natAbs := by
      rw [← abs_value? hv, Nat.cast_natAbs, Int.cast_abs]
    refine ⟨k.natAbs, hvalue, hk, ?_⟩
    rw [value?, hvalue, ← Int.cast_natCast, Option.some.injEq] at hv
    cases negative with
    | false => exact (Int.cast_inj.mp hv).symm
    | true =>
      rw [if_pos rfl, ← Int.cast_neg] at hv
      exact (Int.cast_inj.mp hv).symm

/-- A finite double is written as a numeral with its value, never as null. -/
theorem toDocument_finite (negative : Bool) (m : Magnitude) :
    ∃ y, (finite negative m).toDocument = .number y ∧
      y.toNumber.value? = (finite negative m).value? ∧
      ∀ k, y = .integer k ↔ (finite negative m).safeInteger? = some k := by
  rw [toDocument]
  cases h : (finite negative m).safeInteger? with
  | none => exact ⟨.real negative m, rfl, rfl, fun k => by simp⟩
  | some n =>
    refine ⟨.integer n, rfl, ?_, fun k => by simp⟩
    rw [Numeral.toNumber, ofInt_safeInteger h]
    split
    · next hzero =>
      -- the sign of a zero is lost, its value is not
      rw [hzero, zero, value?, value?, Magnitude.value_zero, neg_zero, ite_self, ite_self]
    · rfl

/-- The least integer of 64 bits. -/
def int64Min : Int := -0x8000000000000000

/-- The greatest integer of 64 bits. -/
def int64Max : Int := 0x7fffffffffffffff

/-- The number cut to an integer of 64 bits: fractions are dropped, what is out of range becomes the
nearest bound, and what is not a number zero. -/
def toInt64 : Number → Int
  | .nan => 0
  | .infinite negative => if negative then int64Min else int64Max
  | .finite negative m =>
    let n : Int := (m.units / unitsPerOne : Nat)
    max int64Min (min int64Max (if negative then -n else n))

/-- Where a double is written as an integer nothing is cut, and the bounds are out of reach. -/
theorem toInt64_of_safeInteger? (h : (finite negative m).safeInteger? = some k) :
    (finite negative m).toInt64 = k ∧ int64Min < k ∧ k < int64Max := by
  obtain ⟨n, hwhole, hn, rfl⟩ := safeInteger?_eq_some_iff.mp h
  have hunits : m.units / unitsPerOne = n := by
    rw [← Magnitude.mul_unitsPerOne_of_whole? hwhole, Nat.mul_div_cancel _ unitsPerOne_pos]
  simp only [toInt64, hunits, int64Min, int64Max, maxSafe] at hn ⊢
  cases negative with
  | false => simp only [Bool.false_eq_true, if_false]; omega
  | true => simp only [if_true]; omega

end

/-! ## Integers around `maxSafe` -/

/-- An integer up to `maxSafe` is its own value. -/
theorem value?_ofInt_of_le {n : Int} (hn : n.natAbs ≤ maxSafe) :
    (ofInt n).value? = some (n : ℚ) := by
  have hlt : n.natAbs < 2 ^ 53 := Nat.lt_of_le_of_lt hn (by decide)
  obtain ⟨m, hm, hx⟩ := ofInt_eq hlt (by decide)
  have hvalue : m.value = n.natAbs :=
    Magnitude.value_eq_natCast_iff.mpr (Magnitude.units_of_nearest?_of_lt hlt hm)
  rw [hx, value?, hvalue, Option.some.injEq, Nat.cast_natAbs, Int.cast_abs]
  rcases lt_or_ge n 0 with hneg | hnonneg
  · rw [decide_eq_true hneg, if_pos rfl, abs_of_neg (Int.cast_lt_zero.mpr hneg), neg_neg]
  · rw [decide_eq_false (Int.not_lt.mpr hnonneg), if_neg (by decide),
      abs_of_nonneg (Int.cast_nonneg hnonneg)]

/-- A larger integer is read as a larger double, the first one beyond `maxSafe` being one itself. -/
theorem maxSafe_lt_abs_value? {n : Int} {size : Nat} {v : ℚ} (hn : n.natAbs < 2 ^ size)
    (hsize : size ≤ 1023) (hlt : maxSafe < n.natAbs) (hv : (ofInt n).value? = some v) :
    (maxSafe : ℚ) < |v| := by
  obtain ⟨m, hm, hx⟩ := ofInt_eq hn hsize
  have hnear := (Magnitude.abs_nearest?_sub_le Nat.one_pos hm .beyondSafe).1
  have hle : ((maxSafe + 1 : Nat) : ℚ) ≤ n.natAbs := Nat.cast_le.mpr hlt
  rw [Nat.cast_one, div_one, Magnitude.value_beyondSafe,
    abs_of_nonpos (sub_nonpos.mpr hle)] at hnear
  -- a double below `2 ^ 53` would be further away than `2 ^ 53` itself
  have hbelow := neg_le_of_abs_le hnear
  have hsucc : (maxSafe : ℚ) < (maxSafe + 1 : Nat) := Nat.cast_lt.mpr (Nat.lt_succ_self _)
  rw [hx] at hv
  rw [abs_value? hv]
  linarith

end Number

/-! ## Numerals -/

namespace Numeral

/-- The numbers that documents hold: integers of 64 bits, with or without a sign, and finite
doubles. -/
def Held : Numeral → Prop
  | .integer n => -0x8000000000000000 ≤ n ∧ n < 0x10000000000000000
  | .real _ _ => True

/-- What is left of a number `x` that is read and written again as `y`. -/
structure Survives (x y : Numeral) : Prop where
  /-- both stand for one rational number -/
  value : ∃ v, x.toNumber.value? = some v ∧ y.toNumber.value? = some v
  /-- an integer is taken for the nearest double -/
  nearest (n : Int) : x = .integer n → x.toNumber.Nearest n
  /-- integers are written for the doubles that are whole and small enough, and for no others -/
  integer_iff (k : Int) :
    y = .integer k ↔ x.toNumber.value? = some (k : ℚ) ∧ k.natAbs ≤ Number.maxSafe
  /-- for these, conversion to 64 bits is exact and stays within its bounds -/
  exact (k : Int) :
    y = .integer k → x.toNumber.toInt64 = k ∧ Number.int64Min < k ∧ k < Number.int64Max
  /-- an integer comes back exactly if it is small enough -/
  same_iff (n : Int) : x = .integer n → (y = .integer n ↔ n.natAbs ≤ Number.maxSafe)
  /-- a larger one comes back as a real -/
  real_of_lt (n : Int) : x = .integer n → Number.maxSafe < n.natAbs → ∃ s m, y = .real s m

theorem Held.natAbs_lt {n : Int} (h : (integer n).Held) : n.natAbs < 2 ^ 64 := by
  obtain ⟨hlow, hhigh⟩ := h
  omega

/-- A number that a document holds is read as a finite double. -/
theorem Held.toNumber_eq {x : Numeral} (h : x.Held) : ∃ s m, x.toNumber = .finite s m := by
  cases x with
  | real s m => exact ⟨s, m, rfl⟩
  | integer n =>
    obtain ⟨m, -, hm⟩ := Number.ofInt_eq h.natAbs_lt (by decide)
    exact ⟨_, m, hm⟩

/-- A number that a document holds is written again as a number. -/
theorem Held.exists_survives {x : Numeral} (h : x.Held) :
    ∃ y, x.toNumber.toDocument = .number y ∧ Survives x y := by
  obtain ⟨s, m, hx⟩ := h.toNumber_eq
  obtain ⟨v, hv⟩ : ∃ v, (Number.finite s m).value? = some v := ⟨_, rfl⟩
  obtain ⟨y, hy, hvalue, hinteger⟩ := Number.toDocument_finite s m
  rw [← hx] at hv hy hvalue
  have hiff (k : Int) :
      y = .integer k ↔ x.toNumber.value? = some (k : ℚ) ∧ k.natAbs ≤ Number.maxSafe := by
    rw [hinteger, Number.safeInteger?_eq_some_iff_value? (hx ▸ hv), hv, Option.some.injEq]
  refine ⟨y, hy, ⟨v, hv, hvalue.trans hv⟩, ?_, hiff, ?_, ?_, ?_⟩
  · rintro n rfl
    exact Number.nearest_ofInt h.natAbs_lt (by decide)
  · intro k hk
    rw [hx]
    exact Number.toInt64_of_safeInteger? ((hinteger k).mp hk)
  · rintro n rfl
    rw [hiff]
    exact ⟨And.right, fun hle => ⟨Number.value?_ofInt_of_le hle, hle⟩⟩
  · rintro n rfl hlt
    cases y with
    | real s m => exact ⟨s, m, rfl⟩
    | integer k =>
      obtain ⟨hk, hle⟩ := (hiff k).mp rfl
      have hbeyond := Number.maxSafe_lt_abs_value? h.natAbs_lt (by decide) hlt hk
      rw [← Int.cast_abs, ← Nat.cast_natAbs, Nat.cast_lt] at hbeyond
      exact absurd hle (Nat.not_le.mpr hbeyond)

end Numeral

namespace Node

variable {fields : Fields} {l : Location} {x : Numeral} {raw : String}

/-- **Numeric literals keep their values as far as a double can hold them.** A literal with a number
is read, and written again as an object whose value is a number of the same value: an integer
exactly when the value is whole and at most `maxSafe` in size. -/
theorem literal_survives (settings : Settings) (held : x.Held) (tagged : Tagged fields .literal)
    (location : DenotesLocation (Fields.value? "location" fields) l)
    (valued : Fields.value? "value" fields = some (.number x))
    (written : Fields.value? "raw" fields = some (.string raw)) :
    ∃ n y emitted, (ofDocument (.object fields)).outcome = .ok n ∧
      n.toDocument settings = .object emitted ∧
      emitted = ("type", .string "Literal") :: l.toFields settings ++
        [("value", .number y), ("raw", .string raw)] ∧
      Fields.value? "value" emitted = some (.number y) ∧ x.Survives y := by
  obtain ⟨y, hy, hsurvives⟩ := held.exists_survives
  have hread := Denotes.literal tagged location valued (.number x) written
  have hvalue : Fields.value? "value"
      (nodeFields settings "Literal" l [("value", .number y), ("raw", .string raw)]) =
        some (.number y) :=
    value?_nodeFields (by decide) (by decide) (by decide)
  refine ⟨_, y, _, (readExactly _ _ _).mpr hread, ?_, rfl, hvalue, hsurvives⟩
  rw [← hy]
  rfl

/-- The first integer that is lost: `2 ^ 53 + 1` lies halfway between two doubles. -/
def firstLost : Fields :=
  [("type", .string "Literal"), ("value", .number (.integer 9007199254740993)),
    ("raw", .string "9007199254740993")]

theorem firstLost_survives :
    (Numeral.integer 9007199254740993).Held ∧ Tagged firstLost .literal ∧
      DenotesLocation (Fields.value? "location" firstLost) .unset ∧
      Fields.value? "value" firstLost = some (.number (.integer 9007199254740993)) ∧
      Fields.value? "raw" firstLost = some (.string "9007199254740993") ∧
      ∃ n y emitted, (ofDocument (.object firstLost)).outcome = .ok n ∧
        n.toDocument {} = .object emitted ∧
        emitted = ("type", .string "Literal") :: Location.unset.toFields {} ++
          [("value", .number y), ("raw", .string "9007199254740993")] ∧
        Fields.value? "value" emitted = some (.number y) ∧
        (Numeral.integer 9007199254740993).Survives y := by
  have held : (Numeral.integer 9007199254740993).Held := ⟨by decide, by decide⟩
  exact ⟨held, rfl, .missing, rfl, rfl, literal_survives {} held rfl .missing rfl rfl⟩

end Node

end PatternTree
