import CilDisasm.Float.Binary
import Mathlib.Algebra.Order.Field.Rat
import Mathlib.Tactic.Ring

/-!
# Comparison of floats

Floats are compared by their bits. That compares them as numbers: two floats agree exactly if
they stand for the same number or for the same infinity. Except for the zeros, a number has one
bit pattern, as the exponent field orders the numbers before the fraction does.
-/

namespace CilDisasm

/-!
# Equality of what bit patterns mean
-/

namespace Datum

def signed (negative : Bool) (significand : Nat) : Int :=
  if negative then -(significand : Int) else significand

/-- Equality as numbers. A NaN equals nothing, and infinities are equal by their signs. -/
inductive Equals : Datum -> Datum -> Prop where
  | infinite (negative : Bool) : Equals (.infinite negative) (.infinite negative)
  | finite {negative negative' narrow narrow' : Bool} {significand significand' : Nat}
      {exponent exponent' : Int}
      (h : (signed negative significand : Rat) * 2 ^ exponent =
        (signed negative' significand' : Rat) * 2 ^ exponent') :
      Equals (.finite negative significand exponent narrow)
        (.finite negative' significand' exponent' narrow')

theorem Equals.refl {datum : Datum} (h : datum ≠ .nan) : Equals datum datum := by
  cases datum with
  | nan => exact absurd rfl h
  | infinite negative => exact .infinite negative
  | finite => exact .finite rfl

theorem Equals.ne_nan {datum other : Datum} (h : Equals datum other) : datum ≠ .nan := by
  cases h <;> exact Datum.noConfusion

theorem equals_infinite_iff {negative negative' : Bool} :
    Equals (.infinite negative) (.infinite negative') <-> negative = negative' := by
  constructor
  · intro h
    cases h
    rfl
  · rintro rfl
    exact .infinite negative

theorem signed_eq_signed_iff {negative negative' : Bool} {number number' : Nat} :
    signed negative number = signed negative' number' <->
      number = number' ∧ (negative = negative' ∨ number = 0) := by
  unfold signed
  cases negative <;> cases negative' <;> simp <;> omega

theorem signed_mul (negative : Bool) (significand : Nat) (unit : Rat) :
    (signed negative significand : Rat) * unit =
      if negative then -((significand : Rat) * unit) else significand * unit := by
  cases negative <;> simp [signed]

theorem equals_finite_iff {negative negative' narrow narrow' : Bool}
    {significand significand' : Nat} {exponent exponent' : Int} :
    Equals (.finite negative significand exponent narrow)
        (.finite negative' significand' exponent' narrow') <->
      (signed negative significand : Rat) * 2 ^ exponent =
        (signed negative' significand' : Rat) * 2 ^ exponent' := by
  constructor
  · intro h
    cases h with
    | finite hequal => exact hequal
  · exact .finite

theorem equals_finite_iff_of_units {negative negative' narrow narrow' : Bool}
    {significand significand' number number' : Nat} {exponent exponent' least : Int}
    (h : (significand : Rat) * 2 ^ exponent = (number : Rat) * 2 ^ least)
    (h' : (significand' : Rat) * 2 ^ exponent' = (number' : Rat) * 2 ^ least) :
    Equals (.finite negative significand exponent narrow)
        (.finite negative' significand' exponent' narrow') <->
      number = number' ∧ (negative = negative' ∨ number = 0) := by
  have hunit : (2 : Rat) ^ least ≠ 0 := zpow_ne_zero least two_ne_zero
  rw [equals_finite_iff, signed_mul, signed_mul, h, h', ← signed_mul, ← signed_mul,
    mul_left_inj' hunit, Int.cast_inj, signed_eq_signed_iff]

end Datum

namespace FloatFormat

variable {format : FloatFormat} {bits others field field' fraction fraction' : Nat}

/-!
# Magnitudes

The magnitude of a number is counted in units of the least positive one.
-/

def magnitude (format : FloatFormat) (field fraction : Nat) : Nat :=
  if field = 0 then fraction
  else (Nat.pow 2 format.fractionBits + fraction) * Nat.pow 2 (field - 1)

theorem le_magnitude (h : field ≠ 0) :
    Nat.pow 2 format.fractionBits * Nat.pow 2 (field - 1) ≤ format.magnitude field fraction := by
  rw [magnitude, if_neg h]
  exact Nat.mul_le_mul_right _ (Nat.le_add_right _ _)

theorem magnitude_lt (hfraction : fraction < Nat.pow 2 format.fractionBits) :
    format.magnitude field fraction < Nat.pow 2 format.fractionBits * Nat.pow 2 field := by
  rw [magnitude]
  split
  · next hzero =>
      rw [hzero]
      exact Nat.lt_of_lt_of_le hfraction (Nat.le_mul_of_pos_right _ (Nat.pow_pos Nat.two_pos))
  · next hpositive =>
      have hdouble : Nat.pow 2 field = 2 * Nat.pow 2 (field - 1) := by
        rw [← Nat.sub_one_add_one hpositive]
        exact Nat.pow_succ'
      rw [hdouble, ← Nat.mul_assoc]
      refine Nat.mul_lt_mul_of_pos_right ?_ (Nat.pow_pos Nat.two_pos)
      omega

theorem magnitude_lt_of_field_lt (hfraction : fraction < Nat.pow 2 format.fractionBits)
    (h : field < field') :
    format.magnitude field fraction < format.magnitude field' fraction' := by
  have hle : Nat.pow 2 field ≤ Nat.pow 2 (field' - 1) :=
    Nat.pow_le_pow_right Nat.two_pos (by omega)
  calc format.magnitude field fraction
      < Nat.pow 2 format.fractionBits * Nat.pow 2 field := magnitude_lt hfraction
    _ ≤ Nat.pow 2 format.fractionBits * Nat.pow 2 (field' - 1) := Nat.mul_le_mul_left _ hle
    _ ≤ format.magnitude field' fraction' := le_magnitude (by omega)

theorem magnitude_inj (hfraction : fraction < Nat.pow 2 format.fractionBits)
    (hfraction' : fraction' < Nat.pow 2 format.fractionBits)
    (h : format.magnitude field fraction = format.magnitude field' fraction') :
    field = field' ∧ fraction = fraction' := by
  have hfield : field = field' := by
    rcases Nat.lt_trichotomy field field' with hlt | heq | hgt
    · exact absurd h (Nat.ne_of_lt (magnitude_lt_of_field_lt hfraction hlt))
    · exact heq
    · exact absurd h (Nat.ne_of_gt (magnitude_lt_of_field_lt hfraction' hgt))
  subst hfield
  refine ⟨rfl, ?_⟩
  unfold magnitude at h
  split at h
  · exact h
  · exact Nat.add_left_cancel (Nat.mul_right_cancel (Nat.pow_pos Nat.two_pos) h)

theorem magnitude_eq_zero_iff : format.magnitude field fraction = 0 <-> field = 0 ∧ fraction = 0 := by
  unfold magnitude
  split
  · next hzero => exact (and_iff_right hzero).symm
  · next hpositive =>
      have hlead : 0 < Nat.pow 2 format.fractionBits := Nat.pow_pos Nat.two_pos
      have hunit : 0 < Nat.pow 2 (field - 1) := Nat.pow_pos Nat.two_pos
      simp only [Nat.mul_eq_zero]
      omega

/-!
# Bit patterns

A bit pattern is its sign and what is below the sign.
-/

theorem unsigned_eq (format : FloatFormat) (bits : Nat) :
    format.unsigned bits =
      format.fraction bits + Nat.pow 2 format.fractionBits * format.exponentField bits := by
  have hsplit : Nat.pow 2 (format.fractionBits + format.exponentBits) =
      Nat.pow 2 format.fractionBits * Nat.pow 2 format.exponentBits := Nat.pow_add 2 _ _
  rw [unsigned, hsplit, Nat.mod_mul]
  rfl

theorem fraction_lt (format : FloatFormat) (bits : Nat) :
    format.fraction bits < Nat.pow 2 format.fractionBits :=
  Nat.mod_lt _ (Nat.pow_pos Nat.two_pos)

theorem unsigned_eq_zero_iff :
    format.unsigned bits = 0 <-> format.exponentField bits = 0 ∧ format.fraction bits = 0 := by
  have hlead : 0 < Nat.pow 2 format.fractionBits := Nat.pow_pos Nat.two_pos
  rw [unsigned_eq, Nat.add_eq_zero_iff, Nat.mul_eq_zero]
  omega

def Fits (format : FloatFormat) (bits : Nat) : Prop :=
  bits < Nat.pow 2 (format.fractionBits + format.exponentBits) * 2

theorem Fits.eq_of_unsigned_eq (hbits : format.Fits bits) (hothers : format.Fits others)
    (hsign : format.signBit bits = format.signBit others)
    (h : format.unsigned bits = format.unsigned others) : bits = others := by
  have hquotient := Nat.div_lt_of_lt_mul hbits
  have hquotient' := Nat.div_lt_of_lt_mul hothers
  have hbit : forall {quotient quotient' : Nat}, quotient < 2 -> quotient' < 2 ->
      (quotient % 2 = 1 <-> quotient' % 2 = 1) -> quotient = quotient' := by omega
  simp only [signBit, decide_eq_decide] at hsign
  have hequal := hbit hquotient hquotient' hsign
  unfold unsigned at h
  rw [← Nat.div_add_mod bits (Nat.pow 2 (format.fractionBits + format.exponentBits)), hequal, h]
  exact Nat.div_add_mod _ _

/-!
# Data
-/

theorem cast_pow_two (exponent : Nat) : ((Nat.pow 2 exponent : Nat) : Rat) = 2 ^ exponent := by
  have hcast : ((2 ^ exponent : Nat) : Rat) = ((2 : Nat) : Rat) ^ exponent :=
    Nat.cast_pow 2 exponent
  rw [Nat.cast_ofNat] at hcast
  exact hcast

theorem datum_cases (format : FloatFormat) (bits : Nat) :
    format.datum bits = .nan ∨
      (format.datum bits = .infinite (format.signBit bits) ∧ format.fraction bits = 0 ∧
        format.exponentField bits + 1 = Nat.pow 2 format.exponentBits) ∨
      exists significand exponent narrow,
        format.datum bits = .finite (format.signBit bits) significand exponent narrow ∧
          (significand : Rat) * 2 ^ exponent =
            (format.magnitude (format.exponentField bits) (format.fraction bits) : Rat) *
              2 ^ format.leastExponent := by
  simp only [datum]
  split
  · next hfield =>
      split
      · next hfraction => exact Or.inr (Or.inl ⟨rfl, hfraction, hfield⟩)
      · exact Or.inl rfl
  · refine Or.inr (Or.inr ?_)
    split
    · next hzero => exact ⟨_, _, _, rfl, by rw [magnitude, if_pos hzero]⟩
    · next hpositive =>
        refine ⟨_, _, _, rfl, ?_⟩
        rw [magnitude, if_neg hpositive, zpow_add₀ two_ne_zero, zpow_natCast, Nat.cast_mul,
          cast_pow_two (format.exponentField bits - 1)]
        ring

theorem datum_of_unsigned_eq_zero (hexponent : 0 < format.exponentBits)
    (h : format.unsigned bits = 0) :
    format.datum bits = .finite (format.signBit bits) 0 format.leastExponent false := by
  rcases unsigned_eq_zero_iff.mp h with ⟨hfield, hfraction⟩
  have hone : 0 + 1 ≠ Nat.pow 2 format.exponentBits :=
    Nat.ne_of_lt (Nat.one_lt_two_pow (Nat.ne_of_gt hexponent))
  simp only [datum, hfield, hfraction, if_neg hone, if_pos]

/-- What two bit patterns mean is equal if they are the same and no NaN, or if both are zeros. -/
theorem equals_datum_iff (hexponent : 0 < format.exponentBits) (hbits : format.Fits bits)
    (hothers : format.Fits others) :
    (format.datum bits).Equals (format.datum others) <->
      (bits = others ∧ format.datum bits ≠ .nan) ∨
        (format.unsigned bits = 0 ∧ format.unsigned others = 0) := by
  constructor
  · intro h
    rcases format.datum_cases bits with hnan | ⟨hinfinite, hfraction, hfield⟩ |
      ⟨_, _, _, hfinite, hunits⟩
    · rw [hnan] at h
      cases h
    · rcases format.datum_cases others with hnan' | ⟨hinfinite', hfraction', hfield'⟩ |
        ⟨_, _, _, hfinite', hunits'⟩
      · rw [hnan', hinfinite] at h
        cases h
      · have hequal := h
        rw [hinfinite, hinfinite', Datum.equals_infinite_iff] at hequal
        refine Or.inl ⟨hbits.eq_of_unsigned_eq hothers hequal ?_, h.ne_nan⟩
        rw [unsigned_eq, unsigned_eq, hfraction, hfraction',
          Nat.succ.inj (hfield.trans hfield'.symm)]
      · rw [hinfinite, hfinite'] at h
        cases h
    · rcases format.datum_cases others with hnan' | ⟨hinfinite', -, -⟩ |
        ⟨_, _, _, hfinite', hunits'⟩
      · rw [hnan', hfinite] at h
        cases h
      · rw [hinfinite', hfinite] at h
        cases h
      · have hequal := h
        rw [hfinite, hfinite', Datum.equals_finite_iff_of_units hunits hunits'] at hequal
        rcases hequal with ⟨hmagnitude, hsign | hzero⟩
        · rcases magnitude_inj (fraction_lt format bits) (fraction_lt format others) hmagnitude
            with ⟨hfield, hfraction⟩
          refine Or.inl ⟨hbits.eq_of_unsigned_eq hothers hsign ?_, h.ne_nan⟩
          rw [unsigned_eq, unsigned_eq, hfield, hfraction]
        · exact Or.inr ⟨unsigned_eq_zero_iff.mpr (magnitude_eq_zero_iff.mp hzero),
            unsigned_eq_zero_iff.mpr (magnitude_eq_zero_iff.mp (hmagnitude.symm.trans hzero))⟩
  · rintro (⟨rfl, hnot⟩ | ⟨hzero, hzero'⟩)
    · exact .refl hnot
    · rw [datum_of_unsigned_eq_zero hexponent hzero, datum_of_unsigned_eq_zero hexponent hzero']
      exact .finite (by simp [Datum.signed])

/-!
# Agreement
-/

theorem isZero_iff (hbits : format.Fits bits) :
    format.isZero bits = true <->
      bits = 0 ∨ bits = Nat.pow 2 (format.fractionBits + format.exponentBits) := by
  have hquotient := Nat.div_lt_of_lt_mul hbits
  rw [isZero, decide_eq_true_iff, unsigned]
  constructor
  · intro h
    have hsplit := Nat.div_add_mod bits (Nat.pow 2 (format.fractionBits + format.exponentBits))
    rw [h, Nat.add_zero] at hsplit
    rcases Nat.le_one_iff_eq_zero_or_eq_one.mp (Nat.le_of_lt_succ hquotient) with hzero | hone
    · rw [hzero, Nat.mul_zero] at hsplit
      exact Or.inl hsplit.symm
    · rw [hone, Nat.mul_one] at hsplit
      exact Or.inr hsplit.symm
  · rintro (rfl | rfl)
    · exact Nat.zero_mod _
    · exact Nat.mod_self _

theorem isNaN_eq_false_of_isZero (hexponent : 0 < format.exponentBits)
    (h : format.isZero bits = true) : format.isNaN bits = false := by
  rw [isNaN, datum_of_unsigned_eq_zero hexponent (of_decide_eq_true h)]
  rfl

theorem agrees_iff :
    format.agrees bits others = true <->
      (bits = others ∧ format.isNaN bits = false) ∨
        (format.isZero bits = true ∧ format.isZero others = true) := by
  simp only [agrees, Bool.or_eq_true, Bool.and_eq_true, Bool.not_eq_true', decide_eq_true_eq,
    and_comm]

/-- Floats agree exactly if they are equal as numbers. -/
theorem agrees_iff_equals (hexponent : 0 < format.exponentBits) (hbits : format.Fits bits)
    (hothers : format.Fits others) :
    format.agrees bits others = true <-> (format.datum bits).Equals (format.datum others) := by
  rw [agrees_iff, equals_datum_iff hexponent hbits hothers, isNaN, decide_eq_false_iff_not,
    isZero, isZero, decide_eq_true_eq, decide_eq_true_eq]

end FloatFormat

end CilDisasm
