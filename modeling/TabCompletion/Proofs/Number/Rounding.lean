import Mathlib.Algebra.Group.Int.Defs
import Mathlib.Algebra.Group.Nat.Defs
import Mathlib.Data.Int.Order.Basic
import TabCompletion.Number.Binary64

/-!
# Integers rounded to double precision

Doubles about an integer are `spacing` apart, and `nearest` is the one that it is rounded to. Rounding
keeps the order of integers (`nearest_mono`) and changes none up to `2^53` (`nearest_of_le`), but it
may take two integers to one double. What an integer is ordered by as a double follows it
(`orderKey?_ofInt`, `place_mono`).
-/

namespace TabCompletion.Binary64

variable {a b den n m : Nat} {i j : Int}

/-! ## Rounding a quotient -/

theorem roundQuotient_mono (h : a ≤ b) (den : Nat) :
    roundQuotient a den ≤ roundQuotient b den := by
  have hq : a / den ≤ b / den := Nat.div_le_div_right h
  unfold roundQuotient
  extract_lets q twice q' twice'
  rcases Nat.lt_or_eq_of_le hq with hlt | heq
  · split <;> split <;> omega
  · -- With one quotient the remainders are in the order of the numerators.
    have hmod : a % den ≤ b % den := by
      have ha := Nat.div_add_mod a den
      have hb := Nat.div_add_mod b den
      rw [heq] at ha
      omega
    have hq' : q = q' := heq
    have htwice : twice ≤ twice' := Nat.mul_le_mul_left 2 hmod
    simp only [Bool.or_eq_true, Bool.and_eq_true, decide_eq_true_eq, beq_iff_eq]
    split <;> split <;> omega

theorem roundQuotient_mul (q : Nat) (hden : 0 < den) : roundQuotient (q * den) den = q := by
  have hmod : q * den % den = 0 := Nat.mul_mod_left q den
  have hdiv : q * den / den = q := Nat.mul_div_cancel q hden
  unfold roundQuotient
  simp only [hmod, hdiv]
  rw [if_neg]
  simp
  omega

/-! ## The nearest double -/

/-- The distance of the doubles about `n`. -/
def spacing (n : Nat) : Nat := 2 ^ (n.log2 - 52)

/-- The double nearest to `n`. -/
def nearest (n : Nat) : Nat := roundQuotient n (spacing n) * spacing n

theorem spacing_pos (n : Nat) : 0 < spacing n := Nat.two_pow_pos _

/-- Powers of two from `n.log2` on are multiples of the distance. -/
theorem roundQuotient_two_pow {k : Nat} (h : n.log2 ≤ k) :
    roundQuotient (2 ^ k) (spacing n) * spacing n = 2 ^ k := by
  have hmul : 2 ^ k = 2 ^ (k - (n.log2 - 52)) * spacing n := by
    rw [spacing, ← Nat.pow_add]
    congr 1
    omega
  rw [hmul, roundQuotient_mul _ (spacing_pos n)]

theorem two_pow_le_nearest (hn : n ≠ 0) : 2 ^ n.log2 ≤ nearest n := by
  rw [← roundQuotient_two_pow (Nat.le_refl n.log2)]
  exact Nat.mul_le_mul_right _ (roundQuotient_mono (Nat.log2_self_le hn) _)

theorem nearest_le_two_pow (n : Nat) : nearest n ≤ 2 ^ (n.log2 + 1) := by
  rw [← roundQuotient_two_pow (Nat.le_succ n.log2)]
  exact Nat.mul_le_mul_right _ (roundQuotient_mono (Nat.le_of_lt Nat.lt_log2_self) _)

/-- **Rounding keeps the order of integers.** -/
theorem nearest_mono (h : n ≤ m) : nearest n ≤ nearest m := by
  by_cases hn : n = 0
  · subst hn
    exact Nat.zero_le _
  have hm : m ≠ 0 := by omega
  have hlog : n.log2 ≤ m.log2 := (Nat.le_log2 hm).mpr (Nat.le_trans (Nat.log2_self_le hn) h)
  rcases Nat.lt_or_eq_of_le hlog with hlt | heq
  · -- A power of two lies between the integers, and rounding crosses none.
    calc nearest n ≤ 2 ^ (n.log2 + 1) := nearest_le_two_pow n
      _ ≤ 2 ^ m.log2 := Nat.pow_le_pow_right (by decide) hlt
      _ ≤ nearest m := two_pow_le_nearest hm
  · -- Between two powers of two all doubles are at one distance.
    have hspacing : spacing n = spacing m := by rw [spacing, spacing, heq]
    rw [nearest, nearest, hspacing]
    exact Nat.mul_le_mul_right _ (roundQuotient_mono h _)

/-- **Rounding changes no integer up to `2^53`.** -/
theorem nearest_of_le (h : n ≤ 2 ^ 53) : nearest n = n := by
  rcases Nat.lt_or_eq_of_le h with hlt | rfl
  · have hlog : n.log2 - 52 = 0 := by
      by_cases hn : n = 0
      · subst hn
        rfl
      · have := (Nat.log2_lt hn).mpr hlt
        omega
    rw [nearest, spacing, hlog]
    simpa using roundQuotient_mul n Nat.one_pos
  · exact roundQuotient_two_pow (Nat.le_of_eq Nat.log2_two_pow)

/-! ## What an integer is ordered by -/

/-- The mantissa that `n` is rounded to, with 53 binary digits or one more. -/
def digits (n : Nat) : Nat := roundQuotient (n * 2 ^ (52 - n.log2)) (spacing n)

theorem digits_mul (n : Nat) : digits n * 2 ^ n.log2 = nearest n * 2 ^ 52 := by
  rcases Nat.le_total n.log2 52 with hsmall | hlarge
  · have hspacing : spacing n = 1 := by rw [spacing, Nat.sub_eq_zero_of_le hsmall, Nat.pow_zero]
    have hone (q : Nat) : roundQuotient q 1 = q := by simpa using roundQuotient_mul q Nat.one_pos
    rw [digits, nearest, hspacing, hone, hone, Nat.mul_one, Nat.mul_assoc, ← Nat.pow_add,
      Nat.sub_add_cancel hsmall]
  · rw [digits, nearest, Nat.sub_eq_zero_of_le hlarge, Nat.pow_zero, Nat.mul_one, Nat.mul_assoc,
      spacing, ← Nat.pow_add, Nat.sub_add_cancel hlarge]

theorem digits_le (n : Nat) : digits n ≤ 2 ^ 53 := by
  refine Nat.le_of_mul_le_mul_right (c := 2 ^ n.log2) ?_ (Nat.two_pow_pos _)
  calc digits n * 2 ^ n.log2 = nearest n * 2 ^ 52 := digits_mul n
    _ ≤ 2 ^ (n.log2 + 1) * 2 ^ 52 := Nat.mul_le_mul_right _ (nearest_le_two_pow n)
    _ = 2 ^ 53 * 2 ^ n.log2 := by rw [← Nat.pow_add, ← Nat.pow_add]; congr 1; omega

theorem le_digits (hn : n ≠ 0) : 2 ^ 52 ≤ digits n := by
  refine Nat.le_of_mul_le_mul_right (c := 2 ^ n.log2) ?_ (Nat.two_pow_pos _)
  calc 2 ^ 52 * 2 ^ n.log2 = 2 ^ n.log2 * 2 ^ 52 := Nat.mul_comm _ _
    _ ≤ nearest n * 2 ^ 52 := Nat.mul_le_mul_right _ (two_pow_le_nearest hn)
    _ = digits n * 2 ^ n.log2 := (digits_mul n).symm

/-- The least integer that is rounded beyond all finite doubles, if it is a double itself. -/
def limit : Nat := Nat.pow 2 1024

theorem nearest_lt_limit_iff : nearest n < limit ↔ digits n * 2 ^ n.log2 < limit * 2 ^ 52 := by
  rw [digits_mul, Nat.mul_lt_mul_right (Nat.two_pow_pos _)]

/-- The limit is `2^1024`. The exponent stands apart so that the power is not worked out. -/
theorem limit_eq_two_pow : ∃ k, k = 1076 ∧ limit * 2 ^ 52 = 2 ^ k := ⟨_, rfl, by decide +kernel⟩

/-- A mantissa that is carried into one more digit is that of the next power of two. -/
theorem nearest_lt_limit_of_carry (h : digits n = 2 ^ 53) : nearest n < limit ↔ n.log2 < 1023 := by
  obtain ⟨k, hk, hpow⟩ := limit_eq_two_pow
  rw [nearest_lt_limit_iff, hpow, h, ← Nat.pow_add, Nat.pow_lt_pow_iff_right (by decide)]
  omega

theorem nearest_lt_limit_of_not_carry (hn : n ≠ 0) (h : digits n ≠ 2 ^ 53) :
    nearest n < limit ↔ n.log2 < 1024 := by
  obtain ⟨k, hk, hpow⟩ := limit_eq_two_pow
  rw [nearest_lt_limit_iff, hpow]
  constructor
  · intro hlt
    have hleast : 2 ^ 52 * 2 ^ n.log2 < 2 ^ k :=
      Nat.lt_of_le_of_lt (Nat.mul_le_mul_right _ (le_digits hn)) hlt
    rw [← Nat.pow_add, Nat.pow_lt_pow_iff_right (by decide)] at hleast
    omega
  · intro hlog
    have hmost : digits n < 2 ^ 53 := Nat.lt_of_le_of_ne (digits_le n) h
    calc digits n * 2 ^ n.log2 < 2 ^ 53 * 2 ^ n.log2 :=
          Nat.mul_lt_mul_of_pos_right hmost (Nat.two_pow_pos _)
      _ = 2 ^ (53 + n.log2) := (Nat.pow_add 2 53 n.log2).symm
      _ ≤ 2 ^ k := Nat.pow_le_pow_right (by decide) (by omega)

/-- How much `1` is in units of `2^-1074`. -/
def unit : Nat := Nat.pow 2 1074

theorem unit_pos : 0 < unit := by decide +kernel

/-- What a natural number is ordered by as a double: the nearest one, in units of `2^-1074`, or more
than any finite one. -/
def place (n : Nat) : Nat := if nearest n < limit then nearest n * unit else Nat.pow 2 2100

theorem place_mono (h : n ≤ m) : place n ≤ place m := by
  have hnearest := nearest_mono h
  have hlimit : limit * unit ≤ Nat.pow 2 2100 := by decide +kernel
  unfold place
  split
  · next hn =>
      split
      · exact Nat.mul_le_mul_right _ hnearest
      · exact Nat.le_trans (Nat.mul_le_mul_right _ (Nat.le_of_lt hn)) hlimit
  · next hn =>
      exact Nat.le_of_eq (if_neg fun hm => hn (Nat.lt_of_le_of_lt hnearest hm)).symm

theorem place_of_le (h : n ≤ 2 ^ 53) : place n = n * unit := by
  have hlimit : 2 ^ 53 < limit := by decide +kernel
  rw [place, nearest_of_le h, if_pos (Nat.lt_of_le_of_lt h hlimit)]

theorem exponentFor_one (hn : n ≠ 0) : exponentFor n 1 = n.log2 - 52 := by
  have hlog : Nat.log2 1 = 0 := by decide
  have hdigits : hiddenBit ≤ n * Nat.pow 2 (-((n.log2 : Int) - 52)).toNat /
      (1 * Nat.pow 2 ((n.log2 : Int) - 52).toNat) := by
    refine (Nat.le_div_iff_mul_le (Nat.mul_pos Nat.one_pos (Nat.two_pow_pos _))).mpr ?_
    calc hiddenBit * (1 * Nat.pow 2 ((n.log2 : Int) - 52).toNat)
        = 2 ^ 52 * 2 ^ ((n.log2 : Int) - 52).toNat := by rw [Nat.one_mul]; rfl
      _ = 2 ^ n.log2 * 2 ^ (-((n.log2 : Int) - 52)).toNat := by
          rw [← Nat.pow_add, ← Nat.pow_add]
          congr 1
          omega
      _ ≤ n * Nat.pow 2 (-((n.log2 : Int) - 52)).toNat :=
          Nat.mul_le_mul_right _ (Nat.log2_self_le hn)
  unfold exponentFor
  simp only [hlog, Int.ofNat_eq_natCast, Int.natCast_zero, Int.sub_zero, inUnits]
  rw [if_neg (Nat.not_lt.mpr hdigits), minExponent]
  omega

theorem orderKey?_infinite (h : limit ≤ nearest n) (negative : Bool) :
    (infinite negative).orderKey? = some (if negative then -(place n : Int) else place n) := by
  rw [place, if_neg (Nat.not_lt.mpr h)]
  rfl

theorem orderKey?_finite {mantissa k : Nat} {e : Int} (hmantissa : mantissa * 2 ^ k = digits n)
    (he : e = n.log2 - 52 + k) (h : nearest n < limit) (negative : Bool) :
    (finite negative mantissa e).orderKey? =
      some (if negative then -(place n : Int) else place n) := by
  have hunits : mantissa * Nat.pow 2 (e - minExponent).toNat = place n := by
    obtain ⟨j, hj⟩ : ∃ j, j = 1022 := ⟨_, rfl⟩
    have hexponent : (e - minExponent).toNat = k + n.log2 + j := by
      rw [he, hj, minExponent]
      omega
    have hunit : 2 ^ 52 * 2 ^ j = unit := by
      subst hj
      decide +kernel
    calc mantissa * Nat.pow 2 (e - minExponent).toNat
        = mantissa * 2 ^ (k + n.log2 + j) := by rw [hexponent]; rfl
      _ = mantissa * 2 ^ k * 2 ^ n.log2 * 2 ^ j := by
          rw [Nat.pow_add, Nat.pow_add, Nat.mul_assoc, Nat.mul_assoc, Nat.mul_assoc]
      _ = nearest n * unit := by rw [hmantissa, digits_mul, Nat.mul_assoc, hunit]
      _ = place n := (if_pos h).symm
  rw [orderKey?, hunits]
  rfl

theorem orderKey?_ofFraction (hn : n ≠ 0) (negative : Bool) :
    (ofFraction negative n 1).orderKey? =
      some (if negative then -(place n : Int) else place n) := by
  have hdigits : roundQuotient (n * Nat.pow 2 (-((n.log2 : Int) - 52)).toNat)
      (1 * Nat.pow 2 ((n.log2 : Int) - 52).toNat) = digits n := by
    have hpoint : (-((n.log2 : Int) - 52)).toNat = 52 - n.log2 := by omega
    have hspacing : ((n.log2 : Int) - 52).toNat = n.log2 - 52 := by omega
    rw [hpoint, hspacing, Nat.one_mul]
    rfl
  unfold ofFraction
  rw [if_neg hn]
  simp only [exponentFor_one hn, inUnits, hdigits, show 2 * hiddenBit = 2 ^ 53 from rfl]
  -- Rounding up to `2^53` moves the point, so the limit is met at another exponent.
  by_cases hcarry : digits n = 2 ^ 53
  · rw [if_pos hcarry]
    dsimp only
    split
    · next hlarge =>
        refine orderKey?_infinite (Nat.not_lt.mp (mt (nearest_lt_limit_of_carry hcarry).mp ?_)) _
        rw [maxExponent] at hlarge
        omega
    · next hsmall =>
        refine orderKey?_finite (k := 1) hcarry.symm rfl
          ((nearest_lt_limit_of_carry hcarry).mpr ?_) _
        rw [maxExponent] at hsmall
        omega
  · have hlimit := nearest_lt_limit_of_not_carry hn hcarry
    rw [if_neg hcarry]
    dsimp only
    split
    · next hlarge =>
        refine orderKey?_infinite (Nat.not_lt.mp (mt hlimit.mp ?_)) _
        rw [maxExponent] at hlarge
        omega
    · next hsmall =>
        refine orderKey?_finite (k := 0) (Nat.mul_one _) (Int.add_zero _).symm (hlimit.mpr ?_) _
        rw [maxExponent] at hsmall
        omega

/-- What an integer is ordered by as a double. -/
def placeOf (i : Int) : Int := if i < 0 then -(place i.natAbs : Int) else place i.natAbs

theorem orderKey?_ofInt (i : Int) : (ofInt i).orderKey? = some (placeOf i) := by
  by_cases hi : i = 0
  · subst hi
    decide +kernel
  · rw [ofInt, orderKey?_ofFraction (Int.natAbs_ne_zero.mpr hi), placeOf]
    simp only [decide_eq_true_eq]

theorem ofInt_ne_nan (i : Int) : ofInt i ≠ .nan := by
  intro h
  have hkey := orderKey?_ofInt i
  rw [h] at hkey
  contradiction

theorem placeOf_mono (h : i ≤ j) : placeOf i ≤ placeOf j := by
  unfold placeOf
  split
  · split
    · have : place j.natAbs ≤ place i.natAbs := place_mono (by omega)
      omega
    · omega
  · rw [if_neg (by omega)]
    have : place i.natAbs ≤ place j.natAbs := place_mono (by omega)
    omega

theorem below_ofInt_iff : (ofInt i).below (ofInt j) = true ↔ placeOf i < placeOf j := by
  rw [below, orderKey?_ofInt, orderKey?_ofInt]
  exact decide_eq_true_iff

/-- **Doubles tell apart the integers up to `2^53`.** -/
theorem below_ofInt_of_lt (hi : i.natAbs ≤ 2 ^ 53) (hj : j.natAbs ≤ 2 ^ 53) (h : i < j) :
    (ofInt i).below (ofInt j) = true := by
  have hplace (k : Int) (hk : k.natAbs ≤ 2 ^ 53) : placeOf k = k * unit := by
    rw [placeOf, place_of_le hk, Int.natCast_mul]
    split
    · rw [← Int.neg_mul, show -(k.natAbs : Int) = k by omega]
    · rw [show (k.natAbs : Int) = k by omega]
  rw [below_ofInt_iff, hplace i hi, hplace j hj]
  exact Int.mul_lt_mul_of_pos_right h (Int.natCast_pos.mpr unit_pos)

end TabCompletion.Binary64
