import Mathlib
import Stepwise.Number.Text

/-!
Numbers that a run of digits stands for are whole, and their text is again a run of digits. Reading
it back gives the number it is the text of (`shown_render`): the double nearest to a whole
number is a whole number, every whole double is the nearest to itself, and the shortest decimal is
looked for no further than up to the last digit before the point.
-/
namespace Stepwise.Number

/-! ## Powers -/

theorem tenTo_eq (n : Nat) : tenTo n = 10 ^ n := rfl

theorem twoTo_add (m n : Nat) : twoTo (m + n) = twoTo m * twoTo n :=
  Nat.pow_add 2 m n

theorem twoTo_succ (n : Nat) : twoTo (n + 1) = 2 * twoTo n :=
  Nat.pow_succ'

theorem tenTo_succ (n : Nat) : tenTo (n + 1) = 10 * tenTo n :=
  Nat.pow_succ'

theorem twoTo_pos (n : Nat) : 0 < twoTo n :=
  Nat.pow_pos (by decide)

theorem tenTo_pos (n : Nat) : 0 < tenTo n :=
  Nat.pow_pos (by decide)

theorem twoTo_le {m n : Nat} (le : m ≤ n) : twoTo m ≤ twoTo n :=
  Nat.pow_le_pow_right (by decide) le

theorem le_log2 {m n : Nat} (some : n ≠ 0) (large : twoTo m ≤ n) : m ≤ n.log2 :=
  (Nat.le_log2 some).mpr large

theorem twoTo_mul (m n : Nat) : twoTo (m * n) = twoTo m ^ n :=
  Nat.pow_mul 2 m n

theorem tenTo_mul (m n : Nat) : tenTo (m * n) = tenTo m ^ n :=
  Nat.pow_mul 10 m n

/-- A number of 1024 bits has at most 309 digits. -/
theorem twoTo_le_tenTo : twoTo 1024 ≤ tenTo 309 := by
  have small : twoTo 93 ≤ tenTo 28 := by decide
  calc twoTo 1024 = 2 * twoTo 93 ^ 11 := by rw [← twoTo_mul, ← twoTo_succ]
    _ ≤ 10 * tenTo 28 ^ 11 := Nat.mul_le_mul (by decide) (Nat.pow_le_pow_left small 11)
    _ = tenTo 309 := by rw [← tenTo_mul, ← tenTo_succ]

theorem binade_pos : 0 < binade :=
  twoTo_pos 52

theorem unitsPerOne_pos : 0 < unitsPerOne :=
  twoTo_pos 1074

/-! ## The double at an ordinal -/

open Float.Model in
theorem toBits_ofBits {bits : UInt64} (valid : Format.binary64.Valid bits.toBitVec) :
    (Float.ofBits bits).toBits = bits :=
  congrArg Float.toBits (Float.ofBits_toBits (.ofModel ⟨bits, valid⟩))

open Float.Model in
/-- Up to infinity no bits are set aside. -/
theorem valid_of_le {k : Nat} (bound : k ≤ infinity) : Format.binary64.Valid (UInt64.ofNat k).toBitVec := by
  have top : infinity = 2047 * 2 ^ 52 := rfl
  constructor
  intro exponent mantissa
  refine absurd (BitVec.eq_of_toNat_eq ?_) mantissa
  have full : ((k % 2 ^ 64) >>> 52) % 2 ^ 11 = 2047 := congrArg BitVec.toNat exponent
  show ((k % 2 ^ 64) >>> 0) % 2 ^ 52 = 0
  simp only [Nat.shiftRight_eq_div_pow] at full ⊢
  omega

theorem shape_ofOrdinal {k : Nat} (bound : k ≤ infinity) :
    shape (ofOrdinal false k) = if k = infinity then .infinite false else .finite false k := by
  have top : infinity = 2047 * 2 ^ 52 := rfl
  have sign : signBit = 2 ^ 63 := rfl
  have bits : (ofOrdinal false k).toBits.toNat = k := by
    rw [ofOrdinal, if_neg (by decide), toBits_ofBits (valid_of_le bound), UInt64.toNat_ofNat']
    exact Nat.mod_eq_of_lt (by omega)
  have positive : decide (signBit ≤ k) = false := decide_eq_false (by omega)
  have small : k % signBit = k := Nat.mod_eq_of_lt (by omega)
  simp only [shape, bits, positive, small, if_neg (Nat.not_lt.mpr bound)]

/-! ## The doubles nearest to whole numbers -/

theorem roundDiv_mul (quotient : Nat) {denominator : Nat} (positive : 0 < denominator) :
    roundDiv (quotient * denominator) denominator = quotient := by
  simp only [roundDiv, Nat.mul_mod_left, Nat.mul_div_cancel quotient positive, Nat.mul_zero,
    Nat.compare_eq_lt.mpr positive]

theorem roundDiv_bounds (numerator denominator : Nat) :
    numerator / denominator ≤ roundDiv numerator denominator ∧
      roundDiv numerator denominator ≤ numerator / denominator + 1 := by
  simp only [roundDiv]
  split <;> constructor <;> omega

/-- The double with significand `q`, or the first one of the next stretch. -/
theorem units_eq {s q : Nat} (low : binade ≤ q) (high : q ≤ 2 * binade) :
    units (s * binade + q) = q * twoTo s := by
  have some := binade_pos
  have quotient : (s * binade + q) / binade = s + q / binade := by
    rw [Nat.add_comm, Nat.add_mul_div_right q s some, Nat.add_comm]
  rcases Nat.lt_or_eq_of_le high with below | rfl
  · have one : q / binade = 1 := Nat.div_eq_of_lt_le (by omega) (by omega)
    have place : shift (s * binade + q) = s := by
      rw [shift, quotient, one]
      rfl
    rw [units, significand, place, Nat.add_sub_cancel_left]
  · have two : 2 * binade / binade = 2 := Nat.mul_div_cancel 2 some
    have place : shift (s * binade + 2 * binade) = s + 1 := by
      rw [shift, quotient, two]
      rfl
    have rest : s * binade + 2 * binade - (s + 1) * binade = binade := by
      rw [Nat.add_mul]
      omega
    rw [units, significand, place, rest, twoTo_succ]
    ring

/-- The significand of a double behind the first stretch. -/
theorem significand_bounds {k : Nat} (normal : binade ≤ k) :
    binade ≤ significand k ∧ significand k < 2 * binade ∧ shift k * binade + significand k = k := by
  have some := binade_pos
  have stretch : 1 ≤ k / binade := Nat.div_pos normal some
  have split := Nat.div_add_mod' k binade
  have inside := Nat.mod_lt k some
  obtain ⟨t, next⟩ := Nat.exists_eq_add_of_le stretch
  have place : shift k = t := by
    rw [shift, next]
    omega
  rw [next, Nat.add_mul] at split
  rw [significand, place]
  omega

theorem nearest_one (n : Nat) :
    nearest n 1 = min infinity (((n * unitsPerOne).log2 - 52) * binade +
      roundDiv (n * unitsPerOne) (twoTo ((n * unitsPerOne).log2 - 52))) := by
  simp only [nearest, Nat.div_one, Nat.one_mul]

/-- A double is put together from its significand and the stretch it is in. -/
theorem shift_significand (k : Nat) : shift k * binade + significand k = k := by
  have stretch : shift k * binade ≤ k / binade * binade := Nat.mul_le_mul_right _ (Nat.sub_le _ _)
  have below := Nat.div_mul_le_self k binade
  rw [significand]
  omega

/-- The doubles of the first stretch are counted by the smallest one. -/
theorem units_of_lt {k : Nat} (first : k < binade) : shift k = 0 ∧ units k = k := by
  have stretch : shift k = 0 := by rw [shift, Nat.div_eq_of_lt first]
  refine ⟨stretch, ?_⟩
  rw [units, significand, stretch, Nat.zero_mul, Nat.sub_zero]
  exact Nat.mul_one k

/-- The length of a double in the smallest units tells its stretch. -/
theorem log2_units (k : Nat) : (units k).log2 - 52 = shift k := by
  have positive := twoTo_pos (shift k)
  rcases Nat.lt_or_ge k binade with first | normal
  · obtain ⟨stretch, same⟩ := units_of_lt first
    rw [same, stretch]
    by_cases none : k = 0
    · rw [none, Nat.log2_zero]
    · have short := (Nat.log2_lt none).mpr first
      omega
  · obtain ⟨low, high, -⟩ := significand_bounds normal
    have below := Nat.mul_le_mul_right (twoTo (shift k)) low
    have above := Nat.mul_lt_mul_of_pos_right high positive
    have first : 2 ^ (shift k + 52) = binade * twoTo (shift k) := Nat.pow_add' 2 _ 52
    have last : 2 ^ (shift k + 52 + 1) = 2 * binade * twoTo (shift k) := by
      rw [Nat.pow_succ, first, Nat.mul_comm _ 2, Nat.mul_assoc]
    have more : units k ≠ 0 := by
      have := Nat.mul_pos binade_pos positive
      simp only [units]
      omega
    have length : (units k).log2 = shift k + 52 := by
      rw [Nat.log2_eq_iff more, first, last]
      exact ⟨below, above⟩
    rw [length, Nat.add_sub_cancel]

/-- A quotient that is a double is nearest to it. -/
theorem nearest_of_eq {k numerator denominator : Nat} (bound : k ≤ infinity) (positive : 0 < denominator)
    (same : numerator * unitsPerOne = units k * denominator) : nearest numerator denominator = k := by
  have grid : units k * denominator = significand k * (denominator * twoTo (shift k)) := by
    rw [units]
    ring
  simp only [nearest, same, Nat.mul_div_cancel _ positive, log2_units]
  rw [grid, roundDiv_mul _ (Nat.mul_pos positive (twoTo_pos _)), shift_significand]
  exact Nat.min_eq_right bound

/-- A whole double is the nearest to itself. -/
theorem nearest_of_units {k m : Nat} (bound : k ≤ infinity) (whole : units k = m * unitsPerOne) :
    nearest m 1 = k :=
  nearest_of_eq bound Nat.one_pos (by rw [Nat.mul_one, whole])

/-- The double nearest to a whole number, if there is one, is whole. -/
theorem whole_nearest {n : Nat} (some : n ≠ 0) (finite : nearest n 1 < infinity) :
    binade ≤ nearest n 1 ∧ ∃ m, units (nearest n 1) = m * unitsPerOne := by
  generalize scaled : n * unitsPerOne = u
  have large : unitsPerOne ≤ u := by
    rw [← scaled]
    exact Nat.le_mul_of_pos_left _ (Nat.pos_of_ne_zero some)
  have more : u ≠ 0 := by
    have := unitsPerOne_pos
    omega
  have length : 1074 ≤ u.log2 := le_log2 more large
  obtain ⟨s, place⟩ := Nat.exists_eq_add_of_le' (Nat.le_trans (by decide : 52 ≤ 1074) length)
  have positive := twoTo_pos s
  obtain ⟨low, high⟩ := (Nat.log2_eq_iff more).mp place
  have below : binade ≤ u / twoTo s := by
    rw [Nat.le_div_iff_mul_le positive]
    exact Nat.le_trans (Nat.le_of_eq (Nat.pow_add' 2 s 52).symm) low
  have above : u / twoTo s < 2 * binade := by
    rw [Nat.div_lt_iff_lt_mul positive]
    refine Nat.lt_of_lt_of_eq high ?_
    rw [Nat.pow_succ, Nat.pow_add', Nat.mul_comm _ 2, Nat.mul_assoc]
    rfl
  obtain ⟨down, up⟩ := roundDiv_bounds u (twoTo s)
  rw [nearest_one, scaled, place, Nat.add_sub_cancel] at finite ⊢
  have inside := lt_of_not_ge fun beyond => absurd finite (by rw [Nat.min_eq_left beyond]; exact Nat.lt_irrefl _)
  rw [Nat.min_eq_right (Nat.le_of_lt inside)]
  refine ⟨by omega, ?_⟩
  rw [units_eq (by omega) (by omega)]
  rcases Nat.le_total 1074 s with coarse | fine
  · obtain ⟨t, rfl⟩ := Nat.exists_eq_add_of_le' coarse
    exact ⟨roundDiv u (twoTo (t + 1074)) * twoTo t, by rw [twoTo_add, Nat.mul_assoc]; rfl⟩
  · obtain ⟨t, depth⟩ := Nat.exists_eq_add_of_le' fine
    have exact_ : u = n * twoTo t * twoTo s := by
      rw [← scaled, unitsPerOne, depth, twoTo_add, Nat.mul_assoc]
    refine ⟨n, ?_⟩
    rw [exact_, roundDiv_mul _ positive, ← exact_, scaled]

/-! ## Decimals without a fraction -/

theorem digitCount_pos {n : Nat} (some : n ≠ 0) : 1 ≤ digitCount n := by
  rw [digitCount, if_neg some]
  omega

theorem digitCount_le {n d : Nat} (bound : n < tenTo d) : digitCount n ≤ d := by
  induction d generalizing n with
  | zero =>
    obtain rfl : n = 0 := Nat.lt_one_iff.mp bound
    rw [digitCount, if_pos rfl]
  | succ d ih =>
    rw [tenTo_succ] at bound
    have shorter := ih (Nat.div_lt_of_lt_mul bound)
    rw [digitCount]
    split <;> omega

theorem digitCount_scale {n : Nat} (some : n ≠ 0) (e : Nat) : digitCount (n * tenTo e) = digitCount n + e := by
  induction e with
  | zero => rw [tenTo_eq, Nat.pow_zero, Nat.mul_one, Nat.add_zero]
  | succ e ih =>
    have grown : n * tenTo (e + 1) = 10 * (n * tenTo e) := by
      rw [tenTo_succ]
      ring
    have more : 10 * (n * tenTo e) ≠ 0 := by
      have := Nat.mul_pos (Nat.pos_of_ne_zero some) (tenTo_pos e)
      omega
    rw [grown, digitCount, if_neg more, Nat.mul_div_cancel_left _ (by decide), ih, Nat.add_assoc]

theorem toOrdinal_le (d : Decimal) : d.toOrdinal ≤ infinity := by
  have near : d.nearest ≤ infinity := by
    rw [Decimal.nearest]
    split <;> exact Nat.min_le_left _ _
  rw [Decimal.toOrdinal]
  split
  · exact Nat.zero_le _
  · split
    · exact Nat.le_refl _
    · split
      · exact Nat.zero_le _
      · exact near

theorem roundDiv_scale {c : Nat} (more : 0 < c) (numerator denominator : Nat) :
    roundDiv (c * numerator) (c * denominator) = roundDiv numerator denominator := by
  have twice : 2 * (c * (numerator % denominator)) = c * (2 * (numerator % denominator)) := by ring
  have order : compare (c * (2 * (numerator % denominator))) (c * denominator) =
      compare (2 * (numerator % denominator)) denominator := by
    simp only [compare, compareOfLessAndEq, Nat.mul_lt_mul_left more, Nat.mul_right_inj (Nat.ne_of_gt more)]
  simp only [roundDiv, Nat.mul_div_mul_left _ _ more, Nat.mul_mod_mul_left, twice, order]

theorem nearest_scale {c : Nat} (more : 0 < c) (numerator denominator : Nat) :
    nearest (c * numerator) (c * denominator) = nearest numerator denominator := by
  simp only [nearest, Nat.mul_assoc, Nat.mul_div_mul_left _ _ more, roundDiv_scale more]

theorem nearest_tenfold (digits : Nat) (exponent : Int) :
    Decimal.nearest ⟨10 * digits, exponent⟩ = Decimal.nearest ⟨digits, exponent + 1⟩ := by
  simp only [Decimal.nearest]
  by_cases whole : 0 ≤ exponent
  · have next : (exponent + 1).toNat = exponent.toNat + 1 := by omega
    have tenfold : 10 * digits * tenTo exponent.toNat = digits * (10 * tenTo exponent.toNat) := by ring
    rw [if_pos whole, if_pos (by omega), next, tenTo_succ, tenfold]
  · obtain ⟨behind, place⟩ : ∃ behind : Nat, exponent = -(behind + 1 : Nat) :=
      ⟨(-exponent).toNat - 1, by omega⟩
    have last : (-exponent).toNat = behind + 1 := by omega
    rw [if_neg whole, last, tenTo_succ, nearest_scale (by decide)]
    by_cases edge : behind = 0
    · have zero : (exponent + 1).toNat = 0 := by omega
      rw [if_pos (by omega), zero, edge]
      exact congrArg₂ nearest (Nat.mul_one digits).symm rfl
    · have next : (-(exponent + 1)).toNat = behind := by omega
      rw [if_neg (by omega), next]

theorem toOrdinal_tenfold (digits : Nat) (exponent : Int) :
    Decimal.toOrdinal ⟨10 * digits, exponent⟩ = Decimal.toOrdinal ⟨digits, exponent + 1⟩ := by
  by_cases none : digits = 0
  · rw [none, Nat.mul_zero, Decimal.toOrdinal, Decimal.toOrdinal, if_pos rfl, if_pos rfl]
  · have more : 10 * digits ≠ 0 := Nat.mul_ne_zero (by decide) none
    have length : digitCount (10 * digits) = digitCount digits + 1 := by
      rw [digitCount, if_neg more, Nat.mul_div_cancel_left _ (by decide)]
    have place : Decimal.magnitude ⟨10 * digits, exponent⟩ = Decimal.magnitude ⟨digits, exponent + 1⟩ := by
      simp only [Decimal.magnitude, length]
      omega
    simp only [Decimal.toOrdinal, if_neg none, if_neg more, place, nearest_tenfold]

theorem toOrdinal_dropZero (d : Decimal) : d.dropZero.toOrdinal = d.toOrdinal := by
  rw [Decimal.dropZero]
  split
  · next zero =>
    rw [← toOrdinal_tenfold, Nat.mul_div_cancel' (Nat.dvd_of_mod_eq_zero zero)]
  · rfl

/-- A power of ten can be written out. -/
theorem toOrdinal_scale (d e : Nat) : Decimal.toOrdinal ⟨d, e⟩ = Decimal.toOrdinal ⟨d * tenTo e, 0⟩ := by
  induction e generalizing d with
  | zero => rw [tenTo_eq, Nat.pow_zero, Nat.mul_one, Nat.cast_zero]
  | succ e ih =>
    have tenfold : d * tenTo (e + 1) = 10 * d * tenTo e := by
      rw [tenTo_succ]
      ring
    rw [tenfold, ← ih, toOrdinal_tenfold, Nat.cast_add_one]

theorem units_bounds {k : Nat} (positive : 0 < k) (finite : k < infinity) :
    0 < units k ∧ units k < twoTo 1024 * unitsPerOne := by
  have last : 2 * binade * twoTo 2045 = twoTo 1024 * unitsPerOne := by
    rw [binade, ← twoTo_succ, ← twoTo_add, unitsPerOne, ← twoTo_add]
  rcases Nat.lt_or_ge k binade with first | normal
  · obtain ⟨-, same⟩ := units_of_lt first
    have one := twoTo_pos 2045
    have below : binade * 1 ≤ binade * (2 * twoTo 2045) := Nat.mul_le_mul_left binade (by omega)
    rw [same]
    refine ⟨positive, Nat.lt_of_lt_of_eq (Nat.lt_of_lt_of_le (Nat.lt_of_lt_of_eq first ?_) below) ?_⟩
    · exact (Nat.mul_one binade).symm
    · rw [← last]
      ring
  · obtain ⟨low, high, -⟩ := significand_bounds normal
    have scale := twoTo_pos (shift k)
    have stretch : shift k ≤ 2045 := by
      have inside : k / binade < 2047 := (Nat.div_lt_iff_lt_mul binade_pos).mpr finite
      rw [shift]
      omega
    refine ⟨Nat.mul_pos (Nat.lt_of_lt_of_le binade_pos low) scale, ?_⟩
    calc units k < 2 * binade * twoTo (shift k) := Nat.mul_lt_mul_of_pos_right high scale
      _ ≤ 2 * binade * twoTo 2045 := Nat.mul_le_mul_left _ (twoTo_le stretch)
      _ = twoTo 1024 * unitsPerOne := last

/-- A finite double that is whole stands for a number of at most 309 digits. -/
theorem whole_bounds {k m : Nat} (positive : 0 < k) (finite : k < infinity) (whole : units k = m * unitsPerOne) :
    m ≠ 0 ∧ m < tenTo 309 := by
  obtain ⟨some, below⟩ := units_bounds positive finite
  rw [whole] at some below
  exact ⟨Nat.ne_of_gt (Nat.pos_of_mul_pos_right some),
    Nat.lt_of_lt_of_le (Nat.lt_of_mul_lt_mul_right below) twoTo_le_tenTo⟩

/-- A decimal that is neither beyond all finite doubles nor too small is rounded. -/
theorem toOrdinal_of_magnitude {d : Decimal} (some : d.digits ≠ 0) (above : -330 ≤ d.magnitude)
    (below : d.magnitude ≤ 310) : d.toOrdinal = d.nearest := by
  rw [Decimal.toOrdinal, if_neg some, if_neg (Int.not_lt.mpr below), if_neg (Int.not_lt.mpr above)]

/-- All digits of a whole double are read back as the double. -/
theorem toOrdinal_of_units {k m : Nat} (positive : 0 < k) (finite : k < infinity)
    (whole : units k = m * unitsPerOne) : Decimal.toOrdinal ⟨m, 0⟩ = k := by
  obtain ⟨some, small⟩ := whole_bounds positive finite whole
  have length := digitCount_le small
  have near : Decimal.nearest ⟨m, 0⟩ = k := by
    have one : tenTo 0 = 1 := rfl
    simp only [Decimal.nearest, le_refl, ↓reduceIte, Int.toNat_zero, one, Nat.mul_one]
    exact nearest_of_units (Nat.le_of_lt finite) whole
  rw [toOrdinal_of_magnitude some, near]
  all_goals
    simp only [Decimal.magnitude]
    omega

/-! ## The shortest decimal -/

/-- A decimal without a fraction that is read as the `k`-th double. -/
structure Decimal.Shows (k : Nat) (d : Decimal) : Prop where
  whole : 0 ≤ d.exponent
  read : d.toOrdinal = k

theorem gridPoint?_reads {k : Nat} {e : Int} {d : Decimal} (found : gridPoint? k e = some d) :
    d.exponent = e ∧ d.toOrdinal = k := by
  simp only [gridPoint?] at found
  split at found
  · next lower upper =>
    cases found
    split
    · exact ⟨rfl, of_decide_eq_true lower⟩
    · exact ⟨rfl, of_decide_eq_true upper⟩
  · next lower _ =>
    cases found
    exact ⟨rfl, of_decide_eq_true lower⟩
  · next _ upper =>
    cases found
    exact ⟨rfl, of_decide_eq_true upper⟩
  · cases found

theorem gridPoint?_of_lower {k : Nat} {e : Int}
    (read : Decimal.toOrdinal ⟨(onGrid k e).1 / (onGrid k e).2, e⟩ = k) : gridPoint? k e ≠ none := by
  have lower := decide_eq_true read
  simp only [gridPoint?, lower]
  cases decide (Decimal.toOrdinal ⟨(onGrid k e).1 / (onGrid k e).2 + 1, e⟩ = k) with
  | true => exact Option.some_ne_none _
  | false => exact Option.some_ne_none _

/-- All digits of a whole double are a point of the grid of ones, and so one is found there. -/
theorem gridPoint?_zero {k m : Nat} (whole : units k = m * unitsPerOne) (read : Decimal.toOrdinal ⟨m, 0⟩ = k) :
    gridPoint? k 0 ≠ none := by
  have quotient : (onGrid k 0).1 / (onGrid k 0).2 = m := by
    have one : tenTo 0 = 1 := rfl
    simp only [onGrid, le_refl, ↓reduceIte, Int.toNat_zero, one, Nat.mul_one, whole]
    exact Nat.mul_div_cancel m unitsPerOne_pos
  apply gridPoint?_of_lower
  rw [quotient]
  exact read

/-- The search for the shortest decimal goes no further than up to a grid on which one is found. -/
theorem search_reads {k : Nat} {least : Int} (ends : gridPoint? k least ≠ none) (exponent : Int) (steps : Nat)
    (above : least ≤ exponent) (enough : exponent < least + steps) :
    least ≤ (search k exponent steps).exponent ∧ (search k exponent steps).toOrdinal = k := by
  induction steps generalizing exponent with
  | zero => omega
  | succ steps ih =>
    rw [search]
    cases found : gridPoint? k exponent with
    | some d =>
      obtain ⟨place, reads⟩ := gridPoint?_reads found
      rw [Option.getD_some]
      exact ⟨by omega, reads⟩
    | none =>
      have later : least ≠ exponent := by
        rintro rfl
        exact ends found
      rw [Option.getD_none]
      exact ih _ (by omega) (by omega)

theorem dropZero_shows {k : Nat} {d : Decimal} (shows_ : d.Shows k) : d.dropZero.Shows k := by
  refine ⟨?_, (toOrdinal_dropZero d).trans shows_.read⟩
  have whole := shows_.whole
  rw [Decimal.dropZero]
  split
  · exact Int.add_nonneg whole (by decide)
  · exact whole

/-- The shortest decimal of a whole double has no fraction. -/
theorem shortest_shows {k m : Nat} (positive : 0 < k) (finite : k < infinity)
    (whole : units k = m * unitsPerOne) : (shortest k).Shows k := by
  obtain ⟨some, -⟩ := whole_bounds positive finite whole
  have place : decimalMagnitude k = digitCount m := by
    have scaled : units k * tenTo 324 / unitsPerOne = m * tenTo 324 := by
      rw [whole, Nat.mul_right_comm, Nat.mul_div_cancel _ unitsPerOne_pos]
    rw [decimalMagnitude, scaled, digitCount_scale some]
    omega
  have length := digitCount_pos some
  have ends := gridPoint?_zero whole (toOrdinal_of_units positive finite whole)
  obtain ⟨point, reads⟩ :=
    search_reads ends (digitCount m - 1) (digitCount m + 1074 : Int).toNat (by omega) (by omega)
  simp only [shortest, place]
  exact dropZero_shows ⟨point, reads⟩

/-! ## Digits -/

theorem ofDigits_zeros (digits : List Char) (n : Nat) : ofDigits (digits ++ zeros n) = ofDigits digits * tenTo n := by
  induction n with
  | zero => simp [zeros, tenTo_eq]
  | succ n ih =>
    rw [zeros, List.replicate_succ', ← List.append_assoc, ofDigits, List.foldl_append]
    show 10 * ofDigits (digits ++ zeros n) + 0 = _
    rw [ih, tenTo_succ]
    ring

theorem ofDigits_toDigits (n : Nat) : ofDigits (Nat.toDigits 10 n) = n :=
  Nat.ofDigitChars_toDigits (by decide) (by decide)

/-- A number that is no infinity, and is a number at all. -/
def isFinite (x : Float) : Bool :=
  match shape x with
  | .finite _ _ => true
  | _ => false

/-- A run of digits that is read as the number. -/
structure Shown (x : Float) (text : List Char) : Prop where
  some : text ≠ []
  digital : ∀ c ∈ text, c.isDigit = true
  read : ofDigitRun text = x

theorem shown_positional {k : Nat} {d : Decimal} (shows_ : d.Shows k) :
    Shown (ofOrdinal false k) (d.positional false).toList := by
  obtain ⟨digits, exponent⟩ := d
  obtain ⟨whole, read⟩ := shows_
  obtain ⟨e, rfl⟩ := Int.eq_ofNat_of_zero_le whole
  have text : (Decimal.positional ⟨digits, e⟩ false).toList = Nat.toDigits 10 digits ++ zeros e := by
    simp [Decimal.positional, Nat.toList_repr]
  have written : Nat.toDigits 10 digits ≠ [] := Nat.toDigits_ne_nil
  rw [text]
  refine ⟨fun none => written (List.append_eq_nil_iff.mp none).1, ?_, ?_⟩
  · intro c member
    rcases List.mem_append.mp member with digit | zero
    · exact Nat.isDigit_of_mem_toDigits (by decide) (by decide) digit
    · rw [List.eq_of_mem_replicate zero]
      rfl
  · rw [ofDigitRun, ofDigits_zeros, ofDigits_toDigits, ← toOrdinal_scale]
    exact congrArg (ofOrdinal false) read

/-- The double that a run of digits stands for is zero, or it is whole, unless it is infinite. -/
theorem toOrdinal_zero_or_whole (n : Nat) (finite : Decimal.toOrdinal ⟨n, 0⟩ < infinity) :
    Decimal.toOrdinal ⟨n, 0⟩ = 0 ∨
      binade ≤ Decimal.toOrdinal ⟨n, 0⟩ ∧ ∃ m, units (Decimal.toOrdinal ⟨n, 0⟩) = m * unitsPerOne := by
  have near : Decimal.nearest ⟨n, 0⟩ = nearest n 1 := by
    have one : tenTo 0 = 1 := rfl
    simp only [Decimal.nearest, le_refl, ↓reduceIte, Int.toNat_zero, one, Nat.mul_one]
  rw [Decimal.toOrdinal] at finite ⊢
  split at finite
  · exact .inl (if_pos ‹_›)
  · next some =>
    rw [if_neg some]
    split at finite
    · exact absurd finite (Nat.lt_irrefl _)
    · next small =>
      rw [if_neg small]
      split at finite
      · exact .inl (if_pos ‹_›)
      · next large =>
        rw [near] at finite
        rw [if_neg large, near]
        exact .inr (whole_nearest some finite)

/-- The text of a finite number that a run of digits stands for is a run of digits, and is read
    back as the number. -/
theorem shown_render {digits : List Char} (finite : isFinite (ofDigitRun digits) = true) :
    Shown (ofDigitRun digits) (render (ofDigitRun digits)).toList := by
  have bound := toOrdinal_le ⟨ofDigits digits, 0⟩
  rw [ofDigitRun] at finite ⊢
  have cases_ := toOrdinal_zero_or_whole (ofDigits digits)
  generalize Decimal.toOrdinal ⟨ofDigits digits, 0⟩ = k at *
  have shaped := shape_ofOrdinal bound
  by_cases top : k = infinity
  · rw [isFinite, shaped, if_pos top] at finite
    cases finite
  · rw [if_neg top] at shaped
    have below := Nat.lt_of_le_of_ne bound top
    rcases cases_ below with rfl | ⟨normal, m, whole⟩
    · have text : (render (ofOrdinal false 0)).toList = ['0'] := by
        simp [render, Layout.write, shaped, signText, Layout.plain]
      rw [text]
      exact ⟨List.cons_ne_nil _ _, List.forall_mem_singleton.mpr rfl, rfl⟩
    · have text : render (ofOrdinal false k) = (shortest k).positional false := by
        obtain ⟨k, rfl⟩ := Nat.exists_eq_succ_of_ne_zero (Nat.ne_of_gt (Nat.lt_of_lt_of_le binade_pos normal))
        simp [render, Layout.write, shaped, signText, Layout.plain, Layout.magnitude]
      rw [text]
      exact shown_positional (shortest_shows (Nat.lt_of_lt_of_le binade_pos normal) below whole)

end Stepwise.Number
