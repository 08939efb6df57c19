import Stepwise.Proofs.Digits

/-!
Numerals. Every finite number is read back from its text (`read?_render`), be it whole or not:
on a fine enough grid of decimals it is a point itself, so that the search for its shortest
decimal never fails. What is read without a mark of an exponent is what a regular expression tells
(`read?_isSome_iff`).
-/
namespace Stepwise.Number

/-! ## The finest grid -/

theorem le_digitCount {n d : Nat} (bound : tenTo d ≤ n) : d + 1 ≤ digitCount n := by
  induction d generalizing n with
  | zero => exact digitCount_pos (Nat.ne_of_gt bound)
  | succ d ih =>
    rw [tenTo_succ] at bound
    have rest := ih ((Nat.le_div_iff_mul_le (by decide)).mpr (by omega : tenTo d * 10 ≤ n))
    have positive := tenTo_pos d
    rw [digitCount, if_neg (by omega)]
    omega

/-- Powers of five. -/
def fiveTo (n : Nat) : Nat := Nat.pow 5 n

theorem fiveTo_add (m n : Nat) : fiveTo (m + n) = fiveTo m * fiveTo n :=
  Nat.pow_add 5 m n

theorem fiveTo_mul (m n : Nat) : fiveTo (m * n) = fiveTo m ^ n :=
  Nat.pow_mul 5 m n

theorem fiveTo_pos (n : Nat) : 0 < fiveTo n :=
  Nat.pow_pos (by decide)

theorem tenTo_add (m n : Nat) : tenTo (m + n) = tenTo m * tenTo n :=
  Nat.pow_add 10 m n

theorem tenTo_split (n : Nat) : tenTo n = fiveTo n * twoTo n :=
  Nat.mul_pow 5 2 n

theorem tenTo_le_fiveTo : tenTo 743 ≤ fiveTo 1074 := by
  have short : twoTo 9 ≤ fiveTo 4 := by decide
  have small : twoTo 743 ≤ fiveTo 331 :=
    calc twoTo 743 = twoTo 5 * twoTo 9 ^ 82 := by rw [← twoTo_mul, ← twoTo_add]
      _ ≤ fiveTo 3 * fiveTo 4 ^ 82 := Nat.mul_le_mul (by decide) (Nat.pow_le_pow_left short 82)
      _ = fiveTo 331 := by rw [← fiveTo_mul, ← fiveTo_add]
  calc tenTo 743 = fiveTo 743 * twoTo 743 := tenTo_split 743
    _ ≤ fiveTo 743 * fiveTo 331 := Nat.mul_le_mul_left _ small
    _ = fiveTo 1074 := by rw [← fiveTo_add]

section

variable {k n points : Nat}

/-- Where the smallest double is a number of grid points, every double is. -/
theorem onGrid_fine (k : Nat) (some : 0 < n) (split : tenTo n = points * unitsPerOne) :
    (onGrid k (-n)).1 / (onGrid k (-n)).2 = units k * points := by
  rw [onGrid, if_neg (by omega), Int.neg_neg, Int.toNat_natCast, split, ← Nat.mul_assoc]
  dsimp only
  exact Nat.mul_div_cancel _ unitsPerOne_pos

theorem nearest_fine (bound : k ≤ infinity) (some : 0 < n) (split : tenTo n = points * unitsPerOne) :
    Decimal.nearest ⟨units k * points, -n⟩ = k := by
  simp only [Decimal.nearest]
  rw [if_neg (by omega), Int.neg_neg, Int.toNat_natCast]
  refine nearest_of_eq bound (tenTo_pos n) ?_
  rw [split, Nat.mul_assoc]

end

/-- On the grid of `10 ^ -1074` every double is a point, and this point is read as the double. -/
theorem gridPoint?_finest {k : Nat} (positive : 0 < k) (finite : k < infinity) :
    gridPoint? k (-(1074 : Nat)) ≠ none := by
  have split : tenTo 1074 = fiveTo 1074 * unitsPerOne := by rw [unitsPerOne, ← tenTo_split]
  obtain ⟨some, below⟩ := units_bounds positive finite
  have least : 743 + 1 ≤ digitCount (units k * fiveTo 1074) :=
    le_digitCount (Nat.le_trans tenTo_le_fiveTo (Nat.le_mul_of_pos_left _ some))
  have most : digitCount (units k * fiveTo 1074) ≤ 309 + 1074 := by
    apply digitCount_le
    calc units k * fiveTo 1074 < twoTo 1024 * unitsPerOne * fiveTo 1074 :=
          Nat.mul_lt_mul_of_pos_right below (fiveTo_pos 1074)
      _ = twoTo 1024 * tenTo 1074 := by rw [split, Nat.mul_assoc, Nat.mul_comm unitsPerOne]
      _ ≤ tenTo 309 * tenTo 1074 := Nat.mul_le_mul_right _ twoTo_le_tenTo
      _ = tenTo (309 + 1074) := (tenTo_add 309 1074).symm
  apply gridPoint?_of_lower
  rw [onGrid_fine k (by decide) split, toOrdinal_of_magnitude, nearest_fine (Nat.le_of_lt finite) (by decide) split]
  · exact Nat.ne_of_gt (Nat.mul_pos some (fiveTo_pos 1074))
  all_goals
    simp only [Decimal.magnitude]
    omega

/-- The shortest decimal of a double is read as the double. -/
theorem toOrdinal_shortest {k : Nat} (positive : 0 < k) (finite : k < infinity) : (shortest k).toOrdinal = k := by
  have ends := gridPoint?_finest positive finite
  have place : -324 ≤ decimalMagnitude k := by
    simp only [decimalMagnitude]
    omega
  obtain ⟨-, reads⟩ := search_reads ends (decimalMagnitude k - 1) (decimalMagnitude k + 1074).toNat
    (by omega) (by omega)
  simp only [shortest]
  rw [toOrdinal_dropZero, reads]

/-! ## Texts of digits around a point -/

/-- Digits, with at most one point in front of them, among them or behind them. -/
inductive Unsigned : List Char → Prop where
  | whole {digits : List Char} (some : digits ≠ []) (digital : ∀ c ∈ digits, c.isDigit = true) : Unsigned digits
  | pointed {whole fraction : List Char} (some : whole ≠ [] ∨ fraction ≠ [])
      (digital : ∀ c ∈ whole ++ fraction, c.isDigit = true) : Unsigned (whole ++ '.' :: fraction)

theorem readDecimal?_whole {digits : List Char} (some : digits ≠ []) (digital : ∀ c ∈ digits, c.isDigit = true) :
    readDecimal? digits = .some ⟨ofDigits digits, 0⟩ := by
  have all := List.takeWhile_eq_self_iff.mpr digital
  have none := List.dropWhile_eq_nil_iff.mpr digital
  simp [readDecimal?, all, none, some, readExponent?]

theorem readDecimal?_pointed {whole fraction : List Char} (some : whole ≠ [] ∨ fraction ≠ [])
    (digital : ∀ c ∈ whole ++ fraction, c.isDigit = true) :
    readDecimal? (whole ++ '.' :: fraction) = .some ⟨ofDigits (whole ++ fraction), -fraction.length⟩ := by
  obtain ⟨front, behind⟩ := List.forall_mem_append.mp digital
  have point : Char.isDigit '.' = false := rfl
  have first : (whole ++ '.' :: fraction).takeWhile Char.isDigit = whole := by
    rw [List.takeWhile_append_of_pos front, List.takeWhile_cons_of_neg (by simp [point]), List.append_nil]
  have rest : (whole ++ '.' :: fraction).dropWhile Char.isDigit = '.' :: fraction := by
    rw [List.dropWhile_append_of_pos front, List.dropWhile_cons_of_neg (by simp [point])]
  have all := List.takeWhile_eq_self_iff.mpr behind
  have none := List.dropWhile_eq_nil_iff.mpr behind
  have more : ¬ (whole = [] ∧ fraction = []) := by tauto
  simp [readDecimal?, first, rest, all, none, more, readExponent?]

/-- A text of digits around a point that is read as a double. -/
structure Reads (text : List Char) (k : Nat) : Prop where
  unsigned : Unsigned text
  read : ∃ d, readDecimal? text = some d ∧ d.toOrdinal = k

theorem ofDigits_leading (n : Nat) (digits : List Char) : ofDigits (zeros n ++ digits) = ofDigits digits := by
  induction n with
  | zero => rfl
  | succ n ih => exact ih

theorem digital_zeros (n : Nat) : ∀ c ∈ zeros n, c.isDigit = true := by
  intro c member
  rw [List.eq_of_mem_replicate member]
  rfl

/-- A decimal in positional notation is read back. -/
theorem reads_positional (d : Decimal) : Reads (d.positional false).toList d.toOrdinal := by
  obtain ⟨digits, exponent⟩ := d
  have some : Nat.toDigits 10 digits ≠ [] := Nat.toDigits_ne_nil
  have digital : ∀ c ∈ Nat.toDigits 10 digits, c.isDigit = true :=
    fun _ member => Nat.isDigit_of_mem_toDigits (by decide) (by decide) member
  by_cases whole : 0 ≤ exponent
  · obtain ⟨e, rfl⟩ := Int.eq_ofNat_of_zero_le whole
    have text : (Decimal.positional ⟨digits, e⟩ false).toList = Nat.toDigits 10 digits ++ zeros e := by
      simp [Decimal.positional, Nat.toList_repr]
    have all := List.forall_mem_append.mpr ⟨digital, digital_zeros e⟩
    have more : Nat.toDigits 10 digits ++ zeros e ≠ [] := by simp [some]
    rw [text]
    refine ⟨.whole more all, _, readDecimal?_whole more all, ?_⟩
    rw [ofDigits_zeros, ofDigits_toDigits, toOrdinal_scale]
  · obtain ⟨behind, rfl⟩ : ∃ behind : Nat, exponent = -behind := ⟨(-exponent).toNat, by omega⟩
    generalize written : zeros (behind + 1 - (Nat.toDigits 10 digits).length) ++ Nat.toDigits 10 digits = padded
    have text : (Decimal.positional ⟨digits, -behind⟩ false).toList =
        padded.take (padded.length - behind) ++ '.' :: padded.drop (padded.length - behind) := by
      simp only [Decimal.positional, if_neg whole, Int.neg_neg, Int.toNat_natCast, Nat.toList_repr, written,
        String.toList_ofList]
    have length : behind + 1 ≤ padded.length := by
      rw [← written, List.length_append, zeros, List.length_replicate]
      omega
    have front : padded.take (padded.length - behind) ≠ [] := by
      rw [← List.length_pos_iff, List.length_take]
      omega
    have all : ∀ c ∈ padded.take (padded.length - behind) ++ padded.drop (padded.length - behind),
        c.isDigit = true := by
      rw [List.take_append_drop, ← written]
      exact List.forall_mem_append.mpr ⟨digital_zeros _, digital⟩
    have places : (padded.drop (padded.length - behind)).length = behind := by
      rw [List.length_drop]
      omega
    rw [text]
    refine ⟨.pointed (.inl front) all, _, readDecimal?_pointed (.inl front) all, ?_⟩
    rw [List.take_append_drop, places, ← written, ofDigits_leading, ofDigits_toDigits]

/-! ## Numbers and their texts -/

/-- A finite double is the one at its ordinal. -/
theorem ofOrdinal_of_shape {x : Float} {negative : Bool} {k : Nat} (shaped : shape x = .finite negative k) :
    k < infinity ∧ ofOrdinal negative k = x := by
  have size := UInt64.toNat_lt x.toBits
  have sign : signBit = 2 ^ 63 := rfl
  simp only [shape] at shaped
  split at shaped
  · cases shaped
  · split at shaped
    · cases shaped
    · simp only [Shape.finite.injEq] at shaped
      obtain ⟨rfl, rfl⟩ := shaped
      refine ⟨by omega, ?_⟩
      have bits : (if signBit ≤ x.toBits.toNat then signBit + x.toBits.toNat % signBit
          else x.toBits.toNat % signBit) = x.toBits.toNat := by
        rw [sign]
        split <;> omega
      simp only [ofOrdinal, decide_eq_true_eq, bits, UInt64.ofNat_toNat]
      exact Float.ofBits_toBits x

/-! ## Numerals -/

/-- The expression of one of some characters. -/
def oneOf (chars : List Char) : RegularExpression Char :=
  (chars.map .char).sum

/-- The expression `d` of a digit. -/
def digit : RegularExpression Char :=
  oneOf "0123456789".toList

/-- The expression `d+(.d*)?|.d+` of digits with a point. -/
def pointed : RegularExpression Char :=
  digit * digit.star * (1 + .char '.' * digit.star) + .char '.' * (digit * digit.star)

/-- The expression `-?(d+(.d*)?|.d+)` of numbers in plain notation. -/
def numeral : RegularExpression Char :=
  (1 + .char '-') * pointed

theorem mem_oneOf {chars text : List Char} : text ∈ (oneOf chars).matches' ↔ ∃ c ∈ chars, text = [c] := by
  induction chars with
  | nil => simp [oneOf, Language.notMem_zero]
  | cons c rest ih =>
    have rest' : text ∈ (rest.map RegularExpression.char).sum.matches' ↔ ∃ c ∈ rest, text = [c] := ih
    have one : text ∈ ({[c]} : Language Char) ↔ text = [c] := Iff.rfl
    simp [oneOf, Language.mem_add, rest', one]

theorem isDigit_iff {c : Char} : c ∈ "0123456789".toList ↔ c.isDigit = true := by
  constructor
  · intro member
    simp only [String.reduceToList, List.mem_cons, List.not_mem_nil, or_false] at member
    rcases member with rfl | rfl | rfl | rfl | rfl | rfl | rfl | rfl | rfl | rfl <;> rfl
  · intro digit
    have bounds : 48 ≤ c.toNat ∧ c.toNat ≤ 57 := by simpa [Char.isDigit, UInt32.le_iff_toNat_le] using digit
    have back := Char.ofNat_toNat c
    generalize c.toNat = n at bounds back
    obtain ⟨low, high⟩ := bounds
    subst back
    interval_cases n <;> decide

theorem mem_star {text : List Char} : text ∈ digit.star.matches' ↔ ∀ c ∈ text, c.isDigit = true := by
  rw [RegularExpression.matches'_star, Language.mem_kstar]
  constructor
  · rintro ⟨pieces, rfl, each⟩ c member
    obtain ⟨piece, inside, here⟩ := List.mem_flatten.mp member
    obtain ⟨d, digit, rfl⟩ := mem_oneOf.mp (each piece inside)
    rw [List.mem_singleton.mp here]
    exact isDigit_iff.mp digit
  · intro digital
    refine ⟨text.map ([·]), (List.flatMap_singleton' text).symm, ?_⟩
    intro piece member
    obtain ⟨c, inside, rfl⟩ := List.mem_map.mp member
    exact mem_oneOf.mpr ⟨c, isDigit_iff.mpr (digital c inside), rfl⟩

theorem mem_digits {text : List Char} :
    text ∈ (digit * digit.star).matches' ↔ text ≠ [] ∧ ∀ c ∈ text, c.isDigit = true := by
  rw [RegularExpression.matches'_mul, Language.mem_mul]
  constructor
  · rintro ⟨first, single, rest, run, rfl⟩
    obtain ⟨c, digit, rfl⟩ := mem_oneOf.mp single
    exact ⟨by simp, List.forall_mem_cons.mpr ⟨isDigit_iff.mp digit, mem_star.mp run⟩⟩
  · rintro ⟨some, digital⟩
    obtain ⟨c, rest, rfl⟩ := List.exists_cons_of_ne_nil some
    obtain ⟨digit, run⟩ := List.forall_mem_cons.mp digital
    exact ⟨[c], mem_oneOf.mpr ⟨c, isDigit_iff.mpr digit, rfl⟩, rest, mem_star.mpr run, rfl⟩

theorem mem_char {c : Char} {text : List Char} : text ∈ (RegularExpression.char c).matches' ↔ text = [c] :=
  Iff.rfl

theorem mem_pointed {text : List Char} : text ∈ pointed.matches' ↔ Unsigned text := by
  rw [pointed, RegularExpression.matches'_add, RegularExpression.matches'_mul _ (_ + _),
    RegularExpression.matches'_mul (.char '.'), RegularExpression.matches'_add,
    RegularExpression.matches'_mul (.char '.')]
  simp only [Language.mem_add, Language.mem_mul, mem_digits, mem_star, mem_char, RegularExpression.matches'_epsilon,
    Language.mem_one]
  constructor
  · rintro (⟨whole, ⟨some, digital⟩, _, rfl | ⟨_, rfl, fraction, run, rfl⟩, rfl⟩ | ⟨_, rfl, fraction, ⟨some, run⟩, rfl⟩)
    · rw [List.append_nil]
      exact .whole some digital
    · exact .pointed (.inl some) (List.forall_mem_append.mpr ⟨digital, run⟩)
    · exact @Unsigned.pointed [] fraction (.inr some) run
  · intro unsigned
    cases unsigned with
    | whole some digital => exact .inl ⟨text, ⟨some, digital⟩, [], .inl rfl, List.append_nil text⟩
    | @pointed whole fraction some digital =>
      obtain ⟨front, behind⟩ := List.forall_mem_append.mp digital
      by_cases none : whole = []
      · subst none
        exact .inr ⟨_, rfl, fraction, ⟨some.resolve_left (absurd rfl), behind⟩, rfl⟩
      · exact .inl ⟨whole, ⟨none, front⟩, _, .inr ⟨_, rfl, fraction, behind, rfl⟩, rfl⟩

/-- A numeral is a text of digits around a point, perhaps behind a minus sign. -/
theorem mem_numeral {text : List Char} :
    text ∈ numeral.matches' ↔ Unsigned text ∨ ∃ rest, text = '-' :: rest ∧ Unsigned rest := by
  simp only [numeral, RegularExpression.matches'_add, RegularExpression.matches'_mul,
    RegularExpression.matches'_epsilon, Language.mem_add, Language.mem_mul, Language.mem_one, mem_pointed, mem_char]
  constructor
  · rintro ⟨_, rfl | rfl, rest, unsigned, rfl⟩
    · exact .inl unsigned
    · exact .inr ⟨rest, rfl, unsigned⟩
  · rintro (unsigned | ⟨rest, rfl, unsigned⟩)
    · exact ⟨[], .inl rfl, text, unsigned, rfl⟩
    · exact ⟨['-'], .inr rfl, rest, unsigned, rfl⟩

/-! ## Reading numerals -/

/-- A character of a number in plain notation. -/
def isPlain (c : Char) : Bool :=
  c.isDigit || c = '.' || c = '-'

theorem plain_of_unsigned {text : List Char} (unsigned : Unsigned text) :
    text.any Char.isDigit = true ∧ ∀ c ∈ text, c.isDigit = true ∨ c = '.' := by
  cases unsigned with
  | whole some digital =>
    obtain ⟨c, rest, rfl⟩ := List.exists_cons_of_ne_nil some
    refine ⟨?_, fun c member => .inl (digital c member)⟩
    simp [digital c List.mem_cons_self]
  | @pointed whole fraction some digital =>
    obtain ⟨c, member⟩ := List.exists_mem_of_ne_nil (whole ++ fraction) (by simpa [imp_iff_not_or] using some)
    constructor
    · have inside : c ∈ whole ++ '.' :: fraction := by
        rcases List.mem_append.mp member with front | behind
        · exact List.mem_append_left _ front
        · exact List.mem_append_right _ (List.mem_cons_of_mem _ behind)
      exact List.any_eq_true.mpr ⟨c, inside, digital c member⟩
    · intro d inside
      rcases List.mem_append.mp inside with front | behind
      · exact .inl (digital d (List.mem_append_left _ front))
      · rcases List.mem_cons.mp behind with rfl | behind
        · exact .inr rfl
        · exact .inl (digital d (List.mem_append_right _ behind))

theorem readExponent?_plain {c : Char} (plain : isPlain c = true) (text : List Char) :
    readExponent? (c :: text) = none := by
  have mark : ¬ (c = 'e' ∨ c = 'E') := by
    rintro (rfl | rfl) <;> cases plain
  simp only [readExponent?, mark, false_and, if_false]

theorem readDecimal?_isSome_iff {text : List Char} (plain : ∀ c ∈ text, isPlain c = true) :
    (readDecimal? text).isSome = true ↔ Unsigned text := by
  constructor
  · have parts := List.takeWhile_append_dropWhile (p := Char.isDigit) (l := text)
    have digital : ∀ c ∈ text.takeWhile Char.isDigit, c.isDigit = true := fun _ => List.mem_takeWhile_imp
    rw [readDecimal?]
    generalize text.takeWhile Char.isDigit = whole at *
    generalize text.dropWhile Char.isDigit = rest at *
    subst parts
    intro read
    rcases rest with - | ⟨c, more⟩
    · rw [List.append_nil]
      exact .whole (by rintro rfl; simp at read) digital
    · by_cases point : c = '.'
      · subst point
        have parts := List.takeWhile_append_dropWhile (p := Char.isDigit) (l := more)
        have run : ∀ c ∈ more.takeWhile Char.isDigit, c.isDigit = true := fun _ => List.mem_takeWhile_imp
        simp only at read
        generalize more.takeWhile Char.isDigit = fraction at *
        generalize more.dropWhile Char.isDigit = tail at *
        subst parts
        rcases tail with - | ⟨d, tail⟩
        · rw [List.append_nil]
          refine .pointed ?_ (List.forall_mem_append.mpr ⟨digital, run⟩)
          by_contra none
          rw [not_or, not_not, not_not] at none
          simp [none] at read
        · have mark := readExponent?_plain (plain d (by simp)) tail
          simp [mark] at read
      · have mark := readExponent?_plain (plain c (by simp)) more
        simp [point, mark] at read
  · intro unsigned
    cases unsigned with
    | whole some digital => rw [readDecimal?_whole some digital, Option.isSome_some]
    | pointed some digital => rw [readDecimal?_pointed some digital, Option.isSome_some]

/-- The characters of numbers in plain notation. -/
def plainChars : List Char :=
  ['0', '1', '2', '3', '4', '5', '6', '7', '8', '9', '.', '-']

theorem mem_of_plain {c : Char} (plain : isPlain c = true) : c ∈ plainChars := by
  have member : c ∈ "0123456789".toList ∨ c = '.' ∨ c = '-' := by
    rw [isDigit_iff]
    simpa [isPlain, or_assoc] using plain
  simpa [plainChars, or_assoc] using member

theorem toLower_plain {c : Char} (plain : isPlain c = true) : c.toLower = c := by
  have all : ∀ c ∈ plainChars, c.toLower = c := by simp [plainChars]
  exact all c (mem_of_plain plain)

/-- The words for numbers have letters. -/
theorem readWord?_plain (negative : Bool) {text : List Char} (plain : ∀ c ∈ text, isPlain c = true) :
    readWord? negative text = none := by
  have same : text.map Char.toLower = text :=
    (List.map_congr_left fun c member => toLower_plain (plain c member)).trans (List.map_id text)
  have letter (word : List Char) (n : 'n' ∈ word) : String.ofList text ≠ String.ofList word := by
    intro equal
    have inside := plain 'n' (String.ofList_injective equal ▸ n)
    cases inside
  rw [readWord?, same]
  split
  · exact absurd ‹_› (letter "inf".toList (by decide))
  · exact absurd ‹_› (letter "infinity".toList (by decide))
  · exact absurd ‹_› (letter "nan".toList (by decide))
  · rfl

theorem splitSign_of_head {text : List Char} (minus : text.head? ≠ some '-') (plus : text.head? ≠ some '+') :
    splitSign text = (false, text) := by
  rw [splitSign.eq_def]
  split
  · exact absurd rfl minus
  · exact absurd rfl plus
  · rfl

theorem head_unsigned {text : List Char} (unsigned : Unsigned text) {c : Char}
    (other : ¬ (c.isDigit = true ∨ c = '.')) : text.head? ≠ some c := by
  intro first
  obtain ⟨-, chars⟩ := plain_of_unsigned unsigned
  exact other (chars c (List.mem_of_head? first))

/-- A numeral has a digit, and nothing but digits, points and minus signs. -/
theorem plain_of_numeral {text : List Char} (matched : text ∈ numeral.matches') :
    text.any Char.isDigit = true ∧ ∀ c ∈ text, isPlain c = true := by
  have plain {rest : List Char} (unsigned : Unsigned rest) :
      rest.any Char.isDigit = true ∧ ∀ c ∈ rest, isPlain c = true := by
    obtain ⟨some, chars⟩ := plain_of_unsigned unsigned
    refine ⟨some, fun c member => ?_⟩
    rcases chars c member with digit | rfl
    · simp [isPlain, digit]
    · rfl
  rcases mem_numeral.mp matched with unsigned | ⟨rest, rfl, unsigned⟩
  · exact plain unsigned
  · obtain ⟨some, chars⟩ := plain unsigned
    exact ⟨by simp [some], List.forall_mem_cons.mpr ⟨rfl, chars⟩⟩

/-- Among the texts of digits, points and minus signs, the numerals are read. -/
theorem read?_isSome_iff {text : List Char} (plain : ∀ c ∈ text, isPlain c = true) :
    (read? (String.ofList text)).isSome = true ↔ text ∈ numeral.matches' := by
  have split_iff {negative : Bool} {rest : List Char} (split : splitSign text = (negative, rest))
      (inside : ∀ c ∈ rest, isPlain c = true) : (read? (String.ofList text)).isSome = true ↔ Unsigned rest := by
    rw [← readDecimal?_isSome_iff inside, read?, String.toList_ofList, split]
    dsimp only
    cases readDecimal? rest with
    | some d => rfl
    | none => simp [readWord?_plain negative inside]
  rw [mem_numeral]
  by_cases minus : text.head? = some '-'
  · obtain ⟨rest, rfl⟩ := List.head?_eq_some_iff.mp minus
    have signed : ¬ Unsigned ('-' :: rest) := fun unsigned => head_unsigned unsigned (by decide) minus
    rw [split_iff rfl (List.forall_mem_cons.mp plain).2]
    simp [signed]
  · have plus : text.head? ≠ some '+' := by
      intro first
      cases plain '+' (List.mem_of_head? first)
    have signless : ¬ ∃ rest, text = '-' :: rest ∧ Unsigned rest := by
      rintro ⟨rest, rfl, -⟩
      exact minus rfl
    rw [split_iff (splitSign_of_head minus plus) plain]
    simp [signless]

/-- Text with a sign is read as the double with the sign. -/
theorem read?_signed (negative : Bool) {text : List Char} {k : Nat} (reads : Reads text k) :
    read? (signText negative ++ String.ofList text) = some (ofOrdinal negative k) := by
  obtain ⟨unsigned, d, read, rfl⟩ := reads
  have split : splitSign (signText negative ++ String.ofList text).toList = (negative, text) := by
    cases negative with
    | false =>
      simpa [signText] using splitSign_of_head (head_unsigned unsigned (by decide)) (head_unsigned unsigned (by decide))
    | true => simp [signText, splitSign]
  simp only [read?, split, read]

/-- A finite number is written with its sign in front of a text that is read as its ordinal. -/
theorem render_reads {x : Float} {negative : Bool} {k : Nat} (shaped : shape x = .finite negative k) :
    ∃ text, render x = signText negative ++ String.ofList text ∧ Reads text k := by
  obtain ⟨finite, -⟩ := ofOrdinal_of_shape shaped
  cases k with
  | zero =>
    refine ⟨['0'], by simp [render, Layout.write, shaped, Layout.plain], ?_⟩
    have digital : ∀ c ∈ ['0'], c.isDigit = true := List.forall_mem_singleton.mpr rfl
    exact ⟨.whole (List.cons_ne_nil _ _) digital, _, readDecimal?_whole (List.cons_ne_nil _ _) digital, rfl⟩
  | succ k =>
    have reads := reads_positional (shortest (k + 1))
    rw [toOrdinal_shortest (Nat.succ_pos k) finite] at reads
    refine ⟨((shortest (k + 1)).positional false).toList, ?_, reads⟩
    simp [render, Layout.write, shaped, Layout.plain, Layout.magnitude]

/-- A finite number is written as a numeral. -/
theorem numeral_render {x : Float} (finite : isFinite x = true) : (render x).toList ∈ numeral.matches' := by
  rw [isFinite] at finite
  split at finite
  · next negative k shaped =>
    obtain ⟨text, written, reads⟩ := render_reads shaped
    rw [written, mem_numeral]
    cases negative with
    | false => exact .inl (by simpa [signText] using reads.unsigned)
    | true => exact .inr ⟨text, by simp [signText], reads.unsigned⟩
  · cases finite

/-- Every finite number is read back from its text. -/
theorem read?_render {x : Float} (finite : isFinite x = true) : read? (render x) = some x := by
  rw [isFinite] at finite
  split at finite
  · next negative k shaped =>
    obtain ⟨-, same⟩ := ofOrdinal_of_shape shaped
    obtain ⟨text, written, reads⟩ := render_reads shaped
    rw [written, read?_signed negative reads, same]
  · cases finite

end Stepwise.Number
