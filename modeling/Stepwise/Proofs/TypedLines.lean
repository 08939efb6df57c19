import Stepwise.Proofs.Numerals
import Stepwise.Value.Typed

/-!
Typed lines. A line is its text with marks behind it, and a text is its core with blanks around
it (`Text.Parts`); there is one way to see a line so (`parts_iff`). What a line is taken for
depends on its core, but if it is taken for a text, the blanks are kept (`lines_classified`).
-/
namespace Stepwise

/-! ## The parts of a line -/

namespace Text

/-- A line with its text, behind which there are only the marks that end a line, and with the
    core of the text, around which there are only blanks. -/
structure Parts (line text core : List Char) : Prop where
  ended : ∃ marks, line = text ++ marks ∧ ∀ c ∈ marks, c = '\r' ∨ c = '\n'
  unmarked : ∀ c ∈ text.getLast?, c ≠ '\r' ∧ c ≠ '\n'
  around : ∃ before behind, text = before ++ core ++ behind ∧ ∀ c ∈ before ++ behind, isWhite c = true
  first : ∀ c ∈ core.head?, isWhite c = false
  last : ∀ c ∈ core.getLast?, isWhite c = false

variable {p : Char → Bool} {text rest : List Char}

theorem dropWhile_eq_iff :
    text.dropWhile p = rest ↔
      (∃ front, text = front ++ rest ∧ ∀ c ∈ front, p c = true) ∧ ∀ c ∈ rest.head?, p c = false := by
  constructor
  · rintro rfl
    refine ⟨⟨text.takeWhile p, List.takeWhile_append_dropWhile.symm, fun _ => List.mem_takeWhile_imp⟩, ?_⟩
    intro c first
    have kept := List.head?_dropWhile_not p text
    rw [Option.mem_def.mp first] at kept
    exact kept
  · rintro ⟨⟨front, rfl, all⟩, first⟩
    rw [List.dropWhile_append_of_pos all]
    cases rest with
    | nil => rfl
    | cons c rest => exact List.dropWhile_cons_of_neg (by simp [first c rfl])

theorem dropEnd_eq_iff :
    dropEnd p text = rest ↔
      (∃ back, text = rest ++ back ∧ ∀ c ∈ back, p c = true) ∧ ∀ c ∈ rest.getLast?, p c = false := by
  rw [dropEnd, List.reverse_eq_iff, dropWhile_eq_iff, List.head?_reverse]
  refine and_congr_left fun _ => ⟨?_, ?_⟩
  · rintro ⟨front, turned, all⟩
    refine ⟨front.reverse, ?_, by simpa using all⟩
    rw [← List.reverse_inj, turned, List.reverse_append, List.reverse_reverse]
  · rintro ⟨back, rfl, all⟩
    exact ⟨back.reverse, List.reverse_append, by simpa using all⟩

theorem isLineEnd_eq_false {c : Char} : isLineEnd c = false ↔ c ≠ '\r' ∧ c ≠ '\n' := by
  simp [isLineEnd]

theorem isLineEnd_iff {c : Char} : isLineEnd c = true ↔ c = '\r' ∨ c = '\n' := by
  simp [isLineEnd]

theorem trim_eq_iff {core : List Char} :
    trim text = core ↔
      (∃ before behind, text = before ++ core ++ behind ∧ ∀ c ∈ before ++ behind, isWhite c = true) ∧
        (∀ c ∈ core.head?, isWhite c = false) ∧ ∀ c ∈ core.getLast?, isWhite c = false := by
  rw [trim, dropEnd_eq_iff]
  constructor
  · rintro ⟨⟨behind, split, blank⟩, last⟩
    obtain ⟨⟨before, whole, blank'⟩, first⟩ := dropWhile_eq_iff.mp split
    refine ⟨⟨before, behind, ?_, List.forall_mem_append.mpr ⟨blank', blank⟩⟩, ?_, last⟩
    · rw [whole, List.append_assoc]
    · exact fun c here => first c (List.mem_head?_append_of_mem_head? here)
  · rintro ⟨⟨before, behind, rfl, blank⟩, first, last⟩
    refine ⟨?_, last⟩
    obtain ⟨blank', blank''⟩ := List.forall_mem_append.mp blank
    cases core with
    | nil =>
      refine ⟨[], List.dropWhile_eq_nil_iff.mpr ?_, by simp⟩
      simpa using blank
    | cons c core =>
      refine ⟨behind, dropWhile_eq_iff.mpr ⟨⟨before, ?_, blank'⟩, first⟩, blank''⟩
      exact List.append_assoc before (c :: core) behind

/-- Every line can be seen with its parts in one way. -/
theorem parts_iff {line text core : List Char} :
    Parts line text core ↔ dropEnd isLineEnd line = text ∧ trim text = core := by
  rw [trim_eq_iff, dropEnd_eq_iff]
  simp only [isLineEnd_iff, isLineEnd_eq_false]
  constructor
  · rintro ⟨ended, unmarked, around, first, last⟩
    exact ⟨⟨ended, unmarked⟩, around, first, last⟩
  · rintro ⟨⟨ended, unmarked⟩, around, first, last⟩
    exact ⟨ended, unmarked, around, first, last⟩

end Text

/-! ## Classification -/

/-- What a line with a text and a core is taken for. -/
structure Primitive.Classified (p : Primitive) (text core : List Char) : Prop where
  number : ∀ x, p = .number x ↔ core ∈ Number.numeral.matches' ∧ Number.read? (String.ofList core) = some x
  numeral : core ∈ Number.numeral.matches' → ∃ x, p = .number x
  yes : p = .bool true ↔ core = "true".toList
  no : p = .bool false ↔ core = "false".toList
  text : ∀ s, p = .string s ↔ (core ∉ Number.numeral.matches' ∧ core ≠ "true".toList ∧ core ≠ "false".toList) ∧
    s = String.ofList text

theorem looksNumeric_iff {text : List Char} :
    looksNumeric text = true ↔ text.any Char.isDigit = true ∧ ∀ c ∈ text, Number.isPlain c = true := by
  simp [looksNumeric, Number.isPlain]

section

variable {core : List Char}

/-- A text that looks like a number is read as one if it is a numeral. -/
theorem eq_some_iff_numeral {x : Float} :
    (if looksNumeric core then Number.read? (String.ofList core) else none) = some x ↔
      core ∈ Number.numeral.matches' ∧ Number.read? (String.ofList core) = some x := by
  constructor
  · intro read
    split at read
    · next plain =>
      refine ⟨(Number.read?_isSome_iff (looksNumeric_iff.mp plain).2).mp ?_, read⟩
      rw [read, Option.isSome_some]
    · cases read
  · rintro ⟨matched, read⟩
    rw [if_pos (looksNumeric_iff.mpr (Number.plain_of_numeral matched)), read]

/-- Every numeral is read. -/
theorem exists_of_numeral (matched : core ∈ Number.numeral.matches') :
    ∃ x, Number.read? (String.ofList core) = some x :=
  Option.isSome_iff_exists.mp ((Number.read?_isSome_iff (Number.plain_of_numeral matched).2).mpr matched)

/-- A word with a letter is no numeral. -/
theorem not_numeral_of_letter {c : Char} (letter : Number.isPlain c = false) (member : c ∈ core) :
    core ∉ Number.numeral.matches' := by
  intro matched
  have plain := (Number.plain_of_numeral matched).2 c member
  rw [letter] at plain
  cases plain

end

theorem classified_ofLine {line text core : List Char} (parts : Text.Parts line text core) :
    (Primitive.ofLine (String.ofList line)).Classified text core := by
  obtain ⟨rfl, rfl⟩ := Text.parts_iff.mp parts
  have yes : "true".toList ∉ Number.numeral.matches' := not_numeral_of_letter (c := 't') rfl (by decide)
  have no : "false".toList ∉ Number.numeral.matches' := not_numeral_of_letter (c := 'f') rfl (by decide)
  simp only [Primitive.ofLine, String.toList_ofList]
  generalize Text.dropEnd Text.isLineEnd line = text
  generalize Text.trim text = core
  cases number : if looksNumeric core then Number.read? (String.ofList core) else none with
  | some x =>
    obtain ⟨matched, read⟩ := eq_some_iff_numeral.mp number
    refine ⟨?_, fun _ => ⟨x, rfl⟩, ?_, ?_, ?_⟩
    · simp [matched, read]
    · exact iff_of_false nofun fun same => yes (same ▸ matched)
    · exact iff_of_false nofun fun same => no (same ▸ matched)
    · simp [matched]
  | none =>
    have unmatched : core ∉ Number.numeral.matches' := fun matched => by
      obtain ⟨x, read⟩ := exists_of_numeral matched
      rw [eq_some_iff_numeral.mpr ⟨matched, read⟩] at number
      cases number
    have spelled (word : String) : String.ofList core = word ↔ core = word.toList := by
      rw [← String.toList_inj, String.toList_ofList]
    split
    · next same => cases same
    · next _ same =>
      have word := (spelled _).mp same
      refine ⟨by simp [unmatched], (absurd · unmatched), iff_of_true rfl word, ?_, ?_⟩
      · simp [word]
      · simp [word]
    · next _ same =>
      have word := (spelled _).mp same
      refine ⟨by simp [unmatched], (absurd · unmatched), ?_, iff_of_true rfl word, ?_⟩
      · simp [word]
      · simp [word]
    · next other other' =>
      have first := mt (spelled "true").mpr other
      have second := mt (spelled "false").mpr other'
      refine ⟨by simp [unmatched], (absurd · unmatched), iff_of_false nofun first, iff_of_false nofun second, ?_⟩
      intro s
      simp only [Primitive.string.injEq, unmatched, not_false_eq_true, first, second, ne_eq, true_and, eq_comm]

/-! ## Lines -/

theorem dropEnd_append {p : Char → Bool} (text : List Char) {back : List Char} (all : ∀ c ∈ back, p c = true) :
    Text.dropEnd p (text ++ back) = Text.dropEnd p text := by
  rw [Text.dropEnd, List.reverse_append, List.dropWhile_append_of_pos (by simpa using all), Text.dropEnd]

/-- A numeral is its own text and core. -/
theorem parts_of_plain {text : List Char} (plain : ∀ c ∈ text, Number.isPlain c = true) :
    Text.Parts text text text := by
  have unmarked : ∀ c ∈ Number.plainChars, c ≠ '\r' ∧ c ≠ '\n' := by simp [Number.plainChars]
  have visible : ∀ c ∈ Number.plainChars, Text.isWhite c = false := by simp [Number.plainChars, Text.isWhite]
  refine ⟨⟨[], by simp⟩, ?_, ⟨[], [], by simp⟩, ?_, ?_⟩
  · exact fun c here => unmarked c (Number.mem_of_plain (plain c (List.mem_of_getLast? here)))
  · exact fun c here => visible c (Number.mem_of_plain (plain c (List.mem_of_head? here)))
  · exact fun c here => visible c (Number.mem_of_plain (plain c (List.mem_of_getLast? here)))

/-- What is true of all lines that are typed. Each is seen with its parts in one way, and is
    taken for what they tell. The marks at its end do not matter. A finite number, typed as it
    is shown, is the number again. -/
structure Primitive.LinesClassified : Prop where
  parts : ∀ line, ∃! parts : List Char × List Char, Text.Parts line parts.1 parts.2
  classified : ∀ line text core, Text.Parts line text core → (ofLine (String.ofList line)).Classified text core
  marks : ∀ line marks, (∀ c ∈ marks, c = '\r' ∨ c = '\n') →
    ofLine (String.ofList (line ++ marks)) = ofLine (String.ofList line)
  back : ∀ x, Number.isFinite x = true → ofLine (Primitive.number x).render = .number x

theorem lines_classified : Primitive.LinesClassified := by
  refine ⟨?_, fun line text core => classified_ofLine, ?_, ?_⟩
  · intro line
    refine ⟨(Text.dropEnd Text.isLineEnd line, Text.trim (Text.dropEnd Text.isLineEnd line)),
      Text.parts_iff.mpr ⟨rfl, rfl⟩, ?_⟩
    rintro ⟨text, core⟩ (parts : Text.Parts line text core)
    obtain ⟨rfl, rfl⟩ := Text.parts_iff.mp parts
    rfl
  · intro line marks ends
    have same := dropEnd_append line fun c member => Text.isLineEnd_iff.mpr (ends c member)
    simp only [Primitive.ofLine, String.toList_ofList, same]
  · intro x finite
    have matched := Number.numeral_render finite
    have classified := classified_ofLine (parts_of_plain (Number.plain_of_numeral matched).2)
    rw [String.ofList_toList] at classified
    refine (classified.number x).mpr ⟨matched, ?_⟩
    rw [String.ofList_toList]
    exact Number.read?_render finite

end Stepwise
