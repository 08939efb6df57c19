import Stepwise.Console.Report
import Stepwise.Proofs.Partition

/-!
How far a token goes in its source. A scanner that has read a token stands behind it, and what lies
between its place and there is how it is spelled (`within_read`). The width of a token is the length of
its spelling, except that it does not count the quotes of a string (`width_of_spelling`), so what a
diagnostic marks is its token, or falls short of a string (`extent_of_token`).
-/
namespace Stepwise

/-- A scanner comes to read a token, and stands at the second scanner then. -/
inductive Scanner.Reads : Scanner → Token → Scanner → Prop where
  | first {s s' : Scanner} {t : Token} (read : s.read? = some (t, s')) : Reads s t s'
  | later {s r s' : Scanner} {t u : Token} (read : s.read? = some (u, r)) (reads : Reads r t s') : Reads s t s'

/-- A scanner is in a text: what it has still to read is the text from its place on. -/
structure Scanner.Within (text : List Char) (s : Scanner) : Prop where
  inside : s.position.offset ≤ text.length
  rest : s.rest = text.drop s.position.offset

/-- A token takes up a text from its place up to an offset. -/
structure Token.Spans (t : Token) (text : List Char) (finish : Nat) : Prop where
  known : t.kind ≠ .eof
  some : t.spelling ≠ []
  spelled : text.drop t.position.offset = t.spelling ++ text.drop finish
  reached : finish = t.position.offset + t.spelling.length
  inside : finish ≤ text.length

/-! ## Reading -/

section

variable {text : List Char} {s s' : Scanner} {t : Token}

theorem Token.Spans.further {finish : Nat} (spans : t.Spans text finish) : t.position.offset < finish := by
  rw [spans.reached]
  exact Nat.lt_add_of_pos_right (List.length_pos_iff.mpr spans.some)

/-- Behind what it passes a scanner is still in its text. -/
theorem Scanner.Within.advance (within : s.Within text) {passed rest : List Char} (split : s.rest = passed ++ rest) :
    Scanner.Within text ⟨s.position.advanceBy passed, rest⟩ := by
  have offset : (s.position.advanceBy passed).offset = s.position.offset + passed.length := Position.offset_advanceBy _ _
  constructor
  · have total := congrArg List.length split
    rw [within.rest, List.length_drop, List.length_append] at total
    have inside := within.inside
    show (s.position.advanceBy passed).offset ≤ text.length
    omega
  · show rest = text.drop (s.position.advanceBy passed).offset
    rw [offset, ← List.drop_drop, ← within.rest, split, List.drop_left]

/-- What is read is what stands behind a gap, and the scanner goes on behind that. -/
theorem stands_of_read (read : s.read? = some (t, s')) :
    ∃ (gap : List Char) (l : Lexeme), l.Stands s'.rest ∧ s.rest = gap ++ (l.spelling ++ s'.rest) ∧
      t = ⟨l.kind, l.literal, s.position.advanceBy gap⟩ ∧ s'.position = s.position.advanceBy (gap ++ l.spelling) := by
  have whole := splitLayout_append false s.rest
  have parts := (split_splitLayout s.rest).1
  generalize split : splitLayout false s.rest = r at whole parts
  cases parts with
  | ended trailing =>
    rw [(read?_ended split).1] at read
    cases read
  | @solid gap tail c layout solid =>
    have stands := stands_lexeme solid
    have append := lexeme_append c tail
    rw [read?_solid split] at read
    generalize lexeme c tail = found at stands append read
    obtain ⟨l, rest⟩ := found
    obtain ⟨rfl, rfl⟩ := Prod.mk.inj (Option.some.inj read)
    exact ⟨gap, l, stands, by rw [append, whole], rfl, rfl⟩

/-- A scanner that reads a token in a text goes on behind it. -/
theorem within_read (within : s.Within text) (read : s.read? = some (t, s')) :
    s.position.offset ≤ t.position.offset ∧ t.Spans text s'.position.offset ∧ s'.Within text := by
  obtain ⟨gap, l, stands, split, rfl, place⟩ := stands_of_read read
  obtain ⟨behind, rest⟩ := s'
  obtain rfl : behind = s.position.advanceBy (gap ++ l.spelling) := place
  have spelled := spelling_of_stands stands (s.position.advanceBy gap)
  have before := within.advance split
  have after : Scanner.Within text ⟨s.position.advanceBy (gap ++ l.spelling), rest⟩ :=
    within.advance (by rw [split, List.append_assoc])
  refine ⟨?_, ⟨kind_of_stands stands, ?_, ?_, ?_, after.inside⟩, after⟩
  · rw [Position.offset_advanceBy]
    exact Nat.le_add_right _ _
  · rw [spelled]
    exact spelling_ne_nil stands
  · rw [spelled, ← before.rest, ← after.rest]
  · rw [spelled, Position.advanceBy_append, Position.offset_advanceBy]

/-- Whatever token a scanner comes to read, it takes up the text between its place and the place of the
    scanner behind it. -/
theorem within_reads (within : s.Within text) (reads : s.Reads t s') :
    s.position.offset ≤ t.position.offset ∧ t.Spans text s'.position.offset ∧ s'.Within text := by
  induction reads with
  | first read => exact within_read within read
  | later read reads ih =>
    obtain ⟨before, spans, within'⟩ := within_read within read
    obtain ⟨before', later⟩ := ih within'
    exact ⟨Nat.le_trans before (Nat.le_trans (Nat.le_of_lt spans.further) before'), later⟩

/-- A token is read once. -/
theorem reads_unique (within : s.Within text) (reads : s.Reads t s') {s'' : Scanner} (again : s.Reads t s'') :
    s' = s'' := by
  induction reads with
  | first read =>
    cases again with
    | first read' => exact congrArg Prod.snd (Option.some.inj (read.symm.trans read'))
    | later read' reads' =>
      -- what is read later stands further behind
      obtain ⟨rfl, rfl⟩ := Prod.mk.inj (Option.some.inj (read.symm.trans read'))
      obtain ⟨-, spans, within'⟩ := within_read within read
      exact absurd (within_reads within' reads').1 (Nat.not_le_of_lt spans.further)
  | later read reads ih =>
    obtain ⟨-, spans, within'⟩ := within_read within read
    cases again with
    | first read' =>
      obtain ⟨rfl, rfl⟩ := Prod.mk.inj (Option.some.inj (read.symm.trans read'))
      exact absurd (within_reads within' reads).1 (Nat.not_le_of_lt spans.further)
    | later read' reads' =>
      obtain ⟨rfl, rfl⟩ := Prod.mk.inj (Option.some.inj (read.symm.trans read'))
      exact ih within' reads'

/-- The tokens up to the end of the text are those that a scanner comes to read. -/
theorem reads_of_mem (member : t ∈ s.readAll.1) : ∃ s', s.Reads t s' := by
  fun_induction Scanner.readAll s with
  | case1 s ended => cases member
  | case2 s u r read ts stop later ih =>
    rw [later] at ih
    rcases List.mem_cons.mp member with rfl | deeper
    · exact ⟨r, .first read⟩
    · obtain ⟨s', reads⟩ := ih deeper
      exact ⟨s', .later read reads⟩

end

/-! ## Widths -/

/-- The characters of a token that its width leaves out: the quotes of a string, of which an empty
    string leaves out one only, since no width is zero. -/
def Token.uncounted (t : Token) : Nat :=
  if t.kind = .string then if t.literal = "" then 1 else 2 else 0

theorem width_of_spelling {t : Token} (some : t.spelling ≠ []) : t.width + t.uncounted = t.spelling.length := by
  have counted : t.literal.toList.length = t.literal.length := String.length_toList
  by_cases string : t.kind = .string
  · by_cases empty : t.literal = ""
    · simp [Token.width, Token.uncounted, Token.spelling, string, empty]
    · have length : 1 ≤ t.literal.length := Nat.pos_of_ne_zero (by simpa using empty)
      simp only [Token.width, Token.uncounted, Token.spelling, if_pos string, if_neg empty, Nat.max_eq_right length]
      simp [counted]
  · rw [Token.spelling, if_neg string] at some
    have length : 1 ≤ t.literal.length := counted ▸ List.length_pos_iff.mpr some
    simp only [Token.width, Token.uncounted, Token.spelling, if_neg string, Nat.max_eq_right length]
    rw [counted, Nat.add_zero]

/-- A token of a source, read by a scanner that stands at `behind` then. What a diagnostic about the token
    marks begins where the token does, is as long as the token is wide, and ends within the source; it is
    all of the token unless that is a string. -/
structure Token.Extends (source : String) (t : Token) (behind : Scanner) : Prop where
  read : (Scanner.ofSource source).Reads t behind
  alone : ∀ other, (Scanner.ofSource source).Reads t other → other = behind
  spelled : source.toList.extract t.position.offset behind.position.offset = t.spelling
  width : t.width + t.uncounted = behind.position.offset - t.position.offset
  covers : t.width = behind.position.offset - t.position.offset ↔ t.kind ≠ .string
  label : ∀ complaint, Console.label source.length ⟨complaint, t.position, t.width⟩ =
    (t.position.offset, t.position.offset + t.width)
  inside : t.position.offset + t.width ≤ source.length

/-- How far the tokens of a source go, and how far their widths. -/
theorem extent_of_token (source : String) {t : Token} (member : t ∈ tokenize source) (known : t.kind ≠ .eof) :
    ∃ behind, t.Extends source behind := by
  have within : (Scanner.ofSource source).Within source.toList := ⟨Nat.zero_le _, rfl⟩
  have among : t ∈ (Scanner.ofSource source).readAll.1 := by
    rcases List.mem_append.mp member with inside | last
    · exact inside
    · have mark := stop_of_laid (laid_readAll (.ofSource source))
      rw [← List.mem_singleton.mp last] at mark
      exact absurd (congrArg Prod.fst mark) known
  obtain ⟨behind, reads⟩ := reads_of_mem among
  obtain ⟨-, spans, -⟩ := within_reads within reads
  have further := spans.further
  have width : t.width + t.uncounted = behind.position.offset - t.position.offset := by
    rw [width_of_spelling spans.some, spans.reached, Nat.add_sub_cancel_left]
  have inside : t.position.offset + t.width ≤ source.length := by
    have stop := spans.inside
    rw [String.length_toList] at stop
    omega
  refine ⟨behind, reads, fun other again => (reads_unique within reads again).symm, ?_, width, ?_, ?_, inside⟩
  · rw [List.extract_eq_take_drop, spans.spelled, spans.reached, Nat.add_sub_cancel_left, List.take_left]
  · rw [← width, Token.uncounted]
    by_cases string : t.kind = .string
    · by_cases empty : t.literal = "" <;> simp [string, empty]
    · simp [string]
  · intro complaint
    simp only [Console.label, Nat.min_eq_left inside, Nat.min_eq_left (Nat.le_add_right _ _)]

/-- A string between two names. -/
theorem extent_of_string :
    ⟨.string, "cd", ⟨1, 4, 3⟩⟩ ∈ tokenize "ab \"cd\" e" ∧
      ∃ behind, Token.Extends "ab \"cd\" e" ⟨.string, "cd", ⟨1, 4, 3⟩⟩ behind := by
  have member : ⟨.string, "cd", ⟨1, 4, 3⟩⟩ ∈ tokenize "ab \"cd\" e" := by decide +kernel
  exact ⟨member, extent_of_token _ member (by decide)⟩

/-- The width of a string is not how far it goes. -/
theorem string_wider_than_width :
    ¬ ∀ source, ∀ t ∈ tokenize source, t.kind ≠ .eof →
      ∀ behind, (Scanner.ofSource source).Reads t behind → t.width = behind.position.offset - t.position.offset := by
  intro measured
  have member : ⟨.string, "abc", ⟨1, 1, 0⟩⟩ ∈ tokenize "\"abc\"" := by decide +kernel
  have read : (Scanner.ofSource "\"abc\"").read? = some (⟨.string, "abc", ⟨1, 1, 0⟩⟩, ⟨⟨1, 6, 5⟩, []⟩) := by decide +kernel
  have width : (3 : Nat) = 5 - 0 := measured _ _ member (by decide) _ (.first read)
  exact absurd width (by decide)

end Stepwise
