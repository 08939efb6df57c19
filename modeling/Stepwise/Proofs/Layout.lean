import Stepwise.Token.Scan

/-!
How tokens stand in a text. Between them there is layout (`Layout`), and behind each there is
text that does not go on with it (`Lexeme.Stands`). A scanner reads exactly the tokens that are
laid out in its text in this way (`readAll_eq_iff`).
-/
namespace Stepwise

/-! ## Layout -/

/-- Blanks, and comments with the line feeds that end them. -/
inductive Layout : List Char → Prop where
  | none : Layout []
  | blank {c : Char} {gap : List Char} (blank : isBlank c = true) (rest : Layout gap) : Layout (c :: gap)
  | comment {body gap : List Char} (inLine : '\n' ∉ body) (rest : Layout gap) :
      Layout ('/' :: '/' :: (body ++ '\n' :: gap))

/-- The layout at the end of a text. Its last comment need not end with its line. -/
inductive Trailing : List Char → Prop where
  | closed {gap : List Char} (layout : Layout gap) : Trailing gap
  | comment {gap body : List Char} (layout : Layout gap) (inLine : '\n' ∉ body) : Trailing (gap ++ '/' :: '/' :: body)

/-- No layout begins with `c` in front of `text`. -/
structure Solid (c : Char) (text : List Char) : Prop where
  unblank : isBlank c = false
  uncommented : ¬ (c = '/' ∧ text.head? = some '/')

theorem Layout.append {gap gap' : List Char} (first : Layout gap) (second : Layout gap') : Layout (gap ++ gap') := by
  induction first with
  | none => exact second
  | blank blank rest ih => exact .blank blank ih
  | comment inLine rest ih =>
    simp only [List.cons_append, List.append_assoc]
    exact .comment inLine ih

theorem Trailing.behind {gap gap' : List Char} (first : Layout gap) (second : Trailing gap') : Trailing (gap ++ gap') := by
  cases second with
  | closed layout => exact .closed (first.append layout)
  | comment layout inLine =>
    rw [← List.append_assoc]
    exact .comment (first.append layout) inLine

/-- What splitting the layout off a text comes to: all of the text is layout, or no layout begins
    where it ends. -/
inductive Split : List Char × List Char → Prop where
  | ended {gap : List Char} (trailing : Trailing gap) : Split (gap, [])
  | solid {gap text : List Char} {c : Char} (layout : Layout gap) (solid : Solid c text) : Split (gap, c :: text)

theorem Split.behind {gap : List Char} {r : List Char × List Char} (layout : Layout gap) (split : Split r) :
    Split (gap ++ r.1, r.2) := by
  cases split with
  | ended trailing => exact .ended (trailing.behind layout)
  | solid layout' solid => exact .solid (layout.append layout') solid

/-- Splitting goes on in a comment whose first slash, and whatever is in `body`, has been passed. -/
theorem split_splitLayout (text : List Char) :
    Split (splitLayout false text) ∧
      ∀ body, '\n' ∉ body → (body ++ text).head? = some '/' →
        Split ('/' :: (body ++ (splitLayout true text).1), (splitLayout true text).2) := by
  induction text with
  | nil =>
    refine ⟨.ended (.closed .none), fun body inLine opened => ?_⟩
    cases body with
    | nil => cases opened
    | cons c body =>
      obtain rfl : c = '/' := Option.some.inj opened
      have open_ : '\n' ∉ body := fun member => inLine (List.mem_cons_of_mem _ member)
      simpa [splitLayout] using Split.ended (Trailing.comment .none open_)
  | cons c text ih =>
    obtain ⟨free, commented⟩ := ih
    constructor
    · rw [splitLayout]
      simp only [Bool.false_eq_true, ↓reduceIte]
      by_cases blank : isBlank c = true
      · rw [if_pos blank]
        exact free.behind (.blank blank .none)
      · rw [if_neg blank]
        by_cases opens : c = '/' ∧ text.head? = some '/'
        · rw [if_pos opens, opens.1]
          exact commented [] (by simp) opens.2
        · rw [if_neg opens]
          exact .solid .none ⟨Bool.eq_false_iff.mpr blank, opens⟩
    · intro body inLine opened
      rw [splitLayout]
      simp only [↓reduceIte]
      by_cases ends : c = '\n'
      · subst ends
        cases body with
        | nil => cases opened
        | cons d body =>
          obtain rfl : d = '/' := Option.some.inj opened
          have closed : '\n' ∉ body := fun member => inLine (List.mem_cons_of_mem _ member)
          simpa using free.behind (.comment closed .none)
      · have goes : (c != '\n') = true := by simpa using ends
        rw [goes]
        have longer : '\n' ∉ body ++ [c] := by simp [inLine, Ne.symm ends]
        simpa using commented (body ++ [c]) longer (by simpa using opened)

/-- Nothing of the text behind a comment is taken for a part of it. -/
theorem splitLayout_comment {body : List Char} (inLine : '\n' ∉ body) (text : List Char) :
    splitLayout true (body ++ '\n' :: text) =
      (body ++ '\n' :: (splitLayout false text).1, (splitLayout false text).2) := by
  induction body with
  | nil => simp [splitLayout]
  | cons c body ih =>
    rw [List.mem_cons, not_or] at inLine
    obtain ⟨other, inLine⟩ := inLine
    have goes : (c != '\n') = true := by simpa using Ne.symm other
    rw [List.cons_append, splitLayout]
    simp only [↓reduceIte, goes, ih inLine, List.cons_append]

theorem splitLayout_open {body : List Char} (inLine : '\n' ∉ body) : splitLayout true body = (body, []) := by
  induction body with
  | nil => rfl
  | cons c body ih =>
    rw [List.mem_cons, not_or] at inLine
    obtain ⟨other, inLine⟩ := inLine
    have goes : (c != '\n') = true := by simpa using Ne.symm other
    rw [splitLayout]
    simp only [↓reduceIte, goes, ih inLine]

theorem splitLayout_slashes (text : List Char) :
    splitLayout false ('/' :: '/' :: text) = ('/' :: '/' :: (splitLayout true text).1, (splitLayout true text).2) := by
  simp [splitLayout, isBlank]

/-- All layout in front of a text is split off. -/
theorem splitLayout_layout {gap : List Char} (layout : Layout gap) (text : List Char) :
    splitLayout false (gap ++ text) = (gap ++ (splitLayout false text).1, (splitLayout false text).2) := by
  induction layout with
  | none => rfl
  | blank blank rest ih => simp [splitLayout, blank, ih]
  | comment inLine rest ih =>
    simp only [List.cons_append, List.append_assoc]
    rw [splitLayout_slashes, splitLayout_comment inLine, ih]

theorem splitLayout_trailing {gap : List Char} (trailing : Trailing gap) : splitLayout false gap = (gap, []) := by
  cases trailing with
  | closed layout => simpa [splitLayout] using splitLayout_layout layout []
  | comment layout inLine => rw [splitLayout_layout layout, splitLayout_slashes, splitLayout_open inLine]

theorem splitLayout_solid {c : Char} {text : List Char} (solid : Solid c text) :
    splitLayout false (c :: text) = ([], c :: text) := by
  simp [splitLayout, solid.unblank, solid.uncommented]

/-! ## Tokens in front of a text -/

/-- Characters that begin no token and no layout. -/
def isStray (c : Char) : Prop :=
  isBlank c = false ∧ c ≠ '"' ∧ c.isDigit = false ∧ c.isAlpha = false ∧ extensible? c = none ∧ symbol? c = none

/-- The tokens that stand in front of a text: their kinds, how they are spelled, and what the
    text may not begin with lest it go on with them. -/
inductive Lexeme.Stands : Lexeme → List Char → Prop where
  | string {body rest : List Char} (unquoted : '"' ∉ body) : Stands ⟨.string, '"' :: body ++ ['"']⟩ rest
  | unterminated {body : List Char} (unquoted : '"' ∉ body) : Stands ⟨.illegal, '"' :: body⟩ []
  | number {digits rest : List Char} (some : digits ≠ []) (digital : ∀ c ∈ digits, c.isDigit = true)
      (ends : ∀ c ∈ rest.head?, c.isDigit = false) : Stands ⟨.number, digits⟩ rest
  | word {letters rest : List Char} (some : letters ≠ []) (alphabetic : ∀ c ∈ letters, c.isAlpha = true)
      (ends : ∀ c ∈ rest.head?, c.isAlpha = false) : Stands ⟨.ofWord (String.ofList letters), letters⟩ rest
  | double {c : Char} {single double : Kind} {rest : List Char} (extends_ : extensible? c = some (single, double)) :
      Stands ⟨double, [c, '=']⟩ rest
  | single {c : Char} {single double : Kind} {rest : List Char} (extends_ : extensible? c = some (single, double))
      (ends : rest.head? ≠ some '=') : Stands ⟨single, [c]⟩ rest
  | symbol {c : Char} {kind : Kind} {rest : List Char} (symbol : symbol? c = some kind)
      (uncommented : ¬ (c = '/' ∧ rest.head? = some '/')) : Stands ⟨kind, [c]⟩ rest
  | stray {c : Char} {rest : List Char} (stray : isStray c) : Stands ⟨.illegal, [c]⟩ rest

/-! ## Reading one token -/

section

variable {p : Char → Bool} {run rest : List Char}

/-- A run of characters of one class ends where another character follows. -/
theorem takeWhile_run (all : ∀ c ∈ run, p c = true) (ends : ∀ c ∈ rest.head?, p c = false) :
    (run ++ rest).takeWhile p = run := by
  rw [List.takeWhile_append_of_pos all]
  cases rest with
  | nil => simp
  | cons c rest => simp [ends c rfl]

theorem dropWhile_run (all : ∀ c ∈ run, p c = true) (ends : ∀ c ∈ rest.head?, p c = false) :
    (run ++ rest).dropWhile p = rest := by
  rw [List.dropWhile_append_of_pos all]
  cases rest with
  | nil => rfl
  | cons c rest => simp [ends c rfl]

theorem head?_dropWhile (p : Char → Bool) (text : List Char) : ∀ c ∈ (text.dropWhile p).head?, p c = false := by
  intro c member
  have stops := List.head?_dropWhile_not p text
  rw [Option.mem_def.mp member] at stops
  exact stops

end

theorem quoted_string {body : List Char} (unquoted : '"' ∉ body) (rest : List Char) :
    quoted (body ++ '"' :: rest) = (⟨.string, '"' :: body ++ ['"']⟩, rest) := by
  have inside : ∀ c ∈ body, (c != '"') = true := by
    intro c member
    simp only [bne_iff_ne, ne_eq]
    rintro rfl
    exact unquoted member
  have ends : ∀ c ∈ ('"' :: rest).head?, (c != '"') = false := by simp
  simp only [quoted, takeWhile_run inside ends, dropWhile_run inside ends]

theorem quoted_unterminated {body : List Char} (unquoted : '"' ∉ body) :
    quoted body = (⟨.illegal, '"' :: body⟩, []) := by
  have inside : ∀ c ∈ body, (c != '"') = true := by
    intro c member
    simp only [bne_iff_ne, ne_eq]
    rintro rfl
    exact unquoted member
  have ends : ∀ c ∈ ([] : List Char).head?, (c != '"') = false := by simp
  have taken := takeWhile_run inside ends
  have dropped := dropWhile_run inside ends
  rw [List.append_nil] at taken dropped
  simp only [quoted, taken, dropped]

theorem stands_quoted (text : List Char) : (quoted text).1.Stands (quoted text).2 := by
  have unquoted : '"' ∉ text.takeWhile (· != '"') := by
    intro member
    have inside := List.all_eq_true.mp List.all_takeWhile _ member
    simp at inside
  have ends := head?_dropWhile (· != '"') text
  rw [quoted]
  cases left : text.dropWhile (· != '"') with
  | nil => exact .unterminated unquoted
  | cons quote rest =>
    have same := ends quote (by rw [left]; rfl)
    obtain rfl : quote = '"' := by simpa using same
    exact .string unquoted

/-- Characters that begin nothing longer than themselves. -/
structure Plain (c : Char) : Prop where
  unblank : isBlank c = false
  unquoted : c ≠ '"'
  undigital : c.isDigit = false
  unalphabetic : c.isAlpha = false

theorem plain_of_extensible {c : Char} {single double : Kind} (found : extensible? c = some (single, double)) :
    Plain c ∧ c ≠ '/' := by
  unfold extensible? at found
  split at found <;> first | exact ⟨⟨by decide, by decide, by decide, by decide⟩, by decide⟩ | cases found

theorem plain_of_symbol {c : Char} {kind : Kind} (found : symbol? c = some kind) : Plain c ∧ extensible? c = none := by
  unfold symbol? at found
  split at found <;> first | exact ⟨⟨by decide, by decide, by decide, by decide⟩, rfl⟩ | cases found

theorem lexeme_quote (text : List Char) : lexeme '"' text = quoted text := by
  unfold lexeme
  rw [if_pos rfl]

theorem lexeme_digit {c : Char} (digit : c.isDigit = true) (text : List Char) :
    lexeme c text = (⟨.number, c :: text.takeWhile Char.isDigit⟩, text.dropWhile Char.isDigit) := by
  have unquoted : c ≠ '"' := by
    rintro rfl
    exact absurd digit (by decide)
  unfold lexeme
  rw [if_neg unquoted, if_pos digit]

theorem undigital_of_alpha {c : Char} (letter : c.isAlpha = true) : ¬ c.isDigit = true := by
  intro digit
  have above : 'A'.toNat ≤ c.toNat := by
    rcases Bool.or_eq_true_iff.mp letter with upper | lower
    · exact (of_decide_eq_true upper).1
    · exact Nat.le_trans (by decide) (of_decide_eq_true (Bool.and_eq_true_iff.mp lower).1 : 'a'.toNat ≤ c.toNat)
  have below := (Char.isDigit_iff_toNat.mp digit).2
  exact absurd (Nat.le_trans above below) (by decide)

theorem lexeme_letter {c : Char} (letter : c.isAlpha = true) (text : List Char) :
    lexeme c text =
      (⟨.ofWord (String.ofList (c :: text.takeWhile Char.isAlpha)), c :: text.takeWhile Char.isAlpha⟩,
        text.dropWhile Char.isAlpha) := by
  have unquoted : c ≠ '"' := by
    rintro rfl
    exact absurd letter (by decide)
  unfold lexeme
  rw [if_neg unquoted, if_neg (undigital_of_alpha letter), if_pos letter]

theorem lexeme_plain {c : Char} (plain : Plain c) (text : List Char) :
    lexeme c text =
      match extensible? c, text with
      | some (_, double), '=' :: rest => (⟨double, [c, '=']⟩, rest)
      | some (single, _), _ => (⟨single, [c]⟩, text)
      | none, _ => (⟨(symbol? c).getD .illegal, [c]⟩, text) := by
  have undigital : ¬ c.isDigit = true := by simp [plain.undigital]
  have unalphabetic : ¬ c.isAlpha = true := by simp [plain.unalphabetic]
  unfold lexeme
  exact (if_neg plain.unquoted).trans ((if_neg undigital).trans (if_neg unalphabetic))

/-- No layout begins with a letter or a digit. -/
theorem solid_of_alphanum {c : Char} (alphanum : c.isAlphanum = true) (text : List Char) : Solid c text := by
  constructor
  · rw [Bool.eq_false_iff]
    intro blank
    simp only [isBlank, Bool.or_eq_true, decide_eq_true_eq] at blank
    rcases blank with ((rfl | rfl) | rfl) | rfl <;> exact absurd alphanum (by decide)
  · rintro ⟨rfl, -⟩
    exact absurd alphanum (by decide)

theorem solid_of_ne {c : Char} (unblank : isBlank c = false) (other : c ≠ '/') (text : List Char) : Solid c text :=
  ⟨unblank, fun both => other both.1⟩

/-- A token that stands in front of a text is read off there. -/
theorem lexeme_of_stands {l : Lexeme} {rest : List Char} (stands : l.Stands rest) :
    ∃ c tail, l.spelling = c :: tail ∧ Solid c (tail ++ rest) ∧ lexeme c (tail ++ rest) = (l, rest) := by
  cases stands with
  | @string body rest unquoted =>
    refine ⟨'"', body ++ ['"'], rfl, solid_of_ne (by decide) (by decide) _, ?_⟩
    rw [lexeme_quote, List.append_assoc, List.singleton_append]
    exact quoted_string unquoted rest
  | @unterminated body unquoted =>
    refine ⟨'"', body, rfl, solid_of_ne (by decide) (by decide) _, ?_⟩
    rw [lexeme_quote, List.append_nil]
    exact quoted_unterminated unquoted
  | @number digits rest some digital ends =>
    obtain ⟨c, tail, rfl⟩ := List.exists_cons_of_ne_nil some
    have digit := digital c List.mem_cons_self
    have more : ∀ d ∈ tail, d.isDigit = true := fun d member => digital d (List.mem_cons_of_mem _ member)
    refine ⟨c, tail, rfl, solid_of_alphanum (by simp [Char.isAlphanum, digit]) _, ?_⟩
    rw [lexeme_digit digit, takeWhile_run more ends, dropWhile_run more ends]
  | @word letters rest some alphabetic ends =>
    obtain ⟨c, tail, rfl⟩ := List.exists_cons_of_ne_nil some
    have letter := alphabetic c List.mem_cons_self
    have more : ∀ d ∈ tail, d.isAlpha = true := fun d member => alphabetic d (List.mem_cons_of_mem _ member)
    refine ⟨c, tail, rfl, solid_of_alphanum (by simp [Char.isAlphanum, letter]) _, ?_⟩
    rw [lexeme_letter letter, takeWhile_run more ends, dropWhile_run more ends]
  | @double c single double rest found =>
    obtain ⟨plain, unslashed⟩ := plain_of_extensible found
    refine ⟨c, ['='], rfl, solid_of_ne plain.unblank unslashed _, ?_⟩
    rw [lexeme_plain plain, found]
    rfl
  | @single c single double rest found ends =>
    obtain ⟨plain, unslashed⟩ := plain_of_extensible found
    refine ⟨c, [], rfl, solid_of_ne plain.unblank unslashed _, ?_⟩
    rw [lexeme_plain plain, found]
    cases rest with
    | nil => rfl
    | cons d rest =>
      have other : d ≠ '=' := fun same => ends (by rw [same]; rfl)
      simp [other]
  | @symbol c kind rest found uncommented =>
    obtain ⟨plain, short⟩ := plain_of_symbol found
    refine ⟨c, [], rfl, ⟨plain.unblank, uncommented⟩, ?_⟩
    rw [lexeme_plain plain, short]
    simp [found]
  | @stray c rest stray =>
    obtain ⟨unblank, unquoted, undigital, unalphabetic, short, none⟩ := stray
    have unslashed : c ≠ '/' := by
      rintro rfl
      cases none
    refine ⟨c, [], rfl, solid_of_ne unblank unslashed _, ?_⟩
    rw [lexeme_plain ⟨unblank, unquoted, undigital, unalphabetic⟩, short]
    simp [none]

/-- What is read off a text stands in front of the rest. -/
theorem stands_lexeme {c : Char} {text : List Char} (solid : Solid c text) :
    (lexeme c text).1.Stands (lexeme c text).2 := by
  by_cases quote : c = '"'
  · rw [quote, lexeme_quote]
    exact stands_quoted text
  by_cases digit : c.isDigit = true
  · rw [lexeme_digit digit]
    refine .number (List.cons_ne_nil _ _) ?_ (head?_dropWhile _ _)
    intro d member
    rcases List.mem_cons.mp member with rfl | inside
    · exact digit
    · exact List.all_eq_true.mp List.all_takeWhile _ inside
  by_cases letter : c.isAlpha = true
  · rw [lexeme_letter letter]
    refine .word (List.cons_ne_nil _ _) ?_ (head?_dropWhile _ _)
    intro d member
    rcases List.mem_cons.mp member with rfl | inside
    · exact letter
    · exact List.all_eq_true.mp List.all_takeWhile _ inside
  rw [Bool.not_eq_true] at digit letter
  have plain : Plain c := ⟨solid.unblank, quote, digit, letter⟩
  rw [lexeme_plain plain]
  split
  · next found => exact .double found
  · next found other =>
    refine .single found fun same => ?_
    obtain ⟨rest, same⟩ := List.head?_eq_some_iff.mp same
    exact other rest same
  · next short =>
    cases found : symbol? c with
    | none => exact .stray ⟨solid.unblank, quote, digit, letter, short, found⟩
    | some kind => exact .symbol found solid.uncommented

/-! ## Spelling -/

/-- The characters of a text that a token takes up: a string has its quotes there. -/
def Token.spelling (t : Token) : List Char :=
  if t.kind = .string then '"' :: t.literal.toList ++ ['"'] else t.literal.toList

/-- What a token is, wherever it stands. -/
def Token.content (t : Token) : Kind × String :=
  (t.kind, t.literal)

theorem ofWord_ne (word : String) : Kind.ofWord word ≠ .eof ∧ Kind.ofWord word ≠ .string := by
  unfold Kind.ofWord
  split <;> decide

theorem extensible?_ne {c : Char} {single double : Kind} (found : extensible? c = some (single, double)) :
    (single ≠ .eof ∧ single ≠ .string ∧ single ≠ .identifier) ∧
      double ≠ .eof ∧ double ≠ .string ∧ double ≠ .identifier := by
  unfold extensible? at found
  split at found <;> first | cases found; decide | cases found

theorem symbol?_ne {c : Char} {kind : Kind} (found : symbol? c = some kind) :
    kind ≠ .eof ∧ kind ≠ .string ∧ kind ≠ .identifier := by
  unfold symbol? at found
  split at found <;> first | cases found; decide | cases found

section

variable {l : Lexeme} {rest : List Char}

/-- Nothing that stands in a text is taken for its end. -/
theorem kind_of_stands (stands : l.Stands rest) : l.kind ≠ .eof := by
  cases stands with
  | string | unterminated | number | stray => simp
  | word some alphabetic ends => exact (ofWord_ne _).1
  | double found => exact (extensible?_ne found).2.1
  | single found ends => exact (extensible?_ne found).1.1
  | symbol found uncommented => exact (symbol?_ne found).1

/-- The literal of a token tells how it is spelled. -/
theorem spelling_of_stands (stands : l.Stands rest) (p : Position) :
    Token.spelling ⟨l.kind, l.literal, p⟩ = l.spelling := by
  have other : l.kind ≠ .string → Token.spelling ⟨l.kind, l.literal, p⟩ = l.spelling := by
    intro other
    simp [Token.spelling, Lexeme.literal, other]
  cases stands with
  | string unquoted => simp [Token.spelling, Lexeme.literal]
  | unterminated | number | stray => exact other (by simp)
  | word some alphabetic ends => exact other (ofWord_ne _).2
  | double found => exact other (extensible?_ne found).2.2.1
  | single found ends => exact other (extensible?_ne found).1.2.1
  | symbol found uncommented => exact other (symbol?_ne found).2.1

theorem spelling_ne_nil (stands : l.Stands rest) : l.spelling ≠ [] := by
  obtain ⟨c, tail, spelled, -, -⟩ := lexeme_of_stands stands
  rw [spelled]
  exact List.cons_ne_nil c tail

end

/-! ## Whole texts -/

/-- A text from the place `p` on: layout, then a token, and so on, and at last the end mark. -/
inductive Laid : Position → List Char → List Token → Token → Prop where
  | ended {p : Position} {gap : List Char} (trailing : Trailing gap) : Laid p gap [] ⟨.eof, "", p.advanceBy gap⟩
  | token {p : Position} {gap rest : List Char} {l : Lexeme} {ts : List Token} {stop : Token} (layout : Layout gap)
      (stands : l.Stands rest) (laid : Laid (p.advanceBy (gap ++ l.spelling)) rest ts stop) :
      Laid p (gap ++ (l.spelling ++ rest)) (⟨l.kind, l.literal, p.advanceBy gap⟩ :: ts) stop

/-- Nothing in a text is taken for its end. -/
theorem inside_of_laid {p : Position} {text : List Char} {ts : List Token} {stop : Token} (laid : Laid p text ts stop) :
    ∀ t ∈ ts, t.kind ≠ .eof := by
  induction laid with
  | ended trailing => exact List.forall_mem_nil _
  | token layout stands laid ih => exact List.forall_mem_cons.mpr ⟨kind_of_stands stands, ih⟩

theorem stop_of_laid {p : Position} {text : List Char} {ts : List Token} {stop : Token} (laid : Laid p text ts stop) :
    stop.content = (.eof, "") := by
  induction laid with
  | ended trailing => rfl
  | token layout stands laid ih => exact ih

theorem read?_solid {s : Scanner} {gap text : List Char} {c : Char} (split : splitLayout false s.rest = (gap, c :: text)) :
    s.read? = some (⟨(lexeme c text).1.kind, (lexeme c text).1.literal, s.position.advanceBy gap⟩,
      ⟨s.position.advanceBy (gap ++ (lexeme c text).1.spelling), (lexeme c text).2⟩) := by
  simp only [Scanner.read?, Scanner.skip, split, Position.advanceBy_append]

theorem read?_ended {s : Scanner} {gap : List Char} (split : splitLayout false s.rest = (gap, [])) :
    s.read? = none ∧ s.eof = ⟨.eof, "", s.position.advanceBy gap⟩ := by
  simp only [Scanner.read?, Scanner.eof, Scanner.skip, split, and_self]

theorem readAll_eq (s : Scanner) :
    s.readAll = match s.read? with
      | none => ([], s.eof)
      | some (t, s') => (t :: s'.readAll.1, s'.readAll.2) := by
  rw [Scanner.readAll]
  cases s.read? <;> rfl

/-- What a scanner reads is laid out in its text. -/
theorem laid_readAll (s : Scanner) : Laid s.position s.rest s.readAll.1 s.readAll.2 := by
  have whole := splitLayout_append false s.rest
  have parts := (split_splitLayout s.rest).1
  generalize split : splitLayout false s.rest = r at whole parts
  rw [readAll_eq]
  cases parts with
  | @ended gap trailing =>
    obtain ⟨nothing, mark⟩ := read?_ended split
    rw [nothing, ← whole, List.append_nil, mark]
    exact .ended trailing
  | @solid gap text c layout solid =>
    have read := read?_solid split
    have shorter := Scanner.length_lt_of_read? read
    have later := laid_readAll ⟨s.position.advanceBy (gap ++ (lexeme c text).1.spelling), (lexeme c text).2⟩
    rw [read, ← whole, ← lexeme_append c text]
    exact .token layout (stands_lexeme solid) later
termination_by s.rest.length

/-- What is laid out in the text of a scanner is read. -/
theorem readAll_of_laid {p : Position} {text : List Char} {ts : List Token} {stop : Token}
    (laid : Laid p text ts stop) : (Scanner.mk p text).readAll = (ts, stop) := by
  induction laid with
  | @ended p gap trailing =>
    obtain ⟨nothing, mark⟩ := read?_ended (s := ⟨p, gap⟩) (splitLayout_trailing trailing)
    rw [readAll_eq, nothing, mark]
  | @token p gap rest l ts stop layout stands laid ih =>
    obtain ⟨c, tail, spelled, solid, read⟩ := lexeme_of_stands stands
    have split : splitLayout false (gap ++ (c :: (tail ++ rest))) = (gap, c :: (tail ++ rest)) := by
      rw [splitLayout_layout layout, splitLayout_solid solid, List.append_nil]
    have first := read?_solid (s := ⟨p, _⟩) split
    rw [read] at first
    rw [spelled, List.cons_append, readAll_eq, first]
    simp only [ih]

/-- A scanner reads exactly the tokens that are laid out in its text. -/
theorem readAll_eq_iff (s : Scanner) (ts : List Token) (stop : Token) :
    s.readAll = (ts, stop) ↔ Laid s.position s.rest ts stop := by
  constructor
  · intro read
    have laid := laid_readAll s
    rwa [read] at laid
  · exact readAll_of_laid

end Stepwise
