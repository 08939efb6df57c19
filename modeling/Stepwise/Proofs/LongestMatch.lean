import Stepwise.Proofs.Partition

/-!
The lexical grammar. Each kind of token says how much of the text at its place the token takes: a word
or a number takes the longest run of its characters, a mark takes an equals sign behind it where there
is one to take, a string goes up to the next quote (`Token.Longest`). The tokens of a source keep to
this, and no other tokens do with nothing but layout between them (`tokens_iff_lexed`).
-/
namespace Stepwise

/-! ## The grammar -/

/-- The words that are no names, and what they are. -/
def reservedWords : List (String × Kind) :=
  [("else", .elseWord), ("false", .falseWord), ("func", .funcWord), ("if", .ifWord), ("let", .letWord),
    ("return", .returnWord), ("true", .trueWord), ("while", .whileWord), ("number", .numberType),
    ("string", .stringType), ("bool", .boolType)]

/-- The marks that take an equals sign behind them, without it and with it. -/
def extendedMarks : List (Char × Kind × Kind) :=
  [('!', .bang, .bangEqual), ('=', .equal, .equalEqual), ('<', .less, .lessEqual), ('>', .greater, .greaterEqual)]

namespace Kind

/-- The kinds of words. -/
def isWord : Kind → Bool
  | identifier => true
  | elseWord | falseWord | funcWord | ifWord | letWord | returnWord | trueWord | whileWord => true
  | numberType | stringType | boolType => true
  | _ => false

/-- The kinds of marks, which are spelled the way diagnostics name them. -/
def isMark : Kind → Bool
  | leftParen | rightParen | leftBrace | rightBrace | leftBracket | rightBracket => true
  | comma | colon | dot | minus | plus | semicolon | slash | star => true
  | bang | bangEqual | equal | equalEqual | greater | greaterEqual | less | lessEqual => true
  | _ => false

end Kind

/-- The longest stretch of characters of one class that a text begins with. -/
structure LongestRun (p : Char → Bool) (run text : List Char) : Prop where
  some : run ≠ []
  begins : run <+: text
  uniform : ∀ c ∈ run, p c = true
  longest : ∀ other, other <+: text → (∀ c ∈ other, p c = true) → other.length ≤ run.length

/-- Characters that are no layout and that no other token begins with. -/
structure Foreign (c : Char) : Prop where
  unblank : isBlank c = false
  unalphabetic : c.isAlpha = false
  undigital : c.isDigit = false
  unquoted : c ≠ '"'
  unmarked : ∀ k : Kind, k.isMark = true → k.describe.toList.head? ≠ some c

/-- A token is the longest one of the lexical grammar that the text from its place on begins with. -/
structure Token.Longest (t : Token) (text : List Char) : Prop where
  word : t.kind.isWord = true → LongestRun Char.isAlpha t.literal.toList text ∧
    ((t.literal, t.kind) ∈ reservedWords ∨ t.kind = .identifier ∧ t.literal ∉ reservedWords.map Prod.fst)
  number : t.kind = .number → LongestRun Char.isDigit t.literal.toList text
  mark : t.kind.isMark = true → t.literal = t.kind.describe ∧ t.literal.toList <+: text
  extended : ∀ c single double, (c, single, double) ∈ extendedMarks → ∀ rest, text = c :: rest →
    t.kind = if rest.head? = some '=' then double else single
  slash : t.kind = .slash → ∀ rest, text = '/' :: rest → rest.head? ≠ some '/'
  string : t.kind = .string → '"' ∉ t.literal.toList ∧ '"' :: t.literal.toList ++ ['"'] <+: text
  illegal : t.kind = .illegal →
    (∃ c, t.literal.toList = [c] ∧ text.head? = some c ∧ Foreign c) ∨
      ∃ rest, text = '"' :: rest ∧ '"' ∉ rest ∧ t.literal.toList = text

/-! ## Runs -/

section

variable {p : Char → Bool} {run rest : List Char}

/-- A run that ends where a character of another class follows is the longest. -/
theorem longestRun_of_ends (some : run ≠ []) (uniform : ∀ c ∈ run, p c = true) (ends : ∀ c ∈ rest.head?, p c = false) :
    LongestRun p run (run ++ rest) := by
  refine ⟨some, List.prefix_append run rest, uniform, fun other begins same => ?_⟩
  by_contra longer
  obtain ⟨more, rfl⟩ := List.prefix_of_prefix_length_le (List.prefix_append run rest) begins (Nat.le_of_not_le longer)
  obtain ⟨behind, split⟩ := begins
  rw [List.append_assoc, List.append_cancel_left_eq] at split
  cases more with
  | nil => simp at longer
  | cons c more =>
    have stops := ends c (by rw [← split]; rfl)
    have goes := same c (by simp)
    rw [stops] at goes
    cases goes

/-- The longest run ends where a character of another class follows. -/
theorem LongestRun.ends {text : List Char} (longest : LongestRun p run text) :
    ∃ rest, text = run ++ rest ∧ ∀ c ∈ rest.head?, p c = false := by
  obtain ⟨rest, rfl⟩ := longest.begins
  refine ⟨rest, rfl, fun c first => ?_⟩
  by_contra goes
  obtain ⟨behind, rfl⟩ := List.head?_eq_some_iff.mp first
  have longer : (run ++ [c]).length ≤ run.length := by
    refine longest.longest _ ⟨behind, by simp⟩ fun d member => ?_
    rcases List.mem_append.mp member with inside | last
    · exact longest.uniform d inside
    · rw [List.mem_singleton.mp last]
      simpa using goes
  rw [List.length_append, List.length_singleton] at longer
  exact absurd longer (Nat.not_succ_le_self _)

end

/-! ## Kinds -/

/-- A word is of the kind that the reserved words say, or a name. -/
theorem ofWord_eq_iff (word : String) (k : Kind) :
    Kind.ofWord word = k ↔ (word, k) ∈ reservedWords ∨ k = .identifier ∧ word ∉ reservedWords.map Prod.fst := by
  unfold Kind.ofWord
  split <;> simp_all [reservedWords, eq_comm]

theorem isWord_ofWord (word : String) : (Kind.ofWord word).isWord = true := by
  unfold Kind.ofWord
  split <;> rfl

theorem mem_extendedMarks {c : Char} {single double : Kind} :
    (c, single, double) ∈ extendedMarks ↔ extensible? c = some (single, double) := by
  constructor
  · intro member
    simp only [extendedMarks, List.mem_cons, Prod.mk.injEq, List.not_mem_nil, or_false] at member
    rcases member with ⟨rfl, rfl, rfl⟩ | ⟨rfl, rfl, rfl⟩ | ⟨rfl, rfl, rfl⟩ | ⟨rfl, rfl, rfl⟩ <;> rfl
  · intro found
    unfold extensible? at found
    split at found <;> first | cases found; decide | cases found

/-- What a mark begins with. -/
def Kind.sign (k : Kind) : Char :=
  k.describe.toList.headD ' '

/-- A mark is a symbol, or an operator with or without an equals sign behind it. -/
theorem mark_cases {k : Kind} (mark : k.isMark = true) :
    symbol? k.sign = some k ∧ k.describe.toList = [k.sign] ∨
      (∃ double, extensible? k.sign = some (k, double)) ∧ k.describe.toList = [k.sign] ∨
      (∃ single, extensible? k.sign = some (single, k)) ∧ k.describe.toList = [k.sign, '='] := by
  cases k <;> first
    | exact .inl ⟨rfl, rfl⟩
    | exact .inr (.inl ⟨⟨_, rfl⟩, rfl⟩)
    | exact .inr (.inr ⟨⟨_, rfl⟩, rfl⟩)
    | cases mark

theorem mark_of_symbol {c : Char} {k : Kind} (symbol : symbol? c = some k) :
    k.isMark = true ∧ k.describe = String.ofList [c] := by
  unfold symbol? at symbol
  split at symbol <;> first | cases symbol; decide | cases symbol

theorem mark_of_extensible {c : Char} {single double : Kind} (found : extensible? c = some (single, double)) :
    (single.isMark = true ∧ single.describe = String.ofList [c]) ∧
      double.isMark = true ∧ double.describe = String.ofList [c, '='] := by
  unfold extensible? at found
  split at found <;> first | cases found; decide | cases found

theorem single_ne_double {c : Char} {single double : Kind} (found : extensible? c = some (single, double)) :
    single ≠ double := by
  unfold extensible? at found
  split at found <;> first | cases found; decide | cases found

/-- What no other token begins with is read as a character on its own. -/
theorem foreign_iff {c : Char} : Foreign c ↔ isStray c := by
  constructor
  · intro foreign
    refine ⟨foreign.unblank, foreign.unquoted, foreign.undigital, foreign.unalphabetic, ?_, ?_⟩
    · cases found : extensible? c with
      | none => rfl
      | some kinds =>
        obtain ⟨mark, spelled⟩ := (mark_of_extensible found).1
        exact absurd (by rw [spelled]; simp) (foreign.unmarked _ mark)
    · cases found : symbol? c with
      | none => rfl
      | some kind =>
        obtain ⟨mark, spelled⟩ := mark_of_symbol found
        exact absurd (by rw [spelled]; simp) (foreign.unmarked _ mark)
  · rintro ⟨unblank, unquoted, undigital, unalphabetic, short, none⟩
    refine ⟨unblank, unalphabetic, undigital, unquoted, fun k mark first => ?_⟩
    rcases mark_cases mark with ⟨found, spelled⟩ | ⟨⟨double, found⟩, spelled⟩ | ⟨⟨single, found⟩, spelled⟩
    · rw [spelled] at first
      rw [Option.some.inj first, none] at found
      cases found
    · rw [spelled] at first
      rw [Option.some.inj first, short] at found
      cases found
    · rw [spelled] at first
      rw [Option.some.inj first, short] at found
      cases found

theorem apart_of_word {k : Kind} (word : k.isWord = true) :
    k.isMark = false ∧ k ≠ .number ∧ k ≠ .string ∧ k ≠ .illegal := by
  cases k <;> first | decide | cases word

theorem apart_of_mark {k : Kind} (mark : k.isMark = true) :
    k.isWord = false ∧ k ≠ .number ∧ k ≠ .string ∧ k ≠ .illegal := by
  cases k <;> first | decide | cases mark

/-! ## What stands in a text is the longest -/

section

variable {l : Lexeme} {rest : List Char}

/-- The literal of what is no string is how it is spelled. -/
theorem literal_eq (other : l.kind ≠ .string) : l.literal = String.ofList l.spelling := by
  rw [Lexeme.literal, if_neg other]

theorem toList_literal (other : l.kind ≠ .string) : l.literal.toList = l.spelling := by
  rw [literal_eq other, String.toList_ofList]

/-- A mark takes an equals sign behind it. -/
theorem extended_of_stands (stands : l.Stands rest) (c : Char) (single double : Kind)
    (member : (c, single, double) ∈ extendedMarks) (more : List Char) (text : l.spelling ++ rest = c :: more) :
    l.kind = if more.head? = some '=' then double else single := by
  have found := mem_extendedMarks.mp member
  obtain ⟨first, tail, spelled, solid, read⟩ := lexeme_of_stands stands
  rw [spelled, List.cons_append] at text
  obtain ⟨rfl, rfl⟩ := List.cons.inj text
  rw [lexeme_plain (plain_of_extensible found).1, found] at read
  generalize tail ++ rest = more at read ⊢
  cases more with
  | nil => exact (congrArg (·.1.kind) read).symm
  | cons d more =>
    by_cases equals : d = '='
    · subst equals
      rw [if_pos List.head?_cons]
      exact (congrArg (·.1.kind) read).symm
    · have alone : (⟨single, [first]⟩, d :: more) = (l, rest) := by simpa [equals] using read
      rw [if_neg (by simpa using equals)]
      exact (congrArg (·.1.kind) alone).symm

theorem uncommented_of_stands (stands : l.Stands rest) (more : List Char) (text : l.spelling ++ rest = '/' :: more) :
    more.head? ≠ some '/' := by
  obtain ⟨first, tail, spelled, solid, -⟩ := lexeme_of_stands stands
  rw [spelled, List.cons_append] at text
  obtain ⟨rfl, rfl⟩ := List.cons.inj text
  exact fun next => solid.uncommented ⟨rfl, next⟩

theorem longest_of_mark (stands : l.Stands rest) (p : Position) (mark : l.kind.isMark = true)
    (described : l.kind.describe = String.ofList l.spelling) :
    Token.Longest ⟨l.kind, l.literal, p⟩ (l.spelling ++ rest) := by
  obtain ⟨unworded, unnumbered, other, legal⟩ := apart_of_mark mark
  refine ⟨fun word => ?_, fun same => absurd same unnumbered, fun _ => ⟨?_, ?_⟩, extended_of_stands stands,
    fun _ => uncommented_of_stands stands, fun same => absurd same other, fun same => absurd same legal⟩
  · rw [unworded] at word
    cases word
  · rw [literal_eq other, described]
  · rw [toList_literal other]
    exact List.prefix_append _ _

/-- What stands in a text is the longest token there. -/
theorem longest_of_stands (stands : l.Stands rest) (p : Position) :
    Token.Longest ⟨l.kind, l.literal, p⟩ (l.spelling ++ rest) := by
  have extended := extended_of_stands stands
  have slash : l.kind = .slash → ∀ more, l.spelling ++ rest = '/' :: more → more.head? ≠ some '/' :=
    fun _ => uncommented_of_stands stands
  have marked := longest_of_mark stands p
  cases stands with
  | @string body rest unquoted =>
    refine ⟨(by intro word; cases word), (by intro number; cases number), (by intro mark; cases mark), extended, slash,
      fun _ => ?_, (by intro illegal; cases illegal)⟩
    simp [Lexeme.literal, unquoted]
  | @unterminated body unquoted =>
    refine ⟨(by intro word; cases word), (by intro number; cases number), (by intro mark; cases mark), extended, slash,
      (by intro string; cases string), fun _ => .inr ⟨body, by simp, unquoted, ?_⟩⟩
    simp [Lexeme.literal]
  | @number digits rest some digital ends =>
    refine ⟨(by intro word; cases word), fun _ => ?_, (by intro mark; cases mark), extended, slash,
      (by intro string; cases string), (by intro illegal; cases illegal)⟩
    rw [toList_literal (by intro string; cases string)]
    exact longestRun_of_ends some digital ends
  | @word letters rest some alphabetic ends =>
    obtain ⟨unmarked, unnumbered, other, legal⟩ := apart_of_word (isWord_ofWord (String.ofList letters))
    refine ⟨fun _ => ⟨?_, ?_⟩, fun same => absurd same unnumbered, fun mark => ?_, extended, slash,
      fun same => absurd same other, fun same => absurd same legal⟩
    · rw [toList_literal other]
      exact longestRun_of_ends some alphabetic ends
    · rw [literal_eq other]
      exact (ofWord_eq_iff _ _).mp rfl
    · rw [unmarked] at mark
      cases mark
  | double found => exact marked (mark_of_extensible found).2.1 (mark_of_extensible found).2.2
  | single found ends => exact marked (mark_of_extensible found).1.1 (mark_of_extensible found).1.2
  | symbol found uncommented => exact marked (mark_of_symbol found).1 (mark_of_symbol found).2
  | @stray c rest stray =>
    refine ⟨(by intro word; cases word), (by intro number; cases number), (by intro mark; cases mark), extended, slash,
      (by intro string; cases string), fun _ =>
        .inl ⟨c, toList_literal (by intro string; cases string), rfl, ?_⟩⟩
    exact foreign_iff.mpr stray

end

/-! ## The longest stands in its text -/

/-- The kinds are words, marks and the others. -/
theorem kind_cases (k : Kind) :
    k.isWord = true ∨ k.isMark = true ∨ k = .number ∨ k = .string ∨ k = .illegal ∨ k = .eof := by
  cases k <;> decide

section

variable {t : Token} {text : List Char}

theorem stands_of_mark (longest : t.Longest text) (mark : t.kind.isMark = true) :
    ∃ rest, text = t.literal.toList ++ rest ∧ Lexeme.Stands ⟨t.kind, t.literal.toList⟩ rest := by
  obtain ⟨described, rest, rfl⟩ := longest.mark mark
  refine ⟨rest, rfl, ?_⟩
  have extended := longest.extended
  have slash := longest.slash
  rw [described] at extended slash ⊢
  rcases mark_cases mark with ⟨found, spelled⟩ | ⟨⟨double, found⟩, spelled⟩ | ⟨⟨single, found⟩, spelled⟩
  · rw [spelled]
    refine .symbol found fun both => ?_
    obtain ⟨slashed, next⟩ := both
    rw [slashed] at found
    refine slash (Option.some.inj found).symm rest ?_ next
    rw [spelled, slashed]
    rfl
  · rw [spelled] at extended ⊢
    refine .single found fun next => ?_
    have kind := extended _ _ _ (mem_extendedMarks.mpr found) rest rfl
    rw [if_pos next] at kind
    exact absurd kind (single_ne_double found)
  · rw [spelled]
    exact .double found

theorem literal_spelling (t : Token) : Lexeme.literal ⟨t.kind, t.spelling⟩ = t.literal := by
  by_cases string : t.kind = .string <;> simp [Lexeme.literal, Token.spelling, string]

/-- A token that is the longest at its place stands there. -/
theorem stands_of_longest (longest : t.Longest text) (inside : t.kind ≠ .eof) :
    ∃ rest, text = t.spelling ++ rest ∧ Lexeme.Stands ⟨t.kind, t.spelling⟩ rest := by
  have bare (other : t.kind ≠ .string) : t.spelling = t.literal.toList := by rw [Token.spelling, if_neg other]
  rcases kind_cases t.kind with word | mark | number | string | illegal | ended
  · rw [bare (apart_of_word word).2.2.1]
    obtain ⟨run, named⟩ := longest.word word
    obtain ⟨rest, split, ends⟩ := run.ends
    refine ⟨rest, split, ?_⟩
    have stands := Lexeme.Stands.word run.some run.uniform ends
    rwa [String.ofList_toList, (ofWord_eq_iff t.literal t.kind).mpr named] at stands
  · rw [bare (apart_of_mark mark).2.2.1]
    exact stands_of_mark longest mark
  · rw [bare (by rw [number]; decide)]
    have run := longest.number number
    obtain ⟨rest, split, ends⟩ := run.ends
    refine ⟨rest, split, ?_⟩
    rw [number]
    exact .number run.some run.uniform ends
  · obtain ⟨unquoted, rest, split⟩ := longest.string string
    rw [Token.spelling, if_pos string, string]
    exact ⟨rest, split.symm, .string unquoted⟩
  · rw [bare (by rw [illegal]; decide), illegal]
    rcases longest.illegal illegal with ⟨c, literal, first, foreign⟩ | ⟨rest, opened, unquoted, literal⟩
    · obtain ⟨rest, rfl⟩ := List.head?_eq_some_iff.mp first
      rw [literal]
      exact ⟨rest, rfl, .stray (foreign_iff.mp foreign)⟩
    · refine ⟨[], by rw [literal, List.append_nil], ?_⟩
      rw [literal, opened]
      exact .unterminated unquoted
  · exact absurd ended inside

end

/-! ## The tokens of a source -/

/-- Tokens in a source, and the end mark: there is nothing but layout between them, and each is the
    longest at its place. -/
structure Lexed (source : String) (ts : List Token) (stop : Token) : Prop where
  located : Located source.toList 0 ts stop
  blank : stop.literal = ""
  longest : ∀ t ∈ ts, t.Longest (source.toList.drop t.position.offset)

/-- Tokens that are laid out in a text are the longest at their places. -/
theorem longest_of_laid {p : Position} {text : List Char} {ts : List Token} {stop : Token} (laid : Laid p text ts stop)
    (before : List Char) (passed : p = Position.start.advanceBy before) :
    ∀ t ∈ ts, t.Longest ((before ++ text).drop t.position.offset) := by
  induction laid generalizing before with
  | ended trailing => exact List.forall_mem_nil _
  | @token p gap rest l ts stop layout stands laid ih =>
    refine List.forall_mem_cons.mpr ⟨?_, ?_⟩
    · have offset : (p.advanceBy gap).offset = (before ++ gap).length := by
        rw [passed, ← Position.advanceBy_append, offset_start]
      rw [offset, ← List.append_assoc, List.drop_left]
      exact longest_of_stands stands _
    · have further : p.advanceBy (gap ++ l.spelling) = Position.start.advanceBy (before ++ (gap ++ l.spelling)) := by
        simp only [passed, Position.advanceBy_append]
      have later := ih _ further
      rwa [show before ++ (gap ++ l.spelling) ++ rest = before ++ (gap ++ (l.spelling ++ rest)) by simp] at later

/-- Behind the first of some tokens the others are at their places. -/
theorem Located.tail {text : List Char} {passed : Nat} {t stop : Token} {ts : List Token}
    (located : Located text passed (t :: ts) stop) : Located text t.finish ts stop := by
  have ordered := located.ordered
  rw [List.cons_append, List.pairwise_cons] at ordered
  obtain ⟨-, ordered⟩ := ordered
  have between := located.between
  rw [List.cons_append, List.isChain_cons] at between
  refine ⟨located.ended, fun u member => located.inside u (List.mem_cons_of_mem _ member), ?_, ordered,
    fun u member => located.spelled u (List.mem_cons_of_mem _ member), fun u first => (between.1 u first).2, between.2,
    fun u member => located.places u (List.mem_cons_of_mem _ member)⟩
  have near : ∀ u ∈ (ts ++ [stop]).head?, t.finish ≤ u.position.offset := fun u first => (between.1 u first).1
  -- the next token is behind this one, and the others are behind the next
  generalize ts ++ [stop] = us at ordered near
  cases us with
  | nil => simp
  | cons first us =>
    have near := near first rfl
    obtain ⟨behind, -⟩ := List.pairwise_cons.mp ordered
    refine List.forall_mem_cons.mpr ⟨near, fun u member => ?_⟩
    exact Nat.le_trans near (Nat.le_of_lt (behind u member))

/-- The text up to a place, and from there on. -/
theorem drop_extract {text : List Char} {i j : Nat} (le : i ≤ j) : text.drop i = text.extract i j ++ text.drop j := by
  rw [List.extract_eq_take_drop, ← Nat.add_sub_of_le le, ← List.drop_drop, Nat.add_sub_cancel_left,
    List.take_append_drop]

/-- Tokens that are at their places, and each of which is the longest there, are laid out in their text. -/
theorem laid_of_longest {text : List Char} {passed : Nat} {ts : List Token} {stop : Token}
    (located : Located text passed ts stop) (blank : stop.literal = "")
    (longest : ∀ t ∈ ts, t.Longest (text.drop t.position.offset)) :
    Laid (Position.start.advanceBy (text.take passed)) (text.drop passed) ts stop := by
  induction ts generalizing passed with
  | nil =>
    obtain ⟨kind, offset⟩ := located.ended
    have inside : passed ≤ text.length := offset ▸ located.later stop (by simp)
    have place := located.places stop (by simp)
    have gap := located.leading stop rfl
    rw [offset, List.take_length] at place
    rw [Token.Admits, if_pos kind, offset] at gap
    have whole : text.drop passed = text.extract passed text.length ++ text.drop text.length := drop_extract inside
    rw [List.drop_length, List.append_nil] at whole
    rw [← whole] at gap
    have mark : stop = ⟨.eof, "", (Position.start.advanceBy (text.take passed)).advanceBy (text.drop passed)⟩ := by
      rw [← Position.advanceBy_append, List.take_append_drop, ← place, ← kind, ← blank]
    rw [mark]
    exact .ended gap
  | cons t ts ih =>
    have known := located.inside t List.mem_cons_self
    have before : passed ≤ t.position.offset := located.later t List.mem_cons_self
    have gap := located.leading t rfl
    have place := located.places t List.mem_cons_self
    rw [Token.Admits, if_neg known] at gap
    obtain ⟨rest, split, stands⟩ := stands_of_longest (longest t List.mem_cons_self) known
    have later := ih located.tail fun u member => longest u (List.mem_cons_of_mem _ member)
    have behind : text.drop t.finish = rest := by
      rw [Token.finish, ← List.drop_drop, split, List.drop_left]
    have upTo : text.take t.position.offset = text.take passed ++ text.extract passed t.position.offset := by
      rw [List.extract_eq_take_drop, ← List.take_add, Nat.add_sub_of_le before]
    have further : text.take t.finish = text.take t.position.offset ++ t.spelling := by
      rw [Token.finish, List.take_add, split, List.take_left]
    rw [behind, further, upTo, List.append_assoc, Position.advanceBy_append] at later
    rw [upTo, Position.advanceBy_append] at place
    rw [drop_extract before, split]
    have laid := Laid.token gap stands later
    rwa [literal_spelling, ← place] at laid

/-- The tokens of a source are the only ones that the lexical grammar and the layout between them admit. -/
theorem tokens_iff_lexed (source : String) (tokens : List Token) :
    tokens = tokenize source ↔ ∃ ts stop, tokens = ts ++ [stop] ∧ Lexed source ts stop := by
  constructor
  · rintro rfl
    have laid := laid_readAll (.ofSource source)
    refine ⟨_, _, rfl, located_of_laid laid [] rfl, ?_, longest_of_laid laid [] rfl⟩
    exact congrArg Prod.snd (stop_of_laid laid)
  · rintro ⟨ts, stop, rfl, located, blank, longest⟩
    have laid := laid_of_longest located blank longest
    rw [List.take_zero, List.drop_zero] at laid
    have read : (Scanner.ofSource source).readAll = (ts, stop) := readAll_of_laid laid
    rw [tokenize, read]

/-- The equals sign goes to the exclamation mark, and the second one is left over. -/
example : (tokenize "ab12!==_").map Token.content =
    [(.identifier, "ab"), (.number, "12"), (.bangEqual, "!="), (.equal, "="), (.illegal, "_"), (.eof, "")] := by
  decide +kernel

end Stepwise
