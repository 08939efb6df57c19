import Stepwise.Proofs.LayoutIrrelevance

/-!
The tokens of texts that are put together from parts. Without their places the tokens of a text do
not depend on what stands in front of it (`bareTokens`), so each part of a text adds its own: blanks
add nothing, a sign or a word adds one token, provided that the text behind does not go on with it.
-/
namespace Stepwise

/-- The tokens of a text without their places. -/
def bareTokens (text : List Char) : List Token :=
  (Scanner.mk .start text).readAll.1.map (Token.move nowhere)

theorem bareTokens_toList (source : String) :
    bareTokens source.toList = (sourceTokens source).map (Token.move nowhere) := rfl

theorem position_of_bareTokens {text : List Char} {t : Token} (member : t ∈ bareTokens text) : t.position = .start := by
  obtain ⟨u, -, rfl⟩ := List.mem_map.mp member
  rfl

/-! ## Texts at other places -/

theorem Laid.blank {p : Position} {c : Char} {text : List Char} {ts : List Token} {stop : Token}
    (blank : isBlank c = true) (laid : Laid (p.advanceBy [c]) text ts stop) : Laid p (c :: text) ts stop := by
  have behind (gap : List Char) : (p.advanceBy [c]).advanceBy gap = p.advanceBy (c :: gap) := rfl
  cases laid with
  | @ended _ gap trailing =>
    rw [behind]
    exact .ended (Trailing.behind (.blank blank .none) trailing)
  | @token _ gap rest l ts stop layout stands laid =>
    rw [behind] at laid ⊢
    exact .token (.blank blank layout) stands laid

/-- What is laid out in a text is laid out there wherever the text begins. -/
theorem Laid.elsewhere {p : Position} {text : List Char} {ts : List Token} {stop : Token} (laid : Laid p text ts stop)
    (p' : Position) :
    ∃ ts' stop', Laid p' text ts' stop' ∧ ts'.map (Token.move nowhere) = ts.map (Token.move nowhere) := by
  induction laid generalizing p' with
  | ended trailing => exact ⟨_, _, .ended trailing, rfl⟩
  | @token p gap rest l ts stop layout stands laid ih =>
    obtain ⟨ts', stop', laid', same⟩ := ih (p'.advanceBy (gap ++ l.spelling))
    refine ⟨_, stop', .token layout stands laid', ?_⟩
    rw [List.map_cons, List.map_cons, same]
    rfl

theorem bareTokens_of_laid {p : Position} {text : List Char} {ts : List Token} {stop : Token}
    (laid : Laid p text ts stop) : bareTokens text = ts.map (Token.move nowhere) := by
  obtain ⟨ts', stop', laid', same⟩ := laid.elsewhere .start
  rw [bareTokens, readAll_of_laid laid', same]

/-- A text is laid out wherever it begins. -/
theorem laid_bareTokens (p : Position) (text : List Char) :
    ∃ ts stop, Laid p text ts stop ∧ ts.map (Token.move nowhere) = bareTokens text :=
  (laid_readAll ⟨.start, text⟩).elsewhere p

/-! ## Parts of a text -/

theorem bareTokens_nil : bareTokens [] = [] :=
  bareTokens_of_laid (p := .start) (.ended (.closed .none))

theorem bareTokens_blank {c : Char} (blank : isBlank c = true) (rest : List Char) :
    bareTokens (c :: rest) = bareTokens rest := by
  obtain ⟨ts, stop, laid, same⟩ := laid_bareTokens (Position.start.advanceBy [c]) rest
  rw [bareTokens_of_laid (laid.blank blank), same]

theorem bareTokens_stands {l : Lexeme} {rest : List Char} (stands : l.Stands rest) :
    bareTokens (l.spelling ++ rest) = .ofContent (l.kind, l.literal) :: bareTokens rest := by
  obtain ⟨ts, stop, laid, same⟩ := laid_bareTokens (Position.start.advanceBy ([] ++ l.spelling)) rest
  have whole := Laid.token .none stands laid
  rw [List.nil_append] at whole
  rw [bareTokens_of_laid whole, List.map_cons, same]
  rfl

/-- What goes on with no word and no number. -/
def Apart (rest : List Char) : Prop :=
  ∀ c ∈ rest.head?, c.isAlphanum = false

theorem apart_cons {c : Char} (other : c.isAlphanum = false) (rest : List Char) : Apart (c :: rest) := by
  intro d first
  obtain rfl := Option.some.inj first
  exact other

theorem apart_nil : Apart [] := by
  intro c first
  cases first

theorem bareTokens_word {word : String} {rest : List Char} (some : word.toList ≠ [])
    (letters : ∀ c ∈ word.toList, c.isAlpha = true) (apart : Apart rest) :
    bareTokens (word.toList ++ rest) = .ofContent (.ofWord word, word) :: bareTokens rest := by
  have ends : ∀ c ∈ rest.head?, c.isAlpha = false := fun c first => (Bool.or_eq_false_iff.mp (apart c first)).1
  have stands := Lexeme.Stands.word some letters ends
  have tokens := bareTokens_stands stands
  simpa [Lexeme.literal, (ofWord_ne word).2] using tokens

theorem bareTokens_digits {digits rest : List Char} (some : digits ≠ []) (digital : ∀ c ∈ digits, c.isDigit = true)
    (apart : Apart rest) :
    bareTokens (digits ++ rest) = .ofContent (.number, String.ofList digits) :: bareTokens rest := by
  have ends : ∀ c ∈ rest.head?, c.isDigit = false := fun c first => (Bool.or_eq_false_iff.mp (apart c first)).2
  exact bareTokens_stands (.number some digital ends)

theorem bareTokens_quoted {text : String} (unquoted : '"' ∉ text.toList) (rest : List Char) :
    bareTokens ('"' :: (text.toList ++ '"' :: rest)) = .ofContent (.string, text) :: bareTokens rest := by
  have stands : Lexeme.Stands ⟨.string, '"' :: text.toList ++ ['"']⟩ rest := .string unquoted
  have tokens := bareTokens_stands stands
  simpa [Lexeme.literal] using tokens

/-! ## Signs and reserved words -/

/-- The token of a sign or a reserved word. -/
def Kind.mark (k : Kind) : Token :=
  .ofContent (k, k.describe)

@[simp] theorem kind_mark (k : Kind) : k.mark.kind = k := rfl

theorem describe_of_symbol {c : Char} {k : Kind} (symbol : symbol? c = some k) : k.describe = String.ofList [c] := by
  unfold symbol? at symbol
  split at symbol <;> first | cases symbol; rfl | cases symbol

theorem bareTokens_symbol {c : Char} {k : Kind} (symbol : symbol? c = some k) (other : c ≠ '/') (rest : List Char) :
    bareTokens (c :: rest) = k.mark :: bareTokens rest := by
  have stands : Lexeme.Stands ⟨k, [c]⟩ rest := .symbol symbol fun both => other both.1
  have tokens := bareTokens_stands stands
  rw [Lexeme.literal, if_neg (symbol?_ne symbol).2.1, ← describe_of_symbol symbol] at tokens
  exact tokens

theorem bareTokens_equal {rest : List Char} (next : rest.head? ≠ some '=') :
    bareTokens ('=' :: rest) = Kind.equal.mark :: bareTokens rest :=
  bareTokens_stands (.single (c := '=') rfl next)

/-- The kind of the token for an operator between two operands. -/
def BinaryOp.kind : BinaryOp → Kind
  | add => .plus
  | subtract => .minus
  | multiply => .star
  | divide => .slash
  | equal => .equalEqual
  | notEqual => .bangEqual
  | less => .less
  | lessEqual => .lessEqual
  | greater => .greater
  | greaterEqual => .greaterEqual

theorem binaryOp?_kind (op : BinaryOp) : op.kind.binaryOp? = some op := by
  cases op <;> rfl

theorem bareTokens_binary (op : BinaryOp) (rest : List Char) :
    bareTokens (op.symbol.toList ++ ' ' :: rest) = op.kind.mark :: bareTokens (' ' :: rest) := by
  cases op with
  | add => exact bareTokens_symbol rfl (by decide) _
  | subtract => exact bareTokens_symbol rfl (by decide) _
  | multiply => exact bareTokens_symbol rfl (by decide) _
  | divide => exact bareTokens_stands (.symbol (c := '/') rfl (by simp))
  | equal => exact bareTokens_stands (.double (c := '=') rfl)
  | notEqual => exact bareTokens_stands (.double (c := '!') rfl)
  | lessEqual => exact bareTokens_stands (.double (c := '<') rfl)
  | greaterEqual => exact bareTokens_stands (.double (c := '>') rfl)
  | less => exact bareTokens_stands (.single (c := '<') rfl (by simp))
  | greater => exact bareTokens_stands (.single (c := '>') rfl (by simp))

/-- The kind of the token for an operator in front of one operand. -/
def UnaryOp.kind : UnaryOp → Kind
  | not => .bang
  | negate => .minus

theorem unaryOp?_kind (op : UnaryOp) : op.kind.unaryOp? = some op := by
  cases op <;> rfl

theorem bareTokens_unary (op : UnaryOp) {rest : List Char} (next : rest.head? ≠ some '=') :
    bareTokens (op.symbol.toList ++ rest) = op.kind.mark :: bareTokens rest := by
  cases op with
  | not => exact bareTokens_stands (.single (c := '!') rfl next)
  | negate => exact bareTokens_symbol rfl (by decide) _

theorem bareTokens_reserved {k : Kind} (reserved : Kind.ofWord k.describe = k)
    (letters : k.describe.toList.all Char.isAlpha = true) {rest : List Char} (apart : Apart rest) :
    bareTokens (k.describe.toList ++ rest) = k.mark :: bareTokens rest := by
  have some : k.describe.toList ≠ [] := by cases k <;> exact List.cons_ne_nil _ _
  have tokens := bareTokens_word some (List.all_eq_true.mp letters) apart
  rwa [reserved] at tokens

/-- The kind of the token that names a type. -/
def TypeName.kind : TypeName → Kind
  | number => .numberType
  | string => .stringType
  | bool => .boolType

theorem typeName?_kind (type : TypeName) : type.kind.typeName? = some type := by
  cases type <;> rfl

theorem bareTokens_type (type : TypeName) {rest : List Char} (apart : Apart rest) :
    bareTokens (type.keyword.toList ++ rest) = type.kind.mark :: bareTokens rest := by
  cases type with
  | number => exact bareTokens_reserved (k := .numberType) rfl rfl apart
  | string => exact bareTokens_reserved (k := .stringType) rfl rfl apart
  | bool => exact bareTokens_reserved (k := .boolType) rfl rfl apart

/-- Tokens in parentheses. -/
def parenthesized (ts : List Token) : List Token :=
  Kind.leftParen.mark :: (ts ++ [Kind.rightParen.mark])

theorem parenthesized_append (ts rest : List Token) :
    parenthesized ts ++ rest = Kind.leftParen.mark :: (ts ++ Kind.rightParen.mark :: rest) := by
  simp [parenthesized]

/-- The token of a name. -/
def nameToken (name : String) : Token :=
  .ofContent (.identifier, name)

@[simp] theorem kind_nameToken (name : String) : (nameToken name).kind = .identifier := rfl

@[simp] theorem literal_nameToken (name : String) : (nameToken name).literal = name := rfl

/-! ## What scripts are spelled with -/

/-- Contents of tokens that can be written again: names are words, and text in quotes has no quotes. -/
structure Spellable (c : Kind × String) : Prop where
  name : c.1 = .identifier →
    c.2.toList ≠ [] ∧ (∀ x ∈ c.2.toList, x.isAlpha = true) ∧ Kind.ofWord c.2 = .identifier
  text : c.1 = .string → '"' ∉ c.2.toList

theorem Spellable.word {word : String} (spellable : Spellable (.identifier, word)) {rest : List Char} (apart : Apart rest) :
    bareTokens (word.toList ++ rest) = nameToken word :: bareTokens rest := by
  obtain ⟨some, letters, free⟩ := spellable.name rfl
  rw [bareTokens_word some letters apart, free]
  rfl

theorem spellable_of_sign {c : Kind × String} (sign : c.1 ≠ .string ∧ c.1 ≠ .identifier) : Spellable c :=
  ⟨fun isName => absurd isName sign.2, fun isText => absurd isText sign.1⟩

theorem spellable_of_stands {l : Lexeme} {rest : List Char} (stands : l.Stands rest) :
    Spellable (l.kind, l.literal) := by
  cases stands with
  | @string body rest unquoted =>
    refine ⟨fun isName => absurd isName (by simp), fun _ => ?_⟩
    simpa [Lexeme.literal] using unquoted
  | unterminated | number | stray => exact spellable_of_sign (by simp)
  | @word letters rest some alphabetic ends =>
    have literal : Lexeme.literal ⟨.ofWord (String.ofList letters), letters⟩ = String.ofList letters :=
      if_neg (ofWord_ne _).2
    rw [literal]
    refine ⟨fun free => ?_, fun isText => absurd isText (ofWord_ne _).2⟩
    simpa using ⟨some, alphabetic, free⟩
  | double found => exact spellable_of_sign (extensible?_ne found).2.2
  | single found ends => exact spellable_of_sign (extensible?_ne found).1.2
  | symbol found uncommented => exact spellable_of_sign (symbol?_ne found).2

theorem spellable_of_laid {p : Position} {text : List Char} {ts : List Token} {stop : Token} (laid : Laid p text ts stop) :
    ∀ t ∈ ts, Spellable t.content := by
  induction laid with
  | ended trailing => simp
  | token layout stands laid ih => exact List.forall_mem_cons.mpr ⟨spellable_of_stands stands, ih⟩

end Stepwise
