import Stepwise.Proofs.Layout

/-!
Other layout around the same tokens. A blank goes on with no token, so tokens that are parted by
blanks are what they were, wherever they come to stand (`contents_respaced`).
-/
namespace Stepwise

/-- A quote with the rest of a source in which no other quote follows. -/
def Token.Unterminated (t : Token) : Prop :=
  t.kind = .illegal ∧ t.literal.toList.head? = some '"'

instance (t : Token) : Decidable t.Unterminated :=
  inferInstanceAs (Decidable (_ ∧ _))

/-- Spellings in a row with layout around them. What stands behind one of them begins with a blank,
    if anything does. -/
inductive Respaced : List (List Char) → List Char → Prop where
  | last {gap : List Char} (trailing : Trailing gap) : Respaced [] gap
  | next {gap spelling rest : List Char} {spellings : List (List Char)} (layout : Layout gap)
      (parted : ∀ c ∈ rest.head?, isBlank c = true) (respaced : Respaced spellings rest) :
      Respaced (spelling :: spellings) (gap ++ (spelling ++ rest))

/-- No token goes on with a blank. -/
structure Parting (c : Char) : Prop where
  undigital : c.isDigit = false
  unalphabetic : c.isAlpha = false
  unequal : c ≠ '='
  unslashed : c ≠ '/'

theorem parting_of_blank {c : Char} (blank : isBlank c = true) : Parting c := by
  simp only [isBlank, Bool.or_eq_true, decide_eq_true_eq] at blank
  rcases blank with ((rfl | rfl) | rfl) | rfl <;> exact ⟨by decide, by decide, by decide, by decide⟩

/-- A token that is terminated stands in front of any text that begins with a blank. -/
theorem Lexeme.Stands.respaced {l : Lexeme} {rest rest' : List Char} (stands : l.Stands rest) {p : Position}
    (terminated : ¬ Token.Unterminated ⟨l.kind, l.literal, p⟩) (parted : ∀ c ∈ rest'.head?, isBlank c = true) :
    l.Stands rest' := by
  have parting : ∀ c ∈ rest'.head?, Parting c := fun c first => parting_of_blank (parted c first)
  cases stands with
  | string unquoted => exact .string unquoted
  | unterminated unquoted =>
    refine absurd ⟨rfl, ?_⟩ terminated
    simp [Lexeme.literal]
  | number some digital ends => exact .number some digital fun c first => (parting c first).undigital
  | word some alphabetic ends => exact .word some alphabetic fun c first => (parting c first).unalphabetic
  | double extends_ => exact .double extends_
  | single extends_ ends => exact .single extends_ fun equals => (parting '=' equals).unequal rfl
  | symbol symbol uncommented => exact .symbol symbol fun both => (parting '/' both.2).unslashed rfl
  | stray stray => exact .stray stray

/-- Tokens that are laid out in a text are laid out in the respaced text, too. -/
theorem laid_of_respaced {p : Position} {text : List Char} {ts : List Token} {stop : Token} (laid : Laid p text ts stop)
    (terminated : ∀ t ∈ ts, ¬ t.Unterminated) {text' : List Char} (respaced : Respaced (ts.map Token.spelling) text')
    (p' : Position) : ∃ ts' stop', Laid p' text' ts' stop' ∧ ts'.map Token.content = ts.map Token.content := by
  induction laid generalizing text' p' with
  | ended trailing =>
    cases respaced with
    | last trailing' => exact ⟨_, _, .ended trailing', rfl⟩
  | @token p gap rest l ts stop layout stands laid ih =>
    have ended := terminated _ List.mem_cons_self
    rw [List.map_cons, spelling_of_stands stands] at respaced
    cases respaced with
    | @next gap' _ rest' _ layout' parted respaced =>
      obtain ⟨ts', stop', laid', same⟩ :=
        ih (fun t member => terminated t (List.mem_cons_of_mem _ member)) respaced (p'.advanceBy (gap' ++ l.spelling))
      refine ⟨_, stop', .token layout' (stands.respaced ended parted) laid', ?_⟩
      rw [List.map_cons, List.map_cons, same]
      rfl

/-- The tokens of a source, up to its end. -/
def sourceTokens (source : String) : List Token :=
  (Scanner.ofSource source).readAll.1

/-- The contents of the tokens of a source, and of the end mark. -/
theorem contents_eq (source : String) :
    (tokenize source).map Token.content = (sourceTokens source).map Token.content ++ [(.eof, "")] := by
  have laid := laid_readAll (.ofSource source)
  simp only [tokenize, sourceTokens, List.map_append, List.map_singleton, stop_of_laid laid]

/-- A source in other layout has tokens of the same contents. -/
theorem contents_respaced {source source' : String} (terminated : ∀ t ∈ tokenize source, ¬ t.Unterminated)
    (respaced : Respaced ((sourceTokens source).map Token.spelling) source'.toList) :
    (tokenize source').map Token.content = (tokenize source).map Token.content := by
  have laid := laid_readAll (.ofSource source)
  have inside : ∀ t ∈ sourceTokens source, ¬ t.Unterminated := by
    intro t member
    exact terminated t (List.mem_append_left _ member)
  obtain ⟨ts', stop', laid', same⟩ := laid_of_respaced laid inside respaced .start
  have read : sourceTokens source' = ts' := congrArg Prod.fst (readAll_of_laid laid')
  rw [contents_eq, contents_eq, read, same]
  rfl

end Stepwise
