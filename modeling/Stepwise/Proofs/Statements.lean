import Stepwise.Proofs.Reading

/-!
The ways to read a statement and a body. A statement is read whole, or refused, or it has
bodies, which are read to their closing brace or fail for want of one; in a body, what is
malformed is passed over (`Reads`). The readers go no other ways (`reads_statement`,
`reads_script`), so that what they do can be said by induction on these.
-/
namespace Stepwise

/-- What stands in front of the opening brace of a body. -/
inductive Header : List Kind → Prop where
  | block : Header []
  | branch {c : List Kind} (condition : Derives .expression c) :
      Header ([.ifWord, .leftParen] ++ c ++ [.rightParen])
  | loop {c : List Kind} (condition : Derives .expression c) :
      Header ([.whileWord, .leftParen] ++ c ++ [.rightParen])
  | define {names : List Kind} (parameters : names = [] ∨ Separated .comma names) :
      Header ([.funcWord, .identifier, .leftParen] ++ names ++ [.rightParen])

/-- Where a reader is: in front of a statement, or in a body. -/
inductive Site where
  | statement | body

/-- What reading a statement or a body comes to: the failures of the statements nested in it,
    and what is left, or a failure of its own. -/
inductive Reads : Site → List Token → List Failure → Except Failure (List Token) → Prop where
  | whole {ts rest : List Token} {ks : List Kind} (behind : Behind ts ks rest) (bodiless : Bodiless ks) :
      Reads .statement ts [] (.ok rest)
  | refused {ts rest : List Token} {ks : List Kind} {f : Failure} (behind : Behind ts ks rest) (level : Level ks)
      (refused : Refused rest f) : Reads .statement ts [] (.error f)
  | unclosed {ts rest : List Token} {ks : List Kind} {nested : List Failure} {f : Failure}
      (behind : Behind ts (ks ++ [.leftBrace]) rest) (header : Header ks) (body : Reads .body rest nested (.error f)) :
      Reads .statement ts nested (.error f)
  | single {ts rest rest' : List Token} {ks : List Kind} {nested : List Failure}
      (behind : Behind ts (ks ++ [.leftBrace]) rest) (header : Header ks) (body : Reads .body rest nested (.ok rest')) :
      Reads .statement ts nested (.ok rest')
  | cut {ts rest rest' rest'' : List Token} {c : List Kind} {nested : List Failure} {f : Failure}
      (behind : Behind ts ([.ifWord, .leftParen] ++ c ++ [.rightParen] ++ [.leftBrace]) rest)
      (condition : Derives .expression c) (body : Reads .body rest nested (.ok rest'))
      (otherwise : Behind rest' [.elseWord] rest'') (refused : Refused rest'' f) :
      Reads .statement ts nested (.error f)
  | choice {ts rest rest' rest'' : List Token} {c : List Kind} {nested nested' : List Failure}
      {result : Except Failure (List Token)}
      (behind : Behind ts ([.ifWord, .leftParen] ++ c ++ [.rightParen] ++ [.leftBrace]) rest)
      (condition : Derives .expression c) (body : Reads .body rest nested (.ok rest'))
      (otherwise : Behind rest' [.elseWord, .leftBrace] rest'') (alternative : Reads .body rest'' nested' result) :
      Reads .statement ts (nested ++ nested') result
  | ended : Reads .body [] [] (.error (.unexpected Kind.rightBrace.describe []))
  | closed {t : Token} {ahead : List Token} (closes : t.kind = .rightBrace) : Reads .body (t :: ahead) [] (.ok ahead)
  | more {t : Token} {ahead rest : List Token} {nested nested' : List Failure} {result : Except Failure (List Token)}
      (other : t.kind ≠ .rightBrace) (statement : Reads .statement (t :: ahead) nested (.ok rest))
      (body : Reads .body rest nested' result) : Reads .body (t :: ahead) (nested ++ nested') result
  | recovered {t : Token} {ahead : List Token} {nested nested' : List Failure} {f : Failure}
      {result : Except Failure (List Token)} (other : t.kind ≠ .rightBrace)
      (statement : Reads .statement (t :: ahead) nested (.error f)) (body : Reads .body f.recover nested' result) :
      Reads .body (t :: ahead) (nested ++ [f] ++ nested') result

/-- What reading a script comes to: the failures of all the malformed statements in it. -/
inductive ReadsAll : List Token → List Failure → Prop where
  | nothing : ReadsAll [] []
  | more {t : Token} {ahead rest : List Token} {nested failures : List Failure}
      (statement : Reads .statement (t :: ahead) nested (.ok rest)) (script : ReadsAll rest failures) :
      ReadsAll (t :: ahead) (nested ++ failures)
  | recovered {t : Token} {ahead : List Token} {nested failures : List Failure} {f : Failure}
      (statement : Reads .statement (t :: ahead) nested (.error f)) (script : ReadsAll f.recover failures) :
      ReadsAll (t :: ahead) (nested ++ f :: failures)

/-- What is left of the tokens when something was read. -/
def Reading.left {α : Type} {whole : List Token} (x : Reading α whole) : Except Failure (List Token) :=
  x.plain.map Prod.snd

/-- What an attempt comes to. -/
def Attempt.Comes {α : Type} {whole : List Token} (site : Site) (a : Attempt α whole) : Prop :=
  Reads site whole a.nested a.outcome.left

section

variable {α β : Type} {whole : List Token}

/-- An attempt at a part of a whole leaves what the part leaves. -/
@[simp] theorem left_attempt_inside (earlier : List Failure) (f : α → β) (r : Rest whole) (a : Attempt α r.tokens) :
    (Attempt.inside earlier f r a).outcome.left = a.outcome.left := by
  obtain ⟨nested, outcome⟩ := a
  cases outcome <;> rfl

/-- A statement without a body. -/
theorem comes_of_takes {x : Reading Stmt whole} (takes : Takes (fun _ ks => Bodiless ks) x) :
    Attempt.Comes .statement ⟨[], x⟩ := by
  cases takes with
  | ok behind bodiless => exact .whole behind bodiless
  | error behind level refused => exact .refused behind level refused

/-- A statement that fails in front of its first body. -/
theorem comes_of_failed {good : α → List Kind → Prop} {s : Stuck whole} (takes : Takes good (.error s)) :
    Attempt.Comes (α := β) .statement ⟨[], .error s⟩ := by
  cases takes with
  | error behind level refused => exact .refused behind level refused

/-- A statement whose one body is all that is left of it. -/
theorem comes_of_body {f : List Stmt → Stmt} {r : Rest whole} {ks : List Kind} {a : Attempt (List Stmt) r.tokens}
    (behind : Behind whole (ks ++ [.leftBrace]) r.tokens) (header : Header ks) (body : a.Comes .body) :
    (Attempt.inside [] f r a).Comes .statement := by
  unfold Attempt.Comes at body ⊢
  rw [left_attempt_inside]
  generalize a.outcome.left = result at body
  cases result with
  | error f => exact .unclosed behind header body
  | ok rest => exact .single behind header body

end

theorem reads_both :
    (∀ t ahead, (readStatement t ahead).Comes .statement) ∧ ∀ ts, (readBody ts).Comes .body := by
  apply readStatement.mutual_induct
  -- Declarations and returns.
  · intro t ahead begins
    simp only [readStatement, begins]
    exact comes_of_takes (takes_declaration begins ahead _)
  · intro t ahead begins
    simp only [readStatement, begins]
    exact comes_of_takes (takes_returned begins ahead _)
  -- Branches: no condition, no body, a body and then nothing, no brace, another body.
  · intro t ahead begins s failed
    have takes := takes_condition begins rfl ahead
    rw [failed] at takes
    simp only [readStatement, begins, failed]
    exact comes_of_failed takes
  · intro t ahead begins condition brace rest less read nested s failed body
    have takes := takes_condition begins rfl ahead
    rw [read] at takes
    rw [failed] at body
    simp only [readStatement, begins, read, failed]
    cases takes with
    | ok behind fits =>
      obtain ⟨c, rfl, derives⟩ := fits
      exact .unclosed (by simpa using behind) (.branch derives) body
  · intro t ahead begins condition brace rest less read nested body rest' less' done otherwise s failed inner
    have takes := takes_condition begins rfl ahead
    rw [read] at takes
    rw [done] at inner
    simp only [readStatement, begins, read, done, if_pos otherwise, failed]
    cases takes with
    | ok behind fits =>
      obtain ⟨c, rfl, derives⟩ := fits
      exact .cut (by simpa using behind) derives inner (behind_nextKind otherwise (by decide))
        (refused_expect (by decide) failed)
  · intro t ahead begins condition brace rest less read nested body rest' less' done otherwise brace' rest'' less''
      found inner alternative
    have takes := takes_condition begins rfl ahead
    rw [read] at takes
    rw [done] at inner
    simp only [readStatement, begins, read, done, if_pos otherwise, found]
    cases takes with
    | ok behind fits =>
      obtain ⟨c, rfl, derives⟩ := fits
      have front := (behind_nextKind otherwise (by decide)).trans (behind_expect found)
      unfold Attempt.Comes
      rw [left_attempt_inside]
      exact .choice (by simpa using behind) derives inner front alternative
  · intro t ahead begins condition brace rest less read nested body rest' less' done otherwise inner
    have takes := takes_condition begins rfl ahead
    rw [read] at takes
    rw [done] at inner
    simp only [readStatement, begins, read, done, if_neg otherwise]
    cases takes with
    | ok behind fits =>
      obtain ⟨c, rfl, derives⟩ := fits
      exact .single (by simpa using behind) (.branch derives) inner
  -- Loops and definitions: no header, or a body.
  · intro t ahead begins s failed
    have takes := takes_condition begins rfl ahead
    rw [failed] at takes
    simp only [readStatement, begins, failed]
    exact comes_of_failed takes
  · intro t ahead begins condition brace rest less read body
    have takes := takes_condition begins rfl ahead
    rw [read] at takes
    simp only [readStatement, begins, read]
    cases takes with
    | ok behind fits =>
      obtain ⟨c, rfl, derives⟩ := fits
      exact comes_of_body (by simpa using behind) (.loop derives) body
  · intro t ahead begins s failed
    have takes := takes_signature begins ahead
    rw [failed] at takes
    simp only [readStatement, begins, failed]
    exact comes_of_failed takes
  · intro t ahead begins name parameters brace rest less read body
    have takes := takes_signature begins ahead
    rw [read] at takes
    simp only [readStatement, begins, read]
    cases takes with
    | ok behind fits =>
      obtain ⟨names, rfl, separated⟩ := fits
      exact comes_of_body (by simpa using behind) (.define separated) body
  -- Blocks, assignments, and expressions.
  · intro t ahead begins body
    simp only [readStatement, begins]
    exact comes_of_body (behind_first begins ahead) .block body
  · intro t ahead begins assigns
    simp only [readStatement, begins, if_pos assigns]
    exact comes_of_takes (takes_assignment begins ahead)
  · intro t ahead begins evaluates
    simp only [readStatement, begins, if_neg evaluates]
    exact comes_of_takes (takes_evaluation t ahead)
  · intro t ahead notLet notReturn notIf notWhile notFunc notBrace notName
    simp only [readStatement]
    exact comes_of_takes (takes_evaluation t ahead)
  -- Bodies: the end of the source, the closing brace, a statement, a malformed statement.
  · rw [readBody]
    exact .ended
  · intro t ahead closes
    rw [readBody, if_pos closes]
    exact .closed closes
  · intro t ahead opens nested s rest less read statement body
    rw [read] at statement
    rw [readBody, if_neg opens, read]
    unfold Attempt.Comes
    rw [left_attempt_inside]
    exact .more opens statement body
  · intro t ahead opens nested f within failed statement body
    rw [failed] at statement
    rw [readBody, if_neg opens, failed]
    unfold Attempt.Comes
    rw [left_attempt_inside]
    exact .recovered opens statement body

theorem reads_statement (t : Token) (ahead : List Token) :
    Reads .statement (t :: ahead) (readStatement t ahead).nested (readStatement t ahead).outcome.left :=
  reads_both.1 t ahead

theorem reads_script (ts : List Token) : ReadsAll ts (readScript ts).2 := by
  fun_induction readScript ts with
  | case1 => exact .nothing
  | case2 t ahead nested s rest less read statements failures later ih =>
    have statement := reads_statement t ahead
    rw [read] at statement
    rw [later] at ih
    exact .more statement ih
  | case3 t ahead nested f within failed statements failures later ih =>
    have statement := reads_statement t ahead
    rw [failed] at statement
    rw [later] at ih
    exact .recovered statement ih

end Stepwise
