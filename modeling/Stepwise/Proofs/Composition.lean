import Stepwise.Proofs.Climbing
import Stepwise.Proofs.Offenders
import Stepwise.Script.Outline

/-!
What statements that were read are made of. A statement stands at its first token and is told by it, or by the
tokens that follow (`Introduces`). Each of its blocks was read from the tokens behind the brace that its place is
of, and reading it came to no other bodies (`composed_of_read`).
-/
namespace Stepwise

/-- The blocks of a statement, and what they are to it. -/
def Stmt.parts : Stmt → List (Role × Block)
  | .block body => [(.own, body)]
  | .branch _ _ consequence none => [(.consequence, consequence)]
  | .branch _ _ consequence (some alternative) => [(.consequence, consequence), (.alternative, alternative)]
  | .loop _ _ body => [(.body, body)]
  | .define _ _ _ body => [(.body, body)]
  | .declare .. | .assign .. | .giveBack .. | .evaluate .. => []

/-- The blocks of a statement. -/
def Stmt.blocks (s : Stmt) : List Block :=
  s.parts.map Prod.snd

/-- What a token and those behind it are to the statement, other than a block, that they begin. -/
inductive Introduces (t : Token) (ahead : List Token) : Stmt → Prop where
  | declare {name : String} {type : TypeName} {value : Option Expr} (word : t.kind = .letWord) :
      Introduces t ahead (.declare t.position name type value)
  | giveBack {value : Expr} (word : t.kind = .returnWord) : Introduces t ahead (.giveBack t.position value)
  | assign {value : Expr} (name : t.kind = .identifier) (assigns : Failure.nextKind ahead = .equal) :
      Introduces t ahead (.assign t.position t.literal value)
  | evaluate (d : Derivation (.expression .equality)) (first : d.tokens <+: t :: ahead) :
      Introduces t ahead (.evaluate t.position d.tree)
  | branch {condition : Expr} {consequence : Block} {alternative : Option Block} (word : t.kind = .ifWord) :
      Introduces t ahead (.branch t.position condition consequence alternative)
  | loop {condition : Expr} {body : Block} (word : t.kind = .whileWord) :
      Introduces t ahead (.loop t.position condition body)
  | define {name : String} {parameters : List String} {body : Block} (word : t.kind = .funcWord) :
      Introduces t ahead (.define t.position name parameters body)

theorem Introduces.position {t : Token} {ahead : List Token} {s : Stmt} (introduces : Introduces t ahead s) :
    s.position = t.position := by
  cases introduces <;> rfl

/-- The statements of a body, and the tokens behind its closing brace. -/
def BodyOf (body : List Token) (statements : List Stmt) (rest : List Token) : Prop :=
  (readBody body).outcome.plain = .ok (statements, rest)

/-- What is left behind the next token, when something was read off the rest of a whole. -/
def Rest.further {whole : List Token} (r : Rest whole) (left : Rest r.tokens) : Rest whole :=
  ⟨left.tokens.drop 1, length_drop_lt left.shorter r.shorter⟩

/-- The bodies to which reading the statement that begins with `t` comes: one behind each opening brace that was
    found where there has to be one. -/
def bodies (t : Token) (ahead : List Token) : List (Rest (t :: ahead)) :=
  match t.kind with
  | .ifWord =>
    match (Rest.behind t ahead).condition with
    | .error _ => []
    | .ok (_, body) =>
      match (readBody body.tokens).outcome with
      | .error _ => [body]
      | .ok (_, left) =>
        if Failure.nextKind left.tokens = .elseWord then
          match (body.further left).expect .leftBrace with
          | .error _ => [body]
          | .ok (_, alternative) => [body, alternative]
        else
          [body]
  | .whileWord =>
    match (Rest.behind t ahead).condition with
    | .error _ => []
    | .ok (_, body) => [body]
  | .funcWord =>
    match (Rest.behind t ahead).signature with
    | .error _ => []
    | .ok (_, body) => [body]
  | .leftBrace => [.behind t ahead]
  | _ => []

/-- Blocks one behind another, each with its place at its opening brace and read from the tokens behind it. -/
inductive Blocks : List Token → List Block → List (List Token) → List Token → Prop where
  | none {ts rest : List Token} (later : rest <:+ ts) : Blocks ts [] [] rest
  | next {ts body middle rest : List Token} {brace : Token} {statements : List Stmt} {blocks : List Block}
      {bodies : List (List Token)} (behind : brace :: body <:+ ts) (opens : brace.kind = .leftBrace)
      (read : BodyOf body statements middle) (more : Blocks middle blocks bodies rest) :
      Blocks ts (.mk brace.position statements :: blocks) (body :: bodies) rest

/-- What a statement is made of that was read from the tokens from `t` on. -/
inductive Composed (t : Token) (ahead : List Token) : Stmt → List Token → Prop where
  | block {statements : List Stmt} {rest : List Token} (opens : t.kind = .leftBrace)
      (read : BodyOf ahead statements rest) : Composed t ahead (.block (.mk t.position statements)) rest
  | other {s : Stmt} {rest : List Token} (introduces : Introduces t ahead s)
      (blocks : Blocks ahead s.blocks ((bodies t ahead).map Rest.tokens) rest) : Composed t ahead s rest

/-! ## What readers leave -/

theorem suffix_of_readBody {body rest : List Token} {statements : List Stmt} (read : BodyOf body statements rest) :
    rest <:+ body := by
  have reads := reads_both.2 body
  have left : (readBody body).outcome.left = .ok rest := by
    rw [Reading.left, read]
    rfl
  rw [Attempt.Comes, left] at reads
  exact (passes_of_reads reads).1.suffix

/-- What a statement leaves stands behind its first token. -/
theorem suffix_of_readStatement {t : Token} {ahead : List Token} {s : Stmt} {r : Rest (t :: ahead)}
    (read : (readStatement t ahead).outcome = .ok (s, r)) : r.tokens <:+ ahead := by
  have reads := reads_statement t ahead
  rw [read] at reads
  rcases List.suffix_cons_iff.mp (passes_of_reads reads).1.suffix with whole | later
  · exact absurd r.shorter (by rw [show r.tokens = t :: ahead from whole]; exact Nat.lt_irrefl _)
  · exact later

section

variable {α β : Type} {whole : List Token}

theorem yields_any (x : Reading α whole) : x.Yields fun _ _ => True := fun _ _ _ => trivial

theorem suffix_of_expected {ts rest : List Token} {t : Token} (split : ts = t :: rest) : rest <:+ ts := by
  rw [split]
  exact List.suffix_cons t rest

theorem yields_expr (r : Rest whole) : r.expr.Yields fun _ rest => rest <:+ r.tokens := by
  refine Reading.Yields.inside ?_
  intro e rest read
  obtain ⟨d, tokens, -⟩ := (climbed_of_readExpr (by decide) e rest read).whole
  exact ⟨d.tokens, tokens⟩

theorem yields_parameters (r : Rest whole) : r.parameters.Yields fun _ rest => rest <:+ r.tokens := by
  rw [Rest.parameters]
  split
  · refine (yields_expect r .rightParen).bind ?_
    rintro _ r' ⟨split, -⟩
    exact yields_ok (suffix_of_expected split)
  · split
    · exact yields_error _
    · next names rest read =>
      obtain ⟨words, behind, -⟩ := behind_readNames read
      exact yields_ok (suffix_of_behind behind)

/-- Behind a condition stands the brace whose place was noted. -/
theorem yields_condition (r : Rest whole) : r.condition.Yields fun found rest =>
    ∃ brace : Token, brace.kind = .leftBrace ∧ brace.position = found.2 ∧ brace :: rest <:+ r.tokens := by
  rw [Rest.condition]
  refine (yields_expect r .leftParen).bind ?_
  rintro opening r₁ ⟨split, -⟩
  refine (yields_expr r₁).bind ?_
  rintro condition r₂ later
  refine (yields_expect r₂ .rightParen).bind ?_
  rintro closing r₃ ⟨split', -⟩
  refine (yields_expect r₃ .leftBrace).bind ?_
  rintro brace r₄ ⟨split'', opens⟩
  refine yields_ok ⟨brace, opens, rfl, ?_⟩
  rw [← split'']
  exact ((suffix_of_expected split').trans later).trans (suffix_of_expected split)

/-- The same behind the name and the parameters of a function. -/
theorem yields_signature (r : Rest whole) : r.signature.Yields fun found rest =>
    ∃ brace : Token, brace.kind = .leftBrace ∧ brace.position = found.2.2 ∧ brace :: rest <:+ r.tokens := by
  rw [Rest.signature]
  refine (yields_expect r .identifier).bind ?_
  rintro name r₁ ⟨split, -⟩
  refine (yields_expect r₁ .leftParen).bind ?_
  rintro opening r₂ ⟨split', -⟩
  refine (yields_parameters r₂).bind ?_
  rintro parameters r₃ later
  refine (yields_expect r₃ .leftBrace).bind ?_
  rintro brace r₄ ⟨split'', opens⟩
  refine yields_ok ⟨brace, opens, rfl, ?_⟩
  rw [← split'']
  exact (later.trans (suffix_of_expected split')).trans (suffix_of_expected split)

/-! ## Statements without bodies -/

variable {t : Token} {ahead : List Token}

theorem yields_declaration (word : t.kind = .letWord) (r : Rest whole) :
    (r.declaration t.position).Yields fun s _ => Introduces t ahead s ∧ s.blocks = [] := by
  rw [Rest.declaration]
  refine (yields_any _).bind fun name r _ => (yields_any _).bind fun _ r _ => (yields_any _).bind fun type r _ => ?_
  dsimp only
  split
  · exact yields_ok ⟨.declare word, rfl⟩
  · refine (yields_any _).bind fun _ r _ => (yields_any _).bind fun value r _ => ?_
    exact yields_ok ⟨.declare word, rfl⟩

theorem yields_returned (word : t.kind = .returnWord) (r : Rest whole) :
    (r.returned t.position).Yields fun s _ => Introduces t ahead s ∧ s.blocks = [] := by
  rw [Rest.returned]
  exact (yields_any _).bind fun value r _ => yields_ok ⟨.giveBack word, rfl⟩

theorem yields_assignment (name : t.kind = .identifier) (assigns : Failure.nextKind ahead = .equal) (r : Rest whole) :
    (r.assignment t).Yields fun s _ => Introduces t ahead s ∧ s.blocks = [] := by
  rw [Rest.assignment]
  refine (yields_any _).bind fun _ r _ => (yields_any _).bind fun value r _ => ?_
  exact yields_ok ⟨.assign name assigns, rfl⟩

theorem yields_evaluation (t : Token) (ahead : List Token) :
    (readEvaluation t ahead).Yields fun s _ => Introduces t ahead s ∧ s.blocks = [] := by
  rw [readEvaluation]
  refine (climbed_of_readExpr (by decide)).bind ?_
  intro value r climbed
  obtain ⟨d, tokens, rfl⟩ := climbed.whole
  exact yields_ok ⟨.evaluate d ⟨r.tokens, tokens⟩, rfl⟩

end

/-! ## Statements with bodies -/

section

variable {α β : Type} {whole : List Token}

/-- What was read as a part of a whole was read off the part. -/
theorem ok_of_inside {earlier : List Failure} {f : α → β} {r : Rest whole} {a : Attempt α r.tokens} {y : β}
    {q : Rest whole} (read : (Attempt.inside earlier f r a).outcome = .ok (y, q)) :
    ∃ x, a.outcome.plain = .ok (x, q.tokens) ∧ f x = y := by
  obtain ⟨nested, outcome⟩ := a
  cases outcome with
  | error s => cases read
  | ok found =>
    cases read
    exact ⟨found.1, rfl, rfl⟩

variable {t : Token} {ahead : List Token}

/-- A statement without a body, where there is none to come to. -/
theorem composed_of_bodiless {x : Reading Stmt (t :: ahead)}
    (yields : x.Yields fun s _ => Introduces t ahead s ∧ s.blocks = []) (reads : readStatement t ahead = ⟨[], x⟩)
    (none : bodies t ahead = []) {s : Stmt} {r : Rest (t :: ahead)}
    (read : (readStatement t ahead).outcome = .ok (s, r)) : Composed t ahead s r.tokens := by
  have later := suffix_of_readStatement read
  rw [reads] at read
  obtain ⟨introduces, bodiless⟩ := yields s r read
  refine .other introduces ?_
  rw [bodiless, none]
  exact .none later

/-- A block that was read behind a brace. -/
theorem blocks_single {ts body rest : List Token} {brace : Token} {statements : List Stmt}
    (behind : brace :: body <:+ ts) (opens : brace.kind = .leftBrace) (read : BodyOf body statements rest) :
    Blocks ts [.mk brace.position statements] [body] rest :=
  .next behind opens read (.none List.suffix_rfl)

/-- A branch has the first of its bodies behind the condition, and may have another behind `else`. -/
theorem composed_of_branch (kind : t.kind = .ifWord) {s : Stmt} {r : Rest (t :: ahead)}
    (read : (readStatement t ahead).outcome = .ok (s, r)) : Composed t ahead s r.tokens := by
  simp only [readStatement, kind] at read
  cases header : (Rest.behind t ahead).condition with
  | error s =>
    simp only [header] at read
    cases read
  | ok found =>
    obtain ⟨⟨condition, place⟩, rest, less⟩ := found
    obtain ⟨brace, opens, rfl, behind⟩ := yields_condition _ _ _ header
    cases first : readBody rest with
    | mk nested outcome =>
      cases outcome with
      | error s =>
        simp only [header, first] at read
        cases read
      | ok found =>
        obtain ⟨statements, rest', less'⟩ := found
        have body : BodyOf rest statements rest' := by
          rw [BodyOf, first]
          rfl
        by_cases otherwise : Failure.nextKind rest' = .elseWord
        · cases second : Rest.expect .leftBrace ⟨rest'.drop 1, length_drop_lt less' less⟩ with
          | error s =>
            simp only [header, first, if_pos otherwise, second] at read
            cases read
          | ok found =>
            obtain ⟨brace', rest'', less''⟩ := found
            obtain ⟨split, opens'⟩ := yields_expect _ _ _ _ second
            simp only [header, first, if_pos otherwise, second] at read
            obtain ⟨statements', body', rfl⟩ := ok_of_inside read
            have behind' : brace' :: rest'' <:+ rest' := by
              rw [← show rest'.drop 1 = brace' :: rest'' from split]
              exact List.drop_suffix 1 rest'
            refine .other (.branch kind) ?_
            simp only [bodies, kind, header, first, if_pos otherwise, Rest.further, second]
            exact .next behind opens body (blocks_single behind' opens' body')
        · simp only [header, first, if_neg otherwise] at read
          cases read
          refine .other (.branch kind) ?_
          simp only [bodies, kind, header, first, if_neg otherwise]
          exact blocks_single behind opens body

/-- A statement was read off its first token and off the tokens of its blocks. -/
theorem composed_of_read {s : Stmt} {r : Rest (t :: ahead)} (read : (readStatement t ahead).outcome = .ok (s, r)) :
    Composed t ahead s r.tokens := by
  cases kind : t.kind with
  | letWord =>
    exact composed_of_bodiless (yields_declaration kind (.behind t ahead)) (by simp only [readStatement, kind])
      (by simp only [bodies, kind]) read
  | returnWord =>
    exact composed_of_bodiless (yields_returned kind (.behind t ahead)) (by simp only [readStatement, kind])
      (by simp only [bodies, kind]) read
  | ifWord => exact composed_of_branch kind read
  | whileWord =>
    simp only [readStatement, kind] at read
    cases header : (Rest.behind t ahead).condition with
    | error s =>
      simp only [header] at read
      cases read
    | ok found =>
      obtain ⟨⟨condition, place⟩, rest, less⟩ := found
      obtain ⟨brace, opens, rfl, behind⟩ := yields_condition _ _ _ header
      simp only [header] at read
      obtain ⟨statements, body, rfl⟩ := ok_of_inside read
      refine .other (.loop kind) ?_
      simp only [bodies, kind, header]
      exact blocks_single behind opens body
  | funcWord =>
    simp only [readStatement, kind] at read
    cases header : (Rest.behind t ahead).signature with
    | error s =>
      simp only [header] at read
      cases read
    | ok found =>
      obtain ⟨⟨name, parameters, place⟩, rest, less⟩ := found
      obtain ⟨brace, opens, rfl, behind⟩ := yields_signature _ _ _ header
      simp only [header] at read
      obtain ⟨statements, body, rfl⟩ := ok_of_inside read
      refine .other (.define kind) ?_
      simp only [bodies, kind, header]
      exact blocks_single behind opens body
  | leftBrace =>
    simp only [readStatement, kind] at read
    obtain ⟨statements, body, rfl⟩ := ok_of_inside read
    exact .block kind body
  | identifier =>
    by_cases assigns : Failure.nextKind ahead = .equal
    · exact composed_of_bodiless (yields_assignment kind assigns (.behind t ahead))
        (by simp only [readStatement, kind, if_pos assigns]) (by simp only [bodies, kind]) read
    · exact composed_of_bodiless (yields_evaluation t ahead) (by simp only [readStatement, kind, if_neg assigns])
        (by simp only [bodies, kind]) read
  | _ =>
    exact composed_of_bodiless (yields_evaluation t ahead) (by simp only [readStatement, kind])
      (by simp only [bodies, kind]) read

end

end Stepwise
