import Stepwise.Parse.Expr
import Stepwise.Token.Scan

/-!
Reading statements and blocks. An attempt to read a statement gives the
failures of the malformed statements nested in it, and then either the
statement or a failure of its own. A malformed statement is dropped, and
reading goes on behind it.
-/
namespace Stepwise

/-- What became of reading a part of a script. -/
structure Attempt (α : Type) (whole : List Token) where
  nested : List Failure
  outcome : Reading α whole

/-- The type that a token names. -/
def Kind.typeName? : Kind → Option TypeName
  | .numberType => some .number
  | .stringType => some .string
  | .boolType => some .bool
  | _ => none

/-- Reads names up to the closing parenthesis, at least one. -/
def readNames : List Token → Except Failure (List String × List Token)
  | [] => .error (.unexpected Kind.identifier.describe [])
  | t :: ahead =>
    if t.kind = .identifier then
      match ahead with
      | [] => .error (.unexpected Kind.rightParen.describe [])
      | c :: ahead' =>
        if c.kind = .comma then
          match readNames ahead' with
          | .error f => .error f
          | .ok (names, rest) => .ok (t.literal :: names, rest)
        else if c.kind = .rightParen then
          .ok ([t.literal], ahead')
        else
          .error (.unexpected Kind.rightParen.describe (c :: ahead'))
    else
      .error (.unexpected Kind.identifier.describe (t :: ahead))

theorem length_readNames_le {names : List String} {ts rest : List Token}
    (read : readNames ts = .ok (names, rest)) : rest.length ≤ ts.length := by
  fun_induction readNames ts generalizing names rest with
  | case4 t isName c ahead isComma names' rest' read' ih =>
    have := ih read'
    simp_all only [Except.ok.injEq, Prod.mk.injEq, List.length_cons]
    omega
  | case5 t isName c ahead notComma isParen =>
    simp_all only [Except.ok.injEq, Prod.mk.injEq, List.length_cons]
    omega
  | _ => simp_all

theorem length_ahead_readNames_le {ts : List Token} {f : Failure}
    (read : readNames ts = .error f) : f.ahead.length ≤ ts.length := by
  fun_induction readNames ts generalizing f with
  | case3 t isName c ahead isComma f' read' ih =>
    have shorter := ih read'
    cases read
    simp only [List.length_cons]
    omega
  | case4 => simp_all
  | case5 => simp_all
  | _ =>
    simp only [Except.error.injEq] at read
    simp [← read, Failure.unexpected]

section

variable {whole : List Token}

/-- Reads an expression, whatever its operators. -/
def Rest.expr (r : Rest whole) : Reading Expr whole :=
  Reading.inside r (readExpr .lowest r.tokens)

/-- Reads the name of a type. -/
def Rest.typeName (r : Rest whole) : Reading TypeName whole :=
  match r with
  | ⟨[], shorter⟩ => .error ((Rest.mk [] shorter).refuse "TYPE")
  | ⟨t :: ahead, shorter⟩ =>
    match t.kind.typeName? with
    | some type => .ok (type, ⟨ahead, length_lt_of_cons shorter⟩)
    | none => .error ((Rest.mk (t :: ahead) shorter).refuse "TYPE")

/-- Reads the parameters of a function, up to the closing parenthesis. -/
def Rest.parameters (r : Rest whole) : Reading (List String) whole :=
  if Failure.nextKind r.tokens = .rightParen then do
    let (_, r) ← r.expect .rightParen
    pure ([], r)
  else
    match read : readNames r.tokens with
    | .error f =>
      .error ⟨f, Nat.le_sub_one_of_lt (Nat.lt_of_le_of_lt (length_ahead_readNames_le read) r.shorter)⟩
    | .ok (names, rest) =>
      .ok (names, ⟨rest, Nat.lt_of_le_of_lt (length_readNames_le read) r.shorter⟩)

/-- Reads a declaration behind its first word. Without a value it ends with a
    semicolon. -/
def Rest.declaration (position : Position) (r : Rest whole) : Reading Stmt whole := do
  let (name, r) ← r.expect .identifier
  let (_, r) ← r.expect .colon
  let (type, r) ← r.typeName
  if Failure.nextKind r.tokens = .semicolon then
    pure (.declare position name.literal type none, r.skipSemicolon)
  else
    let (_, r) ← r.expect .equal
    let (value, r) ← r.expr
    pure (.declare position name.literal type (some value), r.skipSemicolon)

/-- Reads an assignment behind the assigned name. -/
def Rest.assignment (name : Token) (r : Rest whole) : Reading Stmt whole := do
  let (_, r) ← r.expect .equal
  let (value, r) ← r.expr
  pure (.assign name.position name.literal value, r.skipSemicolon)

/-- Reads the value to give back. -/
def Rest.returned (position : Position) (r : Rest whole) : Reading Stmt whole := do
  let (value, r) ← r.expr
  pure (.giveBack position value, r.skipSemicolon)

/-- Reads a condition in parentheses and the brace that opens the body. -/
def Rest.condition (r : Rest whole) : Reading (Expr × Position) whole := do
  let (_, r) ← r.expect .leftParen
  let (condition, r) ← r.expr
  let (_, r) ← r.expect .rightParen
  let (brace, r) ← r.expect .leftBrace
  pure ((condition, brace.position), r)

/-- Reads the name and the parameters of a function and the brace that opens its
    body. -/
def Rest.signature (r : Rest whole) : Reading (String × List String × Position) whole := do
  let (name, r) ← r.expect .identifier
  let (_, r) ← r.expect .leftParen
  let (parameters, r) ← r.parameters
  let (brace, r) ← r.expect .leftBrace
  pure ((name.literal, parameters, brace.position), r)

end

/-- Reads a statement that is an expression. -/
def readEvaluation (t : Token) (ahead : List Token) : Reading Stmt (t :: ahead) := do
  let (value, r) ← readExpr .lowest (t :: ahead)
  pure (.evaluate t.position value, r.skipSemicolon)

/-- Something read off the tokens left of a whole, and the failures on the way,
    as an attempt at the whole. -/
def Attempt.inside {α β : Type} {whole : List Token} (earlier : List Failure) (f : α → β)
    (r : Rest whole) (a : Attempt α r.tokens) : Attempt β whole :=
  ⟨earlier ++ a.nested,
    match Reading.inside r a.outcome with
    | .error s => .error s
    | .ok (x, rest) => .ok (f x, rest)⟩

/-- Passing over the first of the tokens left leaves fewer than the whole. -/
theorem length_drop_lt {whole rest rest' : List Token} (less' : rest'.length < rest.length)
    (less : rest.length < whole.length) : (rest'.drop 1).length < whole.length := by
  simp only [List.length_drop]
  omega

/-- Recovery from a failure in a statement leaves fewer tokens than the statement
    began with. -/
theorem length_recover_lt {t : Token} {ahead : List Token} {f : Failure}
    (within : f.ahead.length ≤ (t :: ahead).length - 1) : f.recover.length < (t :: ahead).length :=
  Nat.lt_succ_of_le (Nat.le_trans f.length_recover_le within)

mutual

/-- Reads the statement that begins with `t`. -/
def readStatement (t : Token) (ahead : List Token) : Attempt Stmt (t :: ahead) :=
  match t.kind with
  | .letWord => ⟨[], (Rest.behind t ahead).declaration t.position⟩
  | .returnWord => ⟨[], (Rest.behind t ahead).returned t.position⟩
  | .ifWord =>
    match (Rest.behind t ahead).condition with
    | .error s => ⟨[], .error s⟩
    | .ok ((condition, brace), ⟨rest, less⟩) =>
      match readBody rest with
      | ⟨nested, .error s⟩ => ⟨nested, .error (s.inside ⟨rest, less⟩)⟩
      | ⟨nested, .ok (body, ⟨rest', less'⟩)⟩ =>
        if Failure.nextKind rest' = .elseWord then
          match Rest.expect .leftBrace ⟨rest'.drop 1, length_drop_lt less' less⟩ with
          | .error s => ⟨nested, .error s⟩
          | .ok (brace', ⟨rest'', less''⟩) =>
            .inside nested
              (fun body' => .branch t.position condition (.mk brace body) (some (.mk brace'.position body')))
              ⟨rest'', less''⟩ (readBody rest'')
        else
          ⟨nested, .ok (.branch t.position condition (.mk brace body) none,
            ⟨rest', Nat.lt_trans less' less⟩)⟩
  | .whileWord =>
    match (Rest.behind t ahead).condition with
    | .error s => ⟨[], .error s⟩
    | .ok ((condition, brace), ⟨rest, less⟩) =>
      .inside [] (fun body => .loop t.position condition (.mk brace body)) ⟨rest, less⟩ (readBody rest)
  | .funcWord =>
    match (Rest.behind t ahead).signature with
    | .error s => ⟨[], .error s⟩
    | .ok ((name, parameters, brace), ⟨rest, less⟩) =>
      .inside [] (fun body => .define t.position name parameters (.mk brace body)) ⟨rest, less⟩
        (readBody rest)
  | .leftBrace =>
    .inside [] (fun body => .block (.mk t.position body)) (.behind t ahead) (readBody ahead)
  | .identifier =>
    if Failure.nextKind ahead = .equal then ⟨[], (Rest.behind t ahead).assignment t⟩
    else ⟨[], readEvaluation t ahead⟩
  | _ => ⟨[], readEvaluation t ahead⟩
termination_by 2 * (t :: ahead).length
decreasing_by
  all_goals simp only [List.length_cons] at *
  all_goals omega

/-- Reads the statements of a block up to its closing brace. -/
def readBody (ts : List Token) : Attempt (List Stmt) ts :=
  match ts with
  | [] => ⟨[], .error ⟨.unexpected Kind.rightBrace.describe [], Nat.le_refl 0⟩⟩
  | t :: ahead =>
    if t.kind = .rightBrace then
      ⟨[], .ok ([], .behind t ahead)⟩
    else
      match readStatement t ahead with
      | ⟨nested, .ok (s, ⟨rest, less⟩)⟩ =>
        .inside nested (s :: ·) ⟨rest, less⟩ (readBody rest)
      | ⟨nested, .error ⟨f, within⟩⟩ =>
        .inside (nested ++ [f]) id ⟨f.recover, length_recover_lt within⟩ (readBody f.recover)
termination_by 2 * ts.length + 1
decreasing_by
  · omega
  · simp only [List.length_cons] at *
    omega
  · have := f.length_recover_le
    simp only [List.length_cons] at *
    omega

end

/-- Reads a whole script: the statements that could be read, and the failures of
    those that could not, in the order they were found. -/
def readScript (ts : List Token) : List Stmt × List Failure :=
  match ts with
  | [] => ([], [])
  | t :: ahead =>
    match readStatement t ahead with
    | ⟨nested, .ok (s, ⟨rest, _less⟩)⟩ =>
      let (statements, failures) := readScript rest
      (s :: statements, nested ++ failures)
    | ⟨nested, .error ⟨f, _within⟩⟩ =>
      let (statements, failures) := readScript f.recover
      (statements, nested ++ f :: failures)
termination_by ts.length
decreasing_by
  · exact _less
  · have := f.length_recover_le
    simp only [List.length_cons] at *
    omega

/-- A script that was read from a source text, with the diagnostics of the
    statements that were dropped. -/
structure Parsed where
  script : List Stmt
  diagnostics : List Diagnostic
deriving Repr

/-- Reads a source text. -/
def parse (source : String) : Parsed :=
  let (ts, stop) := (Scanner.ofSource source).readAll
  let (script, failures) := readScript ts
  ⟨script, failures.map (·.diagnostic stop)⟩

end Stepwise
