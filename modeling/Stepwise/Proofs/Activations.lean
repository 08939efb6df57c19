import Stepwise.Proofs.Legible
import Stepwise.Proofs.Trials

/-!
The calls among the readers. Every call of a reader, and every round of one that is a loop, is an activation.
What an activation does between the activations that it calls for is its course, which is written here without
any recursion (`Activation.course`): where a reader goes on with what another gives, the course asks for that
activation and goes on with the answer. Answered by the readers, the course of an activation comes to what the
reader comes to (`answered_course`), so these are the calls that the readers make.
-/
namespace Stepwise

/-- The readers that call each other, or themselves. -/
inductive Reader where
  | path | expr | operators | arguments | items | names | skip | statement | body | script
deriving DecidableEq, Repr

/-- A call of a reader, with the tokens in front of it. -/
inductive Activation where
  | path (name : String) (ts : List Token)
  | expr (minimum : Precedence) (ts : List Token)
  | operators (minimum : Precedence) (left : Expr) (ts : List Token)
  | arguments (ts : List Token)
  | items (ts : List Token)
  | names (ts : List Token)
  | skip (depth : Nat) (ts : List Token)
  | statement (t : Token) (ahead : List Token)
  | body (ts : List Token)
  | script (ts : List Token)

/-- What is read of a part of a script and the tokens left, or a failure. -/
abbrev Part (α : Type) : Type :=
  Except Failure (α × List Token)

namespace Activation

/-- The reader that is called. -/
def reader : Activation → Reader
  | path _ _ => .path
  | expr _ _ => .expr
  | operators _ _ _ => .operators
  | arguments _ => .arguments
  | items _ => .items
  | names _ => .names
  | skip _ _ => .skip
  | statement _ _ => .statement
  | body _ => .body
  | script _ => .script

/-- The tokens that are not consumed yet. -/
def tokens : Activation → List Token
  | path _ ts | expr _ ts | operators _ _ ts | arguments ts | items ts => ts
  | names ts | skip _ ts | body ts | script ts => ts
  | statement t ahead => t :: ahead

/-- What the reader gives. -/
abbrev Answer : Activation → Type
  | path _ _ => Part String
  | expr _ _ | operators _ _ _ => Part Expr
  | arguments _ | items _ => Part (List Expr)
  | names _ => Part (List String)
  | skip _ _ => List Token
  | statement _ _ => List Failure × Part Stmt
  | body _ => List Failure × Part (List Stmt)
  | script _ => List Stmt × List Failure

/-- What the reader comes to. -/
def read : (x : Activation) → x.Answer
  | path name ts => readPath name ts
  | expr minimum ts => (readExpr minimum ts).plain
  | operators minimum left ts => (readOperators minimum left (.behind Kind.semicolon.mark ts)).plain
  | arguments ts => (readArguments ts).plain
  | items ts => (readItems ts).plain
  | names ts => readNames ts
  | skip depth ts => skipStatement depth ts
  | statement t ahead => ((readStatement t ahead).nested, (readStatement t ahead).outcome.plain)
  | body ts => ((readBody ts).nested, (readBody ts).outcome.plain)
  | script ts => readScript ts

end Activation

/-! ## Courses -/

/-- A course: it comes to a result at once, or asks for an activation and goes on with the answer. -/
inductive Asks (α : Type) where
  | done (a : α)
  | ask (x : Activation) (go : x.Answer → Asks α)

namespace Asks

variable {α β : Type}

/-- A course behind another. -/
def bind : Asks α → (α → Asks β) → Asks β
  | done a, k => k a
  | ask x go, k => ask x fun r => (go r).bind k

instance : Monad Asks where
  pure := done
  bind := bind

/-- What a course comes to if its questions are answered. -/
def answered (answer : (x : Activation) → x.Answer) : Asks α → α
  | done a => a
  | ask x go => (go (answer x)).answered answer

/-- The activations that a course asks for if its questions are answered. -/
def asked (answer : (x : Activation) → x.Answer) : Asks α → List Activation
  | done _ => []
  | ask x go => x :: (go (answer x)).asked answer

end Asks

/-- Courses that may come to a failure. -/
abbrev Steps : Type → Type :=
  ExceptT Failure Asks

namespace Steps

/-- Asks for an activation, and fails if that comes to a failure. -/
def turn {α : Type} (x : Activation) (same : x.Answer = Part α) : Steps (α × List Token) :=
  ExceptT.mk (.ask x fun r => .done (cast same r))

/-- Takes a token of the given kind. -/
def expect (kind : Kind) : List Token → Steps (Token × List Token)
  | [] => throw (.unexpected kind.describe [])
  | t :: ahead => if t.kind = kind then pure (t, ahead) else throw (.unexpected kind.describe (t :: ahead))

/-- What is behind a semicolon, if one is next. -/
def behindSemicolon : List Token → List Token
  | [] => []
  | t :: ahead => if t.kind = .semicolon then ahead else t :: ahead

def path (name : String) : List Token → Steps (String × List Token)
  | [] => pure (name, [])
  | d :: ahead =>
    if d.kind = .dot then do
      let (t, ahead) ← expect .identifier ahead
      turn (.path (name ++ "." ++ t.literal) ahead) rfl
    else
      pure (name, d :: ahead)

def expr (minimum : Precedence) : List Token → Steps (Expr × List Token)
  | [] => throw (.noExpression [])
  | t :: ahead =>
    if t.kind = .identifier then do
      let (name, rest) ← turn (.path t.literal ahead) rfl
      turn (.operators minimum (.name name) rest) rfl
    else if t.kind = .leftParen then do
      let (e, rest) ← turn (.expr .lowest ahead) rfl
      let (_, rest) ← expect .rightParen rest
      turn (.operators minimum e rest) rfl
    else
      match t.kind.unaryOp?, t.literal? with
      | some op, _ => do
        let (e, rest) ← turn (.expr .unary ahead) rfl
        turn (.operators minimum (.unary op e) rest) rfl
      | none, some e => turn (.operators minimum e ahead) rfl
      | none, none => throw (.noExpression (t :: ahead))

def operators (minimum : Precedence) (left : Expr) : List Token → Steps (Expr × List Token)
  | [] => pure (left, [])
  | t :: ahead =>
    if minimum < t.kind.precedence then
      match t.kind.binaryOp? with
      | some op => do
        let (right, rest) ← turn (.expr t.kind.precedence ahead) rfl
        turn (.operators minimum (.binary left op right) rest) rfl
      | none => do
        let (arguments, rest) ← turn (.arguments ahead) rfl
        turn (.operators minimum (.call left arguments) rest) rfl
    else
      pure (left, t :: ahead)

def arguments (ts : List Token) : Steps (List Expr × List Token) := do
  if Failure.nextKind ts = .rightParen then
    let (_, rest) ← expect .rightParen ts
    pure ([], rest)
  else
    turn (.items ts) rfl

def items (ts : List Token) : Steps (List Expr × List Token) := do
  let (e, rest) ← turn (.expr .lowest ts) rfl
  if Failure.nextKind rest = .comma then
    let (_, rest) ← expect .comma rest
    let (es, rest) ← turn (.items rest) rfl
    pure (e :: es, rest)
  else
    let (_, rest) ← expect .rightParen rest
    pure ([e], rest)

def names (ts : List Token) : Steps (List String × List Token) := do
  let (t, rest) ← expect .identifier ts
  if Failure.nextKind rest = .comma then
    let (_, rest) ← expect .comma rest
    let (names, rest) ← turn (.names rest) rfl
    pure (t.literal :: names, rest)
  else
    let (_, rest) ← expect .rightParen rest
    pure ([t.literal], rest)

/-! The parts of statements. -/

def typeName : List Token → Steps (TypeName × List Token)
  | [] => throw (.unexpected "TYPE" [])
  | t :: ahead =>
    match t.kind.typeName? with
    | some type => pure (type, ahead)
    | none => throw (.unexpected "TYPE" (t :: ahead))

def parameters (ts : List Token) : Steps (List String × List Token) := do
  if Failure.nextKind ts = .rightParen then
    let (_, rest) ← expect .rightParen ts
    pure ([], rest)
  else
    turn (.names ts) rfl

def declaration (position : Position) (ts : List Token) : Steps (Stmt × List Token) := do
  let (name, rest) ← expect .identifier ts
  let (_, rest) ← expect .colon rest
  let (type, rest) ← typeName rest
  if Failure.nextKind rest = .semicolon then
    pure (.declare position name.literal type none, behindSemicolon rest)
  else
    let (_, rest) ← expect .equal rest
    let (value, rest) ← turn (.expr .lowest rest) rfl
    pure (.declare position name.literal type (some value), behindSemicolon rest)

def assignment (name : Token) (ts : List Token) : Steps (Stmt × List Token) := do
  let (_, rest) ← expect .equal ts
  let (value, rest) ← turn (.expr .lowest rest) rfl
  pure (.assign name.position name.literal value, behindSemicolon rest)

def returned (position : Position) (ts : List Token) : Steps (Stmt × List Token) := do
  let (value, rest) ← turn (.expr .lowest ts) rfl
  pure (.giveBack position value, behindSemicolon rest)

def condition (ts : List Token) : Steps ((Expr × Position) × List Token) := do
  let (_, rest) ← expect .leftParen ts
  let (condition, rest) ← turn (.expr .lowest rest) rfl
  let (_, rest) ← expect .rightParen rest
  let (brace, rest) ← expect .leftBrace rest
  pure ((condition, brace.position), rest)

def signature (ts : List Token) : Steps ((String × List String × Position) × List Token) := do
  let (name, rest) ← expect .identifier ts
  let (_, rest) ← expect .leftParen rest
  let (parameters, rest) ← parameters rest
  let (brace, rest) ← expect .leftBrace rest
  pure ((name.literal, parameters, brace.position), rest)

def evaluation (t : Token) (ahead : List Token) : Steps (Stmt × List Token) := do
  let (value, rest) ← turn (.expr .lowest (t :: ahead)) rfl
  pure (.evaluate t.position value, behindSemicolon rest)

end Steps

namespace Asks

variable {α β : Type}

/-- Passing over the rest of a malformed statement. -/
def skip (depth : Nat) : List Token → Asks (List Token)
  | [] => pure []
  | t :: ahead =>
    if depth = 0 ∧ t.kind.isBoundary then pure (t :: ahead)
    else
      match t.kind.passed depth with
      | none => pure ahead
      | some depth => ask (.skip depth ahead) done

/-- Recovery from a failure. -/
def recover (f : Failure) : Asks (List Token) :=
  match f.entered.map (·.kind.passed 0) with
  | none => ask (.skip 0 f.ahead) done
  | some none => pure f.ahead
  | some (some depth) => ask (.skip depth f.ahead) done

/-- Reads a body, behind failures that were recorded before. -/
def body (earlier : List Failure) (f : List Stmt → β) (ts : List Token) : Asks (List Failure × Part β) :=
  ask (.body ts) fun r => done (earlier ++ r.1, r.2.map (Prod.map f id))

/-- Reads a statement without a body. -/
def bodiless (steps : Steps (Stmt × List Token)) : Asks (List Failure × Part Stmt) := do
  let result ← steps.run
  pure ([], result)

/-- Reads a part of a statement, and goes on behind it. -/
def header (steps : Steps (α × List Token)) (next : α → List Token → Asks (List Failure × Part Stmt)) :
    Asks (List Failure × Part Stmt) := do
  match ← steps.run with
  | .error f => pure ([], .error f)
  | .ok (a, rest) => next a rest

/-- The second block of a conditional statement, if there is one. -/
def otherwise (whole : Option Block → Stmt) (nested : List Failure) (rest : List Token) :
    Asks (List Failure × Part Stmt) :=
  if Failure.nextKind rest = .elseWord then do
    match ← (Steps.expect .leftBrace (rest.drop 1)).run with
    | .error f => pure (nested, .error f)
    | .ok (brace, rest) => body nested (fun body => whole (some (.mk brace.position body))) rest
  else
    pure (nested, .ok (whole none, rest))

def statement (t : Token) (ahead : List Token) : Asks (List Failure × Part Stmt) :=
  match t.kind with
  | .letWord => bodiless (Steps.declaration t.position ahead)
  | .returnWord => bodiless (Steps.returned t.position ahead)
  | .ifWord =>
    header (Steps.condition ahead) fun (condition, brace) rest =>
      ask (.body rest) fun
        | (nested, .error f) => pure (nested, .error f)
        | (nested, .ok (body, rest)) => otherwise (.branch t.position condition (.mk brace body)) nested rest
  | .whileWord =>
    header (Steps.condition ahead) fun (condition, brace) rest =>
      body [] (fun body => .loop t.position condition (.mk brace body)) rest
  | .funcWord =>
    header (Steps.signature ahead) fun (name, parameters, brace) rest =>
      body [] (fun body => .define t.position name parameters (.mk brace body)) rest
  | .leftBrace => body [] (fun body => .block (.mk t.position body)) ahead
  | .identifier =>
    if Failure.nextKind ahead = .equal then bodiless (Steps.assignment t ahead)
    else bodiless (Steps.evaluation t ahead)
  | _ => bodiless (Steps.evaluation t ahead)

/-- Reads a statement, passes over the rest of it if it is malformed, and goes on behind it. -/
def trial (t : Token) (ahead : List Token) (next : List Failure → Option Stmt → List Token → Asks α) : Asks α :=
  ask (.statement t ahead) fun
    | (nested, .ok (s, rest)) => next nested (some s) rest
    | (nested, .error f) => do
      let left ← recover f
      next (nested ++ [f]) none left

def bodyOf : List Token → Asks (List Failure × Part (List Stmt))
  | [] => pure ([], .error (.unexpected Kind.rightBrace.describe []))
  | t :: ahead =>
    if t.kind = .rightBrace then pure ([], .ok ([], ahead))
    else trial t ahead fun recorded s? rest => body recorded (s?.toList ++ ·) rest

def script : List Token → Asks (List Stmt × List Failure)
  | [] => pure ([], [])
  | t :: ahead =>
    trial t ahead fun recorded s? rest =>
      ask (.script rest) fun r => done (s?.toList ++ r.1, recorded ++ r.2)

end Asks

/-- What an activation does, apart from what it asks other activations for. -/
def Activation.course : (x : Activation) → Asks x.Answer
  | path name ts => Steps.path name ts
  | expr minimum ts => Steps.expr minimum ts
  | operators minimum left ts => Steps.operators minimum left ts
  | arguments ts => Steps.arguments ts
  | items ts => Steps.items ts
  | names ts => Steps.names ts
  | skip depth ts => Asks.skip depth ts
  | statement t ahead => Asks.statement t ahead
  | body ts => Asks.bodyOf ts
  | script ts => Asks.script ts

/-- The activations that an activation calls for. -/
def Activation.calls (x : Activation) : List Activation :=
  x.course.asked Activation.read

/-! ## Courses come to what the readers come to -/

section

variable {α β : Type} {whole : List Token}

theorem answered_bind (answer : (x : Activation) → x.Answer) (c : Asks α) (k : α → Asks β) :
    (c >>= k).answered answer = (k (c.answered answer)).answered answer := by
  induction c with
  | done a => rfl
  | ask x go ih => exact ih (answer x)

/-- What a course comes to with the readers. -/
def Steps.result (c : Steps α) : Except Failure α :=
  c.run.answered Activation.read

theorem result_bind (c : Steps α) (k : α → Steps β) : (c >>= k).result = c.result >>= fun a => (k a).result := by
  rw [Steps.result, ExceptT.run_bind, answered_bind, Steps.result]
  cases c.run.answered Activation.read with
  | error f => rfl
  | ok a => rfl

/-- A course behind another is what a reader behind another is. -/
theorem result_reading {c : Steps (α × List Token)} {k : α × List Token → Steps (β × List Token)}
    {x : Reading α whole} {next : α × Rest whole → Reading β whole} (first : c.result = x.plain)
    (then_ : ∀ a r, (k (a, r.tokens)).result = (next (a, r)).plain) :
    (c >>= k).result = Reading.plain (x >>= next) := by
  rw [result_bind, first]
  cases x with
  | error s => rfl
  | ok found => exact then_ found.1 found.2

/-- What is read off the rest of a whole, and then behind it. -/
theorem result_inside {c : Steps (α × List Token)} {k : α × List Token → Steps (β × List Token)} {r : Rest whole}
    {x : Reading α r.tokens} {next : α × Rest whole → Reading β whole} (first : c.result = x.plain)
    (then_ : ∀ a (inner : Rest r.tokens), (k (a, inner.tokens)).result = (next (a, r.within inner)).plain) :
    (c >>= k).result = Reading.plain (Reading.inside r x >>= next) := by
  rw [result_bind, first]
  cases x with
  | error s => rfl
  | ok found => exact then_ found.1 found.2

theorem result_expect (kind : Kind) (r : Rest whole) : (Steps.expect kind r.tokens).result = (r.expect kind).plain := by
  obtain ⟨tokens, shorter⟩ := r
  cases tokens with
  | nil => rfl
  | cons t ahead =>
    simp only [Steps.expect, Rest.expect]
    split <;> rfl

theorem result_taken {kind : Kind} {t : Token} (same : t.kind = kind) (ahead : List Token)
    (k : Token × List Token → Steps β) : (Steps.expect kind (t :: ahead) >>= k).result = (k (t, ahead)).result := by
  rw [Steps.expect, if_pos same]
  rfl

theorem result_refused {kind : Kind} {t : Token} (other : t.kind ≠ kind) (ahead : List Token)
    (k : Token × List Token → Steps β) :
    (Steps.expect kind (t :: ahead) >>= k).result = .error (.unexpected kind.describe (t :: ahead)) := by
  rw [Steps.expect, if_neg other]
  rfl

theorem tokens_skipSemicolon (r : Rest whole) : Steps.behindSemicolon r.tokens = r.skipSemicolon.tokens := by
  obtain ⟨tokens, shorter⟩ := r
  cases tokens with
  | nil => rfl
  | cons t ahead =>
    simp only [Steps.behindSemicolon, Rest.skipSemicolon]
    split <;> rfl

/-- What is read with a semicolon behind it. -/
theorem result_ended (a : α) (r : Rest whole) :
    (pure (a, Steps.behindSemicolon r.tokens) : Steps (α × List Token)).result =
      Reading.plain (.ok (a, r.skipSemicolon)) := by
  rw [tokens_skipSemicolon]
  rfl

theorem result_path (name : String) (ts : List Token) : (Steps.path name ts).result = readPath name ts := by
  cases ts with
  | nil => rfl
  | cons d ahead =>
    rw [readPath.eq_def, Steps.path]
    dsimp only
    by_cases dot : d.kind = .dot
    · rw [if_pos dot, if_pos dot]
      cases ahead with
      | nil => rfl
      | cons t ahead =>
        by_cases word : t.kind = .identifier
        · simp only [result_bind, Steps.expect, if_pos word]
          rfl
        · simp only [result_bind, Steps.expect, if_neg word]
          rfl
    · rw [if_neg dot, if_neg dot]
      rfl

theorem result_operators (minimum : Precedence) (left : Expr) (r : Rest whole) :
    (Steps.operators minimum left r.tokens).result = (readOperators minimum left r).plain := by
  generalize size : r.tokens.length = n
  induction n using Nat.strongRecOn generalizing whole left r with
  | ind n ih =>
    obtain ⟨tokens, shorter⟩ := r
    cases tokens with
    | nil =>
      rw [readOperators]
      rfl
    | cons t ahead =>
      -- Behind an operator or a call fewer tokens are left, and what is read there depends on them only.
      have onward (left : Expr) (inner : Rest ahead) :
          (Steps.turn (.operators minimum left inner.tokens) rfl : Steps (Expr × List Token)).result =
            (readOperators minimum left (Rest.within ⟨ahead, length_lt_of_cons shorter⟩ inner)).plain := by
        have less : inner.tokens.length < n := by
          rw [← size]
          exact Nat.lt_succ_of_lt inner.shorter
        have here := ih _ less left (.behind Kind.semicolon.mark inner.tokens) rfl
        exact here.symm.trans (ih _ less left (Rest.within ⟨ahead, length_lt_of_cons shorter⟩ inner) rfl)
      rw [Steps.operators]
      by_cases stronger : minimum < t.kind.precedence
      · rw [if_pos stronger]
        cases operator : t.kind.binaryOp? with
        | some op =>
          rw [readOperators_binary left stronger operator]
          exact result_inside rfl fun right inner => onward (.binary left op right) inner
        | none =>
          rw [readOperators_call left stronger operator]
          exact result_inside rfl fun arguments inner => onward (.call left arguments) inner
      · rw [if_neg stronger, readOperators_stop left stronger]
        rfl

/-- What is read behind an operand depends on the tokens left only. -/
theorem result_turn_operators (minimum : Precedence) (left : Expr) (r : Rest whole) :
    (Steps.turn (.operators minimum left r.tokens) rfl : Steps (Expr × List Token)).result =
      (readOperators minimum left r).plain :=
  (result_operators minimum left (.behind Kind.semicolon.mark r.tokens)).symm.trans (result_operators minimum left r)

theorem result_expr (minimum : Precedence) (ts : List Token) :
    (Steps.expr minimum ts).result = (readExpr minimum ts).plain := by
  cases ts with
  | nil =>
    rw [readExpr]
    rfl
  | cons t ahead =>
    rw [Steps.expr]
    by_cases name : t.kind = .identifier
    · rw [if_pos name, readExpr_name name]
      refine result_reading (plain_path (.behind t ahead) t.literal).symm fun name r => ?_
      exact result_turn_operators minimum (.name name) r
    · rw [if_neg name]
      by_cases group : t.kind = .leftParen
      · rw [if_pos group, readExpr_group group]
        refine result_inside rfl fun e inner => ?_
        refine result_reading (result_expect .rightParen ((Rest.behind t ahead).within inner)) fun _ r => ?_
        exact result_turn_operators minimum e r
      · rw [if_neg group]
        cases operator : t.kind.unaryOp? with
        | some op =>
          rw [readExpr_unary operator]
          refine result_inside rfl fun e inner => ?_
          exact result_turn_operators minimum (.unary op e) ((Rest.behind t ahead).within inner)
        | none =>
          cases literal : t.literal? with
          | some e =>
            rw [readExpr_literal literal]
            exact result_turn_operators minimum e (.behind t ahead)
          | none =>
            rw [readExpr, if_neg name, if_neg group, operator, literal]
            rfl

theorem result_arguments (ts : List Token) : (Steps.arguments ts).result = (readArguments ts).plain := by
  rw [Steps.arguments]
  by_cases closes : Failure.nextKind ts = .rightParen
  · rw [if_pos closes]
    cases ts with
    | nil => cases closes
    | cons t ahead =>
      have same : t.kind = .rightParen := closes
      rw [result_taken same, readArguments, if_pos same]
      rfl
  · rw [if_neg closes, readArguments_eq closes]
    rfl

theorem result_items (ts : List Token) : (Steps.items ts).result = (readItems ts).plain := by
  rw [Steps.items, readItems_eq]
  refine result_reading rfl fun e r => ?_
  dsimp only
  by_cases comma : Failure.nextKind r.tokens = .comma
  · rw [if_pos comma, if_pos comma]
    refine result_reading (result_expect .comma r) fun _ r => ?_
    exact result_inside rfl fun es inner => rfl
  · rw [if_neg comma, if_neg comma]
    exact result_reading (result_expect .rightParen r) fun _ r => rfl

theorem result_names (ts : List Token) : (Steps.names ts).result = readNames ts := by
  rw [readNames.eq_def, Steps.names]
  cases ts with
  | nil => rfl
  | cons t ahead =>
    dsimp only
    by_cases word : t.kind = .identifier
    · rw [result_taken word, if_pos word]
      cases ahead with
      | nil => rfl
      | cons c ahead =>
        have next : Failure.nextKind (c :: ahead) = c.kind := rfl
        dsimp only
        rw [next]
        by_cases comma : c.kind = .comma
        · rw [if_pos comma, if_pos comma, result_taken comma, result_bind]
          show readNames ahead >>= _ = _
          cases readNames ahead <;> rfl
        · rw [if_neg comma, if_neg comma]
          by_cases closes : c.kind = .rightParen
          · rw [if_pos closes, result_taken closes]
            rfl
          · rw [if_neg closes, result_refused closes]
    · rw [result_refused word, if_neg word]

/-! ## Statements -/

theorem result_typeName (r : Rest whole) : (Steps.typeName r.tokens).result = r.typeName.plain := by
  obtain ⟨tokens, shorter⟩ := r
  cases tokens with
  | nil => rfl
  | cons t ahead =>
    simp only [Steps.typeName, Rest.typeName]
    cases t.kind.typeName? <;> rfl

theorem plain_parameters (r : Rest whole) : (Steps.parameters r.tokens).result = r.parameters.plain := by
  rw [Steps.parameters, Rest.parameters]
  by_cases closes : Failure.nextKind r.tokens = .rightParen
  · rw [if_pos closes, if_pos closes]
    exact result_reading (result_expect .rightParen r) fun _ r => rfl
  · rw [if_neg closes, if_neg closes]
    split <;> next read => exact read

/-- An expression that is read with any operators. -/
theorem result_value (r : Rest whole) :
    (Steps.turn (.expr .lowest r.tokens) rfl : Steps (Expr × List Token)).result = r.expr.plain :=
  (plain_inside _).symm

theorem result_declaration (position : Position) (r : Rest whole) :
    (Steps.declaration position r.tokens).result = (r.declaration position).plain := by
  refine result_reading (result_expect .identifier r) fun name r => ?_
  refine result_reading (result_expect .colon r) fun _ r => ?_
  refine result_reading (result_typeName r) fun type r => ?_
  dsimp only
  by_cases bare : Failure.nextKind r.tokens = .semicolon
  · rw [if_pos bare, if_pos bare]
    exact result_ended _ r
  · rw [if_neg bare, if_neg bare]
    refine result_reading (result_expect .equal r) fun _ r => ?_
    exact result_reading (result_value r) fun value r => result_ended _ r

theorem result_assignment (name : Token) (r : Rest whole) :
    (Steps.assignment name r.tokens).result = (r.assignment name).plain := by
  refine result_reading (result_expect .equal r) fun _ r => ?_
  exact result_reading (result_value r) fun value r => result_ended _ r

theorem result_returned (position : Position) (r : Rest whole) :
    (Steps.returned position r.tokens).result = (r.returned position).plain :=
  result_reading (result_value r) fun _ r => result_ended _ r

theorem result_condition (r : Rest whole) : (Steps.condition r.tokens).result = r.condition.plain := by
  refine result_reading (result_expect .leftParen r) fun _ r => ?_
  refine result_reading (result_value r) fun condition r => ?_
  refine result_reading (result_expect .rightParen r) fun _ r => ?_
  exact result_reading (result_expect .leftBrace r) fun brace r => rfl

theorem result_signature (r : Rest whole) : (Steps.signature r.tokens).result = r.signature.plain := by
  refine result_reading (result_expect .identifier r) fun name r => ?_
  refine result_reading (result_expect .leftParen r) fun _ r => ?_
  refine result_reading (plain_parameters r) fun parameters r => ?_
  exact result_reading (result_expect .leftBrace r) fun brace r => rfl

theorem result_evaluation (t : Token) (ahead : List Token) :
    (Steps.evaluation t ahead).result = (readEvaluation t ahead).plain :=
  result_reading rfl fun _ r => result_ended _ r

theorem answered_skip (depth : Nat) (ts : List Token) :
    (Asks.skip depth ts).answered Activation.read = skipStatement depth ts := by
  cases ts with
  | nil => rfl
  | cons t ahead =>
    rw [Asks.skip, skipStatement]
    by_cases ends : depth = 0 ∧ t.kind.isBoundary = true
    · rw [if_pos ends, if_pos ends]
      rfl
    · rw [if_neg ends, if_neg ends]
      cases t.kind.passed depth <;> rfl

theorem answered_recover (f : Failure) : (Asks.recover f).answered Activation.read = f.recover := by
  unfold Asks.recover Failure.recover
  cases f.entered.map (·.kind.passed 0) with
  | none => rfl
  | some depth? => cases depth? <;> rfl

/-- What an attempt gives. -/
def Attempt.read (a : Attempt α whole) : List Failure × Part α :=
  (a.nested, a.outcome.plain)

theorem answered_bodiless {c : Steps (Stmt × List Token)} {x : Reading Stmt whole} (same : c.result = x.plain) :
    (Asks.bodiless c).answered Activation.read = (Attempt.mk [] x).read := by
  refine (answered_bind _ _ _).trans ?_
  exact congrArg (Prod.mk []) same

theorem answered_body (earlier : List Failure) (f : List Stmt → α) (r : Rest whole) :
    (Asks.body earlier f r.tokens).answered Activation.read =
      (Attempt.inside earlier f r (readBody r.tokens)).read := by
  rw [Attempt.read, plain_attempt_inside]
  rfl

theorem answered_header {c : Steps (β × List Token)} {next : β → List Token → Asks (List Failure × Part Stmt)}
    {x : Reading β whole} {a : Attempt Stmt whole} (same : c.result = x.plain)
    (failed : ∀ s, x = .error s → a = ⟨[], .error s⟩)
    (read : ∀ b r, x = .ok (b, r) → (next b r.tokens).answered Activation.read = a.read) :
    (Asks.header c next).answered Activation.read = a.read := by
  rw [Asks.header, answered_bind]
  rw [Steps.result] at same
  rw [same]
  cases x with
  | error s =>
    rw [failed s rfl]
    rfl
  | ok found => exact read found.1 found.2 rfl

theorem answered_statement (t : Token) (ahead : List Token) :
    (Asks.statement t ahead).answered Activation.read = (readStatement t ahead).read := by
  rw [readStatement, Asks.statement]
  cases kind : t.kind with
  | letWord => exact answered_bodiless (result_declaration t.position (.behind t ahead))
  | returnWord => exact answered_bodiless (result_returned t.position (.behind t ahead))
  | ifWord =>
    refine answered_header (result_condition (.behind t ahead)) (fun s failed => by rw [failed]) ?_
    rintro ⟨condition, brace⟩ ⟨rest, less⟩ read
    simp only [read, Asks.answered, Activation.read]
    cases readBody rest with
    | mk nested outcome =>
      cases outcome with
      | error s => rfl
      | ok found =>
        obtain ⟨body, rest', less'⟩ := found
        simp only [Reading.plain, Asks.otherwise]
        by_cases more : Failure.nextKind rest' = .elseWord
        · have expected := result_expect .leftBrace ⟨rest'.drop 1, length_drop_lt less' less⟩
          rw [Steps.result] at expected
          simp only [if_pos more, answered_bind, expected]
          cases Rest.expect .leftBrace ⟨rest'.drop 1, length_drop_lt less' less⟩ with
          | error s => rfl
          | ok found => exact answered_body nested _ found.2
        · simp only [if_neg more]
          rfl
  | whileWord =>
    refine answered_header (result_condition (.behind t ahead)) (fun s failed => by rw [failed]) ?_
    rintro ⟨condition, brace⟩ r read
    rw [read]
    exact answered_body _ _ r
  | funcWord =>
    refine answered_header (result_signature (.behind t ahead)) (fun s failed => by rw [failed]) ?_
    rintro ⟨name, parameters, brace⟩ r read
    rw [read]
    exact answered_body _ _ r
  | leftBrace => exact answered_body _ _ (.behind t ahead)
  | identifier =>
    dsimp only
    by_cases assigns : Failure.nextKind ahead = .equal
    · rw [if_pos assigns, if_pos assigns]
      exact answered_bodiless (result_assignment t (.behind t ahead))
    · rw [if_neg assigns, if_neg assigns]
      exact answered_bodiless (result_evaluation t ahead)
  | _ => exact answered_bodiless (result_evaluation t ahead)

theorem answered_trial (t : Token) (ahead : List Token) (next : List Failure → Option Stmt → List Token → Asks α) :
    (Asks.trial t ahead next).answered Activation.read =
      (next (Trial.mk t ahead).recorded (Trial.mk t ahead).statement? (Trial.mk t ahead).onward).answered
        Activation.read := by
  simp only [Asks.trial, Asks.answered, Activation.read, Trial.recorded, Trial.statement?, Trial.failure?,
    Trial.onward, Trial.attempt]
  cases readStatement t ahead with
  | mk nested outcome =>
    cases outcome with
    | ok found => simp [Reading.plain]
    | error s => simp [Reading.plain, answered_bind, answered_recover]

theorem answered_bodyOf (ts : List Token) :
    (Asks.bodyOf ts).answered Activation.read = (readBody ts).read := by
  cases ts with
  | nil =>
    rw [readBody]
    rfl
  | cons t ahead =>
    rw [Asks.bodyOf]
    by_cases closes : t.kind = .rightBrace
    · rw [if_pos closes, readBody, if_pos closes]
      rfl
    · obtain ⟨nested, outcome⟩ := readBody_cons closes ahead
      rw [if_neg closes, answered_trial, Attempt.read, nested, outcome]
      rfl

theorem answered_script (ts : List Token) : (Asks.script ts).answered Activation.read = readScript ts := by
  cases ts with
  | nil =>
    rw [readScript]
    rfl
  | cons t ahead =>
    rw [Asks.script, answered_trial, readScript_cons]
    rfl

end

/-- Answered by the readers, the course of an activation comes to what the reader comes to. -/
theorem answered_course (x : Activation) : x.course.answered Activation.read = x.read := by
  cases x with
  | path name ts => exact result_path name ts
  | expr minimum ts => exact result_expr minimum ts
  | operators minimum left ts => exact result_operators minimum left (.behind Kind.semicolon.mark ts)
  | arguments ts => exact result_arguments ts
  | items ts => exact result_items ts
  | names ts => exact result_names ts
  | skip depth ts => exact answered_skip depth ts
  | statement t ahead => exact answered_statement t ahead
  | body ts => exact answered_bodyOf ts
  | script ts => exact answered_script ts

end Stepwise
