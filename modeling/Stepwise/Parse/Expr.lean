import Stepwise.Parse.Progress
import Stepwise.Script.Basic
import Stepwise.Number.Decimal

/-!
Reading an expression by the strength of its operators. An operand is read
first; then operators and calls are taken up as long as they bind more strongly
than what stands in front of the expression. Operators of one strength group to
the left, since the right operand is read with the strength of its operator.
-/
namespace Stepwise

/-- The operator that a token stands for between two operands. -/
def Kind.binaryOp? : Kind → Option BinaryOp
  | .plus => some .add
  | .minus => some .subtract
  | .star => some .multiply
  | .slash => some .divide
  | .equalEqual => some .equal
  | .bangEqual => some .notEqual
  | .less => some .less
  | .lessEqual => some .lessEqual
  | .greater => some .greater
  | .greaterEqual => some .greaterEqual
  | _ => none

/-- The operator that a token stands for in front of an operand. -/
def Kind.unaryOp? : Kind → Option UnaryOp
  | .bang => some .not
  | .minus => some .negate
  | _ => none

/-- The literal that a token stands for. -/
def Token.literal? (t : Token) : Option Expr :=
  match t.kind with
  | .number => some (.number (Number.ofDigitRun t.literal.toList))
  | .string => some (.string t.literal)
  | .trueWord => some (.bool true)
  | .falseWord => some (.bool false)
  | _ => none

/-- The words behind dots that continue a name. -/
def readPath (path : String) : List Token → Except Failure (String × List Token)
  | [] => .ok (path, [])
  | d :: ahead =>
    if d.kind = .dot then
      match ahead with
      | [] => .error (.unexpected Kind.identifier.describe [])
      | t :: ahead' =>
        if t.kind = .identifier then readPath (path ++ "." ++ t.literal) ahead'
        else .error (.unexpected Kind.identifier.describe (t :: ahead'))
    else
      .ok (path, d :: ahead)

theorem length_readPath_le {path name : String} {ts rest : List Token}
    (read : readPath path ts = .ok (name, rest)) : rest.length ≤ ts.length := by
  fun_induction readPath path ts with
  | case1 => simp_all
  | case2 => simp_all
  | case3 path d isDot t ahead isWord ih => have := ih read; simp; omega
  | case4 => simp_all
  | case5 => simp_all

theorem length_ahead_readPath_le {path : String} {ts : List Token} {f : Failure}
    (read : readPath path ts = .error f) : f.ahead.length ≤ ts.length := by
  fun_induction readPath path ts with
  | case1 => simp_all
  | case2 => simp_all [Failure.unexpected]; simp [← read]
  | case3 path d isDot t ahead isWord ih => have := ih read; simp; omega
  | case4 => simp_all [Failure.unexpected]; simp [← read]
  | case5 => simp_all

/-- The words behind dots that continue a name. -/
def Rest.path {whole : List Token} (word : String) (r : Rest whole) : Reading String whole :=
  match read : readPath word r.tokens with
  | .error f =>
    .error ⟨f, Nat.le_sub_one_of_lt (Nat.lt_of_le_of_lt (length_ahead_readPath_le read) r.shorter)⟩
  | .ok (name, rest) =>
    .ok (name, ⟨rest, Nat.lt_of_le_of_lt (length_readPath_le read) r.shorter⟩)

mutual

/-- Reads an expression whose operators bind more strongly than `minimum`. -/
def readExpr (minimum : Precedence) (ts : List Token) : Reading Expr ts :=
  match ts with
  | [] => .error (.noExpression [])
  | t :: ahead =>
    if t.kind = .identifier then
      match (Rest.behind t ahead).path t.literal with
      | .error s => .error s
      | .ok (name, ⟨rest, less⟩) => readOperators minimum (.name name) (Rest.mk rest less)
    else if t.kind = .leftParen then
      match readExpr .lowest ahead with
      | .error s => .error (s.inside (.behind t ahead))
      | .ok (e, inner) =>
        match ((Rest.behind t ahead).within inner).expect .rightParen with
        | .error s => .error s
        | .ok (_, ⟨rest, less⟩) => readOperators minimum e (Rest.mk rest less)
    else
      match t.kind.unaryOp?, t.literal? with
      | some op, _ =>
        match readExpr .unary ahead with
        | .error s => .error (s.inside (.behind t ahead))
        | .ok (e, ⟨rest, less⟩) =>
          readOperators minimum (.unary op e) ((Rest.behind t ahead).within ⟨rest, less⟩)
      | none, some e => readOperators minimum e (.behind t ahead)
      | none, none => .error (.noExpression (t :: ahead))
termination_by 3 * ts.length
decreasing_by
  all_goals simp only [Rest.behind, Rest.within, List.length_cons] at *
  all_goals omega

/-- Takes up the operators and calls behind `left`, as long as they bind more
    strongly than `minimum`. -/
def readOperators {whole : List Token} (minimum : Precedence) (left : Expr) (r : Rest whole) : Reading Expr whole :=
  match r with
  | ⟨[], shorter⟩ => .ok (left, ⟨[], shorter⟩)
  | ⟨t :: ahead, shorter⟩ =>
    if minimum < t.kind.precedence then
      match t.kind.binaryOp? with
      | some op =>
        match readExpr t.kind.precedence ahead with
        | .error s => .error (s.inside ⟨ahead, length_lt_of_cons shorter⟩)
        | .ok (right, ⟨rest, less⟩) =>
          readOperators minimum (.binary left op right) ⟨rest, length_lt_of_behind less shorter⟩
      | none =>
        match readArguments ahead with
        | .error s => .error (s.inside ⟨ahead, length_lt_of_cons shorter⟩)
        | .ok (arguments, ⟨rest, less⟩) =>
          readOperators minimum (.call left arguments) ⟨rest, length_lt_of_behind less shorter⟩
    else
      .ok (left, ⟨t :: ahead, shorter⟩)
termination_by 3 * r.tokens.length
decreasing_by
  all_goals simp_wf
  all_goals omega

/-- Reads the arguments of a call, up to the closing parenthesis. -/
def readArguments (ts : List Token) : Reading (List Expr) ts :=
  match ts with
  | t :: ahead =>
    if t.kind = .rightParen then .ok ([], .behind t ahead) else readItems (t :: ahead)
  | [] => readItems []
termination_by 3 * ts.length + 2

/-- Reads at least one argument, and the closing parenthesis. -/
def readItems (ts : List Token) : Reading (List Expr) ts :=
  match readExpr .lowest ts with
  | .error s => .error s
  | .ok (_, ⟨[], shorter⟩) => .error ((Rest.mk [] shorter).refuse Kind.rightParen.describe)
  | .ok (e, ⟨t :: ahead, shorter⟩) =>
    if t.kind = .comma then
      match readItems ahead with
      | .error s => .error (s.inside ⟨ahead, length_lt_of_cons shorter⟩)
      | .ok (es, ⟨rest, less⟩) => .ok (e :: es, ⟨rest, length_lt_of_behind less shorter⟩)
    else if t.kind = .rightParen then
      .ok ([e], ⟨ahead, length_lt_of_cons shorter⟩)
    else
      .error ((Rest.mk (t :: ahead) shorter).refuse Kind.rightParen.describe)
termination_by 3 * ts.length + 1
decreasing_by
  · omega
  · simp only [List.length_cons] at shorter
    omega

end

end Stepwise
