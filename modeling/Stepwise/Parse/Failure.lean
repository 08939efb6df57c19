import Stepwise.Token.Basic

/-!
What can go wrong in a statement, and where reading goes on afterwards. A
statement fails either in front of a token it did not expect, or on a token
that it entered because an expression had to begin there. The rest of the
malformed statement is then passed over: up to a semicolon, to a word that
begins a statement, or to a closing brace; a braced body is passed over as a
whole (`Failure.recover`).
-/
namespace Stepwise

/-- Why a token was refused. -/
inductive Complaint where
  | expected (what : String) (found : Kind)
  | illegal (literal : String)
  | noExpression (found : Kind)
deriving DecidableEq, Repr

/-- The wording of a complaint. -/
def Complaint.message : Complaint → String
  | expected what found => "expected " ++ what ++ ", got " ++ found.describe
  | illegal literal => "illegal token " ++ literal
  | noExpression found => "no prefix parse function for " ++ found.describe ++ " found"

/-- A complaint with the place and the width of the token it is about. -/
structure Diagnostic where
  complaint : Complaint
  position : Position
  width : Nat
deriving DecidableEq, Repr

/-- The wording of a diagnostic. -/
def Diagnostic.message (d : Diagnostic) : String :=
  d.complaint.message

/-- How a statement failed: the complaint, the refused token if it was entered,
    and the tokens ahead of the reader. -/
structure Failure where
  complaint : Complaint
  entered : Option Token
  ahead : List Token
deriving DecidableEq, Repr

namespace Failure

/-- The kind of the next token, the end mark standing behind the last. -/
def nextKind (ahead : List Token) : Kind :=
  (ahead.head?.map Token.kind).getD .eof

/-- The next token is not what had to follow. -/
def unexpected (what : String) (ahead : List Token) : Failure :=
  ⟨.expected what (nextKind ahead), none, ahead⟩

/-- The next token cannot begin an expression. -/
def noExpression : List Token → Failure
  | [] => ⟨.noExpression .eof, none, []⟩
  | t :: ahead =>
    ⟨if t.kind = .illegal then .illegal t.literal else .noExpression t.kind, some t, ahead⟩

/-- The token a failure is about; `stop` marks the end of the source. -/
def offender (f : Failure) (stop : Token) : Token :=
  f.entered.getD (f.ahead.head?.getD stop)

/-- The diagnostic of a failure. -/
def diagnostic (f : Failure) (stop : Token) : Diagnostic :=
  ⟨f.complaint, (f.offender stop).position, (f.offender stop).width⟩

end Failure

/-- The tokens in front of which a malformed statement ends. -/
def Kind.isBoundary : Kind → Bool
  | .letWord | .returnWord | .ifWord | .whileWord | .funcWord | .rightBrace => true
  | _ => false

/-- The number of open braces behind a token, if the malformed statement goes
    on there. It ends with a semicolon outside braces, and with the brace that
    closes its outermost body. -/
def Kind.passed (depth : Nat) : Kind → Option Nat
  | .leftBrace => some (depth + 1)
  | .rightBrace => if depth = 1 then none else some (depth - 1)
  | .semicolon => if depth = 0 then none else some depth
  | _ => some depth

/-- What is left when the rest of a malformed statement is passed over, with
    `depth` braces open. -/
def skipStatement (depth : Nat) : List Token → List Token
  | [] => []
  | t :: ahead =>
    if depth = 0 ∧ t.kind.isBoundary then
      t :: ahead
    else
      match t.kind.passed depth with
      | none => ahead
      | some depth => skipStatement depth ahead

/-- The tokens from which reading goes on after a failure. -/
def Failure.recover (f : Failure) : List Token :=
  match f.entered.map (·.kind.passed 0) with
  | none => skipStatement 0 f.ahead
  | some none => f.ahead
  | some (some depth) => skipStatement depth f.ahead

/-- What is left when tokens are passed over is the end of them. -/
theorem skipStatement_suffix (depth : Nat) (ts : List Token) : skipStatement depth ts <:+ ts := by
  fun_induction skipStatement depth ts with
  | case1 => exact List.suffix_rfl
  | case2 => exact List.suffix_rfl
  | case3 depth t ahead goesOn ends => exact List.suffix_cons t ahead
  | case4 depth t ahead goesOn depth' passed ih => exact ih.trans (List.suffix_cons t ahead)

/-- Recovery never goes back. -/
theorem Failure.recover_suffix (f : Failure) : f.recover <:+ f.ahead := by
  unfold recover
  split
  · exact skipStatement_suffix 0 _
  · exact List.suffix_rfl
  · exact skipStatement_suffix _ _

theorem Failure.length_recover_le (f : Failure) : f.recover.length ≤ f.ahead.length :=
  f.recover_suffix.length_le

end Stepwise
