import Stepwise.Proofs.Legible

/-!
The stratified grammar of expressions: a level for each strength of operators, loosest first, and
each level left-recursive in the one operand and built on the next tighter level in the other
(`Derivation`). A derivation has the tokens it is of (`Derivation.tokens`) and an expression, its
tree without the grouping parentheses (`Derivation.tree`).
-/
namespace Stepwise

/-! ## Levels -/

/-- The levels of expressions, loosest first. -/
inductive Layer where
  | equality | comparison | sum | product | prefixed | called
deriving DecidableEq

namespace Layer

/-- The operators that stand between two operands at a level. -/
def operators : Layer → List BinaryOp
  | equality => [.equal, .notEqual]
  | comparison => [.less, .lessEqual, .greater, .greaterEqual]
  | sum => [.add, .subtract]
  | product => [.multiply, .divide]
  | prefixed | called => []

/-- The next tighter level. -/
def tighter? : Layer → Option Layer
  | equality => some comparison
  | comparison => some sum
  | sum => some product
  | product => some prefixed
  | prefixed => some called
  | called => none

end Layer

/-! ## Derivations -/

/-- A token of a given kind. -/
abbrev TokenOf (k : Kind) : Type :=
  {t : Token // t.kind = k}

/-- What stands for a value by itself. A name is words with dots between them. -/
inductive Atom where
  | name (word : TokenOf .identifier) (more : List (TokenOf .dot × TokenOf .identifier))
  | number (t : TokenOf .number)
  | string (t : TokenOf .string)
  | true (t : TokenOf .trueWord)
  | false (t : TokenOf .falseWord)

namespace Atom

/-- The tokens of an atom. -/
def tokens : Atom → List Token
  | name word more => word :: more.flatMap fun (dot, word) => [dot.val, word.val]
  | number t | string t | true t | false t => [t.val]

/-- The expression of an atom. -/
def tree : Atom → Expr
  | name word more => .name (".".intercalate (word.val.literal :: more.map fun (_, word) => word.val.literal))
  | number t => .number (Number.ofDigitRun t.val.literal.toList)
  | string t => .string t.val.literal
  | true _ => .bool .true
  | false _ => .bool .false

end Atom

/-- What the stratified grammar has rules for. -/
inductive Nonterminal where
  | expression (l : Layer) | arguments | items

/-- What a phrase stands for: an expression, or the expressions of a list of arguments. -/
abbrev Nonterminal.Tree : Nonterminal → Type
  | expression _ => Expr
  | arguments | items => List Expr

/-- The derivations of the stratified grammar. -/
inductive Derivation : Nonterminal → Type where
  | tighter {l l' : Layer} (next : l.tighter? = some l') (inside : Derivation (.expression l')) :
      Derivation (.expression l)
  | link {l l' : Layer} {op : BinaryOp} (next : l.tighter? = some l') (listed : op ∈ l.operators)
      (left : Derivation (.expression l)) (sign : TokenOf op.kind) (right : Derivation (.expression l')) :
      Derivation (.expression l)
  | unary {op : UnaryOp} (sign : TokenOf op.kind) (operand : Derivation (.expression .prefixed)) :
      Derivation (.expression .prefixed)
  | call (callee : Derivation (.expression .called)) (opening : TokenOf .leftParen) (arguments : Derivation .arguments)
      (closing : TokenOf .rightParen) : Derivation (.expression .called)
  | group (opening : TokenOf .leftParen) (inside : Derivation (.expression .equality)) (closing : TokenOf .rightParen) :
      Derivation (.expression .called)
  | atom (a : Atom) : Derivation (.expression .called)
  | none : Derivation .arguments
  | some (items : Derivation .items) : Derivation .arguments
  | last (item : Derivation (.expression .equality)) : Derivation .items
  | more (item : Derivation (.expression .equality)) (comma : TokenOf .comma) (items : Derivation .items) :
      Derivation .items

namespace Derivation

/-- The tokens that a derivation is of. -/
def tokens : {n : Nonterminal} → Derivation n → List Token
  | _, tighter _ inside => inside.tokens
  | _, link _ _ left sign right => left.tokens ++ sign.val :: right.tokens
  | _, unary sign operand => sign.val :: operand.tokens
  | _, call callee opening arguments closing => callee.tokens ++ opening.val :: (arguments.tokens ++ [closing.val])
  | _, group opening inside closing => opening.val :: (inside.tokens ++ [closing.val])
  | _, atom a => a.tokens
  | _, none => []
  | _, some items => items.tokens
  | _, last item => item.tokens
  | _, more item comma items => item.tokens ++ comma.val :: items.tokens

/-- The tree of a derivation. Grouping leaves no trace in it. -/
def tree : {n : Nonterminal} → Derivation n → n.Tree
  | _, tighter _ inside => inside.tree
  | _, @link _ _ op _ _ left _ right => Expr.binary left.tree op right.tree
  | _, @unary op _ operand => Expr.unary op operand.tree
  | _, call callee _ arguments _ => Expr.call callee.tree arguments.tree
  | _, group _ inside _ => inside.tree
  | _, atom a => a.tree
  | _, none => []
  | _, some items => items.tree
  | _, last item => [item.tree]
  | _, more item _ items => List.cons item.tree items.tree

end Derivation

/-! ## Levels and strengths -/

namespace Layer

/-- How strongly the operators of a level bind. -/
def precedence : Layer → Precedence
  | equality => .equality
  | comparison => .comparison
  | sum => .sum
  | product => .product
  | prefixed => .unary
  | called => .call

/-- The strength below which a phrase of a level is read as a whole. What begins with an operator
    for one operand is read as a whole in front of its operators, too. -/
def bound : Layer → Precedence
  | prefixed => .call
  | l => l.precedence

/-- The level of what is read behind an operator of a given strength. -/
def above : Precedence → Layer
  | .lowest => equality
  | .equality => comparison
  | .comparison => sum
  | .sum => product
  | .product | .unary | .call => prefixed

end Layer

theorem lt_iff_rank {p q : Precedence} : p < q ↔ p.rank < q.rank := Iff.rfl

/-- The level of an operator, and of what stands on its right. -/
theorem exists_layer (op : BinaryOp) :
    ∃ l : Layer, op ∈ l.operators ∧ l.tighter? = some (Layer.above op.kind.precedence) := by
  cases op with
  | equal | notEqual => exact ⟨.equality, by decide, rfl⟩
  | less | lessEqual | greater | greaterEqual => exact ⟨.comparison, by decide, rfl⟩
  | add | subtract => exact ⟨.sum, by decide, rfl⟩
  | multiply | divide => exact ⟨.product, by decide, rfl⟩

section

variable {l l' : Layer}

theorem precedence_of_listed {op : BinaryOp} (listed : op ∈ l.operators) :
    op.kind.precedence = l.precedence ∧ l.bound = l.precedence := by
  revert op
  cases l <;> decide

theorem rank_tighter (next : l.tighter? = some l') : l'.precedence.rank = l.precedence.rank + 1 := by
  cases l <;> cases next <;> rfl

theorem rank_bound_tighter (next : l.tighter? = some l') : l.precedence.rank < l'.bound.rank := by
  cases l <;> cases next <;> decide

theorem rank_bound_le (next : l.tighter? = some l') : l.bound.rank ≤ l'.bound.rank := by
  cases l <;> cases next <;> decide

theorem exists_tighter (looser : l.precedence < l'.precedence) : ∃ l'', l.tighter? = some l'' := by
  cases l with
  | called => cases l' <;> exact absurd looser (by decide)
  | _ => exact ⟨_, rfl⟩

/-- What is read as a whole can stand where something of a given strength is read. -/
theorem above_le_of_lt_bound {minimum : Precedence} (within : minimum < l.bound) :
    ¬ l.precedence < (Layer.above minimum).precedence := by
  revert within
  cases l <;> cases minimum <;> decide

end

end Stepwise
