import Mathlib.Data.List.Basic
import Stepwise.Token.Basic

/-!
The grammar of scripts, over the kinds of their tokens (`Derives`). It is ambiguous: nothing
in it says how operators group, and since the semicolon behind an expression may be left out,
`-` and `(` can go on with it or begin the next statement. Two facts make up for that. An
expression is an operand with operators and calls behind it, whatever the grouping
(`operand_tail_of_derives`), and a script can be cut into statements of which none could go
on with the next (`cut_of_script`).
-/
namespace Stepwise

namespace Kind

/-- The operators between two operands. -/
def betweenOperands : List Kind :=
  [.plus, .minus, .star, .slash, .equalEqual, .bangEqual, .less, .lessEqual, .greater, .greaterEqual]

/-- The operators in front of an operand. -/
def beforeOperand : List Kind := [.bang, .minus]

/-- What stands for a value by itself. -/
def literals : List Kind := [.number, .string, .trueWord, .falseWord]

/-- The names of types. -/
def types : List Kind := [.numberType, .stringType, .boolType]

end Kind

/-- Words with a separator between them. -/
inductive Separated (separator : Kind) : List Kind → Prop where
  | word : Separated separator [.identifier]
  | more {words : List Kind} (rest : Separated separator words) :
      Separated separator (.identifier :: separator :: words)

theorem head_of_separated {separator k : Kind} {words : List Kind} (separated : Separated separator (k :: words)) :
    k = .identifier := by
  cases separated <;> rfl

/-- The end of a statement behind its expression: a semicolon, which may be left out. -/
def endings : List (List Kind) := [[], [.semicolon]]

/-- What the grammar has rules for. -/
inductive Phrase where
  | script | statement | block | expression | arguments | items
deriving DecidableEq

/-- The kinds of the tokens of a phrase. -/
inductive Derives : Phrase → List Kind → Prop where
  | nothing : Derives .script []
  | more {s rest : List Kind} (statement : Derives .statement s) (script : Derives .script rest) :
      Derives .script (s ++ rest)
  | declare {type : Kind} (named : type ∈ Kind.types) :
      Derives .statement [.letWord, .identifier, .colon, type, .semicolon]
  | initialise {type : Kind} {e ending : List Kind} (named : type ∈ Kind.types) (value : Derives .expression e)
      (ends : ending ∈ endings) :
      Derives .statement ([.letWord, .identifier, .colon, type, .equal] ++ e ++ ending)
  | assign {e ending : List Kind} (value : Derives .expression e) (ends : ending ∈ endings) :
      Derives .statement ([.identifier, .equal] ++ e ++ ending)
  | giveBack {e ending : List Kind} (value : Derives .expression e) (ends : ending ∈ endings) :
      Derives .statement ([.returnWord] ++ e ++ ending)
  | evaluate {e ending : List Kind} (value : Derives .expression e) (ends : ending ∈ endings) :
      Derives .statement (e ++ ending)
  | inner {b : List Kind} (body : Derives .block b) : Derives .statement b
  | branch {c b : List Kind} (condition : Derives .expression c) (consequence : Derives .block b) :
      Derives .statement ([.ifWord, .leftParen] ++ c ++ [.rightParen] ++ b)
  | choice {c b b' : List Kind} (condition : Derives .expression c) (consequence : Derives .block b)
      (alternative : Derives .block b') :
      Derives .statement ([.ifWord, .leftParen] ++ c ++ [.rightParen] ++ b ++ [.elseWord] ++ b')
  | loop {c b : List Kind} (condition : Derives .expression c) (body : Derives .block b) :
      Derives .statement ([.whileWord, .leftParen] ++ c ++ [.rightParen] ++ b)
  | define {names b : List Kind} (parameters : names = [] ∨ Separated .comma names) (body : Derives .block b) :
      Derives .statement ([.funcWord, .identifier, .leftParen] ++ names ++ [.rightParen] ++ b)
  | braces {s : List Kind} (script : Derives .script s) : Derives .block ([.leftBrace] ++ s ++ [.rightBrace])
  | name {path : List Kind} (dotted : Separated .dot path) : Derives .expression path
  | literal {k : Kind} (plain : k ∈ Kind.literals) : Derives .expression [k]
  | group {e : List Kind} (inside : Derives .expression e) :
      Derives .expression ([.leftParen] ++ e ++ [.rightParen])
  | unary {op : Kind} {e : List Kind} (before : op ∈ Kind.beforeOperand) (operand : Derives .expression e) :
      Derives .expression ([op] ++ e)
  | binary {op : Kind} {l r : List Kind} (between : op ∈ Kind.betweenOperands) (left : Derives .expression l)
      (right : Derives .expression r) : Derives .expression (l ++ [op] ++ r)
  | call {f a : List Kind} (callee : Derives .expression f) (arguments : Derives .arguments a) :
      Derives .expression (f ++ [.leftParen] ++ a ++ [.rightParen])
  | none : Derives .arguments []
  | some {es : List Kind} (items : Derives .items es) : Derives .arguments es
  | last {e : List Kind} (item : Derives .expression e) : Derives .items e
  | item {e es : List Kind} (item : Derives .expression e) (items : Derives .items es) :
      Derives .items (e ++ [.comma] ++ es)

/-! ## The kinds in a phrase -/

/-- The kinds that occur in expressions. -/
def Kind.inExpression : Kind → Bool
  | .plus | .minus | .star | .slash | .bang | .equalEqual | .bangEqual => true
  | .less | .lessEqual | .greater | .greaterEqual => true
  | .number | .string | .trueWord | .falseWord => true
  | .identifier | .dot | .comma | .leftParen | .rightParen => true
  | _ => false

/-- The kinds that occur in scripts. -/
def Kind.inScript : Kind → Bool
  | .illegal | .leftBracket | .rightBracket | .eof => false
  | _ => true

theorem inScript_of_inExpression {k : Kind} (known : k.inExpression = true) : k.inScript = true := by
  cases k <;> first | rfl | cases known

/-- The kinds that a phrase admits. -/
def Phrase.admits : Phrase → Kind → Bool
  | expression | arguments | items => Kind.inExpression
  | script | statement | block => Kind.inScript

theorem inExpression_of_separated {separator : Kind} (known : separator.inExpression = true) {words : List Kind}
    (separated : Separated separator words) : ∀ k ∈ words, k.inExpression = true := by
  induction separated with
  | word => simp only [List.forall_mem_singleton, Kind.inExpression]
  | more rest ih =>
    simp only [List.forall_mem_cons]
    exact ⟨rfl, known, ih⟩

theorem inScript_of_ending {ending : List Kind} (ends : ending ∈ endings) : ∀ k ∈ ending, k.inScript = true := by
  revert ending
  decide

theorem admits_of_derives {p : Phrase} {ks : List Kind} (derives : Derives p ks) : ∀ k ∈ ks, p.admits k = true := by
  have widen : ∀ {ks : List Kind}, (∀ k ∈ ks, k.inExpression = true) → ∀ k ∈ ks, k.inScript = true :=
    fun known k member => inScript_of_inExpression (known k member)
  induction derives with
  | nothing => simp
  | more statement script ihs ihr => exact List.forall_mem_append.mpr ⟨ihs, ihr⟩
  | @declare type named =>
    have known : type.inScript = true := by
      revert type
      decide
    simp only [List.forall_mem_cons]
    exact ⟨rfl, rfl, rfl, known, rfl, by simp⟩
  | @initialise type e ending named value ends ih =>
    have known : type.inScript = true := by
      revert type
      decide
    simp only [List.forall_mem_append, List.forall_mem_cons]
    exact ⟨⟨⟨rfl, rfl, rfl, known, rfl, by simp⟩, widen ih⟩, inScript_of_ending ends⟩
  | assign value ends ih =>
    simp only [List.forall_mem_append, List.forall_mem_cons]
    exact ⟨⟨⟨rfl, rfl, by simp⟩, widen ih⟩, inScript_of_ending ends⟩
  | giveBack value ends ih =>
    simp only [List.forall_mem_append, List.forall_mem_singleton]
    exact ⟨⟨rfl, widen ih⟩, inScript_of_ending ends⟩
  | evaluate value ends ih =>
    exact List.forall_mem_append.mpr ⟨widen ih, inScript_of_ending ends⟩
  | inner body ih => exact ih
  | branch condition consequence ihc ihb =>
    simp only [List.forall_mem_append, List.forall_mem_cons]
    exact ⟨⟨⟨⟨rfl, rfl, by simp⟩, widen ihc⟩, rfl, by simp⟩, ihb⟩
  | choice condition consequence alternative ihc ihb iha =>
    simp only [List.forall_mem_append, List.forall_mem_cons]
    exact ⟨⟨⟨⟨⟨⟨rfl, rfl, by simp⟩, widen ihc⟩, rfl, by simp⟩, ihb⟩, rfl, by simp⟩, iha⟩
  | loop condition body ihc ihb =>
    simp only [List.forall_mem_append, List.forall_mem_cons]
    exact ⟨⟨⟨⟨rfl, rfl, by simp⟩, widen ihc⟩, rfl, by simp⟩, ihb⟩
  | @define names b parameters body ih =>
    have known : ∀ k ∈ names, k.inExpression = true := by
      rcases parameters with rfl | separated
      · simp
      · exact inExpression_of_separated rfl separated
    simp only [List.forall_mem_append, List.forall_mem_cons]
    exact ⟨⟨⟨⟨rfl, rfl, rfl, by simp⟩, widen known⟩, rfl, by simp⟩, ih⟩
  | braces script ih =>
    simp only [List.forall_mem_append, List.forall_mem_singleton]
    exact ⟨⟨rfl, ih⟩, rfl⟩
  | name dotted => exact inExpression_of_separated rfl dotted
  | @literal k plain =>
    rw [List.forall_mem_singleton]
    revert k
    decide
  | group inside ih =>
    simp only [List.forall_mem_append, List.forall_mem_singleton]
    exact ⟨⟨rfl, ih⟩, rfl⟩
  | @unary op e before operand ih =>
    have known : op.inExpression = true := by
      revert op
      decide
    exact List.forall_mem_cons.mpr ⟨known, ih⟩
  | @binary op l r between left right ihl ihr =>
    have known : op.inExpression = true := by
      revert op
      decide
    simp only [List.forall_mem_append, List.forall_mem_singleton]
    exact ⟨⟨ihl, known⟩, ihr⟩
  | call callee arguments ihf iha =>
    simp only [List.forall_mem_append, List.forall_mem_singleton]
    exact ⟨⟨⟨ihf, rfl⟩, iha⟩, rfl⟩
  | none => simp
  | some items ih => exact ih
  | last item ih => exact ih
  | item item items ih ihs =>
    simp only [List.forall_mem_append, List.forall_mem_singleton]
    exact ⟨⟨ih, rfl⟩, ihs⟩

/-! ## Expressions without grouping -/

/-- An operand: what stands for a value by itself, behind any operators for one operand. -/
inductive Operand : List Kind → Prop where
  | name {path : List Kind} (dotted : Separated .dot path) : Operand path
  | literal {k : Kind} (plain : k ∈ Kind.literals) : Operand [k]
  | group {e : List Kind} (inside : Derives .expression e) : Operand ([.leftParen] ++ e ++ [.rightParen])
  | unary {op : Kind} {o : List Kind} (before : op ∈ Kind.beforeOperand) (operand : Operand o) : Operand (op :: o)

/-- What goes on behind an operand: calls, and operators with their right operands. -/
inductive Tail : List Kind → Prop where
  | stop : Tail []
  | call {a rest : List Kind} (arguments : Derives .arguments a) (tail : Tail rest) :
      Tail ([.leftParen] ++ a ++ [.rightParen] ++ rest)
  | operator {op : Kind} {o rest : List Kind} (between : op ∈ Kind.betweenOperands) (operand : Operand o)
      (tail : Tail rest) : Tail (op :: (o ++ rest))

theorem Tail.append {s t : List Kind} (first : Tail s) (second : Tail t) : Tail (s ++ t) := by
  induction first with
  | stop => exact second
  | @call a rest arguments tail ih =>
    rw [List.append_assoc]
    exact .call arguments ih
  | @operator op o rest between operand tail ih =>
    rw [List.cons_append, List.append_assoc]
    exact .operator between operand ih

/-- An expression is an operand with a tail. -/
theorem operand_tail_of_derives {e : List Kind} (derives : Derives .expression e) :
    ∃ o t, Operand o ∧ Tail t ∧ e = o ++ t := by
  generalize phrase : Phrase.expression = p at derives
  induction derives with
  | name dotted => exact ⟨_, [], .name dotted, .stop, by simp⟩
  | literal plain => exact ⟨_, [], .literal plain, .stop, by simp⟩
  | group inside => exact ⟨_, [], .group inside, .stop, by simp⟩
  | unary before inside ih =>
    obtain ⟨o, t, operand, tail, rfl⟩ := ih rfl
    exact ⟨_, t, .unary before operand, tail, rfl⟩
  | binary between left right ihl ihr =>
    obtain ⟨o, t, operand, tail, rfl⟩ := ihl rfl
    obtain ⟨o', t', operand', tail', rfl⟩ := ihr rfl
    exact ⟨o, _, operand, tail.append (.operator between operand' tail'), by simp⟩
  | call callee arguments ih =>
    obtain ⟨o, t, operand, tail, rfl⟩ := ih rfl
    exact ⟨o, _, operand, tail.append (.call arguments .stop), by simp⟩
  | _ => cases phrase

theorem derives_of_operand {o : List Kind} (operand : Operand o) : Derives .expression o := by
  induction operand with
  | name dotted => exact .name dotted
  | literal plain => exact .literal plain
  | group inside => exact .group inside
  | unary before operand ih => exact .unary before ih

/-- Any tail goes on with an expression. -/
theorem derives_tail {e t : List Kind} (derives : Derives .expression e) (tail : Tail t) :
    Derives .expression (e ++ t) := by
  induction tail generalizing e with
  | stop => simpa using derives
  | call arguments tail ih => simpa using ih (.call derives arguments)
  | operator between operand tail ih => simpa using ih (.binary between derives (derives_of_operand operand))

/-! ## Statements that go on -/

/-- The kinds that begin an expression. -/
def Kind.opensExpression : Kind → Bool
  | .identifier | .number | .string | .trueWord | .falseWord => true
  | .leftParen | .bang | .minus => true
  | _ => false

/-- The kinds that begin a statement. -/
def Kind.opensStatement : Kind → Bool
  | .letWord | .returnWord | .ifWord | .whileWord | .funcWord | .leftBrace => true
  | k => k.opensExpression

/-- The kinds that begin an expression and go on with one, too. -/
def Kind.goesOn : Kind → Bool
  | .minus | .leftParen => true
  | _ => false

/-- The kinds behind which an expression does not go on. -/
def Kind.seals : Kind → Bool
  | .semicolon | .rightBrace => true
  | _ => false

theorem opens_of_operand {o : List Kind} (operand : Operand o) :
    ∃ k rest, o = k :: rest ∧ k.opensExpression = true := by
  cases operand with
  | name dotted => cases dotted <;> exact ⟨_, _, rfl, rfl⟩
  | @literal k plain =>
    refine ⟨k, [], rfl, ?_⟩
    revert k
    decide
  | group inside => exact ⟨_, _, rfl, rfl⟩
  | @unary op o before operand =>
    refine ⟨op, o, rfl, ?_⟩
    revert op
    decide

theorem opens_of_expression {e : List Kind} (derives : Derives .expression e) :
    ∃ k rest, e = k :: rest ∧ k.opensExpression = true := by
  obtain ⟨o, t, operand, -, rfl⟩ := operand_tail_of_derives derives
  obtain ⟨k, rest, rfl, opens⟩ := opens_of_operand operand
  exact ⟨k, rest ++ t, rfl, opens⟩

theorem opens_of_items {es : List Kind} (derives : Derives .items es) :
    ∃ k rest, es = k :: rest ∧ k.opensExpression = true := by
  cases derives with
  | last item => exact opens_of_expression item
  | @item e es item items =>
    obtain ⟨k, rest, rfl, opens⟩ := opens_of_expression item
    exact ⟨k, rest ++ [.comma] ++ es, rfl, opens⟩

theorem opens_of_block {b : List Kind} (derives : Derives .block b) : ∃ rest, b = .leftBrace :: rest := by
  cases derives with
  | braces script => exact ⟨_, rfl⟩

theorem opensStatement_of_opensExpression {k : Kind} (opens : k.opensExpression = true) : k.opensStatement = true := by
  cases k <;> first | rfl | cases opens

theorem opens_of_statement {s : List Kind} (derives : Derives .statement s) :
    ∃ k rest, s = k :: rest ∧ k.opensStatement = true := by
  cases derives with
  | @evaluate e ending value ends =>
    obtain ⟨k, rest, rfl, opens⟩ := opens_of_expression value
    exact ⟨k, rest ++ ending, rfl, opensStatement_of_opensExpression opens⟩
  | inner body =>
    obtain ⟨rest, rfl⟩ := opens_of_block body
    exact ⟨_, rest, rfl, rfl⟩
  | _ => exact ⟨_, _, rfl, rfl⟩

theorem opens_of_script {k : Kind} {ks : List Kind} (derives : Derives .script (k :: ks)) :
    k.opensStatement = true := by
  generalize script : k :: ks = all at derives
  generalize phrase : Phrase.script = p at derives
  induction derives with
  | nothing => cases script
  | more statement rest =>
    obtain ⟨l, more, rfl, opens⟩ := opens_of_statement statement
    obtain ⟨rfl, -⟩ := List.cons_eq_cons.mp script
    exact opens
  | _ => cases phrase

/-- An expression in front of another that begins with a minus sign or a parenthesis goes on
    with it. -/
theorem derives_append {e e' rest : List Kind} {k : Kind} (first : Derives .expression e)
    (second : Derives .expression e') (begins : e' = k :: rest) (goes : k.goesOn = true) :
    Derives .expression (e ++ e') := by
  obtain ⟨o, t, operand, tail, rfl⟩ := operand_tail_of_derives second
  rw [← List.append_assoc]
  refine derives_tail ?_ tail
  cases operand with
  | name dotted =>
    cases dotted with
    | _ =>
      cases begins
      cases goes
  | literal plain =>
    cases begins
    have stays : ∀ k ∈ Kind.literals, k.goesOn = false := by decide
    rw [stays k plain] at goes
    cases goes
  | group inside => simpa using Derives.call first (.some (.last inside))
  | @unary op o before operand =>
    cases begins
    have both : ∀ k ∈ Kind.beforeOperand, k.goesOn = true → k ∈ Kind.betweenOperands := by decide
    have between := both k before goes
    simpa using Derives.binary between first (derives_of_operand operand)

/-- What does not end with an expression that could go on with `rest`. -/
def Parted (s rest : List Kind) : Prop :=
  (∀ k ∈ s.getLast?, k.seals = true) ∨ ∀ k ∈ rest.head?, k.goesOn = false

theorem parted_of_sealed {s : List Kind} {k : Kind} (sealing : k.seals = true) (rest : List Kind) :
    Parted (s ++ [k]) rest := by
  refine .inl ?_
  simpa using sealing

theorem sealed_of_block {b : List Kind} (derives : Derives .block b) : ∃ front, b = front ++ [.rightBrace] := by
  cases derives with
  | braces script => exact ⟨_, rfl⟩

/-- Only an expression begins so that another could go on with it. -/
theorem expression_of_goesOn {s rest : List Kind} {k : Kind} (derives : Derives .statement s) (begins : s = k :: rest)
    (goes : k.goesOn = true) :
    ∃ e ending more, s = e ++ ending ∧ Derives .expression e ∧ ending ∈ endings ∧ e = k :: more := by
  cases derives with
  | @evaluate e ending value ends =>
    obtain ⟨l, more, rfl, -⟩ := opens_of_expression value
    cases begins
    exact ⟨_, ending, more, rfl, value, ends, rfl⟩
  | inner body =>
    obtain ⟨more, rfl⟩ := opens_of_block body
    cases begins
    cases goes
  | _ =>
    cases begins
    cases goes

/-- A statement that ends with an expression, and another that begins so that the expression
    goes on with it, are one statement. -/
theorem statement_append {s s' : List Kind} (first : Derives .statement s) (second : Derives .statement s')
    (joined : ¬ Parted s s') : Derives .statement (s ++ s') := by
  obtain ⟨k, rest, begins, -⟩ := opens_of_statement second
  have goes : k.goesOn = true := by
    by_contra stays
    exact joined (.inr (by simpa [begins] using stays))
  obtain ⟨e', ending', more, rfl, value', ends', begins'⟩ := expression_of_goesOn second begins goes
  have grown : ∀ {e : List Kind}, Derives .expression e → Derives .expression (e ++ e') :=
    fun value => derives_append value value' begins' goes
  have bare : ∀ {front ending : List Kind}, ending ∈ endings → s = front ++ ending → ending = [] := by
    rintro front ending ends rfl
    rcases List.mem_cons.mp ends with rfl | last
    · rfl
    · obtain rfl := List.mem_singleton.mp last
      exact absurd (parted_of_sealed rfl _) joined
  cases first with
  | initialise named value ends =>
    obtain rfl := bare ends rfl
    simpa using Derives.initialise named (grown value) ends'
  | assign value ends =>
    obtain rfl := bare ends rfl
    simpa using Derives.assign (grown value) ends'
  | giveBack value ends =>
    obtain rfl := bare ends rfl
    simpa using Derives.giveBack (grown value) ends'
  | evaluate value ends =>
    obtain rfl := bare ends rfl
    simpa using Derives.evaluate (grown value) ends'
  | @declare type named => exact absurd (parted_of_sealed (s := [_, _, _, type]) rfl _) joined
  | inner body =>
    obtain ⟨front, rfl⟩ := sealed_of_block body
    exact absurd (parted_of_sealed rfl _) joined
  | branch _ body | choice _ _ body | loop _ body | define _ body =>
    obtain ⟨front, rfl⟩ := sealed_of_block body
    refine absurd ?_ joined
    simp only [← List.append_assoc]
    exact parted_of_sealed rfl _

/-- The first of the statements of a script can be chosen so that it could not go on with the
    second. -/
theorem cut_of_script {ks : List Kind} (derives : Derives .script ks) :
    ks = [] ∨ ∃ s rest, ks = s ++ rest ∧ Derives .statement s ∧ Derives .script rest ∧ Parted s rest := by
  generalize phrase : Phrase.script = p at derives
  induction derives with
  | nothing => exact .inl rfl
  | @more s rest statement script ihs ihr =>
    refine .inr ?_
    by_cases parted : Parted s rest
    · exact ⟨s, rest, rfl, statement, script, parted⟩
    · rcases ihr rfl with rfl | ⟨s', rest', rfl, statement', script', parted'⟩
      · exact absurd (.inr (by simp)) parted
      · obtain ⟨k, more, rfl, -⟩ := opens_of_statement statement'
        have joined : ¬ Parted s (k :: more) := parted
        refine ⟨s ++ (k :: more), rest', by simp, statement_append statement statement' joined, script', ?_⟩
        rcases parted' with sealed | apart
        · refine .inl ?_
          rw [List.getLast?_append_of_ne_nil s (List.cons_ne_nil k more)]
          exact sealed
        · exact .inr apart
  | _ => cases phrase

end Stepwise
