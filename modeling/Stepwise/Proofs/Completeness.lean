import Stepwise.Proofs.Reading

/-!
What is derived is read: expressions. Whatever an expression looks like to the grammar, it is an
operand with a tail, and reading goes along the tail as far as it binds strongly enough
(`complete_operators`, `complete_expression`). At the lowest strength nothing of it is left
(`readExpr_complete`).
-/
namespace Stepwise

/-- What stands behind an expression and does not go on with it. -/
def Stops (rest : List Token) : Prop :=
  (Failure.nextKind rest).precedence = .lowest ∧ Failure.nextKind rest ≠ .dot

/-- Reading succeeds and leaves such tokens. -/
def Reading.Leaves {α : Type} {whole : List Token} (x : Reading α whole) (P : List Token → Prop) : Prop :=
  ∃ a r, x = .ok (a, r) ∧ P r.tokens

section

variable {α β : Type} {whole : List Token} {P Q : List Token → Prop}

theorem Reading.Leaves.bind {x : Reading α whole} {f : α × Rest whole → Reading β whole} (leaves : x.Leaves P)
    (next : ∀ a r, P r.tokens → (f (a, r)).Leaves Q) : Reading.Leaves (x >>= f) Q := by
  obtain ⟨a, r, rfl, left⟩ := leaves
  exact next a r left

theorem Reading.Leaves.inside {r : Rest whole} {x : Reading α r.tokens} (leaves : x.Leaves P) :
    (Reading.inside r x).Leaves P := by
  obtain ⟨a, inner, rfl, left⟩ := leaves
  exact ⟨a, r.within inner, rfl, left⟩

/-- What is left is less than there was. -/
theorem Reading.Leaves.fewer {x : Reading α whole} (leaves : x.Leaves P) :
    x.Leaves fun tokens => P tokens ∧ tokens.length < whole.length := by
  obtain ⟨a, r, read, left⟩ := leaves
  exact ⟨a, r, read, left, r.shorter⟩

end

/-- What is left where an expression stops whose operators bind more strongly than `minimum`:
    a tail that does not bind so strongly, in front of `rest`. -/
structure Left (minimum : Precedence) (rest tokens : List Token) : Prop where
  tail : ∃ u, tokens = u ++ rest ∧ Tail (u.map Token.kind)
  weaker : ¬ minimum < (Failure.nextKind tokens).precedence

theorem weaker_of_lowest (minimum : Precedence) {p : Precedence} (lowest : p = .lowest) : ¬ minimum < p := by
  subst lowest
  exact Nat.not_lt_zero _

/-- Every tail binds more strongly than anything that stops an expression. -/
theorem nil_of_left {rest tokens : List Token} (left : Left .lowest rest tokens) : tokens = rest := by
  obtain ⟨⟨u, rfl, tail⟩, weaker⟩ := left
  cases u with
  | nil => rfl
  | cons t u =>
    have strong : ∀ k ∈ Kind.betweenOperands, Precedence.lowest < k.precedence := by decide
    generalize kinds : (t :: u).map Token.kind = ks at tail
    rw [List.map_cons] at kinds
    cases tail with
    | stop => cases kinds
    | call arguments tail =>
      obtain ⟨opens, -⟩ := List.cons_eq_cons.mp kinds
      refine absurd ?_ weaker
      show Precedence.lowest < t.kind.precedence
      rw [opens]
      decide
    | operator between operand tail =>
      obtain ⟨same, -⟩ := List.cons_eq_cons.mp kinds
      refine absurd ?_ weaker
      show Precedence.lowest < t.kind.precedence
      rw [same]
      exact strong _ between

section

variable {whole : List Token} {minimum : Precedence}

theorem readPath_complete {dots rest : List Token} (path : String)
    (separated : Separated .dot (.identifier :: dots.map Token.kind)) (next : Failure.nextKind rest ≠ .dot) :
    ∃ name, readPath path (dots ++ rest) = .ok (name, rest) := by
  generalize words : Kind.identifier :: dots.map Token.kind = ks at separated
  induction separated generalizing dots path with
  | word =>
    obtain rfl : dots = [] := by simpa using words
    cases rest with
    | nil => exact ⟨path, rfl⟩
    | cons d ahead =>
      have other : d.kind ≠ .dot := next
      refine ⟨path, ?_⟩
      rw [List.nil_append, readPath.eq_def]
      exact if_neg other
  | more separated ih =>
    obtain ⟨-, words⟩ := List.cons_eq_cons.mp words
    obtain ⟨d, dots, rfl, isDot, words⟩ := List.map_eq_cons_iff.mp words
    cases dots with
    | nil => cases separated <;> cases words
    | cons w dots =>
      have isWord : w.kind = .identifier := by
        rw [← words] at separated
        exact head_of_separated separated
      rw [List.map_cons, isWord] at words
      obtain ⟨name, read⟩ := ih (path ++ "." ++ w.literal) words
      exact ⟨name, by simp [readPath, isDot, isWord, read]⟩

theorem path_of_readPath {r : Rest whole} {word name : String} {rest : List Token}
    (read : readPath word r.tokens = .ok (name, rest)) : (r.path word).Leaves (· = rest) := by
  rw [Rest.path]
  split
  · next f failed =>
    rw [read] at failed
    cases failed
  · next name' rest' found =>
    rw [read] at found
    cases found
    exact ⟨_, _, rfl, rfl⟩

end

/-- The readers of expressions read whatever is shorter than `n` and derived. -/
structure Complete (n : Nat) : Prop where
  expression : ∀ {used rest : List Token} (minimum : Precedence), used.length < n →
    Derives .expression (used.map Token.kind) → Stops rest →
    (readExpr minimum (used ++ rest)).Leaves (Left minimum rest)
  operators : ∀ {whole used rest : List Token} {r : Rest whole} (minimum : Precedence) (left : Expr),
    used.length < n → r.tokens = used ++ rest → Tail (used.map Token.kind) → Stops rest →
    (readOperators minimum left r).Leaves (Left minimum rest)
  arguments : ∀ {used : List Token} {t : Token} (rest : List Token), used.length < n →
    Derives .arguments (used.map Token.kind) → t.kind = .rightParen →
    (readArguments (used ++ t :: rest)).Leaves (· = rest)
  items : ∀ {used : List Token} {t : Token} (rest : List Token), used.length < n →
    Derives .items (used.map Token.kind) → t.kind = .rightParen →
    (readItems (used ++ t :: rest)).Leaves (· = rest)

section

variable {n : Nat} {used rest : List Token} {minimum : Precedence}

/-- A tail that does not bind strongly enough is left as a whole. -/
theorem leaves_stop {whole : List Token} {r : Rest whole} (left : Expr) (split : r.tokens = used ++ rest)
    (tail : Tail (used.map Token.kind)) (weaker : ¬ minimum < (Failure.nextKind (used ++ rest)).precedence) :
    (readOperators minimum left r).Leaves (Left minimum rest) := by
  rw [← split] at weaker
  refine ⟨left, r, readOperators_stop left weaker, ⟨used, split, tail⟩, weaker⟩

theorem complete_operators (complete : Complete n) {whole : List Token} {r : Rest whole} (left : Expr)
    (short : used.length ≤ n) (split : r.tokens = used ++ rest) (tail : Tail (used.map Token.kind))
    (stops : Stops rest) : (readOperators minimum left r).Leaves (Left minimum rest) := by
  by_cases stronger : minimum < (Failure.nextKind (used ++ rest)).precedence
  swap
  · exact leaves_stop left split tail stronger
  obtain ⟨tokens, shorter⟩ := r
  obtain rfl : tokens = used ++ rest := split
  generalize kinds : used.map Token.kind = ks at tail
  cases tail with
  | stop =>
    obtain rfl : used = [] := List.map_eq_nil_iff.mp kinds
    exact absurd stronger (weaker_of_lowest minimum stops.1)
  | @call a ks' arguments tail =>
    simp only [List.append_assoc, List.singleton_append] at kinds
    obtain ⟨t, used₁, rfl, opens, kinds₁⟩ := List.map_eq_cons_iff.mp kinds
    obtain ⟨inside, used₂, rfl, rfl, kinds₂⟩ := List.map_eq_append_iff.mp kinds₁
    obtain ⟨c, used₃, rfl, closes, rfl⟩ := List.map_eq_cons_iff.mp kinds₂
    simp only [List.length_cons, List.length_append] at short
    have noOperator : t.kind.binaryOp? = none := by rw [opens]; rfl
    have strong : minimum < t.kind.precedence := stronger
    simp only [List.cons_append, List.append_assoc]
    rw [readOperators_call left strong noOperator]
    refine (complete.arguments (used₃ ++ rest) (by omega) arguments closes).inside.bind ?_
    intro es r left
    exact complete.operators minimum _ (by omega) left tail stops
  | @operator op o ks' between operand tail =>
    obtain ⟨t, used₁, rfl, same, kinds₁⟩ := List.map_eq_cons_iff.mp kinds
    simp only [List.length_cons] at short
    have derives : Derives .expression (used₁.map Token.kind) := by
      rw [kinds₁]
      exact derives_tail (derives_of_operand operand) tail
    have known : ∀ k ∈ Kind.betweenOperands, k.binaryOp?.isSome = true := by decide
    obtain ⟨b, found⟩ := Option.isSome_iff_exists.mp (known op between)
    rw [← same] at found
    have strong : minimum < t.kind.precedence := stronger
    simp only [List.cons_append]
    rw [readOperators_binary left strong found]
    refine (complete.expression t.kind.precedence (by omega) derives stops).fewer.inside.bind ?_
    rintro e r ⟨⟨⟨u, split', tail'⟩, -⟩, less⟩
    rw [split'] at less
    simp only [List.length_append] at less
    exact complete.operators minimum _ (by omega) split' tail' stops

/-- What can stand behind an operand. -/
theorem next_of_tail {tail : List Token} (derives : Tail (tail.map Token.kind)) (stops : Stops rest) :
    Failure.nextKind (tail ++ rest) ≠ .dot := by
  cases tail with
  | nil => exact stops.2
  | cons t tail =>
    show t.kind ≠ .dot
    have known : ∀ k ∈ Kind.betweenOperands, k ≠ .dot := by decide
    generalize kinds : (t :: tail).map Token.kind = ks at derives
    cases derives with
    | stop => cases kinds
    | call arguments tail =>
      obtain ⟨opens, -⟩ := List.cons_eq_cons.mp kinds
      rw [opens]
      decide
    | operator between operand tail =>
      obtain ⟨same, -⟩ := List.cons_eq_cons.mp kinds
      rw [same]
      exact known _ between

theorem stops_of_kind {t : Token} {k : Kind} (same : t.kind = k) (lowest : k.precedence = .lowest) (other : k ≠ .dot)
    (ahead : List Token) : Stops (t :: ahead) := by
  subst same
  exact ⟨lowest, other⟩

theorem literal?_of_kind {t : Token} (literal : t.kind ∈ Kind.literals) : t.literal?.isSome = true := by
  unfold Token.literal?
  generalize t.kind = k at literal ⊢
  cases k <;> first | rfl | exact absurd literal (by decide)

theorem unaryOp?_of_kind {k : Kind} (before : k ∈ Kind.beforeOperand) : k.unaryOp?.isSome = true := by
  revert k
  decide

theorem leaves_expect {whole ahead : List Token} {r : Rest whole} {t : Token} {k : Kind} (split : r.tokens = t :: ahead)
    (same : t.kind = k) : (r.expect k).Leaves (· = ahead) := by
  obtain ⟨tokens, shorter⟩ := r
  obtain rfl : tokens = t :: ahead := split
  exact ⟨t, ⟨ahead, length_lt_of_cons shorter⟩, by simp only [Rest.expect, if_pos same], rfl⟩

theorem complete_expression (complete : Complete n) (minimum : Precedence) (short : used.length ≤ n)
    (derives : Derives .expression (used.map Token.kind)) (stops : Stops rest) :
    (readExpr minimum (used ++ rest)).Leaves (Left minimum rest) := by
  obtain ⟨o, tail, operand, tailed, kinds⟩ := operand_tail_of_derives derives
  obtain ⟨front, tail, rfl, rfl, rfl⟩ := List.map_eq_append_iff.mp kinds
  have next := next_of_tail tailed stops
  rw [List.length_append] at short
  rw [List.append_assoc]
  generalize same : front.map Token.kind = ks at operand
  cases operand with
  | name dotted =>
    cases front with
    | nil =>
      subst same
      cases dotted
    | cons t dots =>
      rw [List.map_cons] at same
      rw [← same] at dotted
      have isName := head_of_separated dotted
      rw [isName] at dotted
      obtain ⟨name, read⟩ := readPath_complete t.literal dotted next
      rw [List.length_cons] at short
      rw [List.cons_append, readExpr_name isName]
      refine (path_of_readPath (r := .behind t _) read).bind ?_
      intro name r left
      exact complete.operators minimum _ (by omega) left tailed stops
  | @literal k plain =>
    obtain ⟨t, rfl, rfl⟩ := List.map_eq_singleton_iff.mp same
    obtain ⟨e, literal⟩ := Option.isSome_iff_exists.mp (literal?_of_kind plain)
    rw [List.length_singleton] at short
    rw [List.singleton_append, readExpr_literal literal]
    exact complete.operators minimum e (by omega) rfl tailed stops
  | @group e inside =>
    simp only [List.singleton_append] at same
    obtain ⟨t, front₁, rfl, opens, same₁⟩ := List.map_eq_cons_iff.mp same
    obtain ⟨es, front₂, rfl, rfl, same₂⟩ := List.map_eq_append_iff.mp same₁
    obtain ⟨c, rfl, closes⟩ := List.map_eq_singleton_iff.mp same₂
    simp only [List.length_cons, List.length_append, List.length_nil] at short
    have shape : t :: (es ++ [c]) ++ (tail ++ rest) = t :: (es ++ c :: (tail ++ rest)) := by simp
    have closed : Stops (c :: (tail ++ rest)) := stops_of_kind closes rfl (by decide) (tail ++ rest)
    rw [shape, readExpr_group opens]
    refine (complete.expression .lowest (by omega) inside closed).inside.bind ?_
    intro e r left
    refine (leaves_expect (nil_of_left left) closes).bind ?_
    intro _ r left
    exact complete.operators minimum e (by omega) left tailed stops
  | @unary op o before operand =>
    obtain ⟨t, front₁, rfl, rfl, same₁⟩ := List.map_eq_cons_iff.mp same
    rw [List.length_cons] at short
    have inside : Derives .expression ((front₁ ++ tail).map Token.kind) := by
      rw [List.map_append, same₁]
      exact derives_tail (derives_of_operand operand) tailed
    have fewer : (front₁ ++ tail).length < n := by
      rw [List.length_append]
      omega
    obtain ⟨b, operator⟩ := Option.isSome_iff_exists.mp (unaryOp?_of_kind before)
    rw [List.cons_append, ← List.append_assoc, readExpr_unary operator]
    refine (complete.expression .unary fewer inside stops).fewer.inside.bind ?_
    rintro e r ⟨⟨⟨u, split, tail'⟩, -⟩, less⟩
    rw [split] at less
    simp only [List.length_append] at less
    exact complete.operators minimum _ (by omega) split tail' stops

theorem complete_items (complete : Complete n) {t : Token} (short : used.length ≤ n)
    (derives : Derives .items (used.map Token.kind)) (closes : t.kind = .rightParen) :
    (readItems (used ++ t :: rest)).Leaves (· = rest) := by
  generalize kinds : used.map Token.kind = ks at derives
  rw [readItems_eq]
  cases derives with
  | last item =>
    subst kinds
    refine (complete_expression complete .lowest short item (stops_of_kind closes rfl (by decide) rest)).bind ?_
    intro e r left
    have next : Failure.nextKind r.tokens ≠ .comma := by
      rw [nil_of_left left]
      show t.kind ≠ .comma
      rw [closes]
      decide
    simp only [if_neg next]
    refine (leaves_expect (nil_of_left left) closes).bind ?_
    intro _ r left
    exact ⟨_, r, rfl, left⟩
  | @item e es item items =>
    simp only [List.append_assoc, List.singleton_append] at kinds
    obtain ⟨front, used₁, rfl, rfl, kinds₁⟩ := List.map_eq_append_iff.mp kinds
    obtain ⟨c, used₂, rfl, comma, rfl⟩ := List.map_eq_cons_iff.mp kinds₁
    simp only [List.length_append, List.length_cons] at short
    have stops : Stops (c :: (used₂ ++ t :: rest)) := stops_of_kind comma rfl (by decide) _
    rw [List.append_assoc]
    refine (complete_expression complete .lowest (by omega) item stops).bind ?_
    intro e r left
    have next : Failure.nextKind r.tokens = .comma := by
      rw [nil_of_left left]
      exact comma
    simp only [if_pos next]
    refine (leaves_expect (nil_of_left left) comma).bind ?_
    intro _ r left
    have more := complete.items rest (by omega) items closes
    rw [← left] at more
    refine more.inside.bind ?_
    intro es r left
    exact ⟨_, r, rfl, left⟩

theorem complete_arguments (complete : Complete n) {t : Token} (short : used.length ≤ n)
    (derives : Derives .arguments (used.map Token.kind)) (closes : t.kind = .rightParen) :
    (readArguments (used ++ t :: rest)).Leaves (· = rest) := by
  cases used with
  | nil =>
    rw [List.nil_append, readArguments, if_pos closes]
    exact ⟨_, _, rfl, rfl⟩
  | cons u used =>
    have items : Derives .items ((u :: used).map Token.kind) := by
      generalize kinds : (u :: used).map Token.kind = ks at derives
      cases derives with
      | none => cases kinds
      | some items => exact items
    obtain ⟨k, more, begins, opens⟩ := opens_of_items items
    have notClosed : u.kind ≠ .rightParen := by
      rw [(List.cons_eq_cons.mp begins).1]
      rintro rfl
      cases opens
    rw [List.cons_append, readArguments, if_neg notClosed]
    exact complete_items complete short items closes

end

/-- What is derived is read. -/
theorem complete_all (n : Nat) : Complete n := by
  induction n with
  | zero =>
    constructor
    · exact fun _ short => absurd short (Nat.not_lt_zero _)
    · exact fun _ _ short => absurd short (Nat.not_lt_zero _)
    · exact fun _ short => absurd short (Nat.not_lt_zero _)
    · exact fun _ short => absurd short (Nat.not_lt_zero _)
  | succ n complete =>
    constructor
    · intro used rest minimum short derives stops
      exact complete_expression complete minimum (Nat.le_of_lt_succ short) derives stops
    · intro whole used rest r minimum left short split tail stops
      exact complete_operators complete left (Nat.le_of_lt_succ short) split tail stops
    · intro used t rest short derives closes
      exact complete_arguments complete (Nat.le_of_lt_succ short) derives closes
    · intro used t rest short derives closes
      exact complete_items complete (Nat.le_of_lt_succ short) derives closes

/-- An expression is read to its end, if what stands behind it does not go on with it. -/
theorem readExpr_complete {used rest : List Token} (derives : Derives .expression (used.map Token.kind))
    (stops : Stops rest) : (readExpr .lowest (used ++ rest)).Leaves (· = rest) := by
  obtain ⟨e, r, read, left⟩ := (complete_all (used.length + 1)).expression .lowest (Nat.lt_succ_self _) derives stops
  exact ⟨e, r, read, nil_of_left left⟩

end Stepwise
