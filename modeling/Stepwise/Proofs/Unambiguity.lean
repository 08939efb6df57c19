import Stepwise.Proofs.Climbing

/-!
Reading gives the tree of the stratified grammar (`readExpr_iff_derivation`): it succeeds on exactly the
tokens that the grammar derives, and these have one derivation (`derivation_unique`). That there is no
other follows from the reader, which gives one tree for some tokens. Two derivations with one tree could
still cut their tokens in different places, but then one left operand would be longer than the other and
have a larger tree (`tree_ne_of_longer`).
-/
namespace Stepwise

/-! ## Trees and the tokens they are read from -/

theorem Reading.Gives.unique {α : Type} {whole rest rest' : List Token} {x : Reading α whole} {a a' : α}
    (gives : x.Gives a rest) (gives' : x.Gives a' rest') : a = a' ∧ rest = rest' := by
  have same := gives.symm.trans gives'
  simp only [Except.ok.injEq, Prod.mk.injEq] at same
  exact same

theorem yields_fewer {α : Type} {whole : List Token} (x : Reading α whole) :
    x.Yields fun _ rest => rest.length < whole.length :=
  fun _ r _ => r.shorter

/-- An expression grows when operators or calls are taken up behind it. -/
theorem grows_readOperators {whole : List Token} (minimum : Precedence) (e : Expr) (r : Rest whole) :
    (readOperators minimum e r).Yields fun e' rest => rest = r.tokens ∧ e' = e ∨ sizeOf e < sizeOf e' := by
  generalize fewer : r.tokens.length = n
  induction n using Nat.strong_induction_on generalizing e r with
  | _ n ih =>
    by_cases stronger : minimum < (Failure.nextKind r.tokens).precedence
    swap
    · rw [readOperators_stop e stronger]
      exact yields_ok (.inl ⟨rfl, rfl⟩)
    obtain ⟨tokens, shorter⟩ := r
    cases tokens with
    | nil => exact absurd stronger (Nat.not_lt_zero _)
    | cons t ahead =>
      have larger {e' : Expr} (r' : Rest whole) (grown : sizeOf e < sizeOf e')
          (left : r'.tokens.length < ahead.length) :
          (readOperators minimum e' r').Yields fun e'' rest =>
            rest = t :: ahead ∧ e'' = e ∨ sizeOf e < sizeOf e'' := by
        intro e'' r'' read
        simp only [List.length_cons] at fewer
        rcases ih _ (by omega) e' r' rfl e'' r'' read with ⟨-, rfl⟩ | grown'
        · exact .inr grown
        · exact .inr (Nat.lt_trans grown grown')
      cases found : t.kind.binaryOp? with
      | some op =>
        rw [readOperators_binary e stronger found]
        refine (yields_fewer _).inside.bind fun right r left => ?_
        exact larger r (by rw [Expr.binary.sizeOf_spec]; omega) left
      | none =>
        rw [readOperators_call e stronger found]
        refine (yields_fewer _).inside.bind fun es r left => ?_
        exact larger r (by rw [Expr.call.sizeOf_spec]; omega) left

section

variable {l : Layer} {d d' : Derivation (.expression l)}

theorem closed_nil (l : Layer) : l.Closed [] :=
  ⟨by decide, Nat.not_lt_zero _⟩

theorem lowest_lt_bound (l : Layer) : .lowest < l.bound := by
  cases l <;> decide

theorem Derivation.alone (d : Derivation (.expression l)) {minimum : Precedence} {rest : List Token}
    (within : minimum < l.bound) (closed : l.Closed rest) (weaker : ¬ minimum < (Failure.nextKind rest).precedence) :
    (readExpr minimum (d.tokens ++ rest)).Gives d.tree rest :=
  Nonterminal.Reads.alone (reads_of_derivation d) within closed weaker

theorem Derivation.before (d : Derivation (.expression .equality)) {t : Token} {k : Kind} (same : t.kind = k)
    (undotted : k ≠ .dot) (lowest : k.precedence = .lowest) (rest : List Token) :
    (readExpr .lowest (d.tokens ++ t :: rest)).Gives d.tree (t :: rest) :=
  Nonterminal.Reads.before (reads_of_derivation d) same undotted lowest rest

/-- A derivation is read alone at the end of the source. -/
theorem gives_tree (d : Derivation (.expression l)) : (readExpr .lowest d.tokens).Gives d.tree [] := by
  have alone := d.alone (lowest_lt_bound l) (closed_nil l) (Nat.not_lt_zero _)
  rwa [List.append_nil] at alone

theorem tree_of_tokens (same : d.tokens = d'.tokens) : d.tree = d'.tree := by
  have gives := gives_tree d
  rw [same] at gives
  exact (gives.unique (gives_tree d')).1

/-- What is longer has another tree. -/
theorem tree_ne_of_longer {t : Token} {ahead : List Token} (longer : d'.tokens = d.tokens ++ t :: ahead)
    (closed : l.Closed (t :: ahead)) : d.tree ≠ d'.tree := by
  intro same
  obtain ⟨_, r, tokens, read⟩ := reads_of_derivation d (lowest_lt_bound l) closed
  have gives := gives_tree d'
  rw [longer, Reading.Gives, read] at gives
  obtain ⟨r', taken, left⟩ := Reading.Gives.eq gives
  rcases grows_readOperators .lowest d.tree r _ _ taken with ⟨none, -⟩ | grown
  · rw [left, tokens] at none
    cases none
  · rw [same] at grown
    exact Nat.lt_irrefl _ grown

/-- Derivations with one tree, in front of something they do not go on with, are of the same tokens. -/
theorem tokens_of_tree (tree : d.tree = d'.tree) {t t' : Token} {ahead ahead' : List Token}
    (same : d.tokens ++ t :: ahead = d'.tokens ++ t' :: ahead')
    (closed : ∀ rest, l.Closed (t :: rest)) (closed' : ∀ rest, l.Closed (t' :: rest)) : d.tokens = d'.tokens := by
  rcases List.append_eq_append_iff.mp same with ⟨u, longer, split⟩ | ⟨u, longer, split⟩
  · cases u with
    | nil => rw [longer, List.append_nil]
    | cons t₁ u =>
      obtain ⟨rfl, -⟩ := List.cons_eq_cons.mp split
      exact absurd tree (tree_ne_of_longer longer (closed u))
  · cases u with
    | nil => rw [longer, List.append_nil]
    | cons t₁ u =>
      obtain ⟨rfl, -⟩ := List.cons_eq_cons.mp split
      exact absurd tree.symm (tree_ne_of_longer longer (closed' u))

end

/-! ## The first operand -/

/-- In front of an operator of its level, a phrase is not read to its end by the reader of the next
    tighter level. -/
theorem stops_within {l l' : Layer} (next : l.tighter? = some l') :
    ∀ (d : Derivation (.expression l)) {op : BinaryOp} (_ : op ∈ l.operators) {sign : Token} (ahead : List Token),
      sign.kind = op.kind → ∃ e t rest, (readExpr l.precedence (d.tokens ++ sign :: ahead)).Gives e (t :: rest)
  | .tighter next' inside, op, listed, sign, ahead, same => by
    obtain rfl := Option.some.inj (next.symm.trans next')
    have closed := closed_of_listed listed same ahead
    exact ⟨_, _, _, inside.alone (rank_bound_tighter next) (closed.tighter next) closed.weaker⟩
  | .link _ listed' left sign' right, _, _, sign, ahead, _ => by
    rw [Derivation.tokens, List.append_assoc, List.cons_append]
    exact stops_within next left listed' _ sign'.property
  | .unary .., _, listed, _, _, _ => by cases listed
  | .call .., _, listed, _, _, _ => by cases listed
  | .group .., _, listed, _, _, _ => by cases listed
  | .atom _, _, listed, _, _, _ => by cases listed

/-- A phrase with an operator of its level has other tokens than a phrase of the next tighter level. -/
theorem tokens_ne_of_link {l l' : Layer} {op : BinaryOp} (next : l.tighter? = some l') (listed : op ∈ l.operators)
    (left : Derivation (.expression l)) (sign : TokenOf op.kind) (right inside : Derivation (.expression l')) :
    left.tokens ++ sign.val :: right.tokens ≠ inside.tokens := by
  intro same
  obtain ⟨e, t, rest, gives⟩ := stops_within next left listed right.tokens sign.property
  have alone := inside.alone (rank_bound_tighter next) (closed_nil l') (Nat.not_lt_zero _)
  rw [List.append_nil, ← same] at alone
  cases (gives.unique alone).2

/-- No operator in front of an operand begins what can be called. -/
theorem begins_called : ∀ d : Derivation (.expression .called), (Failure.nextKind d.tokens).unaryOp? = none
  | .tighter next _ => by cases next
  | .link next .. => by cases next
  | .call callee .. => by
    rw [Derivation.tokens, nextKind_append _ (opens_of_layer callee)]
    exact begins_called callee
  | .group opening .. => by
    show opening.val.kind.unaryOp? = none
    rw [opening.property]
    rfl
  | .atom (.name t _) | .atom (.number t) | .atom (.string t) | .atom (.true t) | .atom (.false t) => by
    show t.val.kind.unaryOp? = none
    rw [t.property]
    rfl

theorem tokens_ne_of_unary {op : UnaryOp} (sign : TokenOf op.kind) (operand : Derivation (.expression .prefixed))
    (inside : Derivation (.expression .called)) : sign.val :: operand.tokens ≠ inside.tokens := by
  intro same
  have begins := begins_called inside
  rw [← same] at begins
  have found : sign.val.kind.unaryOp? = none := begins
  rw [sign.property, unaryOp?_kind] at found
  cases found

/-- What can be called and begins with a parenthesis begins with a group. -/
theorem begins_group : ∀ d : Derivation (.expression .called), Failure.nextKind d.tokens = .leftParen →
    ∃ (opening : Token) (inside : Derivation (.expression .equality)) (closing : TokenOf .rightParen)
      (rest : List Token), d.tokens = opening :: (inside.tokens ++ closing.val :: rest)
  | .tighter next _, _ => by cases next
  | .link next .., _ => by cases next
  | .call callee open' arguments close', begins => by
    rw [Derivation.tokens, nextKind_append _ (opens_of_layer callee)] at begins
    obtain ⟨opening, inside, closing, rest, tokens⟩ := begins_group callee begins
    exact ⟨opening, inside, closing, _, by
      rw [Derivation.tokens, tokens, List.cons_append, List.append_assoc, List.cons_append]⟩
  | .group opening inside closing, _ => ⟨opening, inside, closing, [], rfl⟩
  | .atom (.name t _), begins | .atom (.number t), begins | .atom (.string t), begins | .atom (.true t), begins
  | .atom (.false t), begins => by
    have kind : t.val.kind = .leftParen := begins
    rw [t.property] at kind
    cases kind

/-- The parenthesis that a group begins with is closed at its end. -/
theorem tokens_ne_of_group (callee : Derivation (.expression .called)) (open' : Token) (ts : List Token)
    (opening : TokenOf .leftParen) (inside : Derivation (.expression .equality)) (closing : TokenOf .rightParen) :
    callee.tokens ++ open' :: ts ≠ opening.val :: (inside.tokens ++ [closing.val]) := by
  intro same
  have begins : Failure.nextKind callee.tokens = .leftParen := by
    rw [← nextKind_append (open' :: ts) (opens_of_layer callee), same]
    exact opening.property
  obtain ⟨_, inside', closing', rest, tokens⟩ := begins_group callee begins
  rw [tokens, List.cons_append, List.append_assoc, List.cons_append] at same
  have gives := inside'.before closing'.property (by decide) rfl (rest ++ open' :: ts)
  have gives' := inside.before closing.property (by decide) rfl []
  rw [(List.cons_eq_cons.mp same).2] at gives
  have left := (gives.unique gives').2
  simp at left

/-- An item is read up to its comma. -/
theorem tokens_ne_of_comma (item item' : Derivation (.expression .equality)) (comma : TokenOf .comma)
    (ts : List Token) : item.tokens ≠ item'.tokens ++ comma.val :: ts := by
  intro same
  have gives := item'.before comma.property (by decide) rfl ts
  rw [← same] at gives
  cases (gives.unique (gives_tree item)).2

theorem begins_atom (a : Atom) : Failure.nextKind a.tokens ≠ .leftParen := by
  cases a with
  | name t | number t | string t | true t | false t =>
    show t.val.kind ≠ .leftParen
    rw [t.property]
    decide

theorem tree_ne_call (a : Atom) (e : Expr) (es : List Expr) : a.tree ≠ .call e es := by
  cases a <;> simp [Atom.tree]

/-! ## One derivation -/

theorem dots_unique {more more' : List (TokenOf .dot × TokenOf .identifier)}
    (same : (more.flatMap fun (dot, word) => [dot.val, word.val]) =
      more'.flatMap fun (dot, word) => [dot.val, word.val]) : more = more' := by
  induction more generalizing more' with
  | nil =>
    cases more' with
    | nil => rfl
    | cons step more' => cases same
  | cons step more ih =>
    cases more' with
    | nil => cases same
    | cons step' more' =>
      obtain ⟨dot, word⟩ := step
      obtain ⟨dot', word'⟩ := step'
      simp only [List.flatMap_cons, List.cons_append, List.nil_append, List.cons.injEq] at same
      rw [Subtype.ext same.1, Subtype.ext same.2.1, ih same.2.2]

theorem atom_unique {a a' : Atom} (same : a.tokens = a'.tokens) : a = a' := by
  have kinds : ∀ {k k' : Kind} (t : TokenOf k) (t' : TokenOf k'), t.val = t'.val → k = k' := by
    intro k k' t t' equal
    rw [← t.property, equal, t'.property]
  cases a <;> cases a' <;> obtain ⟨first, more⟩ := List.cons_eq_cons.mp same <;>
    first | rw [Subtype.ext first] | cases kinds _ _ first
  rw [dots_unique more]

/-- The tokens of a phrase tell at which operator it is cut. -/
theorem cut_of_link {l l' : Layer} {op op' : BinaryOp} {next : l.tighter? = some l'} {listed : op ∈ l.operators}
    {listed' : op' ∈ l.operators} {left left' : Derivation (.expression l)} {sign : TokenOf op.kind}
    {sign' : TokenOf op'.kind} {right right' : Derivation (.expression l')}
    (same : (Derivation.link next listed left sign right).tokens =
      (Derivation.link next listed' left' sign' right').tokens) :
    op = op' ∧ left.tokens = left'.tokens ∧ sign.val = sign'.val ∧ right.tokens = right'.tokens := by
  obtain ⟨tree, rfl, -⟩ := Expr.binary.inj (tree_of_tokens same)
  have front := tokens_of_tree tree same (closed_of_listed listed sign.property)
    (closed_of_listed listed' sign'.property)
  rw [Derivation.tokens, Derivation.tokens, front] at same
  obtain ⟨first, behind⟩ := List.cons_eq_cons.mp (List.append_cancel_left same)
  exact ⟨rfl, front, first, behind⟩

/-- The tokens of a call tell where its arguments begin. -/
theorem cut_of_call {callee callee' : Derivation (.expression .called)} {opening opening' : TokenOf .leftParen}
    {arguments arguments' : Derivation .arguments} {closing closing' : TokenOf .rightParen}
    (same : (Derivation.call callee opening arguments closing).tokens =
      (Derivation.call callee' opening' arguments' closing').tokens) :
    callee.tokens = callee'.tokens ∧ opening.val = opening'.val ∧ arguments.tokens = arguments'.tokens ∧
      closing.val = closing'.val := by
  obtain ⟨tree, -⟩ := Expr.call.inj (tree_of_tokens same)
  have front := tokens_of_tree tree same (closed_of_kind opening.property (by decide) (by decide))
    (closed_of_kind opening'.property (by decide) (by decide))
  rw [Derivation.tokens, Derivation.tokens, front] at same
  obtain ⟨first, behind⟩ := List.cons_eq_cons.mp (List.append_cancel_left same)
  obtain ⟨inside, last⟩ := List.append_inj' behind rfl
  exact ⟨front, first, inside, (List.cons_eq_cons.mp last).1⟩

/-- The tokens of a list tell where its first item ends. -/
theorem cut_of_more {item item' : Derivation (.expression .equality)} {comma comma' : TokenOf .comma}
    {items items' : Derivation .items}
    (same : (Derivation.more item comma items).tokens = (Derivation.more item' comma' items').tokens) :
    item.tokens = item'.tokens ∧ comma.val = comma'.val ∧ items.tokens = items'.tokens := by
  rw [Derivation.tokens, Derivation.tokens] at same
  have gives := item.before comma.property (by decide) rfl items.tokens
  rw [same] at gives
  have behind := (gives.unique (item'.before comma'.property (by decide) rfl items'.tokens)).2
  rw [behind] at same
  obtain ⟨first, rest⟩ := List.cons_eq_cons.mp behind
  exact ⟨List.append_cancel_right same, first, rest⟩

/-- No tokens can be derived in two ways. -/
theorem derivation_unique {n : Nonterminal} (d d' : Derivation n) (same : d.tokens = d'.tokens) : d = d' := by
  induction d with
  | @tighter l l' next inside ih =>
    cases d' with
    | tighter next' inside' =>
      obtain rfl := Option.some.inj (next.symm.trans next')
      rw [ih inside' same]
    | link next' listed left sign right =>
      obtain rfl := Option.some.inj (next.symm.trans next')
      exact absurd same.symm (tokens_ne_of_link next listed left sign right inside)
    | unary sign operand =>
      obtain rfl := Option.some.inj next
      exact absurd same.symm (tokens_ne_of_unary sign operand inside)
    | call | group | atom => cases next
  | @link l l' op next listed left sign right ihl ihr =>
    cases d' with
    | tighter next' inside' =>
      obtain rfl := Option.some.inj (next.symm.trans next')
      exact absurd same (tokens_ne_of_link next listed left sign right inside')
    | @link _ _ op' next' listed' left' sign' right' =>
      obtain rfl := Option.some.inj (next.symm.trans next')
      obtain ⟨rfl, front, first, behind⟩ := cut_of_link same
      rw [ihl left' front, Subtype.ext first, ihr right' behind]
    | unary | call | group | atom => cases listed
  | @unary op sign operand ih =>
    cases d' with
    | tighter next inside =>
      obtain rfl := Option.some.inj next
      exact absurd same (tokens_ne_of_unary sign operand inside)
    | link next listed => cases listed
    | @unary op' sign' operand' =>
      obtain ⟨rfl, -⟩ := Expr.unary.inj (tree_of_tokens same)
      obtain ⟨first, behind⟩ := List.cons_eq_cons.mp same
      rw [Subtype.ext first, ih operand' behind]
  | call callee opening arguments closing ihf iha =>
    cases d' with
    | tighter next inside => cases next
    | link next listed => cases listed
    | call callee' opening' arguments' closing' =>
      obtain ⟨front, first, inside, last⟩ := cut_of_call same
      rw [ihf callee' front, Subtype.ext first, iha arguments' inside, Subtype.ext last]
    | group opening' inside closing' => exact absurd same (tokens_ne_of_group callee _ _ opening' inside closing')
    | atom a => exact absurd (tree_of_tokens same).symm (tree_ne_call a _ _)
  | group opening inside closing ih =>
    cases d' with
    | tighter next inside => cases next
    | link next listed => cases listed
    | call callee => exact absurd same.symm (tokens_ne_of_group callee _ _ opening inside closing)
    | group opening' inside' closing' =>
      obtain ⟨first, behind⟩ := List.cons_eq_cons.mp same
      obtain ⟨within, last⟩ := List.append_inj' behind rfl
      rw [Subtype.ext first, ih inside' within, Subtype.ext (List.cons_eq_cons.mp last).1]
    | atom a => exact absurd ((congrArg Failure.nextKind same).symm.trans opening.property) (begins_atom a)
  | atom a =>
    cases d' with
    | tighter next inside => cases next
    | link next listed => cases listed
    | call callee => exact absurd (tree_of_tokens same) (tree_ne_call a _ _)
    | group opening => exact absurd ((congrArg Failure.nextKind same).trans opening.property) (begins_atom a)
    | atom a' => rw [atom_unique same]
  | none =>
    cases d' with
    | none => rfl
    | some items =>
      have opens := opens_of_list items
      rw [← show [] = items.tokens from same] at opens
      cases opens
  | some items ih =>
    cases d' with
    | none =>
      have opens := opens_of_list items
      rw [show items.tokens = [] from same] at opens
      cases opens
    | some items' => rw [ih items' same]
  | last item ih =>
    cases d' with
    | last item' => rw [ih item' same]
    | more item' comma items' => exact absurd same (tokens_ne_of_comma item item' comma items'.tokens)
  | more item comma items ih ihs =>
    cases d' with
    | last item' => exact absurd same.symm (tokens_ne_of_comma item' item comma items.tokens)
    | more item' comma' items' =>
      obtain ⟨front, first, behind⟩ := cut_of_more same
      rw [ih item' front, Subtype.ext first, ihs items' behind]

/-! ## Reading and the grammar -/

/-- The kinds that go on with an expression in front of them. -/
def Kind.continues : List Kind :=
  .leftParen :: .dot :: Kind.betweenOperands

theorem stops_of_continues {rest : List Token} (ends : Failure.nextKind rest ∉ Kind.continues) : Stops rest := by
  unfold Stops
  revert ends
  cases Failure.nextKind rest <;> decide

/-- Reading an expression succeeds on exactly the tokens that the grammar derives, and gives the tree of
    their only derivation. -/
theorem readExpr_iff_derivation {used rest : List Token} (ends : Failure.nextKind rest ∉ Kind.continues) :
    ((∃ e, (readExpr .lowest (used ++ rest)).Gives e rest) ↔
      ∃! d : Derivation (.expression .equality), d.tokens = used) ∧
    ∀ d : Derivation (.expression .equality), d.tokens = used →
      (readExpr .lowest (used ++ rest)).Gives d.tree rest := by
  obtain ⟨lowest, undotted⟩ := stops_of_continues ends
  have weaker (p : Precedence) := weaker_of_lowest p lowest
  have reads : ∀ d : Derivation (.expression .equality), d.tokens = used →
      (readExpr .lowest (used ++ rest)).Gives d.tree rest := by
    rintro d rfl
    exact d.alone (by decide) ⟨undotted, weaker _⟩ (weaker _)
  refine ⟨⟨?_, ?_⟩, reads⟩
  · rintro ⟨e, gives⟩
    obtain ⟨r, read, left⟩ := gives.eq
    obtain ⟨d, tokens, -⟩ := (climbed_of_readExpr (by decide) e r read).whole
    rw [left] at tokens
    have used_eq := List.append_cancel_right tokens
    exact ⟨d, used_eq, fun d' same => derivation_unique d' d (same.trans used_eq.symm)⟩
  · rintro ⟨d, tokens, -⟩
    exact ⟨d.tree, reads d tokens⟩

/-- A call binds more strongly than the sign in front of it, and subtractions group to the left. -/
theorem reads_subtractions :
    Failure.nextKind [Kind.semicolon.mark] ∉ Kind.continues ∧
    (readExpr .lowest ([Kind.minus.mark, nameToken "f", Kind.leftParen.mark, Kind.rightParen.mark, Kind.minus.mark,
      nameToken "a", Kind.minus.mark, nameToken "b"] ++ [Kind.semicolon.mark])).Gives
        (.binary (.binary (.unary .negate (.call (.name "f") [])) .subtract (.name "a")) .subtract (.name "b"))
        [Kind.semicolon.mark] := by
  have ends : Failure.nextKind [Kind.semicolon.mark] ∉ Kind.continues := by decide
  have minus : BinaryOp.subtract ∈ Layer.sum.operators := by decide
  let operand (name : String) : Derivation (.expression .called) := .atom (.name ⟨nameToken name, rfl⟩ [])
  let call : Derivation (.expression .called) :=
    .call (operand "f") ⟨Kind.leftParen.mark, rfl⟩ .none ⟨Kind.rightParen.mark, rfl⟩
  let negated : Derivation (.expression .prefixed) :=
    @Derivation.unary .negate ⟨Kind.minus.mark, rfl⟩ (.tighter rfl call)
  let first : Derivation (.expression .sum) :=
    .link rfl minus (.tighter rfl (.tighter rfl negated)) ⟨Kind.minus.mark, rfl⟩
      (.tighter rfl (.tighter rfl (operand "a")))
  let second : Derivation (.expression .sum) :=
    .link rfl minus first ⟨Kind.minus.mark, rfl⟩ (.tighter rfl (.tighter rfl (operand "b")))
  exact ⟨ends, (readExpr_iff_derivation ends).2 (.tighter rfl (.tighter rfl second)) rfl⟩

end Stepwise
