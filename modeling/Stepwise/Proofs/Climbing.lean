import Stepwise.Proofs.Strata

/-!
Reading by strength and the stratified grammar. Whatever the grammar derives is read, in front of
anything that does not bind more strongly than the level it is derived at, and the reader is left with
its tree in hand (`reads_of_derivation`). Whatever is read at a strength has a derivation at the level
above it (`climbed_of_readExpr`): the phrase that a loop of the reader has built so far is of some level,
and no operator of a tighter one stands behind it.
-/
namespace Stepwise

/-! ## What is derived is read -/

/-- Nothing behind a phrase binds more strongly than the operators of its level. -/
structure Layer.Closed (l : Layer) (rest : List Token) : Prop where
  undotted : Failure.nextKind rest ≠ .dot
  weaker : ¬ l.precedence < (Failure.nextKind rest).precedence

/-- Reading comes to what taking up the operators in `rest` behind `e` comes to. -/
def Reading.Resumes {whole : List Token} (x : Reading Expr whole) (minimum : Precedence) (e : Expr)
    (rest : List Token) : Prop :=
  ∃ (whole' : List Token) (r : Rest whole'), r.tokens = rest ∧ x.plain = (readOperators minimum e r).plain

/-- The reader of a phrase comes to the end of its tokens with its tree in hand. -/
def Nonterminal.Reads : (n : Nonterminal) → List Token → n.Tree → Prop
  | .expression l, ts, e => ∀ {minimum : Precedence} {rest : List Token}, minimum < l.bound → l.Closed rest →
      (readExpr minimum (ts ++ rest)).Resumes minimum e rest
  | .arguments, ts, es => ∀ {t : Token} (rest : List Token), t.kind = .rightParen →
      (readArguments (ts ++ t :: rest)).Gives es rest
  | .items, ts, es => ∀ {t : Token} (rest : List Token), t.kind = .rightParen →
      (readItems (ts ++ t :: rest)).Gives es rest

section

variable {α : Type} {whole rest : List Token} {minimum : Precedence} {e : Expr}

theorem resumes_operators (minimum : Precedence) (e : Expr) {r : Rest whole} (tokens : r.tokens = rest) :
    (readOperators minimum e r).Resumes minimum e rest :=
  ⟨whole, r, tokens, rfl⟩

theorem Reading.Gives.resumes {x : Reading α whole} {f : α × Rest whole → Reading Expr whole} {a : α}
    {rest' : List Token} (gives : x.Gives a rest')
    (next : ∀ r : Rest whole, r.tokens = rest' → (f (a, r)).Resumes minimum e rest) :
    Reading.Resumes (x >>= f) minimum e rest := by
  obtain ⟨r, rfl, left⟩ := gives.eq
  exact next r left

end

theorem readPath_dots (path : String) (more : List (TokenOf .dot × TokenOf .identifier)) {rest : List Token}
    (undotted : Failure.nextKind rest ≠ .dot) :
    readPath path ((more.flatMap fun (dot, word) => [dot.val, word.val]) ++ rest) =
      .ok (".".intercalate (path :: more.map fun (_, word) => word.val.literal), rest) := by
  induction more generalizing path with
  | nil =>
    cases rest with
    | nil => rfl
    | cons t ahead =>
      rw [List.flatMap_nil, List.nil_append, readPath.eq_def]
      exact if_neg undotted
  | cons step more ih =>
    obtain ⟨dot, word⟩ := step
    simp only [List.flatMap_cons, List.cons_append, List.nil_append, readPath, if_pos dot.property,
      if_pos word.property, ih]
    rfl

theorem reads_atom (a : Atom) : (Nonterminal.expression .called).Reads a.tokens a.tree := by
  intro minimum rest _ closed
  cases a with
  | name word more =>
    have path : ((Rest.behind word.val ((Atom.name word more).tokens.tail ++ rest)).path word.val.literal).Gives
        (".".intercalate (word.val.literal :: more.map fun (_, word) => word.val.literal)) rest := by
      rw [Reading.Gives, plain_path]
      exact readPath_dots _ more closed.undotted
    rw [Atom.tokens, List.cons_append, readExpr_name word.property]
    exact path.resumes fun r tokens => resumes_operators minimum _ tokens
  | number t | string t | true t | false t =>
    rw [Atom.tokens, List.singleton_append, readExpr_literal (by rw [Token.literal?, t.property])]
    exact resumes_operators minimum _ rfl

theorem closed_of_kind {t : Token} {k : Kind} {l : Layer} (same : t.kind = k) (undotted : k ≠ .dot)
    (weaker : ¬ l.precedence < k.precedence) (ahead : List Token) : l.Closed (t :: ahead) := by
  subst same
  exact ⟨undotted, weaker⟩

theorem closed_of_listed {l : Layer} {op : BinaryOp} (listed : op ∈ l.operators) {sign : Token}
    (same : sign.kind = op.kind) (ahead : List Token) : l.Closed (sign :: ahead) := by
  refine closed_of_kind same (by cases op <;> decide) ?_ ahead
  rw [(precedence_of_listed listed).1]
  exact Nat.lt_irrefl _

theorem Layer.Closed.tighter {l l' : Layer} {rest : List Token} (closed : l.Closed rest)
    (next : l.tighter? = some l') : l'.Closed rest := by
  refine ⟨closed.undotted, fun stronger => closed.weaker ?_⟩
  rw [lt_iff_rank, rank_tighter next] at stronger
  exact Nat.lt_of_succ_lt stronger

section

variable {l : Layer} {ts rest : List Token} {e : Expr} {minimum : Precedence}

/-- A phrase is read alone, if nothing behind it binds strongly enough to be taken up. -/
theorem Nonterminal.Reads.alone (reads : (Nonterminal.expression l).Reads ts e) (within : minimum < l.bound)
    (closed : l.Closed rest) (weaker : ¬ minimum < (Failure.nextKind rest).precedence) :
    (readExpr minimum (ts ++ rest)).Gives e rest := by
  obtain ⟨_, r, rfl, read⟩ := reads within closed
  rw [Reading.Gives, read, readOperators_stop e weaker]
  rfl

/-- The same in front of a sign that no expression goes on with. -/
theorem Nonterminal.Reads.before (reads : (Nonterminal.expression .equality).Reads ts e) {t : Token} {k : Kind}
    (same : t.kind = k) (undotted : k ≠ .dot) (lowest : k.precedence = .lowest) (rest : List Token) :
    (readExpr .lowest (ts ++ t :: rest)).Gives e (t :: rest) := by
  subst same
  have weaker : ¬ Precedence.lowest < t.kind.precedence := weaker_of_lowest .lowest lowest
  exact reads.alone (by decide) ⟨undotted, weaker_of_lowest _ lowest⟩ weaker

theorem reads_link {l' : Layer} {op : BinaryOp} (next : l.tighter? = some l') (listed : op ∈ l.operators)
    {sign : Token} (same : sign.kind = op.kind) {ts' : List Token} {e' : Expr}
    (left : (Nonterminal.expression l).Reads ts e) (right : (Nonterminal.expression l').Reads ts' e') :
    (Nonterminal.expression l).Reads (ts ++ sign :: ts') (Expr.binary e op e') := by
  intro minimum rest within closed
  obtain ⟨strength, whole⟩ := precedence_of_listed listed
  have level : sign.kind.precedence = l.precedence := by rw [same, strength]
  rw [List.append_assoc, List.cons_append]
  obtain ⟨_, ⟨_, shorter⟩, rfl, read⟩ := left within (closed_of_listed listed same _)
  have strong : minimum < sign.kind.precedence := by
    rw [level, ← whole]
    exact within
  have found : sign.kind.binaryOp? = some op := by
    rw [same]
    exact binaryOp?_kind op
  rw [readOperators_binary e strong found, level] at read
  rw [Reading.Resumes, read]
  have operand := right.alone (rank_bound_tighter next) (closed.tighter next) closed.weaker
  exact operand.inside.resumes fun r tokens => resumes_operators minimum _ tokens

theorem reads_unary {op : UnaryOp} {sign : Token} (same : sign.kind = op.kind)
    (operand : (Nonterminal.expression .prefixed).Reads ts e) :
    (Nonterminal.expression .prefixed).Reads (sign :: ts) (Expr.unary op e) := by
  intro minimum rest _ closed
  have found : sign.kind.unaryOp? = some op := by
    rw [same]
    exact unaryOp?_kind op
  rw [List.cons_append, readExpr_unary found]
  have alone := operand.alone (by decide) closed closed.weaker
  exact alone.inside.resumes fun r tokens => resumes_operators minimum _ tokens

theorem reads_call {opening closing : Token} (opens : opening.kind = .leftParen) (closes : closing.kind = .rightParen)
    {ts' : List Token} {es : List Expr} (callee : (Nonterminal.expression .called).Reads ts e)
    (arguments : Nonterminal.arguments.Reads ts' es) :
    (Nonterminal.expression .called).Reads (ts ++ opening :: (ts' ++ [closing])) (Expr.call e es) := by
  intro minimum rest within closed
  rw [List.append_assoc, List.cons_append, List.append_assoc, List.singleton_append]
  obtain ⟨_, ⟨_, shorter⟩, rfl, read⟩ := callee within (closed_of_kind opens (by decide) (by decide) _)
  have strong : minimum < opening.kind.precedence := by
    rw [opens]
    exact within
  have noOperator : opening.kind.binaryOp? = none := by
    rw [opens]
    rfl
  rw [readOperators_call e strong noOperator] at read
  rw [Reading.Resumes, read]
  exact (arguments rest closes).inside.resumes fun r tokens => resumes_operators minimum _ tokens

theorem reads_group {opening closing : Token} (opens : opening.kind = .leftParen) (closes : closing.kind = .rightParen)
    (inside : (Nonterminal.expression .equality).Reads ts e) :
    (Nonterminal.expression .called).Reads (opening :: (ts ++ [closing])) e := by
  intro minimum rest _ _
  rw [List.cons_append, List.append_assoc, List.singleton_append, readExpr_group opens]
  refine (inside.before closes (by decide) rfl rest).inside.resumes fun r tokens => ?_
  exact (gives_expect tokens closes).resumes fun r tokens => resumes_operators minimum _ tokens

theorem reads_last (item : (Nonterminal.expression .equality).Reads ts e) : Nonterminal.items.Reads ts [e] := by
  intro t rest closes
  rw [readItems_eq]
  refine (item.before closes (by decide) rfl rest).bind fun r left => ?_
  have next : Failure.nextKind r.tokens ≠ .comma := by
    rw [left]
    show t.kind ≠ .comma
    rw [closes]
    decide
  simp only [if_neg next]
  exact (gives_expect left closes).bind fun r left => congrArg (fun rest => Except.ok ([e], rest)) left

theorem reads_more {comma : Token} (separates : comma.kind = .comma) {ts' : List Token} {es : List Expr}
    (item : (Nonterminal.expression .equality).Reads ts e) (items : Nonterminal.items.Reads ts' es) :
    Nonterminal.items.Reads (ts ++ comma :: ts') (e :: es) := by
  intro t rest closes
  rw [readItems_eq, List.append_assoc, List.cons_append]
  refine (item.before separates (by decide) rfl _).bind fun r left => ?_
  have next : Failure.nextKind r.tokens = .comma := by
    rw [left]
    exact separates
  simp only [if_pos next]
  refine (gives_expect left separates).bind fun r left => ?_
  have more := items rest closes
  rw [← left] at more
  exact more.inside.bind fun r left => congrArg (fun rest => Except.ok (e :: es, rest)) left

end

theorem nextKind_append {ts : List Token} (rest : List Token) (opens : (Failure.nextKind ts).opensExpression = true) :
    Failure.nextKind (ts ++ rest) = Failure.nextKind ts := by
  cases ts with
  | nil => cases opens
  | cons t ahead => rfl

/-- How every phrase begins, but a list of arguments. -/
theorem opens_of_derivation {n : Nonterminal} (d : Derivation n) (some : n ≠ .arguments) :
    (Failure.nextKind d.tokens).opensExpression = true := by
  induction d with
  | tighter next inside ih => exact ih (by simp)
  | link next listed left sign right ihl ihr =>
    rw [Derivation.tokens, nextKind_append _ (ihl (by simp))]
    exact ihl (by simp)
  | @unary op sign operand ih =>
    show sign.val.kind.opensExpression = true
    rw [sign.property]
    cases op <;> rfl
  | call callee opening arguments closing ihf iha =>
    rw [Derivation.tokens, nextKind_append _ (ihf (by simp))]
    exact ihf (by simp)
  | group opening inside closing ih =>
    show opening.val.kind.opensExpression = true
    rw [opening.property]
    rfl
  | atom a =>
    rw [Derivation.tokens]
    cases a with
    | name t | number t | string t | true t | false t =>
      show t.val.kind.opensExpression = true
      rw [t.property]
      rfl
  | none | some => exact absurd rfl some
  | last item ih => exact ih (by simp)
  | more item comma items ih ihs =>
    rw [Derivation.tokens, nextKind_append _ (ih (by simp))]
    exact ih (by simp)

theorem opens_of_layer {l : Layer} (d : Derivation (.expression l)) :
    (Failure.nextKind d.tokens).opensExpression = true :=
  opens_of_derivation d (by simp)

theorem opens_of_list (d : Derivation .items) : (Failure.nextKind d.tokens).opensExpression = true :=
  opens_of_derivation d (by simp)

/-- Every derivation is read. -/
theorem reads_of_derivation {n : Nonterminal} (d : Derivation n) : n.Reads d.tokens d.tree := by
  induction d with
  | tighter next inside ih =>
    intro minimum rest within closed
    exact ih (Nat.lt_of_lt_of_le within (rank_bound_le next)) (closed.tighter next)
  | link next listed left sign right ihl ihr => exact reads_link next listed sign.property ihl ihr
  | unary sign operand ih => exact reads_unary sign.property ih
  | call callee opening arguments closing ihf iha => exact reads_call opening.property closing.property ihf iha
  | group opening inside closing ih => exact reads_group opening.property closing.property ih
  | atom a => exact reads_atom a
  | none =>
    intro t rest closes
    rw [Derivation.tokens, List.nil_append, readArguments, if_pos closes]
    rfl
  | some items ih =>
    intro t rest closes
    have opens := opens_of_list items
    rw [← nextKind_append (t :: rest) opens] at opens
    rw [Derivation.tokens, readArguments_eq fun closed => by rw [closed] at opens; cases opens]
    exact ih rest closes
  | last item ih => exact reads_last ih
  | more item comma items ih ihs => exact reads_more comma.property ih ihs

/-! ## What is read is derived -/

/-- Whatever reading gives is such, with the tokens it leaves. -/
def Reading.Yields {α : Type} {whole : List Token} (x : Reading α whole) (P : α → List Token → Prop) : Prop :=
  ∀ a r, x = .ok (a, r) → P a r.tokens

section

variable {α β : Type} {whole : List Token} {P : α → List Token → Prop} {Q : β → List Token → Prop}

theorem Reading.Yields.bind {x : Reading α whole} {f : α × Rest whole → Reading β whole} (yields : x.Yields P)
    (next : ∀ a r, P a r.tokens → (f (a, r)).Yields Q) : Reading.Yields (x >>= f) Q := by
  intro b r' read
  cases x with
  | error s => cases read
  | ok found => exact next found.1 found.2 (yields _ _ rfl) b r' read

theorem Reading.Yields.inside {r : Rest whole} {x : Reading α r.tokens} (yields : x.Yields P) :
    (Reading.inside r x).Yields P := by
  intro a r' read
  cases x with
  | error s => cases read
  | ok found =>
    cases read
    exact yields _ _ rfl

theorem yields_ok {a : α} {r : Rest whole} (good : P a r.tokens) : Reading.Yields (.ok (a, r)) P := by
  intro a' r' read
  cases read
  exact good

theorem yields_error (s : Stuck whole) : Reading.Yields (.error s) P := by
  intro a r read
  cases read

theorem yields_expect (r : Rest whole) (k : Kind) :
    (r.expect k).Yields fun t rest => r.tokens = t :: rest ∧ t.kind = k := by
  intro t r' read
  obtain ⟨ks, shorter⟩ := r
  cases ks with
  | nil => cases read
  | cons u ahead =>
    rw [Rest.expect] at read
    by_cases same : u.kind = k
    · rw [if_pos same] at read
      cases read
      exact ⟨rfl, same⟩
    · rw [if_neg same] at read
      cases read

end

/-- A derivation with a given tree, of the tokens of `whole` in front of `rest`. -/
def Nonterminal.Builds (n : Nonterminal) (whole : List Token) (a : n.Tree) (rest : List Token) : Prop :=
  ∃ d : Derivation n, d.tokens ++ rest = whole ∧ d.tree = a

/-- A phrase of a level is a phrase of every looser level. -/
theorem builds_looser {l l' : Layer} {whole rest : List Token} {e : Expr}
    (built : (Nonterminal.expression l').Builds whole e rest) (looser : ¬ l'.precedence < l.precedence) :
    (Nonterminal.expression l).Builds whole e rest := by
  rw [lt_iff_rank] at looser
  generalize steps : l'.precedence.rank - l.precedence.rank = n
  induction n generalizing l with
  | zero =>
    obtain rfl : l' = l := by
      have same : l'.precedence.rank = l.precedence.rank := by omega
      cases l <;> cases l' <;> first | rfl | cases same
    exact built
  | succ n ih =>
    have strictly : l.precedence < l'.precedence := by
      rw [lt_iff_rank]
      omega
    obtain ⟨l'', next⟩ := exists_tighter strictly
    have rank := rank_tighter next
    obtain ⟨d, tokens, tree⟩ := ih (l := l'') (by omega) (by omega)
    exact ⟨.tighter next d, tokens, tree⟩

theorem path_of_read {path name : String} {ts rest : List Token} (read : readPath path ts = .ok (name, rest)) :
    ∃ more : List (TokenOf .dot × TokenOf .identifier),
      (more.flatMap fun (dot, word) => [dot.val, word.val]) ++ rest = ts ∧
        ".".intercalate (path :: more.map fun (_, word) => word.val.literal) = name := by
  fun_induction readPath path ts with
  | case1 path =>
    cases read
    exact ⟨[], rfl, rfl⟩
  | case3 path d isDot t ahead isWord ih =>
    obtain ⟨more, tokens, joined⟩ := ih read
    exact ⟨(⟨d, isDot⟩, ⟨t, isWord⟩) :: more, by simp [tokens], joined⟩
  | case5 path d ahead other =>
    cases read
    exact ⟨[], rfl, rfl⟩
  | _ => cases read

theorem atom_of_literal {t : Token} {e : Expr} (literal : t.literal? = some e) :
    ∃ a : Atom, a.tokens = [t] ∧ a.tree = e := by
  unfold Token.literal? at literal
  split at literal <;> cases literal
  · next same => exact ⟨.number ⟨t, same⟩, rfl, rfl⟩
  · next same => exact ⟨.string ⟨t, same⟩, rfl, rfl⟩
  · next same => exact ⟨.true ⟨t, same⟩, rfl, rfl⟩
  · next same => exact ⟨.false ⟨t, same⟩, rfl, rfl⟩

theorem kind_of_unaryOp {k : Kind} {op : UnaryOp} (found : k.unaryOp? = some op) : k = op.kind := by
  cases k <;> cases found <;> rfl

theorem kind_of_binaryOp {k : Kind} {op : BinaryOp} (found : k.binaryOp? = some op) : k = op.kind := by
  cases k <;> cases found <;> rfl

/-- What is read at a given strength: a phrase of the level above it, in front of nothing that could be
    taken up. -/
def Climbed (minimum : Precedence) (whole : List Token) (e : Expr) (rest : List Token) : Prop :=
  (Nonterminal.expression (.above minimum)).Builds whole e rest ∧ ¬ minimum < (Failure.nextKind rest).precedence

theorem Climbed.whole {ts rest : List Token} {e : Expr} (climbed : Climbed .lowest ts e rest) :
    ∃ d : Derivation (.expression .equality), d.tokens ++ rest = ts ∧ d.tree = e :=
  climbed.1

/-- What the readers of expressions build, as long as there are fewer than `n` tokens. -/
structure Climbs (n : Nat) : Prop where
  expression : ∀ {ts : List Token} {minimum : Precedence}, ts.length < n → minimum < .call →
    (readExpr minimum ts).Yields (Climbed minimum ts)
  operators : ∀ {whole : List Token} {r : Rest whole} {minimum : Precedence} {l : Layer} {left : Expr},
    r.tokens.length < n → (Nonterminal.expression l).Builds whole left r.tokens → minimum < l.bound →
    ¬ l.precedence < (Failure.nextKind r.tokens).precedence →
    (readOperators minimum left r).Yields (Climbed minimum whole)
  arguments : ∀ {ts : List Token}, ts.length < n →
    (readArguments ts).Yields fun es rest =>
      ∃ t : TokenOf .rightParen, Nonterminal.arguments.Builds ts es (t.val :: rest)
  items : ∀ {ts : List Token}, ts.length < n →
    (readItems ts).Yields fun es rest =>
      ∃ t : TokenOf .rightParen, Nonterminal.items.Builds ts es (t.val :: rest)

section

variable {n : Nat} {ts : List Token} {minimum : Precedence}

theorem climbs_expression (climbs : Climbs n) (short : ts.length ≤ n) (within : minimum < .call) :
    (readExpr minimum ts).Yields (Climbed minimum ts) := by
  cases ts with
  | nil =>
    rw [readExpr]
    exact yields_error _
  | cons t ahead =>
    -- nothing binds more strongly than a call, so an operand may stand in front of anything
    have called {r : Rest (t :: ahead)} {e : Expr}
        (built : (Nonterminal.expression .called).Builds (t :: ahead) e r.tokens) :
        (readOperators minimum e r).Yields (Climbed minimum (t :: ahead)) := by
      refine climbs.operators (Nat.lt_of_lt_of_le r.shorter short) built within ?_
      cases (Failure.nextKind r.tokens) <;> decide
    by_cases isName : t.kind = .identifier
    · rw [readExpr_name isName]
      have path : ((Rest.behind t ahead).path t.literal).Yields fun name rest =>
          (Nonterminal.expression .called).Builds (t :: ahead) (Expr.name name) rest := by
        intro name r read
        have plain := plain_path (Rest.behind t ahead) t.literal
        rw [read] at plain
        obtain ⟨more, tokens, joined⟩ := path_of_read plain.symm
        exact ⟨.atom (.name ⟨t, isName⟩ more), congrArg (t :: ·) tokens, congrArg Expr.name joined⟩
      exact path.bind fun name r built => called built
    by_cases opens : t.kind = .leftParen
    · rw [readExpr_group opens]
      refine (climbs.expression (Nat.lt_of_succ_le short) (by decide)).inside.bind ?_
      intro e r climbed
      obtain ⟨d, tokens, rfl⟩ := climbed.whole
      refine (yields_expect r .rightParen).bind ?_
      rintro c r' ⟨split, closes⟩
      refine called ⟨.group ⟨t, opens⟩ d ⟨c, closes⟩, ?_, rfl⟩
      rw [split] at tokens
      rw [Derivation.tokens, List.cons_append, List.append_assoc]
      exact congrArg (t :: ·) tokens
    cases found : t.kind.unaryOp? with
    | some op =>
      rw [readExpr_unary found]
      refine (climbs.expression (Nat.lt_of_succ_le short) (by decide)).inside.bind ?_
      rintro e r ⟨⟨d, tokens, rfl⟩, weaker⟩
      refine climbs.operators (l := .prefixed) (Nat.lt_of_lt_of_le r.shorter short) ?_ within weaker
      exact ⟨.unary ⟨t, kind_of_unaryOp found⟩ d, congrArg (t :: ·) tokens, rfl⟩
    | none =>
      cases literal : t.literal? with
      | some e =>
        obtain ⟨a, tokens, tree⟩ := atom_of_literal literal
        rw [readExpr_literal literal]
        exact called ⟨.atom a, by rw [Derivation.tokens, tokens]; rfl, tree⟩
      | none =>
        rw [readExpr, if_neg isName, if_neg opens, found, literal]
        exact yields_error _

theorem climbs_operators (climbs : Climbs n) {whole : List Token} {r : Rest whole} {l : Layer} {left : Expr}
    (short : r.tokens.length ≤ n) (built : (Nonterminal.expression l).Builds whole left r.tokens)
    (within : minimum < l.bound) (weaker : ¬ l.precedence < (Failure.nextKind r.tokens).precedence) :
    (readOperators minimum left r).Yields (Climbed minimum whole) := by
  by_cases stronger : minimum < (Failure.nextKind r.tokens).precedence
  swap
  · rw [readOperators_stop left stronger]
    exact yields_ok ⟨builds_looser built (above_le_of_lt_bound within), stronger⟩
  obtain ⟨tokens, shorter⟩ := r
  cases tokens with
  | nil => exact absurd stronger (Nat.not_lt_zero _)
  | cons t ahead =>
    have strong : minimum < t.kind.precedence := stronger
    have weak : ¬ l.precedence < t.kind.precedence := weaker
    cases found : t.kind.binaryOp? with
    | some op =>
      have same := kind_of_binaryOp found
      obtain ⟨l', listed, next⟩ := exists_layer op
      obtain ⟨strength, bound⟩ := precedence_of_listed listed
      rw [← same] at next strength
      rw [strength] at weak strong
      obtain ⟨d, tokens, rfl⟩ := builds_looser built weak
      rw [readOperators_binary _ stronger found]
      have weakest : t.kind.precedence < .call := by
        rw [same]
        cases op <;> decide
      refine (climbs.expression (Nat.lt_of_succ_le short) weakest).inside.bind ?_
      rintro e r ⟨⟨d', tokens', rfl⟩, weaker'⟩
      have split : (Derivation.link next listed d ⟨t, same⟩ d').tokens ++ r.tokens = whole := by
        rw [Derivation.tokens, List.append_assoc, List.cons_append, tokens']
        exact tokens
      have fewer : r.tokens.length < n := by
        have total := congrArg List.length tokens'
        rw [List.length_append] at total
        simp only [List.length_cons] at short
        omega
      rw [strength] at weaker'
      rw [← bound] at strong
      exact climbs.operators fewer ⟨_, split, rfl⟩ strong weaker'
    | none =>
      have opens : t.kind = .leftParen := leftParen_of_precedence stronger found
      rw [opens] at weak
      obtain rfl : l = .called := by
        cases l <;> first | rfl | exact absurd (by decide) weak
      obtain ⟨d, tokens, rfl⟩ := built
      rw [readOperators_call _ stronger found]
      refine (climbs.arguments (Nat.lt_of_succ_le short)).inside.bind ?_
      rintro es r ⟨c, d', tokens', rfl⟩
      have split : (Derivation.call d ⟨t, opens⟩ d' c).tokens ++ r.tokens = whole := by
        simp only [Derivation.tokens, List.append_assoc, List.cons_append, List.nil_append]
        rw [tokens']
        exact tokens
      have fewer : r.tokens.length < n := by
        have total := congrArg List.length tokens'
        simp only [List.length_append, List.length_cons] at total short
        omega
      refine climbs.operators fewer ⟨_, split, rfl⟩ within ?_
      cases (Failure.nextKind r.tokens) <;> decide

theorem climbs_items (climbs : Climbs n) (short : ts.length ≤ n) :
    (readItems ts).Yields fun es rest =>
      ∃ t : TokenOf .rightParen, Nonterminal.items.Builds ts es (t.val :: rest) := by
  rw [readItems_eq]
  refine (climbs_expression climbs short (by decide)).bind ?_
  intro e r climbed
  obtain ⟨d, tokens, rfl⟩ := climbed.whole
  dsimp only
  split
  · refine (yields_expect r .comma).bind ?_
    rintro c r' ⟨split, separates⟩
    refine (climbs.items (Nat.lt_of_lt_of_le r'.shorter short)).inside.bind ?_
    rintro es r'' ⟨t, d', tokens', rfl⟩
    refine yields_ok ⟨t, .more d ⟨c, separates⟩ d', ?_, rfl⟩
    rw [Derivation.tokens, List.append_assoc, List.cons_append, tokens', ← split]
    exact tokens
  · refine (yields_expect r .rightParen).bind ?_
    rintro t r' ⟨split, closes⟩
    rw [split] at tokens
    exact yields_ok ⟨⟨t, closes⟩, .last d, tokens, rfl⟩

theorem climbs_arguments (climbs : Climbs n) (short : ts.length ≤ n) :
    (readArguments ts).Yields fun es rest =>
      ∃ t : TokenOf .rightParen, Nonterminal.arguments.Builds ts es (t.val :: rest) := by
  by_cases closed : Failure.nextKind ts = .rightParen
  · cases ts with
    | nil => cases closed
    | cons t ahead =>
      have closes : t.kind = .rightParen := closed
      rw [readArguments, if_pos closes]
      exact yields_ok ⟨⟨t, closes⟩, .none, rfl, rfl⟩
  · rw [readArguments_eq closed]
    intro es r read
    obtain ⟨t, d, tokens, tree⟩ := climbs_items climbs short es r read
    exact ⟨t, .some d, tokens, tree⟩

end

theorem climbs_all (n : Nat) : Climbs n := by
  induction n with
  | zero =>
    constructor
    · exact fun short => absurd short (Nat.not_lt_zero _)
    · exact fun short => absurd short (Nat.not_lt_zero _)
    · exact fun short => absurd short (Nat.not_lt_zero _)
    · exact fun short => absurd short (Nat.not_lt_zero _)
  | succ n climbs =>
    constructor
    · exact fun short within => climbs_expression climbs (Nat.le_of_lt_succ short) within
    · exact fun short built within weaker => climbs_operators climbs (Nat.le_of_lt_succ short) built within weaker
    · exact fun short => climbs_arguments climbs (Nat.le_of_lt_succ short)
    · exact fun short => climbs_items climbs (Nat.le_of_lt_succ short)

/-- Reading at a strength climbs to the level above it. -/
theorem climbed_of_readExpr {ts : List Token} {minimum : Precedence} (within : minimum < .call) :
    (readExpr minimum ts).Yields (Climbed minimum ts) :=
  (climbs_all (ts.length + 1)).expression (Nat.lt_succ_self _) within

end Stepwise
