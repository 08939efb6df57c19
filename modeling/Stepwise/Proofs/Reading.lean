import Stepwise.Parse.Stmt
import Stepwise.Proofs.Balance

/-!
What readers take. A reader that succeeds has taken tokens whose kinds the grammar derives,
and one that fails has passed over tokens without braces and refuses what stands behind them
(`Takes`). A read that goes on with another is judged step by step (`Takes.bind`), so the
readers of expressions are put as such steps first (`readExpr_group`, `readOperators_call`,
`readItems_eq`). What they come to is shown together, by induction on how many tokens there are
(`sound_all`), and what the others come to once for every statement without a body.
-/
namespace Stepwise

/-- `rest` is what stands in `whole` behind tokens of the kinds `ks`. -/
def Behind (whole : List Token) (ks : List Kind) (rest : List Token) : Prop :=
  ∃ used, used ++ rest = whole ∧ used.map Token.kind = ks

theorem behind_nil (whole : List Token) : Behind whole [] whole :=
  ⟨[], rfl, rfl⟩

theorem behind_cons (t : Token) (ahead : List Token) : Behind (t :: ahead) [t.kind] ahead :=
  ⟨[t], rfl, rfl⟩

/-- What stands behind a first token of some kind. -/
theorem behind_first {t : Token} {k : Kind} (same : t.kind = k) (ahead : List Token) :
    Behind (t :: ahead) [k] (Rest.behind t ahead).tokens :=
  ⟨[t], rfl, by simp [same]⟩

theorem Behind.trans {whole middle rest : List Token} {ks ks' : List Kind} (first : Behind whole ks middle)
    (second : Behind middle ks' rest) : Behind whole (ks ++ ks') rest := by
  obtain ⟨used, rfl, rfl⟩ := first
  obtain ⟨used', rfl, rfl⟩ := second
  exact ⟨used ++ used', by simp, by simp⟩

/-- One token more. -/
theorem Behind.next {whole ahead : List Token} {t : Token} {ks : List Kind} (behind : Behind whole ks (t :: ahead)) :
    Behind whole (ks ++ [t.kind]) ahead :=
  behind.trans (behind_cons t ahead)

/-- Behind more of a whole than another rest there is no more left. -/
theorem Behind.shorter {whole ahead rest : List Token} {ks ks' : List Kind} {n : Nat} (first : Behind whole ks ahead)
    (second : Behind whole (ks ++ ks') rest) (short : ahead.length < n) : rest.length < n := by
  obtain ⟨used, rfl, rfl⟩ := first
  obtain ⟨used', split, same⟩ := second
  have lengths := congrArg List.length split
  have kinds := congrArg List.length same
  simp only [List.length_append, List.length_map] at lengths kinds
  omega

/-- A failure in front of `rest`, not for want of a closing brace. -/
inductive Refused (rest : List Token) : Failure → Prop where
  | unexpected {what : String} (other : what ≠ Kind.rightBrace.describe) : Refused rest (.unexpected what rest)
  | noExpression : Refused rest (.noExpression rest)

theorem describe_ne_brace {k : Kind} (other : k ≠ .rightBrace) : k.describe ≠ Kind.rightBrace.describe := by
  cases k <;> first | exact absurd rfl other | decide

section

variable {α β : Type} {whole : List Token} {good : α → List Kind → Prop} {good' : β → List Kind → Prop}

/-- What reading something off the front of `whole` came to: it took tokens of `good` kinds,
    or passed over some without braces and refused the rest. -/
inductive Takes (good : α → List Kind → Prop) : Reading α whole → Prop where
  | ok {a : α} {r : Rest whole} {ks : List Kind} (behind : Behind whole ks r.tokens) (fits : good a ks) :
      Takes good (.ok (a, r))
  | error {s : Stuck whole} {ks : List Kind} {rest : List Token} (behind : Behind whole ks rest) (level : Level ks)
      (refused : Refused rest s.failure) : Takes good (.error s)

theorem Takes.bind {x : Reading α whole} {f : α × Rest whole → Reading β whole} (takes : Takes good x)
    (next : ∀ a r ks, Behind whole ks r.tokens → good a ks → Takes good' (f (a, r))) : Takes good' (x >>= f) := by
  cases takes with
  | ok behind fits => exact next _ _ _ behind fits
  | error behind level refused => exact .error behind level refused

theorem Takes.mono {x : Reading α whole} {better : α → List Kind → Prop} (takes : Takes good x)
    (implies : ∀ a ks, good a ks → better a ks) : Takes better x := by
  cases takes with
  | ok behind fits => exact .ok behind (implies _ _ fits)
  | error behind level refused => exact .error behind level refused

theorem Takes.inside {r : Rest whole} {x : Reading α r.tokens} {ks : List Kind} (takes : Takes good x)
    (behind : Behind whole ks r.tokens) (level : Level ks) :
    Takes (fun a all => ∃ ks', all = ks ++ ks' ∧ good a ks') (Reading.inside r x) := by
  cases takes with
  | ok behind' fits => exact .ok (behind.trans behind') ⟨_, rfl, fits⟩
  | error behind' level' refused => exact .error (behind.trans behind') (level.append level') refused

/-! ## Single tokens -/

section

variable {r : Rest whole} {ks : List Kind}

theorem behind_expect {k : Kind} {t : Token} {r' : Rest whole} (read : r.expect k = .ok (t, r')) :
    Behind r.tokens [k] r'.tokens := by
  obtain ⟨tokens, shorter⟩ := r
  cases tokens with
  | nil => cases read
  | cons u ahead =>
    simp only [Rest.expect] at read
    split at read
    · next same =>
      cases read
      exact behind_first same ahead
    · cases read

theorem refused_expect {k : Kind} {s : Stuck whole} (other : k ≠ .rightBrace) (failed : r.expect k = .error s) :
    Refused r.tokens s.failure := by
  obtain ⟨tokens, shorter⟩ := r
  cases tokens with
  | nil =>
    cases failed
    exact .unexpected (describe_ne_brace other)
  | cons u ahead =>
    simp only [Rest.expect] at failed
    split at failed
    · cases failed
    · cases failed
      exact .unexpected (describe_ne_brace other)

theorem takes_expect {k : Kind} (other : k ≠ .rightBrace) (behind : Behind whole ks r.tokens) (level : Level ks) :
    Takes (fun _ all => all = ks ++ [k]) (r.expect k) := by
  cases result : r.expect k with
  | error s => exact .error behind level (refused_expect other result)
  | ok found => exact .ok (behind.trans (behind_expect result)) rfl

theorem takes_typeName (behind : Behind whole ks r.tokens) (level : Level ks) :
    Takes (fun _ all => ∃ type ∈ Kind.types, all = ks ++ [type]) r.typeName := by
  obtain ⟨tokens, shorter⟩ := r
  cases tokens with
  | nil => exact .error behind level (.unexpected (by decide))
  | cons t ahead =>
    simp only [Rest.typeName]
    cases named : t.kind.typeName? with
    | none => exact .error behind level (.unexpected (by decide))
    | some type =>
      refine .ok behind.next ⟨t.kind, ?_, rfl⟩
      generalize t.kind = k at named
      cases k <;> first | decide | cases named

theorem behind_skipSemicolon (behind : Behind whole ks r.tokens) :
    ∃ ending ∈ endings, Behind whole (ks ++ ending) r.skipSemicolon.tokens := by
  obtain ⟨tokens, shorter⟩ := r
  cases tokens with
  | nil => exact ⟨[], by decide, by simpa [Rest.skipSemicolon] using behind⟩
  | cons t ahead =>
    simp only [Rest.skipSemicolon]
    split
    · next same =>
      refine ⟨[.semicolon], by decide, ?_⟩
      rw [← same]
      exact behind.next
    · exact ⟨[], by decide, by simpa using behind⟩

/-- What is next, and is not the end, is the first of the tokens. -/
theorem behind_nextKind {ts : List Token} {k : Kind} (next : Failure.nextKind ts = k) (some : k ≠ .eof) :
    Behind ts [k] (ts.drop 1) := by
  cases ts with
  | nil => exact absurd next.symm some
  | cons t ahead => exact behind_first next ahead

/-- A semicolon that is next is passed over. -/
theorem behind_semicolon (next : Failure.nextKind r.tokens = .semicolon) (behind : Behind whole ks r.tokens) :
    Behind whole (ks ++ [.semicolon]) r.skipSemicolon.tokens := by
  obtain ⟨tokens, shorter⟩ := r
  cases tokens with
  | nil => cases next
  | cons t ahead =>
    have same : t.kind = .semicolon := next
    simp only [Rest.skipSemicolon, if_pos same]
    rw [← same]
    exact behind.next

end

end

/-! ## Words with separators -/

theorem behind_readPath {path name : String} {ts rest : List Token} (read : readPath path ts = .ok (name, rest)) :
    ∃ dots, Behind ts dots rest ∧ Separated .dot (.identifier :: dots) := by
  fun_induction readPath path ts with
  | case1 path =>
    cases read
    exact ⟨[], behind_nil [], .word⟩
  | case2 => cases read
  | case3 path d isDot t ahead isWord ih =>
    obtain ⟨dots, behind, separated⟩ := ih read
    refine ⟨.dot :: .identifier :: dots, ?_, .more separated⟩
    have front : Behind (d :: t :: ahead) [.dot, .identifier] ahead := ⟨[d, t], rfl, by simp [isDot, isWord]⟩
    exact front.trans behind
  | case4 => cases read
  | case5 path d ahead notDot =>
    cases read
    exact ⟨[], behind_nil _, .word⟩

theorem refused_readPath {path : String} {ts : List Token} {f : Failure} (read : readPath path ts = .error f) :
    ∃ ks rest, Behind ts ks rest ∧ Level ks ∧ Refused rest f := by
  fun_induction readPath path ts with
  | case1 => cases read
  | case2 path d isDot =>
    cases read
    exact ⟨[.dot], [], ⟨[d], rfl, by simp [isDot]⟩, by simp [Level, Kind.isBrace], .unexpected (by decide)⟩
  | case3 path d isDot t ahead isWord ih =>
    obtain ⟨ks, rest, behind, level, refused⟩ := ih read
    have front : Behind (d :: t :: ahead) [.dot, .identifier] ahead := ⟨[d, t], rfl, by simp [isDot, isWord]⟩
    have flat : Level [.dot, .identifier] := by simp [Level, Kind.isBrace]
    exact ⟨_, rest, front.trans behind, flat.append level, refused⟩
  | case4 path d isDot t ahead notWord =>
    cases read
    exact ⟨[.dot], t :: ahead, ⟨[d], rfl, by simp [isDot]⟩, by simp [Level, Kind.isBrace], .unexpected (by decide)⟩
  | case5 => cases read

theorem takes_path {whole : List Token} {r : Rest whole} {ks : List Kind} (word : String)
    (behind : Behind whole ks r.tokens) (level : Level ks) :
    Takes (fun _ all => ∃ dots, all = ks ++ dots ∧ Separated .dot (.identifier :: dots)) (r.path word) := by
  rw [Rest.path]
  split
  · next f read =>
    obtain ⟨ks', rest, behind', level', refused⟩ := refused_readPath read
    exact .error (behind.trans behind') (level.append level') refused
  · next name rest read =>
    obtain ⟨dots, behind', separated⟩ := behind_readPath read
    exact .ok (behind.trans behind') ⟨dots, rfl, separated⟩

/-! ## Expressions, step by step -/

section

variable {whole ahead : List Token} {minimum : Precedence} {t : Token}

theorem readExpr_name (isName : t.kind = .identifier) :
    readExpr minimum (t :: ahead) = (do
      let (name, r) ← (Rest.behind t ahead).path t.literal
      readOperators minimum (.name name) r) := by
  rw [readExpr, if_pos isName]
  cases (Rest.behind t ahead).path t.literal <;> rfl

theorem readExpr_group (opens : t.kind = .leftParen) :
    readExpr minimum (t :: ahead) = (do
      let (e, r) ← Reading.inside (.behind t ahead) (readExpr .lowest ahead)
      let (_, r) ← r.expect .rightParen
      readOperators minimum e r) := by
  have notName : t.kind ≠ .identifier := by rw [opens]; decide
  rw [readExpr, if_neg notName, if_pos opens]
  cases readExpr .lowest ahead with
  | error s => rfl
  | ok found =>
    obtain ⟨e, inner⟩ := found
    simp only [Reading.inside, bind, Except.bind]
    cases ((Rest.behind t ahead).within inner).expect .rightParen <;> rfl

theorem unaryOp?_ne {k : Kind} {op : UnaryOp} (found : k.unaryOp? = some op) : k ≠ .identifier ∧ k ≠ .leftParen := by
  cases k <;> first | decide | cases found

theorem literal?_ne {e : Expr} (literal : t.literal? = some e) :
    t.kind ≠ .identifier ∧ t.kind ≠ .leftParen ∧ t.kind.unaryOp? = none := by
  unfold Token.literal? at literal
  generalize t.kind = k at literal ⊢
  cases k <;> first | exact ⟨by decide, by decide, rfl⟩ | cases literal

theorem readExpr_unary {op : UnaryOp} (found : t.kind.unaryOp? = some op) :
    readExpr minimum (t :: ahead) = (do
      let (e, r) ← Reading.inside (.behind t ahead) (readExpr .unary ahead)
      readOperators minimum (.unary op e) r) := by
  obtain ⟨notName, notParen⟩ := unaryOp?_ne found
  rw [readExpr, if_neg notName, if_neg notParen, found]
  cases readExpr .unary ahead <;> rfl

theorem readExpr_literal {e : Expr} (literal : t.literal? = some e) :
    readExpr minimum (t :: ahead) = readOperators minimum e (.behind t ahead) := by
  obtain ⟨notName, notParen, noOperator⟩ := literal?_ne literal
  rw [readExpr, if_neg notName, if_neg notParen, noOperator, literal]

theorem readOperators_stop (left : Expr) {r : Rest whole}
    (weaker : ¬ minimum < (Failure.nextKind r.tokens).precedence) : readOperators minimum left r = .ok (left, r) := by
  obtain ⟨tokens, shorter⟩ := r
  cases tokens with
  | nil => rw [readOperators]
  | cons t ahead =>
    have weak : ¬ minimum < t.kind.precedence := weaker
    rw [readOperators, if_neg weak]

theorem readOperators_binary (left : Expr) {shorter : (t :: ahead).length < whole.length} {op : BinaryOp}
    (stronger : minimum < t.kind.precedence) (found : t.kind.binaryOp? = some op) :
    readOperators minimum left ⟨t :: ahead, shorter⟩ = (do
      let (right, r) ← Reading.inside ⟨ahead, length_lt_of_cons shorter⟩ (readExpr t.kind.precedence ahead)
      readOperators minimum (.binary left op right) r) := by
  rw [readOperators, if_pos stronger, found]
  cases readExpr t.kind.precedence ahead <;> rfl

theorem readOperators_call (left : Expr) {shorter : (t :: ahead).length < whole.length}
    (stronger : minimum < t.kind.precedence) (noOperator : t.kind.binaryOp? = none) :
    readOperators minimum left ⟨t :: ahead, shorter⟩ = (do
      let (arguments, r) ← Reading.inside ⟨ahead, length_lt_of_cons shorter⟩ (readArguments ahead)
      readOperators minimum (.call left arguments) r) := by
  rw [readOperators, if_pos stronger, noOperator]
  cases readArguments ahead <;> rfl

theorem readItems_eq (ts : List Token) :
    readItems ts = (do
      let (e, r) ← readExpr .lowest ts
      if Failure.nextKind r.tokens = .comma then
        let (_, r) ← r.expect .comma
        let (es, r) ← Reading.inside r (readItems r.tokens)
        pure (e :: es, r)
      else
        let (_, r) ← r.expect .rightParen
        pure ([e], r)) := by
  rw [readItems]
  cases readExpr .lowest ts with
  | error s => rfl
  | ok found =>
    obtain ⟨e, tokens, shorter⟩ := found
    cases tokens with
    | nil => rfl
    | cons t ahead =>
      by_cases comma : t.kind = .comma
      · have next : Failure.nextKind (t :: ahead) = .comma := comma
        simp only [if_pos comma, bind, Except.bind, if_pos next, Rest.expect]
        cases readItems ahead <;> rfl
      · have next : Failure.nextKind (t :: ahead) ≠ .comma := comma
        simp only [if_neg comma, bind, Except.bind, if_neg next, Rest.expect]
        split <;> rfl

end

/-! ## What expressions are made of -/

theorem before_of_unaryOp {k : Kind} {op : UnaryOp} (found : k.unaryOp? = some op) : k ∈ Kind.beforeOperand := by
  cases k <;> first | decide | cases found

theorem between_of_binaryOp {k : Kind} {op : BinaryOp} (found : k.binaryOp? = some op) : k ∈ Kind.betweenOperands := by
  cases k <;> first | decide | cases found

theorem literal_of_literal? {t : Token} {e : Expr} (found : t.literal? = some e) : t.kind ∈ Kind.literals := by
  unfold Token.literal? at found
  generalize t.kind = k at found ⊢
  cases k <;> first | decide | cases found

/-- What binds to an expression in front of it, and is no operator, opens the arguments of a call. -/
theorem leftParen_of_precedence {minimum : Precedence} {k : Kind} (stronger : minimum < k.precedence)
    (noOperator : k.binaryOp? = none) : k = .leftParen := by
  have bound : k.precedence.rank ≠ 0 := Nat.ne_of_gt (Nat.lt_of_le_of_lt (Nat.zero_le _) stronger)
  cases k <;> first | rfl | exact absurd rfl bound | cases noOperator

/-- What the readers of expressions take, as long as there are fewer than `n` tokens. -/
structure Sound (n : Nat) : Prop where
  expression : ∀ {ts : List Token} (minimum : Precedence), ts.length < n →
    Takes (fun _ ks => Derives .expression ks) (readExpr minimum ts)
  operators : ∀ {whole : List Token} {r : Rest whole} {ks : List Kind} (minimum : Precedence) (left : Expr),
    r.tokens.length < n → Behind whole ks r.tokens → Derives .expression ks →
    Takes (fun _ all => Derives .expression all) (readOperators minimum left r)
  arguments : ∀ {ts : List Token}, ts.length < n →
    Takes (fun _ ks => ∃ a, ks = a ++ [.rightParen] ∧ Derives .arguments a) (readArguments ts)
  items : ∀ {ts : List Token}, ts.length < n →
    Takes (fun _ ks => ∃ es, ks = es ++ [.rightParen] ∧ Derives .items es) (readItems ts)

section

variable {n : Nat} {ts : List Token}

theorem takes_expression (sound : Sound n) (minimum : Precedence) (short : ts.length ≤ n) :
    Takes (fun _ ks => Derives .expression ks) (readExpr minimum ts) := by
  cases ts with
  | nil =>
    rw [readExpr]
    exact .error (behind_nil _) (by simp [Level]) .noExpression
  | cons t ahead =>
    by_cases isName : t.kind = .identifier
    · rw [readExpr_name isName]
      refine (takes_path t.literal (behind_first isName ahead) (level_single rfl)).bind ?_
      rintro name r _ behind ⟨dots, rfl, separated⟩
      exact sound.operators minimum _ (Nat.lt_of_lt_of_le r.shorter short) behind (.name separated)
    by_cases opens : t.kind = .leftParen
    · rw [readExpr_group opens]
      refine ((sound.expression .lowest short).inside (behind_first opens ahead) (level_single rfl)).bind ?_
      rintro e r _ behind ⟨ks, rfl, derives⟩
      refine (takes_expect (by decide) behind ((level_single rfl).append (level_of_expression derives))).bind ?_
      rintro _ r _ behind rfl
      exact sound.operators minimum e (Nat.lt_of_lt_of_le r.shorter short) behind (.group derives)
    cases found : t.kind.unaryOp? with
    | some op =>
      have before := before_of_unaryOp found
      have flat : ∀ k ∈ Kind.beforeOperand, k.isBrace = false := by decide
      rw [readExpr_unary found]
      refine ((sound.expression .unary short).inside (behind_first rfl ahead) (level_single (flat _ before))).bind ?_
      rintro e r _ behind ⟨ks, rfl, derives⟩
      exact sound.operators minimum _ (Nat.lt_of_lt_of_le r.shorter short) behind (.unary before derives)
    | none =>
      cases literal : t.literal? with
      | some e =>
        rw [readExpr_literal literal]
        exact sound.operators minimum e short (behind_first rfl ahead) (.literal (literal_of_literal? literal))
      | none =>
        rw [readExpr, if_neg isName, if_neg opens, found, literal]
        exact .error (behind_nil _) (by simp [Level]) .noExpression

theorem takes_operators (sound : Sound n) {whole : List Token} {r : Rest whole} {ks : List Kind} (minimum : Precedence)
    (left : Expr) (short : r.tokens.length ≤ n) (behind : Behind whole ks r.tokens) (derives : Derives .expression ks) :
    Takes (fun _ all => Derives .expression all) (readOperators minimum left r) := by
  by_cases stronger : minimum < (Failure.nextKind r.tokens).precedence
  swap
  · rw [readOperators_stop left stronger]
    exact .ok behind derives
  obtain ⟨tokens, shorter⟩ := r
  cases tokens with
  | nil => exact absurd stronger (Nat.not_lt_zero _)
  | cons t ahead =>
    have strong : minimum < t.kind.precedence := stronger
    have level := level_of_expression derives
    cases found : t.kind.binaryOp? with
    | some op =>
      have between := between_of_binaryOp found
      have flat : ∀ k ∈ Kind.betweenOperands, k.isBrace = false := by decide
      rw [readOperators_binary left strong found]
      refine ((sound.expression _ short).inside behind.next (level.append (level_single (flat _ between)))).bind ?_
      rintro right r _ behind' ⟨e, rfl, derives'⟩
      exact sound.operators minimum _ (behind.next.shorter behind' short) behind' (.binary between derives derives')
    | none =>
      have opens := leftParen_of_precedence strong found
      have next := behind.next
      rw [opens] at next
      rw [readOperators_call left strong found]
      refine ((sound.arguments short).inside next (level.append (level_single rfl))).bind ?_
      rintro arguments r _ behind' ⟨_, rfl, a, rfl, derives'⟩
      have fewer := next.shorter behind' short
      rw [← List.append_assoc] at behind'
      exact sound.operators minimum _ fewer behind' (.call derives derives')

theorem takes_items (sound : Sound n) (short : ts.length ≤ n) :
    Takes (fun _ ks => ∃ es, ks = es ++ [.rightParen] ∧ Derives .items es) (readItems ts) := by
  rw [readItems_eq]
  refine (takes_expression sound .lowest short).bind ?_
  rintro e r ks behind derives
  have level := level_of_expression derives
  dsimp only
  split
  · refine (takes_expect (by decide) behind level).bind ?_
    rintro _ r _ behind rfl
    have fewer : r.tokens.length < n := Nat.lt_of_lt_of_le r.shorter short
    refine ((sound.items fewer).inside behind (level.append (level_single rfl))).bind ?_
    rintro es r _ behind ⟨_, rfl, es', rfl, derives'⟩
    rw [← List.append_assoc] at behind
    exact .ok behind ⟨_, rfl, .item derives derives'⟩
  · refine (takes_expect (by decide) behind level).bind ?_
    rintro _ r _ behind rfl
    exact .ok behind ⟨ks, rfl, .last derives⟩

theorem takes_arguments (sound : Sound n) (short : ts.length ≤ n) :
    Takes (fun _ ks => ∃ a, ks = a ++ [.rightParen] ∧ Derives .arguments a) (readArguments ts) := by
  have items : Takes (fun _ ks => ∃ a, ks = a ++ [.rightParen] ∧ Derives .arguments a) (readItems ts) := by
    refine (takes_items sound short).mono ?_
    rintro _ ks ⟨es, same, derives⟩
    exact ⟨es, same, .some derives⟩
  cases ts with
  | nil =>
    rw [readArguments]
    exact items
  | cons t ahead =>
    by_cases closes : t.kind = .rightParen
    · rw [readArguments, if_pos closes]
      exact .ok (behind_first closes ahead) ⟨[], rfl, .none⟩
    · rw [readArguments, if_neg closes]
      exact items

end

theorem sound_all (n : Nat) : Sound n := by
  induction n with
  | zero =>
    constructor
    · exact fun _ short => absurd short (Nat.not_lt_zero _)
    · exact fun _ _ short => absurd short (Nat.not_lt_zero _)
    · exact fun short => absurd short (Nat.not_lt_zero _)
    · exact fun short => absurd short (Nat.not_lt_zero _)
  | succ n sound =>
    constructor
    · exact fun minimum short => takes_expression sound minimum (Nat.le_of_lt_succ short)
    · exact fun minimum left short => takes_operators sound minimum left (Nat.le_of_lt_succ short)
    · exact fun short => takes_arguments sound (Nat.le_of_lt_succ short)
    · exact fun short => takes_items sound (Nat.le_of_lt_succ short)

/-- Reading an expression takes one, or gives up on its way through one. -/
theorem takes_readExpr (minimum : Precedence) (ts : List Token) :
    Takes (fun _ ks => Derives .expression ks) (readExpr minimum ts) :=
  (sound_all (ts.length + 1)).expression minimum (Nat.lt_succ_self _)

/-! ## Statements without their bodies -/

theorem behind_readNames {names : List String} {ts rest : List Token} (read : readNames ts = .ok (names, rest)) :
    ∃ words, Behind ts (words ++ [.rightParen]) rest ∧ Separated .comma words := by
  fun_induction readNames ts generalizing names rest with
  | case4 t isName c ahead isComma names' rest' read' ih =>
    cases read
    obtain ⟨words, behind, separated⟩ := ih read'
    have front : Behind (t :: c :: ahead) [.identifier, .comma] ahead := ⟨[t, c], rfl, by simp [isName, isComma]⟩
    exact ⟨.identifier :: .comma :: words, front.trans behind, .more separated⟩
  | case5 t isName c ahead notComma isParen =>
    cases read
    exact ⟨[.identifier], ⟨[t, c], rfl, by simp [isName, isParen]⟩, .word⟩
  | _ => cases read

theorem refused_readNames {ts : List Token} {f : Failure} (read : readNames ts = .error f) :
    ∃ ks rest, Behind ts ks rest ∧ Level ks ∧ Refused rest f := by
  fun_induction readNames ts generalizing f with
  | case1 =>
    cases read
    exact ⟨[], [], behind_nil [], by simp [Level], .unexpected (by decide)⟩
  | case2 t isName =>
    cases read
    exact ⟨[.identifier], [], behind_first isName [], level_single rfl, .unexpected (by decide)⟩
  | case3 t isName c ahead isComma f' read' ih =>
    cases read
    obtain ⟨ks, rest, behind, level, refused⟩ := ih read'
    have front : Behind (t :: c :: ahead) [.identifier, .comma] ahead := ⟨[t, c], rfl, by simp [isName, isComma]⟩
    have flat : Level [.identifier, .comma] := by simp [Level, Kind.isBrace]
    exact ⟨_, rest, front.trans behind, flat.append level, refused⟩
  | case4 => cases read
  | case5 => cases read
  | case6 t isName c ahead notComma notParen =>
    cases read
    exact ⟨[.identifier], c :: ahead, behind_first isName _, level_single rfl, .unexpected (by decide)⟩
  | case7 t ahead notName =>
    cases read
    exact ⟨[], t :: ahead, behind_nil _, by simp [Level], .unexpected (by decide)⟩

section

variable {whole : List Token} {r : Rest whole} {ks : List Kind}

theorem takes_expr (behind : Behind whole ks r.tokens) (level : Level ks) :
    Takes (fun _ all => ∃ e, all = ks ++ e ∧ Derives .expression e) r.expr :=
  (takes_readExpr .lowest r.tokens).inside behind level

theorem takes_parameters (behind : Behind whole ks r.tokens) (level : Level ks) :
    Takes (fun _ all => ∃ names, all = ks ++ names ++ [.rightParen] ∧ (names = [] ∨ Separated .comma names))
      r.parameters := by
  rw [Rest.parameters]
  split
  · refine (takes_expect (k := .rightParen) (by decide) behind level).bind ?_
    rintro _ r' _ behind' rfl
    exact .ok behind' ⟨[], by simp, .inl rfl⟩
  · split
    · next f read =>
      obtain ⟨ks', rest, behind', level', refused⟩ := refused_readNames read
      exact .error (behind.trans behind') (level.append level') refused
    · next names rest read =>
      obtain ⟨words, behind', separated⟩ := behind_readNames read
      exact .ok (behind.trans behind') ⟨words, by simp, .inr separated⟩

end

section

variable {t : Token}

/-- The kinds of a statement without a body. -/
def Bodiless (ks : List Kind) : Prop :=
  Derives .statement ks ∧ Level ks

/-- A statement that ends with an expression has no body. -/
theorem bodiless_of_value {front e ending : List Kind} (derives : Derives .statement (front ++ e ++ ending))
    (level : Level front) (value : Derives .expression e) (ends : ending ∈ endings) :
    Bodiless (front ++ e ++ ending) :=
  ⟨derives, (level.append (level_of_expression value)).append (level_of_ending ends)⟩

theorem takes_declaration (begins : t.kind = .letWord) (ahead : List Token) (position : Position) :
    Takes (fun _ ks => Bodiless ks) ((Rest.behind t ahead).declaration position) := by
  rw [Rest.declaration]
  refine (takes_expect (by decide) (behind_first begins ahead) (level_single rfl)).bind ?_
  rintro name r _ behind rfl
  refine (takes_expect (by decide) behind (by simp [Level, Kind.isBrace])).bind ?_
  rintro _ r _ behind rfl
  refine (takes_typeName behind (by simp [Level, Kind.isBrace])).bind ?_
  rintro type r _ behind ⟨k, named, rfl⟩
  have level : Level ([.letWord] ++ [.identifier] ++ [.colon] ++ [k]) :=
    Level.append (by simp [Level, Kind.isBrace]) (level_of_type named)
  dsimp only
  split
  · next ends => exact .ok (behind_semicolon ends behind) ⟨.declare named, level.append (level_single rfl)⟩
  · refine (takes_expect (by decide) behind level).bind ?_
    rintro _ r _ behind rfl
    have level := level.append (level_single (k := .equal) rfl)
    refine (takes_expr behind level).bind ?_
    rintro value r _ behind ⟨e, rfl, derives⟩
    obtain ⟨ending, ends, behind'⟩ := behind_skipSemicolon behind
    exact .ok behind' (bodiless_of_value (.initialise named derives ends) level derives ends)

theorem takes_assignment (begins : t.kind = .identifier) (ahead : List Token) :
    Takes (fun _ ks => Bodiless ks) ((Rest.behind t ahead).assignment t) := by
  rw [Rest.assignment]
  refine (takes_expect (by decide) (behind_first begins ahead) (level_single rfl)).bind ?_
  rintro _ r _ behind rfl
  have level : Level ([.identifier] ++ [.equal]) := by simp [Level, Kind.isBrace]
  refine (takes_expr behind level).bind ?_
  rintro value r _ behind ⟨e, rfl, derives⟩
  obtain ⟨ending, ends, behind'⟩ := behind_skipSemicolon behind
  exact .ok behind' (bodiless_of_value (.assign derives ends) level derives ends)

theorem takes_returned (begins : t.kind = .returnWord) (ahead : List Token) (position : Position) :
    Takes (fun _ ks => Bodiless ks) ((Rest.behind t ahead).returned position) := by
  rw [Rest.returned]
  refine (takes_expr (behind_first begins ahead) (level_single rfl)).bind ?_
  rintro value r _ behind ⟨e, rfl, derives⟩
  obtain ⟨ending, ends, behind'⟩ := behind_skipSemicolon behind
  exact .ok behind' (bodiless_of_value (.giveBack derives ends) (level_single rfl) derives ends)

theorem takes_evaluation (t : Token) (ahead : List Token) :
    Takes (fun _ ks => Bodiless ks) (readEvaluation t ahead) := by
  rw [readEvaluation]
  refine (takes_readExpr .lowest (t :: ahead)).bind ?_
  rintro value r ks behind derives
  obtain ⟨ending, ends, behind'⟩ := behind_skipSemicolon behind
  exact .ok behind' ⟨.evaluate derives ends, (level_of_expression derives).append (level_of_ending ends)⟩

theorem takes_condition {k : Kind} (begins : t.kind = k) (flat : k.isBrace = false) (ahead : List Token) :
    Takes (fun _ ks => ∃ c, ks = [k, .leftParen] ++ c ++ [.rightParen, .leftBrace] ∧ Derives .expression c)
      (Rest.behind t ahead).condition := by
  rw [Rest.condition]
  refine (takes_expect (by decide) (behind_first begins ahead) (level_single flat)).bind ?_
  rintro _ r _ behind rfl
  have level : Level ([k] ++ [.leftParen]) := (level_single flat).append (level_single rfl)
  refine (takes_expr behind level).bind ?_
  rintro condition r _ behind ⟨c, rfl, derives⟩
  have level := level.append (level_of_expression derives)
  refine (takes_expect (by decide) behind level).bind ?_
  rintro _ r _ behind rfl
  refine (takes_expect (by decide) behind (level.append (level_single rfl))).bind ?_
  rintro brace r _ behind rfl
  exact .ok behind ⟨c, by simp, derives⟩

theorem takes_signature (begins : t.kind = .funcWord) (ahead : List Token) :
    Takes (fun _ ks => ∃ names, ks = [.funcWord, .identifier, .leftParen] ++ names ++ [.rightParen, .leftBrace] ∧
      (names = [] ∨ Separated .comma names)) (Rest.behind t ahead).signature := by
  rw [Rest.signature]
  refine (takes_expect (by decide) (behind_first begins ahead) (level_single rfl)).bind ?_
  rintro name r _ behind rfl
  refine (takes_expect (by decide) behind (by simp [Level, Kind.isBrace])).bind ?_
  rintro _ r _ behind rfl
  have level : Level ([.funcWord] ++ [.identifier] ++ [.leftParen]) := by simp [Level, Kind.isBrace]
  refine (takes_parameters behind level).bind ?_
  rintro parameters r _ behind ⟨names, rfl, separated⟩
  have words := level_of_separated rfl separated
  refine (takes_expect (by decide) behind ((level.append words).append (level_single rfl))).bind ?_
  rintro brace r _ behind rfl
  exact .ok behind ⟨names, by simp, separated⟩

end

end Stepwise
