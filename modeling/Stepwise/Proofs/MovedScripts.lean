import Stepwise.Proofs.Places

/-!
Statements and scripts at other places. What is read off moved tokens are the moved statements, and
the failures are the moved ones (`moves_readStatement`), also where reading goes on behind a
failure (`moves_readScript`).
-/
namespace Stepwise

section

variable {f : Position → Position} {W : Kind × String → Prop} {whole whole' : List Token}

/-! ## Statements without their bodies -/

section

variable {r : Rest whole} {r' : Rest whole'} (elsewhere : Elsewhere f W r.tokens r'.tokens)

include elsewhere

theorem moves_expr : r.expr.Moves f W (Expr.Uses W) id r'.expr :=
  (moves_readExpr .lowest elsewhere).inside

theorem moves_declaration (position : Position) :
    (r.declaration position).Moves f W (Stmt.Uses W) (Stmt.move f) (r'.declaration (f position)) := by
  rw [Rest.declaration, Rest.declaration]
  refine (moves_expect elsewhere .identifier).bind ?_
  rintro name r r' ⟨isName, known⟩ elsewhere
  rw [Token.content, isName] at known
  refine (moves_expect elsewhere .colon).bind ?_
  intro _ r r' _ elsewhere
  refine (moves_typeName elsewhere).bind ?_
  intro type r r' _ elsewhere
  have next := nextKind_elsewhere elsewhere
  by_cases ends : Failure.nextKind r.tokens = .semicolon
  · simp only [if_pos ends, if_pos (next.trans ends)]
    have uses : (Stmt.declare position name.literal type none).Uses W := .declare known (by simp)
    exact .ok (g := Stmt.move f) uses (elsewhere_skipSemicolon elsewhere)
  · simp only [if_neg ends, if_neg (next ▸ ends)]
    refine (moves_expect elsewhere .equal).bind ?_
    intro _ r r' _ elsewhere
    refine (moves_expr elsewhere).bind ?_
    intro value r r' initial elsewhere
    have uses : (Stmt.declare position name.literal type (some value)).Uses W := .declare known (by simpa using initial)
    exact .ok (g := Stmt.move f) uses (elsewhere_skipSemicolon elsewhere)

theorem moves_assignment {name : Token} (known : W (.identifier, name.literal)) :
    (r.assignment name).Moves f W (Stmt.Uses W) (Stmt.move f) (r'.assignment (name.move f)) := by
  rw [Rest.assignment, Rest.assignment]
  refine (moves_expect elsewhere .equal).bind ?_
  intro _ r r' _ elsewhere
  refine (moves_expr elsewhere).bind ?_
  intro value r r' assigned elsewhere
  have uses : (Stmt.assign name.position name.literal value).Uses W := .assign known assigned
  exact .ok (g := Stmt.move f) uses (elsewhere_skipSemicolon elsewhere)

theorem moves_returned (position : Position) :
    (r.returned position).Moves f W (Stmt.Uses W) (Stmt.move f) (r'.returned (f position)) := by
  rw [Rest.returned, Rest.returned]
  refine (moves_expr elsewhere).bind ?_
  intro value r r' given elsewhere
  have uses : (Stmt.giveBack position value).Uses W := .giveBack given
  exact .ok (g := Stmt.move f) uses (elsewhere_skipSemicolon elsewhere)

theorem moves_condition :
    r.condition.Moves f W (fun c => c.1.Uses W) (Prod.map id f) r'.condition := by
  rw [Rest.condition, Rest.condition]
  refine (moves_expect elsewhere .leftParen).bind ?_
  intro _ r r' _ elsewhere
  refine (moves_expr elsewhere).bind ?_
  intro condition r r' tested elsewhere
  refine (moves_expect elsewhere .rightParen).bind ?_
  intro _ r r' _ elsewhere
  refine (moves_expect elsewhere .leftBrace).bind ?_
  intro brace r r' _ elsewhere
  exact .ok (a := (condition, brace.position)) (g := Prod.map id f) tested elsewhere

theorem moves_signature :
    r.signature.Moves f W (fun c => W (.identifier, c.1) ∧ ∀ x ∈ c.2.1, W (.identifier, x))
      (Prod.map id (Prod.map id f)) r'.signature := by
  rw [Rest.signature, Rest.signature]
  refine (moves_expect elsewhere .identifier).bind ?_
  rintro name r r' ⟨isName, known⟩ elsewhere
  rw [Token.content, isName] at known
  refine (moves_expect elsewhere .leftParen).bind ?_
  intro _ r r' _ elsewhere
  refine (moves_parameters elsewhere).bind ?_
  intro parameters r r' each elsewhere
  refine (moves_expect elsewhere .leftBrace).bind ?_
  intro brace r r' _ elsewhere
  exact .ok (a := (name.literal, parameters, brace.position)) (g := Prod.map id (Prod.map id f)) ⟨known, each⟩ elsewhere

end

theorem moves_evaluation {t : Token} {ahead ahead' : List Token}
    (elsewhere : Elsewhere f W (t :: ahead) (t.move f :: ahead')) :
    (readEvaluation t ahead).Moves f W (Stmt.Uses W) (Stmt.move f) (readEvaluation (t.move f) ahead') := by
  rw [readEvaluation, readEvaluation]
  refine (moves_readExpr .lowest elsewhere).bind ?_
  intro value r r' evaluated elsewhere
  have uses : (Stmt.evaluate t.position value).Uses W := .evaluate evaluated
  exact .ok (g := Stmt.move f) uses (elsewhere_skipSemicolon elsewhere)

/-! ## Attempts -/

section

variable {α β : Type} {good : α → Prop} {good' : β → Prop} {g : α → α} {g' : β → β}

/-- Attempts at two places: the failures of one are those of the other, moved. -/
structure Attempt.Moves (f : Position → Position) (W : Kind × String → Prop) (good : α → Prop) (g : α → α)
    (a : Attempt α whole) (a' : Attempt α whole') : Prop where
  nested : a'.nested = a.nested.map (Failure.move f)
  outcome : a.outcome.Moves f W good g a'.outcome

theorem Attempt.Moves.inside {r : Rest whole} {r' : Rest whole'} {a : Attempt α r.tokens} {a' : Attempt α r'.tokens}
    {earlier earlier' : List Failure} {h h' : α → β} (moves : a.Moves f W good g a')
    (before : earlier' = earlier.map (Failure.move f)) (fits : ∀ x, good x → good' (h x))
    (same : ∀ x, h' (g x) = g' (h x)) :
    (Attempt.inside earlier h r a).Moves f W good' g' (Attempt.inside earlier' h' r' a') := by
  subst before
  obtain ⟨nested, outcome⟩ := a
  obtain ⟨nested', outcome'⟩ := a'
  obtain ⟨rfl, moved⟩ := moves
  refine ⟨by simp [Attempt.inside], ?_⟩
  cases outcome with
  | error s =>
    obtain ⟨s', rfl, moved, known⟩ := moved.of_error
    show Stepwise.Moves f W good' g' (.error s.failure) (.error s'.failure)
    rw [moved]
    exact .error known
  | ok found =>
    obtain ⟨x, rest⟩ := found
    obtain ⟨rest', rfl, good_, elsewhere⟩ := moved.of_ok
    show Stepwise.Moves f W good' g' (.ok (h x, rest.tokens)) (.ok (h' (g x), rest'.tokens))
    rw [same]
    exact .ok (fits x good_) elsewhere

theorem Attempt.Moves.of_error {nested : List Failure} {s : Stuck whole} {a' : Attempt α whole'}
    (moves : Attempt.Moves f W good g (⟨nested, .error s⟩ : Attempt α whole) a') :
    ∃ s', a' = ⟨nested.map (Failure.move f), .error s'⟩ ∧ s'.failure = s.failure.move f ∧
      ∀ t ∈ s.failure.ahead, W t.content := by
  obtain ⟨nested', outcome'⟩ := a'
  obtain ⟨rfl, moved⟩ := moves
  obtain ⟨s', rfl, moved, known⟩ := moved.of_error
  exact ⟨s', rfl, moved, known⟩

theorem Attempt.Moves.of_ok {nested : List Failure} {x : α} {r : Rest whole} {a' : Attempt α whole'}
    (moves : Attempt.Moves f W good g (⟨nested, .ok (x, r)⟩ : Attempt α whole) a') :
    ∃ r', a' = ⟨nested.map (Failure.move f), .ok (g x, r')⟩ ∧ good x ∧ Elsewhere f W r.tokens r'.tokens := by
  obtain ⟨nested', outcome'⟩ := a'
  obtain ⟨rfl, moved⟩ := moves
  obtain ⟨r', rfl, fits, elsewhere⟩ := moved.of_ok
  exact ⟨r', rfl, fits, elsewhere⟩

/-- Something that was read, and what it is at the other place. -/
theorem moves_found {x x' : α} {r : Rest whole} {r' : Rest whole'} (nested : List Failure) (fits : good x)
    (moved : g x = x') (left : Elsewhere f W r.tokens r'.tokens) :
    Attempt.Moves f W good g (⟨nested, .ok (x, r)⟩ : Attempt α whole)
      (⟨nested.map (Failure.move f), .ok (x', r')⟩ : Attempt α whole') := by
  subst moved
  exact ⟨rfl, .ok fits left⟩

/-- A failure on the way is one of the whole attempt. -/
theorem moves_failed {s : Stuck whole} {s' : Stuck whole'} (nested : List Failure)
    (moved : s'.failure = s.failure.move f) (known : ∀ t ∈ s.failure.ahead, W t.content) :
    Attempt.Moves (α := α) f W good g ⟨nested, .error s⟩ ⟨nested.map (Failure.move f), .error s'⟩ := by
  refine ⟨rfl, ?_⟩
  show Stepwise.Moves f W good g (.error s.failure) (.error s'.failure)
  rw [moved]
  exact .error known

end

end

/-! ## Statements and bodies -/

section

variable (f : Position → Position) (W : Kind × String → Prop)

/-- A statement that was read is moved with its tokens. -/
def MovesStatement (t : Token) (ahead : List Token) : Prop :=
  (∀ u ∈ t :: ahead, W u.content) → (readStatement t ahead).Moves f W (Stmt.Uses W) (Stmt.move f)
    (readStatement (t.move f) (ahead.map (Token.move f)))

/-- A body that was read is moved with its tokens. -/
def MovesBody (ts : List Token) : Prop :=
  (∀ u ∈ ts, W u.content) → (readBody ts).Moves f W (fun ss => ∀ s ∈ ss, s.Uses W) (List.map (Stmt.move f))
    (readBody (ts.map (Token.move f)))

end

section

variable {f : Position → Position} {W : Kind × String → Prop}

/-- A body where the tokens left in front of it are moved. -/
theorem MovesBody.elsewhere {rest rest' : List Token} (body : MovesBody f W rest) (left : Elsewhere f W rest rest') :
    (readBody rest).Moves f W (fun ss => ∀ s ∈ ss, s.Uses W) (List.map (Stmt.move f)) (readBody rest') := by
  obtain ⟨rfl, known⟩ := left
  exact body known

/-- A token behind the first of those that are left. -/
theorem moves_behind {whole whole' rest rest' : List Token} (left : Elsewhere f W rest rest')
    (less : (rest.drop 1).length < whole.length) (less' : (rest'.drop 1).length < whole'.length) (k : Kind) :
    (Rest.expect k ⟨rest.drop 1, less⟩).Moves f W (fun t => t.kind = k ∧ W t.content) (Token.move f)
      (Rest.expect k ⟨rest'.drop 1, less'⟩) := by
  obtain ⟨rfl, known⟩ := left
  exact moves_expect ⟨List.map_drop.symm, fun t member => known t (List.mem_of_mem_drop member)⟩ k

/-- A statement without a body. -/
theorem moves_bodiless {whole whole' : List Token} {x : Reading Stmt whole} {x' : Reading Stmt whole'}
    (moves : x.Moves f W (Stmt.Uses W) (Stmt.move f) x') :
    Attempt.Moves f W (Stmt.Uses W) (Stmt.move f) ⟨[], x⟩ ⟨[], x'⟩ :=
  ⟨rfl, moves⟩

theorem moves_both : (∀ t ahead, MovesStatement f W t ahead) ∧ ∀ ts, MovesBody f W ts := by
  have behind {t : Token} {ahead : List Token} (known : ∀ u ∈ t :: ahead, W u.content) :
      Elsewhere f W (Rest.behind t ahead).tokens (Rest.behind (t.move f) (ahead.map (Token.move f))).tokens :=
    ⟨rfl, fun u member => known u (List.mem_cons_of_mem t member)⟩
  apply readStatement.mutual_induct
  -- Declarations and returns.
  · intro t ahead begins known
    simp only [readStatement, kind_move, begins]
    exact moves_bodiless (moves_declaration (behind known) t.position)
  · intro t ahead begins known
    simp only [readStatement, kind_move, begins]
    exact moves_bodiless (moves_returned (behind known) t.position)
  -- Branches: no condition, no body, a body and then nothing, no brace, another body.
  · intro t ahead begins s failed known
    have moves := moves_condition (behind known)
    rw [failed] at moves
    obtain ⟨s', failed', moved, known'⟩ := moves.of_error
    simp only [readStatement, kind_move, begins, failed, failed']
    exact moves_failed [] moved known'
  · intro t ahead begins condition brace rest less read nested s failed body known
    have moves := moves_condition (behind known)
    rw [read] at moves
    obtain ⟨⟨rest', less'⟩, read', tested, left⟩ := moves.of_ok
    have inner := body.elsewhere left
    rw [failed] at inner
    obtain ⟨s', failed', moved, known'⟩ := inner.of_error
    simp only [readStatement, kind_move, begins, read, read', Prod.map_apply, failed, failed']
    exact moves_failed nested moved known'
  · intro t ahead begins condition brace rest less read nested body rest' less' done otherwise s failed inner known
    have moves := moves_condition (behind known)
    rw [read] at moves
    obtain ⟨⟨rest₁, less₁⟩, read₁, tested, left⟩ := moves.of_ok
    have first := inner.elsewhere left
    rw [done] at first
    obtain ⟨⟨rest₂, less₂⟩, done₂, each, left⟩ := first.of_ok
    have next := (nextKind_elsewhere left).trans otherwise
    have brace := moves_behind left (length_drop_lt less' less) (length_drop_lt less₂ less₁) .leftBrace
    rw [failed] at brace
    obtain ⟨s', failed', moved, known'⟩ := brace.of_error
    simp only [readStatement, kind_move, begins, read, read₁, Prod.map_apply, done, done₂, if_pos otherwise, if_pos next,
      failed, failed']
    exact moves_failed nested moved known'
  · intro t ahead begins condition brace rest less read nested body rest' less' done otherwise brace' rest'' less''
      found inner alternative known
    have moves := moves_condition (behind known)
    rw [read] at moves
    obtain ⟨⟨rest₁, less₁⟩, read₁, tested, left⟩ := moves.of_ok
    have first := inner.elsewhere left
    rw [done] at first
    obtain ⟨⟨rest₂, less₂⟩, done₂, each, left⟩ := first.of_ok
    have next := (nextKind_elsewhere left).trans otherwise
    have brace := moves_behind left (length_drop_lt less' less) (length_drop_lt less₂ less₁) .leftBrace
    rw [found] at brace
    obtain ⟨⟨rest₃, less₃⟩, found₃, -, left⟩ := brace.of_ok
    simp only [readStatement, kind_move, begins, read, read₁, Prod.map_apply, done, done₂, if_pos otherwise, if_pos next,
      found, found₃]
    refine (alternative.elsewhere left).inside rfl ?_ ?_
    · intro body' each'
      exact .branch tested each (by rintro _ ⟨⟩; exact each')
    · intro body'
      simp [Stmt.move, Token.move]
  · intro t ahead begins condition brace rest less read nested body rest' less' done otherwise inner known
    have moves := moves_condition (behind known)
    rw [read] at moves
    obtain ⟨⟨rest₁, less₁⟩, read₁, tested, left⟩ := moves.of_ok
    have first := inner.elsewhere left
    rw [done] at first
    obtain ⟨⟨rest₂, less₂⟩, done₂, each, left⟩ := first.of_ok
    have next := nextKind_elsewhere left
    simp only [readStatement, kind_move, begins, read, read₁, Prod.map_apply, done, done₂, if_neg otherwise,
      if_neg (next ▸ otherwise)]
    have uses : (Stmt.branch t.position condition (.mk brace body) none).Uses W := .branch tested each (by simp)
    have moved : (Stmt.branch t.position condition (.mk brace body) none).move f =
        .branch (f t.position) condition (.mk (f brace) (body.map (Stmt.move f))) none := by simp [Stmt.move]
    exact moves_found nested uses moved left
  -- Loops and definitions: no header, or a body.
  · intro t ahead begins s failed known
    have moves := moves_condition (behind known)
    rw [failed] at moves
    obtain ⟨s', failed', moved, known'⟩ := moves.of_error
    simp only [readStatement, kind_move, begins, failed, failed']
    exact moves_failed [] moved known'
  · intro t ahead begins condition brace rest less read body known
    have moves := moves_condition (behind known)
    rw [read] at moves
    obtain ⟨⟨rest', less'⟩, read', tested, left⟩ := moves.of_ok
    simp only [readStatement, kind_move, begins, read, read', Prod.map_apply]
    refine (body.elsewhere left).inside rfl ?_ ?_
    · intro statements each
      exact .loop tested each
    · intro statements
      simp [Stmt.move, Token.move]
  · intro t ahead begins s failed known
    have moves := moves_signature (behind known)
    rw [failed] at moves
    obtain ⟨s', failed', moved, known'⟩ := moves.of_error
    simp only [readStatement, kind_move, begins, failed, failed']
    exact moves_failed [] moved known'
  · intro t ahead begins name parameters brace rest less read body known
    have moves := moves_signature (behind known)
    rw [read] at moves
    obtain ⟨⟨rest', less'⟩, read', ⟨named, words⟩, left⟩ := moves.of_ok
    simp only [readStatement, kind_move, begins, read, read', Prod.map_apply]
    refine (body.elsewhere left).inside rfl ?_ ?_
    · intro statements each
      exact .define named words each
    · intro statements
      simp [Stmt.move, Token.move]
  -- Blocks, assignments, and expressions.
  · intro t ahead begins body known
    simp only [readStatement, kind_move, begins]
    refine (body.elsewhere (behind known)).inside rfl ?_ ?_
    · intro statements each
      exact .block each
    · intro statements
      simp [Stmt.move, Token.move]
  · intro t ahead begins assigns known
    have first := known t List.mem_cons_self
    rw [Token.content, begins] at first
    simp only [readStatement, kind_move, begins, nextKind_move, if_pos assigns]
    exact moves_bodiless (moves_assignment (behind known) first)
  · intro t ahead begins evaluates known
    simp only [readStatement, kind_move, begins, nextKind_move, if_neg evaluates]
    exact moves_bodiless (moves_evaluation ⟨rfl, known⟩)
  · intro t ahead notLet notReturn notIf notWhile notFunc notBrace notName known
    simp only [readStatement, kind_move]
    exact moves_bodiless (moves_evaluation ⟨rfl, known⟩)
  -- Bodies: the end of the source, the closing brace, a statement, a malformed statement.
  · intro known
    rw [List.map_nil, readBody]
    exact ⟨rfl, moves_unexpected _ ⟨rfl, known⟩⟩
  · intro t ahead closes known
    rw [List.map_cons, readBody, if_pos closes, readBody, if_pos ((kind_move f t).trans closes)]
    exact moves_found [] (by simp) rfl (behind known)
  · intro t ahead opens nested s rest less read statement body known
    have first := statement known
    rw [read] at first
    obtain ⟨⟨rest', less'⟩, read', uses, left⟩ := first.of_ok
    rw [List.map_cons, readBody, if_neg opens, read, readBody, if_neg (kind_move f t ▸ opens), read']
    refine (body.elsewhere left).inside rfl ?_ ?_
    · intro statements each
      exact List.forall_mem_cons.mpr ⟨uses, each⟩
    · intro statements
      rw [List.map_cons]
  · intro t ahead opens nested x within failed statement body known
    have first := statement known
    rw [failed] at first
    obtain ⟨⟨y, within'⟩, failed', moved, known'⟩ := first.of_error
    obtain rfl : y = x.move f := moved
    have left : Elsewhere f W x.recover (x.move f).recover :=
      ⟨recover_move f x, fun u member => known' u (x.recover_suffix.subset member)⟩
    rw [List.map_cons, readBody, if_neg opens, failed, readBody, if_neg (kind_move f t ▸ opens), failed']
    refine (body.elsewhere left).inside ?_ (fun _ each => each) fun _ => rfl
    rw [List.map_append, List.map_singleton]

theorem moves_readStatement {t : Token} {ahead : List Token} (known : ∀ u ∈ t :: ahead, W u.content) :
    (readStatement t ahead).Moves f W (Stmt.Uses W) (Stmt.move f)
      (readStatement (t.move f) (ahead.map (Token.move f))) :=
  moves_both.1 t ahead known

/-- A script is moved with its tokens, and so are the failures in it. -/
theorem moves_readScript {ts : List Token} (known : ∀ u ∈ ts, W u.content) :
    readScript (ts.map (Token.move f)) =
        ((readScript ts).1.map (Stmt.move f), (readScript ts).2.map (Failure.move f)) ∧
      ∀ s ∈ (readScript ts).1, s.Uses W := by
  fun_induction readScript ts with
  | case1 => simp [readScript]
  | case2 t ahead nested s rest less read statements failures later ih =>
    have first := moves_readStatement (f := f) known
    rw [read] at first
    obtain ⟨⟨rest', less'⟩, read', uses, left⟩ := first.of_ok
    obtain ⟨rfl, known'⟩ := left
    obtain ⟨moved, each⟩ := ih known'
    rw [later] at moved each
    refine ⟨?_, List.forall_mem_cons.mpr ⟨uses, each⟩⟩
    rw [List.map_cons, readScript, read']
    simp only [moved, List.map_append, List.map_cons]
  | case3 t ahead nested x within failed statements failures later ih =>
    have first := moves_readStatement (f := f) known
    rw [failed] at first
    obtain ⟨⟨y, within'⟩, failed', moved, known'⟩ := first.of_error
    obtain rfl : y = x.move f := moved
    obtain ⟨rest, each⟩ := ih fun u member => known' u (x.recover_suffix.subset member)
    rw [later] at rest each
    refine ⟨?_, each⟩
    rw [List.map_cons, readScript, failed']
    simp only [recover_move, rest, List.map_append, List.map_cons]

end

end Stepwise
