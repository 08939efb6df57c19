import Stepwise.Proofs.Boundary
import Stepwise.Proofs.Composition

/-!
The attempts to read statements. Reading a script is one attempt behind another (`readScript_cons`), and so is
reading a body (`readBody_cons`); an attempt goes on to attempts in the bodies that it comes to
(`nested_readStatement`). What an attempt records is what these record, and the failure of its own if there is
one (`recorded_eq`). So all the diagnostics of a source are accounted for by the attempts that failed
(`diagnostics_accounted`).
-/
namespace Stepwise

/-- An attempt to read a statement from some tokens on. -/
structure Trial where
  first : Token
  ahead : List Token

namespace Trial

/-- What the attempt came to. -/
def attempt (x : Trial) : Attempt Stmt (x.first :: x.ahead) :=
  readStatement x.first x.ahead

/-- The statement, if one was read. -/
def statement? (x : Trial) : Option Stmt :=
  match x.attempt.outcome with
  | .ok (s, _) => some s
  | .error _ => none

/-- The failure of the attempt itself, if it failed. -/
def failure? (x : Trial) : Option Failure :=
  match x.attempt.outcome with
  | .ok _ => none
  | .error s => some s.failure

/-- What recovery leaves, if the attempt failed. -/
def recovery? (x : Trial) : Option (List Token) :=
  x.failure?.map Failure.recover

/-- The tokens with which reading goes on. -/
def onward (x : Trial) : List Token :=
  match x.attempt.outcome with
  | .ok (_, r) => r.tokens
  | .error s => s.failure.recover

/-- The failures recorded in the course of the attempt. -/
def recorded (x : Trial) : List Failure :=
  x.attempt.nested ++ x.failure?.toList

theorem length_onward_lt (x : Trial) : x.onward.length < (x.first :: x.ahead).length := by
  unfold onward
  cases x.attempt.outcome with
  | ok found => exact found.2.shorter
  | error s => exact length_recover_lt s.within

/-- An attempt either reads a statement, or fails and is recovered from. -/
theorem read_or_failed (x : Trial) :
    (∃ s, x.statement? = some s ∧ x.failure? = none) ∨
      ∃ f, x.statement? = none ∧ x.failure? = some f ∧ x.recovery? = some x.onward := by
  unfold recovery? statement? failure? onward
  cases x.attempt.outcome with
  | ok found => exact .inl ⟨found.1, rfl, rfl⟩
  | error s => exact .inr ⟨s.failure, rfl, rfl, rfl⟩

end Trial

/-- The attempts made one behind another, up to the closing brace in a body and to the end in a script. -/
def row (braced : Bool) : List Token → List Trial
  | [] => []
  | t :: ahead =>
    if braced = true ∧ t.kind = .rightBrace then []
    else ⟨t, ahead⟩ :: row braced (Trial.mk t ahead).onward
termination_by ts => ts.length
decreasing_by exact (Trial.mk t ahead).length_onward_lt

namespace Trial

/-- The attempts in each of the bodies that an attempt comes to. -/
def rows (x : Trial) : List (List Trial) :=
  (bodies x.first x.ahead).map fun body => row true body.tokens

/-- The attempts nested in an attempt, those within these apart. -/
def inner (x : Trial) : List Trial :=
  x.rows.flatten

theorem length_le_of_mem_row {braced : Bool} {ts : List Token} {x : Trial} (member : x ∈ row braced ts) :
    (x.first :: x.ahead).length ≤ ts.length := by
  fun_induction row braced ts with
  | case1 => cases member
  | case2 => cases member
  | case3 t ahead goesOn ih =>
    rcases List.mem_cons.mp member with rfl | later
    · exact Nat.le_refl _
    · exact Nat.le_trans (ih later) (Nat.le_of_lt (length_onward_lt _))

theorem length_lt_of_mem_inner {x y : Trial} (member : y ∈ x.inner) :
    (y.first :: y.ahead).length < (x.first :: x.ahead).length := by
  obtain ⟨ys, among, member⟩ := List.mem_flatten.mp member
  obtain ⟨body, -, rfl⟩ := List.mem_map.mp among
  exact Nat.lt_of_le_of_lt (length_le_of_mem_row member) body.shorter

/-- The attempts nested in an attempt at any depth, in the order in which they ended, and the attempt itself. -/
def all (x : Trial) : List Trial :=
  (x.inner.attach.flatMap fun y => y.val.all) ++ [x]
termination_by (x.first :: x.ahead).length
decreasing_by exact length_lt_of_mem_inner y.property

theorem all_eq (x : Trial) : x.all = x.inner.flatMap all ++ [x] := by
  rw [all, List.flatMap_subtype fun _ _ => rfl, List.unattach_attach]

end Trial

/-! ## Reading as attempts -/

section

variable {α β : Type} {whole : List Token}

@[simp] theorem nested_attempt_inside (earlier : List Failure) (f : α → β) (r : Rest whole) (a : Attempt α r.tokens) :
    (Attempt.inside earlier f r a).nested = earlier ++ a.nested := rfl

theorem plain_attempt_inside (earlier : List Failure) (f : α → β) (r : Rest whole) (a : Attempt α r.tokens) :
    (Attempt.inside earlier f r a).outcome.plain = a.outcome.plain.map (Prod.map f id) := by
  obtain ⟨nested, outcome⟩ := a
  cases outcome <;> rfl

end

/-- What is read of a script is what an attempt gives, and what is read behind it. -/
theorem readScript_cons (t : Token) (ahead : List Token) :
    readScript (t :: ahead) =
      ((Trial.mk t ahead).statement?.toList ++ (readScript (Trial.mk t ahead).onward).1,
        (Trial.mk t ahead).recorded ++ (readScript (Trial.mk t ahead).onward).2) := by
  rw [readScript]
  simp only [Trial.recorded, Trial.statement?, Trial.failure?, Trial.onward, Trial.attempt]
  cases readStatement t ahead with
  | mk nested outcome =>
    cases outcome with
    | ok found => simp
    | error s => simp

/-- The same of a body, in front of its closing brace. -/
theorem readBody_cons {t : Token} (other : t.kind ≠ .rightBrace) (ahead : List Token) :
    (readBody (t :: ahead)).nested =
        (Trial.mk t ahead).recorded ++ (readBody (Trial.mk t ahead).onward).nested ∧
      (readBody (t :: ahead)).outcome.plain =
        (readBody (Trial.mk t ahead).onward).outcome.plain.map
          (Prod.map ((Trial.mk t ahead).statement?.toList ++ ·) id) := by
  rw [readBody, if_neg other]
  simp only [Trial.recorded, Trial.statement?, Trial.failure?, Trial.onward, Trial.attempt]
  cases readStatement t ahead with
  | mk nested outcome =>
    cases outcome with
    | ok found => exact ⟨by simp, plain_attempt_inside nested _ found.2 _⟩
    | error s => exact ⟨by simp, plain_attempt_inside _ id ⟨s.failure.recover, _⟩ _⟩

theorem body_cons {t : Token} {ahead rest : List Token} {statements : List Stmt} (other : t.kind ≠ .rightBrace)
    (read : BodyOf (t :: ahead) statements rest) :
    ∃ later, BodyOf (Trial.mk t ahead).onward later rest ∧
      (Trial.mk t ahead).statement?.toList ++ later = statements := by
  rw [BodyOf, (readBody_cons other ahead).2] at read
  cases body : (readBody (Trial.mk t ahead).onward).outcome.plain with
  | error f =>
    rw [body] at read
    cases read
  | ok found =>
    rw [body] at read
    cases read
    exact ⟨found.1, body, rfl⟩

theorem not_bodyOf_nil {rest : List Token} {statements : List Stmt} : ¬ BodyOf [] statements rest := by
  rw [BodyOf, readBody]
  rintro ⟨⟩

theorem body_closed {t : Token} (closes : t.kind = .rightBrace) {ahead rest : List Token} {statements : List Stmt}
    (read : BodyOf (t :: ahead) statements rest) : statements = [] ∧ rest = ahead := by
  rw [BodyOf, readBody, if_pos closes] at read
  cases read
  exact ⟨rfl, rfl⟩

/-- What is recorded on the way through a statement is recorded in its bodies. -/
theorem nested_readStatement (t : Token) (ahead : List Token) :
    (readStatement t ahead).nested = (bodies t ahead).flatMap fun body => (readBody body.tokens).nested := by
  cases kind : t.kind with
  | ifWord =>
    simp only [readStatement, bodies, kind]
    cases (Rest.behind t ahead).condition with
    | error s => rfl
    | ok found =>
      obtain ⟨⟨condition, place⟩, rest, less⟩ := found
      cases first : readBody rest with
      | mk nested outcome =>
        cases outcome with
        | error s => simp [first]
        | ok found =>
          obtain ⟨statements, rest', less'⟩ := found
          by_cases otherwise : Failure.nextKind rest' = .elseWord
          · cases second : Rest.expect .leftBrace ⟨rest'.drop 1, length_drop_lt less' less⟩ with
            | error s =>
              simp only [first, if_pos otherwise, Rest.further, second]
              simp [first]
            | ok found =>
              simp only [first, if_pos otherwise, Rest.further, second]
              simp [first]
          · simp [first, otherwise]
  | whileWord =>
    simp only [readStatement, bodies, kind]
    cases (Rest.behind t ahead).condition with
    | error s => rfl
    | ok found => simp
  | funcWord =>
    simp only [readStatement, bodies, kind]
    cases (Rest.behind t ahead).signature with
    | error s => rfl
    | ok found => simp
  | leftBrace =>
    simp only [readStatement, bodies, kind]
    simp [Rest.behind]
  | identifier =>
    simp only [readStatement, bodies, kind]
    split <;> rfl
  | _ =>
    simp only [readStatement, bodies, kind]
    rfl

theorem nested_readBody (ts : List Token) : (readBody ts).nested = (row true ts).flatMap Trial.recorded := by
  fun_induction row true ts with
  | case1 =>
    rw [readBody]
    rfl
  | case2 t ahead closes =>
    rw [readBody, if_pos closes.2]
    rfl
  | case3 t ahead goesOn ih =>
    have other : t.kind ≠ .rightBrace := fun closes => goesOn ⟨rfl, closes⟩
    rw [(readBody_cons other ahead).1, List.flatMap_cons, ih]

/-- The statements of a body are those of the attempts in it that did not fail. -/
theorem statements_of_body {ts rest : List Token} {statements : List Stmt} (read : BodyOf ts statements rest) :
    statements = (row true ts).filterMap Trial.statement? := by
  fun_induction row true ts generalizing statements with
  | case1 => exact absurd read not_bodyOf_nil
  | case2 t ahead closes => exact (body_closed closes.2 read).1
  | case3 t ahead goesOn ih =>
    obtain ⟨later, body, rfl⟩ := body_cons (fun closes => goesOn ⟨rfl, closes⟩) read
    rw [List.filterMap_cons, ← ih body]
    cases (Trial.mk t ahead).statement? <;> rfl

theorem readScript_row (ts : List Token) :
    readScript ts = ((row false ts).filterMap Trial.statement?, (row false ts).flatMap Trial.recorded) := by
  fun_induction row false ts with
  | case1 =>
    rw [readScript]
    rfl
  | case2 t ahead closes => cases closes.1
  | case3 t ahead goesOn ih =>
    rw [readScript_cons, ih, List.flatMap_cons, List.filterMap_cons]
    cases (Trial.mk t ahead).statement? <;> rfl

/-! ## What attempts record -/

/-- An attempt records what the attempts nested in it record, and its own failure. -/
theorem recorded_eq (x : Trial) : x.recorded = x.inner.flatMap Trial.recorded ++ x.failure?.toList := by
  rw [Trial.recorded, Trial.attempt, nested_readStatement, Trial.inner, Trial.rows, ← List.flatMap_def,
    List.flatMap_assoc]
  simp only [nested_readBody]

/-- Everything recorded is the failure of one attempt, in the order in which they ended. -/
theorem recorded_eq_all (x : Trial) : x.recorded = x.all.filterMap Trial.failure? := by
  induction x using Trial.all.induct with
  | case1 x ih =>
    have nested : x.inner.flatMap Trial.recorded = x.inner.flatMap fun y => y.all.filterMap Trial.failure? :=
      List.flatMap_congr fun y member => ih ⟨y, member⟩
    have own : [x].filterMap Trial.failure? = x.failure?.toList := by
      cases failed : x.failure? <;> simp [failed]
    rw [recorded_eq, nested, Trial.all_eq, List.filterMap_append, List.filterMap_flatMap, own]

theorem statements_of_blocks {ts rest : List Token} {blocks : List Block} {bodies : List (List Token)}
    (read : Blocks ts blocks bodies rest) :
    blocks.map Block.statements = bodies.map fun body => (row true body).filterMap Trial.statement? := by
  induction read with
  | none => rfl
  | next behind opens read more ih =>
    rw [List.map_cons, List.map_cons, ih, ← statements_of_body read]
    rfl

/-- In the blocks of a statement there is what the attempts in its bodies gave. -/
theorem statements_inside {x : Trial} {s : Stmt} (read : x.statement? = some s) :
    s.blocks.map Block.statements = x.rows.map fun row => row.filterMap Trial.statement? := by
  unfold Trial.statement? Trial.attempt at read
  cases outcome : (readStatement x.first x.ahead).outcome with
  | error f =>
    rw [outcome] at read
    cases read
  | ok found =>
    obtain ⟨s', rest⟩ := found
    rw [outcome] at read
    cases read
    cases composed_of_read outcome with
    | block opens body =>
      simp only [Trial.rows, bodies, opens]
      exact congrArg (· :: []) (statements_of_body body)
    | other introduces blocks =>
      rw [statements_of_blocks blocks, Trial.rows, List.map_map, List.map_map]
      rfl

/-! ## Sources -/

/-- The attempts to read the statements of a source, one behind another. -/
def trials (source : String) : List Trial :=
  row false (sourceTokens source)

/-- All the attempts made in a source, in the order in which they ended. -/
def allTrials (source : String) : List Trial :=
  (trials source).flatMap Trial.all

/-- How an attempt is accounted for: if it read a statement, its bodies are what was read in it and it recorded
    nothing but what was recorded in them; if it failed, it recorded one failure more. -/
inductive Trial.Accounted (x : Trial) : Prop where
  | read (s : Stmt) (read : x.statement? = some s) (fine : x.failure? = none)
      (inside : s.blocks.map Block.statements = x.rows.map fun row => row.filterMap Trial.statement?)
      (recorded : x.recorded = x.inner.flatMap Trial.recorded)
  | failed (f : Failure) (dropped : x.statement? = none) (failed : x.failure? = some f)
      (recorded : x.recorded = x.inner.flatMap Trial.recorded ++ [f]) (recovered : x.recovery? = some x.onward)

theorem accounted (x : Trial) : x.Accounted := by
  rcases x.read_or_failed with ⟨s, read, fine⟩ | ⟨f, dropped, failed, recovered⟩
  · refine .read s read fine (statements_inside read) ?_
    rw [recorded_eq, fine]
    exact List.append_nil _
  · refine .failed f dropped failed ?_ recovered
    rw [recorded_eq, failed]
    rfl

/-- What the attempts to read statements account for: the script and its diagnostics. -/
structure Account (source : String) (parsed : Parsed) : Prop where
  script : parsed.script = (trials source).filterMap Trial.statement?
  recorded : parsed.diagnostics =
    ((trials source).flatMap Trial.recorded).map (·.diagnostic (Scanner.ofSource source).readAll.2)
  each : ∀ x ∈ allTrials source, x.Accounted
  own : parsed.diagnostics =
    ((allTrials source).filterMap Trial.failure?).map (·.diagnostic (Scanner.ofSource source).readAll.2)
  failed : parsed.diagnostics.length = (allTrials source).countP fun x => x.statement?.isNone
  recovered : parsed.diagnostics.length = ((allTrials source).filterMap Trial.recovery?).length
  whole : parsed.diagnostics = [] ↔ ∀ x ∈ allTrials source, ∃ s, x.statement? = some s

/-- Every diagnostic is that of one failed attempt to read a statement, and every failed attempt has its
    diagnostic. -/
theorem diagnostics_accounted (source : String) : Account source (parse source) := by
  have rows := readScript_row (sourceTokens source)
  have own : (trials source).flatMap Trial.recorded = (allTrials source).filterMap Trial.failure? := by
    rw [allTrials, List.filterMap_flatMap]
    exact List.flatMap_congr fun x _ => recorded_eq_all x
  have failures : (readScript (sourceTokens source)).2 = (allTrials source).filterMap Trial.failure? := by
    rw [rows]
    exact own
  have length : (parse source).diagnostics.length = (allTrials source).countP fun x => x.failure?.isSome := by
    rw [parse_eq, List.length_map, failures, List.length_filterMap_eq_countP]
  refine ⟨?_, ?_, fun x _ => accounted x, ?_, ?_, ?_, ?_⟩
  · rw [parse_eq, rows]
    rfl
  · rw [parse_eq, rows]
    rfl
  · rw [parse_eq, failures]
  · rw [length]
    refine List.countP_congr fun x _ => ?_
    rcases x.read_or_failed with ⟨s, read, fine⟩ | ⟨f, dropped, failed, -⟩
    · simp [read, fine]
    · simp [dropped, failed]
  · rw [length, List.length_filterMap_eq_countP]
    refine List.countP_congr fun x _ => ?_
    simp [Trial.recovery?]
  · rw [parse_eq, List.map_eq_nil_iff, failures, List.filterMap_eq_nil_iff]
    refine forall₂_congr fun x _ => ?_
    rcases x.read_or_failed with ⟨s, read, fine⟩ | ⟨f, dropped, failed, -⟩
    · simp [read, fine]
    · simp [dropped, failed]

end Stepwise
