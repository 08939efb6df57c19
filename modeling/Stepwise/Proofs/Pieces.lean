import Stepwise.Proofs.Agreement
import Stepwise.Proofs.Boundary
import Stepwise.Proofs.Course
import Stepwise.Proofs.LayoutIrrelevance
import Stepwise.Proofs.Stacks

/-!
A script in pieces. The statements of a script run one after the other, each from where the one before
has left off, until one of them ends the script (`reaches_of_proceeds`, `settles_of_interrupted`). So a
source whose last token is a semicolon can be run on its own, and what comes behind it afterwards: if
no statement of the first piece ends the script, this is the run of the whole, and if one does, the
second piece makes no difference to the whole (`evaluate_pieces`).
-/
namespace Stepwise

section

variable {σ ι : Type}

/-! ## Statements one after the other -/

/-- A statement, run by itself in a scope, comes to its end with a value. -/
def Completes (host : Host σ ι) (setting : Setting) (scope : FrameId) (s : Stmt) (state : σ) (memory : Memory)
    (v : Value) (state' : σ) (memory' : Memory) : Prop :=
  ∃ n, (Progress.running (ι := ι) ⟨memory, .execute s scope, []⟩).Settles host setting n state state' v memory'

/-- Every statement, run where the one before has left off, completes with a value that does not end the
    script. -/
inductive Proceeds (host : Host σ ι) (setting : Setting) (scope : FrameId) :
    σ → Memory → List Stmt → σ → Memory → Prop where
  | done (state : σ) (memory : Memory) : Proceeds host setting scope state memory [] state memory
  | next {state state₁ state' : σ} {memory memory₁ memory' : Memory} {s : Stmt} {rest : List Stmt} {v : Value}
      (completes : Completes host setting scope s state memory v state₁ memory₁) (plain : v.isControl = false)
      (later : Proceeds host setting scope state₁ memory₁ rest state' memory') :
      Proceeds host setting scope state memory (s :: rest) state' memory'

/-- Statements complete, each where the one before has left off, up to one whose value ends the
    script. -/
inductive Interrupted (host : Host σ ι) (setting : Setting) (scope : FrameId) :
    σ → Memory → List Stmt → Value → σ → Memory → Prop where
  | here {state state' : σ} {memory memory' : Memory} {s : Stmt} {rest : List Stmt} {v : Value}
      (completes : Completes host setting scope s state memory v state' memory') (control : v.isControl = true) :
      Interrupted host setting scope state memory (s :: rest) v state' memory'
  | later {state state₁ state' : σ} {memory memory₁ memory' : Memory} {s : Stmt} {rest : List Stmt} {v w : Value}
      (completes : Completes host setting scope s state memory v state₁ memory₁) (plain : v.isControl = false)
      (later : Interrupted host setting scope state₁ memory₁ rest w state' memory') :
      Interrupted host setting scope state memory (s :: rest) w state' memory'

section

variable {host : Host σ ι} {setting : Setting} {scope : FrameId} {state state' : σ} {memory memory' : Memory}
  {v : Value}

/-- A script goes on with its next statement. -/
theorem trail_script_cons (host : Host σ ι) (setting : Setting) (scope : FrameId) (memory : Memory)
    (plain : v.isControl = false) (s : Stmt) (rest : List Stmt) (state : σ) :
    (Progress.running (ι := ι) ⟨memory, .give v, [.script (s :: rest) scope]⟩).trail host setting 1 state =
      ⟨[], false, .underway state (.running ⟨memory, .execute s scope, [.script rest scope]⟩)⟩ := by
  cases v with
  | returned payload => cases plain
  | error fault => cases plain
  | _ => rfl

/-- A statement of a script that completes gives its value to what is left of the script. -/
theorem trail_of_statement {s : Stmt} {w : Value} (plain : v.isControl = false)
    (completes : Completes host setting scope s state memory w state' memory') (rest : List Stmt) :
    ∃ k stops, (Progress.running (ι := ι) ⟨memory, .give v, [.script (s :: rest) scope]⟩).trail host setting k state =
      ⟨stops, false, .underway state' (.running ⟨memory', .give w, [.script rest scope]⟩)⟩ := by
  obtain ⟨n, stops, whole⟩ := completes
  obtain ⟨k, onto⟩ := trail_onto [.script rest scope] whole
  exact ⟨_, _, trail_of_piece (trail_script_cons host setting scope memory plain s rest state) onto⟩

/-- A script behind the statements that complete. -/
theorem reaches_of_proceeds {first : List Stmt}
    (proceeds : Proceeds host setting scope state memory first state' memory') (rest : List Stmt)
    (plain : v.isControl = false) :
    ∃ k stops w, w.isControl = false ∧
      (Progress.running (ι := ι) ⟨memory, .give v, [.script (first ++ rest) scope]⟩).trail host setting k state =
        ⟨stops, false, .underway state' (.running ⟨memory', .give w, [.script rest scope]⟩)⟩ := by
  induction proceeds generalizing v with
  | done state memory => exact ⟨0, [], v, plain, rfl⟩
  | @next state state₁ state' memory memory₁ memory' s first w completes plain' later ih =>
    obtain ⟨j, stops₁, one⟩ := trail_of_statement plain completes (first ++ rest)
    obtain ⟨k, stops₂, u, plain'', two⟩ := ih plain'
    exact ⟨_, _, u, plain'', trail_of_piece one two⟩

/-- A script that is at its end hands out the value it has. -/
theorem settles_of_last (plain : v.isControl = false) (state : σ) :
    (Progress.running (ι := ι) ⟨memory, .give v, [.script [] scope]⟩).Settles host setting 2 state state v memory := by
  cases v with
  | returned payload => cases plain
  | error fault => cases plain
  | _ => exact ⟨[], rfl⟩

/-- A script that is ended hands out what its statement gave back, or the fault. -/
theorem settles_of_control (control : v.isControl = true) (rest : List Stmt) (state : σ) :
    (Progress.running (ι := ι) ⟨memory, .give v, [.script rest scope]⟩).Settles host setting 2 state state v.payload
      memory := by
  cases v with
  | returned payload => exact ⟨[], rfl⟩
  | error fault => exact ⟨[], rfl⟩
  | _ => cases control

/-- A script that is interrupted ends there, whatever is left of it. -/
theorem settles_of_interrupted {first : List Stmt} {w : Value}
    (interrupted : Interrupted host setting scope state memory first w state' memory') (rest : List Stmt)
    (plain : v.isControl = false) :
    ∃ n, (Progress.running (ι := ι) ⟨memory, .give v, [.script (first ++ rest) scope]⟩).Settles host setting n state
      state' w.payload memory' := by
  induction interrupted generalizing v with
  | @here state state' memory memory' s first w completes control =>
    obtain ⟨j, stops, one⟩ := trail_of_statement plain completes (first ++ rest)
    exact ⟨_, settles_behind one (settles_of_control control _ state')⟩
  | @later state state₁ state' memory memory₁ memory' s first u w completes plain' later ih =>
    obtain ⟨j, stops, one⟩ := trail_of_statement plain completes (first ++ rest)
    obtain ⟨n, settles⟩ := ih plain'
    exact ⟨_, settles_behind one settles⟩

/-- What is left of a script goes on in the same way behind any statement that does not end it. -/
theorem settles_congr {w u : Value} {rest : List Stmt} (some : rest ≠ []) (plain : v.isControl = false)
    (plain' : w.isControl = false) {n : Nat}
    (settles : (Progress.running (ι := ι) ⟨memory, .give v, [.script rest scope]⟩).Settles host setting n state state' u
      memory') :
    ∃ k, (Progress.running (ι := ι) ⟨memory, .give w, [.script rest scope]⟩).Settles host setting k state state' u
      memory' := by
  obtain ⟨s, rest, rfl⟩ := List.exists_cons_of_ne_nil some
  -- the next statement begins in the same way behind both values
  obtain ⟨-, m, -, later⟩ := settles_rest settles (trail_script_cons host setting scope memory plain s rest state)
  exact ⟨_, settles_behind (trail_script_cons host setting scope memory plain' s rest state) later⟩

end

/-! ## Sources -/

/-- Running a source comes to an end with a value, however many steps more it is given. -/
structure Evaluates (host : Host σ ι) (setting : Setting) (state : σ) (memory : Memory) (source : String)
    (scope : FrameId) (e : Evaluation σ) : Prop where
  ends : ∃ v, e.ending = .value v
  run : ∃ least, ∀ fuel, least ≤ fuel → evaluate host setting fuel state memory source scope = .ok e

section

variable {host : Host σ ι} {setting : Setting} {scope : FrameId} {state : σ} {memory : Memory} {source : String}

theorem evaluate_of_clean (clean : (parse source).diagnostics = []) (host : Host σ ι) (setting : Setting) (fuel : Nat)
    (state : σ) (memory : Memory) (scope : FrameId) :
    evaluate host setting fuel state memory source scope =
      .ok (execute host setting fuel state memory (parse source).script scope) := by
  simp only [evaluate, clean, List.isEmpty_nil, if_pos]

theorem evaluates_of_settles (clean : (parse source).diagnostics = []) {n : Nat} {state' : σ} {v : Value}
    {memory' : Memory}
    (settles : (Progress.running (ι := ι) (.start memory (parse source).script scope)).Settles host setting n state
      state' v memory') :
    Evaluates host setting state memory source scope ⟨state', memory', .value v⟩ := by
  refine ⟨⟨v, rfl⟩, n, fun fuel enough => ?_⟩
  rw [evaluate_of_clean clean, execute, finish_of_settles settles enough enough]

theorem settles_of_evaluates (clean : (parse source).diagnostics = []) {e : Evaluation σ}
    (evaluates : Evaluates host setting state memory source scope e) :
    ∃ v n, e.ending = .value v ∧
      (Progress.running (ι := ι) (.start memory (parse source).script scope)).Settles host setting n state e.state v
        e.memory := by
  obtain ⟨⟨v, ending⟩, least, runs⟩ := evaluates
  have ran := runs least (Nat.le_refl least)
  rw [evaluate_of_clean clean] at ran
  obtain ⟨state', memory', ended⟩ := e
  dsimp only at ending
  subst ending
  obtain ⟨n, settles⟩ := settles_of_finish (Except.ok.inj ran)
  exact ⟨v, n, rfl, settles⟩

theorem Evaluation.Alike.symm {e e' : Evaluation σ} (alike : e.Alike e') : e'.Alike e :=
  ⟨alike.state.symm, alike.ending.symm, fun f => (alike.bindings f).symm, alike.depth.symm, alike.memory.symm⟩

/-- Running a script at other places comes to the same end, up to places. -/
theorem alike_of_settles {script script' : List Stmt} (same : script'.map Stmt.bare = script.map Stmt.bare) {n : Nat}
    {state' : σ} {v : Value} {memory' : Memory}
    (settles : (Progress.running (ι := ι) (.start memory script scope)).Settles host setting n state state' v memory') :
    ∃ k state'' memory'', (Progress.running (ι := ι) (.start memory script' scope)).Settles host setting k state state''
        v memory'' ∧
      (Evaluation.mk state' memory' (.value v)).Alike ⟨state'', memory'', .value v⟩ := by
  have alike := alike_execute host setting n state memory scope same
  have ran : execute host setting n state memory script scope = ⟨state', memory', .value v⟩ :=
    finish_of_settles settles (Nat.le_refl n) (Nat.le_refl n)
  rw [ran] at alike
  generalize execution : execute host setting n state memory script' scope = e at alike
  obtain ⟨state'', memory'', ending⟩ := e
  obtain rfl : ending = .value v := alike.ending
  obtain ⟨k, settles'⟩ := settles_of_finish execution
  exact ⟨k, state'', memory'', settles', alike⟩

end

end

/-- The script of two sources that are read without a failure, the first of which ends with a semicolon. -/
theorem script_joined {a b : String} (cleanA : (parse a).diagnostics = []) (cleanB : (parse b).diagnostics = [])
    (ends : EndsStatement a) :
    (parse (a ++ "\n" ++ b)).script = (parse a).script ++ (parse b).script.map (Stmt.move (Position.behind a)) ∧
      (parse (a ++ "\n" ++ b)).diagnostics = [] := by
  have whole := readScript_joined ends (.inr cleanA) b
  simp only [parse_eq, List.map_eq_nil_iff] at cleanA cleanB ⊢
  rw [whole, cleanA, cleanB]
  exact ⟨rfl, rfl⟩

/-- A script without its places is the same wherever it was. -/
theorem bare_move (f : Position → Position) (source : String) :
    ((parse source).script.map (Stmt.move f)).map Stmt.bare = (parse source).script.map Stmt.bare := by
  obtain ⟨moved, -⟩ := @moves_readScript f (fun _ => True) (sourceTokens source) fun _ _ => trivial
  obtain ⟨bare, -⟩ := @moves_readScript nowhere (fun _ => True) (sourceTokens source) fun _ _ => trivial
  obtain ⟨twice, -⟩ := @moves_readScript nowhere (fun _ => True) ((sourceTokens source).map (Token.move f))
    fun _ _ => trivial
  rw [List.map_map, show Token.move nowhere ∘ Token.move f = Token.move nowhere from rfl, bare, moved] at twice
  exact (congrArg Prod.fst twice).symm

/-- A script can be run in pieces. If the first piece ends with a semicolon and none of its statements ends
    the script, then running it and afterwards the second piece is, up to places, the same as running both
    as one. If one of its statements gives back a value or a fault, running both as one is the same as
    running the first piece alone. -/
theorem evaluate_pieces {a b : String} (cleanA : (parse a).diagnostics = []) (cleanB : (parse b).diagnostics = [])
    (ends : EndsStatement a) (some : (parse b).script ≠ []) {σ ι : Type} (host : Host σ ι) (setting : Setting)
    (state : σ) (memory : Memory) (scope : FrameId) :
    (∀ state₁ memory₁, Proceeds host setting scope state memory (parse a).script state₁ memory₁ →
      (∃ v, Evaluates host setting state memory a scope ⟨state₁, memory₁, .value v⟩) ∧
      (∀ e, Evaluates host setting state₁ memory₁ b scope e →
        ∃ e', Evaluates host setting state memory (a ++ "\n" ++ b) scope e' ∧ e.Alike e') ∧
      ∀ e', Evaluates host setting state memory (a ++ "\n" ++ b) scope e' →
        ∃ e, Evaluates host setting state₁ memory₁ b scope e ∧ e.Alike e') ∧
    ∀ v state₁ memory₁, Interrupted host setting scope state memory (parse a).script v state₁ memory₁ →
      Evaluates host setting state memory a scope ⟨state₁, memory₁, .value v.payload⟩ ∧
      Evaluates host setting state memory (a ++ "\n" ++ b) scope ⟨state₁, memory₁, .value v.payload⟩ := by
  obtain ⟨script, clean⟩ := script_joined cleanA cleanB ends
  have bare := bare_move (Position.behind a) b
  generalize moved : (parse b).script.map (Stmt.move (Position.behind a)) = second at script bare
  have more : second ≠ [] := by
    rintro rfl
    exact some (List.map_eq_nil_iff.mp moved)
  refine ⟨fun state₁ memory₁ proceeds => ⟨?_, ?_, ?_⟩, fun v state₁ memory₁ interrupted => ⟨?_, ?_⟩⟩
  -- the first piece alone, and then the two ways between the second piece and the whole
  · obtain ⟨k, stops, v, plain, piece⟩ := reaches_of_proceeds proceeds [] (v := .null) rfl
    rw [List.append_nil] at piece
    exact ⟨v, evaluates_of_settles cleanA (settles_behind piece (settles_of_last plain state₁))⟩
  · intro e evaluates
    obtain ⟨k, stops, v, plain, piece⟩ := reaches_of_proceeds proceeds second (v := .null) rfl
    obtain ⟨w, n, ending, settles⟩ := settles_of_evaluates cleanB evaluates
    obtain ⟨m, state', memory', settles', alike⟩ := alike_of_settles bare settles
    obtain ⟨j, later⟩ := settles_congr more rfl plain settles'
    rw [← script] at piece
    have whole := evaluates_of_settles clean (settles_behind piece later)
    obtain ⟨state₂, memory₂, ending₂⟩ := e
    obtain rfl : ending₂ = .value w := ending
    exact ⟨_, whole, alike⟩
  · intro e' evaluates
    obtain ⟨k, stops, v, plain, piece⟩ := reaches_of_proceeds proceeds second (v := .null) rfl
    obtain ⟨w, n, ending, settles⟩ := settles_of_evaluates clean evaluates
    rw [script] at settles
    obtain ⟨-, m, -, later⟩ := settles_rest settles piece
    obtain ⟨j, settles'⟩ := settles_congr more plain (w := .null) rfl later
    obtain ⟨i, state₂, memory₂, alone, alike⟩ := alike_of_settles bare.symm settles'
    obtain ⟨state', memory', ending'⟩ := e'
    obtain rfl : ending' = .value w := ending
    exact ⟨_, evaluates_of_settles cleanB alone, alike.symm⟩
  · obtain ⟨n, settles⟩ := settles_of_interrupted interrupted [] (v := .null) rfl
    rw [List.append_nil] at settles
    exact evaluates_of_settles cleanA settles
  · obtain ⟨n, settles⟩ := settles_of_interrupted interrupted second (v := .null) rfl
    rw [← script] at settles
    exact evaluates_of_settles clean settles

/-- A declaration and then a use of its name; and a script that ends before the use. -/
theorem evaluate_pieces_of_declaration :
    (∃ e e' : Evaluation Rehearsal.State,
      Evaluates Rehearsal.host ⟨1000, .empty⟩ (.start none)
        ⟨⟨#[⟨[], Table.empty.insert "x" (.bool true), .empty⟩]⟩, 0, 0⟩ "x;" 0 e ∧
      Evaluates Rehearsal.host ⟨1000, .empty⟩ (.start none) Memory.start.1
        ("let x: bool = true;" ++ "\n" ++ "x;") 0 e' ∧
      e.Alike e') ∧
    Evaluates Rehearsal.host ⟨1000, .empty⟩ (.start none) Memory.start.1 ("return true;" ++ "\n" ++ "x;") 0
      ⟨.start none, Memory.start.1, .value (.bool true)⟩ := by
  have use : (parse "x;").script = [.evaluate ⟨1, 1, 0⟩ (.name "x")] := by with_unfolding_all rfl
  have declaration : (parse "let x: bool = true;").script = [.declare ⟨1, 1, 0⟩ "x" .bool (some (.bool true))] := by
    with_unfolding_all rfl
  have ending : (parse "return true;").script = [.giveBack ⟨1, 1, 0⟩ (.bool true)] := by with_unfolding_all rfl
  have clean : (parse "x;").diagnostics = [] := by decide +kernel
  have some : (parse "x;").script ≠ [] := by simp [use]
  have declared := evaluate_pieces (a := "let x: bool = true;") (by decide +kernel) clean
    (by unfold EndsStatement; decide +kernel) some Rehearsal.host ⟨1000, .empty⟩ (.start none) Memory.start.1 0
  have ended := evaluate_pieces (a := "return true;") (by decide +kernel) clean
    (by unfold EndsStatement; decide +kernel) some Rehearsal.host ⟨1000, .empty⟩ (.start none) Memory.start.1 0
  have proceeds : Proceeds Rehearsal.host ⟨1000, .empty⟩ 0 (.start none) Memory.start.1
      (parse "let x: bool = true;").script (.start none)
      ⟨⟨#[⟨[], Table.empty.insert "x" (.bool true), .empty⟩]⟩, 0, 0⟩ := by
    rw [declaration]
    exact .next (v := .null) ⟨4, _, rfl⟩ rfl (.done _ _)
  have interrupted : Interrupted Rehearsal.host ⟨1000, .empty⟩ 0 (.start none) Memory.start.1
      (parse "return true;").script (.returned (.bool true)) (.start none) Memory.start.1 := by
    rw [ending]
    exact .here ⟨4, _, rfl⟩ rfl
  have used : Evaluates Rehearsal.host ⟨1000, .empty⟩ (.start none)
      ⟨⟨#[⟨[], Table.empty.insert "x" (.bool true), .empty⟩]⟩, 0, 0⟩ "x;" 0
      ⟨.start none, ⟨⟨#[⟨[], Table.empty.insert "x" (.bool true), .empty⟩]⟩, 0, 0⟩, .value (.bool true)⟩ := by
    refine evaluates_of_settles clean (n := 6) ?_
    rw [use]
    exact ⟨_, rfl⟩
  obtain ⟨e', whole, alike⟩ := (declared.1 _ _ proceeds).2.1 _ used
  exact ⟨⟨_, e', used, whole, alike⟩, (ended.2 _ _ _ interrupted).2⟩

end Stepwise
