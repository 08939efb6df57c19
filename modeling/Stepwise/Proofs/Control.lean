import Stepwise.Proofs.Cancellation
import Stepwise.Proofs.Guard
import Stepwise.Proofs.Seen

/-!
Control values and what a script can get hold of. A fault is never bound to a name, and
neither is a value that goes back from a function, unless the host answers with one that
goes back twice (`control_kept_away`).
-/
namespace Stepwise

/-- Whether a value goes back from a function. -/
def Value.goesBack : Value → Bool
  | .returned _ => true
  | _ => false

/-! ## Runs -/

variable {σ ι : Type} {host : Host σ ι} {setting : Setting}

/-- A run that keeps `bad` values away, be it under way or waiting for an answer. -/
def Progress.Guards (bad : Value → Bool) : Progress ι → Prop
  | running m => m.Guards bad
  | waiting _ w => w.Guards bad

section

variable {bad : Value → Bool}

theorem guards_start (barred : Barred bad) {memory : Memory} (free : memory.store.Free bad) (script : List Stmt)
    (scope : FrameId) : (Progress.running (ι := ι) (.start memory script scope)).Guards bad := by
  have tidy : Tidy bad memory [] := ⟨free, by simp, trivial⟩
  exact guards_give barred (tidy.push (.script script scope) trivial rfl) (harmless_plain barred rfl)

/-- An answer of the host is harmless if what it wraps is. -/
theorem guards_answer (barred : Barred bad) {w : Waiting} (guards : w.Guards bad) (a : Answer)
    (harmless : ∀ v, a = .value v → v.payload.Harmless bad) : (w.resume a).Guards bad := by
  cases a with
  | nothing => exact guards_give barred guards.tidy (harmless_plain barred rfl)
  | data p =>
    have made : Tidy bad (w.memory.adopt p).2 w.stack :=
      guards.tidy.remember (by rw [store_adopt]; exact guards.tidy.store)
    exact guards_give barred made (harmless_plain barred (plain_adopt w.memory p))
  | value v =>
    have good := harmless v rfl
    cases v with
    | _ => exact guards_give barred guards.tidy good

theorem guards_stride (barred : Barred bad) {state : σ} {p : Progress ι} (guards : p.Guards bad)
    (answers : ∀ job w v, p = .waiting job w → (host.poll state job).result = .ready (.value v) →
      v.payload.Harmless bad) :
    (p.stride host setting state).result.Holds (fun _ q => q.Guards bad)
      (fun _ v memory => v.Harmless bad ∧ memory.store.Free bad) (p.stride host setting state).state := by
  cases p with
  | running m =>
    have next := guards_next barred guards setting
    simp only [Progress.stride]
    cases leads : m.next setting with
    | _ => rw [leads] at next; exact next
  | waiting job w =>
    simp only [Progress.stride]
    cases answered : (host.poll state job).result with
    | ready a =>
      refine guards_answer barred guards a ?_
      rintro v rfl
      exact answers job w v rfl answered
    | pending job' wakes => exact guards

/-- A run keeps `bad` values away as long as the host does. -/
theorem guards_trail (barred : Barred bad) {state : σ} {p : Progress ι} (guards : p.Guards bad)
    (answers : ∀ n state' job w v, (p.trail host setting n state).standing = .underway state' (.waiting job w) →
      (host.poll state' job).result = .ready (.value v) → v.payload.Harmless bad) (n : Nat) :
    (p.trail host setting n state).standing.Holds (fun _ q => q.Guards bad)
      (fun _ v memory => v.Harmless bad ∧ memory.store.Free bad) := by
  refine holds_trail (P := fun _ q => q.Guards bad) guards ?_ n
  intro n state' q stands guards
  refine guards_stride barred guards ?_
  rintro job w v rfl answered
  exact answers n state' job w v stands answered

end

/-- The store is without `bad` values wherever a run stands that keeps them away. -/
theorem free_of_holds {bad : Value → Bool} {standing : Standing σ ι}
    (holds : standing.Holds (fun _ q => q.Guards bad) (fun _ v memory => v.Harmless bad ∧ memory.store.Free bad)) :
    standing.memory.store.Free bad := by
  cases standing with
  | underway state p =>
    cases p with
    | running m => exact Machine.Guards.tidy holds |>.store
    | waiting job w => exact Waiting.Guards.tidy holds |>.store
  | ended state v memory => exact holds.2

/-! ## What a script gets hold of -/

/-- A step of a run that calls something, with all the arguments it calls it with. -/
inductive Machine.Calls (setting : Setting) : Machine → Callee → List Value → Prop where
  | bare {memory memory' : Memory} {function : Expr} {callee : Callee} {scope : FrameId} {stack : List Task}
      (found : memory.callee setting function scope = (.ok callee, memory')) :
      Calls setting ⟨memory, .evaluate (.call function []) scope, stack⟩ callee []
  | last {memory : Memory} {callee : Callee} {ready : List Value} {v : Value} {scope : FrameId} {stack : List Task}
      (faultless : v.isError = false) :
      Calls setting ⟨memory, .give v, .argument callee ready [] scope :: stack⟩ callee (ready ++ [v])

/-- What a call wants of the host. -/
def Callee.demand : Callee → List Value → Option Demand
  | .builtin .println, [v] => some (.print (.ofValue v))
  | .builtin .input, [] => some (.answer .input)
  | .builtin (.native f), arguments => some (.answer (.call f arguments))
  | _, _ => none

/-- What a move wants of the host. -/
def Move.demand : Move → Option Demand
  | print p _ => some (.print p)
  | ask r _ => some (.answer r)
  | _ => none

/-- A step makes a call that wants something of the host. -/
def Machine.Wants (setting : Setting) (m : Machine) (d : Demand) : Prop :=
  ∃ callee arguments, m.Calls setting callee arguments ∧ callee.demand arguments = some d

theorem demand_apply (setting : Setting) (callee : Callee) (arguments : List Value) (scope : FrameId)
    (stack : List Task) (memory : Memory) :
    (Machine.apply setting callee arguments scope stack memory).demand = callee.demand arguments := by
  cases callee with
  | function f =>
    simp only [Machine.apply]
    split
    · rfl
    · split <;> rfl
  | builtin b =>
    cases b with
    | println =>
      rcases arguments with _ | ⟨v, _ | ⟨w, rest⟩⟩ <;> rfl
    | input =>
      cases arguments <;> rfl
    | native f => rfl

theorem demand_argue {callee : Callee} {ready : List Value} {rest : List Expr} {scope : FrameId}
    {stack : List Task} {memory : Memory} {d : Demand}
    (wants : (Machine.argue setting callee ready rest scope stack memory).demand = some d) :
    rest = [] ∧ callee.demand ready = some d := by
  cases rest with
  | nil =>
    rw [Machine.argue, demand_apply] at wants
    exact ⟨rfl, wants⟩
  | cons e rest => cases wants

/-- What a step wants of the host, it wants by a call. -/
theorem wants_of_next {m : Machine} {d : Demand} (wants : (m.next setting).demand = some d) : m.Wants setting d := by
  obtain ⟨memory, focus, stack⟩ := m
  cases focus with
  | execute s scope =>
    cases s with
    | declare position name type value => cases value <;> cases wants
    | _ => cases wants
  | evaluate e scope =>
    cases e with
    | call function es =>
      simp only [Machine.next, Machine.evaluate] at wants
      split at wants
      · cases wants
      · next callee memory' found =>
        obtain ⟨rfl, demand⟩ := demand_argue wants
        exact ⟨callee, [], .bare found, demand⟩
    | _ => cases wants
  | give v =>
    cases stack with
    | nil => cases wants
    | cons task stack =>
      cases task with
      | argument callee ready rest scope =>
        simp only [Machine.next, Machine.resume] at wants
        split at wants
        · cases wants
        · next faultless =>
          obtain ⟨rfl, demand⟩ := demand_argue wants
          exact ⟨callee, ready ++ [v], .last (Bool.eq_false_iff.mpr faultless), demand⟩
      | leave | settle _ _ _ | choose _ _ _ _ | chosen | test _ _ _ => cases wants
      | operand _ | left _ _ _ | right _ _ | again _ _ | sequence _ _ | script _ _ =>
        simp only [Machine.next, Machine.resume] at wants
        split at wants <;> cases wants

/-- What is asked of a function of the host is a call of it. -/
theorem calls_of_ask {m : Machine} {f : Native} {arguments : List Value} {w : Waiting}
    (asks : m.next setting = .ask (.call f arguments) w) : m.Calls setting (.builtin (.native f)) arguments := by
  have wants : (m.next setting).demand = some (.answer (.call f arguments)) := by
    rw [asks]
    rfl
  obtain ⟨callee, given, calls, demand⟩ := wants_of_next wants
  rw [Callee.demand.eq_def] at demand
  split at demand
  · cases demand
  · cases demand
  · cases demand
    exact calls
  · cases demand

theorem good_of_calls {bad : Value → Bool} {m : Machine} (guards : m.Guards bad) {callee : Callee}
    {arguments : List Value} (calls : m.Calls setting callee arguments) : ∀ v ∈ arguments, bad v = false := by
  cases calls with
  | bare found => simp
  | @last _ _ ready v _ _ faultless =>
    intro w member
    rcases List.mem_append.mp member with before | last
    · exact guards.tidy.ready _ List.mem_cons_self w before
    · have harmless : v.Harmless bad := guards.focus
      rw [List.mem_singleton.mp last]
      exact harmless faultless

theorem goesBack_of_harmless {v : Value} (harmless : v.Harmless Value.isControl) : v.goesBack = false := by
  cases v with
  | returned payload => cases harmless rfl
  | _ => rfl

/-- The host never answers a run with a value that goes back and carries another one that
    does. -/
def SingleReturns (host : Host σ ι) (setting : Setting) (state : σ) (p : Progress ι) : Prop :=
  ∀ n state' job w v, (p.trail host setting n state).standing = .underway state' (.waiting job w) →
    (host.poll state' job).result ≠ .ready (.value (.returned (.returned v)))

theorem harmless_of_singleReturns {state : σ} {p : Progress ι} (single : SingleReturns host setting state p) (n : Nat)
    (state' : σ) (job : ι) (w : Waiting) (v : Value)
    (stands : (p.trail host setting n state).standing = .underway state' (.waiting job w))
    (answered : (host.poll state' job).result = .ready (.value v)) : v.payload.Harmless Value.isControl := by
  intro faultless
  cases v with
  | returned payload =>
    cases payload with
    | returned inner => exact absurd answered (single n state' job w inner stands)
    | error fault => cases faultless
    | _ => rfl
  | error fault => cases faultless
  | _ => rfl

/-- A script that no control value gets into: none is bound to a name, expressions evaluate to
    none but faults, nothing is called or asked with one, and the result is none but a fault. An
    expression has been evaluated once its value is given to the stack it was begun on. -/
structure Uncontrolled (host : Host σ ι) (setting : Setting) (state : σ) (memory : Memory) (script : List Stmt)
    (scope : FrameId) : Prop where
  bound : ∀ s, Seen host setting state memory script scope s → s.Free Value.isControl
  evaluated : ∀ n k e inner stack state₁ memory₁ state₂ memory₂ v,
    ((Progress.running (.start memory script scope)).trail host setting n state).standing =
      .underway state₁ (.running ⟨memory₁, .evaluate e inner, stack⟩) →
    ((Progress.running (.start memory script scope)).trail host setting (n + k) state).standing =
      .underway state₂ (.running ⟨memory₂, .give v, stack⟩) → v.goesBack = false
  called : ∀ n state₁ m callee arguments,
    ((Progress.running (.start memory script scope)).trail host setting n state).standing =
      .underway state₁ (.running m) →
    m.Calls setting callee arguments → ∀ v ∈ arguments, v.isControl = false
  requested : ∀ n state₁ m f arguments w,
    ((Progress.running (.start memory script scope)).trail host setting n state).standing =
      .underway state₁ (.running m) →
    m.next setting = .ask (.call f arguments) w → ∀ v ∈ arguments, v.isControl = false
  result : ∀ state' s v, Outcome host setting state memory script scope state' s v → v.goesBack = false

/-- No name of a script is ever bound to a fault, whatever the host answers. If it does not
    answer with values that go back twice, the script stays free of control values. -/
theorem control_kept_away (host : Host σ ι) (setting : Setting) (state : σ) (memory : Memory) (script : List Stmt)
    (scope : FrameId) (clean : memory.store.Free Value.isControl) :
    (∀ s, Seen host setting state memory script scope s → s.Free Value.isError) ∧
      (SingleReturns host setting state (.running (.start memory script scope)) →
        Uncontrolled host setting state memory script scope) := by
  constructor
  · intro s seen
    obtain ⟨n, rfl⟩ := seen_on_trail seen
    have faultless : memory.store.Free Value.isError := by
      intro f name v found
      have plain := clean f name v found
      cases v with
      | error fault => cases plain
      | _ => rfl
    exact free_of_holds (guards_trail barred_isError (guards_start barred_isError faultless script scope)
      (fun _ _ _ _ _ _ _ faultless => faultless) n)
  · intro single
    have guards := guards_trail barred_isControl (guards_start barred_isControl clean script scope)
      (harmless_of_singleReturns single)
    refine ⟨?_, ?_, ?_, ?_, ?_⟩
    · intro s seen
      obtain ⟨n, rfl⟩ := seen_on_trail seen
      exact free_of_holds (guards n)
    · intro n k e inner stack state₁ memory₁ state₂ memory₂ v begun done
      have before := guards n
      have after := guards (n + k)
      rw [begun] at before
      rw [done] at after
      have plain : takesPlain stack = true := Machine.Guards.focus before
      have fits : (Focus.give v).Fits Value.isControl (takesPlain stack) := Machine.Guards.focus after
      rw [plain] at fits
      exact goesBack_of_harmless fits
    · intro n state₁ m callee arguments stands calls
      have there := guards n
      rw [stands] at there
      exact good_of_calls there calls
    · intro n state₁ m f arguments w stands asks
      have there := guards n
      rw [stands] at there
      exact good_of_calls there (calls_of_ask asks)
    · intro state' s v outcome
      obtain ⟨n, memory', ended, -⟩ := outcome_on_trail outcome
      have there := guards n
      rw [ended] at there
      exact goesBack_of_harmless there.1

/-- A function of the script gives back what it got from a function of the host that wraps its
    answer once. -/
theorem uncontrolled_of_wrapped_answer :
    Uncontrolled ⟨fun s _ => ⟨s, (), false⟩, fun s _ => ⟨s, (), false⟩,
        fun s _ => ⟨s, .ready (.value (.returned (.bool true))), false⟩⟩ ⟨1000, Rehearsal.registry⟩ ()
      Memory.start.1
      [.define ⟨1, 1, 0⟩ "f" ["a"] (.mk ⟨1, 10, 9⟩ [.giveBack ⟨1, 12, 11⟩ (.name "a")]),
        .declare ⟨2, 1, 22⟩ "x" .bool (some (.call (.name "f") [.call (.name "Host.ret") [.bool true]])),
        .evaluate ⟨3, 1, 40⟩ (.name "x")]
      Memory.start.2 := by
  refine (control_kept_away _ _ _ _ _ _ ?_).2 ?_
  · exact Store.Free.push (fun f name v found => by cases found) []
  · intro n state job w v stands answered
    cases answered

end Stepwise
