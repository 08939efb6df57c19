import Mathlib.Data.List.Forall2
import Stepwise.Proofs.Shadows
import Stepwise.Proofs.Trail

/-!
Runs beside a hidden binding. Two runs that differ in nothing but a binding that is hidden from the
scope they work in take the same steps (`same_next`): they pass the same checkpoints with the same
host, come to the same value, and differ in nothing but that binding at the end, which each of them
has left as it was (`shadowed_binding_out_of_reach`).
-/
namespace Stepwise

/-! ## States of two runs -/

/-- What is remembered when a binding has its second value. -/
def Memory.recast (m : Memory) (h : Shadow) : Memory :=
  ⟨m.store.recast h, m.serial, m.depth⟩

/-- What two runs remember that differ in a binding only: it has its first value in the one, and its
    second value in the other, and all else is equal. -/
structure Memory.SameBut (h : Shadow) (m m' : Memory) : Prop where
  first : m.store.Binds h.frame h.name h.first
  second : m'.store.Binds h.frame h.name h.second
  recast : m' = m.recast h

/-- A binding is hidden from the scopes of all tasks. -/
def HiddenFrom (h : Shadow) (s : Store) (stack : List Task) : Prop :=
  ∀ task ∈ stack, ∀ scope ∈ task.scope?, s.Hides h.frame h.name scope

/-- Two machines that differ in a binding only, which is hidden from all scopes they work in. -/
structure Machine.SameBut (h : Shadow) (m m' : Machine) : Prop where
  memory : m.memory.SameBut h m'.memory
  focus : m'.focus = m.focus
  stack : m'.stack = m.stack
  here : ∀ scope ∈ m.focus.scope?, m.memory.store.Hides h.frame h.name scope
  below : HiddenFrom h m.memory.store m.stack

/-- Two waiting runs that differ in a hidden binding only. -/
structure Waiting.SameBut (h : Shadow) (w w' : Waiting) : Prop where
  memory : w.memory.SameBut h w'.memory
  stack : w'.stack = w.stack
  below : HiddenFrom h w.memory.store w.stack

/-- Two steps that differ in a hidden binding only. -/
inductive Move.SameBut (h : Shadow) : Move → Move → Prop where
  | step {m m' : Machine} (same : m.SameBut h m') : SameBut h (.step m) (.step m')
  | pause (c : Checkpoint) {m m' : Machine} (same : m.SameBut h m') : SameBut h (.pause c m) (.pause c m')
  | print (p : Primitive) {m m' : Machine} (same : m.SameBut h m') : SameBut h (.print p m) (.print p m')
  | ask (r : Request) {w w' : Waiting} (same : w.SameBut h w') : SameBut h (.ask r w) (.ask r w')
  | halt (v : Value) {memory memory' : Memory} (same : memory.SameBut h memory') :
      SameBut h (.halt v memory) (.halt v memory')

/-! ## What is remembered -/

section

variable {h : Shadow} {m : Memory} {scope : FrameId} (setting : Setting)

theorem sameBut_recast (holds : m.store.Holds h) : m.SameBut h (m.recast h) :=
  ⟨holds, binds_set (inside_of_binds holds) h.name h.second, rfl⟩

theorem enclose_recast (holds : m.store.Holds h) (scope : FrameId) :
    (m.recast h).enclose scope = ((m.enclose scope).1.recast h, (m.enclose scope).2) := by
  simp only [Memory.recast, Memory.enclose, store_enclose_recast holds]

theorem set_recast {name : String} (different : ¬ (scope = h.frame ∧ name = h.name)) (v : Value) :
    (m.recast h).set scope name v = (m.set scope name v).recast h := by
  simp only [Memory.set, Memory.recast, Store.recast, set_comm m.store h.second different]

theorem define_recast (scope : FrameId) (f : Function) :
    (m.recast h).define scope f = (m.define scope f).recast h := by
  simp only [Memory.define, Memory.recast, Store.recast, define_set]

theorem setEach_recast (elsewhere : scope ≠ h.frame) (bindings : List (String × Value)) :
    (m.recast h).setEach scope bindings = (m.setEach scope bindings).recast h := by
  simp only [Memory.recast, Memory.setEach, store_setEach_recast elsewhere]

theorem adopt_recast (p : Primitive) : (m.recast h).adopt p = ((m.adopt p).1, (m.adopt p).2.recast h) := by
  cases p <;> rfl

theorem conclude_recast (outcome : Except Fault Primitive) :
    (m.recast h).conclude outcome = ((m.conclude outcome).1, (m.conclude outcome).2.recast h) := by
  cases outcome with
  | error fault => rfl
  | ok p => exact adopt_recast p

theorem lookup_recast (hides : m.store.Hides h.frame h.name scope) (name : String) :
    (m.recast h).lookup setting name scope =
      ((m.lookup setting name scope).1, (m.lookup setting name scope).2.recast h) := by
  simp only [Memory.lookup, Memory.recast, get?_recast hides, Memory.fresh]
  cases m.store.get? scope name with
  | some v => rfl
  | none =>
    cases Builtin.ofName? name with
    | some b => rfl
    | none =>
      cases (if isDotted name = true then setting.registry.resolve name ⟨.program, m.serial⟩ else none) <;> rfl

theorem callee_recast (hides : m.store.Hides h.frame h.name scope) (e : Expr) :
    (m.recast h).callee setting e scope =
      ((m.callee setting e scope).1, (m.callee setting e scope).2.recast h) := by
  cases e with
  | name name =>
    have functions : (m.recast h).store.function? scope name = m.store.function? scope name :=
      function?_set _ _ _ _ _ _
    simp only [Memory.callee, lookup_recast setting hides, functions]
    cases (if isDotted name = true then none else m.store.function? scope name) with
    | some g => rfl
    | none =>
      generalize m.lookup setting name scope = found
      obtain ⟨v, m'⟩ := found
      cases v <;> rfl
  | _ => rfl

theorem use_recast (holds : m.store.Holds h) (hides : m.store.Hides h.frame h.name scope) (v : Value) (use : Use) :
    (m.recast h).use scope v use = ((m.use scope v use).1, (m.use scope v use).2.recast h) := by
  have elsewhere := hides_ne hides
  cases use with
  | declare name type =>
    simp only [Memory.use]
    by_cases fits : v.tag = type.tag
    · simp only [if_pos fits, set_recast fun both => elsewhere both.1]
    · simp only [if_neg fits]
  | assign name =>
    have slot : (m.recast h).store.slot scope name v = m.store.slot scope name v := slot_recast holds hides name v
    simp only [Memory.use, slot]
    cases found : m.store.slot scope name v with
    | ok owner => simp only [set_recast (slot_ne hides found)]
    | error fault => rfl
  | giveBack => rfl
  | discard => rfl

/-- The effect of a statement leaves a binding hidden that is hidden from its scope. -/
theorem keepsHidden_use (hides : m.store.Hides h.frame h.name scope) (v : Value) (use : Use) :
    m.store.KeepsHidden h (m.use scope v use).2.store := by
  have elsewhere := hides_ne hides
  have kept := keepsHidden_refl h m.store
  cases use with
  | declare name type =>
    simp only [Memory.use]
    by_cases fits : v.tag = type.tag
    · simp only [if_pos fits]
      exact keepsHidden_set (fun both => elsewhere both.1) v
    · simp only [if_neg fits]
      exact kept
  | assign name =>
    simp only [Memory.use]
    cases found : m.store.slot scope name v with
    | ok owner => exact keepsHidden_set (slot_ne hides found) v
    | error fault => exact kept
  | giveBack | discard => exact kept

/-- The parameters of a call are bound in a new frame, from which the binding is hidden, too. -/
theorem keepsHidden_parameters (holds : m.store.Holds h) (hides : m.store.Hides h.frame h.name scope)
    (bindings : List (String × Value)) :
    m.store.KeepsHidden h ((m.enclose scope).1.setEach (m.enclose scope).2 bindings).enterCall.store ∧
      ((m.enclose scope).1.setEach (m.enclose scope).2 bindings).enterCall.store.Hides h.frame h.name
        (m.enclose scope).2 := by
  have opened : m.store.KeepsHidden h (m.enclose scope).1.store := keepsHidden_push _
  have inner : (m.enclose scope).1.store.Hides h.frame h.name (m.enclose scope).2 := hides_enclose holds hides
  have bound : (m.enclose scope).1.store.KeepsHidden h
      ((m.enclose scope).1.store.setEach (m.enclose scope).2 bindings) :=
    keepsHidden_setEach (hides_ne inner) bindings
  exact ⟨opened.trans bound, bound.hides _ inner⟩

end

/-! ## Steps -/

section

variable {h : Shadow} {setting : Setting} {memory : Memory} {stack : List Task} {scope : FrameId}

theorem HiddenFrom.push (below : HiddenFrom h memory.store stack) {task : Task}
    (inside : ∀ scope ∈ task.scope?, memory.store.Hides h.frame h.name scope) :
    HiddenFrom h memory.store (task :: stack) :=
  List.forall_mem_cons.mpr ⟨inside, below⟩

theorem HiddenFrom.keeps {s t : Store} (below : HiddenFrom h s stack) (kept : s.KeepsHidden h t) :
    HiddenFrom h t stack :=
  fun task member scope among => kept.hides scope (below task member scope among)

theorem same_give (holds : memory.store.Holds h) (below : HiddenFrom h memory.store stack) (v : Value) :
    Machine.SameBut h ⟨memory, .give v, stack⟩ ⟨memory.recast h, .give v, stack⟩ :=
  ⟨sameBut_recast holds, rfl, rfl, by simp [Focus.scope?], below⟩

theorem same_evaluating (holds : memory.store.Holds h) (below : HiddenFrom h memory.store stack)
    (hides : memory.store.Hides h.frame h.name scope) (e : Expr) :
    Machine.SameBut h ⟨memory, .evaluate e scope, stack⟩ ⟨memory.recast h, .evaluate e scope, stack⟩ :=
  ⟨sameBut_recast holds, rfl, rfl, by simpa [Focus.scope?] using hides, below⟩

theorem same_executing (holds : memory.store.Holds h) (below : HiddenFrom h memory.store stack)
    (hides : memory.store.Hides h.frame h.name scope) (s : Stmt) :
    Machine.SameBut h ⟨memory, .execute s scope, stack⟩ ⟨memory.recast h, .execute s scope, stack⟩ :=
  ⟨sameBut_recast holds, rfl, rfl, by simpa [Focus.scope?] using hides, below⟩

theorem same_enter (holds : memory.store.Holds h) (below : HiddenFrom h memory.store stack)
    (hides : memory.store.Hides h.frame h.name scope) (statements : List Stmt) :
    (Machine.enter statements scope stack memory).SameBut h
      (Machine.enter statements scope stack (memory.recast h)) :=
  same_give holds (below.push (by simpa [Task.scope?] using hides)) .null

theorem same_apply (holds : memory.store.Holds h) (below : HiddenFrom h memory.store stack)
    (hides : memory.store.Hides h.frame h.name scope) (callee : Callee) (arguments : List Value) :
    (Machine.apply setting callee arguments scope stack memory).SameBut h
      (Machine.apply setting callee arguments scope stack (memory.recast h)) := by
  have give (v : Value) := same_give holds below v
  cases callee with
  | function f =>
    have depth : (memory.recast h).depth = memory.depth := rfl
    simp only [Machine.apply, depth]
    by_cases fits : arguments.length ≠ f.parameters.length
    · rw [if_pos fits, if_pos fits]
      exact .step (give _)
    · rw [if_neg fits, if_neg fits]
      by_cases deep : setting.limit ≤ memory.depth
      · rw [if_pos deep, if_pos deep]
        exact .step (give _)
      · rw [if_neg deep, if_neg deep, enclose_recast holds]
        obtain ⟨kept, inner⟩ := keepsHidden_parameters holds hides (f.parameters.zip arguments)
        rw [setEach_recast (hides_ne inner)]
        have calling : HiddenFrom h _ (.leave :: stack) := (below.keeps kept).push (by simp [Task.scope?])
        exact .step (same_enter (kept.holds holds) calling inner f.body.statements)
  | builtin b =>
    cases b with
    | println =>
      simp only [Machine.apply]
      split
      · exact .print _ (give _)
      · exact .step (give _)
    | input =>
      simp only [Machine.apply]
      split
      · exact .ask _ ⟨sameBut_recast holds, rfl, below⟩
      · exact .step (give _)
    | native f => exact .ask _ ⟨sameBut_recast holds, rfl, below⟩

theorem same_argue (holds : memory.store.Holds h) (below : HiddenFrom h memory.store stack)
    (hides : memory.store.Hides h.frame h.name scope) (callee : Callee) (ready : List Value) (rest : List Expr) :
    (Machine.argue setting callee ready rest scope stack memory).SameBut h
      (Machine.argue setting callee ready rest scope stack (memory.recast h)) := by
  cases rest with
  | nil => exact same_apply holds below hides callee ready
  | cons e rest => exact .step (same_evaluating holds (below.push (by simpa [Task.scope?] using hides)) hides e)

theorem same_evaluate (holds : memory.store.Holds h) (below : HiddenFrom h memory.store stack)
    (hides : memory.store.Hides h.frame h.name scope) (e : Expr) :
    (Machine.evaluate setting e scope stack memory).SameBut h
      (Machine.evaluate setting e scope stack (memory.recast h)) := by
  cases e with
  | number x => exact .step (same_give holds below _)
  | bool b => exact .step (same_give holds below _)
  | string text =>
    have made : (memory.adopt (.string text)).2.store.Holds h := holds
    exact .step (same_give made below _)
  | name name =>
    have same := store_lookup memory setting scope name
    simp only [Machine.evaluate, lookup_recast setting hides]
    generalize memory.lookup setting name scope = found at same ⊢
    rw [← same] at holds below
    exact .step (same_give holds below found.1)
  | unary op operand => exact .step (same_evaluating holds (below.push (by simp [Task.scope?])) hides operand)
  | binary left op right =>
    exact .step (same_evaluating holds (below.push (by simpa [Task.scope?] using hides)) hides left)
  | call function arguments =>
    have same := store_callee memory setting scope function
    simp only [Machine.evaluate, callee_recast setting hides]
    generalize memory.callee setting function scope = found at same ⊢
    obtain ⟨callee, memory'⟩ := found
    rw [← same] at holds below hides
    cases callee with
    | error fault => exact .step (same_give holds below _)
    | ok callee => exact same_argue holds below hides callee [] arguments

theorem same_execute (holds : memory.store.Holds h) (below : HiddenFrom h memory.store stack)
    (hides : memory.store.Hides h.frame h.name scope) (s : Stmt) :
    (Machine.execute s scope stack memory).SameBut h (Machine.execute s scope stack (memory.recast h)) := by
  have opened : memory.store.KeepsHidden h (memory.enclose scope).1.store := keepsHidden_push _
  have inner : (memory.enclose scope).1.store.Hides h.frame h.name (memory.enclose scope).2 :=
    hides_enclose holds hides
  have elsewhere := hides_ne hides
  cases s with
  | declare position name type value =>
    cases value with
    | none =>
      have bound : memory.store.KeepsHidden h (memory.set scope name .null).store :=
        keepsHidden_set (fun both => elsewhere both.1) .null
      simp only [Machine.execute, set_recast fun both => elsewhere both.1]
      exact .pause _ (same_give (bound.holds holds) (below.keeps bound) .null)
    | some e => exact .step (same_evaluating holds (below.push (by simpa [Task.scope?] using hides)) hides e)
  | block body =>
    simp only [Machine.execute, enclose_recast holds]
    exact .step (same_enter (opened.holds holds) (below.keeps opened) inner body.statements)
  | branch position condition consequence alternative =>
    simp only [Machine.execute, enclose_recast holds]
    have choosing : HiddenFrom h (memory.enclose scope).1.store
        (.choose (.branch position condition consequence alternative) consequence alternative
          (memory.enclose scope).2 :: stack) :=
      (below.keeps opened).push (by simpa [Task.scope?] using inner)
    exact .step (same_evaluating (opened.holds holds) choosing inner condition)
  | define position name parameters body =>
    have defined : memory.store.KeepsHidden h (memory.define scope ⟨name, parameters, body⟩).store :=
      keepsHidden_define scope _
    simp only [Machine.execute, define_recast]
    exact .pause _ (same_give (defined.holds holds) (below.keeps defined) .null)
  | assign | giveBack | evaluate | loop =>
    exact .step (same_evaluating holds (below.push (by simpa [Task.scope?] using hides)) hides _)

theorem same_branch (holds : memory.store.Holds h) (below : HiddenFrom h memory.store stack)
    (hides : memory.store.Hides h.frame h.name scope) (v : Value) (consequence : Block)
    (alternative : Option Block) :
    (Machine.branch v consequence alternative scope stack memory).SameBut h
      (Machine.branch v consequence alternative scope stack (memory.recast h)) := by
  have chosen : HiddenFrom h memory.store (.chosen :: stack) := below.push (by simp [Task.scope?])
  unfold Machine.branch
  cases v.isError with
  | true => exact same_give holds below v
  | false =>
    cases v.isTrue with
    | true => exact same_enter holds chosen hides consequence.statements
    | false =>
      cases alternative with
      | none => exact same_give holds below .null
      | some block => exact same_enter holds chosen hides block.statements

theorem same_iterate (holds : memory.store.Holds h) (below : HiddenFrom h memory.store stack)
    (hides : memory.store.Hides h.frame h.name scope) (v : Value) (s : Stmt) (body : Block) :
    (Machine.iterate v s body scope stack memory).SameBut h
      (Machine.iterate v s body scope stack (memory.recast h)) := by
  unfold Machine.iterate
  cases v.isError with
  | true => exact same_give holds below v
  | false =>
    cases v.isTrue with
    | true => exact same_executing holds (below.push (by simpa [Task.scope?] using hides)) hides (.block body)
    | false => exact same_give holds below .null

theorem same_resume {task : Task} (holds : memory.store.Holds h) (tasks : HiddenFrom h memory.store (task :: stack))
    (v : Value) :
    (Machine.resume setting v task stack memory).SameBut h
      (Machine.resume setting v task stack (memory.recast h)) := by
  obtain ⟨here, below⟩ := List.forall_mem_cons.mp tasks
  have give (v : Value) := same_give holds below v
  have conclude (outcome : Except Fault Primitive) :
      Machine.SameBut h ⟨(memory.conclude outcome).2, .give (memory.conclude outcome).1, stack⟩
        ⟨(memory.conclude outcome).2.recast h, .give (memory.conclude outcome).1, stack⟩ := by
    have same := store_conclude memory outcome
    exact same_give (by rwa [same]) (by rwa [same]) _
  cases task with
  | operand op =>
    simp only [Machine.resume, conclude_recast]
    cases v.isError with
    | true => exact .step (give v)
    | false => exact .step (conclude _)
  | left op e scope =>
    simp only [Machine.resume]
    cases v.isError with
    | true => exact .step (give v)
    | false =>
      exact .step (same_evaluating holds (HiddenFrom.push below (by simp [Task.scope?])) (here scope rfl) e)
  | right op left =>
    simp only [Machine.resume, conclude_recast]
    cases v.isError with
    | true => exact .step (give v)
    | false => exact .step (conclude _)
  | argument callee ready rest scope =>
    simp only [Machine.resume]
    cases v.isError with
    | true => exact .step (give v)
    | false => exact same_argue holds below (here scope rfl) callee _ rest
  | leave =>
    have left : memory.leaveCall.store.Holds h := holds
    exact .step (same_give left below _)
  | settle use s scope =>
    -- the only task that binds a name, be it in its scope or in a frame around it
    have hides := here scope rfl
    simp only [Machine.resume, use_recast holds hides]
    cases v.isError with
    | true => exact .pause _ (give v)
    | false =>
      have kept := keepsHidden_use hides v use
      exact .pause _ (same_give (kept.holds holds) (HiddenFrom.keeps below kept) _)
  | choose s consequence alternative scope => exact .pause _ (same_branch holds below (here scope rfl) v _ _)
  | chosen => exact .step (give _)
  | test s body scope => exact .pause _ (same_iterate holds below (here scope rfl) v s body)
  | again s scope =>
    simp only [Machine.resume]
    cases v.isControl with
    | true => exact .step (give v)
    | false => exact .step (same_executing holds below (here scope rfl) s)
  | sequence rest scope =>
    simp only [Machine.resume]
    cases v.isControl with
    | true => exact .step (give v)
    | false =>
      cases rest with
      | nil => exact .step (give v)
      | cons s rest =>
        have sequenced : HiddenFrom h memory.store (.sequence rest scope :: stack) := HiddenFrom.push below here
        exact .step (same_executing holds sequenced (here scope rfl) s)
  | script rest scope =>
    cases v with
    | returned payload => exact .step (give _)
    | error fault => exact .step (give _)
    | _ =>
      cases rest with
      | nil => exact .step (give _)
      | cons s rest =>
        have scripted : HiddenFrom h memory.store (.script rest scope :: stack) := HiddenFrom.push below here
        exact .step (same_executing holds scripted (here scope rfl) s)

/-- Two machines that differ in a hidden binding only take the same step, and differ in nothing else
    behind it. -/
theorem same_next {m m' : Machine} (same : m.SameBut h m') (setting : Setting) :
    (m.next setting).SameBut h (m'.next setting) := by
  obtain ⟨memory, focus, stack⟩ := m
  obtain ⟨memory', focus', stack'⟩ := m'
  obtain ⟨⟨holds, -, recast⟩, focused, stacked, here, below⟩ := same
  dsimp only at recast focused stacked
  subst recast focused stacked
  cases focus' with
  | evaluate e scope => exact same_evaluate holds below (here scope rfl) e
  | execute s scope => exact same_execute holds below (here scope rfl) s
  | give v =>
    cases stack' with
    | nil => exact .halt v (sameBut_recast holds)
    | cons task stack => exact same_resume holds below v

end

/-! ## Runs -/

section

variable {σ ι : Type}

/-- Two runs that differ in a hidden binding only. -/
inductive Progress.SameBut (h : Shadow) : Progress ι → Progress ι → Prop where
  | running {m m' : Machine} (same : m.SameBut h m') : SameBut h (.running m) (.running m')
  | waiting (job : ι) {w w' : Waiting} (same : w.SameBut h w') : SameBut h (.waiting job w) (.waiting job w')

/-- Two steps with the host that differ in a hidden binding only. -/
inductive Stride.SameBut (h : Shadow) : Stride ι → Stride ι → Prop where
  | on {p p' : Progress ι} (same : p.SameBut h p') : SameBut h (.on p) (.on p')
  | pass (c : Checkpoint) {p p' : Progress ι} (same : p.SameBut h p') : SameBut h (.pass c p) (.pass c p')
  | wait (wakes : Bool) {p p' : Progress ι} (same : p.SameBut h p') : SameBut h (.wait wakes p) (.wait wakes p')
  | finish (v : Value) {memory memory' : Memory} (same : memory.SameBut h memory') :
      SameBut h (.finish v memory) (.finish v memory')

/-- Two runs pass the same checkpoint with the same host, and remember the same but for a binding. -/
structure Stop.SameBut (h : Shadow) (stop stop' : Stop σ) : Prop where
  checkpoint : stop'.checkpoint = stop.checkpoint
  state : stop'.state = stop.state
  memory : stop.memory.SameBut h stop'.memory

/-- Two runs stand at the same place with the same host, and differ in a hidden binding only. -/
inductive Standing.SameBut (h : Shadow) : Standing σ ι → Standing σ ι → Prop where
  | underway (state : σ) {p p' : Progress ι} (same : p.SameBut h p') :
      SameBut h (.underway state p) (.underway state p')
  | ended (state : σ) (v : Value) {memory memory' : Memory} (same : memory.SameBut h memory') :
      SameBut h (.ended state v memory) (.ended state v memory')

/-- Two pieces of runs that pass the same checkpoints and come to the same place. -/
structure Trail.SameBut (h : Shadow) (t t' : Trail σ ι) : Prop where
  stops : List.Forall₂ (Stop.SameBut h) t.stops t'.stops
  dozes : t'.dozes = t.dozes
  standing : t.standing.SameBut h t'.standing

/-- Two runs come back from a poll for the same reason. -/
inductive Turn.SameBut (h : Shadow) : Turn ι → Turn ι → Prop where
  | pending (wakes : Bool) {p p' : Progress ι} (same : p.SameBut h p') :
      SameBut h (.pending wakes p) (.pending wakes p')
  | finished (v : Value) {memory memory' : Memory} (same : memory.SameBut h memory') :
      SameBut h (.finished v memory) (.finished v memory')
  | exhausted {p p' : Progress ι} (same : p.SameBut h p') : SameBut h (.exhausted p) (.exhausted p')

/-- Two polls leave the same behind, but for a hidden binding. -/
structure Visit.SameBut (h : Shadow) (visit visit' : Visit σ ι) : Prop where
  state : visit'.state = visit.state
  turn : visit.turn.SameBut h visit'.turn
  slot : visit'.slot = visit.slot
  cancels : visit'.cancels = visit.cancels

/-- Two runs end in the same way with the same host, and remember the same but for a binding. -/
structure Evaluation.SameBut (h : Shadow) (e e' : Evaluation σ) : Prop where
  state : e'.state = e.state
  memory : e.memory.SameBut h e'.memory
  ending : e'.ending = e.ending

section

variable {h : Shadow} {p p' : Progress ι} (host : Host σ ι) (setting : Setting)

theorem same_receive {w w' : Waiting} (same : w.SameBut h w') (a : Answer) :
    (w.resume a).SameBut h (w'.resume a) := by
  obtain ⟨memory, stack⟩ := w
  obtain ⟨memory', stack'⟩ := w'
  obtain ⟨⟨holds, -, recast⟩, stacked, below⟩ := same
  dsimp only at recast stacked
  subst recast stacked
  cases a with
  | nothing => exact same_give holds below .null
  | data p =>
    have adopted := store_adopt memory p
    simp only [Waiting.resume, adopt_recast]
    exact same_give (by rwa [adopted]) (by rwa [adopted]) _
  | value v => cases v <;> exact same_give holds below _

theorem same_stride (same : p.SameBut h p') (state : σ) :
    (p'.stride host setting state).state = (p.stride host setting state).state ∧
      (p'.stride host setting state).cancels = (p.stride host setting state).cancels ∧
      (p.stride host setting state).result.SameBut h (p'.stride host setting state).result := by
  cases same with
  | @running m m' same =>
    have next := same_next same setting
    simp only [Progress.stride]
    generalize m.next setting = move at next ⊢
    generalize m'.next setting = move' at next ⊢
    cases next with
    | step same => exact ⟨rfl, rfl, .on (.running same)⟩
    | pause c same => exact ⟨rfl, rfl, .pass c (.running same)⟩
    | print p same => exact ⟨rfl, rfl, .on (.running same)⟩
    | ask r same => exact ⟨rfl, rfl, .on (.waiting _ same)⟩
    | halt v same => exact ⟨rfl, rfl, .finish v same⟩
  | waiting job same =>
    simp only [Progress.stride]
    cases (host.poll state job).result with
    | ready a => exact ⟨rfl, rfl, .on (.running (same_receive same a))⟩
    | pending job' wakes => exact ⟨rfl, rfl, .wait wakes (.waiting job' same)⟩

theorem Progress.SameBut.memory (same : p.SameBut h p') : p.memory.SameBut h p'.memory := by
  cases same with
  | running same => exact same.memory
  | waiting job same => exact same.memory

theorem Trail.SameBut.after {t t' : Trail σ ι} (same : t.SameBut h t') {stops stops' : List (Stop σ)}
    (before : List.Forall₂ (Stop.SameBut h) stops stops') (dozes : Bool) :
    (t.after stops dozes).SameBut h (t'.after stops' dozes) :=
  ⟨List.rel_append before same.stops, congrArg (dozes || ·) same.dozes, same.standing⟩

/-- Two runs that differ in a hidden binding only do so after any number of steps. -/
theorem same_trail (same : p.SameBut h p') (n : Nat) (state : σ) :
    (p.trail host setting n state).SameBut h (p'.trail host setting n state) := by
  induction n generalizing state p p' with
  | zero => exact ⟨.nil, rfl, .underway state same⟩
  | succ n ih =>
    obtain ⟨state', -, result⟩ := same_stride host setting same state
    simp only [Progress.trail, state']
    generalize (p.stride host setting state).result = stride at result ⊢
    generalize (p'.stride host setting state).result = stride' at result ⊢
    cases result with
    | on same => exact ih same _
    | @pass c q q' same =>
      have stop : Stop.SameBut h ⟨c, (p.stride host setting state).state, q.memory⟩
        ⟨c, (p.stride host setting state).state, q'.memory⟩ := ⟨rfl, rfl, same.memory⟩
      exact (ih same _).after (.cons stop .nil) false
    | wait wakes same => exact (ih same _).after .nil (!wakes)
    | finish v same => exact ⟨.nil, rfl, .ended _ v same⟩

theorem same_poll (same : p.SameBut h p') (stepping : Bool) (fuel : Nat) (state : σ) (slot : Option Checkpoint)
    (cancels : Bool) :
    (p.poll host setting stepping fuel state slot cancels).SameBut h
      (p'.poll host setting stepping fuel state slot cancels) := by
  induction fuel generalizing state slot cancels p p' with
  | zero => exact ⟨rfl, .exhausted same, rfl, rfl⟩
  | succ fuel ih =>
    obtain ⟨state', cancels', result⟩ := same_stride host setting same state
    simp only [Progress.poll, state', cancels']
    generalize (p.stride host setting state).result = stride at result ⊢
    generalize (p'.stride host setting state).result = stride' at result ⊢
    cases result with
    | on same => exact ih same _ _ _
    | pass c same =>
      cases stepping with
      | true => exact ⟨rfl, .pending false same, rfl, rfl⟩
      | false => exact ih same _ _ _
    | wait wakes same => exact ⟨rfl, .pending wakes same, rfl, rfl⟩
    | finish v same => exact ⟨rfl, .finished v same, rfl, rfl⟩

theorem same_abandon (same : p.SameBut h p') : p.abandon.SameBut h p'.abandon := by
  have stack : p'.stack = p.stack := by
    cases same with
    | running same => exact same.stack
    | waiting job same => exact same.stack
  obtain ⟨holds, -, recast⟩ := same.memory
  have abandoned : p'.abandon = p.abandon.recast h := by
    simp only [Progress.abandon, stack, recast]
    rfl
  rw [abandoned]
  exact sameBut_recast holds

theorem same_finish (same : p.SameBut h p') (fuel rounds : Nat) (state : σ) :
    (p.finish host setting fuel rounds state).SameBut h (p'.finish host setting fuel rounds state) := by
  induction rounds generalizing state p p' with
  | zero => exact ⟨rfl, same_abandon same, rfl⟩
  | succ rounds ih =>
    have polled := same_poll host setting same false fuel state none false
    simp only [Progress.finish]
    generalize p.poll host setting false fuel state none false = visit at polled ⊢
    generalize p'.poll host setting false fuel state none false = visit' at polled ⊢
    obtain ⟨state₁, turn, slot, cancels⟩ := visit
    obtain ⟨state₂, turn', slot', cancels'⟩ := visit'
    obtain ⟨rfl, turned, -, -⟩ := polled
    dsimp only at turned ⊢
    cases turned with
    | finished v same => exact ⟨rfl, same, rfl⟩
    | pending wakes same =>
      cases wakes with
      | true => exact ih same _
      | false => exact ⟨rfl, same_abandon same, rfl⟩
    | exhausted same => exact ⟨rfl, same_abandon same, rfl⟩

end

/-- What can be run in a scope: an expression, the statements of a block, or a script. -/
inductive Work where
  | expression (e : Expr)
  | block (statements : List Stmt)
  | script (statements : List Stmt)

/-- The run that is about to do some work in a scope. -/
def Work.start (memory : Memory) (scope : FrameId) : Work → Progress ι
  | expression e => .running ⟨memory, .evaluate e scope, []⟩
  | block statements => .running (.enter statements scope [] memory)
  | script statements => .running (.start memory statements scope)

/-- Two runs of the same work in a scope that begin with a difference in one binding, which is hidden
    from the scope: they pass the same checkpoints with the same host and come to the same value, in
    however many steps, and each of them leaves its binding as it was and all else as the other does. -/
theorem shadowed_binding_out_of_reach (host : Host σ ι) (setting : Setting) (work : Work) (state : σ) {h : Shadow}
    {memory memory' : Memory} {scope : FrameId} (same : memory.SameBut h memory')
    (hides : memory.store.Hides h.frame h.name scope) :
    (∀ n, ((work.start memory scope).trail host setting n state).SameBut h
      ((work.start memory' scope).trail host setting n state)) ∧
    ∀ fuel rounds, ((work.start memory scope).finish host setting fuel rounds state).SameBut h
      ((work.start memory' scope).finish host setting fuel rounds state) := by
  obtain ⟨holds, -, rfl⟩ := same
  have none : HiddenFrom h memory.store [] := by simp [HiddenFrom]
  have starts : (work.start (ι := ι) memory scope).SameBut h (work.start (memory.recast h) scope) := by
    cases work with
    | expression e => exact .running (same_evaluating holds none hides e)
    | block statements => exact .running (same_enter holds none hides statements)
    | script statements => exact .running (same_give holds (none.push (by simpa [Task.scope?] using hides)) .null)
  exact ⟨fun n => same_trail host setting starts n state,
    fun fuel rounds => same_finish host setting starts fuel rounds state⟩

end

/-- Two scopes, one inside the other, that both bind `x`. The outer one defines a function that gives
    `x` another value. -/
def nestedScopes : Memory :=
  ⟨⟨#[⟨[], Table.empty.insert "x" (.bool true), Table.empty.insert "toggle"
      ⟨"toggle", [], .mk ⟨1, 1, 0⟩ [.assign ⟨1, 1, 0⟩ "x" (.unary .not (.name "x"))]⟩⟩,
    ⟨[0], Table.empty.insert "x" (.bool false), .empty⟩]⟩, 0, 0⟩

/-- The outer binding of `x`, or another one in its place. -/
def outerBinding : Shadow :=
  ⟨0, "x", .bool true, .number 5⟩

/-- A script that calls the function. -/
def toggling : Work :=
  .script [.evaluate ⟨1, 1, 0⟩ (.call (.name "toggle") [])]

/-- A function that is called in the inner scope sees the inner binding, whatever the outer one is. -/
theorem shadowed_binding_out_of_reach_of_function :
    nestedScopes.SameBut outerBinding (nestedScopes.recast outerBinding) ∧
    nestedScopes.store.Hides outerBinding.frame outerBinding.name 1 ∧
    (∀ n, ((toggling.start nestedScopes 1).trail Rehearsal.host ⟨1000, .empty⟩ n (.start none)).SameBut outerBinding
      ((toggling.start (nestedScopes.recast outerBinding) 1).trail Rehearsal.host ⟨1000, .empty⟩ n (.start none))) ∧
    ∀ fuel rounds, Evaluation.SameBut outerBinding
      ((toggling.start nestedScopes 1).finish Rehearsal.host ⟨1000, .empty⟩ fuel rounds (.start none))
      ((toggling.start (nestedScopes.recast outerBinding) 1).finish Rehearsal.host ⟨1000, .empty⟩ fuel rounds
        (.start none)) := by
  have same : nestedScopes.SameBut outerBinding (nestedScopes.recast outerBinding) := sameBut_recast (by rfl)
  have hides : nestedScopes.store.Hides outerBinding.frame outerBinding.name 1 :=
    ⟨[1], [], rfl, by decide, 1, by decide, by decide⟩
  exact ⟨same, hides, shadowed_binding_out_of_reach Rehearsal.host ⟨1000, .empty⟩ toggling (.start none) same hides⟩

end Stepwise
