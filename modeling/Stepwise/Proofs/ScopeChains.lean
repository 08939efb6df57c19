import Stepwise.Proofs.Cancellation
import Stepwise.Proofs.Outward
import Stepwise.Proofs.Seen

/-!
Scope chains in use. Whatever is done with a store, by hand, by running scripts or by stepping through them,
frames are only added to it, each with none around it or inside a frame that was there (`extends_of_develops`).
So in every store that comes about the way outward from a frame is finite, where a frame lies never
changes, and a frame that is made inside another one sees what that one sees (`chained_of_developed`).
-/
namespace Stepwise

/-! ## Stores that grow -/

/-- From one store to another frames have only been added: those that were there lie where they lay, and if
    they were linked, all are. -/
structure Store.Extends (s t : Store) : Prop where
  size : s.frames.size ≤ t.frames.size
  outers : ∀ f < s.frames.size, t.outers f = s.outers f
  linked : s.Linked → t.Linked

section

variable {s t u : Store}

theorem extends_of_outers (size : t.frames.size = s.frames.size) (same : ∀ f, t.outers f = s.outers f) : s.Extends t :=
  ⟨Nat.le_of_eq size.symm, fun f _ => same f, fun linked => linked.of_outers same⟩

theorem extends_of_eq (same : t = s) : s.Extends t := by
  subst same
  exact extends_of_outers rfl fun _ => rfl

theorem Store.Extends.trans (one : s.Extends t) (two : t.Extends u) : s.Extends u := by
  refine ⟨Nat.le_trans one.size two.size, fun f inside => ?_, fun linked => two.linked (one.linked linked)⟩
  rw [two.outers f (Nat.lt_of_lt_of_le inside one.size), one.outers f inside]

theorem extends_set (s : Store) (f : FrameId) (name : String) (v : Value) : s.Extends (s.set f name v) :=
  extends_of_outers (size_set s f name v) fun g => outers_set s f g name v

theorem extends_setEach (s : Store) (f : FrameId) (bindings : List (String × Value)) :
    s.Extends (s.setEach f bindings) := by
  induction bindings generalizing s with
  | nil => exact extends_of_eq rfl
  | cons b rest ih => exact (extends_set s f b.1 b.2).trans (ih (s.set f b.1 b.2))

theorem extends_update {f : FrameId} {name : String} {v : Value} (updated : s.update f name v = .ok t) : s.Extends t := by
  obtain ⟨g, -, rfl⟩ := set_of_update updated
  exact extends_set s g name v

theorem extends_define (s : Store) (f : FrameId) (function : Function) : s.Extends (s.define f function) :=
  extends_of_outers (size_define s f function) fun g => outers_define s f g function

theorem extends_push {outers : List FrameId} (fits : ∀ g ∈ outers.head?, g < s.frames.size ∧ outers = s.chain g) :
    s.Extends (s.push outers) := by
  refine ⟨?_, fun f inside => ?_, fun linked => linked.push fits⟩
  · simp [Store.push]
  · rw [outers_push, if_neg (Nat.ne_of_lt inside)]

theorem extends_root (s : Store) : s.Extends s.root.1 :=
  extends_push nofun

theorem extends_enclose {f : FrameId} (inside : f < s.frames.size) : s.Extends (s.enclose f).1 := by
  refine extends_push fun g first => ?_
  obtain rfl : f = g := Option.some.inj first
  exact ⟨inside, rfl⟩

end

/-! ## Steps -/

section

variable {setting : Setting} {memory : Memory} {stack : List Task} {scope : FrameId}

theorem extends_use (v : Value) (use : Use) (scope : FrameId) :
    memory.store.Extends (memory.use scope v use).2.store := by
  cases use with
  | declare name type =>
    simp only [Memory.use]
    split
    · exact extends_set _ _ _ _
    · exact extends_of_eq rfl
  | assign name =>
    simp only [Memory.use]
    split
    · exact extends_set _ _ _ _
    · exact extends_of_eq rfl
  | giveBack | discard => exact extends_of_eq rfl

/-- A call makes a frame inside the scope of the call, and binds the parameters there. -/
theorem extends_apply (inside : scope < memory.store.frames.size) (callee : Callee) (arguments : List Value) :
    memory.store.Extends (Machine.apply setting callee arguments scope stack memory).memory.store := by
  cases callee with
  | function g =>
    simp only [Machine.apply]
    split
    · exact extends_of_eq rfl
    · split
      · exact extends_of_eq rfl
      · have opened : memory.store.Extends (memory.enclose scope).1.store := extends_enclose inside
        exact opened.trans (extends_setEach _ _ _)
  | builtin b =>
    cases b with
    | println | input =>
      simp only [Machine.apply]
      split <;> exact extends_of_eq rfl
    | native g => exact extends_of_eq rfl

theorem extends_argue (inside : scope < memory.store.frames.size) (callee : Callee) (ready : List Value)
    (rest : List Expr) :
    memory.store.Extends (Machine.argue setting callee ready rest scope stack memory).memory.store := by
  cases rest with
  | nil => exact extends_apply inside callee ready
  | cons e rest => exact extends_of_eq rfl

theorem extends_evaluate (inside : scope < memory.store.frames.size) (e : Expr) :
    memory.store.Extends (Machine.evaluate setting e scope stack memory).memory.store := by
  cases e with
  | name name => exact extends_of_eq (store_lookup memory setting scope name)
  | call function arguments =>
    have same := store_callee memory setting scope function
    simp only [Machine.evaluate]
    generalize memory.callee setting function scope = found at same ⊢
    obtain ⟨callee, memory'⟩ := found
    cases callee with
    | error fault => exact extends_of_eq same
    | ok callee =>
      refine (extends_of_eq same).trans (extends_argue ?_ callee [] arguments)
      rwa [show memory'.store = memory.store from same]
  | _ => exact extends_of_eq rfl

theorem extends_execute (inside : scope < memory.store.frames.size) (s : Stmt) :
    memory.store.Extends (Machine.execute s scope stack memory).memory.store := by
  have opened : memory.store.Extends (memory.enclose scope).1.store := extends_enclose inside
  cases s with
  | declare position name type value =>
    cases value with
    | none => exact extends_set _ _ _ _
    | some e => exact extends_of_eq rfl
  | block body => exact opened
  | branch position condition consequence alternative => exact opened
  | define position name parameters body => exact extends_define _ _ _
  | _ => exact extends_of_eq rfl

theorem extends_resume {task : Task} (placed : Placed memory.store.frames.size (task :: stack)) (v : Value) :
    memory.store.Extends (Machine.resume setting v task stack memory).memory.store := by
  obtain ⟨here, -⟩ := List.forall_mem_cons.mp placed
  have kept : memory.store.Extends memory.store := extends_of_eq rfl
  cases task with
  | operand op | right op left =>
    simp only [Machine.resume]
    split
    · exact kept
    · exact extends_of_eq (store_conclude memory _)
  | argument callee ready rest scope =>
    simp only [Machine.resume]
    split
    · exact kept
    · exact extends_argue (here scope rfl) callee _ rest
  | settle use s scope =>
    simp only [Machine.resume]
    cases v.isError with
    | true => exact kept
    | false => exact extends_use v use scope
  | choose s consequence alternative scope =>
    exact extends_of_eq (congrArg Memory.store (memory_branch v consequence alternative scope))
  | test s body scope => exact extends_of_eq (congrArg Memory.store (memory_iterate v s body scope))
  | left _ _ _ | again _ _ | sequence _ _ | script _ _ =>
    simp only [Machine.resume]
    split <;> exact kept
  | leave | chosen => exact kept

/-- A step adds frames at most. -/
theorem extends_next {m : Machine} (placed : m.Placed) (setting : Setting) :
    m.memory.store.Extends (m.next setting).memory.store := by
  obtain ⟨memory, focus, stack⟩ := m
  obtain ⟨here, below⟩ := placed
  cases focus with
  | evaluate e scope => exact extends_evaluate (here scope rfl) e
  | execute s scope => exact extends_execute (here scope rfl) s
  | give v =>
    cases stack with
    | nil => exact extends_of_eq rfl
    | cons task stack => exact extends_resume below v

end

/-! ## Runs and sessions -/

section

variable {σ ι : Type} {host : Host σ ι} {setting : Setting}

theorem extends_step (host : Host σ ι) (setting : Setting) (state : σ) {p : Progress ι} (placed : p.Placed) :
    p.memory.store.Extends (p.trail host setting 1 state).standing.memory.store := by
  cases p with
  | running m =>
    rw [memory_step]
    exact extends_next placed setting
  | waiting job w => exact extends_of_eq (store_answer host setting state job w)

/-- A run adds frames at most, however far it goes. -/
theorem extends_trail (host : Host σ ι) (setting : Setting) (state : σ) {p : Progress ι} (placed : p.Placed) (n : Nat) :
    p.memory.store.Extends (p.trail host setting n state).standing.memory.store := by
  induction n with
  | zero => exact extends_of_eq rfl
  | succ n ih =>
    have there := placed_trail host setting state placed n
    rw [standing_add]
    cases stands : (p.trail host setting n state).standing with
    | underway state' q =>
      rw [stands] at ih there
      exact ih.trans (extends_step host setting state' there)
    | ended state' v memory =>
      rw [stands] at ih
      exact ih

/-- A piece of a run has added frames at most, and goes on in frames that are there. -/
theorem extends_piece {k : Nat} {state : σ} {p : Progress ι} {stops : List (Stop σ)} {dozes : Bool}
    {standing : Standing σ ι} (placed : p.Placed) (way : p.trail host setting k state = ⟨stops, dozes, standing⟩) :
    p.memory.store.Extends standing.memory.store ∧ standing.Holds (fun _ q => q.Placed) fun _ _ _ => True := by
  have extended := extends_trail host setting state placed k
  have there := placed_trail host setting state placed k
  rw [way] at extended there
  exact ⟨extended, there⟩

theorem extends_execute_script (host : Host σ ι) (setting : Setting) (fuel : Nat) (state : σ) {memory : Memory}
    (script : List Stmt) {scope : FrameId} (inside : scope < memory.store.frames.size) :
    memory.store.Extends (execute host setting fuel state memory script scope).memory.store := by
  have placed := placed_start (ι := ι) inside script
  obtain ⟨n, -, store, -⟩ :=
    finish_on_trail host setting fuel fuel state (.running (ι := ι) (.start memory script scope))
  rw [execute, store]
  exact extends_trail host setting state placed n

/-- The run of a session, as long as it is under way, works in frames that are there. -/
def Session.Placed (s : Session ι) : Prop :=
  ∀ p, s.program = .active p → p.Placed

/-- A session has added frames to a store at most, and goes on in frames that are there. -/
structure Session.Grows (s : Store) (session : Session ι) : Prop where
  extended : s.Extends session.memory.store
  placed : session.Placed

section

variable {s : Store} {session : Session ι}

theorem Session.Grows.stop (grows : session.Grows s) : session.stop.Grows s := by
  refine ⟨?_, ?_⟩
  · rw [store_stop]
    exact grows.extended
  · rw [Session.stop]
    split
    · exact grows.placed
    · rintro p ⟨⟩

theorem grows_active {p : Progress ι} {status : Status} {slot : Option Checkpoint} {result : Option Value}
    {cancelled : Bool} {waiter : Option Consumer} (extended : s.Extends p.memory.store) (placed : p.Placed) :
    (Session.mk status (.active p) slot result cancelled waiter).Grows s :=
  ⟨extended, fun _ active => Program.active.inj active ▸ placed⟩

/-- A poll goes some way along the run of a session. -/
theorem Session.Grows.poll (grows : session.Grows s) (fuel : Nat) (consumer : Consumer) (state : σ) :
    (session.poll host setting fuel consumer state).2.1.Grows s := by
  by_cases asked : session.cancelled = true
  · rw [poll_of_cancelled asked]
    exact grows.stop
  · rw [Bool.not_eq_true] at asked
    obtain ⟨status, program, slot, result, cancelled, waiter⟩ := session
    obtain rfl : cancelled = false := asked
    cases program with
    | ended memory => exact grows
    | active p =>
      obtain ⟨extended, underway⟩ := grows
      have placed : p.Placed := underway p rfl
      have polled := polled_poll host setting true fuel state slot false p
      simp only [Session.poll]
      generalize p.poll host setting true fuel state slot false = visit at polled ⊢
      cases polled with
      | finished way => exact ⟨extended.trans (extends_piece placed way).1, by rintro p ⟨⟩⟩
      | parked _ way =>
        obtain ⟨more, goesOn⟩ := extends_piece placed way
        exact grows_active (extended.trans more) goesOn
      | @waiting _ _ _ wakes q cancels way =>
        obtain ⟨more, goesOn⟩ := extends_piece placed way
        cases slot with
        | some c => exact grows_active (extended.trans more) goesOn
        | none =>
          have left {cancelled : Bool} : (Session.mk status (.active q) none result cancelled (some consumer)).Grows s :=
            grows_active (extended.trans more) goesOn
          cases cancels with
          | true => exact left.stop
          | false => exact left
      | exhausted way =>
        obtain ⟨more, goesOn⟩ := extends_piece placed way
        exact grows_active (extended.trans more) goesOn

/-- Whatever is done with a session, it adds frames at most. -/
theorem grows_perform {u : Usage σ ι} (grows : u.session.Grows s) (fuel : Nat) (op : Operation) :
    (u.perform host setting fuel op).session.Grows s := by
  refine perform_preserves (P := fun u => u.session.Grows s) ?_ ?_ ?_ op grows
  · exact fun consumer u grows => grows.poll fuel consumer u.state
  · intro u grows
    have signalled : u.session.signal.1.Grows s := ⟨grows.extended, grows.placed⟩
    exact signalled.stop
  · exact fun u grows => ⟨grows.extended, grows.placed⟩

end

end

/-! ## Stores that come about -/

/-- What a store may become: frames are made, names bound and functions defined in it, scripts are run in
    its frames, and sessions are used whose scripts run there. Since a run may be taken up anywhere, other
    things may be done between its steps, or by the host that serves it. -/
inductive Store.Develops (s : Store) : Store → Prop where
  | same : Develops s s
  | root {t : Store} (develops : Develops s t) : Develops s t.root.1
  | enclose {t : Store} {f : FrameId} (develops : Develops s t) (inside : f < t.frames.size) :
      Develops s (t.enclose f).1
  | set {t : Store} (develops : Develops s t) (f : FrameId) (name : String) (v : Value) : Develops s (t.set f name v)
  | update {t u : Store} {f : FrameId} {name : String} {v : Value} (develops : Develops s t)
      (updated : t.update f name v = .ok u) : Develops s u
  | define {t : Store} (develops : Develops s t) (f : FrameId) (function : Function) :
      Develops s (t.define f function)
  | steps {σ ι : Type} {p : Progress ι} (develops : Develops s p.memory.store) (placed : p.Placed) (host : Host σ ι)
      (setting : Setting) (state : σ) (n : Nat) :
      Develops s (p.trail host setting n state).standing.memory.store
  | run {σ ι : Type} {memory : Memory} {scope : FrameId} (develops : Develops s memory.store)
      (inside : scope < memory.store.frames.size) (host : Host σ ι) (setting : Setting) (fuel : Nat) (state : σ)
      (script : List Stmt) : Develops s (execute host setting fuel state memory script scope).memory.store
  | session {σ ι : Type} {u : Usage σ ι} (develops : Develops s u.session.memory.store) (placed : u.session.Placed)
      (host : Host σ ι) (setting : Setting) (fuel : Nat) (op : Operation) :
      Develops s (u.perform host setting fuel op).session.memory.store

section

variable {s t : Store} {f g : FrameId}

theorem extends_of_develops (develops : s.Develops t) : s.Extends t := by
  induction develops with
  | same => exact extends_of_eq rfl
  | root develops ih => exact ih.trans (extends_root _)
  | enclose develops inside ih => exact ih.trans (extends_enclose inside)
  | set develops f name v ih => exact ih.trans (extends_set _ f name v)
  | update develops updated ih => exact ih.trans (extends_update updated)
  | define develops f function ih => exact ih.trans (extends_define _ f function)
  | steps develops placed host setting state n ih => exact ih.trans (extends_trail host setting state placed n)
  | run develops inside host setting fuel state script ih =>
    exact ih.trans (extends_execute_script host setting fuel state script inside)
  | session develops placed host setting fuel op ih => exact (grows_perform ⟨ih, placed⟩ fuel op).extended

/-- From a store to another one: a new frame inside a frame, from which the same is seen. The frames that
    were there are as they were. -/
structure Store.Encloses (s : Store) (f : FrameId) (t : Store) (g : FrameId) : Prop where
  fresh : ∀ h < s.frames.size, h ≠ g
  there : g < t.frames.size
  outer : t.outer? g = some f
  depth : t.depth g = s.depth f + 1
  get : ∀ name, t.get? g name = s.get? f name
  function : ∀ name, t.function? g name = s.function? f name
  kept : s.Keeps t

theorem functions_push (s : Store) (outers : List FrameId) (f : FrameId) :
    (s.push outers).functions f = s.functions f := by
  simp only [Store.functions, Store.push, Array.getElem?_push]
  by_cases last : f = s.frames.size
  · subst last
    simp [Frame.inside]
  · rw [if_neg last]

theorem encloses_enclose (s : Store) (f : FrameId) : s.Encloses f (s.enclose f).1 (s.enclose f).2 := by
  have outers : (s.push (s.chain f)).outers s.next = s.chain f := by rw [outers_push, Store.next, if_pos rfl]
  have chain : (s.push (s.chain f)).chain s.next = s.next :: s.chain f := by rw [Store.chain, outers]
  -- nothing is bound or defined in the new frame
  have unbound : s.bindings s.next = .empty := by simp [Store.bindings, Store.next]
  have undefined : s.functions s.next = .empty := by simp [Store.functions, Store.next]
  refine ⟨fun h old => Nat.ne_of_lt old, ?_, ?_, ?_, fun name => ?_, fun name => ?_, keeps_push s _⟩
  · simp [Store.enclose, Store.push, Store.next]
  · show ((s.push (s.chain f)).outers s.next).head? = some f
    rw [outers]
    rfl
  · show ((s.push (s.chain f)).outers s.next).length = s.depth f + 1
    rw [outers]
    rfl
  · show ((s.push (s.chain f)).chain s.next).findSome? (fun g => ((s.push (s.chain f)).bindings g).get? name) = _
    rw [chain, List.findSome?_cons]
    simp only [bindings_push, unbound, Table.get?_empty, Store.get?]
  · show ((s.push (s.chain f)).chain s.next).findSome? (fun g => ((s.push (s.chain f)).functions g).get? name) = _
    rw [chain, List.findSome?_cons]
    simp only [functions_push, undefined, Table.get?_empty, Store.function?]

/-- What holds of the scopes of a store. From every frame the way outward ends at a root and comes past no
    frame twice, but past one more than the depth of the frame. Whatever becomes of the store, its frames
    lie where they lie. A frame made inside another one is new and sees what that one sees. And every
    loop that goes outward comes to an end. -/
structure Store.Chained (s : Store) : Prop where
  passes : ∀ f, s.Passes f (s.chain f)
  distinct : ∀ f, (s.chain f).Nodup
  there : ∀ f < s.frames.size, ∀ g ∈ s.chain f, g < s.frames.size
  length : ∀ f, (s.chain f).length = s.depth f + 1
  kept : ∀ t, s.Develops t → ∀ f < s.frames.size,
    f < t.frames.size ∧ t.outer? f = s.outer? f ∧ t.depth f = s.depth f
  encloses : ∀ f < s.frames.size, s.Encloses f (s.enclose f).1 (s.enclose f).2
  loopsEnd : ∀ f, s.LoopsEnd f

/-- In every store that comes about the scopes are in finite chains, for good. -/
theorem chained_of_developed (developed : Store.empty.Develops s) : s.Chained := by
  have linked : s.Linked := (extends_of_develops developed).linked (linked_of_built .empty)
  refine ⟨passes_chain linked, descends_chain linked, fun f inside => inside_chain linked inside, fun f => rfl, ?_,
    fun f _ => encloses_enclose s f, loopsEnd linked⟩
  intro t develops f inside
  have extended := extends_of_develops develops
  refine ⟨Nat.lt_of_lt_of_le inside extended.size, ?_, ?_⟩
  · rw [Store.outer?, extended.outers f inside, Store.outer?]
  · rw [Store.depth, extended.outers f inside, Store.depth]

end

/-- The store with the shadowed number, after a script in its innermost scope has defined a function and
    called it in a block. -/
def calledStore : Store :=
  (execute Rehearsal.host ⟨1000, .empty⟩ 100 (.start none) ⟨shadowingStore, 0, 0⟩
    [.define ⟨1, 1, 0⟩ "hide" [] (.mk ⟨1, 1, 0⟩ [.assign ⟨1, 1, 0⟩ "y" (.bool true)]),
      .block (.mk ⟨1, 1, 0⟩ [.evaluate ⟨1, 1, 0⟩ (.call (.name "hide") [])])] 2).memory.store

/-- Of the two frames that the script makes, that of the call lies inside that of the block. -/
theorem chained_of_called :
    Store.empty.Develops calledStore ∧ calledStore.chain 4 = [4, 3, 2, 1, 0] ∧ calledStore.Chained := by
  have shadowing : Store.empty.Develops (Memory.mk shadowingStore 0 0).store :=
    .enclose (.set (.enclose (.set (.set (.root .same) 0 "x" _) 0 "y" _) (by decide)) 1 "x" _) (by decide)
  have developed : Store.empty.Develops calledStore :=
    .run shadowing (by decide) Rehearsal.host ⟨1000, .empty⟩ 100 (.start none) _
  exact ⟨developed, by decide, chained_of_developed developed⟩

end Stepwise
