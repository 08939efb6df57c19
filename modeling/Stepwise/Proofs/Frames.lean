import Stepwise.Proofs.Trail

/-!
Frames that stay as they are. Scopes are only opened until a run passes a checkpoint:
a statement has its effect in the step in which it passes its own checkpoint, and the
parameters of a call are bound in a scope that was not there before (`keeps_next`). So
every frame is as it was until the first checkpoint (`keeps_trail`).
-/
namespace Stepwise

/-- Every frame of the old store is in the new one, with the same bindings and functions. -/
def Store.Keeps (old new : Store) : Prop :=
  ∀ (f : FrameId) (frame : Frame), old.frames[f]? = some frame → new.frames[f]? = some frame

theorem keeps_refl (s : Store) : s.Keeps s :=
  fun _ _ found => found

theorem Store.Keeps.trans {first second third : Store} (one : first.Keeps second) (two : second.Keeps third) :
    first.Keeps third :=
  fun f frame found => two f frame (one f frame found)

theorem keeps_push (s : Store) (outers : List FrameId) : s.Keeps (s.push outers) := by
  intro f frame found
  obtain ⟨inside, _⟩ := Array.getElem?_eq_some_iff.mp found
  rw [Store.push, Array.getElem?_push, if_neg (Nat.ne_of_lt inside)]
  exact found

theorem Store.Keeps.set {old s : Store} {f : FrameId} (kept : old.Keeps s) (fresh : old.frames[f]? = none)
    (name : String) (v : Value) : old.Keeps (s.set f name v) := by
  intro g frame found
  have other : f ≠ g := by
    rintro rfl
    rw [fresh] at found
    cases found
  rw [Store.set, Array.getElem?_modify, if_neg other]
  exact kept g frame found

theorem Store.Keeps.setEach {old s : Store} {f : FrameId} (kept : old.Keeps s) (fresh : old.frames[f]? = none)
    (bindings : List (String × Value)) : old.Keeps (s.setEach f bindings) := by
  induction bindings generalizing s with
  | nil => exact kept
  | cons b rest ih => exact ih (kept.set fresh b.1 b.2)

/-! ## What a script remembers -/

section

variable (m : Memory) (setting : Setting) (scope : FrameId)

theorem keeps_enclose : m.store.Keeps (m.enclose scope).1.store :=
  keeps_push _ _

@[simp] theorem store_adopt (p : Primitive) : (m.adopt p).2.store = m.store := by
  cases p <;> rfl

@[simp] theorem store_conclude (outcome : Except Fault Primitive) : (m.conclude outcome).2.store = m.store := by
  cases outcome with
  | error fault => rfl
  | ok p => exact store_adopt m p

@[simp] theorem store_lookup (name : String) : (m.lookup setting name scope).2.store = m.store := by
  unfold Memory.lookup
  split
  · rfl
  · split
    · rfl
    · split <;> rfl

@[simp] theorem store_callee (e : Expr) : (m.callee setting e scope).2.store = m.store := by
  unfold Memory.callee
  split
  · next name =>
    split
    · rfl
    · have same := store_lookup m setting scope name
      split <;> simp_all
  · rfl

/-- A call binds its parameters in a frame that was not there before. -/
theorem keeps_parameters (bindings : List (String × Value)) :
    m.store.Keeps ((m.enclose scope).1.setEach (m.enclose scope).2 bindings).enterCall.store :=
  (keeps_enclose m scope).setEach (Array.getElem?_eq_none_iff.mpr (Nat.le_refl _)) bindings

end

/-! ## Steps -/

/-- Unless a move passes a checkpoint, it leaves every frame of a store as it is. -/
def Move.Keeps (old : Store) : Move → Prop
  | step m => old.Keeps m.memory.store
  | pause _ _ => True
  | print _ m => old.Keeps m.memory.store
  | ask _ w => old.Keeps w.memory.store
  | halt _ memory => old.Keeps memory.store

section

variable {setting : Setting} {old : Store} {memory : Memory}

theorem keeps_apply (kept : old.Keeps memory.store) (callee : Callee) (arguments : List Value) (scope : FrameId)
    (stack : List Task) : (Machine.apply setting callee arguments scope stack memory).Keeps old := by
  cases callee with
  | function f =>
    simp only [Machine.apply]
    split
    · exact kept
    · split
      · exact kept
      · exact kept.trans (keeps_parameters memory scope _)
  | builtin b =>
    cases b with
    | println =>
      simp only [Machine.apply]
      split <;> exact kept
    | input =>
      simp only [Machine.apply]
      split <;> exact kept
    | native f => exact kept

theorem keeps_argue (kept : old.Keeps memory.store) (callee : Callee) (ready : List Value) (rest : List Expr)
    (scope : FrameId) (stack : List Task) :
    (Machine.argue setting callee ready rest scope stack memory).Keeps old := by
  cases rest with
  | nil => exact keeps_apply kept callee ready scope stack
  | cons e rest => exact kept

theorem keeps_evaluate (kept : old.Keeps memory.store) (e : Expr) (scope : FrameId) (stack : List Task) :
    (Machine.evaluate setting e scope stack memory).Keeps old := by
  cases e with
  | name name => simpa [Machine.evaluate, Machine.give, Move.Keeps] using kept
  | call function arguments =>
    have same := store_callee memory setting scope function
    simp only [Machine.evaluate]
    generalize memory.callee setting function scope = r at same ⊢
    obtain ⟨callee, memory'⟩ := r
    have kept' : old.Keeps memory'.store := by rwa [show memory'.store = memory.store from same]
    cases callee with
    | error fault => exact kept'
    | ok callee => exact keeps_argue kept' callee [] arguments scope stack
  | _ => exact kept

theorem keeps_execute (kept : old.Keeps memory.store) (s : Stmt) (scope : FrameId) (stack : List Task) :
    (Machine.execute s scope stack memory).Keeps old := by
  have opened : old.Keeps (memory.enclose scope).1.store := kept.trans (keeps_enclose memory scope)
  cases s with
  | declare position name type value =>
    cases value with
    | none => trivial
    | some e => exact kept
  | block body => exact opened
  | branch position condition consequence alternative => exact opened
  | define position name parameters body => trivial
  | _ => exact kept

theorem keeps_resume (kept : old.Keeps memory.store) (v : Value) (task : Task) (stack : List Task) :
    (Machine.resume setting v task stack memory).Keeps old := by
  cases task with
  | operand op =>
    simp only [Machine.resume]
    split
    · exact kept
    · simpa [Machine.give, Move.Keeps] using kept
  | left op e scope =>
    simp only [Machine.resume]
    split <;> exact kept
  | right op left =>
    simp only [Machine.resume]
    split
    · exact kept
    · simpa [Machine.give, Move.Keeps] using kept
  | argument callee ready rest scope =>
    simp only [Machine.resume]
    split
    · exact kept
    · exact keeps_argue kept callee _ rest scope stack
  | again s scope =>
    simp only [Machine.resume]
    split <;> exact kept
  | sequence rest scope =>
    simp only [Machine.resume]
    split <;> exact kept
  | script rest scope =>
    simp only [Machine.resume]
    split <;> exact kept
  | settle | choose | test => trivial
  | leave | chosen => exact kept

/-- A step that passes no checkpoint leaves every frame as it is. -/
theorem keeps_next (setting : Setting) (m : Machine) : (m.next setting).Keeps m.memory.store := by
  obtain ⟨memory, focus, stack⟩ := m
  have kept := keeps_refl memory.store
  cases focus with
  | evaluate e scope => exact keeps_evaluate kept e scope stack
  | execute s scope => exact keeps_execute kept s scope stack
  | give v =>
    cases stack with
    | nil => exact kept
    | cons task stack => exact keeps_resume kept v task stack

end

/-! ## Runs -/

variable {σ ι : Type} {host : Host σ ι} {setting : Setting}

/-- Unless a step of a run passes a checkpoint, it leaves every frame of a store as it is. -/
def Stride.Keeps (old : Store) : Stride ι → Prop
  | on p => old.Keeps p.memory.store
  | pass _ _ => True
  | wait _ p => old.Keeps p.memory.store
  | finish _ memory => old.Keeps memory.store

@[simp] theorem store_receive (w : Waiting) (a : Answer) : (w.resume a).memory.store = w.memory.store := by
  cases a with
  | nothing => rfl
  | data p => exact store_adopt w.memory p
  | value v => cases v <;> rfl

theorem keeps_stride (host : Host σ ι) (setting : Setting) (state : σ) (p : Progress ι) :
    (p.stride host setting state).result.Keeps p.memory.store := by
  cases p with
  | running m =>
    have kept := keeps_next setting m
    simp only [Progress.stride]
    cases leads : m.next setting with
    | pause c m' => trivial
    | _ => rw [leads] at kept; exact kept
  | waiting job w =>
    simp only [Progress.stride]
    cases (host.poll state job).result with
    | ready a => exact (store_receive w a).symm ▸ keeps_refl w.memory.store
    | pending job wakes => exact keeps_refl w.memory.store

/-- Every frame is as it was until a run passes its first checkpoint. -/
theorem keeps_trail (host : Host σ ι) (setting : Setting) (n : Nat) (state : σ) (p : Progress ι)
    (unpassed : (p.trail host setting n state).stops = []) :
    p.memory.store.Keeps (p.trail host setting n state).standing.memory.store := by
  induction n generalizing state p with
  | zero => exact keeps_refl _
  | succ n ih =>
    have kept := keeps_stride host setting state p
    simp only [Progress.trail] at unpassed ⊢
    cases leads : (p.stride host setting state).result with
    | on q =>
      simp only [leads] at unpassed kept ⊢
      exact kept.trans (ih _ q unpassed)
    | pass c q => simp [leads, Trail.after] at unpassed
    | wait wakes q =>
      simp only [leads, Trail.after, List.nil_append] at unpassed kept ⊢
      exact kept.trans (ih _ q unpassed)
    | finish v memory =>
      simp only [leads] at kept ⊢
      exact kept

end Stepwise
