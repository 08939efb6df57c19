import Stepwise.Proofs.Guard
import Stepwise.Proofs.Scopes
import Stepwise.Rehearsal.Host

/-!
What happens to the bindings of a frame. One step of a run binds at most one name of the frames
there are: a declaration in its own frame, or an assignment in the frame that binds the name already
(`changes_next`). So a name keeps the tag it was declared with until it is declared again in the same
frame, whatever runs in between (`tags_respected`). Only a name that is bound to null takes a value
of any tag.
-/
namespace Stepwise

/-! ## Frames -/

/-- A frame itself binds a name to a value. -/
def Store.Binds (s : Store) (f : FrameId) (name : String) (v : Value) : Prop :=
  (s.bindings f).get? name = some v

section

variable {s : Store} {f g : FrameId} {name other : String} {v w : Value}

theorem bindings_set_self (inside : f < s.frames.size) (name : String) (v : Value) :
    (s.set f name v).bindings f = (s.bindings f).insert name v := by
  simp [Store.bindings, Store.set, Array.getElem?_modify, Array.getElem?_eq_getElem inside]

theorem bindings_set_ne (different : f ≠ g) (name : String) (v : Value) :
    (s.set f name v).bindings g = s.bindings g := by
  simp [Store.bindings, Store.set, Array.getElem?_modify, different]

theorem inside_of_binds (binds : s.Binds f name v) : f < s.frames.size := by
  refine Nat.lt_of_not_le fun outside => ?_
  have none : s.frames[f]? = none := Array.getElem?_eq_none outside
  simp only [Store.Binds, Store.bindings, none, Table.get?_empty] at binds
  cases binds

theorem binds_set (inside : f < s.frames.size) (name : String) (v : Value) : (s.set f name v).Binds f name v := by
  rw [Store.Binds, bindings_set_self inside, Table.get?_insert, if_pos rfl]

/-- Binding a name leaves all other names of all frames as they are. -/
theorem Store.Binds.set (binds : s.Binds f name v) (different : ¬ (g = f ∧ other = name)) (w : Value) :
    (s.set g other w).Binds f name v := by
  by_cases same : g = f
  · subst same
    have named : ¬ name = other := fun both => different ⟨rfl, both.symm⟩
    rw [Store.Binds, bindings_set_self (inside_of_binds binds), Table.get?_insert, if_neg named]
    exact binds
  · rw [Store.Binds, bindings_set_ne same]
    exact binds

/-- Frames that are kept bind the same names to the same values. -/
theorem Store.Binds.keeps {s' : Store} (binds : s.Binds f name v) (kept : s.Keeps s') : s'.Binds f name v := by
  have found := Array.getElem?_eq_getElem (inside_of_binds binds)
  have later := kept f _ found
  simp only [Store.Binds, Store.bindings, found] at binds
  simp only [Store.Binds, Store.bindings, later]
  exact binds

/-- The innermost frame that binds a name binds it to what the name means. -/
theorem binds_owner {owner : FrameId} (owned : s.owner? f name = some owner) (found : s.get? f name = some v) :
    s.Binds owner name v := by
  simp only [Store.owner?, Store.get?] at owned found
  generalize s.chain f = frames at owned found
  induction frames with
  | nil => cases owned
  | cons g rest ih =>
    rw [List.find?_cons, Table.contains] at owned
    rw [List.findSome?_cons] at found
    cases bound : (s.bindings g).get? name with
    | none =>
      rw [bound] at owned found
      exact ih owned found
    | some w =>
      rw [bound] at owned found
      cases owned
      cases found
      exact bound

/-- The frame in which a name may take another value binds it, to null or to a value of that tag. -/
theorem binds_slot {owner : FrameId} (found : s.slot f name w = .ok owner) :
    ∃ v, s.Binds owner name v ∧ (v.tag = .null ∨ v.tag = w.tag) := by
  unfold Store.slot at found
  split at found
  · next g old owned got =>
    split at found
    · next fits =>
      cases found
      exact ⟨old, binds_owner owned got, fits⟩
    · cases found
  · cases found

end

/-! ## Steps that bind a name -/

/-- What is remembered behind a move. -/
def Move.memory : Move → Memory
  | step m | pause _ m | print _ m => m.memory
  | ask _ w => w.memory
  | halt _ memory => memory

/-- A declaration that succeeds in this step: it binds a name in its own frame, to a value of the
    declared type or, without a value, to null. -/
inductive Machine.Declares : Machine → FrameId → String → Value → Prop where
  | typed {memory : Memory} {v : Value} {name : String} {type : TypeName} {s : Stmt} {scope : FrameId}
      {stack : List Task} (fits : v.tag = type.tag) :
      Declares ⟨memory, .give v, .settle (.declare name type) s scope :: stack⟩ scope name v
  | empty {memory : Memory} {position : Position} {name : String} {type : TypeName} {scope : FrameId}
      {stack : List Task} : Declares ⟨memory, .execute (.declare position name type none) scope, stack⟩ scope name .null

/-- An assignment that succeeds in this step: the frame that binds the name takes the value. -/
inductive Machine.Assigns : Machine → FrameId → String → Value → Prop where
  | mk {memory : Memory} {v : Value} {name : String} {s : Stmt} {scope owner : FrameId} {stack : List Task}
      (found : memory.store.slot scope name v = .ok owner) :
      Assigns ⟨memory, .give v, .settle (.assign name) s scope :: stack⟩ owner name v

/-- A definition of a function in this step. -/
inductive Machine.Defines : Machine → FrameId → Function → Prop where
  | mk {memory : Memory} {position : Position} {name : String} {parameters : List String} {body : Block}
      {scope : FrameId} {stack : List Task} :
      Defines ⟨memory, .execute (.define position name parameters body) scope, stack⟩ scope ⟨name, parameters, body⟩

/-- What a step does to the frames there are: it binds one name, it defines one function, or it leaves
    them as they are. -/
inductive Machine.Alters (m : Machine) : Store → Prop where
  | declared {f : FrameId} {name : String} {v : Value} (declares : m.Declares f name v) :
      Alters m (m.memory.store.set f name v)
  | assigned {f : FrameId} {name : String} {v : Value} (assigns : m.Assigns f name v) :
      Alters m (m.memory.store.set f name v)
  | defined {f : FrameId} {function : Function} (defines : m.Defines f function) :
      Alters m (m.memory.store.define f function)
  | kept {s : Store} (keeps : m.memory.store.Keeps s) : Alters m s

/-- What a step does to the bindings of the frames there are: it binds one name, or it leaves them
    alone. -/
inductive Machine.Changes (m : Machine) : Store → Prop where
  | declared {f : FrameId} {name : String} {v : Value} (declares : m.Declares f name v) :
      Changes m (m.memory.store.set f name v)
  | assigned {f : FrameId} {name : String} {v : Value} (assigns : m.Assigns f name v) :
      Changes m (m.memory.store.set f name v)
  | kept {s : Store} (same : ∀ f name v, m.memory.store.Binds f name v → s.Binds f name v) : Changes m s

section

variable {setting : Setting} {memory : Memory} {stack : List Task} {c : Checkpoint} {m' : Machine}

theorem apply_unpaused (callee : Callee) (arguments : List Value) (scope : FrameId) :
    Machine.apply setting callee arguments scope stack memory ≠ .pause c m' := by
  intro pauses
  cases callee with
  | function g =>
    simp only [Machine.apply] at pauses
    split at pauses
    · cases pauses
    · split at pauses <;> cases pauses
  | builtin b =>
    cases b with
    | native g => cases pauses
    | println | input =>
      simp only [Machine.apply] at pauses
      split at pauses <;> cases pauses

theorem argue_unpaused (callee : Callee) (ready : List Value) (rest : List Expr) (scope : FrameId) :
    Machine.argue setting callee ready rest scope stack memory ≠ .pause c m' := by
  cases rest with
  | nil => exact apply_unpaused callee ready scope
  | cons e rest =>
    intro pauses
    cases pauses

/-- No checkpoint is passed in an expression. -/
theorem evaluate_unpaused (e : Expr) (scope : FrameId) :
    Machine.evaluate setting e scope stack memory ≠ .pause c m' := by
  intro pauses
  cases e with
  | call function arguments =>
    simp only [Machine.evaluate] at pauses
    split at pauses
    · cases pauses
    · exact argue_unpaused _ _ _ _ pauses
  | _ => cases pauses

theorem alters_execute {s : Stmt} {scope : FrameId} (pauses : Machine.execute s scope stack memory = .pause c m') :
    Machine.Alters ⟨memory, .execute s scope, stack⟩ m'.memory.store := by
  cases s with
  | declare position name type value =>
    cases value with
    | some e => cases pauses
    | none =>
      cases pauses
      exact .declared .empty
  | define position name parameters body =>
    cases pauses
    exact .defined .mk
  | _ => cases pauses

theorem alters_settle (v : Value) (use : Use) (s : Stmt) (scope : FrameId) :
    Machine.Alters ⟨memory, .give v, .settle use s scope :: stack⟩
      (if v.isError then (v, memory) else memory.use scope v use).2.store := by
  have kept : Machine.Alters ⟨memory, .give v, .settle use s scope :: stack⟩ memory.store := .kept (keeps_refl _)
  cases v.isError with
  | true => exact kept
  | false =>
    cases use with
    | declare name type =>
      simp only [Memory.use]
      by_cases fits : v.tag = type.tag
      · simp only [if_pos fits]
        exact .declared (.typed fits)
      · simp only [if_neg fits]
        exact kept
    | assign name =>
      simp only [Memory.use]
      cases found : memory.store.slot scope name v with
      | ok owner => exact .assigned (.mk found)
      | error fault => exact kept
    | giveBack | discard => exact kept

theorem memory_branch (v : Value) (consequence : Block) (alternative : Option Block) (scope : FrameId) :
    (Machine.branch v consequence alternative scope stack memory).memory = memory := by
  unfold Machine.branch
  split
  · rfl
  · split
    · rfl
    · cases alternative <;> rfl

theorem memory_iterate (v : Value) (s : Stmt) (body : Block) (scope : FrameId) :
    (Machine.iterate v s body scope stack memory).memory = memory := by
  unfold Machine.iterate
  split
  · rfl
  · split <;> rfl

theorem alters_resume {v : Value} {task : Task} (pauses : Machine.resume setting v task stack memory = .pause c m') :
    Machine.Alters ⟨memory, .give v, task :: stack⟩ m'.memory.store := by
  have kept : Machine.Alters ⟨memory, .give v, task :: stack⟩ memory.store := .kept (keeps_refl _)
  cases task with
  | settle use s scope =>
    simp only [Machine.resume] at pauses
    cases pauses
    exact alters_settle v use s scope
  | choose s consequence alternative scope =>
    cases pauses
    rw [memory_branch]
    exact kept
  | test s body scope =>
    cases pauses
    rw [memory_iterate]
    exact kept
  | argument callee ready rest scope =>
    simp only [Machine.resume] at pauses
    split at pauses
    · cases pauses
    · exact absurd pauses (argue_unpaused callee _ rest scope)
  | leave | chosen => cases pauses
  | operand _ | left _ _ _ | right _ _ | again _ _ | sequence _ _ | script _ _ =>
    simp only [Machine.resume] at pauses
    split at pauses <;> cases pauses

/-- A step binds at most one name or defines at most one function in the frames there are. -/
theorem alters_next (setting : Setting) (m : Machine) : m.Alters (m.next setting).memory.store := by
  have kept := keeps_next setting m
  cases leads : m.next setting with
  | pause c m' =>
    obtain ⟨memory, focus, stack⟩ := m
    cases focus with
    | evaluate e scope => exact absurd leads (evaluate_unpaused e scope)
    | execute s scope => exact alters_execute leads
    | give v =>
      cases stack with
      | nil => cases leads
      | cons task stack => exact alters_resume leads
  | _ =>
    rw [leads] at kept
    exact .kept kept

/-- A step binds at most one name of the frames there are. -/
theorem changes_next (setting : Setting) (m : Machine) : m.Changes (m.next setting).memory.store := by
  have alters := alters_next setting m
  generalize (m.next setting).memory.store = s at alters
  cases alters with
  | declared declares => exact .declared declares
  | assigned assigns => exact .assigned assigns
  | @defined f function defines =>
    refine .kept fun g name v binds => ?_
    rw [Store.Binds, bindings_define]
    exact binds
  | kept keeps => exact .kept fun _ _ _ binds => binds.keeps keeps

end

/-! ## Runs -/

section

variable {σ ι : Type} {host : Host σ ι} {setting : Setting} {f : FrameId} {name : String} {v : Value}

/-- The next step is a declaration of a name in a frame, and succeeds. -/
def Standing.Declares (f : FrameId) (name : String) (v : Value) : Standing σ ι → Prop
  | underway _ (.running m) => m.Declares f name v
  | _ => False

/-- The next step is an assignment to a name that a frame binds, and succeeds. -/
def Standing.Assigns (f : FrameId) (name : String) (v : Value) : Standing σ ι → Prop
  | underway _ (.running m) => m.Assigns f name v
  | _ => False

/-- What is remembered behind a step. -/
theorem memory_step (host : Host σ ι) (setting : Setting) (state : σ) (m : Machine) :
    ((Progress.running m).trail host setting 1 state).standing.memory = (m.next setting).memory := by
  simp only [Progress.trail, Progress.stride]
  cases m.next setting <;> rfl

theorem store_answer (host : Host σ ι) (setting : Setting) (state : σ) (job : ι) (w : Waiting) :
    ((Progress.waiting job w).trail host setting 1 state).standing.memory.store = w.memory.store := by
  simp only [Progress.trail, Progress.stride]
  cases (host.poll state job).result with
  | ready a => exact store_receive w a
  | pending job' wakes => rfl

theorem null_of_tag (null : v.tag = .null) : v = .null := by
  cases v <;> first | rfl | cases null

/-- A step neither removes a binding nor changes its tag, unless it declares the name in that frame
    or replaces null by an assignment. -/
theorem binds_step (host : Host σ ι) (setting : Setting) {standing : Standing σ ι} (binds : standing.memory.store.Binds f name v)
    (undeclared : ∀ w, ¬ standing.Declares f name w) :
    ∃ w, (standing.trail host setting 1).standing.memory.store.Binds f name w ∧
      (w.tag = v.tag ∨ v = .null ∧ standing.Assigns f name w) := by
  cases standing with
  | ended state v memory => exact ⟨_, binds, .inl rfl⟩
  | underway state p =>
    cases p with
    | waiting job w =>
      refine ⟨v, ?_, .inl rfl⟩
      rw [Standing.trail, store_answer]
      exact binds
    | running m =>
      have changes := changes_next setting m
      rw [Standing.trail, memory_step]
      generalize (m.next setting).memory.store = s at changes
      cases changes with
      | kept same => exact ⟨v, same f name v binds, .inl rfl⟩
      | @declared g other w declares =>
        have different : ¬ (g = f ∧ other = name) := by
          rintro ⟨rfl, rfl⟩
          exact undeclared w declares
        exact ⟨v, binds.set different w, .inl rfl⟩
      | @assigned g other w assigns =>
        by_cases here : g = f ∧ other = name
        · obtain ⟨rfl, rfl⟩ := here
          refine ⟨w, binds_set (inside_of_binds binds) other w, ?_⟩
          have owned := assigns
          cases owned with
          | mk found =>
            obtain ⟨old, bound, fits⟩ := binds_slot found
            obtain rfl : old = v := Option.some.inj (bound.symm.trans binds)
            rcases fits with null | same
            · exact .inr ⟨null_of_tag null, assigns⟩
            · exact .inl same.symm
        · exact ⟨v, binds.set here w, .inl rfl⟩

/-- The steps of a run from where it stands. -/
theorem standing_add (n k : Nat) (state : σ) (p : Progress ι) :
    (p.trail host setting (n + k) state).standing =
      ((p.trail host setting n state).standing.trail host setting k).standing := by
  rw [trail_add]
  rfl

/-- A name that is bound in a frame stays bound with its tag until it is declared there again, or
    replaces null. -/
theorem binds_trail {state : σ} {p : Progress ι} {n : Nat}
    (binds : (p.trail host setting n state).standing.memory.store.Binds f name v) (k : Nat)
    (undeclared : ∀ j, n ≤ j → j < n + k → ∀ w, ¬ (p.trail host setting j state).standing.Declares f name w) :
    ∃ w, (p.trail host setting (n + k) state).standing.memory.store.Binds f name w ∧ (w.tag = v.tag ∨ v = .null) := by
  induction k with
  | zero => exact ⟨v, binds, .inl rfl⟩
  | succ k ih =>
    obtain ⟨w, bound, tagged⟩ := ih fun j from_ before => undeclared j from_ (Nat.lt_succ_of_lt before)
    obtain ⟨w', bound', tagged'⟩ := binds_step host setting bound
      (undeclared (n + k) (Nat.le_add_right n k) (Nat.lt_succ_self _))
    rw [← Nat.add_assoc, standing_add]
    refine ⟨w', bound', ?_⟩
    rcases tagged with same | null
    · rcases tagged' with same' | ⟨rfl, -⟩
      · exact .inl (same'.trans same)
      · exact .inr (null_of_tag same.symm)
    · exact .inr null

/-- A declaration that succeeds binds its name. -/
theorem binds_of_declares (setting : Setting) {m : Machine} (placed : m.Placed) (declares : m.Declares f name v) :
    (m.next setting).memory.store.Binds f name v := by
  cases declares with
  | @typed memory _ _ type s _ stack fits =>
    have inside : f < memory.store.frames.size := placed.stack _ List.mem_cons_self f rfl
    have faultless : v.isError = false := by
      cases v with
      | error fault => cases type <;> cases fits
      | _ => rfl
    simp only [Machine.next, Machine.resume, faultless, Memory.use, if_pos fits]
    exact binds_set inside name v
  | @empty memory position _ type _ stack =>
    have inside : f < memory.store.frames.size := placed.focus f rfl
    exact binds_set inside name .null

end

section

variable {σ ι : Type} (host : Host σ ι) (setting : Setting) (state : σ) (memory : Memory) (script : List Stmt)
  (scope : FrameId)

/-- Where the run of a script stands after some steps. All that can be seen of a script, however it is
    run, is seen at one of these places (`seen_on_trail`). -/
def standingAfter (n : Nat) : Standing σ ι :=
  ((Progress.running (.start memory script scope)).trail host setting n state).standing

/-- Names that keep their tags. A step that declares a name with a type binds it to a value of that
    type, and it stays bound to such values until the name is declared in the same frame again.
    Whatever is bound in a frame stays bound there, and only declarations in the frame and
    assignments that replace null change the tag. -/
structure TagsRespected : Prop where
  declared : ∀ n k state₁ memory₁ v name type s f stack,
    standingAfter host setting state memory script scope n =
      .underway state₁ (.running ⟨memory₁, .give v, .settle (.declare name type) s f :: stack⟩) →
    v.tag = type.tag →
    (∀ j, n < j → j < n + 1 + k →
      ∀ w, ¬ (standingAfter host setting state memory script scope j).Declares f name w) →
    ∃ w, (standingAfter host setting state memory script scope (n + 1 + k)).memory.store.Binds f name w ∧
      w.tag = type.tag
  step : ∀ n f name v, (standingAfter host setting state memory script scope n).memory.store.Binds f name v →
    (∀ w, ¬ (standingAfter host setting state memory script scope n).Declares f name w) →
    ∃ w, (standingAfter host setting state memory script scope (n + 1)).memory.store.Binds f name w ∧
      (w.tag = v.tag ∨ v = .null ∧ (standingAfter host setting state memory script scope n).Assigns f name w)

/-- In every run of a script the names keep their tags. -/
theorem tags_respected (inside : scope < memory.store.frames.size) :
    TagsRespected host setting state memory script scope := by
  constructor
  · intro n k state₁ memory₁ v name type s f stack stands fits undeclared
    have placed := placed_trail host setting state (placed_start (ι := ι) inside script) n
    rw [standingAfter] at stands
    rw [stands] at placed
    have declares : Machine.Declares ⟨memory₁, .give v, .settle (.declare name type) s f :: stack⟩ f name v :=
      .typed fits
    have bound := binds_of_declares setting placed declares
    rw [← memory_step host setting state₁] at bound
    have next : (standingAfter host setting state memory script scope (n + 1)).memory.store.Binds f name v := by
      rw [standingAfter, standing_add, stands]
      exact bound
    obtain ⟨w, later, same | null⟩ := binds_trail next k undeclared
    · exact ⟨w, later, same.trans fits⟩
    · rw [null] at fits
      cases type <;> cases fits
  · intro n f name v binds undeclared
    rw [standingAfter, standing_add]
    exact binds_step host setting binds undeclared

end

/-- A number is replaced in an inner block, and a text is refused there. -/
theorem tags_respected_in_block :
    TagsRespected Rehearsal.host ⟨1000, .empty⟩ (.start none) Memory.start.1
      [.declare ⟨1, 1, 0⟩ "x" .number (some (.number 1)),
        .block (.mk ⟨1, 20, 19⟩ [.assign ⟨1, 22, 21⟩ "x" (.number 2), .assign ⟨1, 29, 28⟩ "x" (.string "a")])]
      Memory.start.2 :=
  tags_respected _ _ _ _ _ _ (by decide)

end Stepwise
