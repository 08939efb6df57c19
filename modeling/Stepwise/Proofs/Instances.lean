import Stepwise.Proofs.Handovers

/-!
Texts are instances. A text that a script holds was made once, by a literal, by joining two texts or by an answer to
`Input`, if it was not there before the run; since then it was only handed on (`Creation`, `origin`). Two texts are
equal for the script only if they go back to the same creation (`texts_are_instances`). Identities do not enter into
where a text comes from: the origin of a text is found by going back from place to place as the steps of the run
have filled them (`Standing.source`).
-/
namespace Stepwise

section

variable {σ ι : Type}

/-- What is held where a run stands. -/
def Standing.holding : Standing σ ι → Holding
  | underway _ (.running m) => m.holding
  | underway _ (.waiting _ w) => w.holding
  | ended _ v memory => ⟨memory, some v, []⟩

/-- Where the value comes from that a place holds behind the next step of a run, if the step has not made it. What is
    answered is made by the step that it is answered in. -/
def Standing.source : Standing σ ι → Place → Option Place
  | underway _ (.running m), p => m.source p
  | underway _ (.waiting _ _), .given => none
  | _, p => some p

/-- The next step of a run calls a function of the host. -/
def Standing.callsNative (setting : Setting) : Standing σ ι → Bool
  | underway _ (.running m) =>
    match m.next setting with
    | .ask (.call _ _) _ => true
    | _ => false
  | _ => false

/-- The host answers with plain data when it is asked for input. `own` tells its jobs that are about this. -/
structure PlainInputs (host : Host σ ι) (own : ι → Prop) : Prop where
  started : ∀ state, own (host.start state .input).result
  pending : ∀ state job job' wakes, own job → (host.poll state job).result = .pending job' wakes → own job'
  ready : ∀ state job v, own job → (host.poll state job).result ≠ .ready (.value v)

variable {host : Host σ ι} {setting : Setting}

theorem source_of_none {standing : Standing σ ι} {p : Place} (made : standing.source p = none) : p = .given := by
  cases p with
  | given => rfl
  | _ => cases standing with
    | underway state q => cases q <;> cases made
    | ended state v memory => cases made

@[simp] theorem memory_holding (standing : Standing σ ι) : standing.holding.memory = standing.memory := by
  cases standing with
  | underway state p => cases p <;> rfl
  | ended state v memory => rfl

theorem value?_bound (standing : Standing σ ι) (f : FrameId) (name : String) :
    standing.holding.value? (.bound f name) = (standing.memory.store.bindings f).get? name := by
  rw [Holding.value?, memory_holding]

theorem text?_of_value? {h : Holding} {p : Place} {v : Value} {x : String × Identity} (held : h.value? p = some v)
    (text : v.text? = some x) : h.text? p = some x :=
  Option.bind_eq_some_iff.mpr ⟨v, held, text⟩

theorem holding_step (host : Host σ ι) (setting : Setting) (state : σ) (m : Machine) :
    ((Progress.running m).trail host setting 1 state).standing.holding = (m.next setting).holding := by
  simp only [Progress.trail, Progress.stride]
  cases m.next setting <;> rfl

/-- Wherever a text stands behind a step of a run, it stood where the step has it from, or the step has made it. -/
theorem traced_step {standing : Standing σ ι} {p : Place} {x : String × Identity}
    (plain : ∀ state job w v, standing = .underway state (.waiting job w) →
      (host.poll state job).result ≠ .ready (.value v))
    (found : (standing.trail host setting 1).standing.holding.text? p = some x) :
    standing.holding.Hands (standing.trail host setting 1).standing.holding x (standing.source p) := by
  cases standing with
  | ended state v memory => exact .moved found
  | underway state q =>
    cases q with
    | running m =>
      rw [Standing.trail, holding_step] at found ⊢
      exact traced_next setting m found
    | waiting job w =>
      have plain := fun v => plain state job w v rfl
      simp only [Standing.trail, Progress.trail, Progress.stride] at found ⊢
      cases answered : (host.poll state job).result with
      | pending job' wakes =>
        rw [answered] at found
        cases p with
        | given => cases found
        | _ => exact .moved found
      | ready a =>
        rw [answered] at found
        cases a with
        | value v => exact absurd answered (plain v)
        | nothing =>
          cases p with
          | given => cases found
          | _ => exact .moved found
        | data d =>
          cases p with
          | given => exact hands_adopt (p := d) rfl found
          | bound f name =>
            refine .moved ?_
            change (((w.memory.adopt d).2.store.bindings f).get? name).bind Value.text? = some x at found
            rw [store_adopt] at found
            exact found
          | kept height i => exact .moved found

theorem serial_step (host : Host σ ι) (setting : Setting) (standing : Standing σ ι) :
    standing.memory.serial ≤ (standing.trail host setting 1).standing.memory.serial := by
  cases standing with
  | ended state v memory => exact Nat.le_refl _
  | underway state q =>
    cases q with
    | running m =>
      rw [Standing.trail, memory_step]
      exact serial_next setting m
    | waiting job w =>
      simp only [Standing.trail, Progress.trail, Progress.stride]
      cases (host.poll state job).result with
      | pending job' wakes => exact Nat.le_refl _
      | ready a =>
        cases a with
        | data d => exact serial_adopt w.memory d
        | nothing => exact Nat.le_refl _
        | value v => cases v <;> exact Nat.le_refl _

end

/-! ## Creations -/

/-- How a text was made: it was there before the run, with its identity, or a step of the run has made it. -/
inductive Creation where
  | before (identity : Identity)
  | step (n : Nat)
deriving DecidableEq, Repr

/-- Texts are told apart by their identities: those with the same one are the same text, and identities to come are
    not in use. -/
structure Holding.Sound (h : Holding) : Prop where
  same : ∀ p q s t i, h.text? p = some (s, i) → h.text? q = some (t, i) → s = t
  used : ∀ p s i, h.text? p = some (s, i) → i.maker = .program → i.serial < h.memory.serial

section

variable {σ ι : Type} (host : Host σ ι) (setting : Setting) (stands : Nat → Standing σ ι)

/-- The creation that the text in a place goes back to after so many steps of a run. It is found without a look at
    texts, but for those in front of the run. -/
def origin : Nat → Place → Option Creation
  | 0, p => ((stands 0).holding.text? p).map fun x => .before x.2
  | n + 1, p =>
    match (stands n).source p with
    | some q => origin n q
    | none => some (.step n)

/-- A text that is held after `n` steps stems from a creation. -/
inductive Stems (n : Nat) (x : String × Identity) : Creation → Prop where
  | before {p : Place} (held : (stands 0).holding.text? p = some x) : Stems n x (.before x.2)
  | step {k : Nat} (earlier : k < n) (held : (stands (k + 1)).holding.text? .given = some x)
      (fresh : x.2 = (stands k).memory.fresh) (later : (stands k).memory.serial < (stands (k + 1)).memory.serial) :
      Stems n x (.step k)

/-- No function of the host is called in the course of a run. -/
def CallsNoNative : Prop :=
  ∀ n, (stands n).callsNative setting = false

/-- All that a run waits for is answered with plain data. -/
def AnsweredPlainly : Prop :=
  ∀ n state job w v, stands n = .underway state (.waiting job w) → (host.poll state job).result ≠ .ready (.value v)

/-- A run takes one step after another. -/
def Unfolds : Prop :=
  ∀ n, stands (n + 1) = ((stands n).trail host setting 1).standing

end

section

variable {σ ι : Type} {host : Host σ ι} {setting : Setting} {stands : Nat → Standing σ ι}

theorem serial_mono (unfolds : Unfolds host setting stands) {k n : Nat} (le : k ≤ n) :
    (stands k).memory.serial ≤ (stands n).memory.serial := by
  induction le with
  | refl => exact Nat.le_refl _
  | @step n _ ih =>
    refine Nat.le_trans ih ?_
    rw [unfolds n]
    exact serial_step host setting _

/-- Every text that is held stems from the creation that it goes back to. -/
theorem stems_origin (unfolds : Unfolds host setting stands) (plain : AnsweredPlainly host stands) {n : Nat} {p : Place}
    {x : String × Identity} (held : (stands n).holding.text? p = some x) :
    ∃ e, origin stands n p = some e ∧ Stems stands n x e := by
  induction n generalizing p with
  | zero =>
    refine ⟨.before x.2, ?_, .before held⟩
    rw [origin, held]
    rfl
  | succ n ih =>
    have found := held
    rw [unfolds n] at found
    have hands := traced_step (plain n) found
    rw [← unfolds n] at hands
    rw [origin]
    cases comes : (stands n).source p with
    | some q =>
      rw [comes] at hands
      cases hands with
      | moved stood =>
        obtain ⟨e, traced, stems⟩ := ih stood
        refine ⟨e, traced, ?_⟩
        cases stems with
        | before held => exact .before held
        | step earlier held fresh later => exact .step (Nat.lt_succ_of_lt earlier) held fresh later
    | none =>
      rw [comes] at hands
      obtain rfl := source_of_none comes
      refine ⟨.step n, rfl, ?_⟩
      cases hands with
      | made fresh later =>
        rw [memory_holding] at fresh later
        rw [memory_holding] at later
        exact .step (Nat.lt_succ_self n) held fresh later

/-- A text that stems from a creation has no identity that is still to come. -/
theorem used_of_stems (unfolds : Unfolds host setting stands) (sound : (stands 0).holding.Sound) {n : Nat}
    {x : String × Identity} {e : Creation} (stems : Stems stands n x e) (made : x.2.maker = .program) :
    x.2.serial < (stands n).memory.serial := by
  cases stems with
  | @before p held =>
    have used := sound.used p x.1 x.2 held made
    rw [memory_holding] at used
    exact Nat.lt_of_lt_of_le used (serial_mono unfolds (Nat.zero_le n))
  | step earlier held fresh later =>
    rw [fresh]
    exact Nat.lt_of_lt_of_le later (serial_mono unfolds earlier)

/-- A text that was there before a run has no identity that is made in it. -/
theorem ne_of_before (unfolds : Unfolds host setting stands) (sound : (stands 0).holding.Sound) {p : Place} {k : Nat}
    {x y : String × Identity} (held : (stands 0).holding.text? p = some x) (fresh : y.2 = (stands k).memory.fresh) :
    x.2 ≠ y.2 := by
  intro same
  have used := used_of_stems (n := k) unfolds sound (.before held) (by rw [same, fresh]; rfl)
  rw [same, fresh] at used
  exact absurd used (Nat.lt_irrefl _)

/-- Two steps that make instances make different ones. -/
theorem step_unique (unfolds : Unfolds host setting stands) {k l : Nat}
    (later : (stands k).memory.serial < (stands (k + 1)).memory.serial)
    (later' : (stands l).memory.serial < (stands (l + 1)).memory.serial)
    (same : (stands k).memory.fresh = (stands l).memory.fresh) : k = l := by
  have serial := congrArg Identity.serial same
  rcases Nat.lt_trichotomy k l with less | equal | more
  · exact absurd serial (Nat.ne_of_lt (Nat.lt_of_lt_of_le later (serial_mono unfolds less)))
  · exact equal
  · exact absurd serial.symm (Nat.ne_of_lt (Nat.lt_of_lt_of_le later' (serial_mono unfolds more)))

/-- Creations tell texts apart as their identities do. -/
theorem stems_iff (unfolds : Unfolds host setting stands) (sound : (stands 0).holding.Sound) {n : Nat}
    {s t : String} {i j : Identity} {d e : Creation} (one : Stems stands n (s, i) d) (other : Stems stands n (t, j) e) :
    (i = j ↔ d = e) ∧ (i = j → s = t) := by
  cases one with
  | @before p held =>
    cases other with
    | @before q held' =>
      refine ⟨⟨fun same => congrArg Creation.before same, fun same => by injection same⟩, ?_⟩
      rintro rfl
      exact sound.same p q s t i held held'
    | step _ _ fresh _ =>
      have different := ne_of_before unfolds sound held fresh
      exact ⟨⟨fun same => absurd same different, by rintro ⟨⟩⟩, fun same => absurd same different⟩
  | @step k _ held fresh later =>
    cases other with
    | before held' =>
      have different := (ne_of_before unfolds sound held' fresh).symm
      exact ⟨⟨fun same => absurd same different, by rintro ⟨⟩⟩, fun same => absurd same different⟩
    | @step l _ held' fresh' later' =>
      -- The identities are the numbers of instances that were made before these steps, and each step adds one.
      have fresh : i = (stands k).memory.fresh := fresh
      have fresh' : j = (stands l).memory.fresh := fresh'
      have steps (same : i = j) : k = l := step_unique unfolds later later' (fresh.symm.trans (same.trans fresh'))
      refine ⟨⟨fun same => congrArg Creation.step (steps same), ?_⟩, fun same => ?_⟩
      · intro same
        injection same with same
        rw [fresh, fresh', same]
      · rw [← steps same] at held'
        exact congrArg Prod.fst (Option.some.inj (held.symm.trans held'))

end

/-! ## Equality follows instances -/

section

variable {σ ι : Type} (host : Host σ ι) (setting : Setting) (stands : Nat → Standing σ ι)

/-- No text that is held after some steps is the same as a value. -/
def Unheld (n : Nat) (v : Value) : Prop :=
  ∀ p s i, (stands n).holding.text? p = some (s, i) → v.identical (.string s i) = false

/-- A run in which texts are instances. -/
structure TextsAreInstances : Prop where
  /-- A literal comes to a new instance whenever it is evaluated, -/
  literal : ∀ n state m t f stack, stands n = .underway state (.running ⟨m, .evaluate (.string t) f, stack⟩) →
    ∃ i, stands (n + 1) = .underway state (.running ⟨m.made, .give (.string t i), stack⟩) ∧
      Unheld stands n (.string t i)
  /-- and so do two texts that are joined -/
  joined : ∀ n state m s t i j stack,
    stands n = .underway state (.running ⟨m, .give (.string t j), .right .add (.string s i) :: stack⟩) →
    ∃ k, stands (n + 1) = .underway state (.running ⟨m.made, .give (.string (s ++ t) k), stack⟩) ∧
      Unheld stands n (.string (s ++ t) k)
  /-- and a text that is answered. -/
  answered : ∀ n state job w t, stands n = .underway state (.waiting job w) →
    (host.poll state job).result = .ready (.data (.string t)) →
    ∃ i, stands (n + 1) =
        .underway (host.poll state job).state (.running ⟨w.memory.made, .give (.string t i), w.stack⟩) ∧
      Unheld stands n (.string t i)
  /-- A declaration binds what it was given, -/
  declared : ∀ n state m v name type s f stack,
    stands n = .underway state (.running ⟨m, .give v, .settle (.declare name type) s f :: stack⟩) →
    v.tag = type.tag → (stands (n + 1)).holding.value? (.bound f name) = some v
  /-- and so does an assignment, in the frame that binds the name. -/
  assigned : ∀ n state m v name s f g stack,
    stands n = .underway state (.running ⟨m, .give v, .settle (.assign name) s f :: stack⟩) →
    v.isError = false → m.store.slot f name v = .ok g →
    (stands (n + 1)).holding.value? (.bound g name) = some v
  /-- A call binds the parameters to the arguments, in a new frame. -/
  passed : ∀ n state m v g ready f stack name j,
    stands n = .underway state (.running ⟨m, .give v, .argument (.function g) ready [] f :: stack⟩) →
    v.isError = false → (ready ++ [v]).length = g.parameters.length → m.depth < setting.limit →
    argumentOf name g.parameters = some j →
    (stands (n + 1)).holding.value? (.bound m.store.next name) = (ready ++ [v])[j]?
  /-- What is given back is what the call comes to. -/
  returned : ∀ n state m v s f stack,
    stands n = .underway state (.running ⟨m, .give v, .settle .giveBack s f :: stack⟩) → v.isError = false →
    (stands (n + 1)).holding.value? .given = some (.returned v)
  received : ∀ n state m v stack,
    stands n = .underway state (.running ⟨m, .give (.returned v), .leave :: stack⟩) →
    (stands (n + 1)).holding.value? .given = some v
  /-- A name that is read comes to what the frame binds that the name means. -/
  read : ∀ n state m name f g stack,
    stands n = .underway state (.running ⟨m, .evaluate (.name name) f, stack⟩) → m.store.owner? f name = some g →
    (stands (n + 1)).holding.value? .given = (stands n).holding.value? (.bound g name)
  /-- Every text has come to its place from where the step has it from, or was made there, -/
  traced : ∀ n p x, (stands (n + 1)).holding.text? p = some x →
    (stands n).holding.Hands (stands (n + 1)).holding x ((stands n).source p)
  /-- and so goes back to a creation. -/
  created : ∀ n p x, (stands n).holding.text? p = some x → ∃ e, origin stands n p = some e
  /-- Two names that mean texts are equal if and only if these go back to the same creation, and only if they read
      the same. -/
  equal : ∀ n x y f g h s t i j stack state,
    (stands n).memory.store.owner? f x = some g → (stands n).memory.store.owner? f y = some h →
    (stands n).holding.value? (.bound g x) = some (.string s i) →
    (stands n).holding.value? (.bound h y) = some (.string t j) →
    ∃ b, ((Progress.running ⟨(stands n).memory, .evaluate (.binary (.name x) .equal (.name y)) f, stack⟩).trail host
            setting 5 state).standing = .underway state (.running ⟨(stands n).memory, .give (.bool b), stack⟩) ∧
        (b = true ↔ origin stands n (.bound g x) = origin stands n (.bound h y)) ∧ (b = true → s = t)

end

section

variable {σ ι : Type} {host : Host σ ι} {setting : Setting} {stands : Nat → Standing σ ι}

/-- The next instance is not the same as any text that is held. -/
theorem unheld_fresh (unfolds : Unfolds host setting stands) (plain : AnsweredPlainly host stands)
    (sound : (stands 0).holding.Sound) (n : Nat) (t : String) :
    Unheld stands n (.string t (stands n).memory.fresh) := by
  intro p s i held
  obtain ⟨e, -, stems⟩ := stems_origin unfolds plain held
  simp only [Value.identical, decide_eq_false_iff_not]
  rintro rfl
  exact absurd (used_of_stems unfolds sound stems rfl) (Nat.lt_irrefl _)

/-! What a step does with the value in hand. -/

section

variable {n : Nat} {s₁ : σ} {m : Memory} {v : Value} {name : String} {f g : FrameId} {stack : List Task}

theorem holding_next (unfolds : Unfolds host setting stands) {m : Machine}
    (there : stands n = .underway s₁ (.running m)) : (stands (n + 1)).holding = (m.next setting).holding := by
  rw [unfolds n, there]
  exact holding_step host setting s₁ m

theorem bound_of_declared (unfolds : Unfolds host setting stands) {type : TypeName} {s : Stmt}
    (there : stands n = .underway s₁ (.running ⟨m, .give v, .settle (.declare name type) s f :: stack⟩))
    (placed : (stands n).Holds (fun _ q => q.Placed) (fun _ _ _ => True)) (fits : v.tag = type.tag) :
    (stands (n + 1)).holding.value? (.bound f name) = some v := by
  rw [there] at placed
  rw [holding_next unfolds there]
  exact binds_of_declares setting placed (.typed fits)

theorem bound_of_assigned (unfolds : Unfolds host setting stands) {s : Stmt}
    (there : stands n = .underway s₁ (.running ⟨m, .give v, .settle (.assign name) s f :: stack⟩))
    (faultless : v.isError = false) (found : m.store.slot f name v = .ok g) :
    (stands (n + 1)).holding.value? (.bound g name) = some v := by
  obtain ⟨old, binds, -⟩ := binds_slot found
  rw [holding_next unfolds there]
  simp only [Machine.next, Machine.resume, faultless, Memory.use, found]
  exact binds_set (inside_of_binds binds) name v

theorem bound_of_passed (unfolds : Unfolds host setting stands) {h : Function} {ready : List Value} {j : Nat}
    (there : stands n = .underway s₁ (.running ⟨m, .give v, .argument (.function h) ready [] f :: stack⟩))
    (faultless : v.isError = false) (fits : (ready ++ [v]).length = h.parameters.length)
    (room : m.depth < setting.limit) (parameter : argumentOf name h.parameters = some j) :
    (stands (n + 1)).holding.value? (.bound m.store.next name) = (ready ++ [v])[j]? := by
  have inside : m.store.next < (m.enclose f).1.store.frames.size := by
    rw [(size_enclose m f).1]
    exact Nat.lt_succ_self _
  have bound := get?_setEach inside name fits
  rw [parameter] at bound
  have shallow : ¬ setting.limit ≤ m.depth := Nat.not_le.mpr room
  rw [holding_next unfolds there]
  simp only [Machine.next, Machine.resume, faultless, Bool.false_eq_true, if_false, Machine.argue, Machine.apply, fits,
    ne_eq, not_true_eq_false, shallow]
  exact bound

theorem given_of_returned (unfolds : Unfolds host setting stands) {s : Stmt}
    (there : stands n = .underway s₁ (.running ⟨m, .give v, .settle .giveBack s f :: stack⟩))
    (faultless : v.isError = false) : (stands (n + 1)).holding.value? .given = some (.returned v) := by
  rw [holding_next unfolds there]
  simp only [Machine.next, Machine.resume, faultless]
  rfl

/-- The frame that binds what a name means binds it. -/
theorem found_of_owned {s : Store} (owned : s.owner? f name = some g) :
    ∃ v, s.get? f name = some v ∧ (s.bindings g).get? name = some v := by
  have contains := @List.find?_some _ (fun g => (s.bindings g).contains name) _ _ owned
  obtain ⟨v, bound⟩ := Option.isSome_iff_exists.mp contains
  refine ⟨v, ?_, bound⟩
  rw [get?_eq, owned]
  exact bound

theorem given_of_read (unfolds : Unfolds host setting stands)
    (there : stands n = .underway s₁ (.running ⟨m, .evaluate (.name name) f, stack⟩))
    (owned : m.store.owner? f name = some g) :
    (stands (n + 1)).holding.value? .given = (stands n).holding.value? (.bound g name) := by
  obtain ⟨v, found, bound⟩ := found_of_owned owned
  rw [holding_next unfolds there, there]
  show some (m.lookup setting name f).1 = (m.store.bindings g).get? name
  rw [Memory.lookup, found, bound]

end

/-- Two names are compared in five steps. -/
theorem compared (host : Host σ ι) (setting : Setting) (m : Memory) {f : FrameId} {x y : String} {s t : String}
    {i j : Identity} (left : m.store.get? f x = some (.string s i)) (right : m.store.get? f y = some (.string t j))
    (stack : List Task) (state : σ) :
    ((Progress.running ⟨m, .evaluate (.binary (.name x) .equal (.name y)) f, stack⟩).trail host setting 5
        state).standing = .underway state (.running ⟨m, .give (.bool (i = j)), stack⟩) := by
  simp [Progress.trail, Progress.stride, Machine.next, Machine.evaluate, Memory.lookup, left, right, Machine.give,
    Machine.resume, Value.isError, BinaryOp.apply, BinaryOp.applyOthers, Value.identical, Memory.conclude, Memory.adopt,
    Primitive.toValue]

/-- Two texts that are bound have the same identity if and only if they go back to the same creation. -/
theorem origin_iff (unfolds : Unfolds host setting stands) (plain : AnsweredPlainly host stands)
    (sound : (stands 0).holding.Sound) {n : Nat} {p q : Place} {s t : String} {i j : Identity}
    (one : (stands n).holding.text? p = some (s, i)) (other : (stands n).holding.text? q = some (t, j)) :
    (i = j ↔ origin stands n p = origin stands n q) ∧ (i = j → s = t) := by
  obtain ⟨d, traced, stems⟩ := stems_origin unfolds plain one
  obtain ⟨e, traced', stems'⟩ := stems_origin unfolds plain other
  rw [traced, traced', Option.some.injEq]
  exact stems_iff unfolds sound stems stems'

/-- In a run that is answered with plain data the texts are instances. -/
theorem instances_of_plain (unfolds : Unfolds host setting stands) (plain : AnsweredPlainly host stands)
    (sound : (stands 0).holding.Sound)
    (placed : ∀ n, (stands n).Holds (fun _ q => q.Placed) (fun _ _ _ => True)) :
    TextsAreInstances host setting stands := by
  have fresh := unheld_fresh unfolds plain sound
  constructor
  case literal =>
    intro n s₁ m t f stack there
    have new := fresh n t
    rw [there] at new
    exact ⟨m.fresh, by rw [unfolds n, there]; rfl, new⟩
  case joined =>
    intro n s₁ m s t i j stack there
    have new := fresh n (s ++ t)
    rw [there] at new
    exact ⟨m.fresh, by rw [unfolds n, there]; rfl, new⟩
  case answered =>
    intro n s₁ job w t there answered
    have new := fresh n t
    rw [there] at new
    refine ⟨w.memory.fresh, ?_, new⟩
    rw [unfolds n, there]
    simp only [Standing.trail, Progress.trail, Progress.stride, answered]
    rfl
  case declared => exact fun n s₁ m v name type s f stack there => bound_of_declared unfolds there (placed n)
  case assigned => exact fun n s₁ m v name s f g stack => bound_of_assigned unfolds
  case passed => exact fun n s₁ m v h ready f stack name j => bound_of_passed unfolds
  case returned => exact fun n s₁ m v s f stack => given_of_returned unfolds
  case received =>
    intro n s₁ m v stack there
    rw [holding_next unfolds there]
    rfl
  case read => exact fun n s₁ m name f g stack => given_of_read unfolds
  case traced =>
    intro n p x held
    rw [unfolds n] at held ⊢
    exact traced_step (plain n) held
  case created =>
    intro n p x held
    obtain ⟨e, traced, -⟩ := stems_origin unfolds plain held
    exact ⟨e, traced⟩
  case equal =>
    intro n x y f g h s t i j stack s₁ ownedX ownedY boundX boundY
    obtain ⟨creations, texts⟩ :=
      origin_iff unfolds plain sound (text?_of_value? boundX rfl) (text?_of_value? boundY rfl)
    rw [value?_bound] at boundX boundY
    have foundX : (stands n).memory.store.get? f x = some (.string s i) := by
      rw [get?_eq, ownedX]
      exact boundX
    have foundY : (stands n).memory.store.get? f y = some (.string t j) := by
      rw [get?_eq, ownedY]
      exact boundY
    refine ⟨_, compared host setting _ foundX foundY stack s₁, ?_, fun same => texts (of_decide_eq_true same)⟩
    rw [decide_eq_true_iff, creations]

end

section

variable {σ ι : Type} {host : Host σ ι} {setting : Setting} {state : σ} {memory : Memory} {script : List Stmt}
  {scope : FrameId}

theorem unfolds_standingAfter : Unfolds host setting (standingAfter host setting state memory script scope) :=
  fun n => standing_add n 1 state _

/-- A run that waits for an answer to `Input`, if it waits at all. -/
def Progress.Awaits (own : ι → Prop) : Progress ι → Prop
  | running _ => True
  | waiting job _ => own job

theorem awaits_stride {own : ι → Prop} (inputs : PlainInputs host own) {state' : σ} {q : Progress ι}
    (awaits : q.Awaits own) (uncalled : (Standing.underway state' q).callsNative setting = false) :
    (q.stride host setting state').result.Holds (fun _ q => q.Awaits own) (fun _ _ _ => True)
      (q.stride host setting state').state := by
  cases q with
  | waiting job w =>
    simp only [Progress.stride]
    cases answered : (host.poll state' job).result with
    | ready a => trivial
    | pending job' wakes => exact inputs.pending state' job job' wakes awaits answered
  | running m =>
    simp only [Progress.stride]
    cases leads : m.next setting with
    | ask r w =>
      cases r with
      | input => exact inputs.started state'
      | call f arguments =>
        rw [Standing.callsNative, leads] at uncalled
        cases uncalled
    | _ => trivial

/-- Only functions of the host answer with values. -/
theorem answeredPlainly_of_callsNoNative {own : ι → Prop} (inputs : PlainInputs host own)
    (uncalled : CallsNoNative setting (standingAfter host setting state memory script scope)) :
    AnsweredPlainly host (standingAfter host setting state memory script scope) := by
  intro n state' job w v there
  have awaits : (standingAfter host setting state memory script scope n).Holds (fun _ q => q.Awaits own)
      (fun _ _ _ => True) := by
    have start : (Progress.running (.start memory script scope) : Progress ι).Awaits own := trivial
    refine holds_trail (P := fun _ q => q.Awaits own) start (fun n state' q stands awaits => ?_) n
    have quiet := uncalled n
    rw [standingAfter, stands] at quiet
    exact awaits_stride inputs awaits quiet
  rw [there] at awaits
  exact inputs.ready state' job v awaits

/-- In every run of a script that calls no functions of the host the texts are instances. -/
theorem texts_are_instances {own : ι → Prop} (inputs : PlainInputs host own)
    (inside : scope < memory.store.frames.size) (sound : (Machine.start memory script scope).holding.Sound)
    (uncalled : CallsNoNative setting (standingAfter host setting state memory script scope)) :
    TextsAreInstances host setting (standingAfter host setting state memory script scope) :=
  instances_of_plain unfolds_standingAfter (answeredPlainly_of_callsNoNative inputs uncalled) sound
    (placed_trail host setting state (placed_start (ι := ι) inside script))

/-- A run that has ended calls nothing. -/
theorem callsNoNative_of_ended {stands : Nat → Standing σ ι} (unfolds : Unfolds host setting stands) {k : Nat}
    {state' : σ} {v : Value} {memory' : Memory} (ended : stands k = .ended state' v memory')
    (uncalled : ∀ n < k, (stands n).callsNative setting = false) : CallsNoNative setting stands := by
  intro n
  rcases Nat.lt_or_ge n k with before | behind
  · exact uncalled n before
  · have still : stands n = .ended state' v memory' := by
      induction behind with
      | refl => exact ended
      | step _ ih =>
        rw [unfolds, ih]
        rfl
    rw [still]
    rfl

theorem sound_of_textless (textless : ∀ f name v, (memory.store.bindings f).get? name = some v → v.text? = none) :
    (Machine.start memory script scope).holding.Sound := by
  have none (p : Place) : (Machine.start memory script scope).holding.text? p = none := by
    refine Option.bind_eq_none_iff.mpr fun v held => ?_
    cases p with
    | bound f name => exact textless f name v held
    | given =>
      cases held
      rfl
    | kept height i =>
      change keptAt [.script script scope] height i = some v at held
      simp [keptAt, Task.values] at held
  constructor
  · intro p q s t i held
    rw [none p] at held
    cases held
  · intro p s i held
    rw [none p] at held
    cases held

end

/-- A host that answers every question at once, with the same text. -/
def repeating : Host Unit Unit where
  print s _ := ⟨s, (), false⟩
  start s _ := ⟨s, (), false⟩
  poll s _ := ⟨s, .ready (.data (.string "x")), false⟩

/-- A script that binds an answer to a name, hands it on to another one and binds a literal to a third. -/
def answerAndLiteral : List Stmt :=
  [.declare ⟨1, 1, 0⟩ "a" .string (some (.call (.name "Input") [])),
    .declare ⟨2, 1, 24⟩ "b" .string (some (.name "a")),
    .declare ⟨3, 1, 42⟩ "c" .string (some (.string "x"))]

/-- Where its run stands. -/
def answeredRun : Nat → Standing Unit Unit :=
  standingAfter repeating ⟨1000, .empty⟩ () Memory.start.1 answerAndLiteral Memory.start.2

/-- Two names have the same answer, and the literal reads like it but is another instance. -/
theorem texts_are_instances_of_answer :
    TextsAreInstances repeating ⟨1000, .empty⟩ answeredRun ∧
      ∃ i j, i ≠ j ∧ (answeredRun 15).memory.store.get? 0 "a" = some (.string "x" i) ∧
        (answeredRun 15).memory.store.get? 0 "b" = some (.string "x" i) ∧
        (answeredRun 15).memory.store.get? 0 "c" = some (.string "x" j) := by
  have inputs : PlainInputs repeating fun _ => True := by constructor <;> simp [repeating]
  have sound : (Machine.start Memory.start.1 answerAndLiteral Memory.start.2).holding.Sound :=
    sound_of_textless fun f name v held => by cases f <;> cases held
  have uncalled : CallsNoNative ⟨1000, .empty⟩ answeredRun :=
    callsNoNative_of_ended unfolds_standingAfter (k := 15) rfl (by decide +kernel)
  refine ⟨texts_are_instances inputs (by decide) sound uncalled, ⟨.program, 0⟩, ⟨.program, 1⟩, by decide, ?_⟩
  decide +kernel

end Stepwise
