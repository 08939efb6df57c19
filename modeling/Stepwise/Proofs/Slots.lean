import Stepwise.Proofs.Shadows

/-!
The slot that an update writes. In a store that was built by making frames and binding names in them,
a frame lies in the frames that one passes on the way outward (`linked_of_built`), and a name means what
it is bound to in the first of them that binds it (`Store.Resolves`). An update replaces the value in that
slot or changes nothing, and which of the two is told by the value that is there (`update_one_slot`).
-/
namespace Stepwise

/-! ## Stores that were built -/

/-- The stores that come about by making frames, binding names and defining functions in them. -/
inductive Store.Built : Store → Prop where
  | empty : Built .empty
  | root {s : Store} (built : Built s) : Built s.root.1
  | enclose {s : Store} {f : FrameId} (built : Built s) (inside : f < s.frames.size) : Built (s.enclose f).1
  | set {s : Store} (built : Built s) (f : FrameId) (name : String) (v : Value) : Built (s.set f name v)
  | update {s t : Store} {f : FrameId} {name : String} {v : Value} (built : Built s)
      (updated : s.update f name v = .ok t) : Built t
  | define {s : Store} (built : Built s) (f : FrameId) (function : Function) : Built (s.define f function)

/-- The frames around a frame are the frame directly around it, which was there before, and the frames
    around that one. -/
structure Store.Linked (s : Store) : Prop where
  earlier : ∀ f g, s.outer? f = some g → g < f
  through : ∀ f g, s.outer? f = some g → s.outers f = s.chain g

section

variable {s : Store} {f : FrameId}

theorem outers_push (outers : List FrameId) (g : FrameId) :
    (s.push outers).outers g = if g = s.frames.size then outers else s.outers g := by
  simp only [Store.outers, Store.push, Array.getElem?_push]
  by_cases last : g = s.frames.size
  · rw [if_pos last, if_pos last]
    rfl
  · rw [if_neg last, if_neg last]

theorem inside_of_outer {g : FrameId} (outer : s.outer? f = some g) : f < s.frames.size := by
  refine Nat.lt_of_not_le fun outside => ?_
  simp only [Store.outer?, Store.outers, Array.getElem?_eq_none outside, List.head?_nil] at outer
  cases outer

/-- Frames that keep their places stay linked. -/
theorem Store.Linked.of_outers {t : Store} (linked : s.Linked) (same : ∀ g, t.outers g = s.outers g) : t.Linked := by
  constructor
  · intro f g outer
    rw [Store.outer?, same] at outer
    exact linked.earlier f g outer
  · intro f g outer
    rw [Store.outer?, same] at outer
    rw [Store.chain, same, same]
    exact linked.through f g outer

/-- A new frame with none around it, or with a frame that is there and the frames around that. -/
theorem Store.Linked.push (linked : s.Linked) {outers : List FrameId}
    (fits : ∀ g ∈ outers.head?, g < s.frames.size ∧ outers = s.chain g) : (s.push outers).Linked := by
  have chain (g : FrameId) (inside : g < s.frames.size) : (s.push outers).chain g = s.chain g := by
    rw [Store.chain, outers_push, if_neg (Nat.ne_of_lt inside), Store.chain]
  constructor
  · intro f g outer
    rw [Store.outer?, outers_push] at outer
    by_cases last : f = s.frames.size
    · rw [if_pos last] at outer
      rw [last]
      exact (fits g outer).1
    · rw [if_neg last] at outer
      exact linked.earlier f g outer
  · intro f g outer
    rw [Store.outer?, outers_push] at outer
    rw [outers_push]
    by_cases last : f = s.frames.size
    · rw [if_pos last] at outer ⊢
      rw [chain g (fits g outer).1]
      exact (fits g outer).2
    · rw [if_neg last] at outer ⊢
      rw [chain g (Nat.lt_trans (linked.earlier f g outer) (inside_of_outer outer))]
      exact linked.through f g outer

/-- An update is the replacement of one binding. -/
theorem set_of_update {t : Store} {name : String} {v : Value} (updated : s.update f name v = .ok t) :
    ∃ g, s.slot f name v = .ok g ∧ t = s.set g name v := by
  unfold Store.update at updated
  cases found : s.slot f name v with
  | error fault =>
    rw [found] at updated
    cases updated
  | ok g =>
    rw [found] at updated
    exact ⟨g, rfl, (Except.ok.inj updated).symm⟩

theorem linked_of_built (built : s.Built) : s.Linked := by
  induction built with
  | empty => exact ⟨nofun, nofun⟩
  | root built linked => exact linked.push nofun
  | @enclose s f built inside linked =>
    refine linked.push fun g first => ?_
    obtain rfl : f = g := Option.some.inj first
    exact ⟨inside, rfl⟩
  | set built f name v linked => exact linked.of_outers (outers_set _ f · name v)
  | update built updated linked =>
    obtain ⟨g, -, rfl⟩ := set_of_update updated
    exact linked.of_outers (outers_set _ g · _ _)
  | define built f function linked => exact linked.of_outers (outers_define _ f · function)

/-! ## What a name means -/

/-- On the way outward from a frame the first frame that binds a name. -/
inductive Store.Resolves (s : Store) (name : String) : FrameId → FrameId → Prop where
  | here {f : FrameId} (bound : (s.bindings f).contains name = true) : Resolves s name f f
  | outward {f g owner : FrameId} (unbound : (s.bindings f).contains name = false) (outer : s.outer? f = some g)
      (resolves : Resolves s name g owner) : Resolves s name f owner

theorem resolves_iff (linked : s.Linked) (name : String) (owner : FrameId) :
    s.Resolves name f owner ↔ s.owner? f name = some owner := by
  constructor
  · intro resolves
    induction resolves with
    | here bound => simp only [Store.owner?, Store.chain, List.find?_cons, bound]
    | @outward f g owner unbound outer resolves ih =>
      simp only [Store.owner?, Store.chain, List.find?_cons, unbound]
      rw [linked.through f g outer]
      exact ih
  · intro owned
    induction f using Nat.strongRecOn with
    | ind f ih =>
      simp only [Store.owner?, Store.chain, List.find?_cons] at owned
      cases bound : (s.bindings f).contains name with
      | true =>
        rw [bound] at owned
        obtain rfl := Option.some.inj owned
        exact .here bound
      | false =>
        rw [bound] at owned
        cases outer : s.outer? f with
        | none =>
          rw [List.head?_eq_none_iff.mp outer] at owned
          cases owned
        | some g =>
          rw [linked.through f g outer] at owned
          exact .outward bound outer (ih g (linked.earlier f g outer) owned)

/-- A name means what the innermost frame that binds it binds it to. -/
theorem get?_eq (s : Store) (f : FrameId) (name : String) :
    s.get? f name = (s.owner? f name).bind fun g => (s.bindings g).get? name := by
  rw [Store.get?, Store.owner?]
  induction s.chain f with
  | nil => rfl
  | cons g rest ih =>
    rw [List.findSome?_cons, List.find?_cons, Table.contains]
    cases bound : (s.bindings g).get? name with
    | none => exact ih
    | some v => exact bound.symm

/-! ## Updates -/

/-- What an update comes to. -/
inductive Store.Outcome (s : Store) (f : FrameId) (name : String) (v : Value) : Except Fault Store → Prop where
  | notFound (unbound : s.get? f name = none) : Outcome s f name v (.error (.notFound name))
  | refused {old : Value} (found : s.get? f name = some old) (unfit : ¬ (old.tag = .null ∨ old.tag = v.tag)) :
      Outcome s f name v (.error (.wrongType v.tag old.tag))
  | replaced {g : FrameId} {old : Value} (owned : s.owner? f name = some g) (binds : s.Binds g name old)
      (found : s.get? f name = some old) (fits : old.tag = .null ∨ old.tag = v.tag) :
      Outcome s f name v (.ok (s.set g name v))

theorem outcome_update (s : Store) (f : FrameId) (name : String) (v : Value) :
    s.Outcome f name v (s.update f name v) := by
  have meaning := get?_eq s f name
  cases owned : s.owner? f name with
  | none =>
    rw [owned] at meaning
    simp only [Store.update, Store.slot, owned]
    exact .notFound meaning
  | some g =>
    have bound : (s.bindings g).contains name = true := by simpa using List.find?_some owned
    obtain ⟨old, binds⟩ := Option.isSome_iff_exists.mp bound
    rw [owned] at meaning
    have found : s.get? f name = some old := meaning.trans binds
    simp only [Store.update, Store.slot, owned, found]
    by_cases fits : old.tag = .null ∨ old.tag = v.tag
    · rw [if_pos fits]
      exact .replaced owned binds found fits
    · rw [if_neg fits]
      exact .refused found fits

section

variable {name : String} {v : Value} {result : Except Fault Store}

theorem tag_eq_null_iff {v : Value} : v.tag = .null ↔ v = .null :=
  ⟨null_of_tag, fun same => same ▸ rfl⟩

theorem Store.Outcome.notFound_iff (outcome : s.Outcome f name v result) :
    result = .error (.notFound name) ↔ s.get? f name = none := by
  cases outcome with
  | notFound unbound => simp [unbound]
  | refused found unfit => simp [found]
  | replaced owned binds found fits => simp [found]

theorem Store.Outcome.wrongType_iff (outcome : s.Outcome f name v result) (got expected : Tag) :
    result = .error (.wrongType got expected) ↔
      got = v.tag ∧ ∃ old, s.get? f name = some old ∧ expected = old.tag ∧ old ≠ .null ∧ old.tag ≠ v.tag := by
  cases outcome with
  | notFound unbound => simp [unbound]
  | @refused old found unfit =>
    rw [tag_eq_null_iff, not_or] at unfit
    constructor
    · intro same
      cases same
      exact ⟨rfl, old, found, rfl, unfit.1, unfit.2⟩
    · rintro ⟨rfl, old', found', rfl, -, -⟩
      rw [Option.some.inj (found'.symm.trans found)]
  | @replaced g old owned binds found fits =>
    rw [tag_eq_null_iff] at fits
    have fitting : ¬ (old ≠ .null ∧ old.tag ≠ v.tag) := fun both => fits.elim both.1 both.2
    simp [found, fitting]

theorem Store.Outcome.succeeds_iff (outcome : s.Outcome f name v result) :
    (∃ t, result = .ok t) ↔ ∃ old, s.get? f name = some old ∧ (old = .null ∨ old.tag = v.tag) := by
  cases outcome with
  | notFound unbound => simp [unbound]
  | @refused old found unfit =>
    rw [tag_eq_null_iff] at unfit
    simp [found, unfit]
  | @replaced g old owned binds found fits =>
    rw [tag_eq_null_iff] at fits
    simp [found, fits]

end

/-- From one store to another the value of a name in one frame is replaced: from wherever the name
    resolves to that frame the new value is seen, and all else is as it was. -/
structure Store.Replaces (s : Store) (g : FrameId) (name : String) (v : Value) (t : Store) : Prop where
  seen : ∀ h, s.Resolves name h g → t.get? h name = some v
  others : ∀ h wanted, ¬ (wanted = name ∧ s.Resolves name h g) → t.get? h wanted = s.get? h wanted
  names : ∀ h wanted, (t.bindings h).contains wanted = (s.bindings h).contains wanted
  functions : ∀ h, t.functions h = s.functions h
  frames : t.frames.size = s.frames.size ∧ ∀ h, t.outers h = s.outers h

theorem replaces_set {g : FrameId} {name : String} {old : Value} (linked : s.Linked) (binds : s.Binds g name old)
    (v : Value) : s.Replaces g name v (s.set g name v) := by
  -- the store with another value in one slot
  let slot : Shadow := ⟨g, name, old, v⟩
  have owner (h : FrameId) (wanted : String) : (s.set g name v).owner? h wanted = s.owner? h wanted :=
    owner?_recast (h := slot) binds wanted
  refine ⟨?_, ?_, contains_recast (h := slot) binds, fun h => functions_set s g h name v,
    size_set s g name v, fun h => outers_set s g h name v⟩
  · intro h resolves
    rw [get?_eq, owner, (resolves_iff linked name g).mp resolves]
    exact binds_set (inside_of_binds binds) name v
  · intro h wanted other
    rw [get?_eq, get?_eq, owner]
    cases owned : s.owner? h wanted with
    | none => rfl
    | some k =>
      by_cases same : k = g
      · subst same
        have named : wanted ≠ name := by
          rintro rfl
          exact other ⟨rfl, (resolves_iff linked _ _).mpr owned⟩
        show ((s.set k name v).bindings k).get? wanted = (s.bindings k).get? wanted
        rw [bindings_set_self (inside_of_binds binds), Table.get?_insert, if_neg named]
      · show ((s.set g name v).bindings k).get? wanted = (s.bindings k).get? wanted
        rw [bindings_set_ne (Ne.symm same)]

/-- An assignment of a script is an update. -/
theorem use_assign (m : Memory) (f : FrameId) (name : String) (v : Value) :
    m.use f v (.assign name) =
      match m.store.update f name v with
      | .ok t => (.null, { m with store := t })
      | .error fault => (.error fault, m) := by
  simp only [Memory.use, Store.update]
  cases m.store.slot f name v <;> rfl

/-- What it means to give a name another value, as seen from a frame: when it fails, and that a script
    then remembers what it did before; when it succeeds, and which slot is then replaced. -/
structure Store.UpdatesOneSlot (s : Store) (f : FrameId) (name : String) (v : Value) : Prop where
  notFound : s.update f name v = .error (.notFound name) ↔ s.get? f name = none
  wrongType : ∀ got expected, s.update f name v = .error (.wrongType got expected) ↔
    got = v.tag ∧ ∃ old, s.get? f name = some old ∧ expected = old.tag ∧ old ≠ .null ∧ old.tag ≠ v.tag
  succeeds : (∃ t, s.update f name v = .ok t) ↔ ∃ old, s.get? f name = some old ∧ (old = .null ∨ old.tag = v.tag)
  unchanged : ∀ fault, s.update f name v = .error fault →
    ∀ serial depth, Memory.use ⟨s, serial, depth⟩ f v (.assign name) = (.error fault, ⟨s, serial, depth⟩)
  replaced : ∀ t, s.update f name v = .ok t → ∃ g, s.Resolves name f g ∧ s.Replaces g name v t

/-- In a store that was built an update replaces the value of one slot or changes nothing. -/
theorem update_one_slot (built : s.Built) (f : FrameId) (name : String) (v : Value) : s.UpdatesOneSlot f name v := by
  have linked := linked_of_built built
  have outcome := outcome_update s f name v
  refine ⟨outcome.notFound_iff, outcome.wrongType_iff, outcome.succeeds_iff, ?_, ?_⟩
  · intro fault failed serial depth
    rw [use_assign, failed]
  · intro t updated
    rw [updated] at outcome
    cases outcome with
    | replaced owned binds found fits => exact ⟨_, (resolves_iff linked name _).mpr owned, replaces_set linked binds v⟩

end

/-- A root with a number and a text, a scope in it that has a number of that name, and a scope in that. -/
def shadowingStore : Store :=
  ((((Store.empty.root.1.set 0 "x" (.number 1)).set 0 "y" .null).enclose 0).1.set 1 "x" (.number 2)).enclose 1 |>.1

/-- From the innermost scope the number in the middle is replaced. -/
theorem update_one_slot_of_shadowing :
    shadowingStore.Built ∧ shadowingStore.UpdatesOneSlot 2 "x" (.number 5) := by
  have built : shadowingStore.Built :=
    .enclose (.set (.enclose (.set (.set (.root .empty) 0 "x" _) 0 "y" _) (by decide)) 1 "x" _) (by decide)
  exact ⟨built, update_one_slot built 2 "x" (.number 5)⟩

end Stepwise
