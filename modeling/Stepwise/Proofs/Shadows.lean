import Stepwise.Proofs.Containment

/-!
Bindings that are out of sight. A frame hides what a frame around it binds a name to as soon as it,
or a frame between the two, binds the name itself (`Store.Hides`). What is hidden from a scope can be
replaced without a difference to anything that is looked up from there (`get?_recast`, `slot_recast`),
and whatever is then bound, defined or opened from there leaves it as it is (`keepsHidden_set`,
`keepsHidden_enclose`).
-/
namespace Stepwise

/-! ## Entries under different names -/

theorem insertEntry_comm {α : Type} {a b : String} (different : a ≠ b) (x y : α) (entries : List (String × α)) :
    insertEntry a x (insertEntry b y entries) = insertEntry b y (insertEntry a x entries) := by
  have ordered : a < b ∧ ¬ b < a ∨ b < a ∧ ¬ a < b := by
    rcases Decidable.em (a < b) with before | notBefore
    · exact .inl ⟨before, String.lt_asymm before⟩
    · have notAfter : ¬ ¬ b < a := fun after =>
        different (String.le_antisymm (String.not_lt.mp after) (String.not_lt.mp notBefore))
      exact .inr ⟨Decidable.not_not.mp notAfter, notBefore⟩
  induction entries with
  | nil =>
    simp only [insertEntry]
    grind
  | cons e rest ih =>
    obtain ⟨n, z⟩ := e
    have through_b : a < b → b < n → a < n := String.lt_trans
    have through_a : b < a → a < n → b < n := String.lt_trans
    simp only [insertEntry]
    grind [insertEntry]

theorem insert_comm {α : Type} {a b : String} (different : a ≠ b) (x y : α) (t : Table α) :
    (t.insert b y).insert a x = (t.insert a x).insert b y := by
  simp only [Table.insert, insertEntry_comm different]

/-! ## Changing frames -/

section

variable (s : Store) (f g : FrameId) (name : String) (v : Value)

/-- A change to a frame that leaves it where it is. -/
theorem outers_modify (change : Frame → Frame) (kept : ∀ frame, (change frame).outers = frame.outers) :
    Store.outers ⟨s.frames.modify f change⟩ g = s.outers g := by
  simp only [Store.outers, Array.getElem?_modify]
  by_cases same : f = g
  · rw [if_pos same]
    cases s.frames[g]? with
    | none => rfl
    | some frame => exact kept frame
  · rw [if_neg same]

@[simp] theorem outers_set : (s.set f name v).outers g = s.outers g :=
  outers_modify s f g _ fun _ => rfl

@[simp] theorem outers_define (function : Function) : (s.define f function).outers g = s.outers g :=
  outers_modify s f g _ fun _ => rfl

@[simp] theorem chain_set : (s.set f name v).chain g = s.chain g := by
  rw [Store.chain, outers_set, Store.chain]

@[simp] theorem chain_define (function : Function) : (s.define f function).chain g = s.chain g := by
  rw [Store.chain, outers_define, Store.chain]

@[simp] theorem function?_set (wanted : String) : (s.set f name v).function? g wanted = s.function? g wanted := by
  simp only [Store.function?, chain_set, functions_set]

/-- Two changes to frames can change places, if they do where they meet. -/
theorem modify_comm {α : Type} (frames : Array α) {one other : α → α}
    (meet : f = g → ∀ a, one (other a) = other (one a)) :
    (frames.modify g other).modify f one = (frames.modify f one).modify g other := by
  apply Array.ext_getElem?
  intro i
  simp only [Array.getElem?_modify]
  by_cases first : f = i
  · by_cases second : g = i
    · subst first second
      cases frames[g]? with
      | none => simp
      | some a => simp [meet rfl a]
    · simp [first, second]
  · by_cases second : g = i
    · simp [first, second]
    · simp [first, second]

variable {f g name} in
/-- Bindings of different names, or in different frames, can change places. -/
theorem set_comm {other : String} (different : ¬ (g = f ∧ other = name)) (w : Value) :
    (s.set f name v).set g other w = (s.set g other w).set f name v := by
  let bind (n : String) (v : Value) (frame : Frame) : Frame := { frame with bindings := frame.bindings.insert n v }
  have meet (same : g = f) (frame : Frame) : bind other w (bind name v frame) = bind name v (bind other w frame) := by
    have named : other ≠ name := fun both => different ⟨same, both⟩
    simp only [bind, insert_comm named]
  exact congrArg Store.mk (modify_comm g f s.frames meet)

theorem define_set (function : Function) : (s.set f name v).define g function = (s.define g function).set f name v := by
  let bind (frame : Frame) : Frame := { frame with bindings := frame.bindings.insert name v }
  let define (frame : Frame) : Frame := { frame with functions := frame.functions.insert function.name function }
  have meet (_ : g = f) (frame : Frame) : define (bind frame) = bind (define frame) := rfl
  exact congrArg Store.mk (modify_comm g f s.frames meet)

variable {s f} in
theorem push_set (inside : f < s.frames.size) (outers : List FrameId) :
    (s.set f name v).push outers = (s.push outers).set f name v := by
  refine congrArg Store.mk (Array.ext_getElem? fun i => ?_)
  simp only [Store.set, Store.push, Array.getElem?_push, Array.getElem?_modify, Array.size_modify]
  by_cases last : i = s.frames.size
  · subst last
    simp [Nat.ne_of_lt inside]
  · simp [last]

end

/-! ## Hidden bindings -/

theorem findSome?_congr {α β : Type} {p q : α → Option β} {l : List α} (same : ∀ a ∈ l, p a = q a) :
    l.findSome? p = l.findSome? q := by
  induction l with
  | nil => rfl
  | cons a rest ih =>
    rw [List.findSome?_cons, List.findSome?_cons, same a List.mem_cons_self,
      ih fun b member => same b (List.mem_cons_of_mem _ member)]

/-- A binding of a name in a frame, and two values that it may have. -/
structure Shadow where
  frame : FrameId
  name : String
  first : Value
  second : Value

/-- What a frame binds a name to cannot be seen from a scope inside it: the scope, or a frame between
    the two, binds the name as well. -/
def Store.Hides (s : Store) (f : FrameId) (name : String) (scope : FrameId) : Prop :=
  ∃ inner outer, s.chain scope = inner ++ f :: outer ∧ f ∉ inner ∧ ∃ g ∈ inner, (s.bindings g).contains name = true

/-- The store in which the binding has its second value. -/
def Store.recast (s : Store) (h : Shadow) : Store :=
  s.set h.frame h.name h.second

/-- The frame of the binding binds the name to its first value. -/
def Store.Holds (s : Store) (h : Shadow) : Prop :=
  s.Binds h.frame h.name h.first

section

variable {s : Store} {h : Shadow} {scope : FrameId}

theorem hides_ne {f : FrameId} {name : String} (hides : s.Hides f name scope) : scope ≠ f := by
  obtain ⟨inner, outer, split, apart, g, member, -⟩ := hides
  rintro rfl
  cases inner with
  | nil => cases member
  | cons first inner =>
    obtain ⟨rfl, -⟩ := List.cons.inj split
    exact apart List.mem_cons_self

theorem contains_recast (holds : s.Holds h) (g : FrameId) (wanted : String) :
    ((s.recast h).bindings g).contains wanted = (s.bindings g).contains wanted := by
  rcases bindings_set s h.frame g h.name h.second with same | more
  · rw [Store.recast, same]
  · by_cases here : h.frame = g
    · subst here
      rw [Store.recast, more, Table.contains, Table.get?_insert]
      by_cases named : wanted = h.name
      · subst named
        rw [if_pos rfl, Table.contains, show (s.bindings h.frame).get? h.name = some h.first from holds]
        rfl
      · rw [if_neg named, Table.contains]
    · rw [Store.recast, bindings_set_ne here]

/-- Another value of the binding does not change which frame binds a name. -/
theorem owner?_recast (holds : s.Holds h) (wanted : String) :
    (s.recast h).owner? scope wanted = s.owner? scope wanted := by
  simp only [Store.owner?, contains_recast holds]
  rw [Store.recast, chain_set]

/-- A hidden binding can be replaced without a difference to what names mean. -/
theorem get?_recast (hides : s.Hides h.frame h.name scope) (wanted : String) :
    (s.recast h).get? scope wanted = s.get? scope wanted := by
  by_cases named : wanted = h.name
  · subst named
    -- the frames in front of the binding say what the name means
    obtain ⟨inner, outer, split, apart, g, member, bound⟩ := hides
    have same : inner.findSome? (fun g => ((s.recast h).bindings g).get? h.name) =
        inner.findSome? (fun g => (s.bindings g).get? h.name) := by
      refine findSome?_congr fun g member => ?_
      have other : h.frame ≠ g := fun here => apart (here ▸ member)
      rw [Store.recast, bindings_set_ne other]
    have found : (inner.findSome? fun g => (s.bindings g).get? h.name).isSome := by
      rw [List.findSome?_isSome_iff]
      exact ⟨g, member, bound⟩
    obtain ⟨v, found⟩ := Option.isSome_iff_exists.mp found
    simp only [Store.get?]
    rw [Store.recast, chain_set, ← Store.recast, split, List.findSome?_append, List.findSome?_append, same, found]
    rfl
  · simp only [Store.get?]
    rw [Store.recast, chain_set]
    refine findSome?_congr fun g _ => ?_
    rcases bindings_set s h.frame g h.name h.second with same | more
    · rw [same]
    · rw [more, Table.get?_insert, if_neg named]

theorem slot_recast (holds : s.Holds h) (hides : s.Hides h.frame h.name scope) (wanted : String) (v : Value) :
    (s.recast h).slot scope wanted v = s.slot scope wanted v := by
  simp only [Store.slot, owner?_recast holds, get?_recast hides]

/-- A hidden binding does not take a value. -/
theorem slot_ne (hides : s.Hides h.frame h.name scope) {wanted : String} {v : Value} {owner : FrameId}
    (found : s.slot scope wanted v = .ok owner) : ¬ (owner = h.frame ∧ wanted = h.name) := by
  rintro ⟨rfl, rfl⟩
  obtain ⟨inner, outer, split, apart, g, member, bound⟩ := hides
  have owned : s.owner? scope h.name = some h.frame := by
    unfold Store.slot at found
    split at found
    · next owner' old owned got =>
      split at found
      · cases found
        exact owned
      · cases found
    · cases found
  -- the frame that binds the name is found in front of the hidden binding
  rw [Store.owner?, split, List.find?_append] at owned
  have isSome : (inner.find? fun g => (s.bindings g).contains h.name).isSome :=
    List.find?_isSome.mpr ⟨g, member, bound⟩
  obtain ⟨first, found'⟩ := Option.isSome_iff_exists.mp isSome
  rw [found'] at owned
  cases owned
  exact apart (List.mem_of_find?_eq_some found')

/-! ## What keeps a binding hidden -/

/-- In the new store the binding has its first value still, and is hidden wherever it was. -/
structure Store.KeepsHidden (h : Shadow) (s t : Store) : Prop where
  holds : s.Holds h → t.Holds h
  hides : ∀ scope, s.Hides h.frame h.name scope → t.Hides h.frame h.name scope

theorem keepsHidden_refl (h : Shadow) (s : Store) : s.KeepsHidden h s :=
  ⟨id, fun _ => id⟩

theorem Store.KeepsHidden.trans {t u : Store} (one : s.KeepsHidden h t) (two : t.KeepsHidden h u) :
    s.KeepsHidden h u :=
  ⟨fun holds => two.holds (one.holds holds), fun scope hides => two.hides scope (one.hides scope hides)⟩

theorem hides_of_more {t : Store} {f : FrameId} {name : String} (hides : s.Hides f name scope)
    (chain : t.chain scope = s.chain scope)
    (more : ∀ g, (s.bindings g).contains name = true → (t.bindings g).contains name = true) :
    t.Hides f name scope := by
  obtain ⟨inner, outer, split, apart, g, member, bound⟩ := hides
  exact ⟨inner, outer, chain.trans split, apart, g, member, more g bound⟩

/-- Binding a name keeps a binding hidden, unless it is the hidden one. -/
theorem keepsHidden_set {g : FrameId} {name : String} (different : ¬ (g = h.frame ∧ name = h.name)) (v : Value) :
    s.KeepsHidden h (s.set g name v) := by
  refine ⟨fun holds => Store.Binds.set holds different v, fun scope hides => ?_⟩
  refine hides_of_more hides (chain_set s g scope name v) fun g' bound => ?_
  rcases bindings_set s g g' name v with same | more
  · rwa [same]
  · rw [more, Table.contains, Table.get?_insert]
    split
    · rfl
    · exact bound

theorem keepsHidden_define (g : FrameId) (function : Function) : s.KeepsHidden h (s.define g function) := by
  refine ⟨fun holds => ?_, fun scope hides => ?_⟩
  · rw [Store.Holds, Store.Binds, bindings_define]
    exact holds
  · refine hides_of_more hides (chain_define s g scope function) fun g' bound => ?_
    rwa [bindings_define]

theorem keepsHidden_push (outers : List FrameId) : s.KeepsHidden h (s.push outers) := by
  refine ⟨fun holds => ?_, fun scope hides => ?_⟩
  · rw [Store.Holds, Store.Binds, bindings_push]
    exact holds
  · refine hides_of_more hides ?_ fun g bound => by rwa [bindings_push]
    -- A scope with a frame around it is a frame of the old store.
    obtain ⟨inner, outer, split, apart, g, member, -⟩ := hides
    cases found : s.frames[scope]? with
    | some frame => simp only [Store.chain, Store.outers, found, keeps_push s outers scope frame found]
    | none =>
      simp only [Store.chain, Store.outers, found] at split
      cases inner with
      | nil => cases member
      | cons first inner => simp at split

/-- Whatever is hidden from a scope is hidden from a new scope inside it. -/
theorem hides_enclose (holds : s.Holds h) (hides : s.Hides h.frame h.name scope) :
    (s.enclose scope).1.Hides h.frame h.name (s.enclose scope).2 := by
  obtain ⟨inner, outer, split, apart, g, member, bound⟩ := hides
  refine ⟨s.next :: inner, outer, ?_, ?_, g, List.mem_cons_of_mem _ member, ?_⟩
  · simp only [Store.chain, Store.outers, Store.enclose, Store.push, Store.next, Array.getElem?_push_size]
    rw [List.cons_append, ← split]
    rfl
  · have inside : h.frame < s.next := inside_of_binds holds
    exact List.not_mem_cons_of_ne_of_not_mem (Nat.ne_of_lt inside) apart
  · rw [show (s.enclose scope).1 = s.push (s.chain scope) from rfl, bindings_push]
    exact bound

theorem keepsHidden_setEach {g : FrameId} (elsewhere : g ≠ h.frame) (bindings : List (String × Value)) :
    s.KeepsHidden h (s.setEach g bindings) := by
  induction bindings generalizing s with
  | nil => exact keepsHidden_refl h s
  | cons b rest ih => exact (keepsHidden_set (fun both => elsewhere both.1) b.2).trans ih

theorem store_setEach_recast {g : FrameId} (elsewhere : g ≠ h.frame) (bindings : List (String × Value)) :
    (s.recast h).setEach g bindings = (s.setEach g bindings).recast h := by
  induction bindings generalizing s with
  | nil => rfl
  | cons b rest ih =>
    rw [Store.setEach, Store.recast, set_comm s h.second fun both => elsewhere both.1, ← Store.recast, ih,
      Store.setEach]

theorem store_enclose_recast (holds : s.Holds h) (scope : FrameId) :
    (s.recast h).enclose scope = ((s.enclose scope).1.recast h, (s.enclose scope).2) := by
  have size : (s.recast h).next = s.next := size_set _ _ _ _
  simp only [Store.enclose, size]
  rw [Store.recast, chain_set, push_set _ _ (inside_of_binds holds)]
  rfl

end

end Stepwise
