import Stepwise.Proofs.Inspection
import Stepwise.Proofs.Slots

/-!
Going outward. In linked frames the way from a frame to the one around it, and on to the one around that,
leads through the chain of the frame, past no frame twice, and ends at a root (`passes_chain`,
`descends_chain`). So every loop that goes this way comes to an end, whatever it does at the frames
(`gives_iff`), and the loops that look a name up, replace its value, count frames or gather bindings end
with what the store says (`loopsEnd`).
-/
namespace Stepwise

/-! ## The way outward -/

/-- The frames that one comes past on the way outward from a frame to a root. -/
inductive Store.Passes (s : Store) : FrameId → List FrameId → Prop where
  | root {f : FrameId} (outermost : s.outer? f = none) : Passes s f [f]
  | outward {f g : FrameId} {path : List FrameId} (outer : s.outer? f = some g) (passes : Passes s g path) :
      Passes s f (f :: path)

section

variable {s : Store} {f : FrameId}

theorem passes_chain (linked : s.Linked) (f : FrameId) : s.Passes f (s.chain f) := by
  induction f using Nat.strongRecOn with
  | ind f ih =>
    rw [Store.chain]
    cases outer : s.outer? f with
    | none =>
      rw [List.head?_eq_none_iff.mp outer]
      exact .root outer
    | some g =>
      rw [linked.through f g outer]
      exact .outward outer (ih g (linked.earlier f g outer))

/-- Every frame on the way is older than those before it. -/
theorem Store.Passes.descends {path : List FrameId} (linked : s.Linked) (passes : s.Passes f path) :
    (∀ g ∈ path, g ≤ f) ∧ path.Pairwise (· > ·) := by
  induction passes with
  | root outermost => simp
  | @outward f g path outer passes ih =>
    obtain ⟨below, descending⟩ := ih
    have older : ∀ h ∈ path, h < f := fun h member => Nat.lt_of_le_of_lt (below h member) (linked.earlier f g outer)
    refine ⟨?_, List.pairwise_cons.mpr ⟨older, descending⟩⟩
    exact List.forall_mem_cons.mpr ⟨Nat.le_refl f, fun h member => Nat.le_of_lt (older h member)⟩

/-- No frame is on the way twice. -/
theorem descends_chain (linked : s.Linked) (f : FrameId) : (s.chain f).Nodup := by
  refine ((passes_chain linked f).descends linked).2.imp fun {g h} older => ?_
  exact Nat.ne_of_gt older

theorem inside_chain (linked : s.Linked) (inside : f < s.frames.size) : ∀ g ∈ s.chain f, g < s.frames.size :=
  fun g member => Nat.lt_of_le_of_lt (((passes_chain linked f).descends linked).1 g member) inside

end

/-! ## Loops -/

/-- A loop that goes outward: what it does at a frame with what it has so far, which is to give an answer or
    to have something else and go on, and the answer it gives when there is no frame around. -/
structure Outward (α β : Type) where
  visit : FrameId → α → β ⊕ α
  last : α → β

section

variable {s : Store} {f : FrameId} {α β : Type} {loop : Outward α β} {a : α} {b b' : β}

/-- From where it is a loop comes to its end and gives an answer. -/
inductive Outward.Gives (loop : Outward α β) (s : Store) : Option FrameId → α → β → Prop where
  | last (a : α) : Gives loop s none a (loop.last a)
  | answered {f : FrameId} {a : α} {b : β} (found : loop.visit f a = .inl b) : Gives loop s (some f) a b
  | onward {f : FrameId} {a a' : α} {b : β} (more : loop.visit f a = .inr a') (gives : Gives loop s (s.outer? f) a' b) :
      Gives loop s (some f) a b

/-- What a loop gives that comes past some frames. -/
def Outward.along (loop : Outward α β) : List FrameId → α → β
  | [], a => loop.last a
  | f :: path, a =>
    match loop.visit f a with
    | .inl b => b
    | .inr a => loop.along path a

theorem along_of_answered (found : loop.visit f a = .inl b) (path : List FrameId) : loop.along (f :: path) a = b := by
  rw [Outward.along, found]

theorem along_of_onward {a' : α} (more : loop.visit f a = .inr a') (path : List FrameId) :
    loop.along (f :: path) a = loop.along path a' := by
  rw [Outward.along, more]

theorem Outward.Gives.unique {current : Option FrameId} (one : loop.Gives s current a b)
    (other : loop.Gives s current a b') : b = b' := by
  induction one with
  | last a =>
    cases other with
    | last => rfl
  | answered found =>
    cases other with
    | answered found' => exact Sum.inl.inj (found.symm.trans found')
    | onward more => exact nomatch found.symm.trans more
  | onward more gives ih =>
    cases other with
    | answered found => exact nomatch found.symm.trans more
    | onward more' gives' =>
      obtain rfl := Sum.inr.inj (more.symm.trans more')
      exact ih gives'

/-- A loop that ends from the frame around, whatever it has, ends from a frame. -/
theorem gives_of_outer {path : List FrameId} (further : ∀ a, loop.Gives s (s.outer? f) a (loop.along path a)) (a : α) :
    loop.Gives s (some f) a (loop.along (f :: path) a) := by
  cases visited : loop.visit f a with
  | inl b =>
    rw [along_of_answered visited]
    exact .answered visited
  | inr a' =>
    rw [along_of_onward visited]
    exact .onward visited (further a')

/-- A loop ends at a root, if not before. -/
theorem Store.Passes.gives {path : List FrameId} (passes : s.Passes f path) (loop : Outward α β) (a : α) :
    loop.Gives s (some f) a (loop.along path a) := by
  induction passes generalizing a with
  | @root f outermost =>
    refine gives_of_outer (fun a' => ?_) a
    rw [outermost]
    exact .last a'
  | @outward f g path outer passes ih =>
    refine gives_of_outer (fun a' => ?_) a
    rw [outer]
    exact ih a'

/-- Every loop that goes outward comes to an end, and to one only. -/
theorem gives_iff (linked : s.Linked) : loop.Gives s (some f) a b ↔ b = loop.along (s.chain f) a := by
  have ends := (passes_chain linked f).gives loop a
  constructor
  · exact fun gives => gives.unique ends
  · rintro rfl
    exact ends

end

/-! ## The loops of a store -/

/-- Looks for a name in the tables of the frames. -/
def Outward.seeking {α : Type} (table : FrameId → Table α) (name : String) : Outward Unit (Option α) where
  visit f _ :=
    match (table f).get? name with
    | some a => .inl (some a)
    | none => .inr ()
  last _ := none

/-- Looks for a frame that binds a name, and replaces its value there, unless the tag would change. -/
def Outward.replacing (s : Store) (name : String) (v : Value) : Outward Unit (Except Fault Store) where
  visit f _ :=
    match (s.bindings f).get? name with
    | some old =>
      if old.tag = .null ∨ old.tag = v.tag then .inl (.ok (s.set f name v))
      else .inl (.error (.wrongType v.tag old.tag))
    | none => .inr ()
  last _ := .error (.notFound name)

/-- Counts frames. -/
def Outward.counting : Outward Nat Nat where
  visit _ n := .inr (n + 1)
  last n := n

/-- Gathers the bindings of the frames, the first of each name. -/
def Outward.gathering (s : Store) : Outward (Std.HashMap String Value) (Std.HashMap String Value) where
  visit f seen := .inr (keepFirst seen (s.bindings f).entries)
  last seen := seen

section

variable {s : Store}

theorem along_seeking {α : Type} (table : FrameId → Table α) (name : String) (path : List FrameId) :
    (Outward.seeking table name).along path () = path.findSome? fun f => (table f).get? name := by
  induction path with
  | nil => rfl
  | cons f path ih =>
    rw [List.findSome?_cons]
    cases found : (table f).get? name with
    | some a => exact along_of_answered (by simp only [Outward.seeking, found]) path
    | none => exact (along_of_onward (by simp only [Outward.seeking, found]) path).trans ih

theorem along_replacing (name : String) (v : Value) (f : FrameId) :
    (Outward.replacing s name v).along (s.chain f) () = s.update f name v := by
  rw [Store.update, Store.slot, Store.owner?, Store.get?]
  induction s.chain f with
  | nil => rfl
  | cons g path ih =>
    rw [List.find?_cons, List.findSome?_cons, Table.contains]
    cases found : (s.bindings g).get? name with
    | some old =>
      by_cases fits : old.tag = .null ∨ old.tag = v.tag
      · simp only [if_pos fits, Option.isSome_some]
        exact along_of_answered (by simp only [Outward.replacing, found, if_pos fits, Except.map]) path
      · simp only [if_neg fits, Option.isSome_some]
        exact along_of_answered (by simp only [Outward.replacing, found, if_neg fits, Except.map]) path
    | none => exact (along_of_onward (by simp only [Outward.replacing, found]) path).trans ih

theorem along_counting (path : List FrameId) (n : Nat) : Outward.counting.along path n = n + path.length := by
  induction path generalizing n with
  | nil => rfl
  | cons f path ih =>
    rw [Outward.along, List.length_cons, ← Nat.add_assoc, Nat.add_right_comm]
    exact ih (n + 1)

theorem along_gathering (path : List FrameId) (seen : Std.HashMap String Value) :
    (Outward.gathering s).along path seen = path.foldl (fun seen f => keepFirst seen (s.bindings f).entries) seen := by
  induction path generalizing seen with
  | nil => rfl
  | cons f path ih => exact ih (keepFirst seen (s.bindings f).entries)

/-- The loops that start at a frame. Each comes to one end. A name is looked up, and its value replaced, by
    going outward until a frame has it; the depth is how many frames there are outward; and what can be seen
    is what one comes past, in the order of the names. -/
structure Store.LoopsEnd (s : Store) (f : FrameId) : Prop where
  ends : ∀ {α β : Type} (loop : Outward α β) (a : α), ∃ b, ∀ b', loop.Gives s (some f) a b' ↔ b' = b
  get : ∀ name, (Outward.seeking s.bindings name).Gives s (some f) () (s.get? f name)
  function : ∀ name, (Outward.seeking s.functions name).Gives s (some f) () (s.function? f name)
  update : ∀ name v, (Outward.replacing s name v).Gives s (some f) () (s.update f name v)
  depth : Outward.counting.Gives s (s.outer? f) 0 (s.depth f)
  visible : ∃ seen, (Outward.gathering s).Gives s (some f) ∅ seen ∧ inOrder seen.toList = (s.visible f).entries

theorem depth_gives (linked : s.Linked) (f : FrameId) : Outward.counting.Gives s (s.outer? f) 0 (s.depth f) := by
  rw [Store.depth]
  cases outer : s.outer? f with
  | none =>
    rw [List.head?_eq_none_iff.mp outer]
    exact .last 0
  | some g =>
    rw [linked.through f g outer, gives_iff linked, along_counting, Nat.zero_add]

theorem loopsEnd (linked : s.Linked) (f : FrameId) : s.LoopsEnd f := by
  refine ⟨?_, ?_, ?_, ?_, depth_gives linked f, ?_⟩
  · exact fun loop a => ⟨loop.along (s.chain f) a, fun b' => gives_iff linked⟩
  · intro name
    rw [gives_iff linked, along_seeking, Store.get?]
  · intro name
    rw [gives_iff linked, along_seeking, Store.function?]
  · intro name v
    rw [gives_iff linked, along_replacing]
  · refine ⟨_, (gives_iff linked).mpr rfl, ?_⟩
    rw [along_gathering]
    exact (inspects s f).visible_sorted (fun g => (s.bindings g).entries) (fun _ => List.Perm.refl _) _ (List.Perm.refl _)

end

end Stepwise
