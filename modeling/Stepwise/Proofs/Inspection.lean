import Mathlib.Tactic.Linarith
import Stepwise.Proofs.Bindings

/-!
What can be inspected of a scope. Its own bindings and those that can be seen from it come in the order of
their names, and they are what the names mean (`get?_visible`). They may as well be gathered in a hash map,
frame by frame from the inside out, and sorted in the end: in whatever order maps list their entries, the
outcome is the same (`inspects`).
-/
namespace Stepwise

/-! ## Entries -/

section

variable {α : Type} {entries : List (String × α)} {name : String} {a : α}

theorem mem_of_findEntry (found : findEntry name entries = some a) : (name, a) ∈ entries := by
  induction entries with
  | nil => cases found
  | cons e rest ih =>
    obtain ⟨n, b⟩ := e
    rw [findEntry] at found
    by_cases same : name = n
    · rw [if_pos same] at found
      rw [same, Option.some.inj found]
      exact List.mem_cons_self
    · rw [if_neg same] at found
      exact List.mem_cons_of_mem _ (ih found)

theorem findEntry_ne_none (member : (name, a) ∈ entries) : findEntry name entries ≠ none := by
  induction entries with
  | nil => cases member
  | cons e rest ih =>
    obtain ⟨n, b⟩ := e
    rw [findEntry]
    split
    · exact Option.some_ne_none b
    · next other =>
      rcases List.mem_cons.mp member with here | deeper
      · cases here
        exact absurd rfl other
      · exact ih deeper

/-- No name comes twice among entries in the order of their names. -/
theorem eq_of_ordered (ordered : entries.Pairwise (·.1 < ·.1)) {b : α} (one : (name, a) ∈ entries)
    (other : (name, b) ∈ entries) : a = b := by
  induction entries with
  | nil => cases one
  | cons e rest ih =>
    obtain ⟨first, later⟩ := List.pairwise_cons.mp ordered
    rcases List.mem_cons.mp one with rfl | deeper
    · rcases List.mem_cons.mp other with same | deeper'
      · cases same
        rfl
      · exact absurd (first _ deeper') (String.lt_irrefl name)
    · rcases List.mem_cons.mp other with rfl | deeper'
      · exact absurd (first _ deeper) (String.lt_irrefl name)
      · exact ih later deeper deeper'

/-- However the entries of a table are listed, a name is found among them with its item. -/
theorem findEntry_listing (t : Table α) {listing : List (String × α)} (perm : listing.Perm t.entries) (name : String) :
    findEntry name listing = t.get? name := by
  rw [Table.get?]
  cases found : findEntry name t.entries with
  | none =>
    cases there : findEntry name listing with
    | none => rfl
    | some a => exact absurd found (findEntry_ne_none (perm.mem_iff.mp (mem_of_findEntry there)))
  | some a =>
    have member := mem_of_findEntry found
    obtain ⟨b, there⟩ := Option.ne_none_iff_exists'.mp (findEntry_ne_none (perm.mem_iff.mpr member))
    rw [there, eq_of_ordered t.sorted (perm.mem_iff.mp (mem_of_findEntry there)) member]

theorem mem_entries_iff (t : Table α) : (name, a) ∈ t.entries ↔ t.get? name = some a := by
  constructor
  · intro member
    obtain ⟨b, found⟩ := Option.ne_none_iff_exists'.mp (findEntry_ne_none member)
    rw [Table.get?, found, eq_of_ordered t.sorted (mem_of_findEntry found) member]
  · exact mem_of_findEntry

/-- Entries that are laid over a table hide those of their names. -/
theorem get?_overlay (inner outer : Table α) (name : String) :
    (inner.overlay outer).get? name = (inner.get? name).or (outer.get? name) := by
  obtain ⟨entries, ordered⟩ := inner
  have laid (outer : Table α) : (entries.foldl (fun t e => t.insert e.1 e.2) outer).get? name =
      (findEntry name entries).or (outer.get? name) := by
    induction entries generalizing outer with
    | nil => rfl
    | cons e rest ih =>
      obtain ⟨first, later⟩ := List.pairwise_cons.mp ordered
      rw [List.foldl_cons, ih later, Table.get?_insert, findEntry]
      by_cases same : name = e.1
      · rw [if_pos same, if_pos same]
        -- the name does not come again
        have once : findEntry name rest = none := by
          by_contra again
          obtain ⟨b, found⟩ := Option.ne_none_iff_exists'.mp again
          exact absurd (first _ (mem_of_findEntry found)) (same ▸ String.lt_irrefl name)
        rw [once]
        rfl
      · rw [if_neg same, if_neg same]
  exact laid outer

/-! ## Listing and sorting -/

/-- Entries in the order of their names. -/
def inOrder (entries : List (String × α)) : List (String × α) :=
  entries.mergeSort fun a b => decide (a.1 ≤ b.1)

theorem ordered_inOrder (listing : List (String × α)) : (inOrder listing).Pairwise (·.1 ≤ ·.1) := by
  have sorted : (inOrder listing).Pairwise fun a b => decide (a.1 ≤ b.1) = true := by
    refine List.pairwise_mergeSort (fun a b c one two => ?_) (fun a b => ?_) listing
    · exact decide_eq_true (String.le_trans (of_decide_eq_true one) (of_decide_eq_true two))
    · rw [Bool.or_eq_true]
      exact (String.le_total a.1 b.1).imp decide_eq_true decide_eq_true
  exact sorted.imp of_decide_eq_true

/-- However the entries of a table are listed, sorting them by name gives its entries. -/
theorem inOrder_eq (t : Table α) {listing : List (String × α)} (perm : listing.Perm t.entries) :
    inOrder listing = t.entries := by
  have sorted : (inOrder listing).Perm t.entries := (List.mergeSort_perm listing _).trans perm
  refine sorted.eq_of_pairwise ?_ (ordered_inOrder listing) (t.sorted.imp fun before => String.not_lt.mp (String.lt_asymm before))
  rintro ⟨n, a⟩ ⟨n', b⟩ one other le ge
  obtain rfl : n = n' := String.le_antisymm le ge
  rw [eq_of_ordered t.sorted (sorted.mem_iff.mp one) other]

end

/-! ## What can be seen -/

/-- What can be seen from a frame is what the names mean there. -/
theorem get?_visible (s : Store) (f : FrameId) (name : String) : (s.visible f).get? name = s.get? f name := by
  rw [Store.visible, Store.get?]
  induction s.chain f with
  | nil => rfl
  | cons g rest ih =>
    rw [List.foldr_cons, get?_overlay, ih, List.findSome?_cons]
    cases (s.bindings g).get? name <;> rfl

/-- Puts entries into a map one after the other, but none for a name that is there already. -/
def keepFirst (seen : Std.HashMap String Value) (entries : List (String × Value)) : Std.HashMap String Value :=
  entries.foldl (fun seen e => seen.insertIfNew e.1 e.2) seen

/-- The bindings that one comes past in some frames, if those of a frame come in the order in which they
    are listed. -/
def gather (listing : FrameId → List (String × Value)) (path : List FrameId) : Std.HashMap String Value :=
  path.foldl (fun seen f => keepFirst seen (listing f)) ∅

theorem getElem?_keepFirst (seen : Std.HashMap String Value) (entries : List (String × Value)) (name : String) :
    (keepFirst seen entries)[name]? = seen[name]?.or (findEntry name entries) := by
  rw [keepFirst]
  induction entries generalizing seen with
  | nil => exact (Option.or_none).symm
  | cons e rest ih =>
    obtain ⟨n, v⟩ := e
    rw [List.foldl_cons, ih, Std.HashMap.getElem?_insertIfNew, findEntry]
    by_cases same : name = n
    · subst same
      cases there : seen[name]? with
      | none =>
        have new : name ∉ seen := by simp [Std.HashMap.mem_iff_isSome_getElem?, there]
        simp [new]
      | some w =>
        have old : name ∈ seen := by simp [Std.HashMap.mem_iff_isSome_getElem?, there]
        simp [old]
    · simp [same, Ne.symm same]

theorem getElem?_gather {s : Store} {listing : FrameId → List (String × Value)}
    (listed : ∀ f, (listing f).Perm (s.bindings f).entries) (path : List FrameId) (name : String) :
    (gather listing path)[name]? = path.findSome? fun f => (s.bindings f).get? name := by
  have along (seen : Std.HashMap String Value) :
      (path.foldl (fun seen f => keepFirst seen (listing f)) seen)[name]? =
        seen[name]?.or (path.findSome? fun f => (s.bindings f).get? name) := by
    induction path generalizing seen with
    | nil => exact (Option.or_none).symm
    | cons f rest ih =>
      rw [List.foldl_cons, ih, getElem?_keepFirst, findEntry_listing _ (listed f), Option.or_assoc, List.findSome?_cons]
      cases (s.bindings f).get? name <;> rfl
  rw [gather, along]
  simp

/-- A map and a table with the same items have the same entries, in whatever order. -/
theorem perm_toList {map : Std.HashMap String Value} {t : Table Value}
    (same : ∀ name, map[name]? = t.get? name) : map.toList.Perm t.entries := by
  have distinct : map.toList.Nodup := by
    refine Std.HashMap.distinct_keys_toList.imp fun {a b} apart => ?_
    rintro rfl
    simp at apart
  have distinct' : t.entries.Nodup := by
    refine t.sorted.imp fun {a b} before => ?_
    rintro rfl
    exact String.lt_irrefl _ before
  refine (List.perm_ext_iff_of_nodup distinct distinct').mpr ?_
  rintro ⟨name, v⟩
  rw [Std.HashMap.mem_toList_iff_getElem?_eq_some, mem_entries_iff, same]

/-- What is shown of a scope. Its own bindings, and those that can be seen from it, come strictly in the order
    of their names and are what the names are bound to and mean. To sort the bindings by name gives the same,
    however they are listed; and so it does to gather what one comes past from the inside out, the first of
    each name, and to sort that, in whatever order the bindings of each frame and those gathered are listed. -/
structure Store.Inspects (s : Store) (f : FrameId) : Prop where
  bindings_ordered : (s.bindings f).entries.Pairwise (·.1 < ·.1)
  bindings_mem : ∀ name v, (name, v) ∈ (s.bindings f).entries ↔ s.Binds f name v
  bindings_sorted : ∀ listing, listing.Perm (s.bindings f).entries → inOrder listing = (s.bindings f).entries
  visible_ordered : (s.visible f).entries.Pairwise (·.1 < ·.1)
  visible_mem : ∀ name v, (name, v) ∈ (s.visible f).entries ↔ s.get? f name = some v
  visible_sorted : ∀ listing : FrameId → List (String × Value), (∀ g, (listing g).Perm (s.bindings g).entries) →
    ∀ gathered, gathered.Perm (gather listing (s.chain f)).toList → inOrder gathered = (s.visible f).entries

/-- In every store the bindings of a frame are shown as what the names mean there. -/
theorem inspects (s : Store) (f : FrameId) : s.Inspects f := by
  refine ⟨(s.bindings f).sorted, fun name v => mem_entries_iff _, fun listing perm => inOrder_eq _ perm,
    (s.visible f).sorted, ?_, ?_⟩
  · intro name v
    rw [mem_entries_iff, get?_visible]
  · intro listing listed gathered perm
    refine inOrder_eq _ (perm.trans (perm_toList fun name => ?_))
    rw [getElem?_gather listed, get?_visible, Store.get?]

end Stepwise
