/-!
Tables from names to things, kept in the order of the names. Reading a table
after an insertion gives the inserted thing under its name and what was there
before under every other (`get?_insert`).
-/
namespace Stepwise

/-- Puts an entry where its name belongs, in place of an entry of that name. -/
def insertEntry {α : Type} (name : String) (item : α) : List (String × α) → List (String × α)
  | [] => [(name, item)]
  | (n, a) :: rest =>
    if name < n then (name, item) :: (n, a) :: rest
    else if name = n then (name, item) :: rest
    else (n, a) :: insertEntry name item rest

/-- The item under a name. -/
def findEntry {α : Type} (name : String) : List (String × α) → Option α
  | [] => none
  | (n, a) :: rest => if name = n then some a else findEntry name rest

section

variable {α : Type}

theorem fst_mem_insertEntry {name : String} {item : α} {entries : List (String × α)} {e : String × α}
    (member : e ∈ insertEntry name item entries) : e.1 = name ∨ e ∈ entries := by
  induction entries with
  | nil => simp_all [insertEntry]
  | cons head rest ih =>
    obtain ⟨n, a⟩ := head
    unfold insertEntry at member
    split at member
    · rcases List.mem_cons.mp member with rfl | old
      · exact .inl rfl
      · exact .inr old
    · split at member
      · rcases List.mem_cons.mp member with rfl | old
        · exact .inl rfl
        · exact .inr (List.mem_cons_of_mem _ old)
      · rcases List.mem_cons.mp member with rfl | deeper
        · exact .inr List.mem_cons_self
        · exact (ih deeper).imp_right (List.mem_cons_of_mem _)

theorem sorted_insertEntry (name : String) (item : α) {entries : List (String × α)}
    (sorted : entries.Pairwise (·.1 < ·.1)) : (insertEntry name item entries).Pairwise (·.1 < ·.1) := by
  induction entries with
  | nil => simp [insertEntry]
  | cons head rest ih =>
    obtain ⟨n, a⟩ := head
    obtain ⟨first, later⟩ := List.pairwise_cons.mp sorted
    unfold insertEntry
    split
    · next before =>
      refine List.pairwise_cons.mpr ⟨?_, sorted⟩
      intro e member
      rcases List.mem_cons.mp member with rfl | deeper
      · exact before
      · exact String.lt_trans before (first e deeper)
    · next notBefore =>
      split
      · next same => exact List.pairwise_cons.mpr ⟨by simpa [same] using first, later⟩
      · next differ =>
        refine List.pairwise_cons.mpr ⟨?_, ih later⟩
        intro e member
        rcases fst_mem_insertEntry member with own | old
        · have after : n ≤ name := String.not_lt.mp notBefore
          show n < e.1
          rw [own]
          exact Decidable.not_not.mp fun notAfter =>
            differ (String.le_antisymm (String.not_lt.mp notAfter) after)
        · exact first e old

theorem findEntry_insertEntry (name wanted : String) (item : α) (entries : List (String × α)) :
    findEntry wanted (insertEntry name item entries) =
      if wanted = name then some item else findEntry wanted entries := by
  induction entries with
  | nil => simp [insertEntry, findEntry]
  | cons head rest ih =>
    obtain ⟨n, a⟩ := head
    unfold insertEntry
    split
    · rfl
    · split
      · next same =>
        subst same
        simp only [findEntry]
        split <;> rfl
      · next differ =>
        simp only [findEntry, ih]
        grind

end

/-- A table from names to items, in the order of the names. -/
structure Table (α : Type) where
  entries : List (String × α)
  sorted : entries.Pairwise (·.1 < ·.1)
deriving Repr

namespace Table

variable {α : Type}

/-- The table without entries. -/
def empty : Table α := ⟨[], .nil⟩

instance : Inhabited (Table α) := ⟨empty⟩

/-- The item under a name. -/
def get? (t : Table α) (name : String) : Option α :=
  findEntry name t.entries

/-- Whether there is an item under a name. -/
def contains (t : Table α) (name : String) : Bool :=
  (t.get? name).isSome

/-- The table with an item under a name, in place of any earlier one. -/
def insert (t : Table α) (name : String) (item : α) : Table α :=
  ⟨insertEntry name item t.entries, sorted_insertEntry name item t.sorted⟩

/-- The names of a table, in order. -/
def names (t : Table α) : List String :=
  t.entries.map Prod.fst

/-- The entries of `inner`, and those of `outer` under other names. -/
def overlay (inner outer : Table α) : Table α :=
  inner.entries.foldl (fun t e => t.insert e.1 e.2) outer

@[simp] theorem get?_empty (name : String) : (empty : Table α).get? name = none := rfl

@[simp] theorem get?_insert (t : Table α) (name wanted : String) (item : α) :
    (t.insert name item).get? wanted = if wanted = name then some item else t.get? wanted :=
  findEntry_insertEntry name wanted item t.entries

end Table

end Stepwise
