/-!
# Tables

A table keeps entries under handles, which it gives out in order. An entry can be replaced, and all
who hold its handle then find the new one. No entry is ever removed. A handle that has not been
given out yet finds the default entry, so looking up never fails.

* `Table.get`, `Table.set` and `Table.add` look up, replace and enter;
* `Table.get_set`: replacing an entry changes what its own handle finds and nothing else;
* `Table.get_add`: so does entering one, and its handle is the next in order.
-/

namespace SubseqMachines

/-- A name for an entry of a table of `α`. -/
structure Handle (α : Type) where
  index : Nat
  deriving Repr

variable {α : Type}

instance : DecidableEq (Handle α) := fun h k =>
  decidable_of_iff (h.index = k.index) ⟨fun e => by cases h; cases k; simp_all, fun e => e ▸ rfl⟩

/-- Entries under handles. -/
structure Table (α : Type) where
  /-- The number of handles given out. -/
  size : Nat := 0
  /-- The entries with their indices. -/
  entries : List (Nat × α) := []
  deriving DecidableEq, Repr

namespace Table

/-- The value of a key in an association list. -/
def find? (i : Nat) : List (Nat × α) → Option α
  | [] => none
  | (j, a) :: entries => if i = j then some a else find? i entries

/-- An association list with the value of a key replaced, or added at the end. -/
def replace (i : Nat) (a : α) : List (Nat × α) → List (Nat × α)
  | [] => [(i, a)]
  | (j, b) :: entries => if i = j then (i, a) :: entries else (j, b) :: replace i a entries

/-- The entry under a handle. -/
def get [Inhabited α] (t : Table α) (h : Handle α) : α :=
  (find? h.index t.entries).getD default

/-- The table with another entry under a handle. -/
def set (t : Table α) (h : Handle α) (a : α) : Table α :=
  { t with entries := replace h.index a t.entries }

/-- The handle that is given out next. -/
def next (t : Table α) : Handle α :=
  ⟨t.size⟩

/-- The table with an entry more, under the next handle. -/
def add (t : Table α) (a : α) : Table α :=
  { size := t.size + 1, entries := (t.size, a) :: t.entries }

/-! ## Laws -/

theorem find?_replace (i j : Nat) (a : α) (entries : List (Nat × α)) :
    find? j (replace i a entries) = if j = i then some a else find? j entries := by
  induction entries with
  | nil => rfl
  | cons e entries ih => grind [replace, find?]

@[simp] theorem index_next (t : Table α) : t.next.index = t.size := rfl

@[simp] theorem size_add (t : Table α) (a : α) : (t.add a).size = t.size + 1 := rfl

@[simp] theorem size_set (t : Table α) (h : Handle α) (a : α) : (t.set h a).size = t.size := rfl

variable [Inhabited α]

/-- Replacing an entry changes what its own handle finds and nothing else. -/
theorem get_set (t : Table α) (h k : Handle α) (a : α) :
    (t.set h a).get k = if k = h then a else t.get k := by
  obtain ⟨i⟩ := h
  obtain ⟨j⟩ := k
  by_cases hij : j = i <;> simp [get, set, find?_replace, hij]

@[simp] theorem get_set_self (t : Table α) (h : Handle α) (a : α) : (t.set h a).get h = a := by
  simp [get_set]

theorem get_set_of_ne (t : Table α) {h k : Handle α} (a : α) (hne : k ≠ h) :
    (t.set h a).get k = t.get k := by
  simp [get_set, hne]

/-- Entering an entry changes what the next handle finds and nothing else. -/
theorem get_add (t : Table α) (k : Handle α) (a : α) :
    (t.add a).get k = if k = t.next then a else t.get k := by
  obtain ⟨j⟩ := k
  by_cases h : j = t.size <;> simp [get, add, next, find?, h]

@[simp] theorem get_add_next (t : Table α) (a : α) : (t.add a).get t.next = a := by
  simp [get_add]

end Table

end SubseqMachines
