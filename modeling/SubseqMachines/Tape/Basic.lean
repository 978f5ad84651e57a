import SubseqMachines.Fault

/-!
# Tapes

A tape is a row of cells with one head on it. It grows by a blank when the head steps beyond either
end, and it never shrinks. It is kept as the cell under the head, the cells on the left of it
(nearest first) and the cells on the right of it, so there is always a cell under the head.

* `Tape.cells` and `Tape.head` view a tape as a list and an index;
* `Tape.moveLeft`, `Tape.moveRight`, `Tape.write` are the head operations, and `Tape.focus` is what
  the head reads;
* `Tape.ofDescriptors` makes a tape of cells of which one is marked, and `Tape.descriptors` lists
  them;
* `Tape.ext_view`: the view determines the tape;
* `cells_moveRight`, `head_moveRight` and their like: what each operation does to the view;
* `Tape.ofDescriptors_descriptors` and `Tape.descriptors_of_ofDescriptors`: making and listing are
  inverse.
-/

namespace SubseqMachines

/-- A row of cells with one head. -/
structure Tape where
  /-- The cells on the left of the head, nearest first. -/
  left : List Cell
  /-- The cell under the head. -/
  focus : Cell
  /-- The cells on the right of the head. -/
  right : List Cell
  deriving DecidableEq, Repr

/-- A cell of a tape to be made, and whether it carries the head. -/
structure Descriptor where
  cell : Cell
  head : Bool
  deriving DecidableEq, Repr

namespace Tape

/-! ## The view as a list and an index -/

/-- All cells from left to right. -/
def cells (t : Tape) : List Cell :=
  t.left.reverse ++ t.focus :: t.right

/-- The index of the cell under the head. -/
def head (t : Tape) : Nat :=
  t.left.length

/-- Whether the head is on the first cell. -/
def isAtHead (t : Tape) : Bool :=
  t.left.isEmpty

/-- Whether the head is on the last cell. -/
def isAtEnd (t : Tape) : Bool :=
  t.right.isEmpty

/-- The view determines the tape. -/
theorem ext_view {s t : Tape} (hcells : s.cells = t.cells) (hhead : s.head = t.head) : s = t := by
  obtain ⟨sl, sf, sr⟩ := s
  obtain ⟨tl, tf, tr⟩ := t
  have hlen : sl.reverse.length = tl.reverse.length := by simpa [head] using hhead
  obtain ⟨hl, hr⟩ := List.append_inj hcells hlen
  simp_all

theorem head_lt_length_cells (t : Tape) : t.head < t.cells.length := by
  simp [head, cells]

theorem getElem?_head_cells (t : Tape) : t.cells[t.head]? = some t.focus := by
  simp [head, cells]

/-! ## Head operations -/

/-- A tape of one blank. -/
def blank : Tape := ⟨[], .blank, []⟩

instance : Inhabited Tape := ⟨blank⟩

/-- Step the head left. In front of the first cell a blank is added. -/
def moveLeft : Tape → Tape
  | ⟨[], f, r⟩ => ⟨[], .blank, f :: r⟩
  | ⟨c :: l, f, r⟩ => ⟨l, c, f :: r⟩

/-- Step the head right. Behind the last cell a blank is added. -/
def moveRight : Tape → Tape
  | ⟨l, f, []⟩ => ⟨f :: l, .blank, []⟩
  | ⟨l, f, c :: r⟩ => ⟨f :: l, c, r⟩

/-- Replace the cell under the head. -/
def write (t : Tape) (c : Cell) : Tape :=
  { t with focus := c }

/-- The two ways a head can step. -/
inductive Direction where
  | left
  | right
  deriving DecidableEq, Repr

/-- Step the head in a direction. -/
def move (t : Tape) : Direction → Tape
  | .left => t.moveLeft
  | .right => t.moveRight

theorem cells_moveLeft (t : Tape) :
    t.moveLeft.cells = if t.isAtHead then .blank :: t.cells else t.cells := by
  obtain ⟨_ | _, _, _⟩ := t <;> simp [moveLeft, cells, isAtHead]

theorem head_moveLeft (t : Tape) : t.moveLeft.head = t.head - 1 := by
  obtain ⟨_ | _, _, _⟩ := t <;> simp [moveLeft, head]

theorem cells_moveRight (t : Tape) :
    t.moveRight.cells = if t.isAtEnd then t.cells ++ [.blank] else t.cells := by
  obtain ⟨_, _, _ | _⟩ := t <;> simp [moveRight, cells, isAtEnd]

@[simp] theorem head_moveRight (t : Tape) : t.moveRight.head = t.head + 1 := by
  obtain ⟨_, _, _ | _⟩ := t <;> simp [moveRight, head]

theorem cells_write (t : Tape) (c : Cell) : (t.write c).cells = t.cells.set t.head c := by
  simp [write, cells, head]

@[simp] theorem head_write (t : Tape) (c : Cell) : (t.write c).head = t.head := rfl

/-! ### The two stretches beside the head -/

@[simp] theorem left_moveRight (t : Tape) : t.moveRight.left = t.focus :: t.left := by
  obtain ⟨_, _, _ | _⟩ := t <;> rfl

@[simp] theorem right_moveRight (t : Tape) : t.moveRight.right = t.right.tail := by
  obtain ⟨_, _, _ | _⟩ := t <;> rfl

@[simp] theorem focus_moveRight (t : Tape) : t.moveRight.focus = t.right.headD .blank := by
  obtain ⟨_, _, _ | _⟩ := t <;> rfl

@[simp] theorem left_moveLeft (t : Tape) : t.moveLeft.left = t.left.tail := by
  obtain ⟨_ | _, _, _⟩ := t <;> rfl

@[simp] theorem right_moveLeft (t : Tape) : t.moveLeft.right = t.focus :: t.right := by
  obtain ⟨_ | _, _, _⟩ := t <;> rfl

@[simp] theorem focus_moveLeft (t : Tape) : t.moveLeft.focus = t.left.headD .blank := by
  obtain ⟨_ | _, _, _⟩ := t <;> rfl

/-! ## Making and listing -/

/-- The cells of a tape, each with whether the head is on it. -/
def descriptors (t : Tape) : List Descriptor :=
  t.left.reverse.map (⟨·, false⟩) ++ ⟨t.focus, true⟩ :: t.right.map (⟨·, false⟩)

/-- The tape of the given cells. Exactly one of them carries the head. -/
def ofDescriptors (ds : List Descriptor) : Except Fault Tape :=
  match ds.dropWhile fun d => !d.head with
  | [] => .error (.refusal .noHead)
  | d :: after =>
    if after.any (·.head) then .error (.refusal .manyHeads)
    else
      let before := ds.takeWhile fun d => !d.head
      .ok ⟨(before.map (·.cell)).reverse, d.cell, after.map (·.cell)⟩

private theorem map_unmarked {ds : List Descriptor} (h : ∀ d ∈ ds, d.head = false) :
    (ds.map (·.cell)).map (Descriptor.mk · false) = ds := by
  rw [List.map_map]
  refine (List.map_congr_left fun d hd => ?_).trans (List.map_id ds)
  obtain ⟨c, b⟩ := d
  simpa using (h _ hd).symm

/-- Making a tape of its own cells gives it back. -/
theorem ofDescriptors_descriptors (t : Tape) : ofDescriptors t.descriptors = .ok t := by
  obtain ⟨l, f, r⟩ := t
  have hdrop : (descriptors ⟨l, f, r⟩).dropWhile (fun d => !d.head)
      = ⟨f, true⟩ :: r.map (⟨·, false⟩) := by
    rw [descriptors, List.dropWhile_append_of_pos (by simp)]
    simp
  have htake : (descriptors ⟨l, f, r⟩).takeWhile (fun d => !d.head)
      = l.reverse.map (⟨·, false⟩) := by
    rw [descriptors, List.takeWhile_append_of_pos (by simp)]
    simp
  simp [ofDescriptors, hdrop, htake, Function.comp_def]

/-- The cells a tape was made of are those it lists. -/
theorem descriptors_of_ofDescriptors {ds : List Descriptor} {t : Tape}
    (h : ofDescriptors ds = .ok t) : t.descriptors = ds := by
  unfold ofDescriptors at h
  split at h
  · simp at h
  · rename_i d after hdrop
    split at h
    · simp at h
    · rename_i hafter
      -- the cell that stops the search carries the head, those before it do not
      have hd : d.head = true := by
        have := List.head?_dropWhile_not (fun d : Descriptor => !d.head) ds
        simpa [hdrop] using this
      have hbefore : ∀ x ∈ ds.takeWhile fun d => !d.head, x.head = false := by
        intro x hx
        simpa using List.all_eq_true.mp List.all_takeWhile x hx
      have hsplit := List.takeWhile_append_dropWhile (p := fun d : Descriptor => !d.head) (l := ds)
      obtain ⟨c, b⟩ := d
      simp only [Except.ok.injEq] at h
      subst h hd
      simp only [Bool.not_eq_true, List.any_eq_false, Bool.not_eq_true] at hafter
      rw [descriptors, List.reverse_reverse, map_unmarked hbefore, map_unmarked hafter, ← hdrop,
        hsplit]

end Tape

/-! ## Pairs of tapes -/

/-- A main tape and an aux tape. -/
structure Tapes where
  main : Tape
  aux : Tape
  deriving DecidableEq, Repr, Inhabited

/-- The tape of a side. -/
def Tapes.on (t : Tapes) : Side → Tape
  | .main => t.main
  | .aux => t.aux

end SubseqMachines
