import Mathlib.Order.Bounds.Basic
import SubseqMachines.Tape.Basic

/-!
# Tapes and lines

A line is a tape without ends. It has a cell at each integer position, so no operation has to add
one, and the place of its head is told by an integer. A tape shows a stretch of a line: the cells on
either side of the stretch are blank. When the tape grows on the left, all its cells get other
indices, while their positions on the line stay as they are.

* `Line.move`, `Line.write`, `Line.read`: the head operations on a line.
* `Tape.around`: the cell at a distance from the head, blank beyond either end.
* `Tape.On`: a tape shows a stretch of a line.
* `Tape.On.move`, `Tape.On.write`: the operations keep that.
* `Tape.On.getElem?_cells`: the cells of the tape are those of the stretch.
* `Tape.isLeast_first_move`, `Tape.isGreatest_last_move`: a move makes the stretch reach as far as
  the head goes, and no farther.
-/

namespace SubseqMachines

/-! ## Lines -/

/-- A tape without ends: a cell at each position, and the position of the head. -/
structure Line where
  cell : Int → Cell
  head : Int

namespace Line

/-- Step the head in a direction. -/
def move (l : Line) : Tape.Direction → Line
  | .left => { l with head := l.head - 1 }
  | .right => { l with head := l.head + 1 }

/-- Replace the cell under the head. -/
def write (l : Line) (c : Cell) : Line :=
  { l with cell := fun p => if p = l.head then c else l.cell p }

/-- The cell under the head. -/
def read (l : Line) : Cell :=
  l.cell l.head

/-- The line with the given cells from position zero on and blanks everywhere else. -/
def ofCells (cells : List Cell) (head : Nat) : Line where
  cell p := if 0 ≤ p then cells[p.toNat]?.getD .blank else .blank
  head := head

@[simp] theorem cell_move (l : Line) (d : Tape.Direction) : (l.move d).cell = l.cell := by
  cases d <;> rfl

@[simp] theorem head_write (l : Line) (c : Cell) : (l.write c).head = l.head := rfl

theorem cell_write (l : Line) (c : Cell) (p : Int) :
    (l.write c).cell p = if p = l.head then c else l.cell p := rfl

theorem cell_ofCells_of_outside {cells : List Cell} {p : Int} (hp : p < 0 ∨ cells.length ≤ p)
    (head : Nat) : (ofCells cells head).cell p = .blank := by
  show (if 0 ≤ p then cells[p.toNat]?.getD .blank else .blank) = .blank
  split
  · rw [List.getElem?_eq_none (by omega)]
    rfl
  · rfl

end Line

/-! ## What is around a head -/

namespace Tape

/-- The cell at a distance to the right of the head, or to the left if the distance is negative.
Beyond either end there are blanks. -/
def around (t : Tape) : Int → Cell
  | .ofNat 0 => t.focus
  | .ofNat (n + 1) => t.right[n]?.getD .blank
  | .negSucc n => t.left[n]?.getD .blank

@[simp] theorem around_zero (t : Tape) : t.around 0 = t.focus := rfl

theorem around_moveRight (t : Tape) (k : Int) : t.moveRight.around k = t.around (k + 1) := by
  match k with
  | .ofNat 0 =>
    show t.moveRight.focus = t.right[0]?.getD .blank
    rw [focus_moveRight, List.headD_eq_head?_getD, List.head?_eq_getElem?]
  | .ofNat (n + 1) =>
    show t.moveRight.right[n]?.getD .blank = t.right[n + 1]?.getD .blank
    rw [right_moveRight, List.getElem?_tail]
  | .negSucc 0 =>
    -- the cell that the head has left is next to it now
    show t.moveRight.left[0]?.getD .blank = t.focus
    rw [left_moveRight]
    rfl
  | .negSucc (n + 1) =>
    show t.moveRight.left[n + 1]?.getD .blank = t.left[n]?.getD .blank
    rw [left_moveRight, List.getElem?_cons_succ]

theorem around_moveLeft (t : Tape) (k : Int) : t.moveLeft.around k = t.around (k - 1) := by
  match k with
  | .ofNat 0 =>
    show t.moveLeft.focus = t.left[0]?.getD .blank
    rw [focus_moveLeft, List.headD_eq_head?_getD, List.head?_eq_getElem?]
  | .ofNat 1 =>
    show t.moveLeft.right[0]?.getD .blank = t.focus
    rw [right_moveLeft]
    rfl
  | .ofNat (n + 2) =>
    have hk : Int.ofNat (n + 2) - 1 = Int.ofNat (n + 1) := by
      simp only [Int.ofNat_eq_natCast]
      omega
    rw [hk]
    show t.moveLeft.right[n + 1]?.getD .blank = t.right[n]?.getD .blank
    rw [right_moveLeft, List.getElem?_cons_succ]
  | .negSucc n =>
    show t.moveLeft.left[n]?.getD .blank = t.left[n + 1]?.getD .blank
    rw [left_moveLeft, List.getElem?_tail]

theorem around_write (t : Tape) (c : Cell) (k : Int) :
    (t.write c).around k = if k = 0 then c else t.around k := by
  match k with
  | .ofNat 0 => rfl
  | .ofNat (n + 1) => rfl
  | .negSucc n => rfl

/-- The cells of a tape are those around its head. -/
theorem around_sub_head (t : Tape) (i : Nat) :
    t.around (i - t.head) = t.cells[i]?.getD .blank := by
  obtain ⟨l, f, r⟩ := t
  show around ⟨l, f, r⟩ (i - l.length) = (l.reverse ++ f :: r)[i]?.getD .blank
  rcases Nat.lt_trichotomy i l.length with hlt | rfl | hgt
  · -- on the left of the head
    have hk : (i : Int) - l.length = .negSucc (l.length - 1 - i) := by omega
    rw [hk, List.getElem?_append_left (by simpa using hlt), List.getElem?_reverse hlt]
    rfl
  · rw [Int.sub_self, List.getElem?_append_right (by simp)]
    simp
  · -- on the right of the head
    obtain ⟨n, rfl⟩ : ∃ n, i = l.length + (n + 1) := ⟨i - l.length - 1, by omega⟩
    have hk : ((l.length + (n + 1) : Nat) : Int) - l.length = .ofNat (n + 1) := by
      simp only [Int.ofNat_eq_natCast]
      omega
    rw [hk, List.getElem?_append_right (by simp)]
    simp [around]

/-- In front of the first cell there are blanks. -/
theorem around_of_lt (t : Tape) {k : Int} (hk : k < -t.head) : t.around k = .blank := by
  obtain ⟨n, rfl⟩ : ∃ n, k = .negSucc n := ⟨(-k - 1).toNat, by omega⟩
  have hn : t.left.length ≤ n := by
    unfold head at hk
    omega
  show t.left[n]?.getD .blank = .blank
  rw [List.getElem?_eq_none hn]
  rfl

/-! ## A tape on a line -/

/-- A tape shows a stretch of a line: the cells around its head are those around the head of the
line. -/
def On (t : Tape) (l : Line) : Prop :=
  ∀ p, l.cell p = t.around (p - l.head)

/-- The position of the first cell of a tape whose head is at a position. -/
def first (t : Tape) (head : Int) : Int :=
  head - t.left.length

/-- The position of the last cell of a tape whose head is at a position. -/
def last (t : Tape) (head : Int) : Int :=
  head + t.right.length

theorem length_cells_eq (t : Tape) (head : Int) :
    (t.cells.length : Int) = t.last head + 1 - t.first head := by
  simp only [cells, first, last, List.length_append, List.length_reverse, List.length_cons]
  omega

theorem On.ofCells (t : Tape) : t.On (Line.ofCells t.cells t.head) := by
  intro p
  show (if 0 ≤ p then t.cells[p.toNat]?.getD .blank else .blank) = t.around (p - t.head)
  split
  · rename_i hp
    -- a position that is not negative is an index
    obtain ⟨i, rfl⟩ := Int.eq_ofNat_of_zero_le hp
    rw [around_sub_head, Int.toNat_natCast]
  · rw [around_of_lt t (by omega)]

theorem On.move {t : Tape} {l : Line} (h : t.On l) (d : Direction) :
    (t.move d).On (l.move d) := by
  intro p
  rw [Line.cell_move, h p]
  cases d with
  | left =>
    have hp : p - (l.head - 1) - 1 = p - l.head := by omega
    show t.around (p - l.head) = t.moveLeft.around (p - (l.head - 1))
    rw [around_moveLeft, hp]
  | right =>
    have hp : p - (l.head + 1) + 1 = p - l.head := by omega
    show t.around (p - l.head) = t.moveRight.around (p - (l.head + 1))
    rw [around_moveRight, hp]

theorem On.write {t : Tape} {l : Line} (h : t.On l) (c : Cell) : (t.write c).On (l.write c) := by
  intro p
  rw [Line.cell_write, Line.head_write, around_write, h p]
  -- the head is at no distance from itself
  by_cases hp : p = l.head
  · rw [if_pos hp, if_pos (by omega)]
  · rw [if_neg hp, if_neg (by omega)]

theorem On.focus {t : Tape} {l : Line} (h : t.On l) : t.focus = l.read := by
  rw [Line.read, h l.head, Int.sub_self, around_zero]

/-- The cells of a tape are the cells of its stretch of the line, in order. -/
theorem On.getElem?_cells {t : Tape} {l : Line} (h : t.On l) {i : Nat} (hi : i < t.cells.length) :
    t.cells[i]? = some (l.cell (t.first l.head + i)) := by
  have hp : t.first l.head + i - l.head = i - t.head := by
    unfold first Tape.head
    omega
  rw [h, hp, around_sub_head, List.getElem?_eq_getElem hi]
  rfl

/-! ## How far a tape reaches -/

/-- Before anything is done, a tape reaches over its own indices. -/
theorem isLeast_first_head (t : Tape) :
    IsLeast { p : Int | 0 ≤ p ∧ p < t.cells.length } (t.first t.head) := by
  have hlt := t.head_lt_length_cells
  have hfirst : t.first t.head = 0 := by
    unfold first head
    omega
  rw [hfirst]
  exact ⟨⟨by omega, by omega⟩, fun p hp => hp.1⟩

theorem isGreatest_last_head (t : Tape) :
    IsGreatest { p : Int | 0 ≤ p ∧ p < t.cells.length } (t.last t.head) := by
  have hlt := t.head_lt_length_cells
  have hlast : t.last t.head = t.cells.length - 1 := by
    have hcount := t.length_cells_eq t.head
    have hfirst : t.first t.head = 0 := by
      unfold first head
      omega
    omega
  rw [hlast]
  exact ⟨⟨by omega, by omega⟩, fun p hp => by have hless := hp.2; omega⟩

theorem first_moveLeft (t : Tape) (p : Int) :
    t.moveLeft.first (p - 1) = min (p - 1) (t.first p) := by
  obtain ⟨l, f, r⟩ := t
  cases l with
  | nil =>
    -- the first cell is the new one
    simp only [first, left_moveLeft, List.tail_nil, List.length_nil]
    omega
  | cons c l =>
    simp only [first, left_moveLeft, List.tail_cons, List.length_cons]
    omega

theorem last_moveLeft (t : Tape) (p : Int) : t.moveLeft.last (p - 1) = t.last p := by
  simp only [last, right_moveLeft, List.length_cons]
  omega

theorem first_moveRight (t : Tape) (p : Int) : t.moveRight.first (p + 1) = t.first p := by
  simp only [first, left_moveRight, List.length_cons]
  omega

theorem last_moveRight (t : Tape) (p : Int) :
    t.moveRight.last (p + 1) = max (p + 1) (t.last p) := by
  obtain ⟨l, f, r⟩ := t
  cases r with
  | nil =>
    simp only [last, right_moveRight, List.tail_nil, List.length_nil]
    omega
  | cons c r =>
    simp only [last, right_moveRight, List.tail_cons, List.length_cons]
    omega

theorem isLeast_first_move {t : Tape} {l : Line} {visited : Set Int}
    (h : IsLeast visited (t.first l.head)) (d : Direction) :
    IsLeast (insert (l.move d).head visited) ((t.move d).first (l.move d).head) := by
  cases d with
  | left =>
    show IsLeast (insert (l.head - 1) visited) (t.moveLeft.first (l.head - 1))
    rw [first_moveLeft]
    exact h.insert (l.head - 1)
  | right =>
    show IsLeast (insert (l.head + 1) visited) (t.moveRight.first (l.head + 1))
    -- a move to the right goes to no position in front of the first cell
    have hmin : min (l.head + 1) (t.first l.head) = t.first l.head := by
      unfold first
      omega
    rw [first_moveRight, ← hmin]
    exact h.insert (l.head + 1)

theorem isGreatest_last_move {t : Tape} {l : Line} {visited : Set Int}
    (h : IsGreatest visited (t.last l.head)) (d : Direction) :
    IsGreatest (insert (l.move d).head visited) ((t.move d).last (l.move d).head) := by
  cases d with
  | left =>
    show IsGreatest (insert (l.head - 1) visited) (t.moveLeft.last (l.head - 1))
    have hmax : max (l.head - 1) (t.last l.head) = t.last l.head := by
      unfold last
      omega
    rw [last_moveLeft, ← hmax]
    exact h.insert (l.head - 1)
  | right =>
    show IsGreatest (insert (l.head + 1) visited) (t.moveRight.last (l.head + 1))
    rw [last_moveRight]
    exact h.insert (l.head + 1)

end Tape

end SubseqMachines
