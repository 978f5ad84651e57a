import Mathlib.Logic.Function.Iterate
import SubseqMachines.Tape.Basic

/-!
# Walks of a head

A machine moves its heads one cell at a time, so where a head has come to is a number of moves from
where it started. This module says what a head sees after a number of moves to the right, and how it
gets back.

* `focus_iterate_moveRight`, `right_iterate_moveRight`: the cell under the head and the cells ahead
  of it after a number of moves to the right.
* `focus_on_letter`, `focus_after_letters`, `cells_after_letters`: what the head sees on its way
  over a stretch of letters, and the cells after it.
* `cells_iterate_moveRight_eq`, `left_iterate_moveRight_succ`: the cells after such a walk, and
  those behind the head.
* `Tape.withRight`: another stretch of cells on the right of the head. A word that is written there
  and a blank that is added behind the last cell are both of this form.
* `moveLeft_iterate_moveRight`: one move back undoes the last move, as long as it added no cell.
* `iterate_moveRight_grownTo`: a walk that adds cells is the same walk on a tape that has them.
* `write_iterate_moveRight_inscribed`: a word is written letter by letter.
-/

namespace SubseqMachines.Tape

/-! ## Walking right -/

@[simp] theorem head_iterate_moveRight (n : Nat) (t : Tape) :
    (moveRight^[n] t).head = t.head + n := by
  induction n with
  | zero => rfl
  | succ n ih => rw [Function.iterate_succ_apply', head_moveRight, ih, Nat.add_assoc]

@[simp] theorem right_iterate_moveRight (n : Nat) (t : Tape) :
    (moveRight^[n] t).right = t.right.drop n := by
  induction n with
  | zero => rfl
  | succ n ih => rw [Function.iterate_succ_apply', right_moveRight, ih, List.tail_drop]

theorem focus_iterate_moveRight (n : Nat) (t : Tape) :
    (moveRight^[n + 1] t).focus = t.right[n]?.getD .blank := by
  rw [Function.iterate_succ_apply', focus_moveRight, right_iterate_moveRight,
    List.headD_eq_head?_getD, List.head?_drop]

theorem focus_on_letter {t : Tape} {f : Letter → Cell} {word : List Letter} {rest : List Cell}
    (h : t.right = word.map f ++ rest) {n : Nat} {l : Letter} (hl : word[n]? = some l) :
    (moveRight^[n + 1] t).focus = f l := by
  have hlt : n < (word.map f).length := by
    rw [List.length_map]
    exact (List.getElem?_eq_some_iff.mp hl).1
  rw [focus_iterate_moveRight, h, List.getElem?_append_left hlt, List.getElem?_map, hl]
  rfl

theorem focus_after_letters {t : Tape} {f : Letter → Cell} {word : List Letter} {rest : List Cell}
    (h : t.right = word.map f ++ rest) :
    (moveRight^[word.length + 1] t).focus = rest.headD .blank := by
  rw [focus_iterate_moveRight, h, List.getElem?_append_right (by simp)]
  cases rest <;> simp

/-- The head and the cells behind it, nearest first, after a walk over cells that are there. -/
theorem behind_iterate_moveRight {t : Tape} {n : Nat} (h : n ≤ t.right.length) :
    (moveRight^[n] t).focus :: (moveRight^[n] t).left =
      (t.right.take n).reverse ++ t.focus :: t.left := by
  induction n with
  | zero => simp
  | succ n ih =>
    have hlt : n < t.right.length := h
    -- the cell that the head was on is now behind it, and the next one is under it
    rw [focus_iterate_moveRight, Function.iterate_succ_apply', left_moveRight, ih (by omega),
      List.getElem?_eq_getElem hlt, List.take_succ_eq_append_getElem hlt, List.reverse_append]
    rfl

/-- **A walk changes no cell**, and adds a blank for each cell that it goes beyond the last one. -/
theorem cells_iterate_moveRight_eq (n : Nat) (t : Tape) :
    (moveRight^[n] t).cells = t.cells ++ List.replicate (n - t.right.length) .blank := by
  induction n with
  | zero => simp
  | succ n ih =>
    have hend : (moveRight^[n] t).isAtEnd = true ↔ t.right.length ≤ n := by
      rw [isAtEnd, right_iterate_moveRight, List.isEmpty_iff, List.drop_eq_nil_iff]
    rw [Function.iterate_succ_apply', cells_moveRight, ih]
    simp only [hend]
    split
    · next hle => rw [Nat.succ_sub hle, List.replicate_succ', List.append_assoc]
    · next hlt => rw [Nat.sub_eq_zero_of_le (by omega), Nat.sub_eq_zero_of_le (by omega)]

/-- A walk over cells that are there adds none. -/
theorem cells_iterate_moveRight {t : Tape} {n : Nat} (h : n ≤ t.right.length) :
    (moveRight^[n] t).cells = t.cells := by
  rw [cells_iterate_moveRight_eq, Nat.sub_eq_zero_of_le h]
  exact List.append_nil _

/-- A walk over a stretch of letters onto the cell behind it adds a blank if there is none. -/
theorem cells_after_letters {t : Tape} {f : Letter → Cell} {word : List Letter} {rest : List Cell}
    (h : t.right = word.map f ++ rest) :
    (moveRight^[word.length + 1] t).cells = t.cells ++ if rest = [] then [.blank] else [] := by
  have hlength : t.right.length = word.length + rest.length := by
    rw [h, List.length_append, List.length_map]
  rw [cells_iterate_moveRight_eq, hlength]
  cases rest <;> simp

theorem right_after_letters {t : Tape} {f : Letter → Cell} {word : List Letter} {rest : List Cell}
    (h : t.right = word.map f ++ rest) : (moveRight^[word.length + 1] t).right = rest.tail := by
  rw [right_iterate_moveRight, h, ← List.tail_drop, List.drop_left' (List.length_map _)]

/-- A walk that ends right behind the last cell at most has added no more than a blank there. -/
theorem cells_iterate_moveRight_succ {t : Tape} {n : Nat} (h : n ≤ t.right.length) :
    (moveRight^[n + 1] t).cells = t.cells ∨ (moveRight^[n + 1] t).cells = t.cells ++ [.blank] := by
  rw [cells_iterate_moveRight_eq]
  rcases Nat.lt_or_eq_of_le h with hlt | rfl
  · left
    rw [Nat.sub_eq_zero_of_le hlt]
    exact List.append_nil _
  · right
    rw [Nat.add_sub_cancel_left]
    rfl

/-- The cells behind the head, nearest first, after a walk that ends right behind the last cell at
most. -/
theorem left_iterate_moveRight_succ {t : Tape} {n : Nat} (h : n ≤ t.right.length) :
    (moveRight^[n + 1] t).left = (t.right.take n).reverse ++ t.focus :: t.left := by
  rw [Function.iterate_succ_apply', left_moveRight, behind_iterate_moveRight h]

/-! ## Walking back -/

theorem moveLeft_moveRight {t : Tape} (h : t.right ≠ []) : t.moveRight.moveLeft = t := by
  obtain ⟨l, f, r⟩ := t
  cases r with
  | nil => exact absurd rfl h
  | cons c r => rfl

theorem moveLeft_iterate_moveRight {t : Tape} {n : Nat} (h : n < t.right.length) :
    (moveRight^[n + 1] t).moveLeft = moveRight^[n] t := by
  rw [Function.iterate_succ_apply']
  -- the last move went onto a cell that was there
  apply moveLeft_moveRight
  rw [right_iterate_moveRight]
  exact List.ne_nil_of_length_pos (by rw [List.length_drop]; omega)

/-! ## Another stretch on the right -/

/-- The tape with other cells on the right of the head. -/
def withRight (t : Tape) (cells : List Cell) : Tape :=
  { t with right := cells }

@[simp] theorem focus_withRight (t : Tape) (cells : List Cell) :
    (t.withRight cells).focus = t.focus := rfl

@[simp] theorem right_withRight (t : Tape) (cells : List Cell) :
    (t.withRight cells).right = cells := rfl

/-- The tape with so many blanks behind the last cell that `n` cells are ahead of the head. -/
def grownTo (t : Tape) (n : Nat) : Tape :=
  t.withRight (t.right ++ List.replicate (n - t.right.length) .blank)

theorem grownTo_eq_self {t : Tape} {n : Nat} (h : n ≤ t.right.length) : t.grownTo n = t := by
  rw [grownTo, Nat.sub_eq_zero_of_le h, List.replicate_zero, List.append_nil]
  rfl

@[simp] theorem head_grownTo (t : Tape) (n : Nat) : (t.grownTo n).head = t.head := rfl

@[simp] theorem focus_grownTo (t : Tape) (n : Nat) : (t.grownTo n).focus = t.focus := rfl

theorem cells_grownTo (t : Tape) (n : Nat) :
    (t.grownTo n).cells = t.cells ++ List.replicate (n - t.right.length) .blank := by
  simp [grownTo, withRight, cells]

theorem length_right_grownTo (t : Tape) (n : Nat) :
    (t.grownTo n).right.length = max t.right.length n := by
  simp only [grownTo, right_withRight, List.length_append, List.length_replicate]
  omega

theorem grownTo_grownTo (t : Tape) (m n : Nat) : (t.grownTo m).grownTo n = t.grownTo (max m n) := by
  -- the second growth adds what the first one has left to add
  have hsum : m - t.right.length + (n - max t.right.length m) = max m n - t.right.length := by
    omega
  rw [grownTo, length_right_grownTo, grownTo, grownTo, right_withRight, List.append_assoc,
    List.replicate_append_replicate, hsum]
  rfl

theorem right_grownTo_of_blanks {t : Tape} {cells : List Cell} {n : Nat}
    (h : t.right = cells ++ List.replicate n .blank) (m : Nat) :
    ∃ k, (t.grownTo m).right = cells ++ List.replicate k .blank := by
  refine ⟨n + (m - t.right.length), ?_⟩
  rw [grownTo, right_withRight, ← List.replicate_append_replicate, ← List.append_assoc, ← h]

theorem moveRight_grownTo (t : Tape) (n : Nat) :
    (t.grownTo (n + 1)).moveRight = t.moveRight.grownTo n := by
  obtain ⟨l, f, r⟩ := t
  cases r with
  | nil => simp [grownTo, withRight, moveRight, List.replicate_succ]
  | cons c r => simp [grownTo, withRight, moveRight]

/-- A walk that adds cells is the same walk on a tape that has them already. -/
theorem iterate_moveRight_grownTo (t : Tape) (n : Nat) :
    moveRight^[n] (t.grownTo n) = moveRight^[n] t := by
  induction n generalizing t with
  | zero => rw [grownTo_eq_self (Nat.zero_le _)]
  | succ n ih =>
    -- one move turns the cells that the walk needs into cells that the rest of it needs
    rw [Function.iterate_succ_apply, moveRight_grownTo, ih, ← Function.iterate_succ_apply]

/-! ## A word written on the right -/

/-- The tape with an aux word in place of the cells next to the head on its right. -/
def inscribed (t : Tape) (word : List Letter) : Tape :=
  t.withRight (word.map .aux ++ t.right.drop word.length)

theorem right_inscribed (t : Tape) (word : List Letter) :
    (t.inscribed word).right = word.map .aux ++ t.right.drop word.length := rfl

theorem right_inscribed_of_blanks {t : Tape} {n : Nat} (h : t.right = List.replicate n .blank)
    (word : List Letter) :
    ∃ k, (t.inscribed word).right = word.map .aux ++ List.replicate k .blank := by
  refine ⟨n - word.length, ?_⟩
  rw [right_inscribed, h, List.drop_replicate]

theorem length_le_length_right_inscribed (t : Tape) (word : List Letter) :
    word.length ≤ (t.inscribed word).right.length := by
  simp [inscribed]

theorem take_right_inscribed (t : Tape) (word : List Letter) :
    (t.inscribed word).right.take word.length = word.map .aux := by
  rw [inscribed, right_withRight, List.take_left' (List.length_map _)]

/-- One letter more is written where the head comes to with its next move. -/
theorem write_iterate_moveRight_inscribed (t : Tape) (word : List Letter) (l : Letter) :
    (moveRight^[word.length] (t.inscribed word)).moveRight.write (.aux l) =
      moveRight^[word.length + 1] (t.inscribed (word ++ [l])) := by
  have hlen : (word ++ [l]).length = word.length + 1 := by simp
  have hold := behind_iterate_moveRight (length_le_length_right_inscribed t word)
  have hnew := behind_iterate_moveRight (length_le_length_right_inscribed t (word ++ [l]))
  rw [take_right_inscribed] at hold hnew
  rw [hlen] at hnew
  -- both sides have the same cells behind the head, the new letter under it, and the same ahead
  have hbehind : (moveRight^[word.length + 1] (t.inscribed (word ++ [l]))).focus ::
      (moveRight^[word.length + 1] (t.inscribed (word ++ [l]))).left =
      .aux l :: (moveRight^[word.length] (t.inscribed word)).focus ::
        (moveRight^[word.length] (t.inscribed word)).left := by
    rw [hold, hnew, List.map_append, List.reverse_append]
    rfl
  obtain ⟨hfocus, hleft⟩ := List.cons_eq_cons.mp hbehind
  have hright : (moveRight^[word.length + 1] (t.inscribed (word ++ [l]))).right =
      (moveRight^[word.length] (t.inscribed word)).moveRight.right := by
    rw [right_moveRight, right_iterate_moveRight, right_iterate_moveRight]
    simp [inscribed, List.drop_append]
  -- so they are the same tape, part by part
  generalize moveRight^[word.length + 1] (t.inscribed (word ++ [l])) = new at *
  obtain ⟨nl, nf, nr⟩ := new
  obtain rfl : nf = .aux l := hfocus
  obtain rfl : nl = _ := hleft
  obtain rfl : nr = _ := hright
  rw [write, ← left_moveRight]

end SubseqMachines.Tape
