import Mathlib.Algebra.GroupWithZero.Nat
import SubseqMachines.Proofs.Tape.Walk
import SubseqMachines.Proofs.Trial.Layout

/-!
# Where the heads of a trial are

Between two steps of a trial the main head is on the cell that closes a block, and the aux head is
on the blank in front of the witness. This module says how far the main head has come by then, and
that these are the places which the next matcher asks for.

* `Trial.offset`, `Trial.take_offset`, `Trial.drop_offset`: the way to the end of a block, what has
  been passed on it, and what is ahead of it.
* `Trial.spot`: the bench when the main head has come to the end of a block.
* `Trial.exists_matcher_laid`: this bench is laid out for a matcher if there is another block.
-/

namespace SubseqMachines.Trial

/-! ## Where the main head is -/

/-- The number of cells ahead of the main head's start before the one that closes the later block
number `v`, or the first block if `v` is zero. -/
def offset (first : List Letter) (later : List (List Letter)) (v : Nat) : Nat :=
  first.length + ((later.take v).map fun block => block.length + 1).sum

section Blocks

variable {first : List Letter} {later : List (List Letter)} {v : Nat}

theorem sum_map_take_succ (f : List Letter → Nat) (hv : v < later.length) :
    ((later.take (v + 1)).map f).sum = ((later.take v).map f).sum + f later[v] := by
  rw [List.take_succ_eq_append_getElem hv, List.map_append, List.sum_append, List.map_singleton,
    List.sum_singleton]

theorem offset_succ (first : List Letter) (hv : v < later.length) :
    offset first later (v + 1) = offset first later v + (later[v].length + 1) := by
  rw [offset, offset, sum_map_take_succ _ hv, Nat.add_assoc]

theorem laterCells_append (later more : List (List Letter)) :
    laterCells (later ++ more) = laterCells later ++ laterCells more :=
  List.flatMap_append

theorem length_laterCells (later : List (List Letter)) :
    (laterCells later).length = (later.map fun block => block.length + 1).sum := by
  induction later with
  | nil => rfl
  | cons block later ih =>
    rw [laterCells_cons, List.length_cons, List.length_append, ih, List.length_map, List.map_cons,
      List.sum_cons]
    omega

theorem offset_eq_length (first : List Letter) (later : List (List Letter)) (v : Nat) :
    offset first later v = (first.map Cell.main ++ laterCells (later.take v)).length := by
  rw [List.length_append, List.length_map, length_laterCells]
  rfl

section Ahead

variable {cells rest : List Cell}

/-- The blocks up to one, and the blocks that follow it. -/
theorem cells_eq_append (h : cells = first.map .main ++ (laterCells later ++ rest)) (v : Nat) :
    cells = (first.map .main ++ laterCells (later.take v)) ++
      (laterCells (later.drop v) ++ rest) := by
  have hsplit : laterCells later = laterCells (later.take v) ++ laterCells (later.drop v) := by
    rw [← laterCells_append, List.take_append_drop]
  rw [h, hsplit, List.append_assoc, List.append_assoc]

/-- What a main head at the end of a block has passed is the blocks up to that one. -/
theorem take_offset (h : cells = first.map .main ++ (laterCells later ++ rest)) (v : Nat) :
    cells.take (offset first later v) = first.map .main ++ laterCells (later.take v) := by
  rw [cells_eq_append h v]
  exact List.take_left' (offset_eq_length first later v).symm

/-- What is ahead of a main head at the end of a block is the blocks that follow. -/
theorem drop_offset (h : cells = first.map .main ++ (laterCells later ++ rest)) (v : Nat) :
    cells.drop (offset first later v) = laterCells (later.drop v) ++ rest := by
  rw [cells_eq_append h v]
  exact List.drop_left' (offset_eq_length first later v).symm

theorem offset_le_length (h : cells = first.map .main ++ (laterCells later ++ rest)) (v : Nat) :
    offset first later v ≤ cells.length := by
  have hlen := congrArg List.length (cells_eq_append h v)
  rw [List.length_append, ← offset_eq_length] at hlen
  omega

end Ahead

end Blocks

/-- The bench when the sampler has written `word` and the main head has come to the end of the later
block number `v`, with at least `reach` cells ahead of where the aux head is. -/
def spot (b : Bench) (first : List Letter) (later : List (List Letter)) (word : List Letter)
    (coin : Coin) (v reach : Nat) : Bench where
  main := Tape.moveRight^[offset first later v + 1] b.main
  aux := (b.aux.inscribed word).grownTo reach
  coin := coin

section Spot

variable {b : Bench} {first word : List Letter} {later : List (List Letter)} {coin : Coin}
  {v reach : Nat}

theorem spot_start (b : Bench) (first : List Letter) (later : List (List Letter))
    (word : List Letter) (coin : Coin) :
    spot b first later word coin 0 0 =
      { main := Tape.moveRight^[first.length + 1] b.main, aux := b.aux.inscribed word, coin } := by
  rw [spot, Tape.grownTo_eq_self (Nat.zero_le _)]
  rfl

theorem spot_succ (hv : v < later.length) (n : Nat) :
    { main := Tape.moveRight^[later[v].length + 1] (spot b first later word coin v reach).main
      aux := (spot b first later word coin v reach).aux.grownTo n, coin : Bench } =
      spot b first later word coin (v + 1) (max reach n) := by
  -- the ways of the main head add up, and of the two growths the greater one counts
  have hcells : later[v].length + 1 + (offset first later v + 1) =
      offset first later v + (later[v].length + 1) + 1 := by omega
  rw [spot, spot, offset_succ first hv, Tape.grownTo_grownTo, ← Function.iterate_add_apply, hcells]

/-- The cell under the main head closes a block. -/
theorem exists_main_right_spot (h : Laid b.toTapes first later) :
    ∃ n, (spot b first later word coin v reach).main.focus =
        (laterCells (later.drop v) ++ List.replicate n Cell.blank).headD .blank ∧
      (spot b first later word coin v reach).main.right =
        (laterCells (later.drop v) ++ List.replicate n Cell.blank).tail := by
  obtain ⟨n, hmain⟩ := h.main_right
  refine ⟨n, ?_, ?_⟩
  · rw [← drop_offset hmain v, List.headD_eq_head?_getD, List.head?_drop]
    exact Tape.focus_iterate_moveRight _ _
  · rw [← drop_offset hmain v, List.tail_drop]
    exact Tape.right_iterate_moveRight _ _

theorem main_focus_spot (h : Laid b.toTapes first later) (hv : v < later.length) :
    (spot b first later word coin v reach).main.focus = .hash := by
  obtain ⟨n, hfocus, -⟩ := exists_main_right_spot h
  rw [hfocus, List.drop_eq_getElem_cons hv]
  rfl

theorem main_focus_spot_end (h : Laid b.toTapes first later) :
    (spot b first later word coin later.length reach).main.focus = .blank := by
  obtain ⟨n, hfocus, -⟩ := exists_main_right_spot h
  rw [hfocus, List.drop_length]
  exact headD_replicate_blank n

/-- Where one child leaves the heads is where the next matcher asks for them. -/
theorem exists_matcher_laid (h : Laid b.toTapes first later) (hword : word ≠ [])
    (hv : v < later.length) :
    ∃ rest, Matcher.Laid (spot b first later word coin v reach).toTapes later[v] word rest ∧
      (rest.headD .blank).isBlockEnd = true := by
  obtain ⟨n, -, hright⟩ := exists_main_right_spot h
  -- the witness is written, and the aux head is still on the blank in front of it
  obtain ⟨p, q, haux⟩ := h.aux_blank
  have hblank : b.aux.right = List.replicate q .blank := congrArg Tape.right haux
  obtain ⟨k, hinscribed⟩ := Tape.right_inscribed_of_blanks hblank word
  rw [List.drop_eq_getElem_cons hv, laterCells_cons, List.cons_append, List.tail_cons,
    List.append_assoc] at hright
  have hclosed := isBlockEnd_headD_laterCells (later.drop (v + 1)) n
  refine ⟨_, ?_, hclosed⟩
  exact
    { main_focus := main_focus_spot h hv, main_right := hright
      block_ne_nil := h.later_ne_nil _ (List.getElem_mem hv)
      rest_head := isMainLetter_eq_false_of_isBlockEnd hclosed
      aux_left := ⟨p, congrArg Tape.left haux⟩, aux_focus := congrArg Tape.focus haux
      aux_right := Tape.right_grownTo_of_blanks hinscribed reach, word_ne_nil := hword }

end Spot

end SubseqMachines.Trial
