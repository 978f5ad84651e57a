import Mathlib.Data.List.Basic
import Mathlib.Data.List.Induction
import Mathlib.Data.Set.Insert
import SubseqMachines.Proofs.Tape.Line

/-!
# Sequences of calls

Whoever holds a tape moves and uses its head, or looks at the tape without the head. This module
follows a tape and the line that it shows a stretch of through any sequence of such calls.

* `Call`, `Call.counts`: what can be asked of a tape, and which of it is an operation of the head.
* `Tape.calls`, `Line.calls`: a tape and a line after a sequence of calls.
* `Line.visited`: the positions where the head has been.
* `Tape.On.calls`: the tape still shows a stretch of the line.
* `Tape.isLeast_first_calls`, `Tape.isGreatest_last_calls`: the stretch reaches from the first to
  the last position that was there at the start or has been visited.
* `Line.cell_calls_of_not_written`: a cell changes only where it is written.
-/

namespace SubseqMachines

/-! ## Calls -/

/-- What can be asked of a tape. -/
inductive Call where
  | move (d : Tape.Direction)
  | read
  | write (c : Cell)
  /-- Look at the cell under the head. -/
  | peek
  | cells
  | descriptors
  | clone
  | isAtHead
  | isAtEnd
  | render
  | listing
  deriving DecidableEq, Repr

/-- Whether a call is an operation of the head. All others only look at the tape. -/
def Call.counts : Call → Bool
  | move _ => true
  | read => true
  | write _ => true
  | _ => false

namespace Line

/-- The line after a call. -/
def call (l : Line) : Call → Line
  | .move d => l.move d
  | .write c => l.write c
  | _ => l

/-- The line after a sequence of calls. -/
def calls (l : Line) (cs : List Call) : Line :=
  cs.foldl call l

@[simp] theorem calls_nil (l : Line) : l.calls [] = l := rfl

@[simp] theorem calls_concat (l : Line) (cs : List Call) (c : Call) :
    l.calls (cs ++ [c]) = (l.calls cs).call c :=
  List.foldl_concat _ _ _ _

/-- The positions where the head has been during a sequence of calls, its start and its end
included. -/
def visited (l : Line) (cs : List Call) : Set Int :=
  { p | ∃ before, before <+: cs ∧ (l.calls before).head = p }

theorem head_mem_visited (l : Line) (cs : List Call) : (l.calls cs).head ∈ l.visited cs :=
  ⟨cs, List.prefix_rfl, rfl⟩

theorem visited_nil (l : Line) : l.visited [] = {l.head} := by
  ext p
  constructor
  · rintro ⟨before, hbefore, rfl⟩
    rw [List.prefix_nil.mp hbefore]
    rfl
  · rintro rfl
    exact l.head_mem_visited []

theorem visited_concat (l : Line) (cs : List Call) (c : Call) :
    l.visited (cs ++ [c]) = insert ((l.calls cs).call c).head (l.visited cs) := by
  ext p
  constructor
  · rintro ⟨before, hbefore, rfl⟩
    -- either the last call has been made as well, or it is none of these
    rcases List.prefix_concat_iff.mp hbefore with rfl | hshort
    · rw [calls_concat]
      exact Set.mem_insert _ _
    · exact Set.mem_insert_of_mem _ ⟨before, hshort, rfl⟩
  · rintro (rfl | ⟨before, hbefore, rfl⟩)
    · exact ⟨cs ++ [c], List.prefix_rfl, by rw [calls_concat]⟩
    · exact ⟨before, hbefore.trans (List.prefix_append cs [c]), rfl⟩

/-- A cell holds what it held at the start until it is written. -/
theorem cell_calls_of_not_written {l : Line} {cs : List Call} {p : Int}
    (h : ∀ before c, before ++ [.write c] <+: cs → (l.calls before).head ≠ p) :
    (l.calls cs).cell p = l.cell p := by
  induction cs using List.reverseRecOn with
  | nil => rfl
  | append_singleton cs c ih =>
    have hcs : (l.calls cs).cell p = l.cell p :=
      ih fun before d hbefore => h before d (hbefore.trans (List.prefix_append cs [c]))
    rw [calls_concat]
    cases c with
    | move d =>
      show ((l.calls cs).move d).cell p = l.cell p
      rw [cell_move, hcs]
    | write c =>
      show ((l.calls cs).write c).cell p = l.cell p
      rw [cell_write, if_neg (fun heq => h cs c List.prefix_rfl heq.symm), hcs]
    | _ => exact hcs

end Line

namespace Tape

/-- The tape after a call. -/
def call (t : Tape) : Call → Tape
  | .move d => t.move d
  | .write c => t.write c
  | _ => t

/-- The tape after a sequence of calls. -/
def calls (t : Tape) (cs : List Call) : Tape :=
  cs.foldl call t

@[simp] theorem calls_concat (t : Tape) (cs : List Call) (c : Call) :
    t.calls (cs ++ [c]) = (t.calls cs).call c :=
  List.foldl_concat _ _ _ _

/-- Calls that only look at the tape may as well be left out. -/
theorem calls_filter_counts (t : Tape) (cs : List Call) :
    t.calls (cs.filter Call.counts) = t.calls cs := by
  induction cs generalizing t with
  | nil => rfl
  | cons c cs ih =>
    cases c with
    | move d => exact ih (t.move d)
    | read => exact ih t
    | write c => exact ih (t.write c)
    | _ => exact ih t

/-! ## The stretch of the line -/

section Stretch

variable {t : Tape} {l : Line}

theorem On.call (h : t.On l) (c : Call) : (t.call c).On (l.call c) := by
  cases c with
  | move d => exact h.move d
  | write c => exact h.write c
  | _ => exact h

/-- **A tape goes on to show a stretch of its line.** -/
theorem On.calls (h : t.On l) (cs : List Call) : (t.calls cs).On (l.calls cs) := by
  induction cs using List.reverseRecOn with
  | nil => exact h
  | append_singleton cs c ih =>
    rw [Tape.calls_concat, Line.calls_concat]
    exact ih.call c

theorem isLeast_first_call {seen : Set Int} (h : IsLeast seen (t.first l.head)) (hl : l.head ∈ seen)
    (c : Call) : IsLeast (insert (l.call c).head seen) ((t.call c).first (l.call c).head) := by
  cases c with
  | move d => exact isLeast_first_move h d
  | _ => exact (Set.insert_eq_of_mem hl).symm ▸ h

theorem isGreatest_last_call {seen : Set Int} (h : IsGreatest seen (t.last l.head))
    (hl : l.head ∈ seen) (c : Call) :
    IsGreatest (insert (l.call c).head seen) ((t.call c).last (l.call c).head) := by
  cases c with
  | move d => exact isGreatest_last_move h d
  | _ => exact (Set.insert_eq_of_mem hl).symm ▸ h

variable {present : Set Int}

/-- **The first cell of a tape** is at the least position that was there at the start or has been
visited. -/
theorem isLeast_first_calls (h : IsLeast present (t.first l.head)) (hl : l.head ∈ present)
    (cs : List Call) :
    IsLeast (present ∪ l.visited cs) ((t.calls cs).first (l.calls cs).head) := by
  induction cs using List.reverseRecOn with
  | nil =>
    rw [Line.visited_nil, Set.union_singleton, Set.insert_eq_of_mem hl]
    exact h
  | append_singleton cs c ih =>
    rw [Line.visited_concat, Set.union_insert, Tape.calls_concat, Line.calls_concat]
    exact isLeast_first_call ih (Set.mem_union_right _ (l.head_mem_visited cs)) c

/-- **The last cell of a tape** is at the greatest position that was there at the start or has been
visited. -/
theorem isGreatest_last_calls (h : IsGreatest present (t.last l.head)) (hl : l.head ∈ present)
    (cs : List Call) :
    IsGreatest (present ∪ l.visited cs) ((t.calls cs).last (l.calls cs).head) := by
  induction cs using List.reverseRecOn with
  | nil =>
    rw [Line.visited_nil, Set.union_singleton, Set.insert_eq_of_mem hl]
    exact h
  | append_singleton cs c ih =>
    rw [Line.visited_concat, Set.union_insert, Tape.calls_concat, Line.calls_concat]
    exact isGreatest_last_call ih (Set.mem_union_right _ (l.head_mem_visited cs)) c

end Stretch

/-- No call takes a cell away. -/
theorem length_cells_le_call (t : Tape) (c : Call) : t.cells.length ≤ (t.call c).cells.length := by
  cases c with
  | move d =>
    cases d with
    | left =>
      show t.cells.length ≤ t.moveLeft.cells.length
      rw [cells_moveLeft]
      split <;> simp
    | right =>
      show t.cells.length ≤ t.moveRight.cells.length
      rw [cells_moveRight]
      split <;> simp
  | write c =>
    show t.cells.length ≤ (t.write c).cells.length
    rw [cells_write, List.length_set]
  | _ => exact Nat.le_refl _

theorem length_cells_calls_mono (t : Tape) {before cs : List Call} (h : before <+: cs) :
    (t.calls before).cells.length ≤ (t.calls cs).cells.length := by
  induction cs using List.reverseRecOn with
  | nil =>
    rw [List.prefix_nil.mp h]
  | append_singleton cs c ih =>
    rcases List.prefix_concat_iff.mp h with rfl | hshort
    · exact Nat.le_refl _
    · rw [calls_concat]
      exact Nat.le_trans (ih hshort) (length_cells_le_call _ c)

end Tape

end SubseqMachines
