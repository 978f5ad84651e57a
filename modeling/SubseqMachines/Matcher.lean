import SubseqMachines.Machine.Device
import SubseqMachines.Machine.Requirement

/-!
# The matcher

A matcher takes the letters of the aux word one after the other and scans the block after the main
head for each. Both heads only go forward while it matches, so it finds the word letter by letter at
its first possible places. It then walks the aux head back to the blank in front of the word. It
accepts when the whole word was found, after it has skipped the rest of the block, and rejects when
the block ended first. Either way the main head ends on the cell that closes the block.

* `Matcher.refusal?` checks the tapes: the main head on the `#` in front of a block that is not
  empty, the aux head on the blank in front of a word that is not empty, and blanks around the word;
* `Matcher.next?` is the transition table;
* the instance `Device Matcher.State` has the bound on what is left of a run.
-/

namespace SubseqMachines.Matcher

/-! ## Tapes -/

/-- What a matcher asks of its tapes. -/
def requirements (t : Tapes) : List Requirement :=
  let blockEnd := t.main.wordEnd Cell.mainLetters
  let wordEnd := t.aux.wordEnd Cell.auxLetters
  [⟨t.main.focus = .hash, .noHash⟩, ⟨blockEnd ≠ t.main.head + 1, .noBlock⟩]
  ++ sentinel .matcher .aux t.aux ++
  [⟨wordEnd ≠ t.aux.head + 1, .noWord⟩,
    ⟨(t.aux.cells.drop wordEnd).all (· = .blank), .afterWord⟩]

/-- Why a matcher cannot start on the tapes, if it cannot. -/
def refusal? (t : Tapes) : Option Refusal :=
  firstUnmet (requirements t)

/-- What a matcher asks of its tapes, one demand after the other. -/
theorem refusal?_eq_none_iff_met {t : Tapes} :
    refusal? t = none ↔
      t.main.focus = .hash ∧ (t.main.right.headD .blank).isMainLetter = true ∧
        t.aux.focus = .blank ∧ t.aux.left.all (· = .blank) = true ∧
        (t.aux.right.headD .blank).isAuxLetter = true ∧
        (t.aux.right.dropWhile Cell.isAuxLetter).all (· = .blank) = true := by
  rw [refusal?, firstUnmet_eq_none_iff]
  simp only [requirements, sentinel, List.cons_append, List.nil_append, List.mem_cons,
    List.not_mem_nil, or_false, forall_eq_or_imp, forall_eq, decide_eq_true_eq,
    Tape.drop_wordEnd _ Cell.contains_auxLetters,
    Tape.wordEnd_ne_iff _ Cell.contains_mainLetters rfl,
    Tape.wordEnd_ne_iff _ Cell.contains_auxLetters rfl]

/-! ## Transitions -/

/-- The side whose head moves in a state. -/
def side : State → Side
  | .nextLetter | .rewindMatched | .rewindUnmatched => .aux
  | .seek _ | .drain | .accept | .reject => .main

/-- Where the head moves in a state. -/
def direction : State → Tape.Direction
  | .rewindMatched | .rewindUnmatched => .left
  | .nextLetter | .seek _ | .drain | .accept | .reject => .right

/-- The state after a cell is read, for the cells that a state covers. -/
def next? : State → Cell → Option State
  | .nextLetter, .aux l => some (.seek l)
  | .nextLetter, .blank => some .rewindMatched
  | .seek l, .main k => some (if k = l then .nextLetter else .seek l)
  | .seek _, .hash => some .rewindUnmatched
  | .seek _, .blank => some .rewindUnmatched
  | .rewindMatched, .aux _ => some .rewindMatched
  | .rewindMatched, .blank => some .drain
  | .rewindUnmatched, .aux _ => some .rewindUnmatched
  | .rewindUnmatched, .blank => some .reject
  | .drain, .main _ => some .drain
  | .drain, .hash => some .accept
  | .drain, .blank => some .accept
  | _, _ => none

/-- One transition: a head moves by a cell, and what it reads then decides. -/
def transition (s : State) (b : Bench) : Outcome State :=
  .afterRead .matcher (side s) s (b.move (side s) (direction s)) (.on (side s) 2) (next? s)

/-- A bound on the steps left: while matching, two for each cell that may still be visited and the
way back. -/
def remaining (s : State) (t : Tapes) : Nat :=
  match s with
  | .nextLetter | .seek _ =>
    2 * t.main.right.length + 2 * t.aux.right.length + t.aux.left.length + 4
  | .rewindMatched => t.main.right.length + t.aux.left.length + 2
  | .rewindUnmatched => t.aux.left.length + 1
  | .drain => t.main.right.length + 1
  | .accept | .reject => 0

theorem remaining_transition {s : State} {b : Bench} (hs : s.halted = false)
    (hf : (transition s b).fault = none) :
    remaining (transition s b).state (transition s b).bench.toTapes < remaining s b.toTapes := by
  obtain ⟨s', hnext, ho⟩ := Outcome.afterRead_of_fault_eq_none hf
  rw [transition, ho]
  clear hf ho
  obtain ⟨⟨⟨ml, mf, mr⟩, ⟨al, af, ar⟩⟩, coin⟩ := b
  cases s <;> simp only [side, direction, Bench.move, Tape.move, Tapes.on] at hnext ⊢
  case nextLetter =>
    rcases ar with _ | ⟨_ | _ | _ | _, ar⟩ <;> cases hnext <;>
      simp [remaining, Tape.moveRight] <;> omega
  case seek =>
    rcases mr with _ | ⟨_ | _ | _ | _, mr⟩ <;> cases hnext <;>
      grind [remaining, Tape.moveRight]
  case rewindMatched =>
    rcases al with _ | ⟨_ | _ | _ | _, al⟩ <;> cases hnext <;>
      grind [remaining, Tape.moveLeft]
  case rewindUnmatched =>
    rcases al with _ | ⟨_ | _ | _ | _, al⟩ <;> cases hnext <;> simp [remaining, Tape.moveLeft]
  case drain =>
    rcases mr with _ | ⟨_ | _ | _ | _, mr⟩ <;> cases hnext <;> simp [remaining, Tape.moveRight]
  all_goals simp [State.halted] at hs

instance : Device State where
  halted := State.halted
  event := .matcher
  transition := transition
  remaining := remaining
  remaining_transition := remaining_transition

/-! ## The main head goes forward -/

/-- While a matcher seeks, each step takes a cell off what is on the right of the main head. -/
theorem length_right_step_seek (l : Letter) (b : Bench) :
    (Device.step (State.seek l) b).bench.main.right.length = b.main.right.length - 1 := by
  simp [Device.step, Device.transition, transition, side, direction, Bench.move, Tape.move]

theorem length_right_transition_le (s : State) (b : Bench) :
    (transition s b).bench.main.right.length ≤ b.main.right.length := by
  cases s <;> simp [transition, side, direction, Bench.move, Tape.move]

/-- No run adds to what is on the right of the main head. -/
theorem length_right_run_le (s : State) (b : Bench) :
    (Device.run s b).bench.main.right.length ≤ b.main.right.length :=
  Device.run_bench_induction (P := fun c => c.main.right.length ≤ b.main.right.length)
    (fun s c h => Nat.le_trans (length_right_transition_le s c) h) s (Nat.le_refl _)

/-- A run on tapes that are in order moves the main head into the block. -/
theorem length_right_run_lt {b : Bench} (h : refusal? b.toTapes = none) :
    (Device.run State.nextLetter b).bench.main.right.length < b.main.right.length := by
  obtain ⟨⟨main, ⟨al, af, ar⟩⟩, coin⟩ := b
  -- a letter follows the main head, and a letter follows the aux head
  obtain ⟨-, hmain, -, -, haux, -⟩ := refusal?_eq_none_iff_met.mp h
  obtain ⟨k, hk⟩ := Cell.isMainLetter_iff.mp hmain
  obtain ⟨l, hl⟩ := Cell.isAuxLetter_iff.mp haux
  have hright : main.right ≠ [] := by rintro h; simp [h] at hk
  obtain ⟨c, ar, rfl⟩ := List.exists_cons_of_ne_nil (l := ar) (by rintro rfl; simp at hl)
  obtain rfl : c = .aux l := hl
  -- the first step reads that letter and leaves the main tape alone
  rw [Device.run_of_step rfl rfl]
  show (Device.run (State.seek l) _).bench.main.right.length < main.right.length
  have hpos := List.length_pos_iff.mpr hright
  generalize hb : (Device.step State.nextLetter _).bench = b
  have hmain : b.main = main := by rw [← hb]; rfl
  -- the second step takes a cell, and what follows adds none
  have hseek := length_right_step_seek l b
  rw [hmain] at hseek
  by_cases hf : (Device.step (State.seek l) b).fault = none
  · rw [Device.run_of_step rfl hf]
    have := length_right_run_le (Device.step (State.seek l) b).state
      (Device.step (State.seek l) b).bench
    simp only [Outcome.followedBy]
    omega
  · rw [Device.run_of_fault rfl hf]
    omega

end SubseqMachines.Matcher
