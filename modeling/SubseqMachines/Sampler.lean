import SubseqMachines.Machine.Device
import SubseqMachines.Machine.Requirement

/-!
# The sampler

A sampler steps through the block after the main head. For each letter that it finds there it steps
the aux head right and writes the letter that a coin flip gives. At the end of the block it walks
the aux head back to the blank in front of the new word. It always accepts.

* `Sampler.refusal?` checks the tapes: the main head on the blank in front of a block that is not
  empty and is closed by `#` or a blank, and a blank aux tape;
* `Sampler.transition` is one transition;
* the instance `Device Sampler.State` has the bound on what is left of a run.
-/

namespace SubseqMachines.Sampler

/-! ## Tapes -/

/-- What a sampler asks of its tapes. -/
def requirements (t : Tapes) : List Requirement :=
  let wordEnd := t.main.wordEnd Cell.mainLetters
  sentinel .sampler .main t.main ++
  [⟨wordEnd ≠ t.main.head + 1, .nothingToSample⟩,
    ⟨(t.main.cells.getD wordEnd .blank).isBlockEnd, .openSample⟩]
  ++ blankTape .sampler .aux t.aux

/-- Why a sampler cannot start on the tapes, if it cannot. -/
def refusal? (t : Tapes) : Option Refusal :=
  firstUnmet (requirements t)

/-- What a sampler asks of its tapes, one demand after the other. -/
theorem refusal?_eq_none_iff_met {t : Tapes} :
    refusal? t = none ↔
      t.main.focus = .blank ∧ t.main.left.all (· = .blank) = true ∧
        (t.main.right.headD .blank).isMainLetter = true ∧
        ((t.main.right.dropWhile Cell.isMainLetter).headD .blank).isBlockEnd = true ∧
        t.aux.cells.all (· = .blank) = true := by
  rw [refusal?, firstUnmet_eq_none_iff]
  simp only [requirements, sentinel, blankTape, List.cons_append, List.nil_append, List.mem_cons,
    List.not_mem_nil, or_false, forall_eq_or_imp, forall_eq, decide_eq_true_eq,
    Tape.getD_wordEnd _ Cell.contains_mainLetters,
    Tape.wordEnd_ne_iff _ Cell.contains_mainLetters rfl]

/-! ## Transitions -/

/-- The state after a main cell is read. -/
def afterScan : Cell → Option State
  | .main _ => some .extend
  | .hash => some .rewind
  | .blank => some .rewind
  | .aux _ => none

/-- The state after an aux cell is read on the way back. -/
def afterRewind : Cell → Option State
  | .aux _ => some .rewind
  | .blank => some .accept
  | _ => none

/-- One more cell of the word: the aux head steps right, the coin is flipped, and the letter is
written. Without a flip the head has moved and nothing is written. -/
def extend (b : Bench) : Outcome State :=
  match b.coin.flip with
  | .error f =>
    { state := .extend, bench := b.move .aux .right, cost := .on .aux 1, fault := some f }
  | .ok (heads, coin) =>
    { state := .scan
      bench := { b with aux := b.aux.moveRight.write (.aux (.ofFlip heads)), coin }
      cost := .on .aux 2 }

/-- One transition. -/
def transition (s : State) (b : Bench) : Outcome State :=
  match s with
  | .scan => .afterRead .sampler .main s (b.move .main .right) (.on .main 2) afterScan
  | .extend => extend b
  | .rewind => .afterRead .sampler .aux s (b.move .aux .left) (.on .aux 2) afterRewind
  | .accept => .still .accept b

/-- A bound on the steps left: three for each main cell that may still be visited, and the way
back. -/
def remaining (s : State) (t : Tapes) : Nat :=
  match s with
  | .scan => 3 * t.main.right.length + t.aux.left.length + 2
  | .extend => 3 * t.main.right.length + t.aux.left.length + 4
  | .rewind => t.aux.left.length + 1
  | .accept => 0

theorem remaining_transition {s : State} {b : Bench} (hs : s.halted = false)
    (hf : (transition s b).fault = none) :
    remaining (transition s b).state (transition s b).bench.toTapes < remaining s b.toTapes := by
  cases s with
  | scan =>
    obtain ⟨s', hnext, ho⟩ := Outcome.afterRead_of_fault_eq_none hf
    rw [transition, ho]
    obtain ⟨⟨⟨ml, mf, mr⟩, aux⟩, coin⟩ := b
    rcases mr with _ | ⟨_ | _ | _ | _, mr⟩ <;> cases hnext <;>
      simp [remaining, Bench.move, Tape.move, Tape.moveRight]
    -- a cell of the main tape is used up, unless there was none
    all_goals omega
  | extend =>
    unfold transition extend at *
    cases hflip : b.coin.flip with
    | error f => simp [hflip] at hf
    | ok r => simp [remaining, Tape.write]; omega
  | rewind =>
    obtain ⟨s', hnext, ho⟩ := Outcome.afterRead_of_fault_eq_none hf
    rw [transition, ho]
    obtain ⟨⟨main, ⟨al, af, ar⟩⟩, coin⟩ := b
    rcases al with _ | ⟨_ | _ | _ | _, al⟩ <;> cases hnext <;>
      simp [remaining, Bench.move, Tape.move, Tape.moveLeft]
  | accept => simp [State.halted] at hs

instance : Device State where
  halted := State.halted
  event := .sampler
  transition := transition
  remaining := remaining
  remaining_transition := remaining_transition

/-! ## The main head goes forward -/

theorem length_right_transition_le (s : State) (b : Bench) :
    (transition s b).bench.main.right.length ≤ b.main.right.length := by
  cases s with
  | extend =>
    show (extend b).bench.main.right.length ≤ _
    unfold extend
    split <;> exact Nat.le_refl _
  | _ => simp [transition, Bench.move, Tape.move, Outcome.still]

/-- No run adds to what is on the right of the main head. -/
theorem length_right_run_le (s : State) (b : Bench) :
    (Device.run s b).bench.main.right.length ≤ b.main.right.length :=
  Device.run_bench_induction (P := fun c => c.main.right.length ≤ b.main.right.length)
    (fun s c h => Nat.le_trans (length_right_transition_le s c) h) s (Nat.le_refl _)

end SubseqMachines.Sampler
