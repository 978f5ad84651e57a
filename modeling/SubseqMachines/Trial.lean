import SubseqMachines.Matcher
import SubseqMachines.Sampler
import SubseqMachines.Tape.Notation

/-!
# The trial

A trial makes one attempt to find a word as long as the first block of the main tape that is a
subsequence of every later block. A sampler draws the word, the witness, on the first block. Then,
as long as the main head is on a `#`, a matcher tests the witness against the next block, and the
trial rejects when one does not contain it. When the head is on a blank instead, all blocks have
been verified and the trial accepts. A rejection may be the fault of an unlucky draw.

The sampler and the matchers each run to their end within one step of the trial. One that fails
leaves the trial's tapes as they were before it started; the flips it drew and the operations it
made are spent. The tapes of a sampler that succeeds are taken over first and looked at then.

* `Trial.refusal?` checks the tapes: the main head on the blank in front of blocks that are not
  empty, separated by `#`, with only blanks around them, and a blank aux tape;
* `Trial.transition` is one transition;
* the instance `Device Trial.State` has the bound on what is left of a run.
-/

namespace SubseqMachines.Trial

/-! ## Tapes -/

/-- What follows the last of the blocks that a list of cells starts with, unless a block is empty.
The flag says whether the first block has begun already. -/
def afterBlocks? : Bool → List Cell → Option (List Cell)
  | _, .main _ :: cells => afterBlocks? true cells
  | true, .hash :: cells => afterBlocks? false cells
  | true, cells => some cells
  | false, _ => none

/-- What a trial asks of its tapes. -/
def requirements (t : Tapes) : List Requirement :=
  let rest := afterBlocks? false t.main.right
  sentinel .trial .main t.main ++
  [⟨rest.isSome, .emptyBlock⟩, ⟨(rest.getD []).all (· = .blank), .afterBlocks⟩]
  ++ blankTape .trial .aux t.aux

/-- Why a trial cannot start on the tapes, if it cannot. -/
def refusal? (t : Tapes) : Option Refusal :=
  firstUnmet (requirements t)

/-- What a trial asks of its tapes, one demand after the other. -/
theorem refusal?_eq_none_iff_met {t : Tapes} :
    refusal? t = none ↔
      t.main.focus = .blank ∧ t.main.left.all (· = .blank) = true ∧
        (afterBlocks? false t.main.right).isSome = true ∧
        ((afterBlocks? false t.main.right).getD []).all (· = .blank) = true ∧
        t.aux.cells.all (· = .blank) = true := by
  rw [refusal?, firstUnmet_eq_none_iff]
  simp only [requirements, sentinel, blankTape, List.cons_append, List.nil_append, List.mem_cons,
    List.not_mem_nil, or_false, forall_eq_or_imp, forall_eq, decide_eq_true_eq]

/-! ## Transitions -/

/-- A child machine that cannot be made: nothing is done. -/
def refused (s : State) (b : Bench) (r : Refusal) : Outcome State :=
  { state := s, bench := b, fault := some (.refusal r) }

/-- A child's run as one step. If it fails the tapes stay, if not they are the child's. They are
taken over before they are looked at, and may then turn out to be such as no child must leave. -/
def adopt {σ : Type} (s : State) (b : Bench) (child : Outcome σ)
    (next : σ → Tapes → Except Breakdown State) : Outcome State :=
  match child.fault with
  | some f =>
    { state := s, bench := { b with coin := child.bench.coin }, cost := child.cost
      trace := child.trace, fault := some f }
  | none =>
    match next child.state child.bench.toTapes with
    | .error f =>
      { state := s, bench := child.bench, cost := child.cost, trace := child.trace
        fault := some (.breakdown f) }
    | .ok s => { state := s, bench := child.bench, cost := child.cost, trace := child.trace }

/-- A child's run that does not fail is taken over. -/
theorem adopt_of_fault_eq_none {σ : Type} {s : State} {b : Bench} {child : Outcome σ}
    {next : σ → Tapes → Except Breakdown State} (h : (adopt s b child next).fault = none) :
    next child.state child.bench.toTapes = .ok (adopt s b child next).state ∧
      (adopt s b child next).bench = child.bench := by
  unfold adopt at h ⊢
  split at h
  · simp at h
  · split at h <;> simp_all

/-- The witness on the tapes that a sampler has left. The aux head has to be on the blank in front of
it, and it must not be empty. -/
def drawnFrom (t : Tapes) : Except Breakdown State :=
  if t.aux.focus ≠ .blank then .error .strayedHead
  else if t.aux.decodeWord.isEmpty then .error .emptyWitness
  else .ok (.drawn .boundary t.aux.decodeWord 0)

theorem drawnFrom_eq_ok_iff {t : Tapes} {s : State} :
    drawnFrom t = .ok s ↔ t.aux.focus = .blank ∧ t.aux.decodeWord ≠ "" ∧
      s = .drawn .boundary t.aux.decodeWord 0 := by
  unfold drawnFrom
  by_cases hfocus : t.aux.focus = .blank
  · by_cases hword : t.aux.decodeWord = ""
    · simp [hfocus, hword]
    · simp only [hfocus, hword, ne_eq, not_true_eq_false, if_false, String.isEmpty_iff,
        Except.ok.injEq, not_false_eq_true, true_and]
      exact eq_comm
  · simp [hfocus]

/-- The witness is drawn by a sampler. -/
def draw (b : Bench) : Outcome State :=
  match Sampler.refusal? b.toTapes with
  | some r => refused .drawing b r
  | none =>
    let o := adopt .drawing b (Device.run Sampler.State.scan b) fun _ => drawnFrom
    { o with trace := o.trace ++ (o.state.witness?.map Event.witness).toList }

/-- The stage after the main cell between two blocks is read. -/
def afterBoundary? : Cell → Option Stage
  | .hash => some .verify
  | .blank => some .accept
  | _ => none

/-- The main cell between two blocks is read, without a step of the head. -/
def look (witness : String) (verified : Nat) (b : Bench) : Outcome State :=
  match afterBoundary? b.main.focus with
  | some stage => { state := .drawn stage witness verified, bench := b, cost := .on .main 1 }
  | none =>
    { state := .drawn .boundary witness verified, bench := b, cost := .on .main 1
      fault := some (.breakdown (.noBoundary b.main.focus)) }

/-- The witness is tested against the next block by a matcher. -/
def test (witness : String) (verified : Nat) (b : Bench) : Outcome State :=
  match Matcher.refusal? b.toTapes with
  | some r => refused (.drawn .verify witness verified) b r
  | none =>
    adopt (.drawn .verify witness verified) b (Device.run Matcher.State.nextLetter b) fun s _ =>
      .ok (.drawn (if s = .accept then .boundary else .reject) witness (verified + 1))

/-- One transition. -/
def transition (s : State) (b : Bench) : Outcome State :=
  match s with
  | .drawing => draw b
  | .drawn .boundary witness verified => look witness verified b
  | .drawn .verify witness verified => test witness verified b
  | .drawn _ _ _ => .still s b

/-- A bound on the steps left: two for each main cell on the right of the head. -/
def remaining (s : State) (t : Tapes) : Nat :=
  match s with
  | .drawing => 2 * t.main.right.length + 2
  | .drawn .boundary _ _ => 2 * t.main.right.length + 1
  | .drawn .verify _ _ => 2 * t.main.right.length
  | .drawn _ _ _ => 0

theorem remaining_transition {s : State} {b : Bench} (hs : s.halted = false)
    (hf : (transition s b).fault = none) :
    remaining (transition s b).state (transition s b).bench.toTapes < remaining s b.toTapes := by
  match s with
  -- the sampler's run adds nothing on the right of the main head
  | .drawing =>
    simp only [transition, draw] at hf ⊢
    split at hf
    · simp [refused] at hf
    · have hle := Sampler.length_right_run_le .scan b
      obtain ⟨hstate, hbench⟩ := adopt_of_fault_eq_none hf
      obtain ⟨-, -, hstate⟩ := drawnFrom_eq_ok_iff.mp hstate
      simp only [hstate, hbench, remaining]
      omega
  | .drawn .boundary w n =>
    simp only [transition, look] at hf ⊢
    cases hc : b.main.focus <;> simp [hc, afterBoundary?, remaining] at hf ⊢
  -- the matcher's run takes at least one cell
  | .drawn .verify w n =>
    simp only [transition, test] at hf ⊢
    split at hf
    · simp [refused] at hf
    · rename_i hr
      have hlt := Matcher.length_right_run_lt hr
      obtain ⟨hstate, hbench⟩ := adopt_of_fault_eq_none hf
      simp only [← Except.ok.inj hstate, hbench]
      split <;> simp only [remaining] <;> omega
  | .drawn .accept w n => simp [State.halted] at hs
  | .drawn .reject w n => simp [State.halted] at hs

instance : Device State where
  halted := State.halted
  event s := .trial s.phase
  transition := transition
  remaining := remaining
  remaining_transition := remaining_transition

end SubseqMachines.Trial
