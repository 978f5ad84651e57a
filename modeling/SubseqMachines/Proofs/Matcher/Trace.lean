import SubseqMachines.Proofs.Machine.Trace
import SubseqMachines.Proofs.Matcher.Layout

/-!
# The states that a matcher passes through

Which states a matcher passes through depends on its block and its word only, and not on what else
is on its tapes.

* `Matcher.itinerary`: the states from a letter of the word on to the final one.
* `Matcher.trace_run_drain`, `Matcher.trace_run_rewindMatched`, `Matcher.trace_run_rewindUnmatched`,
  `Matcher.trace_run_seek`, `Matcher.trace_run_nextLetter`: what a run reports from a state on.
* `Matcher.trace_run_of_laid`: a run reports the itinerary.
-/

namespace SubseqMachines.Matcher

/-! ## Itineraries -/

/-- The states of a matcher that seeks a letter in a block, in order: `found` are those behind the
first place of the letter, and `missed` those after a block without it. -/
def seeking (l : Letter) (found : List Letter → List State) (missed : List State) :
    List Letter → List State
  | [] => .seek l :: missed
  | k :: block => .seek l :: if k = l then found block else seeking l found missed block

/-- The states of a matcher that takes the rest of a word and a block, in order, when `n` letters of
the word have been found. -/
def itinerary : List Letter → Nat → List Letter → List State
  | [], n, block =>
    .nextLetter :: (List.replicate (n + 1) .rewindMatched ++
      (List.replicate (block.length + 1) .drain ++ [.accept]))
  | l :: word, n, block =>
    .nextLetter :: seeking l (itinerary word (n + 1))
      (List.replicate (n + 1) .rewindUnmatched ++ [.reject]) block

/-! ## Runs from a state on -/

section Run

variable {b : Bench} {block found : List Letter} {rest cells : List Cell}

/-- What a run reports from a state on whose next cell is covered. -/
theorem trace_run_of_next {s q : State} (hs : s.halted = false)
    (hnext : next? s ((b.move (side s) (direction s)).on (side s)).focus = some q) :
    (Device.run s b).trace = .matcher s ::
      if q.halted then [.matcher q] else
        (Device.run q (b.move (side s) (direction s))).trace :=
  Device.trace_run_of_transition (s := s) hs (Outcome.afterRead_of_some hnext)

/-- The cell that the main head comes to. -/
theorem focus_move_main (b : Bench) :
    ((b.move .main .right).on .main).focus = b.main.right.headD .blank :=
  Tape.focus_moveRight b.main

theorem next?_drain_of_closed (hclosed : (rest.headD .blank).isBlockEnd = true) :
    next? .drain (rest.headD .blank) = some .accept := by
  cases hc : rest.headD .blank <;> simp_all [Cell.isBlockEnd, next?]

theorem next?_seek_of_closed (l : Letter) (hclosed : (rest.headD .blank).isBlockEnd = true) :
    next? (.seek l) (rest.headD .blank) = some .rewindUnmatched := by
  cases hc : rest.headD .blank <;> simp_all [Cell.isBlockEnd, next?]

/-- The rest of the block is passed over. -/
theorem trace_run_drain (hmain : b.main.right = block.map .main ++ rest)
    (hclosed : (rest.headD .blank).isBlockEnd = true) :
    (Device.run State.drain b).trace =
      (List.replicate (block.length + 1) State.drain ++ [State.accept]).map .matcher := by
  have hfocus := focus_move_main b
  -- on what is left of the block
  induction block generalizing b with
  | nil =>
    rw [hmain] at hfocus
    exact trace_run_of_next (s := .drain) rfl (hfocus ▸ next?_drain_of_closed hclosed)
  | cons k block ih =>
    rw [hmain] at hfocus
    have hstep := trace_run_of_next (s := .drain) (q := .drain) (b := b) rfl (hfocus ▸ rfl)
    have hright : (b.move .main .right).main.right = block.map .main ++ rest := by
      show b.main.moveRight.right = _
      rw [Tape.right_moveRight, hmain]
      rfl
    exact hstep.trans (congrArg (Event.matcher .drain :: ·) (ih hright (focus_move_main _)))

/-- The way back over the letters that the aux head has passed, in either of the two states for
it. -/
theorem trace_run_back {s q : State} {after : List State} (hs : s.halted = false)
    (hside : side s = .aux) (hdirection : direction s = .left)
    (hletter : ∀ l, next? s (.aux l) = some s) (hblank : next? s .blank = some q)
    (hafter : ∀ c : Bench, c.main = b.main →
      (if q.halted then [.matcher q] else (Device.run q c).trace) = after.map .matcher)
    (hleft : b.aux.left = found.map .aux ++ .blank :: cells) :
    (Device.run s b).trace = (List.replicate (found.length + 1) s ++ after).map .matcher := by
  let c := b.move .aux .left
  have hmove : b.move (side s) (direction s) = c := by rw [hside, hdirection]
  have hfocus : (c.on (side s)).focus = b.aux.left.headD .blank := by
    rw [hside]
    exact Tape.focus_moveLeft b.aux
  -- on the letters between the aux head and the blank in front of the word
  induction found generalizing b with
  | nil =>
    have hnext : next? s ((b.move (side s) (direction s)).on (side s)).focus = some q := by
      rw [hmove, hfocus, hleft]
      exact hblank
    have hstep := trace_run_of_next hs hnext
    rw [hmove, hafter c rfl] at hstep
    exact hstep
  | cons l found ih =>
    have hnext : next? s ((b.move (side s) (direction s)).on (side s)).focus = some s := by
      rw [hmove, hfocus, hleft]
      exact hletter l
    have hback : c.aux.left = found.map .aux ++ .blank :: cells := by
      show b.aux.moveLeft.left = _
      rw [Tape.left_moveLeft, hleft]
      rfl
    have hstep := trace_run_of_next hs hnext
    rw [hmove, hs] at hstep
    have hrest := ih (b := c) hafter hback (by rw [hside, hdirection])
      (by rw [hside]; exact Tape.focus_moveLeft c.aux)
    exact hstep.trans (congrArg (Event.matcher s :: ·) hrest)

/-- The whole word has been found. -/
theorem trace_run_rewindMatched (hmain : b.main.right = block.map .main ++ rest)
    (hclosed : (rest.headD .blank).isBlockEnd = true)
    (hleft : b.aux.left = found.map .aux ++ .blank :: cells) :
    (Device.run State.rewindMatched b).trace =
      (List.replicate (found.length + 1) State.rewindMatched ++
        (List.replicate (block.length + 1) State.drain ++ [State.accept])).map .matcher := by
  refine trace_run_back (q := .drain) rfl rfl rfl (fun _ => rfl) rfl ?_ hleft
  intro c hc
  exact trace_run_drain (hc ▸ hmain) hclosed

/-- The block has ended before a letter was found. -/
theorem trace_run_rewindUnmatched (hleft : b.aux.left = found.map .aux ++ .blank :: cells) :
    (Device.run State.rewindUnmatched b).trace =
      (List.replicate (found.length + 1) State.rewindUnmatched ++ [State.reject]).map .matcher :=
  trace_run_back (q := .reject) rfl rfl rfl (fun _ => rfl) rfl (fun _ _ => rfl) hleft

/-- A letter is sought. What follows when it is found is told by `next`. -/
theorem trace_run_seek {l : Letter} {next : List Letter → List State}
    (hnext : ∀ (c : Bench) (block : List Letter), c.aux = b.aux →
      c.main.right = block.map .main ++ rest →
        (Device.run State.nextLetter c).trace = (next block).map .matcher)
    (hmain : b.main.right = block.map .main ++ rest)
    (hclosed : (rest.headD .blank).isBlockEnd = true)
    (hleft : b.aux.left = found.map .aux ++ .blank :: cells) :
    (Device.run (State.seek l) b).trace =
      (seeking l next (List.replicate (found.length + 1) .rewindUnmatched ++ [.reject]) block).map
        .matcher := by
  have hfocus := focus_move_main b
  induction block generalizing b with
  | nil =>
    rw [hmain] at hfocus
    have hstep := trace_run_of_next (s := .seek l) (b := b) rfl
      (hfocus ▸ next?_seek_of_closed l hclosed)
    exact hstep.trans (congrArg (Event.matcher (.seek l) :: ·)
      (trace_run_rewindUnmatched (b := b.move .main .right) hleft))
  | cons k block ih =>
    rw [hmain] at hfocus
    let c := b.move .main .right
    have hright : c.main.right = block.map .main ++ rest := by
      show b.main.moveRight.right = _
      rw [Tape.right_moveRight, hmain]
      rfl
    have hstep := trace_run_of_next (s := .seek l) (b := b)
      (q := if k = l then .nextLetter else .seek l) rfl (hfocus ▸ rfl)
    refine hstep.trans (congrArg (Event.matcher (.seek l) :: ·) ?_)
    by_cases hkl : k = l
    · -- the letter is found, and the aux head has not moved meanwhile
      rw [if_pos hkl, if_pos hkl]
      exact hnext c block rfl hright
    · rw [if_neg hkl, if_neg hkl]
      exact ih (b := c) hnext hright hleft (focus_move_main c)

/-- A letter of the word is taken, or the word has ended. -/
theorem trace_run_nextLetter {word : List Letter} {n : Nat}
    (hmain : b.main.right = block.map .main ++ rest)
    (hclosed : (rest.headD .blank).isBlockEnd = true)
    (hright : b.aux.right = word.map .aux ++ List.replicate n .blank)
    (hbehind : b.aux.focus :: b.aux.left = found.map .aux ++ .blank :: cells) :
    (Device.run State.nextLetter b).trace =
      (itinerary word found.length block).map .matcher := by
  -- on the letters that are still to be found; those that are found are behind the aux head
  induction word generalizing b found block with
  | nil =>
    -- the word has ended, and the whole block is passed over on the way to the verdict
    let c := b.move .aux .right
    have hfocus : (c.on .aux).focus = .blank := by
      refine (Tape.focus_moveRight b.aux).trans ?_
      rw [hright]
      exact headD_replicate_blank n
    have hstep := trace_run_of_next (s := .nextLetter) (b := b) (q := .rewindMatched) rfl
      (hfocus ▸ rfl)
    have hleft : c.aux.left = found.map .aux ++ .blank :: cells :=
      (Tape.left_moveRight b.aux).trans hbehind
    exact hstep.trans (congrArg (Event.matcher .nextLetter :: ·)
      (trace_run_rewindMatched (b := c) hmain hclosed hleft))
  | cons l word ih =>
    let c := b.move .aux .right
    have hfocus : (c.on .aux).focus = .aux l := by
      refine (Tape.focus_moveRight b.aux).trans ?_
      rw [hright]
      rfl
    have hstep := trace_run_of_next (s := .nextLetter) (b := b) (q := .seek l) rfl (hfocus ▸ rfl)
    have hleft : c.aux.left = found.map .aux ++ .blank :: cells :=
      (Tape.left_moveRight b.aux).trans hbehind
    refine hstep.trans (congrArg (Event.matcher .nextLetter :: ·) ?_)
    refine trace_run_seek (b := c) ?_ hmain hclosed hleft
    -- once the letter is found, the rest of the word is taken
    intro d block hd hdmain
    have hdbehind : d.aux.focus :: d.aux.left = (l :: found).map .aux ++ .blank :: cells := by
      rw [hd, hleft]
      exact congrArg (· :: _) hfocus
    refine ih hdmain ?_ hdbehind
    rw [hd]
    show b.aux.moveRight.right = _
    rw [Tape.right_moveRight, hright]
    rfl

/-- **What a matcher reports.** On tapes laid out for it, with a block that is closed, it passes
through the states of the itinerary of its word and its block. -/
theorem trace_run_of_laid {word : List Letter} (h : Laid b.toTapes block word rest)
    (hclosed : (rest.headD .blank).isBlockEnd = true) :
    (Device.run State.nextLetter b).trace = (itinerary word 0 block).map .matcher := by
  obtain ⟨m, hleft⟩ := h.aux_left
  obtain ⟨n, hright⟩ := h.aux_right
  have hbehind : b.aux.focus :: b.aux.left = ([] : List Letter).map .aux ++
      .blank :: List.replicate m .blank := by
    rw [h.aux_focus, hleft]
    rfl
  exact trace_run_nextLetter h.main_right hclosed hright hbehind

end Run

end SubseqMachines.Matcher
