import SubseqMachines.Proofs.Machine.Run
import SubseqMachines.Proofs.Matcher.Layout
import SubseqMachines.Proofs.Subsequence.Prefix
import SubseqMachines.Proofs.Tape.Walk

/-!
# How a matcher works through a block

A matcher on tapes laid out for it keeps one relation between its state and its two heads, from
its first step to its last: how far the heads have gone says which prefix of the word is a
subsequence of which prefix of the block. The number of steps and their cost are part of the
relation, so that the verdict, the cost and the final tapes of a run all come from it.

* `Matcher.Known`: what the places of the heads say in each state.
* `Matcher.Inv`: the relation for an outcome so far.
* `Matcher.Blocked`: the step after an outcome fails at the end of a block that is not closed.
* `Matcher.inv_step_or_fault`: a step succeeds and keeps the relation, or fails there.
* `Matcher.run_of_laid`: where a run on a block that is closed ends, what it costs and what tapes it
  leaves, whatever the cells behind the main head and behind the closing cell are.
* `Matcher.fault_run_of_laid`: how a run can fail.
-/

namespace SubseqMachines.Matcher

/-! ## Where the heads are -/

/-- A bench with the aux head `i` cells and the main head `j` cells on the right of where they are
on `b`, and with at least `reach` cells ahead of where the aux head started. -/
def spot (b : Bench) (reach i j : Nat) : Bench where
  main := Tape.moveRight^[j] b.main
  aux := Tape.moveRight^[i] (b.aux.grownTo reach)
  coin := b.coin

section Heads

variable {b : Bench} {block word : List Letter} {rest : List Cell}

theorem spot_start (b : Bench) : spot b 0 0 0 = b := by
  rw [spot, Tape.grownTo_eq_self (Nat.zero_le _)]
  rfl

theorem spot_move_main (b : Bench) (reach i j : Nat) :
    (spot b reach i j).move .main .right = spot b reach i (j + 1) := by
  simp [spot, Bench.move, Tape.move, Function.iterate_succ_apply']

theorem spot_move_aux (b : Bench) (reach i j : Nat) :
    (spot b reach i j).move .aux .right = spot b reach (i + 1) j := by
  simp [spot, Bench.move, Tape.move, Function.iterate_succ_apply']

theorem spot_move_back {b : Bench} {reach i : Nat} (j : Nat)
    (h : i < (b.aux.grownTo reach).right.length) :
    (spot b reach (i + 1) j).move .aux .left = spot b reach i j := by
  simp only [spot, Bench.move, Tape.move, Tape.moveLeft_iterate_moveRight h]

/-- A walk that leaves the aux cells behind is one on a tape that has a blank more. -/
theorem spot_reach (b : Bench) (reach j : Nat) : spot b 0 reach j = spot b reach reach j := by
  rw [spot, spot, Tape.grownTo_eq_self (Nat.zero_le _), Tape.iterate_moveRight_grownTo]

/-! ## What the heads see -/

theorem main_focus_spot {reach i j : Nat} {l : Letter} (h : Laid b.toTapes block word rest)
    (hj : block[j]? = some l) : (spot b reach i (j + 1)).main.focus = .main l :=
  Tape.focus_on_letter h.main_right hj

theorem main_focus_spot_end {reach i : Nat} (h : Laid b.toTapes block word rest) :
    (spot b reach i (block.length + 1)).main.focus = rest.headD .blank :=
  Tape.focus_after_letters h.main_right

theorem aux_focus_spot {reach i j : Nat} {l : Letter} (h : Laid b.toTapes block word rest)
    (hi : word[i]? = some l) : (spot b reach (i + 1) j).aux.focus = .aux l := by
  obtain ⟨n, haux⟩ := h.aux_right
  obtain ⟨k, hgrown⟩ := Tape.right_grownTo_of_blanks haux reach
  exact Tape.focus_on_letter hgrown hi

theorem aux_focus_spot_end {reach j : Nat} (h : Laid b.toTapes block word rest) :
    (spot b reach (word.length + 1) j).aux.focus = .blank := by
  obtain ⟨n, haux⟩ := h.aux_right
  obtain ⟨k, hgrown⟩ := Tape.right_grownTo_of_blanks haux reach
  exact (Tape.focus_after_letters hgrown).trans (headD_replicate_blank k)

theorem aux_focus_spot_start {reach j : Nat} (h : Laid b.toTapes block word rest) :
    (spot b reach 0 j).aux.focus = .blank :=
  h.aux_focus

end Heads

/-! ## The relation -/

/-- What is known in a state, after `moves` moves of the aux head, with the aux head `i` cells and
the main head `j` cells on the right of where they started. -/
def Known (block word : List Letter) (reach i j moves : Nat) : State → Prop
  -- `j` cells of the block are as few as have the first `i` letters of the word
  | .nextLetter =>
    reach = 0 ∧ moves = i ∧ i ≤ word.length ∧ j ≤ block.length ∧
      IsLeast {p | (word.take i).Sublist (block.take p)} j
  -- all letters before the one that is looked for have been found, and it has not
  | .seek l =>
    reach = 0 ∧ moves = i ∧ j ≤ block.length ∧ ∃ k, i = k + 1 ∧ word[k]? = some l ∧
      (word.take k).Sublist (block.take j) ∧ ¬ (word.take (k + 1)).Sublist (block.take j)
  | .rewindMatched =>
    reach = word.length + 1 ∧ moves + i = 2 * (word.length + 1) ∧ 1 ≤ i ∧ i ≤ word.length + 1 ∧
      j ≤ block.length ∧ word.Sublist (block.take j)
  | .drain =>
    reach = word.length + 1 ∧ moves = 2 * (word.length + 1) ∧ i = 0 ∧
      j ≤ block.length ∧ word.Sublist (block.take j)
  | .rewindUnmatched =>
    reach = 0 ∧ moves + i = 2 * (matched word block + 1) ∧ 1 ≤ i ∧ i ≤ matched word block + 1 ∧
      j = block.length + 1 ∧ ¬ word.Sublist block
  | .accept =>
    reach = word.length + 1 ∧ moves = 2 * (word.length + 1) ∧ i = 0 ∧
      j = block.length + 1 ∧ word.Sublist block
  | .reject =>
    reach = 0 ∧ moves = 2 * (matched word block + 1) ∧ i = 0 ∧
      j = block.length + 1 ∧ ¬ word.Sublist block

/-- The relation that a matcher keeps which started on the bench `b`. -/
def Inv (b : Bench) (block word : List Letter) (o : Outcome State) : Prop :=
  ∃ reach i j moves, o.bench = spot b reach i j ∧ o.ticks = moves + j ∧
    o.cost = ⟨2 * j, 2 * moves⟩ ∧ Known block word reach i j moves o.state

/-! ## One step -/

section Step

variable {b : Bench} {block word : List Letter} {rest : List Cell} {reach i j moves : Nat}

theorem known_nextLetter (h : Laid b.toTapes block word rest)
    (hk : Known block word reach i j moves .nextLetter) :
    ∃ s' reach', next? .nextLetter (spot b reach (i + 1) j).aux.focus = some s' ∧
      spot b reach (i + 1) j = spot b reach' (i + 1) j ∧
      Known block word reach' (i + 1) j (moves + 1) s' := by
  obtain ⟨rfl, rfl, hi, hj, hleast⟩ := hk
  rcases Nat.lt_or_eq_of_le hi with hlt | rfl
  · -- another letter of the word: the prefix that has those before it cannot have it as well
    have hl : word[moves]? = some word[moves] := List.getElem?_eq_getElem hlt
    refine ⟨.seek word[moves], 0, by rw [aux_focus_spot h hl]; rfl, rfl, rfl, rfl, hj, moves, rfl,
      hl, hleast.1, ?_⟩
    rw [List.take_succ_eq_append_getElem hlt]
    exact not_sublist_of_isLeast hj hleast
  · -- the word is used up
    refine ⟨.rewindMatched, word.length + 1, by rw [aux_focus_spot_end h]; rfl,
      spot_reach b _ j, rfl, by omega, by omega, Nat.le_refl _, hj, ?_⟩
    have hword : (word.take word.length).Sublist (block.take j) := hleast.1
    rw [List.take_length] at hword
    exact hword

theorem known_seek {l : Letter} (h : Laid b.toTapes block word rest)
    (hclosed : j = block.length → (rest.headD .blank).isBlockEnd = true)
    (hk : Known block word reach i j moves (.seek l)) :
    ∃ s', next? (.seek l) (spot b reach i (j + 1)).main.focus = some s' ∧
      Known block word reach i (j + 1) moves s' := by
  obtain ⟨rfl, rfl, hj, k, rfl, hl, hsub, hnot⟩ := hk
  obtain ⟨hlt, rfl⟩ := List.getElem?_eq_some_iff.mp hl
  have htake : word.take (k + 1) = word.take k ++ [word[k]] := List.take_succ_eq_append_getElem hlt
  rcases Nat.lt_or_eq_of_le hj with hjlt | rfl
  · have hy : block[j]? = some block[j] := List.getElem?_eq_getElem hjlt
    rw [htake] at hnot
    by_cases hfound : block[j] = word[k]
    · -- the letter is found at the first place where it can be
      refine ⟨.nextLetter, by rw [main_focus_spot h hy]; simp [next?, hfound], rfl, rfl, hlt, hjlt,
        ?_⟩
      rw [htake]
      exact isLeast_take_succ (hfound ▸ hy) hsub hnot
    · -- the cell holds the other letter
      refine ⟨.seek word[k], by rw [main_focus_spot h hy]; simp [next?, hfound], rfl, rfl, hjlt, k,
        rfl, hl, hsub.trans (List.take_sublist_take_left (Nat.le_succ j)), ?_⟩
      rw [htake]
      exact not_sublist_take_succ hy hfound hnot
  · -- the block is used up, and the letter has not been found in it
    rw [List.take_length] at hsub hnot
    have hmatched : matched word block = k := matched_eq_of_take hlt hsub hnot
    refine ⟨.rewindUnmatched, ?_, rfl, by omega, by omega, by omega, rfl, ?_⟩
    · have hend := hclosed rfl
      rw [main_focus_spot_end h]
      cases hc : rest.headD .blank <;> simp_all [next?, Cell.isBlockEnd]
    · intro hword
      exact hnot ((List.take_sublist _ _).trans hword)

theorem known_drain (h : Laid b.toTapes block word rest)
    (hclosed : j = block.length → (rest.headD .blank).isBlockEnd = true)
    (hk : Known block word reach i j moves .drain) :
    ∃ s', next? .drain (spot b reach i (j + 1)).main.focus = some s' ∧
      Known block word reach i (j + 1) moves s' := by
  obtain ⟨rfl, rfl, rfl, hj, hsub⟩ := hk
  rcases Nat.lt_or_eq_of_le hj with hlt | rfl
  · -- what is left of the block is passed over, whatever it holds
    have hy : block[j]? = some block[j] := List.getElem?_eq_getElem hlt
    exact ⟨.drain, by rw [main_focus_spot h hy]; rfl, rfl, rfl, rfl, hlt,
      hsub.trans (List.take_sublist_take_left (Nat.le_succ j))⟩
  · -- the cell that closes the block
    rw [List.take_length] at hsub
    refine ⟨.accept, ?_, rfl, rfl, rfl, rfl, hsub⟩
    have hend := hclosed rfl
    rw [main_focus_spot_end h]
    cases hc : rest.headD .blank <;> simp_all [next?, Cell.isBlockEnd]

theorem known_rewindMatched (h : Laid b.toTapes block word rest)
    (hk : Known block word reach (i + 1) j moves .rewindMatched) :
    ∃ s', next? .rewindMatched (spot b reach i j).aux.focus = some s' ∧
      Known block word reach i j (moves + 1) s' := by
  obtain ⟨rfl, hmoves, -, hi, hj, hsub⟩ := hk
  -- the blank in front of the word, or another of its letters
  cases i with
  | zero => exact ⟨.drain, by rw [aux_focus_spot_start h]; rfl, rfl, by omega, rfl, hj, hsub⟩
  | succ i =>
    have hl : word[i]? = some word[i] := List.getElem?_eq_getElem (by omega)
    exact ⟨.rewindMatched, by rw [aux_focus_spot h hl]; rfl, rfl, by omega, by omega, by omega, hj,
      hsub⟩

theorem known_rewindUnmatched (h : Laid b.toTapes block word rest)
    (hk : Known block word reach (i + 1) j moves .rewindUnmatched) :
    ∃ s', next? .rewindUnmatched (spot b reach i j).aux.focus = some s' ∧
      Known block word reach i j (moves + 1) s' := by
  obtain ⟨rfl, hmoves, -, hi, rfl, hnot⟩ := hk
  have hle := (isGreatest_matched word block).1.1
  cases i with
  | zero => exact ⟨.reject, by rw [aux_focus_spot_start h]; rfl, rfl, by omega, rfl, rfl, hnot⟩
  | succ i =>
    have hl : word[i]? = some word[i] := List.getElem?_eq_getElem (by omega)
    exact ⟨.rewindUnmatched, by rw [aux_focus_spot h hl]; rfl, rfl, by omega, by omega, by omega,
      rfl, hnot⟩

/-- A step that reads a cell its state covers, and what it makes of the outcome so far. -/
theorem inv_followedBy {o : Outcome State} {s' : State} {reach i j moves : Nat}
    (hbench : o.bench.move (side o.state) (direction o.state) = spot b reach i j)
    (hnext : next? o.state ((spot b reach i j).on (side o.state)).focus = some s')
    (hticks : o.ticks + 1 = moves + j)
    (hcost : o.cost + .on (side o.state) 2 = ⟨2 * j, 2 * moves⟩)
    (hk : Known block word reach i j moves s') :
    (Device.step o.state o.bench).fault = none ∧
      Inv b block word (o.followedBy (Device.step o.state o.bench)) := by
  have htransition : Device.transition o.state o.bench =
      { state := s', bench := spot b reach i j, cost := .on (side o.state) 2 } := by
    show transition o.state o.bench = _
    rw [transition, hbench, Outcome.afterRead_of_some hnext]
  obtain ⟨hfault, trace, heq⟩ := Device.followedBy_step htransition
  rw [heq]
  exact ⟨hfault, reach, i, j, moves, rfl, hticks, hcost, hk⟩

/-- The main head only goes right. -/
theorem direction_of_side_main {s : State} (hs : side s = .main) : direction s = .right := by
  cases s <;> first | rfl | cases hs

/-- No state goes on from a letter of the aux tape that it finds on the main tape. -/
theorem next?_aux_of_side_main {s : State} (hs : side s = .main) (x : Letter) :
    next? s (.aux x) = none := by
  cases s <;> first | rfl | cases hs

/-- The step after the outcome `o` so far is one of the main head, and fails: right behind the block
it reads a letter `x` of the aux tape. -/
structure Blocked (b : Bench) (block word : List Letter) (rest : List Cell) (o : Outcome State)
    (x : Letter) : Prop where
  follows : rest.headD .blank = .aux x
  live : o.state.halted = false
  side : side o.state = .main
  heads : ∃ reach i moves, Known block word reach i block.length moves o.state ∧
    (Device.step o.state o.bench).bench = spot b reach i (block.length + 1)
  state : (Device.step o.state o.bench).state = o.state
  fault : (Device.step o.state o.bench).fault =
    some (.breakdown (.foreign .matcher .main (.aux x)))

/-- A step that goes on behind a block that is not closed reads a letter of the aux tape there. -/
theorem blocked_of_open {o : Outcome State} (h : Laid b.toTapes block word rest)
    (hlive : o.state.halted = false) (hside : side o.state = .main)
    (hbench : o.bench = spot b reach i block.length)
    (hk : Known block word reach i block.length moves o.state)
    (hopen : (rest.headD .blank).isBlockEnd = false) : ∃ x, Blocked b block word rest o x := by
  obtain ⟨x, hx⟩ : ∃ x, rest.headD .blank = .aux x := by
    have hletter := h.rest_head
    cases hc : rest.headD .blank <;> simp_all [Cell.isBlockEnd, Cell.isMainLetter]
  have hmove : o.bench.move (side o.state) (direction o.state) =
      spot b reach i (block.length + 1) := by
    rw [hside, direction_of_side_main hside, hbench, spot_move_main]
  have hfocus : ((spot b reach i (block.length + 1)).on (side o.state)).focus = .aux x := by
    rw [hside]
    exact (main_focus_spot_end h).trans hx
  have htransition : transition o.state o.bench =
      { state := o.state, bench := spot b reach i (block.length + 1), cost := .on (side o.state) 2
        fault := some (.breakdown (.foreign .matcher (side o.state) (.aux x))) } := by
    simp only [transition, hmove, Outcome.afterRead, hfocus, next?_aux_of_side_main hside]
  rw [hside] at htransition
  refine ⟨x,
    { follows := hx, live := hlive, side := hside, heads := ⟨reach, i, moves, hk, ?_⟩
      state := ?_, fault := ?_ }⟩
  · show (transition o.state o.bench).bench = _
    rw [htransition]
  · show (transition o.state o.bench).state = _
    rw [htransition]
  · show (transition o.state o.bench).fault = _
    rw [htransition]

/-- **A step of a matcher succeeds and keeps the relation**, or it has found the block not
closed. -/
theorem inv_step_or_fault (h : Laid b.toTapes block word rest) {o : Outcome State}
    (ho : Inv b block word o) (hs : o.state.halted = false) :
    (Device.step o.state o.bench).fault = none ∧
        Inv b block word (o.followedBy (Device.step o.state o.bench)) ∨
      ∃ x, Blocked b block word rest o x := by
  obtain ⟨reach, i, j, moves, hbench, hticks, hcost, hk⟩ := ho
  obtain ⟨s, c, n, cost, trace, fault⟩ := o
  simp only at hbench hticks hcost hk hs
  subst hbench hticks hcost
  cases s with
  | nextLetter =>
    -- the only move that can add a cell to the aux tape
    obtain ⟨s', reach', hnext, hspot, hk'⟩ := known_nextLetter h hk
    rw [hspot] at hnext
    exact .inl (inv_followedBy ((spot_move_aux b reach i j).trans hspot) hnext
      (by simp only; omega) rfl hk')
  | seek l =>
    by_cases hclosed : j = block.length → (rest.headD .blank).isBlockEnd = true
    · obtain ⟨s', hnext, hk'⟩ := known_seek h hclosed hk
      exact .inl (inv_followedBy (spot_move_main b reach i j) hnext rfl rfl hk')
    · obtain ⟨rfl, hopen⟩ := Classical.not_imp.mp hclosed
      exact .inr (blocked_of_open h hs rfl rfl hk (Bool.eq_false_iff.mpr hopen))
  | drain =>
    by_cases hclosed : j = block.length → (rest.headD .blank).isBlockEnd = true
    · obtain ⟨s', hnext, hk'⟩ := known_drain h hclosed hk
      exact .inl (inv_followedBy (spot_move_main b reach i j) hnext rfl rfl hk')
    · obtain ⟨rfl, hopen⟩ := Classical.not_imp.mp hclosed
      exact .inr (blocked_of_open h hs rfl rfl hk (Bool.eq_false_iff.mpr hopen))
  | rewindMatched =>
    obtain ⟨i, rfl⟩ : ∃ i', i = i' + 1 := ⟨i - 1, by obtain ⟨-, -, hi, -⟩ := hk; omega⟩
    obtain ⟨s', hnext, hk'⟩ := known_rewindMatched h hk
    have hroom : i < (b.aux.grownTo reach).right.length := by
      -- the way out went as far as the blank behind the word, which is there by now
      obtain ⟨hreach, -, -, hi, -⟩ := hk
      rw [Tape.length_right_grownTo]
      omega
    exact .inl (inv_followedBy (spot_move_back j hroom) hnext (by simp only; omega) rfl hk')
  | rewindUnmatched =>
    obtain ⟨i, rfl⟩ : ∃ i', i = i' + 1 := ⟨i - 1, by obtain ⟨-, -, hi, -⟩ := hk; omega⟩
    obtain ⟨s', hnext, hk'⟩ := known_rewindUnmatched h hk
    have hroom : i < (b.aux.grownTo reach).right.length := by
      -- the way out went over letters of the word only
      obtain ⟨-, -, -, hi, -, hnot⟩ := hk
      have hlen := h.length_word_le
      have hlt := matched_lt_length_iff.mpr hnot
      rw [Tape.length_right_grownTo]
      omega
    exact .inl (inv_followedBy (spot_move_back j hroom) hnext (by simp only; omega) rfl hk')
  | accept => exact absurd hs (by simp [State.halted])
  | reject => exact absurd hs (by simp [State.halted])

/-- On a block that is closed every step succeeds. -/
theorem inv_step (h : Laid b.toTapes block word rest)
    (hclosed : (rest.headD .blank).isBlockEnd = true) {o : Outcome State}
    (ho : Inv b block word o) (hs : o.state.halted = false) :
    (Device.step o.state o.bench).fault = none ∧
      Inv b block word (o.followedBy (Device.step o.state o.bench)) := by
  rcases inv_step_or_fault h ho hs with hnext | ⟨x, hblocked⟩
  · exact hnext
  · rw [hblocked.follows] at hclosed
    cases hclosed

end Step

/-! ## A whole run -/

theorem accept_or_reject_of_halted {s : State} (hs : s.halted = true) :
    s = .accept ∨ s = .reject := by
  cases s <;> simp_all [State.halted]

theorem inv_still (b : Bench) (block word : List Letter) :
    Inv b block word (.still .nextLetter b) := by
  refine ⟨0, 0, 0, 0, (spot_start b).symm, rfl, rfl, rfl, rfl, Nat.zero_le _, Nat.zero_le _, ?_⟩
  constructor
  · exact List.nil_sublist _
  · exact fun p _ => Nat.zero_le p

/-- **The run of a matcher.** On tapes laid out for it, with a block that is closed by `#`, a
blank or the end of the tape, it reaches its verdict: whether the word is a subsequence of the
block. It leaves the main head on the closing cell and the aux head where it was. -/
theorem run_of_laid {b : Bench} {block word : List Letter} {rest : List Cell}
    (h : Laid b.toTapes block word rest) (hclosed : (rest.headD .blank).isBlockEnd = true) :
    let o := Device.run State.nextLetter b
    o.fault = none ∧ o.state = (if word.Sublist block then .accept else .reject) ∧
      o.bench = { main := Tape.moveRight^[block.length + 1] b.main
                  aux := b.aux.grownTo (if word.Sublist block then word.length + 1 else 0)
                  coin := b.coin } ∧
      o.ticks = block.length + 2 * matched word block + 3 ∧
      o.cost = ⟨2 * (block.length + 1), 4 * (matched word block + 1)⟩ := by
  intro o
  obtain ⟨hfault, hhalted, reach, i, j, moves, hbench, hticks, hcost, hk⟩ :=
    Device.run_invariant (inv_still b block word) fun o ho hs => inv_step h hclosed ho hs
  change o.fault = none at hfault
  change o.state.halted = true at hhalted
  change o.bench = _ at hbench
  change o.ticks = _ at hticks
  change o.cost = _ at hcost
  change Known block word reach i j moves o.state at hk
  -- each of the two states that are final fixes where the heads are
  rcases accept_or_reject_of_halted hhalted with hs | hs
  · rw [hs] at hk ⊢
    obtain ⟨rfl, rfl, rfl, rfl, hsub⟩ := hk
    rw [hbench, hticks, hcost, matched_eq_length_iff.mpr hsub, if_pos hsub, if_pos hsub]
    exact ⟨hfault, rfl, rfl, by omega, by congr 1; omega⟩
  · rw [hs] at hk ⊢
    obtain ⟨rfl, rfl, rfl, rfl, hnot⟩ := hk
    rw [hbench, hticks, hcost, if_neg hnot, if_neg hnot]
    exact ⟨hfault, rfl, rfl, by omega, by congr 1; omega⟩

/-- **A run of a matcher fails** only where it finds a letter of the aux tape right behind the
block. -/
theorem fault_run_of_laid {b : Bench} {block word : List Letter} {rest : List Cell}
    (h : Laid b.toTapes block word rest) {f : Fault}
    (hf : (Device.run State.nextLetter b).fault = some f) :
    ∃ l, rest.headD .blank = .aux l ∧ f = .breakdown (.foreign .matcher .main (.aux l)) := by
  rcases Device.run_invariant_or_fault
    (F := fun f => ∃ l, rest.headD .blank = .aux l ∧
      f = .breakdown (.foreign .matcher .main (.aux l))) (inv_still b block word)
    (fun o ho hs => (inv_step_or_fault h ho hs).imp id fun ⟨x, hblocked⟩ =>
      ⟨_, hblocked.fault, x, hblocked.follows, rfl⟩) with ⟨hnone, -⟩ | ⟨g, hfault, hg⟩
  · rw [hnone] at hf
    cases hf
  · rw [hfault] at hf
    obtain rfl := Option.some.inj hf
    exact hg

end SubseqMachines.Matcher
