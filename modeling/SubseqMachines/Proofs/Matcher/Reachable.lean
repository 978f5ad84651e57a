import SubseqMachines.Proofs.Matcher.Invariant
import SubseqMachines.Proofs.Store.Reached

/-!
# Where a matcher can be found

A matcher stops between any two steps, and others look at it then. This module says what they see:
the state and the places of the two heads tell how much of the word has been found in how much of
the block. While letters are taken from the word, the main head has gone just as far as the letters
so far need.

The relation that a step keeps is `Known`, which also counts the moves of the heads and knows how
far the aux tape has grown. What others see follows from it, and is told here in their terms.

* `Matcher.Found`: what the places of the heads tell in each state.
* `Matcher.Progress`, `Matcher.progress_of_known`: the tapes of a matcher on its way.
* `Matcher.Standing`, `Matcher.standing_step`: the relation between the state and the tapes, and
  that a step keeps it.
* `Matcher.progress_of_reached`: a matcher is found like this after any ticks.
-/

namespace SubseqMachines.Matcher

/-! ## What has been found -/

/-- What is found of the word in the block when the aux head is `i` cells and the main head `j`
cells on the right of where it started. -/
def Found (block word : List Letter) (i j : Nat) : State → Prop
  -- the shortest prefix of the block that has the letters so far is `j` letters long
  | .nextLetter =>
    i ≤ word.length ∧
      IsLeast {p | p ≤ block.length ∧ (word.take i).Sublist (block.take p)} j ∧ (i = 0 → j = 0)
  -- the letter that is looked for is the last one so far, and all but that one are found
  | .seek l =>
    1 ≤ i ∧ word[i - 1]? = some l ∧ j ≤ block.length ∧
      (word.take (i - 1)).Sublist (block.take j) ∧ ¬ (word.take i).Sublist (block.take j)
  | .rewindMatched => word.Sublist (block.take j) ∧ j ≤ block.length
  | .drain => word.Sublist (block.take j) ∧ j ≤ block.length
  | .rewindUnmatched => ¬ word.Sublist block ∧ j = block.length + 1
  | .accept => word.Sublist block ∧ i = 0 ∧ j = block.length + 1
  | .reject => ¬ word.Sublist block ∧ i = 0 ∧ j = block.length + 1

/-- The state `s` and the tapes `now` of a matcher that started on the tapes `start`, with the aux
head `i` cells and the main head `j` cells on the right of where it started. -/
structure Progress (start now : Tapes) (block word : List Letter) (s : State) (i j : Nat) :
    Prop where
  aux_head : now.aux.head = start.aux.head + i
  main_head : now.main.head = start.main.head + j
  /-- No head goes further than the cell behind its letters. -/
  le_length_word : i ≤ word.length + 1
  le_length_block : j ≤ block.length + 1
  /-- A blank may have been added behind the last cell, and nothing else has changed. -/
  aux_cells : ∃ n ≤ 1, now.aux.cells = start.aux.cells ++ List.replicate n .blank
  main_cells : ∃ n ≤ 1, now.main.cells = start.main.cells ++ List.replicate n .blank
  found : Found block word i j s

section Known

variable {b : Bench} {block word : List Letter} {rest : List Cell} {s : State}
  {reach i j moves : Nat}

theorem found_of_known (hk : Known block word reach i j moves s) : Found block word i j s := by
  cases s with
  | nextLetter =>
    obtain ⟨-, -, hi, hj, hleast⟩ := hk
    refine ⟨hi, ⟨⟨hj, hleast.1⟩, fun p hp => hleast.2 hp.2⟩, ?_⟩
    rintro rfl
    -- the empty word is in the empty prefix
    exact Nat.le_zero.mp (hleast.2 (List.nil_sublist _))
  | seek l =>
    obtain ⟨-, -, hj, k, rfl, hl, hsub, hnot⟩ := hk
    exact ⟨Nat.le_add_left 1 k, hl, hj, hsub, hnot⟩
  | rewindMatched =>
    obtain ⟨-, -, -, -, hj, hsub⟩ := hk
    exact ⟨hsub, hj⟩
  | drain =>
    obtain ⟨-, -, -, hj, hsub⟩ := hk
    exact ⟨hsub, hj⟩
  | rewindUnmatched =>
    obtain ⟨-, -, -, -, hj, hnot⟩ := hk
    exact ⟨hnot, hj⟩
  | accept =>
    obtain ⟨-, -, hi, hj, hsub⟩ := hk
    exact ⟨hsub, hi, hj⟩
  | reject =>
    obtain ⟨-, -, hi, hj, hnot⟩ := hk
    exact ⟨hnot, hi, hj⟩

/-- How far the heads go. Only a matcher that has found the word has been behind it. -/
theorem bounds_of_known (hk : Known block word reach i j moves s) :
    i ≤ max word.length reach ∧ reach ≤ word.length + 1 ∧ j ≤ block.length + 1 := by
  cases s with
  | nextLetter =>
    obtain ⟨rfl, -, hi, hj, -⟩ := hk
    omega
  | seek l =>
    obtain ⟨rfl, -, hj, k, rfl, hl, -, -⟩ := hk
    -- the aux head is on the letter that is looked for
    have hlt := (List.getElem?_eq_some_iff.mp hl).1
    omega
  | rewindMatched =>
    obtain ⟨rfl, -, -, hi, hj, -⟩ := hk
    omega
  | drain =>
    obtain ⟨rfl, -, rfl, hj, -⟩ := hk
    omega
  | rewindUnmatched =>
    obtain ⟨rfl, -, -, hi, rfl, hnot⟩ := hk
    -- some letter has not been found, and the aux head has not been behind that one
    have hlt := matched_lt_length_iff.mpr hnot
    omega
  | accept =>
    obtain ⟨rfl, -, rfl, rfl, -⟩ := hk
    omega
  | reject =>
    obtain ⟨rfl, -, rfl, rfl, -⟩ := hk
    omega

/-- A walk over cells that have been added already adds no more. -/
theorem cells_aux_spot (h : i ≤ max b.aux.right.length reach) :
    (spot b reach i j).aux.cells =
      b.aux.cells ++ List.replicate (reach - b.aux.right.length) .blank := by
  show (Tape.moveRight^[i] (b.aux.grownTo reach)).cells = _
  rw [Tape.cells_iterate_moveRight (by rwa [Tape.length_right_grownTo]), Tape.cells_grownTo]

/-- **What the relation tells of the tapes.** -/
theorem progress_of_known (h : Laid b.toTapes block word rest)
    (hk : Known block word reach i j moves s) :
    Progress b.toTapes (spot b reach i j).toTapes block word s i j := by
  obtain ⟨hi, hreach, hj⟩ := bounds_of_known hk
  -- all letters are on cells that were there at the start, so a head goes one cell beyond at most
  have hword := h.length_word_le
  have hblock : block.length ≤ b.main.right.length := by
    rw [h.main_right, List.length_append, List.length_map]
    exact Nat.le_add_right _ _
  exact
    { aux_head := Tape.head_iterate_moveRight _ _
      main_head := Tape.head_iterate_moveRight _ _
      le_length_word := by omega
      le_length_block := hj
      aux_cells := ⟨reach - b.aux.right.length, by omega, cells_aux_spot (by omega)⟩
      main_cells := ⟨j - b.main.right.length, by omega, Tape.cells_iterate_moveRight_eq _ _⟩
      found := found_of_known hk }

end Known

/-! ## One step -/

/-- The state and the tapes of a matcher that started on the bench `b`. -/
def Standing (b : Bench) (block word : List Letter) (s : State) (t : Tapes) : Prop :=
  ∃ reach i j moves, t = (spot b reach i j).toTapes ∧ Known block word reach i j moves s

theorem standing_start (b : Bench) (block word : List Letter) :
    Standing b block word .nextLetter b.toTapes := by
  obtain ⟨reach, i, j, moves, hbench, -, -, hk⟩ := inv_still b block word
  exact ⟨reach, i, j, moves, congrArg Bench.toTapes hbench, hk⟩

/-- **A step of a matcher succeeds and keeps the relation**, whatever its bench has for a coin. -/
theorem standing_step {b c : Bench} {block word : List Letter} {rest : List Cell} {s : State}
    (h : Laid b.toTapes block word rest) (hclosed : (rest.headD .blank).isBlockEnd = true)
    (hs : Standing b block word s c.toTapes) (hlive : s.halted = false) :
    let o := Device.step s c
    o.fault = none ∧ Standing b block word o.state o.bench.toTapes := by
  intro o
  obtain ⟨tapes, coin⟩ := c
  obtain ⟨reach, i, j, moves, rfl, hk⟩ := hs
  -- seen as the step after an outcome that has got here with the same coin
  let d : Bench := { b with coin }
  let past : Outcome State :=
    { state := s, bench := spot d reach i j, ticks := moves + j, cost := ⟨2 * j, 2 * moves⟩ }
  have hpast : Inv d block word past := ⟨reach, i, j, moves, rfl, rfl, rfl, hk⟩
  obtain ⟨hfault, reach', i', j', moves', hbench, -, -, hk'⟩ :=
    inv_step (b := d) h hclosed hpast hlive
  have htapes : o.bench.toTapes = (spot d reach' i' j').toTapes := congrArg Bench.toTapes hbench
  exact ⟨hfault, reach', i', j', moves', htapes, hk'⟩

/-! ## A matcher in the store -/

section Fresh

variable {σ made : Store} {counter : Option (Handle Counter)} {coin : Option (Handle Coin)}
  {mount : Mount} {block word : List Letter} {rest : List Cell}

/-- A matcher that has been made on a block that is closed stands in the relation all the time, on
the reels that it was made on. -/
theorem exists_standing_of_reached (hm : σ.Made made .matcher counter coin mount)
    (h : Laid (σ.tapes mount) block word rest)
    (hclosed : (rest.headD .blank).isBlockEnd = true) {now : Store}
    (hr : Store.Reached made σ.machines.next now) :
    Store.Steady now σ.machines.next mount ∧
      ∃ s, (now.machines.get σ.machines.next).control = .matcher s ∧
        Standing (σ.startBench .matcher coin mount) block word s (now.tapes mount) := by
  let b := σ.startBench .matcher coin mount
  have hcontrol : (made.machines.get σ.machines.next).control = .matcher .nextLetter := by
    rw [hm.machine]
    rfl
  have hstart : Standing b block word .nextLetter (made.tapes mount) := by
    rw [hm.tapes]
    exact standing_start b block word
  have hsteady := hr.steady_of_ne_trial hm.steady (by rw [hcontrol]; exact nofun)
  obtain ⟨mount', s, hsteady', hcontrol', hstanding⟩ :=
    hr.invariant_of_map .matcher (fun _ => rfl) Control.step_matcher hm.steady hcontrol hstart
      fun s d hs hlive => (standing_step (b := b) h hclosed hs hlive).2
  -- both facts speak of the reels that the machine has now
  obtain rfl : mount = mount' :=
    Option.some.inj (hsteady.mounted.symm.trans hsteady'.mounted)
  exact ⟨hsteady, s, hcontrol', hstanding⟩

/-- No tick of such a matcher fails. -/
theorem exists_result_tick_of_standing {b : Bench} (h : Laid b.toTapes block word rest)
    (hclosed : (rest.headD .blank).isBlockEnd = true) {now : Store} {machine : Handle Machine}
    (hsteady : Store.Steady now machine mount) {s : State}
    (hcontrol : (now.machines.get machine).control = .matcher s)
    (hstanding : Standing b block word s (now.tapes mount)) :
    ∃ goes, (now.tick machine).result = .ok goes := by
  cases hresult : (now.tick machine).result with
  | ok goes => exact ⟨goes, rfl⟩
  | error f =>
    obtain ⟨hlive, hfault, -⟩ := Store.fault_of_tick hsteady.mounted hresult
    rw [hcontrol] at hlive hfault
    rw [Control.step_matcher] at hfault
    let bench := now.bench (now.machines.get machine) mount
    change (Device.step s bench).fault = some f at hfault
    obtain ⟨hnone, -⟩ := standing_step (c := bench) h hclosed hstanding hlive
    cases hnone.symm.trans hfault

end Fresh

/-- **Where a matcher is found after any ticks.** Let a matcher be made on a block that is closed by
`#`, a blank or the end of the tape, and on a word. As long as nothing else touches the matcher and
its reels, no tick fails, and the places of the two heads tell, together with the state, what has
been found. When the next letter is to be taken, the main head has passed the shortest prefix of the
block that has the letters so far. While a letter is sought, all letters before it have been found
and it has not. The matcher turns back when it has found the whole word, or when it has passed the
whole block and has not. Neither head ever goes further than the cell behind its letters, and a
blank may be added there and nothing else changes. -/
theorem progress_of_reached {σ made : Store} {main aux : Handle Reel}
    {own : Option (Handle Counter)} {coin : Option (Handle Coin)}
    (hmade : σ.make .matcher main aux own coin = .ok made) :
    let h := σ.machines.next
    let start : Tapes := ⟨σ.tape main, σ.tape aux⟩
    (∃ block word rest, Laid start block word rest) ∧
      ∀ block word rest, Laid start block word rest → (rest.headD .blank).isBlockEnd = true →
        ∀ now, Store.Reached made h now →
          (∃ mount, (now.machines.get h).mount = some mount ∧
            mount.main = main ∧ mount.aux = aux) ∧
          (∃ goes, (now.tick h).result = .ok goes) ∧
          ∃ s i j, (now.machines.get h).control = .matcher s ∧
            Progress start ⟨now.tape main, now.tape aux⟩ block word s i j := by
  intro h start
  obtain ⟨mount, rfl, rfl, hm⟩ := Store.exists_made hmade
  refine ⟨refusal?_eq_none_iff.mp hm.refusal, ?_⟩
  intro block word rest hlaid hclosed now hr
  let b := σ.startBench .matcher coin mount
  obtain ⟨hsteady, s, hcontrol, hstanding⟩ := exists_standing_of_reached hm hlaid hclosed hr
  refine ⟨⟨mount, hsteady.mounted, rfl, rfl⟩,
    exists_result_tick_of_standing (b := b) hlaid hclosed hsteady hcontrol hstanding, ?_⟩
  obtain ⟨reach, i, j, moves, htapes, hk⟩ := hstanding
  refine ⟨s, i, j, hcontrol, ?_⟩
  show Progress b.toTapes (now.tapes mount) block word s i j
  rw [htapes]
  exact progress_of_known (b := b) hlaid hk

/-- The word `ba` on the block `abb`. After three ticks its first letter is found. Others enter a
counter, and after three more ticks the block has ended without its second one. -/
theorem progress_of_reached_abb_ba :
    let σ := (({} : Store).addReel ⟨[.aux .a], .hash, [.main .a, .main .b, .main .b]⟩ none).addReel
      ⟨[.blank], .blank, [.aux .b, .aux .a]⟩ none
    let h := σ.machines.next
    let start : Tapes := ⟨σ.tape ⟨0⟩, σ.tape ⟨1⟩⟩
    ∃ made, σ.make .matcher ⟨0⟩ ⟨1⟩ none none = .ok made ∧
      let third := (((made.tick h).store.tick h).store.tick h).store
      let sixth := ((((third.addCounter 7).tick h).store.tick h).store.tick h).store
      Progress start ⟨third.tape ⟨0⟩, third.tape ⟨1⟩⟩ [.a, .b, .b] [.b, .a] .nextLetter 1 2 ∧
        Progress start ⟨sixth.tape ⟨0⟩, sixth.tape ⟨1⟩⟩ [.a, .b, .b] [.b, .a]
          .rewindUnmatched 2 4 := by
  intro σ h start
  let third (made : Store) := (((made.tick h).store.tick h).store.tick h).store
  let sixth (made : Store) :=
    (((((third made).addCounter 7).tick h).store.tick h).store.tick h).store
  let seen (now : Store) : Control × Nat × Nat :=
    ((now.machines.get h).control, (now.tape ⟨1⟩).head, (now.tape ⟨0⟩).head)
  obtain ⟨made, hmade⟩ : ∃ made, σ.make .matcher ⟨0⟩ ⟨1⟩ none none = .ok made :=
    Store.make_eq_ok (by decide) none none
  have hseen : (σ.make .matcher ⟨0⟩ ⟨1⟩ none none).toOption.map
      (fun made => (seen (third made), seen (sixth made))) =
        some ((.matcher .nextLetter, 2, 3), (.matcher .rewindUnmatched, 3, 5)) := by
    decide +kernel
  rw [hmade] at hseen
  obtain ⟨hthird, hsixth⟩ := Prod.mk.inj (Option.some.inj hseen)
  have hlaid : Laid start [.a, .b, .b] [.b, .a] [] :=
    { main_focus := rfl, main_right := rfl, block_ne_nil := by decide, rest_head := rfl
      aux_left := ⟨1, rfl⟩, aux_focus := rfl, aux_right := ⟨0, rfl⟩, word_ne_nil := by decide }
  -- the state and the places of the heads that are seen are those that the theorem speaks of
  have hprogress : ∀ now s i j, Store.Reached made h now →
      seen now = (.matcher s, start.aux.head + i, start.main.head + j) →
      Progress start ⟨now.tape ⟨0⟩, now.tape ⟨1⟩⟩ [.a, .b, .b] [.b, .a] s i j := by
    intro now s i j hr hnow
    obtain ⟨-, -, s', i', j', hcontrol, hplaces⟩ :=
      (progress_of_reached hmade).2 _ _ _ hlaid rfl now hr
    obtain ⟨hs, hi, hj⟩ : _ ∧ _ ∧ _ := by simpa only [seen, Prod.mk.injEq] using hnow
    obtain rfl : s' = s := Control.matcher.inj (hcontrol.symm.trans hs)
    obtain rfl : i' = i := Nat.add_left_cancel (hplaces.aux_head.symm.trans hi)
    obtain rfl : j' = j := Nat.add_left_cancel (hplaces.main_head.symm.trans hj)
    exact hplaces
  have hthree : Store.Reached made h (third made) := .tick (.tick (.tick .start))
  have hother : Store.Untouched (third made) ((third made).addCounter 7) h :=
    { machine := rfl, reels := fun _ _ => ⟨rfl, rfl⟩ }
  have hsix : Store.Reached made h (sixth made) := .tick (.tick (.tick (.meanwhile hthree hother)))
  exact ⟨made, hmade, hprogress _ _ 1 2 hthree hthird, hprogress _ _ 2 4 hsix hsixth⟩

end SubseqMachines.Matcher
