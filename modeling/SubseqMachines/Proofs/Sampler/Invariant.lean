import SubseqMachines.Proofs.Coin.Flips
import SubseqMachines.Proofs.Machine.Run
import SubseqMachines.Proofs.Sampler.Layout
import SubseqMachines.Proofs.Tape.Walk

/-!
# How a sampler draws a word

A sampler on tapes laid out for it writes one letter for each letter of the word on its main tape,
and each letter is that of the next flip of its coin. The relation that it keeps speaks of the
flips drawn so far, so it holds up to the step at which the coin has no flip left.

* `Sampler.Inv`: the relation for an outcome so far.
* `Sampler.inv_step_or_fault`, `Sampler.inv_step`: a step succeeds and keeps it, as long as the coin
  has a flip.
* `Sampler.run_of_laid`: where a run ends if the coin has enough flips, what it costs and what it
  leaves.
* `Sampler.run_of_exhausted`, `Sampler.fault_run_of_exhausted`: where a run stops if the coin has
  not enough flips.
* `Sampler.exists_word_of_run`: whatever the coin is, a run that does not fail leaves the aux head in
  front of a word.
-/

namespace SubseqMachines.Sampler

/-! ## The relation -/

/-- What is known in a state of a run over a word of `L` letters when `n` flips have been drawn,
with the aux head `i` cells and the main head `j` cells on the right of where they started. -/
def Known (L n i j ticks : Nat) (cost : Cost) : State → Prop
  | .scan => i = n ∧ j = n ∧ n ≤ L ∧ ticks = 2 * n ∧ cost = ⟨2 * n, 2 * n⟩
  | .extend => i = n ∧ j = n + 1 ∧ n < L ∧ ticks = 2 * n + 1 ∧ cost = ⟨2 * n + 2, 2 * n⟩
  | .rewind =>
    n = L ∧ j = L + 1 ∧ 1 ≤ i ∧ i ≤ L ∧ ticks + i = 3 * L + 1 ∧ cost = ⟨2 * L + 2, 4 * L - 2 * i⟩
  | .accept => n = L ∧ j = L + 1 ∧ i = 0 ∧ ticks = 3 * L + 1 ∧ cost = ⟨2 * L + 2, 4 * L⟩

/-- The relation that a sampler keeps which started on the bench `b`: the letters of the flips
drawn so far are on the aux tape, and nothing else has changed but the places of the heads. -/
structure Inv (b : Bench) (word : List Letter) (o : Outcome State) (flips : List Bool)
    (i j : Nat) : Prop where
  main : o.bench.main = Tape.moveRight^[j] b.main
  aux : o.bench.aux = Tape.moveRight^[i] (b.aux.inscribed (flips.map Letter.ofFlip))
  coin : b.coin.flips? flips.length = some (flips, o.bench.coin)
  known : Known word.length flips.length i j o.ticks o.cost o.state

variable {b : Bench} {word : List Letter} {rest : List Cell}

theorem inv_still (b : Bench) (word : List Letter) : Inv b word (.still .scan b) [] 0 0 where
  main := rfl
  aux := rfl
  coin := rfl
  known := ⟨rfl, rfl, Nat.zero_le _, rfl, rfl⟩

/-! ## One step -/

section Step

variable {o : Outcome State} {flips : List Bool} {i j : Nat}

theorem inv_scan (h : Laid b.toTapes word rest) (ho : Inv b word o flips i j)
    (hs : o.state = .scan) :
    (Device.step o.state o.bench).fault = none ∧
      Inv b word (o.followedBy (Device.step o.state o.bench)) flips i (j + 1) := by
  obtain ⟨s, c, ticks, cost, past, fault⟩ := o
  obtain ⟨hmain, haux, hcoin, hk⟩ := ho
  simp only at hmain haux hcoin hk hs ⊢
  subst hs
  obtain ⟨rfl, rfl, hle, rfl, rfl⟩ := hk
  have hmove : c.main.moveRight = Tape.moveRight^[flips.length + 1] b.main := by
    rw [hmain, Function.iterate_succ_apply']
  have hfocus : ((c.move .main .right).on .main).focus =
      (Tape.moveRight^[flips.length + 1] b.main).focus := congrArg Tape.focus hmove
  rcases Nat.lt_or_eq_of_le hle with hlt | hn
  · -- a letter: a flip is called for
    have hl : word[flips.length]? = some word[flips.length] := List.getElem?_eq_getElem hlt
    rw [Tape.focus_on_letter h.main_right hl] at hfocus
    have hnext : afterScan ((c.move .main .right).on .main).focus = some .extend := by
      rw [hfocus]
      rfl
    obtain ⟨hfault, trace, heq⟩ := Device.followedBy_step
      (o := ⟨State.scan, c, _, _, past, fault⟩) (Outcome.afterRead_of_some hnext)
    rw [heq]
    exact ⟨hfault, hmove, haux, hcoin, rfl, rfl, hlt, rfl, rfl⟩
  · -- the end of the word: the way back begins
    rw [hn, Tape.focus_after_letters h.main_right] at hfocus
    have hnext : afterScan ((c.move .main .right).on .main).focus = some .rewind := by
      have hclosed := h.rest_head
      rw [hfocus]
      cases hc : rest.headD .blank <;> simp_all [Cell.isBlockEnd, afterScan]
    have hpos : 1 ≤ word.length := List.length_pos_iff.mpr h.word_ne_nil
    obtain ⟨hfault, trace, heq⟩ := Device.followedBy_step
      (o := ⟨State.scan, c, _, _, past, fault⟩) (Outcome.afterRead_of_some hnext)
    rw [heq]
    refine ⟨hfault, hmove, haux, hcoin, hn, by rw [hn], by omega, hle, by simp only; omega, ?_⟩
    show Cost.mk (2 * flips.length + 2) (2 * flips.length + 0) = _
    rw [hn]
    congr 1
    omega

theorem inv_extend {f : Bool} {d : Coin} (ho : Inv b word o flips i j) (hs : o.state = .extend)
    (hflip : o.bench.coin.flip? = some (f, d)) :
    (Device.step o.state o.bench).fault = none ∧
      Inv b word (o.followedBy (Device.step o.state o.bench)) (flips ++ [f]) (i + 1) j := by
  obtain ⟨s, c, ticks, cost, past, fault⟩ := o
  obtain ⟨hmain, haux, hcoin, hk⟩ := ho
  simp only at hmain haux hcoin hk hs hflip ⊢
  subst hs
  obtain ⟨rfl, rfl, hlt, rfl, rfl⟩ := hk
  have hlen : (flips ++ [f]).length = flips.length + 1 := by simp
  have htransition : Device.transition State.extend c =
      { state := .scan
        bench := { c with aux := c.aux.moveRight.write (.aux (.ofFlip f)), coin := d }
        cost := .on .aux 2 } := by
    show extend c = _
    simp only [extend, Coin.flip, hflip, Option.elim_some]
  obtain ⟨hfault, trace, heq⟩ := Device.followedBy_step
    (o := ⟨State.extend, c, _, _, past, fault⟩) htransition
  rw [heq]
  refine ⟨hfault, hmain, ?_, ?_, hlen.symm, hlen.symm, by rw [hlen]; exact hlt, by rw [hlen]; rfl,
    by rw [hlen]; rfl⟩
  · -- the letter of the flip stands behind those of the flips before it
    have hwrite := Tape.write_iterate_moveRight_inscribed b.aux (flips.map Letter.ofFlip)
      (.ofFlip f)
    rw [List.length_map] at hwrite
    show c.aux.moveRight.write (.aux (.ofFlip f)) = _
    rw [haux, hwrite, List.map_append]
    rfl
  · -- and the coin has given one flip more
    show b.coin.flips? (flips ++ [f]).length = some (flips ++ [f], d)
    rw [hlen, Coin.flips?_succ_last, hcoin]
    simp only [Option.bind_some, hflip, Option.map_some]

theorem inv_rewind (h : Laid b.toTapes word rest) (ho : Inv b word o flips (i + 1) j)
    (hs : o.state = .rewind) :
    (Device.step o.state o.bench).fault = none ∧
      Inv b word (o.followedBy (Device.step o.state o.bench)) flips i j := by
  obtain ⟨s, c, ticks, cost, past, fault⟩ := o
  obtain ⟨hmain, haux, hcoin, hk⟩ := ho
  simp only at hmain haux hcoin hk hs ⊢
  subst hs
  obtain ⟨hn, rfl, -, hle, hticks, rfl⟩ := hk
  -- the way out went over letters that have been written
  have hroom : i < (b.aux.inscribed (flips.map Letter.ofFlip)).right.length := by
    have := Tape.length_le_length_right_inscribed b.aux (flips.map Letter.ofFlip)
    rw [List.length_map] at this
    omega
  have hmove : c.aux.moveLeft = Tape.moveRight^[i] (b.aux.inscribed (flips.map Letter.ofFlip)) := by
    rw [haux, Tape.moveLeft_iterate_moveRight hroom]
  have hfocus : ((c.move .aux .left).on .aux).focus =
      (Tape.moveRight^[i] (b.aux.inscribed (flips.map Letter.ofFlip))).focus :=
    congrArg Tape.focus hmove
  have hcost : Cost.mk (2 * word.length + 2) (4 * word.length - 2 * (i + 1)) + .on .aux 2 =
      ⟨2 * word.length + 2, 4 * word.length - 2 * i⟩ := by
    show Cost.mk (2 * word.length + 2 + 0) (4 * word.length - 2 * (i + 1) + 2) = _
    congr 1
    omega
  cases i with
  | zero =>
    -- the head is back on the blank where it started
    have hnext : afterRewind ((c.move .aux .left).on .aux).focus = some .accept := by
      obtain ⟨p, q, hblank⟩ := h.aux_blank
      rw [hfocus, Function.iterate_zero_apply, Tape.inscribed, Tape.focus_withRight, hblank]
      rfl
    obtain ⟨hfault, trace, heq⟩ := Device.followedBy_step
      (o := ⟨State.rewind, c, _, _, past, fault⟩) (Outcome.afterRead_of_some hnext)
    rw [heq]
    exact ⟨hfault, hmain, hmove, hcoin, hn, rfl, rfl, hticks, hcost⟩
  | succ k =>
    have hlt : k < (flips.map Letter.ofFlip).length := by rw [List.length_map]; omega
    have hnext : afterRewind ((c.move .aux .left).on .aux).focus = some .rewind := by
      rw [hfocus, Tape.focus_on_letter (Tape.right_inscribed _ _) (List.getElem?_eq_getElem hlt)]
      rfl
    obtain ⟨hfault, trace, heq⟩ := Device.followedBy_step
      (o := ⟨State.rewind, c, _, _, past, fault⟩) (Outcome.afterRead_of_some hnext)
    rw [heq]
    exact ⟨hfault, hmain, hmove, hcoin, hn, rfl, by omega, by omega, by simp only; omega, hcost⟩

/-- Without a flip the aux head steps right, and that is all. -/
theorem step_extend_of_exhausted {o : Outcome State} (hs : o.state = .extend)
    (hflip : o.bench.coin.flip? = none) :
    let p := Device.step o.state o.bench
    p.fault = some (.breakdown .coinExhausted) ∧ p.state = .extend ∧
      p.bench = o.bench.move .aux .right ∧ p.ticks = 1 ∧ p.cost = .on .aux 1 := by
  have htransition : transition o.state o.bench =
      { state := .extend, bench := o.bench.move .aux .right, cost := .on .aux 1
        fault := some (.breakdown .coinExhausted) } := by
    rw [hs]
    show extend o.bench = _
    simp only [extend, Coin.flip, hflip, Option.elim_none]
  intro p
  -- a step is its transition but for the reports
  have hp : p.fault = (transition o.state o.bench).fault ∧
      p.state = (transition o.state o.bench).state ∧
      p.bench = (transition o.state o.bench).bench ∧
      p.ticks = (transition o.state o.bench).ticks ∧
      p.cost = (transition o.state o.bench).cost := ⟨rfl, rfl, rfl, rfl, rfl⟩
  rw [htransition] at hp
  exact hp

/-- **A step of a sampler succeeds and keeps the relation**, or a letter is called for and the coin
has no flip left. -/
theorem inv_step_or_fault (h : Laid b.toTapes word rest) (ho : Inv b word o flips i j)
    (hs : o.state.halted = false) :
    ((Device.step o.state o.bench).fault = none ∧
      ∃ flips i j, Inv b word (o.followedBy (Device.step o.state o.bench)) flips i j) ∨
      o.state = .extend ∧ o.bench.coin.flip? = none := by
  have hk := ho.known
  cases hst : o.state with
  | scan =>
    obtain ⟨hfault, hinv⟩ := inv_scan h ho hst
    rw [hst] at hfault hinv
    exact .inl ⟨hfault, _, _, _, hinv⟩
  | extend =>
    cases hflip : o.bench.coin.flip? with
    | none => exact .inr ⟨rfl, rfl⟩
    | some r =>
      obtain ⟨hfault, hinv⟩ := inv_extend (f := r.1) (d := r.2) ho hst hflip
      rw [hst] at hfault hinv
      exact .inl ⟨hfault, _, _, _, hinv⟩
  | rewind =>
    rw [hst] at hk
    obtain ⟨i, rfl⟩ : ∃ i', i = i' + 1 := ⟨i - 1, by obtain ⟨-, -, hi, -⟩ := hk; omega⟩
    obtain ⟨hfault, hinv⟩ := inv_rewind h ho hst
    rw [hst] at hfault hinv
    exact .inl ⟨hfault, _, _, _, hinv⟩
  | accept =>
    rw [hst] at hs
    exact absurd hs (by simp [State.halted])

/-- With a coin that can give one flip for each letter of the word every step succeeds. -/
theorem inv_step (h : Laid b.toTapes word rest)
    (hcoin : (b.coin.flips? word.length).isSome = true) (ho : Inv b word o flips i j)
    (hs : o.state.halted = false) :
    (Device.step o.state o.bench).fault = none ∧
      ∃ flips i j, Inv b word (o.followedBy (Device.step o.state o.bench)) flips i j := by
  rcases inv_step_or_fault h ho hs with hnext | ⟨hst, hnone⟩
  · exact hnext
  · -- fewer flips have been drawn than the word has letters
    have hk := ho.known
    rw [hst] at hk
    obtain ⟨-, -, hlt, -, -⟩ := hk
    obtain ⟨f, d, hflip⟩ := Coin.exists_flip_of_flips? hlt hcoin ho.coin
    rw [hnone] at hflip
    cases hflip

end Step

/-! ## A whole run -/

theorem eq_accept_of_halted {s : State} (hs : s.halted = true) : s = .accept := by
  cases s <;> simp_all [State.halted]

/-- **The run of a sampler.** On tapes laid out for it, with a coin that has a flip for each
letter, it writes the letters of the flips. It leaves the main head on the closing cell and the
aux head where it was. -/
theorem run_of_laid {flips : List Bool} {coin : Coin} (h : Laid b.toTapes word rest)
    (hflips : b.coin.flips? word.length = some (flips, coin)) :
    let o := Device.run State.scan b
    o.fault = none ∧ o.state = .accept ∧
      o.bench = { main := Tape.moveRight^[word.length + 1] b.main
                  aux := b.aux.inscribed (flips.map Letter.ofFlip), coin } ∧
      o.ticks = 3 * word.length + 1 ∧ o.cost = ⟨2 * word.length + 2, 4 * word.length⟩ := by
  intro o
  have hcoin : (b.coin.flips? word.length).isSome = true := by rw [hflips]; rfl
  obtain ⟨hfault, hhalted, flips', i, j, hinv⟩ :=
    Device.run_invariant (P := fun o => ∃ flips i j, Inv b word o flips i j)
      ⟨_, _, _, inv_still b word⟩ fun o ⟨flips, i, j, ho⟩ hs => inv_step h hcoin ho hs
  change o.fault = none at hfault
  change o.state.halted = true at hhalted
  change Inv b word o flips' i j at hinv
  obtain ⟨hmain, haux, hdrawn, hk⟩ := hinv
  have hs : o.state = .accept := eq_accept_of_halted hhalted
  rw [hs] at hk
  obtain ⟨hlen, rfl, rfl, hticks, hcost⟩ := hk
  -- the flips that were drawn are all that the coin was asked for
  rw [hlen, hflips] at hdrawn
  obtain ⟨rfl, rfl⟩ : flips = flips' ∧ coin = o.bench.coin := by simpa using hdrawn
  rw [Function.iterate_zero_apply] at haux
  refine ⟨hfault, hs, ?_, hticks, hcost⟩
  rw [← hmain, ← haux]

/-- **A run without enough flips** stops in the middle of a step, when a letter is called for and
the coin has no flip left: the main head is on a letter, and the aux head has stepped onto the cell
behind the letters of the flips. -/
theorem run_of_exhausted {flips : List Bool} {coin : Coin} (h : Laid b.toTapes word rest)
    (hflips : b.coin.flips? flips.length = some (flips, coin)) (hnone : coin.flip? = none)
    (hlt : flips.length < word.length) :
    let o := Device.run State.scan b
    let n := flips.length
    let written := b.aux.inscribed (flips.map Letter.ofFlip)
    o.fault = some (.breakdown .coinExhausted) ∧ o.state = .extend ∧
      o.bench = { main := Tape.moveRight^[n + 1] b.main, aux := Tape.moveRight^[n + 1] written
                  coin } ∧
      o.ticks = 2 * n + 2 ∧ o.cost = ⟨2 * n + 2, 2 * n + 1⟩ := by
  intro o n written
  rcases Device.run_invariant_or_last (P := fun o => ∃ flips i j, Inv b word o flips i j)
    (Q := fun o => o.state = .extend ∧ o.bench.coin.flip? = none) ⟨_, _, _, inv_still b word⟩
    (fun o ⟨flips, i, j, ho⟩ hs => (inv_step_or_fault h ho hs).imp id fun hlast =>
      ⟨by rw [(step_extend_of_exhausted hlast.1 hlast.2).1]; exact nofun, hlast⟩) with
    ⟨-, hhalted, flips', i, j, hinv⟩ | ⟨last, ⟨flips', i, j, hinv⟩, ⟨hst, hflip⟩, hrun⟩
  · -- a run that reaches its end has drawn a flip for each letter
    have hdrawn := hinv.coin
    have hk := hinv.known
    rw [eq_accept_of_halted hhalted] at hk
    rw [hk.1] at hdrawn
    obtain ⟨f, d, hflip⟩ := Coin.exists_flip_of_flips? hlt (by rw [hdrawn]; rfl) hflips
    rw [hnone] at hflip
    cases hflip
  · -- the last step is the one for which there is no flip
    obtain ⟨hmain, haux, hdrawn, hk⟩ := hinv
    rw [hst] at hk
    obtain ⟨rfl, rfl, -, hticks, hcost⟩ := hk
    -- the flips that were drawn are all that the coin had
    rw [← Coin.eq_of_exhausted hflips hnone hdrawn hflip, hflips] at hdrawn
    obtain ⟨rfl, rfl⟩ : flips = flips' ∧ coin = last.bench.coin := by simpa using hdrawn
    obtain ⟨hfault, hstate, hbench, hone, hpaid⟩ := step_extend_of_exhausted hst hflip
    rw [show o = _ from hrun]
    refine ⟨hfault, hstate, ?_, ?_, ?_⟩
    · refine hbench.trans ?_
      show Bench.mk ⟨last.bench.main, last.bench.aux.moveRight⟩ last.bench.coin = _
      rw [hmain, haux, Function.iterate_succ_apply' _ _ written]
    · show last.ticks + _ = _
      rw [hone, hticks]
    · show last.cost + _ = _
      rw [hpaid, hcost]
      rfl

theorem fault_run_of_exhausted (h : Laid b.toTapes word rest)
    (hflips : b.coin.flips? word.length = none) :
    (Device.run State.scan b).fault = some (.breakdown .coinExhausted) := by
  obtain ⟨n, flips, coin, hlt, hdrawn, hnone⟩ := Coin.exists_exhausted_of_flips? hflips
  obtain rfl := Coin.length_of_flips? hdrawn
  exact (run_of_exhausted h hdrawn hnone hlt).1

/-- **What a sampler leaves.** If its run does not fail, the aux head is on a blank in the end, and
what is read off behind it is a word that is not empty. -/
theorem exists_word_of_run (hr : refusal? b.toTapes = none)
    (hf : (Device.run State.scan b).fault = none) :
    let aux := (Device.run State.scan b).bench.aux
    aux.focus = .blank ∧ ∃ word, word ≠ [] ∧ aux.decodeWord = Letter.spell word := by
  intro aux
  obtain ⟨block, rest, hlaid⟩ := refusal?_eq_none_iff.mp hr
  cases hflips : b.coin.flips? block.length with
  | none =>
    rw [fault_run_of_exhausted hlaid hflips] at hf
    cases hf
  | some drawn =>
    obtain ⟨flips, coin⟩ := drawn
    obtain ⟨-, -, hbench, -⟩ := run_of_laid hlaid hflips
    have haux : aux = b.aux.inscribed (flips.map Letter.ofFlip) := congrArg (·.aux) hbench
    obtain ⟨p, q, hblank⟩ := hlaid.aux_blank
    obtain ⟨k, hright⟩ := Tape.right_inscribed_of_blanks (congrArg Tape.right hblank)
      (flips.map Letter.ofFlip)
    rw [haux]
    refine ⟨?_, flips.map Letter.ofFlip, ?_, Tape.decodeWord_of_right hright⟩
    · rw [Tape.inscribed, Tape.focus_withRight]
      exact congrArg Tape.focus hblank
    · -- there is a flip for each letter of a block that has one
      rw [← List.length_pos_iff, List.length_map, Coin.length_of_flips? hflips]
      exact List.length_pos_iff.mpr hlaid.word_ne_nil

end SubseqMachines.Sampler
