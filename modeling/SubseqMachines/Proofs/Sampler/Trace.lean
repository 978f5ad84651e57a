import SubseqMachines.Proofs.Coin.Flips
import SubseqMachines.Proofs.Machine.Trace
import SubseqMachines.Proofs.Sampler.Layout

/-!
# The states that a sampler passes through

Which states a sampler passes through depends on the length of its word only: neither on the letters
of the word nor on the flips, nor on what follows the word.

* `Sampler.itinerary`: the states from the first to the final one.
* `Sampler.trace_run_rewind`, `Sampler.trace_run_scan`: what a run reports from a state on.
* `Sampler.trace_run_of_laid`: a run reports the itinerary.
-/

namespace SubseqMachines.Sampler

/-- The states of a sampler on a word of `n` letters, in order: it scans and extends in turn, and
then goes back over the letters that it has written. -/
def itinerary (n : Nat) : List State :=
  State.scan :: ((List.replicate n [State.extend, State.scan]).flatten ++
    (List.replicate n State.rewind ++ [State.accept]))

variable {b : Bench} {rest cells : List Cell}

/-- The way back from the last of the letters that have been written. -/
theorem trace_run_rewind {written : List Letter} (hne : written ≠ [])
    (h : b.aux.focus :: b.aux.left = written.map .aux ++ .blank :: cells) :
    (Device.run State.rewind b).trace =
      (List.replicate written.length State.rewind ++ [State.accept]).map .sampler := by
  induction written generalizing b with
  | nil => exact absurd rfl hne
  | cons l written ih =>
    have hleft : b.aux.left = written.map .aux ++ .blank :: cells := (List.cons.inj h).2
    let c := b.move .aux .left
    have hfocus : (c.on .aux).focus = b.aux.left.headD .blank := Tape.focus_moveLeft b.aux
    cases written with
    | nil =>
      -- the blank in front of the word
      have hnext : afterRewind (c.on .aux).focus = some .accept := by
        rw [hfocus, hleft]
        rfl
      exact Device.trace_run_of_transition (s := State.rewind) rfl (Outcome.afterRead_of_some hnext)
    | cons k written =>
      have hnext : afterRewind (c.on .aux).focus = some .rewind := by
        rw [hfocus, hleft]
        rfl
      have hc : c.aux.focus :: c.aux.left = (k :: written).map .aux ++ .blank :: cells := by
        rw [← hleft]
        show b.aux.moveLeft.focus :: b.aux.moveLeft.left = b.aux.left
        simp [hleft]
      have hstep := Device.trace_run_of_transition (s := State.rewind) rfl
        (Outcome.afterRead_of_some hnext)
      exact hstep.trans (congrArg (Event.sampler .rewind :: ·) (ih (by simp) hc))

/-- The way out over the letters that are ahead, and the way back. -/
theorem trace_run_scan {word written : List Letter} (hne : written ++ word ≠ [])
    (hmain : b.main.right = word.map .main ++ rest)
    (hclosed : (rest.headD .blank).isBlockEnd = true)
    (haux : b.aux.focus :: b.aux.left = written.map .aux ++ .blank :: cells)
    (hcoin : (b.coin.flips? word.length).isSome = true) :
    (Device.run State.scan b).trace =
      (State.scan :: ((List.replicate word.length [State.extend, State.scan]).flatten ++
        (List.replicate (written.length + word.length) State.rewind ++ [State.accept]))).map
          .sampler := by
  -- on the letters that are ahead: each of them adds one to those that are written
  induction word generalizing b written with
  | nil =>
    -- the end of the word
    let c := b.move .main .right
    have hfocus : (c.on .main).focus = rest.headD .blank := by
      refine (Tape.focus_moveRight b.main).trans ?_
      rw [hmain]
      rfl
    have hnext : afterScan (c.on .main).focus = some .rewind := by
      rw [hfocus]
      cases hc : rest.headD .blank <;> simp_all [Cell.isBlockEnd, afterScan]
    have hstep := Device.trace_run_of_transition (s := State.scan) rfl
      (Outcome.afterRead_of_some hnext)
    rw [List.append_nil] at hne
    exact hstep.trans (congrArg (Event.sampler .scan :: ·) (trace_run_rewind (b := c) hne haux))
  | cons l word ih =>
    -- a letter, for which a flip is drawn
    let c := b.move .main .right
    have hfocus : (c.on .main).focus = .main l := by
      refine (Tape.focus_moveRight b.main).trans ?_
      rw [hmain]
      rfl
    have hnext : afterScan (c.on .main).focus = some .extend := by
      rw [hfocus]
      rfl
    have hscan := Device.trace_run_of_transition (s := State.scan) rfl
      (Outcome.afterRead_of_some hnext)
    obtain ⟨f, coin, hflip, hleft⟩ := Coin.exists_flip_of_flips?_succ hcoin
    let d : Bench := { c with aux := c.aux.moveRight.write (.aux (.ofFlip f)), coin }
    have hextend : Device.transition State.extend c =
        { state := State.scan, bench := d, cost := .on .aux 2 } := by
      show extend c = _
      rw [extend, Coin.flip, show c.coin.flip? = some (f, coin) from hflip]
      rfl
    have hstep := Device.trace_run_of_transition (s := State.extend) rfl hextend
    have hdmain : d.main.right = word.map .main ++ rest := by
      show b.main.moveRight.right = _
      rw [Tape.right_moveRight, hmain]
      rfl
    have hdaux : d.aux.focus :: d.aux.left =
        (Letter.ofFlip f :: written).map .aux ++ .blank :: cells := by
      show Cell.aux (.ofFlip f) :: b.aux.moveRight.left = _
      rw [Tape.left_moveRight, haux]
      rfl
    have hrest := ih (b := d) (by simp) hdmain hdaux hleft
    have hlen : (Letter.ofFlip f :: written).length + word.length =
        written.length + (l :: word).length := by
      rw [List.length_cons, List.length_cons]
      omega
    rw [hlen] at hrest
    refine hscan.trans (congrArg (Event.sampler .scan :: ·) ?_)
    exact hstep.trans (congrArg (Event.sampler .extend :: ·) hrest)

/-- **What a sampler reports.** On tapes laid out for it, with a flip for each letter, it passes
through the states of its itinerary. -/
theorem trace_run_of_laid {word : List Letter} (h : Laid b.toTapes word rest)
    (hcoin : (b.coin.flips? word.length).isSome = true) :
    (Device.run State.scan b).trace = (itinerary word.length).map .sampler := by
  obtain ⟨m, n, haux⟩ := h.aux_blank
  have hbehind : b.aux.focus :: b.aux.left = ([] : List Letter).map .aux ++
      .blank :: List.replicate m .blank := by
    rw [haux]
    rfl
  have hne : ([] : List Letter) ++ word ≠ [] := h.word_ne_nil
  have htrace := trace_run_scan hne h.main_right h.rest_head hbehind hcoin
  rw [List.length_nil, Nat.zero_add] at htrace
  exact htrace

end SubseqMachines.Sampler
