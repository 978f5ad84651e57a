import SubseqMachines.CommandLine.Report
import SubseqMachines.Proofs.Coin.Flips
import SubseqMachines.Proofs.Machine.Texts
import SubseqMachines.Proofs.Matcher.Invariant
import SubseqMachines.Proofs.Trial.Invariant

/-!
# What the commands on texts answer

The verify command and the check command lay tapes out for the texts they are given. If a matcher,
or a trial, takes these tapes, it comes to its verdict and the command reports it. If it does not,
or if there are no tapes for the texts, the command refuses and has reported nothing.

* `questionLines`, `trialLines`: the lines for what a matcher and a trial have done.
* `Command.verifyWord_of_isQuestion`, `Command.verifyWord_refused`: the verify command.
* `Command.checkText_of_isBlocks`, `Command.checkText_refused`: the check command.
-/

namespace SubseqMachines.CommandLine

/-- The lines that the verify command prints of what a matcher has done. -/
def questionLines (o : Outcome Matcher.State) : List String :=
  ["Result: " ++ toString (decide (o.state = .accept)), "Steps: " ++ toString o.cost.total,
    "Main: " ++ o.bench.main.render, "Aux:  " ++ o.bench.aux.render]

/-- The lines that the check command prints of what a trial has done. -/
def trialLines (o : Outcome Trial.State) : List String :=
  ["Result: " ++ toString (decide (o.state.phase = .accept)),
    "Witness: " ++ o.state.witness?.getD "", "Blocks verified: " ++ toString o.state.verified,
    "Steps: " ++ toString o.cost.total]

namespace Command

/-! ## The verify command -/

section Verify

variable {block word : String}

/-- **The answer to a question.** The matcher looks at the part of the block before its first `#`,
and comes to its verdict. -/
theorem verifyWord_of_isQuestion (h : Matcher.IsQuestion block word) :
    ∃ (t : Tapes) (head letters : List Letter),
      matcherTapes block word = .ok t ∧ Matcher.refusal? t = none ∧
        (Text.pieces '#' block.toList).1 = head.map Letter.char ∧ word = Letter.spell letters ∧
        let o := Device.run Matcher.State.nextLetter { toTapes := t, coin := default }
        o.fault = none ∧ o.state = (if letters.Sublist head then .accept else .reject) ∧
          verifyWord block word = { trace := o.trace, result := .ok (questionLines o) } := by
  obtain ⟨t, head, letters, rest, ht, hlaid, hclosed, hpiece, hword⟩ :=
    Matcher.exists_laid_of_isQuestion h
  have hnone : Matcher.refusal? t = none := Matcher.refusal?_eq_none_iff.mpr ⟨_, _, _, hlaid⟩
  obtain ⟨hfault, hstate, -⟩ :=
    Matcher.run_of_laid (b := { toTapes := t, coin := default }) hlaid hclosed
  refine ⟨t, head, letters, ht, hnone, hpiece, hword, ?_⟩
  intro o
  refine ⟨hfault, hstate, ?_⟩
  rw [verifyWord, ht]
  show Report.ofMatcher t _ = _
  rw [Report.ofMatcher, hnone]
  show Report.mk o.trace (o.fault.elim (.ok (questionLines o)) .error) none = _
  rw [show o.fault = none from hfault, Option.elim_none]

theorem verifyWord_refused (h : ¬ Matcher.IsQuestion block word) :
    ∃ r, verifyWord block word = .failed (.refusal r) [] := by
  rw [verifyWord]
  cases ht : matcherTapes block word with
  | error f =>
    obtain ⟨r, rfl⟩ := exists_refusal_of_matcherTapes ht
    exact ⟨r, rfl⟩
  | ok t =>
    -- there are tapes, so it is the matcher that does not take them
    have hne : Matcher.refusal? t ≠ none := fun hnone =>
      h ((Matcher.takes_texts_iff block word).mp ⟨t, ht, hnone⟩)
    obtain ⟨r, hr⟩ := Option.ne_none_iff_exists'.mp hne
    refine ⟨r, ?_⟩
    show Report.ofMatcher t _ = _
    rw [Report.ofMatcher, hr]

end Verify

/-! ## The check command -/

section Check

variable {text : String}

theorem coinSeed_map_value (seed : Option Int) : coinSeed (seed.map .value) = .ok seed := by
  cases seed <;> rfl

/-- **The answer for blocks.** A coin with a generator does not run out, and the trial comes to its
verdict on the word that it has drawn. -/
theorem checkText_of_isBlocks (h : Trial.IsBlocks text) (seed : Option Int)
    (unseeded : Twister) :
    ∃ (t : Tapes) (first word : List Letter) (later : List (List Letter)),
      trialTapes text = .ok t ∧ Trial.refusal? t = none ∧ text = blocksText first later ∧
        word.length = first.length ∧
        let o := Device.run Trial.State.drawing { toTapes := t, coin := .ofSeed? seed unseeded }
        o.fault = none ∧
          o.state = .drawn (if ∀ block ∈ later, word.Sublist block then .accept else .reject)
            (Letter.spell word) (Trial.tested word later) ∧
          checkText text (seed.map .value) unseeded =
            { trace := o.trace, result := .ok (trialLines o) } := by
  obtain ⟨first, later, hfirst, hlater, rfl⟩ := Trial.isBlocks_iff.mp h
  have ht := Trial.trialTapes_blocksText first later
  have hlaid := Trial.laid_startingAt hfirst hlater
  generalize Tapes.mk (.startingAt .blank (first.map .main ++ Trial.laterCells later)) .blank = t
    at ht hlaid
  have hnone : Trial.refusal? t = none := Trial.refusal?_eq_none_iff.mpr ⟨_, _, hlaid⟩
  obtain ⟨flips, left, hflips⟩ :=
    Coin.exists_flips?_seeded first.length (seed.elim unseeded .ofSeed)
  obtain ⟨hfault, hstate, -⟩ :=
    Trial.run_of_laid (b := { toTapes := t, coin := .ofSeed? seed unseeded }) hlaid hflips rfl
  refine ⟨t, first, flips.map Letter.ofFlip, later, ht, hnone, rfl, ?_, ?_⟩
  · rw [List.length_map, Coin.length_of_flips? hflips]
  · intro o
    refine ⟨hfault, hstate, ?_⟩
    simp only [checkText, ht, coinSeed_map_value, hnone, bind, Except.bind, pure, Except.pure]
    show Report.mk o.trace (o.fault.elim (.ok (trialLines o)) .error) none = _
    rw [show o.fault = none from hfault, Option.elim_none]

theorem checkText_refused (h : ¬ Trial.IsBlocks text) (seed : Option Int) (unseeded : Twister) :
    ∃ r, checkText text (seed.map .value) unseeded = .failed (.refusal r) [] := by
  cases ht : trialTapes text with
  | error f =>
    have hlayout : MachineKind.trial.layout text none = .error f := ht
    obtain ⟨r, rfl⟩ := MachineKind.exists_refusal_of_layout hlayout
    exact ⟨r, by rw [checkText, ht]; rfl⟩
  | ok t =>
    have hne : Trial.refusal? t ≠ none := fun hnone =>
      h ((Trial.takes_text_iff text).mp ⟨t, ht, hnone⟩)
    obtain ⟨r, hr⟩ := Option.ne_none_iff_exists'.mp hne
    refine ⟨r, ?_⟩
    simp only [checkText, ht, coinSeed_map_value, hr, bind, Except.bind, pure, Except.pure]

end Check

end Command

end SubseqMachines.CommandLine
