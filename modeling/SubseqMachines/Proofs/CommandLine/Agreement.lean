import SubseqMachines.Proofs.CommandLine.Answers
import SubseqMachines.Proofs.Debugger.Whole

/-!
# The commands and the debugger

A text can be given to a command, or to a debugger on a machine that is built from it. The command
lays out the tapes itself, runs a machine that is in no store, and prints the answer; the debugger
watches the ticks of a machine in a store, with reels that are counted. The two agree: both refuse,
or the debugger shows in the end what the command has printed.

* `Control.decide_name_eq_accept`: a machine that has accepted is known by the name of its state.
* `Store.exists_built_trial`, `Store.exists_built_matcher`: machines that are built from texts run as
  those of the commands do.
* `Command.execute_agrees_with_debugger`: the check command and the verify command agree with it.
-/

namespace SubseqMachines

theorem Control.name_eq_accept_iff (c : Control) : c.name = "S_ACCEPT" ↔ c.accepted = true := by
  cases c with
  | matcher s =>
    cases s with
    | seek l => cases l <;> decide
    | nextLetter | rewindMatched | rewindUnmatched | drain | accept | reject => decide
  | sampler s => cases s <;> decide
  | trial s =>
    cases s with
    | drawing => decide
    | drawn stage witness verified =>
      cases stage with
      | boundary | verify | accept | reject =>
        simp [name, accepted, Trial.State.phase, Trial.Stage.phase, Trial.Phase.name]

/-- Whether a machine has accepted can be told by the name of its state. -/
theorem Control.decide_name_eq_accept (c : Control) :
    decide (c.name = "S_ACCEPT") = c.accepted := by
  rw [Bool.eq_iff_iff, decide_eq_true_eq]
  exact c.name_eq_accept_iff

/-! ## Machines for the two commands -/

namespace Store

variable (σ : Store)

/-- A trial that is built from blocks runs as one that is in no store. -/
theorem exists_built_trial {text : String} {t : Tapes} (ht : trialTapes text = .ok t)
    (hnone : Trial.refusal? t = none) (seed : Option Int) (unseeded : Twister) :
    ∃ built, σ.build "m3" text none seed unseeded = .ok built ∧
      σ.enter .trial t (.ofSeed? seed unseeded) = .ok built ∧
      Ran built ((Device.run Trial.State.drawing
        { toTapes := t, coin := .ofSeed? seed unseeded }).map .trial) := by
  have hname : MachineKind.ofName? "m3" = some .trial := rfl
  have hlayout : MachineKind.trial.layout text none = .ok t := ht
  rw [← Control.run_trial]
  exact σ.build_of_takes hname hlayout hnone seed unseeded

theorem build_trial_refused {text : String} (h : ¬ Trial.IsBlocks text) (seed : Option Int)
    (unseeded : Twister) : ∃ why, σ.build "m3" text none seed unseeded = .error (.refusal why) := by
  have hname : MachineKind.ofName? "m3" = some .trial := rfl
  have hrefused : ∀ t, MachineKind.trial.layout text none = .ok t →
      MachineKind.trial.refusal? t ≠ none :=
    fun t ht hnone => h ((Trial.takes_text_iff text).mp ⟨t, ht, hnone⟩)
  exact σ.build_refused hname hrefused seed unseeded

/-- A matcher that is built from a question runs as one that is in no store. It has no coin, so
the seed is of no account. -/
theorem exists_built_matcher {block word : String} {t : Tapes} (hword : word ≠ "")
    (ht : matcherTapes block word = .ok t) (hnone : Matcher.refusal? t = none)
    (seed : Option Int) (unseeded : Twister) :
    ∃ built, σ.build "m1" block (some word) seed unseeded = .ok built ∧
      σ.enter .matcher t (.ofSeed? seed unseeded) = .ok built ∧
      Ran built ((Device.run Matcher.State.nextLetter
        { toTapes := t, coin := default }).map .matcher) := by
  have hname : MachineKind.ofName? "m1" = some .matcher := rfl
  have hlayout : MachineKind.matcher.layout block (some word) = .ok t := by
    show (if word.isEmpty then _ else _) = _
    rw [if_neg (by simpa using hword), Option.getD_some, ht]
  rw [← Control.run_matcher]
  exact σ.build_of_takes hname hlayout hnone seed unseeded

theorem build_matcher_refused {block word : String} (h : ¬ Matcher.IsQuestion block word)
    (seed : Option Int) (unseeded : Twister) :
    ∃ why, σ.build "m1" block (some word) seed unseeded = .error (.refusal why) := by
  have hname : MachineKind.ofName? "m1" = some .matcher := rfl
  have hrefused : ∀ t, MachineKind.matcher.layout block (some word) = .ok t →
      MachineKind.matcher.refusal? t ≠ none := by
    intro t ht hnone
    -- an empty word is refused before there are any tapes
    change (if word.isEmpty then _ else _) = _ at ht
    split at ht
    · cases ht
    · exact h ((Matcher.takes_texts_iff block word).mp ⟨t, ht, hnone⟩)
  exact σ.build_refused hname hrefused seed unseeded

end Store

/-! ## Agreement -/

namespace CommandLine

namespace Command

/-- **The commands and the debugger agree.** A text and a seed are given to the check command, and a
trial is built from them; or a block and a word are given to the verify command, and a matcher is
built from them. Then the command and the building are both refused, if not for the same reason, or
the key for the whole run brings the debugger on the machine to its end without a fault. The command
has printed whether the machine is then in its accepting state, the number on its counter, and the
witness and the number of verified blocks of a trial or the tapes of a matcher. What generators
without a seed start from is of no account. -/
theorem execute_agrees_with_debugger (σ : Store) (chance : Chance) (unseeded : Twister) :
    (∀ (text : String) (seed : Int),
      let answer := (execute (.check (.value text) (some (.value seed))) chance).result
      (∃ why why', answer = .error (.refusal why) ∧
        σ.build "m3" text none (some seed) unseeded = .error (.refusal why')) ∨
      ∃ built witness, σ.build "m3" text none (some seed) unseeded = .ok built ∧
        let s := (Debugger.opened built.store built.machine built.counter false).press .runToEnd
        let c := (s.store.machines.get built.machine).control
        s.fault = none ∧ s.debugger.finished = true ∧ Device.halted c = true ∧
        c.witness? = some witness ∧
        answer = .ok ["Result: " ++ toString (decide (c.name = "S_ACCEPT")),
          "Witness: " ++ witness, "Blocks verified: " ++ toString c.verified,
          "Steps: " ++ toString (s.store.counters.get built.counter).value]) ∧
    ∀ (block word : String) (seed : Option Int),
      let answer := (execute (.verify (.value block) (.value word)) chance).result
      (∃ why why', answer = .error (.refusal why) ∧
        σ.build "m1" block (some word) seed unseeded = .error (.refusal why')) ∨
      ∃ built t, σ.build "m1" block (some word) seed unseeded = .ok built ∧
        let s := (Debugger.opened built.store built.machine built.counter false).press .runToEnd
        let c := (s.store.machines.get built.machine).control
        s.fault = none ∧ s.debugger.finished = true ∧ Device.halted c = true ∧
        s.store.shown built.machine = .ok t ∧
        answer = .ok ["Result: " ++ toString (decide (c.name = "S_ACCEPT")),
          "Steps: " ++ toString (s.store.counters.get built.counter).value,
          "Main: " ++ t.main.render, "Aux:  " ++ t.aux.render] := by
  constructor
  · intro text seed answer
    by_cases h : Trial.IsBlocks text
    · right
      obtain ⟨t, first, word, later, ht, hnone, -, -, -, hstate, hanswer⟩ :=
        checkText_of_isBlocks h (some seed) chance.unseeded
      obtain ⟨built, hbuilt, henter, hran⟩ := σ.exists_built_trial ht hnone (some seed) unseeded
      obtain ⟨hescaped, hfinished, hcontrol, -, hvalue⟩ := Debugger.ends_of_ran henter hran
      refine ⟨built, Letter.spell word, hbuilt, ?_⟩
      intro s c
      let o := Device.run Trial.State.drawing { toTapes := t, coin := .ofSeed seed }
      -- the trial of the command and the one in the store have the same outcome
      change c = Control.trial o.state at hcontrol
      change o.state = _ at hstate
      refine ⟨hescaped, hfinished, ?_, ?_, ?_⟩
      · rw [hcontrol, hstate]
        split <;> rfl
      · rw [hcontrol, hstate]
        rfl
      · rw [Control.decide_name_eq_accept, hcontrol, hvalue]
        refine (congrArg Report.result hanswer).trans (congrArg Except.ok ?_)
        -- the trial has drawn its witness, which is what the command prints
        show trialLines o = _
        rw [trialLines, hstate]
        rfl
    · left
      obtain ⟨why, hwhy⟩ := checkText_refused h (some seed) chance.unseeded
      obtain ⟨why', hwhy'⟩ := σ.build_trial_refused h (some seed) unseeded
      exact ⟨why, why', congrArg Report.result hwhy, hwhy'⟩
  · intro block word seed answer
    by_cases h : Matcher.IsQuestion block word
    · right
      obtain ⟨t, head, letters, ht, hnone, -, -, -, hstate, hanswer⟩ := verifyWord_of_isQuestion h
      obtain ⟨built, hbuilt, henter, hran⟩ :=
        σ.exists_built_matcher h.word_ne_empty ht hnone seed unseeded
      obtain ⟨hescaped, hfinished, hcontrol, hshown, hvalue⟩ := Debugger.ends_of_ran henter hran
      let o := Device.run Matcher.State.nextLetter { toTapes := t, coin := default }
      refine ⟨built, o.bench.toTapes, hbuilt, ?_⟩
      intro s c
      change c = Control.matcher o.state at hcontrol
      change o.state = _ at hstate
      refine ⟨hescaped, hfinished, ?_, hshown, ?_⟩
      · rw [hcontrol, hstate]
        split <;> rfl
      · rw [Control.decide_name_eq_accept, hcontrol, hvalue]
        exact congrArg Report.result hanswer
    · left
      obtain ⟨why, hwhy⟩ := verifyWord_refused h
      obtain ⟨why', hwhy'⟩ := σ.build_matcher_refused h seed unseeded
      exact ⟨why, why', congrArg Report.result hwhy, hwhy'⟩

end Command

end CommandLine

end SubseqMachines
