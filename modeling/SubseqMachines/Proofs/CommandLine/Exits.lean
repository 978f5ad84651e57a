import SubseqMachines.Proofs.CommandLine.Answers
import SubseqMachines.Proofs.CommandLine.Lengths
import SubseqMachines.Proofs.Text.Plain

/-!
# How command lines end

A command line for the run, the verify or the check command ends in one of two ways. Either all of
the answer is printed and no error is, or nothing is printed but one line that tells why. A machine
that breaks down or is misused would end it in a third way, but none does. Only lengths that no text
has end the run command in a third way.

* `Invocation.parse_verify`: the command line of the verify command.
* `Exit.AllOrNothing`: the two ways, and the condition under which each of them is taken.
* `Exit.TooLong`: the lengths for which there is a third one.
* `Exit.ofCommandLine_all_or_nothing`: the condition and the answer for each of the three commands.
* `Exit.run_of_tooLong_word`: the run command on a word that no text can be.
* `Exit.result_of_verify`: the question that the verify command answers is about the part of its
  block before the first `#`.
-/

namespace SubseqMachines.CommandLine

/-! ## The command line of the verify command -/

theorem readCommand_verify {block word : String} (hblock : block.toList.head? ≠ some '-')
    (hword : word.toList.head? ≠ some '-') :
    readCommand "verify" [block, word] = .ok (.verify (.value block) (.value word), []) := by
  have hwords : verifyGrammar.classify [block, word] =
      .ok [⟨block, .operand⟩, ⟨word, .operand⟩] :=
    verifyGrammar.classify_operand hblock <| verifyGrammar.classify_operand hword rfl
  have hparse : verifyGrammar.parse [block, word] {} =
      .ok ({ block := some (.value block), word := some (.value word) }, []) := by
    rw [Grammar.parse, hwords]
    exact (verifyGrammar.parseWords_operand rfl _ (Grammar.ne_separator_of_no_dash hblock) rfl rfl
      []).trans <| (verifyGrammar.parseWords_operand rfl _ (Grammar.ne_separator_of_no_dash hword)
        rfl rfl []).trans <| verifyGrammar.parseWords_nil _ _ []
  show verifyGrammar.command {} verifyCommand _ = _
  rw [Grammar.command, hparse]
  rfl

/-- **The command line of the verify command.** -/
theorem Invocation.parse_verify (block word : String) (hblock : block.toList.head? ≠ some '-')
    (hword : word.toList.head? ≠ some '-') :
    Invocation.parse ["verify", block, word] =
      .ok { verbose := false, command := .verify (.value block) (.value word) } := by
  have hwords : mainGrammar.classify ["verify", block, word] =
      .ok [⟨"verify", .operand⟩, ⟨block, .operand⟩, ⟨word, .operand⟩] :=
    mainGrammar.classify_operand (by decide) <| mainGrammar.classify_operand hblock <|
      mainGrammar.classify_operand hword rfl
  have hparse : mainGrammar.parse ["verify", block, word] {} =
      .ok ({ command := some (.verify (.value block) (.value word), []) }, []) := by
    rw [Grammar.parse, hwords]
    refine mainGrammar.parseWords_greedy rfl ?_
    show (readCommand "verify" [block, word]).bind _ = _
    rw [readCommand_verify hblock hword]
    rfl
  rw [Invocation.parse, hparse]
  rfl

/-! ## All or nothing -/

namespace Exit

/-- The whole answer is printed, each line with a line feed at its end, and no error. -/
def answered (lines : List String) : Exit :=
  { code := 0, stdout := String.join (lines.map (· ++ "\n")) }

/-- Nothing is printed but one line that tells why the command is refused. -/
def refused (why : String) : Exit :=
  { code := 2, stderr := "error: " ++ why ++ "\n" }

/-- A command line is answered in full under a condition, and by the right lines. It is refused
if the condition does not hold, and what tells why fits on one line. -/
def AllOrNothing (exit : Except Fault Exit) (condition : Prop) (right : List String → Prop) : Prop :=
  (condition ∧ ∃ lines, exit = .ok (answered lines) ∧ right lines) ∨
    (¬ condition ∧ ∃ why, exit = .ok (refused why) ∧ Text.Plain why)

section AllOrNothing

variable {args : List String} {command : Command} {condition : Prop} {right : List String → Prop}

theorem ofCommandLine_quiet (hparse : Invocation.parse args = .ok { verbose := false, command })
    (ownHandler : Bool) (chance : Chance) :
    ofCommandLine args ownHandler chance = ofReport false (command.execute chance) := by
  rw [ofCommandLine, hparse]
  rfl

/-- A report without a debugger that has an answer. -/
theorem AllOrNothing.of_ok {r : Report} {lines : List String} (hc : condition)
    (hresult : r.result = .ok lines) (hdebugger : r.debugger = none) (hright : right lines) :
    AllOrNothing (ofReport false r) condition right := by
  refine .inl ⟨hc, lines, ?_, hright⟩
  simp only [ofReport, hresult, hdebugger]
  rfl

/-- A report that has a refusal instead. -/
theorem AllOrNothing.of_refusal {r : Report} {why : Refusal} (hc : ¬ condition)
    (hresult : r.result = .error (.refusal why)) :
    AllOrNothing (ofReport false r) condition right := by
  refine .inr ⟨hc, why.message, ?_, why.plain_message⟩
  simp only [ofReport, hresult]
  simp [refused, unlines, String.join]

end AllOrNothing

/-- The verdict of a trial on blocks is what the text and the witness call for. -/
theorem decide_phase_eq_commonSubsequence {first word : List Letter} {later : List (List Letter)}
    {s : Trial.State} {n : Nat} (hlen : word.length = first.length)
    (hs : s = .drawn (if ∀ block ∈ later, word.Sublist block then .accept else .reject)
      (Letter.spell word) n) :
    decide (s.phase = .accept) =
      commonSubsequence (blocksText first later) (Letter.spell word) := by
  rw [Bool.eq_iff_iff, decide_eq_true_eq, commonSubsequence_blocksText, hs]
  by_cases hall : ∀ block ∈ later, word.Sublist block
  · rw [if_pos hall]
    exact iff_of_true rfl ⟨hlen, hall⟩
  · rw [if_neg hall]
    have hreject : Trial.Phase.reject ≠ .accept := by decide
    exact iff_of_false hreject fun h => hall h.2

/-- Lengths that are acceptable, but one of which no text has. -/
def TooLong (n m : Int) : Prop :=
  1 ≤ n ∧ 1 ≤ m ∧ (0x8000000000000000 ≤ n ∨ 0x8000000000000000 ≤ m)

/-- **Commands are carried out in full or not at all.** A command line is read as a run, a verify or
a check command with the values that were meant, and the trace is not asked for. Then it is
answered with all lines, or it is refused with nothing printed but one line. It does not end in any
other way, except that the run command fails if both lengths are positive and no text has one of
them. The run command is answered if both lengths are positive. The verify command is answered
if the block is over `a`, `b` and `#` and begins with a letter and the word is over `a` and `b` and
not empty; the lines are those for a matcher that has come to its verdict. The check command is
answered if the text is words over `a` and `b` with a `#` between any two and none is empty. Then the
printed result is what the text and the printed witness call for, and the witness is as long as
the first block. -/
theorem ofCommandLine_all_or_nothing {args : List String} {command : Command}
    (hparse : Invocation.parse args = .ok { verbose := false, command }) (ownHandler : Bool)
    (chance : Chance) :
    let exit := ofCommandLine args ownHandler chance
    (∀ n m : Int, command = .run (.value n) (.value m) →
      (TooLong n m → exit = .error .tooLong) ∧
      (¬ TooLong n m → AllOrNothing exit (1 ≤ n ∧ 1 ≤ m) fun lines =>
        lines = ["Result: " ++ toString (decide (m ≤ n)), "n=" ++ toString n, "m=" ++ toString m,
          "Steps: " ++ toString (matcherSteps n m),
          "Predicted steps: " ++ toString (matcherSteps n m)])) ∧
    (∀ block word : String, command = .verify (.value block) (.value word) →
      AllOrNothing exit (Matcher.IsQuestion block word) fun lines =>
        ∃ t, matcherTapes block word = .ok t ∧
          let o := Device.run Matcher.State.nextLetter { toTapes := t, coin := default }
          o.fault = none ∧ Device.halted o.state = true ∧
            lines = ["Result: " ++ toString (decide (o.state = .accept)),
              "Steps: " ++ toString o.cost.total, "Main: " ++ o.bench.main.render,
              "Aux:  " ++ o.bench.aux.render]) ∧
    ∀ (text : String) (seed : Option Int), command = .check (.value text) (seed.map .value) →
      AllOrNothing exit (Trial.IsBlocks text) fun lines =>
        ∃ t witness, trialTapes text = .ok t ∧
          let o := Device.run Trial.State.drawing
            { toTapes := t, coin := .ofSeed? seed chance.unseeded }
          o.fault = none ∧ Device.halted o.state = true ∧
            lines = ["Result: " ++ toString (commonSubsequence text witness),
              "Witness: " ++ witness, "Blocks verified: " ++ toString o.state.verified,
              "Steps: " ++ toString o.cost.total] ∧
            witness.toList.length = (Text.pieces '#' text.toList).1.length := by
  intro exit
  -- all that is left to know is what the command reports
  have hexit : exit = ofReport false (command.execute chance) :=
    ofCommandLine_quiet hparse ownHandler chance
  rw [hexit]
  refine ⟨?_, ?_, ?_⟩
  · rintro n m rfl
    refine ⟨?_, ?_⟩
    · rintro ⟨hn, hm, hlong⟩
      have hanswer := Command.runLengths_tooLong hn hm hlong
      show ofReport false (Command.runLengths n m) = _
      rw [hanswer]
      rfl
    intro hshort
    by_cases hlengths : 1 ≤ n ∧ 1 ≤ m
    · have hbounds : n < 0x8000000000000000 ∧ m < 0x8000000000000000 := by
        unfold TooLong at hshort
        omega
      obtain ⟨n, rfl⟩ := Int.eq_ofNat_of_zero_le (a := n) (by omega)
      obtain ⟨m, rfl⟩ := Int.eq_ofNat_of_zero_le (a := m) (by omega)
      obtain ⟨trace, hanswer⟩ :=
        Command.runLengths_eq (n := n) (m := m) (by omega) (by omega) (by omega) (by omega)
      exact .of_ok hlengths (congrArg Report.result hanswer) (congrArg Report.debugger hanswer) rfl
    · have hanswer : Command.runLengths n m = .failed (.refusal .lengths) [] :=
        if_pos (by simp; omega)
      exact .of_refusal hlengths (congrArg Report.result hanswer)
  · rintro block word rfl
    by_cases h : Matcher.IsQuestion block word
    · obtain ⟨t, head, letters, ht, -, -, -, hfault, hstate, hanswer⟩ :=
        Command.verifyWord_of_isQuestion h
      refine .of_ok h (congrArg Report.result hanswer) (congrArg Report.debugger hanswer)
        ⟨t, ht, hfault, ?_, rfl⟩
      rw [hstate]
      split <;> rfl
    · obtain ⟨why, hwhy⟩ := Command.verifyWord_refused h
      exact .of_refusal h (congrArg Report.result hwhy)
  · rintro text seed rfl
    by_cases h : Trial.IsBlocks text
    · obtain ⟨t, first, word, later, ht, -, rfl, hlen, hfault, hstate, hanswer⟩ :=
        Command.checkText_of_isBlocks h seed chance.unseeded
      refine .of_ok h (congrArg Report.result hanswer) (congrArg Report.debugger hanswer)
        ⟨t, Letter.spell word, ht, hfault, ?_, ?_, ?_⟩
      · rw [hstate]
        split <;> rfl
      · -- the verdict that is printed is that of the trial
        have hverdict := decide_phase_eq_commonSubsequence hlen hstate
        rw [← hverdict]
        show trialLines _ = _
        rw [trialLines, hstate]
        rfl
      · rw [pieces_blocksText, toList_spell, List.length_map, List.length_map, hlen]
    · obtain ⟨why, hwhy⟩ := Command.checkText_refused h seed chance.unseeded
      exact .of_refusal h (congrArg Report.result hwhy)

/-- The word `b` and the empty word. -/
theorem ofCommandLine_all_or_nothing_ab :
    (∃ lines, ofCommandLine ["verify", "ab", "b"] false default = .ok (answered lines)) ∧
      ∃ why, ofCommandLine ["verify", "ab", ""] false default = .ok (refused why) := by
  have hparse (word : String) := Invocation.parse_verify "ab" word (by decide)
  obtain ⟨-, hb, -⟩ := ofCommandLine_all_or_nothing (hparse "b" (by decide)) false default
  obtain ⟨-, hempty, -⟩ := ofCommandLine_all_or_nothing (hparse "" (by decide)) false default
  have hquestion : Matcher.IsQuestion "ab" "b" :=
    (Matcher.takes_texts_iff "ab" "b").mp ⟨_, rfl, by decide⟩
  constructor
  · obtain ⟨-, lines, hlines, -⟩ | ⟨hnot, -⟩ := hb "ab" "b" rfl
    · exact ⟨lines, hlines⟩
    · exact absurd hquestion hnot
  · obtain ⟨hquestion, -⟩ | ⟨-, why, hwhy, -⟩ := hempty "ab" "" rfl
    · exact absurd rfl hquestion.word_ne_empty
    · exact ⟨why, hwhy⟩

/-- **The run command neither answers nor refuses a word that no text can be.** Both lengths are
positive, and the second one is one more than the greatest length of a text. -/
theorem run_of_tooLong_word :
    let args := ["run", "-n", "1", "-m", "9223372036854775808"]
    Invocation.parse args =
        .ok { verbose := false, command := .run (.value 1) (.value 9223372036854775808) } ∧
      ofCommandLine args false default = .error .tooLong := by
  have hone : Text.readInt? "1" = some ((1 : Nat) : Int) := by decide +kernel
  have hlong : Text.readInt? "9223372036854775808" = some ((0x8000000000000000 : Nat) : Int) := by
    decide +kernel
  exact ⟨Invocation.parse_run hone hlong (by decide) (by decide),
    ofCommandLine_run_tooLong hone hlong (by decide) (by decide) (.inr (Nat.le_refl _)) _ _⟩

/-! ## The question of the verify command -/

/-- What comes before the first `#` of a text. -/
def beforeHash (text : String) : String :=
  String.ofList (Text.pieces '#' text.toList).1

theorem beforeHash_of_not_mem {text : String} (h : '#' ∉ text.toList) : beforeHash text = text := by
  rw [beforeHash, Text.pieces_of_not_mem h, String.ofList_toList]

/-- What is a subsequence of the part before the first `#` is one of the whole text. -/
theorem isSubsequence_of_beforeHash {text word : String}
    (h : isSubsequence (beforeHash text) word = true) : isSubsequence text word = true := by
  rw [isSubsequence, readOff?_isSome_iff, beforeHash, String.toList_ofList] at h
  rw [isSubsequence, readOff?_isSome_iff, ← Text.join_pieces '#' text.toList]
  exact h.trans (List.sublist_append_left _ _)

/-- On a question, what is printed begins with the verdict on what comes before the first `#`. -/
theorem exists_ofCommandLine_of_isQuestion {args : List String} {verbose : Bool}
    {block word : String} (hparse : Invocation.parse args =
      .ok { verbose, command := .verify (.value block) (.value word) })
    (h : Matcher.IsQuestion block word) (ownHandler : Bool) (chance : Chance) :
    ∃ rest stderr, ofCommandLine args ownHandler chance =
      .ok { code := 0, stderr
            stdout := String.join
              ((("Result: " ++ toString (isSubsequence (beforeHash block) word)) :: rest).map
                (· ++ "\n")) } := by
  obtain ⟨t, head, letters, -, -, hpiece, rfl, -, hstate, hanswer⟩ :=
    Command.verifyWord_of_isQuestion h
  have hhead : beforeHash block = Letter.spell head := congrArg String.ofList hpiece
  let o := Device.run Matcher.State.nextLetter { toTapes := t, coin := default }
  have hverdict : decide (o.state = .accept) =
      isSubsequence (Letter.spell head) (Letter.spell letters) := by
    rw [Bool.eq_iff_iff, decide_eq_true_eq, isSubsequence_spell, show o.state = _ from hstate]
    split <;> simp_all
  have hexit : ofCommandLine args ownHandler chance =
      ofReport (verbose && !ownHandler) (Command.verifyWord block (Letter.spell letters)) := by
    rw [ofCommandLine, hparse]
    rfl
  rw [hexit, hanswer, hhead, ← hverdict]
  exact ⟨_, _, rfl⟩

/-- **The verify command answers for what comes before the first `#` of its block.** Whatever command
line it is that ends with the exit code zero, the printed result is whether the word is a
subsequence of that part. A word that is found there is a subsequence of the whole block, and if
there is no `#` the part is the whole block. -/
theorem result_of_verify {args : List String} {verbose ownHandler : Bool} {chance : Chance}
    {block word : String} {e : Exit}
    (hparse : Invocation.parse args =
      .ok { verbose, command := .verify (.value block) (.value word) })
    (hexit : ofCommandLine args ownHandler chance = .ok e) (hcode : e.code = 0) :
    (∃ rest, e.stdout = String.join
      ((("Result: " ++ toString (isSubsequence (beforeHash block) word)) :: rest).map
        (· ++ "\n"))) ∧
    (isSubsequence (beforeHash block) word = true → isSubsequence block word = true) ∧
    ('#' ∉ block.toList → beforeHash block = block) := by
  refine ⟨?_, isSubsequence_of_beforeHash, beforeHash_of_not_mem⟩
  by_cases h : Matcher.IsQuestion block word
  · obtain ⟨rest, stderr, hanswer⟩ := exists_ofCommandLine_of_isQuestion hparse h ownHandler chance
    obtain rfl := Except.ok.inj (hexit.symm.trans hanswer)
    exact ⟨rest, rfl⟩
  · -- a refusal has another exit code
    obtain ⟨why, hwhy⟩ := Command.verifyWord_refused h
    rw [ofCommandLine, hparse] at hexit
    change ofReport _ (Command.verifyWord block word) = _ at hexit
    rw [hwhy] at hexit
    obtain rfl := Except.ok.inj hexit
    cases hcode

/-- A block without a `#`. -/
theorem result_of_verify_ab_b :
    ∃ e rest, ofCommandLine ["verify", "ab", "b"] false default = .ok e ∧
      e.stdout = String.join (("Result: true" :: rest).map (· ++ "\n")) := by
  have hparse := Invocation.parse_verify "ab" "b" (by decide) (by decide)
  have hquestion : Matcher.IsQuestion "ab" "b" :=
    (Matcher.takes_texts_iff "ab" "b").mp ⟨_, rfl, by decide⟩
  obtain ⟨_, _, hexit⟩ := exists_ofCommandLine_of_isQuestion hparse hquestion false default
  obtain ⟨⟨rest, hstdout⟩, -⟩ := result_of_verify hparse hexit rfl
  exact ⟨_, rest, hexit, hstdout⟩

/-- **The word `b` is a subsequence of the block `a#b`, and the verify command denies it.** The
matcher stops at the `#`, and the command has let it through. -/
theorem verify_a_hash_b :
    ∃ e rest, ofCommandLine ["verify", "a#b", "b"] false default = .ok e ∧ e.code = 0 ∧
      e.stdout = String.join (("Result: false" :: rest).map (· ++ "\n")) ∧
      isSubsequence "a#b" "b" = true := by
  have hparse := Invocation.parse_verify "a#b" "b" (by decide) (by decide)
  have hquestion : Matcher.IsQuestion "a#b" "b" :=
    (Matcher.takes_texts_iff "a#b" "b").mp ⟨_, rfl, by decide⟩
  obtain ⟨rest, stderr, hexit⟩ :=
    exists_ofCommandLine_of_isQuestion hparse hquestion false default
  exact ⟨_, rest, hexit, rfl, rfl, by decide⟩

end Exit

end SubseqMachines.CommandLine
