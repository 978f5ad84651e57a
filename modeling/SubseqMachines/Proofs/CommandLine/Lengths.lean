import SubseqMachines.CommandLine.Report
import SubseqMachines.Proofs.Machine.Texts
import SubseqMachines.Proofs.Matcher.Invariant
import SubseqMachines.Proofs.Subsequence.Unary

/-!
# The run command

The run command is given two lengths, makes a block and a word of one letter, and runs a matcher on
them. The command line that says so is read in two stages: the main grammar hands all that follows
the name of the command on to the grammar of the command.

* `Text.readInt?_nonpos_of_dash`: a text that starts with `-` is no positive integer, so the texts
  of positive integers are operands to every grammar.
* `Grammar.parseWords_value`: an option is taken together with the operand that is its value.
* `Grammar.parseWords_greedy`, `Grammar.parseWords_operand`: operands are taken.
* `Invocation.parse_run`: the command line of the run command.
* `Report.ofMatcher_of_laid`: what a matcher on a block and a word reports.
* `Command.runLengths_eq`, `Exit.ofCommandLine_run`: what the run command answers.
* `Command.runLengths_tooLong`, `Exit.ofCommandLine_run_tooLong`: lengths that no text has.
-/

namespace SubseqMachines

/-! ## Texts of positive integers -/

namespace Text

theorem exists_trim_cons {c : Char} (hc : isBlank c = false) (text : List Char) :
    ∃ rest, trim (c :: text) = c :: rest := by
  have htrim : trim (c :: text) = ((text.reverse ++ [c]).dropWhile isBlank).reverse := by
    rw [trim, List.dropWhile_cons_of_neg (by simp [hc]), List.reverse_cons]
  have hlast : [c].dropWhile isBlank = [c] := List.dropWhile_cons_of_neg (by simp [hc])
  rw [htrim, List.dropWhile_append, hlast]
  split
  · exact ⟨[], rfl⟩
  · exact ⟨_, List.reverse_concat⟩

theorem readInt?_nonpos_of_dash {text : String} (hdash : text.toList.head? = some '-') {i : Int}
    (h : readInt? text = some i) : i ≤ 0 := by
  obtain ⟨after, htext⟩ : ∃ after, text.toList = '-' :: after := List.head?_eq_some_iff.mp hdash
  obtain ⟨digits, htrim⟩ := exists_trim_cons (show isBlank '-' = false by decide) after
  rw [readInt?, htext, htrim] at h
  obtain ⟨n, -, rfl⟩ := Option.map_eq_some_iff.mp h
  show -(n : Int) ≤ 0
  omega

/-- The text of a positive integer does not start with `-`. -/
theorem head?_ne_dash_of_readInt? {text : String} {i : Int} (h : readInt? text = some i)
    (hi : 1 ≤ i) : text.toList.head? ≠ some '-' := by
  intro hdash
  have := readInt?_nonpos_of_dash hdash h
  omega

end Text

namespace CommandLine

/-! ## Reading the words of a command line -/

namespace Grammar

variable {σ : Type} (g : Grammar σ)

theorem roleOf_of_no_dash {arg : String} (h : arg.toList.head? ≠ some '-') :
    g.roleOf arg = .ok .operand := by
  unfold roleOf
  split
  · rename_i rest heq
    simp [heq] at h
  · rfl

theorem ne_separator_of_no_dash {arg : String} (h : arg.toList.head? ≠ some '-') : arg ≠ "--" := by
  rintro rfl
  exact h rfl

theorem classify_cons {arg : String} {args : List String} {role : Role σ} {words : List (Word σ)}
    (hne : arg ≠ "--") (hrole : g.roleOf arg = .ok role) (hargs : g.classify args = .ok words) :
    g.classify (arg :: args) = .ok (⟨arg, role⟩ :: words) := by
  rw [classify, if_neg hne, hrole, hargs]
  rfl

theorem classify_operand {arg : String} {args : List String} {words : List (Word σ)}
    (h : arg.toList.head? ≠ some '-') (hargs : g.classify args = .ok words) :
    g.classify (arg :: args) = .ok (⟨arg, .operand⟩ :: words) :=
  g.classify_cons (ne_separator_of_no_dash h) (g.roleOf_of_no_dash h) hargs

/-- An option that takes a value takes the operand that comes next. -/
theorem parseWords_value (operands : List (Operand σ)) {o : Opt σ}
    {f : String → Given String → σ → Except UsageError σ} (ho : o.effect = .value f)
    {v : String} {x y : σ} (hf : f o.title (.ofArgument v) x = .ok y) (arg name : String)
    (rest : List (Word σ)) (leftOver : List String) :
    g.parseWords operands (⟨arg, .option o name none⟩ :: ⟨v, .operand⟩ :: rest) x leftOver =
      g.parseWords operands rest y leftOver := by
  rw [parseWords]
  simp [plan, planAlone, ho, apply, hf, Except.mapError, bind, Except.bind, pure, Except.pure]

theorem parseWords_nil (operands : List (Operand σ)) (x : σ) (leftOver : List String) :
    g.parseWords operands [] x leftOver = .ok (x, leftOver) := by
  rw [parseWords]

/-- An operand takes the words that are its own. -/
theorem parseWords_taken {operand : Operand σ} (operands : List (Operand σ)) {text : String}
    {rest left : List (Word σ)} {args : List String} {x y : σ}
    (htaken : takeOperand operand.greedy (⟨text, .operand⟩ :: rest) = some (args, left))
    (htake : operand.take args x = .ok y) (leftOver : List String) :
    g.parseWords (operand :: operands) (⟨text, .operand⟩ :: rest) x leftOver =
      g.parseWords operands left y leftOver := by
  rw [parseWords]
  · split
    · rename_i hnone
      rw [htaken] at hnone
      cases hnone
    · rename_i hsome
      rw [htaken] at hsome
      cases hsome
      rw [htake]
  · intro hstranger
    cases hstranger
  · intro o name joined hoption
    cases hoption

/-- An operand that is greedy takes all words. -/
theorem parseWords_greedy {operand : Operand σ} (hgreedy : operand.greedy = true)
    {text : String} {rest : List (Word σ)} {x y : σ}
    (htake : operand.take (text :: rest.map (·.text)) x = .ok y) :
    g.parseWords [operand] (⟨text, .operand⟩ :: rest) x [] = .ok (y, []) := by
  have hall : takeOperand operand.greedy (⟨text, .operand⟩ :: rest) =
      some (text :: rest.map (·.text), []) := by
    rw [hgreedy]
    rfl
  rw [g.parseWords_taken [] hall htake, parseWords_nil]

/-- An operand that is not greedy takes the next word. -/
theorem parseWords_operand {operand : Operand σ} (hgreedy : operand.greedy = false)
    (operands : List (Operand σ)) {text : String} (hne : text ≠ "--") {rest : List (Word σ)}
    (hrest : rest.takeWhile isSeparator = []) {x y : σ} (htake : operand.take [text] x = .ok y)
    (leftOver : List String) :
    g.parseWords (operand :: operands) (⟨text, .operand⟩ :: rest) x leftOver =
      g.parseWords operands rest y leftOver := by
  have hdrop : rest.dropWhile isSeparator = rest := by
    have hsplit := List.takeWhile_append_dropWhile (p := isSeparator) (l := rest)
    rwa [hrest, List.nil_append] at hsplit
  have hone : takeOperand operand.greedy (⟨text, .operand⟩ :: rest) = some ([text], rest) := by
    have herase : [text].erase "--" = [text] := by simp [hne]
    rw [hgreedy]
    show some (([] ++ text :: (rest.takeWhile isSeparator).map Word.text).erase "--",
      rest.dropWhile isSeparator) = _
    rw [hrest, hdrop, List.map_nil, List.nil_append, herase]
  exact g.parseWords_taken operands hone htake leftOver

end Grammar

/-! ## The command line of the run command -/

/-- The value that an option for an integer takes in. -/
theorem ofArgument_of_no_dash {text : String} (h : text.toList.head? ≠ some '-') :
    Given.ofArgument text = .value text :=
  if_neg (Grammar.ne_separator_of_no_dash h)

section Run

variable {textN textM : String} {n m : Int}

theorem readCommand_run (hn : Text.readInt? textN = some n) (hm : Text.readInt? textM = some m)
    (hn1 : 1 ≤ n) (hm1 : 1 ≤ m) :
    readCommand "run" ["-n", textN, "-m", textM] = .ok (.run (.value n) (.value m), []) := by
  have hdashN := Text.head?_ne_dash_of_readInt? hn hn1
  have hdashM := Text.head?_ne_dash_of_readInt? hm hm1
  -- both options are known by their exact names
  let optionN : Opt Lengths := integerOption "-n" fun i x => { x with n := some i }
  let optionM : Opt Lengths := integerOption "-m" fun i x => { x with m := some i }
  have hwords : runGrammar.classify ["-n", textN, "-m", textM] =
      .ok [⟨"-n", .option optionN "-n" none⟩, ⟨textN, .operand⟩,
        ⟨"-m", .option optionM "-m" none⟩, ⟨textM, .operand⟩] :=
    runGrammar.classify_cons (by decide) rfl <| runGrammar.classify_operand hdashN <|
      runGrammar.classify_cons (by decide) rfl <| runGrammar.classify_operand hdashM rfl
  have hparse : runGrammar.parse ["-n", textN, "-m", textM] {} =
      .ok ({ n := some (.value n), m := some (.value m) }, []) := by
    rw [Grammar.parse, hwords]
    show runGrammar.parseWords _ _ _ _ = _
    rw [runGrammar.parseWords_value (o := optionN) _ rfl
      (y := { n := some (.value n), m := none }), runGrammar.parseWords_value (o := optionM) _ rfl
      (y := { n := some (.value n), m := some (.value m) }), Grammar.parseWords_nil]
    · simp only [ofArgument_of_no_dash hdashM, hm]
    · simp only [ofArgument_of_no_dash hdashN, hn]
  show runGrammar.command {} runCommand _ = _
  rw [Grammar.command, hparse]
  rfl

/-- **The command line of the run command.** -/
theorem Invocation.parse_run (hn : Text.readInt? textN = some n)
    (hm : Text.readInt? textM = some m) (hn1 : 1 ≤ n) (hm1 : 1 ≤ m) :
    Invocation.parse ["run", "-n", textN, "-m", textM] =
      .ok { verbose := false, command := .run (.value n) (.value m) } := by
  have hdashN := Text.head?_ne_dash_of_readInt? hn hn1
  have hdashM := Text.head?_ne_dash_of_readInt? hm hm1
  -- the options are strangers to the main grammar, and the command takes them all the same
  have hwords : mainGrammar.classify ["run", "-n", textN, "-m", textM] =
      .ok [⟨"run", .operand⟩, ⟨"-n", .stranger⟩, ⟨textN, .operand⟩, ⟨"-m", .stranger⟩,
        ⟨textM, .operand⟩] :=
    mainGrammar.classify_operand (by decide) <| mainGrammar.classify_cons (by decide) rfl <|
      mainGrammar.classify_operand hdashN <| mainGrammar.classify_cons (by decide) rfl <|
        mainGrammar.classify_operand hdashM rfl
  have hparse : mainGrammar.parse ["run", "-n", textN, "-m", textM] {} =
      .ok ({ command := some (.run (.value n) (.value m), []) }, []) := by
    rw [Grammar.parse, hwords]
    refine mainGrammar.parseWords_greedy rfl ?_
    show (readCommand "run" ["-n", textN, "-m", textM]).bind _ = _
    rw [readCommand_run hn hm hn1 hm1]
    rfl
  rw [Invocation.parse, hparse]
  rfl

end Run

/-! ## What the run command answers -/

/-- What a matcher on a block and a word reports. -/
theorem Report.ofMatcher_of_laid {t : Tapes} {block word : List Letter} {rest : List Cell}
    (h : Matcher.Laid t block word rest) (hclosed : (rest.headD .blank).isBlockEnd = true)
    (lines : Outcome Matcher.State → List String) :
    let o := Device.run Matcher.State.nextLetter { toTapes := t, coin := default }
    Report.ofMatcher t lines =
      { trace := o.trace
        result := .ok (("Result: " ++ toString (decide (word.Sublist block))) :: lines o) } := by
  intro o
  have hnone : Matcher.refusal? t = none := Matcher.refusal?_eq_none_iff.mpr ⟨_, _, _, h⟩
  obtain ⟨hfault, hstate, -⟩ :=
    Matcher.run_of_laid (b := { toTapes := t, coin := default }) h hclosed
  have hverdict : decide (o.state = .accept) = decide (word.Sublist block) := by
    rw [decide_eq_decide, hstate]
    split <;> simp_all
  rw [ofMatcher, hnone]
  show Report.mk o.trace (o.fault.elim (.ok (verdictLine (decide (o.state = .accept)) :: lines o))
    .error) none = _
  rw [hverdict, show o.fault = none from hfault]
  rfl

/-- The lines that the run command prints for two lengths. -/
def lengthLines (n m : Int) : List String :=
  ["Result: " ++ toString (decide (m ≤ n)), "n=" ++ toString n, "m=" ++ toString m,
    "Steps: " ++ toString (matcherSteps n m), "Predicted steps: " ++ toString (matcherSteps n m)]

theorem Command.unary_eq {k : Nat} (hk : k < 0x8000000000000000) :
    unary k = .ok (String.ofList (List.replicate k 'a')) := by
  have hle : (k : Int) ≤ maxLength := by
    rw [maxLength]
    omega
  rw [unary, if_pos hle, Int.toNat_natCast]

theorem Command.unary_tooLong {k : Int} (hk : 0x8000000000000000 ≤ k) :
    unary k = .error .tooLong := by
  have hlt : ¬ k ≤ maxLength := by
    rw [maxLength]
    omega
  rw [unary, if_neg hlt]

/-- **The run command fails on lengths that no text has**, if both are acceptable otherwise. -/
theorem Command.runLengths_tooLong {n m : Int} (hn : 1 ≤ n) (hm : 1 ≤ m)
    (hlong : 0x8000000000000000 ≤ n ∨ 0x8000000000000000 ≤ m) :
    Command.runLengths n m = .failed .tooLong [] := by
  have htapes : (do matcherTapes (← unary n) (← unary m)) = .error .tooLong := by
    by_cases hfirst : 0x8000000000000000 ≤ n
    · rw [unary_tooLong hfirst]
      rfl
    · -- the block can be made, and the word cannot
      obtain ⟨k, rfl⟩ := Int.eq_ofNat_of_zero_le (a := n) (by omega)
      rw [unary_eq (by omega), unary_tooLong (hlong.resolve_left hfirst)]
      rfl
  rw [Command.runLengths, if_neg (by simp; omega), htapes]

/-- **The run command reports what it has predicted.** -/
theorem Command.runLengths_eq {n m : Nat} (hn : 1 ≤ n) (hm : 1 ≤ m)
    (hn' : n < 0x8000000000000000) (hm' : m < 0x8000000000000000) :
    ∃ trace, Command.runLengths n m = { trace, result := .ok (lengthLines n m) } := by
  have htext (k : Nat) : String.ofList (List.replicate k 'a') =
      Letter.spell (List.replicate k Letter.a) := by
    rw [Letter.spell, List.map_replicate]
    rfl
  have hne {k : Nat} (hk : 1 ≤ k) : List.replicate k Letter.a ≠ [] := by
    rw [Ne, List.replicate_eq_nil_iff]
    omega
  have hlaid := Matcher.laid_of_spell (hne hn) (hne hm)
  obtain ⟨-, -, -, -, hcost⟩ :=
    Matcher.run_of_laid (b := { toTapes := _, coin := default }) hlaid rfl
  -- the operations that are counted are those that the formula tells
  have htotal : ∀ o : Outcome Matcher.State,
      o.cost = ⟨2 * (n + 1), 4 * (matched (List.replicate m .a) (List.replicate n Letter.a) + 1)⟩ →
      toString o.cost.total = toString (matcherSteps n m) := by
    intro o ho
    have hnat : o.cost.total =
        2 * n + 4 * matched (List.replicate m .a) (List.replicate n Letter.a) + 6 := by
      rw [ho]
      show 2 * (n + 1) + 4 * (matched _ _ + 1) = _
      omega
    rw [hnat, ← eq_matcherSteps_of_replicate Letter.a n m]
    rfl
  rw [List.length_replicate] at hcost
  have htapes : (do matcherTapes (← unary n) (← unary m)) =
      matcherTapes (Letter.spell (List.replicate n .a)) (Letter.spell (List.replicate m .a)) := by
    rw [unary_eq hn', unary_eq hm', htext, htext]
    rfl
  rw [Command.runLengths, if_neg (by simp; omega), htapes]
  simp only [matcherTapes_spell, Report.ofMatcher_of_laid hlaid rfl, htotal _ hcost,
    List.replicate_sublist_replicate]
  have hverdict : decide ((m : Int) ≤ n) = decide (m ≤ n) := decide_eq_decide.mpr Int.ofNat_le
  rw [lengthLines, hverdict]
  exact ⟨_, rfl⟩

section Run

variable {textN textM : String} {n m : Nat} (hn : Text.readInt? textN = some (n : Int))
  (hm : Text.readInt? textM = some (m : Int)) (hn1 : 1 ≤ n) (hm1 : 1 ≤ m)

include hn hm hn1 hm1

theorem Exit.ofCommandLine_lengths (ownHandler : Bool) (chance : Chance) :
    Exit.ofCommandLine ["run", "-n", textN, "-m", textM] ownHandler chance =
      Exit.ofReport false (Command.runLengths n m) := by
  rw [Exit.ofCommandLine, Invocation.parse_run hn hm (by omega) (by omega)]
  rfl

/-- **A command line with two positive lengths is answered by what has been predicted.** -/
theorem Exit.ofCommandLine_run (hn' : n < 0x8000000000000000) (hm' : m < 0x8000000000000000)
    (ownHandler : Bool) (chance : Chance) :
    Exit.ofCommandLine ["run", "-n", textN, "-m", textM] ownHandler chance =
      .ok { code := 0, stdout := String.join ((lengthLines n m).map (· ++ "\n")) } := by
  obtain ⟨trace, hreport⟩ := Command.runLengths_eq hn1 hm1 hn' hm'
  rw [Exit.ofCommandLine_lengths hn hm hn1 hm1, hreport]
  rfl

/-- It is not answered at all if no text has one of the lengths. -/
theorem Exit.ofCommandLine_run_tooLong
    (hlong : 0x8000000000000000 ≤ n ∨ 0x8000000000000000 ≤ m) (ownHandler : Bool)
    (chance : Chance) :
    Exit.ofCommandLine ["run", "-n", textN, "-m", textM] ownHandler chance = .error .tooLong := by
  rw [Exit.ofCommandLine_lengths hn hm hn1 hm1,
    Command.runLengths_tooLong (by omega) (by omega) (by omega)]
  rfl

end Run

end CommandLine

end SubseqMachines
