import SubseqMachines.Proofs.Store.Fresh
import SubseqMachines.Proofs.Subsequence.Spelling
import SubseqMachines.Proofs.Trial.Invariant

/-!
# The verdict of a trial

* `Trial.exists_worked_run`: the run in the store of a trial that has just been made.
* `Trial.run_eq_commonSubsequence`: a trial that has been made on blocks draws one flip for each
  letter of the first block, and answers whether the word that the flips spell is a common
  subsequence of the later blocks.
-/

namespace SubseqMachines.Trial

section Fresh

variable {σ made : Store} {counter : Option (Handle Counter)} {coin : Option (Handle Coin)}
  {mount : Mount} {first word : List Letter} {later : List (List Letter)} {flips : List Bool}
  {left : Coin}

/-- A run that succeeds, and what it tells. -/
theorem exists_worked_run (hm : σ.Made made .trial counter coin mount)
    (hlaid : Laid (σ.tapes mount) first later)
    (hflips : (σ.coins.get (coin.getD Store.commonCoin)).flips? first.length = some (flips, left))
    (hword : flips.map Letter.ofFlip = word) :
    let o := Device.run State.drawing (σ.startBench .trial coin mount)
    let r := made.run σ.machines.next
    (∃ mount', Store.Worked made r.store σ.machines.next mount mount' (o.map .trial)) ∧
      r.result = .ok (decide (∀ block ∈ later, word.Sublist block)) := by
  intro o r
  obtain ⟨hworked, -, hresult⟩ := hm.run
  obtain ⟨hfault, hstate, -, -, -⟩ :=
    run_of_laid (b := σ.startBench .trial coin mount) hlaid hflips hword
  change o.fault = none at hfault
  change o.state = _ at hstate
  rw [show Device.run MachineKind.trial.start _ = o.map .trial from Control.run_trial _ _]
    at hworked hresult
  refine ⟨hworked, hresult.trans ?_⟩
  simp only [Outcome.map, hfault, hstate, Option.elim_none, Control.accepted]
  by_cases hall : ∀ block ∈ later, word.Sublist block
  · rw [if_pos hall, decide_eq_true hall]
    rfl
  · rw [if_neg hall, decide_eq_false hall]
    rfl

end Fresh

/-- **A trial decides whether the word that it draws is a common subsequence.** The tapes on which
it is made hold blocks. If its coin can give a flip for each letter of the first block, the run
takes these flips, the witness is the word that they spell, and the answer is whether each later
block contains it. -/
theorem run_eq_commonSubsequence {σ made : Store} {main aux : Handle Reel}
    {counter : Option (Handle Counter)} {coin : Option (Handle Coin)}
    (hmade : σ.make .trial main aux counter coin = .ok made) :
    (∃ first later, Laid ⟨σ.tape main, σ.tape aux⟩ first later) ∧
      ∀ first later, Laid ⟨σ.tape main, σ.tape aux⟩ first later →
        ∀ flips left,
          (σ.coins.get (coin.getD Store.commonCoin)).flips? first.length = some (flips, left) →
          let word := flips.map Letter.ofFlip
          let answer := commonSubsequence (blocksText first later) (Letter.spell word)
          let r := made.run σ.machines.next
          r.result = .ok answer ∧ (answer = true ↔ ∀ block ∈ later, word.Sublist block) ∧
            r.store.witness σ.machines.next = .ok (Letter.spell word) ∧
            r.store.coins.get (coin.getD Store.commonCoin) = left ∧
            (r.store.machines.get σ.machines.next).control =
              .trial (.drawn (if answer = true then .accept else .reject) (Letter.spell word)
                (tested word later)) := by
  obtain ⟨mount, rfl, rfl, hm⟩ := Store.exists_made hmade
  refine ⟨refusal?_eq_none_iff.mp hm.refusal, ?_⟩
  intro first later hlaid flips left hflips word answer r
  have hlen : word.length = first.length := by
    rw [List.length_map, Coin.length_of_flips? hflips]
  have hanswer : answer = true ↔ ∀ block ∈ later, word.Sublist block := by
    rw [commonSubsequence_blocksText]
    exact and_iff_right hlen
  obtain ⟨⟨mount', hworked⟩, hresult⟩ := exists_worked_run hm hlaid hflips rfl
  obtain ⟨-, hstate, ⟨reach, hbench⟩, -, -⟩ :=
    run_of_laid (b := σ.startBench .trial coin mount) hlaid hflips rfl
  -- the machine keeps its verdict and its witness, and the store keeps its coin
  have hcontrol := congrArg Machine.control hworked.machine
  have hcoin := hworked.effect.coins (coin.getD Store.commonCoin)
  rw [if_pos (hm.coin_of_ne_matcher (by decide))] at hcoin
  refine ⟨?_, hanswer, ?_, ?_, ?_⟩
  · rw [hresult]
    congr 1
    rw [Bool.eq_iff_iff, hanswer, decide_eq_true_eq]
  · rw [Store.witness, hcontrol]
    simp only [Store.after, Outcome.map, hstate]
    rfl
  · rw [hcoin]
    simp only [Outcome.map, hbench]
    rfl
  · rw [hcontrol]
    simp only [Store.after, Outcome.map, hstate, hanswer]
    rfl

/-- The blocks `ab`, `bab` and `abb` and the flips that spell `ab`, with blanks around them. -/
theorem run_eq_commonSubsequence_ab_bab_abb :
    let σ := ((({} : Store).addReel
      ⟨[.blank], .blank, [.main .a, .main .b, .hash, .main .b, .main .a, .main .b, .hash, .main .a,
        .main .b, .main .b, .blank]⟩ none).addReel
      ⟨[.blank], .blank, [.blank, .blank]⟩ none).addCoin (.scripted [true, false, true])
    ∃ made, σ.make .trial ⟨0⟩ ⟨1⟩ none none = .ok made ∧
      (made.run σ.machines.next).result = .ok true ∧
      (made.run σ.machines.next).store.coins.get ⟨0⟩ = .scripted [true] := by
  intro σ
  obtain ⟨made, hmade⟩ : ∃ made, σ.make .trial ⟨0⟩ ⟨1⟩ none none = .ok made :=
    Store.make_eq_ok (by decide) none none
  have hlaid : Laid ⟨σ.tape ⟨0⟩, σ.tape ⟨1⟩⟩ [.a, .b] [[.b, .a, .b], [.a, .b, .b]] :=
    { main_left := ⟨1, rfl⟩, main_focus := rfl, main_right := ⟨1, rfl⟩, first_ne_nil := by decide
      later_ne_nil := by decide, aux_blank := ⟨1, 2, rfl⟩ }
  obtain ⟨hresult, hanswer, -, hcoin, -⟩ :=
    (run_eq_commonSubsequence hmade).2 _ _ hlaid [true, false] (.scripted [true]) rfl
  exact ⟨made, hmade, hresult.trans (congrArg _ (hanswer.mpr (by decide))), hcoin⟩

end SubseqMachines.Trial
