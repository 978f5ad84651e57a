import SubseqMachines.Proofs.Matcher.Invariant
import SubseqMachines.Proofs.Store.Fresh
import SubseqMachines.Proofs.Subsequence.Spelling

/-!
# The verdict of a matcher

* `Matcher.worked_run`, `Matcher.exists_worked_run`: the run in the store of a matcher that has just
  been made.
* `Matcher.run_eq_isSubsequence`: a matcher that has been made on a block and a word answers whether
  the word is a subsequence of the block. Only the cells of the block and of the word decide this.
-/

namespace SubseqMachines.Matcher

section Fresh

variable {σ made : Store} {counter : Option (Handle Counter)} {coin : Option (Handle Coin)}
  {mount : Mount} {block word : List Letter} {rest : List Cell}

/-- The run in the store of a matcher that has just been made. -/
theorem worked_run (hm : σ.Made made .matcher counter coin mount) :
    let o := Device.run State.nextLetter (σ.startBench .matcher coin mount)
    let r := made.run σ.machines.next
    Store.Worked made r.store σ.machines.next mount mount (o.map .matcher) ∧
      r.store.tapes mount = o.bench.toTapes ∧
      r.result = o.fault.elim (.ok (o.state = .accept)) .error := by
  intro o r
  obtain ⟨⟨mount', hworked⟩, -, hresult⟩ := hm.run
  obtain rfl := hm.mount_eq (by decide) hworked
  rw [show Device.run MachineKind.matcher.start _ = o.map .matcher from Control.run_matcher _ _]
    at hworked hresult
  exact ⟨hworked, hworked.effect.tapes, hresult⟩

/-- A run on a block that is closed, and what it tells. -/
theorem exists_worked_run (hm : σ.Made made .matcher counter coin mount)
    (hlaid : Laid (σ.tapes mount) block word rest)
    (hclosed : (rest.headD .blank).isBlockEnd = true) :
    let o := Device.run State.nextLetter (σ.startBench .matcher coin mount)
    let r := made.run σ.machines.next
    (∃ mount', Store.Worked made r.store σ.machines.next mount mount' (o.map .matcher)) ∧
      r.result = .ok (decide (word.Sublist block)) := by
  intro o r
  obtain ⟨hworked, -, hresult⟩ := worked_run hm
  obtain ⟨hfault, hstate, -⟩ :=
    run_of_laid (b := σ.startBench .matcher coin mount) hlaid hclosed
  rw [hfault, hstate, Option.elim_none] at hresult
  refine ⟨⟨mount, hworked⟩, hresult.trans ?_⟩
  by_cases hsub : word.Sublist block
  · rw [if_pos hsub, decide_eq_true hsub]
    rfl
  · rw [if_neg hsub, decide_eq_false hsub]
    rfl

end Fresh

/-- **A matcher decides the subsequence relation.** The tapes on which it is made hold a block and a
word, and if the block is closed by `#`, a blank or the end of the tape, the run answers whether the
symbols of the word are found at increasing positions of the block. -/
theorem run_eq_isSubsequence {σ made : Store} {main aux : Handle Reel}
    {counter : Option (Handle Counter)} {coin : Option (Handle Coin)}
    (hmade : σ.make .matcher main aux counter coin = .ok made) :
    (∃ block word rest, Laid ⟨σ.tape main, σ.tape aux⟩ block word rest) ∧
      ∀ block word rest, Laid ⟨σ.tape main, σ.tape aux⟩ block word rest →
        (rest.headD .blank).isBlockEnd = true →
          let answer := isSubsequence (Letter.spell block) (Letter.spell word)
          (made.run σ.machines.next).result = .ok answer ∧
            (answer = true ↔ word.Sublist block) ∧
            (answer = true ↔ ∃ position : Fin word.length → Fin block.length,
              StrictMono position ∧ ∀ i, block.get (position i) = word.get i) := by
  obtain ⟨mount, rfl, rfl, hm⟩ := Store.exists_made hmade
  refine ⟨refusal?_eq_none_iff.mp hm.refusal, ?_⟩
  intro block word rest hlaid hclosed answer
  have hanswer : answer = true ↔ word.Sublist block := isSubsequence_spell
  -- the run is that of a matcher on the bench of these tapes
  obtain ⟨-, -, hresult⟩ := hm.run
  obtain ⟨hfault, hstate, -, -, -⟩ :=
    run_of_laid (b := σ.startBench .matcher coin mount) hlaid hclosed
  rw [show Device.run MachineKind.matcher.start _ = _ from Control.run_matcher _ _] at hresult
  refine ⟨?_, hanswer, hanswer.trans sublist_iff_exists_strictMono⟩
  rw [hresult]
  simp only [Outcome.map, hfault, hstate, Option.elim_none, Control.accepted]
  by_cases hsub : word.Sublist block
  · rw [if_pos hsub, hanswer.mpr hsub]
    rfl
  · rw [if_neg hsub, Bool.eq_false_iff.mpr (mt hanswer.mp hsub)]
    rfl

/-- The word `b` on the block `ab`, with cells of all kinds around them. -/
theorem run_eq_isSubsequence_ab_b :
    let σ := (({} : Store).addReel
      ⟨[.aux .a, .main .b], .hash, [.main .a, .main .b, .hash, .aux .b]⟩ none).addReel
      ⟨[.blank], .blank, [.aux .b]⟩ none
    ∃ made, σ.make .matcher ⟨0⟩ ⟨1⟩ none none = .ok made ∧
      (made.run σ.machines.next).result = .ok true := by
  intro σ
  obtain ⟨made, hmade⟩ : ∃ made, σ.make .matcher ⟨0⟩ ⟨1⟩ none none = .ok made :=
    Store.make_eq_ok (by decide) none none
  have hlaid : Laid ⟨σ.tape ⟨0⟩, σ.tape ⟨1⟩⟩ [.a, .b] [.b] [.hash, .aux .b] :=
    { main_focus := rfl, main_right := rfl, block_ne_nil := by decide, rest_head := rfl
      aux_left := ⟨1, rfl⟩, aux_focus := rfl, aux_right := ⟨0, rfl⟩, word_ne_nil := by decide }
  obtain ⟨hresult, -, -⟩ := (run_eq_isSubsequence hmade).2 _ _ _ hlaid rfl
  exact ⟨made, hmade, hresult⟩

end SubseqMachines.Matcher
