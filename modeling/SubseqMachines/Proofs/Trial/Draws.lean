import Mathlib.Data.Fintype.BigOperators
import SubseqMachines.Proofs.Machine.Form
import SubseqMachines.Proofs.Trial.Verdict

/-!
# All the draws of a trial

A trial that finds a witness was lucky, and one that finds none may have been unlucky. How often
either happens can be counted: for a first block of `L` letters there are `2 ^ L` scripts of `L`
flips, and each of them spells a word of its own. So a trial draws each word of that length with the
same chance, and its chance to accept is the share of the words that all later blocks contain.

* `Letter.flipEquiv`, `Letter.scriptEquiv`: flips are letters, and scripts are words.
* `Store.attempt`: what comes of a trial of a text with a given coin.
* `Trial.attempt_of_flips`, `Trial.attempt_of_exhausted`: with enough flips it is the answer for the
  word that the flips spell, and otherwise there is no answer.
* `Trial.card_accepting_eq`: the scripts that make a trial accept are as many as the words of the
  length of the first block which all later blocks contain.
-/

namespace SubseqMachines

/-! ## Flips and letters -/

namespace Letter

/-- The flip that writes a letter. -/
def flip : Letter → Bool
  | a => true
  | b => false

/-- Each flip writes a letter of its own, and each letter is written by a flip. -/
def flipEquiv : Bool ≃ Letter where
  toFun := ofFlip
  invFun := flip
  left_inv heads := by cases heads <;> rfl
  right_inv l := by cases l <;> rfl

instance : Fintype Letter :=
  Fintype.ofEquiv Bool flipEquiv

theorem map_flip_map_ofFlip (flips : List Bool) : (flips.map ofFlip).map flip = flips := by
  rw [List.map_map]
  exact (List.map_congr_left fun heads _ => flipEquiv.left_inv heads).trans (List.map_id flips)

theorem map_ofFlip_map_flip (word : List Letter) : (word.map flip).map ofFlip = word := by
  rw [List.map_map]
  exact (List.map_congr_left fun l _ => flipEquiv.right_inv l).trans (List.map_id word)

/-- Each script spells a word of its own, and each word is spelled by a script. -/
def scriptEquiv (n : ℕ) : List.Vector Bool n ≃ List.Vector Letter n where
  toFun := List.Vector.map ofFlip
  invFun := List.Vector.map flip
  left_inv flips := List.Vector.toList_injective <| by
    rw [List.Vector.toList_map, List.Vector.toList_map, map_flip_map_ofFlip]
  right_inv word := List.Vector.toList_injective <| by
    rw [List.Vector.toList_map, List.Vector.toList_map, map_ofFlip_map_flip]

theorem toList_scriptEquiv {n : ℕ} (flips : List.Vector Bool n) :
    (scriptEquiv n flips).toList = flips.toList.map ofFlip :=
  List.Vector.toList_map flips ofFlip

theorem spell_injective : Function.Injective spell := by
  intro word word' h
  have hchars := congrArg String.toList h
  rw [toList_spell, toList_spell] at hchars
  exact List.map_injective_iff.mpr (fun _ _ => char_injective) hchars

end Letter

/-! ## Attempts -/

/-- What comes of a trial that does not fail: its answer and its witness. -/
structure Attempt where
  accepted : Bool
  witness : String
  deriving DecidableEq, Repr

/-- Lay out the tapes for a text on new reels, make a trial on them with a new coin, and run it. -/
def Store.attempt (σ : Store) (text : String) (counter : Option (Handle Counter)) (coin : Coin) :
    Except Fault Attempt := do
  let t ← trialTapes text
  let half := σ.addReel t.main none
  let ready := (half.addReel t.aux none).addCoin coin
  let made ← (ready.make .trial σ.reels.next half.reels.next counter
    (some σ.coins.next)).mapError .refusal
  let ran := made.run ready.machines.next
  return { accepted := ← ran.result, witness := ← ran.store.witness ready.machines.next }

namespace Trial

/-- A trial whose coin has not a flip for each letter of the first block fails. -/
theorem fault_run_of_exhausted {b : Bench} {first : List Letter} {later : List (List Letter)}
    (h : Laid b.toTapes first later) (hflips : b.coin.flips? first.length = none) :
    (Device.run State.drawing b).fault = some (.breakdown .coinExhausted) := by
  obtain ⟨n, hsampler⟩ := h.sampler
  have hdraw : (Device.step State.drawing b).fault = some (.breakdown .coinExhausted) :=
    fault_draw_of_fault (Sampler.refusal?_eq_none_iff.mpr ⟨_, _, hsampler⟩)
      (Sampler.fault_run_of_exhausted hsampler hflips)
  rw [Device.run_of_fault rfl (by rw [hdraw]; exact nofun), hdraw]

section Attempt

variable {first : List Letter} {later : List (List Letter)}

/-- An attempt on blocks is the run of a trial that has just been made on them. -/
theorem exists_made_of_blocks (σ : Store) (counter : Option (Handle Counter)) (coin : Coin)
    (hfirst : first ≠ []) (hlater : ∀ block ∈ later, block ≠ []) :
    ∃ ready made : Store, ∃ mount own, ready.Made made .trial counter own mount ∧
      Laid (ready.tapes mount) first later ∧
      ready.coins.get (own.getD Store.commonCoin) = coin ∧
      σ.attempt (blocksText first later) counter coin = do
        let ran := made.run ready.machines.next
        return { accepted := ← ran.result, witness := ← ran.store.witness ready.machines.next } := by
  let t : Tapes := ⟨.startingAt .blank (first.map .main ++ laterCells later), .blank⟩
  let half := σ.addReel t.main none
  let ready := (half.addReel t.aux none).addCoin coin
  have hlaid : Laid ⟨ready.tape σ.reels.next, ready.tape half.reels.next⟩ first later := by
    have htapes : Tapes.mk (ready.tape σ.reels.next) (ready.tape half.reels.next) = t := by
      simp [ready, half, Store.addCoin, Store.tape, Store.addReel, Table.get_add, Table.next]
    rw [htapes]
    exact laid_startingAt hfirst hlater
  have htaken : MachineKind.trial.refusal?
      ⟨ready.tape σ.reels.next, ready.tape half.reels.next⟩ = none :=
    refusal?_eq_none_iff.mpr ⟨_, _, hlaid⟩
  obtain ⟨made, hmade⟩ := Store.make_eq_ok htaken counter (some σ.coins.next)
  obtain ⟨mount, hmain, haux, hm⟩ := Store.exists_made hmade
  refine ⟨ready, made, mount, some σ.coins.next, hm, ?_, Table.get_add_next _ _, ?_⟩
  · rw [Store.tapes, hmain, haux]
    exact hlaid
  · rw [Store.attempt, trialTapes_blocksText]
    show ((ready.make .trial σ.reels.next half.reels.next counter
      (some σ.coins.next)).mapError Fault.refusal).bind _ = _
    rw [hmade]
    rfl

/-- **An attempt with enough flips** answers for the word that they spell. -/
theorem attempt_of_flips (σ : Store) (counter : Option (Handle Counter)) {coin left : Coin}
    {flips : List Bool} (hfirst : first ≠ []) (hlater : ∀ block ∈ later, block ≠ [])
    (hflips : coin.flips? first.length = some (flips, left)) :
    let word := flips.map Letter.ofFlip
    σ.attempt (blocksText first later) counter coin =
      .ok { accepted := decide (∀ block ∈ later, word.Sublist block)
            witness := Letter.spell word } := by
  intro word
  obtain ⟨ready, made, mount, own, hm, hlaid, hcoin, hattempt⟩ :=
    exists_made_of_blocks σ counter coin hfirst hlater
  rw [← hcoin] at hflips
  obtain ⟨⟨mount', hworked⟩, hresult⟩ := exists_worked_run hm hlaid hflips rfl
  obtain ⟨-, hstate, -⟩ := run_of_laid (b := ready.startBench .trial own mount) hlaid hflips rfl
  have hwitness : (made.run ready.machines.next).store.witness ready.machines.next =
      .ok (Letter.spell word) := by
    rw [Store.witness, hworked.machine]
    simp only [Store.after, Outcome.map, hstate]
    rfl
  rw [hattempt]
  show (made.run ready.machines.next).result.bind (fun accepted =>
    ((made.run ready.machines.next).store.witness ready.machines.next).bind _) = _
  rw [hresult, hwitness]
  rfl

/-- **An attempt without enough flips** comes to nothing. -/
theorem attempt_of_exhausted (σ : Store) (counter : Option (Handle Counter)) {coin : Coin}
    (hfirst : first ≠ []) (hlater : ∀ block ∈ later, block ≠ [])
    (hflips : coin.flips? first.length = none) :
    σ.attempt (blocksText first later) counter coin = .error (.breakdown .coinExhausted) := by
  obtain ⟨ready, made, mount, own, hm, hlaid, hcoin, hattempt⟩ :=
    exists_made_of_blocks σ counter coin hfirst hlater
  rw [← hcoin] at hflips
  have hfault : (Device.run MachineKind.trial.start (ready.startBench .trial own mount)).fault =
      some (.breakdown .coinExhausted) := by
    show (Device.run (Control.trial .drawing) _).fault = _
    rw [Control.run_trial]
    exact fault_run_of_exhausted (b := ready.startBench .trial own mount) hlaid hflips
  obtain ⟨-, -, hresult⟩ := hm.run
  rw [hfault, Option.elim_some] at hresult
  rw [hattempt]
  show (made.run ready.machines.next).result.bind _ = _
  rw [hresult]
  rfl

/-- An attempt with a script of one flip for each letter of the first block. -/
theorem attempt_script (σ : Store) (counter : Option (Handle Counter)) (hfirst : first ≠ [])
    (hlater : ∀ block ∈ later, block ≠ []) (flips : List.Vector Bool first.length) :
    let word := (Letter.scriptEquiv first.length flips).toList
    σ.attempt (blocksText first later) counter (.scripted flips.toList) =
      .ok { accepted := decide (∀ block ∈ later, word.Sublist block)
            witness := Letter.spell word } := by
  have hflips : (Coin.scripted flips.toList).flips? first.length =
      some (flips.toList, .scripted []) := by
    have hlen := flips.toList_length
    rw [Coin.flips?_scripted, if_pos hlen.ge, List.take_of_length_le hlen.le,
      List.drop_of_length_le hlen.le]
  intro word
  rw [show word = _ from Letter.toList_scriptEquiv flips]
  exact attempt_of_flips σ counter hfirst hlater hflips

end Attempt

/-- **A trial draws each word with the same chance, and errs to one side only.** Let a text be blocks
of letters, the first one of length `L`. Each of the `2 ^ L` scripts of `L` flips makes a trial of
the text end with an answer, and each word of length `L` is the witness for exactly one script. The
scripts for which the trial accepts are as many as the words of length `L` that all later blocks
contain. So there is a coin for which the trial accepts exactly if there is such a word. A trial of
one block accepts for all scripts, a trial with a later block that is shorter than the first one
rejects for all of them, and a trial whose later blocks are all the same word of length `L` accepts
for one. -/
theorem card_accepting_eq (σ : Store) (counter : Option (Handle Counter)) {first : List Letter}
    {later : List (List Letter)} (hfirst : first ≠ []) (hlater : ∀ block ∈ later, block ≠ []) :
    let L := first.length
    let attempt := σ.attempt (blocksText first later) counter
    let drawn (flips : List.Vector Bool L) := attempt (.scripted flips.toList)
    let accepting : Finset (List.Vector Bool L) :=
      {flips | (drawn flips).toOption.any Attempt.accepted}
    let common : Finset (List.Vector Letter L) :=
      {word | ∀ block ∈ later, word.toList.Sublist block}
    Fintype.card (List.Vector Bool L) = 2 ^ L ∧ (∀ flips, ∃ r, drawn flips = .ok r) ∧
      (∀ word : List.Vector Letter L, ∃! flips,
        ∃ accepted, drawn flips = .ok ⟨accepted, Letter.spell word.toList⟩) ∧
      accepting.card = common.card ∧
      ((∃ coin witness, attempt coin = .ok ⟨true, witness⟩) ↔
        ∃ word : List Letter, word.length = L ∧ ∀ block ∈ later, word.Sublist block) ∧
      (later = [] → ∀ flips, ∃ witness, drawn flips = .ok ⟨true, witness⟩) ∧
      ((∃ block ∈ later, block.length < L) →
        ∀ flips, ∃ witness, drawn flips = .ok ⟨false, witness⟩) ∧
      ∀ word : List Letter, word.length = L → later ≠ [] → (∀ block ∈ later, block = word) →
        accepting.card = 1 := by
  intro L attempt drawn accepting common
  have hdrawn : ∀ flips, drawn flips = _ := attempt_script σ counter hfirst hlater
  have hcard : accepting.card = common.card := by
    refine Finset.card_equiv (Letter.scriptEquiv L) fun flips => ?_
    rw [Finset.mem_filter_univ, Finset.mem_filter_univ, hdrawn]
    exact decide_eq_true_iff
  refine ⟨?_, fun flips => ⟨_, hdrawn flips⟩, ?_, hcard, ?_, ?_, ?_, ?_⟩
  · rw [card_vector, Fintype.card_bool]
  · -- the script for a word is the one that the word is spelled by
    intro word
    have hscript := hdrawn ((Letter.scriptEquiv L).symm word)
    rw [Equiv.apply_symm_apply] at hscript
    refine ⟨(Letter.scriptEquiv L).symm word, ⟨_, hscript⟩, ?_⟩
    rintro flips ⟨accepted, hflips⟩
    rw [hdrawn] at hflips
    have hspelled := congrArg Attempt.witness (Except.ok.inj hflips)
    rw [Equiv.eq_symm_apply]
    exact List.Vector.toList_injective (Letter.spell_injective hspelled)
  · constructor
    · rintro ⟨coin, witness, haccepted⟩
      cases hflips : coin.flips? L with
      | none =>
        rw [show attempt coin = _ from attempt_of_exhausted σ counter hfirst hlater hflips]
          at haccepted
        cases haccepted
      | some r =>
        obtain ⟨flips, left⟩ := r
        rw [show attempt coin = _ from attempt_of_flips σ counter hfirst hlater hflips]
          at haccepted
        have hall := congrArg Attempt.accepted (Except.ok.inj haccepted)
        refine ⟨flips.map Letter.ofFlip, ?_, of_decide_eq_true hall⟩
        rw [List.length_map, Coin.length_of_flips? hflips]
    · rintro ⟨word, hlen, hall⟩
      obtain ⟨w, rfl⟩ : ∃ w : List.Vector Letter L, w.toList = word := ⟨⟨word, hlen⟩, rfl⟩
      refine ⟨.scripted ((Letter.scriptEquiv L).symm w).toList, Letter.spell w.toList, ?_⟩
      show drawn _ = _
      rw [hdrawn, Equiv.apply_symm_apply]
      exact congrArg (fun a => Except.ok (Attempt.mk a _)) (decide_eq_true hall)
  · rintro rfl flips
    have hanswer := hdrawn flips
    rw [decide_eq_true (List.forall_mem_nil _)] at hanswer
    exact ⟨_, hanswer⟩
  · -- a word is not longer than a block that contains it
    rintro ⟨block, hblock, hshort⟩ flips
    have hnot : ¬ ∀ block ∈ later, (Letter.scriptEquiv L flips).toList.Sublist block := by
      intro hall
      have hle := (hall block hblock).length_le
      rw [List.Vector.toList_length] at hle
      omega
    have hanswer := hdrawn flips
    rw [decide_eq_false hnot] at hanswer
    exact ⟨_, hanswer⟩
  · -- a block contains no other word of its own length
    intro word hlen hne hsame
    obtain ⟨w, rfl⟩ : ∃ w : List.Vector Letter L, w.toList = word := ⟨⟨word, hlen⟩, rfl⟩
    obtain ⟨block, hblock⟩ := List.exists_mem_of_ne_nil later hne
    rw [hcard, Finset.card_eq_one]
    refine ⟨w, Finset.ext fun w' => ?_⟩
    rw [Finset.mem_singleton, Finset.mem_filter_univ]
    constructor
    · intro hall
      have hsub := hsame block hblock ▸ hall block hblock
      exact List.Vector.toList_injective (hsub.eq_of_length (w'.toList_length.trans hlen.symm))
    · rintro rfl other hother
      rw [hsame other hother]

/-- The text `ab#bab#abb`. Of the four words of two letters, `ab` and `bb` are found in both later
blocks. -/
theorem card_accepting_eq_ab_bab_abb :
    let first : List Letter := [.a, .b]
    let later : List (List Letter) := [[.b, .a, .b], [.a, .b, .b]]
    let drawn (flips : List.Vector Bool first.length) :=
      ({} : Store).attempt (blocksText first later) none (.scripted flips.toList)
    (first ≠ [] ∧ ∀ block ∈ later, block ≠ []) ∧
      Finset.card {flips | (drawn flips).toOption.any Attempt.accepted} = 2 ∧
      ∃! flips, ∃ accepted, drawn flips = .ok ⟨accepted, "bb"⟩ := by
  intro first later drawn
  have hblocks : first ≠ [] ∧ ∀ block ∈ later, block ≠ [] := by decide
  obtain ⟨-, -, hdraws, hcard, -⟩ := card_accepting_eq {} none hblocks.1 hblocks.2
  have hcommon : Finset.card
      {word : List.Vector Letter 2 | ∀ block ∈ later, word.toList.Sublist block} = 2 := by
    decide +kernel
  exact ⟨hblocks, hcard.trans hcommon, hdraws ⟨[.b, .b], rfl⟩⟩

end Trial

end SubseqMachines
