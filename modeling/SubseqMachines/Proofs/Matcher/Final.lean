import SubseqMachines.Proofs.Matcher.Verdict

/-!
# What a matcher leaves

A matcher that accepts and one that rejects end in the same way: the main head is on the cell that
closes the block, and the aux head is back in front of the word. So the tapes that a matcher gives
back can be taken by another one, which tests the same word against the next block.

* `Matcher.Passed`: what is on two tapes after a matcher has passed over a block of them.
* `Matcher.passed_spot`: where a run ends, its tapes are as this says.
* `Matcher.laid_spot`, `Matcher.exists_laid_spot_iff`: these tapes are laid out for another matcher
  exactly if a `#` and a letter follow the block.
* `Matcher.passed_of_run`: all of this for a matcher in the store and the one that is made after it.
-/

namespace SubseqMachines.Matcher

/-- What is on two tapes before and after a matcher has passed over a block of them. -/
structure Passed (before after : Tapes) (block word : List Letter) (rest : List Cell) : Prop where
  /-- The main head is on the cell that closes the block. -/
  main_head : after.main.head = before.main.head + (block.length + 1)
  main_focus : after.main.focus = rest.headD .blank
  /-- If nothing follows the block, it is a new blank. -/
  main_cells : after.main.cells = before.main.cells ++ if rest = [] then [.blank] else []
  /-- The aux head is back on the blank where it started. -/
  aux_head : after.aux.head = before.aux.head
  aux_focus : after.aux.focus = .blank
  /-- If nothing follows the word, a matcher that accepts has added a blank there. -/
  aux_cells : after.aux.cells = before.aux.cells ++
    if word.Sublist block ∧ before.aux.right = word.map .aux then [.blank] else []

/-! ## The tapes where a run ends -/

section Spot

variable {b : Bench} {block word : List Letter} {rest : List Cell}

/-- The step behind the last letter of the block adds a blank if there is no cell yet. -/
theorem cells_main_spot (h : Laid b.toTapes block word rest) (reach i : Nat) :
    (spot b reach i (block.length + 1)).main.cells =
      b.main.cells ++ if rest = [] then [.blank] else [] :=
  Tape.cells_after_letters h.main_right

/-- So does the step behind the last letter of the word. -/
theorem cells_grownTo_of_laid (h : Laid b.toTapes block word rest) :
    (b.aux.grownTo (word.length + 1)).cells =
      b.aux.cells ++ if b.aux.right = word.map .aux then [.blank] else [] := by
  obtain ⟨n, haux⟩ := h.aux_right
  have hlength : b.aux.right.length = word.length + n := by
    rw [haux, List.length_append, List.length_map, List.length_replicate]
  rw [Tape.cells_grownTo, hlength, haux]
  cases n with
  | zero => simp
  | succ n =>
    -- there is a blank behind the word already
    rw [show word.length + 1 - (word.length + (n + 1)) = 0 by omega]
    simp

/-- **Where a run ends, the matcher has passed over the block**, whatever its verdict is. -/
theorem passed_spot (h : Laid b.toTapes block word rest) :
    let reach := if word.Sublist block then word.length + 1 else 0
    Passed b.toTapes (spot b reach 0 (block.length + 1)).toTapes block word rest := by
  intro reach
  refine
    { main_head := Tape.head_iterate_moveRight _ _, main_focus := main_focus_spot_end h
      main_cells := cells_main_spot h _ _, aux_head := rfl, aux_focus := h.aux_focus
      aux_cells := ?_ }
  show (b.aux.grownTo reach).cells = _
  by_cases hsub : word.Sublist block
  · -- the head has been on the blank behind the word
    rw [show reach = word.length + 1 from if_pos hsub, cells_grownTo_of_laid h]
    simp only [hsub, true_and]
  · rw [show reach = 0 from if_neg hsub, Tape.grownTo_eq_self (Nat.zero_le _),
      if_neg fun hboth => hsub hboth.1, List.append_nil]

theorem right_main_spot (h : Laid b.toTapes block word rest) (reach i : Nat) :
    (spot b reach i (block.length + 1)).main.right = rest.tail :=
  Tape.right_after_letters h.main_right

/-- If another block follows, the tapes are laid out for it and for the same word. -/
theorem laid_spot {next : List Letter} {rest' : List Cell} (h : Laid b.toTapes block word rest)
    (hrest : rest = .hash :: (next.map .main ++ rest')) (hnext : next ≠ [])
    (hhead : (rest'.headD .blank).isMainLetter = false) (reach : Nat) :
    Laid (spot b reach 0 (block.length + 1)).toTapes next word rest' where
  main_focus := by rw [main_focus_spot_end h, hrest]; rfl
  main_right := by rw [right_main_spot h, hrest]; rfl
  block_ne_nil := hnext
  rest_head := hhead
  aux_left := h.aux_left
  aux_focus := h.aux_focus
  aux_right := by
    obtain ⟨n, haux⟩ := h.aux_right
    exact Tape.right_grownTo_of_blanks haux reach
  word_ne_nil := h.word_ne_nil

/-- A letter behind a `#` starts a block. -/
theorem exists_next_block (l : Letter) (cells : List Cell) :
    ∃ next rest', next ≠ [] ∧ .main l :: cells = next.map Cell.main ++ rest' ∧
      (rest'.headD .blank).isMainLetter = false := by
  obtain ⟨next, rest', hcells, hhead⟩ := tells_main.exists_stretch rfl (.main l :: cells)
  refine ⟨next, rest', ?_, hcells, hhead⟩
  -- an empty stretch would not be followed by a letter
  rintro rfl
  obtain rfl : _ = rest' := hcells
  cases hhead

/-- The tapes are laid out for another matcher exactly if another block follows. -/
theorem exists_laid_spot_iff (h : Laid b.toTapes block word rest) (reach : Nat) :
    (∃ next word' rest', Laid (spot b reach 0 (block.length + 1)).toTapes next word' rest') ↔
      ∃ l cells, rest = .hash :: .main l :: cells := by
  constructor
  · rintro ⟨next, word', rest', hlaid⟩
    -- the head is on the first cell behind the block, and the others are ahead of it
    obtain ⟨l, next, rfl⟩ := List.exists_cons_of_ne_nil hlaid.block_ne_nil
    have hfocus : rest.headD .blank = .hash := (main_focus_spot_end h).symm.trans hlaid.main_focus
    have htail : rest.tail = .main l :: (next.map .main ++ rest') :=
      (right_main_spot h _ _).symm.trans hlaid.main_right
    cases rest with
    | nil => cases hfocus
    | cons c cells =>
      obtain rfl : c = .hash := hfocus
      obtain rfl : cells = _ := htail
      exact ⟨l, _, rfl⟩
  · rintro ⟨l, cells, rfl⟩
    obtain ⟨next, rest', hnext, hcells, hhead⟩ := exists_next_block l cells
    exact ⟨next, word, rest', laid_spot h (by rw [hcells]) hnext hhead reach⟩

end Spot

/-! ## One matcher after another -/

/-- **A matcher leaves tapes for the next one.** Let a matcher be made on a block that is closed by
`#`, a blank or the end of the tape, and on a word. Whatever its verdict is, it leaves the main head
on the closing cell and the aux head where it was, and adds a blank to a tape only where its head
has gone behind the last cell. When it has given up its reels, another matcher can be made on them
exactly if the closing cell is a `#` with a letter after it. That one decides whether the same word
is a subsequence of the block that starts with this letter. -/
theorem passed_of_run {σ made : Store} {main aux : Handle Reel} {own : Option (Handle Counter)}
    {coin : Option (Handle Coin)} (hmade : σ.make .matcher main aux own coin = .ok made) :
    (∃ block word rest, Laid ⟨σ.tape main, σ.tape aux⟩ block word rest) ∧
      ∀ block word rest, Laid ⟨σ.tape main, σ.tape aux⟩ block word rest →
        (rest.headD .blank).isBlockEnd = true →
        let r := made.run σ.machines.next
        let freed := r.store.destroy σ.machines.next
        let back : Tapes := ⟨freed.store.tape main, freed.store.tape aux⟩
        r.result = .ok (decide (word.Sublist block)) ∧
          Passed ⟨σ.tape main, σ.tape aux⟩ ⟨r.store.tape main, r.store.tape aux⟩ block word rest ∧
          (∃ mount, freed.result = .ok mount ∧ mount.main = main ∧ mount.aux = aux) ∧
          back = ⟨r.store.tape main, r.store.tape aux⟩ ∧
          (∀ own' coin', (∃ again, freed.store.make .matcher main aux own' coin' = .ok again) ↔
            ∃ l cells, rest = .hash :: .main l :: cells) ∧
          ∀ next rest', rest = .hash :: (next.map .main ++ rest') → next ≠ [] →
            (rest'.headD .blank).isMainLetter = false →
            Laid back next word rest' ∧
              ((rest'.headD .blank).isBlockEnd = true → ∀ own' coin' again,
                freed.store.make .matcher main aux own' coin' = .ok again →
                  (again.run freed.store.machines.next).result =
                    .ok (decide (word.Sublist next))) := by
  obtain ⟨mount, rfl, rfl, hm⟩ := Store.exists_made hmade
  refine ⟨refusal?_eq_none_iff.mp hm.refusal, ?_⟩
  intro block word rest hlaid hclosed r freed back
  obtain ⟨-, hresult⟩ := exists_worked_run hm hlaid hclosed
  obtain ⟨hworked, htapes, -⟩ := worked_run hm
  -- the tapes where the run ends are on the reels, also after these are given up
  let b := σ.startBench .matcher coin mount
  let reach := if word.Sublist block then word.length + 1 else 0
  have hran : r.store.tapes mount = (spot b reach 0 (block.length + 1)).toTapes := by
    obtain ⟨-, -, hbench, -, -⟩ := run_of_laid (b := b) hlaid hclosed
    exact htapes.trans (congrArg Bench.toTapes hbench)
  have hfreed : freed = { store := _, result := .ok mount } :=
    Store.destroy_of_mounted (by rw [hworked.machine]; rfl)
  have hback : back = r.store.tapes mount := by
    show freed.store.tapes mount = _
    rw [hfreed]
    rfl
  have hpassed : Passed (σ.tapes mount) (r.store.tapes mount) block word rest := by
    rw [hran]
    exact passed_spot (b := b) hlaid
  refine ⟨hresult, hpassed, ⟨mount, by rw [hfreed], rfl, rfl⟩, hback, ?_, ?_⟩
  · intro own' coin'
    rw [Store.exists_make_iff]
    show refusal? back = none ↔ _
    rw [refusal?_eq_none_iff, hback, hran]
    exact exists_laid_spot_iff (b := b) hlaid reach
  · intro next rest' hrest hnext hhead
    have hlaid' : Laid back next word rest' := by
      rw [hback, hran]
      exact laid_spot (b := b) hlaid hrest hnext hhead reach
    refine ⟨hlaid', fun hclosed' own' coin' again hmake => ?_⟩
    -- the next matcher starts on the tapes that have been given back
    obtain ⟨mount', hmain, haux, hm'⟩ := Store.exists_made hmake
    have hsame : freed.store.tapes mount' = back := by
      rw [Store.tapes, hmain, haux]
    exact (exists_worked_run hm' (hsame ▸ hlaid') hclosed').2

/-- The word `ab` on the block `ab`, and then on the block `ba` behind it. -/
theorem passed_of_run_ab_ba :
    let σ := (({} : Store).addReel
      ⟨[], .hash, [.main .a, .main .b, .hash, .main .b, .main .a]⟩ none).addReel
      ⟨[], .blank, [.aux .a, .aux .b]⟩ none
    ∃ made, σ.make .matcher ⟨0⟩ ⟨1⟩ none none = .ok made ∧
      let r := made.run σ.machines.next
      let freed := r.store.destroy σ.machines.next
      r.result = .ok true ∧
        r.store.tape ⟨0⟩ = ⟨[.main .b, .main .a, .hash], .hash, [.main .b, .main .a]⟩ ∧
        r.store.tape ⟨1⟩ = ⟨[], .blank, [.aux .a, .aux .b, .blank]⟩ ∧
        ∃ again, freed.store.make .matcher ⟨0⟩ ⟨1⟩ none none = .ok again ∧
          (again.run freed.store.machines.next).result = .ok false := by
  intro σ
  obtain ⟨made, hmade⟩ : ∃ made, σ.make .matcher ⟨0⟩ ⟨1⟩ none none = .ok made :=
    Store.make_eq_ok (by decide) none none
  have hlaid : Laid ⟨σ.tape ⟨0⟩, σ.tape ⟨1⟩⟩ [.a, .b] [.a, .b] [.hash, .main .b, .main .a] :=
    { main_focus := rfl, main_right := rfl, block_ne_nil := by decide, rest_head := rfl
      aux_left := ⟨0, rfl⟩, aux_focus := rfl, aux_right := ⟨0, rfl⟩, word_ne_nil := by decide }
  obtain ⟨hresult, hpassed, -, -, hagain, hnext⟩ := (passed_of_run hmade).2 _ _ _ hlaid rfl
  obtain ⟨again, hmake⟩ := (hagain none none).mpr ⟨.b, [.main .a], rfl⟩
  obtain ⟨-, hsecond⟩ := hnext [.b, .a] [] rfl (by decide) rfl
  exact ⟨made, hmade, hresult, Tape.ext_view hpassed.main_cells hpassed.main_head,
    Tape.ext_view hpassed.aux_cells hpassed.aux_head, again, hmake,
    hsecond rfl none none again hmake⟩

end SubseqMachines.Matcher
