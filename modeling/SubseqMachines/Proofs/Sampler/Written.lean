import SubseqMachines.Proofs.Sampler.Invariant
import SubseqMachines.Proofs.Store.Fresh

/-!
# What a sampler writes

A sampler writes one letter for each flip, right behind the cell where its aux head starts, and does
nothing else to the aux tape. This is so on a blank tape of any length with the head anywhere on it.

* `Tape.HoldsWord`: a tape that is blank but for one word.
* `Tape.holdsWord_inscribed`, `Tape.holdsWord_moveRight_inscribed`: a blank tape with a word written
  on it, also when the head has gone behind the word.
* `Sampler.Written`: what is on two tapes after a sampler has drawn a word.
* `Sampler.worked_run`: the run in the store of a sampler that has just been made.
* `Sampler.written_of_run`: this is what a run leaves, with as many flips as the word on the main
  tape has letters, and what it costs.
-/

namespace SubseqMachines

/-! ## A tape with one word -/

namespace Tape

/-- The letters of the word are in the cells behind cell `g`, and all other cells are blank. -/
structure HoldsWord (t : Tape) (g : Nat) (word : List Letter) : Prop where
  letter : ∀ i (hi : i < word.length), t.cells[g + 1 + i]? = some (.aux word[i])
  blank : ∀ p c, t.cells[p]? = some c → p ≤ g ∨ g + word.length < p → c = .blank

theorem holdsWord_of_cells {t : Tape} {g n : Nat} {word : List Letter}
    (h : t.cells =
      List.replicate (g + 1) .blank ++ (word.map .aux ++ List.replicate n .blank)) :
    t.HoldsWord g word where
  letter i hi := by
    -- the letters come after the first `g + 1` cells
    have hplace : g + 1 + i - (List.replicate (g + 1) Cell.blank).length = i := by
      rw [List.length_replicate]
      omega
    rw [h, List.getElem?_append_right (by simp), hplace,
      List.getElem?_append_left (by simpa using hi), List.getElem?_map, List.getElem?_eq_getElem hi]
    rfl
  blank p c hc hp := by
    rw [h] at hc
    -- a cell in front of the letters, or one behind them
    rcases hp with hle | hlt
    · rw [List.getElem?_append_left (by simp; omega)] at hc
      exact List.eq_of_mem_replicate (List.mem_of_getElem? hc)
    · rw [List.getElem?_append_right (by simp; omega),
        List.getElem?_append_right (by simp; omega)] at hc
      exact List.eq_of_mem_replicate (List.mem_of_getElem? hc)

section Blank

variable {t : Tape} {m n : Nat}
  (hblank : t = ⟨List.replicate m .blank, .blank, List.replicate n .blank⟩)

include hblank

theorem cells_inscribed_of_blank (word : List Letter) :
    (t.inscribed word).cells = List.replicate (t.head + 1) .blank ++
      (word.map .aux ++ List.replicate (n - word.length) .blank) := by
  rw [hblank]
  simp [inscribed, withRight, cells, head, List.replicate_succ']

theorem holdsWord_inscribed (word : List Letter) : (t.inscribed word).HoldsWord t.head word :=
  holdsWord_of_cells (cells_inscribed_of_blank hblank word)

/-- The head may have gone behind the word, where it adds a blank if there is no cell yet. -/
theorem holdsWord_moveRight_inscribed (word : List Letter) :
    (moveRight^[word.length + 1] (t.inscribed word)).HoldsWord t.head word := by
  have hcells := cells_after_letters (right_inscribed t word)
  rw [cells_inscribed_of_blank hblank, List.append_assoc, List.append_assoc] at hcells
  split at hcells
  · -- the new blank is one more of those behind the word
    rw [← List.replicate_succ'] at hcells
    exact holdsWord_of_cells hcells
  · rw [List.append_nil] at hcells
    exact holdsWord_of_cells hcells

end Blank

end Tape

namespace Sampler

/-! ## What a run leaves -/

/-- What is on two tapes before and after a sampler has gone over a word on the main tape, which
`rest` follows, and has written the letters `drawn`. -/
structure Written (before after : Tapes) (word : List Letter) (rest : List Cell)
    (drawn : List Letter) : Prop where
  /-- The main head is on the cell that closes the word. -/
  main_head : after.main.head = before.main.head + (word.length + 1)
  main_focus : after.main.focus = rest.headD .blank
  /-- If nothing follows the word, it is a new blank. -/
  main_cells : after.main.cells = before.main.cells ++ if rest = [] then [.blank] else []
  /-- The aux head is back on the blank where it started. -/
  aux_head : after.aux.head = before.aux.head
  aux_focus : after.aux.focus = .blank
  aux_word : after.aux.HoldsWord before.aux.head drawn
  decoded : after.aux.decodeWord = Letter.spell drawn

theorem written_inscribed {b : Bench} {word : List Letter} {rest : List Cell}
    (h : Laid b.toTapes word rest) (drawn : List Letter) :
    Written b.toTapes ⟨Tape.moveRight^[word.length + 1] b.main, b.aux.inscribed drawn⟩ word rest
      drawn := by
  obtain ⟨m, n, haux⟩ := h.aux_blank
  obtain ⟨k, hright⟩ := Tape.right_inscribed_of_blanks (congrArg Tape.right haux) drawn
  exact
    { main_head := Tape.head_iterate_moveRight _ _
      main_focus := Tape.focus_after_letters h.main_right
      main_cells := Tape.cells_after_letters h.main_right
      aux_head := rfl
      aux_focus := congrArg Tape.focus haux
      aux_word := Tape.holdsWord_inscribed haux drawn
      decoded := Tape.decodeWord_of_right hright }

/-- The run in the store of a sampler that has just been made. -/
theorem worked_run {σ made : Store} {own : Option (Handle Counter)} {coin : Option (Handle Coin)}
    {mount : Mount} (hm : σ.Made made .sampler own coin mount) :
    let o := Device.run State.scan (σ.startBench .sampler coin mount)
    let r := made.run σ.machines.next
    Store.Worked made r.store σ.machines.next mount mount (o.map .sampler) ∧
      r.store.tapes mount = o.bench.toTapes ∧
      r.result = o.fault.elim (.ok (o.state = .accept)) .error := by
  intro o r
  obtain ⟨⟨mount', hworked⟩, -, hresult⟩ := hm.run
  obtain rfl := hm.mount_eq (by decide) hworked
  rw [show Device.run MachineKind.sampler.start _ = o.map .sampler from Control.run_sampler _ _]
    at hworked hresult
  exact ⟨hworked, hworked.effect.tapes, hresult⟩

/-- **A sampler writes exactly the flips.** Let a sampler be made on a word of `L` letters, and let
its coin have as many flips. The run succeeds, with `3L + 1` steps and `6L + 2` head operations, and
has drawn these flips and no more. The letters of the flips are right behind the cell where the aux
head has started and is again, and the rest of the aux tape is blank. The main head is on the cell
that closes the word, and no cell of the main tape has changed, but a blank is added if there is
nothing behind the word. -/
theorem written_of_run {σ made : Store} {main aux : Handle Reel} {own : Option (Handle Counter)}
    {coin : Option (Handle Coin)} (hmade : σ.make .sampler main aux own coin = .ok made) :
    (∃ word rest, Laid ⟨σ.tape main, σ.tape aux⟩ word rest) ∧
      ∀ word rest flips left, Laid ⟨σ.tape main, σ.tape aux⟩ word rest →
        let flipped := coin.getD Store.commonCoin
        (σ.coins.get flipped).flips? word.length = some (flips, left) →
          let L := word.length
          let r := made.run σ.machines.next
          r.result = .ok true ∧
            (r.store.machines.get σ.machines.next).ticks = 3 * L + 1 ∧
            (∀ counter, own = some counter ∨ own = none ∧
                σ.counterOf main = some counter ∧ σ.counterOf aux = some counter →
              (r.store.counters.get counter).value =
                (σ.counters.get counter).value + (6 * L + 2 : Nat)) ∧
            flips.length = L ∧ r.store.coins.get flipped = left ∧
            Written ⟨σ.tape main, σ.tape aux⟩ ⟨r.store.tape main, r.store.tape aux⟩ word rest
              (flips.map Letter.ofFlip) := by
  obtain ⟨mount, rfl, rfl, hm⟩ := Store.exists_made hmade
  refine ⟨refusal?_eq_none_iff.mp hm.refusal, ?_⟩
  intro word rest flips left hlaid flipped hflips L r
  let b := σ.startBench .sampler coin mount
  let o := Device.run State.scan b
  obtain ⟨hworked, htapes, hresult⟩ := worked_run hm
  obtain ⟨hfault, hstate, hbench, hticks, hcost⟩ := run_of_laid (b := b) hlaid hflips
  change o.fault = none at hfault
  change o.state = .accept at hstate
  change o.bench = _ at hbench
  change o.ticks = _ at hticks
  change o.cost = _ at hcost
  refine ⟨?_, ?_, ?_, Coin.length_of_flips? hflips, ?_, ?_⟩
  · rw [hfault, hstate] at hresult
    exact hresult
  · exact (hm.ticks_of_worked hworked).trans hticks
  · intro counter hcounter
    -- those of the main head, and those of the aux head
    have htotal : (Cost.mk (2 * L + 2) (4 * L)).total = 6 * L + 2 := by
      show 2 * L + 2 + 4 * L = _
      omega
    rw [hm.value_of_worked hworked hcounter, ← htotal, ← hcost]
    rfl
  · have hcoins := hworked.effect.coins flipped
    rw [hm.coin_of_ne_matcher (by decide), if_pos rfl] at hcoins
    exact hcoins.trans (congrArg Bench.coin hbench)
  · show Written b.toTapes (r.store.tapes mount) word rest _
    rw [htapes, hbench]
    exact written_inscribed hlaid _

/-- The word `ab` at the end of the main tape, with two blanks on the left of the aux head and none
on its right, and a coin with a flip more than is needed. -/
theorem written_of_run_ab :
    let σ := (((({} : Store).addReel ⟨[], .blank, [.main .a, .main .b]⟩ none).addReel
      ⟨[.blank, .blank], .blank, []⟩ none).addCounter 5).addCoin (.scripted [false, true, true])
    ∃ made, σ.make .sampler ⟨0⟩ ⟨1⟩ (some ⟨0⟩) (some ⟨0⟩) = .ok made ∧
      let r := made.run σ.machines.next
      r.result = .ok true ∧ (r.store.machines.get σ.machines.next).ticks = 7 ∧
        (r.store.counters.get ⟨0⟩).value = 19 ∧ r.store.coins.get ⟨0⟩ = .scripted [true] ∧
        r.store.tape ⟨0⟩ = ⟨[.main .b, .main .a, .blank], .blank, []⟩ ∧
        (r.store.tape ⟨1⟩).head = 2 ∧ (r.store.tape ⟨1⟩).HoldsWord 2 [.b, .a] ∧
        (r.store.tape ⟨1⟩).decodeWord = "ba" := by
  intro σ
  obtain ⟨made, hmade⟩ : ∃ made, σ.make .sampler ⟨0⟩ ⟨1⟩ (some ⟨0⟩) (some ⟨0⟩) = .ok made :=
    Store.make_eq_ok (by decide) _ _
  have hlaid : Laid ⟨σ.tape ⟨0⟩, σ.tape ⟨1⟩⟩ [.a, .b] [] :=
    { main_left := ⟨0, rfl⟩, main_focus := rfl, main_right := rfl, word_ne_nil := by decide
      rest_head := rfl, aux_blank := ⟨2, 0, rfl⟩ }
  obtain ⟨hresult, hticks, hvalue, -, hleft, hwritten⟩ :=
    (written_of_run hmade).2 _ _ [false, true] (.scripted [true]) hlaid rfl
  exact ⟨made, hmade, hresult, hticks, hvalue ⟨0⟩ (.inl rfl), hleft,
    Tape.ext_view hwritten.main_cells hwritten.main_head, hwritten.aux_head, hwritten.aux_word,
    hwritten.decoded⟩

end Sampler

end SubseqMachines
