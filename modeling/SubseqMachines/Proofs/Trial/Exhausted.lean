import SubseqMachines.Proofs.Sampler.Written
import SubseqMachines.Proofs.Trial.Failure

/-!
# A coin that runs out

A sampler notices that its coin has no flip left when its aux head has already stepped onto the cell
for the next letter. It stops there and keeps the letters that it has written. A trial whose sampler
stops like this keeps none of them; only the steps of the sampler stay counted.

* `Sampler.CutShort`: what is on two tapes when a sampler has stopped for want of a flip.
* `Sampler.cutShort_of_exhausted`, `Sampler.run_cut_short`: this is where a run without enough flips
  stops.
* `Trial.draw_of_exhausted`, `Trial.onlySpent_of_run`: the first tick of a trial fails with its
  sampler, and then the run of the trial has failed.
* `Trial.run_out_of_flips`: what a scripted coin that runs out leaves of the one and of the other.
-/

namespace SubseqMachines

/-! ## The sampler -/

namespace Sampler

/-- What is on two tapes before and after a sampler has written the letters `drawn` and has found
no flip for the next one. -/
structure CutShort (before after : Tapes) (word drawn : List Letter) : Prop where
  /-- The main head is on the letter for which there is no flip. -/
  main_head : after.main.head = before.main.head + (drawn.length + 1)
  main_focus : ∃ l, word[drawn.length]? = some l ∧ after.main.focus = .main l
  main_cells : after.main.cells = before.main.cells
  /-- The aux head is on the blank behind the last letter that is written. -/
  aux_head : after.aux.head = before.aux.head + (drawn.length + 1)
  aux_focus : after.aux.focus = .blank
  aux_word : after.aux.HoldsWord before.aux.head drawn

theorem cutShort_of_exhausted {b : Bench} {word : List Letter} {rest : List Cell}
    (h : Laid b.toTapes word rest) (drawn : List Letter) (hlt : drawn.length < word.length) :
    CutShort b.toTapes
      ⟨Tape.moveRight^[drawn.length + 1] b.main,
        Tape.moveRight^[drawn.length + 1] (b.aux.inscribed drawn)⟩ word drawn := by
  obtain ⟨m, n, haux⟩ := h.aux_blank
  obtain ⟨k, hright⟩ := Tape.right_inscribed_of_blanks (congrArg Tape.right haux) drawn
  -- the word on the main tape has a letter more than have been written
  have hl : word[drawn.length]? = some word[drawn.length] := List.getElem?_eq_getElem hlt
  have hroom : drawn.length + 1 ≤ b.main.right.length := by
    rw [h.main_right, List.length_append, List.length_map]
    omega
  exact
    { main_head := Tape.head_iterate_moveRight _ _
      main_focus := ⟨_, hl, Tape.focus_on_letter h.main_right hl⟩
      main_cells := Tape.cells_iterate_moveRight hroom
      aux_head := Tape.head_iterate_moveRight _ _
      aux_focus := (Tape.focus_after_letters hright).trans (headD_replicate_blank k)
      aux_word := Tape.holdsWord_moveRight_inscribed haux drawn }

/-- A sampler in the store stops like this when its coin runs out. -/
theorem run_cut_short {σ made : Store} {own : Option (Handle Counter)} {coin : Option (Handle Coin)}
    {mount : Mount} {word : List Letter} {rest : List Cell} {flips : List Bool} {left : Coin}
    (hm : σ.Made made .sampler own coin mount) (h : Laid (σ.tapes mount) word rest)
    (hflips : (σ.startBench .sampler coin mount).coin.flips? flips.length = some (flips, left))
    (hnone : left.flip? = none) (hlt : flips.length < word.length) :
    let r := made.run σ.machines.next
    let m := r.store.machines.get σ.machines.next
    let n := flips.length
    r.result = .error (.breakdown .coinExhausted) ∧ m.control = .sampler .extend ∧
      m.ticks = 2 * n + 2 ∧
      CutShort (σ.tapes mount) (r.store.tapes mount) word (flips.map Letter.ofFlip) ∧
      ∃ o : Outcome Control, Store.Worked made r.store σ.machines.next mount mount o ∧
        o.cost = ⟨2 * n + 2, 2 * n + 1⟩ := by
  intro r m n
  let b := σ.startBench .sampler coin mount
  let o := Device.run State.scan b
  obtain ⟨hworked, htapes, hresult⟩ := worked_run hm
  obtain ⟨hfault, hstate, hbench, hticks, hcost⟩ := run_of_exhausted (b := b) h hflips hnone hlt
  change o.fault = _ at hfault
  change o.state = _ at hstate
  change o.bench = _ at hbench
  change o.ticks = _ at hticks
  have hcontrol : m.control = .sampler o.state := congrArg Machine.control hworked.machine
  refine ⟨?_, by rw [hcontrol, hstate], (hm.ticks_of_worked hworked).trans hticks, ?_, _, hworked,
    hcost⟩
  · rw [hfault] at hresult
    exact hresult
  · have hcut := cutShort_of_exhausted (b := b) h (flips.map Letter.ofFlip)
      (by rwa [List.length_map])
    rw [List.length_map] at hcut
    rw [htapes, hbench]
    exact hcut

end Sampler

/-! ## The trial -/

namespace Trial

section Draw

variable {b : Bench} {first : List Letter} {later : List (List Letter)} {flips : List Bool}
  {coin : Coin}

/-- The first step of a trial fails with its sampler, and has counted what the sampler did. -/
theorem draw_of_exhausted (h : Laid b.toTapes first later)
    (hflips : b.coin.flips? flips.length = some (flips, coin)) (hnone : coin.flip? = none)
    (hlt : flips.length < first.length) :
    (draw b).fault = some (.breakdown .coinExhausted) ∧
      (draw b).cost = ⟨2 * flips.length + 2, 2 * flips.length + 1⟩ := by
  obtain ⟨n, hsampler⟩ := h.sampler
  obtain ⟨hfault, -, -, -, hcost⟩ := Sampler.run_of_exhausted hsampler hflips hnone hlt
  have hr := Sampler.refusal?_eq_none_iff.mpr ⟨_, _, hsampler⟩
  rw [draw_of_fault hr hfault]
  exact ⟨rfl, hcost⟩

end Draw

/-- A trial that cannot draw its witness has failed with its first tick, and has only spent what
that has cost. -/
theorem onlySpent_of_run {σ made : Store} {own : Option (Handle Counter)}
    {coin : Option (Handle Coin)} {mount : Mount} {f : Fault}
    (hm : σ.Made made .trial own coin mount)
    (hf : (draw (σ.startBench .trial coin mount)).fault = some f) :
    let o := (Device.step State.drawing (σ.startBench .trial coin mount)).map Control.trial
    let r := made.run σ.machines.next
    r.result = .error f ∧ OnlySpent made r.store σ.machines.next mount ∧
      ∃ mount', Store.Worked made r.store σ.machines.next mount mount' o := by
  intro o r
  have hfault : (Device.step State.drawing (σ.startBench .trial coin mount)).fault ≠ none := by
    show (draw _).fault ≠ none
    rw [hf]
    exact nofun
  have hcontrol : (made.machines.get σ.machines.next).control = .trial .drawing := by
    rw [hm.machine]
    rfl
  -- the run of the device is this one step
  obtain ⟨hworked, -, hresult⟩ := hm.run
  have hrun : Device.run MachineKind.trial.start (σ.startBench .trial coin mount) = o := by
    show Device.run (Control.trial .drawing) _ = o
    rw [Control.run_trial, Device.run_of_fault rfl hfault]
  rw [hrun] at hworked hresult
  have herror : r.result = .error f := by
    refine hresult.trans ?_
    rw [show o.fault = some f from hf, Option.elim_some]
  refine ⟨herror, ?_, hworked⟩
  -- and the run in the store is the tick with this step
  have htick := Store.tick_of_live hm.steady.mounted (by rw [hcontrol]; rfl)
  have hticked : (made.tick σ.machines.next).result = .error f := by
    rw [htick, hm.bench_eq, hcontrol]
    show (draw _).fault.elim _ _ = _
    rw [hf]
    rfl
  have hstore : r.store = (made.tick σ.machines.next).store := by
    show (made.run σ.machines.next).store = _
    rw [hm.run_eq_runOn, Store.runOn_of_error hticked]
  rw [hstore, htick]
  exact onlySpent_of_fault hcontrol hm.steady.mounted (by rw [hm.bench_eq]; exact hfault)

/-- **What a coin that runs out leaves.** A sampler with a coin of `j` flips, fewer than its word
has letters, fails when it is to write the next letter: after `2j + 2` steps and `4j + 3` head
operations, with the `j` letters written and the heads on the next places of both tapes. A trial
whose first block has more letters than its coin has flips fails in the same way and has counted as
many operations, but in its first tick: it has drawn no witness, has verified no block, and both of
its tapes are as they were. -/
theorem run_out_of_flips {σ : Store} {main aux : Handle Reel} {own : Option (Handle Counter)}
    {coin : Option (Handle Coin)} {flips : List Bool}
    (hcoin : σ.coins.get (coin.getD Store.commonCoin) = .scripted flips) :
    let before : Tapes := ⟨σ.tape main, σ.tape aux⟩
    let j := flips.length
    let why : Fault := .breakdown .coinExhausted
    why.message = "Scripted coin ran out of flips" ∧
      (∀ made, σ.make .sampler main aux own coin = .ok made →
        (∃ word rest, Sampler.Laid before word rest) ∧
        ∀ word rest, Sampler.Laid before word rest → j < word.length →
          let r := made.run σ.machines.next
          let m := r.store.machines.get σ.machines.next
          r.result = .error why ∧ m.control = .sampler .extend ∧ m.ticks = 2 * j + 2 ∧
            (∀ counter, own = some counter ∨ own = none ∧
                σ.counterOf main = some counter ∧ σ.counterOf aux = some counter →
              (r.store.counters.get counter).value =
                (σ.counters.get counter).value + (4 * j + 3 : Nat)) ∧
            Sampler.CutShort before ⟨r.store.tape main, r.store.tape aux⟩ word
              (flips.map Letter.ofFlip)) ∧
      ∀ made, σ.make .trial main aux own coin = .ok made →
        (∃ first later, Laid before first later) ∧
        ∀ first later, Laid before first later → j < first.length →
          let r := made.run σ.machines.next
          let m := r.store.machines.get σ.machines.next
          r.result = .error why ∧ m.control = .trial .drawing ∧ m.ticks = 1 ∧
            m.control.witness? = none ∧ m.control.verified = 0 ∧
            (∀ counter, own = some counter ∨ own = none ∧
                σ.counterOf main = some counter ∧ σ.counterOf aux = some counter →
              (r.store.counters.get counter).value =
                (σ.counters.get counter).value + (4 * j + 3 : Nat)) ∧
            (∃ mount, m.mount = some mount ∧ mount.main = main ∧ mount.aux = aux) ∧
            r.store.tape main = σ.tape main ∧ r.store.tape aux = σ.tape aux := by
  intro before j why
  have hflips : (σ.coins.get (coin.getD Store.commonCoin)).flips? flips.length =
      some (flips, .scripted []) := by
    rw [hcoin, Coin.flips?_scripted, if_pos (Nat.le_refl _), List.take_length, List.drop_length]
  have htotal : (Cost.mk (2 * j + 2) (2 * j + 1)).total = 4 * j + 3 := by
    show 2 * j + 2 + (2 * j + 1) = _
    omega
  refine ⟨rfl, ?_, ?_⟩
  · intro made hmade
    obtain ⟨mount, rfl, rfl, hm⟩ := Store.exists_made hmade
    refine ⟨Sampler.refusal?_eq_none_iff.mp hm.refusal, ?_⟩
    intro word rest hlaid hlt r m
    obtain ⟨hresult, hcontrol, hticks, hcut, o, hworked, hcost⟩ :=
      Sampler.run_cut_short hm hlaid hflips rfl hlt
    refine ⟨hresult, hcontrol, hticks, fun counter hcounter => ?_, hcut⟩
    rw [hm.value_of_worked hworked hcounter, hcost, htotal]
  · intro made hmade
    obtain ⟨mount, rfl, rfl, hm⟩ := Store.exists_made hmade
    refine ⟨refusal?_eq_none_iff.mp hm.refusal, ?_⟩
    intro first later hlaid hlt r m
    obtain ⟨hfault, hcost⟩ :=
      draw_of_exhausted (b := σ.startBench .trial coin mount) hlaid hflips rfl hlt
    -- the state, the reels and the tapes are told by what is only spent, the count by the work
    obtain ⟨hresult, hspent, mount', hworked⟩ := onlySpent_of_run hm hfault
    have hmachine : m = _ := hspent.machine
    rw [hm.machine] at hmachine
    have hcontrol : m.control = .trial .drawing := congrArg Machine.control hmachine
    have htapes : r.store.tapes mount = σ.tapes mount :=
      (Store.tapes_of_alike hspent.reels mount).trans hm.tapes
    refine ⟨hresult, hcontrol, congrArg Machine.ticks hmachine, by rw [hcontrol]; rfl,
      by rw [hcontrol]; rfl, ?_, ⟨mount, congrArg Machine.mount hmachine, rfl, rfl⟩,
      congrArg Tapes.main htapes, congrArg Tapes.aux htapes⟩
    intro counter hcounter
    rw [hm.value_of_worked hworked hcounter, ← htotal, ← hcost]
    rfl

/-- The block `ab` and another one behind it, with a coin of one flip. -/
theorem run_out_of_flips_ab :
    let σ := (((({} : Store).addReel
      ⟨[], .blank, [.main .a, .main .b, .hash, .main .b]⟩ none).addReel
      ⟨[.blank], .blank, []⟩ none).addCoin (.scripted [true])).addCounter 0
    (∃ made, σ.make .sampler ⟨0⟩ ⟨1⟩ (some ⟨0⟩) none = .ok made ∧
      let r := made.run σ.machines.next
      let m := r.store.machines.get σ.machines.next
      r.result = .error (.breakdown .coinExhausted) ∧ m.control = .sampler .extend ∧ m.ticks = 4 ∧
        (r.store.counters.get ⟨0⟩).value = 7 ∧
        r.store.tape ⟨0⟩ = ⟨[.main .a, .blank], .main .b, [.hash, .main .b]⟩ ∧
        (r.store.tape ⟨1⟩).head = 3 ∧ (r.store.tape ⟨1⟩).HoldsWord 1 [.a]) ∧
    ∃ made, σ.make .trial ⟨0⟩ ⟨1⟩ (some ⟨0⟩) none = .ok made ∧
      let r := made.run σ.machines.next
      let m := r.store.machines.get σ.machines.next
      r.result = .error (.breakdown .coinExhausted) ∧ m.control = .trial .drawing ∧ m.ticks = 1 ∧
        (r.store.counters.get ⟨0⟩).value = 7 ∧ r.store.tape ⟨0⟩ = σ.tape ⟨0⟩ ∧
        r.store.tape ⟨1⟩ = σ.tape ⟨1⟩ := by
  intro σ
  obtain ⟨-, hsampler, htrial⟩ :=
    @run_out_of_flips σ ⟨0⟩ ⟨1⟩ (some ⟨0⟩) none [true] rfl
  constructor
  · obtain ⟨made, hmade⟩ : ∃ made, σ.make .sampler ⟨0⟩ ⟨1⟩ (some ⟨0⟩) none = .ok made :=
      Store.make_eq_ok (by decide) _ _
    have hlaid : Sampler.Laid ⟨σ.tape ⟨0⟩, σ.tape ⟨1⟩⟩ [.a, .b] [.hash, .main .b] :=
      { main_left := ⟨0, rfl⟩, main_focus := rfl, main_right := rfl, word_ne_nil := by decide
        rest_head := rfl, aux_blank := ⟨1, 0, rfl⟩ }
    obtain ⟨hresult, hcontrol, hticks, hvalue, hcut⟩ :=
      (hsampler made hmade).2 _ _ hlaid (by decide)
    exact ⟨made, hmade, hresult, hcontrol, hticks, hvalue ⟨0⟩ (.inl rfl),
      Tape.ext_view hcut.main_cells hcut.main_head, hcut.aux_head, hcut.aux_word⟩
  · obtain ⟨made, hmade⟩ : ∃ made, σ.make .trial ⟨0⟩ ⟨1⟩ (some ⟨0⟩) none = .ok made :=
      Store.make_eq_ok (by decide) _ _
    have hlaid : Laid ⟨σ.tape ⟨0⟩, σ.tape ⟨1⟩⟩ [.a, .b] [[.b]] :=
      { main_left := ⟨0, rfl⟩, main_focus := rfl, main_right := ⟨0, rfl⟩
        first_ne_nil := by decide, later_ne_nil := by decide, aux_blank := ⟨1, 0, rfl⟩ }
    obtain ⟨hresult, hcontrol, hticks, -, -, hvalue, -, hmain, haux⟩ :=
      (htrial made hmade).2 _ _ hlaid (by decide)
    exact ⟨made, hmade, hresult, hcontrol, hticks, hvalue ⟨0⟩ (.inl rfl), hmain, haux⟩

end Trial

end SubseqMachines
