import SubseqMachines.Proofs.Trial.Loop
import SubseqMachines.Proofs.Trial.Verdict

/-!
# A trial without clones

A trial whose children work on clones of its reels, and the loop that uses up machines on the reels
themselves, come to the same end for any number of blocks, with the same tapes and the same counts.
Each step of the trial is matched with the work that the loop does in its place, and what that work
does to the store is the same for both.

* `Trial.Agrees`: what it means that an answer of the loop tells the same as a run.
* `Trial.Agrees.of_step`, `Trial.Agrees.of_fault`: one step of a trial, and the loop from there.
* `Trial.testBlocks_agrees`, `Trial.inPlace_agrees`: the loop does what a trial does, whatever the
  tapes hold, and fails when the trial fails.
* `Trial.run_eq_inPlace`: on tapes that a trial takes, with a coin that has enough flips, neither
  fails, and they agree in all that is left of them.
-/

namespace SubseqMachines.Trial

/-! ## Agreement -/

/-- An answer of the loop, from the store `σ` and the reels `mount` on, tells the same as a run of a
trial with the outcome `o`. -/
def Agrees (σ : Store) (k : Handle Coin) (mount : Mount) (witness : String) (o : Outcome State) :
    Except Fault Ending → Prop
  | .error f => o.fault = some f
  | .ok e =>
    o.fault = none ∧
      o.state = .drawn (if e.accepted then .accept else .reject) witness e.tests ∧
      e.mount = mount ∧ Store.Effect σ e.store (some k) mount mount o.cost o.bench

/-- The bench of two reels and a coin. -/
def benchOf (σ : Store) (mount : Mount) (k : Handle Coin) : Bench where
  toTapes := σ.tapes mount
  coin := σ.coins.get k

section Agreement

variable {σ σ' : Store} {k : Handle Coin} {mount : Mount} {witness : String}
  {counter : Option (Handle Counter)} {v : Nat}

theorem Agrees.after {p o : Outcome State} {answer : Except Fault Ending}
    (hp : Store.Effect σ σ' (some k) mount mount p.cost p.bench)
    (h : Agrees σ' k mount witness o answer) :
    Agrees σ k mount witness (p.followedBy o) answer := by
  cases answer with
  | error f => exact h
  | ok e =>
    obtain ⟨hfault, hstate, hmount, heffect⟩ := h
    exact ⟨hfault, hstate, hmount, hp.trans heffect⟩

theorem benchOf_eq {mount' : Mount} {cost : Cost} {b : Bench}
    (h : Store.Effect σ σ' (some k) mount mount' cost b) : benchOf σ' mount' k = b := by
  have hcoin := h.coins k
  rw [if_pos rfl] at hcoin
  rw [benchOf, h.tapes, hcoin]

theorem effect_refl (σ : Store) (mount : Mount) (k : Handle Coin) :
    Store.Effect σ σ (some k) mount mount 0 (benchOf σ mount k) :=
  Store.Effect.refl (m := { (default : Machine) with coin := some k }) mount

/-- A look at the main cell. -/
theorem effect_read (σ : Store) (mount : Mount) (k : Handle Coin) :
    Store.Effect σ (σ.read mount.main).2 (some k) mount mount (.on .main 1)
      (benchOf σ mount k) where
  tapes := tapes_read σ mount.main mount
  main_counter := by
    show ((σ.count (σ.counterOf mount.main) 1).setTape mount.main _).counterOf mount.main = _
    rw [Store.counterOf_setTape, Store.counterOf, Store.reels_count]
    rfl
  aux_counter := by
    show ((σ.count (σ.counterOf mount.main) 1).setTape mount.main _).counterOf mount.aux = _
    rw [Store.counterOf_setTape, Store.counterOf, Store.reels_count]
    rfl
  counters j := by
    refine (Store.value_count σ (σ.counterOf mount.main) 1 j).trans ?_
    simp only [Store.tally, Cost.on, ite_self, Nat.add_zero]
  coins j := by
    show ((σ.count (σ.counterOf mount.main) 1).coins.get j) = _
    rw [Store.coins_count]
    by_cases hj : k = j
    · rw [hj, if_pos rfl]
      rfl
    · rw [if_neg (fun heq => hj (Option.some.inj heq))]

/-- A step of a trial that succeeds, against the work that the loop does in its place. -/
theorem Agrees.of_step {s next : State} {cost : Cost} {b : Bench} {reports : List Event}
    {answer : Except Fault Ending} (hs : s.halted = false)
    (hstep : Device.transition s (benchOf σ mount k) =
      { state := next, bench := b, cost, trace := reports })
    (heffect : Store.Effect σ σ' (some k) mount mount cost b)
    (hrest : Agrees σ' k mount witness (Device.run next (benchOf σ' mount k)) answer) :
    Agrees σ k mount witness (Device.run s (benchOf σ mount k)) answer := by
  let p := Device.step s (benchOf σ mount k)
  have hp : p.fault = none ∧ p.state = next ∧ p.bench = b ∧ p.cost = cost := by
    simp only [p, Device.step, hstep, and_self]
  obtain ⟨hfault, hstate, hbench, hcost⟩ := hp
  have hnext : benchOf σ' mount k = b := benchOf_eq heffect
  rw [hnext, ← hstate, ← hbench] at hrest
  rw [← hbench, ← hcost] at heffect
  rw [Device.run_of_step hs hfault]
  exact Agrees.after heffect hrest

/-- A step that fails, against the loop that fails with it. -/
theorem Agrees.of_fault {s : State} {f : Fault} (hs : s.halted = false)
    (hfault : (Device.transition s (benchOf σ mount k)).fault = some f) :
    Agrees σ k mount witness (Device.run s (benchOf σ mount k)) (.error f) := by
  have hstep : (Device.step s (benchOf σ mount k)).fault = some f := hfault
  rw [Device.run_of_fault hs (by rw [hstep]; exact nofun)]
  exact hstep

/-- A final state, against the end of the loop. -/
theorem agrees_ending (σ : Store) (k : Handle Coin) (mount : Mount) (witness : String) (v : Nat)
    (accepted : Bool) :
    Agrees σ k mount witness
      (Device.run (.drawn (if accepted then .accept else .reject) witness v : State)
        (benchOf σ mount k))
      (.ok { accepted, tests := v, mount, store := σ }) := by
  rw [Device.run_of_halted (by cases accepted <;> rfl)]
  exact ⟨rfl, rfl, rfl, effect_refl σ mount k⟩

/-- What a matcher does that is used up is what the matcher of a trial does to the trial's bench. -/
theorem exists_useUp_matcher (hcounted : σ.Counted counter mount) (k : Handle Coin)
    (hr : Matcher.refusal? (σ.tapes mount) = none)
    (hf : (Device.run Matcher.State.nextLetter (benchOf σ mount k)).fault = none) :
    let child := Device.run Matcher.State.nextLetter (benchOf σ mount k)
    ∃ used, σ.useUp .matcher mount.main mount.aux counter none = .ok used ∧
      used.accepted = decide (child.state = .accept) ∧ used.mount = mount ∧
      Store.Effect σ used.store (some k) mount mount child.cost child.bench := by
  intro child
  let d := Device.run Matcher.State.nextLetter (σ.startBench .matcher none mount)
  have hchild : child = d.onBench (Bench.withCoin (σ.coins.get k)) :=
    Matcher.run_withCoin .nextLetter (σ.startBench .matcher none mount) (σ.coins.get k)
  have hstart : Device.run MachineKind.matcher.start (σ.startBench .matcher none mount) =
      d.map .matcher := Control.run_matcher _ _
  have hf' : (d.map Control.matcher).fault = none := by
    have : child.fault = none := hf
    rw [hchild] at this
    exact this
  rw [← hstart] at hf'
  have hr' : MachineKind.matcher.refusal? (σ.tapes mount) = none := hr
  obtain ⟨made, used, hm, hused, haccepted, hmount, heffect⟩ :=
    Store.exists_useUp counter (by decide) hr' hf'
  rw [hstart] at haccepted heffect
  rw [show (made.machines.get σ.machines.next).coin = none by rw [hm.machine]; rfl] at heffect
  -- making it has only attached a counter that was there already
  have hσ := (heffect.of_agree (hm.main_counter.trans hcounted.1)
    (hm.aux_counter.trans hcounted.2) hm.counters hm.coins).withCoin k
  refine ⟨used, hused, ?_, hmount, ?_⟩
  · rw [haccepted, hchild]
    rfl
  · rw [hchild]
    exact hσ

theorem useUp_matcher_of_fault (counter : Option (Handle Counter)) {f : Fault}
    (hr : Matcher.refusal? (σ.tapes mount) = none)
    (hf : (Device.run Matcher.State.nextLetter (benchOf σ mount k)).fault = some f) :
    σ.useUp .matcher mount.main mount.aux counter none = .error f := by
  have hchild := Matcher.run_withCoin .nextLetter (σ.startBench .matcher none mount)
    (σ.coins.get k)
  have hstart := Control.run_matcher .nextLetter (σ.startBench .matcher none mount)
  refine Store.useUp_of_fault hr ?_
  show (Device.run (Control.matcher .nextLetter) _).fault = some f
  rw [hstart, ← hf]
  exact congrArg Outcome.fault hchild.symm

/-- The step that runs a matcher and what follows it, against a matcher that is used up and what
follows that. -/
theorem test_agrees (hcounted : σ.Counted counter mount)
    (hrest : ∀ used, σ.useUp .matcher mount.main mount.aux counter none = .ok used →
      used.mount = mount → used.store.Counted counter mount →
        Agrees used.store k mount witness
          (Device.run (State.drawn .boundary witness (v + 1)) (benchOf used.store mount k))
          (testBlocks used.store mount counter (v + 1))) :
    Agrees σ k mount witness (Device.run (State.drawn .verify witness v) (benchOf σ mount k))
      (match σ.useUp .matcher mount.main mount.aux counter none with
      | .error f => .error f
      | .ok used =>
        if used.accepted then testBlocks used.store used.mount counter (v + 1)
        else
          .ok { accepted := false, tests := v + 1, mount := used.mount, store := used.store }) := by
  let b := benchOf σ mount k
  cases hr : Matcher.refusal? (σ.tapes mount) with
  | some r =>
    -- no matcher is made, for the same reason on both sides
    have hkind : MachineKind.matcher.refusal? (σ.tapes mount) = some r := hr
    rw [Store.useUp_of_refusal hkind]
    exact Agrees.of_fault rfl (fault_test_of_refusal (b := b) witness v hr)
  | none =>
    cases hf : (Device.run Matcher.State.nextLetter b).fault with
    | some f =>
      rw [useUp_matcher_of_fault counter hr hf]
      exact Agrees.of_fault rfl (fault_test_of_fault witness v hr hf)
    | none =>
      -- the step of the trial is the whole run of its matcher
      obtain ⟨used, hused, haccepted, hmount, heffect⟩ := exists_useUp_matcher hcounted k hr hf
      rw [hused]
      simp only
      refine Agrees.of_step rfl (test_of_run (b := b) witness v hr hf) heffect ?_
      cases haccept : used.accepted with
      | true =>
        have hstate := of_decide_eq_true (haccepted.symm.trans haccept)
        rw [if_pos hstate, if_pos rfl, hmount]
        exact hrest used hused hmount (hcounted.after heffect)
      | false =>
        have hstate := of_decide_eq_false (haccepted.symm.trans haccept)
        rw [if_neg hstate, if_neg Bool.false_ne_true, hmount]
        exact agrees_ending used.store k mount witness (v + 1) false

/-- **The loop does what a trial does between its blocks**, whatever the tapes hold. -/
theorem testBlocks_agrees (hcounted : σ.Counted counter mount) (k : Handle Coin)
    (witness : String) (v : Nat) :
    Agrees σ k mount witness (Device.run (State.drawn .boundary witness v) (benchOf σ mount k))
      (testBlocks σ mount counter v) := by
  -- the loop goes on with fewer cells ahead of the main head, and with a store of its own
  induction hn : (σ.tape mount.main).right.length using Nat.strongRecOn generalizing σ v with
  | ind n ih =>
    have hread := effect_read σ mount k
    cases hfocus : (σ.tape mount.main).focus with
    | blank =>
      rw [testBlocks_of_blank hfocus]
      refine Agrees.of_step rfl (look_of_stage witness v (congrArg afterBoundary? hfocus)) hread ?_
      exact agrees_ending _ k mount witness v true
    | hash =>
      rw [testBlocks_of_hash hfocus]
      refine Agrees.of_step rfl (look_of_stage witness v (congrArg afterBoundary? hfocus)) hread ?_
      refine test_agrees (hcounted.after hread) fun used hused hmount hcounted' => ?_
      -- the matcher has taken cells off what is ahead of the main head
      have hlt := length_right_useUp_lt hused
      rw [hmount, tape_read, hn] at hlt
      exact ih _ hlt hcounted' (v + 1) rfl
    | main l | aux l =>
      rw [testBlocks_of_no_end (by rw [hfocus]; rfl)]
      refine Agrees.of_fault rfl ?_
      show (look witness v (benchOf σ mount k)).fault = _
      rw [look, show (benchOf σ mount k).main.focus = _ from hfocus, hfocus]
      rfl

end Agreement

/-! ## The whole trial -/

/-- **A trial in place does what a trial does**, and fails when the trial fails. -/
theorem inPlace_agrees {σ made : Store} {mount : Mount} {counter : Option (Handle Counter)}
    {coin : Option (Handle Coin)} (hm : σ.Made made .trial counter coin mount) :
    ∃ witness, Agrees made (coin.getD Store.commonCoin) mount witness
      (Device.run State.drawing (benchOf σ mount (coin.getD Store.commonCoin)))
      (inPlace σ mount.main mount.aux counter coin) := by
  let k := coin.getD Store.commonCoin
  let b := benchOf made mount k
  -- making the trial has changed neither the tapes nor the coin
  have hbench : benchOf σ mount k = b := by
    simp only [b, benchOf, hm.tapes, hm.coins]
  -- what a trial takes, its sampler takes
  obtain ⟨first, later, hlaid⟩ := refusal?_eq_none_iff.mp hm.refusal
  obtain ⟨n, hsampler⟩ := hlaid.sampler
  have hr : MachineKind.sampler.refusal? (σ.tapes mount) = none :=
    Sampler.refusal?_eq_none_iff.mpr ⟨_, _, hsampler⟩
  have hr' : Sampler.refusal? b.toTapes = none := by
    rw [← hbench]
    exact hr
  let child := Device.run Sampler.State.scan b
  have hstart : Device.run MachineKind.sampler.start (σ.startBench .sampler coin mount) =
      child.map .sampler := by
    simp only [child, ← hbench]
    exact Control.run_sampler _ _
  refine ⟨child.bench.aux.decodeWord, ?_⟩
  rw [show benchOf σ mount (coin.getD Store.commonCoin) = b from hbench]
  cases hf : child.fault with
  | some f =>
    have hused : σ.useUp .sampler mount.main mount.aux counter coin = .error f :=
      Store.useUp_of_fault hr (by rw [hstart]; exact hf)
    rw [inPlace, hused]
    exact Agrees.of_fault rfl (fault_draw_of_fault (b := b) hr' hf)
  | none =>
    obtain ⟨made', used, hm', hused, -, hmount, heffect⟩ :=
      Store.exists_useUp counter (by decide) hr (by rw [hstart]; exact hf)
    rw [hstart, hm'.coin_of_ne_matcher (by decide)] at heffect
    -- the counter that the sampler attaches is the one that the trial has attached
    have hmade : Store.Effect made used.store (some k) mount mount child.cost child.bench :=
      heffect.of_agree (hm'.main_counter.trans hm.main_counter.symm)
        (hm'.aux_counter.trans hm.aux_counter.symm) (hm'.counters.trans hm.counters.symm)
        (hm'.coins.trans hm.coins.symm)
    rw [inPlace, hused]
    refine Agrees.of_step rfl (draw_of_run (b := b) hr' hf) hmade ?_
    show Agrees _ _ _ _ _ (testBlocks used.store used.mount counter 0)
    rw [hmount]
    -- the machines that follow find their counter on the reels already
    exact testBlocks_agrees (hm.counted.after hmade) k _ 0

/-- **A trial and the loop without clones agree.** On tapes that a trial takes, with a coin that
has a flip for each letter of the first block, no machine of the loop is refused and none fails.
The loop gives back the reels it was given. It comes to the verdict of the trial after as many
matchers as the trial has verified blocks, and the tapes, all counters and all coins are the same
as after the trial has been run and its reels have been taken from it. -/
theorem run_eq_inPlace {σ made : Store} {main aux : Handle Reel}
    {counter : Option (Handle Counter)} {coin : Option (Handle Coin)}
    (hmade : σ.make .trial main aux counter coin = .ok made) {first : List Letter}
    {later : List (List Letter)} (hlaid : Laid ⟨σ.tape main, σ.tape aux⟩ first later)
    (hflips : ((σ.coins.get (coin.getD Store.commonCoin)).flips? first.length).isSome = true) :
    let ran := made.run σ.machines.next
    let freed := ran.store.destroy σ.machines.next
    ∃ e mount, inPlace σ main aux counter coin = .ok e ∧
      e.mount.main = main ∧ e.mount.aux = aux ∧
      ran.result = .ok e.accepted ∧
      (ran.store.machines.get σ.machines.next).control.verified = e.tests ∧
      freed.result = .ok mount ∧ freed.store.tapes mount = e.store.tapes e.mount ∧
      (∀ c, freed.store.counters.get c = e.store.counters.get c) ∧
      ∀ c, freed.store.coins.get c = e.store.coins.get c := by
  intro ran freed
  obtain ⟨mount, rfl, rfl, hm⟩ := Store.exists_made hmade
  obtain ⟨⟨flips, left⟩, hsome⟩ := Option.isSome_iff_exists.mp hflips
  let k := coin.getD Store.commonCoin
  obtain ⟨hfault, -, -, -, -⟩ := run_of_laid (b := benchOf σ mount k) hlaid hsome rfl
  obtain ⟨witness, hagrees⟩ := inPlace_agrees hm
  obtain ⟨⟨mount', hworked⟩, -, hresult⟩ := hm.run
  have hstart : Device.run MachineKind.trial.start (σ.startBench .trial coin mount) =
      (Device.run State.drawing (benchOf σ mount k)).map .trial := Control.run_trial _ _
  rw [hstart] at hworked hresult
  generalize Device.run State.drawing (benchOf σ mount k) = o at *
  cases hplace : inPlace σ mount.main mount.aux counter coin with
  | error f =>
    -- the trial does not fail, so the loop does not
    rw [hplace] at hagrees
    have hsomeFault : o.fault = some f := hagrees
    simp [hfault] at hsomeFault
  | ok e =>
    rw [hplace] at hagrees
    obtain ⟨-, hstate, hmount, heffect⟩ := hagrees
    have hmounted : (ran.store.machines.get σ.machines.next).mount = some mount' := by
      rw [hworked.machine]
      rfl
    have hfreed : freed = _ := Store.destroy_of_mounted hmounted
    -- the work of the trial and that of the loop start from one store and have one outcome
    have htrial := hworked.effect
    rw [hm.coin_of_ne_matcher (by decide)] at htrial
    refine ⟨e, mount', rfl, by rw [hmount], by rw [hmount], ?_, ?_, by rw [hfreed], ?_, ?_, ?_⟩
    · rw [hresult]
      simp only [Outcome.map, hfault, hstate, Option.elim_none, Control.accepted]
      cases e.accepted <;> rfl
    · rw [hworked.machine]
      simp only [Store.after, Outcome.map, hstate]
      rfl
    · rw [hfreed, hmount]
      exact htrial.tapes.trans heffect.tapes.symm
    · intro c
      have hvalue := (htrial.counters c).trans (heffect.counters c).symm
      rw [hfreed]
      exact congrArg Counter.mk hvalue
    · intro c
      rw [hfreed]
      exact (htrial.coins c).trans (heffect.coins c).symm

/-- The blocks `ab`, `bab` and `ba` and the flips that spell `ab`. -/
theorem run_eq_inPlace_ab_bab_ba :
    let σ := ((({} : Store).addReel
      ⟨[.blank], .blank, [.main .a, .main .b, .hash, .main .b, .main .a, .main .b, .hash, .main .b,
        .main .a]⟩ none).addReel ⟨[.blank], .blank, []⟩ none).addCoin (.scripted [true, false])
    ∃ made e, σ.make .trial ⟨0⟩ ⟨1⟩ none none = .ok made ∧
      inPlace σ ⟨0⟩ ⟨1⟩ none none = .ok e ∧
      (made.run σ.machines.next).result = .ok e.accepted := by
  intro σ
  obtain ⟨made, hmade⟩ : ∃ made, σ.make .trial ⟨0⟩ ⟨1⟩ none none = .ok made :=
    Store.make_eq_ok (by decide) none none
  have hlaid : Laid ⟨σ.tape ⟨0⟩, σ.tape ⟨1⟩⟩ [.a, .b] [[.b, .a, .b], [.b, .a]] :=
    { main_left := ⟨1, rfl⟩, main_focus := rfl, main_right := ⟨0, rfl⟩, first_ne_nil := by decide
      later_ne_nil := by decide, aux_blank := ⟨1, 0, rfl⟩ }
  obtain ⟨e, -, hplace, -, -, hresult, -⟩ := run_eq_inPlace hmade hlaid rfl
  exact ⟨made, e, hmade, hplace, hresult⟩

end SubseqMachines.Trial
