import SubseqMachines.Proofs.Coin.Flips
import SubseqMachines.Proofs.Subsequence.Spelling
import SubseqMachines.Proofs.Trial.Invariant
import SubseqMachines.Proofs.Trial.Reels

/-!
# Ticks of a trial that fail

Whatever others have made of the tapes of a trial, and at whatever point a tick of it fails, the
trial stands afterwards where it stood before. The children work on clones and are taken over as a
whole or not at all, and a look at the cell between two blocks does not move the head. What a failed
tick spends is a tick, the operations that were counted, and the flips that were drawn.

* `Trial.Cause`, `Trial.cause_of_fault`: why a step of a trial can fail.
* `Trial.state_transition_of_fault`: it then leaves the state as it is.
* `Trial.flippedTo_transition`: all that a step does to the coin is to flip it.
* `Trial.draw_of_success`: a witness that is drawn is not empty, and the aux head is in front of it.
* `Trial.OnlySpent`, `Trial.onlySpent_of_fault`: a tick that fails changes nothing but that.
* `Trial.tick_atomic`: so the trial can try again, and goes on as if it had not failed.
-/

namespace SubseqMachines

theorem Coin.FlippedTo.sampler_step {c : Coin} (s : Sampler.State) (b : Bench)
    (h : c.FlippedTo b.coin) : c.FlippedTo (Device.step s b).bench.coin := by
  show c.FlippedTo (Sampler.transition s b).bench.coin
  cases s with
  | scan =>
    rw [Sampler.transition, Outcome.bench_afterRead]
    exact h
  | rewind =>
    rw [Sampler.transition, Outcome.bench_afterRead]
    exact h
  | accept => exact h
  | extend =>
    unfold Sampler.transition Sampler.extend Coin.flip
    cases hflip : b.coin.flip? with
    | none => exact h
    | some r => exact h.flip hflip

namespace Trial

/-! ## Why a step fails -/

/-- The reasons for which a trial in a state can fail on a bench. -/
inductive Cause : State → Bench → Fault → Prop
  /-- The sampler does not take the tapes. -/
  | nothingDrawn {b : Bench} {r : Refusal} (refusal : Sampler.refusal? b.toTapes = some r) :
      Cause .drawing b (.refusal r)
  /-- The sampler takes the tapes, and its coin has not a flip for each letter. -/
  | outOfFlips {b : Bench} {block : List Letter} {rest : List Cell}
      (laid : Sampler.Laid b.toTapes block rest) (flips : b.coin.flips? block.length = none) :
      Cause .drawing b (.breakdown .coinExhausted)
  /-- The main head is on a letter, of either kind. -/
  | noBoundary {witness : String} {v : Nat} {b : Bench} {cell : Cell} (focus : b.main.focus = cell)
      (letter : cell.isMainLetter = true ∨ cell.isAuxLetter = true) :
      Cause (.drawn .boundary witness v) b (.breakdown (.noBoundary cell))
  /-- The matcher does not take the tapes. -/
  | notTested {witness : String} {v : Nat} {b : Bench} {r : Refusal}
      (refusal : Matcher.refusal? b.toTapes = some r) :
      Cause (.drawn .verify witness v) b (.refusal r)
  /-- The matcher takes the tapes, and a letter of the aux tape follows the block. -/
  | foreign {witness : String} {v : Nat} {b : Bench} {block word : List Letter} {rest : List Cell}
      {l : Letter} (laid : Matcher.Laid b.toTapes block word rest)
      (follows : rest.headD .blank = .aux l) :
      Cause (.drawn .verify witness v) b (.breakdown (.foreign .matcher .main (.aux l)))

section Transition

variable {s : State} {b : Bench} {f : Fault}

/-- **Every failure of a step has one of these causes.** -/
theorem cause_of_fault (hf : (transition s b).fault = some f) : Cause s b f := by
  match s with
  | .drawing =>
    obtain ⟨r, hr, rfl⟩ | ⟨hr, hchild⟩ := fault_draw_cases hf
    · exact .nothingDrawn hr
    · obtain ⟨block, rest, hlaid⟩ := Sampler.refusal?_eq_none_iff.mp hr
      cases hflips : b.coin.flips? block.length with
      | none =>
        obtain rfl :=
          Option.some.inj (hchild.symm.trans (Sampler.fault_run_of_exhausted hlaid hflips))
        exact .outOfFlips hlaid hflips
      | some r =>
        -- a sampler with enough flips does not fail
        obtain ⟨hfault, -⟩ := Sampler.run_of_laid hlaid hflips
        cases hchild.symm.trans hfault
  | .drawn .boundary witness v =>
    change (look witness v b).fault = some f at hf
    unfold look at hf
    cases hc : b.main.focus with
    | blank | hash => simp [hc, afterBoundary?] at hf
    | main l =>
      simp only [hc, afterBoundary?, Option.some.injEq] at hf
      rw [← hf]
      exact .noBoundary hc (.inl rfl)
    | aux l =>
      simp only [hc, afterBoundary?, Option.some.injEq] at hf
      rw [← hf]
      exact .noBoundary hc (.inr rfl)
  | .drawn .verify witness v =>
    obtain ⟨r, hr, rfl⟩ | ⟨hr, hchild⟩ := fault_test_cases hf
    · exact .notTested hr
    · obtain ⟨block, word, rest, hlaid⟩ := Matcher.refusal?_eq_none_iff.mp hr
      obtain ⟨l, hl, rfl⟩ := Matcher.fault_run_of_laid hlaid hchild
      exact .foreign hlaid hl
  | .drawn .accept witness v => cases hf
  | .drawn .reject witness v => cases hf

/-! ## What a step that fails leaves -/

theorem state_transition_of_fault (hf : (transition s b).fault ≠ none) :
    (transition s b).state = s := by
  match s with
  | .drawing => exact state_draw_of_fault hf
  | .drawn .boundary witness v =>
    change (look witness v b).fault ≠ none at hf
    show (look witness v b).state = _
    unfold look at hf ⊢
    cases hstage : afterBoundary? b.main.focus with
    | none => rfl
    | some stage =>
      simp only [hstage] at hf
      exact absurd rfl hf
  | .drawn .verify witness v => exact state_test_of_fault hf
  | .drawn .accept witness v => rfl
  | .drawn .reject witness v => rfl

end Transition

/-! ## The coin -/

theorem coin_adopt {σ : Type} (s : State) (b : Bench) (child : Outcome σ)
    (next : σ → Tapes → Except Breakdown State) :
    (adopt s b child next).bench.coin = child.bench.coin := by
  unfold adopt
  split
  · rfl
  · split <;> rfl

/-- **A step of a trial flips its coin**, any number of times, also when it fails. -/
theorem flippedTo_transition (s : State) (b : Bench) :
    b.coin.FlippedTo (transition s b).bench.coin := by
  match s with
  | .drawing =>
    show b.coin.FlippedTo (draw b).bench.coin
    unfold draw
    split
    · exact .refl _
    · show b.coin.FlippedTo (adopt _ b _ _).bench.coin
      rw [coin_adopt]
      exact Device.run_bench_induction (P := fun c => b.coin.FlippedTo c.coin)
        (fun s c h => h.sampler_step s c) .scan (.refl _)
  | .drawn .boundary witness v =>
    show b.coin.FlippedTo (look witness v b).bench.coin
    unfold look
    split <;> exact .refl _
  | .drawn .verify witness v =>
    show b.coin.FlippedTo (test witness v b).bench.coin
    unfold test
    split
    · exact .refl _
    · -- a matcher does not touch the coin
      rw [coin_adopt, Matcher.coin_run]
      exact .refl _
  | .drawn .accept witness v => exact .refl _
  | .drawn .reject witness v => exact .refl _

/-! ## A witness that is drawn -/

/-- **A witness that is drawn is a word**, and the aux head is on the blank in front of it. -/
theorem draw_of_success {b : Bench} (hf : (draw b).fault = none) :
    ∃ witness, (draw b).state = .drawn .boundary witness 0 ∧ witness ≠ "" ∧
      (draw b).bench.aux.focus = .blank ∧ (draw b).bench.aux.decodeWord = witness := by
  cases hr : Sampler.refusal? b.toTapes with
  | some r =>
    rw [draw, hr] at hf
    cases hf
  | none =>
    cases hchild : (Device.run Sampler.State.scan b).fault with
    | some f =>
      rw [fault_draw_of_fault hr hchild] at hf
      cases hf
    | none =>
      obtain ⟨hfocus, hne, -⟩ := drawnFrom_eq_ok_iff.mp (drawnFrom_of_run hr hchild)
      rw [draw_of_run hr hchild]
      exact ⟨_, rfl, hne, hfocus, rfl⟩

/-! ## Ticks that fail -/

/-- A trial with the reels `mount` has spent a tick, operations and flips, and that is all. -/
structure OnlySpent (σ after : Store) (h : Handle Machine) (mount : Mount) : Prop where
  /-- State, witness, number of verified blocks and reels are the same, and one tick is added. -/
  machine : after.machines.get h =
    { σ.machines.get h with ticks := (σ.machines.get h).ticks + 1 }
  other_machines : ∀ k ≠ h, after.machines.get k = σ.machines.get k
  /-- No tape has changed, and none has been added. -/
  reels : after.reels.Alike σ.reels
  coin : ∀ k, (σ.machines.get h).coin = some k →
    (σ.coins.get k).FlippedTo (after.coins.get k)
  other_coins : ∀ k, (σ.machines.get h).coin ≠ some k → after.coins.get k = σ.coins.get k
  counters : ∀ k, (σ.counters.get k).value ≤ (after.counters.get k).value
  /-- Counters that are attached neither to the trial nor to its reels have counted nothing. -/
  other_counters : ∀ k, (σ.machines.get h).counter ≠ some k →
    σ.counterOf mount.main ≠ some k → σ.counterOf mount.aux ≠ some k →
      after.counters.get k = σ.counters.get k

section Tick

variable {σ : Store} {h : Handle Machine} {mount : Mount} {s : State}

theorem payer_ne {m : Machine} {r : Handle Reel} {k : Handle Counter} (hown : m.counter ≠ some k)
    (hreel : σ.counterOf r ≠ some k) : σ.payer m r ≠ some k := by
  unfold Store.payer
  split
  · cases hc : m.counter with
    | none => exact hreel
    | some c =>
      rw [hc] at hown
      exact hown
  · exact hreel

/-- **A step of a trial that fails has only spent something.** -/
theorem onlySpent_of_fault (hcontrol : (σ.machines.get h).control = .trial s)
    (hmount : (σ.machines.get h).mount = some mount)
    (hf : (transition s (σ.bench (σ.machines.get h) mount)).fault ≠ none) :
    let m := σ.machines.get h
    OnlySpent σ (σ.commit h mount (Device.step m.control (σ.bench m mount))) h mount := by
  intro m
  let o := Device.step m.control (σ.bench m mount)
  have ho : o = (Device.step s (σ.bench m mount)).map .trial := by
    rw [← Control.step_trial, ← hcontrol]
  have hfault : o.fault ≠ none := by
    rw [ho]
    exact hf
  have hstate : o.state = m.control := by
    rw [ho]
    exact (congrArg Control.trial (state_transition_of_fault hf)).trans hcontrol.symm
  -- the clones of a child that fails are given up
  obtain ⟨hreels, hkept⟩ : (σ.commit h mount o).reels.Alike σ.reels ∧
      ((σ.commit h mount o).machines.get h).mount = some mount := by
    rcases reels_commit_cases hcontrol mount with hkept | ⟨hnone, -⟩
    · exact hkept
    · exact absurd hnone hfault
  have hcounted : ∀ k, ((σ.commit h mount o).counters.get k).value = _ :=
    Store.value_counters_commit σ h mount o
  show OnlySpent σ (σ.commit h mount o) h mount
  refine
    { machine := ?_, other_machines := fun k hk => Store.get_machines_commit σ h mount o hk
      reels := hreels, coin := ?_, other_coins := ?_, counters := ?_, other_counters := ?_ }
  · rw [Store.machine_commit] at hkept
    have hput : some (σ.putTapes m mount o).2 = m.mount := hkept.trans hmount.symm
    rw [Store.machine_commit, hput, hstate]
  · intro k hk
    rw [Store.get_coins_commit, if_pos hk, ho]
    have hbench : (σ.bench m mount).coin = σ.coins.get k := by
      rw [Store.bench, hk]
      rfl
    rw [← hbench]
    exact flippedTo_transition s (σ.bench m mount)
  · intro k hk
    rw [Store.get_coins_commit, if_neg hk]
  · intro k
    have hvalue := hcounted k
    omega
  · intro k hown hmain haux
    have hvalue := hcounted k
    rw [if_neg (payer_ne hown hmain), if_neg (payer_ne hown haux)] at hvalue
    exact congrArg Counter.mk (hvalue.trans (Int.add_zero _))

/-- What a step that draws the witness leaves on the aux reel. -/
theorem drawn_of_commit (hcontrol : (σ.machines.get h).control = .trial .drawing)
    (hf : (draw (σ.bench (σ.machines.get h) mount)).fault = none) :
    let m := σ.machines.get h
    let now := σ.commit h mount (Device.step m.control (σ.bench m mount))
    ∃ mount' witness, (now.machines.get h).mount = some mount' ∧
      (now.machines.get h).control = .trial (.drawn .boundary witness 0) ∧ witness ≠ "" ∧
      (now.tape mount'.aux).focus = .blank ∧ (now.tape mount'.aux).decodeWord = witness := by
  intro m now
  obtain ⟨witness, hstate, hne, hfocus, hword⟩ := draw_of_success hf
  let o := Device.step m.control (σ.bench m mount)
  have ho : o = (Device.step State.drawing (σ.bench m mount)).map .trial := by
    rw [← Control.step_trial, ← hcontrol]
  have hmachine : now.machines.get h =
      { m with control := o.state, ticks := m.ticks + 1, mount := some (σ.putTapes m mount o).2 } :=
    Store.machine_commit σ h mount o
  have hstepped : o.state = .trial (.drawn .boundary witness 0) := by
    rw [ho]
    exact congrArg Control.trial hstate
  -- the aux tape of the sampler is on the aux reel that the trial has now
  have haux : now.tape (σ.putTapes m mount o).2.aux = (draw (σ.bench m mount)).bench.aux := by
    have htapes := Store.tapes_commit σ h mount o (by rw [ho]; exact hf)
    have hout : o.bench.aux = (draw (σ.bench m mount)).bench.aux := by
      rw [ho]
      rfl
    exact (congrArg Tapes.aux htapes).trans hout
  refine ⟨(σ.putTapes m mount o).2, witness, ?_, ?_, hne, ?_, ?_⟩
  · rw [hmachine]
  · rw [hmachine]
    exact hstepped
  · rw [haux, hfocus]
  · rw [haux, hword]

/-- The trial is about to do what it was about to do, with the coin as it is now. -/
theorem OnlySpent.sameTask {after : Store} (ho : OnlySpent σ after h mount) :
    Store.SameTask after { σ with coins := after.coins } h where
  control := by rw [ho.machine]
  mount := by rw [ho.machine]
  coin := by rw [ho.machine]
  counter := by rw [ho.machine]
  reels := ho.reels
  coins := .of_eq rfl

end Tick

/-- **A tick of a trial is atomic.** Others may have done anything to its tapes before. If the tick
fails, and not because the trial has surrendered its reels, then there is one of the known causes.
Nothing but a tick, operations that are counted and flips has been spent. Each further tick answers
and reports what it would if the trial had not ticked yet and had the coin that is left, and the
same holds of the state and the tapes that it leaves. If a tick that draws the witness succeeds, the
witness is not empty and the aux head is on the blank in front of it. -/
theorem tick_atomic {σ : Store} {h : Handle Machine}
    (hkind : (σ.machines.get h).control.kind = .trial) :
    let m := σ.machines.get h
    let after := (σ.tick h).store
    (∀ f, (σ.tick h).result = .error f → ((∃ r, f = .refusal r) ∨ ∃ b, f = .breakdown b) →
      ∃ s mount, m.control = .trial s ∧ m.mount = some mount ∧ Cause s (σ.bench m mount) f ∧
        OnlySpent σ after h mount ∧
        let again : Store := { σ with coins := after.coins }
        ∀ n, let retry := (after.ticked h n).tick h
          let first := (again.ticked h n).tick h
          retry.result = first.result ∧ retry.trace = first.trace ∧
            Store.SameTask retry.store first.store h) ∧
      ∀ goes, m.control = .trial .drawing → (σ.tick h).result = .ok goes →
        ∃ mount witness, (after.machines.get h).mount = some mount ∧
          (after.machines.get h).control = .trial (.drawn .boundary witness 0) ∧ witness ≠ "" ∧
          (after.tape mount.aux).focus = .blank ∧
          (after.tape mount.aux).decodeWord = witness := by
  intro m after
  obtain ⟨s, hcontrol⟩ := exists_state_of_kind hkind
  have hstep : ∀ b, Device.step m.control b = (Device.step s b).map .trial := by
    intro b
    rw [hcontrol, Control.step_trial]
  cases hmount : m.mount with
  | none =>
    -- a trial without reels only answers that it has none
    have htick := Store.tick_of_destroyed hmount
    refine ⟨?_, ?_⟩
    · intro f hresult hf
      rw [htick] at hresult
      obtain rfl := Except.error.inj hresult
      rcases hf with ⟨r, hr⟩ | ⟨b, hb⟩
      · cases hr
      · cases hb
    · intro goes hdrawing hresult
      rw [htick] at hresult
      cases hresult
  | some mount =>
    refine ⟨?_, ?_⟩
    · intro f hresult hf
      obtain ⟨-, hfault, hstore⟩ := Store.fault_of_tick hmount hresult
      rw [hstep] at hfault
      change (transition s (σ.bench m mount)).fault = some f at hfault
      have hspent : OnlySpent σ after h mount := by
        rw [show after = _ from hstore]
        exact onlySpent_of_fault hcontrol hmount (by rw [hfault]; exact nofun)
      refine ⟨s, mount, hcontrol, rfl, cause_of_fault hfault, hspent, ?_⟩
      intro again n
      exact (hspent.sameTask.ticked n).tick
    · intro goes hdrawing hresult
      obtain rfl : s = .drawing := Control.trial.inj (hcontrol.symm.trans hdrawing)
      obtain ⟨hfault, -, hstore⟩ := Store.success_of_tick hmount (by rw [hcontrol]; rfl) hresult
      rw [hstep] at hfault
      rw [show after = _ from hstore]
      exact drawn_of_commit hcontrol hfault

/-- The blocks `a` and `b`, with a coin that has no flip. -/
theorem tick_atomic_out_of_flips :
    let σ := ((({} : Store).addReel ⟨[], .blank, [.main .a, .hash, .main .b]⟩ none).addReel
      ⟨[], .blank, []⟩ none).addCoin (.scripted [])
    ∃ made, σ.make .trial ⟨0⟩ ⟨1⟩ none none = .ok made ∧
      let h := σ.machines.next
      let after := (made.tick h).store
      (made.tick h).result = .error (.breakdown .coinExhausted) ∧
        ∃ mount, (made.machines.get h).mount = some mount ∧ OnlySpent made after h mount ∧
          (after.tick h).result =
            (({ made with coins := after.coins } : Store).tick h).result := by
  intro σ
  obtain ⟨made, hmade⟩ : ∃ made, σ.make .trial ⟨0⟩ ⟨1⟩ none none = .ok made :=
    Store.make_eq_ok (by decide) none none
  refine ⟨made, hmade, ?_⟩
  intro h after
  obtain ⟨mount, hmain, haux, hm⟩ := Store.exists_made hmade
  have hcontrol : (made.machines.get h).control = .trial .drawing := by
    rw [hm.machine]
    rfl
  have hlaid : Sampler.Laid (σ.startBench .trial none mount).toTapes [.a] [.hash, .main .b] := by
    show Sampler.Laid ⟨σ.tape mount.main, σ.tape mount.aux⟩ _ _
    rw [hmain, haux]
    exact
      { main_left := ⟨0, rfl⟩, main_focus := rfl, main_right := rfl, word_ne_nil := by decide
        rest_head := rfl, aux_blank := ⟨0, 0, rfl⟩ }
  have hdraw : (draw (σ.startBench .trial none mount)).fault =
      some (.breakdown .coinExhausted) :=
    fault_draw_of_fault (Sampler.refusal?_eq_none_iff.mpr ⟨_, _, hlaid⟩)
      (Sampler.fault_run_of_exhausted hlaid rfl)
  have hresult : (made.tick h).result = .error (.breakdown .coinExhausted) := by
    rw [Store.tick_of_live hm.steady.mounted (by rw [hcontrol]; rfl), hm.bench_eq, hcontrol]
    show (draw _).fault.elim _ _ = _
    rw [hdraw]
    rfl
  obtain ⟨s, mount', -, hmount, -, hspent, hretry⟩ :=
    (tick_atomic (by rw [hcontrol]; rfl)).1 _ hresult (.inr ⟨_, rfl⟩)
  exact ⟨hresult, mount', hmount, hspent, (hretry 0).1⟩

end Trial

end SubseqMachines
