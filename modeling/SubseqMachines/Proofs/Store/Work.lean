import SubseqMachines.Proofs.Store.Frame

/-!
# The work of a machine in the store

A machine in the store ticks on the bench that its reels and its coin make up. So a tick is a step
of a device on this bench, and a run is a run of the device.

* `Store.Steady`: a machine whose operations count on the same counters whether they are made on its
  reels or on clones of them.
* `Store.Worked`: a machine has done work that has a given outcome.
* `Store.exists_worked_tick`, `Store.exists_worked_runOn`: a tick is a step of the device, and a run
  is its run.
-/

namespace SubseqMachines.Store

/-! ## A tick -/

/-- A machine with the reels `mount`, which has a coin unless it is a matcher, and whose own
counter is that of its reels. -/
structure Steady (σ : Store) (h : Handle Machine) (mount : Mount) : Prop where
  mounted : (σ.machines.get h).mount = some mount
  coin : (σ.machines.get h).coin = none → (σ.machines.get h).control.kind = .matcher
  counted : Counted σ (σ.machines.get h).counter mount

theorem payer_eq_counterOf {σ : Store} {m : Machine} {r : Handle Reel}
    (h : (m.counter <|> σ.counterOf r) = σ.counterOf r) : σ.payer m r = σ.counterOf r := by
  rw [payer]
  split
  · exact h
  · rfl

theorem counterOf_setTape (σ : Store) (r k : Handle Reel) (t : Tape) :
    (σ.setTape r t).counterOf k = σ.counterOf k := by
  rw [counterOf, get_reels_setTape]
  rfl

/-- The tapes of a step are on the reels that the machine has then. A step that fails and runs a
child has to give the child up and leave the tapes as they were. -/
theorem tapes_putTapes_of_step {σ : Store} {m : Machine} {mount : Mount} {o : Outcome Control}
    (hfail : m.control.delegates = true → o.fault ≠ none →
      o.gaveUp = true ∧ o.bench.toTapes = σ.tapes mount) :
    (σ.putTapes m mount o).1.tapes (σ.putTapes m mount o).2 = o.bench.toTapes := by
  by_cases hf : o.fault = none
  · exact tapes_putTapes hf
  · by_cases hd : m.control.delegates = true
    · obtain ⟨hgave, htapes⟩ := hfail hd hf
      rw [putTapes_of_failed hd hgave]
      exact htapes.symm
    · rw [putTapes_of_own (Bool.eq_false_iff.mpr hd)]
      simp [tapes, tape, setTape, Table.get_set, mount.main_ne_aux]

/-- The reels that a machine has after a step that gives nothing up count as those that it worked on,
which are clones if it has run a child. -/
theorem counterOf_putTapes (σ : Store) (m : Machine) (mount : Mount) (o : Outcome Control) :
    let r := σ.putTapes m mount o
    let paid := if o.gaveUp = true then σ.counterOf else σ.payer m
    r.1.counterOf r.2.main = paid mount.main ∧ r.1.counterOf r.2.aux = paid mount.aux := by
  intro r paid
  by_cases hd : m.control.delegates = true
  · by_cases hgave : o.gaveUp = true
    · have hr : r = (σ, mount) := putTapes_of_failed hd hgave
      have hpaid : paid = σ.counterOf := if_pos hgave
      rw [hr, hpaid]
      exact ⟨rfl, rfl⟩
    · -- a child has succeeded: its clones are new reels
      have hr : r = σ.remount m mount o.bench.toTapes :=
        putTapes_of_adopted hd (Bool.eq_false_iff.mpr hgave)
      have hpaid : paid = σ.payer m := if_neg hgave
      rw [hr, hpaid]
      refine ⟨?_, ?_⟩
      · simp [remount, counterOf, addReel, Table.get_add, Table.next]
      · simp [remount, counterOf, addReel]
  · -- a step of its own leaves the machine its reels
    have hown := Bool.eq_false_iff.mpr hd
    have hr : r = ((σ.setTape mount.main o.bench.main).setTape mount.aux o.bench.aux, mount) :=
      putTapes_of_own hown
    have hpayer : σ.payer m = σ.counterOf := by
      funext k
      rw [payer, hown]
      rfl
    have hpaid : paid = σ.counterOf := by
      show (if o.gaveUp = true then σ.counterOf else σ.payer m) = σ.counterOf
      rw [hpayer, ite_self]
    rw [hr, hpaid]
    refine ⟨?_, ?_⟩
    · rw [counterOf_setTape, counterOf_setTape]
    · rw [counterOf_setTape, counterOf_setTape]

/-- After a tick the tapes of its step are on the reels of the machine, also if it fails. -/
theorem tapes_commit_step (σ : Store) (h : Handle Machine) (mount : Mount) :
    let m := σ.machines.get h
    let o := Device.step m.control (σ.bench m mount)
    (σ.commit h mount o).tapes (σ.putTapes m mount o).2 = o.bench.toTapes := by
  intro m o
  rw [tapes_of_alike (reels_commit σ h mount o)]
  refine tapes_putTapes_of_step fun hd hf => ⟨?_, Control.toTapes_step hd hf⟩
  rw [Control.gaveUp_step]
  exact Option.isSome_iff_ne_none.mpr hf

/-- A machine after steps, with the reels it has then. -/
def after (m : Machine) (o : Outcome Control) (mount : Mount) : Machine :=
  { m with control := o.state, ticks := m.ticks + o.ticks, mount := some mount }

theorem after_after (m : Machine) (o p : Outcome Control) (mount mount' : Mount) :
    after (after m o mount) p mount' = after m (o.followedBy p) mount' := by
  simp [after, Outcome.followedBy, Nat.add_assoc]

/-- The machine `h`, with the reels `mount`, has done work that has the outcome `o`, and has the
reels `mount'` now. -/
structure Worked (σ σ' : Store) (h : Handle Machine) (mount mount' : Mount) (o : Outcome Control) :
    Prop where
  machine : σ'.machines.get h = after (σ.machines.get h) o mount'
  kind : o.state.kind = (σ.machines.get h).control.kind
  /-- Only a trial takes new reels. -/
  mount_eq : (σ.machines.get h).control.kind ≠ .trial → mount' = mount
  effect : Effect σ σ' (σ.machines.get h).coin mount mount' o.cost o.bench

theorem Worked.trans {σ₁ σ₂ σ₃ : Store} {h : Handle Machine} {m₁ m₂ m₃ : Mount}
    {o p : Outcome Control} (ho : Worked σ₁ σ₂ h m₁ m₂ o) (hp : Worked σ₂ σ₃ h m₂ m₃ p) :
    Worked σ₁ σ₃ h m₁ m₃ (o.followedBy p) where
  machine := by rw [hp.machine, ho.machine, after_after]
  kind := by
    have hkind := hp.kind
    rw [ho.machine] at hkind
    exact hkind.trans ho.kind
  mount_eq := by
    intro hne
    have hmount := hp.mount_eq
    rw [ho.machine] at hmount
    exact (hmount (ho.kind ▸ hne)).trans (ho.mount_eq hne)
  effect := by
    have hcoin : (σ₂.machines.get h).coin = (σ₁.machines.get h).coin := by
      rw [ho.machine]
      rfl
    have heffect := hp.effect
    rw [hcoin] at heffect
    exact ho.effect.trans heffect

section Tick

variable {σ : Store} {h : Handle Machine} {mount : Mount}

/-- A machine goes on to work in the same way. -/
theorem Worked.steady {σ' : Store} {mount' : Mount} {o : Outcome Control}
    (ho : Worked σ σ' h mount mount' o) (hs : Steady σ h mount) : Steady σ' h mount' where
  mounted := by rw [ho.machine]; rfl
  coin := by
    rw [ho.machine]
    exact fun hc => ho.kind.trans (hs.coin hc)
  counted := by
    rw [ho.machine]
    exact hs.counted.after ho.effect

/-- The store after a step of a device. -/
theorem exists_worked_commit (hs : Steady σ h mount)
    (hlive : Device.halted (σ.machines.get h).control = false) :
    let m := σ.machines.get h
    let o := Device.step m.control (σ.bench m mount)
    ∃ mount', Worked σ (σ.commit h mount o) h mount mount' o := by
  intro m o
  obtain ⟨hputMain, hputAux⟩ := σ.counterOf_putTapes m mount o
  have hmain := payer_eq_counterOf hs.counted.1
  have haux := payer_eq_counterOf hs.counted.2
  have hreels := reels_commit σ h mount o
  have hcounted := value_counters_commit σ h mount o
  refine ⟨(σ.putTapes m mount o).2, ?_, Control.kind_step _ _, ?_, ?_⟩
  · rw [after, Control.ticks_step hlive]
    exact machine_commit σ h mount o
  · intro hne
    rw [putTapes_of_own (Control.delegates_of_ne_trial hne)]
  · exact
      { tapes := tapes_commit_step σ h mount
        main_counter := by
          rw [counterOf_of_alike hreels, hputMain]
          split
          · rfl
          · exact hmain
        aux_counter := by
          rw [counterOf_of_alike hreels, hputAux]
          split
          · rfl
          · exact haux
        counters := fun k => by rw [hcounted, hmain, haux, tally]
        coins := get_coins_commit σ h mount o }

/-- **A tick of a machine that is not in a final state is a step of its device.** -/
theorem exists_worked_tick (hs : Steady σ h mount)
    (hlive : Device.halted (σ.machines.get h).control = false) :
    let o := Device.step (σ.machines.get h).control (σ.bench (σ.machines.get h) mount)
    (∃ mount', Worked σ (σ.tick h).store h mount mount' o) ∧ (σ.tick h).trace = o.trace ∧
      (σ.tick h).result = o.fault.elim (.ok !Device.halted o.state) .error := by
  intro o
  rw [tick_of_live hs.mounted hlive]
  exact ⟨exists_worked_commit hs hlive, rfl, rfl⟩

theorem tick_of_halted (hs : Steady σ h mount)
    (hhalted : Device.halted (σ.machines.get h).control = true) :
    σ.tick h = { store := σ, result := .ok false } :=
  tick_of_final hs.mounted hhalted

/-- The bench of a machine after its work. -/
theorem Worked.bench_eq {σ' : Store} {mount' : Mount} {o : Outcome Control}
    (ho : Worked σ σ' h mount mount' o)
    (hcoin : (σ.machines.get h).coin = none → o.bench.coin = default) :
    σ'.bench (σ'.machines.get h) mount' = o.bench :=
  ho.effect.bench_eq hcoin (by rw [ho.machine]; rfl)

/-- A step of a machine without a coin leaves it without one. -/
theorem coin_step_of_steady (hs : Steady σ h mount) (hcoin : (σ.machines.get h).coin = none) :
    (Device.step (σ.machines.get h).control (σ.bench (σ.machines.get h) mount)).bench.coin =
      default := by
  rw [Control.coin_step (hs.coin hcoin), bench, hcoin]
  rfl

end Tick

/-! ## A run -/

section Run

variable {σ : Store} {h : Handle Machine} {mount : Mount}

theorem runOn_of_error {f : Fault} (ht : (σ.tick h).result = .error f) (past : List Event) :
    σ.runOn h past =
      { store := (σ.tick h).store, trace := past.reverse ++ (σ.tick h).trace
        result := .error f } := by
  rw [runOn]
  split <;> simp_all

theorem runOn_of_stop (ht : (σ.tick h).result = .ok false) (past : List Event) :
    σ.runOn h past =
      { store := (σ.tick h).store, trace := past.reverse ++ (σ.tick h).trace
        result := .ok ((σ.tick h).store.machines.get h).control.accepted } := by
  rw [runOn]
  split <;> simp_all

theorem runOn_of_continue (ht : (σ.tick h).result = .ok true) (past : List Event) :
    σ.runOn h past = (σ.tick h).store.runOn h ((σ.tick h).trace.reverse ++ past) := by
  rw [runOn]
  split <;> simp_all

/-- A machine in a final state does nothing more. -/
theorem runOn_of_halted (hs : Steady σ h mount)
    (hhalted : Device.halted (σ.machines.get h).control = true) (past : List Event) :
    σ.runOn h past =
      { store := σ, trace := past.reverse
        result := .ok (σ.machines.get h).control.accepted } := by
  have htick := tick_of_halted hs hhalted
  have hstop := runOn_of_stop (by rw [htick]) past
  rw [htick, List.append_nil] at hstop
  exact hstop

theorem worked_still (hs : Steady σ h mount) :
    let m := σ.machines.get h
    Worked σ σ h mount mount (.still m.control (σ.bench m mount)) where
  machine := by
    rw [after, ← hs.mounted]
    rfl
  kind := rfl
  mount_eq _ := rfl
  effect := Effect.refl mount

/-- **A run of a machine in the store is the run of its device.** -/
theorem exists_worked_runOn (hs : Steady σ h mount) (past : List Event) :
    let o := Device.run (σ.machines.get h).control (σ.bench (σ.machines.get h) mount)
    let r := σ.runOn h past
    (∃ mount', Worked σ r.store h mount mount' o) ∧ r.trace = past.reverse ++ o.trace ∧
      r.result = o.fault.elim (.ok o.state.accepted) .error := by
  induction hn : σ.remaining h using Nat.strongRecOn generalizing σ mount past with
  | ind n ih =>
    -- a run of the machine and a run of its device take the same branch at each step
    cases hlive : Device.halted (σ.machines.get h).control with
    | true =>
      rw [Device.run_of_halted hlive, runOn_of_halted hs hlive]
      exact ⟨⟨mount, worked_still hs⟩, by simp [Outcome.still], rfl⟩
    | false =>
      obtain ⟨⟨mount₁, hw⟩, htrace, hresult⟩ := exists_worked_tick hs hlive
      have hbench := hw.bench_eq (coin_step_of_steady hs)
      have hcontrol := congrArg Machine.control hw.machine
      by_cases hf : (Device.step (σ.machines.get h).control
          (σ.bench (σ.machines.get h) mount)).fault = none
      · rw [Device.run_of_step hlive hf]
        rw [hf, Option.elim_none] at hresult
        generalize Device.step (σ.machines.get h).control (σ.bench (σ.machines.get h) mount) = o₁
          at hw htrace hresult hbench hcontrol hf
        cases hend : Device.halted o₁.state with
        | true =>
          rw [hend] at hresult
          rw [Device.run_of_halted hend, Outcome.followedBy_still o₁ hf, runOn_of_stop hresult,
            htrace]
          refine ⟨⟨mount₁, hw⟩, rfl, ?_⟩
          simp only [hf, hcontrol]
          rfl
        | false =>
          rw [hend] at hresult
          -- the rest of the run is one from the store that the tick has left
          have hlt : (σ.tick h).store.remaining h < n := hn ▸ remaining_tick hresult
          obtain ⟨⟨mount₂, hw'⟩, htrace', hresult'⟩ :=
            ih _ hlt (hw.steady hs) ((σ.tick h).trace.reverse ++ past) rfl
          rw [hbench, hcontrol] at hw' htrace' hresult'
          rw [runOn_of_continue hresult]
          refine ⟨⟨mount₂, hw.trans hw'⟩, ?_, hresult'⟩
          rw [htrace', htrace, List.reverse_append, List.reverse_reverse, List.append_assoc]
          rfl
      · -- a failed tick ends the run, but it has been done and counted
        obtain ⟨f, hf'⟩ := Option.ne_none_iff_exists'.mp hf
        rw [hf', Option.elim_some] at hresult
        rw [Device.run_of_fault hlive hf, runOn_of_error hresult, htrace]
        refine ⟨⟨mount₁, hw⟩, rfl, ?_⟩
        simp only [hf', Option.elim_some]

end Run

end SubseqMachines.Store
