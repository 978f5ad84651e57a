import SubseqMachines.Proofs.Machine.Operations
import SubseqMachines.Proofs.Store.Termination

/-!
# Machines that do the same

Two machines in the same state do the same when they find the same on their tapes and their coins,
whatever else is in the store or the stores they are in. It does not matter which reels and which
coins these are, and it does not matter either on which counters the operations are counted.

* `Store.Twin`: machines that are about to do the same.
* `Store.Twin.tick`, `Store.Twin.ticked`: their ticks go the same way, and so do all that follow.
* `Store.Twin.runOn_of_last`: their runs are the same number of ticks, and end in the same way.
* `Store.operations`, `Store.operated`: the operations of the next tick, and of a number of ticks.
* `Store.Twin.operated_eq`: twins make the same operations.
* `Store.tapes_ticked_of_operated`: these operations lead to the tapes that are there then.
* `Store.value_ticked`: what the counters tally of them.
-/

namespace SubseqMachines.Store

/-! ## Twins -/

/-- The machine `h` in the store `σ` and the machine `k` in the store `τ` have done as many steps
and are about to do the same: they are in the same state, the tapes on their reels are the same, and
so are their coins. -/
structure Twin (σ τ : Store) (h k : Handle Machine) : Prop where
  control : (σ.machines.get h).control = (τ.machines.get k).control
  ticks : (σ.machines.get h).ticks = (τ.machines.get k).ticks
  tapes : (σ.machines.get h).mount.map σ.tapes = (τ.machines.get k).mount.map τ.tapes
  coin : (σ.machines.get h).coin.map σ.coins.get = (τ.machines.get k).coin.map τ.coins.get

section Twin

variable {σ τ υ : Store} {h k l : Handle Machine}

theorem Twin.refl (σ : Store) (h : Handle Machine) : Twin σ σ h h :=
  ⟨rfl, rfl, rfl, rfl⟩

theorem Twin.symm (ht : Twin σ τ h k) : Twin τ σ k h :=
  ⟨ht.control.symm, ht.ticks.symm, ht.tapes.symm, ht.coin.symm⟩

theorem Twin.trans (ht : Twin σ τ h k) (ht' : Twin τ υ k l) : Twin σ υ h l :=
  ⟨ht.control.trans ht'.control, ht.ticks.trans ht'.ticks, ht.tapes.trans ht'.tapes,
    ht.coin.trans ht'.coin⟩

/-- If one has surrendered its reels, then so has the other, and if not, then they work on the same
bench. -/
theorem Twin.mount_cases (ht : Twin σ τ h k) :
    (σ.machines.get h).mount = none ∧ (τ.machines.get k).mount = none ∨
      ∃ mount mount', (σ.machines.get h).mount = some mount ∧
        (τ.machines.get k).mount = some mount' ∧
        σ.bench (σ.machines.get h) mount = τ.bench (τ.machines.get k) mount' := by
  have htapes := ht.tapes
  cases hmount : (σ.machines.get h).mount with
  | none =>
    rw [hmount, Option.map_none, eq_comm, Option.map_eq_none_iff] at htapes
    exact .inl ⟨rfl, htapes⟩
  | some mount =>
    rw [hmount, Option.map_some, eq_comm, Option.map_eq_some_iff] at htapes
    obtain ⟨mount', hmount', heq⟩ := htapes
    refine .inr ⟨mount, mount', rfl, hmount', ?_⟩
    rw [bench, bench, ht.coin, heq]

/-- The tapes that a machine has after a step, also if it fails. -/
theorem mount_commit (σ : Store) (h : Handle Machine) (mount : Mount) :
    let o := Device.step (σ.machines.get h).control (σ.bench (σ.machines.get h) mount)
    let now := σ.commit h mount o
    (now.machines.get h).mount.map now.tapes = some o.bench.toTapes := by
  intro o now
  rw [machine_commit, Option.map_some, tapes_commit_step]

/-- The coin of a machine after a step. -/
theorem coin_commit (σ : Store) (h : Handle Machine) (mount : Mount) (o : Outcome Control) :
    let now := σ.commit h mount o
    (now.machines.get h).coin.map now.coins.get =
      (σ.machines.get h).coin.map fun _ => o.bench.coin := by
  intro now
  rw [machine_commit]
  cases hcoin : (σ.machines.get h).coin with
  | none => rfl
  | some c => rw [Option.map_some, Option.map_some, get_coins_commit, if_pos hcoin]

/-- **The ticks of twins go the same way.** -/
theorem Twin.tick (ht : Twin σ τ h k) :
    (σ.tick h).result = (τ.tick k).result ∧ (σ.tick h).trace = (τ.tick k).trace ∧
      Twin (σ.tick h).store (τ.tick k).store h k := by
  -- both are destroyed, or both are final, or both take the same step
  rcases ht.mount_cases with ⟨hmount, hmount'⟩ | ⟨mount, mount', hmount, hmount', hbench⟩
  · rw [tick_of_destroyed hmount, tick_of_destroyed hmount', ht.control]
    exact ⟨rfl, rfl, ht⟩
  · cases hlive : Device.halted (σ.machines.get h).control with
    | true =>
      rw [tick_of_final hmount hlive, tick_of_final hmount' (ht.control ▸ hlive)]
      exact ⟨rfl, rfl, ht⟩
    | false =>
      have hstep : Device.step (σ.machines.get h).control (σ.bench (σ.machines.get h) mount) =
          Device.step (τ.machines.get k).control (τ.bench (τ.machines.get k) mount') := by
        rw [ht.control, hbench]
      have hcoin : ∀ c : Coin, (σ.machines.get h).coin.map (fun _ => c) =
          (τ.machines.get k).coin.map fun _ => c := fun c => by
        have hmap := congrArg (Option.map fun _ => c) ht.coin
        rwa [Option.map_map, Option.map_map] at hmap
      rw [tick_of_live hmount hlive, tick_of_live hmount' (ht.control ▸ hlive)]
      refine ⟨by rw [hstep], by rw [hstep], ?_, ?_, ?_, ?_⟩
      · simp only
        rw [machine_commit, machine_commit, hstep]
      · simp only
        rw [machine_commit, machine_commit, ht.ticks]
      · simp only
        rw [mount_commit, mount_commit, hstep]
      · simp only
        rw [coin_commit, coin_commit, hstep, hcoin]

theorem Twin.ticked (ht : Twin σ τ h k) (n : ℕ) : Twin (σ.ticked h n) (τ.ticked k n) h k := by
  induction n with
  | zero => exact ht
  | succ n ih =>
    rw [ticked_succ, ticked_succ]
    exact ih.tick.2.2

/-- **The runs of twins end with the same tick**, and answer and report the same. -/
theorem Twin.runOn_of_last (ht : Twin σ τ h k) {n : ℕ}
    (hbefore : ∀ i < n, ((σ.ticked h i).tick h).result = .ok true)
    (hlast : ((σ.ticked h n).tick h).result ≠ .ok true) (past : List Event) :
    (τ.runOn k past).store = τ.ticked k (n + 1) ∧
      (τ.runOn k past).result = (σ.runOn h past).result ∧
      (τ.runOn k past).trace = (σ.runOn h past).trace := by
  -- so the ticks before the last one are the same number for both
  have htick := fun i => (ht.ticked i).tick
  obtain ⟨-, hresult, htrace⟩ := Store.runOn_of_last hbefore hlast past
  obtain ⟨hstore', hresult', htrace'⟩ := Store.runOn_of_last (σ := τ) (h := k) (n := n)
    (fun i hi => (htick i).1 ▸ hbefore i hi) ((htick n).1 ▸ hlast) past
  refine ⟨?_, ?_, ?_⟩
  · rw [hstore', ticked_succ]
  · rw [hresult', hresult, (htick n).1, (htick n).2.2.control]
  · rw [htrace', htrace]
    simp only [(htick _).2.1]

end Twin

/-! ## Operations -/

/-- The operations of the next tick of a machine. -/
def operations (σ : Store) (h : Handle Machine) : Operations :=
  let m := σ.machines.get h
  match m.mount with
  | none => {}
  | some mount =>
    if Device.halted m.control then {} else m.control.operations (σ.bench m mount)

/-- The operations of a number of ticks, of those that fail, too. -/
def operated (σ : Store) (h : Handle Machine) : ℕ → Operations
  | 0 => {}
  | n + 1 => (operated σ h n).followedBy ((σ.ticked h n).operations h)

section Operations

variable {σ τ : Store} {h k : Handle Machine} {mount : Mount}

theorem operations_of_live (hmount : (σ.machines.get h).mount = some mount)
    (hlive : Device.halted (σ.machines.get h).control = false) :
    σ.operations h =
      (σ.machines.get h).control.operations (σ.bench (σ.machines.get h) mount) := by
  simp only [operations, hmount, hlive, Bool.false_eq_true, if_false]

theorem operations_of_final (hfinal : Device.halted (σ.machines.get h).control = true) :
    σ.operations h = {} := by
  rw [operations]
  cases (σ.machines.get h).mount with
  | none => rfl
  | some mount => exact if_pos hfinal

theorem Twin.operations_eq (ht : Twin σ τ h k) : σ.operations h = τ.operations k := by
  rcases ht.mount_cases with ⟨hmount, hmount'⟩ | ⟨mount, mount', hmount, hmount', hbench⟩
  · simp only [operations, hmount, hmount']
  · simp only [operations, hmount, hmount', ht.control, hbench]

/-- **Twins make the same operations.** -/
theorem Twin.operated_eq (ht : Twin σ τ h k) (n : ℕ) : σ.operated h n = τ.operated k n := by
  induction n with
  | zero => rfl
  | succ n ih => rw [operated, operated, ih, (ht.ticked n).operations_eq]

/-- The operations of a tick that does not fail lead to the tapes that it leaves. -/
theorem tapes_tick_of_operations {goes : Bool} (hresult : (σ.tick h).result = .ok goes)
    {t : Tapes} (ht : (σ.machines.get h).mount.map σ.tapes = some t) :
    ((σ.tick h).store.machines.get h).mount.map (σ.tick h).store.tapes =
      some (t.after (σ.operations h)) := by
  obtain ⟨mount, hmount, rfl⟩ := Option.map_eq_some_iff.mp ht
  cases hlive : Device.halted (σ.machines.get h).control with
  | true =>
    rw [tick_of_final hmount hlive, operations_of_final hlive]
    exact ht
  | false =>
    obtain ⟨hfault, -, hstore⟩ := success_of_tick hmount hlive hresult
    rw [hstore, mount_commit, operations_of_live hmount hlive,
      Control.toTapes_step_of_operations hlive (.inr hfault)]
    rfl

/-- So do those of a number of ticks of which none has failed. -/
theorem tapes_ticked_of_operated {t : Tapes}
    (ht : (σ.machines.get h).mount.map σ.tapes = some t) {n : ℕ}
    (hresult : ∀ i < n, ∃ goes, ((σ.ticked h i).tick h).result = .ok goes) :
    ((σ.ticked h n).machines.get h).mount.map (σ.ticked h n).tapes =
      some (t.after (σ.operated h n)) := by
  induction n with
  | zero => exact ht
  | succ n ih =>
    obtain ⟨goes, hgoes⟩ := hresult n (Nat.lt_succ_self n)
    have hbefore := ih fun i hi => hresult i (Nat.lt_succ_of_lt hi)
    rw [ticked_succ, operated, Tapes.after_followedBy]
    exact tapes_tick_of_operations hgoes hbefore

/-- A tick counts its operations on the counters of the reels. -/
theorem value_tick (hs : Steady σ h mount) :
    (∃ mount', Steady (σ.tick h).store h mount' ∧ (σ.tick h).store.tally mount' = σ.tally mount) ∧
      ∀ c, ((σ.tick h).store.counters.get c).value =
        (σ.counters.get c).value + σ.tally mount (σ.operations h).cost c := by
  cases hlive : Device.halted (σ.machines.get h).control with
  | true =>
    rw [tick_of_halted hs hlive, operations_of_final hlive]
    exact ⟨⟨mount, hs, rfl⟩, fun c => by simp⟩
  | false =>
    obtain ⟨⟨mount', hworked⟩, -⟩ := exists_worked_tick hs hlive
    refine ⟨⟨mount', hworked.steady hs, tally_of_effect hworked.effect⟩, fun c => ?_⟩
    rw [hworked.effect.counters, Control.cost_step hlive, operations_of_live hs.mounted hlive]

/-- **What the counters tally of a number of ticks.** The reels may be exchanged for new ones time
and again, but never does an operation go uncounted. -/
theorem value_ticked (hs : Steady σ h mount) (n : ℕ) (c : Handle Counter) :
    ((σ.ticked h n).counters.get c).value =
      (σ.counters.get c).value + σ.tally mount (σ.operated h n).cost c := by
  -- the reels that the machine has after some ticks count as those that it started with
  suffices hnow : (∃ mount', Steady (σ.ticked h n) h mount' ∧
      (σ.ticked h n).tally mount' = σ.tally mount) ∧
      ((σ.ticked h n).counters.get c).value =
        (σ.counters.get c).value + σ.tally mount (σ.operated h n).cost c from hnow.2
  induction n with
  | zero => exact ⟨⟨mount, hs, rfl⟩, by simp [operated, ticked]⟩
  | succ n ih =>
    -- by induction on the ticks, whose costs add up
    obtain ⟨⟨mount', hs', htally⟩, hvalue⟩ := ih
    obtain ⟨⟨mount'', hs'', htally'⟩, hvalue'⟩ := value_tick hs'
    rw [ticked_succ]
    refine ⟨⟨mount'', hs'', htally'.trans htally⟩, ?_⟩
    rw [hvalue', hvalue, htally, operated, Operations.cost_followedBy, tally_add]
    push_cast
    omega

end Operations

end SubseqMachines.Store
