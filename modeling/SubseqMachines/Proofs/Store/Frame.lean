import SubseqMachines.Proofs.Store.Effect

/-!
# What a tick reads and touches

A tick changes the store in a few places only, whatever state the store is in, also in one to which
no machine leads without others. This module goes through the tables of the store. What the tick
does there depends on as few places.

* `Table.Alike`: tables that cannot be told apart by looking entries up.
* `Store.tick_of_destroyed`, `Store.tick_of_final`, `Store.tick_of_live`: the three cases of a tick.
* `Store.fault_of_tick`, `Store.success_of_tick`, `Store.halted_of_tick`: what its answer tells.
* `Store.putTapes_of_own`, `Store.putTapes_of_failed`, `Store.putTapes_of_adopted`: the three places
  where the tapes of a step can go.
* `Store.machine_commit`, `Store.reels_commit`, `Store.get_coins_commit`,
  `Store.value_counters_commit`: the tables after a step.
* `Store.reels_commit_cases`: the reels that a machine has after a step, and what is on them.
* `Store.SameTask.tick`: where a machine is about to do the same, its ticks go the same way.
* `Store.get_reels_setTape`: putting a tape on one reel changes no other.
-/

namespace SubseqMachines

/-! ## Tables that are alike -/

/-- Tables that have given out the same handles and find the same entries under them. -/
structure Table.Alike {α : Type} [Inhabited α] (t u : Table α) : Prop where
  size : t.size = u.size
  get : ∀ k, t.get k = u.get k

namespace Table.Alike

variable {α : Type} [Inhabited α] {t u v : Table α}

theorem of_eq (h : t = u) : t.Alike u :=
  ⟨congrArg Table.size h, fun k => congrArg (Table.get · k) h⟩

theorem symm (h : t.Alike u) : u.Alike t :=
  ⟨h.size.symm, fun k => (h.get k).symm⟩

theorem trans (h : t.Alike u) (h' : u.Alike v) : t.Alike v :=
  ⟨h.size.trans h'.size, fun k => (h.get k).trans (h'.get k)⟩

theorem next (h : t.Alike u) : t.next = u.next :=
  congrArg Handle.mk h.size

theorem set (h : t.Alike u) (k : Handle α) (a : α) : (t.set k a).Alike (u.set k a) where
  size := h.size
  get j := by rw [get_set, get_set, h.get]

theorem add (h : t.Alike u) (a : α) : (t.add a).Alike (u.add a) where
  size := congrArg (· + 1) h.size
  get j := by rw [get_add, get_add, h.get, h.next]

end Table.Alike

namespace Store

/-! ## The cases of a tick -/

section Tick

variable {σ : Store} {h : Handle Machine} {mount : Mount}

theorem tick_of_destroyed (hmount : (σ.machines.get h).mount = none) :
    σ.tick h =
      { store := σ
        result := .error (.misuse (.destroyed (σ.machines.get h).control.kind)) } := by
  simp only [tick, hmount]

theorem tick_of_final (hmount : (σ.machines.get h).mount = some mount)
    (hfinal : Device.halted (σ.machines.get h).control = true) :
    σ.tick h = { store := σ, result := .ok false } := by
  simp only [tick, hmount]
  exact if_pos hfinal

theorem tick_of_live (hmount : (σ.machines.get h).mount = some mount)
    (hlive : Device.halted (σ.machines.get h).control = false) :
    let o := Device.step (σ.machines.get h).control (σ.bench (σ.machines.get h) mount)
    σ.tick h =
      { store := σ.commit h mount o, trace := o.trace
        result := o.fault.elim (.ok !Device.halted o.state) .error } := by
  simp only [tick, hmount, hlive, Bool.false_eq_true, if_false]

/-- A tick that fails is a step that fails. -/
theorem fault_of_tick (hmount : (σ.machines.get h).mount = some mount) {f : Fault}
    (hresult : (σ.tick h).result = .error f) :
    let o := Device.step (σ.machines.get h).control (σ.bench (σ.machines.get h) mount)
    Device.halted (σ.machines.get h).control = false ∧ o.fault = some f ∧
      (σ.tick h).store = σ.commit h mount o := by
  intro o
  cases hlive : Device.halted (σ.machines.get h).control with
  | true =>
    -- in a final state a tick does nothing
    rw [tick_of_final hmount hlive] at hresult
    cases hresult
  | false =>
    rw [tick_of_live hmount hlive] at hresult ⊢
    change o.fault.elim (Except.ok !Device.halted o.state) Except.error = .error f at hresult
    refine ⟨rfl, ?_, rfl⟩
    cases hfault : o.fault with
    | none =>
      rw [hfault, Option.elim_none] at hresult
      cases hresult
    | some g =>
      rw [hfault, Option.elim_some] at hresult
      rw [Except.error.inj hresult]

/-- A tick that succeeds in a state that is not final is a step that does. -/
theorem success_of_tick (hmount : (σ.machines.get h).mount = some mount)
    (hlive : Device.halted (σ.machines.get h).control = false) {goes : Bool}
    (hresult : (σ.tick h).result = .ok goes) :
    let o := Device.step (σ.machines.get h).control (σ.bench (σ.machines.get h) mount)
    o.fault = none ∧ goes = !Device.halted o.state ∧ (σ.tick h).store = σ.commit h mount o := by
  intro o
  rw [tick_of_live hmount hlive] at hresult ⊢
  change o.fault.elim (Except.ok !Device.halted o.state) Except.error = .ok goes at hresult
  cases hfault : o.fault with
  | none =>
    rw [hfault, Option.elim_none] at hresult
    exact ⟨rfl, (Except.ok.inj hresult).symm, rfl⟩
  | some f =>
    rw [hfault, Option.elim_some] at hresult
    cases hresult

end Tick

/-! ## Small changes -/

theorem tapes_of_alike {σ τ : Store} (h : σ.reels.Alike τ.reels) (mount : Mount) :
    σ.tapes mount = τ.tapes mount := by
  rw [tapes, tapes, tape, tape, h.get, h.get]
  rfl

theorem counterOf_of_alike {σ τ : Store} (h : σ.reels.Alike τ.reels) (r : Handle Reel) :
    σ.counterOf r = τ.counterOf r := by
  rw [counterOf, h.get]
  rfl

section Parts

variable (σ : Store) (m : Machine) (mount : Mount)

@[simp] theorem machines_count (c : Option (Handle Counter)) (n : Nat) :
    (σ.count c n).machines = σ.machines := by
  cases c <;> rfl

theorem counters_putCoin (c : Coin) : (σ.putCoin m c).counters = σ.counters := by
  rw [putCoin]
  cases m.coin <;> rfl

theorem reels_putCoin (c : Coin) : (σ.putCoin m c).reels = σ.reels := by
  rw [putCoin]
  cases m.coin <;> rfl

theorem machines_putCoin (c : Coin) : (σ.putCoin m c).machines = σ.machines := by
  rw [putCoin]
  cases m.coin <;> rfl

theorem get_coins_putCoin (c : Coin) (k : Handle Coin) :
    (σ.putCoin m c).coins.get k = if m.coin = some k then c else σ.coins.get k := by
  rw [putCoin]
  cases m.coin with
  | none => simp
  | some h =>
    show (σ.coins.set h c).get k = _
    rw [Table.get_set]
    simp only [Option.some.injEq, eq_comm]

theorem size_coins_putCoin (c : Coin) : (σ.putCoin m c).coins.size = σ.coins.size := by
  rw [putCoin]
  cases m.coin <;> rfl

theorem reels_charge (cost : Cost) : (σ.charge m mount cost).reels = σ.reels := by
  rw [charge, reels_count, reels_count]

theorem get_reels_setTape (r k : Handle Reel) (t : Tape) :
    (σ.setTape r t).reels.get k =
      { σ.reels.get k with tape := if k = r then t else σ.tape k } := by
  rw [setTape, Table.get_set]
  by_cases hk : k = r
  · rw [if_pos hk, if_pos hk, hk]
  · rw [if_neg hk, if_neg hk]
    rfl

/-! ## Where the tapes of a step go -/

variable {σ m mount} {o : Outcome Control}

/-- A machine that does the step itself leaves the tapes on its own reels. -/
theorem putTapes_of_own (hown : m.control.delegates = false) :
    σ.putTapes m mount o =
      ((σ.setTape mount.main o.bench.main).setTape mount.aux o.bench.aux, mount) := by
  simp [putTapes, hown]

/-- The clones of a child that fails are given up. -/
theorem putTapes_of_failed (hchild : m.control.delegates = true) (hgave : o.gaveUp = true) :
    σ.putTapes m mount o = (σ, mount) := by
  simp [putTapes, hchild, hgave]

/-- The clones of a child that succeeds are new reels, which the machine has from now on. -/
theorem putTapes_of_adopted (hchild : m.control.delegates = true) (hgave : o.gaveUp = false) :
    σ.putTapes m mount o = σ.remount m mount o.bench.toTapes := by
  simp [putTapes, hchild, hgave]

variable (σ m mount o)

/-- The tapes go onto reels, and nothing else in the store is changed by that. -/
theorem others_putTapes :
    let σ' := (σ.putTapes m mount o).1
    σ'.machines = σ.machines ∧ σ'.coins = σ.coins ∧ σ'.counters = σ.counters := by
  rw [putTapes]
  split
  · split <;> exact ⟨rfl, rfl, rfl⟩
  · exact ⟨rfl, rfl, rfl⟩

/-- Where the tapes go depends on the reels, and on the state and the counter of the machine. -/
theorem putTapes_congr {σ τ : Store} {m n : Machine} (hreels : σ.reels.Alike τ.reels)
    (hcontrol : m.control = n.control) (hcounter : m.counter = n.counter) :
    (σ.putTapes m mount o).1.reels.Alike (τ.putTapes n mount o).1.reels ∧
      (σ.putTapes m mount o).2 = (τ.putTapes n mount o).2 := by
  have hpayer : σ.payer m = τ.payer n := by
    funext r
    rw [payer, payer, counterOf_of_alike hreels, hcontrol, hcounter]
  unfold putTapes
  rw [hcontrol]
  split
  · split
    · exact ⟨hreels, rfl⟩
    · refine ⟨?_, ?_⟩
      · show Table.Alike ((σ.reels.add ⟨_, σ.payer m mount.main⟩).add ⟨_, σ.payer m mount.aux⟩)
          ((τ.reels.add ⟨_, τ.payer n mount.main⟩).add ⟨_, τ.payer n mount.aux⟩)
        rw [hpayer]
        exact (hreels.add _).add _
      · simp only [remount, addReel, Mount.mk.injEq]
        exact ⟨hreels.next, (hreels.add _).next⟩
  · refine ⟨?_, rfl⟩
    have hmain := hreels.get mount.main
    have haux := hreels.get mount.aux
    unfold setTape
    rw [hmain]
    have hset := hreels.set mount.main { τ.reels.get mount.main with tape := o.bench.main }
    rw [hset.get]
    exact hset.set _ _

end Parts

/-! ## The tables after a step -/

section Commit

variable (σ : Store) (h : Handle Machine) (mount : Mount) (o : Outcome Control)

/-- What a step has done to the store before its tapes go onto reels. -/
theorem reels_putCoin_charge (m : Machine) :
    ((σ.charge m mount o.cost).putCoin m o.bench.coin).reels = σ.reels := by
  rw [reels_putCoin, reels_charge]

theorem machine_commit :
    let m := σ.machines.get h
    (σ.commit h mount o).machines.get h =
      { m with
        control := o.state, ticks := m.ticks + 1, mount := some (σ.putTapes m mount o).2 } := by
  intro m
  have hreels := Table.Alike.of_eq (reels_putCoin_charge σ mount o m)
  obtain ⟨-, hmount⟩ := putTapes_congr mount o hreels rfl rfl
  rw [← hmount]
  exact Table.get_set_self _ _ _

theorem get_machines_commit {k : Handle Machine} (hk : k ≠ h) :
    (σ.commit h mount o).machines.get k = σ.machines.get k := by
  let m := σ.machines.get h
  let charged := (σ.charge m mount o.cost).putCoin m o.bench.coin
  show ((charged.putTapes m mount o).1.machines.set h _).get k = _
  rw [Table.get_set_of_ne _ _ hk, (others_putTapes charged m mount o).1, machines_putCoin, charge,
    machines_count, machines_count]

/-- What a tick leaves of the store is what a step leaves of it, or all of it. -/
theorem store_tick (σ : Store) (h : Handle Machine) :
    (σ.tick h).store = σ ∨
      ∃ mount, (σ.machines.get h).mount = some mount ∧
        Device.halted (σ.machines.get h).control = false ∧
        (σ.tick h).store = σ.commit h mount
          (Device.step (σ.machines.get h).control (σ.bench (σ.machines.get h) mount)) := by
  cases hmount : (σ.machines.get h).mount with
  | none => exact .inl (by rw [tick_of_destroyed hmount])
  | some mount =>
    cases hlive : Device.halted (σ.machines.get h).control with
    | true => exact .inl (by rw [tick_of_final hmount hlive])
    | false => exact .inr ⟨mount, rfl, rfl, by rw [tick_of_live hmount hlive]⟩

/-- A tick keeps the kind of the machine. -/
theorem kind_tick (σ : Store) (h : Handle Machine) :
    ((σ.tick h).store.machines.get h).control.kind = (σ.machines.get h).control.kind := by
  rcases σ.store_tick h with hstill | ⟨mount, -, -, hstep⟩
  · rw [hstill]
  · rw [hstep, machine_commit]
    exact Control.kind_step _ _

/-- A tick that succeeds tells whether the machine goes on. -/
theorem halted_of_tick {σ : Store} {h : Handle Machine} {goes : Bool}
    (hresult : (σ.tick h).result = .ok goes) :
    Device.halted ((σ.tick h).store.machines.get h).control = !goes := by
  cases hmount : (σ.machines.get h).mount with
  | none =>
    rw [tick_of_destroyed hmount] at hresult
    cases hresult
  | some mount =>
    cases hlive : Device.halted (σ.machines.get h).control with
    | true =>
      rw [tick_of_final hmount hlive] at hresult ⊢
      obtain rfl := Except.ok.inj hresult
      exact hlive
    | false =>
      obtain ⟨-, rfl, hstore⟩ := success_of_tick hmount hlive hresult
      rw [hstore, machine_commit]
      exact (Bool.not_not _).symm

theorem reels_commit :
    (σ.commit h mount o).reels.Alike (σ.putTapes (σ.machines.get h) mount o).1.reels :=
  (putTapes_congr mount o (.of_eq (reels_putCoin_charge σ mount o _)) rfl rfl).1

/-- **Where a step leaves the tapes.** The machine keeps its reels, and the tapes are put on them or,
if a child has failed, given up. Or a child has succeeded: then its tapes are on two new reels, which
the machine has from now on. -/
theorem reels_commit_cases :
    let now := σ.commit h mount o
    (now.machines.get h).mount = some mount ∧
        (now.reels.Alike σ.reels ∨ (σ.machines.get h).control.delegates = false ∧
          now.reels.Alike
            ((σ.setTape mount.main o.bench.main).setTape mount.aux o.bench.aux).reels) ∨
      o.gaveUp = false ∧ ∃ main aux mount', now.reels.Alike ((σ.reels.add main).add aux) ∧
        (now.machines.get h).mount = some mount' ∧
        mount'.main.index = σ.reels.size ∧ mount'.aux.index = σ.reels.size + 1 := by
  intro now
  let m := σ.machines.get h
  have hreels := reels_commit σ h mount o
  have hmount : (now.machines.get h).mount = some (σ.putTapes m mount o).2 := by
    rw [machine_commit]
  by_cases hchild : m.control.delegates = true
  · cases hgave : o.gaveUp with
    | false =>
      rw [putTapes_of_adopted hchild hgave] at hreels hmount
      exact .inr ⟨rfl, _, _, _, hreels, hmount, rfl, rfl⟩
    | true =>
      rw [putTapes_of_failed hchild hgave] at hreels hmount
      exact .inl ⟨hmount, .inl hreels⟩
  · have hown := Bool.eq_false_iff.mpr hchild
    rw [putTapes_of_own hown] at hreels hmount
    exact .inl ⟨hmount, .inr ⟨hown, hreels⟩⟩

/-- The tapes of a step that does not fail are on the reels that the machine has then. -/
theorem tapes_commit (hf : o.fault = none) :
    (σ.commit h mount o).tapes (σ.putTapes (σ.machines.get h) mount o).2 = o.bench.toTapes := by
  rw [← tapes_putTapes hf]
  exact tapes_of_alike (reels_commit σ h mount o) _

/-- Of the coins, that of the machine is the one of the bench. -/
theorem get_coins_commit (k : Handle Coin) :
    (σ.commit h mount o).coins.get k =
      if (σ.machines.get h).coin = some k then o.bench.coin else σ.coins.get k := by
  let m := σ.machines.get h
  let charged := (σ.charge m mount o.cost).putCoin m o.bench.coin
  show (charged.putTapes m mount o).1.coins.get k = _
  rw [(others_putTapes charged m mount o).2.1, get_coins_putCoin, charge, coins_count, coins_count]

theorem size_coins_commit : (σ.commit h mount o).coins.size = σ.coins.size := by
  let m := σ.machines.get h
  let charged := (σ.charge m mount o.cost).putCoin m o.bench.coin
  show (charged.putTapes m mount o).1.coins.size = _
  rw [(others_putTapes charged m mount o).2.1, size_coins_putCoin, charge, coins_count,
    coins_count]

/-- The cost is counted on the counters that pay for it. -/
theorem value_counters_commit (k : Handle Counter) :
    let m := σ.machines.get h
    ((σ.commit h mount o).counters.get k).value = (σ.counters.get k).value +
      ((if σ.payer m mount.main = some k then o.cost.main else 0) +
        if σ.payer m mount.aux = some k then o.cost.aux else 0 : Nat) := by
  intro m
  let charged := (σ.charge m mount o.cost).putCoin m o.bench.coin
  show ((charged.putTapes m mount o).1.counters.get k).value = _
  rw [(others_putTapes charged m mount o).2.2, counters_putCoin, charge, value_count, value_count]
  push_cast
  omega

end Commit

/-! ## Ticks that go the same way -/

/-- The machine `h` is about to do the same in both stores: it is in the same state, with the same
reels, coin and counter, and the reels and the coins of the stores are the same. How often it has
ticked, and what has been counted, may differ. -/
structure SameTask (σ τ : Store) (h : Handle Machine) : Prop where
  control : (σ.machines.get h).control = (τ.machines.get h).control
  mount : (σ.machines.get h).mount = (τ.machines.get h).mount
  coin : (σ.machines.get h).coin = (τ.machines.get h).coin
  counter : (σ.machines.get h).counter = (τ.machines.get h).counter
  reels : σ.reels.Alike τ.reels
  coins : σ.coins.Alike τ.coins

section SameTask

variable {σ τ : Store} {h : Handle Machine}

theorem SameTask.bench_eq (hs : SameTask σ τ h) (mount : Mount) :
    σ.bench (σ.machines.get h) mount = τ.bench (τ.machines.get h) mount := by
  have hcoins : σ.coins.get = τ.coins.get := funext hs.coins.get
  unfold bench
  rw [hs.coin, hcoins, tapes_of_alike hs.reels]

theorem SameTask.commit (hs : SameTask σ τ h) (mount : Mount) (o : Outcome Control) :
    SameTask (σ.commit h mount o) (τ.commit h mount o) h := by
  obtain ⟨hreels, hmount⟩ := putTapes_congr mount o hs.reels hs.control hs.counter
  refine ⟨?_, ?_, ?_, ?_, ?_, ?_⟩
  · rw [machine_commit, machine_commit]
  · rw [machine_commit, machine_commit]
    exact congrArg some hmount
  · rw [machine_commit, machine_commit]
    exact hs.coin
  · rw [machine_commit, machine_commit]
    exact hs.counter
  · exact (reels_commit σ h mount o).trans (hreels.trans (reels_commit τ h mount o).symm)
  · refine ⟨?_, ?_⟩
    · rw [size_coins_commit, size_coins_commit, hs.coins.size]
    · intro k
      rw [get_coins_commit, get_coins_commit, hs.coin, hs.coins.get]

/-- **A tick goes the same way** wherever the machine is about to do the same. -/
theorem SameTask.tick (hs : SameTask σ τ h) :
    (σ.tick h).result = (τ.tick h).result ∧ (σ.tick h).trace = (τ.tick h).trace ∧
      SameTask (σ.tick h).store (τ.tick h).store h := by
  cases hmount : (σ.machines.get h).mount with
  | none =>
    rw [tick_of_destroyed hmount, tick_of_destroyed (hs.mount ▸ hmount), hs.control]
    exact ⟨rfl, rfl, hs⟩
  | some mount =>
    have hmount' : (τ.machines.get h).mount = some mount := hs.mount ▸ hmount
    cases hlive : Device.halted (σ.machines.get h).control with
    | true =>
      rw [tick_of_final hmount hlive, tick_of_final hmount' (hs.control ▸ hlive)]
      exact ⟨rfl, rfl, hs⟩
    | false =>
      rw [tick_of_live hmount hlive, tick_of_live hmount' (hs.control ▸ hlive), hs.bench_eq,
        hs.control]
      exact ⟨rfl, rfl, hs.commit _ _⟩

end SameTask

end Store

end SubseqMachines
