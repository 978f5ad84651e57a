import SubseqMachines.Proofs.Trial.Failure

/-!
# The life of a machine

A machine is made, run once, and destroyed when its reels are wanted back. It can also be ticked by
hand, and it can be asked for all of this in any order, while others work on its reels, its coin and
its counters. What it then does is told by three things: whether it still has its reels, whether it
has ticked, and whether its state is final. Once the reels are gone they stay gone, a machine that
has ticked has ticked for ever, and a final state is never left.

* `Store.result_tick_ne_misuse`: a machine that has its reels is not misused by ticking it.
* `Store.InUse`: a machine is used time and again, and others leave it alone.
* `Store.InUse.invariant`: what every tick and the loss of the reels keep, a machine keeps.
* `Store.Spent`: a machine that can no longer be run, and `Store.spent_of_use`: so is each one that
  has been used.
* `Store.single_use`: a machine is run at most once and destroyed at most once.
-/

namespace SubseqMachines

/-- No step fails because a machine is misused. -/
theorem Control.fault_step_ne_misuse (c : Control) (b : Bench) (why : Misuse) :
    (Device.step c b).fault ≠ some (.misuse why) := by
  intro hf
  cases c with
  | trial s =>
    rw [Control.step_trial] at hf
    have hcause : Trial.Cause s b (.misuse why) := Trial.cause_of_fault hf
    cases hcause
  | matcher s =>
    obtain ⟨r, hr⟩ := Control.exists_breakdown_of_step (c := .matcher s) nofun hf
    cases hr
  | sampler s =>
    obtain ⟨r, hr⟩ := Control.exists_breakdown_of_step (c := .sampler s) nofun hf
    cases hr

namespace Store

open Trial (Use)

variable {σ : Store} {h : Handle Machine}

/-! ## Machines that have their reels -/

theorem result_tick_ne_misuse {mount : Mount} (hmount : (σ.machines.get h).mount = some mount)
    (why : Misuse) : (σ.tick h).result ≠ .error (.misuse why) := by
  intro hresult
  obtain ⟨-, hfault, -⟩ := fault_of_tick hmount hresult
  exact Control.fault_step_ne_misuse _ _ why hfault

/-- A tick does not take the reels from a machine. -/
theorem isSome_mount_tick (hmount : (σ.machines.get h).mount.isSome = true) :
    ((σ.tick h).store.machines.get h).mount.isSome = true := by
  rcases σ.store_tick h with hstill | ⟨mount, -, -, hstep⟩
  · rw [hstill]
    exact hmount
  · rw [hstep, machine_commit]
    rfl

/-- Nor does a number of ticks. -/
theorem isSome_mount_ticked (hmount : (σ.machines.get h).mount.isSome = true) (n : Nat) :
    ((σ.ticked h n).machines.get h).mount.isSome = true :=
  ticked_invariant (P := fun τ => (τ.machines.get h).mount.isSome = true)
    (fun _ => isSome_mount_tick) hmount n

/-- It is no misuse to run it either, whatever its state. -/
theorem result_runOn_ne_misuse (hmount : (σ.machines.get h).mount.isSome = true)
    (past : List Event) (why : Misuse) : (σ.runOn h past).result ≠ .error (.misuse why) := by
  intro hresult
  obtain ⟨n, -, -, -, -, hlast⟩ := exists_ticked_runOn σ h past
  obtain ⟨mount, hheld⟩ := Option.isSome_iff_exists.mp (isSome_mount_ticked hmount n)
  rw [hlast] at hresult
  -- the run fails as its last tick does
  cases htick : ((σ.ticked h n).tick h).result with
  | error f =>
    rw [htick] at hresult
    obtain rfl := Except.error.inj hresult
    exact result_tick_ne_misuse hheld why htick
  | ok goes =>
    rw [htick] at hresult
    cases hresult

/-! ## The guards of a run and of a destruction -/

theorem run_of_destroyed (hmount : (σ.machines.get h).mount = none) :
    σ.run h =
      { store := σ
        result := .error (.misuse (.destroyed (σ.machines.get h).control.kind)) } := by
  rw [run, if_pos (by rw [hmount]; rfl)]

theorem run_of_ticked (hmount : (σ.machines.get h).mount.isSome = true)
    (hticks : (σ.machines.get h).ticks ≠ 0) :
    σ.run h =
      { store := σ, result := .error (.misuse (.rerun (σ.machines.get h).control.kind)) } := by
  rw [run, if_neg (by simp [Option.isNone_iff_eq_none, Option.isSome_iff_ne_none.mp hmount]),
    if_pos hticks]

theorem run_of_fresh (hmount : (σ.machines.get h).mount.isSome = true)
    (hticks : (σ.machines.get h).ticks = 0) : σ.run h = σ.runOn h [] := by
  rw [run, if_neg (by simp [Option.isNone_iff_eq_none, Option.isSome_iff_ne_none.mp hmount]),
    if_neg (by rw [hticks]; exact fun hne => hne rfl)]

theorem destroy_of_destroyed (hmount : (σ.machines.get h).mount = none) :
    σ.destroy h =
      { store := σ
        result := .error (.misuse (.destroyed (σ.machines.get h).control.kind)) } := by
  simp only [destroy, hmount]

/-! ## A machine that is used time and again -/

/-- The stores before each of the uses of a machine. Between two uses others may work on everything
but the machine itself, so also on its reels. -/
def InUse (h : Handle Machine) (use : ℕ → Use) (now : ℕ → Store) : Prop :=
  ∀ n, (now (n + 1)).machines.get h = ((use n).after (now n) h).machines.get h

/-- What every tick keeps and, if it is a destruction, the loss of the reels, a use keeps. -/
theorem use_invariant {P : Machine → Prop} {u : Use}
    (htick : ∀ τ : Store, P (τ.machines.get h) → P ((τ.tick h).store.machines.get h))
    (hdestroy : u = .destroy → ∀ m, P m → P { m with mount := none })
    (hP : P (σ.machines.get h)) : P ((u.after σ h).machines.get h) := by
  cases u with
  | tick => exact htick σ hP
  | run => exact run_invariant (P := fun τ => P (τ.machines.get h)) htick hP
  | destroy =>
    show P ((σ.destroy h).store.machines.get h)
    cases hmount : (σ.machines.get h).mount with
    | none =>
      rw [destroy_of_destroyed hmount]
      exact hP
    | some mount =>
      rw [destroy_of_mounted hmount, setMachine, Table.get_set_self]
      exact hdestroy rfl _ hP

section InUse

variable {use : ℕ → Use} {now : ℕ → Store}

/-- **What every tick and the loss of the reels keep, a machine keeps** from some moment on. -/
theorem InUse.invariant {P : Machine → Prop} (hu : InUse h use now)
    (htick : ∀ τ : Store, P (τ.machines.get h) → P ((τ.tick h).store.machines.get h)) {k n : ℕ}
    (hkn : k ≤ n)
    (hdestroy : ∀ i, k ≤ i → i < n → use i = .destroy → ∀ m, P m → P { m with mount := none })
    (hP : P ((now k).machines.get h)) : P ((now n).machines.get h) := by
  induction n, hkn using Nat.le_induction with
  | base => exact hP
  | succ n hkn ih =>
    rw [hu n]
    refine use_invariant htick (hdestroy n hkn (Nat.lt_succ_self n)) ?_
    exact ih fun i hki hin => hdestroy i hki (Nat.lt_succ_of_lt hin)

theorem InUse.kind (hu : InUse h use now) (n : ℕ) :
    ((now n).machines.get h).control.kind = ((now 0).machines.get h).control.kind :=
  hu.invariant (P := fun m => m.control.kind = ((now 0).machines.get h).control.kind)
    (fun τ hkind => (τ.kind_tick h).trans hkind) (Nat.zero_le n) (fun _ _ _ _ _ hkind => hkind) rfl

/-- The reels of a machine that nobody has destroyed are still there. -/
theorem InUse.isSome_mount (hu : InUse h use now)
    (hstart : ((now 0).machines.get h).mount.isSome = true) {n : ℕ}
    (hkept : ∀ k < n, use k ≠ .destroy) : ((now n).machines.get h).mount.isSome = true :=
  hu.invariant (P := fun m => m.mount.isSome = true) (fun _ => isSome_mount_tick) (Nat.zero_le n)
    (fun i _ hi hdestroy => absurd hdestroy (hkept i hi)) hstart

/-- The reels of a machine that has been destroyed are gone. -/
theorem InUse.mount_eq_none (hu : InUse h use now) {k n : ℕ} (hkn : k < n)
    (hdestroy : use k = .destroy) : ((now n).machines.get h).mount = none := by
  refine hu.invariant (P := fun m => m.mount = none) ?_ (Nat.succ_le_of_lt hkn)
    (fun _ _ _ _ _ _ => rfl) ?_
  · intro τ hmount
    rw [tick_of_destroyed hmount]
    exact hmount
  · rw [hu k, hdestroy]
    show (((now k).destroy h).store.machines.get h).mount = none
    cases hmount : ((now k).machines.get h).mount with
    | none =>
      rw [destroy_of_destroyed hmount]
      exact hmount
    | some mount => rw [destroy_of_mounted hmount, setMachine, Table.get_set_self]

/-- A final state is never left. -/
theorem InUse.control_eq_of_halted (hu : InUse h use now) {k n : ℕ} (hkn : k ≤ n)
    (hhalted : Device.halted ((now k).machines.get h).control = true) :
    ((now n).machines.get h).control = ((now k).machines.get h).control := by
  refine hu.invariant (P := fun m => m.control = ((now k).machines.get h).control) ?_ hkn
    (fun _ _ _ _ _ hcontrol => hcontrol) rfl
  intro τ hcontrol
  rw [← hcontrol] at hhalted
  rcases τ.store_tick h with hstill | ⟨mount, -, hlive, -⟩
  · rw [hstill]
    exact hcontrol
  · rw [hhalted] at hlive
    cases hlive

/-! ### Machines that can no longer be run -/

/-- A machine that has given up its reels or has ticked. -/
def Spent (m : Machine) : Prop :=
  m.mount = none ∨ m.ticks ≠ 0

theorem spent_tick {σ : Store} (hspent : Spent (σ.machines.get h)) :
    Spent ((σ.tick h).store.machines.get h) := by
  rcases σ.store_tick h with hstill | ⟨mount, -, -, hstep⟩
  · rw [hstill]
    exact hspent
  · rw [hstep, machine_commit]
    exact .inr (Nat.succ_ne_zero _)

/-- The first tick of a machine is counted, also if it fails. -/
theorem spent_tick_of_live {σ : Store}
    (hlive : Device.halted (σ.machines.get h).control = false) :
    Spent ((σ.tick h).store.machines.get h) := by
  cases hmount : (σ.machines.get h).mount with
  | none =>
    rw [tick_of_destroyed hmount]
    exact .inl hmount
  | some mount =>
    rw [tick_of_live hmount hlive]
    show Spent ((σ.commit h mount _).machines.get h)
    rw [machine_commit]
    exact .inr (Nat.succ_ne_zero _)

/-- **A machine can be used only once.** -/
theorem spent_of_use {σ : Store} (hlive : Device.halted (σ.machines.get h).control = false)
    (u : Use) : Spent ((u.after σ h).machines.get h) := by
  cases u with
  | tick => exact spent_tick_of_live hlive
  | destroy =>
    show Spent ((σ.destroy h).store.machines.get h)
    cases hmount : (σ.machines.get h).mount with
    | none =>
      rw [destroy_of_destroyed hmount]
      exact .inl hmount
    | some mount =>
      rw [destroy_of_mounted hmount, setMachine, Table.get_set_self]
      exact .inl rfl
  | run =>
    show Spent ((σ.run h).store.machines.get h)
    by_cases hspent : Spent (σ.machines.get h)
    · exact run_invariant (P := fun τ => Spent (τ.machines.get h)) (fun _ => spent_tick) hspent
    · -- a run that is not refused has a first tick
      rw [Spent, not_or, not_not] at hspent
      obtain ⟨n, -, -, -, hstore, -⟩ := exists_ticked_runOn σ h []
      rw [run_of_fresh (Option.isSome_iff_ne_none.mpr hspent.1) hspent.2, hstore, ← ticked_succ,
        ticked, Function.iterate_succ_apply]
      exact ticked_invariant (P := fun τ => Spent (τ.machines.get h)) (fun _ => spent_tick)
        (spent_tick_of_live hlive) n

end InUse

/-! ## One run and one destruction -/

/-- **A machine is good for one run, and for one destruction.** It has been made, and is then used
in any way, while others leave nothing but the machine itself alone. A run gets past its guard if it
is the first use of the machine, and any other run is a misuse and changes nothing. The first
destruction gives back the reels that the machine has then, in whatever state it is. After it every
tick, run and destruction is a misuse, and changes and reports nothing. A final state is never left,
and a tick in it answers false, and changes and reports nothing. Any other tick that does not fail
answers whether the new state is not final. -/
theorem single_use {made : Store} {kind : MachineKind} {main aux : Handle Reel}
    {counter : Option (Handle Counter)} {coin : Option (Handle Coin)}
    (hmade : σ.make kind main aux counter coin = .ok made) {use : ℕ → Use} {now : ℕ → Store}
    (hstart : (now 0).machines.get σ.machines.next = made.machines.get σ.machines.next)
    (hused : InUse σ.machines.next use now) :
    let h := σ.machines.next
    let m (n : ℕ) := (now n).machines.get h
    (∀ n, use n = .run →
      (n = 0 → (now n).run h = (now n).runOn h [] ∧
        ∀ why, ((now n).run h).result ≠ .error (.misuse why)) ∧
      (n ≠ 0 → ∃ why,
        (now n).run h = { store := now n, trace := [], result := .error (.misuse why) })) ∧
    (∀ n, use n = .destroy → (∀ k < n, use k ≠ .destroy) →
      ∃ mount, (m n).mount = some mount ∧ (now n).destroy h =
        { store := (now n).setMachine h { m n with mount := none }
          trace := [], result := .ok mount }) ∧
    (∀ k n, k < n → use k = .destroy →
      let gone := Fault.misuse (.destroyed kind)
      (now n).tick h = { store := now n, trace := [], result := .error gone } ∧
        (now n).run h = { store := now n, trace := [], result := .error gone } ∧
        (now n).destroy h = { store := now n, trace := [], result := .error gone }) ∧
    (∀ n, Device.halted (m n).control = true →
      (∀ k, n ≤ k → (m k).control = (m n).control) ∧
        ((∀ k < n, use k ≠ .destroy) →
          (now n).tick h = { store := now n, trace := [], result := .ok false })) ∧
    ∀ n goes, Device.halted (m n).control = false → ((now n).tick h).result = .ok goes →
      (goes = true ↔
        Device.halted (((now n).tick h).store.machines.get h).control = false) := by
  intro h m
  obtain ⟨mount, -, -, hm⟩ := exists_made hmade
  have hfirst : m 0 = _ := hstart.trans hm.machine
  have hmount : (m 0).mount.isSome = true := by rw [hfirst]; rfl
  have hlive : Device.halted (m 0).control = false := by
    rw [hfirst]
    exact Control.halted_start kind
  have hkind : ∀ n, (m n).control.kind = kind := by
    intro n
    rw [show (m n).control.kind = (m 0).control.kind from hused.kind n, hfirst]
    exact Control.kind_start kind
  refine ⟨?_, ?_, ?_, ?_, ?_⟩
  · intro n hrun
    constructor
    · rintro rfl
      have hguard : (now 0).run h = (now 0).runOn h [] :=
        run_of_fresh hmount (by show (m 0).ticks = 0; rw [hfirst])
      refine ⟨hguard, fun why => ?_⟩
      rw [hguard]
      exact result_runOn_ne_misuse hmount [] why
    · -- the first use of the machine was another one
      intro hn
      have hspent : Spent (m n) := by
        refine hused.invariant (fun _ => spent_tick) (Nat.one_le_iff_ne_zero.mpr hn)
          (fun _ _ _ _ _ _ => .inl rfl) ?_
        rw [hused 0]
        exact spent_of_use hlive (use 0)
      cases hheld : (m n).mount with
      | none => exact ⟨_, run_of_destroyed hheld⟩
      | some held =>
        have hticks := hspent.resolve_left (by rw [hheld]; exact nofun)
        exact ⟨_, run_of_ticked (by rw [show _ = some held from hheld]; rfl) hticks⟩
  · intro n hdestroy hbefore
    obtain ⟨held, hheld⟩ := Option.isSome_iff_exists.mp (hused.isSome_mount hmount hbefore)
    exact ⟨held, hheld, destroy_of_mounted hheld⟩
  · intro k n hkn hdestroy gone
    have hgone := hused.mount_eq_none hkn hdestroy
    have hcause : Fault.misuse (.destroyed (m n).control.kind) = gone := by rw [hkind n]
    rw [tick_of_destroyed hgone, run_of_destroyed hgone, destroy_of_destroyed hgone, hcause]
    exact ⟨rfl, rfl, rfl⟩
  · intro n hhalted
    refine ⟨fun k hnk => hused.control_eq_of_halted hnk hhalted, fun hbefore => ?_⟩
    obtain ⟨held, hheld⟩ := Option.isSome_iff_exists.mp (hused.isSome_mount hmount hbefore)
    exact tick_of_final hheld hhalted
  · intro n goes _ hresult
    rw [halted_of_tick hresult]
    cases goes <;> simp

/-- A matcher on the block `ab` and the word `b`, which is run twice, destroyed and then ticked. -/
theorem single_use_ab_b :
    let σ := (({} : Store).addReel ⟨[], .hash, [.main .a, .main .b]⟩ none).addReel
      ⟨[], .blank, [.aux .b]⟩ none
    let use : ℕ → Use
      | 0 | 1 => .run
      | 2 => .destroy
      | _ => .tick
    ∃ made, σ.make .matcher ⟨0⟩ ⟨1⟩ none none = .ok made ∧
      let now (n : ℕ) : Store := Nat.rec made (fun n τ => (use n).after τ ⟨0⟩) n
      (now 0).machines.get ⟨0⟩ = made.machines.get ⟨0⟩ ∧ InUse ⟨0⟩ use now ∧
        (∀ why, ((now 0).run ⟨0⟩).result ≠ .error (.misuse why)) ∧
        (∃ why, (now 1).run ⟨0⟩ =
          { store := now 1, trace := [], result := .error (.misuse why) }) ∧
        (∃ mount, ((now 2).destroy ⟨0⟩).result = .ok mount) ∧
        ((now 3).tick ⟨0⟩).result = .error (.misuse (.destroyed .matcher)) := by
  intro σ use
  obtain ⟨made, hmade⟩ : ∃ made, σ.make .matcher ⟨0⟩ ⟨1⟩ none none = .ok made :=
    make_eq_ok (by decide) none none
  refine ⟨made, hmade, ?_⟩
  intro now
  have hstart : (now 0).machines.get ⟨0⟩ = made.machines.get ⟨0⟩ := rfl
  have hused : InUse ⟨0⟩ use now := fun _ => rfl
  obtain ⟨hrun, hdestroy, hgone, -, -⟩ := single_use hmade hstart hused
  obtain ⟨mount, -, hmount⟩ := hdestroy 2 rfl (by decide)
  refine ⟨hstart, hused, ((hrun 0 rfl).1 rfl).2, (hrun 1 rfl).2 (by decide), ⟨mount, ?_⟩, ?_⟩
  · exact congrArg Reply.result hmount
  · exact congrArg Reply.result (hgone 2 3 (by decide) rfl).1

end Store

end SubseqMachines
