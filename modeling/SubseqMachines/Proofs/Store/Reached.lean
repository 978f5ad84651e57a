import SubseqMachines.Proofs.Store.Fresh

/-!
# What a machine can come to

A machine ticks when it is asked to, again also after a tick that has failed, and between two ticks
others may work on the store. As long as they touch neither the machine nor its reels, the machine
goes on as its device does. Its coin and its counters may be used by others all the time.

* `Store.Untouched`: what others leave as it is.
* `Store.Reached`: the stores that a machine can come to.
* `Store.Reached.invariant`, `Store.Reached.invariant_of_map`: what each step of the device keeps
  true of the state and the tapes is true of the machine in all these stores.
* `Store.Reached.steady_of_ne_trial`: a machine that is no trial keeps the reels it was made on.
-/

namespace SubseqMachines.Store

/-- Neither the machine nor a reel that it holds is touched. Everything else in the store may be. -/
structure Untouched (σ σ' : Store) (h : Handle Machine) : Prop where
  machine : σ'.machines.get h = σ.machines.get h
  reels : ∀ mount, (σ.machines.get h).mount = some mount →
    σ'.reels.get mount.main = σ.reels.get mount.main ∧
      σ'.reels.get mount.aux = σ.reels.get mount.aux

/-- The stores to which ticks of a machine lead, whether they fail or not, if between them nothing
touches the machine or its reels. -/
inductive Reached (σ₀ : Store) (h : Handle Machine) : Store → Prop
  | start : Reached σ₀ h σ₀
  | tick {σ : Store} : Reached σ₀ h σ → Reached σ₀ h (σ.tick h).store
  | meanwhile {σ σ' : Store} : Reached σ₀ h σ → Untouched σ σ' h → Reached σ₀ h σ'

section Reached

variable {σ σ' : Store} {h : Handle Machine} {mount : Mount}

theorem Untouched.tapes_eq (hu : Untouched σ σ' h) (hs : Steady σ h mount) :
    σ'.tapes mount = σ.tapes mount := by
  obtain ⟨hmain, haux⟩ := hu.reels mount hs.mounted
  simp only [tapes, tape, hmain, haux]

theorem Untouched.steady (hu : Untouched σ σ' h) (hs : Steady σ h mount) : Steady σ' h mount where
  mounted := by rw [hu.machine, hs.mounted]
  coin := by
    rw [hu.machine]
    exact hs.coin
  counted := by
    obtain ⟨hmain, haux⟩ := hu.reels mount hs.mounted
    rw [hu.machine, Counted, counterOf, counterOf, hmain, haux]
    exact hs.counted

/-- **What each step of the device keeps is true of the machine all the time.** -/
theorem Reached.invariant {P : Control → Tapes → Prop} (hs : Steady σ h mount)
    (hstart : P (σ.machines.get h).control (σ.tapes mount))
    (hstep : ∀ (c : Control) (b : Bench), P c b.toTapes → Device.halted c = false →
      P (Device.step c b).state (Device.step c b).bench.toTapes)
    (hr : Reached σ h σ') :
    ∃ mount', Steady σ' h mount' ∧ P (σ'.machines.get h).control (σ'.tapes mount') := by
  induction hr with
  | start => exact ⟨mount, hs, hstart⟩
  | @tick now hr ih =>
    obtain ⟨mount', hs', hP⟩ := ih
    cases hlive : Device.halted (now.machines.get h).control with
    | true =>
      rw [tick_of_halted hs' hlive]
      exact ⟨mount', hs', hP⟩
    | false =>
      obtain ⟨⟨mount'', hworked⟩, -⟩ := exists_worked_tick hs' hlive
      refine ⟨mount'', hworked.steady hs', ?_⟩
      rw [hworked.machine, hworked.effect.tapes]
      exact hstep _ (now.bench (now.machines.get h) mount') hP hlive
  | meanwhile hr hu ih =>
    obtain ⟨mount', hs', hP⟩ := ih
    refine ⟨mount', hu.steady hs', ?_⟩
    rw [hu.machine, hu.tapes_eq hs']
    exact hP

/-- The same for a property of the states of one kind of machine, which are a device as well. -/
theorem Reached.invariant_of_map {τ : Type} [Device τ] {s₀ : τ} {P : τ → Tapes → Prop}
    (f : τ → Control) (hhalted : ∀ s, Device.halted (f s) = Device.halted s)
    (hmap : ∀ s b, Device.step (f s) b = (Device.step s b).map f) (hs : Steady σ h mount)
    (hcontrol : (σ.machines.get h).control = f s₀) (hstart : P s₀ (σ.tapes mount))
    (hstep : ∀ (s : τ) (b : Bench), P s b.toTapes → Device.halted s = false →
      P (Device.step s b).state (Device.step s b).bench.toTapes)
    (hr : Reached σ h σ') :
    ∃ mount' s, Steady σ' h mount' ∧ (σ'.machines.get h).control = f s ∧
      P s (σ'.tapes mount') := by
  have hseen : ∀ (c : Control) (b : Bench), (∃ s, c = f s ∧ P s b.toTapes) →
      Device.halted c = false →
        ∃ s, (Device.step c b).state = f s ∧ P s (Device.step c b).bench.toTapes := by
    rintro _ b ⟨s, rfl, hP⟩ hlive
    rw [hhalted] at hlive
    rw [hmap]
    exact ⟨(Device.step s b).state, rfl, hstep s b hP hlive⟩
  obtain ⟨mount', hsteady, s, hcontrol', hP⟩ :=
    hr.invariant (P := fun c t => ∃ s, c = f s ∧ P s t) hs ⟨s₀, hcontrol, hstart⟩ hseen
  exact ⟨mount', s, hsteady, hcontrol', hP⟩

/-- A machine that is no trial works on the same reels all the time. -/
theorem Reached.steady_of_ne_trial (hs : Steady σ h mount)
    (hkind : (σ.machines.get h).control.kind ≠ .trial) (hr : Reached σ h σ') :
    Steady σ' h mount := by
  -- it also stays of its kind, so that no tick gives it other reels
  suffices hboth : Steady σ' h mount ∧ (σ'.machines.get h).control.kind ≠ .trial from hboth.1
  induction hr with
  | start => exact ⟨hs, hkind⟩
  | @tick now hr ih =>
    obtain ⟨hs', hkind'⟩ := ih
    cases hlive : Device.halted (now.machines.get h).control with
    | true =>
      rw [tick_of_halted hs' hlive]
      exact ⟨hs', hkind'⟩
    | false =>
      obtain ⟨⟨mount', hworked⟩, -⟩ := exists_worked_tick hs' hlive
      obtain rfl := hworked.mount_eq hkind'
      refine ⟨hworked.steady hs', ?_⟩
      rw [hworked.machine]
      exact hworked.kind.symm ▸ hkind'
  | meanwhile hr hu ih =>
    obtain ⟨hs', hkind'⟩ := ih
    exact ⟨hu.steady hs', by rwa [hu.machine]⟩

end Reached

end SubseqMachines.Store
