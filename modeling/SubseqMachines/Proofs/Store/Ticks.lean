import SubseqMachines.Proofs.Trial.Reachable
import SubseqMachines.Store.Build

/-!
# Ticks of a machine that has been built

A machine that has been built keeps its reels as long as it is only ticked, and no tick fails with
anything but a breakdown. For a trial this rests on where it can be found: its children always find
tapes that they take.

* `Store.ticked`: the store after a number of ticks.
* `Store.Watchable`: a machine that keeps its reels and fails with breakdowns only.
* `Store.Made.watchable`: so is every machine that has been made.
* `Store.exists_start_of_built`: so is every machine that has been built, since it has been made on
  new reels.
-/

namespace SubseqMachines

/-! ## Faults of steps -/

theorem Outcome.exists_breakdown_of_afterRead {σ : Type} {kind : MachineKind} {side : Side} {s : σ}
    {b : Bench} {cost : Cost} {next : Cell → Option σ} {f : Fault}
    (hf : (afterRead kind side s b cost next).fault = some f) : ∃ r, f = .breakdown r := by
  rw [afterRead] at hf
  cases hnext : next (b.on side).focus with
  | some s' => simp [hnext] at hf
  | none =>
    simp only [hnext, Option.some.injEq] at hf
    exact ⟨_, hf.symm⟩

/-- A step that runs no child fails with a breakdown only. -/
theorem Control.exists_breakdown_of_step {c : Control} (hc : c.kind ≠ .trial) {b : Bench}
    {f : Fault} (hf : (Device.step c b).fault = some f) : ∃ r, f = .breakdown r := by
  cases c with
  | matcher s =>
    rw [Control.step_matcher] at hf
    change (Matcher.transition s b).fault = some f at hf
    exact Outcome.exists_breakdown_of_afterRead hf
  | sampler s =>
    rw [Control.step_sampler] at hf
    change (Sampler.transition s b).fault = some f at hf
    cases s with
    | scan | rewind => exact Outcome.exists_breakdown_of_afterRead hf
    | accept => cases hf
    | extend =>
      rw [Sampler.transition, Sampler.extend, Coin.flip] at hf
      cases hflip : b.coin.flip? with
      | none =>
        simp only [hflip, Option.elim_none, Option.some.injEq] at hf
        exact ⟨_, hf.symm⟩
      | some r => simp [hflip] at hf
  | trial s => exact absurd rfl hc

namespace Store

/-! ## A number of ticks -/

/-- The store after a number of ticks of a machine, whether they fail or not. -/
def ticked (σ : Store) (h : Handle Machine) (n : Nat) : Store :=
  (fun σ => (σ.tick h).store)^[n] σ

theorem ticked_succ (σ : Store) (h : Handle Machine) (n : Nat) :
    σ.ticked h (n + 1) = ((σ.ticked h n).tick h).store :=
  Function.iterate_succ_apply' _ _ _

theorem SameTask.ticked {σ τ : Store} {h : Handle Machine} (hs : SameTask σ τ h) (n : ℕ) :
    SameTask (σ.ticked h n) (τ.ticked h n) h := by
  induction n with
  | zero => exact hs
  | succ n ih =>
    rw [ticked_succ, ticked_succ]
    obtain ⟨-, -, hnext⟩ := ih.tick
    exact hnext

theorem Reached.trans {σ₁ σ₂ σ₃ : Store} {h : Handle Machine} (h₁ : Reached σ₁ h σ₂)
    (h₂ : Reached σ₂ h σ₃) : Reached σ₁ h σ₃ := by
  induction h₂ with
  | start => exact h₁
  | tick _ ih => exact ih.tick
  | meanwhile _ hu ih => exact ih.meanwhile hu

section Tick

variable {σ : Store} {h : Handle Machine} {mount : Mount}

theorem ticks_tick (hs : Steady σ h mount)
    (hlive : Device.halted (σ.machines.get h).control = false) :
    ((σ.tick h).store.machines.get h).ticks = (σ.machines.get h).ticks + 1 := by
  obtain ⟨⟨mount', hworked⟩, -⟩ := exists_worked_tick hs hlive
  rw [hworked.machine, after, Control.ticks_step hlive]

end Tick

/-! ## Machines that can be watched -/

/-- A machine that keeps its reels, and none of whose ticks fails with anything but a breakdown. -/
structure Watchable (σ : Store) (h : Handle Machine) : Prop where
  steady : ∃ mount, Steady σ h mount
  breakdown : ∀ now, Reached σ h now → ∀ f, (now.tick h).result = .error f →
    ∃ r, f = .breakdown r

section Watchable

variable {σ now : Store} {h : Handle Machine}

theorem Watchable.reached (hw : Watchable σ h) (hr : Reached σ h now) : Watchable now h where
  steady := by
    obtain ⟨mount, hs⟩ := hw.steady
    obtain ⟨mount', hs', -⟩ := hr.invariant (P := fun _ _ => True) hs trivial
      fun _ _ _ _ => trivial
    exact ⟨mount', hs'⟩
  breakdown := fun later hl => hw.breakdown later (hr.trans hl)

theorem Watchable.tick (hw : Watchable σ h) : Watchable (σ.tick h).store h :=
  hw.reached (.tick .start)

theorem Watchable.exists_mount (hw : Watchable σ h) :
    ∃ mount, (σ.machines.get h).mount = some mount := by
  obtain ⟨mount, hs⟩ := hw.steady
  exact ⟨mount, hs.mounted⟩

end Watchable

/-- **A machine that has been made can be watched.** -/
theorem Made.watchable {σ made : Store} {kind : MachineKind} {counter : Option (Handle Counter)}
    {coin : Option (Handle Coin)} {mount : Mount} (hm : Made σ made kind counter coin mount) :
    Watchable made σ.machines.next where
  steady := ⟨mount, hm.steady⟩
  breakdown := by
    intro now hr f hf
    by_cases hkind : kind = .trial
    · -- where a trial is found, only its coin can fail
      subst hkind
      obtain ⟨first, later, hlaid⟩ := Trial.refusal?_eq_none_iff.mp hm.refusal
      obtain ⟨mount', s, hsteady, hcontrol, hstanding⟩ :=
        Trial.exists_standing_of_reached hm hlaid hr
      obtain ⟨rfl, -⟩ := Trial.fault_tick_of_standing (b := σ.startBench .trial coin mount) hlaid
        hsteady hcontrol hstanding hf
      exact ⟨_, rfl⟩
    · -- the kind stays the same
      have hstart : (made.machines.get σ.machines.next).control.kind ≠ .trial := by
        rw [hm.machine]
        exact fun heq => hkind ((Control.kind_start kind).symm.trans heq)
      obtain ⟨mount', hsteady, hnow⟩ := hr.invariant (P := fun c _ => c.kind ≠ .trial) hm.steady
        hstart fun c b hc _ => by
          rw [Control.kind_step]
          exact hc
      obtain ⟨-, hfault, -⟩ := fault_of_tick hsteady.mounted hf
      exact Control.exists_breakdown_of_step hnow hfault

/-! ## Machines that have been built -/

theorem exists_made_of_enter {σ : Store} {kind : MachineKind} {t : Tapes} {coin : Coin}
    {built : Built} (hbuilt : σ.enter kind t coin = .ok built) :
    ∃ ready mount, Made ready built.store kind (some built.counter) (some σ.coins.next) mount ∧
      built.machine = ready.machines.next := by
  let counted := (σ.addCounter 0).addReel t.main none
  let ready := (counted.addReel t.aux none).addCoin coin
  simp only [enter] at hbuilt
  split at hbuilt
  · cases hbuilt
  · rename_i made hmade
    cases hbuilt
    obtain ⟨mount, -, -, hm⟩ := exists_made hmade
    exact ⟨ready, mount, hm, rfl⟩

/-- A machine that is built from a text is entered with the tapes for it and the coin of a seed. -/
theorem exists_enter_of_build {σ : Store} {name text : String} {word : Option String}
    {seed : Option Int} {unseeded : Twister} {built : Built}
    (hbuilt : σ.build name text word seed unseeded = .ok built) :
    ∃ kind t coin, σ.enter kind t coin = .ok built := by
  rw [build] at hbuilt
  split at hbuilt
  · cases hbuilt
  · rename_i kind hname
    cases hlayout : kind.layout text word with
    | error f =>
      rw [hlayout] at hbuilt
      cases hbuilt
    | ok t =>
      rw [hlayout] at hbuilt
      exact ⟨kind, t, _, hbuilt⟩

/-- **A machine that has been built** is in its first state, has not been ticked yet, and can be
watched. -/
theorem exists_start_of_built {σ : Store} {built : Built}
    (hbuilt : (∃ name text word seed unseeded, σ.build name text word seed unseeded = .ok built) ∨
      ∃ kind t coin, σ.enter kind t coin = .ok built) :
    let m := built.store.machines.get built.machine
    (∃ kind : MachineKind, m.control = kind.start) ∧ m.ticks = 0 ∧
      Watchable built.store built.machine := by
  have hentered : ∃ kind t coin, σ.enter kind t coin = .ok built := by
    rcases hbuilt with ⟨name, text, word, seed, unseeded, hbuild⟩ | hentered
    · exact exists_enter_of_build hbuild
    · exact hentered
  obtain ⟨kind, t, coin, henter⟩ := hentered
  obtain ⟨ready, mount, hmade, hmachine⟩ := exists_made_of_enter henter
  intro m
  have hm : m = _ := hmachine ▸ hmade.machine
  refine ⟨⟨kind, ?_⟩, ?_, ?_⟩
  · rw [hm]
  · rw [hm]
  · rw [hmachine]
    exact hmade.watchable

end Store

end SubseqMachines
