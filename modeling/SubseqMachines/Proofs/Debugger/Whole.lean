import SubseqMachines.Proofs.Debugger.Course
import SubseqMachines.Proofs.Store.Entered
import SubseqMachines.Proofs.Store.Life

/-!
# The whole run in a debugger

The key for the whole run ticks the machine until it stops or breaks down, and that is what a run of
the machine does as well. So a debugger shows in the end what the run would have left.

* `Store.watch_eq_runOn`: a row of watched steps that is long enough is a run.
* `Debugger.pressed_runToEnd_of_enter`: the key for the whole run, on a machine that has been entered.
* `Store.Ran.shown`: the tapes that are shown after a run.
* `Debugger.ends_of_ran`: what there is to see when the debugger is finished.
-/

namespace SubseqMachines

/-! ## A row of watched steps as a run -/

namespace Store

variable {σ : Store} {h : Handle Machine}

/-- **A row of watched steps that is long enough is a run.** -/
theorem watch_eq_runOn (hw : Watchable σ h) {n : Nat} (hn : σ.remaining h < n)
    (counter : Handle Counter) (past : List Event) :
    (σ.watch h counter n).store = (σ.runOn h past).store ∧
      past.reverse ++ (σ.watch h counter n).trace = (σ.runOn h past).trace := by
  induction n generalizing σ past with
  | zero => omega
  | succ n ih =>
    obtain ⟨lines, ending, hone, hcases⟩ := exists_watch_one hw counter
    rw [watch_succ, hone]
    rcases hcases with ⟨hresult, rfl⟩ | ⟨hresult, rfl⟩ | ⟨r, hresult, rfl⟩
    · -- both go on from the same tick, after which less is left
      have hlt := remaining_tick hresult
      obtain ⟨hstore, htrace⟩ := ih hw.tick (by omega) ((σ.tick h).trace.reverse ++ past)
      rw [runOn_of_continue hresult, ← htrace, List.reverse_append, List.reverse_reverse,
        List.append_assoc]
      exact ⟨hstore, rfl⟩
    · rw [runOn_of_stop hresult]
      exact ⟨rfl, rfl⟩
    · rw [runOn_of_error hresult]
      exact ⟨rfl, rfl⟩

end Store

/-- The tapes that are shown after a run. -/
theorem Store.Ran.shown {built : Built} {o : Outcome Control} (h : Store.Ran built o) :
    (built.store.run built.machine).store.shown built.machine = .ok o.bench.toTapes := by
  obtain ⟨mount, hmount, htapes⟩ := h.tapes
  rw [Store.shown, hmount]
  exact congrArg Except.ok htapes

/-! ## The key for the whole run -/

namespace Debugger

variable {σ : Store} {kind : MachineKind} {t : Tapes} {coin : Coin} {built : Built}

/-- **The key for the whole run** leaves what a run of the machine leaves, and reports what it
reports. Nothing escapes, and the debugger is finished. -/
theorem pressed_runToEnd_of_enter (hbuilt : σ.enter kind t coin = .ok built) :
    let s := (opened built.store built.machine built.counter false).press .runToEnd
    s.fault = none ∧ s.debugger.finished = true ∧
      s.store = (built.store.run built.machine).store ∧
      s.trace = (built.store.run built.machine).trace := by
  intro s
  have hentered :
      (∃ name text word seed unseeded, σ.build name text word seed unseeded = .ok built) ∨
        ∃ kind t coin, σ.enter kind t coin = .ok built := .inr ⟨kind, t, coin, hbuilt⟩
  obtain ⟨-, hticks, hw⟩ := Store.exists_start_of_built hentered
  obtain ⟨mount, hmount⟩ := hw.exists_mount
  obtain ⟨d, hmachine, -, hgoing, -, hopened, -⟩ := exists_opened_eq hmount built.counter
  have hsound := (follows_opened hentered).sound
  -- the key makes as many steps as the run has ticks
  obtain ⟨mount', -, hstep⟩ := exists_step_eq (hmachine ▸ hw) hgoing
    (built.store.remaining d.machine + 1)
  have hpressed : s = d.runToEnd built.store := by
    show (opened built.store built.machine built.counter false).press .runToEnd = _
    rw [hopened]
    rfl
  have hrun : built.store.run built.machine = built.store.runOn built.machine [] :=
    Store.run_of_fresh (by rw [hmount]; rfl) hticks
  obtain ⟨hstore, htrace⟩ := Store.watch_eq_runOn hw
    (Nat.lt_succ_self (built.store.remaining built.machine)) d.counter []
  refine ⟨?_, hsound.finished_press_runToEnd, ?_, ?_⟩
  · rw [hpressed, runToEnd_of_unfinished hgoing, hstep]
  · rw [hpressed, runToEnd_of_unfinished hgoing, hstep, hrun, ← hstore, hmachine]
  · rw [hpressed, runToEnd_of_unfinished hgoing, hstep, hrun, ← htrace, hmachine]
    rfl

/-- **What there is to see in the end** is the outcome of the device. -/
theorem ends_of_ran {o : Outcome Control} (hbuilt : σ.enter kind t coin = .ok built)
    (hran : Store.Ran built o) :
    let s := (opened built.store built.machine built.counter false).press .runToEnd
    s.fault = none ∧ s.debugger.finished = true ∧
      (s.store.machines.get built.machine).control = o.state ∧
      s.store.shown built.machine = .ok o.bench.toTapes ∧
      (s.store.counters.get built.counter).value = o.cost.total := by
  intro s
  obtain ⟨hfault, hfinished, hstore, -⟩ := pressed_runToEnd_of_enter hbuilt
  change s.store = _ at hstore
  rw [hstore]
  exact ⟨hfault, hfinished, hran.control, hran.shown, hran.value⟩

end Debugger

end SubseqMachines
