import SubseqMachines.Proofs.Machine.Trace
import SubseqMachines.Proofs.Store.Life

/-!
# What a run in the store reports

A machine in the store reports of itself what its device does: one state for each tick, and the
final state. This is so whatever is on its reels, also if others have worked on them.

* `Store.ownOf_trace_tick`: what a machine reports of itself in a tick.
* `Store.exists_ownOf_trace_runOn`: and in a run that comes to its end.
-/

namespace SubseqMachines.Store

variable {σ : Store} {h : Handle Machine}

/-- **The reports of a machine in a tick** that does not fail. -/
theorem ownOf_trace_tick {goes : Bool}
    (hlive : Device.halted (σ.machines.get h).control = false)
    (hresult : (σ.tick h).result = .ok goes) :
    let m := σ.machines.get h
    let m' := (σ.tick h).store.machines.get h
    Event.ownOf m.control.kind (σ.tick h).trace =
        Device.event m.control :: (if goes then [] else [Device.event m'.control]) ∧
      m'.ticks = m.ticks + 1 := by
  intro m m'
  have hends : Device.halted m'.control = !goes := halted_of_tick hresult
  cases hmount : m.mount with
  | none =>
    -- a machine without reels does not tick
    rw [tick_of_destroyed hmount] at hresult
    cases hresult
  | some mount =>
    have htick := tick_of_live hmount hlive
    have hm' : m' = _ :=
      (congrArg (fun r : Reply Bool => r.store.machines.get h) htick).trans (machine_commit _ _ _ _)
    cases hf : (Device.step m.control (σ.bench m mount)).fault with
    | some f =>
      rw [htick, hf] at hresult
      cases hresult
    | none =>
      have hown := Control.ownOf_trace_step m.control (σ.bench m mount)
      have hcontrol : m'.control = (Device.step m.control (σ.bench m mount)).state := by rw [hm']
      -- the tick says that the machine stops exactly when the step has come to a final state
      simp only [hf, ← hcontrol, hends, true_and, Bool.not_eq_true', ← Bool.not_eq_true,
        ite_not] at hown
      refine ⟨?_, by rw [hm']⟩
      rw [htick]
      exact hown

/-- **The reports of a machine in a run** that comes to its end: one for each tick, and one for the
final state. -/
theorem exists_ownOf_trace_runOn (hlive : Device.halted (σ.machines.get h).control = false)
    (past : List Event) {verdict : Bool} (hresult : (σ.runOn h past).result = .ok verdict) :
    let kind := (σ.machines.get h).control.kind
    let r := σ.runOn h past
    let m' := r.store.machines.get h
    ∃ reports, reports.length + (σ.machines.get h).ticks = m'.ticks ∧
      Event.ownOf kind r.trace =
        Event.ownOf kind past.reverse ++ reports ++ [Device.event m'.control] := by
  intro kind r m'
  -- each tick takes something off what is left of the run
  induction hn : σ.remaining h using Nat.strongRecOn generalizing σ past with
  | ind n ih =>
    cases htick : (σ.tick h).result with
    | error f =>
      rw [runOn_of_error htick] at hresult
      cases hresult
    | ok goes =>
      obtain ⟨hown, hticks⟩ := ownOf_trace_tick hlive htick
      have hkind := σ.kind_tick h
      cases goes with
      | false =>
        -- the last tick reports the final state as well
        have hr : r = _ := runOn_of_stop htick past
        refine ⟨[Device.event (σ.machines.get h).control], ?_, ?_⟩
        · show 1 + _ = (r.store.machines.get h).ticks
          rw [hr, hticks, Nat.add_comm]
        · show Event.ownOf kind r.trace = _ ++ [Device.event (r.store.machines.get h).control]
          rw [hr, Event.ownOf_append, hown]
          simp
      | true =>
        -- the reports of this tick go to the past of the rest of the run
        have hr : r = _ := runOn_of_continue htick past
        have hlt : (σ.tick h).store.remaining h < n := hn ▸ remaining_tick htick
        obtain ⟨reports, hlen, hlater⟩ := ih _ hlt (halted_of_tick htick)
          ((σ.tick h).trace.reverse ++ past) (hr ▸ hresult) rfl
        rw [hkind, ← hr] at hlater
        rw [← hr, hticks] at hlen
        refine ⟨Device.event (σ.machines.get h).control :: reports, ?_, ?_⟩
        · rw [List.length_cons]
          show _ = (r.store.machines.get h).ticks
          omega
        · refine hlater.trans ?_
          rw [List.reverse_append, List.reverse_reverse, Event.ownOf_append, hown]
          simp [kind, m']

end SubseqMachines.Store
