import SubseqMachines.Proofs.Machine.Control

/-!
# What a machine reports of itself

A machine reports each state at the start of the step from it, and a final state when it reaches it.
Between the two reports of its own, a trial lets its children report.

* `Device.trace_run_of_transition`: the trace of a run is the report of the first step, and then the
  trace of the run from there.
* `Event.reporter?`, `Event.ownOf`: the kind of the machine whose state is reported, and the reports
  of one kind.
* `Control.ownOf_trace_step`: what is left of the trace of a step without the reports of others.
-/

namespace SubseqMachines

namespace Device

variable {σ : Type} [Device σ]

/-- The trace of a run from its first step on. -/
theorem trace_run_of_transition {s s' : σ} {b b' : Bench} {cost : Cost} {reports : List Event}
    (hs : halted s = false)
    (h : transition s b = { state := s', bench := b', cost, trace := reports }) :
    (run s b).trace =
      event s :: (reports ++ if halted s' then [event s'] else (run s' b').trace) := by
  have hstep : step s b = { state := s', bench := b', cost
                            trace := event s :: reports ++
                              if halted s' then [event s'] else [] } := by
    rw [step, h]
    rfl
  rw [run_of_step hs (by rw [hstep]), hstep]
  cases hs' : halted s' with
  | true => simp [run_of_halted hs', Outcome.still, Outcome.followedBy]
  | false => simp [Outcome.followedBy]

/-- A device whose transitions report nothing reports states only. -/
theorem exists_event_of_mem_trace_run (hquiet : ∀ (s : σ) b, (transition s b).trace = [])
    (s : σ) (b : Bench) : ∀ e ∈ (run s b).trace, ∃ s' : σ, e = event s' := by
  have hstep : ∀ (s : σ) b, ∀ e ∈ (step s b).trace, ∃ s' : σ, e = event s' := by
    intro s b e he
    rw [step, hquiet] at he
    rcases List.mem_cons.mp he with rfl | hlast
    · exact ⟨s, rfl⟩
    · split at hlast
      · exact ⟨_, List.mem_singleton.mp hlast⟩
      · cases hlast
  -- what every step keeps to, the run keeps to
  induction hn : remaining s b.toTapes using Nat.strongRecOn generalizing s b with
  | ind n ih =>
    cases hs : halted s with
    | true => simp [run_of_halted hs, Outcome.still]
    | false =>
      by_cases hf : (step s b).fault = none
      · rw [run_of_step hs hf]
        exact List.forall_mem_append.mpr ⟨hstep s b, ih _ (hn ▸ remaining_step hs hf) _ _ rfl⟩
      · rw [run_of_fault hs hf]
        exact hstep s b

end Device

/-! ## Whose state is reported -/

namespace Event

/-- The kind of the machine whose state an event reports, if it reports one. -/
def reporter? : Event → Option MachineKind
  | matcher _ => some .matcher
  | sampler _ => some .sampler
  | trial _ => some .trial
  | witness _ => none
  | check _ _ => none

/-- The reports of their state that machines of a kind have made. -/
def ownOf (kind : MachineKind) (trace : List Event) : List Event :=
  trace.filter fun e => e.reporter? = some kind

@[simp] theorem ownOf_append (kind : MachineKind) (trace trace' : List Event) :
    ownOf kind (trace ++ trace') = ownOf kind trace ++ ownOf kind trace' :=
  List.filter_append trace trace'

@[simp] theorem ownOf_nil (kind : MachineKind) : ownOf kind [] = [] := rfl

end Event

namespace Control

theorem reporter?_event (c : Control) : (Device.event c).reporter? = some c.kind := by
  cases c <;> rfl

theorem text_event (c : Control) :
    (Device.event c).text = c.kind.label ++ " " ++ c.name := by
  cases c <;> rfl

theorem ownOf_event {c : Control} {kind : MachineKind} (hc : c.kind = kind) :
    Event.ownOf kind [Device.event c] = [Device.event c] := by
  rw [Event.ownOf, List.filter_cons_of_pos (by rw [reporter?_event, hc]; simp), List.filter_nil]

end Control

/-! ## Reports of children -/

theorem Outcome.trace_afterRead {σ : Type} (kind : MachineKind) (side : Side) (s : σ) (b : Bench)
    (cost : Cost) (next : Cell → Option σ) : (afterRead kind side s b cost next).trace = [] := by
  rw [afterRead]
  split <;> rfl

theorem Matcher.trace_transition (s : State) (b : Bench) : (transition s b).trace = [] :=
  Outcome.trace_afterRead _ _ _ _ _ _

theorem Sampler.trace_transition (s : State) (b : Bench) : (transition s b).trace = [] := by
  cases s with
  | scan | rewind => exact Outcome.trace_afterRead _ _ _ _ _ _
  | extend =>
    rw [transition, extend]
    split <;> rfl
  | accept => rfl

namespace Trial

/-- A machine whose transitions report nothing does not report the states of trials. -/
theorem ownOf_trace_run {σ : Type} [Device σ]
    (hquiet : ∀ (s : σ) b, (Device.transition s b).trace = [])
    (hevent : ∀ s : σ, (Device.event s).reporter? ≠ some .trial) (s : σ) (b : Bench) :
    Event.ownOf .trial (Device.run s b).trace = [] := by
  refine List.filter_eq_nil_iff.mpr fun e he => ?_
  obtain ⟨s', rfl⟩ := Device.exists_event_of_mem_trace_run hquiet s b e he
  simpa using hevent s'

theorem trace_adopt {σ : Type} (s : State) (b : Bench) (child : Outcome σ)
    (next : σ → Tapes → Except Breakdown State) :
    (adopt s b child next).trace = child.trace := by
  rw [adopt]
  split
  · rfl
  · split <;> rfl

/-- No child of a trial reports the states of trials. -/
theorem ownOf_trace_transition (s : State) (b : Bench) :
    Event.ownOf .trial (transition s b).trace = [] := by
  have hsampler (s : Sampler.State) : (Device.event s).reporter? ≠ some .trial :=
    show some MachineKind.sampler ≠ some .trial by decide
  have hmatcher (s : Matcher.State) : (Device.event s).reporter? ≠ some .trial :=
    show some MachineKind.matcher ≠ some .trial by decide
  cases s with
  | drawing =>
    rw [transition, draw]
    split
    · rfl
    · -- the sampler's reports, and the witness
      rw [Event.ownOf_append, trace_adopt, ownOf_trace_run Sampler.trace_transition hsampler,
        List.nil_append]
      refine List.filter_eq_nil_iff.mpr fun e he => ?_
      obtain ⟨w, -, rfl⟩ := Option.map_eq_some_iff.mp (Option.mem_toList.mp he)
      simp [Event.reporter?]
  | drawn stage w v =>
    cases stage with
    | boundary =>
      rw [transition, look]
      split <;> rfl
    | verify =>
      rw [transition, test]
      split
      · rfl
      · rw [trace_adopt, ownOf_trace_run Matcher.trace_transition hmatcher]
    | accept | reject => rfl

end Trial

/-! ## A machine's own reports -/

namespace Control

theorem ownOf_trace_transition (c : Control) (b : Bench) :
    Event.ownOf c.kind (Device.transition c b).trace = [] := by
  cases c with
  | matcher s => exact congrArg (Event.ownOf _) (Matcher.trace_transition s b)
  | sampler s => exact congrArg (Event.ownOf _) (Sampler.trace_transition s b)
  | trial s => exact Trial.ownOf_trace_transition s b

/-- **A step reports the state it starts from**, and a final state that it comes to. -/
theorem ownOf_trace_step (c : Control) (b : Bench) :
    let o := Device.step c b
    Event.ownOf c.kind o.trace =
      Device.event c :: if o.fault = none ∧ Device.halted o.state = true then
        [Device.event o.state] else [] := by
  intro o
  have htrace : o.trace = [Device.event c] ++ (Device.transition c b).trace ++
      (if o.fault.isNone && Device.halted o.state then [Device.event o.state] else []) := rfl
  rw [htrace, Event.ownOf_append, Event.ownOf_append, ownOf_event rfl, ownOf_trace_transition,
    List.append_nil]
  by_cases hlast : o.fault = none ∧ Device.halted o.state = true
  · rw [if_pos hlast, if_pos (by simp [hlast]), ownOf_event (kind_step c b)]
    rfl
  · rw [if_neg hlast, if_neg (by simpa using hlast)]
    rfl

end Control

end SubseqMachines
