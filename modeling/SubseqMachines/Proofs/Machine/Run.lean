import SubseqMachines.Machine.Device

/-!
# What a run keeps

A run of a device is a number of steps, so what each step keeps true of the outcome so far is true
of the outcome of the run.

* `Device.run_invariant_or_last`: if every step from a state that is not final keeps a property of
  the outcome so far or fails, then a run ends in a final state with the property, or with a step
  that fails after an outcome with the property.
* `Device.run_invariant_or_fault`, `Device.run_invariant`: the same told by the fault, and for steps
  that do not fail.
* `Device.isLate_run`: a run of a device without children fails before anything is taken over.
* `Device.followedBy_step`: what one step that succeeds makes of the outcome so far.
* `Device.run_map`: devices and benches that are seen as part of others run alike.
-/

namespace SubseqMachines

namespace Outcome

variable {σ τ : Type}

@[simp] theorem followedBy_still (o : Outcome σ) (hf : o.fault = none) :
    o.followedBy (still o.state o.bench) = o := by
  obtain ⟨s, b, n, c, tr, f⟩ := o
  obtain rfl : f = none := hf
  simp [followedBy, still]

/-- A read of a cell that is covered. -/
theorem afterRead_of_some {kind : MachineKind} {side : Side} {s s' : σ} {b : Bench} {cost : Cost}
    {next : Cell → Option σ} (h : next (b.on side).focus = some s') :
    afterRead kind side s b cost next = { state := s', bench := b, cost } := by
  simp only [afterRead, h]

/-- The same with the bench seen in another way. -/
def onBench (g : Bench → Bench) (o : Outcome σ) : Outcome σ :=
  { o with bench := g o.bench }

end Outcome

namespace Device

variable {σ τ : Type} [Device σ] [Device τ]

/-! ## The invariant of a run -/

/-- What a step that succeeds makes of the outcome so far. -/
theorem followedBy_step {o : Outcome σ} {s : σ} {b : Bench} {cost : Cost} {reports : List Event}
    (h : transition o.state o.bench = { state := s, bench := b, cost, trace := reports }) :
    (step o.state o.bench).fault = none ∧ ∃ trace, o.followedBy (step o.state o.bench) =
      { state := s, bench := b, ticks := o.ticks + 1, cost := o.cost + cost, trace } := by
  rw [step, h]
  exact ⟨rfl, _, rfl⟩

/-- **A run keeps what each step keeps, up to a step that fails.** Let every step from a state that
is not final keep a property `P` of the outcome so far, or fail, and then only after an outcome with
the property `Q`. Then a run ends in a final state with `P`, or with a step that fails after an
outcome with both. -/
theorem run_invariant_or_last {P Q : Outcome σ → Prop} {s : σ} {b : Bench}
    (hstart : P (.still s b))
    (hstep : ∀ o, P o → halted o.state = false →
      (step o.state o.bench).fault = none ∧ P (o.followedBy (step o.state o.bench)) ∨
        (step o.state o.bench).fault ≠ none ∧ Q o) :
    (run s b).fault = none ∧ halted (run s b).state = true ∧ P (run s b) ∨
      ∃ o, P o ∧ Q o ∧ run s b = o.followedBy (step o.state o.bench) := by
  -- this holds of the rest of the run from any outcome so far that has the property
  have hrest : ∀ n (o : Outcome σ), remaining o.state o.bench.toTapes = n → o.fault = none → P o →
      let r := o.followedBy (run o.state o.bench)
      r.fault = none ∧ halted r.state = true ∧ P r ∨
        ∃ p, P p ∧ Q p ∧ r = p.followedBy (step p.state p.bench) := by
    -- by induction on the bound of the rest, which each step lowers
    intro n
    induction n using Nat.strongRecOn with
    | ind n ih =>
      intro o hn hf hP
      cases hs : halted o.state with
      | true =>
        rw [run_of_halted hs, Outcome.followedBy_still o hf]
        exact .inl ⟨hf, hs, hP⟩
      | false =>
        rcases hstep o hP hs with ⟨hnone, hnext⟩ | ⟨hfails, hQ⟩
        · have hlt := remaining_step hs hnone
          rw [run_of_step hs hnone, ← Outcome.followedBy_assoc]
          exact ih _ (hn ▸ hlt) (o.followedBy (step o.state o.bench)) rfl hnone hnext
        · rw [run_of_fault hs hfails]
          exact .inr ⟨o, hP, hQ, rfl⟩
  have h := hrest _ (.still s b) rfl rfl hstart
  rw [Outcome.still_followedBy] at h
  exact h

/-- If every step from a state that is not final keeps a property of the outcome so far or fails
with a fault of some kind, then a run ends in a final state with the property, or fails with such a
fault. -/
theorem run_invariant_or_fault {P : Outcome σ → Prop} {F : Fault → Prop} {s : σ} {b : Bench}
    (hstart : P (.still s b))
    (hstep : ∀ o, P o → halted o.state = false →
      (step o.state o.bench).fault = none ∧ P (o.followedBy (step o.state o.bench)) ∨
        ∃ f, (step o.state o.bench).fault = some f ∧ F f) :
    (run s b).fault = none ∧ halted (run s b).state = true ∧ P (run s b) ∨
      ∃ f, (run s b).fault = some f ∧ F f := by
  rcases run_invariant_or_last (Q := fun o => ∃ f, (step o.state o.bench).fault = some f ∧ F f)
    hstart (fun o hP hs => (hstep o hP hs).imp id fun ⟨f, hf, hF⟩ =>
      ⟨by rw [hf]; exact nofun, f, hf, hF⟩) with hend | ⟨o, -, hlast, hrun⟩
  · exact .inl hend
  · -- the fault of the run is that of its last step
    rw [hrun]
    exact .inr hlast

/-- If every step succeeds and keeps the property, then the run does not fail. -/
theorem run_invariant {P : Outcome σ → Prop} {s : σ} {b : Bench} (hstart : P (.still s b))
    (hstep : ∀ o, P o → halted o.state = false →
      (step o.state o.bench).fault = none ∧ P (o.followedBy (step o.state o.bench))) :
    (run s b).fault = none ∧ halted (run s b).state = true ∧ P (run s b) := by
  rcases run_invariant_or_fault (F := fun _ => False) hstart
    fun o hP hs => .inl (hstep o hP hs) with h | ⟨f, -, hF⟩
  · exact h
  · exact hF.elim

/-- A run fails early if all steps do that fail. -/
theorem isLate_run (hstep : ∀ (s : σ) b f, (step s b).fault = some f → f.isLate = false) {s : σ}
    {b : Bench} {f : Fault} (hf : (run s b).fault = some f) : f.isLate = false := by
  have hrun := run_invariant_or_fault (P := fun _ => True) (F := fun f => f.isLate = false)
    (s := s) (b := b) trivial fun o _ _ => by
      cases hfault : (step o.state o.bench).fault with
      | none => exact .inl ⟨rfl, trivial⟩
      | some g => exact .inr ⟨g, rfl, hstep _ _ _ hfault⟩
  rcases hrun with ⟨hnone, -⟩ | ⟨g, hg, hearly⟩
  · rw [hnone] at hf
    cases hf
  · obtain rfl := Option.some.inj (hg.symm.trans hf)
    exact hearly

/-! ## One device as part of another -/

/-- Devices whose final states and steps correspond have corresponding runs. -/
theorem run_map (f : σ → τ) (g : Bench → Bench) (hhalted : ∀ s, halted (f s) = halted s)
    (hstep : ∀ s b, step (f s) (g b) = ((step s b).map f).onBench g) (s : σ) (b : Bench) :
    run (f s) (g b) = ((run s b).map f).onBench g := by
  induction hn : remaining s b.toTapes using Nat.strongRecOn generalizing s b with
  | ind n ih =>
    -- both runs end here, or both go on, or both fail
    cases hs : halted s with
    | true =>
      rw [run_of_halted hs, run_of_halted ((hhalted s).trans hs)]
      rfl
    | false =>
      have hs' := (hhalted s).trans hs
      by_cases hf : (step s b).fault = none
      · have hf' : (step (f s) (g b)).fault = none := by rw [hstep]; exact hf
        have hlt := remaining_step hs hf
        rw [run_of_step hs hf, run_of_step hs' hf', hstep]
        -- the rest of the one run is the rest of the other
        exact congrArg (Outcome.followedBy _) (ih _ (hn ▸ hlt) _ _ rfl)
      · have hf' : (step (f s) (g b)).fault ≠ none := by rw [hstep]; exact hf
        rw [run_of_fault hs hf, run_of_fault hs' hf', hstep]

end Device

end SubseqMachines
