import SubseqMachines.Proofs.Store.Ticks

/-!
# Every machine comes to an end

A machine that nobody disturbs from some moment on stops or fails after finitely many ticks,
whatever the tapes held at that moment: others may have moved the heads and written cells of either
kind, and the state of the machine may fit the tapes no longer. The coin does not matter either. It
can be exchanged between any two ticks, and a script of flips stands for whatever a coin gives
within one.

What falls from tick to tick is `Store.remaining`. It counts, phase by phase, the cells that are
still ahead of the heads. A head that runs off the edge makes the tape longer behind itself, so
there is nothing more ahead of it then than before. That the two reels are different ones, so that
no head lengthens the way of the other, is part of what a `Mount` is.

* `Store.Undisturbed`: ticks of a machine with which nobody interferes.
* `Store.Undisturbed.exists_last`: the ticks until the machine stops or fails.
* `Store.runOn_of_last`, `Store.exists_ticked_runOn`: a run is that many ticks.
* `Store.ticked_invariant`, `Store.run_invariant`: what every tick keeps, ticks and runs keep.
* `Store.exists_last_tick`: ticking and running come to an end.
-/

namespace SubseqMachines.Store

/-! ## Ticks without interference -/

/-- The stores before each of the ticks of a machine. Between two ticks others may work on
everything but the machine and its reels. -/
def Undisturbed (h : Handle Machine) (course : ℕ → Store) : Prop :=
  ∀ n, Untouched ((course n).tick h).store (course (n + 1)) h

section Undisturbed

variable {σ σ' : Store} {h : Handle Machine} {course : ℕ → Store}

/-- Ticks with nothing between them. -/
theorem undisturbed_ticked (σ : Store) (h : Handle Machine) : Undisturbed h (σ.ticked h) := by
  intro n
  rw [ticked_succ]
  exact ⟨rfl, fun _ _ => ⟨rfl, rfl⟩⟩

theorem Untouched.remaining_eq (hu : Untouched σ σ' h) : σ'.remaining h = σ.remaining h := by
  unfold remaining
  rw [hu.machine]
  cases hmount : (σ.machines.get h).mount with
  | none => simp only [hmount]
  | some mount =>
    obtain ⟨hmain, haux⟩ := hu.reels mount hmount
    simp only [hmount, tapes, tape, hmain, haux]

/-- **A machine does not go on for ever.** -/
theorem Undisturbed.exists_last (hc : Undisturbed h course) :
    ∃ n ≤ (course 0).remaining h, (∀ k < n, ((course k).tick h).result = .ok true) ∧
      ((course n).tick h).result ≠ .ok true := by
  induction hn : (course 0).remaining h using Nat.strongRecOn generalizing course with
  | ind r ih =>
    by_cases hgoes : ((course 0).tick h).result = .ok true
    · -- what happens between the ticks does not bring back what the first one has taken off
      have hlt : (course 1).remaining h < r := by
        rw [(hc 0).remaining_eq, ← hn]
        exact remaining_tick hgoes
      have hlater : Undisturbed h fun n => course (n + 1) := fun n => hc (n + 1)
      obtain ⟨n, hle, hbefore, hlast⟩ := ih _ hlt hlater rfl
      refine ⟨n + 1, by omega, ?_, hlast⟩
      intro k hk
      by_cases hzero : k = 0
      · rw [hzero]
        exact hgoes
      · have hk' := hbefore (k - 1) (by omega)
        rwa [Nat.sub_add_cancel (by omega)] at hk'
    · exact ⟨0, by omega, fun k hk => absurd hk (Nat.not_lt_zero k), hgoes⟩

end Undisturbed

/-! ## Runs -/

section Run

variable {σ : Store} {h : Handle Machine}

/-- A tick that does not say that the machine goes on is the last one: it fails, or it leaves the
machine in a final state. -/
theorem fails_or_halts_of_last (hlast : (σ.tick h).result ≠ .ok true) :
    (∃ f, (σ.tick h).result = .error f) ∨ (σ.tick h).result = .ok false ∧
      Device.halted ((σ.tick h).store.machines.get h).control = true := by
  cases hresult : (σ.tick h).result with
  | error f => exact .inl ⟨f, rfl⟩
  | ok goes =>
    rw [hresult] at hlast
    have hstops : goes = false := Bool.eq_false_iff.mpr fun hgoes => hlast (by rw [hgoes])
    subst hstops
    exact .inr ⟨rfl, halted_of_tick hresult⟩

/-- **A run is the ticks up to the last one.** It answers with the verdict, unless that tick
fails, and what it reports is what its ticks report. -/
theorem runOn_of_last {n : ℕ} (hbefore : ∀ k < n, ((σ.ticked h k).tick h).result = .ok true)
    (hlast : ((σ.ticked h n).tick h).result ≠ .ok true) (past : List Event) :
    (σ.runOn h past).store = ((σ.ticked h n).tick h).store ∧
      ((σ.runOn h past).result = ((σ.ticked h n).tick h).result.map fun _ =>
        (((σ.ticked h n).tick h).store.machines.get h).control.accepted) ∧
      (σ.runOn h past).trace = past.reverse ++
        (List.range (n + 1)).flatMap fun k => ((σ.ticked h k).tick h).trace := by
  induction n generalizing σ past with
  | zero =>
    -- the run ends with its first tick
    change (σ.tick h).result ≠ .ok true at hlast
    show (σ.runOn h past).store = (σ.tick h).store ∧ ((σ.runOn h past).result =
      (σ.tick h).result.map fun _ => ((σ.tick h).store.machines.get h).control.accepted) ∧
      (σ.runOn h past).trace = past.reverse ++ ((σ.tick h).trace ++ [])
    rw [List.append_nil]
    rcases fails_or_halts_of_last hlast with ⟨f, hf⟩ | ⟨hstop, -⟩
    · rw [runOn_of_error hf, hf]
      exact ⟨rfl, rfl, rfl⟩
    · rw [runOn_of_stop hstop, hstop]
      exact ⟨rfl, rfl, rfl⟩
  | succ n ih =>
    -- after the first tick there is one tick less
    have hgoes : (σ.tick h).result = .ok true := hbefore 0 (by omega)
    obtain ⟨hstore, hresult, htrace⟩ :=
      ih (σ := (σ.tick h).store) (fun k hk => hbefore (k + 1) (by omega)) hlast
        ((σ.tick h).trace.reverse ++ past)
    rw [runOn_of_continue hgoes]
    refine ⟨hstore, hresult, htrace.trans ?_⟩
    rw [List.reverse_append, List.reverse_reverse, List.append_assoc,
      List.range_succ_eq_map (n := n + 1), List.flatMap_cons, List.flatMap_map]
    rfl

theorem exists_ticked_runOn (σ : Store) (h : Handle Machine) (past : List Event) :
    ∃ n ≤ σ.remaining h, (∀ k < n, ((σ.ticked h k).tick h).result = .ok true) ∧
      ((σ.ticked h n).tick h).result ≠ .ok true ∧
      (σ.runOn h past).store = ((σ.ticked h n).tick h).store ∧
      (σ.runOn h past).result = ((σ.ticked h n).tick h).result.map fun _ =>
        (((σ.ticked h n).tick h).store.machines.get h).control.accepted := by
  obtain ⟨n, hle, hbefore, hlast⟩ := (undisturbed_ticked σ h).exists_last
  obtain ⟨hstore, hresult, -⟩ := runOn_of_last hbefore hlast past
  exact ⟨n, hle, hbefore, hlast, hstore, hresult⟩

/-- What every tick keeps, a number of ticks keep, whether they fail or not. -/
theorem ticked_invariant {P : Store → Prop} (htick : ∀ τ, P τ → P (τ.tick h).store) (hP : P σ)
    (n : ℕ) : P (σ.ticked h n) := by
  induction n with
  | zero => exact hP
  | succ n ih =>
    rw [ticked_succ]
    exact htick _ ih

/-- What every tick keeps, a run keeps, whether it fails or not. -/
theorem run_invariant {P : Store → Prop} (htick : ∀ τ, P τ → P (τ.tick h).store) (hP : P σ) :
    P (σ.run h).store := by
  by_cases hmount : (σ.machines.get h).mount.isNone
  · rw [run, if_pos hmount]
    exact hP
  · by_cases hfresh : (σ.machines.get h).ticks ≠ 0
    · rw [run, if_neg hmount, if_pos hfresh]
      exact hP
    · -- a run that is not refused is a number of ticks
      obtain ⟨n, -, -, -, hstore, -⟩ := exists_ticked_runOn σ h []
      rw [run, if_neg hmount, if_neg hfresh, hstore, ← ticked_succ]
      exact ticked_invariant htick hP (n + 1)

end Run

/-- **Ticking a machine comes to an end, and so does its run.** From any store on, which others may
have brought about in any way, a machine with which nobody interferes comes to a last tick. That
tick fails, or the machine is in a final state after it. The run of a machine that has not ticked
yet is the ticks up to the last one, and it fails as that one does or answers with the verdict. -/
theorem exists_last_tick (h : Handle Machine) :
    (∀ course, Undisturbed h course → ∃ n ≤ (course 0).remaining h,
      (∀ k < n, ((course k).tick h).result = .ok true) ∧
        let last := (course n).tick h
        ((∃ f, last.result = .error f) ∨
          last.result = .ok false ∧ Device.halted (last.store.machines.get h).control = true)) ∧
      ∀ (σ : Store) (mount : Mount), (σ.machines.get h).mount = some mount →
        (σ.machines.get h).ticks = 0 → ∃ n ≤ σ.remaining h,
          (∀ k < n, ((σ.ticked h k).tick h).result = .ok true) ∧
            let last := (σ.ticked h n).tick h
            let c := (last.store.machines.get h).control
            (σ.run h).store = last.store ∧
              ((∃ f, last.result = .error f ∧ (σ.run h).result = .error f) ∨
                last.result = .ok false ∧ Device.halted c = true ∧
                  (σ.run h).result = .ok c.accepted) := by
  constructor
  · intro course hc
    obtain ⟨n, hle, hbefore, hlast⟩ := hc.exists_last
    exact ⟨n, hle, hbefore, fails_or_halts_of_last hlast⟩
  · intro σ mount hmount hticks
    obtain ⟨n, hle, hbefore, hlast, hstore, hresult⟩ := exists_ticked_runOn σ h []
    -- the machine has its reels and has not ticked, so it may be run
    have hrun : σ.run h = σ.runOn h [] := by
      simp only [run, hmount, hticks, Option.isNone_some]
      rfl
    refine ⟨n, hle, hbefore, ?_⟩
    intro last c
    rw [hrun]
    refine ⟨hstore, ?_⟩
    rcases fails_or_halts_of_last hlast with ⟨f, hf⟩ | ⟨hstop, hhalted⟩
    · refine .inl ⟨f, hf, ?_⟩
      rw [hresult, hf]
      rfl
    · refine .inr ⟨hstop, hhalted, ?_⟩
      rw [hresult, hstop]
      rfl

/-- A matcher has taken the letter `a`, and then the block in front of its main head is written over
with letters of both kinds. -/
theorem exists_last_tick_of_meddled :
    let σ := (({} : Store).addReel ⟨[], .hash, [.main .b, .main .a]⟩ none).addReel
      ⟨[], .blank, [.aux .a, .aux .b]⟩ none
    ∃ made, σ.make .matcher ⟨0⟩ ⟨1⟩ none none = .ok made ∧
      let now := (made.ticked ⟨0⟩ 1).setTape ⟨0⟩ ⟨[.aux .b], .main .a, [.main .b, .aux .a]⟩
      Undisturbed ⟨0⟩ (now.ticked ⟨0⟩) ∧
        (∃ n ≤ now.remaining ⟨0⟩, (∃ f, ((now.ticked ⟨0⟩ n).tick ⟨0⟩).result = .error f) ∨
          ((now.ticked ⟨0⟩ n).tick ⟨0⟩).result = .ok false) ∧
        ∃ n ≤ made.remaining ⟨0⟩,
          (made.run ⟨0⟩).store = ((made.ticked ⟨0⟩ n).tick ⟨0⟩).store := by
  intro σ
  obtain ⟨made, hmade⟩ : ∃ made, σ.make .matcher ⟨0⟩ ⟨1⟩ none none = .ok made :=
    make_eq_ok (by decide) none none
  obtain ⟨mount, -, -, hm⟩ := exists_made hmade
  refine ⟨made, hmade, ?_⟩
  intro now
  obtain ⟨hticking, hrunning⟩ := exists_last_tick ⟨0⟩
  have hnow := undisturbed_ticked now ⟨0⟩
  refine ⟨hnow, ?_, ?_⟩
  · obtain ⟨n, hle, -, hend⟩ := hticking _ hnow
    exact ⟨n, hle, hend.imp id And.left⟩
  · obtain ⟨n, hle, -, hstore, -⟩ := hrunning made mount
      (congrArg Machine.mount hm.machine) (congrArg Machine.ticks hm.machine)
    exact ⟨n, hle, hstore⟩

end SubseqMachines.Store
