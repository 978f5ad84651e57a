import SubseqMachines.Proofs.Debugger.Steps
import SubseqMachines.Proofs.Store.Life

/-!
# Keys in which a tick fails

A tick that breaks down or misuses the machine ends the row of steps that a key makes. The debugger
has then a line for each tick before it and one for the fault, and is finished: whatever keys are
pressed later, and whatever others do in between, it neither steps the machine nor writes to its log
again.

As long as the machine has its reels, nothing escapes and the panels show where it has stopped. A
machine that has surrendered them has nothing to show. The fault of its tick is logged, but bringing
the panels up to date fails in its turn, and that fault escapes from the key.

* `Store.FailsAfter`: a number of ticks after which one fails, and
  `Store.FailsAfter.exists_watch_eq`: the row of watched steps that ends with it.
* `Debugger.later`: a debugger after keys that are pressed while others work on the store.
* `Debugger.press_of_failsAfter`: what a key leaves in which a tick fails.
* `Debugger.press_step_of_surrendered`: what escapes if the machine has surrendered its reels.
-/

namespace SubseqMachines

/-! ## The first tick that fails -/

namespace Store

/-- So many ticks of a machine go on, and the next one fails. -/
structure FailsAfter (σ : Store) (h : Handle Machine) (n : Nat) (f : Fault) : Prop where
  goes : ∀ i < n, ((σ.ticked h i).tick h).result = .ok true
  fails : ((σ.ticked h n).tick h).result = .error f

section FailsAfter

variable {σ : Store} {h : Handle Machine} {n : Nat} {f : Fault}

instance : Decidable (σ.FailsAfter h n f) :=
  decidable_of_iff ((∀ i < n, ((σ.ticked h i).tick h).result = .ok true) ∧
      ((σ.ticked h n).tick h).result = .error f)
    ⟨fun ⟨hgoes, hfails⟩ => ⟨hgoes, hfails⟩, fun hfail => ⟨hfail.goes, hfail.fails⟩⟩

/-- After the first tick there is one less to come. -/
theorem FailsAfter.tail (hfail : σ.FailsAfter h (n + 1) f) : (σ.tick h).store.FailsAfter h n f where
  goes := fun i hi => hfail.goes (i + 1) (by omega)
  fails := hfail.fails

/-- There are no more ticks before the one that fails than the machine has steps left. -/
theorem FailsAfter.le_remaining (hfail : σ.FailsAfter h n f) : n ≤ σ.remaining h := by
  obtain ⟨last, hle, -, hlast⟩ := (undisturbed_ticked σ h).exists_last
  -- the last tick does not come before those that go on
  rcases Nat.lt_or_ge last n with hlt | hge
  · exact absurd (hfail.goes last hlt) hlast
  · exact Nat.le_trans hge hle

/-- A tick that goes on is one of a machine that has its reels, and leaves them to it. -/
theorem exists_describe_of_goes (hgoes : (σ.tick h).result = .ok true) (counter : Handle Counter) :
    ∃ line, (σ.tick h).store.describe h counter = .ok line := by
  have hmount : (σ.machines.get h).mount.isSome = true := by
    rw [Option.isSome_iff_ne_none]
    intro hnone
    rw [tick_of_destroyed hnone] at hgoes
    cases hgoes
  obtain ⟨mount, hkept⟩ := Option.isSome_iff_exists.mp (isSome_mount_tick hmount)
  exact exists_describe hkept counter

/-- A machine that has surrendered its reels is left as it is, however often it is ticked. -/
theorem ticked_of_surrendered (hmount : (σ.machines.get h).mount = none) (n : Nat) :
    σ.ticked h n = σ :=
  Function.iterate_fixed (by rw [tick_of_destroyed hmount]) n

/-- The only fault of such a machine is that it is ticked at all. -/
theorem FailsAfter.eq_destroyed (hfail : σ.FailsAfter h n f)
    (hmount : (σ.machines.get h).mount = none) :
    f = .misuse (.destroyed (σ.machines.get h).control.kind) := by
  have hfails := hfail.fails
  rw [ticked_of_surrendered hmount, tick_of_destroyed hmount] at hfails
  exact (Except.error.inj hfails).symm

/-- A machine that has its reels is not misused by ticking it. -/
theorem FailsAfter.ne_misuse (hfail : σ.FailsAfter h n f)
    (hmount : (σ.machines.get h).mount.isSome = true) (why : Misuse) : f ≠ .misuse why := by
  rintro rfl
  obtain ⟨mount, hheld⟩ := Option.isSome_iff_exists.mp (isSome_mount_ticked hmount n)
  exact result_tick_ne_misuse hheld why hfail.fails

/-- **The row of watched steps that a failing tick ends** has a line for each tick before it. -/
theorem FailsAfter.exists_watch_eq (hfail : σ.FailsAfter h n f) (counter : Handle Counter)
    {most : Nat} (hmost : n < most) :
    ∃ lines : List String,
      lines.map .ok = (List.range n).map (fun i => (σ.ticked h (i + 1)).describe h counter) ∧
      σ.watch h counter most =
        { store := σ.ticked h (n + 1)
          trace := (List.range (n + 1)).flatMap fun i => ((σ.ticked h i).tick h).trace
          lines
          ending := .failed f } := by
  obtain ⟨most, rfl⟩ := Nat.exists_eq_add_one.mpr (Nat.zero_lt_of_lt hmost)
  induction n generalizing σ most with
  | zero =>
    have hone : σ.watch h counter 1 = _ := watch_one_of_error hfail.fails
    refine ⟨[], rfl, ?_⟩
    rw [watch_succ, if_pos (by rw [hone]; rfl)]
    exact hone.trans (congrArg (Watch.mk _ · [] _) (List.append_nil _).symm)
  | succ n ih =>
    have hgoes : (σ.tick h).result = .ok true := hfail.goes 0 (Nat.succ_pos n)
    obtain ⟨line, hline⟩ := exists_describe_of_goes hgoes counter
    have hone := watch_one_of_ok hgoes hline
    -- the others are the row of what is left after the first tick
    obtain ⟨most, rfl⟩ := Nat.exists_eq_add_one.mpr (show 0 < most by omega)
    obtain ⟨lines, hlines, hrest⟩ := ih hfail.tail most (by omega)
    refine ⟨line :: lines, ?_, ?_⟩
    · rw [List.map_cons, hlines, List.range_succ_eq_map, List.map_cons, List.map_map]
      exact congrArg (· :: _) hline.symm
    · rw [watch_succ, if_neg (by rw [hone]; exact Bool.false_ne_true), hone, hrest,
        List.range_succ_eq_map (n := n + 1), List.flatMap_cons, List.flatMap_map]
      rfl

end FailsAfter

end Store

/-- The number of steps that a key makes at most, if there is a limit to it. -/
def Key.most? : Key → Option Nat
  | step => some 1
  | stepTen => some 10
  | runToEnd => none

namespace Debugger

variable {d : Debugger} {σ : Store}

/-! ## Keys of a debugger that is finished -/

/-- A debugger after keys. Each of them finds a store of its own, since others may work on the store
before it is pressed. -/
def later (d : Debugger) (visits : List (Store × Key)) : Debugger :=
  visits.foldl (fun d visit => (d.press visit.1 visit.2).debugger) d

theorem refreshed_of_surrendered (hmount : (σ.machines.get d.machine).mount = none)
    (trace : List Event) :
    d.refreshed σ trace = { store := σ, debugger := d, trace, fault := some .nothingToShow } := by
  rw [refreshed, refresh, Store.shown, hmount]
  rfl

/-- Bringing the panels up to date touches nothing but the panels. -/
theorem exists_refreshed_eq (d : Debugger) (σ : Store) (trace : List Event) :
    ∃ panels fault, d.refreshed σ trace =
      { store := σ, debugger := { d with panels }, trace, fault } := by
  cases hmount : (σ.machines.get d.machine).mount with
  | none => exact ⟨d.panels, _, refreshed_of_surrendered hmount trace⟩
  | some mount => exact ⟨_, _, refreshed_of_mounted hmount trace⟩

/-- **A key of a debugger that is finished** touches nothing but the panels. -/
theorem exists_press_eq_of_finished (hd : d.finished = true) (σ : Store) (key : Key) :
    ∃ panels fault,
      d.press σ key = { store := σ, debugger := { d with panels }, trace := [], fault } := by
  cases key with
  | step => exact ⟨d.panels, none, step_of_finished hd 1⟩
  | stepTen => exact ⟨d.panels, none, step_of_finished hd 10⟩
  | runToEnd =>
    have hpress : d.press σ .runToEnd = d.refreshed σ [] := if_pos hd
    rw [hpress]
    exact exists_refreshed_eq d σ []

/-- However many keys are pressed. -/
theorem exists_later_eq_of_finished (hd : d.finished = true) (visits : List (Store × Key)) :
    ∃ panels, d.later visits = { d with panels } := by
  induction visits generalizing d with
  | nil => exact ⟨d.panels, rfl⟩
  | cons visit visits ih =>
    obtain ⟨panels, fault, hpress⟩ := exists_press_eq_of_finished hd visit.1 visit.2
    obtain ⟨panels', hlater⟩ := ih (d := { d with panels }) hd
    refine ⟨panels', ?_⟩
    show (d.press visit.1 visit.2).debugger.later visits = _
    rw [hpress, hlater]

/-! ## Keys in which a tick fails -/

/-- A key makes so many steps of a debugger that is not finished, or as many as the machine has
left. -/
theorem exists_press_eq_step (hd : d.finished = false) {key : Key} {n : Nat}
    (hmost : ∀ most ∈ key.most?, n < most) (hn : n ≤ σ.remaining d.machine) :
    ∃ most, n < most ∧ d.press σ key = d.step σ most := by
  cases key with
  | step => exact ⟨1, hmost 1 rfl, rfl⟩
  | stepTen => exact ⟨10, hmost 10 rfl, rfl⟩
  | runToEnd => exact ⟨_, Nat.lt_succ_of_le hn, runToEnd_of_unfinished hd⟩

/-- **A key in which a tick fails** is a row of watched steps that ends with the fault, written down
and shown. -/
theorem exists_press_eq_of_failsAfter (hd : d.finished = false) {key : Key} {n : Nat} {f : Fault}
    (hfail : σ.FailsAfter d.machine n f) (hf : isContained f = true)
    (hmost : ∀ most ∈ key.most?, n < most) :
    ∃ lines : List String,
      lines.map .ok =
        (List.range n).map (fun i => (σ.ticked d.machine (i + 1)).describe d.machine d.counter) ∧
      d.press σ key =
        ({ d.write (lines ++ ["[ERROR] " ++ f.message]) with finished := true } : Debugger).refreshed
          (σ.ticked d.machine (n + 1))
          ((List.range (n + 1)).flatMap fun i => ((σ.ticked d.machine i).tick d.machine).trace) := by
  obtain ⟨most, hlt, hpress⟩ := exists_press_eq_step hd hmost hfail.le_remaining
  obtain ⟨lines, hlines, hwatch⟩ := hfail.exists_watch_eq d.counter hlt
  refine ⟨lines, hlines, ?_⟩
  rw [hpress, step_of_unfinished hd, hwatch]
  rw [conclude_of_contained]
  · simp [written, Watch.written, Watch.ended]
  · rintro _ ⟨⟩
    exact hf

/-- **A key in which a tick fails.** Some ticks of the key go on and the next one breaks down or
misuses the machine. Then the log has a line for each of the ticks that go on, and one for the
fault, and the debugger is finished: whatever keys are pressed later, and whatever others do in
between, a key changes neither the store nor the log.

If the machine has its reels, it has broken down, nothing escapes, and the panels are up to date. If
it has surrendered them, that it is ticked is the fault that is logged, another fault escapes, and
the panels are as they were. -/
theorem press_of_failsAfter (d : Debugger) (σ : Store) (key : Key) (n : Nat) (f : Fault)
    (hd : d.finished = false) (hfail : σ.FailsAfter d.machine n f)
    (hmost : ∀ most ∈ key.most?, n < most)
    (hf : (∃ b, f = .breakdown b) ∨ ∃ why, f = .misuse why) :
    let h := d.machine
    let m := σ.machines.get h
    let s := d.press σ key
    (∃ lines : List String,
      lines.map .ok = (List.range n).map (fun i => (σ.ticked h (i + 1)).describe h d.counter) ∧
      s.debugger.log = d.log ++ (lines ++ ["[ERROR] " ++ f.message]).map escapeMarkup) ∧
    s.debugger.finished = true ∧
    s.store = σ.ticked h (n + 1) ∧
    (m.mount.isSome = true →
      (∃ b, f = .breakdown b) ∧ s.fault = none ∧ s.debugger.refresh s.store = .ok s.debugger) ∧
    (m.mount = none →
      f = .misuse (.destroyed m.control.kind) ∧ s.fault = some .nothingToShow ∧
        s.debugger.panels = d.panels) ∧
    ∀ visits τ key',
      let after := (s.debugger.later visits).press τ key'
      after.store = τ ∧ after.debugger.log = s.debugger.log := by
  intro h m s
  have hcontained : isContained f = true := by
    rcases hf with ⟨b, rfl⟩ | ⟨why, rfl⟩
    · rfl
    · rfl
  obtain ⟨lines, hlines, hpress⟩ := exists_press_eq_of_failsAfter hd hfail hcontained hmost
  obtain ⟨panels, fault, hrefreshed⟩ := exists_refreshed_eq
    { d.write (lines ++ ["[ERROR] " ++ f.message]) with finished := true } (σ.ticked h (n + 1))
    ((List.range (n + 1)).flatMap fun i => ((σ.ticked h i).tick h).trace)
  have hleft : s = _ := hpress.trans hrefreshed
  have hfinished : s.debugger.finished = true := by rw [hleft]
  refine ⟨⟨lines, hlines, by rw [hleft]; rfl⟩, hfinished, by rw [hleft], ?live, ?surrendered, ?later⟩
  case live =>
    intro hheld
    obtain ⟨mount, hmount⟩ := Option.isSome_iff_exists.mp (Store.isSome_mount_ticked hheld (n + 1))
    have hshown : s = _ := hpress.trans (refreshed_of_mounted (by exact hmount) _)
    refine ⟨hf.resolve_right fun ⟨why, hwhy⟩ => hfail.ne_misuse hheld why hwhy, by rw [hshown], ?_⟩
    rw [hshown]
    exact refresh_showing _ (by exact hmount)
  case surrendered =>
    intro hgone
    have hmount : ((σ.ticked h (n + 1)).machines.get h).mount = none := by
      rw [Store.ticked_of_surrendered hgone]
      exact hgone
    have hescaped : s = _ := hpress.trans (refreshed_of_surrendered (by exact hmount) _)
    exact ⟨hfail.eq_destroyed hgone, by rw [hescaped], by rw [hescaped]; rfl⟩
  case later =>
    intro visits τ key'
    obtain ⟨panels', hlater⟩ := exists_later_eq_of_finished hfinished visits
    obtain ⟨panels'', fault', hafter⟩ :=
      exists_press_eq_of_finished (d := { s.debugger with panels := panels' }) hfinished τ key'
    rw [hlater, hafter]
    exact ⟨rfl, rfl⟩

/-- A sampler whose coin runs out in the fourth of the ten steps. -/
theorem press_of_failsAfter_out_of_flips :
    let t : Tapes := ⟨.startingAt .blank [.main .a, .main .b, .hash], .blank⟩
    ∃ built, (Store.initial default).enter .sampler t (.scripted [true]) = .ok built ∧
      let d := (opened built.store built.machine built.counter false).debugger
      let s := d.press built.store .stepTen
      built.store.FailsAfter d.machine 3 (.breakdown .coinExhausted) ∧
      s.fault = none ∧ s.debugger.finished = true ∧ s.store = built.store.ticked d.machine 4 ∧
      s.debugger.refresh s.store = .ok s.debugger ∧
      s.debugger.log.getLast? = some "\\[ERROR] Scripted coin ran out of flips" ∧
      ∀ visits τ key, ((s.debugger.later visits).press τ key).store = τ := by
  intro t
  let d (built : Built) : Debugger :=
    (opened built.store built.machine built.counter false).debugger
  let start : Except Fault Built := (Store.initial default).enter .sampler t (.scripted [true])
  obtain ⟨built, hbuilt⟩ : ∃ built, start = .ok built := ⟨_, rfl⟩
  have hstart : start.toOption.map (fun built =>
      decide ((d built).finished = false ∧
        built.store.FailsAfter (d built).machine 3 (.breakdown .coinExhausted) ∧
        (built.store.machines.get (d built).machine).mount.isSome = true)) = some true := by
    decide +kernel
  rw [hbuilt] at hstart
  obtain ⟨hd, hfail, hmount⟩ := of_decide_eq_true (Option.some.inj hstart)
  obtain ⟨⟨lines, -, hlog⟩, hfinished, hstore, hlive, -, hlater⟩ :=
    press_of_failsAfter (d built) built.store .stepTen 3 (.breakdown .coinExhausted) hd hfail
      (by decide) (.inl ⟨_, rfl⟩)
  obtain ⟨-, hfault, hrefresh⟩ := hlive hmount
  refine ⟨built, hbuilt, hfail, hfault, hfinished, hstore, hrefresh, ?_,
    fun visits τ key => (hlater visits τ key).1⟩
  rw [hlog, List.map_append, ← List.append_assoc]
  exact List.getLast?_concat

/-- A matcher that gives up its reels between being shown and the key for one step. -/
theorem press_step_of_surrendered :
    ∃ built, (Store.initial default).build "m1" "ab" (some "b") none default = .ok built ∧
      let d := (opened built.store built.machine built.counter false).debugger
      let gone := (built.store.destroy built.machine).store
      let s := d.press gone .step
      d.finished = false ∧ gone.FailsAfter d.machine 0 (.misuse (.destroyed .matcher)) ∧
      s.debugger.log.getLast? = some "\\[ERROR] Verifier was already destroyed" ∧
      s.debugger.finished = true ∧ s.debugger.panels = d.panels ∧
      s.fault = some .nothingToShow := by
  let d (built : Built) : Debugger :=
    (opened built.store built.machine built.counter false).debugger
  let gone (built : Built) : Store := (built.store.destroy built.machine).store
  let s (built : Built) : Scene := (d built).press (gone built) .step
  let start : Except Fault Built :=
    (Store.initial default).build "m1" "ab" (some "b") none default
  obtain ⟨built, hbuilt⟩ : ∃ built, start = .ok built := ⟨_, rfl⟩
  have hpressed : start.toOption.map (fun built =>
      decide ((d built).finished = false ∧
        (gone built).FailsAfter (d built).machine 0 (.misuse (.destroyed .matcher)) ∧
        (s built).debugger.log.getLast? = some "\\[ERROR] Verifier was already destroyed" ∧
        (s built).debugger.finished = true ∧ (s built).debugger.panels = (d built).panels ∧
        (s built).fault = some .nothingToShow)) = some true := by
    decide +kernel
  rw [hbuilt] at hpressed
  exact ⟨built, hbuilt, of_decide_eq_true (Option.some.inj hpressed)⟩

end Debugger

end SubseqMachines
