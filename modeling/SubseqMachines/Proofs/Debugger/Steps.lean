import Mathlib.Data.List.Induction
import SubseqMachines.Debugger
import SubseqMachines.Proofs.Store.Ticks

/-!
# Keys as single steps

The keys of a debugger step its machine once, ten times or to the end. However many steps a key
makes, it does what as many presses of the key for one step do: the lines are written one after the
other, the row of steps ends where the debugger is finished, and the panels show the machine as it
is at last.

* `Store.watch_succ`: a row of watched steps is its first step and the row of the others.
* `Store.ended_watch`: a row that is long enough ends.
* `Scene.press`, `Scene.presses`: a scene after keys are pressed.
* `Debugger.step_succ`: so many steps at once are one step and then the others.
* `Scene.exists_presses_eq`: any keys do what a number of presses of the key for one step do.
-/

namespace SubseqMachines

/-! ## Rows of watched steps -/

namespace Watch

/-- What a row of watched steps writes: the lines, and that it has failed. -/
def written (w : Watch) : List String :=
  w.lines ++
    match w.ending with
    | .failed f => ["[ERROR] " ++ f.message]
    | _ => []

/-- Whether the machine has halted or failed. -/
def ended (w : Watch) : Bool :=
  match w.ending with
  | .going => false
  | _ => true

/-- A row of watched steps and then another one. -/
def followedBy (w w' : Watch) : Watch :=
  { w' with trace := w.trace ++ w'.trace, lines := w.lines ++ w'.lines }

theorem written_of_going {w : Watch} (h : w.ended = false) : w.written = w.lines := by
  rw [written]
  cases hending : w.ending with
  | going => exact List.append_nil _
  | halted | failed f => simp [ended, hending] at h

theorem written_followedBy (w w' : Watch) : (w.followedBy w').written = w.lines ++ w'.written := by
  rw [written, written, followedBy, List.append_assoc]

end Watch

namespace Store

section Watch

variable {σ : Store} {h : Handle Machine} {counter : Handle Counter}

/-- What was done before does not change what is done from now on. -/
theorem watchOn_eq (n : Nat) (σ : Store) (trace : List Event) (lines : List String) :
    watchOn h counter n σ trace lines =
      { σ.watch h counter n with
        trace := trace.reverse ++ (σ.watch h counter n).trace
        lines := lines.reverse ++ (σ.watch h counter n).lines } := by
  induction n generalizing σ trace lines with
  | zero => simp [watch, watchOn]
  | succ n ih =>
    rw [watch, watchOn, watchOn]
    cases hr : (σ.watchTick h counter).result with
    | error f => simp
    | ok r =>
      obtain ⟨running, line⟩ := r
      cases running with
      | false => simp
      | true =>
        -- both sides go on from the same step
        simp only [ih _ (_ ++ _) (_ :: _)]
        simp

theorem store_watch_one (σ : Store) : (σ.watch h counter 1).store = (σ.tick h).store := by
  rw [watch, watchOn]
  cases hr : (σ.watchTick h counter).result with
  | error f => rfl
  | ok r =>
    obtain ⟨running, line⟩ := r
    cases running <;> rfl

/-- **A row of watched steps** is its first step and, if that has not ended it, the row of the
others. -/
theorem watch_succ (σ : Store) (n : Nat) :
    σ.watch h counter (n + 1) =
      if (σ.watch h counter 1).ended then σ.watch h counter 1
      else (σ.watch h counter 1).followedBy ((σ.tick h).store.watch h counter n) := by
  rw [watch, watchOn, watch, watchOn]
  cases hr : (σ.watchTick h counter).result with
  | error f => rfl
  | ok r =>
    obtain ⟨running, line⟩ := r
    cases running with
    | false => rfl
    | true =>
      simp only
      rw [watchOn_eq, watchOn]
      rfl

theorem watch_one_of_error {f : Fault} (hr : (σ.tick h).result = .error f) :
    σ.watch h counter 1 = ⟨(σ.tick h).store, (σ.tick h).trace, [], .failed f⟩ := by
  rw [watch, watchOn, watchTick, hr]
  show Watch.mk _ ((σ.tick h).trace.reverse ++ []).reverse _ _ = _
  rw [List.append_nil, List.reverse_reverse]
  rfl

theorem watch_one_of_ok {running : Bool} {line : String} (hr : (σ.tick h).result = .ok running)
    (hline : (σ.tick h).store.describe h counter = .ok line) :
    σ.watch h counter 1 =
      ⟨(σ.tick h).store, (σ.tick h).trace, [line], if running then .going else .halted⟩ := by
  have hresult : (do
      let running ← (Except.ok running : Except Fault Bool)
      let line ← (σ.tick h).store.describe h counter
      return (running, line)) = Except.ok (running, line) := by
    rw [hline]
    rfl
  rw [watch, watchOn, watchTick, hr]
  simp only [hresult]
  cases running with
  | true => simp [watchOn]
  | false => simp

theorem reached_watch (n : Nat) : Reached σ h (σ.watch h counter n).store := by
  induction n generalizing σ with
  | zero => exact .start
  | succ n ih =>
    rw [watch_succ]
    split
    · rw [store_watch_one]
      exact .tick .start
    · exact .trans (.tick .start) ih

/-! ### Rows of a machine that can be watched -/

theorem exists_describe {mount : Mount} (hmount : (σ.machines.get h).mount = some mount)
    (counter : Handle Counter) : ∃ line, σ.describe h counter = .ok line := by
  rw [describe, shown, hmount]
  exact ⟨_, rfl⟩

/-- One step tells the machine's line, or that it has broken down. -/
theorem exists_watch_one (hw : Watchable σ h) (counter : Handle Counter) :
    ∃ lines ending, σ.watch h counter 1 = ⟨(σ.tick h).store, (σ.tick h).trace, lines, ending⟩ ∧
      ((σ.tick h).result = .ok true ∧ ending = .going ∨
        (σ.tick h).result = .ok false ∧ ending = .halted ∨
        ∃ r, (σ.tick h).result = .error (.breakdown r) ∧ ending = .failed (.breakdown r)) := by
  cases hr : (σ.tick h).result with
  | error f =>
    obtain ⟨r, rfl⟩ := hw.breakdown σ .start f hr
    exact ⟨[], .failed (.breakdown r), watch_one_of_error hr, .inr (.inr ⟨r, rfl, rfl⟩)⟩
  | ok running =>
    obtain ⟨mount, hmount⟩ := hw.tick.exists_mount
    obtain ⟨line, hline⟩ := exists_describe hmount counter
    refine ⟨[line], _, watch_one_of_ok hr hline, ?_⟩
    cases running with
    | true => exact .inl ⟨rfl, rfl⟩
    | false => exact .inr (.inl ⟨rfl, rfl⟩)

/-- A row that fails does so with a breakdown. -/
theorem exists_breakdown_of_watch (hw : Watchable σ h) {n : Nat} {f : Fault}
    (hf : (σ.watch h counter n).ending = .failed f) : ∃ r, f = .breakdown r := by
  induction n generalizing σ with
  | zero => cases hf
  | succ n ih =>
    obtain ⟨lines, ending, hone, hcases⟩ := exists_watch_one hw counter
    rw [watch_succ] at hf
    split at hf
    · rw [hone] at hf
      rcases hcases with ⟨-, rfl⟩ | ⟨-, rfl⟩ | ⟨r, -, rfl⟩
      · cases hf
      · cases hf
      · exact ⟨r, (Ending.failed.inj hf).symm⟩
    · exact ih hw.tick hf

/-- **A row that is long enough ends.** -/
theorem ended_watch (hw : Watchable σ h) {n : Nat} (hn : σ.remaining h < n) :
    (σ.watch h counter n).ended = true := by
  induction n generalizing σ with
  | zero => omega
  | succ n ih =>
    obtain ⟨lines, ending, hone, hcases⟩ := exists_watch_one hw counter
    rw [watch_succ]
    split
    · rename_i hended
      exact hended
    · rename_i hgoing
      -- a step after which the row goes on has brought the end nearer
      rcases hcases with ⟨hresult, -⟩ | ⟨-, rfl⟩ | ⟨r, -, rfl⟩
      · have hlt := remaining_tick hresult
        exact ih hw.tick (by omega)
      · exact absurd (by rw [hone]; rfl) hgoing
      · exact absurd (by rw [hone]; rfl) hgoing

end Watch

end Store

/-! ## What steps make of a debugger -/

namespace Debugger

/-- The debugger with panels that show a machine with the given tapes. -/
def showing (d : Debugger) (σ : Store) (t : Tapes) : Debugger :=
  { d with
    panels :=
      { main := escapeMarkup t.main.render
        aux := escapeMarkup t.aux.render
        state := d.stateText σ t } }

theorem refresh_of_mounted {d : Debugger} {σ : Store} {mount : Mount}
    (hmount : (σ.machines.get d.machine).mount = some mount) :
    d.refresh σ = .ok (d.showing σ (σ.tapes mount)) := by
  rw [refresh, Store.shown, hmount]
  rfl

/-- The text of the state panel is about the machine, the counter and whether the debugger is
finished. -/
theorem stateText_congr {d e : Debugger} (hmachine : d.machine = e.machine)
    (hcounter : d.counter = e.counter) (hfinished : d.finished = e.finished) (σ : Store)
    (t : Tapes) : d.stateText σ t = e.stateText σ t := by
  unfold stateText
  rw [hmachine, hcounter, hfinished]

/-- What the panels show does not depend on what they showed before. -/
theorem showing_withPanels (d : Debugger) (panels : Panels) (σ : Store) (t : Tapes) :
    ({ d with panels } : Debugger).showing σ t = d.showing σ t := by
  have htext := stateText_congr (d := { d with panels }) (e := d) rfl rfl rfl σ t
  unfold showing
  rw [htext]

theorem showing_withAutoRun (d : Debugger) (autoRun : Bool) (σ : Store) (t : Tapes) :
    ({ d with autoRun } : Debugger).showing σ t = { d.showing σ t with autoRun } := by
  have htext := stateText_congr (d := { d with autoRun }) (e := d) rfl rfl rfl σ t
  unfold showing
  rw [htext]

theorem machine_showing (d : Debugger) (σ : Store) (t : Tapes) :
    (d.showing σ t).machine = d.machine := by
  rw [showing]

/-- Panels that show a machine are up to date. -/
theorem refresh_showing (d : Debugger) {σ : Store} {mount : Mount}
    (hmount : (σ.machines.get d.machine).mount = some mount) :
    (d.showing σ (σ.tapes mount)).refresh σ = .ok (d.showing σ (σ.tapes mount)) := by
  have hshown := machine_showing d σ (σ.tapes mount)
  rw [refresh_of_mounted (by rw [hshown]; exact hmount)]
  exact congrArg _ (showing_withPanels d _ σ (σ.tapes mount))

theorem refreshed_of_mounted {d : Debugger} {σ : Store} {mount : Mount}
    (hmount : (σ.machines.get d.machine).mount = some mount) (trace : List Event) :
    d.refreshed σ trace = { store := σ, debugger := d.showing σ (σ.tapes mount), trace } := by
  rw [refreshed, refresh_of_mounted hmount]

/-- What a row of watched steps makes of a debugger, its panels aside. -/
def written (d : Debugger) (w : Watch) : Debugger :=
  { d.write w.written with finished := d.finished || w.ended }

/-- Panels that are brought up to date again may as well be left out, and lines may as well be
written one after the other. -/
theorem showing_written_followedBy (d : Debugger) {w w' : Watch} (hw : w.ended = false)
    (σ σ' : Store) (t t' : Tapes) :
    (((d.written w).showing σ t).written w').showing σ' t' =
      (d.written (w.followedBy w')).showing σ' t' := by
  have hfinished : (d.finished || w.ended || w'.ended) =
      (d.finished || (w.followedBy w').ended) := by
    rw [hw, Bool.or_false]
    rfl
  have hlog : d.log ++ w.written.map escapeMarkup ++ w'.written.map escapeMarkup =
      d.log ++ (w.followedBy w').written.map escapeMarkup := by
    rw [Watch.written_followedBy, Watch.written_of_going hw, List.map_append, List.append_assoc]
  have hwritten : ((d.written w).showing σ t).written w' =
      { d.written (w.followedBy w') with panels := ((d.written w).showing σ t).panels } := by
    show Debugger.mk _ _ _ _ _ _ = Debugger.mk _ _ _ _ _ _
    exact congr (congrArg (fun f => Debugger.mk d.machine d.counter d.autoRun f _) hfinished) hlog
  rw [hwritten]
  exact showing_withPanels _ _ σ' t'

/-- Watched steps are written down, and the panels are brought up to date, unless the steps fail with
a fault that is passed on. -/
theorem conclude_of_contained {w : Watch} (hw : ∀ f, w.ending = .failed f → isContained f = true)
    (d : Debugger) : d.conclude w = (d.written w).refreshed w.store w.trace := by
  obtain ⟨σ, trace, lines, ending⟩ := w
  cases ending with
  | going => simp [conclude, written, Watch.written, Watch.ended, write]
  | halted => simp [conclude, written, Watch.written, Watch.ended, write]
  | failed f => simp [conclude, written, Watch.written, Watch.ended, hw f rfl, write]

end Debugger

/-! ## Scenes -/

namespace Scene

/-- A scene and then what an action has made of it: what was reported before is kept, and so is the
first fault that has escaped. -/
def andThen (s s' : Scene) : Scene :=
  { s' with trace := s.trace ++ s'.trace, fault := s.fault <|> s'.fault }

/-- The scene after a key is pressed. -/
def press (s : Scene) (key : Key) : Scene :=
  s.andThen (s.debugger.press s.store key)

/-- The scene after keys are pressed, one after the other. -/
def presses (s : Scene) (keys : List Key) : Scene :=
  keys.foldl press s

theorem andThen_assoc (s₁ s₂ s₃ : Scene) :
    (s₁.andThen s₂).andThen s₃ = s₁.andThen (s₂.andThen s₃) := by
  simp only [andThen, List.append_assoc]
  cases s₁.fault <;> rfl

theorem presses_append (s : Scene) (keys more : List Key) :
    s.presses (keys ++ more) = (s.presses keys).presses more :=
  List.foldl_append

theorem presses_steps_succ (s : Scene) (n : Nat) :
    s.presses (List.replicate (n + 1) .step) =
      (s.press .step).presses (List.replicate n .step) := by
  rw [List.replicate_succ]
  rfl

/-- A scene in which nothing has escaped, the machine can be watched, and the panels show it. -/
structure Sound (s : Scene) : Prop where
  watchable : Store.Watchable s.store s.debugger.machine
  panels : s.debugger.refresh s.store = .ok s.debugger
  fault : s.fault = none

/-- An action that does nothing. -/
theorem andThen_idle (s : Scene) : s.andThen { store := s.store, debugger := s.debugger } = s := by
  obtain ⟨σ, d, trace, fault⟩ := s
  cases fault <;> simp [andThen]

end Scene

/-! ## Single steps -/

namespace Debugger

section Step

variable {d : Debugger} {σ : Store}

theorem step_of_finished (hd : d.finished = true) (n : Nat) :
    d.step σ n = { store := σ, debugger := d } :=
  if_pos hd

theorem step_of_unfinished (hd : d.finished = false) (n : Nat) :
    d.step σ n = d.conclude (σ.watch d.machine d.counter n) := by
  rw [step, hd]
  rfl

/-- A run to the end is a number of steps that is large enough. -/
theorem runToEnd_of_unfinished (hd : d.finished = false) :
    d.runToEnd σ = d.step σ (σ.remaining d.machine + 1) := by
  rw [runToEnd, if_neg (by simp [hd]), step_of_unfinished hd]
  rfl

/-- What any number of steps leaves, if the debugger was not finished before. -/
theorem exists_step_eq (hw : Store.Watchable σ d.machine) (hd : d.finished = false) (n : Nat) :
    let w := σ.watch d.machine d.counter n
    ∃ mount, (w.store.machines.get d.machine).mount = some mount ∧
      d.step σ n =
        { store := w.store
          debugger := (d.written w).showing w.store (w.store.tapes mount)
          trace := w.trace } := by
  intro w
  have hwatchable : Store.Watchable w.store d.machine := hw.reached (Store.reached_watch n)
  obtain ⟨mount, hmount⟩ := hwatchable.exists_mount
  refine ⟨mount, hmount, ?_⟩
  have hcontained (f : Fault) (hf : w.ending = .failed f) : isContained f = true := by
    obtain ⟨r, rfl⟩ := Store.exists_breakdown_of_watch hw hf
    rfl
  rw [step_of_unfinished hd, conclude_of_contained hcontained]
  exact refreshed_of_mounted (d := d.written w) hmount w.trace

/-- **So many steps at once are one step and then the others.** -/
theorem step_succ (hw : Store.Watchable σ d.machine) (n : Nat) :
    d.step σ (n + 1) =
      (d.step σ 1).andThen ((d.step σ 1).debugger.step (d.step σ 1).store n) := by
  cases hd : d.finished with
  | true =>
    -- no step is made at all
    rw [step_of_finished hd, step_of_finished hd, step_of_finished hd]
    rfl
  | false =>
    obtain ⟨mount₁, hmount₁, hone⟩ := exists_step_eq hw hd 1
    obtain ⟨mount₂, hmount₂, hall⟩ := exists_step_eq hw hd (n + 1)
    cases hended : (σ.watch d.machine d.counter 1).ended with
    | true =>
      -- the first step is the last one as well
      have hrow : σ.watch d.machine d.counter (n + 1) = σ.watch d.machine d.counter 1 := by
        rw [Store.watch_succ, if_pos hended]
      rw [hrow] at hall hmount₂
      obtain rfl : mount₁ = mount₂ := Option.some.inj (hmount₁.symm.trans hmount₂)
      have hfinished : (d.step σ 1).debugger.finished = true := by
        rw [hone]
        show (d.finished || (σ.watch d.machine d.counter 1).ended) = true
        rw [hended, Bool.or_true]
      rw [step_of_finished hfinished, hall, hone]
      simp [Scene.andThen]
    | false =>
      have hrow : σ.watch d.machine d.counter (n + 1) =
          (σ.watch d.machine d.counter 1).followedBy
            ((σ.watch d.machine d.counter 1).store.watch d.machine d.counter n) := by
        rw [Store.watch_succ, if_neg (by simp [hended]), Store.store_watch_one]
      -- the debugger goes on from what the first step has made of it
      generalize hw₁ : σ.watch d.machine d.counter 1 = w₁ at *
      let d₁ := (d.written w₁).showing w₁.store (w₁.store.tapes mount₁)
      have hd₁ : d₁.finished = false := by
        show (d.finished || w₁.ended) = false
        rw [hd, hended]
        rfl
      have hw' : Store.Watchable w₁.store d.machine := by
        rw [← hw₁]
        exact hw.reached (Store.reached_watch 1)
      obtain ⟨mount₃, hmount₃, hrest⟩ := exists_step_eq (d := d₁) hw' hd₁ n
      rw [hrow] at hall hmount₂
      obtain rfl : mount₂ = mount₃ := Option.some.inj (hmount₂.symm.trans hmount₃)
      rw [hone, hall]
      show _ = Scene.andThen _ (d₁.step w₁.store n)
      rw [hrest, showing_written_followedBy d hended]
      rfl

end Step

end Debugger

/-! ## Keys -/

namespace Scene

section Sound

variable {s : Scene}

/-- A debugger that is finished has nothing left to do. -/
theorem Sound.press_of_finished (h : s.Sound) (hs : s.debugger.finished = true) (key : Key) :
    s.press key = s := by
  have hidle : s.debugger.press s.store key = { store := s.store, debugger := s.debugger } := by
    cases key with
    | step => exact Debugger.step_of_finished hs 1
    | stepTen => exact Debugger.step_of_finished hs 10
    | runToEnd =>
      show s.debugger.runToEnd s.store = _
      rw [Debugger.runToEnd, if_pos hs, Debugger.refreshed, h.panels]
  rw [press, hidle, andThen_idle]

theorem Sound.presses_of_finished (h : s.Sound) (hs : s.debugger.finished = true)
    (keys : List Key) : s.presses keys = s := by
  induction keys with
  | nil => rfl
  | cons key keys ih =>
    show (s.press key).presses keys = s
    rw [h.press_of_finished hs, ih]

/-- What a step leaves, if the debugger is not finished. -/
theorem Sound.exists_press_step (h : s.Sound) (hs : s.debugger.finished = false) :
    let w := s.store.watch s.debugger.machine s.debugger.counter 1
    ∃ mount, (w.store.machines.get s.debugger.machine).mount = some mount ∧
      s.press .step =
        { store := w.store
          debugger := (s.debugger.written w).showing w.store (w.store.tapes mount)
          trace := s.trace ++ w.trace } := by
  intro w
  obtain ⟨mount, hmount, hstep⟩ := Debugger.exists_step_eq h.watchable hs 1
  refine ⟨mount, hmount, ?_⟩
  show s.andThen (s.debugger.step s.store 1) = _
  rw [hstep, andThen, h.fault]
  rfl

theorem Sound.press_step (h : s.Sound) : (s.press .step).Sound := by
  cases hs : s.debugger.finished with
  | true =>
    rw [h.press_of_finished hs]
    exact h
  | false =>
    obtain ⟨mount, hmount, hpress⟩ := h.exists_press_step hs
    let w := s.store.watch s.debugger.machine s.debugger.counter 1
    have hshown := Debugger.refresh_showing (s.debugger.written w) hmount
    rw [hpress]
    exact
      { watchable := h.watchable.reached (Store.reached_watch 1), panels := hshown, fault := rfl }

theorem Sound.presses_replicate (h : s.Sound) (n : Nat) :
    (s.presses (List.replicate n .step)).Sound := by
  induction n generalizing s with
  | zero => exact h
  | succ n ih =>
    rw [presses_steps_succ]
    exact ih h.press_step

/-- **So many presses of the key for one step** are so many steps at once. -/
theorem Sound.presses_replicate_succ (h : s.Sound) (n : Nat) :
    s.presses (List.replicate (n + 1) .step) = s.andThen (s.debugger.step s.store (n + 1)) := by
  induction n generalizing s with
  | zero => rfl
  | succ n ih =>
    rw [presses_steps_succ, ih h.press_step, Debugger.step_succ h.watchable, ← andThen_assoc]
    rfl

/-- What a key does is what a number of presses of the key for one step do. -/
theorem Sound.exists_press_eq (h : s.Sound) (key : Key) :
    ∃ n, s.press key = s.presses (List.replicate n .step) := by
  cases hs : s.debugger.finished with
  | true => exact ⟨0, h.press_of_finished hs key⟩
  | false =>
    cases key with
    | step => exact ⟨1, rfl⟩
    | stepTen => exact ⟨10, (h.presses_replicate_succ 9).symm⟩
    | runToEnd =>
      refine ⟨s.store.remaining s.debugger.machine + 1, ?_⟩
      rw [h.presses_replicate_succ, ← Debugger.runToEnd_of_unfinished hs]
      rfl

/-- **Any keys do what a number of presses of the key for one step do.** -/
theorem Sound.exists_presses_eq (h : s.Sound) (keys : List Key) :
    ∃ n, s.presses keys = s.presses (List.replicate n .step) := by
  induction keys using List.reverseRecOn with
  | nil => exact ⟨0, rfl⟩
  | append_singleton keys key ih =>
    obtain ⟨n, hn⟩ := ih
    obtain ⟨m, hm⟩ := (h.presses_replicate n).exists_press_eq key
    refine ⟨n + m, ?_⟩
    rw [presses_append, hn, List.replicate_add, presses_append]
    exact hm

/-- The key for the whole run finishes the debugger. -/
theorem Sound.finished_press_runToEnd (h : s.Sound) :
    (s.press .runToEnd).debugger.finished = true := by
  cases hs : s.debugger.finished with
  | true =>
    rw [h.press_of_finished hs]
    exact hs
  | false =>
    let n := s.store.remaining s.debugger.machine + 1
    obtain ⟨mount, -, hstep⟩ := Debugger.exists_step_eq h.watchable hs n
    show (s.debugger.runToEnd s.store).debugger.finished = true
    rw [Debugger.runToEnd_of_unfinished hs, hstep]
    show (s.debugger.finished || (s.store.watch _ _ n).ended) = true
    rw [Store.ended_watch h.watchable (Nat.lt_succ_self _), Bool.or_true]

/-- A step takes nothing away from the log. -/
theorem Sound.log_prefix_press_step (h : s.Sound) :
    s.debugger.log <+: (s.press .step).debugger.log := by
  cases hs : s.debugger.finished with
  | true =>
    have hsame : s.press .step = s := h.press_of_finished hs .step
    exact hsame.symm ▸ List.prefix_rfl
  | false =>
    obtain ⟨mount, -, hpress⟩ := h.exists_press_step hs
    rw [hpress]
    exact List.prefix_append _ _

theorem Sound.log_prefix_presses (h : s.Sound) (n : Nat) :
    s.debugger.log <+: (s.presses (List.replicate n .step)).debugger.log := by
  induction n generalizing s with
  | zero => exact List.prefix_rfl
  | succ n ih =>
    rw [presses_steps_succ]
    exact h.log_prefix_press_step.trans (ih h.press_step)

/-- **Of two rows of keys, one does what the other does and more.** If the second one finishes the
debugger, the first one has written a part of its log, and the same log if it finishes it too. -/
theorem Sound.presses_of_finished_presses (h : s.Sound) (keys keys' : List Key)
    (hfinished : (s.presses keys').debugger.finished = true) :
    (s.presses keys).debugger.log <+: (s.presses keys').debugger.log ∧
      ((s.presses keys).debugger.finished = true → s.presses keys = s.presses keys') := by
  obtain ⟨n, hn⟩ := h.exists_presses_eq keys
  obtain ⟨m, hm⟩ := h.exists_presses_eq keys'
  rw [hm] at hfinished
  rw [hn, hm]
  rcases Nat.le_total n m with hle | hle
  · -- the second row goes on from where the first one is
    obtain ⟨k, rfl⟩ := Nat.exists_eq_add_of_le hle
    have hsound := h.presses_replicate n
    rw [List.replicate_add, presses_append]
    exact ⟨hsound.log_prefix_presses k, fun hs => (hsound.presses_of_finished hs _).symm⟩
  · -- the second row has finished, so that the first one has nothing more to do
    obtain ⟨k, rfl⟩ := Nat.exists_eq_add_of_le hle
    have hsame := (h.presses_replicate m).presses_of_finished hfinished (List.replicate k .step)
    rw [List.replicate_add, presses_append, hsame]
    exact ⟨List.prefix_rfl, fun _ => rfl⟩

end Sound

end Scene

end SubseqMachines
