import SubseqMachines.Proofs.Debugger.Steps

/-!
# The course of a debugger

A debugger on a machine that has been built takes one course, and keys only tell how far along it
the debugger is. At each place the store is that of a number of ticks, the panels show the machine
as it is, and the debugger is finished exactly when the last tick has ended the run or broken down.

* `Debugger.exists_opened_eq`: a debugger that has just been opened.
* `Scene.Follows`, `Scene.Follows.press_step`: a place of the course, and the step to the next one.
* `Debugger.presses_of_built`: any keys leave the debugger at a place of the course, and whatever
  keys finish it leave it at the same one.
-/

namespace SubseqMachines

/-! ## Opening -/

namespace Debugger

section Opening

variable {d : Debugger} {σ : Store} {mount : Mount}

/-- Whether a debugger has been asked to run to the end is of no account for what it does. -/
theorem runToEnd_withAutoRun (hw : Store.Watchable σ d.machine) (hd : d.finished = false)
    (autoRun : Bool) :
    ({ d with autoRun } : Debugger).runToEnd σ =
      { d.runToEnd σ with debugger := { (d.runToEnd σ).debugger with autoRun } } := by
  let n := σ.remaining d.machine + 1
  let w := σ.watch d.machine d.counter n
  obtain ⟨mount, hmount, hstep⟩ := exists_step_eq hw hd n
  obtain ⟨mount', hmount', hstep'⟩ := exists_step_eq (d := { d with autoRun }) hw hd n
  obtain rfl : mount = mount' := Option.some.inj (hmount.symm.trans hmount')
  have hshown := showing_withAutoRun (d.written w) autoRun w.store (w.store.tapes mount)
  rw [runToEnd_of_unfinished hd, runToEnd_of_unfinished (d := { d with autoRun }) hd]
  change ({ d with autoRun } : Debugger).step σ n =
    { d.step σ n with debugger := { (d.step σ n).debugger with autoRun } }
  rw [hstep', hstep]
  exact congrArg (fun e => { store := w.store, debugger := e, trace := w.trace : Scene }) hshown

/-- The last line of the state panel tells that the debugger is finished. -/
theorem stateText_eq_append (d : Debugger) (σ : Store) (t : Tapes) :
    d.stateText σ t = ({ d with finished := false } : Debugger).stateText σ t ++
      if d.finished then "\n[bold reverse] HALTED [/bold reverse]" else "" := by
  unfold stateText
  have hnone : (if false = true then "\n[bold reverse] HALTED [/bold reverse]" else "") = "" := rfl
  rw [hnone, String.append_empty]

/-- **A debugger that has just been opened.** -/
theorem exists_opened_eq {machine : Handle Machine}
    (hmount : (σ.machines.get machine).mount = some mount) (counter : Handle Counter) :
    ∃ d : Debugger, d.machine = machine ∧ d.counter = counter ∧ d.finished = false ∧
      d.refresh σ = .ok d ∧
      opened σ machine counter false = { store := σ, debugger := d } ∧
      opened σ machine counter true = ({ d with autoRun := true } : Debugger).runToEnd σ := by
  obtain ⟨line, hline⟩ := Store.exists_describe hmount counter
  let t := σ.tapes mount
  let d (autoRun : Bool) : Debugger :=
    (({ machine, counter, autoRun } : Debugger).showing σ t).write [line]
  have hopened (autoRun : Bool) : opened σ machine counter autoRun =
      if autoRun then (d autoRun).runToEnd σ else { store := σ, debugger := d autoRun } := by
    rw [opened, refresh_of_mounted (d := { machine, counter, autoRun }) hmount, hline]
  have htext (autoRun : Bool) : ({ machine, counter, autoRun } : Debugger).stateText σ t =
      (d false).stateText σ t := stateText_congr rfl rfl rfl σ t
  -- the panels show the machine, whatever is written in the log
  have hpanels : (d false).showing σ t = d false := by
    unfold showing
    rw [← htext false]
    rfl
  refine ⟨d false, rfl, rfl, rfl, ?_, hopened false, ?_⟩
  · have hrefresh := refresh_of_mounted (d := d false) hmount
    rw [hpanels] at hrefresh
    exact hrefresh
  · have hauto : d true = { d false with autoRun := true } := by
      show (({ machine, counter, autoRun := true } : Debugger).showing σ t).write [line] = _
      unfold showing
      rw [htext true, ← htext false]
      rfl
    rw [hopened true, hauto]
    rfl

/-- **Opening a debugger that runs at once** is opening it and pressing the key for the whole
run. -/
theorem opened_autoRun {machine : Handle Machine} (hw : Store.Watchable σ machine)
    (counter : Handle Counter) :
    opened σ machine counter true =
      let whole := (opened σ machine counter false).press .runToEnd
      { whole with debugger := { whole.debugger with autoRun := true } } := by
  obtain ⟨mount, hmount⟩ := hw.exists_mount
  obtain ⟨d, rfl, -, hgoing, -, hopened, hauto⟩ := exists_opened_eq hmount counter
  have hwhole : (opened σ d.machine counter false).press .runToEnd = d.runToEnd σ := by
    rw [hopened]
    rfl
  rw [hauto, hwhole]
  exact runToEnd_withAutoRun hw hgoing true

end Opening

end Debugger

/-! ## The course -/

namespace Scene

/-- **A step of a debugger that is not finished is a tick**, and finishes it if the tick ends the
run or breaks down. -/
theorem Sound.press_step_eq {s : Scene} (h : s.Sound) (hs : s.debugger.finished = false) :
    let r := s.store.tick s.debugger.machine
    (s.press .step).debugger.machine = s.debugger.machine ∧
    (s.press .step).debugger.counter = s.debugger.counter ∧
    (s.press .step).store = r.store ∧
    ((s.press .step).debugger.finished = true ↔
      r.result = .ok false ∨ ∃ b, r.result = .error (.breakdown b)) ∧
    ((s.press .step).debugger.finished = false → r.result = .ok true) := by
  intro r
  obtain ⟨lines, ending, hwatch, hcases⟩ := Store.exists_watch_one h.watchable s.debugger.counter
  obtain ⟨mount, -, hpress⟩ := h.exists_press_step hs
  rw [hwatch] at hpress
  have hended : (s.press .step).debugger.finished =
      Watch.ended ⟨r.store, r.trace, lines, ending⟩ := by
    rw [hpress]
    show (s.debugger.finished || Watch.ended ⟨_, _, lines, ending⟩) = _
    rw [hs, Bool.false_or]
  refine ⟨by rw [hpress]; rfl, by rw [hpress]; rfl, by rw [hpress], ?_, ?_⟩
  · rw [hended]
    rcases hcases with ⟨hresult, rfl⟩ | ⟨hresult, rfl⟩ | ⟨b, hresult, rfl⟩
    · simp [Watch.ended, r, hresult]
    · simp [Watch.ended, r, hresult]
    · simp [Watch.ended, r, hresult]
  · rw [hended]
    intro hgoing
    rcases hcases with ⟨hresult, -⟩ | ⟨-, rfl⟩ | ⟨b, -, rfl⟩
    · exact hresult
    · cases hgoing
    · cases hgoing

/-- A place of the course of a debugger on a machine that has been built. Where the debugger is
depends on the number of ticks that the machine has made, and on nothing else. -/
structure Follows (built : Built) (s : Scene) : Prop where
  sound : s.Sound
  machine : s.debugger.machine = built.machine
  counter : s.debugger.counter = built.counter
  store : s.store = built.store.ticked built.machine (s.store.machines.get built.machine).ticks
  live : s.debugger.finished = false →
    Device.halted (s.store.machines.get built.machine).control = false
  finished : s.debugger.finished = true ↔
    ∃ n, (s.store.machines.get built.machine).ticks = n + 1 ∧
      (((built.store.ticked built.machine n).tick built.machine).result = .ok false ∨
        ∃ r, ((built.store.ticked built.machine n).tick built.machine).result =
          .error (.breakdown r))

section Follows

variable {built : Built} {s : Scene}

/-- **A step leads to the next place of the course**, if there is one. -/
theorem Follows.press_step (hf : Follows built s) : Follows built (s.press .step) := by
  cases hs : s.debugger.finished with
  | true =>
    rw [hf.sound.press_of_finished hs]
    exact hf
  | false =>
    obtain ⟨hmachine, hcounter, hstore, hended, hgoing⟩ := hf.sound.press_step_eq hs
    obtain ⟨mount, hsteady⟩ := hf.sound.watchable.steady
    rw [hf.machine] at hmachine hstore hended hgoing hsteady
    rw [hf.counter] at hcounter
    -- the tick is one more than those before
    have hticks : ((s.press .step).store.machines.get built.machine).ticks =
        (s.store.machines.get built.machine).ticks + 1 := by
      rw [hstore]
      exact Store.ticks_tick hsteady (hf.live hs)
    have hlast : (built.store.ticked built.machine
        (s.store.machines.get built.machine).ticks).tick built.machine =
          s.store.tick built.machine := by
      rw [← hf.store]
    refine
      { sound := hf.sound.press_step, machine := hmachine, counter := hcounter, store := ?_
        live := ?_, finished := ?_ }
    · rw [hticks, Store.ticked_succ, hlast, hstore]
    · intro hunfinished
      rw [hstore]
      exact Store.halted_of_tick (hgoing hunfinished)
    · rw [hended, hticks]
      constructor
      · intro hresult
        refine ⟨_, rfl, ?_⟩
        rw [hlast]
        exact hresult
      · rintro ⟨n, hn, hresult⟩
        obtain rfl : (s.store.machines.get built.machine).ticks = n := Nat.succ.inj hn
        rw [hlast] at hresult
        exact hresult

/-- Any keys lead to a place of the course. -/
theorem Follows.presses (hf : Follows built s) (keys : List Key) :
    Follows built (s.presses keys) := by
  obtain ⟨n, hn⟩ := hf.sound.exists_presses_eq keys
  rw [hn]
  clear hn
  induction n generalizing s with
  | zero => exact hf
  | succ n ih =>
    rw [presses_steps_succ]
    exact ih hf.press_step

/-- **The panels show the machine**, and that the debugger is finished if it is. -/
theorem Follows.exists_panels_eq (hf : Follows built s) :
    let blank : Debugger := { machine := built.machine, counter := built.counter }
    ∃ t, s.store.shown built.machine = .ok t ∧
      s.debugger.panels =
        { main := escapeMarkup t.main.render
          aux := escapeMarkup t.aux.render
          state :=
            blank.stateText s.store t ++
              if s.debugger.finished then "\n[bold reverse] HALTED [/bold reverse]" else "" } := by
  obtain ⟨mount, hmount⟩ := hf.sound.watchable.exists_mount
  let t := s.store.tapes mount
  have hshown : s.store.shown s.debugger.machine = .ok t := by
    rw [Store.shown, hmount]
  have hpanels : s.debugger.showing s.store t = s.debugger :=
    Except.ok.inj ((Debugger.refresh_of_mounted hmount).symm.trans hf.sound.panels)
  have hunfinished := Debugger.stateText_congr (d := { s.debugger with finished := false })
    (e := { machine := built.machine, counter := built.counter }) hf.machine hf.counter rfl
    s.store t
  rw [hf.machine] at hshown
  refine ⟨t, hshown, ?_⟩
  rw [← hunfinished, ← Debugger.stateText_eq_append]
  exact (congrArg Debugger.panels hpanels).symm

end Follows

end Scene

/-! ## Machines that have been built -/

namespace Debugger

section Built

variable {σ : Store} {built : Built}

/-- A debugger that is opened on a machine that has been built is at the start of its course. -/
theorem follows_opened
    (hbuilt : (∃ name text word seed unseeded, σ.build name text word seed unseeded = .ok built) ∨
      ∃ kind t coin, σ.enter kind t coin = .ok built) :
    (opened built.store built.machine built.counter false).Follows built := by
  obtain ⟨⟨kind, hstart⟩, hticks, hw⟩ := Store.exists_start_of_built hbuilt
  obtain ⟨mount, hmount⟩ := hw.exists_mount
  obtain ⟨d, hd, hcounter, hgoing, hrefresh, hopened, -⟩ := exists_opened_eq hmount built.counter
  have hlive : Device.halted (built.store.machines.get built.machine).control = false := by
    rw [hstart]
    exact Control.halted_start kind
  have hfinished : d.finished = true ↔ ∃ n,
      (built.store.machines.get built.machine).ticks = n + 1 ∧
        (((built.store.ticked built.machine n).tick built.machine).result = .ok false ∨
          ∃ r, ((built.store.ticked built.machine n).tick built.machine).result =
            .error (.breakdown r)) := by
    rw [hticks, hgoing]
    -- neither side holds: there is no last tick
    constructor
    · intro htrue
      cases htrue
    · rintro ⟨n, hn, -⟩
      cases hn
  rw [hopened]
  exact
    { sound := { watchable := hd ▸ hw, panels := hrefresh, fault := rfl }
      machine := hd
      counter := hcounter
      store := by rw [hticks]; rfl
      live := fun _ => hlive
      finished := hfinished }

/-- **The outcome of a debugger does not depend on how it is stepped.** On a machine that has been
built, any keys write the first lines of the log that the key for the whole run writes, and leave
what that key leaves as soon as the debugger is finished. The store is that of a number of ticks,
and the debugger is finished exactly when the last of them has ended the run or broken down. The
panels show the machine. Once the debugger is finished, no key changes anything. The key for ten
steps is ten keys for one step, and a debugger that runs as soon as it is opened does what the key
for the whole run does. -/
theorem presses_of_built
    (hbuilt : (∃ name text word seed unseeded, σ.build name text word seed unseeded = .ok built) ∨
      ∃ kind t coin, σ.enter kind t coin = .ok built) (keys : List Key) :
    let h := built.machine
    let start := opened built.store h built.counter
    let whole := (start false).press .runToEnd
    let now := (start false).presses keys
    let ticks := (now.store.machines.get h).ticks
    now.fault = none ∧
    whole.debugger.finished = true ∧
    now.debugger.log <+: whole.debugger.log ∧
    (now.debugger.finished = true → now = whole) ∧
    now.store = built.store.ticked h ticks ∧
    (now.debugger.finished = true ↔ ∃ n, ticks = n + 1 ∧
      (((built.store.ticked h n).tick h).result = .ok false ∨
        ∃ r, ((built.store.ticked h n).tick h).result = .error (.breakdown r))) ∧
    (∃ t, now.store.shown h = .ok t ∧
      now.debugger.panels =
        { main := escapeMarkup t.main.render
          aux := escapeMarkup t.aux.render
          state :=
            ({ machine := h, counter := built.counter } : Debugger).stateText now.store t ++
              if now.debugger.finished then "\n[bold reverse] HALTED [/bold reverse]" else "" }) ∧
    (now.debugger.finished = true → ∀ key, now.press key = now) ∧
    now.press .stepTen = now.presses (List.replicate 10 .step) ∧
    start true = { whole with debugger := { whole.debugger with autoRun := true } } := by
  obtain ⟨-, -, hw⟩ := Store.exists_start_of_built hbuilt
  have hauto := opened_autoRun hw built.counter
  have hopened := follows_opened hbuilt
  have hnow := hopened.presses keys
  have hwhole := hopened.sound.finished_press_runToEnd
  obtain ⟨hlog, hsame⟩ := hopened.sound.presses_of_finished_presses keys [.runToEnd] hwhole
  have hten := (hnow.sound.presses_replicate_succ 9).symm
  exact ⟨hnow.sound.fault, hwhole, hlog, hsame, hnow.store, hnow.finished, hnow.exists_panels_eq,
    fun hfinished key => hnow.sound.press_of_finished hfinished key, hten, hauto⟩

/-- A sampler whose coin runs out in the middle of the ten steps. -/
theorem presses_of_built_out_of_flips :
    let t : Tapes := ⟨.startingAt .blank [.main .a, .main .b, .hash], .blank⟩
    ∃ built, (Store.initial default).enter .sampler t (.scripted [true]) = .ok built ∧
      let start := opened built.store built.machine built.counter
      let now := (start false).presses [.step, .stepTen]
      now.debugger.log[4]? = some "\\[ERROR] Scripted coin ran out of flips" ∧
        now = (start false).press .runToEnd ∧ ∀ key, now.press key = now := by
  intro t
  let leaves (built : Built) : Debugger :=
    ((opened built.store built.machine built.counter false).presses [.step, .stepTen]).debugger
  let start : Except Fault Built := (Store.initial default).enter .sampler t (.scripted [true])
  obtain ⟨built, hbuilt⟩ : ∃ built, start = .ok built := ⟨_, rfl⟩
  have hleaves : start.toOption.map
      (fun built => ((leaves built).finished, (leaves built).log[4]?)) =
        some (true, some "\\[ERROR] Scripted coin ran out of flips") := by
    decide +kernel
  rw [hbuilt] at hleaves
  obtain ⟨hfinished, hlog⟩ := Prod.mk.inj (Option.some.inj hleaves)
  obtain ⟨-, -, -, hwhole, -, -, -, hkeys, -⟩ :=
    presses_of_built (.inr ⟨.sampler, t, .scripted [true], hbuilt⟩) [.step, .stepTen]
  exact ⟨built, hbuilt, hlog, hwhole hfinished, hkeys hfinished⟩

end Built

end Debugger

end SubseqMachines
