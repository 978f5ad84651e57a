import SubseqMachines.Store.Build

/-!
# The debugger

A debugger steps one machine and shows it: a panel for each tape, a panel for the state and the
counts, and a log with one line for each step. Keys step it once, ten times or to the end. Once the
machine has stopped or failed, the debugger is finished and its keys step nothing.

A breakdown or a misuse of the machine is logged and finishes the debugger. A refusal escapes, and
so does the attempt to show a machine that has surrendered its tapes.

What one key does is taken to be over before the next key is pressed. For the key `r` this is an
assumption: it may be carried out in the background, and what another key does in the meantime is
not told here.

* `Store.describe` is the line for a machine, `Debugger.opened` starts a debugger;
* `Debugger.press` is what a key does;
* `Store.watchToEnd` steps to the end and `Store.watch` a number of times.
-/

namespace SubseqMachines

/-! ## Showing a machine -/

/-- A text in which no bracket starts markup. -/
def escapeMarkup (text : String) : String :=
  String.ofList (text.toList.flatMap fun c => if c = '[' then ['\\', c] else [c])

/-- A text filled up with spaces to a width. -/
def padRight (width : Nat) (text : String) : String :=
  text ++ String.ofList (List.replicate (width - text.length) ' ')

/-- The tapes of a machine that has not surrendered them. -/
def Store.shown (σ : Store) (h : Handle Machine) : Except Fault Tapes :=
  match (σ.machines.get h).mount with
  | none => .error .nothingToShow
  | some mount => .ok (σ.tapes mount)

/-- A machine in one line, with the value of a counter. -/
def Store.describe (σ : Store) (h : Handle Machine) (counter : Handle Counter) :
    Except Fault String := do
  let t ← σ.shown h
  let m := σ.machines.get h
  return m.control.kind.label ++ " " ++ padRight 20 m.control.name
    ++ " ticks=" ++ toString m.ticks
    ++ " steps=" ++ toString (σ.counters.get counter).value
    ++ "  main=" ++ t.main.render ++ "  aux=" ++ t.aux.render

/-! ## Debuggers -/

/-- The texts of the three panels. -/
structure Panels where
  main : String := ""
  aux : String := ""
  state : String := ""
  deriving DecidableEq, Repr

/-- A debugger for a machine, with a counter to show. It may have been asked to run to the end as
soon as it is opened. -/
structure Debugger where
  machine : Handle Machine
  counter : Handle Counter
  autoRun : Bool := false
  finished : Bool := false
  panels : Panels := {}
  log : List String := []
  deriving DecidableEq, Repr

/-- What an action on a debugger leaves, and the fault that escapes from it, if one does. -/
structure Scene where
  store : Store
  debugger : Debugger
  trace : List Event := []
  fault : Option Fault := none

namespace Debugger

/-- The text of the state panel. -/
def stateText (d : Debugger) (σ : Store) (t : Tapes) : String :=
  let m := σ.machines.get d.machine
  "[bold]Machine:[/bold] " ++ m.control.kind.label
    ++ "    [bold]State:[/bold] " ++ m.control.name
    ++ "\n[bold]Ticks:[/bold] " ++ toString m.ticks
    ++ "    [bold]Steps:[/bold] " ++ toString (σ.counters.get d.counter).value
    ++ "\n[bold]Main head:[/bold] " ++ toString t.main.head
    ++ "  [bold]Aux head:[/bold] " ++ toString t.aux.head
    ++ (if m.control.kind = .trial then
          "\n[bold]Witness:[/bold] " ++ m.control.witness?.getD "(not drawn)"
            ++ "  [bold]Blocks verified:[/bold] " ++ toString m.control.verified
        else "")
    ++ (if d.finished then "\n[bold reverse] HALTED [/bold reverse]" else "")

/-- The debugger with its panels brought up to date. -/
def refresh (d : Debugger) (σ : Store) : Except Fault Debugger := do
  let t ← σ.shown d.machine
  return { d with
    panels :=
      { main := escapeMarkup t.main.render
        aux := escapeMarkup t.aux.render
        state := d.stateText σ t } }

/-- The debugger with lines added to its log. -/
def write (d : Debugger) (lines : List String) : Debugger :=
  { d with log := d.log ++ lines.map escapeMarkup }

/-- A scene whose debugger has its panels brought up to date, if there is something to show. -/
def refreshed (d : Debugger) (σ : Store) (trace : List Event) : Scene :=
  match d.refresh σ with
  | .ok d => { store := σ, debugger := d, trace }
  | .error f => { store := σ, debugger := d, trace, fault := some f }

end Debugger

/-! ## Watched steps -/

/-- How a row of watched steps ends: the machine is still going, or it has halted or failed. -/
inductive Ending where
  | going
  | halted
  | failed (f : Fault)
  deriving DecidableEq, Repr

/-- A row of watched steps: the store after them, what was reported, a line for each step that did
not fail, and the ending. -/
structure Watch where
  store : Store
  trace : List Event
  lines : List String
  ending : Ending

namespace Store

/-- A tick, and the line for the machine after it. -/
def watchTick (σ : Store) (h : Handle Machine) (counter : Handle Counter) :
    Reply (Bool × String) :=
  let r := σ.tick h
  { store := r.store, trace := r.trace
    result := do
      let running ← r.result
      let line ← r.store.describe h counter
      return (running, line) }

/-- At most a number of watched steps, after a trace and lines that are kept backwards. -/
def watchOn (h : Handle Machine) (counter : Handle Counter) :
    Nat → Store → List Event → List String → Watch
  | 0, σ, trace, lines =>
    { store := σ, trace := trace.reverse, lines := lines.reverse, ending := .going }
  | n + 1, σ, trace, lines =>
    let r := σ.watchTick h counter
    let trace := r.trace.reverse ++ trace
    match r.result with
    | .error f =>
      { store := r.store, trace := trace.reverse, lines := lines.reverse, ending := .failed f }
    | .ok (true, line) => watchOn h counter n r.store trace (line :: lines)
    | .ok (false, line) =>
      { store := r.store, trace := trace.reverse, lines := (line :: lines).reverse
        ending := .halted }

/-- At most a number of watched steps. -/
def watch (σ : Store) (h : Handle Machine) (counter : Handle Counter) (n : Nat) : Watch :=
  watchOn h counter n σ [] []

/-- Watched steps until the machine halts or fails. There are no more of them than the machine has
steps left, and one to notice the halt. -/
def watchToEnd (σ : Store) (h : Handle Machine) (counter : Handle Counter) : Watch :=
  σ.watch h counter (σ.remaining h + 1)

end Store

/-! ## Keys -/

/-- What a key asks for. -/
inductive Key where
  | step
  | stepTen
  | runToEnd
  deriving DecidableEq, Repr

/-- The key of a name. -/
def Key.ofName? : String → Option Key
  | "s" => some step
  | "space" => some step
  | "n" => some stepTen
  | "r" => some runToEnd
  | _ => none

namespace Debugger

/-- Whether a fault of a step is logged rather than passed on. -/
def isContained : Fault → Bool
  | .breakdown _ => true
  | .misuse _ => true
  | .refusal _ => false
  | .nothingToShow => false
  | .noLength => false
  | .noSeed => false
  | .tooLong => false

/-- The debugger after watched steps. -/
def conclude (d : Debugger) (w : Watch) : Scene :=
  let d := d.write w.lines
  match w.ending with
  | .going => d.refreshed w.store w.trace
  | .halted => { d with finished := true }.refreshed w.store w.trace
  | .failed f =>
    if isContained f then
      { d.write ["[ERROR] " ++ f.message] with finished := true }.refreshed w.store w.trace
    else { store := w.store, debugger := d, trace := w.trace, fault := some f }

/-- Step to the end, unless the debugger is finished. The panels are brought up to date in any
case. -/
def runToEnd (d : Debugger) (σ : Store) : Scene :=
  if d.finished then d.refreshed σ []
  else d.conclude (σ.watchToEnd d.machine d.counter)

/-- Step a number of times, unless the debugger is finished. -/
def step (d : Debugger) (σ : Store) (n : Nat) : Scene :=
  if d.finished then { store := σ, debugger := d }
  else d.conclude (σ.watch d.machine d.counter n)

/-- What a key does. -/
def press (d : Debugger) (σ : Store) : Key → Scene
  | .step => d.step σ 1
  | .stepTen => d.step σ 10
  | .runToEnd => d.runToEnd σ

/-- A debugger that has just been opened: the panels are filled and the machine is described in the
log. With `autoRun` it then runs to the end. -/
def opened (σ : Store) (machine : Handle Machine) (counter : Handle Counter) (autoRun : Bool) :
    Scene :=
  let d : Debugger := { machine, counter, autoRun }
  match d.refresh σ, σ.describe machine counter with
  | .error f, _ => { store := σ, debugger := d, fault := some f }
  | .ok d, .error f => { store := σ, debugger := d, fault := some f }
  | .ok d, .ok line =>
    let d := d.write [line]
    if autoRun then d.runToEnd σ else { store := σ, debugger := d }

end Debugger

end SubseqMachines
