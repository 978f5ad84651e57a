import SubseqMachines.CommandLine.Arguments
import SubseqMachines.Debugger
import SubseqMachines.Subsequence

/-!
# What the commands answer

A command either reports its result in full or refuses. The report is a list of lines, or for the
debug command a debugger; the trace is kept beside it. A command line ends with an exit code and two
texts, one for the answer and one for errors and, if it was asked for, the trace.

The number of characters in a text is limited, and the run command goes by lengths that may be
beyond the limit. Then it neither reports nor refuses. Otherwise there is always enough memory.

* `Command.execute` carries out a command;
* `Exit.ofCommandLine` answers a whole command line.
-/

namespace SubseqMachines.CommandLine

/-- What a command reports: the trace, and the lines of its answer or the reason why there is none.
The debug command shows a debugger instead. -/
structure Report where
  trace : List Event := []
  result : Except Fault (List String)
  debugger : Option Debugger := none

namespace Report

/-- A report of a fault. -/
def failed (f : Fault) (trace : List Event) : Report :=
  { trace, result := .error f }

/-- The line of a verdict. -/
def verdictLine (verdict : Bool) : String :=
  "Result: " ++ toString verdict

/-- The run of a matcher on tapes, with lines made of its outcome. -/
def ofMatcher (t : Tapes) (lines : Outcome Matcher.State → List String) : Report :=
  match Matcher.refusal? t with
  | some r => failed (.refusal r) []
  | none =>
    let o := Device.run Matcher.State.nextLetter { toTapes := t, coin := default }
    { trace := o.trace
      result := o.fault.elim (.ok (verdictLine (o.state = .accept) :: lines o)) .error }

end Report

namespace Command

/-- The greatest number of characters in a text, which is one less than a power of two. -/
def maxLength : Nat :=
  0x7fffffffffffffff

/-- The text of one letter that has a given length, unless there is none that is so long. -/
def unary (length : Int) : Except Fault String :=
  if length ≤ maxLength then .ok (String.ofList (List.replicate length.toNat 'a'))
  else .error .tooLong

/-- A matcher on a block and a word of one letter, with the number of its head operations beside the
one that was to be expected. The lengths have to be at least one. -/
def runLengths (n m : Int) : Report :=
  if n < 1 || m < 1 then .failed (.refusal .lengths) []
  else
    match (do matcherTapes (← unary n) (← unary m)) with
    | .error f => .failed f []
    | .ok t =>
      .ofMatcher t fun o =>
        ["n=" ++ toString n, "m=" ++ toString m, "Steps: " ++ toString o.cost.total,
          "Predicted steps: " ++ toString (matcherSteps n m)]

/-- A matcher on a block and a word, with the tapes as it leaves them. -/
def verifyWord (block word : String) : Report :=
  match matcherTapes block word with
  | .error f => .failed f []
  | .ok t =>
    .ofMatcher t fun o =>
      ["Steps: " ++ toString o.cost.total, "Main: " ++ o.bench.main.render,
        "Aux:  " ++ o.bench.aux.render]

/-- The run command on lengths as they were given. The first one is looked at first. -/
def runGiven : Given Int → Given Int → Report
  | .value n, .value m => runLengths n m
  | .value n, .nothing => .failed (if n < 1 then .refusal .lengths else .noLength) []
  | .nothing, _ => .failed .noLength []

/-- The seed for a coin, if there is one. -/
def coinSeed : Option (Given Int) → Except Fault (Option Int)
  | none => .ok none
  | some .nothing => .error .noSeed
  | some (.value seed) => .ok (some seed)

/-- The seed of the check command as the trace shows it. -/
def shownSeed : Option (Given Int) → String
  | none => "None"
  | some .nothing => "[]"
  | some (.value seed) => toString seed

/-- A trial on a text, with its witness. -/
def checkText (text : String) (seed : Option (Given Int)) (unseeded : Twister) : Report :=
  match (do return (← trialTapes text, ← coinSeed seed)) with
  | .error f => .failed f []
  | .ok (t, seed) =>
    match Trial.refusal? t with
    | some r => .failed (.refusal r) []
    | none =>
      let o := Device.run Trial.State.drawing { toTapes := t, coin := .ofSeed? seed unseeded }
      { trace := o.trace
        result := o.fault.elim
          (.ok [Report.verdictLine (o.state.phase = .accept),
            "Witness: " ++ o.state.witness?.getD "",
            "Blocks verified: " ++ toString o.state.verified,
            "Steps: " ++ toString o.cost.total])
          .error }

/-- The seed for the coin of the named machine. A matcher flips none, and the tapes of the others
come before their coin. -/
def machineSeed (machine text : String) (word : Option String) (seed : Option (Given Int)) :
    Except Fault (Option Int) :=
  match MachineKind.ofName? machine with
  | none | some .matcher => .ok (seed.bind Given.value?)
  | some kind => do
    let _ ← kind.layout text word
    coinSeed seed

/-- A machine as the debug command describes it. -/
def buildGiven (text : String) (machine : Given String) (word : Option String)
    (seed : Option (Given Int)) (chance : Chance) : Except Fault Built :=
  match machine with
  | .nothing => .error (.refusal .namelessMachine)
  | .value name => do
    let seed ← machineSeed name text word seed
    (Store.initial chance.common).build name text word seed chance.unseeded

/-- A debugger on a machine. -/
def debugMachine (text : String) (machine : Given String) (word : Option String)
    (seed : Option (Given Int)) (autoRun : Bool) (chance : Chance) : Report :=
  match buildGiven text machine word seed chance with
  | .error f => .failed f []
  | .ok built =>
    let scene := Debugger.opened built.store built.machine built.counter autoRun
    { trace := scene.trace, result := scene.fault.elim (.ok []) .error
      debugger := scene.debugger }

/-- Carry out a command. -/
def execute (command : Command) (chance : Chance) : Report :=
  match command with
  | run n m => runGiven n m
  | verify block word => verifyWord block.text word.text
  | check text seed =>
    let r := checkText text.text seed chance.unseeded
    { r with trace := .check (text.value?.getD "[]") (shownSeed seed) :: r.trace }
  | debug text machine word seed autoRun =>
    debugMachine text.text machine (word.bind Given.value?) seed autoRun chance

end Command

/-! ## Exits -/

/-- How a command line ends. -/
structure Exit where
  code : Nat
  stdout : String := ""
  stderr : String := ""
  debugger : Option Debugger := none

namespace Exit

/-- Lines as one text, each with a line feed at its end. -/
def unlines (lines : List String) : String :=
  String.join (lines.map (· ++ "\n"))

/-- An event as a line of the trace that is shown. -/
def debugLine (e : Event) : String :=
  "[DEBUG] tapemachine." ++ e.line

/-- How a command line ends that is not carried out. -/
def ofStop : Stop → Exit
  | .help usage => { code := 0, stdout := usage.text }
  | .error usage e =>
    { code := 2, stderr := usage.text ++ usage.command ++ ": error: " ++ e.message ++ "\n" }

/-- How a command line ends with a report. Anything but a refusal is passed on. -/
def ofReport (showTrace : Bool) (r : Report) : Except Fault Exit :=
  let trace := if showTrace then unlines (r.trace.map debugLine) else ""
  match r.result with
  | .ok lines =>
    .ok { code := 0, stdout := unlines lines, stderr := trace, debugger := r.debugger }
  | .error (.refusal reason) =>
    .ok { code := 2, stderr := trace ++ unlines ["error: " ++ reason.message] }
  | .error f => .error f

/-- How a command line ends. With a handler of its own for the trace, the caller does without having
it shown. -/
def ofCommandLine (args : List String) (ownHandler : Bool) (chance : Chance) :
    Except Fault Exit :=
  match Invocation.parse args with
  | .error stop => .ok (ofStop stop)
  | .ok i => ofReport (i.verbose && !ownHandler) (i.command.execute chance)

end Exit

end SubseqMachines.CommandLine
