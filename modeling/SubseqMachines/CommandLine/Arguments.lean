import SubseqMachines.CommandLine.Grammar

/-!
# The commands and their arguments

There are four commands.

* `run -n N -m M` runs a matcher on a block and a word of one letter.
* `verify BLOCK WORD` runs a matcher.
* `check TEXT` runs a trial, with `--seed` for its coin.
* `debug TEXT` opens a debugger on a machine, which `--machine`, `--word` and `--seed` describe;
  with `--run` it runs to the end at once.

The flag `-v` before the command asks for the trace.

* `Invocation.parse` reads a command line.
-/

namespace SubseqMachines.CommandLine

/-! ## Commands -/

/-- A command with its arguments. -/
inductive Command where
  | run (n m : Given Int)
  | verify (block word : Given String)
  | check (text : Given String) (seed : Option (Given Int))
  | debug (text machine : Given String) (word : Option (Given String))
      (seed : Option (Given Int)) (autoRun : Bool)
  deriving DecidableEq, Repr

/-- A command, and whether the trace is asked for. -/
structure Invocation where
  verbose : Bool
  command : Command
  deriving DecidableEq, Repr

/-! ## Parts of grammars -/

section Parts

variable {σ : Type}

/-- The option that shows how a command is used. -/
def helpOption : Opt σ :=
  { names := ["-h", "--help"], effect := .help }

/-- An option that takes an integer. -/
def integerOption (name : String) (set : Given Int → σ → σ) : Opt σ :=
  { names := [name]
    effect := .value fun title given x =>
      match given with
      | .nothing => .ok (set .nothing x)
      | .value text =>
        match Text.readInt? text with
        | some i => .ok (set (.value i) x)
        | none => .error (.notInteger title text) }

/-- An option that takes a text. -/
def textOption (name : String) (set : Given String → σ → σ) : Opt σ :=
  { names := [name], effect := .value fun _ given x => .ok (set given x) }

/-- An option that takes one of a few texts. -/
def choiceOption (name : String) (choices : List String) (set : Given String → σ → σ) : Opt σ :=
  { names := [name]
    effect := .value fun title given x =>
      match given with
      | .nothing => .ok (set .nothing x)
      | .value text =>
        if choices.contains text then .ok (set (.value text) x)
        else .error (.notAmong title text choices) }

/-- An operand of one argument. -/
def plainOperand (set : Given String → σ → σ) : Operand σ :=
  { take := fun args x => .ok (set (args.head?.elim .nothing .value) x) }

/-- Read the arguments of a command into a value and make the command of it. The names of what is
missing make an error; what is left over is handed on. -/
def Grammar.command (g : Grammar σ) (empty : σ) (make : σ → Except (List String) Command)
    (args : List String) : Except Stop (Command × List String) := do
  let (x, leftOver) ← g.parse args empty
  match make x with
  | .ok command => .ok (command, leftOver)
  | .error names => .error (.error g.usage (.missing names))

end Parts

/-- The names among which those without a value are. -/
def absent (values : List (String × Bool)) : List String :=
  (values.filter fun v => !v.2).map (·.1)

/-! ## The grammars of the commands -/

/-- The lengths of the run command. -/
structure Lengths where
  n : Option (Given Int) := none
  m : Option (Given Int) := none

def runGrammar : Grammar Lengths where
  usage := { command := "tapemachine run", text := "usage: tapemachine run [-h] -n N -m M\n" }
  options :=
    [helpOption, integerOption "-n" fun i x => { x with n := some i },
      integerOption "-m" fun i x => { x with m := some i }]
  operands := []

def runCommand (x : Lengths) : Except (List String) Command :=
  match x.n, x.m with
  | some n, some m => .ok (.run n m)
  | n, m => .error (absent [("-n", n.isSome), ("-m", m.isSome)])

/-- The operands of the verify command. -/
structure Question where
  block : Option (Given String) := none
  word : Option (Given String) := none

def verifyGrammar : Grammar Question where
  usage :=
    { command := "tapemachine verify", text := "usage: tapemachine verify [-h] block word\n" }
  options := [helpOption]
  operands :=
    [plainOperand fun g x => { x with block := some g },
      plainOperand fun g x => { x with word := some g }]

def verifyCommand (x : Question) : Except (List String) Command :=
  match x.block, x.word with
  | some block, some word => .ok (.verify block word)
  | block, word => .error (absent [("block", block.isSome), ("word", word.isSome)])

/-- The arguments of the check command. -/
structure Draw where
  text : Option (Given String) := none
  seed : Option (Given Int) := none

def checkGrammar : Grammar Draw where
  usage :=
    { command := "tapemachine check", text := "usage: tapemachine check [-h] [--seed SEED] text\n" }
  options := [helpOption, integerOption "--seed" fun i x => { x with seed := some i }]
  operands := [plainOperand fun g x => { x with text := some g }]

def checkCommand (x : Draw) : Except (List String) Command :=
  match x.text with
  | some text => .ok (.check text x.seed)
  | none => .error ["text"]

/-- The arguments of the debug command. -/
structure Setup where
  text : Option (Given String) := none
  machine : Given String := .value "m3"
  word : Option (Given String) := none
  seed : Option (Given Int) := none
  autoRun : Bool := false

def debugGrammar : Grammar Setup where
  usage :=
    { command := "tapemachine debug"
      text :=
        "usage: tapemachine debug [-h] [--machine \x7bm1,m2,m3\x7d] [--word WORD]\n"
        ++ "                         [--seed SEED] [--run]\n"
        ++ "                         text\n" }
  options :=
    [helpOption, choiceOption "--machine" ["m1", "m2", "m3"] fun s x => { x with machine := s },
      textOption "--word" fun s x => { x with word := some s },
      integerOption "--seed" fun i x => { x with seed := some i },
      { names := ["--run"], effect := .flag fun x => { x with autoRun := true } }]
  operands := [plainOperand fun g x => { x with text := some g }]

def debugCommand (x : Setup) : Except (List String) Command :=
  match x.text with
  | some text => .ok (.debug text x.machine x.word x.seed x.autoRun)
  | none => .error ["text"]

/-! ## The whole command line -/

/-- What the arguments have said so far: the flag, the command, and what the command has left
over. -/
structure Outline where
  verbose : Bool := false
  command : Option (Command × List String) := none

/-- The names of the commands. -/
def commandNames : List String := ["run", "verify", "check", "debug"]

def mainUsage : Usage where
  command := "tapemachine"
  text := "usage: tapemachine [-h] [-v] \x7brun,verify,check,debug\x7d ...\n"

/-- Read the arguments of the named command. -/
def readCommand (name : String) (args : List String) : Except Stop (Command × List String) :=
  match name with
  | "run" => runGrammar.command {} runCommand args
  | "verify" => verifyGrammar.command {} verifyCommand args
  | "check" => checkGrammar.command {} checkCommand args
  | "debug" => debugGrammar.command {} debugCommand args
  | _ => .error (.error mainUsage (.notAmong "command" name commandNames))

def mainGrammar : Grammar Outline where
  usage := mainUsage
  options :=
    [helpOption,
      { names := ["-v", "--verbose"], effect := .flag fun x => { x with verbose := true } }]
  operands :=
    [{ greedy := true
       take := fun args x => do
        let command ← readCommand (args.headD "") args.tail
        return { x with command := some command } }]

/-- Read a command line. -/
def Invocation.parse (args : List String) : Except Stop Invocation := do
  let (x, leftOver) ← mainGrammar.parse args {}
  match x.command with
  | none => .error (.error mainUsage (.missing ["command"]))
  | some (command, more) =>
    if (leftOver ++ more).isEmpty then .ok { verbose := x.verbose, command }
    else .error (.error mainUsage (.unrecognized (leftOver ++ more)))

end SubseqMachines.CommandLine
