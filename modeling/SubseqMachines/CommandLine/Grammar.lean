import SubseqMachines.Text.Integer
import SubseqMachines.Text.Quoted

/-!
# Command line grammars

A grammar says which options and which operands a command line may have, and what each of them does
to a value of some type. Its rules:

* An option has names, short ones such as `-n` and long ones such as `--seed`. It is a flag or takes
  a value. A long name may be cut short as long as only one name begins so.
* A value is the next operand, or it is joined to the name: `--seed=5`, `-n=5`, `-n5`. What is
  joined to a short flag, also by a `=`, is the next short option and what is joined to that in
  turn.
* A `--` that is joined to a name as its value stands for nothing, and is not looked at further.
* An argument that starts with `-` and is no option of the grammar is an operand if it is `-`
  itself, if it is a negative number, or if it has a space in it. Any other is left over.
* After `--` everything is an operand. The `--` itself belongs to the operand next to it.
* What no option and no operand of the grammar takes is left over too.

Arguments are taken from left to right, and the first error found in this way counts, except that an
ambiguous name is an error before anything is taken.

* `Grammar.classify` tells options and operands apart, `Grammar.parse` takes them;
* `UsageError.message` gives the wording of the errors.
-/

namespace SubseqMachines.CommandLine

/-! ## Errors -/

/-- What is wrong with a command line. -/
inductive UsageError where
  /-- More than one name begins like this. -/
  | ambiguous (argument : String) (names : List String)
  /-- A flag is given a value. -/
  | ignoredValue (name value : String)
  /-- An option is given no value. -/
  | valueMissing (name : String)
  /-- A value has to be an integer. -/
  | notInteger (name value : String)
  /-- A value has to be one of a few. -/
  | notAmong (name value : String) (choices : List String)
  /-- Something has to be given. -/
  | missing (names : List String)
  /-- Something is left over. -/
  | unrecognized (arguments : List String)
  deriving DecidableEq, Repr

/-- The wording of an error. -/
def UsageError.message : UsageError → String
  | ambiguous argument names =>
    "ambiguous option: " ++ argument ++ " could match " ++ String.intercalate ", " names
  | ignoredValue name value =>
    "argument " ++ name ++ ": ignored explicit argument " ++ Text.quoted value
  | valueMissing name => "argument " ++ name ++ ": expected one argument"
  | notInteger name value => "argument " ++ name ++ ": invalid int value: " ++ Text.quoted value
  | notAmong name value choices =>
    "argument " ++ name ++ ": invalid choice: " ++ Text.quoted value
      ++ " (choose from " ++ String.intercalate ", " (choices.map Text.quoted) ++ ")"
  | missing names =>
    "the following arguments are required: " ++ String.intercalate ", " names
  | unrecognized arguments => "unrecognized arguments: " ++ String.intercalate " " arguments

/-- The name of a command and the text that says how it is used. -/
structure Usage where
  command : String
  text : String
  deriving DecidableEq, Repr

/-- Why the reading of a command line stops: its use is asked for, or there is an error. -/
inductive Stop where
  | help (usage : Usage)
  | error (usage : Usage) (e : UsageError)
  deriving DecidableEq, Repr

/-! ## Grammars -/

/-- A value as it was given: nothing, if the argument was no more than a `--`. -/
inductive Given (α : Type) where
  | nothing
  | value (a : α)
  deriving DecidableEq, Repr

namespace Given

/-- What was given, if it was not nothing. -/
def value? {α : Type} : Given α → Option α
  | nothing => none
  | value a => some a

/-- A text as it was given. Nothing is an empty text. -/
def text (given : Given String) : String :=
  given.value?.getD ""

/-- A value as an argument gives it. -/
def ofArgument (arg : String) : Given String :=
  if arg = "--" then nothing else value arg

end Given

/-- What an option does. -/
inductive Effect (σ : Type) where
  /-- Show how the command is used. -/
  | help
  | flag (f : σ → σ)
  /-- Take in a value. The function is given the option's name for messages. -/
  | value (f : String → Given String → σ → Except UsageError σ)

/-- An option with its names. -/
structure Opt (σ : Type) where
  names : List String
  effect : Effect σ

/-- The name of an option in messages. -/
def Opt.title {σ : Type} (o : Opt σ) : String :=
  String.intercalate "/" o.names

/-- An operand. One that is `greedy` takes all that follows it, options included. The arguments of
an operand do not include a `--` that stands before or after it. -/
structure Operand (σ : Type) where
  greedy : Bool := false
  take : List String → σ → Except Stop σ

/-- The options and the operands of a command line. -/
structure Grammar (σ : Type) where
  usage : Usage
  options : List (Opt σ)
  operands : List (Operand σ)

variable {σ : Type}

/-! ## Telling options and operands apart -/

/-- What an argument is. An option may have a text joined to its name. -/
inductive Role (σ : Type) where
  | operand
  /-- The first `--`. -/
  | separator
  | option (o : Opt σ) (name : String) (joined : Option (List Char))
  /-- Like an option, but none of the grammar. -/
  | stranger

/-- An argument and what it is. -/
structure Word (σ : Type) where
  text : String
  role : Role σ

/-- The parts before and after the first `=`, if there is one. -/
def cutAtEquals (arg : List Char) : List Char × Option (List Char) :=
  match Text.pieces '=' arg with
  | (name, []) => (name, none)
  | (name, first :: later) => (name, some (Text.join '=' (first, later)))

/-- A minus and digits, with a decimal point among them or not. A line feed may end it. -/
def isNegativeNumber (arg : List Char) : Bool :=
  let isDigit c := (Text.digitValue? c).isSome
  match arg with
  | '-' :: rest =>
    let rest := if rest.getLast? = some '\n' then rest.dropLast else rest
    let whole := rest.takeWhile isDigit
    match rest.dropWhile isDigit with
    | [] => !whole.isEmpty
    | '.' :: decimals => !decimals.isEmpty && decimals.all isDigit
    | _ => false
  | _ => false

namespace Grammar

/-- The option with exactly the given name. -/
def find? (g : Grammar σ) (name : String) : Option (Opt σ) :=
  g.options.find? (·.names.contains name)

/-- All options one of whose names begins as given, each with that name. -/
def beginning (g : Grammar σ) (start : List Char) : List (Opt σ × String) :=
  g.options.flatMap fun o =>
    (o.names.filter fun name => start.isPrefixOf name.toList).map (o, ·)

/-- The options that an argument which starts with `-` may stand for, apart from an exact name. -/
def candidates (g : Grammar σ) (arg : List Char) : List (Opt σ × String × Option (List Char)) :=
  match arg with
  | '-' :: '-' :: _ =>
    let (start, joined) := cutAtEquals arg
    (g.beginning start).map fun (o, name) => (o, name, joined)
  | dash :: letter :: rest =>
    let name := String.ofList [dash, letter]
    (g.find? name).toList.map fun o => (o, name, some rest)
  | _ => []

/-- What an argument is, when no `--` has come before it. -/
def roleOf (g : Grammar σ) (arg : String) : Except UsageError (Role σ) :=
  match arg.toList with
  | '-' :: rest =>
    match g.find? arg with
    | some o => .ok (.option o arg none)
    | none =>
      -- an exact name in front of `=` goes before any abbreviation
      let (name, joined) := cutAtEquals arg.toList
      match joined.bind fun j => (g.find? (String.ofList name)).map (·, j) with
      | some (o, j) => .ok (.option o (String.ofList name) (some j))
      | none =>
        match g.candidates arg.toList with
        | [(o, name, joined)] => .ok (.option o name joined)
        | _ :: _ :: _ =>
          .error (.ambiguous arg ((g.candidates arg.toList).map fun (_, name, _) => name))
        | [] =>
          if rest.isEmpty || isNegativeNumber arg.toList || arg.toList.contains ' ' then
            .ok .operand
          else .ok .stranger
  | _ => .ok .operand

/-- All arguments with what they are. -/
def classify (g : Grammar σ) : List String → Except UsageError (List (Word σ))
  | [] => .ok []
  | arg :: args =>
    if arg = "--" then .ok (⟨arg, .separator⟩ :: args.map (⟨·, .operand⟩))
    else do
      let role ← g.roleOf arg
      return ⟨arg, role⟩ :: (← g.classify args)

/-! ## Taking options -/

/-- What one argument asks for: options with their values, in order, and whether the value of the
last one is the argument after it. -/
structure Plan (σ : Type) where
  effects : List (Opt σ × Option String)
  usesNext : Bool := false

/-- The plan with one more option in front. -/
def Plan.after (o : Opt σ) (p : Plan σ) : Plan σ :=
  { p with effects := (o, none) :: p.effects }

/-- An option to which nothing is joined. A value is taken from the operand that comes next. -/
def planAlone (o : Opt σ) (next : Option String) : Except UsageError (Plan σ) :=
  match o.effect, next with
  | .value _, none => .error (.valueMissing o.title)
  | .value _, some v => .ok { effects := [(o, some v)], usesNext := true }
  | _, _ => .ok { effects := [(o, none)] }

/-- An option to which a text is joined. What is joined to a short flag is another short option,
perhaps with a text joined to that. -/
def planJoined (g : Grammar σ) (next : Option String) (o : Opt σ) (name : String) :
    List Char → Except UsageError (Plan σ)
  | [] =>
    match o.effect with
    | .value _ => .ok { effects := [(o, some "")] }
    | _ => .error (.ignoredValue o.title "")
  | c :: rest =>
    let text := String.ofList (c :: rest)
    match o.effect with
    | .value _ => .ok { effects := [(o, some text)] }
    | _ =>
      if ['-', '-'].isPrefixOf name.toList then .error (.ignoredValue o.title text)
      else
        -- the flag is taken if what is joined to it begins with a short option
        let short := String.ofList ['-', c]
        match g.find? short, rest with
        | none, _ => .error (.ignoredValue o.title text)
        | some p, [] => (planAlone p next).map (.after o)
        | some p, d :: more => (g.planJoined next p short (d :: more)).map (.after o)

/-- What an argument that is an option asks for, with the operand that comes next, if one does. -/
def plan (g : Grammar σ) (o : Opt σ) (name : String) (joined : Option (List Char))
    (next : Option String) : Except UsageError (Plan σ) :=
  match joined with
  | none => planAlone o next
  | some text => g.planJoined next o name text

/-- What an option does to a value. -/
def apply (g : Grammar σ) (x : σ) (effect : Opt σ × Option String) : Except Stop σ :=
  match effect.1.effect with
  | .help => .error (.help g.usage)
  | .flag f => .ok (f x)
  | .value f =>
    (f effect.1.title (.ofArgument (effect.2.getD "")) x).mapError (.error g.usage)

/-! ## Taking operands -/

/-- Whether an argument is the first `--`. -/
def isSeparator (w : Word σ) : Bool :=
  match w.role with
  | .separator => true
  | _ => false

/-- The arguments of an operand and those after it, if an operand is next. A `--` before or after it
is dropped; so is an operand that is itself a `--`, when no other one is next to it. -/
def takeOperand (greedy : Bool) (words : List (Word σ)) :
    Option (List String × List (Word σ)) :=
  let before := (words.takeWhile isSeparator).map (·.text)
  match words.dropWhile isSeparator with
  | ⟨text, .operand⟩ :: rest =>
    if greedy then some (before ++ text :: rest.map (·.text), [])
    else
      let behind := (rest.takeWhile isSeparator).map (·.text)
      some ((before ++ text :: behind).erase "--", rest.dropWhile isSeparator)
  | _ => none

theorem length_takeOperand {greedy : Bool} {words rest : List (Word σ)} {args : List String}
    (h : takeOperand greedy words = some (args, rest)) : rest.length < words.length := by
  unfold takeOperand at h
  have hle := (List.dropWhile_sublist isSeparator (l := words)).length_le
  split at h
  · rename_i text after heq
    have hle' := (List.dropWhile_sublist isSeparator (l := after)).length_le
    rw [heq, List.length_cons] at hle
    split at h <;> simp only [Option.some.injEq, Prod.mk.injEq] at h <;> obtain ⟨-, rfl⟩ := h
    · simp; omega
    · omega
  · simp at h

/-! ## Reading a command line -/

/-- The arguments from left to right. The answer is the value after them, and what is left over. -/
def parseWords (g : Grammar σ) (operands : List (Operand σ)) (words : List (Word σ)) (x : σ)
    (leftOver : List String) : Except Stop (σ × List String) :=
  match hw : words with
  | [] => .ok (x, leftOver)
  | ⟨text, .stranger⟩ :: rest => g.parseWords operands rest x (leftOver ++ [text])
  | ⟨_, .option o name joined⟩ :: rest =>
    let next := match rest with
      | ⟨v, .operand⟩ :: _ => some v
      | _ => none
    match g.plan o name joined next with
    | .error e => .error (.error g.usage e)
    | .ok p =>
      match p.effects.foldlM g.apply x with
      | .error stop => .error stop
      | .ok x =>
        g.parseWords operands (if p.usesNext then rest.tail else rest) x leftOver
  | ⟨text, _⟩ :: rest =>
    match operands with
    | [] => g.parseWords [] rest x (leftOver ++ [text])
    | operand :: operands =>
      match ht : takeOperand operand.greedy words with
      | none => g.parseWords (operand :: operands) rest x (leftOver ++ [text])
      | some (args, rest) =>
        match operand.take args x with
        | .error stop => .error stop
        | .ok x =>
          have := length_takeOperand ht
          g.parseWords operands rest x leftOver
termination_by words.length
decreasing_by all_goals grind

/-- Read a command line. The answer is the value that its arguments make, and what is left over. -/
def parse (g : Grammar σ) (args : List String) (x : σ) : Except Stop (σ × List String) :=
  match g.classify args with
  | .error e => .error (.error g.usage e)
  | .ok words => g.parseWords g.operands words x []

end Grammar

end SubseqMachines.CommandLine
