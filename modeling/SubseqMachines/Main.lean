import SubseqMachines.CommandLine.Report

/-!
# The command line program

Answers one command line: the answer goes to the standard output, errors and the trace to the
standard error. A debugger is shown as its panels and its log. Generators without a seed start from
random bytes of the system.
-/

open SubseqMachines SubseqMachines.CommandLine

/-- The panels and the log of a debugger as text. -/
def debuggerText (d : Debugger) : String :=
  Exit.unlines ([d.panels.main, d.panels.aux, d.panels.state] ++ d.log)

/-- A generator that starts from as many random bytes as its state has. -/
def randomTwister : IO Twister := do
  let bytes ← IO.getRandomBytes 2496
  return .ofSeed (bytes.toList.foldl (fun n byte => n * 256 + byte.toNat) 0 : Nat)

def main (args : List String) : IO UInt32 := do
  let chance : Chance := { common := ← randomTwister, unseeded := ← randomTwister }
  match Exit.ofCommandLine args false chance with
  | .error f =>
    IO.eprintln f.message
    return 1
  | .ok exit =>
    IO.print exit.stdout
    match exit.debugger with
    | some d => IO.print (debuggerText d)
    | none => pure ()
    IO.eprint exit.stderr
    return exit.code.toUInt32
