import SubseqMachines.Main
import SubseqMachines.Proofs.Coin.Flips
import SubseqMachines.Proofs.CommandLine.Lengths
import SubseqMachines.Proofs.Debugger.Course
import SubseqMachines.Proofs.Debugger.Steps
import SubseqMachines.Proofs.Machine.Control
import SubseqMachines.Proofs.Machine.Run
import SubseqMachines.Proofs.Matcher.Cost
import SubseqMachines.Proofs.Matcher.Invariant
import SubseqMachines.Proofs.Matcher.Layout
import SubseqMachines.Proofs.Matcher.Verdict
import SubseqMachines.Proofs.Sampler.Invariant
import SubseqMachines.Proofs.Sampler.Layout
import SubseqMachines.Proofs.Store.Calls
import SubseqMachines.Proofs.Store.Effect
import SubseqMachines.Proofs.Store.Frame
import SubseqMachines.Proofs.Store.Fresh
import SubseqMachines.Proofs.Store.Reached
import SubseqMachines.Proofs.Store.Ticks
import SubseqMachines.Proofs.Store.UseUp
import SubseqMachines.Proofs.Store.Work
import SubseqMachines.Proofs.Subsequence.Prefix
import SubseqMachines.Proofs.Subsequence.Spelling
import SubseqMachines.Proofs.Subsequence.Unary
import SubseqMachines.Proofs.Tape.Calls
import SubseqMachines.Proofs.Tape.Line
import SubseqMachines.Proofs.Tape.Stretch
import SubseqMachines.Proofs.Tape.Walk
import SubseqMachines.Proofs.Trial.Blocks
import SubseqMachines.Proofs.Trial.Cost
import SubseqMachines.Proofs.Trial.InPlace
import SubseqMachines.Proofs.Trial.Invariant
import SubseqMachines.Proofs.Trial.Layout
import SubseqMachines.Proofs.Trial.Loop
import SubseqMachines.Proofs.Trial.Reachable
import SubseqMachines.Proofs.Trial.Verdict
import SubseqMachines.Proofs.Store.Termination
import SubseqMachines.Proofs.Trial.Reels
import SubseqMachines.Proofs.Trial.Failure
import SubseqMachines.Proofs.Machine.Form
import SubseqMachines.Proofs.Store.Making
import SubseqMachines.Proofs.Trial.Clones
import SubseqMachines.Proofs.Trial.Draws
import SubseqMachines.Proofs.Store.Life
import SubseqMachines.Proofs.Machine.Operations
import SubseqMachines.Proofs.Store.Twin
import SubseqMachines.Proofs.Store.Counting
import SubseqMachines.Proofs.Store.Footprint
import SubseqMachines.Proofs.Store.Interleaving
import SubseqMachines.Proofs.Machine.Trace
import SubseqMachines.Proofs.Sampler.Trace
import SubseqMachines.Proofs.Store.Trace
import SubseqMachines.Proofs.Machine.Texts
import SubseqMachines.Proofs.Matcher.Trace
import SubseqMachines.Proofs.Store.Entered
import SubseqMachines.Proofs.Trial.Trace
import SubseqMachines.Proofs.Debugger.Whole
import SubseqMachines.Proofs.Text.Plain
import SubseqMachines.Proofs.CommandLine.Answers
import SubseqMachines.Proofs.CommandLine.Agreement
import SubseqMachines.Proofs.CommandLine.Exits
import SubseqMachines.Proofs.Matcher.Final
import SubseqMachines.Proofs.Matcher.Open
import SubseqMachines.Proofs.Sampler.Written
import SubseqMachines.Proofs.Trial.Exhausted
import SubseqMachines.Proofs.Store.Copies
import SubseqMachines.Proofs.Debugger.Failing
import SubseqMachines.Proofs.Subsequence.Positions
import SubseqMachines.Proofs.Text.Notation
import SubseqMachines.Proofs.Matcher.Reachable
