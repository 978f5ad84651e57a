import SubseqMachines.Proofs.Machine.Control
import SubseqMachines.Proofs.Matcher.Invariant
import SubseqMachines.Proofs.Sampler.Invariant
import SubseqMachines.Proofs.Trial.Blocks

/-!
# How a trial goes from block to block

A trial runs its sampler and its matchers to their end within one step each. Whatever child has run,
it leaves the main head on the cell that closes its block and the aux head in front of the word, and
these are the places that the next child asks for. So one relation holds between any two steps of a
trial: where the main head is, which blocks contain the word, and what has been spent.

* `Trial.draw_of_laid`, `Trial.test_of_laid`: a step that runs a child.
* `Trial.Known`, `Trial.Inv`: the relation for an outcome so far.
* `Trial.exists_look`, `Trial.exists_test`: the two kinds of step that a drawn trial makes.
* `Trial.inv_step`: a step succeeds and keeps it.
* `Trial.run_of_laid`: where a run ends, what it costs and what it leaves.
-/

namespace SubseqMachines.Trial

/-! ## Steps that run a child -/

section Children

variable {b : Bench} {first : List Letter} {later : List (List Letter)}

/-- The step that runs the sampler. -/
theorem draw_of_laid {flips : List Bool} {coin : Coin} (h : Laid b.toTapes first later)
    (hflips : b.coin.flips? first.length = some (flips, coin)) :
    draw b =
      { state := .drawn .boundary (Letter.spell (flips.map Letter.ofFlip)) 0
        bench := { main := Tape.moveRight^[first.length + 1] b.main
                   aux := b.aux.inscribed (flips.map Letter.ofFlip), coin }
        cost := ⟨2 * first.length + 2, 4 * first.length⟩
        trace := (Device.run Sampler.State.scan b).trace ++
          [.witness (Letter.spell (flips.map Letter.ofFlip))] } := by
  obtain ⟨n, hsampler⟩ := h.sampler
  obtain ⟨hfault, -, hbench, -, hcost⟩ := Sampler.run_of_laid hsampler hflips
  -- the word that is read off the aux tape is the one that the sampler has written
  obtain ⟨p, q, haux⟩ := h.aux_blank
  have hblank : b.aux.right = List.replicate q .blank := congrArg Tape.right haux
  obtain ⟨k, hright⟩ := Tape.right_inscribed_of_blanks hblank (flips.map Letter.ofFlip)
  have hword := Tape.decodeWord_of_right hright
  rw [draw_of_run (Sampler.refusal?_eq_none_iff.mpr ⟨_, _, hsampler⟩) hfault, hbench, hcost, hword]

/-- The step that runs a matcher. -/
theorem test_of_laid {block word : List Letter} {rest : List Cell}
    (h : Matcher.Laid b.toTapes block word rest) (hclosed : (rest.headD .blank).isBlockEnd = true)
    (witness : String) (v : Nat) :
    test witness v b =
      { state := .drawn (if word.Sublist block then .boundary else .reject) witness (v + 1)
        bench := { main := Tape.moveRight^[block.length + 1] b.main
                   aux := b.aux.grownTo (if word.Sublist block then word.length + 1 else 0)
                   coin := b.coin }
        cost := ⟨2 * (block.length + 1), 4 * (matched word block + 1)⟩
        trace := (Device.run Matcher.State.nextLetter b).trace } := by
  obtain ⟨hfault, hstate, hbench, -, hcost⟩ := Matcher.run_of_laid h hclosed
  rw [test_of_run witness v (Matcher.refusal?_eq_none_iff.mpr ⟨_, _, _, h⟩) hfault, hstate, hbench,
    hcost]
  by_cases hsub : word.Sublist block <;> simp [hsub]

end Children

/-! ## What has been spent -/

/-- What the sampler and the tests of the first `v` later blocks cost, each test together with the
look at the cell in front of its block. -/
def spent (first : List Letter) (later : List (List Letter)) (word : List Letter) (v : Nat) :
    Cost where
  main := 2 * first.length + 2 + ((later.take v).map fun block => 2 * block.length + 3).sum
  aux := 4 * first.length + ((later.take v).map fun block => 4 * (matched word block + 1)).sum

theorem spent_succ (first word : List Letter) {later : List (List Letter)} {v : Nat}
    (hv : v < later.length) :
    spent first later word (v + 1) = spent first later word v + .on .main 1 +
      ⟨2 * (later[v].length + 1), 4 * (matched word later[v] + 1)⟩ := by
  rw [spent, sum_map_take_succ _ hv, sum_map_take_succ _ hv]
  show Cost.mk _ _ = Cost.mk _ _
  congr 1
  · simp only [Cost.main_add, spent, Cost.on]
    omega
  · simp only [Cost.aux_add, spent, Cost.on]
    omega

/-! ## The relation -/

/-- What is known in a stage when `v` later blocks have been tested. -/
def Known (word : List Letter) (later : List (List Letter)) (v : Nat) : Stage → Prop
  -- all blocks so far contain the word
  | .boundary => v ≤ later.length ∧ ∀ block ∈ later.take v, word.Sublist block
  | .verify => v < later.length ∧ ∀ block ∈ later.take v, word.Sublist block
  | .accept => v = later.length ∧ ∀ block ∈ later, word.Sublist block
  -- the block that was tested last is the first one that does not
  | .reject => ∃ u, ∃ hu : u < later.length, v = u + 1 ∧
      (∀ block ∈ later.take u, word.Sublist block) ∧ ¬ word.Sublist later[u]

/-- The steps up to a stage: one for the sampler, and two for each block that has been tested. -/
def steps (v : Nat) : Stage → Nat
  | .boundary | .reject => 2 * v + 1
  | .verify | .accept => 2 * v + 2

/-- What the look at the cell after the last tested block costs, if it has been made. -/
def looked : Stage → Cost
  | .boundary | .reject => 0
  | .verify | .accept => .on .main 1

/-- The relation that a trial keeps which started on the bench `b`, and whose sampler writes `word`
and leaves `coin`. -/
inductive Inv (b : Bench) (first : List Letter) (later : List (List Letter)) (word : List Letter)
    (coin : Coin) : Outcome State → Prop
  | drawing : Inv b first later word coin (.still .drawing b)
  | drawn {stage : Stage} {v reach : Nat} {trace : List Event} (known : Known word later v stage) :
    Inv b first later word coin
      { state := .drawn stage (Letter.spell word) v
        bench := spot b first later word coin v reach
        ticks := steps v stage, cost := spent first later word v + looked stage, trace }

/-! ## One step -/

section Step

variable {b : Bench} {first word : List Letter} {later : List (List Letter)} {coin : Coin}
  {v reach : Nat}

/-- A step that goes on to a stage, and what it makes of the outcome so far. -/
theorem inv_followedBy {o : Outcome State} {stage : Stage} {cost : Cost} {reports : List Event}
    (htransition : Device.transition o.state o.bench =
      { state := .drawn stage (Letter.spell word) v
        bench := spot b first later word coin v reach, cost, trace := reports })
    (hticks : o.ticks + 1 = steps v stage)
    (hcost : o.cost + cost = spent first later word v + looked stage)
    (hk : Known word later v stage) :
    (Device.step o.state o.bench).fault = none ∧
      Inv b first later word coin (o.followedBy (Device.step o.state o.bench)) := by
  obtain ⟨hfault, trace, heq⟩ := Device.followedBy_step htransition
  rw [heq, hticks, hcost]
  exact ⟨hfault, .drawn hk⟩

theorem inv_draw {flips : List Bool} (h : Laid b.toTapes first later)
    (hflips : b.coin.flips? first.length = some (flips, coin))
    (hword : flips.map Letter.ofFlip = word) :
    (Device.step State.drawing b).fault = none ∧
      Inv b first later word coin
        ((Outcome.still State.drawing b).followedBy (Device.step State.drawing b)) := by
  have hdraw := draw_of_laid h hflips
  rw [hword, ← spot_start b first later] at hdraw
  refine inv_followedBy (o := .still .drawing b) hdraw rfl ?_ ⟨Nat.zero_le _, by simp⟩
  show 0 + Cost.mk _ _ = Cost.mk _ _
  rw [Cost.zero_add]
  rfl

/-- The look at the cell between two blocks tells whether another block follows. -/
theorem exists_look (h : Laid b.toTapes first later) (hk : Known word later v .boundary)
    (witness : String) (coin : Coin) (reach : Nat) :
    ∃ stage, (stage = .verify ∨ stage = .accept) ∧ Known word later v stage ∧
      look witness v (spot b first later word coin v reach) =
        { state := .drawn stage witness v, bench := spot b first later word coin v reach
          cost := .on .main 1 } := by
  obtain ⟨hv, hall⟩ := hk
  rcases Nat.lt_or_eq_of_le hv with hlt | rfl
  · -- another block follows
    have hstage : afterBoundary? (spot b first later word coin v reach).main.focus =
        some .verify := by
      rw [main_focus_spot h hlt, afterBoundary?]
    exact ⟨.verify, .inl rfl, ⟨hlt, hall⟩, look_of_stage witness v hstage⟩
  · -- all blocks have been tested
    have hstage : afterBoundary? (spot b first later word coin later.length reach).main.focus =
        some .accept := by
      rw [main_focus_spot_end h, afterBoundary?]
    rw [List.take_length] at hall
    exact ⟨.accept, .inr rfl, ⟨rfl, hall⟩, look_of_stage witness later.length hstage⟩

/-- The test of the next block tells whether it contains the word. -/
theorem exists_test (h : Laid b.toTapes first later) (hword : word ≠ [])
    (hk : Known word later v .verify) (witness : String) (coin : Coin) (reach : Nat) :
    ∃ stage reach' trace, ∃ hv : v < later.length, (stage = .boundary ∨ stage = .reject) ∧
      Known word later (v + 1) stage ∧
      test witness v (spot b first later word coin v reach) =
        { state := .drawn stage witness (v + 1)
          bench := spot b first later word coin (v + 1) reach'
          cost := ⟨2 * (later[v].length + 1), 4 * (matched word later[v] + 1)⟩, trace } := by
  obtain ⟨hv, hall⟩ := hk
  let c := spot b first later word coin v reach
  obtain ⟨rest, hlaid, hclosed⟩ : ∃ rest, Matcher.Laid c.toTapes later[v] word rest ∧
      (rest.headD .blank).isBlockEnd = true := exists_matcher_laid h hword hv
  have htest := test_of_laid hlaid hclosed witness v
  rw [show c.coin = coin from rfl, spot_succ hv] at htest
  by_cases hsub : word.Sublist later[v]
  · -- one block more that contains the word
    rw [if_pos hsub] at htest
    refine ⟨.boundary, _, _, hv, .inl rfl, ⟨hv, ?_⟩, htest⟩
    rw [List.take_succ_eq_append_getElem hv, List.forall_mem_append]
    exact ⟨hall, List.forall_mem_singleton.mpr hsub⟩
  · -- the first block that does not
    rw [if_neg hsub] at htest
    exact ⟨.reject, _, _, hv, .inr rfl, ⟨v, hv, rfl, hall, hsub⟩, htest⟩

theorem inv_look {trace : List Event} (h : Laid b.toTapes first later)
    (hk : Known word later v .boundary) :
    let o : Outcome State :=
      { state := .drawn .boundary (Letter.spell word) v
        bench := spot b first later word coin v reach
        ticks := steps v .boundary, cost := spent first later word v + looked .boundary, trace }
    (Device.step o.state o.bench).fault = none ∧
      Inv b first later word coin (o.followedBy (Device.step o.state o.bench)) := by
  intro o
  obtain ⟨stage, hstage, hk', hlook⟩ :=
    exists_look h hk (Letter.spell word) coin reach
  -- either stage counts the look
  have hticks : o.ticks + 1 = steps v stage := by
    rcases hstage with rfl | rfl <;> rfl
  have hlooked : looked stage = .on .main 1 := by
    rcases hstage with rfl | rfl <;> rfl
  exact inv_followedBy hlook hticks (by rw [hlooked]; rfl) hk'

theorem inv_test {trace : List Event} (h : Laid b.toTapes first later) (hword : word ≠ [])
    (hk : Known word later v .verify) :
    let o : Outcome State :=
      { state := .drawn .verify (Letter.spell word) v
        bench := spot b first later word coin v reach
        ticks := steps v .verify, cost := spent first later word v + looked .verify, trace }
    (Device.step o.state o.bench).fault = none ∧
      Inv b first later word coin (o.followedBy (Device.step o.state o.bench)) := by
  intro o
  obtain ⟨stage, reach', reports, hv, hstage, hk', htest⟩ :=
    exists_test h hword hk (Letter.spell word) coin reach
  have hticks : o.ticks + 1 = steps (v + 1) stage := by
    rcases hstage with rfl | rfl <;> rfl
  have hlooked : looked stage = 0 := by
    rcases hstage with rfl | rfl <;> rfl
  exact inv_followedBy htest hticks (by rw [hlooked, spent_succ first word hv]; rfl) hk'

/-- **A step of a trial succeeds and keeps the relation.** -/
theorem inv_step {flips : List Bool} (h : Laid b.toTapes first later)
    (hflips : b.coin.flips? first.length = some (flips, coin))
    (hword : flips.map Letter.ofFlip = word) {o : Outcome State}
    (ho : Inv b first later word coin o) (hs : o.state.halted = false) :
    (Device.step o.state o.bench).fault = none ∧
      Inv b first later word coin (o.followedBy (Device.step o.state o.bench)) := by
  -- the word is as long as the first block, which has a letter
  have hne : word ≠ [] := by
    rw [← hword]
    intro hnil
    have hlen := Coin.length_of_flips? hflips
    rw [List.map_eq_nil_iff.mp hnil] at hlen
    exact h.first_ne_nil (List.eq_nil_of_length_eq_zero hlen.symm)
  cases ho with
  | drawing => exact inv_draw h hflips hword
  | @drawn stage v reach trace hk =>
    cases stage with
    | boundary => exact inv_look h hk
    | verify => exact inv_test h hne hk
    | accept => exact absurd hs (by simp [State.halted])
    | reject => exact absurd hs (by simp [State.halted])

end Step

/-! ## A whole run -/

/-- The number of blocks that are tested: up to the first one that does not contain the word. -/
def tested (word : List Letter) (later : List (List Letter)) : Nat :=
  (later.findIdx? fun block => !decide (word.Sublist block)).elim later.length (· + 1)

theorem tested_of_forall {word : List Letter} {later : List (List Letter)}
    (h : ∀ block ∈ later, word.Sublist block) : tested word later = later.length := by
  have hnone : later.findIdx? (fun block => !decide (word.Sublist block)) = none := by
    rw [List.findIdx?_eq_none_iff]
    intro block hblock
    simp [h block hblock]
  rw [tested, hnone, Option.elim_none]

theorem tested_of_not_sublist {word : List Letter} {later : List (List Letter)} {u : Nat}
    (hu : u < later.length) (hall : ∀ block ∈ later.take u, word.Sublist block)
    (hnot : ¬ word.Sublist later[u]) : tested word later = u + 1 := by
  have hsome : later.findIdx? (fun block => !decide (word.Sublist block)) = some u := by
    rw [List.findIdx?_eq_some_iff_getElem]
    refine ⟨hu, by simp [hnot], ?_⟩
    intro j hj
    have hsub := hall later[j] (List.mem_take_iff_getElem.mpr ⟨j, by omega, rfl⟩)
    simp [hsub]
  rw [tested, hsome, Option.elim_some]

/-- **The run of a trial.** On tapes laid out for it, with a coin that has a flip for each letter of
the first block, it reaches its verdict: whether each later block contains the word that the flips
spell. It tests the blocks in order up to the first one that does not. -/
theorem run_of_laid {b : Bench} {first word : List Letter} {later : List (List Letter)}
    {flips : List Bool} {coin : Coin} (h : Laid b.toTapes first later)
    (hflips : b.coin.flips? first.length = some (flips, coin))
    (hword : flips.map Letter.ofFlip = word) :
    let o := Device.run State.drawing b
    let stage : Stage := if ∀ block ∈ later, word.Sublist block then .accept else .reject
    o.fault = none ∧ o.state = .drawn stage (Letter.spell word) (tested word later) ∧
      (∃ reach, o.bench = spot b first later word coin (tested word later) reach) ∧
      o.ticks = steps (tested word later) stage ∧
      o.cost = spent first later word (tested word later) + looked stage := by
  intro o stage
  obtain ⟨hfault, hhalted, hinv⟩ :=
    Device.run_invariant (P := Inv b first later word coin) .drawing
      fun o ho hs => inv_step h hflips hword ho hs
  change o.fault = none at hfault
  change o.state.halted = true at hhalted
  change Inv b first later word coin o at hinv
  generalize o = o at hfault hhalted hinv
  cases hinv with
  | drawing => simp [Outcome.still, State.halted] at hhalted
  | @drawn final v reach trace hk =>
    -- each of the two final stages says how many blocks have been tested
    have hfinal : final = stage ∧ v = tested word later := by
      cases final with
      | accept =>
        obtain ⟨rfl, hall⟩ := hk
        exact ⟨(if_pos hall).symm, (tested_of_forall hall).symm⟩
      | reject =>
        obtain ⟨u, hu, rfl, hall, hnot⟩ := hk
        have hsome : ¬ ∀ block ∈ later, word.Sublist block :=
          fun hall => hnot (hall _ (List.getElem_mem hu))
        exact ⟨(if_neg hsome).symm, (tested_of_not_sublist hu hall hnot).symm⟩
      | boundary => simp [State.halted] at hhalted
      | verify => simp [State.halted] at hhalted
    obtain ⟨rfl, rfl⟩ := hfinal
    exact ⟨rfl, rfl, ⟨reach, rfl⟩, rfl, rfl⟩

end SubseqMachines.Trial
