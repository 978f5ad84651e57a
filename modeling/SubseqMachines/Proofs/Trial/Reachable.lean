import SubseqMachines.Proofs.Store.Reached
import SubseqMachines.Proofs.Trial.Invariant

/-!
# Where a trial can be found

A trial stops between any two steps, and others look at it then. This module says what they see,
after any number of ticks and with any coin: the state, the witness and the number of blocks that
have been tested fit the tapes. A step can fail only if the coin has no flip left for the sampler,
and then the trial is as it was at the start.

* `Trial.Standing`, `Trial.standing_step`: the relation between the state and the tapes, and that a
  step keeps it.
* `Trial.Placed`, `Trial.placed_of_known`: what the relation tells of the tapes of a trial that has
  drawn its witness.
* `Trial.placed_of_reached`: a trial is found like this after any ticks.
-/

namespace SubseqMachines.Trial

/-! ## The relation -/

/-- The state and the tapes of a trial that started on the bench `b`. Its coin may be any, also one
that others use as well. -/
inductive Standing (b : Bench) (first : List Letter) (later : List (List Letter)) :
    State → Tapes → Prop
  | drawing : Standing b first later .drawing b.toTapes
  | drawn {word : List Letter} {stage : Stage} {v reach : Nat}
      (length_word : word.length = first.length) (known : Known word later v stage) :
      Standing b first later (.drawn stage (Letter.spell word) v)
        (spot b first later word b.coin v reach).toTapes

section Step

variable {b : Bench} {first word : List Letter} {later : List (List Letter)} {coin : Coin}
  {v reach : Nat}

/-- The tapes of a spot do not depend on the coin. -/
theorem Standing.of_transition {s : State} {c : Bench} {stage : Stage} {cost : Cost}
    {reports : List Event}
    (htransition : Device.transition s c =
      { state := .drawn stage (Letter.spell word) v
        bench := spot b first later word coin v reach, cost, trace := reports })
    (hlen : word.length = first.length) (hk : Known word later v stage) :
    (Device.step s c).fault = none ∧
      Standing b first later (Device.step s c).state (Device.step s c).bench.toTapes := by
  rw [Device.step, htransition]
  exact ⟨rfl, .drawn hlen hk⟩

/-- The sampler draws a word, or its coin has not enough flips for one. -/
theorem standing_draw (h : Laid b.toTapes first later) (coin : Coin) :
    let o := Device.step State.drawing { b with coin }
    o.fault = none ∧ Standing b first later o.state o.bench.toTapes ∨
      o.fault = some (.breakdown .coinExhausted) ∧ o.state = .drawing ∧
        o.bench.toTapes = b.toTapes := by
  intro o
  have hlaid : Laid ({ b with coin } : Bench).toTapes first later := h
  cases hflips : coin.flips? first.length with
  | some drawn =>
    obtain ⟨flips, left⟩ := drawn
    have hdraw := draw_of_laid hlaid hflips
    rw [← spot_start _ first later] at hdraw
    have hlen : (flips.map Letter.ofFlip).length = first.length := by
      rw [List.length_map, Coin.length_of_flips? hflips]
    exact .inl (Standing.of_transition hdraw hlen ⟨Nat.zero_le _, by simp⟩)
  | none =>
    obtain ⟨n, hsampler⟩ := hlaid.sampler
    have hfault : (draw { b with coin }).fault = some (.breakdown .coinExhausted) :=
      fault_draw_of_fault (Sampler.refusal?_eq_none_iff.mpr ⟨_, _, hsampler⟩)
        (Sampler.fault_run_of_exhausted hsampler hflips)
    have hne : (draw { b with coin }).fault ≠ none := by
      rw [hfault]
      exact nofun
    exact .inr ⟨hfault, state_draw_of_fault hne, toTapes_draw hne⟩

/-- **A step of a trial keeps the relation**, or the coin has not enough flips for the witness and
nothing has changed. -/
theorem standing_step (h : Laid b.toTapes first later) {s : State} {c : Bench}
    (hs : Standing b first later s c.toTapes) (hlive : s.halted = false) :
    let o := Device.step s c
    o.fault = none ∧ Standing b first later o.state o.bench.toTapes ∨
      o.fault = some (.breakdown .coinExhausted) ∧ s = .drawing ∧ o.state = .drawing ∧
        o.bench.toTapes = b.toTapes := by
  obtain ⟨tapes, coin⟩ := c
  change Standing b first later s tapes at hs
  cases hs with
  | drawing =>
    rcases standing_draw h coin with hnext | ⟨hfault, hstate, htapes⟩
    · exact .inl hnext
    · exact .inr ⟨hfault, rfl, hstate, htapes⟩
  | @drawn word stage v reach hlen hk =>
    left
    have hne : word ≠ [] := by
      rintro rfl
      exact h.first_ne_nil (List.eq_nil_of_length_eq_zero hlen.symm)
    cases stage with
    | boundary =>
      obtain ⟨stage, -, hk', hlook⟩ := exists_look h hk (Letter.spell word) coin reach
      exact Standing.of_transition hlook hlen hk'
    | verify =>
      obtain ⟨stage, reach', reports, hv, -, hk', htest⟩ :=
        exists_test h hne hk (Letter.spell word) coin reach
      exact Standing.of_transition htest hlen hk'
    | accept => exact absurd hlive (by simp [State.halted])
    | reject => exact absurd hlive (by simp [State.halted])

end Step

/-! ## What it tells of the tapes -/

/-- The tapes `t` of a trial in a stage when `v` later blocks have been tested. It started on the
tapes `start`, which hold the block `first` and the blocks `later`, and has drawn `word`. -/
structure Placed (start : Tapes) (first : List Letter) (later : List (List Letter))
    (word : List Letter) (stage : Stage) (witness : String) (v : Nat) (t : Tapes) : Prop where
  witness_eq : witness = Letter.spell word
  length_word : word.length = first.length
  decoded : t.aux.decodeWord = witness
  /-- The aux head is at the index where it started. -/
  aux_head : t.aux.head = start.aux.head
  aux_left : ∃ n, t.aux.left = List.replicate n .blank
  aux_focus : t.aux.focus = .blank
  aux_right : ∃ n, t.aux.right = word.map .aux ++ List.replicate n .blank
  /-- Behind the main head are the cells that were behind it at the start, the one that it was on,
  the first block and the later ones up to the number `v`. -/
  main_behind : t.main.left.reverse =
    start.main.left.reverse ++ start.main.focus :: (first.map .main ++ laterCells (later.take v))
  main_focus : t.main.focus = if v < later.length then .hash else .blank
  known : Known word later v stage

theorem le_length_of_known {word : List Letter} {later : List (List Letter)} {v : Nat}
    {stage : Stage} (hk : Known word later v stage) : v ≤ later.length := by
  cases stage with
  | boundary => exact hk.1
  | verify => exact Nat.le_of_lt hk.1
  | accept => exact Nat.le_of_eq hk.1
  | reject =>
    obtain ⟨u, hu, rfl, -⟩ := hk
    exact hu

section Placed

variable {b : Bench} {first word : List Letter} {later : List (List Letter)} {coin : Coin}
  {v reach : Nat}

theorem main_focus_spot_of_le (h : Laid b.toTapes first later) (hv : v ≤ later.length) :
    (spot b first later word coin v reach).main.focus =
      if v < later.length then .hash else .blank := by
  rcases Nat.lt_or_eq_of_le hv with hlt | rfl
  · rw [main_focus_spot h hlt, if_pos hlt]
  · rw [main_focus_spot_end h, if_neg (Nat.lt_irrefl _)]

theorem placed_of_known {stage : Stage} (h : Laid b.toTapes first later)
    (hlen : word.length = first.length) (hk : Known word later v stage) :
    Placed b.toTapes first later word stage (Letter.spell word) v
      (spot b first later word coin v reach).toTapes := by
  -- the word is written on blanks, and what is added behind it are blanks
  obtain ⟨p, q, haux⟩ := h.aux_blank
  have hblank : b.aux.right = List.replicate q .blank := congrArg Tape.right haux
  obtain ⟨k, hinscribed⟩ := Tape.right_inscribed_of_blanks hblank word
  obtain ⟨m, hright⟩ := Tape.right_grownTo_of_blanks hinscribed reach
  -- the main head has gone over blocks that are there
  obtain ⟨n, hmain⟩ := h.main_right
  have hbehind := Tape.left_iterate_moveRight_succ (t := b.main) (offset_le_length hmain v)
  rw [take_offset hmain v] at hbehind
  refine
    { witness_eq := rfl, length_word := hlen, decoded := Tape.decodeWord_of_right hright
      aux_head := rfl, aux_left := ⟨p, congrArg Tape.left haux⟩
      aux_focus := congrArg Tape.focus haux, aux_right := ⟨m, hright⟩, main_behind := ?_
      main_focus := main_focus_spot_of_le h (le_length_of_known hk), known := hk }
  show (Tape.moveRight^[offset first later v + 1] b.main).left.reverse = _
  rw [hbehind, List.reverse_append, List.reverse_reverse, List.reverse_cons, List.append_assoc]
  rfl

theorem cells_main_of_standing (h : Laid b.toTapes first later) {s : State} {t : Tapes}
    (hs : Standing b first later s t) :
    t.main.cells = b.main.cells ∨ t.main.cells = b.main.cells ++ [.blank] := by
  cases hs with
  | drawing => exact .inl rfl
  | @drawn word stage v reach hlen hk =>
    obtain ⟨n, hmain⟩ := h.main_right
    exact Tape.cells_iterate_moveRight_succ (offset_le_length hmain v)

end Placed

/-! ## A trial in the store -/

section Fresh

variable {σ made : Store} {counter : Option (Handle Counter)} {coin : Option (Handle Coin)}
  {mount : Mount} {first : List Letter} {later : List (List Letter)}

/-- A trial that has been made on blocks stands in the relation all the time. -/
theorem exists_standing_of_reached (hm : σ.Made made .trial counter coin mount)
    (h : Laid (σ.tapes mount) first later) {now : Store}
    (hr : Store.Reached made σ.machines.next now) :
    ∃ mount' s, Store.Steady now σ.machines.next mount' ∧
      (now.machines.get σ.machines.next).control = .trial s ∧
      Standing (σ.startBench .trial coin mount) first later s (now.tapes mount') := by
  let b := σ.startBench .trial coin mount
  have hcontrol : (made.machines.get σ.machines.next).control = .trial .drawing := by
    rw [hm.machine]
    rfl
  have hstart : Standing b first later .drawing (made.tapes mount) := by
    rw [hm.tapes]
    exact .drawing
  refine hr.invariant_of_map .trial (fun _ => rfl) Control.step_trial hm.steady hcontrol hstart ?_
  intro s d hs hlive
  rcases standing_step (b := b) h hs hlive with ⟨-, hnext⟩ | ⟨-, -, hstate, htapes⟩
  · exact hnext
  · rw [hstate, htapes]
    exact .drawing

/-- No tick fails but the one that has to draw the witness, with a coin that runs out of flips. -/
theorem fault_tick_of_standing {b : Bench} (h : Laid b.toTapes first later) {now : Store}
    {machine : Handle Machine} (hsteady : Store.Steady now machine mount) {s : State}
    (hcontrol : (now.machines.get machine).control = .trial s)
    (hstanding : Standing b first later s (now.tapes mount)) {f : Fault}
    (hf : (now.tick machine).result = .error f) :
    f = .breakdown .coinExhausted ∧ s = .drawing := by
  obtain ⟨hlive, hfault, -⟩ := Store.fault_of_tick hsteady.mounted hf
  rw [hcontrol] at hlive hfault
  rw [Control.step_trial] at hfault
  let bench := now.bench (now.machines.get machine) mount
  change (Device.step s bench).fault = some f at hfault
  rcases standing_step (c := bench) h hstanding hlive with ⟨hnone, -⟩ | ⟨hexhausted, hs, -⟩
  · exact absurd (hfault.symm.trans hnone) nofun
  · exact ⟨Option.some.inj (hfault.symm.trans hexhausted), hs⟩

end Fresh

/-- **Where a trial is found after any ticks.** The tapes on which it is made hold blocks. As long
as nothing else touches the trial and its reels, the witness is missing exactly in the phase in
which it is drawn, and then the tapes are as they were. In every other phase the tapes are placed as
the witness, the phase and the number of tested blocks say. The main tape has got a blank at its
right end at most, and no tick fails but one that has to draw the witness with a coin that runs out
of flips. -/
theorem placed_of_reached {σ made : Store} {main aux : Handle Reel}
    {counter : Option (Handle Counter)} {coin : Option (Handle Coin)}
    (hmade : σ.make .trial main aux counter coin = .ok made) :
    let h := σ.machines.next
    let start : Tapes := ⟨σ.tape main, σ.tape aux⟩
    (∃ first later, Laid start first later) ∧
      ∀ first later, Laid start first later → ∀ now, Store.Reached made h now →
        ∃ s mount, (now.machines.get h).control = .trial s ∧
          (now.machines.get h).mount = some mount ∧
          (s.witness? = none ↔ s.phase = .generate) ∧
          (s = .drawing → now.tapes mount = start) ∧
          (∀ stage witness v, s = .drawn stage witness v → ∃ word,
            Placed start first later word stage witness v (now.tapes mount)) ∧
          ((now.tape mount.main).cells = start.main.cells ∨
            (now.tape mount.main).cells = start.main.cells ++ [.blank]) ∧
          ∀ f, (now.tick h).result = .error f →
            f = .breakdown .coinExhausted ∧ s = .drawing := by
  intro h start
  obtain ⟨mount, rfl, rfl, hm⟩ := Store.exists_made hmade
  refine ⟨refusal?_eq_none_iff.mp hm.refusal, ?_⟩
  intro first later hlaid now hr
  obtain ⟨mount', s, hsteady, hcontrol, hstanding⟩ := exists_standing_of_reached hm hlaid hr
  refine ⟨s, mount', hcontrol, hsteady.mounted, ?_, ?_, ?_,
    cells_main_of_standing (b := σ.startBench .trial coin mount) hlaid hstanding, ?_⟩
  · cases s with
    | drawing => exact ⟨fun _ => rfl, fun _ => rfl⟩
    | drawn stage witness v => cases stage <;> exact ⟨nofun, nofun⟩
  · rintro rfl
    generalize now.tapes mount' = t at hstanding
    cases hstanding
    rfl
  · rintro stage witness v rfl
    generalize now.tapes mount' = t at hstanding
    cases hstanding with
    | drawn hlen hk =>
      exact ⟨_, placed_of_known (b := σ.startBench .trial coin mount) hlaid hlen hk⟩
  · exact fun f hf => fault_tick_of_standing (b := σ.startBench .trial coin mount) hlaid hsteady
      hcontrol hstanding hf

/-- The blocks `ab` and `b`, with a coin that has one flip. The trial fails, gets another coin and
goes on. -/
theorem placed_of_reached_ab_b :
    let σ := ((({} : Store).addReel
      ⟨[.blank], .blank, [.main .a, .main .b, .hash, .main .b]⟩ none).addReel
      ⟨[], .blank, []⟩ none).addCoin (.scripted [true])
    ∃ made, σ.make .trial ⟨0⟩ ⟨1⟩ none none = .ok made ∧
      let h := σ.machines.next
      let now := (((made.tick h).store.setCoin ⟨0⟩ (.scripted [false, true])).tick h).store
      ∃ s mount, (now.machines.get h).control = .trial s ∧
        (now.machines.get h).mount = some mount ∧ (s.witness? = none ↔ s.phase = .generate) ∧
        ∀ stage witness v, s = .drawn stage witness v → ∃ word,
          Placed ⟨σ.tape ⟨0⟩, σ.tape ⟨1⟩⟩ [.a, .b] [[.b]] word stage witness v
            (now.tapes mount) := by
  intro σ
  obtain ⟨made, hmade⟩ : ∃ made, σ.make .trial ⟨0⟩ ⟨1⟩ none none = .ok made :=
    Store.make_eq_ok (by decide) none none
  have hlaid : Laid ⟨σ.tape ⟨0⟩, σ.tape ⟨1⟩⟩ [.a, .b] [[.b]] :=
    { main_left := ⟨1, rfl⟩, main_focus := rfl, main_right := ⟨0, rfl⟩, first_ne_nil := by decide
      later_ne_nil := by decide, aux_blank := ⟨0, 0, rfl⟩ }
  let h := σ.machines.next
  have hfailed : Store.Reached made h (made.tick h).store := .tick .start
  have hother : Store.Untouched (made.tick h).store
      ((made.tick h).store.setCoin ⟨0⟩ (.scripted [false, true])) h :=
    { machine := rfl, reels := fun _ _ => ⟨rfl, rfl⟩ }
  obtain ⟨s, mount, hcontrol, hmount, hwitness, -, hplaced, -⟩ :=
    (placed_of_reached hmade).2 _ _ hlaid _ (.tick (.meanwhile hfailed hother))
  exact ⟨made, hmade, s, mount, hcontrol, hmount, hwitness, hplaced⟩

end SubseqMachines.Trial
