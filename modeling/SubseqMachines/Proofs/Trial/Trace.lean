import SubseqMachines.Proofs.Machine.Texts
import SubseqMachines.Proofs.Matcher.Trace
import SubseqMachines.Proofs.Sampler.Trace
import SubseqMachines.Proofs.Store.Entered
import SubseqMachines.Proofs.Store.Trace
import SubseqMachines.Proofs.Trial.Verdict

/-!
# What a trial reports

A trial reports its own states and lets its children report theirs. Its children work on its tapes,
and not on tapes that have been laid out for them; but what a child reports depends on its block and
its word only. So it is what a machine reports that is on its own.

* `Trial.tour`: what is reported from the first boundary on.
* `Trial.trace_run_boundary`, `Trial.trace_run_of_laid`: the trace of a run.
* `Store.solo`: the trace of a machine on its own.
* `Trial.trace_run_eq_nested`: the trace of a trial is made of those of its children on their own.
-/

namespace SubseqMachines

namespace Trial

/-! ## From block to block -/

/-- What the test of a block reports: the two states of the trial, and those of the matcher. -/
def testReports (word block : List Letter) : List Event :=
  [.trial .boundary, .trial .verify] ++ (Matcher.itinerary word 0 block).map .matcher

/-- What a trial reports of its last look or of the rejection. -/
def verdictReports (accepted : Prop) [Decidable accepted] : List Event :=
  if accepted then [.trial .boundary, .trial .accept] else [.trial .reject]

/-- What is reported of blocks that are to be tested, up to the verdict. -/
def tour (word : List Letter) : List (List Letter) → List Event
  | [] => [.trial .boundary, .trial .accept]
  | block :: later =>
    testReports word block ++ if word.Sublist block then tour word later else [.trial .reject]

theorem tested_cons (word block : List Letter) (later : List (List Letter)) :
    tested word (block :: later) = if word.Sublist block then tested word later + 1 else 1 := by
  unfold tested
  rw [List.findIdx?_cons]
  by_cases hsub : word.Sublist block
  · simp only [hsub, decide_true, Bool.not_true, Bool.false_eq_true, if_false, if_true]
    cases List.findIdx? (fun block => !decide (word.Sublist block)) later <;> rfl
  · simp [hsub]

/-- The reports of the blocks that are tested, and that of the verdict. -/
theorem tour_eq (word : List Letter) (later : List (List Letter)) :
    tour word later = (later.take (tested word later)).flatMap (testReports word) ++
      verdictReports (∀ block ∈ later, word.Sublist block) := by
  induction later with
  | nil => rfl
  | cons block later ih =>
    rw [tour, tested_cons]
    by_cases hsub : word.Sublist block
    · simp only [hsub, if_true, ih, List.take_succ_cons, List.flatMap_cons, List.append_assoc,
        verdictReports, List.forall_mem_cons, true_and]
    · simp [hsub, verdictReports]

section Run

variable {b : Bench} {first word : List Letter} {later : List (List Letter)} {coin : Coin}

/-- **What a trial reports from a boundary on.** -/
theorem trace_run_boundary (h : Laid b.toTapes first later) (hword : word ≠ []) (witness : String)
    {v reach : Nat} (hv : v ≤ later.length) :
    (Device.run (State.drawn .boundary witness v) (spot b first later word coin v reach)).trace =
      tour word (later.drop v) := by
  -- on the number of blocks that have not been tested; the heads are at the end of the last one
  -- that has
  induction hn : later.length - v generalizing v reach with
  | zero =>
    -- all blocks have been tested
    obtain rfl : v = later.length := by omega
    let c := spot b first later word coin later.length reach
    have hstage : afterBoundary? c.main.focus = some .accept := by
      rw [main_focus_spot_end h, afterBoundary?]
    have hlook : look witness later.length c = _ := look_of_stage witness later.length hstage
    rw [List.drop_length]
    exact Device.trace_run_of_transition (s := State.drawn .boundary witness later.length) rfl hlook
  | succ n ih =>
    have hlt : v < later.length := by omega
    let c := spot b first later word coin v reach
    have hstage : afterBoundary? c.main.focus = some .verify := by
      rw [main_focus_spot h hlt, afterBoundary?]
    have hlook : look witness v c = _ := look_of_stage witness v hstage
    obtain ⟨rest, hlaid, hclosed⟩ : ∃ rest, Matcher.Laid c.toTapes later[v] word rest ∧
        (rest.headD .blank).isBlockEnd = true := exists_matcher_laid h hword hlt
    have htest := test_of_laid hlaid hclosed witness v
    rw [Matcher.trace_run_of_laid hlaid hclosed, show c.coin = coin from rfl, spot_succ hlt] at htest
    have hboundary := Device.trace_run_of_transition
      (s := State.drawn .boundary witness v) (b := c) rfl hlook
    have hverify := Device.trace_run_of_transition
      (s := State.drawn .verify witness v) (b := c) rfl htest
    rw [List.drop_eq_getElem_cons hlt, tour]
    -- a look, a test, and then either the next boundary or the rejection
    refine hboundary.trans (congrArg (Event.trial .boundary :: ·) ?_)
    refine hverify.trans (congrArg (Event.trial .verify :: ·) ?_)
    refine congrArg (_ ++ ·) ?_
    -- only a block that contains the witness is followed by another look
    by_cases hsub : word.Sublist later[v]
    · simp only [hsub, if_true]
      exact ih hlt (by omega)
    · simp only [hsub, if_false]
      rfl

/-- **What a trial reports.** -/
theorem trace_run_of_laid {flips : List Bool} (h : Laid b.toTapes first later)
    (hflips : b.coin.flips? first.length = some (flips, coin))
    (hword : flips.map Letter.ofFlip = word) :
    (Device.run State.drawing b).trace =
      [.trial .generate] ++ (Sampler.itinerary first.length).map .sampler ++
        [.witness (Letter.spell word)] ++ tour word later := by
  obtain ⟨n, hsampler⟩ := h.sampler
  have hdraw := draw_of_laid h hflips
  rw [hword, ← spot_start b first later,
    Sampler.trace_run_of_laid hsampler (by rw [hflips]; rfl)] at hdraw
  have hne : word ≠ [] := by
    rintro rfl
    have hlen := Coin.length_of_flips? hflips
    rw [List.map_eq_nil_iff.mp hword] at hlen
    exact h.first_ne_nil (List.eq_nil_of_length_eq_zero hlen.symm)
  have hstep := Device.trace_run_of_transition (s := State.drawing) (b := b) rfl hdraw
  refine hstep.trans ?_
  have hrest : (Device.run (State.drawn .boundary (Letter.spell word) 0)
      (spot b first later word coin 0 0)).trace = tour word (later.drop 0) :=
    trace_run_boundary h hne (Letter.spell word) (Nat.zero_le _)
  rw [List.drop_zero] at hrest
  show Event.trial .generate :: ((Sampler.itinerary first.length).map .sampler ++
    [.witness (Letter.spell word)] ++ (Device.run (State.drawn .boundary (Letter.spell word) 0)
      (spot b first later word coin 0 0)).trace) = _
  rw [hrest]
  simp only [List.append_assoc, List.cons_append, List.nil_append]

end Run

end Trial

/-! ## Machines on their own -/

/-- The trace of a machine of a kind that is built from a text and, for a matcher, a word, and is
run on its own with a script for its coin. -/
def Store.solo (σ : Store) (kind : MachineKind) (text : String) (word : Option String)
    (flips : List Bool) : Except Fault (List Event) := do
  let built ← σ.enter kind (← kind.layout text word) (.scripted flips)
  let ran := built.store.run built.machine
  let _ ← ran.result
  return ran.trace

namespace Store

variable (σ : Store)

/-- A machine on its own reports what its device does, if that does not fail. -/
theorem solo_eq {kind : MachineKind} {text : String} {word : Option String} {flips : List Bool}
    {t : Tapes} {o : Outcome Control} (hlayout : kind.layout text word = .ok t)
    (hr : kind.refusal? t = none)
    (ho : Device.run kind.start (ownBench kind t (.scripted flips)) = o) (hf : o.fault = none) :
    σ.solo kind text word flips = .ok o.trace := by
  obtain ⟨built, hbuilt, hran⟩ := σ.exists_ran hr (.scripted flips)
  rw [ho] at hran
  have hresult := hran.result
  rw [hf, Option.elim_none] at hresult
  rw [solo, hlayout]
  show (σ.enter kind t (.scripted flips)).bind _ = _
  rw [hbuilt]
  show (built.store.run built.machine).result.bind _ = _
  rw [hresult, ← hran.trace]
  rfl

/-- A sampler on its own, on a block, with enough flips. -/
theorem solo_sampler {block : List Letter} {flips : List Bool} (hblock : block ≠ [])
    (hflips : block.length ≤ flips.length) :
    σ.solo .sampler (Letter.spell block) none flips =
      .ok ((Sampler.itinerary block.length).map .sampler) := by
  have hlaid := Sampler.laid_of_spell hblock
  let b := ownBench .sampler ⟨.startingAt .blank (block.map .main ++ [.hash]), .blank⟩
    (.scripted flips)
  have hgiven : b.coin.flips? block.length = some (flips.take block.length,
      .scripted (flips.drop block.length)) := by
    show (Coin.scripted flips).flips? block.length = _
    rw [Coin.flips?_scripted, if_pos hflips]
  have htrace := Sampler.trace_run_of_laid (b := b) hlaid (by rw [hgiven]; rfl)
  have hlayout : MachineKind.sampler.layout (Letter.spell block) none = .ok b.toTapes :=
    samplerTapes_spell block
  rw [← htrace]
  exact σ.solo_eq hlayout
    (Sampler.refusal?_eq_none_iff.mpr ⟨_, _, hlaid⟩) (Control.run_sampler .scan b)
    (Sampler.run_of_laid (b := b) hlaid hgiven).1

/-- A matcher on its own, on a block and a word. -/
theorem solo_matcher {block word : List Letter} (hblock : block ≠ []) (hword : word ≠ [])
    (flips : List Bool) :
    σ.solo .matcher (Letter.spell block) (some (Letter.spell word)) flips =
      .ok ((Matcher.itinerary word 0 block).map .matcher) := by
  have hlaid := Matcher.laid_of_spell hblock hword
  let b := ownBench .matcher ⟨.startingAt .hash (block.map .main ++ [.hash]),
    .startingAt .blank (word.map .aux ++ [.blank])⟩ (.scripted flips)
  have hlayout : MachineKind.matcher.layout (Letter.spell block) (some (Letter.spell word)) =
      .ok b.toTapes := by
    have hne : ¬ (Letter.spell word).isEmpty = true := by
      simpa using spell_ne_empty_iff.mpr hword
    show (if (Letter.spell word).isEmpty then _ else _) = _
    rw [if_neg hne]
    exact matcherTapes_spell block word
  have htrace := Matcher.trace_run_of_laid (b := b) hlaid rfl
  rw [← htrace]
  exact σ.solo_eq hlayout (Matcher.refusal?_eq_none_iff.mpr ⟨_, _, _, hlaid⟩)
    (Control.run_matcher .nextLetter b) (Matcher.run_of_laid (b := b) hlaid rfl).1

end Store

/-! ## The trace of a trial -/

theorem Sampler.map_text_itinerary (n : Nat) :
    ((itinerary n).map Event.sampler).map Event.text =
      "M2 S_SCAN" :: ((List.replicate n ["M2 S_EXTEND", "M2 S_SCAN"]).flatten ++
        (List.replicate n "M2 S_REWIND" ++ ["M2 S_ACCEPT"])) := by
  simp only [itinerary, List.map_cons, List.map_append, List.map_flatten, List.map_replicate]
  rfl

namespace Trial

/-- The run of a trial that has just been made. -/
theorem trace_run_of_made {σ made : Store} {counter : Option (Handle Counter)}
    {coin : Option (Handle Coin)} {mount : Mount} {first : List Letter}
    {later : List (List Letter)} {flips : List Bool} {left : Coin}
    (hm : σ.Made made .trial counter coin mount) (hlaid : Laid (σ.tapes mount) first later)
    (hflips : (σ.coins.get (coin.getD Store.commonCoin)).flips? first.length = some (flips, left)) :
    let word := flips.map Letter.ofFlip
    let accepted := ∀ block ∈ later, word.Sublist block
    let r := made.run σ.machines.next
    r.trace = [.trial .generate] ++ (Sampler.itinerary first.length).map .sampler ++
        [.witness (Letter.spell word)] ++ tour word later ∧
      r.result = .ok (decide accepted) ∧
      (r.store.machines.get σ.machines.next).control =
        .trial (.drawn (if accepted then .accept else .reject) (Letter.spell word)
          (tested word later)) := by
  intro word accepted r
  let b := σ.startBench .trial coin mount
  obtain ⟨-, htrace, -⟩ := hm.run
  obtain ⟨⟨mount', hworked⟩, hresult⟩ := exists_worked_run hm hlaid hflips rfl
  obtain ⟨-, hstate, -⟩ := run_of_laid (b := b) hlaid hflips rfl
  have hrun : Device.run MachineKind.trial.start b = (Device.run State.drawing b).map .trial :=
    Control.run_trial .drawing b
  refine ⟨?_, hresult, ?_⟩
  · exact htrace.trans ((congrArg Outcome.trace hrun).trans
      (trace_run_of_laid (b := b) hlaid hflips rfl))
  · exact (congrArg Machine.control hworked.machine).trans (congrArg Control.trial hstate)

/-- **The trace of a trial nests those of its children.** A trial is made on blocks, of which the
first one is `first`, and its coin can give `flips`, one for each letter of `first`. Its run reports
the states of the trial. After the first one it reports what a sampler on its own reports of `first`
and the same flips, and then the witness. At each block that is verified, it reports what a matcher
on its own reports of the block and the witness.

In any run of any machine that comes to its end, whatever others have done to its tapes before it, the
reports of its own states are one more than its ticks, and the last one names its final state. -/
theorem trace_run_eq_nested :
    (∀ {σ made : Store} {main aux : Handle Reel} {counter : Option (Handle Counter)}
      {coin : Option (Handle Coin)} {first : List Letter} {later : List (List Letter)}
      {flips : List Bool} {left : Coin}, σ.make .trial main aux counter coin = .ok made →
      Laid ⟨σ.tape main, σ.tape aux⟩ first later →
      (σ.coins.get (coin.getD Store.commonCoin)).flips? first.length = some (flips, left) →
      let L := first.length
      let witness := Letter.spell (flips.map Letter.ofFlip)
      let r := made.run σ.machines.next
      let m := r.store.machines.get σ.machines.next
      ∃ (drawn : List Event) (test : List Letter → List Event),
        r.result = .ok m.control.accepted ∧ m.control.witness? = some witness ∧
        (∀ common, (Store.initial common).solo .sampler (Letter.spell first) none flips = .ok drawn ∧
          ∀ block ∈ later, (Store.initial common).solo .matcher (Letter.spell block) (some witness)
            [] = .ok (test block)) ∧
        drawn.map Event.text =
          "M2 S_SCAN" :: ((List.replicate L ["M2 S_EXTEND", "M2 S_SCAN"]).flatten ++
            (List.replicate L "M2 S_REWIND" ++ ["M2 S_ACCEPT"])) ∧
        r.trace.map Event.text =
          ["M3 S_GENERATE"] ++ drawn.map Event.text ++ ["M3 witness " ++ witness] ++
            (later.take m.control.verified).flatMap (fun block =>
              ["M3 S_BOUNDARY", "M3 S_VERIFY"] ++ (test block).map Event.text) ++
            if m.control.accepted then ["M3 S_BOUNDARY", "M3 S_ACCEPT"] else ["M3 S_REJECT"]) ∧
    ∀ {σ made now : Store} {kind : MachineKind} {main aux : Handle Reel}
      {counter : Option (Handle Counter)} {coin : Option (Handle Coin)} {verdict : Bool},
      σ.make kind main aux counter coin = .ok made →
      now.machines.get σ.machines.next = made.machines.get σ.machines.next →
      (now.run σ.machines.next).result = .ok verdict →
      let r := now.run σ.machines.next
      let m := r.store.machines.get σ.machines.next
      let own := r.trace.filter fun e => e.reporter? = some kind
      own.length = m.ticks + 1 ∧
        own.getLast?.map Event.text = some (kind.label ++ " " ++ m.control.name) := by
  constructor
  · intro σ made main aux counter coin first later flips left hmade hlaid hflips L witness r m
    obtain ⟨mount, rfl, rfl, hm⟩ := Store.exists_made hmade
    let word := flips.map Letter.ofFlip
    let accepted := ∀ block ∈ later, word.Sublist block
    obtain ⟨htrace, hresult, hcontrol⟩ := trace_run_of_made hm hlaid hflips
    have hlen : L = flips.length := (Coin.length_of_flips? hflips).symm
    have hword : word ≠ [] := by
      intro hnil
      rw [List.map_eq_nil_iff.mp hnil] at hlen
      exact hlaid.first_ne_nil (List.eq_nil_of_length_eq_zero hlen)
    have haccepted : m.control.accepted = decide accepted := by
      rw [hcontrol]
      by_cases hall : accepted
      · rw [if_pos hall, decide_eq_true hall]
        rfl
      · rw [if_neg hall, decide_eq_false hall]
        rfl
    refine ⟨(Sampler.itinerary L).map .sampler,
      fun block => (Matcher.itinerary word 0 block).map .matcher, ?_, ?_, ?_,
      Sampler.map_text_itinerary L, ?_⟩
    · rw [haccepted]
      exact hresult
    · rw [hcontrol]
      rfl
    · intro common
      exact ⟨(Store.initial common).solo_sampler hlaid.first_ne_nil hlen.le, fun block hblock =>
        (Store.initial common).solo_matcher (hlaid.later_ne_nil block hblock) hword []⟩
    · have hverified : m.control.verified = tested word later := by
        rw [hcontrol]
        rfl
      have hverdict : (verdictReports accepted).map Event.text =
          if decide accepted then ["M3 S_BOUNDARY", "M3 S_ACCEPT"] else ["M3 S_REJECT"] := by
        by_cases hall : accepted <;> simp only [verdictReports, hall, decide_true, decide_false] <;>
          rfl
      rw [haccepted, hverified, htrace, tour_eq, ← hverdict]
      simp only [List.map_append, List.map_flatMap, testReports, List.append_assoc]
      rfl
  · intro σ made now kind main aux counter coin verdict hmade hnow hresult r m own
    obtain ⟨mount, -, -, hm⟩ := Store.exists_made hmade
    have hstart : now.machines.get σ.machines.next = _ := hnow.trans hm.machine
    have hrun : now.run σ.machines.next = now.runOn σ.machines.next [] :=
      Store.run_of_fresh (by rw [hstart]; rfl) (by rw [hstart])
    obtain ⟨reports, hlen, hown⟩ := Store.exists_ownOf_trace_runOn
      (by rw [hstart]; exact Control.halted_start kind) [] (hrun ▸ hresult)
    rw [← hrun, hstart, Nat.add_zero] at hlen
    rw [← hrun, hstart, Control.kind_start, List.reverse_nil, Event.ownOf_nil,
      List.nil_append] at hown
    have hkind : m.control.kind = kind :=
      Store.run_invariant (P := fun τ => (τ.machines.get σ.machines.next).control.kind = kind)
        (fun τ hτ => (τ.kind_tick _).trans hτ) (by rw [hstart]; exact Control.kind_start kind)
    have howns : own = reports ++ [Device.event m.control] := hown
    rw [howns]
    refine ⟨?_, ?_⟩
    · rw [List.length_append, hlen]
      rfl
    · rw [List.getLast?_concat, Option.map_some, Control.text_event, hkind]

/-- The blocks `a` and `b` and a flip that spells `a`. -/
theorem trace_run_eq_nested_a_b :
    let σ := ((({} : Store).addReel ⟨[.blank], .blank, [.main .a, .hash, .main .b]⟩ none).addReel
      ⟨[], .blank, []⟩ none).addCoin (.scripted [true])
    ∃ made, σ.make .trial ⟨0⟩ ⟨1⟩ none none = .ok made ∧
      let r := made.run σ.machines.next
      r.trace.map Event.text =
          ["M3 S_GENERATE", "M2 S_SCAN", "M2 S_EXTEND", "M2 S_SCAN", "M2 S_REWIND", "M2 S_ACCEPT",
            "M3 witness a", "M3 S_BOUNDARY", "M3 S_VERIFY", "M1 S_NEXT_LETTER", "M1 S_SEEK_A",
            "M1 S_SEEK_A", "M1 S_REWIND_UNMATCHED", "M1 S_REJECT", "M3 S_REJECT"] ∧
        (r.trace.filter fun e => e.reporter? = some .trial).length =
          (r.store.machines.get σ.machines.next).ticks + 1 := by
  intro σ
  obtain ⟨made, hmade⟩ : ∃ made, σ.make .trial ⟨0⟩ ⟨1⟩ none none = .ok made :=
    Store.make_eq_ok (by decide) none none
  have hlaid : Laid ⟨σ.tape ⟨0⟩, σ.tape ⟨1⟩⟩ [.a] [[.b]] :=
    { main_left := ⟨1, rfl⟩, main_focus := rfl, main_right := ⟨0, rfl⟩, first_ne_nil := by decide
      later_ne_nil := by decide, aux_blank := ⟨0, 0, rfl⟩ }
  have hflips : (σ.coins.get (Option.getD none Store.commonCoin)).flips? 1 =
      some ([true], .scripted []) := rfl
  obtain ⟨mount, hmain, haux, hm⟩ := Store.exists_made hmade
  have hmounted : Laid (σ.tapes mount) [.a] [[.b]] := by
    rw [Store.tapes, hmain, haux]
    exact hlaid
  obtain ⟨-, hverdict, hcontrol⟩ := trace_run_of_made hm hmounted hflips
  obtain ⟨hnested, hown⟩ := trace_run_eq_nested
  obtain ⟨drawn, test, -, -, halone, hdrawn, htrace⟩ := hnested hmade hlaid hflips
  refine ⟨made, hmade, ?_, (hown hmade rfl hverdict).1⟩
  -- the one test is that of a matcher on its own
  have hb : test [.b] = (Matcher.itinerary [.a] 0 [.b]).map .matcher :=
    Except.ok.inj (((halone default).2 [.b] (by decide)).symm.trans
      ((Store.initial default).solo_matcher (by decide) (by decide) []))
  rw [htrace, hdrawn, hcontrol]
  show _ ++ ([[Letter.b]].take 1).flatMap _ ++ ["M3 S_REJECT"] = _
  rw [List.take_one, List.head?_cons, Option.toList_some, List.flatMap_singleton, hb]
  decide

end Trial

end SubseqMachines
