import SubseqMachines.Proofs.Store.Making
import SubseqMachines.Proofs.Trial.Reels

/-!
# The children of a trial in the store

A trial runs a child to its end within one tick. The tick can be done in the open as well: clone the
two reels, make a sampler or a matcher on the clones, run it, and take the clones over if the run
succeeds. This module does so and finds the same reels, counters and coins.

* `Store.OwnWork`, `Store.ownWork_run`: a sampler or a matcher works on its own two reels and on no
  other.
* `Store.withClones`, `Store.clones`: the store with clones of two reels, and their handles.
* `Trial.child?`, `Trial.afterChild`: which child a trial runs, and where it goes then.
* `Trial.transition_of_child`: a step of a trial told by the run of the child.
* `Trial.ChildWork`, `Trial.childWork_tick`, `Trial.childWork_run`: the tick of the trial and the
  run of the child leave the same of the store.
* `Trial.tick_eq_child`: a tick of a trial that runs a child is the work of that child on clones.
-/

namespace SubseqMachines

/-- A table is told by two new entries and those that were there before. -/
theorem Table.Alike.of_two {α : Type} [Inhabited α] {t u : Table α} {a b : α} {r s : Handle α}
    (hr : r = t.next) (hs : s = (t.add a).next) (hsize : u.size = t.size + 2)
    (hfirst : u.get r = a) (hsecond : u.get s = b)
    (hothers : ∀ k, k ≠ r → k ≠ s → u.get k = t.get k) : u.Alike ((t.add a).add b) where
  size := hsize
  get k := by
    rw [get_add, get_add, ← hr, ← hs]
    by_cases hks : k = s
    · rw [if_pos hks, hks, hsecond]
    · by_cases hkr : k = r
      · rw [if_neg hks, if_pos hkr, hkr, hfirst]
      · rw [if_neg hks, if_neg hkr, hothers k hkr hks]

/-! ## The work of a child on its reels -/

namespace Store

/-- The machine `h`, which is no trial, has the reels of `mount`, and all reels but these are as in
the store `σ`. -/
structure OwnWork (σ : Store) (h : Handle Machine) (mount : Mount) (now : Store) : Prop where
  kind : (now.machines.get h).control.kind ≠ .trial
  held : (now.machines.get h).mount = some mount
  size : now.reels.size = σ.reels.size
  others : ∀ r, r ≠ mount.main → r ≠ mount.aux → now.reels.get r = σ.reels.get r

theorem OwnWork.tick {σ now : Store} {h : Handle Machine} {mount : Mount}
    (hw : OwnWork σ h mount now) : OwnWork σ h mount (now.tick h).store := by
  have hkind : ((now.tick h).store.machines.get h).control.kind ≠ .trial := by
    rw [kind_tick]
    exact hw.kind
  rcases now.store_tick h with hstill | ⟨mount', hmount, -, hstep⟩
  · rw [hstill]
    exact hw
  · obtain rfl := Option.some.inj (hw.held.symm.trans hmount)
    let o := Device.step (now.machines.get h).control (now.bench (now.machines.get h) mount)
    -- the tapes are put back on the reels that the machine has
    have hput : now.putTapes (now.machines.get h) mount o =
        ((now.setTape mount.main o.bench.main).setTape mount.aux o.bench.aux, mount) :=
      putTapes_of_own (Control.delegates_of_ne_trial hw.kind)
    have hreels := reels_commit now h mount o
    rw [hput] at hreels
    rw [hstep] at hkind ⊢
    refine ⟨hkind, ?_, hreels.size.trans hw.size, ?_⟩
    · rw [machine_commit, hput]
    · intro r hmain haux
      rw [hreels.get, get_reels_setTape, if_neg haux, tape, get_reels_setTape, if_neg hmain]
      exact hw.others r hmain haux

/-- A machine that is no trial works on its own two reels and on no other. -/
theorem ownWork_run {σ : Store} {h : Handle Machine} {mount : Mount}
    (hkind : (σ.machines.get h).control.kind ≠ .trial)
    (hmount : (σ.machines.get h).mount = some mount) : OwnWork σ h mount (σ.run h).store :=
  run_invariant (fun _ => OwnWork.tick) ⟨hkind, hmount, rfl, fun _ _ _ => rfl⟩

/-! ## Clones -/

/-- The store with clones of two reels. -/
def withClones (σ : Store) (mount : Mount) : Store :=
  (σ.clone mount.main).clone mount.aux

/-- The handles of the clones. -/
def clones (σ : Store) (mount : Mount) : Mount where
  main := σ.reels.next
  aux := (σ.clone mount.main).reels.next
  main_ne_aux := by simp [clone, addReel, Table.next]

section Clones

variable {σ : Store} {mount : Mount}

/-- The second clone is one of an old reel, not of the first clone. -/
theorem reels_withClones (haux : mount.aux.index < σ.reels.size) :
    (σ.withClones mount).reels =
      (σ.reels.add (σ.reels.get mount.main)).add (σ.reels.get mount.aux) := by
  have hold : (σ.clone mount.main).reels.get mount.aux = σ.reels.get mount.aux :=
    (Table.Kept.add σ.reels _).get mount.aux haux
  show (σ.clone mount.main).reels.add ((σ.clone mount.main).reels.get mount.aux) = _
  rw [hold]
  rfl

/-- Clones are equal to what they are clones of. -/
theorem reels_clones (haux : mount.aux.index < σ.reels.size) :
    (σ.withClones mount).reels.get (σ.clones mount).main = σ.reels.get mount.main ∧
      (σ.withClones mount).reels.get (σ.clones mount).aux = σ.reels.get mount.aux := by
  rw [reels_withClones haux]
  refine ⟨?_, Table.get_add_next _ _⟩
  have hne : (σ.clones mount).main ≠ (σ.reels.add (σ.reels.get mount.main)).next :=
    (σ.clones mount).main_ne_aux
  rw [Table.get_add, if_neg hne]
  exact Table.get_add_next _ _

theorem reels_withClones_of_ne (haux : mount.aux.index < σ.reels.size) {r : Handle Reel}
    (hmain' : r ≠ (σ.clones mount).main) (haux' : r ≠ (σ.clones mount).aux) :
    (σ.withClones mount).reels.get r = σ.reels.get r := by
  have hsecond : r ≠ (σ.reels.add (σ.reels.get mount.main)).next := haux'
  have hfirst : r ≠ σ.reels.next := hmain'
  rw [reels_withClones haux, Table.get_add, if_neg hsecond, Table.get_add, if_neg hfirst]

theorem tapes_clones (haux : mount.aux.index < σ.reels.size) :
    (σ.withClones mount).tapes (σ.clones mount) = σ.tapes mount := by
  obtain ⟨hmain, haux⟩ := reels_clones haux
  rw [tapes, tape, tape, hmain, haux]
  rfl

end Clones

end Store

namespace Trial

/-! ## Children -/

/-- The kind of the child that a trial runs in a state, if it runs one. -/
def child? : State → Option MachineKind
  | .drawing => some .sampler
  | .drawn .verify _ _ => some .matcher
  | _ => none

/-- Where a trial goes after a child that has succeeded, with the verdict of the child and the tape
on which it has left the word. -/
def afterChild (s : State) (accepted : Bool) (aux : Tape) : State :=
  match s with
  | .drawing => .drawn .boundary aux.decodeWord 0
  | .drawn .verify witness v =>
    .drawn (if accepted then .boundary else .reject) witness (v + 1)
  | s => s

section Transition

variable {s : State} {kind : MachineKind} {b : Bench}

theorem transition_of_refused (hchild : child? s = some kind) {r : Refusal}
    (hr : kind.refusal? b.toTapes = some r) : transition s b = refused s b r := by
  match s with
  | .drawing =>
    obtain rfl := Option.some.inj hchild
    change Sampler.refusal? b.toTapes = some r at hr
    show draw b = _
    rw [draw, hr]
  | .drawn .verify witness v =>
    obtain rfl := Option.some.inj hchild
    change Matcher.refusal? b.toTapes = some r at hr
    show test witness v b = _
    rw [test, hr]

/-- The outcome `o` of a step of a trial in the state `s` is told by the run `child`. The cost and
the flips of the child are spent in any case. -/
structure Told (s : State) (child : Outcome Control) (o : Outcome State) : Prop where
  fault : o.fault = child.fault
  cost : o.cost = child.cost
  coin : o.bench.coin = child.bench.coin
  succeeded : child.fault = none → o.bench.toTapes = child.bench.toTapes ∧
    o.state = afterChild s child.state.accepted child.bench.aux

/-- **A step that runs a child is told by the run of the child.** -/
theorem transition_of_child (hchild : child? s = some kind)
    (hr : kind.refusal? b.toTapes = none) :
    Told s (Device.run kind.start b) (transition s b) := by
  match s with
  | .drawing =>
    obtain rfl := Option.some.inj hchild
    change Sampler.refusal? b.toTapes = none at hr
    show Told .drawing (Device.run (.sampler .scan) b) (draw b)
    rw [Control.run_sampler]
    cases hf : (Device.run Sampler.State.scan b).fault with
    | none =>
      rw [draw_of_run hr hf]
      exact ⟨hf.symm, rfl, rfl, fun _ => ⟨rfl, rfl⟩⟩
    | some f =>
      rw [draw, hr]
      simp only [adopt, hf]
      exact ⟨hf.symm, rfl, rfl, fun hnone => by cases hf.symm.trans hnone⟩
  | .drawn .verify witness v =>
    obtain rfl := Option.some.inj hchild
    change Matcher.refusal? b.toTapes = none at hr
    show Told (.drawn .verify witness v) (Device.run (.matcher .nextLetter) b) (test witness v b)
    rw [Control.run_matcher]
    cases hf : (Device.run Matcher.State.nextLetter b).fault with
    | none =>
      rw [test_of_run witness v hr hf]
      refine ⟨hf.symm, rfl, rfl, fun _ => ⟨rfl, ?_⟩⟩
      simp [afterChild, Control.accepted, Outcome.map]
    | some f =>
      rw [test, hr]
      simp only [adopt, hf]
      exact ⟨hf.symm, rfl, rfl, fun hnone => by cases hf.symm.trans hnone⟩

end Transition

/-! ## A tick told by a child -/

/-- The run of a child tells the same whether it is on the bench of the trial or on one of its own,
where a matcher has no coin. -/
theorem run_start {kind : MachineKind} (hkind : kind ≠ .trial) {σ τ : Store} {m : Machine}
    {mount mount' : Mount} {k : Handle Coin} (hcoin : m.coin = some k)
    (htapes : τ.tapes mount' = σ.tapes mount) (hcoins : τ.coins = σ.coins) :
    let here := Device.run kind.start (σ.bench m mount)
    let there := Device.run kind.start (τ.startBench kind m.coin mount')
    here.fault = there.fault ∧ here.state = there.state ∧ here.cost = there.cost ∧
      here.bench.toTapes = there.bench.toTapes ∧
      here.bench.coin = if kind = .matcher then σ.coins.get k else there.bench.coin := by
  intro here there
  have hbench : σ.bench m mount = (τ.startBench kind m.coin mount').withCoin (σ.coins.get k) := by
    rw [Store.bench, Store.startBench, htapes, hcoin]
    rfl
  cases kind with
  | trial => exact absurd rfl hkind
  | sampler =>
    -- the benches are the same
    have hsame : here = there := by
      refine congrArg (Device.run MachineKind.sampler.start) (hbench.trans ?_)
      rw [Store.startBench, hcoins, hcoin]
      rfl
    rw [hsame]
    exact ⟨rfl, rfl, rfl, rfl, rfl⟩
  | matcher =>
    have hrun : here = there.onBench (Bench.withCoin (σ.coins.get k)) := by
      show Device.run (Control.matcher .nextLetter) (σ.bench m mount) =
        (Device.run (Control.matcher .nextLetter) _).onBench _
      rw [hbench, Control.run_matcher, Control.run_matcher, Matcher.run_withCoin]
      rfl
    rw [hrun]
    exact ⟨rfl, rfl, rfl, rfl, rfl⟩

section Child

variable {σ made : Store} {h : Handle Machine} {mount : Mount} {s : State} {kind : MachineKind}
  {k : Handle Coin}

theorem delegates_of_child (hchild : child? s = some kind) :
    (Control.trial s).delegates = true ∧ s.halted = false ∧ kind ≠ .trial := by
  match s with
  | .drawing =>
    obtain rfl := Option.some.inj hchild
    exact ⟨rfl, rfl, nofun⟩
  | .drawn .verify _ _ =>
    obtain rfl := Option.some.inj hchild
    exact ⟨rfl, rfl, nofun⟩

/-- What the work of a child, with the outcome `p`, has left of the store, apart from the machines.
Clones of the reels of `mount` that have the counter of the machine `m`, if it has one, are two new
reels. -/
structure ChildWork (σ : Store) (m : Machine) (mount : Mount) (p : Outcome Control) (now : Store) :
    Prop where
  counters : ∀ c, (now.counters.get c).value = (σ.counters.get c).value +
    ((if (m.counter <|> σ.counterOf mount.main) = some c then p.cost.main else 0) +
      if (m.counter <|> σ.counterOf mount.aux) = some c then p.cost.aux else 0 : Nat)
  coins : ∀ c, now.coins.get c = if m.coin = some c then p.bench.coin else σ.coins.get c
  reels : p.fault = none → now.reels.Alike
    ((σ.reels.add ⟨p.bench.main, m.counter <|> σ.counterOf mount.main⟩).add
      ⟨p.bench.aux, m.counter <|> σ.counterOf mount.aux⟩)

theorem result_tick_of_refused (hcontrol : (σ.machines.get h).control = .trial s)
    (hmount : (σ.machines.get h).mount = some mount) (hchild : child? s = some kind) {r : Refusal}
    (hr : kind.refusal? (σ.tapes mount) = some r) :
    (σ.tick h).result = .error (.refusal r) := by
  obtain ⟨-, hlive, -⟩ := delegates_of_child hchild
  have hlive : Device.halted (σ.machines.get h).control = false := by rw [hcontrol]; exact hlive
  have hstep : transition s (σ.bench (σ.machines.get h) mount) = _ :=
    transition_of_refused hchild hr
  rw [Store.tick_of_live hmount hlive, hcontrol, Control.step_trial]
  show (transition s (σ.bench (σ.machines.get h) mount)).fault.elim _ Except.error = _
  rw [hstep]
  rfl

/-- A tick of a trial does the work of the child. -/
theorem childWork_tick (hcontrol : (σ.machines.get h).control = .trial s)
    (hmount : (σ.machines.get h).mount = some mount) (hchild : child? s = some kind)
    (hr : kind.refusal? (σ.tapes mount) = none) :
    let m := σ.machines.get h
    let p := Device.run kind.start (σ.bench m mount)
    let next := afterChild s p.state.accepted p.bench.aux
    let ticked := σ.tick h
    ChildWork σ m mount p ticked.store ∧ ticked.result = p.fault.elim (.ok !next.halted) .error ∧
      (p.fault = none → (ticked.store.machines.get h).control = .trial next ∧
        (ticked.store.machines.get h).mount = some (σ.clones mount)) := by
  intro m p next ticked
  obtain ⟨hdelegates, hlive, -⟩ := delegates_of_child hchild
  let b := σ.bench m mount
  let o := Device.step m.control b
  have ho : o = (Device.step s b).map .trial := by
    rw [← Control.step_trial, ← hcontrol]
  have hdelegates : m.control.delegates = true := by rw [hcontrol]; exact hdelegates
  have hlive : Device.halted m.control = false := by rw [hcontrol]; exact hlive
  have htold : Told s p (transition s b) := transition_of_child hchild hr
  have hfault : o.fault = p.fault := by rw [ho]; exact htold.fault
  have hcost : o.cost = p.cost := by rw [ho]; exact htold.cost
  have hflipped : o.bench.coin = p.bench.coin := by rw [ho]; exact htold.coin
  have hpayer : ∀ r, σ.payer m r = (m.counter <|> σ.counterOf r) := fun r => if_pos hdelegates
  have htick := Store.tick_of_live hmount hlive
  have hstore : ticked.store = σ.commit h mount o := congrArg Reply.store htick
  refine ⟨⟨?_, ?_, ?_⟩, ?_, ?_⟩
  · intro c
    rw [hstore, Store.value_counters_commit, hpayer, hpayer, hcost]
  · intro c
    rw [hstore, Store.get_coins_commit, hflipped]
  · intro hnone
    obtain ⟨htapes, -⟩ := htold.succeeded hnone
    have hreels := Store.reels_commit σ h mount o
    rw [Store.putTapes_of_adopted hdelegates
        (Outcome.gaveUp_of_fault_eq_none (hfault.trans hnone))] at hreels
    rw [hstore]
    refine hreels.trans (.of_eq ?_)
    have hmain : o.bench.main = p.bench.main := by
      rw [ho]
      exact congrArg Tapes.main htapes
    have haux : o.bench.aux = p.bench.aux := by
      rw [ho]
      exact congrArg Tapes.aux htapes
    rw [← hpayer, ← hpayer, ← hmain, ← haux]
    rfl
  · show (σ.tick h).result = _
    rw [htick]
    change o.fault.elim (Except.ok !Device.halted o.state) Except.error = _
    rw [hfault]
    cases hf : p.fault with
    | some f => rfl
    | none =>
      obtain ⟨-, hstate⟩ := htold.succeeded hf
      rw [ho]
      exact congrArg (fun s : State => Except.ok !s.halted) hstate
  · intro hnone
    obtain ⟨-, hstate⟩ := htold.succeeded hnone
    rw [hstore, Store.machine_commit]
    refine ⟨?_, ?_⟩
    · rw [ho]
      exact congrArg Control.trial hstate
    · show some (σ.putTapes m mount o).2 = _
      rw [Store.putTapes_of_adopted hdelegates
        (Outcome.gaveUp_of_fault_eq_none (hfault.trans hnone))]
      rfl

/-- A child that is made on clones and run does the work of the child. -/
theorem childWork_run (hkind : kind ≠ .trial) (haux : mount.aux.index < σ.reels.size)
    (hcoin : (σ.machines.get h).coin = some k)
    (hmake : (σ.withClones mount).make kind (σ.clones mount).main (σ.clones mount).aux
      (σ.machines.get h).counter (σ.machines.get h).coin = .ok made) :
    let m := σ.machines.get h
    let p := Device.run kind.start (σ.bench m mount)
    let ran := made.run σ.machines.next
    ChildWork σ m mount p ran.store ∧ ran.result = p.fault.elim (.ok p.state.accepted) .error := by
  intro m p ran
  obtain ⟨clones, hmain, haux', hmade⟩ := Store.exists_made hmake
  obtain rfl : clones = σ.clones mount := by
    cases clones
    cases hmain
    cases haux'
    rfl
  have honly := Store.onlyMade_of_make hmake
  obtain ⟨hmainReel, hauxReel⟩ := Store.reels_clones haux
  -- the run is one on the bench of the child, which tells the same as one on that of the trial
  let there := Device.run kind.start ((σ.withClones mount).startBench kind m.coin (σ.clones mount))
  obtain ⟨hfault, hstate, hcost, htapes, hspent⟩ :
      p.fault = there.fault ∧ p.state = there.state ∧ p.cost = there.cost ∧
        p.bench.toTapes = there.bench.toTapes ∧
        p.bench.coin = if kind = .matcher then σ.coins.get k else there.bench.coin :=
    run_start hkind hcoin (Store.tapes_clones haux) rfl
  have hmachine : made.machines.get σ.machines.next = _ := hmade.machine
  have hcontrol : (made.machines.get σ.machines.next).control.kind ≠ .trial := by
    rw [hmachine]
    cases kind with
    | matcher | sampler => exact nofun
    | trial => exact absurd rfl hkind
  obtain ⟨⟨mount', hworked⟩, -, hresult⟩ := hmade.run
  obtain rfl : mount' = σ.clones mount := hworked.mount_eq hcontrol
  have heffect : Store.Effect made ran.store _ (σ.clones mount) (σ.clones mount) there.cost
    there.bench := hworked.effect
  refine ⟨⟨?_, ?_, ?_⟩, ?_⟩
  · intro c
    rw [heffect.counters, hmade.counters, Store.tally, hmade.main_counter,
      hmade.aux_counter, Store.counterOf, Store.counterOf, hmainReel, hauxReel, hcost]
    rfl
  · intro c
    have hcoinOf : (made.machines.get (σ.withClones mount).machines.next).coin = _ :=
      congrArg Machine.coin hmachine
    rw [heffect.coins, hcoinOf, hmade.coins, hspent, hcoin]
    show (if _ then there.bench.coin else σ.coins.get c) = _
    cases kind with
    | trial => exact absurd rfl hkind
    | sampler => rfl
    | matcher =>
      -- a matcher flips no coin, and the trial's own is left as it is
      by_cases hc : some k = some c
      · rw [if_pos hc, Option.some.inj hc]
        rfl
      · rw [if_neg hc]
        rfl
  · intro hnone
    -- the run works on the clones and on no other reel
    obtain ⟨-, -, hsize, hothers⟩ := Store.ownWork_run hcontrol (by rw [hmachine])
    change ran.store.reels.size = _ at hsize
    have hnow : ∀ r, ran.store.reels.get r = ⟨ran.store.tape r, ran.store.counterOf r⟩ :=
      fun _ => rfl
    refine Table.Alike.of_two (r := (σ.clones mount).main) (s := (σ.clones mount).aux) rfl rfl
      ?_ ?_ ?_ ?_
    · rw [hsize, honly.size_reels, Store.reels_withClones haux]
      rfl
    · have htape : ran.store.tape (σ.clones mount).main = there.bench.main :=
        congrArg Tapes.main heffect.tapes
      rw [hnow, htape, heffect.main_counter, hmade.main_counter, Store.counterOf, hmainReel,
        htapes]
      rfl
    · have htape : ran.store.tape (σ.clones mount).aux = there.bench.aux :=
        congrArg Tapes.aux heffect.tapes
      rw [hnow, htape, heffect.aux_counter, hmade.aux_counter, Store.counterOf, hauxReel, htapes]
      rfl
    · intro r hr hr'
      refine (hothers r hr hr').trans ?_
      rw [honly.reels, if_neg (not_or.mpr ⟨hr, hr'⟩)]
      exact Store.reels_withClones_of_ne haux hr hr'
  · rw [hfault, hstate]
    exact hresult

/-- **A tick of a trial that runs a child is the work of that child on clones.** Clone the reels of
the trial and ask for the child on the clones, with the counter and the coin of the trial. If it is
refused, the tick fails for the same reason. If it is made and run, the counters and the coins are
what the tick leaves of them, and the tick fails as the run does. If the run succeeds, so does the
tick: the reels are the same, and the trial has the clones from now on and is in the state to which
the child's verdict and the word on the aux tape take it. -/
theorem tick_eq_child (hs : Sound σ h) (hcontrol : (σ.machines.get h).control = .trial s)
    (hmount : (σ.machines.get h).mount = some mount) (hcoin : (σ.machines.get h).coin = some k)
    (hchild : child? s = some kind) :
    let m := σ.machines.get h
    let clones := σ.clones mount
    let asked := (σ.withClones mount).ask kind clones.main clones.aux m.counter m.coin
    let ticked := σ.tick h
    (∀ why, asked.result = .error why → ticked.result = .error why) ∧
      ∀ child, asked.result = .ok child →
        let ran := asked.store.run child
        (∀ c, ticked.store.counters.get c = ran.store.counters.get c) ∧
          (∀ c, ticked.store.coins.get c = ran.store.coins.get c) ∧
          (∀ f, ran.result = .error f → ticked.result = .error f) ∧
          ∀ accepted, ran.result = .ok accepted →
            let next := afterChild s accepted (ran.store.tape clones.aux)
            ticked.result = .ok !next.halted ∧ ticked.store.reels.Alike ran.store.reels ∧
              (ticked.store.machines.get h).control = .trial next ∧
              (ticked.store.machines.get h).mount = some clones := by
  intro m clones asked ticked
  obtain ⟨-, haux⟩ := hs.held mount hmount
  obtain ⟨-, -, hkind⟩ := delegates_of_child hchild
  have htapes : kind.refusal? ⟨(σ.withClones mount).tape clones.main,
      (σ.withClones mount).tape clones.aux⟩ = kind.refusal? (σ.tapes mount) :=
    congrArg kind.refusal? (Store.tapes_clones haux)
  cases hr : kind.refusal? (σ.tapes mount) with
  | some r =>
    have hasked : asked = _ := Store.ask_of_refusal (htapes.trans hr) m.counter m.coin
    refine ⟨?_, ?_⟩
    · intro why hwhy
      rw [hasked] at hwhy
      obtain rfl := Except.error.inj hwhy
      exact result_tick_of_refused hcontrol hmount hchild hr
    · intro child hgranted
      rw [hasked] at hgranted
      cases hgranted
  | none =>
    obtain ⟨made, hmake⟩ := Store.make_eq_ok (htapes.trans hr) m.counter m.coin
    have hasked : asked = _ := Store.ask_of_make hmake
    refine ⟨?_, ?_⟩
    · intro why hwhy
      rw [hasked] at hwhy
      cases hwhy
    · intro child hgranted
      rw [hasked] at hgranted ⊢
      obtain rfl := Except.ok.inj hgranted
      intro ran
      -- the tick and the run both do the work of the child
      obtain ⟨hwork, hresult, htaken⟩ := childWork_tick hcontrol hmount hchild hr
      obtain ⟨hwork', hresult'⟩ := childWork_run hkind haux hcoin hmake
      let p := Device.run kind.start (σ.bench m mount)
      change ticked.result = p.fault.elim _ Except.error at hresult
      change ran.result = p.fault.elim (.ok p.state.accepted) .error at hresult'
      refine ⟨?_, ?_, ?_, ?_⟩
      · intro c
        exact congrArg Counter.mk ((hwork.counters c).trans (hwork'.counters c).symm)
      · intro c
        exact (hwork.coins c).trans (hwork'.coins c).symm
      · intro f hf
        rw [hf] at hresult'
        cases hfault : p.fault with
        | none =>
          rw [hfault] at hresult'
          cases hresult'
        | some g =>
          rw [hfault] at hresult hresult'
          exact hresult.trans hresult'.symm
      · intro accepted haccepted next
        rw [haccepted] at hresult'
        cases hfault : p.fault with
        | some g =>
          rw [hfault] at hresult'
          cases hresult'
        | none =>
          rw [hfault] at hresult hresult'
          obtain rfl := Except.ok.inj hresult'
          have hreels := hwork'.reels hfault
          -- the clone of the aux reel holds what the child has left there
          have hword : ran.store.tape clones.aux = p.bench.aux :=
            congrArg Reel.tape ((hreels.get _).trans (Table.get_add_next _ _))
          have hnext : next = afterChild s p.state.accepted p.bench.aux := by
            rw [← hword]
          obtain ⟨hstate, hheld⟩ := htaken hfault
          rw [hnext]
          exact ⟨hresult, (hwork.reels hfault).trans hreels.symm, hstate, hheld⟩

end Child

end Trial

end SubseqMachines
