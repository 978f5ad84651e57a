import SubseqMachines.Store.Basic

/-!
# Machines in the store

A machine is made on two reels, ticks and is run, and in the end surrenders its reels.

* A matcher and a sampler work on the reels themselves: all who hold them see the heads move.
* A trial's children work on clones. When a child succeeds, its clones become the trial's reels, and
  the reels that the trial held before are left as they are. This comes before the trial looks at
  what a sampler has left.
* The operations of a machine count on the counter of the reel they are made on. A counter given to
  a machine is attached to its reels when it is made, and to the clones of a trial.

Main definitions and results:

* `Store.make`, `Store.tick`, `Store.run`, `Store.destroy`;
* `Store.remaining_tick`: each tick that does not fail or end the run brings its end nearer,
  whatever the reels hold.
-/

namespace SubseqMachines

namespace Store

/-! ## Making -/

/-- Attach a counter to two reels, if there is one. -/
def attachBoth (σ : Store) (main aux : Handle Reel) (counter : Option (Handle Counter)) : Store :=
  match counter with
  | none => σ
  | some _ => (σ.attach main counter).attach aux counter

/-- Enter a machine of a kind on two reels, under the next handle. Without a coin of its own a
machine takes the common one. -/
def make (σ : Store) (kind : MachineKind) (main aux : Handle Reel)
    (counter : Option (Handle Counter)) (coin : Option (Handle Coin)) : Except Refusal Store :=
  match hr : kind.refusal? ⟨σ.tape main, σ.tape aux⟩ with
  | some r => .error r
  | none =>
    let mount : Mount :=
      { main, aux
        main_ne_aux := fun h => kind.refusal?_self_ne_none _ (h ▸ hr) }
    let machine : Machine :=
      { control := kind.start, ticks := 0, mount := some mount, counter
        coin := if kind = .matcher then none else some (coin.getD commonCoin) }
    let σ := σ.attachBoth main aux counter
    .ok { σ with machines := σ.machines.add machine }

/-! ## Ticking -/

/-- The tapes on a machine's reels. -/
def tapes (σ : Store) (mount : Mount) : Tapes :=
  ⟨σ.tape mount.main, σ.tape mount.aux⟩

/-- What a machine with the given reels works on. -/
def bench (σ : Store) (m : Machine) (mount : Mount) : Bench :=
  { toTapes := σ.tapes mount, coin := (m.coin.map σ.coins.get).getD default }

/-- The counter for the next operations of a machine on one of its reels. Clones count on the
machine's own counter, if it has one. -/
def payer (σ : Store) (m : Machine) (h : Handle Reel) : Option (Handle Counter) :=
  if m.control.delegates then m.counter <|> σ.counterOf h else σ.counterOf h

/-- The store with the cost of a step counted. -/
def charge (σ : Store) (m : Machine) (mount : Mount) (cost : Cost) : Store :=
  (σ.count (σ.payer m mount.main) cost.main).count (σ.payer m mount.aux) cost.aux

/-- The store with a machine's coin replaced, if it has one. -/
def putCoin (σ : Store) (m : Machine) (c : Coin) : Store :=
  match m.coin with
  | none => σ
  | some h => σ.setCoin h c

/-- The store with a machine replaced. -/
def setMachine (σ : Store) (h : Handle Machine) (m : Machine) : Store :=
  { σ with machines := σ.machines.set h m }

/-- Clones of a machine's reels that a child has worked on, as the machine's reels from now on. -/
def remount (σ : Store) (m : Machine) (mount : Mount) (t : Tapes) : Store × Mount :=
  let withMain := σ.addReel t.main (σ.payer m mount.main)
  let withBoth := withMain.addReel t.aux (σ.payer m mount.aux)
  (withBoth, ⟨σ.reels.next, withMain.reels.next, by simp [withMain, addReel, Table.next]⟩)

/-- The tapes of a step put where they belong: on the machine's own reels, or, if those of a child
have been taken over, on new ones. -/
def putTapes (σ : Store) (m : Machine) (mount : Mount) (o : Outcome Control) : Store × Mount :=
  if m.control.delegates then
    if o.gaveUp then (σ, mount) else σ.remount m mount o.bench.toTapes
  else
    ((σ.setTape mount.main o.bench.main).setTape mount.aux o.bench.aux, mount)

/-- The store after a step of a machine. -/
def commit (σ : Store) (h : Handle Machine) (mount : Mount) (o : Outcome Control) : Store :=
  let m := σ.machines.get h
  let charged := (σ.charge m mount o.cost).putCoin m o.bench.coin
  let (σ, mount) := charged.putTapes m mount o
  σ.setMachine h { m with control := o.state, ticks := m.ticks + 1, mount := some mount }

/-- One step of a machine. The answer tells whether the machine goes on. In a final state nothing is
done. -/
def tick (σ : Store) (h : Handle Machine) : Reply Bool :=
  let m := σ.machines.get h
  match m.mount with
  | none => { store := σ, result := .error (.misuse (.destroyed m.control.kind)) }
  | some mount =>
    if Device.halted m.control then { store := σ, result := .ok false }
    else
      let o := Device.step m.control (σ.bench m mount)
      { store := σ.commit h mount o, trace := o.trace
        result := o.fault.elim (.ok !Device.halted o.state) .error }

/-! ## Running -/

/-- A number of ticks after which a run is over. -/
def remaining (σ : Store) (h : Handle Machine) : Nat :=
  let m := σ.machines.get h
  match m.mount with
  | none => 0
  | some mount => Device.remaining m.control (σ.tapes mount)

/-- A step that does not fail leaves its tapes on the reels that the machine then has. -/
theorem tapes_putTapes {σ : Store} {m : Machine} {mount : Mount} {o : Outcome Control}
    (hf : o.fault = none) :
    (σ.putTapes m mount o).1.tapes (σ.putTapes m mount o).2 = o.bench.toTapes := by
  unfold putTapes
  split
  -- a child's tapes are on two new reels, a machine's own tapes on its two old ones
  · simp [Outcome.gaveUp_of_fault_eq_none hf, remount, tapes, tape, addReel, Table.get_add,
      Table.next]
  · simp [tapes, tape, setTape, Table.get_set, mount.main_ne_aux]

/-- After a step that does not fail the rest of the run is what the step has left of it. -/
theorem remaining_commit {σ : Store} {h : Handle Machine} {mount : Mount} {o : Outcome Control}
    (hf : o.fault = none) :
    (σ.commit h mount o).remaining h = Device.remaining o.state o.bench.toTapes := by
  simp only [remaining, commit, setMachine, Table.get_set_self]
  exact congrArg _ (tapes_putTapes hf)

/-- Each tick that neither fails nor ends the run brings its end nearer. -/
theorem remaining_tick {σ : Store} {h : Handle Machine} (ht : (σ.tick h).result = .ok true) :
    (σ.tick h).store.remaining h < σ.remaining h := by
  unfold tick at ht ⊢
  cases hm : (σ.machines.get h).mount with
  | none => simp [hm] at ht
  | some mount =>
    cases hs : Device.halted (σ.machines.get h).control with
    | true => simp [hm, hs] at ht
    | false =>
      simp only [hm, hs, Bool.false_eq_true, if_false] at ht ⊢
      generalize ho : Device.step (σ.machines.get h).control _ = o at ht ⊢
      have hf : o.fault = none := by
        cases hf : o.fault <;> simp_all
      -- what is left after the tick is what the step has left of the run
      rw [remaining_commit hf]
      subst ho
      simpa only [remaining, hm, bench] using Device.remaining_step hs hf

/-- Tick until the machine stops or fails, after a trace that is kept backwards. -/
def runOn (σ : Store) (h : Handle Machine) (past : List Event) : Reply Bool :=
  let r := σ.tick h
  let trace := r.trace.reverse ++ past
  match ht : r.result with
  | .error f => { store := r.store, trace := trace.reverse, result := .error f }
  | .ok true =>
    have := remaining_tick ht
    runOn r.store h trace
  | .ok false =>
    { store := r.store, trace := trace.reverse
      result := .ok (r.store.machines.get h).control.accepted }
termination_by σ.remaining h

/-- Run a machine that has not ticked before to its verdict. -/
def run (σ : Store) (h : Handle Machine) : Reply Bool :=
  let m := σ.machines.get h
  if m.mount.isNone then { store := σ, result := .error (.misuse (.destroyed m.control.kind)) }
  else if m.ticks ≠ 0 then { store := σ, result := .error (.misuse (.rerun m.control.kind)) }
  else σ.runOn h []

/-! ## Ending and asking -/

/-- Take the reels from a machine, which is of no further use. -/
def destroy (σ : Store) (h : Handle Machine) : Reply Mount :=
  let m := σ.machines.get h
  match m.mount with
  | none => { store := σ, result := .error (.misuse (.destroyed m.control.kind)) }
  | some mount => { store := σ.setMachine h { m with mount := none }, result := .ok mount }

/-- The witness of a trial, which has to be drawn already. -/
def witness (σ : Store) (h : Handle Machine) : Except Fault String :=
  (σ.machines.get h).control.witness?.elim (.error (.misuse .noWitness)) .ok

end Store

end SubseqMachines
