import SubseqMachines.Proofs.Machine.Texts
import SubseqMachines.Proofs.Store.Ticks

/-!
# Machines on tapes of their own

A machine that is entered on new reels, with a new counter and a new coin, has nothing from the
store that it is entered in. What its run answers and leaves is what its device makes of the tapes
and the coin.

* `Store.enter_of_refusal`: on tapes that are not in order no machine is entered.
* `Store.Ran`, `Store.exists_ran`: on all others one is, and its run is the run of its device.
* `Store.build_of_takes`, `Store.build_refused`: machines from texts that the kind takes, and from
  those that it does not.
-/

namespace SubseqMachines.Store

/-- What the device of a machine starts on that has the tapes `t` and the coin to itself. A matcher
has no coin. -/
def ownBench (kind : MachineKind) (t : Tapes) (coin : Coin) : Bench where
  toTapes := t
  coin := if kind = .matcher then default else coin

/-- The run of a machine that has been built has the outcome `o`. -/
structure Ran (built : Built) (o : Outcome Control) : Prop where
  trace : (built.store.run built.machine).trace = o.trace
  result : (built.store.run built.machine).result = o.fault.elim (.ok o.state.accepted) .error
  control : ((built.store.run built.machine).store.machines.get built.machine).control = o.state
  tapes : ∃ mount, ((built.store.run built.machine).store.machines.get built.machine).mount =
    some mount ∧ (built.store.run built.machine).store.tapes mount = o.bench.toTapes
  value : ((built.store.run built.machine).store.counters.get built.counter).value = o.cost.total

/-- A machine that has just been made with a counter that stands at zero. -/
theorem Made.ran {ready made : Store} {kind : MachineKind} {counter : Handle Counter}
    {own : Option (Handle Coin)} {mount : Mount}
    (hm : ready.Made made kind (some counter) own mount)
    (hzero : (ready.counters.get counter).value = 0) :
    Ran { store := made, machine := ready.machines.next, counter }
      (Device.run kind.start (ready.startBench kind own mount)) := by
  obtain ⟨⟨mount', hworked⟩, htrace, hresult⟩ := hm.run
  refine
    { trace := htrace, result := hresult, control := congrArg Machine.control hworked.machine
      tapes := ⟨mount', congrArg Machine.mount hworked.machine, hworked.effect.tapes⟩
      value := ?_ }
  rw [hm.value_of_worked hworked (.inl rfl), hzero, Int.zero_add]

section Enter

variable (σ : Store) {kind : MachineKind} {t : Tapes}

/-- The store with new reels that hold the tapes, a new counter and a new coin. -/
def readyFor (t : Tapes) (coin : Coin) : Store :=
  (((σ.addCounter 0).addReel t.main none).addReel t.aux none).addCoin coin

/-- The reel for the aux tape comes right after the one for the main tape. -/
def nextAux : Handle Reel :=
  ((σ.addCounter 0).addReel .blank none).reels.next

theorem tapes_readyFor (t : Tapes) (coin : Coin) :
    Tapes.mk ((σ.readyFor t coin).tape σ.reels.next) ((σ.readyFor t coin).tape σ.nextAux) = t := by
  simp [readyFor, nextAux, addCoin, addCounter, tape, addReel, Table.get_add, Table.next]

theorem enter_eq (kind : MachineKind) (t : Tapes) (coin : Coin) :
    σ.enter kind t coin =
      match (σ.readyFor t coin).make kind σ.reels.next σ.nextAux (some σ.counters.next)
        (some σ.coins.next) with
      | .error r => .error (.refusal r)
      | .ok made =>
        .ok { store := made, machine := (σ.readyFor t coin).machines.next
              counter := σ.counters.next } :=
  rfl

theorem enter_of_refusal {r : Refusal} (hr : kind.refusal? t = some r) (coin : Coin) :
    σ.enter kind t coin = .error (.refusal r) := by
  rw [enter_eq, make_eq_error]
  rw [tapes_readyFor]
  exact hr

/-- **The run of a machine that has just been entered.** -/
theorem exists_ran (hr : kind.refusal? t = none) (coin : Coin) :
    ∃ built, σ.enter kind t coin = .ok built ∧
      Ran built (Device.run kind.start (ownBench kind t coin)) := by
  have htapes := σ.tapes_readyFor t coin
  obtain ⟨made, hmade⟩ := make_eq_ok (σ := σ.readyFor t coin) (by rw [htapes]; exact hr)
    (some σ.counters.next) (some σ.coins.next)
  obtain ⟨mount, hmain, haux, hm⟩ := exists_made hmade
  have hbench : (σ.readyFor t coin).startBench kind (some σ.coins.next) mount =
      ownBench kind t coin := by
    have hcoin : (σ.readyFor t coin).coins.get σ.coins.next = coin := Table.get_add_next _ _
    rw [startBench, Store.tapes, hmain, haux, htapes, Option.getD_some, hcoin]
    rfl
  have hzero : ((σ.readyFor t coin).counters.get σ.counters.next).value = 0 :=
    congrArg Counter.value (Table.get_add_next σ.counters ⟨0⟩)
  refine ⟨_, by rw [enter_eq, hmade], ?_⟩
  rw [← hbench]
  exact hm.ran hzero

end Enter

section Build

variable (σ : Store) {kind : MachineKind} {name text : String} {word : Option String}

/-- From texts whose tapes the kind takes, a machine is built. -/
theorem build_of_takes {t : Tapes} (hname : MachineKind.ofName? name = some kind)
    (hlayout : kind.layout text word = .ok t) (hr : kind.refusal? t = none) (seed : Option Int)
    (unseeded : Twister) :
    ∃ built, σ.build name text word seed unseeded = .ok built ∧
      σ.enter kind t (.ofSeed? seed unseeded) = .ok built ∧
      Ran built (Device.run kind.start (ownBench kind t (.ofSeed? seed unseeded))) := by
  obtain ⟨built, hbuilt, hran⟩ := σ.exists_ran hr (.ofSeed? seed unseeded)
  refine ⟨built, ?_, hbuilt, hran⟩
  rw [build, hname]
  show (kind.layout text word).bind _ = _
  rw [hlayout]
  exact hbuilt

/-- From all others none is. -/
theorem build_refused (hname : MachineKind.ofName? name = some kind)
    (h : ∀ t, kind.layout text word = .ok t → kind.refusal? t ≠ none) (seed : Option Int)
    (unseeded : Twister) : ∃ r, σ.build name text word seed unseeded = .error (.refusal r) := by
  rw [build, hname]
  change ∃ r, (kind.layout text word).bind _ = _
  cases hlayout : kind.layout text word with
  | error f =>
    -- there are no tapes
    obtain ⟨r, rfl⟩ := MachineKind.exists_refusal_of_layout hlayout
    exact ⟨r, rfl⟩
  | ok t =>
    -- there are, but not such as the kind takes
    obtain ⟨r, hr⟩ := Option.ne_none_iff_exists'.mp (h t hlayout)
    exact ⟨r, σ.enter_of_refusal hr _⟩

end Build

end SubseqMachines.Store
