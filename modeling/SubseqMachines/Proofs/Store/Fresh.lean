import SubseqMachines.Proofs.Store.Work

/-!
# Machines that have just been made

A machine is made on two reels if its kind takes the tapes on them. Making it works on no tape,
counts nothing and flips no coin; it only attaches the machine's counter to the reels.

* `Store.Made`: a machine has been made, told by what it starts from.
* `Store.OnlyMade`, `Store.onlyMade_of_make`: all that making a machine does to the store.
* `Store.exists_made`, `Store.exists_make_iff`: it is made exactly when its kind takes the tapes.
* `Store.Made.run`: the run of a machine that has just been made is the run of its device from the
  first state of its kind.
* `Store.Made.mount_eq`, `Store.Made.ticks_of_worked`, `Store.Made.value_of_worked`: its reels, its
  ticks and its counter after what it has done.
* `Store.destroy_of_mounted`: a machine that has reels gives them up.
-/

namespace SubseqMachines.Store

/-- A machine has been made on the reels of `mount`. -/
structure Made (σ σ' : Store) (kind : MachineKind) (counter : Option (Handle Counter))
    (coin : Option (Handle Coin)) (mount : Mount) : Prop where
  refusal : kind.refusal? (σ.tapes mount) = none
  machine : σ'.machines.get σ.machines.next =
    { control := kind.start, ticks := 0, mount := some mount, counter
      coin := if kind = .matcher then none else some (coin.getD commonCoin) }
  tapes : σ'.tapes mount = σ.tapes mount
  main_counter : σ'.counterOf mount.main = (counter <|> σ.counterOf mount.main)
  aux_counter : σ'.counterOf mount.aux = (counter <|> σ.counterOf mount.aux)
  counters : σ'.counters = σ.counters
  coins : σ'.coins = σ.coins

/-- What a machine that is made on two reels changes: it is entered, and its counter, if it has one,
is attached to the reels. No tape, no counter value and no coin is changed. -/
structure OnlyMade (σ made : Store) (kind : MachineKind) (main aux : Handle Reel)
    (counter : Option (Handle Counter)) : Prop where
  reels : ∀ r, made.reels.get r =
    { tape := σ.tape r
      counter := if r = main ∨ r = aux then counter <|> σ.counterOf r else σ.counterOf r }
  size_reels : made.reels.size = σ.reels.size
  counters : made.counters = σ.counters
  coins : made.coins = σ.coins
  /-- The machine is in its first state and has the two reels. -/
  machine : ∃ mount : Mount, mount.main = main ∧ mount.aux = aux ∧
    (made.machines.get σ.machines.next).mount = some mount ∧
    (made.machines.get σ.machines.next).control = kind.start ∧
    (made.machines.get σ.machines.next).ticks = 0
  other_machines : ∀ k ≠ σ.machines.next, made.machines.get k = σ.machines.get k

section Making

variable {σ made : Store} {kind : MachineKind} {main aux : Handle Reel}
  {counter : Option (Handle Counter)} {coin : Option (Handle Coin)}

theorem get_reels_attach (σ : Store) (r k : Handle Reel) (c : Option (Handle Counter)) :
    (σ.attach r c).reels.get k =
      { tape := σ.tape k, counter := if k = r then c else σ.counterOf k } := by
  rw [attach, Table.get_set]
  by_cases hk : k = r
  · rw [if_pos hk, if_pos hk, hk]
    rfl
  · rw [if_neg hk, if_neg hk]
    rfl

/-- Attaching a counter leaves all tapes and the counters of all other reels. -/
theorem get_reels_attachBoth (σ : Store) (c : Option (Handle Counter)) (k : Handle Reel) :
    (σ.attachBoth main aux c).reels.get k =
      { tape := σ.tape k
        counter := if k = main ∨ k = aux then c <|> σ.counterOf k else σ.counterOf k } := by
  cases c with
  | none =>
    have hnone : (none <|> σ.counterOf k) = σ.counterOf k := rfl
    rw [hnone, ite_self]
    rfl
  | some c =>
    show ((σ.attach main (some c)).attach aux (some c)).reels.get k = _
    rw [get_reels_attach, tape, counterOf, get_reels_attach]
    by_cases hmain : k = main <;> by_cases haux : k = aux <;> simp [hmain, haux]

theorem size_reels_attachBoth (σ : Store) (c : Option (Handle Counter)) :
    (σ.attachBoth main aux c).reels.size = σ.reels.size := by
  cases c <;> rfl

theorem counters_attachBoth (σ : Store) (c : Option (Handle Counter)) :
    (σ.attachBoth main aux c).counters = σ.counters := by
  cases c <;> rfl

theorem coins_attachBoth (σ : Store) (c : Option (Handle Counter)) :
    (σ.attachBoth main aux c).coins = σ.coins := by
  cases c <;> rfl

theorem machines_attachBoth (σ : Store) (c : Option (Handle Counter)) :
    (σ.attachBoth main aux c).machines = σ.machines := by
  cases c <;> rfl

/-- Making a machine attaches its counter and enters it, and does nothing else. -/
theorem exists_mount_of_make (h : σ.make kind main aux counter coin = .ok made) :
    kind.refusal? ⟨σ.tape main, σ.tape aux⟩ = none ∧ made.counters = σ.counters ∧
      made.coins = σ.coins ∧ made.reels = (σ.attachBoth main aux counter).reels ∧
      ∃ mount : Mount, mount.main = main ∧ mount.aux = aux ∧ made.machines = σ.machines.add
        { control := kind.start, ticks := 0, mount := some mount, counter
          coin := if kind = .matcher then none else some (coin.getD commonCoin) } := by
  rw [make] at h
  split at h
  · cases h
  · rename_i hr
    cases h
    refine ⟨hr, counters_attachBoth σ counter, coins_attachBoth σ counter, rfl, ?_⟩
    -- no kind takes one reel twice, so the two reels are a mount
    refine ⟨⟨main, aux, fun heq => kind.refusal?_self_ne_none _ (heq ▸ hr)⟩, rfl, rfl, ?_⟩
    rw [machines_attachBoth]

theorem onlyMade_of_make {made : Store} {counter : Option (Handle Counter)}
    {coin : Option (Handle Coin)} (hmade : σ.make kind main aux counter coin = .ok made) :
    OnlyMade σ made kind main aux counter := by
  obtain ⟨-, hcounters, hcoins, hreels, mount, rfl, rfl, hmachines⟩ := exists_mount_of_make hmade
  refine
    { reels := ?_, size_reels := ?_, counters := hcounters, coins := hcoins, machine := ?_
      other_machines := ?_ }
  · intro r
    rw [hreels, get_reels_attachBoth]
  · rw [hreels, size_reels_attachBoth]
  · refine ⟨mount, rfl, rfl, ?_⟩
    rw [hmachines, Table.get_add_next]
    exact ⟨rfl, rfl, rfl⟩
  · intro k hk
    rw [hmachines, Table.get_add, if_neg hk]

theorem exists_made (h : σ.make kind main aux counter coin = .ok made) :
    ∃ mount : Mount, mount.main = main ∧ mount.aux = aux ∧ Made σ made kind counter coin mount := by
  obtain ⟨hr, hcounters, hcoins, hreels, mount, rfl, rfl, hmachines⟩ := exists_mount_of_make h
  have hreel : ∀ r, made.reels.get r = _ := fun r => by
    rw [hreels, get_reels_attachBoth]
  refine ⟨mount, rfl, rfl, hr, ?_, ?_, ?_, ?_, hcounters, hcoins⟩
  · rw [hmachines]
    exact Table.get_add_next _ _
  · simp only [Store.tapes, tape, hreel]
  · rw [counterOf, hreel]
    exact if_pos (.inl rfl)
  · rw [counterOf, hreel]
    exact if_pos (.inr rfl)

theorem make_eq_ok (hr : kind.refusal? ⟨σ.tape main, σ.tape aux⟩ = none)
    (counter : Option (Handle Counter)) (coin : Option (Handle Coin)) :
    ∃ made, σ.make kind main aux counter coin = .ok made := by
  rw [make]
  split
  · simp_all
  · exact ⟨_, rfl⟩

theorem make_eq_error {r : Refusal} (hr : kind.refusal? ⟨σ.tape main, σ.tape aux⟩ = some r)
    (counter : Option (Handle Counter)) (coin : Option (Handle Coin)) :
    σ.make kind main aux counter coin = .error r := by
  rw [make]
  split <;> simp_all

/-- A machine is made exactly when its kind takes the tapes. -/
theorem exists_make_iff (counter : Option (Handle Counter)) (coin : Option (Handle Coin)) :
    (∃ made, σ.make kind main aux counter coin = .ok made) ↔
      kind.refusal? ⟨σ.tape main, σ.tape aux⟩ = none := by
  constructor
  · rintro ⟨made, hmade⟩
    exact (exists_mount_of_make hmade).1
  · exact fun hr => make_eq_ok hr counter coin

end Making

/-! ## The run of a fresh machine -/

section Fresh

variable {σ made : Store} {kind : MachineKind} {counter : Option (Handle Counter)}
  {coin : Option (Handle Coin)} {mount : Mount}

theorem Made.counted (hm : Made σ made kind counter coin mount) : Counted made counter mount := by
  rw [Counted, hm.main_counter, hm.aux_counter]
  cases counter <;> simp

theorem Made.steady (hm : Made σ made kind counter coin mount) :
    Steady made σ.machines.next mount where
  mounted := by rw [hm.machine]
  coin := by
    rw [hm.machine]
    cases kind <;> simp [MachineKind.start, Control.kind]
  counted := by
    rw [hm.machine]
    exact hm.counted

theorem Made.coin_of_ne_matcher (hm : Made σ made kind counter coin mount)
    (hkind : kind ≠ .matcher) :
    (made.machines.get σ.machines.next).coin = some (coin.getD commonCoin) := by
  rw [hm.machine]
  exact if_neg hkind

/-- The bench that a machine starts on when it is made on the reels of `mount`. -/
def startBench (σ : Store) (kind : MachineKind) (coin : Option (Handle Coin)) (mount : Mount) :
    Bench where
  toTapes := σ.tapes mount
  coin := if kind = .matcher then default else σ.coins.get (coin.getD commonCoin)

theorem Made.bench_eq (hm : Made σ made kind counter coin mount) :
    made.bench (made.machines.get σ.machines.next) mount = σ.startBench kind coin mount := by
  rw [bench, hm.machine, hm.tapes, hm.coins]
  cases kind <;> rfl

/-- A machine that has just been made may be run. -/
theorem Made.run_eq_runOn (hm : Made σ made kind counter coin mount) :
    made.run σ.machines.next = made.runOn σ.machines.next [] := by
  simp only [Store.run, hm.machine, Option.isNone_some]
  rfl

/-- **The run of a machine that has just been made.** -/
theorem Made.run (hm : Made σ made kind counter coin mount) :
    let o := Device.run kind.start (σ.startBench kind coin mount)
    let r := made.run σ.machines.next
    (∃ mount', Worked made r.store σ.machines.next mount mount' o) ∧ r.trace = o.trace ∧
      r.result = o.fault.elim (.ok o.state.accepted) .error := by
  have hcontrol : (made.machines.get σ.machines.next).control = kind.start := by
    rw [hm.machine]
  have h := exists_worked_runOn hm.steady []
  rw [← hm.run_eq_runOn, hm.bench_eq, hcontrol] at h
  exact h

/-- A machine that is no trial works on the reels that it was made on. -/
theorem Made.mount_eq {σ' : Store} {mount' : Mount} {o : Outcome Control}
    (hm : Made σ made kind counter coin mount) (hkind : kind ≠ .trial)
    (hworked : Worked made σ' σ.machines.next mount mount' o) : mount' = mount := by
  refine hworked.mount_eq ?_
  rw [hm.machine]
  exact fun heq => hkind ((Control.kind_start kind).symm.trans heq)

theorem Made.ticks_of_worked {σ' : Store} {mount' : Mount} {o : Outcome Control}
    (hm : Made σ made kind counter coin mount)
    (hworked : Worked made σ' σ.machines.next mount mount' o) :
    (σ'.machines.get σ.machines.next).ticks = o.ticks := by
  rw [hworked.machine]
  simp only [after, hm.machine, Nat.zero_add]

/-- The counter that a machine is given, or else the one that both of its reels have, is the counter
of both reels once the machine is made. -/
theorem Made.counterOf_both (hm : Made σ made kind counter coin mount) {k : Handle Counter}
    (hk : counter = some k ∨
      counter = none ∧ σ.counterOf mount.main = some k ∧ σ.counterOf mount.aux = some k) :
    made.counterOf mount.main = some k ∧ made.counterOf mount.aux = some k := by
  rw [hm.main_counter, hm.aux_counter]
  rcases hk with rfl | ⟨rfl, hmain, haux⟩
  · exact ⟨rfl, rfl⟩
  · rw [hmain, haux]
    exact ⟨rfl, rfl⟩

/-- That counter tallies the whole cost of what the machine does. -/
theorem Made.value_of_worked {σ' : Store} {mount' : Mount} {o : Outcome Control}
    (hm : Made σ made kind counter coin mount)
    (hworked : Worked made σ' σ.machines.next mount mount' o) {k : Handle Counter}
    (hk : counter = some k ∨
      counter = none ∧ σ.counterOf mount.main = some k ∧ σ.counterOf mount.aux = some k) :
    (σ'.counters.get k).value = (σ.counters.get k).value + o.cost.total := by
  obtain ⟨hmain, haux⟩ := hm.counterOf_both hk
  rw [hworked.effect.counters k, tally_of_both hmain haux, hm.counters]

/-- A machine that has reels gives them up, and that changes none of them. -/
theorem destroy_of_mounted {σ : Store} {h : Handle Machine} {mount : Mount}
    (hmount : (σ.machines.get h).mount = some mount) :
    σ.destroy h =
      { store := σ.setMachine h { σ.machines.get h with mount := none }
        result := .ok mount } := by
  simp only [destroy, hmount]

end Fresh

end SubseqMachines.Store
