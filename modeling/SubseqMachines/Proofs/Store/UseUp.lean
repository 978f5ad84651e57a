import SubseqMachines.Proofs.Store.Fresh

/-!
# Machines that are used up

A machine is made on two reels, run to its verdict, and gives the reels back. A matcher or a sampler
gives back the very reels it was made on, so the next machine can be made on them.

* `Store.useUp`: make a machine, run it and take its reels from it.
* `Store.useUp_of_refusal`, `Store.useUp_of_fault`, `Store.exists_useUp`: what comes of it, told
  from the run of the machine's device.
-/

namespace SubseqMachines.Store

/-- What is left of a machine that has been used up: its verdict, its reels and the store. -/
structure Used where
  accepted : Bool
  mount : Mount
  store : Store

/-- Make a machine on two reels, run it to its verdict and take its reels from it. -/
def useUp (σ : Store) (kind : MachineKind) (main aux : Handle Reel)
    (counter : Option (Handle Counter)) (coin : Option (Handle Coin)) : Except Fault Used := do
  let made ← (σ.make kind main aux counter coin).mapError .refusal
  let ran := made.run σ.machines.next
  let accepted ← ran.result
  let freed := ran.store.destroy σ.machines.next
  return { accepted, mount := ← freed.result, store := freed.store }

section UseUp

variable {σ : Store} {kind : MachineKind} {mount : Mount} {counter : Option (Handle Counter)}
  {coin : Option (Handle Coin)}

theorem useUp_of_refusal {r : Refusal} (hr : kind.refusal? (σ.tapes mount) = some r) :
    σ.useUp kind mount.main mount.aux counter coin = .error (.refusal r) := by
  rw [useUp, make_eq_error hr]
  rfl

theorem exists_made_on (hr : kind.refusal? (σ.tapes mount) = none)
    (counter : Option (Handle Counter)) (coin : Option (Handle Coin)) :
    ∃ made, σ.make kind mount.main mount.aux counter coin = .ok made ∧
      Made σ made kind counter coin mount := by
  obtain ⟨made, hmade⟩ := make_eq_ok hr counter coin
  obtain ⟨⟨main, aux, hne⟩, hmain, haux, hm⟩ := exists_made hmade
  obtain rfl : main = mount.main := hmain
  obtain rfl : aux = mount.aux := haux
  exact ⟨made, hmade, hm⟩

theorem useUp_of_fault {f : Fault} (hr : kind.refusal? (σ.tapes mount) = none)
    (hf : (Device.run kind.start (σ.startBench kind coin mount)).fault = some f) :
    σ.useUp kind mount.main mount.aux counter coin = .error f := by
  obtain ⟨made, hmade, hm⟩ := exists_made_on hr counter coin
  obtain ⟨-, -, hresult⟩ := hm.run
  rw [hf, Option.elim_some] at hresult
  rw [useUp, hmade]
  show (made.run σ.machines.next).result.bind _ = _
  rw [hresult]
  rfl

/-- A machine whose run succeeds gives its reels back. -/
theorem useUp_of_run {made : Store} {accepted : Bool} {mount' : Mount}
    (hmade : σ.make kind mount.main mount.aux counter coin = .ok made)
    (hresult : (made.run σ.machines.next).result = .ok accepted)
    (hmount : ((made.run σ.machines.next).store.machines.get σ.machines.next).mount = some mount') :
    let ran := (made.run σ.machines.next).store
    σ.useUp kind mount.main mount.aux counter coin =
      .ok { accepted, mount := mount'
            store := ran.setMachine σ.machines.next
              { ran.machines.get σ.machines.next with mount := none } } := by
  intro ran
  -- each of the three calls gives its result on to the next one
  rw [useUp, hmade]
  show (made.run σ.machines.next).result.bind _ = _
  rw [hresult]
  show (ran.destroy σ.machines.next).result.bind _ = _
  rw [destroy_of_mounted hmount]
  rfl

/-- A machine that is no trial and whose run succeeds gives back the reels it was made on. -/
theorem exists_useUp (counter : Option (Handle Counter)) (hkind : kind ≠ .trial)
    (hr : kind.refusal? (σ.tapes mount) = none)
    (hf : (Device.run kind.start (σ.startBench kind coin mount)).fault = none) :
    let o := Device.run kind.start (σ.startBench kind coin mount)
    ∃ made used, Made σ made kind counter coin mount ∧
      σ.useUp kind mount.main mount.aux counter coin = .ok used ∧
      used.accepted = o.state.accepted ∧ used.mount = mount ∧
      Effect made used.store (made.machines.get σ.machines.next).coin mount mount o.cost
        o.bench := by
  intro o
  obtain ⟨made, hmade, hm⟩ := exists_made_on hr counter coin
  obtain ⟨⟨mount', hworked⟩, -, hresult⟩ := hm.run
  rw [hf, Option.elim_none] at hresult
  -- it has worked on its own reels, so these are the ones that it gives up
  obtain rfl := hm.mount_eq hkind hworked
  have hused := useUp_of_run hmade hresult (by rw [hworked.machine]; rfl)
  have heffect := hworked.effect
  exact ⟨made, _, hm, hused, rfl, rfl,
    { tapes := heffect.tapes, main_counter := heffect.main_counter
      aux_counter := heffect.aux_counter, counters := heffect.counters, coins := heffect.coins }⟩

end UseUp

end SubseqMachines.Store
