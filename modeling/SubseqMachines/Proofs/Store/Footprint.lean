import SubseqMachines.Proofs.Store.Twin

/-!
# The footprint of a tick

Of all that is in the store, a tick of a machine changes the machine itself, the tapes on its reels,
its coin, and the values of counters. A trial changes no tape that exists, but may leave two new
reels. So what a machine touches later on are the reels that it has now, and new ones.

* `Store.Holds`: a machine holds a reel.
* `Store.footprint_commit`: what a step does to the reels and to the machine's hold on them.
* `Store.get_reels_tick`, `Store.get_coins_tick`, `Store.get_machines_tick`: what a tick does not
  touch.
* `Store.Holds.of_tick`: the reels that a machine holds after a tick.
* `Store.Since`: a store that is later than another one, and `Store.Since.tick`: ticks lead to such.
-/

namespace SubseqMachines.Store

/-- The machine `h` holds the reel `r`. -/
def Holds (σ : Store) (h : Handle Machine) (r : Handle Reel) : Prop :=
  ∃ mount, (σ.machines.get h).mount = some mount ∧ (r = mount.main ∨ r = mount.aux)

section Footprint

variable {σ : Store} {h k : Handle Machine}

/-- **What a step does to the reels.** The machine keeps its own, and no other is changed, or it has
two new ones from now on, and none that exists is changed. -/
theorem footprint_commit (σ : Store) (h : Handle Machine) (mount : Mount) (o : Outcome Control) :
    let now := σ.commit h mount o
    ((now.machines.get h).mount = some mount ∧ now.reels.size = σ.reels.size ∧
      ∀ r, r ≠ mount.main → r ≠ mount.aux → now.reels.get r = σ.reels.get r) ∨
    ∃ mount', (now.machines.get h).mount = some mount' ∧ mount'.main.index = σ.reels.size ∧
      mount'.aux.index = σ.reels.size + 1 ∧ now.reels.size = σ.reels.size + 2 ∧
      σ.reels.Kept now.reels := by
  intro now
  rcases reels_commit_cases σ h mount o with
    ⟨hmount, hreels | ⟨-, hreels⟩⟩ | ⟨-, _, _, mount', hreels, hmount, hmain, haux⟩
  · exact .inl ⟨hmount, hreels.size, fun r _ _ => hreels.get r⟩
  · refine .inl ⟨hmount, hreels.size, fun r hmain haux => ?_⟩
    rw [hreels.get, get_reels_setTape, if_neg haux, tape, get_reels_setTape, if_neg hmain]
    rfl
  · exact .inr ⟨mount', hmount, hmain, haux, hreels.size,
      ((Table.Kept.add σ.reels _).trans (.add _ _)).trans (.of_alike hreels)⟩

theorem size_reels_tick_le (σ : Store) (h : Handle Machine) :
    σ.reels.size ≤ (σ.tick h).store.reels.size := by
  rcases σ.store_tick h with hstill | ⟨mount, -, -, hstep⟩
  · rw [hstill]
  · rw [hstep]
    rcases footprint_commit σ h mount _ with ⟨-, hsize, -⟩ | ⟨mount', -, -, -, hsize, -⟩
    · rw [hsize]
    · rw [hsize]
      omega

/-- **A tick changes no reel that exists and that the machine does not hold.** -/
theorem get_reels_tick {r : Handle Reel} (hr : r.index < σ.reels.size) (hfree : ¬ Holds σ h r) :
    (σ.tick h).store.reels.get r = σ.reels.get r := by
  rcases σ.store_tick h with hstill | ⟨mount, hmount, -, hstep⟩
  · rw [hstill]
  · rw [hstep]
    rcases footprint_commit σ h mount _ with ⟨-, -, hothers⟩ | ⟨mount', -, -, -, -, hkept⟩
    · exact hothers r (fun heq => hfree ⟨mount, hmount, .inl heq⟩)
        fun heq => hfree ⟨mount, hmount, .inr heq⟩
    · exact hkept.get r hr

/-- The reels that a machine holds after a tick are those that it held before, or two that have been
entered by the tick. -/
theorem Holds.of_tick {r : Handle Reel} (hr : Holds (σ.tick h).store h r) :
    Holds σ h r ∨ σ.reels.size ≤ r.index ∧ r.index < (σ.tick h).store.reels.size := by
  rcases σ.store_tick h with hstill | ⟨mount, hmount, -, hstep⟩
  · rw [hstill] at hr
    exact .inl hr
  · rw [hstep] at hr ⊢
    obtain ⟨held, hheld, hside⟩ := hr
    rcases footprint_commit σ h mount _ with
      ⟨hnow, -⟩ | ⟨mount', hnow, hmain, haux, hsize, -⟩
    · obtain rfl := Option.some.inj (hnow.symm.trans hheld)
      exact .inl ⟨_, hmount, hside⟩
    · obtain rfl := Option.some.inj (hnow.symm.trans hheld)
      rw [hsize]
      rcases hside with rfl | rfl <;> exact .inr ⟨by omega, by omega⟩

/-- A tick changes no other machine. -/
theorem get_machines_tick (hk : k ≠ h) :
    (σ.tick h).store.machines.get k = σ.machines.get k := by
  rcases σ.store_tick h with hstill | ⟨mount, -, -, hstep⟩
  · rw [hstill]
  · rw [hstep, get_machines_commit _ _ _ _ hk]

/-- Nor does it exchange the machine's coin or its counter. -/
theorem coin_tick (σ : Store) (h k : Handle Machine) :
    ((σ.tick h).store.machines.get k).coin = (σ.machines.get k).coin := by
  by_cases hk : k = h
  · subst hk
    rcases σ.store_tick k with hstill | ⟨mount, -, -, hstep⟩
    · rw [hstill]
    · rw [hstep, machine_commit]
  · rw [get_machines_tick hk]

theorem counter_tick (σ : Store) (h : Handle Machine) :
    ((σ.tick h).store.machines.get h).counter = (σ.machines.get h).counter := by
  rcases σ.store_tick h with hstill | ⟨mount, -, -, hstep⟩
  · rw [hstill]
  · rw [hstep, machine_commit]

/-- A tick flips no coin but that of the machine. -/
theorem get_coins_tick {c : Handle Coin} (hc : (σ.machines.get h).coin ≠ some c) :
    (σ.tick h).store.coins.get c = σ.coins.get c := by
  rcases σ.store_tick h with hstill | ⟨mount, -, -, hstep⟩
  · rw [hstill]
  · rw [hstep, get_coins_commit, if_neg hc]

/-- A machine that is no trial keeps its reels. -/
theorem mount_tick_of_ne_trial (hkind : (σ.machines.get h).control.kind ≠ .trial) :
    ((σ.tick h).store.machines.get h).mount = (σ.machines.get h).mount := by
  rcases σ.store_tick h with hstill | ⟨mount, hmount, -, hstep⟩
  · rw [hstill]
  · rw [hstep, machine_commit, putTapes_of_own (Control.delegates_of_ne_trial hkind), hmount]

theorem holds_congr {τ : Store} {r : Handle Reel}
    (hmount : (τ.machines.get h).mount = (σ.machines.get h).mount) :
    Holds τ h r ↔ Holds σ h r := by
  rw [Holds, Holds, hmount]

end Footprint

/-! ## Later stores -/

/-- The store `now` is later than `σ`: no reel has been taken away, and the machine `h` has its coin
and no reel that it did not hold, but for reels that have been entered since. -/
structure Since (σ now : Store) (h : Handle Machine) : Prop where
  size_le : σ.reels.size ≤ now.reels.size
  coin : (now.machines.get h).coin = (σ.machines.get h).coin
  held : ∀ r, Holds now h r → Holds σ h r ∨ σ.reels.size ≤ r.index

theorem Since.refl (σ : Store) (h : Handle Machine) : Since σ σ h :=
  ⟨Nat.le_refl _, rfl, fun _ hr => .inl hr⟩

/-- Ticks lead to later stores, those of the machine and those of others. -/
theorem Since.tick {σ now : Store} {h : Handle Machine} (hs : Since σ now h) (k : Handle Machine) :
    Since σ (now.tick k).store h where
  size_le := Nat.le_trans hs.size_le (size_reels_tick_le now k)
  coin := (now.coin_tick k h).trans hs.coin
  held := by
    intro r hr
    have hle := hs.size_le
    by_cases hk : h = k
    · subst hk
      rcases hr.of_tick with hr' | ⟨hnew, -⟩
      · exact hs.held r hr'
      · exact .inr (Nat.le_trans hle hnew)
    · exact hs.held r ((holds_congr (congrArg Machine.mount (get_machines_tick hk))).mp hr)

/-- A reel that exists at first and that the machine does not hold then, it does not hold later. -/
theorem Since.not_holds {σ now : Store} {h : Handle Machine} {r : Handle Reel} (hs : Since σ now h)
    (hr : r.index < σ.reels.size) (hfree : ¬ Holds σ h r) : ¬ Holds now h r := by
  intro hnow
  rcases hs.held r hnow with hheld | hnew
  · exact hfree hheld
  · exact absurd hr (Nat.not_lt.mpr hnew)

end SubseqMachines.Store
