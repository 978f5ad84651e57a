import SubseqMachines.Proofs.Store.Termination

/-!
# The reels that a trial has shown

The children of a trial work on clones, and a trial that takes a child's clones over takes them as
new reels. So a tape that anyone can hold is never worked on by a trial: neither those that the
trial was made on, nor those that it holds later, nor any other. This is so for each of its ticks,
whether they fail or not, and for a run.

* `Table.Kept`: a table that only grows.
* `Trial.reels_commit_cases`: what a step of a trial does to the reels.
* `Trial.kept_tick`, `Trial.kept_use`: a tick, a run and a destruction change no reel that exists.
* `Trial.Sound`, `Trial.Sound.use`: the reels of a trial are among those that exist.
* `Trial.LeftTo`: the stores to which uses of a trial lead, if nobody else works on a tape.
* `Trial.keeps_reels`: no reel that exists is changed, so the tapes that a trial was made on stay.
-/

namespace SubseqMachines

/-! ## Tables that only grow -/

/-- The entries of the table `t` are still in `u`, which may have new ones. -/
structure Table.Kept {α : Type} [Inhabited α] (t u : Table α) : Prop where
  size_le : t.size ≤ u.size
  get : ∀ k : Handle α, k.index < t.size → u.get k = t.get k

namespace Table.Kept

variable {α : Type} [Inhabited α] {t u v : Table α}

theorem of_alike (h : u.Alike t) : t.Kept u :=
  ⟨h.size.ge, fun k _ => h.get k⟩

theorem refl (t : Table α) : t.Kept t :=
  of_alike (.of_eq rfl)

theorem trans (h : t.Kept u) (h' : u.Kept v) : t.Kept v where
  size_le := Nat.le_trans h.size_le h'.size_le
  get k hk := (h'.get k (Nat.lt_of_lt_of_le hk h.size_le)).trans (h.get k hk)

/-- The handle of a new entry is not one that is out already. -/
theorem add (t : Table α) (a : α) : t.Kept (t.add a) where
  size_le := Nat.le_succ _
  get k hk := by
    have hne : k ≠ t.next := by
      rintro rfl
      exact absurd hk (Nat.lt_irrefl _)
    rw [get_add, if_neg hne]

end Table.Kept

namespace Trial

variable {σ : Store} {h : Handle Machine}

/-! ## A step -/

/-- A step of a trial that runs no child does not work on the tapes. -/
theorem toTapes_transition {s : State} {b : Bench}
    (hown : (Control.trial s).delegates = false) :
    (transition s b).bench.toTapes = b.toTapes := by
  match s with
  | .drawn .boundary w v =>
    rw [transition, look]
    split <;> rfl
  | .drawn .accept w v => rfl
  | .drawn .reject w v => rfl

/-- To put the tape on a reel that is on it already changes nothing. -/
theorem alike_setTape {r : Handle Reel} {t : Tape} (ht : t = σ.tape r) :
    (σ.setTape r t).reels.Alike σ.reels where
  size := rfl
  get k := by
    rw [Store.get_reels_setTape]
    by_cases hk : k = r
    · rw [if_pos hk, ht, hk]
      rfl
    · rw [if_neg hk]
      rfl

/-- **What a step of a trial does to the reels.** They stay as they are and the trial keeps its own,
or a child has succeeded, and its tapes are on two new reels that the trial has from now on. -/
theorem reels_commit_cases {s : State} (hcontrol : (σ.machines.get h).control = .trial s)
    (mount : Mount) :
    let m := σ.machines.get h
    let o := Device.step m.control (σ.bench m mount)
    let now := σ.commit h mount o
    now.reels.Alike σ.reels ∧ (now.machines.get h).mount = some mount ∨
      o.fault = none ∧ ∃ main aux mount', now.reels.Alike ((σ.reels.add main).add aux) ∧
        (now.machines.get h).mount = some mount' ∧
        mount'.main.index = σ.reels.size ∧ mount'.aux.index = σ.reels.size + 1 := by
  intro m o now
  rcases Store.reels_commit_cases σ h mount o with ⟨hmount, hreels | ⟨hown, hreels⟩⟩ | hadopted
  · exact .inl ⟨hreels, hmount⟩
  · -- a look at the cell between two blocks puts back the tapes that were there
    have htapes : o.bench.toTapes = σ.tapes mount := by
      have ho : o = (Device.step s (σ.bench m mount)).map .trial := by
        rw [← Control.step_trial, ← hcontrol]
      rw [ho]
      exact toTapes_transition (hcontrol ▸ hown)
    have hmain := alike_setTape (congrArg Tapes.main htapes)
    have haux : o.bench.aux = (σ.setTape mount.main o.bench.main).tape mount.aux := by
      rw [Store.tape, hmain.get]
      exact congrArg Tapes.aux htapes
    exact .inl ⟨hreels.trans ((alike_setTape haux).trans hmain), hmount⟩
  · -- what has been taken over has not turned out to be wrong
    refine .inr ⟨?_, hadopted.2⟩
    have hgave := hadopted.1
    rw [Control.gaveUp_step] at hgave
    exact Option.isNone_iff_eq_none.mp (by simpa using hgave)

theorem exists_state_of_kind {c : Control} (hc : c.kind = .trial) : ∃ s, c = .trial s := by
  cases c with
  | matcher s | sampler s => cases hc
  | trial s => exact ⟨s, rfl⟩

/-- **No tick of a trial changes a reel that exists.** -/
theorem kept_tick (hkind : (σ.machines.get h).control.kind = .trial) :
    σ.reels.Kept (σ.tick h).store.reels := by
  obtain ⟨s, hcontrol⟩ := exists_state_of_kind hkind
  rcases σ.store_tick h with hstill | ⟨mount, -, -, hstep⟩
  · rw [hstill]
    exact .refl _
  · rw [hstep]
    rcases reels_commit_cases hcontrol mount with ⟨hreels, -⟩ | ⟨-, main, aux, mount', hreels, -⟩
    · exact .of_alike hreels
    · exact ((Table.Kept.add _ main).trans (.add _ aux)).trans (.of_alike hreels)

/-! ## Trials whose reels exist -/

/-- A machine that is a trial, and whose reels, if it has not surrendered them, exist. -/
structure Sound (σ : Store) (h : Handle Machine) : Prop where
  kind : (σ.machines.get h).control.kind = .trial
  held : ∀ mount, (σ.machines.get h).mount = some mount →
    mount.main.index < σ.reels.size ∧ mount.aux.index < σ.reels.size

theorem Sound.tick (hs : Sound σ h) : Sound (σ.tick h).store h := by
  obtain ⟨s, hcontrol⟩ := exists_state_of_kind hs.kind
  refine ⟨(Store.kind_tick σ h).trans hs.kind, ?_⟩
  intro held hheld
  rcases σ.store_tick h with hstill | ⟨mount, hmount, -, hstep⟩
  · rw [hstill] at hheld ⊢
    exact hs.held held hheld
  · rw [hstep] at hheld ⊢
    rcases reels_commit_cases hcontrol mount with
      ⟨hreels, hnow⟩ | ⟨-, main, aux, mount', hreels, hnow, hmain, haux⟩
    · obtain rfl := Option.some.inj (hnow.symm.trans hheld)
      rw [hreels.size]
      exact hs.held mount hmount
    · -- the handles of the new reels are the next two
      obtain rfl := Option.some.inj (hnow.symm.trans hheld)
      have hsize := hreels.size
      rw [Table.size_add, Table.size_add] at hsize
      omega

/-! ## Using a trial -/

/-- What can be asked of a trial. -/
inductive Use where
  | tick
  | run
  | destroy
  deriving DecidableEq, Repr

/-- The store after a use of a machine, whether it fails or not. -/
def Use.after (σ : Store) (h : Handle Machine) : Use → Store
  | tick => (σ.tick h).store
  | run => (σ.run h).store
  | destroy => (σ.destroy h).store

theorem reels_destroy (σ : Store) (h : Handle Machine) :
    (σ.destroy h).store.reels = σ.reels := by
  rw [Store.destroy]
  cases (σ.machines.get h).mount <;> rfl

/-- **No use of a trial changes a reel that exists.** -/
theorem kept_use (hkind : (σ.machines.get h).control.kind = .trial) (u : Use) :
    σ.reels.Kept (u.after σ h).reels := by
  cases u with
  | tick => exact kept_tick hkind
  | destroy => exact .of_alike (.of_eq (reels_destroy σ h))
  | run =>
    -- the ticks of a run are those of a trial, one after the other
    have hrun := Store.run_invariant (h := h) (σ := σ)
      (P := fun τ => σ.reels.Kept τ.reels ∧ (τ.machines.get h).control.kind = .trial) ?_
      ⟨.refl _, hkind⟩
    · exact hrun.1
    · rintro τ ⟨hkept, htrial⟩
      exact ⟨hkept.trans (kept_tick htrial), (Store.kind_tick τ h).trans htrial⟩

theorem Sound.destroy (hs : Sound σ h) : Sound (σ.destroy h).store h := by
  cases hmount : (σ.machines.get h).mount with
  | none =>
    rw [Store.destroy]
    simp only [hmount]
    exact hs
  | some mount =>
    rw [Store.destroy_of_mounted hmount]
    refine ⟨?_, ?_⟩
    · rw [Store.setMachine, Table.get_set_self]
      exact hs.kind
    · intro mount' hmount'
      rw [Store.setMachine, Table.get_set_self] at hmount'
      cases hmount'

theorem Sound.use (hs : Sound σ h) (u : Use) : Sound (u.after σ h) h := by
  cases u with
  | tick => exact hs.tick
  | run => exact Store.run_invariant (P := fun τ => Sound τ h) (fun _ => Sound.tick) hs
  | destroy => exact hs.destroy

/-! ## A tape that is left to a trial -/

/-- What others do that leaves the machine `h` and the tape on `r` alone. No reel is ever taken
away. -/
structure Apart (σ σ' : Store) (h : Handle Machine) (r : Handle Reel) : Prop where
  machine : σ'.machines.get h = σ.machines.get h
  tape : σ'.tape r = σ.tape r
  size_le : σ.reels.size ≤ σ'.reels.size

/-- The stores to which uses of the machine `h` lead if nobody else acts on the tape on `r`. -/
inductive LeftTo (σ₀ : Store) (h : Handle Machine) (r : Handle Reel) : Store → Prop
  | start : LeftTo σ₀ h r σ₀
  | use {σ : Store} (u : Use) : LeftTo σ₀ h r σ → LeftTo σ₀ h r (u.after σ h)
  | others {σ σ' : Store} : LeftTo σ₀ h r σ → Apart σ σ' h r → LeftTo σ₀ h r σ'

/-- **A tape that is left to a trial stays as it is.** -/
theorem LeftTo.tape_eq {σ₀ now : Store} {r : Handle Reel} (hs : Sound σ₀ h)
    (hr : r.index < σ₀.reels.size) (hl : LeftTo σ₀ h r now) :
    now.tape r = σ₀.tape r ∧ Sound now h ∧ σ₀.reels.size ≤ now.reels.size := by
  induction hl with
  | start => exact ⟨rfl, hs, Nat.le_refl _⟩
  | @use σ u hl ih =>
    obtain ⟨htape, hsound, hsize⟩ := ih
    have hkept := kept_use hsound.kind u
    refine ⟨?_, hsound.use u, Nat.le_trans hsize hkept.size_le⟩
    rw [← htape, Store.tape, hkept.get r (Nat.lt_of_lt_of_le hr hsize)]
    rfl
  | @others σ σ' hl ho ih =>
    obtain ⟨htape, hsound, hsize⟩ := ih
    refine ⟨ho.tape.trans htape, ⟨?_, ?_⟩, Nat.le_trans hsize ho.size_le⟩
    · rw [ho.machine]
      exact hsound.kind
    · intro mount hmount
      rw [ho.machine] at hmount
      have hheld := hsound.held mount hmount
      have hle := ho.size_le
      omega

/-- **A trial keeps the reels that exist as they are.** Making it changes nothing but the counters
of its two reels. From then on, while others leave the tape on a reel alone, so does the trial, and
the reels that it holds exist. No trial in any store changes a reel that exists when it is ticked,
run or destroyed, be it one that it holds or not, and whether it fails or not. -/
theorem keeps_reels {σ made : Store} {main aux : Handle Reel} {counter : Option (Handle Counter)}
    {coin : Option (Handle Coin)} (hmade : σ.make .trial main aux counter coin = .ok made)
    (hmain : main.index < σ.reels.size) (haux : aux.index < σ.reels.size) :
    let h := σ.machines.next
    Store.OnlyMade σ made .trial main aux counter ∧
      (∀ r : Handle Reel, r.index < σ.reels.size → ∀ now, LeftTo made h r now →
        now.tape r = σ.tape r ∧ ∀ mount, (now.machines.get h).mount = some mount →
          mount.main.index < now.reels.size ∧ mount.aux.index < now.reels.size) ∧
      ∀ (now : Store) (k : Handle Machine), (now.machines.get k).control.kind = .trial →
        ∀ (u : Use) (r : Handle Reel), r.index < now.reels.size →
          (u.after now k).reels.get r = now.reels.get r := by
  intro h
  have hm := Store.onlyMade_of_make hmade
  refine ⟨hm, ?_, ?_⟩
  · have hsound : Sound made h := by
      obtain ⟨mount, rfl, rfl, hmount, hcontrol, -⟩ := hm.machine
      refine ⟨by rw [hcontrol]; rfl, ?_⟩
      intro mount' hmount'
      rw [hmount] at hmount'
      obtain rfl := Option.some.inj hmount'
      rw [hm.size_reels]
      exact ⟨hmain, haux⟩
    intro r hr now hl
    rw [← hm.size_reels] at hr
    obtain ⟨htape, hnow, -⟩ := hl.tape_eq hsound hr
    refine ⟨htape.trans ?_, hnow.held⟩
    rw [Store.tape, hm.reels]
  · intro now k hkind u r hr
    exact (kept_use hkind u).get r hr

/-- The blocks `ab` and `b`. The trial is run, gives up its reels, and those it was made on hold what
they held. -/
theorem keeps_reels_ab_b :
    let σ := ((({} : Store).addReel
      ⟨[.blank], .blank, [.main .a, .main .b, .hash, .main .b]⟩ none).addReel
      ⟨[], .blank, []⟩ none).addCoin (.scripted [true, false])
    ∃ made, σ.make .trial ⟨0⟩ ⟨1⟩ none none = .ok made ∧
      let h := σ.machines.next
      let now := ((made.run h).store.destroy h).store
      LeftTo made h ⟨0⟩ now ∧ now.tape ⟨0⟩ = σ.tape ⟨0⟩ ∧ now.tape ⟨1⟩ = σ.tape ⟨1⟩ ∧
        (made.run h).store.reels.get ⟨0⟩ = made.reels.get ⟨0⟩ := by
  intro σ
  obtain ⟨made, hmade⟩ : ∃ made, σ.make .trial ⟨0⟩ ⟨1⟩ none none = .ok made :=
    Store.make_eq_ok (by decide) none none
  refine ⟨made, hmade, ?_⟩
  intro h now
  have hleft : ∀ r, LeftTo made h r now := fun r => .use .destroy (.use .run .start)
  obtain ⟨hm, hstays, huse⟩ := keeps_reels hmade (by decide) (by decide)
  have hkind : (made.machines.get h).control.kind = .trial := by
    obtain ⟨mount, -, -, -, hcontrol, -⟩ := hm.machine
    rw [hcontrol]
    rfl
  refine ⟨hleft ⟨0⟩, (hstays ⟨0⟩ (by decide) now (hleft _)).1,
    (hstays ⟨1⟩ (by decide) now (hleft _)).1, ?_⟩
  exact huse made h hkind .run ⟨0⟩ (by rw [hm.size_reels]; decide)

end Trial

end SubseqMachines
