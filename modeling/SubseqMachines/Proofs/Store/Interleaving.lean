import SubseqMachines.Proofs.Store.Footprint

/-!
# Machines that do not get in each other's way

Two machines that have no reel and no coin in common may tick in any order. Each of them does what
it would do alone, and in the end all is as if each had ticked alone, one after the other. They may
count on the same counters: what a counter has risen by in the end is what it would have risen by
for each of them alone, taken together.

The order is not lost altogether. Trials that take the tapes of a child enter them as new reels, and
which handle a new reel gets depends on who comes first. So the stores that two orders lead to are
compared by what is on the reels of the machines.

* `Store.Agree`: a machine finds the same in two stores, and `Store.Agree.tick`: its ticks then go
  the same way and add the same to each counter.
* `Store.Independent`: machines that have no reel and no coin in common.
* `Store.Independent.agree_tick`, `Store.Independent.tick`: the tick of one of them leaves to the
  other what it finds, and they stay independent.
* `Store.Share`: what ticks of two machines make of the part of the store that is one machine's.
* `Store.Merged`: what they make of the whole store, and `Store.merged_tickEach`: so does every
  interleaving.
* `Store.ticks_commute`: ticks of independent machines can be interleaved in any way.
-/

namespace SubseqMachines.Store

/-! ## Stores in which a machine finds the same -/

/-- The machine `h` is the same in both stores, with the same tapes on its reels, counted on the
same counters, and its coin is the same. The reels have the same handles, unless it is a trial. -/
structure Agree (σ τ : Store) (h : Handle Machine) : Prop extends Twin σ τ h h where
  ownCoin : (σ.machines.get h).coin = (τ.machines.get h).coin
  counter : (σ.machines.get h).counter = (τ.machines.get h).counter
  counters : (σ.machines.get h).mount.map (fun m => (σ.counterOf m.main, σ.counterOf m.aux)) =
    (τ.machines.get h).mount.map fun m => (τ.counterOf m.main, τ.counterOf m.aux)
  mount : (σ.machines.get h).control.kind ≠ .trial →
    (σ.machines.get h).mount = (τ.machines.get h).mount

/-- What the next tick of a machine adds to a counter. -/
def gain (σ : Store) (h : Handle Machine) (c : Handle Counter) : Int :=
  ((σ.tick h).store.counters.get c).value - (σ.counters.get c).value

section Agree

variable {σ τ υ : Store} {h : Handle Machine}

theorem Agree.refl (σ : Store) (h : Handle Machine) : Agree σ σ h :=
  { Twin.refl σ h with ownCoin := rfl, counter := rfl, counters := rfl, mount := fun _ => rfl }

theorem Agree.symm (ha : Agree σ τ h) : Agree τ σ h :=
  { ha.toTwin.symm with
    ownCoin := ha.ownCoin.symm, counter := ha.counter.symm, counters := ha.counters.symm
    mount := fun hkind => (ha.mount (ha.control ▸ hkind)).symm }

theorem Agree.trans (ha : Agree σ τ h) (ha' : Agree τ υ h) : Agree σ υ h :=
  { ha.toTwin.trans ha'.toTwin with
    ownCoin := ha.ownCoin.trans ha'.ownCoin, counter := ha.counter.trans ha'.counter
    counters := ha.counters.trans ha'.counters
    mount := fun hkind => (ha.mount hkind).trans (ha'.mount (ha.control ▸ hkind)) }

/-- What a machine has not lost it finds again. -/
theorem Agree.of_eq (hmachine : τ.machines.get h = σ.machines.get h)
    (hcoins : ∀ c, (σ.machines.get h).coin = some c → τ.coins.get c = σ.coins.get c)
    (hreels : ∀ r, Holds σ h r → τ.reels.get r = σ.reels.get r) : Agree τ σ h := by
  have hheld : ∀ mount, (σ.machines.get h).mount = some mount →
      τ.reels.get mount.main = σ.reels.get mount.main ∧
        τ.reels.get mount.aux = σ.reels.get mount.aux := fun mount hmount =>
    ⟨hreels _ ⟨mount, hmount, .inl rfl⟩, hreels _ ⟨mount, hmount, .inr rfl⟩⟩
  refine
    { control := by rw [hmachine], ticks := by rw [hmachine], ownCoin := by rw [hmachine]
      counter := by rw [hmachine], mount := fun _ => by rw [hmachine]
      tapes := ?_, coin := ?_, counters := ?_ }
  · rw [hmachine]
    refine Option.map_congr fun mount hmount => ?_
    obtain ⟨hmain, haux⟩ := hheld mount hmount
    rw [tapes, tapes, tape, tape, hmain, haux]
    rfl
  · rw [hmachine]
    exact Option.map_congr hcoins
  · rw [hmachine]
    refine Option.map_congr fun mount hmount => ?_
    obtain ⟨hmain, haux⟩ := hheld mount hmount
    rw [counterOf, counterOf, hmain, haux]
    rfl

/-- Where a machine finds the same, it works on the same bench, and the same counters pay. -/
theorem Agree.mount_cases (ha : Agree σ τ h) :
    (σ.machines.get h).mount = none ∧ (τ.machines.get h).mount = none ∨
      ∃ mount mount', (σ.machines.get h).mount = some mount ∧
        (τ.machines.get h).mount = some mount' ∧
        σ.bench (σ.machines.get h) mount = τ.bench (τ.machines.get h) mount' ∧
        (σ.counterOf mount.main = τ.counterOf mount'.main ∧
          σ.counterOf mount.aux = τ.counterOf mount'.aux) ∧
        σ.payer (σ.machines.get h) mount.main = τ.payer (τ.machines.get h) mount'.main ∧
        σ.payer (σ.machines.get h) mount.aux = τ.payer (τ.machines.get h) mount'.aux := by
  rcases ha.toTwin.mount_cases with hnone | ⟨mount, mount', hmount, hmount', hbench⟩
  · exact .inl hnone
  · have hcounters := ha.counters
    rw [hmount, hmount', Option.map_some, Option.map_some, Option.some.injEq, Prod.mk.injEq]
      at hcounters
    refine .inr ⟨mount, mount', hmount, hmount', hbench, hcounters, ?_, ?_⟩
    · rw [payer, payer, ha.control, ha.counter, hcounters.1]
    · rw [payer, payer, ha.control, ha.counter, hcounters.2]

/-- The counters of the reels that a machine has after a step. -/
theorem counters_commit (σ : Store) (h : Handle Machine) (mount : Mount) (o : Outcome Control) :
    let m := σ.machines.get h
    let now := σ.commit h mount o
    let paid := if o.gaveUp = true then σ.counterOf else σ.payer m
    (now.machines.get h).mount.map (fun m => (now.counterOf m.main, now.counterOf m.aux)) =
      some (paid mount.main, paid mount.aux) := by
  intro m now paid
  obtain ⟨hmain, haux⟩ := σ.counterOf_putTapes m mount o
  have hreels := counterOf_of_alike (reels_commit σ h mount o)
  rw [machine_commit, Option.map_some, hreels, hreels, hmain, haux]

/-- **Where a machine finds the same, its ticks go the same way**, and they add the same to each
counter. -/
theorem Agree.tick (ha : Agree σ τ h) :
    Agree (σ.tick h).store (τ.tick h).store h ∧ ∀ c, σ.gain h c = τ.gain h c := by
  have hnext := ha.toTwin.tick.2.2
  -- what twins say nothing about are the counters
  suffices hrest : ((σ.tick h).store.machines.get h).mount.map
      (fun m => ((σ.tick h).store.counterOf m.main, (σ.tick h).store.counterOf m.aux)) =
        ((τ.tick h).store.machines.get h).mount.map
          (fun m => ((τ.tick h).store.counterOf m.main, (τ.tick h).store.counterOf m.aux)) ∧
      ∀ c, σ.gain h c = τ.gain h c from
    ⟨{ hnext with
        ownCoin := by rw [coin_tick, coin_tick, ha.ownCoin]
        counter := by rw [counter_tick, counter_tick, ha.counter]
        counters := hrest.1
        mount := fun hkind => by
          rw [kind_tick] at hkind
          rw [mount_tick_of_ne_trial hkind, mount_tick_of_ne_trial (ha.control ▸ hkind),
            ha.mount hkind] }, hrest.2⟩
  rcases ha.mount_cases with ⟨hmount, hmount'⟩ |
    ⟨mount, mount', hmount, hmount', hbench, ⟨hmain, haux⟩, hpayMain, hpayAux⟩
  · simp only [gain, tick_of_destroyed hmount, tick_of_destroyed hmount']
    exact ⟨ha.counters, fun c => by omega⟩
  · cases hlive : Device.halted (σ.machines.get h).control with
    | true =>
      simp only [gain, tick_of_final hmount hlive, tick_of_final hmount' (ha.control ▸ hlive)]
      exact ⟨ha.counters, fun c => by omega⟩
    | false =>
      have hlive' : Device.halted (τ.machines.get h).control = false := ha.control ▸ hlive
      have hstep : Device.step (τ.machines.get h).control (τ.bench (τ.machines.get h) mount') =
          Device.step (σ.machines.get h).control (σ.bench (σ.machines.get h) mount) := by
        rw [ha.control, hbench]
      simp only [gain, tick_of_live hmount hlive, tick_of_live hmount' hlive', hstep]
      -- one step is put down in both stores, and the same counters pay for it
      generalize Device.step (σ.machines.get h).control _ = o
      constructor
      · rw [counters_commit, counters_commit]
        split
        · rw [hmain, haux]
        · rw [hpayMain, hpayAux]
      · intro c
        rw [value_counters_commit, value_counters_commit, hpayMain, hpayAux]
        omega

end Agree

/-! ## Independent machines -/

/-- Two machines that have no reel and no coin in common. Their counters may be the same ones. All
reels that they hold exist. -/
structure Independent (σ : Store) (h k : Handle Machine) : Prop where
  ne : h ≠ k
  reels : ∀ r, Holds σ h r → ¬ Holds σ k r
  exist : ∀ r, Holds σ h r ∨ Holds σ k r → r.index < σ.reels.size
  coins : ∀ c, (σ.machines.get h).coin = some c → (σ.machines.get k).coin ≠ some c

section Independent

variable {σ : Store} {h k : Handle Machine}

theorem Independent.symm (hi : Independent σ h k) : Independent σ k h where
  ne := hi.ne.symm
  reels r hk hh := hi.reels r hh hk
  exist r hr := hi.exist r hr.symm
  coins c hk hh := hi.coins c hh hk

/-- **A tick leaves to an independent machine what it finds.** -/
theorem Independent.agree_tick (hi : Independent σ h k) : Agree (σ.tick k).store σ h :=
  .of_eq (get_machines_tick hi.ne) (fun c hc => get_coins_tick (hi.coins c hc))
    fun r hr => get_reels_tick (hi.exist r (.inl hr)) (hi.reels r hr)

/-- **Independent machines stay independent.** -/
theorem Independent.tick (hi : Independent σ h k) : Independent (σ.tick h).store h k := by
  have hother : ∀ r, Holds (σ.tick h).store k r ↔ Holds σ k r := fun r =>
    holds_congr (congrArg Machine.mount (get_machines_tick hi.ne.symm))
  have hle := size_reels_tick_le σ h
  refine ⟨hi.ne, ?_, ?_, ?_⟩
  · intro r hr hk
    rw [hother] at hk
    rcases hr.of_tick with hr' | ⟨hnew, -⟩
    · exact hi.reels r hr' hk
    · -- a reel that is new is not held by the other machine
      exact absurd (hi.exist r (.inr hk)) (Nat.not_lt.mpr hnew)
  · rintro r (hr | hr)
    · rcases hr.of_tick with hr' | ⟨-, hlt⟩
      · exact Nat.lt_of_lt_of_le (hi.exist r (.inl hr')) hle
      · exact hlt
    · exact Nat.lt_of_lt_of_le (hi.exist r (.inr ((hother r).mp hr))) hle
  · intro c
    rw [coin_tick, coin_tick]
    exact hi.coins c

end Independent

/-! ## What two machines make of a store -/

/-- In the part of the store `σ` that is not the machine `k`'s, ticks of `h` have made of it in
`now` what they have made of it in `alone`. -/
structure Share (σ now alone : Store) (h k : Handle Machine) : Prop where
  agree : Agree now alone h
  coins : ∀ c, (σ.machines.get k).coin ≠ some c → now.coins.get c = alone.coins.get c
  reels : ∀ r, r.index < σ.reels.size → ¬ Holds σ k r → now.reels.get r = alone.reels.get r
  since : Since σ now h
  since_alone : Since σ alone h

section Share

variable {σ now alone : Store} {h k : Handle Machine}

/-- Reels on which a machine finds the same are the same after its tick. -/
theorem Agree.get_reels_tick (ha : Agree now alone h) {r : Handle Reel}
    (hnow : r.index < now.reels.size) (halone : r.index < alone.reels.size)
    (hr : now.reels.get r = alone.reels.get r) :
    (now.tick h).store.reels.get r = (alone.tick h).store.reels.get r := by
  by_cases hkind : (now.machines.get h).control.kind = .trial
  · -- a trial changes no reel that exists
    rw [(Trial.kept_tick hkind).get r hnow, (Trial.kept_tick (ha.control ▸ hkind)).get r halone, hr]
  · have hmount := ha.mount hkind
    by_cases hheld : Holds now h r
    · -- the machine keeps its reels, and finds the same on them after the tick
      obtain ⟨mount, hnowMount, hside⟩ := hheld
      have hnext := ha.tick.1
      have htapes := hnext.tapes
      have hcounters := hnext.counters
      rw [mount_tick_of_ne_trial hkind, mount_tick_of_ne_trial (ha.control ▸ hkind), ← hmount,
        hnowMount, Option.map_some, Option.map_some, Option.some.injEq] at htapes hcounters
      rw [Prod.mk.injEq] at hcounters
      rcases hside with rfl | rfl
      · exact congrArg₂ Reel.mk (congrArg Tapes.main htapes) hcounters.1
      · exact congrArg₂ Reel.mk (congrArg Tapes.aux htapes) hcounters.2
    · rw [Store.get_reels_tick hnow hheld,
        Store.get_reels_tick halone (fun h' => hheld ((holds_congr hmount).mpr h')), hr]

theorem Agree.get_coins_tick (ha : Agree now alone h) {c : Handle Coin}
    (hc : now.coins.get c = alone.coins.get c) :
    (now.tick h).store.coins.get c = (alone.tick h).store.coins.get c := by
  by_cases hcoin : (now.machines.get h).coin = some c
  · have hnext := ha.tick.1.coin
    rw [coin_tick, coin_tick, ← ha.ownCoin, hcoin, Option.map_some, Option.map_some] at hnext
    exact Option.some.inj hnext
  · rw [Store.get_coins_tick hcoin, Store.get_coins_tick (ha.ownCoin ▸ hcoin), hc]

theorem Share.refl (σ : Store) (h k : Handle Machine) : Share σ σ σ h k :=
  ⟨.refl σ h, fun _ _ => rfl, fun _ _ _ => rfl, .refl σ h, .refl σ h⟩

/-- A tick of the machine itself is one that it makes alone. -/
theorem Share.tick_own (hs : Share σ now alone h k) :
    Share σ (now.tick h).store (alone.tick h).store h k where
  agree := hs.agree.tick.1
  coins c hc := hs.agree.get_coins_tick (hs.coins c hc)
  reels r hr hfree :=
    hs.agree.get_reels_tick (Nat.lt_of_lt_of_le hr hs.since.size_le)
      (Nat.lt_of_lt_of_le hr hs.since_alone.size_le) (hs.reels r hr hfree)
  since := hs.since.tick h
  since_alone := hs.since_alone.tick h

/-- A tick of the other machine does not matter. -/
theorem Share.tick_other (hs : Share σ now alone h k) (hi : Independent now h k)
    (hk : Since σ now k) : Share σ (now.tick k).store alone h k where
  agree := hi.agree_tick.trans hs.agree
  coins c hc := by
    rw [get_coins_tick (by rw [hk.coin]; exact hc), hs.coins c hc]
  reels r hr hfree := by
    rw [get_reels_tick (Nat.lt_of_lt_of_le hr hk.size_le) (hk.not_holds hr hfree),
      hs.reels r hr hfree]
  since := hs.since.tick k
  since_alone := hs.since_alone

end Share

/-- The store `now` is what ticks of `h` and of `k` together make of `σ`: each machine has the share
that it would have alone, in `left` or in `right`, what has been counted for them is added up, and
other machines are as they were. -/
structure Merged (σ left right now : Store) (h k : Handle Machine) : Prop where
  independent : Independent now h k
  first : Share σ now left h k
  second : Share σ now right k h
  counters : ∀ c, (now.counters.get c).value = (σ.counters.get c).value +
    ((left.counters.get c).value - (σ.counters.get c).value) +
    ((right.counters.get c).value - (σ.counters.get c).value)
  machines : ∀ x, x ≠ h → x ≠ k → now.machines.get x = σ.machines.get x

section Merged

variable {σ left right now now' : Store} {h k : Handle Machine}

theorem Merged.refl (hi : Independent σ h k) : Merged σ σ σ σ h k :=
  ⟨hi, .refl σ h k, .refl σ k h, fun c => by omega, fun _ _ _ => rfl⟩

theorem Merged.symm (hm : Merged σ left right now h k) : Merged σ right left now k h :=
  ⟨hm.independent.symm, hm.second, hm.first, fun c => by rw [hm.counters]; omega,
    fun x hk hh => hm.machines x hh hk⟩

/-- **A tick of one machine is one more tick that it makes alone.** -/
theorem Merged.tick (hm : Merged σ left right now h k) :
    Merged σ (left.tick h).store right (now.tick h).store h k where
  independent := hm.independent.tick
  first := hm.first.tick_own
  second := hm.second.tick_other hm.independent.symm hm.first.since
  counters c := by
    -- the tick adds to each counter what it adds alone
    have hgain := hm.first.agree.tick.2 c
    rw [gain, gain, hm.counters] at hgain
    omega
  machines x hh hk := (get_machines_tick hh).trans (hm.machines x hh hk)

/-- The stores `now` and `now'` differ in nothing but the handles of reels that have been entered
since `σ`. -/
structure Alike (σ now now' : Store) (h k : Handle Machine) : Prop where
  first : Agree now now' h
  second : Agree now now' k
  machines : ∀ x, x ≠ h → x ≠ k → now.machines.get x = now'.machines.get x
  coins : ∀ c, now.coins.get c = now'.coins.get c
  counters : ∀ c, now.counters.get c = now'.counters.get c
  reels : ∀ r, r.index < σ.reels.size → now.reels.get r = now'.reels.get r

/-- The shares of the two machines make up the store. -/
theorem Merged.alike (hi : Independent σ h k) (hm : Merged σ left right now h k)
    (hm' : Merged σ left right now' h k) : Alike σ now now' h k where
  first := hm.first.agree.trans hm'.first.agree.symm
  second := hm.second.agree.trans hm'.second.agree.symm
  machines x hh hk := (hm.machines x hh hk).trans (hm'.machines x hh hk).symm
  coins c := by
    -- a coin that is the one machine's is not the other one's
    by_cases hc : (σ.machines.get k).coin = some c
    · have hfree : (σ.machines.get h).coin ≠ some c := fun heq => hi.coins c heq hc
      rw [hm.second.coins c hfree, hm'.second.coins c hfree]
    · rw [hm.first.coins c hc, hm'.first.coins c hc]
  counters c := congrArg Counter.mk ((hm.counters c).trans (hm'.counters c).symm)
  reels r hr := by
    by_cases hheld : Holds σ k r
    · have hfree : ¬ Holds σ h r := fun hh => hi.reels r hh hheld
      rw [hm.second.reels r hr hfree, hm'.second.reels r hr hfree]
    · rw [hm.first.reels r hr hheld, hm'.first.reels r hr hheld]

end Merged

/-! ## Interleavings -/

/-- The store after ticks of machines in an order, whether they fail or not. -/
def tickEach (σ : Store) (order : List (Handle Machine)) : Store :=
  order.foldl (fun σ h => (σ.tick h).store) σ

theorem tickEach_concat (σ : Store) (order : List (Handle Machine)) (h : Handle Machine) :
    σ.tickEach (order ++ [h]) = ((σ.tickEach order).tick h).store :=
  List.foldl_concat _ _ _ _

section Interleaving

variable {σ : Store} {h k : Handle Machine}

/-- **Every interleaving makes of the store what each machine alone makes of its share.** -/
theorem merged_tickEach (hi : Independent σ h k) {order : List (Handle Machine)}
    (horder : ∀ x ∈ order, x = h ∨ x = k) :
    Merged σ (σ.ticked h (order.count h)) (σ.ticked k (order.count k)) (σ.tickEach order) h k := by
  induction order using List.reverseRecOn with
  | nil => exact .refl hi
  | append_singleton order x ih =>
    -- the last tick is one of either machine
    have hbefore := ih fun y hy => horder y (List.mem_append_left _ hy)
    rw [tickEach_concat, List.count_append, List.count_append]
    rcases horder x (List.mem_append_right _ (List.mem_singleton_self x)) with rfl | rfl
    · rw [List.count_singleton_self, List.count_singleton, if_neg (by simpa using hi.ne), ticked_succ]
      exact hbefore.tick
    · rw [List.count_singleton_self, List.count_singleton, if_neg (by simpa using hi.ne.symm),
        ticked_succ]
      exact hbefore.symm.tick.symm

/-- **Ticks of independent machines can be interleaved in any way.** Two machines of any kinds and in
any states have no reel and no coin in common, but perhaps a counter. Whichever ticks first, each
tick answers and reports the same, be it a fault, and the stores that come of it are alike. After
any interleaving of ticks each machine is as it would be after its own ticks alone, and what its
next tick answers and reports is the same. A counter has risen by what it would have risen by for
the ticks of each machine alone, taken together. And the stores that come of two interleavings of
the same numbers of ticks are alike. -/
theorem ticks_commute (hi : Independent σ h k) :
    (let later := (σ.tick h).store.tick k
      let later' := (σ.tick k).store.tick h
      (later.result = (σ.tick k).result ∧ later.trace = (σ.tick k).trace) ∧
        (later'.result = (σ.tick h).result ∧ later'.trace = (σ.tick h).trace) ∧
        Alike σ later.store later'.store h k) ∧
      ∀ order : List (Handle Machine), (∀ x ∈ order, x = h ∨ x = k) →
        let now := σ.tickEach order
        let left := σ.ticked h (order.count h)
        let right := σ.ticked k (order.count k)
        (Agree now left h ∧ (now.tick h).result = (left.tick h).result ∧
          (now.tick h).trace = (left.tick h).trace) ∧
        (Agree now right k ∧ (now.tick k).result = (right.tick k).result ∧
          (now.tick k).trace = (right.tick k).trace) ∧
        (∀ c, (now.counters.get c).value = (σ.counters.get c).value +
          ((left.counters.get c).value - (σ.counters.get c).value) +
          ((right.counters.get c).value - (σ.counters.get c).value)) ∧
        ∀ other : List (Handle Machine), other.Perm order →
          Alike σ now (σ.tickEach other) h k := by
  constructor
  · intro later later'
    obtain ⟨hresult, htrace, -⟩ := hi.symm.agree_tick.toTwin.tick
    obtain ⟨hresult', htrace', -⟩ := hi.agree_tick.toTwin.tick
    have hfirst : Merged σ (σ.tick h).store (σ.tick k).store later.store h k :=
      (Merged.refl hi).tick.symm.tick.symm
    have hsecond : Merged σ (σ.tick h).store (σ.tick k).store later'.store h k :=
      (Merged.refl hi).symm.tick.symm.tick
    exact ⟨⟨hresult, htrace⟩, ⟨hresult', htrace'⟩, hfirst.alike hi hsecond⟩
  · intro order horder now left right
    have hmerged := merged_tickEach hi horder
    obtain ⟨hresult, htrace, -⟩ := hmerged.first.agree.toTwin.tick
    obtain ⟨hresult', htrace', -⟩ := hmerged.second.agree.toTwin.tick
    refine ⟨⟨hmerged.first.agree, hresult, htrace⟩, ⟨hmerged.second.agree, hresult', htrace'⟩,
      hmerged.counters, ?_⟩
    intro other hperm
    -- two orders with the same numbers of ticks give both machines the same shares
    have hother := merged_tickEach hi fun x hx => horder x (hperm.mem_iff.mp hx)
    rw [hperm.count_eq h, hperm.count_eq k] at hother
    exact hmerged.alike hi hother

end Interleaving

/-! ## Machines that are made independent -/

/-- Two machines that are made on four reels, without a coin in common, are independent. -/
theorem independent_of_make {σ once made : Store} {kind kind' : MachineKind}
    {main aux main' aux' : Handle Reel} {counter counter' : Option (Handle Counter)}
    {coin coin' : Option (Handle Coin)}
    (hmake : σ.make kind main aux counter coin = .ok once)
    (hmake' : once.make kind' main' aux' counter' coin' = .ok made)
    (hreels : [main, aux, main', aux'].Nodup)
    (hexist : ∀ r ∈ [main, aux, main', aux'], r.index < σ.reels.size)
    (hcoin : kind = .matcher ∨ kind' = .matcher ∨ coin.getD commonCoin ≠ coin'.getD commonCoin) :
    Independent made σ.machines.next once.machines.next := by
  obtain ⟨-, -, -, -, mount, rfl, rfl, hmachines⟩ := exists_mount_of_make hmake
  obtain ⟨-, -, -, -, mount', rfl, rfl, hmachines'⟩ := exists_mount_of_make hmake'
  have hsize : made.reels.size = σ.reels.size :=
    (onlyMade_of_make hmake').size_reels.trans (onlyMade_of_make hmake).size_reels
  have hne : σ.machines.next ≠ once.machines.next := by
    intro heq
    have hindex := congrArg Handle.index heq
    rw [hmachines, Table.index_next, Table.index_next, Table.size_add] at hindex
    omega
  have hfirst : made.machines.get σ.machines.next =
      { control := kind.start, ticks := 0, mount := some mount, counter
        coin := if kind = .matcher then none else some (coin.getD commonCoin) } := by
    rw [hmachines', Table.get_add, if_neg hne, hmachines, Table.get_add_next]
  have hsecond : made.machines.get once.machines.next =
      { control := kind'.start, ticks := 0, mount := some mount', counter := counter'
        coin := if kind' = .matcher then none else some (coin'.getD commonCoin) } := by
    rw [hmachines', Table.get_add_next]
  have hheld : ∀ r, Holds made σ.machines.next r ↔ r = mount.main ∨ r = mount.aux := fun r => by
    simp [Holds, hfirst]
  have hheld' : ∀ r, Holds made once.machines.next r ↔ r = mount'.main ∨ r = mount'.aux :=
    fun r => by simp [Holds, hsecond]
  refine ⟨hne, ?_, ?_, ?_⟩
  · -- the four reels are different ones
    intro r hr hr'
    rw [hheld] at hr
    rw [hheld'] at hr'
    simp only [List.nodup_cons, List.mem_cons, List.not_mem_nil, or_false, not_or] at hreels
    rcases hr with rfl | rfl <;> rcases hr' with heq | heq <;> simp_all
  · intro r hr
    rw [hheld, hheld'] at hr
    rw [hsize]
    exact hexist r (by simpa [or_assoc] using hr)
  · intro c
    rw [hfirst, hsecond]
    intro heq heq'
    rcases hcoin with hkind | hkind | hdiffer
    · rw [if_pos hkind] at heq
      cases heq
    · rw [if_pos hkind] at heq'
      cases heq'
    · split at heq
      · cases heq
      · split at heq'
        · cases heq'
        · exact hdiffer (Option.some.inj (heq.trans heq'.symm))

/-- A trial of the blocks `ab` and `b` with a coin that has one flip, so that it fails, and a matcher
on the block `ab`. They count on one counter, and tick in different orders. -/
theorem ticks_commute_ab_b :
    let c : Option (Handle Counter) := some ⟨0⟩
    let trial := ((({} : Store).addCounter 3).addReel
      ⟨[], .blank, [.main .a, .main .b, .hash, .main .b]⟩ c).addReel ⟨[], .blank, []⟩ c
    let σ := ((trial.addReel ⟨[], .hash, [.main .a, .main .b]⟩ c).addReel
      ⟨[], .blank, [.aux .b]⟩ c).addCoin (.scripted [true])
    ∃ once made, σ.make .trial ⟨0⟩ ⟨1⟩ none none = .ok once ∧
      once.make .matcher ⟨2⟩ ⟨3⟩ none none = .ok made ∧
      let h := σ.machines.next
      let k := once.machines.next
      Independent made h k ∧
        Alike made (made.tickEach [h, k, h, k, k]) (made.tickEach [k, k, h, k, h]) h k ∧
        ((made.tickEach [h, k, h, k, k]).counters.get ⟨0⟩).value =
          (made.counters.get ⟨0⟩).value +
            (((made.ticked h 2).counters.get ⟨0⟩).value - (made.counters.get ⟨0⟩).value) +
            (((made.ticked k 3).counters.get ⟨0⟩).value - (made.counters.get ⟨0⟩).value) := by
  intro c trial σ
  obtain ⟨once, honce⟩ : ∃ once, σ.make .trial ⟨0⟩ ⟨1⟩ none none = .ok once :=
    make_eq_ok (by decide) none none
  have hreels := (onlyMade_of_make honce).reels
  have htakes : MachineKind.matcher.refusal? ⟨once.tape ⟨2⟩, once.tape ⟨3⟩⟩ = none := by
    rw [tape, tape, hreels, hreels]
    decide
  obtain ⟨made, hmade⟩ := make_eq_ok htakes none none
  refine ⟨once, made, honce, hmade, ?_⟩
  intro h k
  have hi : Independent made h k :=
    independent_of_make honce hmade (by decide) (by decide) (.inr (.inl rfl))
  obtain ⟨-, horders⟩ := ticks_commute hi
  obtain ⟨-, -, hcounters, hperm⟩ := horders [h, k, h, k, k] (by simp)
  have hcount : [h, k, h, k, k].count h = 2 := by simp [hi.ne.symm]
  have hcount' : [h, k, h, k, k].count k = 3 := by simp [hi.ne]
  have hvalue := hcounters ⟨0⟩
  rw [hcount, hcount'] at hvalue
  exact ⟨hi, hperm [k, k, h, k, h] (List.reverse_perm [h, k, h, k, k]), hvalue⟩

end SubseqMachines.Store
