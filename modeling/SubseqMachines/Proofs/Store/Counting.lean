import SubseqMachines.Proofs.Store.Twin

/-!
# Ways to count

The operations of a machine can be counted on a counter of its own, which it attaches to its reels
and a trial also to the clones that it makes of them, or on the counters that its reels have
already. What the machine does is the same, and so is the number of operations that are counted.

* `Store.Setup`: a machine made on given tapes, with a given coin, in some store.
* `Store.Setup.twin`: two such machines are twins, however their operations are counted.
* `Store.Setup.value_after`: what the counters have tallied after a number of ticks.
* `Store.Setup.exists_run`: the runs of all setups are the same number of ticks.
* `Store.same_total_however_counted`: three ways to count, and their totals.
-/

namespace SubseqMachines.Store

/-- A machine of a kind that has been made on two reels with the tapes `t`, with a coin like `c`. -/
structure Setup (kind : MachineKind) (t : Tapes) (c : Coin) where
  /-- The store before the machine is made. -/
  before : Store
  main : Handle Reel
  aux : Handle Reel
  counter : Option (Handle Counter)
  coin : Option (Handle Coin)
  made : Store
  make_eq : before.make kind main aux counter coin = .ok made
  tapes_eq : (⟨before.tape main, before.tape aux⟩ : Tapes) = t
  coin_eq : before.coins.get (coin.getD commonCoin) = c

namespace Setup

variable {kind : MachineKind} {t : Tapes} {c : Coin}

/-- The machine. -/
def machine (s : Setup kind t c) : Handle Machine :=
  s.before.machines.next

/-- The store after a number of ticks. -/
def after (s : Setup kind t c) (n : ℕ) : Store :=
  s.made.ticked s.machine n

/-- The operations of a number of ticks. -/
def operated (s : Setup kind t c) (n : ℕ) : Operations :=
  s.made.operated s.machine n

/-- The counter for the operations on the tape that starts on the reel `r`. -/
def payer (s : Setup kind t c) (r : Handle Reel) : Option (Handle Counter) :=
  s.counter <|> s.before.counterOf r

/-- What a number of ticks have added to a counter. Of one that started at zero this is the value. -/
def counted (s : Setup kind t c) (n : ℕ) (k : Handle Counter) : Int :=
  ((s.after n).counters.get k).value - (s.before.counters.get k).value

/-- There is such a machine wherever its kind takes the tapes. -/
theorem exists_of_refusal_eq_none (σ : Store) (main aux : Handle Reel)
    (counter : Option (Handle Counter)) (coin : Option (Handle Coin))
    (htapes : (⟨σ.tape main, σ.tape aux⟩ : Tapes) = t)
    (hcoin : σ.coins.get (coin.getD commonCoin) = c) (hr : kind.refusal? t = none) :
    ∃ s : Setup kind t c, s.before = σ ∧ s.main = main ∧ s.aux = aux ∧ s.counter = counter := by
  obtain ⟨made, hmade⟩ := make_eq_ok (σ := σ) (htapes ▸ hr) counter coin
  exact ⟨⟨σ, main, aux, counter, coin, made, hmade, htapes, hcoin⟩, rfl, rfl, rfl, rfl⟩

theorem exists_made (s : Setup kind t c) :
    ∃ mount : Mount, mount.main = s.main ∧ mount.aux = s.aux ∧
      Made s.before s.made kind s.counter s.coin mount :=
  Store.exists_made s.make_eq

/-- The machine starts with the tapes that it is made on. -/
theorem tapes_made (s : Setup kind t c) :
    (s.made.machines.get s.machine).mount.map s.made.tapes = some t := by
  obtain ⟨mount, hmain, haux, hm⟩ := s.exists_made
  rw [machine, hm.machine, Option.map_some, hm.tapes, Store.tapes, hmain, haux]
  exact congrArg some s.tapes_eq

theorem coin_made (s : Setup kind t c) :
    (s.made.machines.get s.machine).coin.map s.made.coins.get =
      if kind = .matcher then none else some c := by
  obtain ⟨mount, -, -, hm⟩ := s.exists_made
  rw [machine, hm.machine, hm.coins]
  split
  · rfl
  · rw [Option.map_some, s.coin_eq]

/-- **However it is set up, the machine is about to do the same.** -/
theorem twin (s s' : Setup kind t c) : Twin s.made s'.made s.machine s'.machine := by
  obtain ⟨mount, -, -, hm⟩ := s.exists_made
  obtain ⟨mount', -, -, hm'⟩ := s'.exists_made
  refine ⟨?_, ?_, ?_, ?_⟩
  · rw [machine, machine, hm.machine, hm'.machine]
  · rw [machine, machine, hm.machine, hm'.machine]
  · rw [s.tapes_made, s'.tapes_made]
  · rw [s.coin_made, s'.coin_made]

/-- **What the counters have tallied.** The operations on the main tape are counted on one counter
and those on the aux tape on one, which may be the same. -/
theorem value_after (s : Setup kind t c) (n : ℕ) (k : Handle Counter) :
    ((s.after n).counters.get k).value = (s.before.counters.get k).value +
      ((if s.payer s.main = some k then (s.operated n).cost.main else 0) +
        if s.payer s.aux = some k then (s.operated n).cost.aux else 0 : Nat) := by
  obtain ⟨mount, hmain, haux, hm⟩ := s.exists_made
  rw [after, machine, value_ticked hm.steady, hm.counters, tally, hm.main_counter, hm.aux_counter,
    hmain, haux]
  rfl

theorem counted_eq (s : Setup kind t c) (n : ℕ) (k : Handle Counter) :
    s.counted n k = ((if s.payer s.main = some k then (s.operated n).cost.main else 0) +
      if s.payer s.aux = some k then (s.operated n).cost.aux else 0 : Nat) := by
  rw [counted, value_after]
  omega

/-- A counter for neither tape is left alone. -/
theorem get_counters_after_of_ne (s : Setup kind t c) (n : ℕ) {k : Handle Counter}
    (hmain : s.payer s.main ≠ some k) (haux : s.payer s.aux ≠ some k) :
    (s.after n).counters.get k = s.before.counters.get k := by
  have hvalue := s.value_after n k
  rw [if_neg hmain, if_neg haux, Nat.add_zero, Int.natCast_zero, Int.add_zero] at hvalue
  exact congrArg Counter.mk hvalue

/-- The run is the same number of ticks in every setup. -/
theorem exists_run (s : Setup kind t c) :
    ∃ n, ∀ s' : Setup kind t c,
      let r := s.made.run s.machine
      let r' := s'.made.run s'.machine
      r'.store = s'.after n ∧ r'.result = r.result ∧ r'.trace = r.trace := by
  have hrun : ∀ s' : Setup kind t c, s'.made.run s'.machine = s'.made.runOn s'.machine [] := by
    intro s'
    obtain ⟨mount, -, -, hm⟩ := s'.exists_made
    exact hm.run_eq_runOn
  obtain ⟨n, -, hbefore, hlast, -⟩ := exists_ticked_runOn s.made s.machine []
  refine ⟨n + 1, fun s' => ?_⟩
  intro r r'
  rw [show r = _ from hrun s, show r' = _ from hrun s']
  exact (s.twin s').runOn_of_last hbefore hlast []

end Setup

/-- **The number of operations does not depend on how they are counted.** Three machines of a kind
have been made on reels with the same tapes, and with coins that are alike: `own` with a counter of
its own, whatever its reels have; `shared` without one, on reels that have the same counter; and
`split` without one, on reels with different counters. After any number of ticks, whether they
failed or not, they are in the same state, with the same tapes, and what the next tick answers and
reports is the same. The first two counters have risen by the same number, and those of `split` by
that number together. Of the operations, which lead to the tapes as long as no tick has failed, the
counter of the main reel tallies those on the main tape and the other one those on the aux tape. No
counter that the reels of `own` had before is changed. The three runs are the same number of ticks,
and they answer and report the same. -/
theorem same_total_however_counted {kind : MachineKind} {t : Tapes} {c : Coin}
    (own shared split : Setup kind t c) {k k' kMain kAux : Handle Counter}
    (hown : own.counter = some k) (hshared : shared.counter = none)
    (hboth : shared.before.counterOf shared.main = some k' ∧
      shared.before.counterOf shared.aux = some k')
    (hsplit : split.counter = none)
    (heach : split.before.counterOf split.main = some kMain ∧
      split.before.counterOf split.aux = some kAux) (hne : kMain ≠ kAux) :
    (∀ n,
      (∀ s ∈ [shared, split], Twin (own.after n) (s.after n) own.machine s.machine ∧
        let r := (own.after n).tick own.machine
        let r' := (s.after n).tick s.machine
        r'.result = r.result ∧ r'.trace = r.trace) ∧
      (shared.counted n k' = own.counted n k ∧
        split.counted n kMain + split.counted n kAux = own.counted n k ∧
        split.counted n kMain = (split.operated n).cost.main ∧
        split.counted n kAux = (split.operated n).cost.aux) ∧
      ((∀ i < n, ∃ goes, ((split.after i).tick split.machine).result = .ok goes) →
        ((split.after n).machines.get split.machine).mount.map (split.after n).tapes =
          some (t.after (split.operated n))) ∧
      ∀ j ≠ k, (own.after n).counters.get j = own.before.counters.get j) ∧
    ∃ n, ∀ s ∈ [own, shared, split],
      let r := own.made.run own.machine
      let r' := s.made.run s.machine
      r'.store = s.after n ∧ r'.result = r.result ∧ r'.trace = r.trace := by
  refine ⟨fun n => ?_, ?_⟩
  · have hsame : ∀ s : Setup kind t c, s.operated n = own.operated n :=
      fun s => (s.twin own).operated_eq n
    -- the counters of the three setups
    have hownPayer : ∀ r, own.payer r = some k := fun r => by
      rw [Setup.payer, hown]
      rfl
    have hpayer : ∀ s : Setup kind t c, s.counter = none → ∀ r,
        s.payer r = s.before.counterOf r := fun s hs r => by
      rw [Setup.payer, hs]
      rfl
    have hcountedOwn : own.counted n k = (own.operated n).cost.total := by
      rw [own.counted_eq, if_pos (hownPayer _), if_pos (hownPayer _)]
      rfl
    have hcountedShared : shared.counted n k' = (shared.operated n).cost.total := by
      rw [shared.counted_eq, hpayer _ hshared, hpayer _ hshared, if_pos hboth.1, if_pos hboth.2]
      rfl
    have hmain : split.counted n kMain = (split.operated n).cost.main := by
      rw [split.counted_eq, hpayer _ hsplit, hpayer _ hsplit, heach.1, heach.2, if_pos rfl,
        if_neg fun heq => hne (Option.some.inj heq).symm, Nat.add_zero]
    have haux : split.counted n kAux = (split.operated n).cost.aux := by
      rw [split.counted_eq, hpayer _ hsplit, hpayer _ hsplit, heach.1, heach.2, if_pos rfl,
        if_neg fun heq => hne (Option.some.inj heq), Nat.zero_add]
    refine ⟨fun s _ => ?_, ⟨?_, ?_, hmain, haux⟩, ?_, ?_⟩
    · have htwin := (own.twin s).ticked n
      obtain ⟨hresult, htrace, -⟩ := htwin.tick
      exact ⟨htwin, hresult.symm, htrace.symm⟩
    · rw [hcountedShared, hcountedOwn, hsame]
    · rw [hmain, haux, hcountedOwn, hsame, Cost.total]
      push_cast
      rfl
    · exact tapes_ticked_of_operated split.tapes_made
    · intro j hj
      refine own.get_counters_after_of_ne n ?_ ?_ <;>
        exact fun heq => hj (Option.some.inj ((hownPayer _).symm.trans heq)).symm
  · obtain ⟨n, hrun⟩ := own.exists_run
    exact ⟨n, fun s _ => hrun s⟩

/-- A trial of the blocks `ab` and `b`, counted in the three ways. The main reel of the first machine
has a counter already, which is left alone. -/
theorem same_total_however_counted_ab_b :
    let main : Tape := ⟨[], .blank, [.main .a, .main .b, .hash, .main .b]⟩
    let aux : Tape := ⟨[], .blank, []⟩
    let σ (kMain kAux : Option (Handle Counter)) : Store :=
      ((((({} : Store).addCounter 0).addCounter 7).addReel main kMain).addReel aux kAux).addCoin
        (.scripted [false, true])
    ∃ own shared split : Setup .trial ⟨main, aux⟩ (.scripted [false, true]),
      (own.before = σ (some ⟨1⟩) none ∧ own.counter = some ⟨0⟩) ∧
      (shared.before = σ (some ⟨0⟩) (some ⟨0⟩) ∧ shared.counter = none) ∧
      (split.before = σ (some ⟨0⟩) (some ⟨1⟩) ∧ split.counter = none) ∧
      ∃ n, (own.made.run own.machine).store = own.after n ∧
        (shared.made.run shared.machine).store = shared.after n ∧
        (split.made.run split.machine).store = split.after n ∧
        shared.counted n ⟨0⟩ = own.counted n ⟨0⟩ ∧
        split.counted n ⟨0⟩ + split.counted n ⟨1⟩ = own.counted n ⟨0⟩ ∧
        ((own.after n).counters.get ⟨1⟩).value = 7 := by
  intro main aux σ
  have htakes : MachineKind.trial.refusal? ⟨main, aux⟩ = none := by decide
  have hsetup : ∀ kMain kAux counter, ∃ s : Setup .trial ⟨main, aux⟩ (.scripted [false, true]),
      s.before = σ kMain kAux ∧ s.main = ⟨0⟩ ∧ s.aux = ⟨1⟩ ∧ s.counter = counter :=
    fun kMain kAux counter =>
      Setup.exists_of_refusal_eq_none (σ kMain kAux) ⟨0⟩ ⟨1⟩ counter (some ⟨0⟩) rfl rfl htakes
  obtain ⟨own, hown, -, -, hk⟩ := hsetup (some ⟨1⟩) none (some ⟨0⟩)
  obtain ⟨shared, hshared, hmain, haux, hnone⟩ := hsetup (some ⟨0⟩) (some ⟨0⟩) none
  obtain ⟨split, hsplit, hmain', haux', hnone'⟩ := hsetup (some ⟨0⟩) (some ⟨1⟩) none
  refine ⟨own, shared, split, ⟨hown, hk⟩, ⟨hshared, hnone⟩, ⟨hsplit, hnone'⟩, ?_⟩
  obtain ⟨hticks, n, hrun⟩ := same_total_however_counted own shared split hk hnone
    (by rw [hshared, hmain, haux]; exact ⟨rfl, rfl⟩) hnone'
    (by rw [hsplit, hmain', haux']; exact ⟨rfl, rfl⟩) (by decide)
  obtain ⟨-, ⟨hboth, hsum, -⟩, -, hcarried⟩ := hticks n
  refine ⟨n, (hrun own ?_).1, (hrun shared ?_).1, (hrun split ?_).1, hboth, hsum, ?_⟩
  · simp
  · simp
  · simp
  · rw [hcarried ⟨1⟩ (by decide), hown]
    rfl

end SubseqMachines.Store
