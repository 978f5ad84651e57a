import SubseqMachines.Proofs.Machine.Control
import SubseqMachines.Store.Machines

/-!
# What work on reels does to the store

All that a machine does to the store besides its own state is this: the tapes of its bench are put
on its reels, its coin is the one of the bench, and the cost is counted on the counters of the
reels.

* `Store.tally`: what a counter tallies of a cost.
* `Store.Effect`: what work on two reels does to the store.
* `Store.Effect.trans`: work and then more work.
* `Store.Effect.of_agree`, `Store.Effect.withCoin`: the same work told in another way.
* `Store.Counted`: reels to which a counter has been attached.
-/

namespace SubseqMachines.Store

/-! ## Counting -/

@[simp] theorem coins_count (σ : Store) (c : Option (Handle Counter)) (n : Nat) :
    (σ.count c n).coins = σ.coins := by
  cases c <;> rfl

@[simp] theorem reels_count (σ : Store) (c : Option (Handle Counter)) (n : Nat) :
    (σ.count c n).reels = σ.reels := by
  cases c <;> rfl

theorem value_count (σ : Store) (c : Option (Handle Counter)) (n : Nat) (k : Handle Counter) :
    ((σ.count c n).counters.get k).value =
      (σ.counters.get k).value + if c = some k then n else 0 := by
  cases c with
  | none => simp [count]
  | some h =>
    by_cases hk : k = h
    · subst hk
      simp [count]
    · have hne : h ≠ k := fun heq => hk heq.symm
      simp [count, Table.get_set_of_ne _ _ hk, hne]

/-- What counter `k` tallies of a cost that is made on the reels of `mount`. -/
def tally (σ : Store) (mount : Mount) (cost : Cost) (k : Handle Counter) : Nat :=
  (if σ.counterOf mount.main = some k then cost.main else 0) +
    if σ.counterOf mount.aux = some k then cost.aux else 0

@[simp] theorem tally_zero (σ : Store) (mount : Mount) (k : Handle Counter) :
    σ.tally mount 0 k = 0 := by
  simp [tally]

theorem tally_add (σ : Store) (mount : Mount) (c d : Cost) (k : Handle Counter) :
    σ.tally mount (c + d) k = σ.tally mount c k + σ.tally mount d k := by
  simp only [tally, Cost.main_add, Cost.aux_add]
  split <;> split <;> omega

/-- A counter that both reels have tallies the whole cost. -/
theorem tally_of_both {σ : Store} {mount : Mount} {k : Handle Counter}
    (hmain : σ.counterOf mount.main = some k) (haux : σ.counterOf mount.aux = some k)
    (cost : Cost) : σ.tally mount cost k = cost.total := by
  rw [tally, if_pos hmain, if_pos haux]
  rfl

/-! ## Work on reels -/

/-- Work on the reels of `mount`, of which those of `mount'` have come out, has left the tapes and
the coin of the bench `b`, and its cost has been counted. Reels keep their counters, and the ones
that come out have those of the ones before. No other coin is touched. -/
structure Effect (σ σ' : Store) (coin : Option (Handle Coin)) (mount mount' : Mount) (cost : Cost)
    (b : Bench) : Prop where
  tapes : σ'.tapes mount' = b.toTapes
  main_counter : σ'.counterOf mount'.main = σ.counterOf mount.main
  aux_counter : σ'.counterOf mount'.aux = σ.counterOf mount.aux
  counters : ∀ k, (σ'.counters.get k).value = (σ.counters.get k).value + σ.tally mount cost k
  coins : ∀ k, σ'.coins.get k = if coin = some k then b.coin else σ.coins.get k

theorem tally_of_effect {σ σ' : Store} {coin : Option (Handle Coin)} {mount mount' : Mount}
    {cost : Cost} {b : Bench} (h : Effect σ σ' coin mount mount' cost b) :
    σ'.tally mount' = σ.tally mount := by
  funext cost k
  rw [tally, tally, h.main_counter, h.aux_counter]

/-- Nothing done. -/
theorem Effect.refl {σ : Store} {m : Machine} (mount : Mount) :
    Effect σ σ m.coin mount mount 0 (σ.bench m mount) where
  tapes := rfl
  main_counter := rfl
  aux_counter := rfl
  counters k := by simp
  coins k := by
    split
    · rename_i hk
      rw [bench, hk]
      rfl
    · rfl

/-- **Work and then more work.** -/
theorem Effect.trans {σ₁ σ₂ σ₃ : Store} {coin : Option (Handle Coin)} {m₁ m₂ m₃ : Mount}
    {c₁ c₂ : Cost} {b₁ b₂ : Bench} (h₁ : Effect σ₁ σ₂ coin m₁ m₂ c₁ b₁)
    (h₂ : Effect σ₂ σ₃ coin m₂ m₃ c₂ b₂) : Effect σ₁ σ₃ coin m₁ m₃ (c₁ + c₂) b₂ where
  tapes := h₂.tapes
  main_counter := h₂.main_counter.trans h₁.main_counter
  aux_counter := h₂.aux_counter.trans h₁.aux_counter
  counters k := by
    rw [h₂.counters, h₁.counters, tally_of_effect h₁, tally_add]
    omega
  coins k := by
    rw [h₂.coins, h₁.coins]
    split <;> rfl

/-- The bench of a machine after work on its reels. -/
theorem Effect.bench_eq {σ σ' : Store} {m : Machine} {mount mount' : Mount} {cost : Cost}
    {b : Bench} (h : Effect σ σ' m.coin mount mount' cost b)
    (hcoin : m.coin = none → b.coin = default)
    {m' : Machine} (hm : m'.coin = m.coin) : σ'.bench m' mount' = b := by
  obtain ⟨t, c⟩ := b
  rw [bench, hm]
  have htapes := h.tapes
  simp only at htapes hcoin
  cases hk : m.coin with
  | none =>
    rw [htapes, hcoin hk]
    rfl
  | some k =>
    have hc := h.coins k
    rw [if_pos hk] at hc
    rw [htapes, Option.map_some, Option.getD_some, hc]

/-- Reels on which a counter, if there is one, has been attached already. -/
def Counted (σ : Store) (counter : Option (Handle Counter)) (mount : Mount) : Prop :=
  (counter <|> σ.counterOf mount.main) = σ.counterOf mount.main ∧
    (counter <|> σ.counterOf mount.aux) = σ.counterOf mount.aux

theorem Counted.after {σ σ' : Store} {counter : Option (Handle Counter)}
    {coin : Option (Handle Coin)} {mount mount' : Mount} {cost : Cost} {b : Bench}
    (h : Counted σ counter mount) (heffect : Effect σ σ' coin mount mount' cost b) :
    Counted σ' counter mount' := by
  rw [Counted, heffect.main_counter, heffect.aux_counter]
  exact h

/-! ## Work seen from another store -/

section Effect

variable {σ σ' : Store} {mount mount' : Mount} {cost : Cost} {b : Bench}

/-- What work does is told from the counters of the reels and from what is counted so far. -/
theorem Effect.of_agree {σ₁ σ₂ : Store} {c : Option (Handle Coin)}
    (h : Effect σ₁ σ' c mount mount' cost b)
    (hmain : σ₁.counterOf mount.main = σ₂.counterOf mount.main)
    (haux : σ₁.counterOf mount.aux = σ₂.counterOf mount.aux)
    (hcounters : σ₁.counters = σ₂.counters) (hcoins : σ₁.coins = σ₂.coins) :
    Effect σ₂ σ' c mount mount' cost b where
  tapes := h.tapes
  main_counter := h.main_counter.trans hmain
  aux_counter := h.aux_counter.trans haux
  counters k := by
    rw [h.counters, hcounters, tally, tally, hmain, haux]
  coins k := by
    rw [h.coins, hcoins]

/-- Work without a coin leaves every coin as it is. -/
theorem Effect.withCoin (h : Effect σ σ' none mount mount' cost b) (k : Handle Coin) :
    Effect σ σ' (some k) mount mount' cost (b.withCoin (σ.coins.get k)) where
  tapes := h.tapes
  main_counter := h.main_counter
  aux_counter := h.aux_counter
  counters := h.counters
  coins j := by
    refine (h.coins j).trans ?_
    by_cases hk : k = j
    · rw [hk]
      simp [Bench.withCoin]
    · simp [hk]

end Effect

end SubseqMachines.Store
