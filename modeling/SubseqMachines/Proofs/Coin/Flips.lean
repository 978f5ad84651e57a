import SubseqMachines.Coin.Basic

/-!
# The flips a coin has given

* `Coin.flips?_succ_last`: one flip more is the flip of the coin that is left.
* `Coin.length_of_flips?`: as many flips as were asked for.
* `Coin.exists_flip_of_flips?`, `Coin.exists_flip_of_flips?_succ`: a coin that has enough flips has
  the next one.
* `Coin.eq_of_exhausted`, `Coin.exists_exhausted_of_flips?`: when a coin runs out.
* `Coin.exists_flips?_seeded`: a coin with a generator never runs out.
* `Coin.FlippedTo`: what is left of a coin after some flips.
-/

namespace SubseqMachines.Coin

theorem flips?_succ_last (n : Nat) (c : Coin) :
    flips? (n + 1) c =
      (flips? n c).bind fun (fs, d) => d.flip?.map fun (f, e) => (fs ++ [f], e) := by
  induction n generalizing c with
  | zero =>
    cases hc : c.flip? <;> simp [flips?, hc]
  | succ n ih =>
    rw [flips?]
    cases hc : c.flip? with
    | none => simp [flips?, hc]
    | some r =>
      obtain ⟨f, d⟩ := r
      -- the first flip stands before all others, on either side
      rw [flips?, hc]
      simp only [Option.bind_eq_bind, Option.bind_some, ih d]
      cases hd : flips? n d with
      | none => rfl
      | some r =>
        obtain ⟨fs, e⟩ := r
        cases he : e.flip? <;> simp [he]

theorem length_of_flips? {n : Nat} {c d : Coin} {fs : List Bool} (h : flips? n c = some (fs, d)) :
    fs.length = n := by
  induction n generalizing fs d with
  | zero =>
    cases h
    rfl
  | succ n ih =>
    rw [flips?_succ_last, Option.bind_eq_some_iff] at h
    obtain ⟨⟨gs, e⟩, hgs, h⟩ := h
    obtain ⟨⟨f, e'⟩, -, h⟩ := Option.map_eq_some_iff.mp h
    cases h
    rw [List.length_append, ih hgs]
    rfl

/-- A coin that has more flips than were taken from it has a next one. -/
theorem exists_flip_of_flips? {m n : Nat} {c d : Coin} {fs : List Bool} (hmn : m < n)
    (hn : (flips? n c).isSome = true) (hm : flips? m c = some (fs, d)) :
    ∃ f e, d.flip? = some (f, e) := by
  induction n with
  | zero => omega
  | succ n ih =>
    rw [flips?_succ_last] at hn
    rcases Nat.lt_or_eq_of_le (Nat.le_of_lt_succ hmn) with hlt | rfl
    · exact ih hlt (Option.isSome_of_isSome_bind hn)
    · rw [hm, Option.bind_some, Option.isSome_map] at hn
      obtain ⟨⟨f, e⟩, hflip⟩ := Option.isSome_iff_exists.mp hn
      exact ⟨f, e, hflip⟩

/-- A coin runs out after one number of flips. -/
theorem eq_of_exhausted {m n : Nat} {c d e : Coin} {fs gs : List Bool}
    (hm : flips? m c = some (fs, d)) (hd : d.flip? = none) (hn : flips? n c = some (gs, e))
    (he : e.flip? = none) : m = n := by
  -- after fewer flips than it gives a coin has one left
  have hnot : ∀ {k l : Nat} {hs ks : List Bool} {x y : Coin}, flips? k c = some (hs, x) →
      x.flip? = none → flips? l c = some (ks, y) → ¬ k < l := by
    intro k l hs ks x y hk hx hl hlt
    obtain ⟨f, z, hflip⟩ := exists_flip_of_flips? hlt (by rw [hl]; rfl) hk
    rw [hx] at hflip
    cases hflip
  exact Nat.le_antisymm (Nat.not_lt.mp (hnot hn he hm)) (Nat.not_lt.mp (hnot hm hd hn))

/-- A coin that has not enough flips runs out after fewer. -/
theorem exists_exhausted_of_flips? {n : Nat} {c : Coin} (h : flips? n c = none) :
    ∃ m fs d, m < n ∧ flips? m c = some (fs, d) ∧ d.flip? = none := by
  induction n with
  | zero => cases h
  | succ n ih =>
    rw [flips?_succ_last] at h
    cases hn : flips? n c with
    | none =>
      obtain ⟨m, fs, d, hlt, hrest⟩ := ih hn
      exact ⟨m, fs, d, Nat.lt_succ_of_lt hlt, hrest⟩
    | some r =>
      rw [hn, Option.bind_some, Option.map_eq_none_iff] at h
      exact ⟨n, r.1, r.2, Nat.lt_succ_self n, hn, h⟩

/-- A coin that has some flips has a first one, and the others after it. -/
theorem exists_flip_of_flips?_succ {n : Nat} {c : Coin} (h : (flips? (n + 1) c).isSome = true) :
    ∃ f d, c.flip? = some (f, d) ∧ (flips? n d).isSome = true := by
  cases hc : c.flip? with
  | none => simp [flips?, hc] at h
  | some r =>
    refine ⟨r.1, r.2, rfl, ?_⟩
    rw [flips?, hc] at h
    exact Option.isSome_of_isSome_bind h

/-- A coin with a generator has as many flips as are asked for. -/
theorem exists_flips?_seeded (n : Nat) (g : Twister) :
    ∃ flips left, flips? n (seeded g) = some (flips, left) := by
  induction n generalizing g with
  | zero => exact ⟨[], seeded g, rfl⟩
  | succ n ih =>
    obtain ⟨flips, left, hrest⟩ := ih g.next.2
    refine ⟨decide (g.next.1 >>> 31 = 1) :: flips, left, ?_⟩
    rw [flips?, flip?]
    simp [hrest]

/-- The coin `d` is what is left of `c` after some flips. -/
def FlippedTo (c d : Coin) : Prop :=
  ∃ n flips, c.flips? n = some (flips, d)

theorem FlippedTo.refl (c : Coin) : c.FlippedTo c :=
  ⟨0, [], rfl⟩

theorem FlippedTo.flip {c d e : Coin} {f : Bool} (h : c.FlippedTo d)
    (hflip : d.flip? = some (f, e)) : c.FlippedTo e := by
  obtain ⟨n, flips, hn⟩ := h
  refine ⟨n + 1, flips ++ [f], ?_⟩
  simp only [flips?_succ_last, hn, Option.bind_some, hflip, Option.map_some]

end SubseqMachines.Coin
