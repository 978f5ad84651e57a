import SubseqMachines.Fault

/-!
# Messages on one line

A refusal may quote a character or a name that was given, and what is given can be anything. In the
quoted form it is not: line ends and all other characters that do not print are escaped.

* `Text.Plain`: a text whose characters all print, so that it does not leave its line.
* `Text.plain_quoted`: a quoted text is plain, whatever is quoted.
* `Refusal.plain_message`: so is the wording of every refusal.
-/

namespace SubseqMachines

namespace Text

/-! ## Characters that print -/

theorem isPrintable_of_visible {c : Char} (h : 32 ≤ c.toNat ∧ c.toNat < 127) :
    isPrintable c = true :=
  (isPrintable_iff_of_ascii (by omega)).mpr h

theorem isPrintable_of_mem_toDigits {n : Nat} {c : Char} (hc : c ∈ Nat.toDigits 16 n) :
    isPrintable c = true := by
  have hdigit : ∀ d < 16, 32 ≤ (Nat.digitChar d).toNat ∧ (Nat.digitChar d).toNat < 127 := by
    decide
  induction n using Nat.strongRecOn with
  | ind n ih =>
    rw [Nat.toDigits_eq_if (by omega)] at hc
    split at hc
    · rename_i hlt
      rw [List.mem_singleton.mp hc]
      exact isPrintable_of_visible (hdigit n hlt)
    · -- the last digit stands behind those of a smaller number
      rcases List.mem_append.mp hc with hmem | hmem
      · exact ih (n / 16) (by omega) hmem
      · rw [List.mem_singleton.mp hmem]
        exact isPrintable_of_visible (hdigit _ (Nat.mod_lt n (by omega)))

namespace Quoted

theorem isPrintable_of_mem_hex {width n : Nat} {c : Char} (hc : c ∈ hex width n) :
    isPrintable c = true := by
  rcases List.mem_append.mp hc with hmem | hmem
  · rw [List.eq_of_mem_replicate hmem]
    exact isPrintable_of_visible (by decide)
  · exact isPrintable_of_mem_toDigits hmem

theorem isPrintable_of_mem_codePoint {n : Nat} {c : Char} (hc : c ∈ codePoint n) :
    isPrintable c = true := by
  have hletters : ∀ d ∈ ['\\', 'x', 'u', 'U'], 32 ≤ d.toNat ∧ d.toNat < 127 := by simp
  -- each form is a backslash, a letter and digits
  have hform : ∃ letter ∈ ['\\', 'x', 'u', 'U'], ∃ width, codePoint n =
      '\\' :: letter :: hex width n := by
    unfold codePoint
    split
    · exact ⟨'x', by decide, 2, rfl⟩
    · split
      · exact ⟨'u', by decide, 4, rfl⟩
      · exact ⟨'U', by decide, 8, rfl⟩
  obtain ⟨letter, hletter, width, hform⟩ := hform
  rw [hform, List.mem_cons, List.mem_cons] at hc
  rcases hc with rfl | rfl | hmem
  · exact isPrintable_of_visible (hletters _ (by decide))
  · exact isPrintable_of_visible (hletters _ hletter)
  · exact isPrintable_of_mem_hex hmem

/-- An escape of two characters. -/
theorem isPrintable_of_mem_pair {c d : Char} (hc : isPrintable c = true) (hd : d ∈ ['\\', c]) :
    isPrintable d = true := by
  rw [List.mem_cons, List.mem_singleton] at hd
  rcases hd with rfl | rfl
  · exact isPrintable_of_visible (by decide)
  · exact hc

theorem isPrintable_of_mem_escape {quote c d : Char} (hquote : isPrintable quote = true)
    (hd : d ∈ escape quote c) : isPrintable d = true := by
  unfold escape at hd
  split at hd
  · rename_i hc
    refine isPrintable_of_mem_pair ?_ hd
    rcases hc with rfl | rfl
    · exact hquote
    · exact isPrintable_of_visible (by decide)
  · -- what is neither the quote nor a backslash is written as its kind is
    split at hd
    · exact isPrintable_of_mem_pair (isPrintable_of_visible (by decide)) hd
    · split at hd
      · exact isPrintable_of_mem_pair (isPrintable_of_visible (by decide)) hd
      · split at hd
        · exact isPrintable_of_mem_pair (isPrintable_of_visible (by decide)) hd
        · split at hd
          · rename_i hprints
            rw [List.mem_singleton.mp hd]
            exact hprints
          · exact isPrintable_of_mem_codePoint hd

end Quoted

/-! ## Plain texts -/

/-- All characters of a text print, so that none of them ends a line. -/
def Plain (text : String) : Prop :=
  ∀ c ∈ text.toList, isPrintable c = true

theorem Plain.append {text more : String} (h : Plain text) (hmore : Plain more) :
    Plain (text ++ more) := by
  intro c hc
  rw [String.toList_append, List.mem_append] at hc
  exact hc.elim (h c) (hmore c)

theorem plain_of_all {text : String}
    (h : (text.toList.all fun c => decide (32 ≤ c.toNat ∧ c.toNat < 127)) = true) : Plain text := by
  intro c hc
  exact isPrintable_of_visible (of_decide_eq_true (List.all_eq_true.mp h c hc))

/-- **Quoted text is plain**, whatever is quoted. -/
theorem plain_quoted (text : String) : Plain (quoted text) := by
  have hquote : isPrintable (Quoted.quoteFor text.toList) = true := by
    unfold Quoted.quoteFor
    split
    · exact isPrintable_of_visible (by decide)
    · exact isPrintable_of_visible (by decide)
  intro c hc
  rw [quoted, String.toList_ofList, List.mem_append, List.mem_cons, List.mem_flatMap,
    List.mem_singleton] at hc
  rcases hc with (rfl | ⟨d, -, hd⟩) | rfl
  · exact hquote
  · exact Quoted.isPrintable_of_mem_escape hquote hd
  · exact hquote

end Text

/-! ## The wording of refusals -/

open Text

theorem plain_tapeName (kind : MachineKind) (side : Side) : Plain (tapeName kind side) := by
  cases kind <;> cases side <;> exact plain_of_all (by decide +kernel)

/-- **The wording of a refusal is plain.** -/
theorem Refusal.plain_message (r : Refusal) : Plain r.message := by
  cases r with
  | mainCharacter c | auxCharacter c =>
    have hnamed : Plain ("Invalid character " ++ quoted (String.singleton c)) :=
      (plain_of_all (by decide +kernel)).append (plain_quoted _)
    exact hnamed.append (plain_of_all (by decide +kernel))
  | headNotBlank kind side | leftNotBlank kind side | notBlank kind side =>
    exact (plain_tapeName kind side).append (plain_of_all (by decide +kernel))
  | unknownMachine name => exact (plain_of_all (by decide +kernel)).append (plain_quoted name)
  | noHead | manyHeads | noHash | noBlock | noWord | afterWord | nothingToSample | openSample
  | emptyBlock | afterBlocks | wordMissing | namelessMachine | lengths =>
    exact plain_of_all (by decide +kernel)

end SubseqMachines
