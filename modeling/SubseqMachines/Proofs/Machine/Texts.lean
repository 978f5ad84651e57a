import SubseqMachines.Proofs.Machine.Form
import SubseqMachines.Proofs.Matcher.Layout
import SubseqMachines.Store.Build

/-!
# Texts that the machines take

The tapes for texts are laid out for the machines if the texts are spelled with the right characters
and none of the words that a machine asks for is empty.

* `parseMain_spell`, `parseAux_spell`: words that are spelled out are read.
* `matcherTapes_spell`, `Matcher.laid_of_spell`: the tapes for a block and a word.
* `samplerTapes_spell`, `Sampler.laid_of_spell`: the tapes for a block alone.
* `Matcher.IsQuestion`, `Matcher.takes_texts_iff`: the texts whose tapes a matcher takes.
* `MachineKind.exists_refusal_of_layout`: texts for which there are no tapes are refused.
-/

namespace SubseqMachines

/-! ## Words that are spelled out -/

theorem mainOfChar?_char (l : Letter) : Cell.mainOfChar? l.char = some (.main l) := by
  cases l <;> rfl

theorem auxOfChar?_char (l : Letter) : Cell.auxOfChar? l.char = some (.aux l) := by
  cases l <;> rfl

theorem parseMain_spell (block : List Letter) :
    parseMain (Letter.spell block) = .ok (block.map .main) := by
  rw [parseMain_eq_ok_iff, toList_spell, List.map_map, List.map_map]
  exact List.map_congr_left fun l _ => mainOfChar?_char l

theorem parseAux_spell (word : List Letter) :
    parseAux (Letter.spell word) = .ok (word.map .aux) := by
  rw [parseAux_eq_ok_iff, toList_spell, List.map_map, List.map_map]
  exact List.map_congr_left fun l _ => auxOfChar?_char l

/-- The tapes for a block and a word that are spelled out. -/
theorem matcherTapes_spell (block word : List Letter) :
    matcherTapes (Letter.spell block) (Letter.spell word) =
      .ok ⟨.startingAt .hash (block.map .main ++ [.hash]),
        .startingAt .blank (word.map .aux ++ [.blank])⟩ := by
  rw [matcherTapes, parseMain_spell, parseAux_spell]
  rfl

theorem Matcher.laid_of_spell {block word : List Letter} (hblock : block ≠ []) (hword : word ≠ []) :
    Matcher.Laid ⟨.startingAt .hash (block.map .main ++ [.hash]),
      .startingAt .blank (word.map .aux ++ [.blank])⟩ block word [.hash] where
  main_focus := rfl
  main_right := rfl
  block_ne_nil := hblock
  rest_head := rfl
  aux_left := ⟨0, rfl⟩
  aux_focus := rfl
  aux_right := ⟨1, rfl⟩
  word_ne_nil := hword

/-- The tapes for a block that is spelled out. -/
theorem samplerTapes_spell (block : List Letter) :
    samplerTapes (Letter.spell block) =
      .ok ⟨.startingAt .blank (block.map .main ++ [.hash]), .blank⟩ := by
  rw [samplerTapes, parseMain_spell]
  rfl

theorem Sampler.laid_of_spell {block : List Letter} (hblock : block ≠ []) :
    Sampler.Laid ⟨.startingAt .blank (block.map .main ++ [.hash]), .blank⟩ block [.hash] where
  main_left := ⟨0, rfl⟩
  main_focus := rfl
  main_right := rfl
  word_ne_nil := hblock
  rest_head := rfl
  aux_blank := ⟨0, 0, rfl⟩

/-! ## Any texts -/

/-- A text is read as cells exactly when it is over `a`, `b` and `#`. -/
theorem exists_parseMain_iff {text : String} :
    (∃ cells, parseMain text = .ok cells) ↔ ∀ ch ∈ text.toList, ch = 'a' ∨ ch = 'b' ∨ ch = '#' := by
  constructor
  · rintro ⟨cells, hcells⟩ ch hch
    obtain ⟨htext, hkind⟩ := parseMain_eq_ok_iff_chars.mp hcells
    rw [htext] at hch
    obtain ⟨c, hc, rfl⟩ := List.mem_map.mp hch
    rcases hkind c hc with rfl | hletter
    · exact .inr (.inr rfl)
    · obtain ⟨l, rfl⟩ := Cell.isMainLetter_iff.mp hletter
      cases l with
      | a => exact .inl rfl
      | b => exact .inr (.inl rfl)
  · intro h
    -- each character is that of a cell
    have hrange : text.toList ∈ Set.range (List.map fun c : {c : Cell // c = .hash ∨
        c.isMainLetter = true} => c.1.char) := by
      rw [Set.range_list_map]
      intro ch hch
      rcases h ch hch with rfl | rfl | rfl
      · exact ⟨⟨.main .a, .inr rfl⟩, rfl⟩
      · exact ⟨⟨.main .b, .inr rfl⟩, rfl⟩
      · exact ⟨⟨.hash, .inl rfl⟩, rfl⟩
    obtain ⟨cells, hcells⟩ := hrange
    refine ⟨cells.map Subtype.val, parseMain_eq_ok_iff_chars.mpr ⟨?_, ?_⟩⟩
    · rw [← hcells, List.map_map]
      rfl
    · intro c hc
      obtain ⟨d, -, rfl⟩ := List.mem_map.mp hc
      exact d.2

/-- What is read as letters of the aux tape is a word that is spelled out. -/
theorem exists_spell_of_parseAux {word : String} {cells : List Cell} (h : parseAux word = .ok cells) :
    ∃ letters, Letter.spell letters = word ∧ cells = letters.map .aux := by
  have hchars : ∀ ch ∈ word.toList, ch = 'a' ∨ ch = 'b' := by
    intro ch hch
    have hmem := List.mem_map_of_mem (f := Cell.auxOfChar?) hch
    rw [parseAux_eq_ok_iff.mp h] at hmem
    obtain ⟨c, -, hc⟩ := List.mem_map.mp hmem
    obtain ⟨l, hl, -⟩ := Option.map_eq_some_iff.mp hc.symm
    obtain rfl := Letter.ofChar?_eq_some_iff.mp hl
    cases l with
    | a => exact .inl rfl
    | b => exact .inr rfl
  obtain ⟨letters, rfl⟩ := exists_spell_iff.mpr hchars
  rw [parseAux_spell] at h
  exact ⟨letters, rfl, (Except.ok.inj h).symm⟩

/-- The cells that a text is read as are letters up to its first `#`. -/
theorem exists_head_of_parseMain {text : String} {cells : List Cell}
    (h : parseMain text = .ok cells) :
    ∃ (head : List Letter) (rest : List Cell), cells = head.map .main ++ rest ∧
      ((rest ++ [Cell.hash]).headD .blank).isBlockEnd = true ∧
      (Text.pieces '#' text.toList).1 = head.map Letter.char := by
  obtain ⟨htext, hkind⟩ := parseMain_eq_ok_iff_chars.mp h
  -- the letters come first, and what ends them can only be a `#` or the end of the text
  obtain ⟨head, rest, rfl, hrest⟩ := tells_main.exists_stretch rfl cells
  have hchars : (head.map Cell.main).map Cell.char = head.map Letter.char := by
    rw [List.map_map]
    rfl
  refine ⟨head, rest, rfl, ?_, ?_⟩
  · cases rest with
    | nil => rfl
    | cons c rest =>
      rcases hkind c (by simp) with rfl | hletter
      · rfl
      · rw [List.headD_cons, hletter] at hrest
        cases hrest
  · rw [htext, List.map_append, hchars]
    cases rest with
    | nil =>
      rw [List.map_nil, List.append_nil, Text.pieces_of_not_mem (hash_not_mem_map_char head)]
    | cons c rest =>
      rcases hkind c (by simp) with rfl | hletter
      · exact congrArg Prod.fst (Text.pieces_append (hash_not_mem_map_char head) _)
      · rw [List.headD_cons, hletter] at hrest
        cases hrest

/-! ## The texts that a matcher takes -/

namespace Matcher

/-- A block with whatever may follow it, and a word to be sought in it: the block is over `a`, `b`
and `#` and begins with a letter, and the word is over `a` and `b` and not empty. -/
structure IsQuestion (block word : String) : Prop where
  block_chars : ∀ ch ∈ block.toList, ch = 'a' ∨ ch = 'b' ∨ ch = '#'
  block_begins : block.toList.head? = some 'a' ∨ block.toList.head? = some 'b'
  word_ne_empty : word ≠ ""
  word_chars : ∀ ch ∈ word.toList, ch = 'a' ∨ ch = 'b'

/-- The block that a matcher looks at is the part of the text up to the first `#`. -/
theorem exists_laid_of_isQuestion {block word : String} (h : IsQuestion block word) :
    ∃ (t : Tapes) (head letters : List Letter) (rest : List Cell),
      matcherTapes block word = .ok t ∧ Laid t head letters rest ∧
        (rest.headD .blank).isBlockEnd = true ∧
        (Text.pieces '#' block.toList).1 = head.map Letter.char ∧
        word = Letter.spell letters := by
  obtain ⟨cells, hparse⟩ := exists_parseMain_iff.mpr h.block_chars
  obtain ⟨head, rest, rfl, hclosed, hpiece⟩ := exists_head_of_parseMain hparse
  obtain ⟨letters, rfl⟩ := exists_spell_iff.mpr h.word_chars
  have hhead : head ≠ [] := by
    -- the text begins with a letter, and so does its first piece
    rintro rfl
    cases hchars : block.toList with
    | nil => simpa [hchars] using h.block_begins
    | cons ch chars =>
      have hch : ch ≠ '#' := by
        have hbegins := h.block_begins
        rw [hchars] at hbegins
        rintro rfl
        simp at hbegins
      simp [hchars, Text.pieces, hch] at hpiece
  let t : Tapes := ⟨.startingAt .hash (head.map .main ++ rest ++ [.hash]),
    .startingAt .blank (letters.map .aux ++ [.blank])⟩
  have ht : matcherTapes block (Letter.spell letters) = .ok t := by
    rw [matcherTapes, hparse, parseAux_spell]
    rfl
  have hlaid : Laid t head letters (rest ++ [.hash]) :=
    { main_focus := rfl, main_right := List.append_assoc _ _ _, block_ne_nil := hhead
      rest_head := isMainLetter_eq_false_of_isBlockEnd hclosed, aux_left := ⟨0, rfl⟩
      aux_focus := rfl, aux_right := ⟨1, rfl⟩
      word_ne_nil := spell_ne_empty_iff.mp h.word_ne_empty }
  exact ⟨t, head, letters, _, ht, hlaid, hclosed, hpiece, rfl⟩

/-- **The texts whose tapes a matcher takes.** -/
theorem takes_texts_iff (block word : String) :
    (∃ t, matcherTapes block word = .ok t ∧ refusal? t = none) ↔ IsQuestion block word := by
  constructor
  · rintro ⟨t, ht, hr⟩
    cases hparse : parseMain block with
    | error f =>
      rw [matcherTapes, hparse] at ht
      cases ht
    | ok cells =>
      cases hread : parseAux word with
      | error f =>
        rw [matcherTapes, hparse, hread] at ht
        cases ht
      | ok read =>
        rw [matcherTapes, hparse, hread] at ht
        obtain rfl := Except.ok.inj ht
        obtain ⟨letters, rfl, rfl⟩ := exists_spell_of_parseAux hread
        obtain ⟨-, hblock, -, -, hword, -⟩ := refusal?_eq_none_iff_met.mp hr
        -- what the texts are over is what can be read; the rest is what the matcher checks
        refine ⟨exists_parseMain_iff.mp ⟨cells, hparse⟩, ?_, ?_, exists_spell_iff.mp ⟨_, rfl⟩⟩
        · obtain ⟨htext, -⟩ := parseMain_eq_ok_iff_chars.mp hparse
          rw [htext]
          -- the first cell is a letter
          match cells, hblock with
          | .main .a :: _, _ => exact .inl rfl
          | .main .b :: _, _ => exact .inr rfl
        · rw [spell_ne_empty_iff]
          rintro rfl
          cases hword
  · intro h
    obtain ⟨t, head, letters, rest, ht, hlaid, -⟩ := exists_laid_of_isQuestion h
    exact ⟨t, ht, refusal?_eq_none_iff.mpr ⟨_, _, _, hlaid⟩⟩

end Matcher

/-! ## Texts that are refused -/

/-- What fails in two parts fails in the first one or in the second one. -/
theorem eq_error_of_bind {α β ε : Type} {x : Except ε α} {g : α → Except ε β} {e : ε}
    (h : x >>= g = .error e) : x = .error e ∨ ∃ a, x = .ok a ∧ g a = .error e := by
  cases x with
  | error d =>
    obtain rfl : d = e := Except.error.inj h
    exact .inl rfl
  | ok a => exact .inr ⟨a, rfl, h⟩

theorem exists_eq_error_of_mapM {α β ε : Type} {g : α → Except ε β} {xs : List α} {e : ε}
    (h : xs.mapM g = .error e) : ∃ x ∈ xs, g x = .error e := by
  induction xs with
  | nil => cases h
  | cons x xs ih =>
    rw [List.mapM_cons] at h
    obtain hx | ⟨y, -, h⟩ := eq_error_of_bind h
    · exact ⟨x, List.mem_cons_self, hx⟩
    · obtain hxs | ⟨ys, -, h⟩ := eq_error_of_bind h
      · obtain ⟨x', hmem, hx'⟩ := ih hxs
        exact ⟨x', List.mem_cons_of_mem x hmem, hx'⟩
      · cases h

/-- What cannot be read is refused, whichever characters are read. -/
theorem exists_refusal_of_mapM {cell? : Char → Option Cell} {why : Char → Refusal}
    {chars : List Char} {f : Fault}
    (h : (chars.mapM fun c => (cell? c).elim (.error (.refusal (why c))) Except.ok) = .error f) :
    ∃ r, f = .refusal r := by
  obtain ⟨c, -, hc⟩ := exists_eq_error_of_mapM h
  cases hcell : cell? c with
  | none =>
    rw [hcell] at hc
    exact ⟨why c, (Except.error.inj hc).symm⟩
  | some cell =>
    rw [hcell] at hc
    cases hc

theorem exists_refusal_of_matcherTapes {block word : String} {f : Fault}
    (h : matcherTapes block word = .error f) : ∃ r, f = .refusal r := by
  obtain hblock | ⟨cells, -, h⟩ := eq_error_of_bind h
  · exact exists_refusal_of_mapM hblock
  · obtain hword | ⟨letters, -, h⟩ := eq_error_of_bind h
    · exact exists_refusal_of_mapM hword
    · cases h

/-- **Texts for which there are no tapes are refused.** -/
theorem MachineKind.exists_refusal_of_layout {kind : MachineKind} {text : String}
    {word : Option String} {f : Fault} (h : kind.layout text word = .error f) :
    ∃ r, f = .refusal r := by
  cases kind with
  | matcher =>
    change (if (word.getD "").isEmpty then _ else _) = _ at h
    split at h
    · exact ⟨.wordMissing, (Except.error.inj h).symm⟩
    · exact exists_refusal_of_matcherTapes h
  | sampler | trial =>
    -- the one text of either kind is read first
    obtain htext | ⟨cells, -, h⟩ := eq_error_of_bind h
    · exact exists_refusal_of_mapM htext
    · cases h

end SubseqMachines
