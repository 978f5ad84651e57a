import Mathlib.Data.Set.List
import SubseqMachines.Machine.Control
import SubseqMachines.Proofs.Subsequence.Spelling
import SubseqMachines.Proofs.Trial.Layout

/-!
# What the machines ask for, as grammars

Each kind of machine asks for tapes of a certain form. The form is told here by the cells of a tape
in a row and the place of the head in it, with stretches of blanks and of letters, as one would write
it down. The checks scan the cells from the head on instead, and take exactly the tapes that have
the form.

* `Tape.Reads`: the cells in front of the head, under it and behind it.
* `MachineKind.Form`: the tapes that a machine of a kind asks for.
* `MachineKind.refusal?_eq_none_iff_form`: a kind takes the tapes exactly when they have the form.
* `Trial.IsBlocks`, `Trial.takes_text_iff`: the texts whose tapes a trial takes.
-/

namespace SubseqMachines

/-! ## Forms -/

/-- The cells of a tape from left to right: those in `before`, then the one under the head, which is
`focus`, then those in `after`. -/
def Tape.Reads (t : Tape) (before : List Cell) (focus : Cell) (after : List Cell) : Prop :=
  t.cells = before ++ focus :: after ∧ t.head = before.length

/-- The cells that a block starts are closed by a `#`, by a blank or by the end of the tape. -/
def ClosedBy (rest : List Cell) : Prop :=
  rest = [] ∨ ∃ more, rest = .hash :: more ∨ rest = .blank :: more

/-- A number of blanks. -/
def blanks (n : ℕ) : List Cell :=
  List.replicate n .blank

/-- The tapes that a machine of a kind asks for. -/
def MachineKind.Form : MachineKind → Tapes → Prop
  -- `…[#]l…`, and `_*[_]word_*`
  | matcher, t =>
    (∃ before l after, t.main.Reads before .hash (.main l :: after)) ∧
      ∃ m word n, word ≠ [] ∧ t.aux.Reads (blanks m) .blank (word.map .aux ++ blanks n)
  -- `_*[_]block` and what closes it, and an aux tape of blanks
  | sampler, t =>
    (∃ m block rest, block ≠ [] ∧ ClosedBy rest ∧
        t.main.Reads (blanks m) .blank (block.map .main ++ rest)) ∧
      ∀ c ∈ t.aux.cells, c = .blank
  -- `_*[_]block#block#…#block_*`, and an aux tape of blanks
  | trial, t =>
    (∃ m n, ∃ blocks : List (List Letter), blocks ≠ [] ∧ (∀ block ∈ blocks, block ≠ []) ∧
        t.main.Reads (blanks m) .blank
          ([Cell.hash].intercalate (blocks.map (List.map .main)) ++ blanks n)) ∧
      ∀ c ∈ t.aux.cells, c = .blank

/-! ## Views of a tape -/

theorem Tape.reads_iff {t : Tape} {before after : List Cell} {focus : Cell} :
    t.Reads before focus after ↔ t.left = before.reverse ∧ t.focus = focus ∧ t.right = after := by
  constructor
  · rintro ⟨hcells, hhead⟩
    -- the view determines the tape
    obtain rfl : t = ⟨before.reverse, focus, after⟩ :=
      ext_view (by rw [hcells, cells, List.reverse_reverse]) (by rw [hhead, head, List.length_reverse])
    exact ⟨rfl, rfl, rfl⟩
  · rintro ⟨hleft, rfl, rfl⟩
    refine ⟨?_, ?_⟩
    · rw [cells, hleft, List.reverse_reverse]
    · rw [head, hleft, List.length_reverse]

theorem reverse_blanks (n : ℕ) : (blanks n).reverse = blanks n :=
  List.reverse_replicate

theorem Tape.all_blank_cells_iff {t : Tape} :
    (∀ c ∈ t.cells, c = .blank) ↔
      ∃ m n, t = ⟨List.replicate m .blank, .blank, List.replicate n .blank⟩ := by
  rw [← cells_all_blank_iff, List.all_eq_true]
  simp only [decide_eq_true_eq]

theorem closedBy_iff {rest : List Cell} :
    ClosedBy rest ↔ (rest.headD .blank).isBlockEnd = true := by
  unfold ClosedBy
  constructor
  · rintro (rfl | ⟨more, rfl | rfl⟩) <;> rfl
  · intro h
    match rest with
    | [] => exact .inl rfl
    | .hash :: more => exact .inr ⟨more, .inl rfl⟩
    | .blank :: more => exact .inr ⟨more, .inr rfl⟩

/-- Blocks with a `#` between them are the first one and those that follow. -/
theorem intercalate_blocks (first : List Letter) (later : List (List Letter)) :
    [Cell.hash].intercalate ((first :: later).map (List.map .main)) =
      first.map .main ++ Trial.laterCells later := by
  induction later generalizing first with
  | nil => simp [Trial.laterCells]
  | cons block later ih =>
    have hnext := ih block
    rw [List.map_cons] at hnext
    rw [List.map_cons, List.map_cons, List.intercalate_cons_cons, hnext, Trial.laterCells_cons,
      List.append_assoc]
    rfl

/-! ## The checks -/

theorem Matcher.refusal?_eq_none_iff_form {t : Tapes} :
    refusal? t = none ↔ MachineKind.matcher.Form t := by
  constructor
  · intro h
    obtain ⟨block, word, rest, hlaid⟩ := refusal?_eq_none_iff.mp h
    obtain ⟨l, block, rfl⟩ := List.exists_cons_of_ne_nil hlaid.block_ne_nil
    obtain ⟨m, hleft⟩ := hlaid.aux_left
    obtain ⟨n, hright⟩ := hlaid.aux_right
    refine ⟨⟨t.main.left.reverse, l, block.map .main ++ rest, ?_⟩, m, word, n,
      hlaid.word_ne_nil, ?_⟩
    · rw [Tape.reads_iff, List.reverse_reverse]
      exact ⟨rfl, hlaid.main_focus, hlaid.main_right⟩
    · rw [Tape.reads_iff, reverse_blanks]
      exact ⟨hleft, hlaid.aux_focus, hright⟩
  · rintro ⟨⟨before, l, after, hmain⟩, m, word, n, hword, haux⟩
    obtain ⟨-, hhash, hright⟩ := Tape.reads_iff.mp hmain
    obtain ⟨hleft, hfocus, hauxRight⟩ := Tape.reads_iff.mp haux
    rw [reverse_blanks] at hleft
    -- the block is all letters from the first one on
    obtain ⟨block, rest, hblock, hrest⟩ := tells_main.exists_stretch rfl t.main.right
    refine refusal?_eq_none_iff.mpr ⟨block, word, rest,
      { main_focus := hhash, main_right := hblock, block_ne_nil := ?_, rest_head := hrest
        aux_left := ⟨m, hleft⟩, aux_focus := hfocus, aux_right := ⟨n, hauxRight⟩
        word_ne_nil := hword }⟩
    rw [← tells_main.headD_stretch hrest, ← hblock, hright]
    rfl

theorem Sampler.refusal?_eq_none_iff_form {t : Tapes} :
    refusal? t = none ↔ MachineKind.sampler.Form t := by
  rw [refusal?_eq_none_iff]
  show _ ↔ (_ ∧ _)
  rw [Tape.all_blank_cells_iff]
  constructor
  · rintro ⟨block, rest, hlaid⟩
    obtain ⟨m, hleft⟩ := hlaid.main_left
    refine ⟨⟨m, block, rest, hlaid.word_ne_nil, closedBy_iff.mpr hlaid.rest_head, ?_⟩,
      hlaid.aux_blank⟩
    rw [Tape.reads_iff, reverse_blanks]
    exact ⟨hleft, hlaid.main_focus, hlaid.main_right⟩
  · rintro ⟨⟨m, block, rest, hblock, hclosed, hmain⟩, haux⟩
    rw [Tape.reads_iff, reverse_blanks] at hmain
    obtain ⟨hleft, hfocus, hright⟩ := hmain
    exact ⟨block, rest,
      { main_left := ⟨m, hleft⟩, main_focus := hfocus, main_right := hright
        word_ne_nil := hblock, rest_head := closedBy_iff.mp hclosed, aux_blank := haux }⟩

theorem Trial.refusal?_eq_none_iff_form {t : Tapes} :
    refusal? t = none ↔ MachineKind.trial.Form t := by
  rw [refusal?_eq_none_iff]
  show _ ↔ (_ ∧ _)
  rw [Tape.all_blank_cells_iff]
  constructor
  · rintro ⟨first, later, hlaid⟩
    obtain ⟨m, hleft⟩ := hlaid.main_left
    obtain ⟨n, hright⟩ := hlaid.main_right
    refine ⟨⟨m, n, first :: later, List.cons_ne_nil _ _, ?_, ?_⟩, hlaid.aux_blank⟩
    · exact List.forall_mem_cons.mpr ⟨hlaid.first_ne_nil, hlaid.later_ne_nil⟩
    · rw [Tape.reads_iff, reverse_blanks, intercalate_blocks, List.append_assoc]
      exact ⟨hleft, hlaid.main_focus, hright⟩
  · rintro ⟨⟨m, n, blocks, hne, hblocks, hmain⟩, haux⟩
    obtain ⟨first, later, rfl⟩ := List.exists_cons_of_ne_nil hne
    obtain ⟨hfirst, hlater⟩ := List.forall_mem_cons.mp hblocks
    rw [Tape.reads_iff, reverse_blanks, intercalate_blocks, List.append_assoc] at hmain
    obtain ⟨hleft, hfocus, hright⟩ := hmain
    exact ⟨first, later,
      { main_left := ⟨m, hleft⟩, main_focus := hfocus, main_right := ⟨n, hright⟩
        first_ne_nil := hfirst, later_ne_nil := hlater, aux_blank := haux }⟩

/-- **A kind takes exactly the tapes that have its form.** -/
theorem MachineKind.refusal?_eq_none_iff_form (kind : MachineKind) (t : Tapes) :
    kind.refusal? t = none ↔ kind.Form t := by
  cases kind with
  | matcher => exact Matcher.refusal?_eq_none_iff_form
  | sampler => exact Sampler.refusal?_eq_none_iff_form
  | trial => exact Trial.refusal?_eq_none_iff_form

/-- No block of a trial is empty, so a `#` does not follow another. -/
example : ¬ MachineKind.trial.Form
    ⟨.startingAt .blank [.main .a, .hash, .hash, .main .b], .blank⟩ := by
  rw [← MachineKind.refusal?_eq_none_iff_form]
  decide

/-! ## Texts -/

theorem mainOfChar?_eq_some_iff {ch : Char} {c : Cell} :
    Cell.mainOfChar? ch = some c ↔ ch = c.char ∧ (c = .hash ∨ c.isMainLetter = true) := by
  unfold Cell.mainOfChar?
  by_cases hhash : ch = '#'
  · subst hhash
    cases c with
    | hash => simp [Cell.char]
    | blank => simp [Cell.char]
    | main l => cases l <;> simp [Cell.char, Letter.char]
    | aux l => simp [Cell.isMainLetter]
  · rw [if_neg hhash]
    cases c with
    | hash => simp [Cell.char, hhash]
    | blank => simp [Cell.isMainLetter]
    | main l => simp [Letter.ofChar?_eq_some_iff, Cell.char]
    | aux l => simp [Cell.isMainLetter]

/-- The cells that a text spells are `#` and letters of the main tape, and they print as it. -/
theorem parseMain_eq_ok_iff_chars {text : String} {cells : List Cell} :
    parseMain text = .ok cells ↔
      text.toList = cells.map Cell.char ∧ ∀ c ∈ cells, c = .hash ∨ c.isMainLetter = true := by
  rw [parseMain_eq_ok_iff]
  generalize text.toList = chars
  induction cells generalizing chars with
  | nil => simp
  | cons c cells ih =>
    cases chars with
    | nil => simp
    | cons ch chars =>
      simp only [List.map_cons, List.cons.injEq, List.forall_mem_cons, ih,
        mainOfChar?_eq_some_iff]
      tauto

/-- The text is words over `a` and `b` with a `#` between any two of them, and none is empty. -/
def Trial.IsBlocks (text : String) : Prop :=
  ∃ words : List String, words ≠ [] ∧
    (∀ word ∈ words, word ≠ "" ∧ ∀ ch ∈ word.toList, ch = 'a' ∨ ch = 'b') ∧
      text = "#".intercalate words

/-- A word over `a` and `b` is a word of letters spelled out. -/
theorem exists_spell_iff {word : String} :
    (∃ letters, Letter.spell letters = word) ↔ ∀ ch ∈ word.toList, ch = 'a' ∨ ch = 'b' := by
  constructor
  · rintro ⟨letters, rfl⟩ ch hch
    rw [toList_spell] at hch
    obtain ⟨l, -, rfl⟩ := List.mem_map.mp hch
    cases l with
    | a => exact .inl rfl
    | b => exact .inr rfl
  · intro h
    have hletters : word.toList ∈ Set.range (List.map Letter.char) := by
      rw [Set.range_list_map]
      intro ch hch
      rcases h ch hch with rfl | rfl
      · exact ⟨.a, rfl⟩
      · exact ⟨.b, rfl⟩
    obtain ⟨letters, hletters⟩ := hletters
    exact ⟨letters, String.toList_inj.mp ((toList_spell letters).trans hletters)⟩

theorem spell_ne_empty_iff {word : List Letter} : Letter.spell word ≠ "" ↔ word ≠ [] := by
  rw [ne_eq, ne_eq, ← String.toList_inj, toList_spell, String.toList_empty, List.map_eq_nil_iff]

namespace Trial

theorem isBlocks_iff {text : String} :
    IsBlocks text ↔ ∃ first later, first ≠ [] ∧ (∀ block ∈ later, block ≠ []) ∧
      text = blocksText first later := by
  constructor
  · rintro ⟨words, hne, hwords, rfl⟩
    have hspelled : words ∈ Set.range (List.map Letter.spell) := by
      rw [Set.range_list_map]
      exact fun word hword => exists_spell_iff.mpr (hwords word hword).2
    obtain ⟨blocks, rfl⟩ := hspelled
    have hblocks : blocks ≠ [] := by
      rintro rfl
      exact hne rfl
    obtain ⟨first, later, rfl⟩ := List.exists_cons_of_ne_nil hblocks
    have hfull : ∀ block ∈ first :: later, block ≠ [] := fun block hblock =>
      spell_ne_empty_iff.mp (hwords _ (List.mem_map_of_mem hblock)).1
    obtain ⟨hfirst, hlater⟩ := List.forall_mem_cons.mp hfull
    exact ⟨first, later, hfirst, hlater, rfl⟩
  · rintro ⟨first, later, hfirst, hlater, rfl⟩
    refine ⟨(first :: later).map Letter.spell, by simp, ?_, rfl⟩
    intro word hword
    obtain ⟨block, hblock, rfl⟩ := List.mem_map.mp hword
    have hfull : ∀ block ∈ first :: later, block ≠ [] :=
      List.forall_mem_cons.mpr ⟨hfirst, hlater⟩
    exact ⟨spell_ne_empty_iff.mpr (hfull block hblock), exists_spell_iff.mp ⟨block, rfl⟩⟩

/-- Blocks print as their text. -/
theorem toList_blocksText (first : List Letter) (later : List (List Letter)) :
    (blocksText first later).toList = (first.map Cell.main ++ laterCells later).map Cell.char := by
  have hblock : ∀ block : List Letter,
      (Letter.spell block).toList = (block.map Cell.main).map Cell.char := by
    intro block
    rw [toList_spell, List.map_map]
    rfl
  induction later generalizing first with
  | nil =>
    rw [blocksText, List.map_singleton, String.intercalate_singleton, hblock]
    simp [laterCells]
  | cons block later ih =>
    -- the first block and its `#`, and then the text of the other blocks
    have htext : blocksText first (block :: later) =
        Letter.spell first ++ "#" ++ blocksText block later :=
      String.intercalate_cons_cons
    rw [htext, String.toList_append, String.toList_append, hblock, ih, laterCells_cons]
    simp only [List.map_append, List.map_cons, List.append_assoc]
    rfl

theorem mem_laterCells {later : List (List Letter)} {c : Cell} (hc : c ∈ laterCells later) :
    c = .hash ∨ c.isMainLetter = true := by
  obtain ⟨block, -, hmem⟩ := List.mem_flatMap.mp hc
  rcases List.mem_cons.mp hmem with rfl | hletter
  · exact .inl rfl
  · obtain ⟨l, -, rfl⟩ := List.mem_map.mp hletter
    exact .inr rfl

/-- The tapes for the text of blocks. -/
theorem trialTapes_blocksText (first : List Letter) (later : List (List Letter)) :
    trialTapes (blocksText first later) =
      .ok ⟨.startingAt .blank (first.map .main ++ laterCells later), .blank⟩ := by
  have hparse : parseMain (blocksText first later) =
      .ok (first.map .main ++ laterCells later) := by
    rw [parseMain_eq_ok_iff_chars]
    refine ⟨toList_blocksText first later, ?_⟩
    intro c hc
    rcases List.mem_append.mp hc with hletter | hmem
    · obtain ⟨l, -, rfl⟩ := List.mem_map.mp hletter
      exact .inr rfl
    · exact mem_laterCells hmem
  rw [trialTapes, hparse]
  rfl

theorem laid_startingAt {first : List Letter} {later : List (List Letter)} (hfirst : first ≠ [])
    (hlater : ∀ block ∈ later, block ≠ []) :
    Laid ⟨.startingAt .blank (first.map .main ++ laterCells later), .blank⟩ first later where
  main_left := ⟨0, rfl⟩
  main_focus := rfl
  main_right := ⟨0, by rw [List.replicate_zero, List.append_nil]; rfl⟩
  first_ne_nil := hfirst
  later_ne_nil := hlater
  aux_blank := ⟨0, 0, rfl⟩

/-- **The texts whose tapes a trial takes** are blocks over `a` and `b`. -/
theorem takes_text_iff (text : String) :
    (∃ t, trialTapes text = .ok t ∧ refusal? t = none) ↔ IsBlocks text := by
  rw [isBlocks_iff]
  constructor
  · rintro ⟨t, ht, hr⟩
    cases hparse : parseMain text with
    | error f =>
      rw [trialTapes, hparse] at ht
      cases ht
    | ok cells =>
      rw [trialTapes, hparse] at ht
      obtain rfl : Tapes.mk (.startingAt .blank cells) .blank = t := Except.ok.inj ht
      obtain ⟨first, later, hlaid⟩ := refusal?_eq_none_iff.mp hr
      obtain ⟨n, hright⟩ := hlaid.main_right
      change cells = _ at hright
      obtain ⟨htext, hcells⟩ := parseMain_eq_ok_iff_chars.mp hparse
      -- no text spells a blank
      have hzero : n = 0 := by
        by_contra hn
        have hblank : Cell.blank ∈ cells := by
          rw [hright]
          simp [hn]
        rcases hcells _ hblank with hhash | hletter
        · cases hhash
        · cases hletter
      rw [hzero, List.replicate_zero, List.append_nil] at hright
      refine ⟨first, later, hlaid.first_ne_nil, hlaid.later_ne_nil, ?_⟩
      rw [← String.toList_inj, toList_blocksText, htext, hright]
  · rintro ⟨first, later, hfirst, hlater, rfl⟩
    exact ⟨_, trialTapes_blocksText first later,
      refusal?_eq_none_iff.mpr ⟨first, later, laid_startingAt hfirst hlater⟩⟩

end Trial

end SubseqMachines
