import Mathlib.Data.List.Induction
import SubseqMachines.Debugger
import SubseqMachines.Proofs.Machine.Texts

/-!
# What the text notation keeps

A tape is printed with its head in brackets, and no cell prints as a bracket, so the place of the
head can be told from the text. On a tape that holds symbols of one side only the cells can be told
as well. In the panels a backslash stands in front of each bracket that opens, which takes nothing
away. In the other direction a text is read character by character, and the tapes that are laid out
for it print as the text again.

* `Cell.fits`: the blank and the symbols of a side.
* `Tape.render_eq_iff`: the printed form determines the tape.
* `escapeMarkup_injective`: the escaped form determines the text.
* `ReadsOver`, `readsOver_parseMain`, `readsOver_parseAux`: which texts are read, and which character
  is named when one is not.
* `notation_keeps_all`: the text notation loses nothing.
-/

namespace SubseqMachines

/-! ## Printed tapes -/

/-- Whether a cell may be on the tape of a side: it is a blank or a symbol of that side. -/
def Cell.fits : Side → Cell → Bool
  | _, blank => true
  | .main, hash => true
  | .main, main _ => true
  | .aux, aux _ => true
  | _, _ => false

namespace Cell

/-- Among the cells of one side each has a character of its own. -/
theorem eq_of_char_eq {side : Side} {c d : Cell} (hc : c.fits side = true) (hd : d.fits side = true)
    (h : c.char = d.char) : c = d := by
  -- letters do not print as a blank or a `#`
  have hletter : ∀ l : Letter, l.char ≠ '_' ∧ l.char ≠ '#' := by
    intro l
    cases l <;> decide
  cases side <;> cases c <;> cases d <;> simp_all [fits, char, eq_comm]
  all_goals exact Letter.char_injective h

theorem bracket_not_mem_map_char (cells : List Cell) : '[' ∉ cells.map char := by
  have hnone : ∀ c : Cell, c.char ≠ '[' := by
    intro c
    match c with
    | blank | hash | main .a | main .b | aux .a | aux .b => decide
  intro h
  obtain ⟨c, -, hc⟩ := List.mem_map.mp h
  exact hnone c hc

/-- Cells of one side are known by how they print. -/
theorem eq_of_map_char_eq {side : Side} {cs ds : List Cell} (hcs : ∀ c ∈ cs, c.fits side = true)
    (hds : ∀ d ∈ ds, d.fits side = true) (h : cs.map char = ds.map char) : cs = ds := by
  induction cs generalizing ds with
  | nil => exact (List.map_eq_nil_iff.mp h.symm).symm
  | cons c cs ih =>
    cases ds with
    | nil => cases h
    | cons d ds =>
      obtain ⟨hchar, hrest⟩ := List.cons_eq_cons.mp h
      obtain ⟨hc, hcs⟩ := List.forall_mem_cons.mp hcs
      obtain ⟨hd, hds⟩ := List.forall_mem_cons.mp hds
      rw [eq_of_char_eq hc hd hchar, ih hcs hds hrest]

end Cell

namespace Tape

/-- All cells of the tape may be on the tape of a side. -/
def Fits (t : Tape) (side : Side) : Prop :=
  ∀ c ∈ t.cells, c.fits side = true

instance (t : Tape) (side : Side) : Decidable (t.Fits side) :=
  inferInstanceAs (Decidable (∀ c ∈ t.cells, _))

theorem toList_render (t : Tape) :
    t.render.toList =
      t.left.reverse.map Cell.char ++ '[' :: t.focus.char :: ']' :: t.right.map Cell.char :=
  String.toList_ofList

/-- **The printed form determines the tape**, if the cells are those of one side. -/
theorem render_eq_iff {side : Side} {s t : Tape} (hs : s.Fits side) (ht : t.Fits side) :
    s.render = t.render ↔ s = t := by
  refine ⟨?_, fun h => h ▸ rfl⟩
  intro h
  rw [← String.toList_inj, toList_render, toList_render] at h
  -- the only bracket that opens is in front of the cell under the head
  have hright : '[' ∉ s.focus.char :: ']' :: s.right.map Cell.char := by
    have hmem := Cell.bracket_not_mem_map_char (s.focus :: s.right)
    simp only [List.map_cons, List.mem_cons, not_or] at hmem ⊢
    exact ⟨hmem.1, by decide, hmem.2⟩
  obtain ⟨hleft, -, hrest⟩ :=
    (List.append_cons_inj_of_notMem (Cell.bracket_not_mem_map_char _) hright).mp h
  obtain ⟨hfocus, hrest⟩ := List.cons_eq_cons.mp hrest
  obtain ⟨-, hright⟩ := List.cons_eq_cons.mp hrest
  obtain ⟨sl, sf, sr⟩ := s
  obtain ⟨tl, tf, tr⟩ := t
  simp only [Fits, cells, List.mem_append, List.mem_cons] at hs ht
  -- so the three parts of the tapes print alike
  have hl : sl.reverse = tl.reverse :=
    Cell.eq_of_map_char_eq (fun c hc => hs c (.inl hc)) (fun c hc => ht c (.inl hc)) hleft
  have hf : sf = tf := Cell.eq_of_char_eq (hs _ (.inr (.inl rfl))) (ht _ (.inr (.inl rfl))) hfocus
  have hr : sr = tr :=
    Cell.eq_of_map_char_eq (fun c hc => hs c (.inr (.inr hc))) (fun c hc => ht c (.inr (.inr hc)))
      hright
  rw [List.reverse_inj.mp hl, hf, hr]

end Tape

/-! ## Escaped text -/

/-- A character as it stands in an escaped text. -/
def escapedChar (c : Char) : List Char :=
  if c = '[' then ['\\', c] else [c]

/-- A character is the last one of those that it is escaped by. -/
theorem exists_escapedChar_eq (c : Char) : ∃ front, escapedChar c = front ++ [c] := by
  unfold escapedChar
  split
  · exact ⟨['\\'], rfl⟩
  · exact ⟨[], rfl⟩

theorem flatMap_escapedChar_inj {xs ys : List Char}
    (h : xs.flatMap escapedChar = ys.flatMap escapedChar) : xs = ys := by
  -- by induction from the end, since each character is known by the last one it leads to
  induction xs using List.reverseRecOn generalizing ys with
  | nil =>
    cases ys using List.reverseRecOn with
    | nil => rfl
    | append_singleton ys y =>
      obtain ⟨front, hy⟩ := exists_escapedChar_eq y
      simp [hy] at h
  | append_singleton xs x ih =>
    obtain ⟨front, hx⟩ := exists_escapedChar_eq x
    cases ys using List.reverseRecOn with
    | nil => simp [hx] at h
    | append_singleton ys y =>
      obtain ⟨front', hy⟩ := exists_escapedChar_eq y
      rw [List.flatMap_append, List.flatMap_append, List.flatMap_singleton, List.flatMap_singleton]
        at h
      have hlast : x = y := by
        rw [hx, hy, ← List.append_assoc, ← List.append_assoc] at h
        exact List.singleton_inj.mp (List.append_inj_right' h rfl)
      subst hlast
      rw [ih (List.append_cancel_right h)]

/-- **The escaped form determines the text.** -/
theorem escapeMarkup_injective {s t : String} (h : escapeMarkup s = escapeMarkup t) : s = t := by
  rw [← String.toList_inj]
  rw [← String.toList_inj, escapeMarkup, escapeMarkup, String.toList_ofList,
    String.toList_ofList] at h
  exact flatMap_escapedChar_inj h

/-! ## Texts that are read -/

/-- Reading a text character by character, when some characters spell cells and any other one is
refused. -/
def readWith (cell? : Char → Option Cell) (why : Char → Refusal) (text : String) :
    Except Fault (List Cell) :=
  text.toList.mapM fun c => (cell? c).elim (.error (.refusal (why c))) .ok

theorem parseMain_eq_readWith : parseMain = readWith Cell.mainOfChar? .mainCharacter := rfl

theorem parseAux_eq_readWith : parseAux = readWith Cell.auxOfChar? .auxCharacter := rfl

/-- A reading takes the texts over the known characters. Of any other text it names the first
character that is not known, in a message with the given ending. -/
def ReadsOver (known : List Char) (ending : String) (read : String → Except Fault (List Cell)) :
    Prop :=
  ∀ text : String,
    ((∃ cells, read text = .ok cells) ↔ ∀ c ∈ text.toList, c ∈ known) ∧
      ((∃ c ∈ text.toList, c ∉ known) →
        ∃ before c after, text.toList = before ++ c :: after ∧ (∀ d ∈ before, d ∈ known) ∧
          c ∉ known ∧ ∃ r : Refusal, read text = .error (.refusal r) ∧
            r.message = "Invalid character " ++ Text.quoted (String.singleton c) ++ ending)

section Reading

variable {cell? : Char → Option Cell} {why : Char → Refusal} {text : String}

/-- Reading fails at the first character that spells nothing. -/
theorem readWith_of_first_none {before after : List Char} {c : Char}
    (htext : text.toList = before ++ c :: after) (hbefore : ∀ d ∈ before, (cell? d).isSome = true)
    (hc : cell? c = none) : readWith cell? why text = .error (.refusal (why c)) := by
  rw [readWith, htext]
  clear htext
  induction before with
  | nil =>
    rw [List.nil_append, List.mapM_cons, hc]
    rfl
  | cons d before ih =>
    obtain ⟨hd, hbefore⟩ := List.forall_mem_cons.mp hbefore
    obtain ⟨cell, hcell⟩ := Option.isSome_iff_exists.mp hd
    rw [List.cons_append, List.mapM_cons, hcell, ih hbefore]
    rfl

/-- If reading fails, then some character spells nothing. -/
theorem exists_none_of_readWith {f : Fault} (h : readWith cell? why text = .error f) :
    ∃ c ∈ text.toList, cell? c = none := by
  obtain ⟨c, hc, hfail⟩ := exists_eq_error_of_mapM h
  refine ⟨c, hc, ?_⟩
  cases hcell : cell? c with
  | none => rfl
  | some cell =>
    rw [hcell] at hfail
    cases hfail

/-- In a text that is not over the known characters there is a first one that is not known. -/
theorem exists_first_not_mem {known chars : List Char} (h : ∃ c ∈ chars, c ∉ known) :
    ∃ before c after, chars = before ++ c :: after ∧ (∀ d ∈ before, d ∈ known) ∧ c ∉ known := by
  have hfound : (chars.find? fun c => decide (c ∉ known)).isSome = true := by
    simpa [List.find?_isSome] using h
  obtain ⟨c, hc⟩ := Option.isSome_iff_exists.mp hfound
  obtain ⟨hnot, before, after, hchars, hbefore⟩ := List.find?_eq_some_iff_append.mp hc
  exact ⟨before, c, after, hchars, fun d hd => by simpa using hbefore d hd, by simpa using hnot⟩

/-- **Reading character by character** is reading over the characters that spell something. -/
theorem readsOver_readWith {known : List Char} {ending : String}
    (hknown : ∀ c, (cell? c).isSome = true ↔ c ∈ known)
    (hmessage : ∀ c, (why c).message =
      "Invalid character " ++ Text.quoted (String.singleton c) ++ ending) :
    ReadsOver known ending (readWith cell? why) := by
  intro text
  have hnone : ∀ c, cell? c = none ↔ c ∉ known := fun c => by
    rw [← hknown, Option.not_isSome_iff_eq_none]
  have hfails : (∃ c ∈ text.toList, c ∉ known) →
      ∃ before c after, text.toList = before ++ c :: after ∧ (∀ d ∈ before, d ∈ known) ∧
        c ∉ known ∧ readWith cell? why text = .error (.refusal (why c)) := by
    intro h
    obtain ⟨before, c, after, htext, hbefore, hc⟩ := exists_first_not_mem h
    exact ⟨before, c, after, htext, hbefore, hc,
      readWith_of_first_none htext (fun d hd => (hknown d).mpr (hbefore d hd)) ((hnone c).mpr hc)⟩
  refine ⟨⟨?_, ?_⟩, ?_⟩
  · rintro ⟨cells, hcells⟩
    by_contra hnot
    push Not at hnot
    obtain ⟨before, c, after, -, -, -, hread⟩ := hfails hnot
    cases hcells.symm.trans hread
  · intro hall
    cases hread : readWith cell? why text with
    | ok cells => exact ⟨cells, rfl⟩
    | error f =>
      obtain ⟨c, hc, hspells⟩ := exists_none_of_readWith hread
      exact absurd (hall c hc) ((hnone c).mp hspells)
  · intro h
    obtain ⟨before, c, after, htext, hbefore, hc, hread⟩ := hfails h
    exact ⟨before, c, after, htext, hbefore, hc, why c, hread, hmessage c⟩

end Reading

/-- The character that is named is the first one that is not known. -/
theorem ReadsOver.error_of_first {known before after : List Char} {ending text : String} {c : Char}
    {read : String → Except Fault (List Cell)} (h : ReadsOver known ending read)
    (htext : text.toList = before ++ c :: after) (hbefore : ∀ d ∈ before, d ∈ known)
    (hc : c ∉ known) :
    ∃ r : Refusal, read text = .error (.refusal r) ∧
      r.message = "Invalid character " ++ Text.quoted (String.singleton c) ++ ending := by
  -- a search for it finds one character, so all such splits of the text are at the same one
  have hfind : ∀ {before c after}, text.toList = before ++ c :: after → (∀ d ∈ before, d ∈ known) →
      c ∉ known → (text.toList.find? fun c => decide (c ∉ known)) = some c :=
    fun htext hbefore hc => List.find?_eq_some_iff_append.mpr
      ⟨by simpa using hc, _, _, htext, fun d hd => by simpa using hbefore d hd⟩
  obtain ⟨before', c', after', htext', hbefore', hc', hread⟩ :=
    (h text).2 ⟨c, by simp [htext], hc⟩
  obtain rfl : c' = c :=
    Option.some.inj ((hfind htext' hbefore' hc').symm.trans (hfind htext hbefore hc))
  exact hread

theorem isSome_ofChar?_iff {c : Char} : (Letter.ofChar? c).isSome = true ↔ c ∈ ['a', 'b'] := by
  unfold Letter.ofChar?
  grind

theorem readsOver_parseMain : ReadsOver ['a', 'b', '#'] " in main tape text" parseMain := by
  rw [parseMain_eq_readWith]
  refine readsOver_readWith (fun c => ?_) fun c => rfl
  unfold Cell.mainOfChar?
  split
  · simp_all
  · rw [Option.isSome_map, isSome_ofChar?_iff]
    simp_all

theorem readsOver_parseAux : ReadsOver ['a', 'b'] " in aux word" parseAux := by
  rw [parseAux_eq_readWith]
  refine readsOver_readWith (fun c => ?_) fun c => rfl
  rw [Cell.auxOfChar?, Option.isSome_map, isSome_ofChar?_iff]

/-! ## Tapes that are laid out -/

/-- Cells that print as a text, behind a head on the first cell. -/
theorem Tape.render_startingAt {text : String} {cells : List Cell}
    (h : text.toList = cells.map Cell.char) (first : Cell) (last : List Cell) :
    (startingAt first (cells ++ last)).render =
      String.ofList ['[', first.char, ']'] ++ text ++ String.ofList (last.map Cell.char) := by
  rw [← String.toList_inj, toList_render, String.toList_append, String.toList_append, h,
    String.toList_ofList, String.toList_ofList]
  simp [startingAt]

/-- **The text notation loses nothing.** Tapes of cells of one side are printed alike only if they
are the same tape, and so are they in the panels of a debugger, where the text is escaped. A text
for a main tape is read exactly if it is over `a`, `b` and `#`, and a word for an aux tape if it is
over `a` and `b`; otherwise the first other character is named. The tapes that are laid out for texts
print as these texts, with the head on the cell in front of them, and the word that is read off the
aux tape of a matcher is the word it was laid out for. -/
theorem notation_keeps_all :
    (∀ (side : Side) (s t : Tape), s.Fits side → t.Fits side →
      (s.render = t.render ↔ s = t) ∧
        (escapeMarkup s.render = escapeMarkup t.render ↔ s = t)) ∧
    ReadsOver ['a', 'b', '#'] " in main tape text" parseMain ∧
    ReadsOver ['a', 'b'] " in aux word" parseAux ∧
    ∀ (text : String) (cells : List Cell), parseMain text = .ok cells →
      (∃ t, trialTapes text = .ok t ∧
        t.main.render = "[_]" ++ text ∧ t.aux.render = "[_]") ∧
      (∃ t, samplerTapes text = .ok t ∧
        t.main.render = "[_]" ++ text ++ "#" ∧ t.aux.render = "[_]") ∧
      ∀ (word : String) (letters : List Cell), parseAux word = .ok letters →
        ∃ t, matcherTapes text word = .ok t ∧
          t.main.render = "[#]" ++ text ++ "#" ∧ t.aux.render = "[_]" ++ word ++ "_" ∧
            t.aux.decodeWord = word := by
  refine ⟨?_, readsOver_parseMain, readsOver_parseAux, ?_⟩
  · intro side s t hs ht
    have hrender := Tape.render_eq_iff hs ht
    refine ⟨hrender, ?_⟩
    rw [← hrender]
    exact ⟨escapeMarkup_injective, congrArg escapeMarkup⟩
  · intro text cells hcells
    obtain ⟨htext, -⟩ := parseMain_eq_ok_iff_chars.mp hcells
    refine ⟨⟨_, by rw [trialTapes, hcells]; rfl, ?_, rfl⟩,
      ⟨_, by rw [samplerTapes, hcells]; rfl, ?_, rfl⟩, ?_⟩
    · have hmain := Tape.render_startingAt htext .blank []
      rw [List.append_nil] at hmain
      rw [hmain]
      exact String.append_empty
    · exact Tape.render_startingAt htext .blank [.hash]
    · intro word letters hletters
      obtain ⟨spelled, rfl, rfl⟩ := exists_spell_of_parseAux hletters
      have hword : (Letter.spell spelled).toList = (spelled.map Cell.aux).map Cell.char := by
        rw [toList_spell, List.map_map]
        rfl
      refine ⟨_, by rw [matcherTapes, hcells, hletters]; rfl, ?_, ?_, ?_⟩
      · exact Tape.render_startingAt htext .hash [.hash]
      · exact Tape.render_startingAt hword .blank [.blank]
      · exact Tape.decodeWord_of_right (n := 1) rfl

/-- Two main tapes of the same cells whose heads are on different ones, a text with a `#` in it and a
word, and a text and a word with characters in them that spell nothing. -/
theorem notation_keeps_all_ab_ba :
    let s : Tape := ⟨[], .main .a, [.blank, .hash]⟩
    let t : Tape := ⟨[.main .a], .blank, [.hash]⟩
    escapeMarkup s.render ≠ escapeMarkup t.render ∧
      (∃ t, matcherTapes "ab#b" "ba" = .ok t ∧ t.main.render = "[#]" ++ "ab#b" ++ "#" ∧
        t.aux.render = "[_]" ++ "ba" ++ "_" ∧ t.aux.decodeWord = "ba") ∧
      (∃ r : Refusal, parseMain "ab_X#" = .error (.refusal r) ∧
        r.message = "Invalid character '_' in main tape text") ∧
      ∃ r : Refusal, parseAux "b#a" = .error (.refusal r) ∧
        r.message = "Invalid character '#' in aux word" := by
  intro s t
  obtain ⟨hprinted, hmain, haux, htapes⟩ := notation_keeps_all
  have hs : s.Fits .main := by decide
  have ht : t.Fits .main := by decide
  refine ⟨?_, ?_, ?_, ?_⟩
  · rw [ne_eq, (hprinted .main s t hs ht).2]
    decide
  · obtain ⟨cells, hcells⟩ := (hmain "ab#b").1.mpr (by simp)
    obtain ⟨letters, hletters⟩ := (haux "ba").1.mpr (by simp)
    exact (htapes _ _ hcells).2.2 _ _ hletters
  · have htext : "ab_X#".toList = ['a', 'b'] ++ '_' :: ['X', '#'] := rfl
    obtain ⟨r, hr, hmessage⟩ := hmain.error_of_first htext (by simp) (by simp)
    exact ⟨r, hr, hmessage.trans (by decide +kernel)⟩
  · have htext : "b#a".toList = ['b'] ++ '#' :: ['a'] := rfl
    obtain ⟨r, hr, hmessage⟩ := haux.error_of_first htext (by simp) (by simp)
    exact ⟨r, hr, hmessage.trans (by decide +kernel)⟩

/-- A letter of the main tape and the same letter of the aux tape print alike, so cells of both
sides are not known by how they print. -/
example : (Tape.startingAt (.main .a) []).render = (Tape.startingAt (.aux .a) []).render := rfl

end SubseqMachines
