import Mathlib.Data.List.NodupEquivFin
import SubseqMachines.Subsequence
import SubseqMachines.Symbol

/-!
# Answers for words that are spelled out

The answers for texts are about characters and the machines are about letters. A word of letters and
its spelling have the same subsequences, so the answers for spelled words are about the words.

* `sublist_iff_exists_strictMono`: a subsequence by the positions of its symbols.
* `isSubsequence_spell`: the answer for a block and a word.
* `blocksText`, `commonSubsequence_blocksText`: blocks as a text, and the answer for this text.
-/

namespace SubseqMachines

/-- A word is a subsequence of a block when its symbols are found at positions that increase. -/
theorem sublist_iff_exists_strictMono {α : Type} {word block : List α} :
    word.Sublist block ↔ ∃ position : Fin word.length → Fin block.length,
      StrictMono position ∧ ∀ i, block.get (position i) = word.get i := by
  rw [List.sublist_iff_exists_fin_orderEmbedding_get_eq]
  constructor
  · rintro ⟨position, h⟩
    exact ⟨position, position.strictMono, fun i => (h i).symm⟩
  · rintro ⟨position, hmono, h⟩
    exact ⟨OrderEmbedding.ofStrictMono position hmono, fun i => (h i).symm⟩

theorem map_char_sublist_iff {word block : List Letter} :
    (word.map Letter.char).Sublist (block.map Letter.char) ↔ word.Sublist block := by
  constructor
  · intro h
    obtain ⟨word', hsub, heq⟩ := List.sublist_map_iff.mp h
    -- a letter is known by its character
    obtain rfl : word = word' :=
      List.map_injective_iff.mpr (fun _ _ => Letter.char_injective) heq
    exact hsub
  · exact List.Sublist.map Letter.char

theorem toList_spell (word : List Letter) : (Letter.spell word).toList = word.map Letter.char :=
  String.toList_ofList

theorem isSubsequence_spell {block word : List Letter} :
    isSubsequence (Letter.spell block) (Letter.spell word) = true ↔ word.Sublist block := by
  rw [isSubsequence, readOff?_isSome_iff, toList_spell, toList_spell, map_char_sublist_iff]

/-! ## Blocks as a text -/

/-- Blocks spelled out, with `#` between them. -/
def blocksText (first : List Letter) (later : List (List Letter)) : String :=
  "#".intercalate ((first :: later).map Letter.spell)

theorem hash_not_mem_map_char (block : List Letter) : '#' ∉ block.map Letter.char := by
  intro h
  obtain ⟨l, -, hl⟩ := List.mem_map.mp h
  cases l <;> simp [Letter.char] at hl

theorem pieces_blocksText (first : List Letter) (later : List (List Letter)) :
    Text.pieces '#' (blocksText first later).toList =
      (first.map Letter.char, later.map (List.map Letter.char)) := by
  rw [blocksText]
  induction later generalizing first with
  | nil =>
    rw [List.map_singleton, String.intercalate_singleton, toList_spell,
      Text.pieces_of_not_mem (hash_not_mem_map_char first)]
    rfl
  | cons block later ih =>
    -- the first block ends at the first `#`, since no letter is spelled so
    have htext : ("#".intercalate ((first :: block :: later).map Letter.spell)).toList =
        first.map Letter.char ++ '#' ::
          ("#".intercalate ((block :: later).map Letter.spell)).toList := by
      rw [List.map_cons, List.map_cons, String.intercalate_cons_cons, String.toList_append,
        String.toList_append, toList_spell, List.append_assoc]
      rfl
    rw [htext, Text.pieces_append (hash_not_mem_map_char first), ih]
    rfl

theorem commonSubsequence_blocksText {first word : List Letter} {later : List (List Letter)} :
    commonSubsequence (blocksText first later) (Letter.spell word) = true ↔
      word.length = first.length ∧ ∀ block ∈ later, word.Sublist block := by
  rw [commonSubsequence, pieces_blocksText, toList_spell]
  simp only [Bool.and_eq_true, decide_eq_true_eq, List.length_map, List.all_map, List.all_eq_true,
    Function.comp_apply, readOff?_isSome_iff, map_char_sublist_iff]
  constructor
  · exact fun ⟨hlen, hall⟩ => ⟨hlen.symm, hall⟩
  · exact fun ⟨hlen, hall⟩ => ⟨hlen.symm, hall⟩

end SubseqMachines
