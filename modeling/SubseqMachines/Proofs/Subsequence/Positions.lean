import SubseqMachines.Proofs.Subsequence.Spelling

/-!
# What the direct answers mean

The direct answers read words off blocks greedily and cut a text at each `#` as they go along it.
What they answer is told here without either: by positions of a block that carry the characters of a
word, and by the only way in which a text is put together from pieces without a `#`.

* `Text.pieces_join`, `Text.not_mem_of_mem_pieces`: cutting is the inverse of putting together.
* `Carries`, `isSubsequence_iff_carries`: a word on positions of a block.
* `Cut`, `cut_pieces`, `Cut.eq_pieces`: the pieces of a text, of which there is one row.
* `direct_answers_iff`: both answers.
-/

namespace SubseqMachines

/-! ## Pieces -/

namespace Text

variable {sep : Char}

theorem not_mem_fst_pieces (sep : Char) (text : List Char) : sep ∉ (pieces sep text).1 := by
  induction text with
  | nil => exact List.not_mem_nil
  | cons c text ih =>
    by_cases hc : c = sep
    · simp [pieces, hc]
    · simp [pieces, hc, ih, Ne.symm hc]

/-- No piece has the separator in it. -/
theorem not_mem_of_mem_pieces {text piece : List Char} (h : piece ∈ (pieces sep text).2) :
    sep ∉ piece := by
  induction text with
  | nil => cases h
  | cons c text ih =>
    by_cases hc : c = sep
    · -- what was the first piece is now the first of the later ones
      simp only [pieces, hc, if_true, List.mem_cons] at h
      rcases h with rfl | h
      · exact not_mem_fst_pieces sep text
      · exact ih h
    · simp only [pieces, hc, if_false] at h
      exact ih h

/-- The first piece is all that stands before the first separator. -/
theorem fst_pieces (sep : Char) (text : List Char) :
    (pieces sep text).1 = text.takeWhile (· ≠ sep) := by
  induction text with
  | nil => rfl
  | cons c text ih => by_cases hc : c = sep <;> simp [pieces, hc, ih]

/-- **Pieces that are put together are found again**, if none has the separator in it. -/
theorem pieces_join {first : List Char} {later : List (List Char)} (hfirst : sep ∉ first)
    (hlater : ∀ piece ∈ later, sep ∉ piece) :
    pieces sep (join sep (first, later)) = (first, later) := by
  induction later generalizing first with
  | nil => simp [join, pieces_of_not_mem hfirst]
  | cons piece later ih =>
    obtain ⟨hpiece, hlater⟩ := List.forall_mem_cons.mp hlater
    have hjoin : join sep (first, piece :: later) = first ++ sep :: join sep (piece, later) := rfl
    rw [hjoin, pieces_append hfirst, ih hpiece hlater]

end Text

/-! ## A text cut at each `#` -/

/-- The text is the first piece and the later ones with a `#` between any two of them, and no piece
has a `#` in it. -/
structure Cut (text first : String) (later : List String) : Prop where
  joined : "#".intercalate (first :: later) = text
  free : ∀ piece ∈ first :: later, '#' ∉ piece.toList

section Cut

variable {text first : String} {later : List String}

theorem toList_intercalate_hash (first : String) (later : List String) :
    ("#".intercalate (first :: later)).toList =
      Text.join '#' (first.toList, later.map String.toList) := by
  induction later generalizing first with
  | nil => simp [Text.join]
  | cons piece later ih =>
    rw [String.intercalate_cons_cons, String.toList_append, String.toList_append, ih,
      List.append_assoc]
    rfl

/-- **There is only one way to cut a text.** -/
theorem Cut.eq_pieces (h : Cut text first later) :
    Text.pieces '#' text.toList = (first.toList, later.map String.toList) := by
  obtain ⟨hfirst, hlater⟩ := List.forall_mem_cons.mp h.free
  rw [← h.joined, toList_intercalate_hash]
  apply Text.pieces_join hfirst
  intro piece hpiece
  obtain ⟨piece', hpiece', rfl⟩ := List.mem_map.mp hpiece
  exact hlater piece' hpiece'

/-- Every text can be cut. -/
theorem cut_pieces (text : String) :
    Cut text (String.ofList (Text.pieces '#' text.toList).1)
      ((Text.pieces '#' text.toList).2.map String.ofList) where
  joined := by
    rw [← String.toList_inj, toList_intercalate_hash, List.map_map, String.toList_ofList]
    have hback : String.toList ∘ String.ofList = id := funext fun _ => String.toList_ofList
    rw [hback, List.map_id, Text.join_pieces]
  free := by
    rw [List.forall_mem_cons, String.toList_ofList]
    refine ⟨Text.not_mem_fst_pieces _ _, ?_⟩
    intro piece hpiece
    obtain ⟨chars, hchars, rfl⟩ := List.mem_map.mp hpiece
    rw [String.toList_ofList]
    exact Text.not_mem_of_mem_pieces hchars

theorem Cut.unique {first' : String} {later' : List String} (h : Cut text first later)
    (h' : Cut text first' later') : first' = first ∧ later' = later := by
  obtain ⟨hfirst, hlater⟩ := Prod.mk.inj (h'.eq_pieces.symm.trans h.eq_pieces)
  exact ⟨String.toList_inj.mp hfirst,
    List.map_injective_iff.mpr (fun _ _ => String.toList_inj.mp) hlater⟩

end Cut

/-! ## A word on positions of a block -/

/-- There are positions of the block, each greater than the one before it, that carry the characters
of the word in order. -/
def Carries (block word : String) : Prop :=
  ∃ position : Fin word.toList.length → Fin block.toList.length,
    StrictMono position ∧ ∀ i, block.toList.get (position i) = word.toList.get i

theorem readOff?_isSome_iff_carries {block word : String} :
    (readOff? word.toList block.toList).isSome = true ↔ Carries block word :=
  readOff?_isSome_iff.trans sublist_iff_exists_strictMono

/-- **The direct answers mean what they say.** A word is a subsequence of a block exactly when
increasing positions of the block carry its characters in order. A witness is one for a text exactly
when it is as long as the first piece of the text, which is all that stands before its first `#`, and
a subsequence of each later piece, be it empty or not. -/
theorem direct_answers_iff (block word text witness : String) :
    (isSubsequence block word = true ↔ Carries block word) ∧
      ∃ first later, Cut text first later ∧
        (∀ first' later', Cut text first' later' → first' = first ∧ later' = later) ∧
        first.toList = text.toList.takeWhile (· ≠ '#') ∧
        (commonSubsequence text witness = true ↔
          witness.length = first.length ∧ ∀ piece ∈ later, Carries piece witness) := by
  refine ⟨readOff?_isSome_iff_carries, ?_⟩
  have hcut := cut_pieces text
  have hpieces := hcut.eq_pieces
  generalize String.ofList (Text.pieces '#' text.toList).1 = first at hcut hpieces
  generalize (Text.pieces '#' text.toList).2.map String.ofList = later at hcut hpieces
  refine ⟨first, later, hcut, fun _ _ => hcut.unique, ?_, ?_⟩
  · rw [← Text.fst_pieces, hpieces]
  · rw [commonSubsequence, hpieces]
    simp only [Bool.and_eq_true, decide_eq_true_eq, List.all_map, List.all_eq_true,
      Function.comp_apply, readOff?_isSome_iff_carries, String.length_toList]
    exact and_congr_left' eq_comm

/-- Empty pieces count: the one between the two `#` does not carry the witness. -/
example : commonSubsequence "a##a" "a" = false := by decide

end SubseqMachines
