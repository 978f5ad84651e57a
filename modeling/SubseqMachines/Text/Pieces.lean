/-!
# Pieces of a text

A separator cuts a text into pieces: the part before the first separator, the part up to the next
one, and so on. A text always has a first piece, empty pieces count, and a text without separator is
one piece.

* `pieces sep text` is the first piece together with the later ones;
* `pieces_append`: a piece ends at the first separator after it;
* `join_pieces`: the pieces, put together with the separator between them, are the text.
-/

namespace SubseqMachines.Text

/-- The first piece of a text and the list of the later ones. -/
def pieces (sep : Char) : List Char → List Char × List (List Char)
  | [] => ([], [])
  | c :: text =>
    let (first, later) := pieces sep text
    if c = sep then ([], first :: later) else (c :: first, later)

/-- Pieces put together with the separator between them. -/
def join (sep : Char) : List Char × List (List Char) → List Char
  | (first, later) => first ++ later.flatMap (sep :: ·)

/-! ## Laws -/

@[simp] theorem pieces_nil (sep : Char) : pieces sep [] = ([], []) := rfl

/-- A text without separator is one piece. -/
theorem pieces_of_not_mem {sep : Char} {text : List Char} (h : sep ∉ text) :
    pieces sep text = (text, []) := by
  induction text with
  | nil => rfl
  | cons c text ih =>
    rw [List.mem_cons, not_or] at h
    simp [pieces, ih h.2, Ne.symm h.1]

/-- A piece ends at the first separator after it. -/
theorem pieces_append {sep : Char} {first : List Char} (h : sep ∉ first) (text : List Char) :
    pieces sep (first ++ sep :: text) =
      (first, (pieces sep text).1 :: (pieces sep text).2) := by
  induction first with
  | nil => simp [pieces]
  | cons c first ih =>
    rw [List.mem_cons, not_or] at h
    simp [pieces, ih h.2, Ne.symm h.1]

/-- Nothing is lost: the pieces joined again are the text. -/
theorem join_pieces (sep : Char) (text : List Char) : join sep (pieces sep text) = text := by
  induction text with
  | nil => rfl
  | cons c text ih =>
    simp only [join] at ih
    by_cases h : c = sep <;> simp [pieces, join, h, ih]

end SubseqMachines.Text
