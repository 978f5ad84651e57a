import SubseqMachines.Proofs.Store.Work
import SubseqMachines.Proofs.Tape.Calls

/-!
# Calls on a reel

A reel is asked for one thing after another. Its tape goes the way of a line, which has no ends, and
its counter tallies the operations of the head and nothing else.

* `Store.call`, `Store.calls`, `Store.answers`: calls on a reel, and what they answer.
* `Store.Called`: what calls do to the store.
* `Store.called_call`, `Store.called_calls`: so does one call, and any sequence of them.
* `Store.calls_refine_line`: a reel with the tape of given cells answers as the line of these cells
  does, and its tape is the stretch of the line that has been reached.
-/

namespace SubseqMachines

/-! ## The cells a tape is made of -/

namespace Tape

theorem map_cell_descriptors (t : Tape) : t.descriptors.map (·.cell) = t.cells := by
  simp [descriptors, cells, Function.comp_def]

theorem findIdx_head_descriptors (t : Tape) : t.descriptors.findIdx (·.head) = t.head := by
  have hleft : (t.left.reverse.map (Descriptor.mk · false)).findIdx (·.head) = t.left.length := by
    rw [List.findIdx_eq_length_of_false] <;> simp
  rw [descriptors, List.findIdx_append, hleft, if_neg (by simp), List.findIdx_cons]
  simp [head]

/-- The heads among given cells are that of the cell which stops the search for one, and those after
it. -/
theorem countP_head_eq (ds : List Descriptor) :
    ds.countP (·.head) =
      match ds.dropWhile fun d => !d.head with
      | [] => 0
      | _ :: after => after.countP (·.head) + 1 := by
  have hbefore : (ds.takeWhile fun d => !d.head).countP (·.head) = 0 := by
    rw [List.countP_eq_zero]
    intro d hd
    simpa using List.all_eq_true.mp List.all_takeWhile d hd
  have hfirst := List.head?_dropWhile_not (fun d : Descriptor => !d.head) ds
  have hcount : ds.countP (·.head) = (ds.dropWhile fun d => !d.head).countP (·.head) := by
    conv_lhs => rw [← List.takeWhile_append_dropWhile (p := fun d : Descriptor => !d.head) (l := ds)]
    rw [List.countP_append, hbefore, Nat.zero_add]
  rw [hcount]
  cases hdrop : ds.dropWhile fun d => !d.head with
  | nil => rfl
  | cons d after =>
    rw [hdrop] at hfirst
    have hd : d.head = true := by simpa using hfirst
    exact List.countP_cons_of_pos hd

/-- Cells of which exactly one carries the head make a tape. -/
theorem exists_ofDescriptors {ds : List Descriptor} (h : ds.countP (·.head) = 1) :
    ∃ t, ofDescriptors ds = .ok t := by
  rw [countP_head_eq] at h
  unfold ofDescriptors
  cases hdrop : ds.dropWhile fun d => !d.head with
  | nil =>
    rw [hdrop] at h
    cases h
  | cons d after =>
    rw [hdrop] at h
    have hany : after.any (·.head) = false := by
      rw [List.any_eq_false]
      exact List.countP_eq_zero.mp (Nat.succ.inj h)
    simp only [hany]
    exact ⟨_, rfl⟩

end Tape

/-! ## Making calls -/

/-- What a call answers. -/
inductive Answer where
  | done
  | cell (c : Cell)
  | cells (cs : List Cell)
  | descriptors (ds : List Descriptor)
  | flag (b : Bool)
  | text (s : String)
  | reel (h : Handle Reel)
  deriving DecidableEq, Repr

namespace Store

/-- Make a call on a reel. -/
def call (σ : Store) (h : Handle Reel) : Call → Store × Answer
  | .move d => (σ.operate h (·.move d), .done)
  | .read => ((σ.read h).2, .cell (σ.read h).1)
  | .write c => (σ.operate h (·.write c), .done)
  | .peek => (σ, .cell (σ.tape h).focus)
  | .cells => (σ, .cells (σ.tape h).cells)
  | .descriptors => (σ, .descriptors (σ.tape h).descriptors)
  | .clone => (σ.clone h, .reel σ.reels.next)
  | .isAtHead => (σ, .flag (σ.tape h).isAtHead)
  | .isAtEnd => (σ, .flag (σ.tape h).isAtEnd)
  | .render => (σ, .text (σ.tape h).render)
  | .listing => (σ, .text (σ.tape h).listing)

/-- The store after calls on a reel. -/
def calls (σ : Store) (h : Handle Reel) (cs : List Call) : Store :=
  cs.foldl (fun σ c => (σ.call h c).1) σ

/-- The answers to calls on a reel, in order. -/
def answers (σ : Store) (h : Handle Reel) : List Call → List Answer
  | [] => []
  | c :: cs => (σ.call h c).2 :: answers (σ.call h c).1 h cs

theorem calls_concat (σ : Store) (h : Handle Reel) (cs : List Call) (c : Call) :
    σ.calls h (cs ++ [c]) = ((σ.calls h cs).call h c).1 :=
  List.foldl_concat _ _ _ _

/-- Each call is answered by the reel as the calls before it have left it. -/
theorem getElem?_answers (σ : Store) (h : Handle Reel) (cs : List Call) (i : Nat) :
    (σ.answers h cs)[i]? = cs[i]?.map fun c => ((σ.calls h (cs.take i)).call h c).2 := by
  induction cs generalizing σ i with
  | nil => rfl
  | cons c cs ih =>
    cases i with
    | zero => rfl
    | succ i => exact ih (σ.call h c).1 i

/-! ## What calls do -/

/-- Calls on a reel have been made. The reel is still there, its tape has gone along with them, and
its counter has tallied those that count. -/
structure Called (σ σ' : Store) (h : Handle Reel) (cs : List Call) : Prop where
  kept : h.index < σ'.reels.size
  tape : σ'.tape h = (σ.tape h).calls cs
  counter : σ'.counterOf h = σ.counterOf h
  counters : ∀ k, (σ'.counters.get k).value =
    (σ.counters.get k).value + (if σ.counterOf h = some k then cs.countP Call.counts else 0 : Nat)

section Called

variable {σ : Store} {h : Handle Reel}

theorem called_operate (hh : h.index < σ.reels.size) {c : Call} (hc : c.counts = true)
    {f : Tape → Tape} (hf : f (σ.tape h) = (σ.tape h).call c) :
    Called σ (σ.operate h f) h [c] where
  kept := by
    show h.index < ((σ.count (σ.counterOf h) 1).reels.set h _).size
    rw [Table.size_set, reels_count]
    exact hh
  tape := by
    show (((σ.count (σ.counterOf h) 1).reels.set h _).get h).tape = _
    rw [Table.get_set_self]
    exact hf
  counter := by
    rw [operate, counterOf_setTape, counterOf, reels_count, counterOf]
  counters k := by
    show ((σ.count (σ.counterOf h) 1).counters.get k).value = _
    rw [value_count, List.countP_singleton, hc, if_pos rfl]

/-- A call that does not count leaves the reel and all counters as they are. -/
theorem called_look {σ' : Store} (hh : h.index < σ'.reels.size)
    (hreel : σ'.reels.get h = σ.reels.get h) (hcounters : σ'.counters = σ.counters) {c : Call}
    (hc : c.counts = false) (ht : (σ.tape h).call c = σ.tape h) : Called σ σ' h [c] where
  kept := hh
  tape := by
    rw [tape, hreel]
    exact ht.symm
  counter := by rw [counterOf, hreel, counterOf]
  counters k := by simp [hcounters, hc]

/-- **What one call does.** -/
theorem called_call (hh : h.index < σ.reels.size) (c : Call) : Called σ (σ.call h c).1 h [c] := by
  cases c with
  | move d => exact called_operate (f := (·.move d)) hh rfl rfl
  | read => exact called_operate (f := id) hh rfl rfl
  | write c => exact called_operate (f := (·.write c)) hh rfl rfl
  | clone =>
    -- the clone is entered under another handle
    have hne : h ≠ σ.reels.next := by
      rintro rfl
      exact Nat.lt_irrefl _ hh
    have hreel : (σ.clone h).reels.get h = σ.reels.get h := by
      show (σ.reels.add _).get h = _
      rw [Table.get_add, if_neg hne]
    exact called_look (Nat.lt_succ_of_lt hh) hreel rfl rfl rfl
  | _ => exact called_look hh rfl rfl rfl rfl

theorem Called.concat {σ₁ σ₂ σ₃ : Store} {cs : List Call} {c : Call} (h₁ : Called σ₁ σ₂ h cs)
    (h₂ : Called σ₂ σ₃ h [c]) : Called σ₁ σ₃ h (cs ++ [c]) where
  kept := h₂.kept
  tape := by
    rw [h₂.tape, h₁.tape, Tape.calls_concat]
    rfl
  counter := h₂.counter.trans h₁.counter
  counters k := by
    rw [h₂.counters, h₁.counters, h₁.counter, List.countP_append]
    split <;> push_cast <;> omega

/-- **What a sequence of calls does.** -/
theorem called_calls (hh : h.index < σ.reels.size) (cs : List Call) :
    Called σ (σ.calls h cs) h cs := by
  induction cs using List.reverseRecOn with
  | nil => exact { kept := hh, tape := rfl, counter := rfl, counters := by simp [calls] }
  | append_singleton cs c ih =>
    rw [calls_concat]
    exact ih.concat (called_call ih.kept c)

theorem Called.eq_of_not_counts {σ' : Store} {c : Call} (hcalled : Called σ σ' h [c])
    (hc : c.counts = false) :
    σ'.tape h = σ.tape h ∧ ∀ k, (σ'.counters.get k).value = (σ.counters.get k).value := by
  constructor
  · rw [hcalled.tape, ← Tape.calls_filter_counts, List.filter_cons_of_neg (by simp [hc])]
    rfl
  · intro k
    simp [hcalled.counters, hc]

end Called

/-! ## A reel and a line -/

/-- **A tape refines a line.** Let a reel have the tape of given cells, of which exactly one carries
the head, and let any calls be made on it. Whatever is read is what is then under the head of the
line that holds these cells, and blanks everywhere else. The cells of the tape are those of the line
from the least to the greatest position that was there at the start or has been visited. So there
is always a cell under the head, no cell is ever taken away, and a cell that the tape has grown by
is blank until it is written. The counter of the reel tallies the operations of the head, and all
that only looks at the tape changes neither the tape nor a counter. -/
theorem calls_refine_line {ds : List Descriptor} (hds : ds.countP (·.head) = 1) (σ : Store)
    (counter : Option (Handle Counter)) (cs : List Call) :
    ∃ t, Tape.ofDescriptors ds = .ok t ∧
      let h := σ.reels.next
      let start := σ.addReel t counter
      let now := start.calls h cs
      let tape := now.tape h
      let line := Line.ofCells (ds.map (·.cell)) (ds.findIdx (·.head))
      let reached := { p : Int | 0 ≤ p ∧ p < ds.length } ∪ line.visited cs
      (∀ i : Nat, cs[i]? = some .read ∨ cs[i]? = some .peek →
        (start.answers h cs)[i]? = some (.cell (line.calls (cs.take i)).read)) ∧
      (tape.cells ≠ [] ∧ tape.head < tape.cells.length) ∧
      (∃ lo hi, IsLeast reached lo ∧ IsGreatest reached hi ∧
        (tape.cells.length : Int) = hi + 1 - lo ∧ (tape.head : Int) = (line.calls cs).head - lo ∧
        ∀ i : Nat, i < tape.cells.length →
          tape.cells[i]? = some ((line.calls cs).cell (lo + i))) ∧
      (∀ before, before <+: cs →
        ((start.calls h before).tape h).cells.length ≤ tape.cells.length) ∧
      (∀ p : Int, p < 0 ∨ ds.length ≤ p →
        (∀ before c, before ++ [.write c] <+: cs → (line.calls before).head ≠ p) →
        (line.calls cs).cell p = .blank) ∧
      (∀ k, (now.counters.get k).value =
        (σ.counters.get k).value + (if counter = some k then cs.countP Call.counts else 0 : Nat)) ∧
      ∀ c : Call, c.counts = false → (now.call h c).1.tape h = tape ∧
        ∀ k, ((now.call h c).1.counters.get k).value = (now.counters.get k).value := by
  obtain ⟨t, ht⟩ := Tape.exists_ofDescriptors hds
  refine ⟨t, ht, ?_⟩
  intro h start now tape line reached
  have hlisted := Tape.descriptors_of_ofDescriptors ht
  have hcells : ds.map (·.cell) = t.cells := by rw [← hlisted, Tape.map_cell_descriptors]
  have hhead : ds.findIdx (·.head) = t.head := by rw [← hlisted, Tape.findIdx_head_descriptors]
  have hlen : ds.length = t.cells.length := by rw [← hcells, List.length_map]
  have hlt := t.head_lt_length_cells
  -- the reel is there and has the given tape, which shows a stretch of the line
  have hreel : start.reels.get h = ⟨t, counter⟩ := Table.get_add_next _ _
  have htape : start.tape h = t := congrArg Reel.tape hreel
  have hcounter : start.counterOf h = counter := congrArg Reel.counter hreel
  have hkept : h.index < start.reels.size := Nat.lt_succ_self _
  have hline : line = Line.ofCells t.cells t.head := by rw [← hcells, ← hhead]
  have hon : t.On line := hline ▸ Tape.On.ofCells t
  have hpos : line.head = t.head := by rw [hline]; rfl
  have hcalled (cs : List Call) := called_calls hkept cs
  have hgone (cs : List Call) : (start.calls h cs).tape h = t.calls cs := by
    rw [(hcalled cs).tape, htape]
  -- at the start its ends are the first and the last of the given cells
  have hleast : IsLeast { p : Int | 0 ≤ p ∧ p < ds.length } (t.first line.head) := by
    rw [hlen, hpos]
    exact t.isLeast_first_head
  have hgreatest : IsGreatest { p : Int | 0 ≤ p ∧ p < ds.length } (t.last line.head) := by
    rw [hlen, hpos]
    exact t.isGreatest_last_head
  have hthere : line.head ∈ { p : Int | 0 ≤ p ∧ p < ds.length } := ⟨by omega, by omega⟩
  have hnow : tape = t.calls cs := hgone cs
  refine ⟨?_, ⟨?_, ?_⟩, ?_, ?_, ?_, ?_, ?_⟩
  · intro i hi
    have hread : (t.calls (cs.take i)).focus = (line.calls (cs.take i)).read :=
      (hon.calls _).focus
    rw [getElem?_answers, ← hread, ← hgone]
    rcases hi with hi | hi <;> rw [hi] <;> rfl
  · exact List.ne_nil_of_length_pos (Nat.lt_of_le_of_lt (Nat.zero_le _) tape.head_lt_length_cells)
  · exact tape.head_lt_length_cells
  · rw [hnow]
    refine ⟨_, _, Tape.isLeast_first_calls hleast hthere cs,
      Tape.isGreatest_last_calls hgreatest hthere cs, Tape.length_cells_eq _ _, ?_, ?_⟩
    · rw [Tape.first, Tape.head]
      omega
    · exact fun i hi => (hon.calls cs).getElem?_cells hi
  · intro before hbefore
    rw [hnow, hgone]
    exact t.length_cells_calls_mono hbefore
  · intro p hp hnot
    rw [hlen] at hp
    rw [Line.cell_calls_of_not_written hnot, hline]
    exact Line.cell_ofCells_of_outside hp _
  · intro k
    have hvalue := (hcalled cs).counters k
    rw [hcounter] at hvalue
    exact hvalue
  · exact fun c hc => (called_call (hcalled cs).kept c).eq_of_not_counts hc

/-- The cells `a` and `#`, with the head on the `#`. The head goes beyond both ends, and writes on
the cell in front of the `a`. -/
theorem calls_refine_line_beyond_both_ends :
    let ds : List Descriptor := [⟨.main .a, false⟩, ⟨.hash, true⟩]
    let cs : List Call := [.move .right, .move .left, .cells, .move .left, .move .left,
      .write (.aux .b), .clone, .read]
    let σ := ({} : Store).addCounter 3
    ds.countP (·.head) = 1 ∧ ∃ t, Tape.ofDescriptors ds = .ok t ∧
      let h := σ.reels.next
      let start := σ.addReel t (some ⟨0⟩)
      (start.answers h cs)[7]? = some (.cell (.aux .b)) ∧
        ((start.calls h cs).counters.get ⟨0⟩).value = 9 := by
  intro ds cs σ
  have hds : ds.countP (·.head) = 1 := rfl
  obtain ⟨t, ht, hread, -, -, -, -, hvalue, -⟩ := calls_refine_line hds σ (some ⟨0⟩) cs
  exact ⟨hds, t, ht, hread 7 (.inl rfl), hvalue ⟨0⟩⟩

end Store

end SubseqMachines
