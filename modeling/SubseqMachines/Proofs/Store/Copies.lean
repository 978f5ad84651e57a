import SubseqMachines.Proofs.Store.Calls

/-!
# Tapes that are listed and copied

A tape can be made of the cells that it lists, and what comes of it is the same tape. A clone of a
reel begins with the tape of the original and counts where the original counts. From then on neither
has a part in what happens to the other, in whatever order the two are used, and as long as both stay
on their common counter it tallies the operations on both.

* `Tape.ofDescriptors_of_no_head`, `Tape.ofDescriptors_of_heads`: cells that make no tape.
* `Store.performEach`: calls on several reels, whose counters can be exchanged in between.
* `Store.performed_perform`: what one deed does.
* `Store.tape_performEach`: each reel goes the way of its own calls.
* `Store.value_performEach`: a common counter tallies the operations on all reels.
* `Store.get_reels_clone`: a reel and its clone.
* `Store.listed_and_copied`: making and listing are inverse, and clones are independent.
-/

namespace SubseqMachines

/-! ## Cells that make no tape -/

namespace Tape

variable {ds : List Descriptor}

/-- Without a head there is no cell at which the search stops. -/
theorem ofDescriptors_of_no_head (h : ds.countP (·.head) = 0) :
    ofDescriptors ds = .error (.refusal .noHead) := by
  rw [countP_head_eq] at h
  unfold ofDescriptors
  cases hdrop : ds.dropWhile fun d => !d.head with
  | nil => rfl
  | cons d after =>
    rw [hdrop] at h
    cases h

/-- With two heads or more there is another one after the cell at which the search stops. -/
theorem ofDescriptors_of_heads (h : 2 ≤ ds.countP (·.head)) :
    ofDescriptors ds = .error (.refusal .manyHeads) := by
  rw [countP_head_eq] at h
  unfold ofDescriptors
  cases hdrop : ds.dropWhile fun d => !d.head with
  | nil =>
    rw [hdrop] at h
    cases h
  | cons d after =>
    rw [hdrop] at h
    obtain ⟨e, he, hhead⟩ := List.countP_pos_iff.mp (Nat.le_of_succ_le_succ h)
    have hany : after.any (·.head) = true := List.any_eq_true.mpr ⟨e, he, hhead⟩
    simp only [hany, if_true]

end Tape

/-! ## Deeds on several reels -/

/-- What can be done to a reel: it is called, or its counter is exchanged. -/
inductive Deed where
  | call (c : Call)
  | attach (counter : Option (Handle Counter))
  deriving DecidableEq, Repr

namespace Deed

/-- The call, if it is one. -/
def call? : Deed → Option Call
  | call c => some c
  | attach _ => none

/-- Whether it is an operation of the head. -/
def counts : Deed → Bool
  | call c => c.counts
  | attach _ => false

/-- A reel that counts on the given counter still does so after it. -/
def Keeps (d : Deed) (counter : Option (Handle Counter)) : Prop :=
  ∀ other, d = attach other → other = counter

end Deed

namespace Store

/-- The store after a deed on a reel. -/
def perform (σ : Store) (h : Handle Reel) : Deed → Store
  | .call c => (σ.call h c).1
  | .attach counter => σ.attach h counter

/-- The store after deeds on reels, in the given order. -/
def performEach (σ : Store) (deeds : List (Handle Reel × Deed)) : Store :=
  deeds.foldl (fun σ d => σ.perform d.1 d.2) σ

/-- The calls on one reel, in their order. -/
def callsOn (x : Handle Reel) (deeds : List (Handle Reel × Deed)) : List Call :=
  (deeds.filter fun d => d.1 = x).flatMap (·.2.call?.toList)

theorem callsOn_cons_self (x : Handle Reel) (d : Deed) (deeds : List (Handle Reel × Deed)) :
    callsOn x ((x, d) :: deeds) = d.call?.toList ++ callsOn x deeds := by
  simp [callsOn]

theorem callsOn_cons_of_ne {x h : Handle Reel} (hne : h ≠ x) (d : Deed)
    (deeds : List (Handle Reel × Deed)) : callsOn x ((h, d) :: deeds) = callsOn x deeds := by
  simp [callsOn, hne]

/-- What is done to other reels can be left out. -/
theorem callsOn_filter (x : Handle Reel) (deeds : List (Handle Reel × Deed)) :
    callsOn x (deeds.filter fun d => d.1 = x) = callsOn x deeds := by
  simp [callsOn]

/-- A deed has been done to a reel. The tape has gone along with it if it is a call, and the counter
has tallied it if it counts. All other reels are as they were. -/
structure Performed (σ σ' : Store) (h : Handle Reel) (d : Deed) : Prop where
  size : σ.reels.size ≤ σ'.reels.size
  others : ∀ x : Handle Reel, x.index < σ.reels.size → x ≠ h → σ'.reels.get x = σ.reels.get x
  tape : σ'.tape h = (σ.tape h).calls d.call?.toList
  counter : d.Keeps (σ.counterOf h) → σ'.counterOf h = σ.counterOf h
  counters : ∀ k, (σ'.counters.get k).value = (σ.counters.get k).value +
    (if σ.counterOf h = some k then if d.counts then 1 else 0 else 0 : Nat)

section Perform

variable {σ : Store} {h x : Handle Reel} {deeds : List (Handle Reel × Deed)}

theorem size_reels_call_le (σ : Store) (h : Handle Reel) (c : Call) :
    σ.reels.size ≤ (σ.call h c).1.reels.size := by
  have hoperate : ∀ f : Tape → Tape, (σ.operate h f).reels.size = σ.reels.size := fun f => by
    rw [operate, setTape, Table.size_set, reels_count]
  cases c with
  | move d => exact Nat.le_of_eq (hoperate _).symm
  | read => exact Nat.le_of_eq (hoperate _).symm
  | write c => exact Nat.le_of_eq (hoperate _).symm
  | clone => exact Nat.le_succ _
  | _ => exact Nat.le_refl _

/-- A call on one reel leaves all others as they are. -/
theorem get_reels_call_of_ne (hx : x.index < σ.reels.size) (hne : x ≠ h) (c : Call) :
    (σ.call h c).1.reels.get x = σ.reels.get x := by
  have hoperate : ∀ f : Tape → Tape, (σ.operate h f).reels.get x = σ.reels.get x := fun f => by
    rw [operate, setTape, Table.get_set_of_ne _ _ hne, reels_count]
  cases c with
  | move d => exact hoperate _
  | read => exact hoperate _
  | write c => exact hoperate _
  | clone =>
    -- the clone is entered under a handle that was not given out before
    have hnext : x ≠ σ.reels.next := by
      rintro rfl
      exact Nat.lt_irrefl _ hx
    exact (Table.get_add _ _ _).trans (if_neg hnext)
  | _ => rfl

/-- **What one deed does.** -/
theorem performed_perform (hh : h.index < σ.reels.size) (d : Deed) :
    Performed σ (σ.perform h d) h d := by
  cases d with
  | call c =>
    have hcalled := called_call hh c
    exact
      { size := size_reels_call_le σ h c
        others := fun x hx hne => get_reels_call_of_ne hx hne c
        tape := hcalled.tape
        counter := fun _ => hcalled.counter
        counters := fun k => by
          rw [perform, hcalled.counters, List.countP_singleton]
          rfl }
  | attach counter =>
    have hreel : (σ.attach h counter).reels.get h = { σ.reels.get h with counter } :=
      Table.get_set_self _ _ _
    exact
      { size := Nat.le_refl _
        others := fun x _ hne => Table.get_set_of_ne _ _ hne
        tape := by
          rw [perform, tape, hreel]
          rfl
        counter := fun hkeeps => (congrArg Reel.counter hreel).trans (hkeeps counter rfl)
        counters := fun k => by simp [perform, attach, Deed.counts] }

/-- **Each reel goes the way of its own calls**, whatever is done to other ones in between. -/
theorem tape_performEach (hdeeds : ∀ d ∈ deeds, d.1.index < σ.reels.size)
    (hx : x.index < σ.reels.size) :
    (σ.performEach deeds).tape x = (σ.tape x).calls (callsOn x deeds) := by
  induction deeds generalizing σ with
  | nil => rfl
  | cons d deeds ih =>
    obtain ⟨h, d⟩ := d
    obtain ⟨hh, hdeeds⟩ := List.forall_mem_cons.mp hdeeds
    have hperformed := performed_perform hh d
    have hrest := ih (fun e he => Nat.lt_of_lt_of_le (hdeeds e he) hperformed.size)
      (Nat.lt_of_lt_of_le hx hperformed.size)
    refine hrest.trans ?_
    by_cases hxh : h = x
    · subst hxh
      rw [hperformed.tape, callsOn_cons_self, Tape.calls, Tape.calls, Tape.calls,
        List.foldl_append]
    · rw [callsOn_cons_of_ne hxh, tape, hperformed.others x hx (Ne.symm hxh), tape]

/-- **A common counter tallies the operations on all reels** that stay on it, and no other counter
tallies any of them. -/
theorem value_performEach (own : Handle Reel → Prop) {counter : Option (Handle Counter)}
    (hown : ∀ x, own x → x.index < σ.reels.size ∧ σ.counterOf x = counter)
    (hdeeds : ∀ d ∈ deeds, own d.1 ∧ d.2.Keeps counter) (c : Handle Counter) :
    ((σ.performEach deeds).counters.get c).value = (σ.counters.get c).value +
      (if counter = some c then deeds.countP (·.2.counts) else 0 : Nat) := by
  induction deeds generalizing σ with
  | nil => simp [performEach]
  | cons d deeds ih =>
    obtain ⟨h, d⟩ := d
    obtain ⟨⟨hh, hkeeps⟩, hdeeds⟩ := List.forall_mem_cons.mp hdeeds
    obtain ⟨hindex, hcounter⟩ := hown h hh
    have hperformed := performed_perform hindex d
    -- all reels stay on the common counter
    have hstay (x : Handle Reel) (hx : own x) : (σ.perform h d).counterOf x = counter := by
      by_cases hxh : x = h
      · subst hxh
        exact (hperformed.counter (hcounter ▸ hkeeps)).trans hcounter
      · rw [counterOf, hperformed.others x (hown x hx).1 hxh]
        exact (hown x hx).2
    have hrest := ih (fun x hx => ⟨Nat.lt_of_lt_of_le (hown x hx).1 hperformed.size, hstay x hx⟩)
      hdeeds
    refine hrest.trans ?_
    rw [hperformed.counters, hcounter, List.countP_cons]
    split
    · push_cast
      omega
    · simp

end Perform

/-! ## A reel and its clone -/

section Clone

variable {σ : Store} {h x : Handle Reel}

/-- **A clone is a reel of its own**, with the tape and the counter of the original, which keeps
both. -/
theorem get_reels_clone (hh : h.index < σ.reels.size) (hx : x = h ∨ x = σ.reels.next) :
    (σ.clone h).reels.get x = σ.reels.get h := by
  rcases hx with rfl | rfl
  · have hne : x ≠ σ.reels.next := fun heq => Nat.ne_of_lt hh (congrArg Handle.index heq)
    exact (Table.get_add _ _ _).trans (if_neg hne)
  · exact Table.get_add_next _ _

theorem lt_size_reels_clone (hh : h.index < σ.reels.size) (hx : x = h ∨ x = σ.reels.next) :
    x.index < (σ.clone h).reels.size := by
  rcases hx with rfl | rfl
  · exact Nat.lt_succ_of_lt hh
  · exact Nat.lt_succ_self _

end Clone

/-- **Making and listing are inverse, and clones are independent.** Cells make a tape exactly when one
of them carries the head, and the tape lists these cells; with no head or with several there is a
refusal. A tape made of the cells that a reel lists is the tape of the reel, whatever has been done
to it. A clone of the reel has the same tape, and whatever is then done to the two, in any order,
each has the tape that it would have if nothing were done to the other one. As long as both stay on
their common counter, it tallies the operations on both. -/
theorem listed_and_copied :
    (∀ ds : List Descriptor,
      ((∃ t, Tape.ofDescriptors ds = .ok t) ↔ ds.countP (·.head) = 1) ∧
      (ds.countP (·.head) = 0 → ∃ r : Refusal, Tape.ofDescriptors ds = .error (.refusal r) ∧
        r.message = "Tape must have a head") ∧
      (2 ≤ ds.countP (·.head) → ∃ r : Refusal, Tape.ofDescriptors ds = .error (.refusal r) ∧
        r.message = "Tape can only have one head") ∧
      ∀ t, Tape.ofDescriptors ds = .ok t → t.descriptors = ds) ∧
    ∀ (σ : Store) (h : Handle Reel), h.index < σ.reels.size →
      let k := σ.reels.next
      let copied := σ.clone h
      (∀ c, ∃ t, Tape.ofDescriptors (σ.tape h).descriptors = .ok t ∧
        (σ.addReel t c).tape k = σ.tape h) ∧
      copied.tape h = σ.tape h ∧ copied.tape k = σ.tape h ∧
      ∀ deeds : List (Handle Reel × Deed), (∀ d ∈ deeds, d.1 = h ∨ d.1 = k) →
        let now := copied.performEach deeds
        let alone (x : Handle Reel) := copied.performEach (deeds.filter fun d => d.1 = x)
        now.tape h = (alone h).tape h ∧ now.tape k = (alone k).tape k ∧
        ((∀ d ∈ deeds, d.2.Keeps (σ.counterOf h)) →
          ∀ c, (now.counters.get c).value = (σ.counters.get c).value +
            (if σ.counterOf h = some c then deeds.countP (·.2.counts) else 0 : Nat)) := by
  refine ⟨fun ds => ⟨⟨?_, Tape.exists_ofDescriptors⟩, ?_, ?_, fun t =>
    Tape.descriptors_of_ofDescriptors⟩, ?_⟩
  · rintro ⟨t, ht⟩
    by_contra hcount
    rcases Nat.lt_or_gt_of_ne hcount with hfew | hmany
    · rw [Tape.ofDescriptors_of_no_head (by omega)] at ht
      cases ht
    · rw [Tape.ofDescriptors_of_heads hmany] at ht
      cases ht
  · exact fun h => ⟨.noHead, Tape.ofDescriptors_of_no_head h, rfl⟩
  · exact fun h => ⟨.manyHeads, Tape.ofDescriptors_of_heads h, rfl⟩
  intro σ h hh k copied
  have hkept (x : Handle Reel) (hx : x = h ∨ x = k) : copied.reels.get x = σ.reels.get h :=
    get_reels_clone hh hx
  have hagain (t : Tape) (c : Option (Handle Counter)) : (σ.addReel t c).tape k = t :=
    congrArg Reel.tape (Table.get_add_next _ _)
  refine ⟨fun c => ⟨_, Tape.ofDescriptors_descriptors _, hagain _ c⟩,
    congrArg Reel.tape (hkept h (.inl rfl)), congrArg Reel.tape (hkept k (.inr rfl)), ?_⟩
  intro deeds hdeeds now alone
  have hthere (x : Handle Reel) (hx : x = h ∨ x = k) : x.index < copied.reels.size :=
    lt_size_reels_clone hh hx
  -- each of the two goes the way of its own calls, and so it would if there were no others
  have halone (x : Handle Reel) (hx : x = h ∨ x = k) : now.tape x = (alone x).tape x := by
    rw [tape_performEach (fun d hd => hthere d.1 (hdeeds d hd)) (hthere x hx),
      tape_performEach (fun d hd => hthere d.1 (hdeeds d (List.mem_of_mem_filter hd))) (hthere x hx),
      callsOn_filter]
  refine ⟨halone h (.inl rfl), halone k (.inr rfl), ?_⟩
  intro hkeeps c
  exact value_performEach (fun x => x = h ∨ x = k)
    (fun x hx => ⟨hthere x hx, congrArg Reel.counter (hkept x hx)⟩)
    (fun d hd => ⟨hdeeds d hd, hkeeps d hd⟩) c

/-- A tape that has grown on the left, and its clone. The original grows on the right while the clone
is written, and is attached once more to the counter that it has. -/
theorem listed_and_copied_grown :
    let ds : List Descriptor := [⟨.main .a, false⟩, ⟨.hash, true⟩]
    ∃ t, Tape.ofDescriptors ds = .ok t ∧ t.descriptors = ds ∧
      let start := (({} : Store).addCounter 3).addReel t (some ⟨0⟩)
      let h : Handle Reel := ⟨0⟩
      let k : Handle Reel := ⟨1⟩
      let σ := start.performEach [(h, .call (.move .left)), (h, .call (.move .left))]
      let deeds : List (Handle Reel × Deed) := [(k, .call (.write .hash)), (h, .call (.move .right)),
        (k, .call .read), (h, .attach (some ⟨0⟩)), (h, .call (.move .right)), (h, .call .peek)]
      let now := (σ.clone h).performEach deeds
      now.tape h = ((σ.clone h).performEach [(h, .call (.move .right)), (h, .attach (some ⟨0⟩)),
        (h, .call (.move .right)), (h, .call .peek)]).tape h ∧
      (now.counters.get ⟨0⟩).value = (σ.counters.get ⟨0⟩).value + 4 := by
  intro ds
  obtain ⟨hmade, hcopied⟩ := listed_and_copied
  obtain ⟨hmakes, -, -, hlists⟩ := hmade ds
  obtain ⟨t, ht⟩ := hmakes.mpr (by decide)
  refine ⟨t, ht, hlists t ht, ?_⟩
  intro start h k σ deeds now
  obtain ⟨-, -, -, hdeeds⟩ := hcopied σ h Nat.one_pos
  have hown : ∀ d ∈ deeds, d.1 = h ∨ d.1 = k := by simp [deeds]
  have hkeeps : ∀ d ∈ deeds, d.2.Keeps (some ⟨0⟩) := by simp [deeds, Deed.Keeps]
  obtain ⟨hh, -, hvalue⟩ := hdeeds deeds hown
  exact ⟨hh, hvalue hkeeps ⟨0⟩⟩

end Store

end SubseqMachines
