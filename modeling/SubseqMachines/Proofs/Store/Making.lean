import SubseqMachines.Proofs.Machine.Form
import SubseqMachines.Proofs.Store.Fresh

/-!
# Asking for a machine

Whoever asks for a machine either gets it, or is refused and finds everything as it was. Which of
the two depends on the tapes alone.

* `Store.ask`: the answer to one who asks for a machine.
* `Store.ask_of_form`, `Store.ask_of_not_form`: it is granted for tapes of the form that the kind
  asks for, and refused for all others.
* `Store.ask_self`: it is never granted for one reel in both places.
* `Store.ask_iff_form`: all of this, and what is changed.
-/

namespace SubseqMachines.Store

/-- Ask for a machine. The answer is its handle, or why there is none; then the store is the one
from before. -/
def ask (σ : Store) (kind : MachineKind) (main aux : Handle Reel)
    (counter : Option (Handle Counter)) (coin : Option (Handle Coin)) : Reply (Handle Machine) :=
  match σ.make kind main aux counter coin with
  | .error r => { store := σ, result := .error (.refusal r) }
  | .ok made => { store := made, result := .ok σ.machines.next }

section Ask

variable {σ : Store} {kind : MachineKind} {main aux : Handle Reel}

theorem ask_of_make {made : Store} {counter : Option (Handle Counter)}
    {coin : Option (Handle Coin)} (hmake : σ.make kind main aux counter coin = .ok made) :
    σ.ask kind main aux counter coin = { store := made, result := .ok σ.machines.next } := by
  rw [ask, hmake]

theorem ask_of_refusal {r : Refusal} (hr : kind.refusal? ⟨σ.tape main, σ.tape aux⟩ = some r)
    (counter : Option (Handle Counter)) (coin : Option (Handle Coin)) :
    σ.ask kind main aux counter coin = { store := σ, result := .error (.refusal r) } := by
  rw [ask, make_eq_error hr]

/-- For tapes of the form that the kind asks for, a machine is made. -/
theorem ask_of_form (h : kind.Form ⟨σ.tape main, σ.tape aux⟩) (counter : Option (Handle Counter))
    (coin : Option (Handle Coin)) :
    let r := σ.ask kind main aux counter coin
    r.result = .ok σ.machines.next ∧ OnlyMade σ r.store kind main aux counter := by
  obtain ⟨made, hmade⟩ :=
    make_eq_ok ((kind.refusal?_eq_none_iff_form _).mpr h) counter coin
  rw [ask_of_make hmade]
  exact ⟨rfl, onlyMade_of_make hmade⟩

/-- For all other tapes none is, and nothing has happened. -/
theorem ask_of_not_form (h : ¬ kind.Form ⟨σ.tape main, σ.tape aux⟩)
    (counter : Option (Handle Counter)) (coin : Option (Handle Coin)) :
    ∃ why, σ.ask kind main aux counter coin = { store := σ, result := .error (.refusal why) } := by
  rw [← kind.refusal?_eq_none_iff_form] at h
  obtain ⟨why, hwhy⟩ := Option.ne_none_iff_exists'.mp h
  exact ⟨why, ask_of_refusal hwhy counter coin⟩

/-- A reel is not taken in both places. -/
theorem ask_self (σ : Store) (kind : MachineKind) (reel : Handle Reel)
    (counter : Option (Handle Counter)) (coin : Option (Handle Coin)) :
    ∃ why, σ.ask kind reel reel counter coin =
      { store := σ, result := .error (.refusal why) } := by
  apply ask_of_not_form
  rw [← kind.refusal?_eq_none_iff_form]
  exact kind.refusal?_self_ne_none _

end Ask

/-- **A machine is made exactly for tapes of the form that its kind asks for.** Then its counter is
attached to the two reels, and nothing else is done to any reel, counter, coin or machine. For all
other tapes it is refused, and nothing at all is done. So no reel is ever taken in both places, and
a trial is made on the tapes for a text exactly when the text is words over `a` and `b`, none of
them empty, with a `#` between any two. -/
theorem ask_iff_form (σ : Store) (kind : MachineKind) (main aux : Handle Reel)
    (counter : Option (Handle Counter)) (coin : Option (Handle Coin)) :
    let t : Tapes := ⟨σ.tape main, σ.tape aux⟩
    let r := σ.ask kind main aux counter coin
    (r.result = .ok σ.machines.next ↔ kind.Form t) ∧
      (kind.Form t → OnlyMade σ r.store kind main aux counter) ∧
      (¬ kind.Form t → r.store = σ ∧ ∃ why, r.result = .error (.refusal why)) ∧
      (∀ reel, ∃ why, σ.ask kind reel reel counter coin =
        { store := σ, result := .error (.refusal why) }) ∧
      ∀ (text : String) (shared : Option (Handle Counter)),
        (∃ laid, trialTapes text = .ok laid ∧
          let half := σ.addReel laid.main shared
          let ready := half.addReel laid.aux shared
          (ready.ask .trial σ.reels.next half.reels.next counter coin).result =
            .ok ready.machines.next) ↔
        Trial.IsBlocks text := by
  intro t r
  have hgranted : ∀ (σ : Store) (kind : MachineKind) (main aux : Handle Reel),
      (σ.ask kind main aux counter coin).result = .ok σ.machines.next ↔
        kind.Form ⟨σ.tape main, σ.tape aux⟩ := by
    intro σ kind main aux
    constructor
    · intro hresult
      by_contra hform
      obtain ⟨why, hwhy⟩ := ask_of_not_form hform counter coin
      rw [hwhy] at hresult
      cases hresult
    · exact fun hform => (ask_of_form hform counter coin).1
  refine ⟨hgranted σ kind main aux, ?_, ?_, fun reel => ask_self σ kind reel counter coin, ?_⟩
  · exact fun hform => (ask_of_form hform counter coin).2
  · intro hform
    obtain ⟨why, hwhy⟩ := ask_of_not_form hform counter coin
    rw [show r = _ from hwhy]
    exact ⟨rfl, why, rfl⟩
  · intro text shared
    rw [← Trial.takes_text_iff]
    -- the two new reels hold the tapes for the text
    have hlaid : ∀ laid : Tapes,
        let ready := (σ.addReel laid.main shared).addReel laid.aux shared
        ready.tape σ.reels.next = laid.main ∧
          ready.tape (σ.addReel laid.main shared).reels.next = laid.aux := by
      intro laid ready
      simp [ready, tape, addReel, Table.get_add, Table.next]
    refine exists_congr fun laid => and_congr_right fun _ => ?_
    obtain ⟨hmain, haux⟩ := hlaid laid
    simp only
    rw [hgranted, hmain, haux, ← MachineKind.refusal?_eq_none_iff_form]
    rfl

end SubseqMachines.Store
