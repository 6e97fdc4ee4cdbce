import Mathlib

/-!
# Ledgers

A ledger is a list of entries, newest first; each entry adds to or takes from
the balance of a key.  A ledger is *covered* if no balance was ever negative: no
more was given back than had been taken.
-/

namespace Stm32F1

variable {Entry Key : Type} {effect : Entry → Key → Int}

/-- The balance of a key. -/
def balance (effect : Entry → Key → Int) : List Entry → Key → Int
  | [], _ => 0
  | entry :: ledger, key => effect entry key + balance effect ledger key

/-- No balance was ever negative. -/
def Covered (effect : Entry → Key → Int) (ledger : List Entry) : Prop :=
  ∀ past, past <:+ ledger → ∀ key, 0 ≤ balance effect past key

variable {entry : Entry} {ledger : List Entry} {key : Key}

@[simp] theorem balance_nil : balance effect [] key = 0 := rfl

@[simp] theorem balance_cons :
    balance effect (entry :: ledger) key = effect entry key + balance effect ledger key := rfl

/-- Nothing is owed at the beginning. -/
theorem covered_nil : Covered effect [] := by
  intro past h key
  rw [List.suffix_nil.1 h]
  exact le_rfl

/-- One more entry is covered if the balances are, and it was before. -/
theorem covered_cons : Covered effect (entry :: ledger) ↔
    (∀ key, 0 ≤ balance effect (entry :: ledger) key) ∧ Covered effect ledger := by
  constructor
  · intro h
    refine ⟨h _ (List.suffix_refl _), ?_⟩
    intro past hpast
    exact h past (hpast.trans (List.suffix_cons entry ledger))
  · rintro ⟨hnow, h⟩ past hpast
    rcases List.suffix_cons_iff.1 hpast with rfl | hpast
    · exact hnow
    · exact h past hpast

/-- No balance is negative. -/
theorem Covered.now (h : Covered effect ledger) (key : Key) : 0 ≤ balance effect ledger key :=
  h ledger (List.suffix_refl _) key

/-- An entry that takes nothing is always covered. -/
theorem Covered.cons (h : Covered effect ledger) (hentry : ∀ key, 0 ≤ effect entry key) :
    Covered effect (entry :: ledger) := by
  refine covered_cons.2 ⟨?_, h⟩
  intro key
  exact Int.add_nonneg (hentry key) (h.now key)

end Stm32F1
