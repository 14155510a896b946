import TruckControl.Model.Controller
import TruckControl.Model.HostStart
import TruckControl.Model.Odata
import TruckControl.Verification.Relay.Functions

/-!
# One port, one bit

The forty ports sit in 48 bits with a gap behind each card's twentieth. Switching a port
writes its bit in `outportstatus` and in the register of its card, and no other port's.
-/

namespace TruckControl

/-! ## The filled table -/

/-- Assignments to different elements: each keeps its own value. -/
theorem foldl_update_apply {β : Type*} (f : ℕ → β) (keys : List ℕ) (t : ℕ → β) (k : ℕ) :
    (keys.foldl (fun t i => Function.update t i (f i)) t) k = if k ∈ keys then f k else t k := by
  induction keys generalizing t with
  | nil => rfl
  | cons i keys ih =>
      rw [List.foldl_cons, ih]
      by_cases hk : k ∈ keys
      · simp [hk]
      · by_cases hi : k = i
        · subst hi
          simp [hk]
        · simp [hk, hi]

theorem foldl_fillFirstCard (keys : List ℕ) (t : ℕ → RealBank) (k : ℕ) :
    (keys.foldl fillFirstCard t) k = if k ∈ keys then ⟨k, k / 8, k - k / 8 * 8⟩ else t k :=
  foldl_update_apply (fun i => (⟨i, i / 8, i - i / 8 * 8⟩ : RealBank)) keys t k

theorem foldl_fillSecondCard (keys : List ℕ) (t : ℕ → RealBank) (k : ℕ) :
    (keys.foldl fillSecondCard t) k =
      if k ∈ keys then ⟨k, (k + 4) / 8, ((k : ℤ) - ((k + 4) / 8 : ℕ) * 8 + 4).toNat⟩ else t k :=
  foldl_update_apply
    (fun i => (⟨i, (i + 4) / 8, ((i : ℤ) - ((i + 4) / 8 : ℕ) * 8 + 4).toNat⟩ : RealBank)) keys t k

theorem fillRealBanks_apply (t : ℕ → RealBank) {i : ℕ} (hi : i < 40) :
    fillRealBanks t i = realBanks i := by
  rw [fillRealBanks, foldl_fillSecondCard, foldl_fillFirstCard, realBanks]
  simp only [List.mem_range'_1]
  by_cases h : i < 20
  · have hlow : ¬ (20 ≤ i ∧ i < 20 + 20) := by omega
    have hmem : 0 ≤ i ∧ i < 0 + 20 := by omega
    rw [if_neg hlow, if_pos hmem, if_pos h]
  · have hhigh : 20 ≤ i ∧ i < 20 + 20 := by omega
    have hindex : ((i : ℤ) - ((i + 4) / 8 : ℕ) * 8 + 4).toNat = i + 4 - (i + 4) / 8 * 8 := by omega
    rw [if_pos hhigh, if_neg h, hindex]

/-- The last four bits of each card's third bank belong to no port. -/
theorem realBanks_gap : ∀ i < 40, (realBanks i).bank = 2 ∨ (realBanks i).bank = 5 →
    (realBanks i).index < 4 := by decide

/-! ## Registers -/

theorem roc_injective : ∀ bank < 6, ∀ bank' < 6, IoState.roc bank = IoState.roc bank' →
    bank = bank' := by decide

namespace IoState

/-- Each card register holds the byte that `outportstatus` has for its bank. -/
def CardsAgree (s : IoState) : Prop :=
  ∀ bank < 6, s.cardPorts (roc bank) = s.outportstatus bank

theorem cardPorts_changeOutput (s : IoState) {i : ℕ} (hi : i < 40) (v : Bool) {bank : ℕ}
    (hbank : bank < 6) :
    (s.changeOutput i v).cardPorts (roc bank) =
      if bank = (realBanks i).bank then (s.changeOutput i v).outportstatus bank
      else s.cardPorts (roc bank) := by
  rw [changeOutput_eq s hi]
  by_cases h : bank = (realBanks i).bank
  · subst h
    simp
  · have hroc : roc bank ≠ roc (realBanks i).bank := by
      intro heq
      exact h (roc_injective bank hbank _ (realBanks_bank_lt i hi) heq)
    simp [h, Function.update_of_ne hroc]

theorem outportstatus_changeOutput_of_ne (s : IoState) {i : ℕ} (hi : i < 40) (v : Bool) {bank : ℕ}
    (h : bank ≠ (realBanks i).bank) :
    (s.changeOutput i v).outportstatus bank = s.outportstatus bank := by
  rw [changeOutput_eq s hi]
  exact Function.update_of_ne h _ _

/-- Switching a port keeps the cards in agreement. -/
theorem CardsAgree.changeOutput {s : IoState} (h : s.CardsAgree) {i : ℕ} (hi : i < 40) (v : Bool) :
    (s.changeOutput i v).CardsAgree := by
  intro bank hbank
  rw [cardPorts_changeOutput s hi v hbank]
  by_cases hb : bank = (realBanks i).bank
  · rw [if_pos hb]
  · rw [if_neg hb, outportstatus_changeOutput_of_ne s hi v hb]
    exact h bank hbank

/-- What `change_output(i, v)` does to the bits, seen through a table of banks. -/
structure Switched (banks : ℕ → RealBank) (i : ℕ) (v : Bool) (s t : IoState) : Prop where
  status : (t.outportstatus (banks i).bank).getLsbD (banks i).index = v
  card : (t.cardPorts (roc (banks i).bank)).getLsbD (banks i).index = v
  status_other : ∀ j < 40, j ≠ i →
    (t.outportstatus (banks j).bank).getLsbD (banks j).index =
      (s.outportstatus (banks j).bank).getLsbD (banks j).index
  card_register : t.cardPorts (roc (banks i).bank) = t.outportstatus (banks i).bank
  card_elsewhere : ∀ r, r ≠ roc (banks i).bank → t.cardPorts r = s.cardPorts r
  card_other : s.CardsAgree → ∀ j < 40, j ≠ i →
    (t.cardPorts (roc (banks j).bank)).getLsbD (banks j).index =
      (s.cardPorts (roc (banks j).bank)).getLsbD (banks j).index

theorem switched_changeOutput (s : IoState) {i : ℕ} (hi : i < 40) (v : Bool) :
    Switched realBanks i v s (s.changeOutput i v) := by
  have hown : (s.changeOutput i v).cardPorts (roc (realBanks i).bank) =
      (s.changeOutput i v).outportstatus (realBanks i).bank := by
    rw [cardPorts_changeOutput s hi v (realBanks_bank_lt i hi), if_pos rfl]
  have hbit (j : ℕ) (hj : j < 40) :
      ((s.changeOutput i v).outportstatus (realBanks j).bank).getLsbD (realBanks j).index =
        if j = i then v else
          (s.outportstatus (realBanks j).bank).getLsbD (realBanks j).index :=
    hwBit_changeOutput s hi hj v
  have hother (j : ℕ) (hj : j < 40) (hne : j ≠ i) := (hbit j hj).trans (if_neg hne)
  refine ⟨?_, ?_, hother, hown, ?_, ?_⟩
  · rw [hbit i hi, if_pos rfl]
  · rw [hown, hbit i hi, if_pos rfl]
  · intro r hr
    rw [changeOutput_eq s hi]
    exact Function.update_of_ne hr _ _
  · intro hagree j hj hne
    have hj' := realBanks_bank_lt j hj
    rw [hagree.changeOutput hi v _ hj', hagree _ hj']
    exact hother j hj hne

/-- Each of the forty ports has a bit of its own, and `change_output` writes that bit only. -/
theorem changeOutput_onePort (table : ℕ → RealBank) (s : IoState) {i : ℕ} (hi : i < 40)
    (v : Bool) :
    (∀ j < 40, fillRealBanks table j = realBanks j) ∧
      Switched (fillRealBanks table) i v s (s.changeOutput i v) ∧
      (∀ j < 40, ∀ k < 40, (fillRealBanks table j).bank = (fillRealBanks table k).bank →
        (fillRealBanks table j).index = (fillRealBanks table k).index → j = k) ∧
      ∀ j < 40, (fillRealBanks table j).bank < 6 ∧ (fillRealBanks table j).index < 8 ∧
        ((fillRealBanks table j).bank = 2 ∨ (fillRealBanks table j).bank = 5 →
          (fillRealBanks table j).index < 4) := by
  have htable (j : ℕ) (hj : j < 40) : fillRealBanks table j = realBanks j :=
    fillRealBanks_apply table hj
  refine ⟨htable, ?_, ?_, ?_⟩
  · have h := switched_changeOutput s hi v
    refine ⟨?_, ?_, ?_, ?_, ?_, ?_⟩
    · rw [htable i hi]
      exact h.status
    · rw [htable i hi]
      exact h.card
    · intro j hj hne
      rw [htable j hj]
      exact h.status_other j hj hne
    · rw [htable i hi]
      exact h.card_register
    · intro r hr
      rw [htable i hi] at hr
      exact h.card_elsewhere r hr
    · intro hagree j hj hne
      rw [htable j hj]
      exact h.card_other hagree j hj hne
  · intro j hj k hk hbank hindex
    rw [htable j hj, htable k hk] at hbank hindex
    exact realBanks_injective j hj k hk hbank hindex
  · intro j hj
    rw [htable j hj]
    exact ⟨realBanks_bank_lt j hj, realBanks_index_lt j hj, realBanks_gap j hj⟩

/-- Port 20, the first of the second card, switched on at the start; the table held something
else before it was filled. -/
theorem changeOutput_onePort_twenty :
    Switched (fillRealBanks fun i => ⟨i + 7, 9, 200⟩) 20 true
      (Controller.boot odata (fun _ => 0) 0).io
      ((Controller.boot odata (fun _ => 0) 0).io.changeOutput 20 true) :=
  (changeOutput_onePort (fun i => ⟨i + 7, 9, 200⟩) (Controller.boot odata (fun _ => 0) 0).io
    (by decide) true).2.1

end IoState

end TruckControl
