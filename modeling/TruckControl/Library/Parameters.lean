import Mathlib.Data.Nat.Notation
import Mathlib.Data.List.GetD
import Mathlib.Logic.Function.Basic
import Mathlib.Tactic.SplitIfs

/-!
# Commands with parameters

A receiver keeps a command and counts its parameters, and it acts at each of them that is
the mark. A parameter may be the mark by chance, so that it acts too early, with parameters
of the message before. Where a later action makes up for an earlier one of the same command,
all that counts is the mark at the end.
-/

namespace TruckControl.Parameters

/-- The command, how many parameters have come, the parameters, and what is acted on. The
count is modulo `n`. -/
@[ext] structure Receiver (β σ : Type*) where
  cmd : β
  count : ℕ
  params : ℕ → β
  state : σ

variable {β σ : Type*} [DecidableEq β]

namespace Receiver

/-- A command starts the count again. -/
def recvCmd (cmd : β) (r : Receiver β σ) : Receiver β σ := { r with cmd := cmd, count := 0 }

/-- A parameter, with which the receiver acts if it is the mark. -/
def recvParam (n : ℕ) (mark : β) (act : β → (ℕ → β) → σ → σ) (r : Receiver β σ) (b : β) :
    Receiver β σ :=
  let params := Function.update r.params r.count b
  { cmd := r.cmd
    count := (r.count + 1) % n
    params := params
    state := if b = mark then act r.cmd params r.state else r.state }

variable (n : ℕ) (mark : β) (act : β → (ℕ → β) → σ → σ)

@[simp] theorem cmd_foldl_recvParam (r : Receiver β σ) (bs : List β) :
    (bs.foldl (recvParam n mark act) r).cmd = r.cmd := by
  induction bs generalizing r with
  | nil => rfl
  | cons b bs ih => exact ih (r.recvParam n mark act b)

/-- Parameters that have been stored stay, and the next ones are stored behind them. -/
theorem params_foldl_recvParam (r : Receiver β σ) (bs : List β)
    (hlen : r.count + bs.length < n) (i : ℕ) :
    (bs.foldl (recvParam n mark act) r).params i =
      if r.count ≤ i then bs.getD (i - r.count) (r.params i) else r.params i := by
  induction bs generalizing r with
  | nil => simp
  | cons b bs ih =>
      rw [List.length_cons] at hlen
      have hcount : (r.recvParam n mark act b).count = r.count + 1 :=
        Nat.mod_eq_of_lt (by omega)
      rw [List.foldl_cons, ih (r.recvParam n mark act b) (by omega), hcount]
      by_cases hi : i = r.count
      · subst hi
        rw [if_neg (by omega), if_pos (Nat.le_refl _), Nat.sub_self, List.getD_cons_zero]
        exact Function.update_self ..
      · have hother : (r.recvParam n mark act b).params i = r.params i :=
          Function.update_of_ne hi ..
        rw [hother]
        by_cases hle : r.count + 1 ≤ i
        · have hsub : i - r.count = (i - (r.count + 1)) + 1 := by omega
          rw [if_pos hle, if_pos (by omega), hsub, List.getD_cons_succ]
        · rw [if_neg hle, if_neg (by omega)]

/-- An action of a command leaves no trace of earlier ones of the same command. -/
def Overwrites (act : β → (ℕ → β) → σ → σ) : Prop :=
  ∀ cmd params params' s, act cmd params (act cmd params' s) = act cmd params s

/-- Whatever the parameters of a message were, acting again does the whole of it. -/
theorem act_state_foldl {act : β → (ℕ → β) → σ → σ} (hact : Overwrites act)
    (r : Receiver β σ) (bs : List β) (params : ℕ → β) :
    act r.cmd params (bs.foldl (recvParam n mark act) r).state = act r.cmd params r.state := by
  induction bs generalizing r with
  | nil => rfl
  | cons b bs ih =>
      rw [List.foldl_cons]
      have hrest := ih (r.recvParam n mark act b)
      have hcmd : (r.recvParam n mark act b).cmd = r.cmd := rfl
      rw [hcmd] at hrest
      rw [hrest, recvParam]
      split_ifs
      · exact hact ..
      · rfl

/-- A whole message does what its command does with its own parameters. -/
theorem state_message {act : β → (ℕ → β) → σ → σ} (hact : Overwrites act)
    (r : Receiver β σ) (cmd : β) (bs : List β) :
    ((bs ++ [mark]).foldl (recvParam n mark act) (r.recvCmd cmd)).state =
      act cmd ((bs ++ [mark]).foldl (recvParam n mark act) (r.recvCmd cmd)).params r.state := by
  have hlast := act_state_foldl n mark hact (r.recvCmd cmd) bs
  have hcmd := cmd_foldl_recvParam n mark act (r.recvCmd cmd) bs
  rw [List.foldl_append, List.foldl_cons, List.foldl_nil, recvParam, if_pos rfl, hcmd]
  exact hlast _

/-- The parameters it acts with are those of the message. -/
theorem params_message (r : Receiver β σ) (cmd : β) (bs : List β) (hlen : bs.length + 1 < n)
    {i : ℕ} (hi : i < bs.length) :
    ((bs ++ [mark]).foldl (recvParam n mark act) (r.recvCmd cmd)).params i = bs[i] := by
  have hzero : (r.recvCmd cmd).count = 0 := rfl
  have hall := params_foldl_recvParam n mark act (r.recvCmd cmd) (bs ++ [mark])
    (by rwa [hzero, Nat.zero_add, List.length_append]) i
  rw [hall, hzero, if_pos (Nat.zero_le i), Nat.sub_zero, List.getD_append _ _ _ _ hi,
    List.getD_eq_getElem _ _ hi]

end Receiver

end TruckControl.Parameters
