import TruckControl.Model.HostTask

/-!
# The buffers of `get_host_cmd_task`

A client decides about all three indexes: by what it announces, by what it sends, and, as `j`
goes on from one message to the next, by what it has sent before.
-/

namespace TruckControl.HostTask

variable {s : HostTask} {junk : ℕ → UCHAR} {msgLen : ℕ}

/-! ## One message -/

/-- The message is no longer than `msg_buf`, its text fits into `msg_buf2` behind the place
that the messages before it have left, and its command is one of the table. -/
def Fits (s : HostTask) (junk : ℕ → UCHAR) : Prop :=
  s.taking = true → ∀ msgLen ∈ getMsg (s.preamble junk),
    (s.body msgLen).length ≤ uploadBuffSize ∧
      (turns msgLen = 0 ∨ 0 ≤ s.j ∧ s.j + turns msgLen ≤ (uploadBuffSize / 2 : ℕ)) ∧
      ((s.body msgLen).headD 0).toNat < cmdArraySize

instance (s : HostTask) (junk : ℕ → UCHAR) : Decidable (s.Fits junk) :=
  inferInstanceAs (Decidable (s.taking = true → ∀ msgLen ∈ getMsg (s.preamble junk), _))

/-- `msg_buf` has been cleared, so what is not received is `NON_CMD`. -/
theorem cmd_receive (h : getMsg (s.preamble junk) = some msgLen) :
    (s.receive junk).2 = (s.body msgLen).headD 0 := by
  rw [receive, h]
  change ShortReads.afterRead s.cleared (s.body msgLen) 0 = _
  cases s.body msgLen with
  | nil => rfl
  | cons b bs => rfl

theorem forall_msgBuf_iff (n : ℕ) :
    (∀ a ∈ (List.range n).map HostAccess.msgBuf, a.InRange) ↔ n ≤ uploadBuffSize := by
  rw [List.forall_mem_map]
  constructor
  · intro h
    cases n with
    | zero => exact Nat.zero_le _
    | succ n => exact h n (List.mem_range.mpr (Nat.lt_succ_self n))
  · intro h i hi
    exact Nat.lt_of_lt_of_le (List.mem_range.mp hi) h

theorem forall_msgBuf2_iff (j : ℤ) (n : ℕ) :
    (∀ a ∈ (List.range n).map fun k : ℕ => HostAccess.msgBuf2 (j + k), a.InRange) ↔
      n = 0 ∨ 0 ≤ j ∧ j + n ≤ (uploadBuffSize / 2 : ℕ) := by
  rw [List.forall_mem_map]
  constructor
  · intro h
    cases n with
    | zero => exact .inl rfl
    | succ n =>
        have hfirst := (h 0 (List.mem_range.mpr (Nat.succ_pos n))).1
        have hlast := (h n (List.mem_range.mpr (Nat.lt_succ_self n))).2
        right
        omega
  · intro h k hk
    have hlt := List.mem_range.mp hk
    change 0 ≤ j + k ∧ j + k < (uploadBuffSize / 2 : ℕ)
    omega

theorem forall_cmdArray_iff (cmd : UCHAR) :
    (∀ a ∈ if cmd > 0 then [HostAccess.cmdArray cmd.toNat] else [], a.InRange) ↔
      cmd.toNat < cmdArraySize := by
  split_ifs with hpos
  · simp [HostAccess.InRange]
  · have hzero : cmd = 0 := by
      rw [gt_iff_lt, BitVec.lt_def] at hpos
      apply BitVec.eq_of_toNat_eq
      simpa using hpos
    simp [hzero, cmdArraySize]

/-- A turn of the loop stays inside the arrays exactly if its message fits. -/
theorem forall_accesses_iff (s : HostTask) (junk : ℕ → UCHAR) :
    (∀ a ∈ s.accesses junk, a.InRange) ↔ s.Fits junk := by
  rw [accesses, Fits]
  split_ifs with htaking
  · cases hget : getMsg (s.preamble junk) with
    | none =>
        have hbad : (s.receive junk).2 = CmdType.badMsg.toByte := by rw [receive, hget]
        rw [hbad]
        simp only [List.nil_append, htaking, forall_const, Option.mem_def, reduceCtorEq,
          false_implies, iff_true]
        decide
    | some msgLen =>
        simp only [htaking, forall_const, Option.mem_def, Option.some.injEq, forall_eq']
        rw [List.forall_mem_append, List.forall_mem_append, forall_msgBuf_iff,
          forall_msgBuf2_iff, forall_cmdArray_iff, cmd_receive hget, and_assoc]
  · simp [htaking]

/-! ## Every run -/

/-- Whatever the client sends, the task stays inside its arrays exactly as long as every
message fits. -/
theorem accesses_inRange_iff (s : HostTask) (junks : List (ℕ → UCHAR)) :
    (∀ a ∈ Transition.reports step accesses s junks, a.InRange) ↔
      Transition.Meets step Fits s junks := by
  rw [Transition.forall_mem_reports_iff]
  simp only [forall_accesses_iff]

/-- A message of more than 10000 bytes, whose command is not in the table. -/
def longMessage : List UCHAR :=
  prePreamble ++ [0x11, 0x27, 0, 0, 0, 0, 0, 0] ++ List.replicate 10001 200

/-- It goes past the end of each of the three arrays, even if `j` is 0 at first. -/
theorem accesses_longMessage :
    let accessed := (start 0 longMessage).accesses fun _ => 0
    (.msgBuf 10000 ∈ accessed ∧ .msgBuf2 5000 ∈ accessed ∧ .cmdArray 200 ∈ accessed) ∧
      ¬ (HostAccess.msgBuf 10000).InRange ∧ ¬ (HostAccess.msgBuf2 5000).InRange ∧
      ¬ (HostAccess.cmdArray 200).InRange := by
  intro accessed
  refine ⟨?_, by decide, by decide, by decide⟩
  have htake : longMessage.take 16 = prePreamble ++ [0x11, 0x27, 0, 0, 0, 0, 0, 0] :=
    List.take_left' rfl
  have hdrop : longMessage.drop 16 = List.replicate 10001 200 := List.drop_left' rfl
  have hbody : (start 0 longMessage).body 10001 = List.replicate 10001 200 := by
    change (longMessage.drop 16).take 10001 = _
    rw [hdrop, List.take_replicate, Nat.min_self]
  have hget : getMsg ((start 0 longMessage).preamble fun _ => 0) = some 10001 := by
    change getMsg ((List.range 16).map (ShortReads.afterRead _ (longMessage.take 16))) = _
    rw [htake]
    decide
  have hcmd : ((start 0 longMessage).receive fun _ => 0).2 = 200 := by
    rw [cmd_receive hget, hbody]
    rfl
  have haccessed : accessed = ((List.range 10001).map HostAccess.msgBuf ++
      (List.range 5001).map fun k : ℕ => HostAccess.msgBuf2 ((0 : ℤ) + k)) ++
        [.cmdArray 200] := by
    change accesses _ _ = _
    rw [accesses, hget, hcmd]
    dsimp only
    rw [hbody, List.length_replicate]
    rfl
  rw [haccessed]
  refine ⟨by simp, ?_, by simp⟩
  have hmem : (5000 : ℕ) ∈ List.range 5001 := List.mem_range.mpr (by decide)
  have hlast := List.mem_map_of_mem (f := fun k : ℕ => HostAccess.msgBuf2 ((0 : ℤ) + k)) hmem
  exact List.mem_append_left _ (List.mem_append_right _ hlast)

end TruckControl.HostTask
