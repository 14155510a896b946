import TruckControl.Verification.Relay.Refinement

/-!
# Requested inputs

A command that is to look like a switch asks for an input in `fake_inportstatus2`; the
poll sees it there and notes what it has seen in `fake_inportstatus1`. An input whose
two bits differ is pending.
-/

namespace TruckControl

open InputType OutputType

/-! ## Decoding a changed bank -/

namespace IoState

variable {result status : UCHAR}

theorem decodeChange_eq_none_iff (bank : ℕ) (hmask : ¬ (result ^^^ status) > 0x80#8) :
    decodeChange bank result status = none ↔ result = status := by
  by_cases heq : result = status
  · simp [decodeChange, heq]
  · simp [decodeChange, heq, hmask]

/-- The edge of a changed bank is that of its highest changed bit, and is ON when every
changed bit is. -/
theorem decodeChange_eq_some_iff (bank : ℕ) (hmask : ¬ (result ^^^ status) > 0x80#8)
    {k : ℕ} {onoff : Bool} :
    decodeChange bank result status = some (k, onoff) ↔
      ∃ i < 8, k = realIndex bank i ∧ result.getLsbD i ≠ status.getLsbD i ∧
        (∀ j < 8, i < j → result.getLsbD j = status.getLsbD j) ∧
        (onoff = true ↔ ∀ j < 8, result.getLsbD j ≠ status.getLsbD j →
          result.getLsbD j = true) := by
  by_cases heq : result = status
  · simp [decodeChange, heq]
  · have hne : result ^^^ status ≠ 0 := fun h0 => heq (BitVec.xor_eq_zero_iff.mp h0)
    have hfalse (j : ℕ) : (result ^^^ status).getLsbD j = false ↔
        result.getLsbD j = status.getLsbD j := by
      rw [← Bool.not_eq_true, Byte.getLsbD_xor_iff, ne_eq, not_not]
    simp only [decodeChange, if_neg heq, if_neg hmask, Option.some.injEq, Prod.mk.injEq]
    constructor
    · intro hd
      obtain ⟨hk, honoff⟩ := hd
      refine ⟨mask2int (result ^^^ status), Byte.highestBit_lt _, hk.symm, ?_, ?_, ?_⟩
      · exact (Byte.getLsbD_xor_iff _ _ _).mp (Byte.getLsbD_highestBit _ hne)
      · intro j hj hlt
        exact (hfalse j).mp (Byte.getLsbD_of_highestBit_lt _ j hj hlt)
      · rw [← honoff, decide_eq_true_iff, Byte.xor_and_eq_iff]
    · intro hd
      obtain ⟨i, hi, hk, hbit, habove, honoff⟩ := hd
      have hhigh : mask2int (result ^^^ status) = i := by
        apply (Byte.highestBit_eq_iff hne).mpr
        refine ⟨(Byte.getLsbD_xor_iff _ _ _).mpr hbit, ?_⟩
        intro j hj hlt
        exact (hfalse j).mpr (habove j hj hlt)
      refine ⟨by rw [hhigh, hk], ?_⟩
      rw [Bool.eq_iff_iff, decide_eq_true_iff, Byte.xor_and_eq_iff, honoff]

/-! ## The two bits of an input -/

/-- What the poll has seen of an input. -/
def seen (s : IoState) (k : ℕ) : Bool := s.fakeInportstatus1.bit k

/-- What was last asked of an input. -/
def asked (s : IoState) (k : ℕ) : Bool := s.fakeInportstatus2.bit k

variable {db : Database} {s t : IoState}

theorem shadow_of_rest (h : t.rest = s.rest) :
    t.fakeInportstatus1 = s.fakeInportstatus1 ∧ t.fakeInportstatus2 = s.fakeInportstatus2 := by
  have h1 := congrArg IoState.fakeInportstatus1 h
  have h2 := congrArg IoState.fakeInportstatus2 h
  exact ⟨h1, h2⟩

/-! ## Commands -/

end IoState

/-- What a block asks of the inputs. -/
def Block.request : Block → Option (ℕ × Bool)
  | .changeInput index onoff => some (index, onoff)
  | .requestInput index onoff _ => some (index, onoff)
  | .testLeftBlinker => some (leftblinkerInput, true)
  | .testRightBlinker => some (rightblinkerInput, true)
  | .startSeqEnable => some (starterInput, true)
  | _ => none

namespace IoState

variable {db : Database} {s t : IoState}

theorem shadow_execBlock (hs : WellFormed db s) {block : Block} (hvalid : block.Valid) :
    (s.execBlock block).fakeInportstatus1 = s.fakeInportstatus1 ∧
      (s.execBlock block).fakeInportstatus2 =
        match block.request with
        | none => s.fakeInportstatus2
        | some (index, onoff) => s.fakeInportstatus2.assign index onoff := by
  cases block with
  | changeInput index onoff => exact ⟨rfl, rfl⟩
  | acc onoff => exact shadow_of_rest (actsOn_execAcc onoff).rest_eq
  | fuelPump onoff => exact shadow_of_rest (actsOn_execFuelPump onoff).rest_eq
  | requestInput index onoff outputs =>
      have hrest : (s.execBlock (.requestInput index onoff outputs)).rest =
          (s.changeInput index onoff).rest := by
        have hrequest : WellFormed db (s.changeInput index onoff) := ⟨hs.found, hs.setup, hs.ip⟩
        apply rest_foldl (a := .mark onoff) hrequest
        intro s _ q _
        exact actsOn_markOutput q onoff
      exact shadow_of_rest hrest
  | setOutput index onoff => exact shadow_of_rest (actsOn_setOutput hs hvalid onoff).rest_eq
  | testLeftBlinker => exact ⟨rfl, rfl⟩
  | testRightBlinker => exact ⟨rfl, rfl⟩
  | startSeqPower =>
      have hacc := actsOn_startOutput hs (q := accon) (by decide)
      have hpump := actsOn_startOutput (hacc.wellFormed hs) (q := fuelpump) (by decide)
      exact shadow_of_rest (hpump.rest_eq.trans hacc.rest_eq)
  | startSeqEnable => exact ⟨rfl, rfl⟩
  | shutdownAcc =>
      have hs' : WellFormed db { s with
          runningHours := 0#8, runningMinutes := 0#8, runningSeconds := 0#8,
          engineRunning := 0 } := ⟨hs.found, hs.setup, hs.ip⟩
      have hstop := shadow_of_rest (actsOn_stopOutput hs' (q := accon) (by decide)).rest_eq
      exact hstop
  | shutdownFuelPump =>
      have hstop := shadow_of_rest (actsOn_stopOutput hs (q := fuelpump) (by decide)).rest_eq
      exact hstop

/-! ## The timer -/

/-- The scan of a port clears the input of the same number when the port expires. -/
theorem shadow_timerPort (hs : WellFormed db s) {q : ℕ} (hq : q < 40) :
    (s.timerPort q).fakeInportstatus1 = (if (s.relay q).Expires then
        s.fakeInportstatus1.assign q false else s.fakeInportstatus1) ∧
      (s.timerPort q).fakeInportstatus2 = (if (s.relay q).Expires then
        s.fakeInportstatus2.assign q false else s.fakeInportstatus2) := by
  have hblink := shadow_of_rest (rest_blink (s := s) hq)
  by_cases hexp : (s.relay q).Expires
  · rw [timerPort_of_expires hs hq hexp, if_pos hexp, if_pos hexp]
    have hdrive := shadow_of_rest (rest_changeOutput
      ((s.blink q).write q { s.datap q with timeLeft := 0#32 }) hq false)
    refine ⟨?_, ?_⟩
    · rw [← hblink.1]
      exact congrArg (fun b => Banks.assign b q false) hdrive.1
    · rw [← hblink.2]
      exact congrArg (fun b => Banks.assign b q false) hdrive.2
  · rw [if_neg hexp, if_neg hexp]
    by_cases hcount : (s.relay q).Counting
    · rw [timerPort_of_counting hs hq hcount fun hlast => hexp ⟨hcount, hlast⟩]
      exact hblink
    · rw [timerPort_of_not_counting hcount]
      exact ⟨rfl, rfl⟩

theorem seen_timerPort (hs : WellFormed db s) {q k : ℕ} (hq : q < 40) (hk : k < 40) :
    (s.timerPort q).seen k = if k = q ∧ (s.relay q).Expires then false else s.seen k := by
  rw [seen, (shadow_timerPort hs hq).1]
  by_cases hexp : (s.relay q).Expires
  · rw [if_pos hexp, Banks.bit_assign _ hq hk]
    simp [hexp, seen]
  · simp [hexp, seen]

theorem asked_timerPort (hs : WellFormed db s) {q k : ℕ} (hq : q < 40) (hk : k < 40) :
    (s.timerPort q).asked k = if k = q ∧ (s.relay q).Expires then false else s.asked k := by
  rw [asked, (shadow_timerPort hs hq).2]
  by_cases hexp : (s.relay q).Expires
  · rw [if_pos hexp, Banks.bit_assign _ hq hk]
    simp [hexp, asked]
  · simp [hexp, asked]

/-- The scan up to a port. -/
private theorem shadow_scan (hs : WellFormed db s) {n : ℕ} (hn : n ≤ 40) {k : ℕ} (hk : k < 40) :
    ((List.range n).foldl timerPort s).seen k =
        (if k < n ∧ (s.relay k).Expires then false else s.seen k) ∧
      ((List.range n).foldl timerPort s).asked k =
        (if k < n ∧ (s.relay k).Expires then false else s.asked k) := by
  induction n with
  | zero => simp
  | succ n ih =>
      have hacts := Acts.foldl (f := timerPort) (a := .scan) (List.nodup_range (n := n)) hs
        fun s hs q hq => acts_timerPort hs (by have := List.mem_range.mp hq; omega)
      have hwf := hacts.wellFormed hs
      have hrelay : ((List.range n).foldl timerPort s).relay n = s.relay n := by
        rw [hacts.relay_eq n (by omega), if_neg List.not_mem_range_self, Relay.act]
      obtain ⟨hseen, hasked⟩ := ih (by omega)
      rw [List.range_succ, List.foldl_append, List.foldl_cons, List.foldl_nil,
        seen_timerPort hwf (by omega) hk, asked_timerPort hwf (by omega) hk, hrelay, hseen, hasked]
      by_cases hkn : k = n
      · subst hkn
        simp
      · have hiff : k < n + 1 ↔ k < n := by omega
        simp [hkn, hiff]

theorem shadow_timerEngine (s : IoState) :
    s.timerEngine.fakeInportstatus1 = s.fakeInportstatus1 ∧
      s.timerEngine.fakeInportstatus2 = s.fakeInportstatus2 := by
  have hadd {t : IoState} (cmd : UCHAR) (h : t.fakeInportstatus1 = s.fakeInportstatus1 ∧
      t.fakeInportstatus2 = s.fakeInportstatus2) :
      (t.addMsgQueue cmd).fakeInportstatus1 = s.fakeInportstatus1 ∧
        (t.addMsgQueue cmd).fakeInportstatus2 = s.fakeInportstatus2 := h
  simp only [timerEngine]
  split_ifs
  · iterate 2 apply hadd
    exact ⟨rfl, rfl⟩
  · exact ⟨rfl, rfl⟩
  · iterate 5 apply hadd
    exact ⟨rfl, rfl⟩
  · exact ⟨rfl, rfl⟩
  · exact ⟨rfl, rfl⟩

/-- The end of a blinker test takes its request back. -/
theorem shadow_timerLblinkers (s : IoState) :
    s.timerLblinkers.fakeInportstatus1 = s.fakeInportstatus1 ∧
      (s.timerLblinkers.fakeInportstatus2 = s.fakeInportstatus2 ∨
        s.timerLblinkers.fakeInportstatus2 =
          s.fakeInportstatus2.assign leftblinkerInput false) := by
  simp only [timerLblinkers]
  split_ifs
  all_goals refine ⟨rfl, ?_⟩
  all_goals first | exact .inl rfl | exact .inr rfl

theorem shadow_timerRblinkers (s : IoState) :
    s.timerRblinkers.fakeInportstatus1 = s.fakeInportstatus1 ∧
      (s.timerRblinkers.fakeInportstatus2 = s.fakeInportstatus2 ∨
        s.timerRblinkers.fakeInportstatus2 =
          s.fakeInportstatus2.assign rightblinkerInput false) := by
  simp only [timerRblinkers]
  split_ifs
  all_goals refine ⟨rfl, ?_⟩
  all_goals first | exact .inl rfl | exact .inr rfl

/-- What a tick does before its scan. -/
def timerPrologue (s : IoState) : IoState :=
  timerRblinkers (timerLblinkers (timerUptime (timerEngine s)))

/-- It takes back requests of blinker inputs, and touches no others. -/
theorem shadow_timerPrologue (s : IoState) {k : ℕ} (hk : k < 40) :
    s.timerPrologue.seen k = s.seen k ∧ (s.timerPrologue.asked k = s.asked k ∨
      (k = leftblinkerInput ∨ k = rightblinkerInput) ∧ s.timerPrologue.asked k = false) := by
  have hengine := shadow_timerEngine s
  obtain ⟨hseenL, hL⟩ := shadow_timerLblinkers (timerUptime (timerEngine s))
  obtain ⟨hseenR, hR⟩ := shadow_timerRblinkers (timerLblinkers (timerUptime (timerEngine s)))
  have hback {b b' : Banks} {q : ℕ} (hq : q < 40) (h : b' = b ∨ b' = b.assign q false) :
      b'.bit k = b.bit k ∨ k = q ∧ b'.bit k = false := by
    rcases h with h | h
    · exact .inl (by rw [h])
    · rw [h, Banks.bit_assign b hq hk]
      by_cases hkq : k = q
      · exact .inr ⟨hkq, if_pos hkq⟩
      · exact .inl (if_neg hkq)
  refine ⟨?_, ?_⟩
  · exact congrArg (fun b => Banks.bit b k) (hseenR.trans (hseenL.trans hengine.1))
  · rcases hback (by decide) hR with hR | ⟨hkr, hR⟩
    · rcases hback (by decide) hL with hL | ⟨hkl, hL⟩
      · exact .inl (hR.trans (hL.trans (congrArg (fun b => Banks.bit b k) hengine.2)))
      · exact .inr ⟨.inl hkl, hR.trans hL⟩
    · exact .inr ⟨.inr hkr, hR⟩

/-- A tick clears the inputs whose numbers are those of expiring ports, and takes the
requests of blinker tests back. -/
theorem shadow_timerTask (hs : WellFormed db s) {k : ℕ} (hk : k < 40) :
    s.timerTask.seen k =
        (if k < testoutput27 ∧ (s.relay k).Expires then false else s.seen k) ∧
      (s.timerTask.asked k =
          (if k < testoutput27 ∧ (s.relay k).Expires then false else s.asked k) ∨
        (k = leftblinkerInput ∨ k = rightblinkerInput) ∧ s.timerTask.asked k = false) := by
  have hacts : Acts s s.timerPrologue fun _ => .keep := acts_timer_prologue s
  obtain ⟨hseen, hasked⟩ := shadow_timerPrologue s hk
  have hscan := shadow_scan (n := testoutput27) (hacts.wellFormed hs) (by decide) hk
  rw [timerTask, ← timerPrologue, timerScan, hscan.1, hscan.2, hacts.relay_eq k hk, hseen,
    Relay.act]
  refine ⟨rfl, ?_⟩
  rcases hasked with h | ⟨hkb, h⟩
  · exact .inl (by rw [h])
  · refine .inr ⟨hkb, ?_⟩
    rw [h, ite_self]

end IoState

end TruckControl
