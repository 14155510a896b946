import Mathlib.Tactic.IntervalCases
import TruckControl.Library.Gaps
import TruckControl.Verification.PortBytes

/-!
# What `StartRecvFPGA` stores and forwards

Nothing but a start byte sets `frame_ptr` back, and nothing tells how much of `buff` has been
received when a start byte comes.
-/

namespace TruckControl

/-- A byte on the pins, and the flags when it has been read. -/
structure PortByte where
  pins : UCHAR
  engineOn : ℕ
  sendAdc : ℕ

namespace RecvFPGA

variable {s : RecvFPGA}

/-! ## The task, byte after byte -/

/-- The task at the end of its first delays. -/
def ready (buff ucbuff : ℕ → UCHAR) : RecvFPGA :=
  ((start buff ucbuff).step 0 false 0).step 0 false 0

/-- `PP0_Pin` to `PP7_Pin`. -/
def readByte (pins : UCHAR) (s : RecvFPGA) : RecvFPGA := (step 1 true pins)^[8] s

/-- The task reads the pins while `PP_CS` is set, and processes the byte after its end. -/
def takeByte (pins : UCHAR) (s : RecvFPGA) : RecvFPGA :=
  let s := ((s.step 1 false pins).step 1 true pins).readByte pins
  ((s.step 1 false pins).step 1 false pins).step 1 false pins

/-- The byte that is assembled of the pins. -/
def assembles (pins : UCHAR) (s : RecvFPGA) : UCHAR := s.xbyte ||| pins

/-- The first `k` pins have been read. -/
def readPins (pins : UCHAR) (xbyte : UCHAR) (k : ℕ) : UCHAR :=
  (List.range k).foldl
    (fun xbyte i => if pins.getLsbD i then xbyte ||| 1#8 <<< i else xbyte) xbyte

theorem getLsbD_readPins (pins xbyte : UCHAR) (k i : ℕ) :
    (readPins pins xbyte k).getLsbD i =
      (xbyte.getLsbD i || (pins.getLsbD i && decide (i < k))) := by
  induction k with
  | zero => simp [readPins]
  | succ k ih =>
      rw [readPins, List.range_succ, List.foldl_append, List.foldl_cons, List.foldl_nil, ← readPins,
        getLsbD_readPin, ih, Bool.or_assoc, ← Bool.and_or_distrib_left, ← Bool.decide_or]
      congr 3
      exact propext (by omega)

theorem readPins_eight (pins xbyte : UCHAR) : readPins pins xbyte 8 = xbyte ||| pins := by
  apply BitVec.eq_of_getLsbD_eq
  intro i hi
  rw [getLsbD_readPins, BitVec.getLsbD_or, decide_eq_true hi, Bool.and_true]

theorem iterate_readPin (pins : UCHAR) (hpoint : s.point = .readPin 0) {k : ℕ} (hk : k ≤ 8) :
    (step 1 true pins)^[k] s =
      { s with
        xbyte := readPins pins s.xbyte k
        point := if k < 8 then .readPin k else .waitReset } := by
  induction k with
  | zero =>
      rw [Function.iterate_zero, id, if_pos (by decide), ← hpoint]
      rfl
  | succ k ih =>
      have hread : readPins pins s.xbyte (k + 1) =
          if pins.getLsbD k then readPins pins s.xbyte k ||| 1#8 <<< k
          else readPins pins s.xbyte k := by
        rw [readPins, List.range_succ, List.foldl_append]
        rfl
      have hnext : (if k < 7 then RecvPoint.readPin (k + 1) else .waitReset) =
          if k + 1 < 8 then RecvPoint.readPin (k + 1) else .waitReset :=
        if_congr (by omega) rfl rfl
      rw [Function.iterate_succ_apply', ih (by omega), if_pos (by omega), hread]
      simp only [step, hnext]

theorem readByte_eq (pins : UCHAR) (hpoint : s.point = .readPin 0) :
    s.readByte pins = { s with xbyte := s.assembles pins, point := .waitReset } := by
  rw [readByte, iterate_readPin pins hpoint (Nat.le_refl 8), readPins_eight, if_neg (by decide),
    assembles]

theorem takeByte_eq (pins : UCHAR) (hpoint : s.point = .loop) :
    s.takeByte pins =
      { s.store (s.assembles pins) with
        xbyte := 0
        ppAck := false
        point := .loop
        assembled := s.assembled ++ [s.assembles pins] } := by
  have hstart : (s.step 1 false pins).step 1 true pins = { s with point := .readPin 0 } := by
    simp [step, hpoint]
  rw [takeByte, hstart, readByte_eq pins rfl]
  have hxbyte : ({ s with point := .readPin 0 } : RecvFPGA).assembles pins = s.assembles pins := rfl
  rw [hxbyte]
  generalize s.assembles pins = xbyte
  have hend : ({ s with xbyte := xbyte, point := .waitReset } : RecvFPGA).step 1 false pins =
      { s with xbyte := xbyte, point := .process } := rfl
  have hprocess : ({ s with xbyte := xbyte, point := .process } : RecvFPGA).step 1 false pins =
      { s.store xbyte with
        xbyte := xbyte, ppAck := true, point := .acked, assembled := s.assembled ++ [xbyte] } := by
    simp only [step, store]
    split_ifs <;> rfl
  rw [hend, hprocess]
  rfl

/-- The task before the `n`-th byte. -/
def taken (buff ucbuff : ℕ → UCHAR) (ts : ℕ → PortByte) : ℕ → RecvFPGA
  | 0 => ready buff ucbuff
  | n + 1 => (taken buff ucbuff ts n).takeByte (ts n).pins

/-- The `n`-th byte, as it is assembled. -/
def byteAt (buff ucbuff : ℕ → UCHAR) (ts : ℕ → PortByte) (n : ℕ) : UCHAR :=
  (taken buff ucbuff ts n).assembles (ts n).pins

/-- The index at which the `n`-th byte is stored, if it is. -/
def storeIndex (buff ucbuff : ℕ → UCHAR) (ts : ℕ → PortByte) (n : ℕ) : Option ℕ :=
  if byteAt buff ucbuff ts n = 0xFE then none else some (taken buff ucbuff ts n).framePtr

/-- The last byte before the `n`-th that was stored at `buff[i]`. -/
def lastStore (buff ucbuff : ℕ → UCHAR) (ts : ℕ → PortByte) (n i : ℕ) : Option ℕ :=
  Gaps.lastBelow (fun k => storeIndex buff ucbuff ts k = some i) n

/-- Where a byte of a message is from: a slot of `buff`, or a byte of `ucbuff` to which nothing
is ever stored. -/
inductive Source where
  | buff (i : ℕ)
  | ucbuff (j : ℕ)
  deriving DecidableEq, Repr

/-- Behind its command, a message has four bytes from `buff[i]` on. -/
def messageSources (i : ℕ) : List Source :=
  [.buff i, .buff (i + 1), .buff (i + 2), .buff (i + 3), .ucbuff 5, .ucbuff 6, .ucbuff 7]

/-- Where the bytes are from that are forwarded at a start byte. -/
def forwarded (engineOn sendAdc : ℕ) : List Source :=
  (if engineOn ≠ 0 then messageSources 0 else []) ++
    (if sendAdc = 1 then messageSources 4 ++ messageSources 8 else []) ++ messageSources 12

/-- The byte there. -/
def Source.byte (s : RecvFPGA) : Source → UCHAR
  | .buff i => s.buff i
  | .ucbuff j => s.ucbuff j

/-- The last byte before the `n`-th that was stored there. -/
def Source.lastStore (buff ucbuff : ℕ → UCHAR) (ts : ℕ → PortByte) (n : ℕ) : Source → Option ℕ
  | .buff i => RecvFPGA.lastStore buff ucbuff ts n i
  | .ucbuff _ => none

theorem flatMap_tail_sends (engineOn sendAdc : ℕ) (s : RecvFPGA) :
    (s.sends engineOn sendAdc 0xFE).flatMap List.tail =
      (forwarded engineOn sendAdc).map (Source.byte s) := by
  rw [sends, if_pos rfl, rtValues, forwarded]
  split_ifs <;> rfl

/-- Every store is within `buff`. -/
def StoresInRange (buff ucbuff : ℕ → UCHAR) (ts : ℕ → PortByte) (n : ℕ) : Prop :=
  ∀ m < n, ∀ i ∈ storeIndex buff ucbuff ts m, i ≤ 24

/-- What is there was stored before the `m`-th byte, and is that byte of the pins. -/
def Received (buff ucbuff : ℕ → UCHAR) (ts : ℕ → PortByte) (m : ℕ) (src : Source) : Prop :=
  ∃ k, src.lastStore buff ucbuff ts m = some k ∧
    src.byte (taken buff ucbuff ts m) = (ts k).pins

/-- Everything that is forwarded at a start byte has been received. -/
def ForwardsReceived (buff ucbuff : ℕ → UCHAR) (ts : ℕ → PortByte) (n : ℕ) : Prop :=
  ∀ m < n, byteAt buff ucbuff ts m = 0xFE → ∀ src ∈ forwarded (ts m).engineOn (ts m).sendAdc,
    Received buff ucbuff ts m src

/-- The bytes of the messages that are from `buff` have been received. -/
def SlotsReceived (buff ucbuff : ℕ → UCHAR) (ts : ℕ → PortByte) (n : ℕ) : Prop :=
  ∀ m < n, byteAt buff ucbuff ts m = 0xFE →
    ∀ i, .buff i ∈ forwarded (ts m).engineOn (ts m).sendAdc →
      Received buff ucbuff ts m (.buff i)

/-! ## What the pins say -/

/-- A byte is taken for a start byte. The first one has bit 0 set, whatever the pins say. -/
def isStart (ts : ℕ → PortByte) (n : ℕ) : Bool := 0 < n && (ts n).pins = 0xFE

variable {buff ucbuff : ℕ → UCHAR} {ts : ℕ → PortByte}

theorem point_taken (buff ucbuff : ℕ → UCHAR) (ts : ℕ → PortByte) (n : ℕ) :
    (taken buff ucbuff ts n).point = .loop := by
  induction n with
  | zero => rfl
  | succ n ih => rw [taken, takeByte_eq _ ih]

theorem byteAt_zero (buff ucbuff : ℕ → UCHAR) (ts : ℕ → PortByte) :
    byteAt buff ucbuff ts 0 = 0x21 ||| (ts 0).pins := rfl

theorem byteAt_succ (buff ucbuff : ℕ → UCHAR) (ts : ℕ → PortByte) (n : ℕ) :
    byteAt buff ucbuff ts (n + 1) = (ts (n + 1)).pins := by
  rw [byteAt, taken, takeByte_eq _ (point_taken buff ucbuff ts n), assembles]
  exact BitVec.zero_or

theorem byteAt_eq_start_iff (buff ucbuff : ℕ → UCHAR) (ts : ℕ → PortByte) (n : ℕ) :
    byteAt buff ucbuff ts n = 0xFE ↔ isStart ts n = true := by
  cases n with
  | zero =>
      have hodd : ∀ pins : UCHAR, 0x21 ||| pins ≠ 0xFE := by decide +kernel
      rw [byteAt_zero, isStart]
      simpa using hodd (ts 0).pins
  | succ n => simp [byteAt_succ, isStart]

theorem framePtr_taken (buff ucbuff : ℕ → UCHAR) (ts : ℕ → PortByte) (n : ℕ) :
    (taken buff ucbuff ts n).framePtr = Gaps.since (isStart ts) n := by
  induction n with
  | zero => rfl
  | succ n ih =>
      have hstore : (taken buff ucbuff ts (n + 1)).framePtr =
          ((taken buff ucbuff ts n).store (byteAt buff ucbuff ts n)).framePtr := by
        rw [taken, takeByte_eq _ (point_taken buff ucbuff ts n)]
        rfl
      rw [hstore, store, Gaps.since]
      by_cases hstart : byteAt buff ucbuff ts n = 0xFE
      · rw [if_pos hstart, if_pos ((byteAt_eq_start_iff buff ucbuff ts n).mp hstart)]
      · rw [if_neg hstart, if_neg fun h => hstart ((byteAt_eq_start_iff buff ucbuff ts n).mpr h)]
        exact congrArg (· + 1) ih

theorem storeIndex_eq_some_iff (buff ucbuff : ℕ → UCHAR) (ts : ℕ → PortByte) (n i : ℕ) :
    storeIndex buff ucbuff ts n = some i ↔
      isStart ts n = false ∧ Gaps.since (isStart ts) n = i := by
  rw [storeIndex, framePtr_taken]
  by_cases hstart : byteAt buff ucbuff ts n = 0xFE
  · rw [if_pos hstart, (byteAt_eq_start_iff buff ucbuff ts n).mp hstart]
    simp
  · have hno : isStart ts n = false := by
      rw [← Bool.not_eq_true, ← byteAt_eq_start_iff buff ucbuff ts n]
      exact hstart
    rw [if_neg hstart, hno]
    simp

/-- What a slot holds is what was last stored there, or what was there at first. -/
theorem buff_taken (buff ucbuff : ℕ → UCHAR) (ts : ℕ → PortByte) (n i : ℕ) :
    (taken buff ucbuff ts n).buff i =
      ((lastStore buff ucbuff ts n i).map (byteAt buff ucbuff ts)).getD (buff i) := by
  induction n with
  | zero => rfl
  | succ n ih =>
      have hstore : (taken buff ucbuff ts (n + 1)).buff i =
          ((taken buff ucbuff ts n).store (byteAt buff ucbuff ts n)).buff i := by
        rw [taken, takeByte_eq _ (point_taken buff ucbuff ts n)]
        rfl
      have hlast : lastStore buff ucbuff ts (n + 1) i =
          if storeIndex buff ucbuff ts n = some i then some n
          else lastStore buff ucbuff ts n i := by
        simp only [lastStore, Gaps.lastBelow, decide_eq_true_eq]
      rw [hstore, hlast, store]
      by_cases hstart : byteAt buff ucbuff ts n = 0xFE
      · have hnone : storeIndex buff ucbuff ts n = none := by rw [storeIndex, if_pos hstart]
        rw [if_pos hstart, hnone, if_neg (by simp)]
        exact ih
      · have hsome : storeIndex buff ucbuff ts n = some (taken buff ucbuff ts n).framePtr := by
          rw [storeIndex, if_neg hstart]
        rw [if_neg hstart, hsome]
        change Function.update _ _ _ i = _
        by_cases hi : i = (taken buff ucbuff ts n).framePtr
        · rw [hi, Function.update_self, if_pos rfl]
          rfl
        · rw [Function.update_of_ne hi, if_neg fun h => hi (Option.some.inj h).symm]
          exact ih

/-- Nothing is stored to the rest of `ucbuff`. -/
theorem ucbuff_taken (buff ucbuff : ℕ → UCHAR) (ts : ℕ → PortByte) (n : ℕ) :
    (taken buff ucbuff ts n).ucbuff = ucbuff := by
  induction n with
  | zero => rfl
  | succ n ih =>
      rw [taken, takeByte_eq _ (point_taken buff ucbuff ts n), store]
      split_ifs <;> exact ih

/-! ## When it goes well -/

/-- Of any 26 bytes in a row one is a start byte; the first start byte has sixteen bytes before
it; and the first of all bytes has the bits that `xbyte` starts with, or is replaced before it
is forwarded. -/
structure StreamFits (ts : ℕ → PortByte) (n : ℕ) : Prop where
  gaps : ∀ m, m + 26 ≤ n → ∃ k, m ≤ k ∧ k < m + 26 ∧ isStart ts k = true
  filled : ∀ m < n, isStart ts m = true → 16 ≤ m
  first : 0x21 ||| (ts 0).pins = (ts 0).pins ∨
    ∀ m < n, isStart ts m = true → (ts m).engineOn ≠ 0 →
      ∃ k, k + 1 < m ∧ isStart ts k = true ∧ isStart ts (k + 1) = false

theorem storesInRange_iff (buff ucbuff : ℕ → UCHAR) (ts : ℕ → PortByte) (n : ℕ) :
    StoresInRange buff ucbuff ts n ↔
      ∀ m, m + 26 ≤ n → ∃ k, m ≤ k ∧ k < m + 26 ∧ isStart ts k = true := by
  rw [← Gaps.forall_since_lt_iff 25 n]
  constructor
  · intro h m hm hno
    have hle := h m hm _ ((storeIndex_eq_some_iff buff ucbuff ts m _).mpr ⟨hno, rfl⟩)
    omega
  · intro h m hm i hi
    obtain ⟨hno, rfl⟩ := (storeIndex_eq_some_iff buff ucbuff ts m i).mp hi
    have hlt := h m hm hno
    omega

/-- Up to the first start byte, each byte goes to the next slot. -/
theorem since_of_none {n : ℕ} (h : ∀ k < n, isStart ts k = false) :
    Gaps.since (isStart ts) n = n := by
  have hge : n ≤ Gaps.since (isStart ts) n :=
    (Gaps.le_since_iff n n).mpr ⟨Nat.le_refl n, fun k _ hk => h k hk⟩
  have hle : Gaps.since (isStart ts) n ≤ n := Gaps.since_le n
  omega

theorem lastStore_eq_some_iff (buff ucbuff : ℕ → UCHAR) (ts : ℕ → PortByte) (n i k : ℕ) :
    lastStore buff ucbuff ts n i = some k ↔ k < n ∧ storeIndex buff ucbuff ts k = some i ∧
      ∀ j, k < j → j < n → storeIndex buff ucbuff ts j ≠ some i := by
  rw [lastStore, Gaps.lastBelow_eq_some_iff]
  simp

/-- A slot that has been stored to is not forgotten. -/
theorem exists_lastStore {n i k : ℕ} (hk : k < n) (hstore : storeIndex buff ucbuff ts k = some i) :
    ∃ j, lastStore buff ucbuff ts n i = some j ∧ k ≤ j :=
  Gaps.exists_lastBelow hk (decide_eq_true hstore)

theorem mem_forwarded_lt {engineOn sendAdc i : ℕ} (h : .buff i ∈ forwarded engineOn sendAdc) :
    i < 16 := by
  rw [forwarded] at h
  split_ifs at h <;> simp [messageSources] at h <;> omega

theorem forwarded_zero {engineOn sendAdc : ℕ} (h : .buff 0 ∈ forwarded engineOn sendAdc) :
    engineOn ≠ 0 := by
  intro hoff
  rw [forwarded, if_neg (by rw [not_not]; exact hoff)] at h
  split_ifs at h <;> simp [messageSources] at h

/-- The status is sent at every start byte. -/
theorem status_mem_forwarded (engineOn sendAdc : ℕ) {src : Source}
    (h : src ∈ messageSources 12) : src ∈ forwarded engineOn sendAdc :=
  List.mem_append_right _ h

/-- Sixteen bytes before the first start byte fill the slots that are forwarded. -/
theorem slotsReceived_of_fits {n : ℕ} (hfilled : ∀ m < n, isStart ts m = true → 16 ≤ m)
    (hfirst : 0x21 ||| (ts 0).pins = (ts 0).pins ∨
      ∀ m < n, isStart ts m = true → (ts m).engineOn ≠ 0 →
        ∃ k, k + 1 < m ∧ isStart ts k = true ∧ isStart ts (k + 1) = false) :
    SlotsReceived buff ucbuff ts n := by
  intro m hm hbyte i hi
  have hstart := (byteAt_eq_start_iff buff ucbuff ts m).mp hbyte
  have hsixteen := hfilled m hm hstart
  have hi16 := mem_forwarded_lt hi
  have hnone : ∀ k < 16, isStart ts k = false := by
    intro k hk
    by_contra hmark
    have hge := hfilled k (by omega) (by simpa using hmark)
    omega
  have hstore : storeIndex buff ucbuff ts i = some i :=
    (storeIndex_eq_some_iff buff ucbuff ts i i).mpr
      ⟨hnone i hi16, since_of_none fun k hk => hnone k (by omega)⟩
  obtain ⟨k, hlast, hik⟩ := exists_lastStore (n := m) (by omega) hstore
  refine ⟨k, hlast, ?_⟩
  rw [Source.byte, buff_taken, hlast, Option.map_some, Option.getD_some]
  cases k with
  | succ k => exact byteAt_succ buff ucbuff ts k
  | zero =>
      -- the very first byte is still in its slot
      have hizero : i = 0 := by omega
      rw [hizero] at hi hlast
      rcases hfirst with hbits | hreplaced
      · rw [byteAt_zero, hbits]
      · obtain ⟨k, hk, hmark, hnext⟩ := hreplaced m hm hstart (forwarded_zero hi)
        have hagain : storeIndex buff ucbuff ts (k + 1) = some 0 :=
          (storeIndex_eq_some_iff buff ucbuff ts (k + 1) 0).mpr
            ⟨hnext, by rw [Gaps.since, if_pos hmark]⟩
        have hlater := ((lastStore_eq_some_iff buff ucbuff ts m 0 0).mp hlast).2.2
          (k + 1) (by omega) hk
        exact absurd hagain hlater

theorem filled_of_slotsReceived {n : ℕ} (h : SlotsReceived buff ucbuff ts n) :
    ∀ m < n, isStart ts m = true → 16 ≤ m := by
  by_contra hbad
  simp only [not_forall, Nat.not_le] at hbad
  obtain ⟨m, hm, hstart, hlt⟩ := hbad
  -- the first start byte finds slot 15 as it was
  have hex : ∃ m, isStart ts m = true := ⟨m, hstart⟩
  have hfirst := Nat.find_spec hex
  have hmin : ∀ k < Nat.find hex, isStart ts k = false := fun k hk => by
    simpa using Nat.find_min hex hk
  have hle : Nat.find hex ≤ m := Nat.find_min' hex hstart
  obtain ⟨k, hlast, -⟩ := h (Nat.find hex) (by omega)
    ((byteAt_eq_start_iff buff ucbuff ts _).mpr hfirst) 15
      (status_mem_forwarded _ _ (by simp [messageSources]))
  obtain ⟨hk, hstore, -⟩ := (lastStore_eq_some_iff buff ucbuff ts _ 15 k).mp hlast
  have hindex := ((storeIndex_eq_some_iff buff ucbuff ts k 15).mp hstore).2
  rw [since_of_none fun j hj => hmin j (by omega)] at hindex
  omega

theorem first_of_slotsReceived {n : ℕ} (h : SlotsReceived buff ucbuff ts n) :
    0x21 ||| (ts 0).pins = (ts 0).pins ∨
      ∀ m < n, isStart ts m = true → (ts m).engineOn ≠ 0 →
        ∃ k, k + 1 < m ∧ isStart ts k = true ∧ isStart ts (k + 1) = false := by
  by_cases hbits : 0x21 ||| (ts 0).pins = (ts 0).pins
  · exact .inl hbits
  · refine .inr fun m hm hstart hon => ?_
    obtain ⟨j, hlast, hpins⟩ := h m hm ((byteAt_eq_start_iff buff ucbuff ts m).mpr hstart) 0
      (by simp [forwarded, messageSources, hon])
    rw [Source.lastStore] at hlast
    rw [Source.byte, buff_taken, hlast, Option.map_some, Option.getD_some] at hpins
    obtain ⟨hj, hstore, -⟩ := (lastStore_eq_some_iff buff ucbuff ts m 0 j).mp hlast
    obtain ⟨hno, hindex⟩ := (storeIndex_eq_some_iff buff ucbuff ts j 0).mp hstore
    cases j with
    | zero => exact absurd hpins hbits
    | succ k =>
        have hmark : isStart ts k = true := by
          rw [Gaps.since] at hindex
          by_contra hnot
          rw [if_neg hnot] at hindex
          omega
        exact ⟨k, hj, hmark, hno⟩

/-- The last bytes of a message are never received. -/
theorem forwardsReceived_iff (buff ucbuff : ℕ → UCHAR) (ts : ℕ → PortByte) (n : ℕ) :
    ForwardsReceived buff ucbuff ts n ↔ ∀ m < n, isStart ts m = false := by
  constructor
  · intro h m hm
    by_contra hno
    have hbyte := (byteAt_eq_start_iff buff ucbuff ts m).mpr (Bool.eq_true_of_not_eq_false hno)
    obtain ⟨k, hlast, -⟩ := h m hm hbyte (.ucbuff 5)
      (status_mem_forwarded _ _ (by simp [messageSources]))
    cases hlast
  · intro h m hm hbyte
    have hstart := (byteAt_eq_start_iff buff ucbuff ts m).mp hbyte
    rw [h m hm] at hstart
    cases hstart

/-- Whatever the arrays hold at first: all stores are in range and only received bytes are
forwarded exactly as long as nothing is forwarded and no more bytes come than `buff` has. Of
the bytes that are taken from `buff` the same holds exactly if the stream fits. -/
theorem stores_and_forwards_iff (buff ucbuff : ℕ → UCHAR) (ts : ℕ → PortByte) (n : ℕ) :
    (StoresInRange buff ucbuff ts n ∧ ForwardsReceived buff ucbuff ts n ↔
        n ≤ 25 ∧ ∀ m < n, isStart ts m = false) ∧
      (StoresInRange buff ucbuff ts n ∧ SlotsReceived buff ucbuff ts n ↔ StreamFits ts n) := by
  rw [storesInRange_iff, forwardsReceived_iff]
  refine ⟨and_congr_left fun hnone => ?_, ?_⟩
  · constructor
    · intro hgaps
      by_contra hlong
      obtain ⟨k, -, hk, hstart⟩ := hgaps 0 (by omega)
      rw [hnone k (by omega)] at hstart
      cases hstart
    · intro hshort m hm
      omega
  · constructor
    · intro h
      exact ⟨h.1, filled_of_slotsReceived h.2, first_of_slotsReceived h.2⟩
    · intro h
      exact ⟨h.gaps, slotsReceived_of_fits h.filled h.first⟩

/-- Twenty-six bytes without a start byte: the last is stored behind the array. -/
theorem stores_and_forwards_long :
    storeIndex (fun _ => 0) (fun _ => 0) (fun _ => ⟨0x30, 1, 1⟩) 25 = some 25 ∧
      ¬ StoresInRange (fun _ => 0) (fun _ => 0) (fun _ => ⟨0x30, 1, 1⟩) 26 := by
  have hstore : storeIndex (fun _ => 0) (fun _ => 0) (fun _ => ⟨0x30, 1, 1⟩) 25 = some 25 := by
    rw [storeIndex_eq_some_iff]
    decide
  exact ⟨hstore, fun h => absurd (h 25 (by decide) 25 hstore) (by decide)⟩

/-- Eighteen bytes and a start byte. -/
def wholeFrame (n : ℕ) : PortByte := ⟨if n = 18 then 0xFE else 0x31, 1, 1⟩

/-- This stream fits, and yet its messages end in bytes that were never received. -/
theorem streamFits_wholeFrame :
    StoresInRange (fun _ => 0) (fun _ => 0xA5) wholeFrame 19 ∧
      SlotsReceived (fun _ => 0) (fun _ => 0xA5) wholeFrame 19 ∧
      ¬ ForwardsReceived (fun _ => 0) (fun _ => 0xA5) wholeFrame 19 := by
  have hfits : StreamFits wholeFrame 19 := ⟨by omega, by decide, .inl (by decide)⟩
  obtain ⟨hrange, hslots⟩ := (stores_and_forwards_iff (fun _ => 0) (fun _ => 0xA5)
    wholeFrame 19).2.mpr hfits
  refine ⟨hrange, hslots, fun hall => ?_⟩
  have hnone := (forwardsReceived_iff (fun _ => 0) (fun _ => 0xA5) wholeFrame 19).mp hall 18
  exact absurd (hnone (by decide)) (by decide)

end RecvFPGA

end TruckControl
