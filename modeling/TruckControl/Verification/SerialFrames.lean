import TruckControl.Library.Reports
import TruckControl.Model.SerialLine

/-!
# Frames from the STM32

A reader that begins at a frame boundary stays on the boundaries, whatever bytes the
messages hold. A reader that begins elsewhere may take a byte of a message for the marker,
and then it depends on the messages whether it ever comes back.
-/

namespace TruckControl

open MarkedFrames

namespace SerialLine

/-! ## From a boundary on -/

/-- What has been transmitted are the frames of the first accepted messages, the others
wait, and the reader has followed the stream from its beginning. -/
structure Followed (s : SerialLine) : Prop where
  serverUp : s.serverUp = 1
  ucbuff : ∃ old, s.ucbuff = readSerialBuffer old
  stream : ∃ (sent waiting : List (ℕ → UCHAR)) (seen : List UCHAR),
    s.accepted = sent ++ waiting ∧ s.send7200 = waiting.map pack64 ∧
    seen ++ s.line = (sent.map readSerialBuffer).flatMap (frame marker) ∧
    recvs marker serialBuffSize .hunting seen = (s.reader, s.read)

theorem followed_start (old : ℕ → UCHAR) : Followed (start old) :=
  ⟨rfl, ⟨old, rfl⟩, [], [], [], rfl, rfl, rfl, rfl⟩

theorem Followed.step {s : SerialLine} (h : Followed s) (e : LineEvent) : Followed (s.step e) := by
  obtain ⟨sent, waiting, seen, haccepted, hqueue, hline, hread⟩ := h.stream
  cases e with
  | xQueueSend buff =>
      rw [SerialLine.step]
      split_ifs with hroom
      · refine ⟨h.serverUp, h.ucbuff, sent, waiting ++ [buff], seen, ?_, ?_, hline, hread⟩
        · simp [haccepted]
        · simp [hqueue]
      · exact h
  | startTask7200 =>
      cases waiting with
      | nil =>
          rw [SerialLine.step, hqueue]
          exact h
      | cons buff waiting =>
          obtain ⟨old, hold⟩ := h.ucbuff
          have hlen : 8 ≤ s.ucbuff.length := by
            rw [hold, length_readSerialBuffer]
            decide
          have hdrop : (readSerialBuffer old).drop 8 = List.replicate (serialBuffSize - 8) 0#8 := by
            rw [readSerialBuffer, List.drop_left' (by simp)]
          have hframe : unpack s.ucbuff (pack64 buff) = readSerialBuffer buff := by
            rw [unpack_pack64 _ hlen, hold, hdrop, readSerialBuffer]
          simp only [SerialLine.step, hqueue, List.map_cons, hframe, h.serverUp, if_true]
          refine ⟨rfl, ⟨buff, rfl⟩, sent ++ [buff], waiting, seen, ?_, rfl, ?_, hread⟩
          · simp [haccepted]
          · rw [← List.append_assoc, hline]
            simp
  | readSerial =>
      cases hnext : s.line with
      | nil =>
          rw [SerialLine.step, hnext]
          exact h
      | cons ch rest =>
          rw [SerialLine.step, hnext]
          refine ⟨h.serverUp, h.ucbuff, sent, waiting, seen ++ [ch], haccepted, hqueue, ?_, ?_⟩
          · rw [← hline, hnext]
            simp
          · rw [recvs_append, hread]
            simp [recvs_cons]

/-! ## What the queue takes -/

/-- A message that finds room in the queue. -/
def accepts (s : SerialLine) : LineEvent → List (ℕ → UCHAR)
  | .xQueueSend buff => if s.send7200.length < 10 then [buff] else []
  | .startTask7200 | .readSerial => []

theorem accepted_step (s : SerialLine) (e : LineEvent) :
    (s.step e).accepted = s.accepted ++ s.accepts e := by
  cases e with
  | xQueueSend buff =>
      rw [SerialLine.step, accepts]
      split_ifs
      · rfl
      · exact (List.append_nil _).symm
  | startTask7200 | readSerial =>
      rw [SerialLine.step]
      split <;> exact (List.append_nil _).symm

theorem accepted_exec (s : SerialLine) (es : List LineEvent) :
    (Transition.exec SerialLine.step s es).accepted =
      s.accepted ++ Transition.reports SerialLine.step accepts s es := by
  induction es generalizing s with
  | nil => exact (List.append_nil _).symm
  | cons e es ih =>
      rw [Transition.exec_cons, ih, accepted_step, Transition.reports, List.append_assoc]

/-! ## Turns of the two tasks -/

/-- A task that has something to take. -/
def Takes (s : SerialLine) : LineEvent → Prop
  | .xQueueSend _ => False
  | .startTask7200 => s.send7200 ≠ []
  | .readSerial => s.line ≠ []

instance (s : SerialLine) : DecidablePred s.Takes
  | .xQueueSend _ => inferInstanceAs (Decidable False)
  | .startTask7200 => inferInstanceAs (Decidable (s.send7200 ≠ []))
  | .readSerial => inferInstanceAs (Decidable (s.line ≠ []))

/-- How many such turns it takes until all has been read. -/
def left (s : SerialLine) : ℕ := s.send7200.length * (serialBuffSize + 2) + s.line.length

theorem length_unpack (ucbuff : List UCHAR) (avrBuffer : BitVec 64) :
    (unpack ucbuff avrBuffer).length = ucbuff.length := by
  simp [unpack, List.range_succ, takeByte]

/-- A message becomes a marker and the bytes of a frame, and a byte is read. -/
theorem Followed.left_step {s : SerialLine} (h : Followed s) {e : LineEvent} (he : s.Takes e) :
    (s.step e).left + 1 = s.left := by
  cases e with
  | xQueueSend buff => exact he.elim
  | startTask7200 =>
      obtain ⟨avrBuffer, rest, hqueue⟩ := List.exists_cons_of_ne_nil he
      have hlen : (unpack s.ucbuff avrBuffer).length = serialBuffSize := by
        obtain ⟨old, hold⟩ := h.ucbuff
        rw [length_unpack, hold, length_readSerialBuffer]
      simp only [SerialLine.step, left, hqueue, h.serverUp, if_true, frame, List.length_append,
        List.length_cons, hlen, Nat.succ_mul]
      omega
  | readSerial =>
      obtain ⟨ch, rest, hline⟩ := List.exists_cons_of_ne_nil he
      simp only [SerialLine.step, left, hline, List.length_cons]
      omega

theorem Followed.left_exec {s : SerialLine} (h : Followed s) {fs : List LineEvent}
    (hfs : Transition.Meets SerialLine.step Takes s fs) :
    (Transition.exec SerialLine.step s fs).left + fs.length = s.left ∧
      (Transition.exec SerialLine.step s fs).accepted = s.accepted := by
  induction fs generalizing s with
  | nil => exact ⟨rfl, rfl⟩
  | cons e fs ih =>
      obtain ⟨hleft, haccepted⟩ := ih (h.step e) hfs.2
      have hstep := h.left_step hfs.1
      have hnone : s.accepts e = [] := by
        cases e with
        | xQueueSend buff => exact hfs.1.elim
        | startTask7200 | readSerial => rfl
      rw [accepted_step, hnone, List.append_nil] at haccepted
      refine ⟨?_, haccepted⟩
      rw [Transition.exec_cons, List.length_cons]
      omega

/-- While something is left, a task has it to take. -/
theorem exists_takes {s : SerialLine} (h : s.left ≠ 0) : ∃ e, s.Takes e := by
  by_cases hqueue : s.send7200 = []
  · refine ⟨.readSerial, fun hline => h ?_⟩
    rw [left, hqueue, hline]
    rfl
  · exact ⟨.startTask7200, hqueue⟩

theorem eq_nil_of_left {s : SerialLine} (h : s.left = 0) : s.send7200 = [] ∧ s.line = [] := by
  have hsize : serialBuffSize + 2 = 52 := rfl
  rw [left, hsize] at h
  exact ⟨List.eq_nil_of_length_eq_zero (by omega), List.eq_nil_of_length_eq_zero (by omega)⟩

/-! ## What is read -/

theorem Followed.read {s : SerialLine} (h : Followed s) :
    s.read <+: s.accepted.map readSerialBuffer ∧
      (s.send7200 = [] → s.line = [] → s.read = s.accepted.map readSerialBuffer) ∧
      (s.reader = .hunting → ∃ rest, s.line = rest.flatMap (frame marker) ∧
        s.read ++ rest <+: s.accepted.map readSerialBuffer) := by
  obtain ⟨sent, waiting, seen, haccepted, hqueue, hline, hread⟩ := h.stream
  have hlen : ∀ payload ∈ sent.map readSerialBuffer, payload.length = serialBuffSize := by
    intro payload hpayload
    obtain ⟨buff, -, rfl⟩ := List.mem_map.mp hpayload
    exact length_readSerialBuffer buff
  obtain ⟨done, todo, hsplit, hdone, hhunt, hall⟩ := recvs_of_prefix hlen hline
  rw [hread] at hdone hhunt hall
  have hmap : s.accepted.map readSerialBuffer = done ++ todo ++ waiting.map readSerialBuffer := by
    rw [haccepted, List.map_append, hsplit]
  change s.read = done at hdone
  rw [hmap, hdone]
  refine ⟨⟨todo ++ waiting.map readSerialBuffer, (List.append_assoc _ _ _).symm⟩, ?_, ?_⟩
  · intro hempty hsilent
    have hwaiting : waiting = [] := List.map_eq_nil_iff.mp (hqueue.symm.trans hempty)
    rw [(hall hsilent).1, hwaiting]
    simp
  · intro hhunting
    exact ⟨todo, hhunt hhunting, ⟨waiting.map readSerialBuffer, rfl⟩⟩

/-- In every run the reader gets the messages that the queue has taken, in their order, each in
a buffer that is zero behind it; whenever it hunts, the bytes under way begin with the marker
of the next frame. From every state that is reached, the two tasks come to an end in any order
of their turns, after a number of them that is known, and then it has them all. -/
theorem serialRecv_frames (old : ℕ → UCHAR) (es : List LineEvent) :
    let s := Transition.exec step (start old) es
    let accepted := Transition.reports step accepts (start old) es
    s.read <+: accepted.map readSerialBuffer ∧
      (s.send7200 = [] → s.line = [] → s.read = accepted.map readSerialBuffer) ∧
      (s.reader = .hunting → ∃ rest, s.line = rest.flatMap (frame marker) ∧
        s.read ++ rest <+: accepted.map readSerialBuffer) ∧
      ∀ fs, Transition.Meets step Takes s fs →
        fs.length ≤ s.left ∧
        (fs.length < s.left → ∃ e, (Transition.exec step s fs).Takes e) ∧
        (fs.length = s.left →
          (Transition.exec step s fs).read = accepted.map readSerialBuffer) := by
  intro s accepted
  have hs : Followed s := Transition.inv_exec (fun _ e h => h.step e) es (followed_start old)
  have haccepted : s.accepted = accepted := accepted_exec (start old) es
  rw [← haccepted]
  obtain ⟨hfront, hcomplete, hhunting⟩ := hs.read
  refine ⟨hfront, hcomplete, hhunting, fun fs hfs => ?_⟩
  obtain ⟨hleft, hsame⟩ := hs.left_exec hfs
  refine ⟨by omega, fun hlt => exists_takes (by omega), fun hall => ?_⟩
  have hend : Followed (Transition.exec step s fs) :=
    Transition.inv_exec (fun _ e h => h.step e) fs hs
  obtain ⟨hqueue, hline⟩ := eq_nil_of_left (s := Transition.exec step s fs) (by omega)
  rw [hend.read.2.1 hqueue hline, hsame]

/-- A message of eight markers is read as it was sent. -/
theorem serialRecv_frames_markers :
    (Transition.exec step (start fun _ => 0)
      (.xQueueSend (fun _ => marker) :: .startTask7200 :: List.replicate 51 .readSerial)).read =
        [List.replicate 8 marker ++ List.replicate 42 0] :=
  ((serialRecv_frames (fun _ => 0) [.xQueueSend fun _ => marker]).2.2.2
    (.startTask7200 :: List.replicate 51 .readSerial) (by decide +kernel)).2.2 (by decide)

end SerialLine

/-! ## From anywhere -/

/-- The reader that began to hunt at byte `o` of the first frame hunts again at the
beginning of frame `n`, and reads that frame. -/
structure ReceivedWhole (frames : ℕ → List UCHAR) (o n : ℕ) : Prop where
  onBoundary : OnBoundary marker serialBuffSize frames o n
  received : recvs marker serialBuffSize
      (recvs marker serialBuffSize .hunting (stream marker frames o n)).1
      (frame marker (frames n)) = (.hunting, [frames n])

theorem receivedWhole_iff {frames : ℕ → List UCHAR}
    (hlen : ∀ i, (frames i).length = serialBuffSize) {o n : ℕ} :
    ReceivedWhole frames o n ↔ OnBoundary marker serialBuffSize frames o n := by
  constructor
  · intro h
    exact h.onBoundary
  · intro h
    refine ⟨h, ?_⟩
    rw [h, recvs_frame (hlen n)]

/-- Every frame from `n` on is received on its own boundaries. -/
def Synchronised (frames : ℕ → List UCHAR) (o n : ℕ) : Prop :=
  ∀ k, n ≤ k → ReceivedWhole frames o k

/-- The reader that begins to hunt at byte `o` of a frame is on the boundaries from frame
`n` on exactly when it began on one, or one of the frames before holds no marker from the
byte on at which the hunt is in it. Frames without any marker therefore suffice, one among
the first `n`. -/
theorem synchronised_iff (frames : ℕ → List UCHAR)
    (hlen : ∀ i, (frames i).length = serialBuffSize) (o : ℕ) (ho : o ≤ serialBuffSize) (n : ℕ) :
    (Synchronised frames o (n + 1) ↔ o = 0 ∨ ∃ i < n + 1,
      marker ∉ (frames i).drop (huntOffset marker serialBuffSize frames o i - 1)) ∧
    ((∃ i < n + 1, marker ∉ frames i) → Synchronised frames o (n + 1)) := by
  have hzero (k : ℕ) : huntOffset marker serialBuffSize frames o k = 0 ↔ o = 0 ∨ ∃ i < k,
      marker ∉ (frames i).drop (huntOffset marker serialBuffSize frames o i - 1) :=
    huntOffset_eq_zero_iff hlen o k
  have hiff : Synchronised frames o (n + 1) ↔ o = 0 ∨ ∃ i < n + 1,
      marker ∉ (frames i).drop (huntOffset marker serialBuffSize frames o i - 1) := by
    constructor
    · intro h
      exact (hzero (n + 1)).mp ((onBoundary_iff hlen ho n).mp (h (n + 1) le_rfl).onBoundary)
    · intro h k hk
      obtain ⟨m, rfl⟩ := Nat.exists_eq_add_of_le hk
      have hlater : o = 0 ∨ ∃ i < n + 1 + m,
          marker ∉ (frames i).drop (huntOffset marker serialBuffSize frames o i - 1) := by
        rcases h with h | ⟨i, hi, h⟩
        · exact .inl h
        · exact .inr ⟨i, by omega, h⟩
      rw [Nat.add_right_comm]
      rw [Nat.add_right_comm] at hlater
      exact (receivedWhole_iff hlen).mpr
        ((onBoundary_iff hlen ho (n + m)).mpr ((hzero _).mpr hlater))
  refine ⟨hiff, ?_⟩
  rintro ⟨i, hi, h⟩
  exact hiff.mpr (.inr ⟨i, hi, fun hmem => h (List.mem_of_mem_drop hmem)⟩)

/-- A frame of a key carries no marker behind its first byte. -/
theorem synchronised_keyFrames :
    Synchronised (fun _ => readSerialBuffer fun _ => KeyType.kp1.toByte) 1 1 :=
  (synchronised_iff (fun _ => readSerialBuffer fun _ => KeyType.kp1.toByte)
    (fun _ => length_readSerialBuffer _) 1 (by decide) 0).2 ⟨0, by decide, by decide⟩

/-- The frame `Callback01` sends at 31.1 F. -/
def freezingFrame : List UCHAR :=
  CmdType.engineTemp.toByte :: 0x01 :: 0xFF :: List.replicate 47 0x00

/-- A reader that begins in the middle of such frames stays there. -/
theorem not_synchronised_freezingFrame :
    ¬ ∀ frames : ℕ → List UCHAR, (∀ i, (frames i).length = serialBuffSize) →
      ∀ o ≤ serialBuffSize, ∃ n, Synchronised frames o n := by
  intro h
  have hlen : ∀ _ : ℕ, freezingFrame.length = serialBuffSize := fun _ => by decide
  obtain ⟨n, hn⟩ := h (fun _ => freezingFrame) hlen 1 (by decide)
  have hoffset (k : ℕ) :
      huntOffset marker serialBuffSize (fun _ => freezingFrame) 1 (k + 1) = 3 := by
    induction k with
    | zero => decide
    | succ k ih =>
        rw [huntOffset, ih]
        decide
  have hback := (onBoundary_iff hlen (by decide) n).mp (hn (n + 1) (Nat.le_succ n)).onBoundary
  rw [hoffset n] at hback
  exact absurd hback (by decide)

end TruckControl
