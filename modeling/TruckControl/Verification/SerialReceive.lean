import Mathlib.Tactic.SplitIfs
import TruckControl.Model.SerialReceive

/-!
# Commands from the server

The buffer is looked at without knowing whether a frame is complete, and the next receive is
armed before a command is processed. Commands are processed as they were sent if none begins
while another one waits or is processed, and none is looked at before its bytes are there.
-/

namespace TruckControl

theorem SendSerial.length_bytes (frame : SendSerial) :
    frame.bytes.length = serialBuffSize + 1 := by
  simp [bytes, writes]

/-- A frame and the buffer it is read into. -/
theorem SendSerial.getElem?_bytes (frame : SendSerial) {i : ℕ} (hi : i < serialBuffSize + 1) :
    frame.bytes[i]? = some (frame.buff i) := by
  cases i with
  | zero => rfl
  | succ i =>
      have hi' : i < serialBuffSize := Nat.lt_of_succ_lt_succ hi
      simp [bytes, writes, buff, hi']

namespace SerialReceive

/-- What a command does depends on the bytes it reads only. -/
theorem startRecv7200_eq_of_reads {f g : SendSerial} (hcmd : f.cmd = g.cmd)
    (hreads : ∀ i ∈ reads f.cmd, f.buff i = g.buff i) (s : Stm32) :
    s.startRecv7200 f = s.startRecv7200 g := by
  rw [Stm32.startRecv7200, Stm32.startRecv7200, ← hcmd]
  refine if_congr Iff.rfl ?_ rfl
  rw [reads] at hreads
  split at hreads <;> rename_i hcase
  case h_1 | h_2 | h_3 =>
    simp only [List.forall_mem_cons] at hreads
    simp only [hcase, hreads]
  all_goals grind

/-- The commands that are to be processed, with their bytes as they were sent. -/
def commands (frames : List SendSerial) : List (UCHAR × List UCHAR) :=
  (frames.filter fun frame => Stm32.Accepts frame.cmd).map fun frame =>
    (frame.cmd, (reads frame.cmd).map frame.buff)

/-- What may be stored at `buff[got]`: nothing over a command that waits, no command over one
that is processed, and no other byte over one that is still to be read. -/
def KeepsByte (all : List UCHAR) (s : SerialReceive) (b : UCHAR) (got : ℕ) : Recv7200Point → Prop
  | .waiting | .armed => got = 0 → Stm32.Accepts (s.buff 0) → s.line = all
  | .processing _ todo _ =>
      (got = 0 → ¬ Stm32.Accepts b) ∧ (got ∈ todo → ¬ Stm32.Accepts (s.buff 0) → b = s.buff got)

/-- There is no command before the first byte, and one that is only partly there is read
where it is there, or where its bytes are in the buffer anyway. -/
def KeepsTurn (all : List UCHAR) (s : SerialReceive) : Recv7200Point → Prop
  | .waiting | .processing _ [] _ => True
  | .armed => s.line = all → ¬ Stm32.Accepts (s.buff 0)
  | .processing _ (i :: _) _ =>
      ∀ got ∈ s.receiving, 0 < got → got ≤ i → Stm32.Accepts (s.buff 0) →
        s.line[i - got]? = some (s.buff i)

/-- No byte is lost and no command is overwritten, nor looked at too early. -/
def KeepsFrames (frames : List SendSerial) (s : SerialReceive) : ReceiveEvent → Prop
  | .arrive =>
      ∀ b ∈ s.line.head?, ∃ got ∈ s.receiving,
        s.KeepsByte (frames.flatMap SendSerial.bytes) b got s.point
  | .turn => s.KeepsTurn (frames.flatMap SendSerial.bytes) s.point

instance (all : List UCHAR) (s : SerialReceive) (b : UCHAR) (got : ℕ) :
    DecidablePred (KeepsByte all s b got)
  | .waiting | .armed => inferInstanceAs (Decidable (_ → _ → _))
  | .processing _ _ _ => inferInstanceAs (Decidable (_ ∧ _))

instance (all : List UCHAR) (s : SerialReceive) : DecidablePred (KeepsTurn all s)
  | .waiting | .processing _ [] _ => .isTrue trivial
  | .armed => inferInstanceAs (Decidable (_ → _))
  | .processing _ (_ :: _) _ => inferInstanceAs (Decidable (∀ got ∈ s.receiving, _))

instance (frames : List SendSerial) (s : SerialReceive) : DecidablePred (KeepsFrames frames s)
  | .arrive => inferInstanceAs (Decidable (∀ b ∈ s.line.head?, _))
  | .turn => inferInstanceAs (Decidable (KeepsTurn _ _ _))

/-! ## Where the bytes are -/

/-- Between two frames, with a receive armed or not. -/
structure Between (frames done todo : List SendSerial) (s : SerialReceive) : Prop where
  frames_eq : frames = done ++ todo
  line_eq : s.line = todo.flatMap SendSerial.bytes
  receiving_eq : s.receiving = none ∨ s.receiving = some 0

/-- The receive has got a part of a frame, or has just got all of it. -/
structure Within (frames done : List SendSerial) (frame : SendSerial) (todo : List SendSerial)
    (got : ℕ) (s : SerialReceive) : Prop where
  frames_eq : frames = done ++ [frame] ++ todo
  line_eq : s.line = frame.bytes.drop got ++ todo.flatMap SendSerial.bytes
  pos : 0 < got
  receiving_eq : s.receiving = some got ∧ got < serialBuffSize + 1 ∨
    s.receiving = none ∧ got = serialBuffSize + 1

/-- A command is processed; `todo` is what it has still to read. -/
structure Processing (done : List SendSerial) (frame : SendSerial) (todo : List ℕ)
    (s : SerialReceive) (params : List UCHAR) : Prop where
  point_eq : s.point = .processing frame.cmd todo params
  accepts : Stm32.Accepts frame.cmd
  reads_eq : (reads frame.cmd).map frame.buff = params ++ todo.map frame.buff
  mem_todo : ∀ i ∈ todo, 0 < i ∧ i < serialBuffSize + 1
  processed_eq : s.processed = commands done

/-- The task looks at the buffer next. -/
def Idle (s : SerialReceive) : Prop := s.point = .waiting ∨ s.point = .armed

/-- How far the task is with the frames. -/
inductive Follows (frames : List SendSerial) (s : SerialReceive) : Prop where
  /-- Nothing is there that is still to be processed. -/
  | clear (done todo : List SendSerial) (hat : Between frames done todo s) (hidle : s.Idle)
      (hbuff : done ≠ [] → ¬ Stm32.Accepts (s.buff 0)) (hprocessed : s.processed = commands done)
  /-- A frame is there up to some byte. -/
  | reading (done : List SendSerial) (frame : SendSerial) (todo : List SendSerial) (got : ℕ)
      (hat : Within frames done frame todo got s) (hidle : s.Idle)
      (hbuff : ∀ i < got, s.buff i = frame.buff i) (hprocessed : s.processed = commands done)
  /-- A whole command is looked at next. -/
  | whole (done : List SendSerial) (frame : SendSerial) (todo : List SendSerial)
      (hat : Between frames (done ++ [frame]) todo s) (hidle : s.point = .armed)
      (haccepts : Stm32.Accepts frame.cmd)
      (hbuff : ∀ i < serialBuffSize + 1, s.buff i = frame.buff i)
      (hprocessed : s.processed = commands done)
  /-- The rest of a frame arrives for which nothing is to be done any more. -/
  | early (done : List SendSerial) (frame : SendSerial) (todo : List SendSerial) (got : ℕ)
      (hat : Within frames done frame todo got s) (hidle : s.Idle)
      (hbuff : ¬ Stm32.Accepts (s.buff 0)) (hprocessed : s.processed = commands (done ++ [frame]))
  /-- A whole command is processed. -/
  | processing (done : List SendSerial) (frame : SendSerial) (todo : List SendSerial)
      (rest : List ℕ) (params : List UCHAR) (hat : Between frames (done ++ [frame]) todo s)
      (hin : Processing done frame rest s params) (hbuff : ∀ i ∈ rest, s.buff i = frame.buff i)
  /-- A command is processed while it still arrives. -/
  | partly (done : List SendSerial) (frame : SendSerial) (todo : List SendSerial) (got : ℕ)
      (rest : List ℕ) (params : List UCHAR) (hat : Within frames done frame todo got s)
      (hin : Processing done frame rest s params) (hbuff : ∀ i < got, s.buff i = frame.buff i)
  /-- A command is processed while a frame arrives that is none. -/
  | overtaken (done : List SendSerial) (frame next : SendSerial) (todo : List SendSerial)
      (got : ℕ) (rest : List ℕ) (params : List UCHAR)
      (hat : Within frames (done ++ [frame]) next todo got s)
      (hin : Processing done frame rest s params) (hnext : ¬ Stm32.Accepts next.cmd)
      (hzero : ¬ Stm32.Accepts (s.buff 0)) (hbuff : ∀ i ∈ rest, s.buff i = frame.buff i)

variable {frames : List SendSerial} {s : SerialReceive}

theorem commands_append (fs gs : List SendSerial) :
    commands (fs ++ gs) = commands fs ++ commands gs := by
  rw [commands, commands, commands, List.filter_append, List.map_append]

theorem commands_concat_of_accepts (fs : List SendSerial) {frame : SendSerial}
    (h : Stm32.Accepts frame.cmd) :
    commands (fs ++ [frame]) = commands fs ++ [(frame.cmd, (reads frame.cmd).map frame.buff)] := by
  rw [commands_append]
  simp [commands, h]

theorem commands_concat_of_not_accepts (fs : List SendSerial) {frame : SendSerial}
    (h : ¬ Stm32.Accepts frame.cmd) : commands (fs ++ [frame]) = commands fs := by
  rw [commands_append]
  simp [commands, h]

theorem not_accepts_zero : ¬ Stm32.Accepts 0 := by decide

/-- All that is read is in the frame, behind its command. -/
theorem mem_reads (cmd : UCHAR) : ∀ i ∈ reads cmd, 0 < i ∧ i < serialBuffSize + 1 := by
  rw [reads]
  split <;> decide

theorem length_reads_le (cmd : UCHAR) : (reads cmd).length ≤ 20 := by
  rw [reads]
  split <;> decide

/-! ## Arrivals -/

/-- What a byte that is not lost does. -/
theorem arrive_cons {b : UCHAR} {line : List UCHAR} {got : ℕ} (hline : s.line = b :: line)
    (hreceiving : s.receiving = some got) :
    s.arrive =
      { s with
        line := line
        buff := Function.update s.buff got b
        receiving := if got + 1 < serialBuffSize + 1 then some (got + 1) else none } := by
  simp only [arrive, hline, hreceiving]

theorem buff_arrive {b : UCHAR} {line : List UCHAR} {got : ℕ} (hline : s.line = b :: line)
    (hreceiving : s.receiving = some got) :
    s.arrive.buff = Function.update s.buff got b := by
  rw [arrive_cons hline hreceiving]

@[simp] theorem point_arrive (s : SerialReceive) : s.arrive.point = s.point := by
  rw [arrive]
  split
  · rfl
  · split <;> rfl

@[simp] theorem processed_arrive (s : SerialReceive) : s.arrive.processed = s.processed := by
  rw [arrive]
  split
  · rfl
  · split <;> rfl

theorem Idle.arrive (h : s.Idle) : s.arrive.Idle := by
  rw [Idle, point_arrive]
  exact h

theorem Processing.arrive {done : List SendSerial} {frame : SendSerial} {todo : List ℕ}
    {params : List UCHAR} (h : Processing done frame todo s params) :
    Processing done frame todo s.arrive params where
  point_eq := (point_arrive s).trans h.point_eq
  accepts := h.accepts
  reads_eq := h.reads_eq
  mem_todo := h.mem_todo
  processed_eq := (processed_arrive s).trans h.processed_eq

/-- The next byte of a frame. -/
theorem next_byte {frame : SendSerial} {rest line : List UCHAR} {got : ℕ} {b : UCHAR}
    (hgot : got < serialBuffSize + 1) (h : frame.bytes.drop got ++ rest = b :: line) :
    b = frame.buff got ∧ line = frame.bytes.drop (got + 1) ++ rest := by
  have hlength : got < frame.bytes.length := by rw [frame.length_bytes]; exact hgot
  rw [List.drop_eq_getElem_cons hlength, List.cons_append, List.cons.injEq] at h
  have hb := frame.getElem?_bytes hgot
  rw [List.getElem?_eq_getElem hlength, Option.some.injEq] at hb
  exact ⟨by rw [← h.1, hb], h.2.symm⟩

/-- The receive after a byte. -/
theorem receiving_next {got : ℕ} (hgot : got < serialBuffSize + 1) :
    (if got + 1 < serialBuffSize + 1 then some (got + 1) else none) = some (got + 1) ∧
        got + 1 < serialBuffSize + 1 ∨
      (if got + 1 < serialBuffSize + 1 then some (got + 1) else none) = none ∧
        got + 1 = serialBuffSize + 1 := by
  by_cases hlast : got + 1 < serialBuffSize + 1
  · exact .inl ⟨if_pos hlast, hlast⟩
  · exact .inr ⟨if_neg hlast, by omega⟩

/-- The first byte of a frame. -/
theorem Between.arrive {done todo : List SendSerial} {b : UCHAR} {line : List UCHAR} {got : ℕ}
    (h : Between frames done todo s) (hline : s.line = b :: line)
    (hreceiving : s.receiving = some got) :
    got = 0 ∧ ∃ frame todo', todo = frame :: todo' ∧ b = frame.cmd ∧
      Within frames done frame todo' 1 s.arrive := by
  have hzero : got = 0 := by
    rcases h.receiving_eq with hnone | hsome
    · rw [hnone] at hreceiving
      cases hreceiving
    · exact Option.some.inj (hreceiving.symm.trans hsome)
  subst hzero
  cases todo with
  | nil =>
      have hnil := hline.symm.trans h.line_eq
      cases hnil
  | cons frame todo =>
      have hgot : 0 < serialBuffSize + 1 := Nat.succ_pos serialBuffSize
      obtain ⟨hb, hrest⟩ := next_byte hgot (h.line_eq.symm.trans hline)
      refine ⟨rfl, frame, todo, rfl, hb, ?_⟩
      rw [arrive_cons hline hreceiving]
      refine ⟨?_, hrest, Nat.one_pos, receiving_next hgot⟩
      rw [h.frames_eq, List.append_assoc]
      rfl

/-- A further byte of a frame. -/
theorem Within.arrive {done : List SendSerial} {frame : SendSerial} {todo : List SendSerial}
    {b : UCHAR} {line : List UCHAR} {got got' : ℕ} (h : Within frames done frame todo got s)
    (hline : s.line = b :: line) (hreceiving : s.receiving = some got') :
    got' = got ∧ b = frame.buff got ∧ Within frames done frame todo (got + 1) s.arrive := by
  rcases h.receiving_eq with ⟨hsome, hgot⟩ | ⟨hnone, -⟩
  · obtain rfl : got' = got := Option.some.inj (hreceiving.symm.trans hsome)
    obtain ⟨hb, hrest⟩ := next_byte hgot (h.line_eq.symm.trans hline)
    refine ⟨rfl, hb, ?_⟩
    rw [arrive_cons hline hreceiving]
    exact ⟨h.frames_eq, hrest, Nat.succ_pos _, receiving_next hgot⟩
  · rw [hnone] at hreceiving
    cases hreceiving

/-- One byte more of a frame is in the buffer. -/
theorem forall_lt_update {buff : ℕ → UCHAR} {frame : SendSerial} {got : ℕ} {b : UCHAR}
    (hbuff : ∀ i < got, buff i = frame.buff i) (hb : b = frame.buff got) :
    ∀ i < got + 1, Function.update buff got b i = frame.buff i := by
  intro i hi
  rcases Nat.lt_succ_iff_lt_or_eq.mp hi with hlt | rfl
  · rw [Function.update_of_ne (Nat.ne_of_lt hlt)]
    exact hbuff i hlt
  · rw [Function.update_self]
    exact hb

/-- While something was received, not everything is still to come. -/
theorem line_ne_all {done rest : List SendSerial} {frame : SendSerial}
    (hframes : frames = done ++ [frame] ++ rest) (hline : s.line = rest.flatMap SendSerial.bytes) :
    s.line ≠ frames.flatMap SendSerial.bytes := by
  intro hall
  have hlength := congrArg List.length (hline.symm.trans hall)
  rw [hframes, List.flatMap_append, List.flatMap_append, List.length_append, List.length_append]
    at hlength
  have hframe : ([frame].flatMap SendSerial.bytes).length = serialBuffSize + 1 := by
    rw [List.flatMap_singleton, frame.length_bytes]
  omega

theorem Follows.arrive (h : Follows frames s) (hs : KeepsFrames frames s .arrive) :
    Follows frames s.arrive := by
  cases hline : s.line with
  | nil =>
      have hsame : s.arrive = s := by rw [SerialReceive.arrive, hline]
      rw [hsame]
      exact h
  | cons b line =>
      obtain ⟨got', hreceiving, hkeeps⟩ := hs b (by rw [hline]; rfl)
      have hreceiving : s.receiving = some got' := hreceiving
      have hbuff' := buff_arrive hline hreceiving
      cases h with
      | clear done todo hat hidle hbuff hprocessed =>
          obtain ⟨rfl, frame, todo, rfl, hb, hat'⟩ := hat.arrive hline hreceiving
          refine .reading done frame todo 1 hat' hidle.arrive ?_
            ((processed_arrive s).trans hprocessed)
          rw [hbuff']
          exact forall_lt_update (fun _ hi => absurd hi (Nat.not_lt_zero _)) hb
      | reading done frame todo got hat hidle hbuff hprocessed =>
          obtain ⟨rfl, hb, hat'⟩ := hat.arrive hline hreceiving
          refine .reading done frame todo _ hat' hidle.arrive ?_
            ((processed_arrive s).trans hprocessed)
          rw [hbuff']
          exact forall_lt_update hbuff hb
      | whole done frame todo hat hidle haccepts hbuff hprocessed =>
          -- the command that waits would be overwritten
          obtain ⟨rfl, -⟩ := hat.arrive hline hreceiving
          rw [hidle] at hkeeps
          have hcmd : s.buff 0 = frame.cmd := hbuff 0 (Nat.succ_pos _)
          have hall := hkeeps rfl (hcmd ▸ haccepts)
          exact absurd hall (line_ne_all hat.frames_eq hat.line_eq)
      | early done frame todo got hat hidle hbuff hprocessed =>
          obtain ⟨rfl, -, hat'⟩ := hat.arrive hline hreceiving
          refine .early done frame todo _ hat' hidle.arrive ?_
            ((processed_arrive s).trans hprocessed)
          rw [hbuff', Function.update_of_ne (Nat.ne_of_lt hat.pos)]
          exact hbuff
      | processing done frame todo rest params hat hin hbuff =>
          obtain ⟨rfl, next, todo, rfl, hb, hat'⟩ := hat.arrive hline hreceiving
          rw [hin.point_eq] at hkeeps
          have hnext : ¬ Stm32.Accepts next.cmd := hb ▸ hkeeps.1 rfl
          refine .overtaken done frame next todo 1 rest params hat' hin.arrive hnext ?_ ?_
          · rw [hbuff', Function.update_self, hb]
            exact hnext
          · intro i hi
            rw [hbuff', Function.update_of_ne (Nat.ne_of_gt (hin.mem_todo i hi).1)]
            exact hbuff i hi
      | partly done frame todo got rest params hat hin hbuff =>
          obtain ⟨rfl, hb, hat'⟩ := hat.arrive hline hreceiving
          refine .partly done frame todo _ rest params hat' hin.arrive ?_
          rw [hbuff']
          exact forall_lt_update hbuff hb
      | overtaken done frame next todo got rest params hat hin hnext hzero hbuff =>
          obtain ⟨rfl, -, hat'⟩ := hat.arrive hline hreceiving
          rw [hin.point_eq] at hkeeps
          refine .overtaken done frame next todo _ rest params hat' hin.arrive hnext ?_ ?_
          · rw [hbuff', Function.update_of_ne (Nat.ne_of_lt hat.pos)]
            exact hzero
          · intro i hi
            rw [hbuff']
            by_cases hsame : i = got'
            · subst hsame
              rw [Function.update_self, hkeeps.2 hi hzero]
              exact hbuff i hi
            · rw [Function.update_of_ne hsame]
              exact hbuff i hi

/-! ## Turns -/

theorem receiveIT_eq (s : SerialReceive) :
    s.receiveIT = { s with receiving := some (s.receiving.getD 0) } := by
  obtain ⟨line, buff, receiving, point, processed⟩ := s
  cases receiving <;> rfl

theorem turn_waiting (h : s.point = .waiting) :
    s.turn = { s with receiving := some (s.receiving.getD 0), point := .armed } := by
  simp only [turn, h, receiveIT_eq]

theorem turn_armed_of_accepts (h : s.point = .armed) (haccepts : Stm32.Accepts (s.buff 0)) :
    s.turn = { s with point := .processing (s.buff 0) (reads (s.buff 0)) [] } := by
  simp only [turn, h]
  exact if_pos haccepts

theorem turn_armed_of_not_accepts (h : s.point = .armed) (haccepts : ¬ Stm32.Accepts (s.buff 0)) :
    s.turn = { s with point := .waiting } := by
  simp only [turn, h]
  exact if_neg haccepts

theorem turn_read {cmd : UCHAR} {i : ℕ} {todo : List ℕ} {params : List UCHAR}
    (h : s.point = .processing cmd (i :: todo) params) :
    s.turn = { s with point := .processing cmd todo (params ++ [s.buff i]) } := by
  simp only [turn, h]

theorem turn_memset {cmd : UCHAR} {params : List UCHAR} (h : s.point = .processing cmd [] params) :
    s.turn =
      { s with
        point := .waiting
        processed := s.processed ++ [(cmd, params)]
        buff := fun i => if i < serialBuffSize then 0 else s.buff i } := by
  simp only [turn, h]

/-- Between two frames there is a receive armed from the next turn on. -/
theorem Between.turn_waiting {done todo : List SendSerial} (h : Between frames done todo s)
    (hpoint : s.point = .waiting) : Between frames done todo s.turn := by
  have hzero : s.receiving.getD 0 = 0 := by
    rcases h.receiving_eq with hrec | hrec <;> rw [hrec] <;> rfl
  rw [SerialReceive.turn_waiting hpoint, hzero]
  exact ⟨h.frames_eq, h.line_eq, .inr rfl⟩

/-- The turn goes on with the receive of a frame that is not all there, and starts one behind
a frame that is. -/
theorem Within.turn_waiting {done : List SendSerial} {frame : SendSerial}
    {todo : List SendSerial} {got : ℕ} (h : Within frames done frame todo got s)
    (hpoint : s.point = .waiting) :
    Within frames done frame todo got s.turn ∨
      Between frames (done ++ [frame]) todo s.turn ∧ got = serialBuffSize + 1 := by
  rw [SerialReceive.turn_waiting hpoint]
  rcases h.receiving_eq with ⟨hsome, hgot⟩ | ⟨hnone, rfl⟩
  · left
    exact ⟨h.frames_eq, h.line_eq, h.pos, .inl ⟨by simp [hsome], hgot⟩⟩
  · right
    refine ⟨⟨h.frames_eq, ?_, .inr (by simp [hnone])⟩, rfl⟩
    have hline := h.line_eq
    rw [List.drop_of_length_le (Nat.le_of_eq frame.length_bytes), List.nil_append] at hline
    exact hline

/-- Only arrivals and the arming of a receive change where the bytes are. -/
theorem Between.congr {t : SerialReceive} {done todo : List SendSerial}
    (h : Between frames done todo s) (hline : t.line = s.line)
    (hreceiving : t.receiving = s.receiving) : Between frames done todo t :=
  ⟨h.frames_eq, hline.trans h.line_eq, hreceiving ▸ h.receiving_eq⟩

theorem Within.congr {t : SerialReceive} {done : List SendSerial} {frame : SendSerial}
    {todo : List SendSerial} {got : ℕ} (h : Within frames done frame todo got s)
    (hline : t.line = s.line) (hreceiving : t.receiving = s.receiving) :
    Within frames done frame todo got t :=
  ⟨h.frames_eq, hline.trans h.line_eq, h.pos, hreceiving ▸ h.receiving_eq⟩

/-- The `switch` has read a byte of the command. -/
theorem Processing.read {done : List SendSerial} {frame : SendSerial} {i : ℕ} {todo : List ℕ}
    {params : List UCHAR} (h : Processing done frame (i :: todo) s params)
    (hbyte : s.buff i = frame.buff i) :
    Processing done frame todo s.turn (params ++ [s.buff i]) := by
  rw [turn_read h.point_eq]
  refine ⟨rfl, h.accepts, ?_, fun j hj => h.mem_todo j (List.mem_cons_of_mem i hj), h.processed_eq⟩
  rw [h.reads_eq, hbyte, List.map_cons, List.append_assoc]
  rfl

/-- The `switch` has read all bytes of the command. -/
theorem Processing.processed_memset {done : List SendSerial} {frame : SendSerial}
    {params : List UCHAR} (h : Processing done frame [] s params) :
    s.turn.processed = commands (done ++ [frame]) := by
  have hparams := h.reads_eq
  rw [List.map_nil, List.append_nil] at hparams
  rw [turn_memset h.point_eq, commands_concat_of_accepts done h.accepts, hparams, ← h.processed_eq]

/-- A command is looked at. -/
theorem processing_reads {done : List SendSerial} {frame : SendSerial} (hpoint : s.point = .armed)
    (hcmd : s.buff 0 = frame.cmd) (haccepts : Stm32.Accepts frame.cmd)
    (hprocessed : s.processed = commands done) :
    Processing done frame (reads frame.cmd) s.turn [] := by
  rw [turn_armed_of_accepts hpoint (hcmd ▸ haccepts), hcmd]
  exact ⟨rfl, haccepts, rfl, mem_reads frame.cmd, hprocessed⟩

theorem Follows.turn_clear {done todo : List SendSerial} (hat : Between frames done todo s)
    (hidle : s.Idle) (hbuff : done ≠ [] → ¬ Stm32.Accepts (s.buff 0))
    (hprocessed : s.processed = commands done) (hs : KeepsFrames frames s .turn) :
    Follows frames s.turn := by
  rcases hidle with hpoint | hpoint
  · refine .clear done todo (hat.turn_waiting hpoint) ?_ ?_ ?_ <;> rw [turn_waiting hpoint]
    · exact .inr rfl
    · exact hbuff
    · exact hprocessed
  · have hno : ¬ Stm32.Accepts (s.buff 0) := by
      by_cases hdone : done = []
      · rw [KeepsFrames, hpoint] at hs
        apply hs
        rw [hat.line_eq, hat.frames_eq, hdone, List.nil_append]
      · exact hbuff hdone
    rw [turn_armed_of_not_accepts hpoint hno]
    exact .clear done todo (hat.congr rfl rfl) (.inl rfl) hbuff hprocessed

theorem Follows.turn_reading {done : List SendSerial} {frame : SendSerial}
    {todo : List SendSerial} {got : ℕ} (hat : Within frames done frame todo got s)
    (hidle : s.Idle) (hbuff : ∀ i < got, s.buff i = frame.buff i)
    (hprocessed : s.processed = commands done) : Follows frames s.turn := by
  have hcmd : s.buff 0 = frame.cmd := hbuff 0 hat.pos
  rcases hidle with hpoint | hpoint
  · rcases hat.turn_waiting hpoint with hat' | ⟨hat', rfl⟩
    · refine .reading done frame todo got hat' ?_ ?_ ?_ <;> rw [turn_waiting hpoint]
      · exact .inr rfl
      · exact hbuff
      · exact hprocessed
    · by_cases haccepts : Stm32.Accepts frame.cmd
      · refine .whole done frame todo hat' ?_ haccepts ?_ ?_ <;> rw [turn_waiting hpoint]
        · exact hbuff
        · exact hprocessed
      · refine .clear (done ++ [frame]) todo hat' ?_ ?_ ?_ <;> rw [turn_waiting hpoint]
        · exact .inr rfl
        · exact fun _ => hcmd ▸ haccepts
        · exact hprocessed.trans (commands_concat_of_not_accepts done haccepts).symm
  · by_cases haccepts : Stm32.Accepts frame.cmd
    · have hin := processing_reads hpoint hcmd haccepts hprocessed
      refine .partly done frame todo got _ [] ?_ hin ?_ <;>
        rw [turn_armed_of_accepts hpoint (hcmd ▸ haccepts)]
      · exact hat.congr rfl rfl
      · exact hbuff
    · rw [turn_armed_of_not_accepts hpoint (hcmd ▸ haccepts)]
      exact .reading done frame todo got (hat.congr rfl rfl) (.inl rfl) hbuff hprocessed

theorem Follows.turn_early {done : List SendSerial} {frame : SendSerial}
    {todo : List SendSerial} {got : ℕ} (hat : Within frames done frame todo got s)
    (hidle : s.Idle) (hbuff : ¬ Stm32.Accepts (s.buff 0))
    (hprocessed : s.processed = commands (done ++ [frame])) : Follows frames s.turn := by
  rcases hidle with hpoint | hpoint
  · rcases hat.turn_waiting hpoint with hat' | ⟨hat', rfl⟩
    · refine .early done frame todo got hat' ?_ ?_ ?_ <;> rw [turn_waiting hpoint]
      · exact .inr rfl
      · exact hbuff
      · exact hprocessed
    · refine .clear (done ++ [frame]) todo hat' ?_ ?_ ?_ <;> rw [turn_waiting hpoint]
      · exact .inr rfl
      · exact fun _ => hbuff
      · exact hprocessed
  · rw [turn_armed_of_not_accepts hpoint hbuff]
    exact .early done frame todo got (hat.congr rfl rfl) (.inl rfl) hbuff hprocessed

/-- A byte of a command that is only partly there. -/
theorem Within.byte_of_keepsTurn {done : List SendSerial} {frame : SendSerial}
    {todo : List SendSerial} {got i : ℕ} {rest : List ℕ} {params : List UCHAR}
    (hat : Within frames done frame todo got s)
    (hin : Processing done frame (i :: rest) s params)
    (hbuff : ∀ i < got, s.buff i = frame.buff i) (hs : KeepsFrames frames s .turn) :
    s.buff i = frame.buff i := by
  by_cases hi : i < got
  · exact hbuff i hi
  · obtain ⟨-, hlast⟩ := hin.mem_todo i List.mem_cons_self
    have hgot : got ≤ i := Nat.le_of_not_lt hi
    have hreceiving : s.receiving = some got := by
      rcases hat.receiving_eq with ⟨hsome, -⟩ | ⟨-, hall⟩
      · exact hsome
      · omega
    have hcmd : s.buff 0 = frame.cmd := hbuff 0 hat.pos
    rw [KeepsFrames, hin.point_eq] at hs
    have hbyte := hs got hreceiving hat.pos hgot (hcmd ▸ hin.accepts)
    -- the byte is still on the line, in its place in the frame
    have hlength : i - got < (frame.bytes.drop got).length := by
      rw [List.length_drop, frame.length_bytes]
      omega
    rw [hat.line_eq, List.getElem?_append_left hlength, List.getElem?_drop,
      Nat.add_sub_cancel' hgot, frame.getElem?_bytes hlast] at hbyte
    exact (Option.some.inj hbyte).symm

theorem Follows.turn (h : Follows frames s) (hs : KeepsFrames frames s .turn) :
    Follows frames s.turn := by
  cases h with
  | clear done todo hat hidle hbuff hprocessed =>
      exact turn_clear hat hidle hbuff hprocessed hs
  | reading done frame todo got hat hidle hbuff hprocessed =>
      exact turn_reading hat hidle hbuff hprocessed
  | whole done frame todo hat hpoint haccepts hbuff hprocessed =>
      have hcmd : s.buff 0 = frame.cmd := hbuff 0 (Nat.succ_pos _)
      have hin := processing_reads hpoint hcmd haccepts hprocessed
      refine .processing done frame todo _ [] ?_ hin ?_ <;>
        rw [turn_armed_of_accepts hpoint (hcmd ▸ haccepts)]
      · exact hat.congr rfl rfl
      · exact fun i hi => hbuff i (mem_reads frame.cmd i hi).2
  | early done frame todo got hat hidle hbuff hprocessed =>
      exact turn_early hat hidle hbuff hprocessed
  | processing done frame todo rest params hat hin hbuff =>
      cases rest with
      | nil =>
          have hprocessed := hin.processed_memset
          rw [turn_memset hin.point_eq] at hprocessed ⊢
          exact .clear (done ++ [frame]) todo (hat.congr rfl rfl) (.inl rfl)
            (fun _ => not_accepts_zero) hprocessed
      | cons i rest =>
          obtain ⟨hbyte, hrest⟩ := List.forall_mem_cons.mp hbuff
          refine .processing done frame todo rest _ ?_ (hin.read hbyte) ?_ <;>
            rw [turn_read hin.point_eq]
          · exact hat.congr rfl rfl
          · exact hrest
  | partly done frame todo got rest params hat hin hbuff =>
      cases rest with
      | nil =>
          have hprocessed := hin.processed_memset
          rw [turn_memset hin.point_eq] at hprocessed ⊢
          exact .early done frame todo got (hat.congr rfl rfl) (.inl rfl)
            not_accepts_zero hprocessed
      | cons i rest =>
          have hbyte := hat.byte_of_keepsTurn hin hbuff hs
          refine .partly done frame todo got rest _ ?_ (hin.read hbyte) ?_ <;>
            rw [turn_read hin.point_eq]
          · exact hat.congr rfl rfl
          · exact hbuff
  | overtaken done frame next todo got rest params hat hin hnext hzero hbuff =>
      cases rest with
      | nil =>
          have hprocessed := hin.processed_memset
          rw [← commands_concat_of_not_accepts (done ++ [frame]) hnext] at hprocessed
          rw [turn_memset hin.point_eq] at hprocessed ⊢
          exact .early (done ++ [frame]) next todo got (hat.congr rfl rfl) (.inl rfl)
            not_accepts_zero hprocessed
      | cons i rest =>
          obtain ⟨hbyte, hrest⟩ := List.forall_mem_cons.mp hbuff
          refine .overtaken done frame next todo got rest _ ?_ (hin.read hbyte) hnext ?_ ?_ <;>
            rw [turn_read hin.point_eq]
          · exact hat.congr rfl rfl
          · exact hzero
          · exact hrest

/-! ## Runs -/

theorem Follows.step (h : Follows frames s) {e : ReceiveEvent} (he : KeepsFrames frames s e) :
    Follows frames (s.step e) := by
  cases e with
  | arrive => exact h.arrive he
  | turn => exact h.turn he

theorem follows_start (frames : List SendSerial) (buff : ℕ → UCHAR) :
    Follows frames (start frames buff) :=
  .clear [] frames ⟨rfl, rfl, .inl rfl⟩ (.inl rfl) (fun h => absurd rfl h) rfl

/-- Whatever is done is done with the first frames. -/
theorem Follows.processed_prefix (h : Follows frames s) : s.processed <+: commands frames := by
  have hfirst (done rest : List SendSerial) (hframes : frames = done ++ rest)
      (hprocessed : s.processed = commands done) : s.processed <+: commands frames := by
    rw [hprocessed, hframes, commands_append]
    exact List.prefix_append _ _
  cases h with
  | clear done todo hat hidle hbuff hprocessed => exact hfirst _ _ hat.frames_eq hprocessed
  | whole done frame todo hat hidle haccepts hbuff hprocessed =>
      exact hfirst _ _ (hat.frames_eq.trans (List.append_assoc _ _ _)) hprocessed
  | reading done frame todo got hat hidle hbuff hprocessed =>
      exact hfirst _ _ (hat.frames_eq.trans (List.append_assoc _ _ _)) hprocessed
  | early done frame todo got hat hidle hbuff hprocessed =>
      exact hfirst _ _ hat.frames_eq hprocessed
  | processing done frame todo rest params hat hin =>
      exact hfirst _ _ (hat.frames_eq.trans (List.append_assoc _ _ _)) hin.processed_eq
  | partly done frame todo got rest params hat hin =>
      exact hfirst _ _ (hat.frames_eq.trans (List.append_assoc _ _ _)) hin.processed_eq
  | overtaken done frame next todo got rest params hat hin =>
      refine hfirst done ([frame] ++ [next] ++ todo) ?_ hin.processed_eq
      rw [hat.frames_eq, List.append_assoc, List.append_assoc, List.append_assoc]

/-- The turns until there is nothing to be done for what is in the buffer. -/
def left (s : SerialReceive) : ℕ :=
  match s.point with
  | .waiting => if Stm32.Accepts (s.buff 0) then 23 else 0
  | .armed => if Stm32.Accepts (s.buff 0) then 22 else 0
  | .processing _ todo _ => todo.length + 1

theorem left_turn (s : SerialReceive) : s.turn.left ≤ s.left - 1 := by
  cases hpoint : s.point with
  | waiting =>
      rw [turn_waiting hpoint]
      simp only [left, hpoint]
      split_ifs <;> omega
  | armed =>
      by_cases h : Stm32.Accepts (s.buff 0)
      · have hlength := length_reads_le (s.buff 0)
        rw [turn_armed_of_accepts hpoint h]
        simp only [left, hpoint, if_pos h]
        omega
      · rw [turn_armed_of_not_accepts hpoint h]
        simp only [left, hpoint, if_neg h]
        omega
  | processing cmd todo params =>
      cases todo with
      | nil =>
          rw [turn_memset hpoint]
          have hzero : ¬ Stm32.Accepts (if 0 < serialBuffSize then 0 else s.buff 0) :=
            not_accepts_zero
          simp only [left, if_neg hzero]
          omega
      | cons i todo =>
          rw [turn_read hpoint]
          simp only [left, hpoint, List.length_cons]
          omega

theorem left_turns (s : SerialReceive) (n : ℕ) :
    (Transition.exec step s (List.replicate n .turn)).left ≤ s.left - n := by
  induction n generalizing s with
  | zero => exact Nat.le_refl _
  | succ n ih =>
      have hfirst := left_turn s
      have hrest := ih s.turn
      rw [List.replicate_succ, Transition.exec_cons]
      change (Transition.exec step s.turn (List.replicate n .turn)).left ≤ s.left - (n + 1)
      omega

theorem line_turn (s : SerialReceive) : s.turn.line = s.line := by
  cases hpoint : s.point with
  | waiting => rw [turn_waiting hpoint]
  | armed =>
      by_cases h : Stm32.Accepts (s.buff 0)
      · rw [turn_armed_of_accepts hpoint h]
      · rw [turn_armed_of_not_accepts hpoint h]
  | processing cmd todo params =>
      cases todo with
      | nil => rw [turn_memset hpoint]
      | cons i todo => rw [turn_read hpoint]

theorem line_turns (s : SerialReceive) (n : ℕ) :
    (Transition.exec step s (List.replicate n .turn)).line = s.line := by
  induction n generalizing s with
  | zero => rfl
  | succ n ih => exact (ih s.turn).trans (line_turn s)

theorem Processing.left_le {done : List SendSerial} {frame : SendSerial} {todo : List ℕ}
    {params : List UCHAR} (h : Processing done frame todo s params) : s.left ≤ 23 := by
  have hlength := congrArg List.length h.reads_eq
  have hreads := length_reads_le frame.cmd
  rw [List.length_append, List.length_map, List.length_map] at hlength
  rw [left, h.point_eq]
  change todo.length + 1 ≤ 23
  omega

theorem Idle.left_le (h : s.Idle) : s.left ≤ 23 := by
  rw [left]
  rcases h with hpoint | hpoint <;> rw [hpoint] <;> dsimp only <;> split_ifs <;> omega

theorem Idle.not_accepts_of_left (h : s.Idle) (hleft : s.left = 0) :
    ¬ Stm32.Accepts (s.buff 0) := by
  intro haccepts
  rw [left] at hleft
  rcases h with hpoint | hpoint <;> rw [hpoint] at hleft <;> simp [haccepts] at hleft

theorem Processing.left_pos {done : List SendSerial} {frame : SendSerial} {todo : List ℕ}
    {params : List UCHAR} (h : Processing done frame todo s params) : s.left ≠ 0 := by
  rw [left, h.point_eq]
  exact Nat.succ_ne_zero _

theorem Follows.left_le (h : Follows frames s) : s.left ≤ 23 := by
  cases h with
  | clear done todo hat hidle => exact hidle.left_le
  | reading done frame todo got hat hidle => exact hidle.left_le
  | whole done frame todo hat hpoint => exact Idle.left_le (.inr hpoint)
  | early done frame todo got hat hidle => exact hidle.left_le
  | processing done frame todo rest params hat hin => exact hin.left_le
  | partly done frame todo got rest params hat hin => exact hin.left_le
  | overtaken done frame next todo got rest params hat hin => exact hin.left_le

/-- When everything has arrived and nothing is to be done for it, all was done. -/
theorem Follows.processed_eq (h : Follows frames s) (hline : s.line = []) (hleft : s.left = 0) :
    s.processed = commands frames := by
  have hbytes {fs : List SendSerial} (hnil : s.line = fs.flatMap SendSerial.bytes) : fs = [] := by
    cases fs with
    | nil => rfl
    | cons f fs => cases hline.symm.trans hnil
  have hlast {done : List SendSerial} {frame : SendSerial} {todo : List SendSerial} {got : ℕ}
      (hat : Within frames done frame todo got s) :
      frames = done ++ [frame] ∧ got = serialBuffSize + 1 := by
    have hnil := List.append_eq_nil_iff.mp (hat.line_eq.symm.trans hline)
    have hdrop := List.drop_eq_nil_iff.mp hnil.1
    rw [frame.length_bytes] at hdrop
    have htodo : todo = [] := by
      cases todo with
      | nil => rfl
      | cons f fs => cases hnil.2
    refine ⟨?_, ?_⟩
    · rw [hat.frames_eq, htodo, List.append_nil]
    · rcases hat.receiving_eq with ⟨-, hgot⟩ | ⟨-, hgot⟩ <;> omega
  cases h with
  | clear done todo hat hidle hbuff hprocessed =>
      rw [hprocessed, hat.frames_eq, hbytes hat.line_eq, List.append_nil]
  | reading done frame todo got hat hidle hbuff hprocessed =>
      obtain ⟨hframes, -⟩ := hlast hat
      have hcmd : s.buff 0 = frame.cmd := hbuff 0 hat.pos
      have hno : ¬ Stm32.Accepts frame.cmd := hcmd ▸ hidle.not_accepts_of_left hleft
      rw [hprocessed, hframes, commands_concat_of_not_accepts done hno]
  | whole done frame todo hat hpoint haccepts hbuff =>
      have hcmd : s.buff 0 = frame.cmd := hbuff 0 (Nat.succ_pos _)
      exact absurd (hcmd ▸ haccepts) (Idle.not_accepts_of_left (.inr hpoint) hleft)
  | early done frame todo got hat hidle hbuff hprocessed =>
      obtain ⟨hframes, -⟩ := hlast hat
      rw [hprocessed, hframes]
  | processing done frame todo rest params hat hin => exact absurd hleft hin.left_pos
  | partly done frame todo got rest params hat hin => exact absurd hleft hin.left_pos
  | overtaken done frame next todo got rest params hat hin => exact absurd hleft hin.left_pos

/-- If no byte is lost, no command overwritten and none read too early, the commands are
processed once each, in their order and as they were sent: all of them, 23 places of the task
after everything has arrived. -/
theorem commands_processed (frames : List SendSerial) (buff : ℕ → UCHAR) (es : List ReceiveEvent)
    (hes : Transition.Meets step (KeepsFrames frames) (start frames buff) es) :
    let s := Transition.exec step (start frames buff) es
    s.processed <+: commands frames ∧
      ∀ n ≥ 23, s.line = [] → Transition.Meets step (KeepsFrames frames) s (.replicate n .turn) →
        (Transition.exec step s (.replicate n .turn)).processed = commands frames := by
  intro s
  have hs : Follows frames s :=
    Transition.inv_exec_of_meets (fun _ _ h he => h.step he) (follows_start frames buff) hes
  refine ⟨hs.processed_prefix, fun n hn hline hturns => ?_⟩
  have hend := Transition.inv_exec_of_meets (fun _ _ h he => h.step he) hs hturns
  have hleft := left_turns s n
  have hbound := hs.left_le
  exact hend.processed_eq ((line_turns s n).trans hline) (by omega)

/-- The server comes up with its temperatures, and starts the engine. -/
def serverFrames : List SendSerial :=
  [⟨CmdType.serverUp.toByte, fun i => [190#8, 0, 175, 0, 150, 0].getD i 0⟩,
    ⟨CmdType.startSeq.toByte, fun _ => 0⟩]

/-- The first command arrives in a delay and is processed; the second is looked at when ten
bytes of it are there. -/
def startsEngine : List ReceiveEvent :=
  List.replicate 2 .turn ++ List.replicate 51 .arrive ++ List.replicate 18 .turn ++
    List.replicate 10 .arrive ++ List.replicate 3 .turn ++ List.replicate 41 .arrive

theorem commands_processed_startsEngine :
    (Transition.exec step (start serverFrames fun _ => 0)
      (startsEngine ++ .replicate 23 .turn)).processed = commands serverFrames := by
  have hmeets : Transition.Meets step (KeepsFrames serverFrames) (start serverFrames fun _ => 0)
      (startsEngine ++ .replicate 23 .turn) := by
    decide +kernel
  obtain ⟨hfirst, hrest⟩ := (Transition.meets_append _ _ _).mp hmeets
  rw [Transition.exec_append]
  exact (commands_processed serverFrames (fun _ => 0) startsEngine hfirst).2 23 (Nat.le_refl 23)
    (by decide +kernel) hrest

/-- A turn after the first byte processes the command without its temperatures. -/
theorem not_commands_processed_serverFrames :
    let s := Transition.exec step (start serverFrames fun _ => 0)
      ([.turn, .arrive] ++ .replicate 16 .turn)
    s.processed = [(CmdType.serverUp.toByte, .replicate 14 0)] ∧
      ¬ s.processed <+: commands serverFrames := by
  decide +kernel

/-- A command that arrives while the server comes up is cleared with it. -/
example :
    (Transition.exec step (start serverFrames fun _ => 0)
      (.replicate 2 .turn ++ .replicate 51 .arrive ++ .replicate 16 .turn ++
        .replicate 51 .arrive ++ .replicate 40 .turn)).processed =
      (commands serverFrames).take 1 := by
  decide +kernel

end SerialReceive

end TruckControl
