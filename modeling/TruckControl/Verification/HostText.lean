import TruckControl.Model.SetTime
import TruckControl.Verification.HostBuffers
import TruckControl.Verification.UpdateConfig

/-!
# The text of a message in `msg_buf2`

The loop that copies the text goes on where the one of the message before has stopped. The
first cells of `msg_buf2` hold what has been copied since `j` was set to 0.
-/

namespace TruckControl.HostTask

variable {s : HostTask} {junk : ℕ → UCHAR} {m rest : List UCHAR}

/-! ## The loop -/

/-- What `n` turns of the loop copy. -/
def copied (msgBuf : ℕ → UCHAR) (n : ℕ) : List UCHAR :=
  (List.range n).map fun k => msgBuf (2 * k + 2)

/-- The first cells of `msg_buf2`, up to `j`. -/
def held (s : HostTask) : List UCHAR := (List.range s.j.toNat).map fun k : ℕ => s.msgBuf2 k

theorem copyText_msgBuf (n : ℕ) (s : HostTask) :
    (copyText n s).msgBuf = s.msgBuf ∧ (copyText n s).stream = s.stream ∧
      (copyText n s).taking = s.taking := by
  induction n with
  | zero => exact ⟨rfl, rfl, rfl⟩
  | succ n ih => exact ih

theorem j_copyText (n : ℕ) (s : HostTask) : (copyText n s).j = s.j + n := by
  induction n with
  | zero => simp [copyText]
  | succ n ih =>
      change (copyText n s).j + 1 = _
      rw [ih]
      omega

/-- What is held is followed by what is copied. -/
theorem held_copyText (hj : 0 ≤ s.j) (n : ℕ) :
    (copyText n s).held = s.held ++ copied s.msgBuf n := by
  induction n with
  | zero => simp [copyText, copied]
  | succ n ih =>
      have hnext : (copyText n s).j = (s.j.toNat + n : ℕ) := by
        rw [j_copyText]
        omega
      have hjn : (copyText (n + 1) s).j.toNat = (copyText n s).j.toNat + 1 := by
        rw [j_copyText, j_copyText]
        omega
      rw [held, hjn, List.range_succ, List.map_append, copied, List.range_succ, List.map_append,
        ← List.append_assoc]
      congr 1
      · rw [← copied, ← ih, held]
        apply List.map_congr_left
        intro k hk
        have hlt := List.mem_range.mp hk
        change Function.update (copyText n s).msgBuf2 (copyText n s).j _ k = _
        rw [Function.update_of_ne (by omega)]
      · change [Function.update (copyText n s).msgBuf2 (copyText n s).j _ _] = [_]
        rw [Int.toNat_of_nonneg (by omega), Function.update_self, (copyText_msgBuf n s).1]

/-! ## Messages of the client -/

/-- The characters of a message: every second byte behind the two of the command. -/
def text (m : List UCHAR) : List UCHAR := Pairs.evens (m.drop 2)

/-- A message as the client packs one. The loop stays inside `msg_buf`: it reads the place
behind an even message. -/
structure WellFormed (m : List UCHAR) : Prop where
  command : (m.headD 0).toNat < cmdArraySize
  length : 2 ≤ m.length
  inside : 2 * turns m.length < uploadBuffSize

instance (m : List UCHAR) : Decidable (WellFormed m) :=
  decidable_of_iff ((m.headD 0).toNat < cmdArraySize ∧ 2 ≤ m.length ∧
      2 * turns m.length < uploadBuffSize)
    ⟨fun h => ⟨h.1, h.2.1, h.2.2⟩, fun h => ⟨h.command, h.length, h.inside⟩⟩

theorem WellFormed.length_lt (h : WellFormed m) : m.length < uploadBuffSize := by
  have hinside := h.inside
  rw [turns] at hinside
  omega

theorem length_text (h : WellFormed m) : (text m).length + 1 = turns m.length := by
  have hlen := h.length
  rw [text, Pairs.length_evens, List.length_drop, turns]
  omega

/-- The loop copies the text and a zero behind it. -/
theorem copied_message (h : WellFormed m) (s : HostTask) :
    copied (ShortReads.afterRead s.cleared m) (turns m.length) = text m ++ [0] := by
  have hlen := length_text h
  have hinside := h.inside
  apply List.ext_getElem?
  intro k
  rw [copied, List.getElem?_map]
  rcases Nat.lt_trichotomy k (text m).length with hlt | heq | hgt
  · have hget : (text m)[k]? = m[2 * k + 2]? := by
      rw [text, Pairs.getElem?_evens, List.getElem?_drop, Nat.add_comm]
    rw [List.getElem?_range (by omega), List.getElem?_append_left hlt, hget]
    rw [List.getElem?_eq_getElem hlt] at hget
    rw [Option.map_some, ShortReads.afterRead, List.getD_eq_getElem?_getD, ← hget,
      Option.getD_some]
  · have hout : m.length ≤ 2 * k + 2 := by
      rw [heq]
      rw [turns] at hlen
      omega
    rw [List.getElem?_range (by omega), heq, List.getElem?_concat_length, Option.map_some,
      ShortReads.afterRead, List.getD_eq_getElem?_getD, List.getElem?_eq_none (by omega),
      Option.getD_none, cleared, if_pos (by omega)]
  · have hrange : (List.range (turns m.length))[k]? = none :=
      List.getElem?_eq_none (by rw [List.length_range]; omega)
    have htext : (text m ++ [0])[k]? = none :=
      List.getElem?_eq_none (by rw [List.length_append, List.length_singleton]; omega)
    rw [hrange, htext]
    rfl

/-- What `get_msg` and `recv_tcp` make of a message. -/
theorem receive_message (h : WellFormed m) (hstream : s.stream = clientSend m ++ rest)
    (junk : ℕ → UCHAR) :
    getMsg (s.preamble junk) = some m.length ∧ s.body m.length = m ∧
      s.receive junk = (copyText (turns m.length)
        { s with msgBuf := ShortReads.afterRead s.cleared m, stream := rest }, m.headD 0) := by
  have hlen := length_clientHeader m
  have hsplit : s.stream = clientHeader m ++ (m ++ rest) := by
    rw [hstream, clientSend_eq, List.append_assoc]
  have hpreamble : s.preamble junk = clientHeader m := by
    rw [preamble, hsplit, List.take_left' hlen]
    apply List.ext_getElem
    · rw [List.length_map, List.length_range, hlen]
    · intro k hk hk'
      rw [List.getElem_map, List.getElem_range, ShortReads.afterRead, List.getD_eq_getElem?_getD,
        List.getElem?_eq_getElem hk', Option.getD_some]
  have hget : getMsg (s.preamble junk) = some m.length := by
    rw [hpreamble]
    have hlt := h.length_lt
    exact getMsg_clientHeader (Nat.lt_trans hlt (by decide))
  have hbody : s.body m.length = m := by
    rw [body, hsplit, List.drop_left' hlen, List.take_left]
  have hrest : s.stream.drop (16 + m.length) = rest := by
    rw [hsplit, ← List.drop_drop, List.drop_left' hlen, List.drop_left]
  refine ⟨hget, hbody, Prod.ext ?_ ?_⟩
  · rw [receive, hget]
    dsimp only
    rw [hbody, hrest]
  · rw [cmd_receive hget, hbody]

/-- The text is held behind what was held before. -/
theorem held_receive (h : WellFormed m) (hstream : s.stream = clientSend m ++ rest) (hj : 0 ≤ s.j)
    (junk : ℕ → UCHAR) :
    0 ≤ (s.receive junk).1.j ∧ (s.receive junk).1.held = s.held ++ text m ++ [0] := by
  obtain ⟨-, -, hreceive⟩ := receive_message h hstream junk
  rw [hreceive]
  set t : HostTask := { s with msgBuf := ShortReads.afterRead s.cleared m, stream := rest }
  have htj : 0 ≤ t.j := hj
  have hstart : t.held = s.held := rfl
  change 0 ≤ (copyText (turns m.length) t).j ∧ (copyText (turns m.length) t).held = _
  constructor
  · rw [j_copyText]
    omega
  · rw [held_copyText htj, copied_message h s, hstart, List.append_assoc]

/-! ## Sequences of messages -/

/-- The commands whose handlers set `j` to 0. -/
def Resets (m : List UCHAR) : Prop :=
  CmdType.ofByte (m.headD 0) ∈ [some .setTime, some .updateConfig, some .exitProgram]

instance : DecidablePred Resets := fun _ => inferInstanceAs (Decidable (_ ∈ _))

/-- What is copied since `j` was set to 0 for the last time. -/
def sinceReset (held : List UCHAR) (msgs : List (List UCHAR)) : List UCHAR :=
  msgs.foldl (fun held m => if Resets m then [] else held ++ text m ++ [0]) held

/-- The text of the message is in `msg_buf2`, from its beginning on. -/
def HoldsText (s : HostTask) (m : List UCHAR) : Prop :=
  (List.range (text m).length).map (fun k : ℕ => s.msgBuf2 k) = text m

instance (s : HostTask) (m : List UCHAR) : Decidable (s.HoldsText m) :=
  inferInstanceAs (Decidable (_ = _))

theorem held_handle (cmd : UCHAR) (s : HostTask) :
    (handle cmd s).held = if CmdType.ofByte cmd ∈
        [some .setTime, some .updateConfig, some .exitProgram] then [] else s.held := by
  rw [handle]
  cases CmdType.ofByte cmd with
  | none => rfl
  | some cmd => cases cmd <;> rfl

theorem handle_keeps (cmd : UCHAR) (s : HostTask) :
    (handle cmd s).stream = s.stream ∧ (0 ≤ s.j → 0 ≤ (handle cmd s).j) ∧
      ((handle cmd s).taking = true → s.taking = true) := by
  rw [handle]
  split
  · exact ⟨rfl, fun _ => Int.le_refl 0, id⟩
  · exact ⟨rfl, fun _ => Int.le_refl 0, id⟩
  · exact ⟨rfl, id, fun h => by cases h⟩
  · exact ⟨rfl, fun _ => Int.le_refl 0, fun h => by cases h⟩
  · exact ⟨rfl, id, id⟩

theorem step_of_taking (htaking : s.taking = true) (junk : ℕ → UCHAR) :
    s.step junk = handle (s.receive junk).2 (s.receive junk).1 := by
  rw [step, if_pos htaking]

/-- A message is taken off the stream, and its handler may reset what is held. -/
theorem step_message (h : WellFormed m) (hstream : s.stream = clientSend m ++ rest)
    (htaking : s.taking = true) (hj : 0 ≤ s.j) (junk : ℕ → UCHAR) :
    (s.step junk).stream = rest ∧ 0 ≤ (s.step junk).j ∧
      (s.step junk).held = if Resets m then [] else s.held ++ text m ++ [0] := by
  obtain ⟨hnonneg, hheld⟩ := held_receive h hstream hj junk
  obtain ⟨-, -, hreceive⟩ := receive_message h hstream junk
  have hcmd : (s.receive junk).2 = m.headD 0 := by rw [hreceive]
  have hstream' : (s.receive junk).1.stream = rest := by
    rw [hreceive]
    exact (copyText_msgBuf _ _).2.1
  obtain ⟨hkeeps, hkeepsj, -⟩ := handle_keeps (m.headD 0) (s.receive junk).1
  rw [step_of_taking htaking, hcmd]
  refine ⟨hkeeps.trans hstream', hkeepsj hnonneg, ?_⟩
  rw [held_handle, hheld]
  rfl

theorem taking_of_step (h : (s.step junk).taking = true) : s.taking = true := by
  cases htaking : s.taking with
  | true => rfl
  | false =>
      rw [step, htaking] at h
      exact absurd h (by simp [htaking])

theorem taking_of_exec {junks : List (ℕ → UCHAR)}
    (h : (Transition.exec step s junks).taking = true) : s.taking = true := by
  induction junks generalizing s with
  | nil => exact h
  | cons junk junks ih => exact taking_of_step (ih h)

/-- A message that fits is not stored below `msg_buf2`. -/
theorem Fits.nonneg (hfits : s.Fits junk) (h : WellFormed m)
    (hstream : s.stream = clientSend m ++ rest) (htaking : s.taking = true) : 0 ≤ s.j := by
  obtain ⟨hget, -, -⟩ := receive_message h hstream junk
  have hlen := length_text h
  rcases (hfits htaking m.length hget).2.1 with hzero | hin
  · omega
  · exact hin.1

/-- The messages before it leave behind what they have copied since the last reset. -/
theorem exec_messages {msgs : List (List UCHAR)} {junks : List (ℕ → UCHAR)}
    (hwell : ∀ m ∈ msgs, WellFormed m) (hlen : junks.length = msgs.length)
    (hstream : s.stream = msgs.flatMap clientSend ++ rest) (hj : 0 ≤ s.j)
    (htaking : (Transition.exec step s junks).taking = true) :
    (Transition.exec step s junks).stream = rest ∧ 0 ≤ (Transition.exec step s junks).j ∧
      (Transition.exec step s junks).held = sinceReset s.held msgs := by
  induction msgs generalizing s junks with
  | nil =>
      cases List.length_eq_zero_iff.mp hlen
      exact ⟨hstream, hj, rfl⟩
  | cons m msgs ih =>
      cases junks with
      | nil => cases hlen
      | cons junk junks =>
          obtain ⟨hm, hmsgs⟩ := List.forall_mem_cons.mp hwell
          rw [List.flatMap_cons, List.append_assoc] at hstream
          have hfirst := taking_of_step (taking_of_exec htaking)
          obtain ⟨hnext, hnonneg, hheld⟩ := step_message hm hstream hfirst hj junk
          have hrest := ih hmsgs (Nat.succ.inj hlen) hnext hnonneg htaking
          rw [hheld] at hrest
          exact hrest

/-- The text is at the beginning if it is at the end and what is before it fits. -/
theorem holdsText_of_held {t : HostTask} {held : List UCHAR}
    (hheld : t.held = held ++ text m ++ [0]) :
    t.HoldsText m ↔ text m <+: held ++ text m := by
  have hlen : t.j.toNat = held.length + (text m).length + 1 := by
    have hlength := congrArg List.length hheld
    simpa [HostTask.held, Nat.add_assoc] using hlength
  have htake : (List.range (text m).length).map (fun k : ℕ => t.msgBuf2 k) =
      (held ++ text m).take (text m).length := by
    have hcells : (List.range (text m).length).map (fun k : ℕ => t.msgBuf2 k) =
        t.held.take (text m).length := by
      rw [HostTask.held, ← List.map_take, List.take_range, Nat.min_eq_left (by omega)]
    rw [hcells, hheld, List.take_append_of_le_length]
    rw [List.length_append]
    omega
  rw [HoldsText, htake, List.prefix_iff_eq_take]
  exact eq_comm

/-- When a message is dispatched, `msg_buf2` begins with its text exactly if what has been
copied since `j` was set to 0, this text at the end, does. -/
theorem holdsText_iff {msgs : List (List UCHAR)} {junks : List (ℕ → UCHAR)}
    (hwell : ∀ m' ∈ msgs ++ [m], WellFormed m') (hlen : junks.length = msgs.length)
    (hstream : s.stream = (msgs ++ [m]).flatMap clientSend ++ rest)
    (hfits : Transition.Meets step Fits s (junks ++ [junk]))
    (htaking : (Transition.exec step s junks).taking = true) :
    ((Transition.exec step s junks).receive junk).1.HoldsText m ↔
      text m <+: sinceReset s.held msgs ++ text m := by
  obtain ⟨hmsgs, hm⟩ := List.forall_mem_append.mp hwell
  have hm : WellFormed m := hm m (List.mem_singleton.mpr rfl)
  rw [List.flatMap_append, List.flatMap_singleton, List.append_assoc] at hstream
  have hj : 0 ≤ s.j := by
    have hfirst := taking_of_exec htaking
    cases msgs with
    | nil =>
        cases List.length_eq_zero_iff.mp hlen
        exact hfits.1.nonneg hm hstream hfirst
    | cons m' msgs =>
        cases junks with
        | nil => cases hlen
        | cons junk' junks =>
            rw [List.flatMap_cons, List.append_assoc] at hstream
            exact hfits.1.nonneg (hmsgs m' List.mem_cons_self) hstream hfirst
  obtain ⟨hnext, hnonneg, hheld⟩ := exec_messages hmsgs hlen hstream hj htaking
  rw [← hheld]
  exact holdsText_of_held (held_receive hm hnext hnonneg junk).2

/-! ## Setting the time -/

/-- A command of the client without a text. -/
def bareCommand (cmd : CmdType) : List UCHAR := [cmd.toByte, 0]

/-- The packet of `SetTime` for a time. -/
def setTimeTo (text : String) : List UCHAR := setTimePacket (text.toList.map ascii)

/-- The time is set twice. -/
theorem holdsText_setTime_twice :
    let msgs := [setTimeTo "5/7/2026 4:29:58 PM", setTimeTo "5/7/2026 4:30:00 PM"]
    let s := start 0 (msgs.flatMap clientSend)
    ((Transition.exec step s [fun _ => 0]).receive fun _ => 0).1.HoldsText
      (setTimeTo "5/7/2026 4:30:00 PM") := by
  intro msgs s
  have hwell : ∀ m ∈ [setTimeTo "5/7/2026 4:29:58 PM"] ++ [setTimeTo "5/7/2026 4:30:00 PM"],
      WellFormed m := by decide +kernel
  have hstream : s.stream = msgs.flatMap clientSend ++ [] := (List.append_nil _).symm
  exact (holdsText_iff hwell rfl hstream (by decide +kernel) (by decide +kernel)).mpr
    (by decide +kernel)

/-- The lights are turned on, then the time is set: its text is behind a zero. -/
theorem not_holdsText_onLights :
    let msgs := [bareCommand .onLights, setTimeTo "5/7/2026 4:30:00 PM"]
    let s := start 0 (msgs.flatMap clientSend)
    (∀ m ∈ msgs, WellFormed m) ∧ Transition.Meets step Fits s [fun _ => 0, fun _ => 0] ∧
      (Transition.exec step s [fun _ => 0]).taking = true ∧
      ¬ ((Transition.exec step s [fun _ => 0]).receive fun _ => 0).1.HoldsText
        (setTimeTo "5/7/2026 4:30:00 PM") := by
  decide +kernel

end TruckControl.HostTask
