import TruckControl.Library.Pairs
import TruckControl.Model.Client

/-!
# Messages of one task on the socket

`send_msg` announces one byte more than twice the text and writes four bytes more than
four times the text. The rule of `get_msg` does not recover from that; the client does.
-/

namespace TruckControl

/-! ## The bytes of a message -/

/-- Each byte with a zero byte behind it. -/
def wide (bs : List UCHAR) : List UCHAR := Pairs.flat (fun b => b) (fun _ => 0#8) bs

theorem length_wide (bs : List UCHAR) : (wide bs).length = 2 * bs.length := Pairs.length_flat bs

theorem getElem?_wide_even (bs : List UCHAR) (i : ℕ) : (wide bs)[2 * i]? = bs[i]? := by
  rw [wide, Pairs.getElem?_even, Option.map_id']

theorem getElem?_wide_odd (bs : List UCHAR) {i : ℕ} (hi : i < bs.length) :
    (wide bs)[2 * i + 1]? = some 0#8 := by
  rw [wide, Pairs.getElem?_odd, List.getElem?_eq_getElem hi]
  rfl

namespace TextMsg

variable (m : TextMsg)

/-- The length byte. -/
def announced : ℕ := (2 * m.text.length + 1) % 256

def header : List UCHAR := prePreamble ++ BitVec.ofNat 8 m.announced :: List.replicate 7 0#8

/-- The characters that `send_msg` writes behind the header, the type among them. -/
def written : List UCHAR := m.msgType :: (List.range (2 * m.text.length + 1)).map m.sendMsg.msg

theorem length_written : m.written.length = 2 * m.text.length + 2 := by
  simp [written]

theorem length_header : m.header.length = 16 := by simp [header, prePreamble]

theorem take_header : m.header.take 8 = prePreamble := by simp [header, prePreamble]

/-- A message is a header and the characters. -/
theorem bytes_sendMsg : m.sendMsg.bytes = m.header ++ wide m.written := by
  have hlen : BitVec.ofNat 8 (2 * m.text.length + 1) = BitVec.ofNat 8 m.announced := by
    apply BitVec.eq_of_toNat_eq
    simp [announced]
  have hwide (l : List ℕ) : (l.flatMap fun i => [[m.sendMsg.msg i], [0#8]]).flatten =
      wide (l.map m.sendMsg.msg) := by
    induction l with
    | nil => rfl
    | cons i l ih => simpa [wide] using ih
  simp only [SendMsg.bytes, Frame.pieces, SendMsg.sendTcps, header, written, wide, Pairs.flat_cons,
    List.flatten_cons, List.flatten_append, List.cons_append, hwide, ← hlen]
  rfl

theorem getMsg_header : getMsg m.header = some m.announced := by
  have hlow : (BitVec.ofNat 8 m.announced).toNat = m.announced := by
    simp [announced]
  rw [getMsg, if_neg (by simp [take_header])]
  simp [header, prePreamble, hlow]

/-- The announced length ends inside what is written, before a zero byte. -/
theorem announced_lt : m.announced + 1 < (wide m.written).length := by
  rw [length_wide, length_written, announced]
  omega

theorem getElem?_announced : (wide m.written)[m.announced]? = some 0#8 := by
  have hodd : m.announced = 2 * (m.announced / 2) + 1 := by
    rw [announced]
    omega
  have hlt := m.announced_lt
  rw [length_wide] at hlt
  rw [hodd]
  exact getElem?_wide_odd m.written (by omega)

end TextMsg

/-! ## Read by the rule of `get_msg` -/

/-- No header begins with a zero byte. -/
theorem getMsgs_zero_cons (stream : List UCHAR) : getMsgs (0#8 :: stream) = none := by
  have hbad : getMsg ((0#8 :: stream).take 16) = none := by
    rw [getMsg, if_pos]
    simp [prePreamble]
  rw [getMsgs, if_neg (List.cons_ne_nil _ _), hbad]
  split_ifs <;> rfl

/-- Behind the announced bytes of a message the next header is not found. -/
theorem getMsgs_message (m : TextMsg) (rest : List UCHAR) :
    getMsgs (m.sendMsg.bytes ++ rest) = none := by
  have hlt := m.announced_lt
  have hne : m.header ++ wide m.written ++ rest ≠ [] := by simp [TextMsg.header, prePreamble]
  have htake : (m.header ++ wide m.written ++ rest).take 16 = m.header := by
    rw [List.append_assoc, List.take_left' m.length_header]
  have hdrop : (m.header ++ wide m.written ++ rest).drop (16 + m.announced) =
      0#8 :: (wide m.written).drop (m.announced + 1) ++ rest := by
    have hzero : (wide m.written).drop m.announced =
        0#8 :: (wide m.written).drop (m.announced + 1) := by
      rw [List.drop_eq_getElem_cons (by omega)]
      congr 1
      exact Option.some.inj ((List.getElem?_eq_getElem _).symm.trans m.getElem?_announced)
    rw [List.append_assoc, ← List.drop_drop, List.drop_left' m.length_header,
      List.drop_append_of_le_length (by omega), hzero]
  have hlong : ¬ (m.header ++ wide m.written ++ rest).length < 16 := by
    rw [List.length_append, List.length_append, m.length_header]
    omega
  rw [m.bytes_sendMsg, getMsgs, if_neg hne, dif_neg hlong, htake, m.getMsg_header]
  dsimp only
  rw [hdrop, List.cons_append, getMsgs_zero_cons]
  split_ifs <;> rfl

/-- What the calls of one task write, one message after the other. -/
def sendMsgs (msgs : List TextMsg) : List UCHAR := msgs.flatMap fun m => m.sendMsg.bytes

/-- The messages are read back by the rule of `get_msg` only when there are none; each
announces less than it writes. -/
theorem getMsgs_sendMsgs_iff (msgs : List TextMsg) :
    ((getMsgs (sendMsgs msgs)).map (List.map processMsg) =
        some (msgs.map fun m => some m.received) ↔ msgs = []) ∧
    ∀ m ∈ msgs, getMsg (m.sendMsg.bytes.take 16) = some m.announced ∧
      m.announced < (m.sendMsg.bytes.drop 16).length := by
  constructor
  · constructor
    · intro h
      cases msgs with
      | nil => rfl
      | cons m msgs =>
          rw [sendMsgs, List.flatMap_cons, getMsgs_message] at h
          cases h
    · intro h
      rw [h, sendMsgs, List.flatMap_nil, getMsgs, if_pos rfl]
      rfl
  · intro m _
    have hlt := m.announced_lt
    rw [m.bytes_sendMsg, List.take_left' m.length_header, List.drop_left' m.length_header]
    exact ⟨m.getMsg_header, by omega⟩

/-- The engine temperature, as a text of one digit. -/
def digitMsg : TextMsg where
  text := [0x37]
  after _ := 0
  msgType := CmdType.engineTemp.toByte
  strlen := by decide

/-- One message of one digit is not read back. -/
theorem getMsgs_digitMsg :
    ¬ ∀ msgs : List TextMsg,
      (getMsgs (sendMsgs msgs)).map (List.map processMsg) =
        some (msgs.map fun m => some m.received) := by
  intro h
  have hread := h [digitMsg]
  rw [sendMsgs, List.flatMap_cons, getMsgs_message] at hread
  cases hread

/-! ## Read by the client -/

open Resync

theorem contains_of_shouldReceive {window : List UCHAR} (h : shouldReceive window ≠ none) :
    contains prePreamble window := by
  have htake : window.take 8 = prePreamble := by
    by_contra hne
    have hbad : window.take 8 ≠ correctPreamble ∨ toInt32 window 8 < 0 :=
      .inl (by rwa [correctPreamble_eq])
    rw [shouldReceive, toShouldReceive, if_pos hbad] at h
    exact h rfl
  have hprefix : prePreamble <+: window := ⟨window.drop 8, by rw [← htake, List.take_append_drop]⟩
  have hcontains := contains_take hprefix window.length
  rwa [List.take_length] at hcontains

namespace TextMsg

variable {m : TextMsg}

theorem announced_of_le (h : m.text.length ≤ 127) : m.announced = 2 * m.text.length + 1 := by
  rw [announced]
  omega

theorem shouldReceive_header (h : m.text.length ≤ 127) :
    shouldReceive m.header = some (2 * m.text.length + 1) := by
  have hint : ∀ n < 256, (0#8 ++ 0#8 ++ 0#8 ++ BitVec.ofNat 8 n : BitVec 32).toInt = n := by
    decide +kernel
  have hlt : m.announced < 256 := Nat.mod_lt _ (by decide)
  have hannounced : toInt32 m.header 8 = m.announced := hint m.announced hlt
  have hgood : ¬ (m.header.take 8 ≠ correctPreamble ∨ toInt32 m.header 8 < 0) := by
    rw [hannounced, correctPreamble_eq, take_header]
    simp
  rw [shouldReceive, toShouldReceive, if_neg hgood, hannounced, if_neg (by omega),
    announced_of_le h]
  rfl

/-- What the client takes from a message. -/
def packet (m : TextMsg) : List UCHAR := (wide m.written).take (2 * m.text.length + 1)

/-- What it leaves behind. -/
def surplus (m : TextMsg) : List UCHAR := (wide m.written).drop (2 * m.text.length + 1)

theorem length_packet : m.packet.length = 2 * m.text.length + 1 := by
  rw [packet, List.length_take, length_wide, length_written]
  omega

/-- Of two bytes that lie behind a packet one is zero, and so is the last of all. -/
theorem foreign_surplus : Foreign 0xF8#8 0xF0#8 m.surplus := by
  intro i hi
  rw [surplus, List.getElem?_drop] at hi ⊢
  have hlt := (List.getElem?_eq_some_iff.mp hi).1
  rw [length_wide] at hlt
  obtain ⟨j, hj⟩ : ∃ j, 2 * m.text.length + 1 + i = 2 * j ∨ 2 * m.text.length + 1 + i = 2 * j + 1 :=
    ⟨(2 * m.text.length + 1 + i) / 2, by omega⟩
  rcases hj with hj | hj
  · refine ⟨0#8, ?_, by decide⟩
    rw [← Nat.add_assoc, hj]
    exact getElem?_wide_odd m.written (by omega)
  · rw [hj, getElem?_wide_odd m.written (by omega)] at hi
    cases hi

/-- The characters of the text are the first that are written. -/
theorem getElem?_written {i : ℕ} (hi : i < m.text.length) :
    m.written[i + 1]? = m.text[i]? := by
  have hrange : i < 2 * m.text.length + 1 := by omega
  simp [written, sendMsg, hrange, hi, List.getElem?_append_left hi]

theorem getD_packet_even {i : ℕ} (hi : i ≤ m.text.length) :
    m.packet.getD (2 * i) 0 = (m.written[i]?).getD 0 := by
  rw [packet, List.getD_eq_getElem?_getD, List.getElem?_take_of_lt (by omega),
    getElem?_wide_even]

theorem getD_packet_odd (i : ℕ) : m.packet.getD (2 * i + 1) 0 = 0 := by
  rw [packet, List.getD_eq_getElem?_getD, List.getElem?_take]
  split_ifs with hlt
  · rw [getElem?_wide_odd m.written (by rw [length_written]; omega)]
    rfl
  · rfl

/-- A byte with a zero byte behind it is the character of that code. -/
theorem charAt_of_getD {bytes : List UCHAR} {i : ℕ} {b : UCHAR} (hlow : bytes.getD (2 * i) 0 = b)
    (hhigh : bytes.getD (2 * i + 1) 0 = 0) : charAt bytes i = b.setWidth 16 := by
  have hchar : ∀ b : UCHAR, 0#8 ++ b = b.setWidth 16 := by decide +kernel
  rw [charAt, hlow, hhigh]
  exact hchar b

theorem charAt_drop (bytes : List UCHAR) (i : ℕ) :
    charAt (bytes.drop 2) i = charAt bytes (i + 1) := by
  have hlow : 2 * (i + 1) = 2 + 2 * i := by omega
  have hhigh : 2 + 2 * i + 1 = 2 + (2 * i + 1) := by omega
  simp only [charAt, List.getD_eq_getElem?_getD, List.getElem?_drop, hlow, hhigh]

/-- `Process_Msg` finds the type and the text in the packet. -/
theorem processMsg_packet (hpos : 1 ≤ m.text.length) :
    processMsg m.packet = some m.received := by
  have htype : charAt m.packet 0 = m.msgType.setWidth 16 :=
    charAt_of_getD (getD_packet_even (Nat.zero_le _)) (getD_packet_odd 0)
  have htext {i : ℕ} (hi : i < m.text.length) :
      charAt (m.packet.drop 2) i = (m.text[i]).setWidth 16 := by
    rw [charAt_drop]
    refine charAt_of_getD ?_ (getD_packet_odd (i + 1))
    rw [getD_packet_even (by omega), getElem?_written hi, List.getElem?_eq_getElem hi,
      Option.getD_some]
  have hhalf : m.packet.length / 2 = m.text.length := by
    rw [length_packet]
    omega
  rw [processMsg, if_neg (by rw [length_packet]; omega), htype, hhalf, received]
  congr 2
  apply List.ext_getElem
  · simp
  · intro i hi _
    have hlt : i < m.text.length := by simpa using hi
    simp [htext hlt]

end TextMsg

/-- The client delivers the packets of all messages. -/
theorem receives_sendMsgs (msgs : List TextMsg) (hmsgs : ∀ m ∈ msgs, m.text.length ≤ 127) :
    (receives prePreamble sizePacketLength shouldReceive (.header []) (sendMsgs msgs)).map
      Prod.snd = some (msgs.map TextMsg.packet) := by
  induction msgs with
  | nil => rfl
  | cons m msgs ih =>
      obtain ⟨hm, hrest⟩ := List.forall_mem_cons.mp hmsgs
      have hstream : sendMsgs (m :: msgs) =
          m.header ++ m.packet ++ (m.surplus ++ sendMsgs msgs) := by
        have hsplit : m.packet ++ m.surplus = wide m.written := List.take_append_drop _ _
        rw [sendMsgs, List.flatMap_cons, m.bytes_sendMsg, ← hsplit]
        simp [sendMsgs]
      have htail : sendMsgs msgs = [] ∨
          prePreamble <+: sendMsgs msgs ∧ sizePacketLength ≤ (sendMsgs msgs).length := by
        cases msgs with
        | nil => exact .inl rfl
        | cons m' msgs =>
            right
            rw [sendMsgs, List.flatMap_cons, m'.bytes_sendMsg]
            constructor
            · rw [TextMsg.header, List.append_assoc, List.append_assoc]
              exact List.prefix_append _ _
            · rw [List.length_append, List.length_append, m'.length_header, sizePacketLength]
              omega
      have hsize : shouldReceive m.header = some m.packet.length := by
        rw [TextMsg.shouldReceive_header hm, TextMsg.length_packet]
      have hne : m.packet ≠ [] := List.ne_nil_of_length_pos (by rw [TextMsg.length_packet]; omega)
      have hskip : (receives prePreamble sizePacketLength shouldReceive (.header [])
          (m.surplus ++ sendMsgs msgs)).map Prod.snd = some (msgs.map TextMsg.packet) :=
        (receives_foreign (by decide) (fun window _ h => contains_of_shouldReceive h)
          TextMsg.foreign_surplus htail).trans (ih hrest)
      obtain ⟨last, hlast, hpackets⟩ := Option.map_eq_some_iff.mp hskip
      have hlen : m.header.length = sizePacketLength := m.length_header
      rw [hstream, receives_packet hlen (by decide) hsize hne, hlast]
      simp [hpackets]

/-- A client that has read the whole stream has taken the packet of each message. -/
theorem onReceived_sendMsgs (msgs : List TextMsg) (hmsgs : ∀ m ∈ msgs, m.text.length ≤ 127) :
    (∃ r packets, OnReceived (.header []) (sendMsgs msgs) r packets) ∧
      ∀ r packets, OnReceived (.header []) (sendMsgs msgs) r packets →
        packets = msgs.map TextMsg.packet := by
  have hall := receives_sendMsgs msgs hmsgs
  rw [← correctPreamble_eq] at hall
  obtain ⟨⟨r', packets'⟩, hreceives, hpackets⟩ := Option.map_eq_some_iff.mp hall
  change packets' = msgs.map TextMsg.packet at hpackets
  refine ⟨⟨r', packets', feeds_iff.mpr hreceives⟩, fun r packets hread => ?_⟩
  have hboth := (feeds_iff.mp hread).symm.trans hreceives
  simp only [Option.some.injEq, Prod.mk.injEq] at hboth
  exact hboth.2.trans hpackets

/-- However the stream is cut into pieces, the client goes on asking for more until it has
read all of it, and then it has delivered the type and the text of each message. -/
theorem client_receives (msgs : List TextMsg)
    (hmsgs : ∀ m ∈ msgs, 1 ≤ m.text.length ∧ m.text.length ≤ 127) :
    (∃ r packets, OnReceived (.header []) (sendMsgs msgs) r packets) ∧
    ∀ seen rest r packets, seen ++ rest = sendMsgs msgs →
      OnReceived (.header []) seen r packets →
        (rest ≠ [] → 0 < wanted sizePacketLength r) ∧
        (rest = [] → packets.map processMsg = msgs.map fun m => some m.received) := by
  have hall := receives_sendMsgs msgs fun m hm => (hmsgs m hm).2
  rw [← correctPreamble_eq] at hall
  obtain ⟨⟨r', packets'⟩, hreceives, hpackets⟩ := Option.map_eq_some_iff.mp hall
  change packets' = msgs.map TextMsg.packet at hpackets
  refine ⟨⟨r', packets', feeds_iff.mpr hreceives⟩, ?_⟩
  intro seen rest r packets hsplit hseen
  have hseen' := feeds_iff.mp hseen
  rw [← hsplit, receives_append, hseen', Option.bind_some] at hreceives
  constructor
  · intro hne
    cases rest with
    | nil => exact absurd rfl hne
    | cons ch rest =>
        by_contra hstop
        have hzero : wanted sizePacketLength r = 0 := Nat.eq_zero_of_not_pos hstop
        rw [receives, if_pos hzero] at hreceives
        cases hreceives
  · intro hnil
    rw [hnil, receives] at hreceives
    have heq : packets = packets' := by simpa using congrArg (Option.map Prod.snd) hreceives
    rw [heq, hpackets, List.map_map]
    apply List.map_congr_left
    intro m hm
    exact TextMsg.processMsg_packet (hmsgs m hm).1

/-- Two messages, with bytes of a preamble in memory behind the first. -/
theorem client_receives_digitMsg :
    let msgs := [{ digitMsg with after := fun _ => 0xF8 }, digitMsg]
    ∃ r packets, OnReceived (.header []) (sendMsgs msgs) r packets ∧
      packets.map processMsg = msgs.map fun m => some m.received := by
  intro msgs
  have hmsgs : ∀ m ∈ msgs, 1 ≤ m.text.length ∧ m.text.length ≤ 127 := by decide
  obtain ⟨⟨r, packets, hread⟩, hall⟩ := client_receives msgs hmsgs
  exact ⟨r, packets, hread, (hall (sendMsgs msgs) [] r packets (List.append_nil _) hread).2 rfl⟩

end TruckControl
