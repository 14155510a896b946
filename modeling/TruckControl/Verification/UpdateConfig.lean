import TruckControl.Library.Pairs
import TruckControl.Model.Config

/-!
# The way of a configuration

`StopMbox` packs the parameters, `get_host_cmd_task` takes them and packs a part of them
again, and `StartRecv7200` takes that part.
-/

namespace TruckControl

/-! ## Words of two bytes -/

theorem word_eq (msgBuf : ℕ → UCHAR) (i : ℕ) :
    word msgBuf i = (msgBuf (i + 1) ++ msgBuf i : BitVec 16).setWidth 32 := by
  apply BitVec.eq_of_getLsbD_eq
  intro j hj
  simp only [word, BitVec.getLsbD_or, BitVec.getLsbD_shiftLeft, BitVec.getLsbD_setWidth,
    BitVec.getLsbD_append]
  by_cases hlow : j < 8
  · simp [hj, hlow]
  · have hzero : (msgBuf i).getLsbD j = false := BitVec.getLsbD_of_ge _ _ (by omega)
    have hin : j - 8 < 32 := by omega
    simp [hj, hlow, hzero, hin]

theorem bytes_append (v : UINT) : (v >>> 8).setWidth 8 ++ v.setWidth 8 = v.setWidth 16 := by
  apply BitVec.eq_of_getLsbD_eq
  intro j hj
  simp only [BitVec.getLsbD_append, BitVec.getLsbD_setWidth, BitVec.getLsbD_ushiftRight]
  by_cases hlow : j < 8
  · simp [hj, hlow]
  · have hhigh : j - 8 < 8 := by omega
    have hback : 8 + (j - 8) = j := by omega
    simp [hj, hlow, hhigh, hback]

theorem setWidth_setWidth_eq_iff (v : UINT) :
    (v.setWidth 16).setWidth 32 = v ↔ v.toNat < 65536 := by
  rw [← BitVec.toNat_inj, BitVec.toNat_setWidth, BitVec.toNat_setWidth]
  have := v.isLt
  omega

/-! ## The packet -/

/-- Of an integer the two low bytes remain, before the next is copied over the others. -/
def lowBytes (vs : List UINT) : List UCHAR :=
  Pairs.flat (fun v : UINT => v.setWidth 8) (fun v => (v >>> 8).setWidth 8) vs

theorem foldl_blockCopy (vs : List UINT) {n : ℕ} {front rest : List UCHAR}
    (hfront : front.length = 2 * n + 2) :
    ∃ tail, (vs.zipIdx n).foldl (fun bytes v => blockCopy (getBytes v.1) bytes (2 * v.2 + 2))
      (front ++ rest) = front ++ lowBytes vs ++ tail := by
  induction vs generalizing n front rest with
  | nil => exact ⟨rest, by simp [lowBytes]⟩
  | cons v vs ih =>
      have hcopy : blockCopy (getBytes v) (front ++ rest) (2 * n + 2) =
          front ++ [v.setWidth 8, (v >>> 8).setWidth 8] ++
            ([(v >>> 16).setWidth 8, (v >>> 24).setWidth 8] ++ rest.drop 4) := by
        rw [blockCopy, ← hfront, List.take_left, ← List.drop_drop, List.drop_left]
        simp [getBytes]
      rw [List.zipIdx_cons, List.foldl_cons, hcopy]
      have hnext : (front ++ [v.setWidth 8, (v >>> 8).setWidth 8]).length = 2 * (n + 1) + 2 := by
        rw [List.length_append, hfront]
        rfl
      obtain ⟨tail, htail⟩ := ih hnext
      refine ⟨tail, htail.trans ?_⟩
      simp [lowBytes]

theorem packet_eq (c : ConfigParams) :
    ∃ tail, c.packet = [CmdType.updateConfig.toByte, 0#8] ++ lowBytes c.fields ++ tail := by
  have hzero : (List.replicate (17 * 4 + 2) 0#8).set 0 CmdType.updateConfig.toByte =
      [CmdType.updateConfig.toByte, 0#8] ++ List.replicate 68 0#8 := rfl
  rw [ConfigParams.packet, hzero]
  exact foldl_blockCopy c.fields rfl

theorem length_foldl_blockCopy (vs : List (UINT × ℕ)) {bytes : List UCHAR}
    (h : ∀ v ∈ vs, 2 * v.2 + 2 + 4 ≤ bytes.length) :
    (vs.foldl (fun bytes v => blockCopy (getBytes v.1) bytes (2 * v.2 + 2)) bytes).length =
      bytes.length := by
  induction vs generalizing bytes with
  | nil => rfl
  | cons v vs ih =>
      obtain ⟨hv, hvs⟩ := List.forall_mem_cons.mp h
      have hlen : (blockCopy (getBytes v.1) bytes (2 * v.2 + 2)).length = bytes.length := by
        simp only [blockCopy, getBytes, List.length_append, List.length_take, List.length_drop,
          List.length_cons, List.length_nil]
        omega
      rw [List.foldl_cons, ih, hlen]
      rw [hlen]
      exact hvs

theorem length_packet (c : ConfigParams) : c.packet.length = 70 := by
  rw [ConfigParams.packet, length_foldl_blockCopy]
  · rfl
  · simp [ConfigParams.fields]

theorem getD_packet {c : ConfigParams} {k : ℕ} {v : UINT} (hv : c.fields[k]? = some v) :
    c.packet.getD (2 * k + 2) 0 = v.setWidth 8 ∧
      c.packet.getD (2 * k + 3) 0 = (v >>> 8).setWidth 8 := by
  obtain ⟨tail, hpacket⟩ := packet_eq c
  have hk : k < c.fields.length := (List.getElem?_eq_some_iff.mp hv).1
  have hlen : (lowBytes c.fields).length = 2 * c.fields.length := Pairs.length_flat c.fields
  have hlow : (lowBytes c.fields)[2 * k]? = some (v.setWidth 8) := by
    rw [lowBytes, Pairs.getElem?_even, hv, Option.map_some]
  have hhigh : (lowBytes c.fields)[2 * k + 1]? = some ((v >>> 8).setWidth 8) := by
    rw [lowBytes, Pairs.getElem?_odd, hv, Option.map_some]
  rw [hpacket, List.append_assoc, List.getD_eq_getElem?_getD, List.getD_eq_getElem?_getD]
  constructor
  · change ((lowBytes c.fields ++ tail)[2 * k]?).getD 0 = _
    rw [List.getElem?_append_left (by omega), hlow, Option.getD_some]
  · change ((lowBytes c.fields ++ tail)[2 * k + 1]?).getD 0 = _
    rw [List.getElem?_append_left (by omega), hhigh, Option.getD_some]

theorem word_packet {c : ConfigParams} (h : ∀ v ∈ c.fields, v.toNat < 65536) {k : ℕ} {v : UINT}
    (hv : c.fields[k]? = some v) :
    word (fun i => c.packet.getD i 0) (2 * k + 2) = v := by
  obtain ⟨hlow, hhigh⟩ := getD_packet hv
  rw [word_eq, hlow, hhigh, bytes_append]
  exact (setWidth_setWidth_eq_iff v).mpr (h v (List.mem_of_getElem? hv))

/-- The sixteen bytes in front of a packet. -/
def clientHeader (packet : List UCHAR) : List UCHAR :=
  prePreamble ++ getBytes (BitVec.ofNat 32 packet.length) ++ getBytes 0

theorem clientSend_eq (packet : List UCHAR) :
    clientSend packet = clientHeader packet ++ packet := by
  rw [clientSend, correctPreamble_eq, clientHeader]

theorem length_clientHeader (packet : List UCHAR) : (clientHeader packet).length = 16 := rfl

/-- The server reads the length of the packet. -/
theorem getMsg_clientHeader {packet : List UCHAR} (h : packet.length < 65536) :
    getMsg (clientHeader packet) = some packet.length := by
  have hsum : (packet.length / 256 % 256) <<< 8 ||| packet.length % 256 = packet.length := by
    rw [← Nat.shiftLeft_add_eq_or_of_lt (Nat.mod_lt _ (by decide)), Nat.shiftLeft_eq]
    omega
  have hlow : ((clientHeader packet).getD 8 0).toNat = packet.length % 256 := by
    change ((BitVec.ofNat 32 packet.length).setWidth 8).toNat = _
    rw [BitVec.toNat_setWidth, BitVec.toNat_ofNat]
    omega
  have hhigh : ((clientHeader packet).getD 9 0).toNat = packet.length / 256 % 256 := by
    change ((BitVec.ofNat 32 packet.length >>> 8).setWidth 8).toNat = _
    rw [BitVec.toNat_setWidth, BitVec.toNat_ushiftRight, BitVec.toNat_ofNat,
      Nat.shiftRight_eq_div_pow]
    omega
  have htake : (clientHeader packet).take 8 = prePreamble := rfl
  rw [getMsg, if_neg (by simp [htake]), hlow, hhigh, hsum]

/-- The server gets the packet whole. -/
theorem getMsgs_clientSend {packet : List UCHAR} (hpacket : packet ≠ [])
    (h : packet.length < 65536) : getMsgs (clientSend packet) = some [packet] := by
  have hlen := length_clientHeader packet
  have hall : (clientHeader packet ++ packet).length = 16 + packet.length := by
    rw [List.length_append, hlen]
  have hdone : (clientHeader packet ++ packet).drop (16 + packet.length) = [] := by
    rw [← hall, List.drop_length]
  rw [clientSend_eq, getMsgs, if_neg (by simp [hpacket]), dif_neg (by omega),
    List.take_left' hlen, getMsg_clientHeader h]
  dsimp only
  rw [if_pos (by omega), hdone, getMsgs, if_pos rfl, List.drop_left' hlen, List.take_length]
  rfl

/-! ## What arrives -/

/-- The temperatures of the STM32 are the client's. -/
structure SameTemperatures (t : Temperatures) (c : ConfigParams) : Prop where
  engineTempLimit : t.engineTempLimit.toNat = c.engineTempLimit.toNat
  fanOnTemp : t.fanOnTemp.toNat = c.fanOn.toNat
  fanOffTemp : t.fanOffTemp.toNat = c.fanOff.toNat
  blower1Temp : t.blower1Temp.toNat = c.blower1On.toNat
  blower2Temp : t.blower2Temp.toNat = c.blower2On.toNat
  blower3Temp : t.blower3Temp.toNat = c.blower3On.toNat
  blowerEnTemp : t.blowerEnTemp.toNat = c.blowerEnabled.toNat
  battBoxTemp : t.battBoxTemp.toNat = c.batteryBoxTemp.toNat

/-- The command and the first parameter of a message to the FPGA. -/
def fpgaParam (v : BitVec 64) : UCHAR × ℕ := (v.setWidth 8, ((v >>> 8).setWidth 8).toNat)

theorem fpgaParam_pack64 (buff : ℕ → UCHAR) :
    fpgaParam (pack64 buff) = (buff 0, (buff 1).toNat) := by
  have hshift (var64 : BitVec 64) (b c : UCHAR) :
      (pushByte (pushByte var64 c) b >>> 8).setWidth 8 = c := by
    apply BitVec.eq_of_getLsbD_eq
    intro i hi
    have hin : 8 + i < 64 := by omega
    rw [BitVec.getLsbD_setWidth, BitVec.getLsbD_ushiftRight, getLsbD_pushByte, if_neg (by omega),
      Nat.add_sub_cancel_left, getLsbD_pushByte, if_pos hi]
    simp [hi, hin]
  simp only [fpgaParam, pack64, setWidth_pushByte, hshift]

/-- The copies of a parameter that fits in two bytes. -/
theorem toNat_packet {c : ConfigParams} (h : ∀ v ∈ c.fields, v.toNat < 65536) {k : ℕ} {v : UINT}
    (hv : c.fields[k]? = some v) :
    (c.packet.getD (2 * k + 3) 0 ++ c.packet.getD (2 * k + 2) 0 : BitVec 16).toNat = v.toNat := by
  obtain ⟨hlow, hhigh⟩ := getD_packet hv
  have hlt := h v (List.mem_of_getElem? hv)
  rw [hlow, hhigh, bytes_append, BitVec.toNat_setWidth]
  omega

section

variable {c : ConfigParams} (h : HostConfig) (hfields : ∀ v ∈ c.fields, v.toNat < 65536)

include hfields

theorem ps_updateConfig :
    (h.updateConfig fun i => c.packet.getD i 0).1.ps = c.toParams := by
  have hword (k : ℕ) {v : UINT} (hv : c.fields[k]? = some v) :
      word (fun i => c.packet.getD i 0) (2 * k + 2) = v := word_packet hfields hv
  simp only [HostConfig.updateConfig, ConfigParams.toParams, Params.mk.injEq]
  exact ⟨hword 0 rfl, hword 1 rfl, hword 2 rfl, hword 3 rfl, hword 4 rfl, hword 5 rfl, hword 6 rfl,
    hword 7 rfl, hword 8 rfl, hword 9 rfl, hword 10 rfl, hword 11 rfl, hword 12 rfl, hword 13 rfl,
    hword 14 rfl, hword 15 rfl, hword 16 rfl⟩

theorem temperatures_updateConfig (t : Temperatures) :
    SameTemperatures (t.startRecv7200 (h.updateConfig fun i => c.packet.getD i 0).2) c := by
  have htemp (k : ℕ) {v : UINT} (hv : c.fields[k]? = some v) :
      (c.packet.getD (2 * k + 3) 0 ++ c.packet.getD (2 * k + 2) 0 : BitVec 16).toNat = v.toNat :=
    toNat_packet hfields hv
  rw [HostConfig.updateConfig, Temperatures.startRecv7200_sendConfig2]
  exact
    { engineTempLimit := htemp 11 rfl
      fanOnTemp := htemp 4 rfl
      fanOffTemp := htemp 5 rfl
      blower1Temp := htemp 7 rfl
      blower2Temp := htemp 8 rfl
      blower3Temp := htemp 9 rfl
      blowerEnTemp := htemp 6 rfl
      battBoxTemp := htemp 12 rfl }

/-- The FPGA is sent the low bytes of the rates and limits. -/
theorem sendFpga_updateConfig (ucbuff : ℕ → UCHAR) :
    (sendFpga (h.updateConfig fun i => c.packet.getD i 0).2 ucbuff).map fpgaParam =
      [(FpgaCmd.setRpmMphUpdateRate.toByte, (c.siRpmMphUpdateRate.setWidth 8).toNat),
        (FpgaCmd.setFpgaSendUpdateRate.toByte, (c.siFPGAXmitRate.setWidth 8).toNat),
        (FpgaCmd.setHighRevLimit.toByte, (c.siHighRevLimit.setWidth 8).toNat),
        (FpgaCmd.setLowRevLimit.toByte, (c.siLowRevLimit.setWidth 8).toNat)] := by
  have hword (k : ℕ) {v : UINT} (hv : c.fields[k]? = some v) :
      word (fun i => c.packet.getD i 0) (2 * k + 2) = v := word_packet hfields hv
  have hrpm := hword 0 rfl
  have hfpga := hword 1 rfl
  have hhigh := hword 2 rfl
  have hlow := hword 3 rfl
  simp only [sendFpga, List.map_cons, List.map_nil, fpgaParam_pack64, fpgaBuff, SendSerial.buff,
    HostConfig.updateConfig, HostConfig.configBuffer]
  rw [hrpm, hfpga, hhigh, hlow]

end

/-- A configuration of the client arrives: the server has all its parameters, the STM32 its
temperatures, and the FPGA is sent its rates and limits. -/
theorem updateConfig_arrives (c : ConfigParams) (h : HostConfig) (t : Temperatures)
    (ucbuff : ℕ → UCHAR) (hfields : ∀ v ∈ c.fields, v.toNat < 65536)
    (htables : c.siHighRevLimit.toNat < hiRev.length ∧ c.siLowRevLimit.toNat < loRev.length ∧
      c.siLightsOnDelay.toNat < lightsOnDelays.length)
    (hselections : ∀ v ∈ [c.siRpmMphUpdateRate, c.siFPGAXmitRate, c.siHighRevLimit,
      c.siLowRevLimit], v.toNat < 256) :
    ∃ msg, getMsgs (clientSend c.packet) = some [msg] ∧
      msg.getD 0 0 = CmdType.updateConfig.toByte ∧
      let done := h.updateConfig fun i => msg.getD i 0
      done.1.ps = c.toParams ∧
        (hiRev[c.siHighRevLimit.toNat]? = some done.1.actualHighRevLimit ∧
          loRev[c.siLowRevLimit.toNat]? = some done.1.actualLowRevLimit ∧
          lightsOnDelays[c.siLightsOnDelay.toNat]? = some done.1.actualLightsOnDelay) ∧
        SameTemperatures (t.startRecv7200 done.2) c ∧
        (sendFpga done.2 ucbuff).map fpgaParam =
          [(FpgaCmd.setRpmMphUpdateRate.toByte, c.siRpmMphUpdateRate.toNat),
            (FpgaCmd.setFpgaSendUpdateRate.toByte, c.siFPGAXmitRate.toNat),
            (FpgaCmd.setHighRevLimit.toByte, c.siHighRevLimit.toNat),
            (FpgaCmd.setLowRevLimit.toByte, c.siLowRevLimit.toNat)] := by
  have hbyte {v : UINT} (hv : v.toNat < 256) : (v.setWidth 8).toNat = v.toNat := by
    rw [BitVec.toNat_setWidth]
    omega
  have hps := ps_updateConfig h hfields
  have hsend := sendFpga_updateConfig h hfields ucbuff
  obtain ⟨tail, hpacket⟩ := packet_eq c
  have hwhole : getMsgs (clientSend c.packet) = some [c.packet] := by
    apply getMsgs_clientSend
    · simp [hpacket]
    · rw [length_packet]
      decide
  refine ⟨c.packet, hwhole, by simp [hpacket], hps, ?_, ?_, ?_⟩
  · have hentry {table : List ℕ} {i : ℕ} (hi : i < table.length) :
        table[i]? = some (table.getD i 0) := by
      rw [List.getD_eq_getElem?_getD, List.getElem?_eq_getElem hi, Option.getD_some]
    have htable := congrArg (fun ps : Params => (hiRev.getD ps.highRevLimit.toNat 0,
      loRev.getD ps.lowRevLimit.toNat 0, lightsOnDelays.getD ps.lightsOnDelay.toNat 0)) hps
    simp only [Prod.mk.injEq] at htable
    rw [hentry htables.1, hentry htables.2.1, hentry htables.2.2]
    exact ⟨congrArg some htable.1.symm, congrArg some htable.2.1.symm,
      congrArg some htable.2.2.symm⟩
  · exact temperatures_updateConfig h hfields t
  · simp only [List.forall_mem_cons] at hselections
    rw [hsend, hbyte hselections.1, hbyte hselections.2.1, hbyte hselections.2.2.1,
      hbyte hselections.2.2.2.1]

/-- Temperatures with both bytes in use. -/
def coldConfig : ConfigParams where
  siRpmMphUpdateRate := 4
  siFPGAXmitRate := 2
  siHighRevLimit := 9
  siLowRevLimit := 8
  fanOn := 0x0186
  fanOff := 0x0190
  blowerEnabled := 70
  blower1On := 0xFF01
  blower2On := 0xFF02
  blower3On := 0xFFFF
  siLightsOnDelay := 12
  engineTempLimit := 0x01FF
  batteryBoxTemp := 75
  siTestBank := 1
  siPasswordTimeout := 300
  siPasswordRetries := 3
  siBaudrate3 := 2

theorem updateConfig_arrives_coldConfig :
    ∃ msg, getMsgs (clientSend coldConfig.packet) = some [msg] ∧
      SameTemperatures (Temperatures.init.startRecv7200 (HostConfig.updateConfig
        (fun i => msg.getD i 0) ⟨coldConfig.toParams, fun _ => 0, 6000, 4500, 1⟩).2)
          coldConfig := by
  obtain ⟨msg, hmsg, -, -, -, htemps, -⟩ := updateConfig_arrives coldConfig
    ⟨coldConfig.toParams, fun _ => 0, 6000, 4500, 1⟩ .init (fun _ => 0)
    (by simp [coldConfig, ConfigParams.fields])
    (by simp [coldConfig, hiRev, loRev, lightsOnDelays]) (by simp [coldConfig])
  exact ⟨msg, hmsg, htemps⟩

end TruckControl
