import TruckControl.Library.Byte
import TruckControl.Model.MsgQueue
import TruckControl.Model.OutputRecords

/-! # The state of the IO box and the functions that change outputs and inputs -/

namespace TruckControl

/-! ## Ports and banks -/

/-- Where one of the forty ports sits among the six 8-bit banks. -/
structure RealBank where
  i : ℕ
  bank : ℕ
  index : ℕ
  deriving DecidableEq, Repr

/-- The table `get_host_cmd_task` fills: each card has two full banks and one of four
bits. -/
def realBanks (i : ℕ) : RealBank :=
  if i < 20 then ⟨i, i / 8, i - i / 8 * 8⟩
  else ⟨i, (i + 4) / 8, i + 4 - (i + 4) / 8 * 8⟩

theorem realBanks_bank_lt : ∀ i < 40, (realBanks i).bank < 6 := by decide

theorem realBanks_index_lt : ∀ i < 40, (realBanks i).index < 8 := by decide

theorem realBanks_injective : ∀ i < 40, ∀ j < 40,
    (realBanks i).bank = (realBanks j).bank → (realBanks i).index = (realBanks j).index →
      i = j := by decide

/-- One byte for each bank. -/
abbrev Banks := ℕ → UCHAR

/-- The bit of a port or an input. -/
def Banks.bit (b : Banks) (i : ℕ) : Bool :=
  (b (realBanks i).bank).getLsbD (realBanks i).index

/-- Write the bit of a port or an input through its mask. -/
def Banks.assign (b : Banks) (i : ℕ) (v : Bool) : Banks :=
  Function.update b (realBanks i).bank
    (Byte.assign (b (realBanks i).bank) (realBanks i).index v)

/-- The first eight ports are the bits of the first bank. -/
theorem realBanks_of_lt : ∀ i < 8, realBanks i = ⟨i, 0, i⟩ := by decide

theorem Banks.getLsbD_assign (b : Banks) {i : ℕ} (hi : i < 40) (v : Bool) (bank j : ℕ) :
    (b.assign i v bank).getLsbD j =
      if bank = (realBanks i).bank ∧ j = (realBanks i).index then v else (b bank).getLsbD j := by
  rw [Banks.assign]
  by_cases hb : bank = (realBanks i).bank
  · rw [hb, Function.update_self, Byte.getLsbD_assign _ _ _ _ (realBanks_index_lt i hi)]
    simp
  · rw [Function.update_of_ne hb]
    simp [hb]

@[simp] theorem Banks.bit_assign (b : Banks) {i j : ℕ} (hi : i < 40) (hj : j < 40) (v : Bool) :
    (b.assign i v).bit j = if j = i then v else b.bit j := by
  rw [Banks.bit, Banks.getLsbD_assign b hi, Banks.bit]
  have hiff : (realBanks j).bank = (realBanks i).bank ∧
      (realBanks j).index = (realBanks i).index ↔ j = i := by
    constructor
    · intro h
      exact realBanks_injective j hj i hi h.1 h.2
    · intro h
      rw [h]
      exact ⟨rfl, rfl⟩
  simp only [hiff]

/-! ## The state -/

/-- What the tasks of the server share. -/
structure IoState where
  oll : Ollist
  ip : List Ip
  outportstatus : Banks
  cardPorts : Banks
  inportstatus : Banks
  fakeInportstatus1 : Banks
  fakeInportstatus2 : Banks
  msgQueue : MsgQueue
  engineRunning : ℕ
  lightsOnCountdown : ℕ
  actualLightsOnDelay : ℕ
  testLblinkers : ℕ
  testRblinkers : ℕ
  runningHours : UCHAR
  runningMinutes : UCHAR
  runningSeconds : UCHAR
  trunningHours : UCHAR
  trunningMinutes : UCHAR
  trunningSeconds : UCHAR

namespace IoState

/-- The record a found pointer points at. On a list without the index the server
follows a null pointer, here a record of zeros; a loaded database has all forty. -/
def datap (s : IoState) (otp : ℕ) : OData := (ollistFindData otp s.oll).getD default

/-- The hardware bit of a port. -/
def hwBit (s : IoState) (p : ℕ) : Bool := s.outportstatus.bit p

/-- Assign to the record a found pointer points at. -/
def write (otp : ℕ) (datap : OData) (s : IoState) : IoState :=
  { s with oll := ollistInsertData otp s.oll datap }

/-- `ollist_insert_data(index,&oll,otp)`: a copy of the record is stored at `index`. -/
def insertData (index otp : ℕ) (s : IoState) : IoState :=
  { s with oll := ollistInsertData index s.oll (s.datap otp) }

def addMsgQueue (cmd : UCHAR) (s : IoState) : IoState :=
  { s with msgQueue := s.msgQueue.addMsgQueue cmd }

/-! ## Outputs -/

/-- The card register of each bank: `ROC_1` to `ROC_6`. -/
def roc (bank : ℕ) : ℕ := if bank < 3 then 0x280 + bank else 0x300 + (bank - 3)

/-- The read-modify-write that `OutPortA` to `OutPortF` share. -/
def outPort (bank : ℕ) (onoff : Bool) (bit : ℕ) (s : IoState) : IoState :=
  let state := Byte.assign (s.outportstatus bank) bit onoff
  { s with
    outportstatus := Function.update s.outportstatus bank state
    cardPorts := Function.update s.cardPorts (roc bank) state }

def outPortA := outPort 0
def outPortB := outPort 1
def outPortC := outPort 2
def outPortD := outPort 3
def outPortE := outPort 4
def outPortF := outPort 5

def changeOutput (index : ℕ) (onoff : Bool) (s : IoState) : IoState :=
  match (realBanks index).bank with
  | 0 => outPortA onoff (realBanks index).index s
  | 1 => outPortB onoff (realBanks index).index s
  | 2 => outPortC onoff (realBanks index).index s
  | 3 => outPortD onoff (realBanks index).index s
  | 4 => outPortE onoff (realBanks index).index s
  | 5 => outPortF onoff (realBanks index).index s
  | _ => s

/-- The value C stores for a level. -/
def level (onoff : Bool) : UCHAR := if onoff then 1#8 else 0#8

/-- Change an output according to the type of its record. `otp` is the index the
record was found under, `otp->port` the port it writes and is stored back under. -/
def setOutput (otp : ℕ) (onoff : Bool) (s : IoState) : IoState :=
  let d := s.datap otp
  if d.type = 0#8 then
    let d := { d with onoff := if d.polarity = 1#8 then level (!onoff) else level onoff }
    ((s.write otp d).changeOutput d.port.toNat (d.onoff ≠ 0#8)).insertData d.port.toNat otp
  else if d.type = 1#8 then
    if d.reset = 0#8 then
      let d := { d with reset := 1#8, onoff := if d.onoff = 1#8 then 0#8 else 1#8 }
      ((s.write otp d).changeOutput d.port.toNat (d.onoff ≠ 0#8)).insertData d.port.toNat otp
    else if d.reset = 1#8 then
      s.write otp { d with reset := 0#8 }
    else s
  else if d.type = 2#8 ∨ d.type = 3#8 then
    if d.reset = 0#8 then
      let d := { d with reset := 1#8, timeLeft := d.timeDelay, onoff := 1#8 }
      ((s.write otp d).changeOutput d.port.toNat true).insertData d.port.toNat otp
    else s
  else if d.type = 4#8 then
    if d.reset = 0#8 then
      let d := { d with reset := 1#8, onoff := 0#8 }
      (((s.write otp d).changeOutput d.port.toNat false).insertData d.port.toNat otp).addMsgQueue
        CmdType.estopSignal.toByte
    else if d.reset = 1#8 then
      s.write otp { d with reset := 3#8 }
    else s
  else s

/-! ## Inputs -/

/-- Ask for an input to be seen at a level by the next poll. -/
def changeInput (index : ℕ) (onoff : Bool) (s : IoState) : IoState :=
  { s with fakeInportstatus2 := s.fakeInportstatus2.assign index onoff }

/-- `mask2int`. -/
def mask2int (mask : UCHAR) : ℕ := Byte.highestBit mask

/-- The input at a bit of a bank; a bit without a `real_banks` entry keeps its own
number. -/
def realIndex (bank index : ℕ) : ℕ :=
  (List.range 40).foldl
    (fun index i =>
      if (realBanks i).bank = bank ∧ (realBanks i).index = index then (realBanks i).i else index)
    index

/-- The input and the level that a changed bank is decoded to. An unchanged bank is
passed over, and so is a change beyond `0x80`, which stays pending. -/
def decodeChange (bank : ℕ) (result status : UCHAR) : Option (ℕ × Bool) :=
  let mask := result ^^^ status
  if result = status then none
  else if mask > 0x80#8 then none
  else some (realIndex bank (mask2int mask), mask &&& result = mask)

/-- Call `set_output` on every output that `ip` assigns to an input. -/
def dispatch (index : ℕ) (onoff : Bool) (s : IoState) : IoState :=
  s.ip.foldl (fun s row => if row.input = index then setOutput row.port onoff s else s) s

/-- One bank of a pass of `monitor_input_task`; `result` is the complement of the byte
read from the card. -/
def monitorInputTask (bank : ℕ) (result : UCHAR) (s : IoState) : IoState :=
  match decodeChange bank result (s.inportstatus bank) with
  | none => s
  | some (index, onoff) =>
      let s := dispatch index onoff s
      { s with inportstatus := Function.update s.inportstatus bank result }

/-- One bank of a pass of `monitor_fake_input_task`. -/
def monitorFakeInputTask (bank : ℕ) (s : IoState) : IoState :=
  let result := s.fakeInportstatus2 bank
  let mask := result ^^^ s.fakeInportstatus1 bank
  match decodeChange bank result (s.fakeInportstatus1 bank) with
  | none => s
  | some (index, onoff) =>
      let s := { s with
        fakeInportstatus2 := Function.update s.fakeInportstatus2 bank
          (if onoff then s.fakeInportstatus2 bank ||| mask
            else s.fakeInportstatus2 bank &&& ~~~mask) }
      let s := dispatch index onoff s
      { s with
        fakeInportstatus1 :=
          Function.update s.fakeInportstatus1 bank (s.fakeInportstatus2 bank) }

end IoState

end TruckControl
