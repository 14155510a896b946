import Mathlib.Tactic.SplitIfs
import TruckControl.Model.Timer
import TruckControl.Verification.Relay.Abstract

/-! # The functions of the server, seen from one output -/

namespace TruckControl

namespace IoState

/-- A port's record and relay. -/
def relay (s : IoState) (p : ℕ) : Relay := ⟨s.datap p, s.hwBit p⟩

/-- The state outside the records, the relays and the control queue. -/
def rest (s : IoState) : IoState :=
  { s with
    oll := ollistInit
    outportstatus := fun _ => 0
    cardPorts := fun _ => 0
    msgQueue := .init }

/-! ## The primitive writes -/

@[simp] theorem datap_write (s : IoState) (i j : ℕ) (d : OData) :
    (s.write i d).datap j = if j = i then d else s.datap j := by
  simp only [datap, write, ollistFindData, ollistInsertData, SortedList.find_insert]
  split <;> rfl

@[simp] theorem datap_insertData (s : IoState) (i otp j : ℕ) :
    (s.insertData i otp).datap j = if j = i then s.datap otp else s.datap j :=
  datap_write s i j (s.datap otp)

@[simp] theorem hwBit_write (s : IoState) (i p : ℕ) (d : OData) :
    (s.write i d).hwBit p = s.hwBit p := rfl

@[simp] theorem hwBit_insertData (s : IoState) (i otp p : ℕ) :
    (s.insertData i otp).hwBit p = s.hwBit p := rfl

@[simp] theorem rest_write (s : IoState) (i : ℕ) (d : OData) : (s.write i d).rest = s.rest := rfl

@[simp] theorem rest_insertData (s : IoState) (i otp : ℕ) :
    (s.insertData i otp).rest = s.rest := rfl

@[simp] theorem rest_addMsgQueue (s : IoState) (cmd : UCHAR) :
    (s.addMsgQueue cmd).rest = s.rest := rfl

@[simp] theorem relay_addMsgQueue (s : IoState) (cmd : UCHAR) (p : ℕ) :
    (s.addMsgQueue cmd).relay p = s.relay p := rfl

@[simp] theorem relay_changeInput (s : IoState) (index p : ℕ) (onoff : Bool) :
    (s.changeInput index onoff).relay p = s.relay p := rfl

/-- The six output routines together write the bit of the port and nothing else. -/
theorem changeOutput_eq (s : IoState) {i : ℕ} (hi : i < 40) (onoff : Bool) :
    s.changeOutput i onoff =
      { s with
        outportstatus := s.outportstatus.assign i onoff
        cardPorts := Function.update s.cardPorts (roc (realBanks i).bank)
          (s.outportstatus.assign i onoff (realBanks i).bank) } := by
  have hself : s.outportstatus.assign i onoff (realBanks i).bank =
      Byte.assign (s.outportstatus (realBanks i).bank) (realBanks i).index onoff := by
    rw [Banks.assign, Function.update_self]
  have hbank : (realBanks i).bank = 0 ∨ (realBanks i).bank = 1 ∨ (realBanks i).bank = 2 ∨
      (realBanks i).bank = 3 ∨ (realBanks i).bank = 4 ∨ (realBanks i).bank = 5 := by
    have := realBanks_bank_lt i hi
    omega
  rw [hself]
  rcases hbank with h | h | h | h | h | h <;> simp only [changeOutput, Banks.assign, h] <;> rfl

@[simp] theorem datap_changeOutput (s : IoState) {i : ℕ} (hi : i < 40) (onoff : Bool) (p : ℕ) :
    (s.changeOutput i onoff).datap p = s.datap p := by
  rw [changeOutput_eq s hi]
  rfl

@[simp] theorem rest_changeOutput (s : IoState) {i : ℕ} (hi : i < 40) (onoff : Bool) :
    (s.changeOutput i onoff).rest = s.rest := by
  rw [changeOutput_eq s hi]
  rfl

@[simp] theorem hwBit_changeOutput (s : IoState) {i p : ℕ} (hi : i < 40) (hp : p < 40)
    (onoff : Bool) :
    (s.changeOutput i onoff).hwBit p = if p = i then onoff else s.hwBit p := by
  rw [changeOutput_eq s hi]
  exact Banks.bit_assign s.outportstatus hi hp onoff

theorem oll_changeOutput (s : IoState) {i : ℕ} (hi : i < 40) (onoff : Bool) :
    (s.changeOutput i onoff).oll = s.oll := by
  rw [changeOutput_eq s hi]

/-! ## Well-formed states -/

/-- The list holds all forty records with the setup they were loaded with, and `ip` is
the table `init_ips` built. -/
structure WellFormed (db : Database) (s : IoState) : Prop where
  found : ∀ p < 40, ∃ d, ollistFindData p s.oll = some d
  setup : ∀ p < 40, (s.datap p).setup = (db.records p).setup
  ip : s.ip = initIps db.olLoadConfig

variable {db : Database} {s : IoState}

theorem WellFormed.port (h : WellFormed db s) {p : ℕ} (hp : p < 40) :
    (s.datap p).port.toNat = p := by
  rw [(Relay.setup_eq_of_eq (h.setup p hp)).1, db.port_eq p hp]

theorem found_write (s : IoState) (i p : ℕ) (d : OData)
    (h : ∃ d, ollistFindData p s.oll = some d) :
    ∃ e, ollistFindData p (s.write i d).oll = some e := by
  simp only [write, ollistFindData, ollistInsertData, SortedList.find_insert]
  split
  · exact ⟨d, rfl⟩
  · exact h

theorem found_insertData (s : IoState) (i otp p : ℕ)
    (h : ∃ d, ollistFindData p s.oll = some d) :
    ∃ e, ollistFindData p (s.insertData i otp).oll = some e :=
  found_write s i p (s.datap otp) h

/-! ## Changes seen from every output -/

/-- A change from `s` to `t` acts on each port as `acts` says, and keeps the table. -/
structure Acts (s t : IoState) (acts : ℕ → Relay.Action) : Prop where
  relay_eq : ∀ p < 40, t.relay p = (s.relay p).act (acts p)
  found : ∀ p < 40, (∃ d, ollistFindData p s.oll = some d) →
    ∃ d, ollistFindData p t.oll = some d
  ip_eq : t.ip = s.ip

theorem Acts.wellFormed {t : IoState} {acts : ℕ → Relay.Action} (h : Acts s t acts)
    (hs : WellFormed db s) : WellFormed db t := by
  refine ⟨fun p hp => h.found p hp (hs.found p hp), ?_, h.ip_eq.trans hs.ip⟩
  intro p hp
  have hr := congrArg Relay.datap (h.relay_eq p hp)
  change t.datap p = _ at hr
  rw [hr, Relay.setup_act]
  exact hs.setup p hp

/-- A change outside the outputs. -/
theorem Acts.of_keep {t : IoState} (hrelay : ∀ p < 40, t.relay p = s.relay p)
    (holl : t.oll = s.oll) (hip : t.ip = s.ip) : Acts s t fun _ => .keep :=
  ⟨hrelay, fun _ _ h => holl ▸ h, hip⟩

/-- A change to port `q` alone: there as the relay machine, elsewhere not at all, and
nothing outside the outputs and the queue. -/
structure ActsOn (s t : IoState) (q : ℕ) (a : Relay.Action) : Prop where
  relay_eq : ∀ p < 40, t.relay p = if p = q then (s.relay p).act a else s.relay p
  rest_eq : t.rest = s.rest
  found : ∀ p < 40, (∃ d, ollistFindData p s.oll = some d) →
    ∃ d, ollistFindData p t.oll = some d

theorem ActsOn.acts {t : IoState} {q : ℕ} {a : Relay.Action} (h : ActsOn s t q a) :
    Acts s t fun p => if p = q then a else .keep := by
  refine ⟨?_, h.found, ?_⟩
  · intro p hp
    rw [h.relay_eq p hp]
    split <;> rfl
  · have hip := congrArg IoState.ip h.rest_eq
    exact hip

theorem ActsOn.wellFormed {t : IoState} {q : ℕ} {a : Relay.Action} (h : ActsOn s t q a)
    (hs : WellFormed db s) : WellFormed db t :=
  h.acts.wellFormed hs

/-- The pattern of every write to an output: assign to the record, drive the relay,
store the record back. -/
theorem actsOn_write {q : ℕ} (hq : q < 40) {d : OData} {v : Bool} {a : Relay.Action}
    (hport : d.port.toNat = q) (hact : (s.relay q).act a = ⟨d, v⟩) :
    ActsOn s (((s.write q d).changeOutput d.port.toNat v).insertData d.port.toNat q) q a := by
  subst hport
  refine ⟨?_, ?_, ?_⟩
  · intro p hp
    by_cases hpq : p = d.port.toNat
    · subst hpq
      rw [if_pos rfl, hact]
      simp [relay, hq]
    · simp [relay, hq, hp, hpq]
  · simp [hq]
  · intro p hp h
    apply found_insertData
    rw [oll_changeOutput _ hq]
    exact found_write s d.port.toNat p d h

/-- Assigning to the record alone. -/
theorem actsOn_record {q : ℕ} {d : OData} {a : Relay.Action}
    (hact : (s.relay q).act a = ⟨d, s.hwBit q⟩) : ActsOn s (s.write q d) q a := by
  refine ⟨?_, rfl, fun p hp h => found_write s q p d h⟩
  intro p hp
  by_cases hpq : p = q
  · subst hpq
    rw [if_pos rfl, hact]
    simp [relay]
  · simp [relay, hpq]

theorem actsOn_keep {q : ℕ} {a : Relay.Action} (hact : (s.relay q).act a = s.relay q) :
    ActsOn s s q a := by
  refine ⟨?_, rfl, fun _ _ h => h⟩
  intro p _
  by_cases hpq : p = q
  · rw [if_pos hpq, hpq, hact]
  · rw [if_neg hpq]

theorem ActsOn.addMsgQueue {t : IoState} {q : ℕ} {a : Relay.Action} (h : ActsOn s t q a)
    (cmd : UCHAR) : ActsOn s (t.addMsgQueue cmd) q a :=
  ⟨h.relay_eq, h.rest_eq, h.found⟩

/-! ## `set_output` and the direct commands -/

@[simp] theorem level_eq_zero_iff (onoff : Bool) : level onoff = 0#8 ↔ onoff = false := by
  cases onoff <;> decide

@[simp] theorem level_eq_one_iff (onoff : Bool) : level onoff = 1#8 ↔ onoff = true := by
  cases onoff <;> decide

theorem actsOn_setOutput (hs : WellFormed db s) {q : ℕ} (hq : q < 40) (onoff : Bool) :
    ActsOn s (s.setOutput q onoff) q (.set onoff) := by
  have hport := hs.port hq
  by_cases h0 : (s.datap q).type = 0#8
  · by_cases hpol : (s.datap q).polarity = 1#8
    · have h := actsOn_write (s := s) hq (d := { s.datap q with onoff := level (!onoff) })
        (v := !onoff) (a := .set onoff) hport (by
          simp [Relay.act, Relay.setOutput, relay, h0, hpol])
      simpa [setOutput, h0, hpol] using h
    · have h := actsOn_write (s := s) hq (d := { s.datap q with onoff := level onoff })
        (v := onoff) (a := .set onoff) hport (by
          simp [Relay.act, Relay.setOutput, relay, h0, hpol])
      simpa [setOutput, h0, hpol] using h
  by_cases h1 : (s.datap q).type = 1#8
  · by_cases hr0 : (s.datap q).reset = 0#8
    · by_cases hon : (s.datap q).onoff = 1#8
      · have h := actsOn_write (s := s) hq (d := { s.datap q with reset := 1#8, onoff := 0#8 })
          (v := false) (a := .set onoff) hport (by
            simp [Relay.act, Relay.setOutput, relay, h1, hr0, hon, level])
        simpa [setOutput, h1, hr0, hon] using h
      · have h := actsOn_write (s := s) hq (d := { s.datap q with reset := 1#8, onoff := 1#8 })
          (v := true) (a := .set onoff) hport (by
            simp [Relay.act, Relay.setOutput, relay, h1, hr0, hon, level])
        simpa [setOutput, h1, hr0, hon] using h
    · by_cases hr1 : (s.datap q).reset = 1#8
      · have h := actsOn_record (s := s) (q := q) (d := { s.datap q with reset := 0#8 })
          (a := .set onoff) (by simp [Relay.act, Relay.setOutput, relay, h1, hr1])
        simpa [setOutput, h1, hr1] using h
      · have h := actsOn_keep (s := s) (q := q) (a := .set onoff)
          (by simp [Relay.act, Relay.setOutput, relay, h1, hr0, hr1])
        simpa [setOutput, h1, hr0, hr1] using h
  by_cases h23 : (s.datap q).type = 2#8 ∨ (s.datap q).type = 3#8
  · by_cases hr0 : (s.datap q).reset = 0#8
    · have h := actsOn_write (s := s) hq
        (d := { s.datap q with reset := 1#8, timeLeft := (s.datap q).timeDelay, onoff := 1#8 })
        (v := true) (a := .set onoff) hport (by
          simp [Relay.act, Relay.setOutput, relay, h0, h1, h23, hr0])
      simpa [setOutput, h0, h1, h23, hr0] using h
    · have h := actsOn_keep (s := s) (q := q) (a := .set onoff)
        (by simp [Relay.act, Relay.setOutput, relay, h0, h1, h23, hr0])
      simpa [setOutput, h0, h1, h23, hr0] using h
  by_cases h4 : (s.datap q).type = 4#8
  · by_cases hr0 : (s.datap q).reset = 0#8
    · have h := actsOn_write (s := s) hq (d := { s.datap q with reset := 1#8, onoff := 0#8 })
        (v := false) (a := .set onoff) hport (by
          simp [Relay.act, Relay.setOutput, relay, h4, hr0])
      simpa [setOutput, h4, hr0] using h.addMsgQueue CmdType.estopSignal.toByte
    · by_cases hr1 : (s.datap q).reset = 1#8
      · have h := actsOn_record (s := s) (q := q) (d := { s.datap q with reset := 3#8 })
          (a := .set onoff) (by simp [Relay.act, Relay.setOutput, relay, h4, hr1])
        simpa [setOutput, h4, hr1] using h
      · have h := actsOn_keep (s := s) (q := q) (a := .set onoff)
          (by simp [Relay.act, Relay.setOutput, relay, h4, hr0, hr1])
        simpa [setOutput, h4, hr0, hr1] using h
  · have h := actsOn_keep (s := s) (q := q) (a := .set onoff)
      (by simp [Relay.act, Relay.setOutput, relay, h0, h1, h23, h4])
    simpa [setOutput, h0, h1, h23, h4] using h

end IoState

end TruckControl
