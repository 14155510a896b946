import Mathlib.Algebra.Group.Nat.Defs
import TruckControl.Library.Reports
import TruckControl.Model.ParamTables
import TruckControl.Verification.ParamFile

/-!
# The tables that the stored parameters select from

A selection that is outside its table is stored, written to `param.conf` and used again when
the server starts from it.
-/

namespace TruckControl

/-! ## Reading back what was written -/

namespace Params

theorem ofBytes_toBytes (ps : Params) : ofBytes ps.toBytes = ps := by
  cases ps
  simp only [ofBytes, toBytes, fields, intAt, getBytes, List.flatMap_cons, List.cons_append,
    List.nil_append, List.getD_cons_succ, List.getD_cons_zero, append_getBytes, mk.injEq]
  simp [append_getBytes]

end Params

namespace ParamStore

/-- What is loaded of a file with both markers. -/
theorem ps_loaded_of_marked {id : UCHAR} {content : List UCHAR}
    (hmark : content.headD id = 0xAA#8) (hlen : sizeofParams ≤ (content.drop 1).length) :
    (loaded id (some content)).ps = (content.drop 1).take sizeofParams := by
  rw [loaded, (loadParams_marked hmark .zero).2.1, readInto_of_le hlen, ← ParamBlock.zero.length_ps,
    List.drop_length, List.append_nil]

/-- A complete file is loaded as it was written. -/
theorem ps_loaded_writeParams (id : UCHAR) (b : ParamBlock) :
    (loaded id (some (TruckControl.writeParams b))).ps = b.ps := by
  have hrest : (TruckControl.writeParams b).drop 1 = b.ps ++ (b.password.take 4 ++ [0x55#8]) := by
    simp [TruckControl.writeParams]
  have hlen : sizeofParams ≤ ((TruckControl.writeParams b).drop 1).length := by
    rw [hrest, List.length_append, b.length_ps]
    omega
  rw [ps_loaded_of_marked rfl hlen, hrest, List.take_left' b.length_ps]

/-- An accepted file holds what is loaded of it. -/
theorem ps_loaded_of_accepted {id : UCHAR} {content : List UCHAR}
    (h : (loadParams id (some content) .zero).ret = 0) :
    (loaded id (some content)).ps = (content.drop 1).take sizeofParams := by
  by_cases hmark : content.headD id = 0xAA#8
  · apply ps_loaded_of_marked hmark
    rw [(loadParams_marked hmark .zero).1] at h
    split_ifs at h with hend
    have hlt := (List.getElem?_eq_some_iff.mp hend).1
    omega
  · rw [loadParams, if_pos hmark] at h
    cases h

/-- What lies on the stack does not matter. -/
theorem loaded_id (id id' : UCHAR) (file : Option (List UCHAR)) :
    loaded id file = loaded id' file := by
  cases file with
  | none => rfl
  | some content =>
      cases content with
      | nil =>
          have hzero (id : UCHAR) : loaded id (some []) = .zero := by
            simp only [loaded, loadParams]
            split_ifs <;> rfl
          rw [hzero id, hzero id']
      | cons b content =>
          simp only [loaded, loadParams, List.headD_cons]
          split_ifs <;> rfl

end ParamStore

/-! ## The bounds -/

theorem inRange_toInt_iff {n : ℕ} (hn : n ≤ 2 ^ 31) (v : UINT) :
    (0 ≤ v.toInt ∧ v.toInt < n) ↔ v.toNat < n := by
  rw [BitVec.toInt_eq_toNat_cond]
  have hv := v.isLt
  split_ifs <;> omega

/-- The selections of a message are in their tables. -/
def ParamMsg.Fits (msgBuf : ℕ → UCHAR) : ParamMsg → Prop
  | .highRevLimit => (word msgBuf 2).toNat < 10
  | .lowRevLimit => (word msgBuf 2).toNat < 9
  | .lightsOnDelay => (word msgBuf 2).toNat < 13
  | .updateConfig =>
      (word msgBuf 6).toNat < 10 ∧ (word msgBuf 8).toNat < 9 ∧ (word msgBuf 22).toNat < 13
  | .setBattBoxTemp | .set _ => True

instance (msgBuf : ℕ → UCHAR) : DecidablePred (ParamMsg.Fits msgBuf)
  | .highRevLimit | .lowRevLimit | .lightsOnDelay => inferInstanceAs (Decidable (_ < _))
  | .updateConfig => inferInstanceAs (Decidable (_ ∧ _ ∧ _))
  | .setBattBoxTemp | .set _ => .isTrue trivial

def ParamEvent.Fits : ParamEvent → Prop
  | .message m msgBuf _ => m.Fits msgBuf
  | .gpsBaudrate _ _ | .exitProgram _ | .restart _ _ => True

instance : DecidablePred ParamEvent.Fits
  | .message m msgBuf _ => inferInstanceAs (Decidable (m.Fits msgBuf))
  | .gpsBaudrate _ _ | .exitProgram _ | .restart _ _ => .isTrue trivial

theorem ParamMsg.accesses_iff_fits (m : ParamMsg) (msgBuf : ℕ → UCHAR) :
    (∀ a ∈ m.accesses msgBuf, a.InRange) ↔ m.Fits msgBuf := by
  have hhi (v : UINT) : (TableAccess.hiRev v.toInt).InRange ↔ v.toNat < 10 :=
    inRange_toInt_iff (by decide) v
  have hlo (v : UINT) : (TableAccess.loRev v.toInt).InRange ↔ v.toNat < 9 :=
    inRange_toInt_iff (by decide) v
  have hlights (v : UINT) : (TableAccess.lightsOnDelay v.toInt).InRange ↔ v.toNat < 13 :=
    inRange_toInt_iff (by decide) v
  cases m <;> simp [accesses, Fits, hhi, hlo, hlights]

namespace ParamStore

/-- The selection of `lights_on_delay` that the file holds. -/
def storedLights (file : Option (List UCHAR)) : UINT :=
  (Params.ofBytes (loaded 0 file).ps).lightsOnDelay

/-- The selection in memory and the one in the file are in the table, and so is the delay. -/
structure Bounded (s : ParamStore) : Prop where
  memory : s.host.ps.lightsOnDelay.toNat < 13
  stored : (storedLights s.file).toNat < 13
  delay : s.host.actualLightsOnDelay ∈ lightsOnDelays

theorem storedLights_writeParams (b : ParamBlock) :
    storedLights (some (TruckControl.writeParams b)) = (Params.ofBytes b.ps).lightsOnDelay := by
  rw [storedLights, ps_loaded_writeParams]

theorem lights_mem {i : ℕ} (h : i < 13) : lightsOnDelays.getD i 0 ∈ lightsOnDelays := by
  rw [List.getD_eq_getElem?_getD, List.getElem?_eq_getElem h, Option.getD_some]
  exact List.getElem_mem h

theorem lightsOnDelay_initIps (id : UCHAR) (opened : Bool) (file : Option (List UCHAR)) :
    (initIps id opened file).host.ps.lightsOnDelay =
      if opened then storedLights file else 0 := by
  cases opened with
  | false =>
      have hzero : (Params.ofBytes ParamBlock.zero.ps).lightsOnDelay = 0 := by decide
      rw [if_neg Bool.false_ne_true]
      exact hzero
  | true => rw [if_pos rfl, storedLights, loaded_id 0 id]; rfl

/-- A file that is read at the start has to select from the table. -/
theorem initAccesses_inRange_iff (id : UCHAR) (opened : Bool) (file : Option (List UCHAR)) :
    (∀ a ∈ initAccesses id opened file, a.InRange) ↔
      (opened = true → (storedLights file).toNat < 13) := by
  have hlights (v : UINT) : (TableAccess.lightsOnDelay v.toInt).InRange ↔ v.toNat < 13 :=
    inRange_toInt_iff (by decide) v
  rw [initAccesses, List.forall_mem_singleton, hlights, lightsOnDelay_initIps]
  cases opened <;> simp

/-- The start from a file that selects from the table. -/
theorem bounded_initIps (id : UCHAR) (opened : Bool) {file : Option (List UCHAR)}
    (h : (storedLights file).toNat < 13) : (initIps id opened file).Bounded := by
  have hmemory : (initIps id opened file).host.ps.lightsOnDelay.toNat < 13 := by
    rw [lightsOnDelay_initIps]
    split_ifs
    · exact h
    · decide
  exact ⟨hmemory, h, lights_mem hmemory⟩

theorem Bounded.writeParams {s : ParamStore} (h : s.Bounded) (opened : Bool) :
    (s.writeParams opened).Bounded := by
  cases opened with
  | false => exact h
  | true =>
      refine ⟨h.memory, ?_, h.delay⟩
      change (storedLights (some (TruckControl.writeParams s.block))).toNat < 13
      rw [storedLights_writeParams, block, Params.ofBytes_toBytes]
      exact h.memory

/-- A message whose selections are in their tables. -/
theorem Bounded.handle {s : ParamStore} (h : s.Bounded) {m : ParamMsg} {msgBuf : ℕ → UCHAR}
    (hfits : m.Fits msgBuf) : (s.handle m msgBuf).Bounded := by
  have hhost (hmemory : (m.handle msgBuf s.host).ps.lightsOnDelay.toNat < 13)
      (hdelay : (m.handle msgBuf s.host).actualLightsOnDelay ∈ lightsOnDelays) :
      (s.handle m msgBuf).Bounded := by
    rw [ParamStore.handle]
    split_ifs
    · exact ⟨hmemory, h.stored, hdelay⟩
    · exact ⟨hmemory, h.stored, hdelay⟩
  cases m with
  | highRevLimit => exact hhost h.memory h.delay
  | lowRevLimit => exact hhost h.memory h.delay
  | lightsOnDelay => exact hhost hfits (lights_mem hfits)
  | updateConfig => exact hhost hfits.2.2 (lights_mem hfits.2.2)
  | setBattBoxTemp => exact hhost h.memory h.delay
  | set k => cases k <;> exact hhost h.memory h.delay

theorem Bounded.step {s : ParamStore} (h : s.Bounded) {e : ParamEvent} (he : e.Fits) :
    (s.step e).Bounded := by
  cases e with
  | message m msgBuf opened => exact (h.handle he).writeParams opened
  | gpsBaudrate brTry opened =>
      apply Bounded.writeParams
      exact ⟨h.memory, h.stored, h.delay⟩
  | exitProgram opened => exact h.writeParams opened
  | restart id opened => exact bounded_initIps id opened h.stored

theorem Bounded.accesses_iff_fits {s : ParamStore} (h : s.Bounded) (e : ParamEvent) :
    (∀ a ∈ s.accesses e, a.InRange) ↔ e.Fits := by
  cases e with
  | message m msgBuf opened => exact m.accesses_iff_fits msgBuf
  | gpsBaudrate brTry opened => simp [accesses, ParamEvent.Fits]
  | exitProgram opened => simp [accesses, ParamEvent.Fits]
  | restart id opened =>
      rw [accesses, initAccesses_inRange_iff]
      exact ⟨fun _ => trivial, fun _ _ => h.stored⟩

/-- What the server looks up from its start on. -/
def allAccesses (id : UCHAR) (file : Option (List UCHAR)) (es : List ParamEvent) :
    List TableAccess :=
  initAccesses id true file ++ Transition.reports step accesses (initIps id true file) es

/-- From the start with any file, accepted or not, every look-up is in range, and the delay is one
of the table, exactly if the file and each message select from the tables. -/
theorem inRange_iff_stored (id : UCHAR) (file : Option (List UCHAR)) (es : List ParamEvent) :
    ((∀ a ∈ allAccesses id file es, a.InRange) ∧
        ∀ fs, fs <+: es →
          (Transition.exec step (initIps id true file) fs).host.actualLightsOnDelay ∈
            lightsOnDelays) ↔
      (storedLights file).toNat < 13 ∧ ∀ e ∈ es, e.Fits := by
  rw [allAccesses, List.forall_mem_append, initAccesses_inRange_iff]
  simp only [true_implies]
  by_cases hfile : (storedLights file).toNat < 13
  · have hstart := bounded_initIps id true hfile
    have hany : Transition.Meets step (fun _ _ => True) (initIps id true file) es :=
      Transition.meets_of_forall (fun _ _ => trivial) _ es
    have hmeets : Transition.Meets step (fun s e => ∀ a ∈ s.accesses e, a.InRange)
          (initIps id true file) es ↔
        Transition.Meets step (fun _ e => e.Fits) (initIps id true file) es :=
      Transition.meets_congr_of_meets
        (fun s e h _ hin => Bounded.step h ((h.accesses_iff_fits e).mp hin))
        (fun s e h _ => h.accesses_iff_fits e) hstart hany
    rw [Transition.forall_mem_reports_iff, hmeets, Transition.meets_iff_forall_mem]
    constructor
    · intro h
      exact ⟨hfile, h.1.2⟩
    · intro h
      refine ⟨⟨hfile, h.2⟩, fun fs hfs => ?_⟩
      have hfits : Transition.Meets step (fun _ e => e.Fits) (initIps id true file) fs :=
        Transition.meets_of_forall_mem (fun e he => h.2 e (hfs.subset he)) _
      have hlast : (Transition.exec step (initIps id true file) fs).Bounded :=
        Transition.inv_exec_of_meets (fun s e hs he => hs.step he) hstart hfits
      exact hlast.delay
  · simp [hfile]

theorem storedLights_of_accepted {id : UCHAR} {content : List UCHAR}
    (h : (loadParams id (some content) .zero).ret = 0) :
    storedLights (some content) = Params.intAt (content.drop 1) 10 := by
  rw [storedLights, loaded_id 0 id, ps_loaded_of_accepted h, Params.ofBytes, Params.intAt]
  simp [Params.intAt, sizeofParams, List.getD_eq_getElem?_getD]

/-- From the start with a file that is accepted on, every look-up is in range, and the delay is
one of the table, exactly if the eleventh integer of the file and each message select from the
tables. -/
theorem tables_inRange_iff (id : UCHAR) (content : List UCHAR) (es : List ParamEvent)
    (haccept : (loadParams id (some content) .zero).ret = 0) :
    ((∀ a ∈ allAccesses id (some content) es, a.InRange) ∧
        ∀ fs, fs <+: es →
          (Transition.exec step (initIps id true (some content)) fs).host.actualLightsOnDelay ∈
            lightsOnDelays) ↔
      (Params.intAt (content.drop 1) 10).toNat < 13 ∧ ∀ e ∈ es, e.Fits := by
  rw [inRange_iff_stored, storedLights_of_accepted haccept]

/-- The parameters of a file that the server has written, with this delay. -/
def delayedLights (i : UINT) : Params where
  rpmMphUpdateRate := 2
  fpgaXmitRate := 5
  highRevLimit := 9
  lowRevLimit := 7
  coolingFanOn := 170
  coolingFanOff := 150
  blowerEnabled := 70
  blower1On := 65
  blower2On := 55
  blower3On := 45
  lightsOnDelay := i
  engineTempLimit := 190
  battBoxTemp := 75
  testBank := 0
  passwordTimeout := 4
  passwordRetries := 3
  baudrate3 := 0

theorem length_noPassword : (List.replicate passwordSize (0 : UCHAR)).length = passwordSize :=
  List.length_replicate

def paramConf (i : UINT) : List UCHAR :=
  TruckControl.writeParams
    { ps := (delayedLights i).toBytes
      password := List.replicate passwordSize 0
      length_ps := Params.length_toBytes _
      length_password := length_noPassword }

/-- A start, a message that selects half an hour, and another start. -/
theorem tables_inRange_halfHour :
    ((∀ a ∈ allAccesses 0 (some (paramConf 6))
          [.message .lightsOnDelay (fun i => if i = 2 then 11 else 0) true, .restart 0 true],
        a.InRange) ∧
      ∀ fs, fs <+: [.message .lightsOnDelay (fun i => if i = 2 then 11 else 0) true,
          .restart 0 true] →
        (Transition.exec step (initIps 0 true (some (paramConf 6))) fs).host.actualLightsOnDelay ∈
          lightsOnDelays) := by
  refine (tables_inRange_iff 0 (paramConf 6) _ (by decide +kernel)).mpr ⟨by decide +kernel, ?_⟩
  simp only [List.forall_mem_cons, ParamEvent.Fits, ParamMsg.Fits, List.not_mem_nil,
    false_implies, implies_true, and_true]
  decide

/-- A message selects a delay behind the table; the server stores it, and looks behind the
table again when it starts from the file. -/
theorem tables_outOfRange :
    (loadParams 0 (some (paramConf 6)) .zero).ret = 0 ∧
      allAccesses 0 (some (paramConf 6))
          [.message .lightsOnDelay (fun i => if i = 2 then 13 else 0) true, .restart 0 true] =
        [.lightsOnDelay 6, .lightsOnDelay 13, .lightsOnDelay 13] ∧
      ¬ (TableAccess.lightsOnDelay 13).InRange := by
  decide +kernel

end ParamStore

end TruckControl
