import TruckControl.Library.Transition
import TruckControl.Verification.UpdateConfig

/-!
# Two copies of the temperatures

The STM32 has copies of seven parameters. They are compared with the parameters by what
they will be once the STM32 has processed the frames that are under way.
-/

namespace TruckControl

namespace ConfigLink

/-- A copy is equal to its parameter. -/
def Equal (t : Temperatures) (ps : Params) : Prop :=
  ∀ k, (t.get k).setWidth 32 = ps.get k

/-- The temperatures once the STM32 has processed some frames. -/
def deliver (frames : List SendSerial) (t : Temperatures) : Temperatures :=
  frames.foldl (fun t frame => t.startRecv7200 frame) t

/-- The STM32 processes all that is under way. -/
def drain (s : ConfigLink) : ConfigLink :=
  Transition.exec step s (List.replicate s.toStm32.length .startRecv7200)

theorem drain_eq (s : ConfigLink) :
    s.drain = { s with toStm32 := [], temps := deliver s.toStm32 s.temps } := by
  rw [drain]
  cases s with
  | mk host toStm32 temps =>
      induction toStm32 generalizing temps with
      | nil => rfl
      | cons frame rest ih => exact ih (temps.startRecv7200 frame)

/-- Whenever every frame has been processed, the copies are right. -/
def Replicated (s : ConfigLink) : Prop := s.toStm32 = [] → Equal s.temps s.host.ps

theorem replicated_drain_iff (s : ConfigLink) :
    Replicated s.drain ↔ Equal (deliver s.toStm32 s.temps) s.host.ps := by
  rw [drain_eq]
  exact ⟨fun h => h rfl, fun h _ => h⟩

/-- The values that the text of the client's `SERVER_UP` is taken for. -/
def textTemperature : Setting → UINT
  | .engineTempLimit => 0x6D63
  | .coolingFanOn => 0x3A64
  | .coolingFanOff => 0x3620
  | .blower1On => 0x2033
  | .blower2On => 0x4553
  | .blower3On => 0x5652
  | .blowerEnabled => 0x5245

/-- A parameter may only be set to the value it has, and the client may only report the
server up when the parameters happen to be those that the text is taken for. -/
def KeepsCopies (s : ConfigLink) : ConfigEvent → Prop
  | .updateConfig _ => True
  | .setMsg k msgBuf => word msgBuf 2 = s.host.ps.get k
  | .serverUp _ => ∀ k, s.host.ps.get k = textTemperature k
  | .startRecv7200 => True

/-- The parameters fit in what is sent of them. -/
def Fits (ps : Params) : Prop := ∀ k, (ps.get k).toNat < 65536

theorem deliver_append (frames : List SendSerial) (frame : SendSerial) (t : Temperatures) :
    deliver (frames ++ [frame]) t = (deliver frames t).startRecv7200 frame := by
  simp [deliver]

theorem ps_setMsg (k : Setting) (msgBuf : ℕ → UCHAR) (h : HostConfig) :
    (HostConfig.setMsg k msgBuf h).1.ps = h.ps.put (word msgBuf 2) k := by
  cases k <;> rfl

/-- No frame that a command of one parameter sends changes the copies. -/
theorem deliver_setMsg (k : Setting) (msgBuf : ℕ → UCHAR) (h : HostConfig)
    (frames : List SendSerial) (t : Temperatures) :
    deliver (frames ++ (HostConfig.setMsg k msgBuf h).2) t = deliver frames t := by
  cases k with
  | engineTempLimit =>
      rw [HostConfig.setMsg, deliver_append, HostConfig.setTempLimit,
        Temperatures.startRecv7200_setTempLimit]
  | _ => rw [HostConfig.setMsg, List.append_nil]

theorem equal_put_iff {t : Temperatures} {ps : Params} (h : Equal t ps) (v : UINT) (k : Setting) :
    Equal t (ps.put v k) ↔ v = ps.get k := by
  constructor
  · intro hput
    have hk := hput k
    rw [Params.get_put, if_pos rfl, h k] at hk
    exact hk.symm
  · intro hv j
    rw [Params.get_put]
    split_ifs with hj
    · rw [hj, hv]
      exact h k
    · exact h j

/-- The frame of `UPDATE_CONFIG` carries what has been stored. -/
theorem equal_updateConfig (msgBuf : ℕ → UCHAR) (h : HostConfig) (t : Temperatures) :
    Equal (t.startRecv7200 (h.updateConfig msgBuf).2) (h.updateConfig msgBuf).1.ps := by
  intro k
  rw [HostConfig.updateConfig, Temperatures.startRecv7200_sendConfig2]
  cases k <;> exact (word_eq msgBuf _).symm

theorem equal_serverUp_iff (tempx : ℕ → UCHAR) (t : Temperatures) (ps : Params) :
    Equal (t.startRecv7200 (HostConfig.serverUp tempx)) ps ↔
      ∀ k, ps.get k = textTemperature k := by
  have htext (k : Setting) :
      ((t.startRecv7200 (HostConfig.serverUp tempx)).get k).setWidth 32 = textTemperature k := by
    have hbytes : HostConfig.serverUpText = [0x63, 0x6D, 0x64, 0x3A, 0x20, 0x36, 0x33, 0x20, 0x53,
        0x45, 0x52, 0x56, 0x45, 0x52, 0x5F, 0x55, 0x50] := by decide
    rw [HostConfig.serverUp, Temperatures.startRecv7200_serverUp, hbytes]
    cases k <;> simp [Temperatures.get, textTemperature]
  constructor
  · intro h k
    rw [← h k, htext k]
  · intro h k
    rw [htext k, h k]

/-- The frame of the start carries the low halves of the parameters. -/
theorem equal_boot_iff (ps : Params) (old : ℕ → UCHAR) (t : Temperatures) :
    Equal (t.startRecv7200 ⟨CmdType.serverUp.toByte, sendBuffer ps old⟩) ps ↔ Fits ps := by
  have hget (k : Setting) :
      (t.startRecv7200 ⟨CmdType.serverUp.toByte, sendBuffer ps old⟩).get k =
        (ps.get k).setWidth 16 := by
    rw [Temperatures.startRecv7200_serverUp]
    cases k <;> exact bytes_append _
  constructor
  · intro h k
    have hk := h k
    rw [hget k] at hk
    exact (setWidth_setWidth_eq_iff _).mp hk
  · intro h k
    rw [hget k]
    exact (setWidth_setWidth_eq_iff _).mpr (h k)

/-- What an event does to copies that are right. -/
theorem equal_step_iff {s : ConfigLink} (h : Equal (deliver s.toStm32 s.temps) s.host.ps)
    (e : ConfigEvent) :
    Equal (deliver (s.step e).toStm32 (s.step e).temps) (s.step e).host.ps ↔
      KeepsCopies s e := by
  cases e with
  | updateConfig msgBuf =>
      have heq := equal_updateConfig msgBuf s.host (deliver s.toStm32 s.temps)
      rw [← deliver_append] at heq
      exact ⟨fun _ => trivial, fun _ => heq⟩
  | setMsg k msgBuf =>
      simp only [ConfigLink.step, deliver_setMsg, ps_setMsg]
      exact equal_put_iff h _ k
  | serverUp tempx =>
      simp only [ConfigLink.step, deliver_append]
      exact equal_serverUp_iff tempx _ _
  | startRecv7200 =>
      refine ⟨fun _ => trivial, fun _ => ?_⟩
      cases hline : s.toStm32 with
      | nil =>
          rw [ConfigLink.step, hline]
          exact h
      | cons frame rest =>
          rw [hline] at h
          rw [ConfigLink.step, hline]
          exact h

/-- The copies that come out right are right when nothing is under way. -/
theorem replicated_of_drain {s : ConfigLink} (h : Replicated s.drain) : Replicated s := by
  intro hempty
  have heq := (replicated_drain_iff s).mp h
  rw [hempty] at heq
  exact heq

theorem replicated_drain_iff_keepsCopies (host : HostConfig) (old : ℕ → UCHAR)
    (es : List ConfigEvent) :
    (Replicated (boot host old).drain ∧
        Transition.Meets step (fun s e => Replicated (s.step e).drain) (boot host old) es) ↔
      Fits host.ps ∧ Transition.Meets step KeepsCopies (boot host old) es := by
  have hboot : Equal (deliver (boot host old).toStm32 (boot host old).temps)
      (boot host old).host.ps ↔ Fits host.ps := equal_boot_iff host.ps old .init
  rw [replicated_drain_iff, hboot]
  refine and_congr_right fun hfits => ?_
  have hrange : Transition.Meets step (fun _ _ => True) (boot host old) es :=
    Transition.meets_of_forall (fun _ _ => trivial) _ es
  exact Transition.meets_congr_of_meets
    (I := fun s => Equal (deliver s.toStm32 s.temps) s.host.ps)
    (fun s e _ _ he => (replicated_drain_iff _).mp he)
    (fun s e h _ => (replicated_drain_iff _).trans (equal_step_iff h e))
    (hboot.mpr hfits) hrange

/-- Whenever the STM32 catches up in a run, or would, the copies are right, exactly when the
parameters fit at the start and every event keeps the copies. -/
theorem replicated_iff (host : HostConfig) (old : ℕ → UCHAR) (es : List ConfigEvent) :
    ((Replicated (boot host old).drain ∧
        Transition.Meets step (fun s e => Replicated (s.step e).drain) (boot host old) es) ↔
      Fits host.ps ∧ Transition.Meets step KeepsCopies (boot host old) es) ∧
    (Fits host.ps → Transition.Meets step KeepsCopies (boot host old) es →
      Replicated (Transition.exec step (boot host old) es)) := by
  refine ⟨replicated_drain_iff_keepsCopies host old es, ?_⟩
  intro hfits hes
  have hboot : Equal (deliver (boot host old).toStm32 (boot host old).temps)
      (boot host old).host.ps := (equal_boot_iff host.ps old .init).mpr hfits
  have hequal := Transition.inv_exec_of_meets
    (I := fun s => Equal (deliver s.toStm32 s.temps) s.host.ps)
    (fun s e h he => (equal_step_iff h e).mpr he) hboot hes
  exact replicated_of_drain ((replicated_drain_iff _).mpr hequal)

/-- The client sets the temperature at which the fan comes on. -/
theorem not_replicated_setFanOn :
    ¬ ∀ (host : HostConfig) (old : ℕ → UCHAR) (es : List ConfigEvent), Fits host.ps →
      Replicated (Transition.exec step (boot host old) es) := by
  intro h
  let ps : Params := ⟨0, 0, 0, 0, 175, 150, 70, 65, 55, 45, 0, 190, 75, 0, 0, 0, 0⟩
  have hfits : Fits ps := by
    intro k
    cases k <;> decide
  have hfan := h ⟨ps, fun _ => 0, 6000, 4500, 1⟩ (fun _ => 0)
    [.startRecv7200, .setMsg .coolingFanOn fun _ => 0] hfits rfl .coolingFanOn
  exact absurd hfan (by decide)

end ConfigLink

end TruckControl
