import TruckControl.Library.Transition
import TruckControl.Model.TcpMonitor

/-!
# What a client is told of the engine

The greeting is made from `engine_running` in one statement and sent in another, and a
command notifies the client before it stores the new value.
-/

namespace TruckControl

theorem engineText_engineRunning (cmd : EngineCmd) : engineText cmd.engineRunning = cmd := by
  cases cmd <;> rfl

namespace TcpMonitor

/-! ## What is to be told -/

/-- The texts that a connected client has been sent. -/
def told (s : TcpMonitor) : Option (List EngineCmd) :=
  if s.sockOpen then
    match s.globalSocket with
    | some ⟨texts, false⟩ => some texts
    | _ => none
  else none

/-- `tcp_monitor_task` is past the greeting of the connection there is. -/
def Greeted (s : TcpMonitor) : Prop :=
  s.monitor = .greeted ∨ s.monitor = .testSock ∨ s.monitor = .sleeping ∨ s.monitor = .returned

/-- A client that is connected and greeted, while no command is executed, was last told
whether the engine runs. -/
def Truthful (s : TcpMonitor) : Prop :=
  ∀ texts, s.told = some texts → s.Greeted → s.controls = .getMsgQueue →
    texts.getLast? = some (engineText s.engineRunning)

/-- The text of `engine_running` as it is once the command under way is over. -/
def final (s : TcpMonitor) : EngineCmd :=
  match s.controls with
  | .testSock cmd | .sendMsg cmd | .sendTcp cmd | .store cmd => cmd
  | .getMsgQueue | .stored _ => engineText s.engineRunning

/-- The command under way has not come to the end of its notification. -/
def Notifies (s : TcpMonitor) : Prop :=
  match s.controls with
  | .testSock _ | .sendMsg _ | .sendTcp _ => True
  | .getMsgQueue | .store _ | .stored _ => False

/-- What a greeting that is sent has to say: unless a command is still going to notify the
client, the value that `engine_running` has, or will have when the command is over. -/
def GreetsInTime (s : TcpMonitor) : TcpEvent → Prop
  | .tcpMonitorTask _ =>
      ∀ tempx, s.monitor = .sendTcp tempx → s.told ≠ none → s.Notifies ∨ tempx = s.final
  | _ => True

/-- What the command under way will leave. -/
def Settled (s : TcpMonitor) : Prop :=
  ∀ texts, s.told = some texts → s.Greeted → s.Notifies ∨ texts.getLast? = some s.final

/-! ## The socket -/

theorem told_closeTcp (s : TcpMonitor) : s.closeTcp.told = s.told := by
  rw [closeTcp]
  split_ifs <;> rfl

theorem told_sendTcp (s : TcpMonitor) (text : EngineCmd) :
    (s.sendTcp text).told = s.told.map (· ++ [text]) := by
  obtain ⟨sockOpen, globalSocket, _, _, _, _⟩ := s
  cases sockOpen with
  | false => rfl
  | true =>
      rcases globalSocket with _ | ⟨texts, closed⟩
      · rfl
      · cases closed <;> rfl

/-- Nothing that closes a connection adds to what its client has been told. -/
theorem told_closer (s : TcpMonitor) (i : ℕ) {texts : List EngineCmd}
    (h : (s.closer i).told = some texts) : s.told = some texts := by
  rw [closer] at h
  split at h
  · simp [told] at h
  · obtain ⟨sockOpen, globalSocket, _, _, _, _⟩ := s
    rcases globalSocket with _ | ⟨texts', closed⟩ <;> cases sockOpen <;> simp [told] at h
  · simp [told] at h
  · exact h

theorem told_hangUp (s : TcpMonitor) : (s.step .hangUp).told = none := by
  obtain ⟨sockOpen, globalSocket, _, _, _, _⟩ := s
  rcases globalSocket with _ | ⟨texts, closed⟩ <;> cases sockOpen <;> rfl

/-- The places of the tasks, and the value they share, after a send. -/
theorem sendTcp_rest (s : TcpMonitor) (text : EngineCmd) :
    (s.sendTcp text).monitor = s.monitor ∧ (s.sendTcp text).controls = s.controls ∧
      (s.sendTcp text).engineRunning = s.engineRunning := by
  simp only [sendTcp, closeTcp]
  split_ifs <;> try split
  all_goals exact ⟨rfl, rfl, rfl⟩

theorem closeTcp_rest (s : TcpMonitor) :
    s.closeTcp.monitor = s.monitor ∧ s.closeTcp.controls = s.controls ∧
      s.closeTcp.engineRunning = s.engineRunning := by
  rw [closeTcp]
  split_ifs <;> exact ⟨rfl, rfl, rfl⟩

theorem closer_rest (s : TcpMonitor) (i : ℕ) :
    (s.closer i).monitor = s.monitor ∧ (s.closer i).controls = s.controls ∧
      (s.closer i).engineRunning = s.engineRunning := by
  rw [closer]
  split <;> exact ⟨rfl, rfl, rfl⟩

/-! ## The command under way -/

theorem final_of_controls {s t : TcpMonitor} (hcontrols : t.controls = s.controls)
    (hengine : t.engineRunning = s.engineRunning) : t.final = s.final := by
  rw [final, final, hcontrols, hengine]

theorem notifies_of_controls {s t : TcpMonitor} (hcontrols : t.controls = s.controls) :
    t.Notifies ↔ s.Notifies := by
  rw [Notifies, Notifies, hcontrols]

/-- A step that leaves the command alone, and at most closes the connection. -/
theorem Settled.of_told {s t : TcpMonitor} (h : s.Settled) (hcontrols : t.controls = s.controls)
    (hengine : t.engineRunning = s.engineRunning)
    (htold : ∀ texts, t.told = some texts → t.Greeted → s.told = some texts ∧ s.Greeted) :
    t.Settled := by
  intro texts ht hgreeted
  obtain ⟨hs, hgreeted'⟩ := htold texts ht hgreeted
  rw [notifies_of_controls hcontrols, final_of_controls hcontrols hengine]
  exact h texts hs hgreeted'

theorem greeted_congr {s t : TcpMonitor} (h : t.monitor = s.monitor) : t.Greeted ↔ s.Greeted := by
  rw [Greeted, Greeted, h]

/-- The command under way goes on, and tells the client if it is to. -/
theorem Settled.basicControlsTask {s : TcpMonitor} (h : s.Settled) :
    s.basicControlsTask.Settled := by
  intro texts htold hgreeted
  simp only [TcpMonitor.basicControlsTask] at htold hgreeted ⊢
  cases hcontrols : s.controls with
  | getMsgQueue =>
      simp only [hcontrols] at htold hgreeted ⊢
      exact h texts htold hgreeted
  | testSock cmd =>
      simp only [hcontrols] at htold hgreeted ⊢
      have hopen : s.sockOpen = true := by
        by_contra hclosed
        simp [told, hclosed] at htold
      simp [hopen, Notifies]
  | sendMsg cmd =>
      simp only [hcontrols] at htold hgreeted ⊢
      have hopen : s.sockOpen = true := by
        by_contra hclosed
        simp [told, hclosed] at htold
      simp [hopen, Notifies]
  | sendTcp cmd =>
      simp only [hcontrols] at htold hgreeted ⊢
      have hsent : (s.sendTcp cmd).told = some texts := htold
      rw [told_sendTcp] at hsent
      obtain ⟨before, -, rfl⟩ := Option.map_eq_some_iff.mp hsent
      exact .inr List.getLast?_concat
  | store cmd =>
      simp only [hcontrols] at htold hgreeted ⊢
      refine .inr ?_
      have hold := h texts htold hgreeted
      simp only [Notifies, final, hcontrols, false_or] at hold
      rw [hold, final, engineText_engineRunning]
  | stored cmd =>
      simp only [hcontrols] at htold hgreeted ⊢
      refine .inr ?_
      have hold := h texts htold hgreeted
      simp only [Notifies, final, hcontrols, false_or] at hold
      rw [hold, final]

theorem Settled.truthful {s : TcpMonitor} (h : s.Settled) : s.Truthful := by
  intro texts htold hgreeted hcontrols
  have hold := h texts htold hgreeted
  simp only [Notifies, final, hcontrols, false_or] at hold
  exact hold

/-- The state is settled exactly when the client is told the truth once the command under
way has been finished, with nothing in between. -/
theorem settled_iff (s : TcpMonitor) :
    s.Settled ↔
      ∀ n, (Transition.exec step s (List.replicate n .basicControlsTask)).Truthful := by
  constructor
  · intro h n
    have hkept : (Transition.exec step s (List.replicate n .basicControlsTask)).Settled := by
      induction n generalizing s with
      | zero => exact h
      | succ n ih => exact ih (s.basicControlsTask) h.basicControlsTask
    exact hkept.truthful
  · intro h texts htold hgreeted
    by_contra hnot
    obtain ⟨hnotifies, hlast⟩ := not_or.mp hnot
    have hdone (n : ℕ) (s' : TcpMonitor)
        (hrun : Transition.exec step s (List.replicate n .basicControlsTask) = s')
        (htold' : s'.told = some texts) (hgreeted' : s'.Greeted)
        (hcontrols' : s'.controls = .getMsgQueue) (hfinal : engineText s'.engineRunning = s.final) :
        False := by
      have htrue := h n
      rw [hrun] at htrue
      rw [← hfinal] at hlast
      exact hlast (htrue texts htold' hgreeted' hcontrols')
    cases hcontrols : s.controls with
    | getMsgQueue =>
        refine hdone 0 s rfl htold hgreeted hcontrols ?_
        rw [final, hcontrols]
    | store cmd =>
        refine hdone 2 { s with engineRunning := cmd.engineRunning, controls := .getMsgQueue } ?_
          htold hgreeted rfl ?_
        · simp [Transition.exec, step, TcpMonitor.basicControlsTask, hcontrols]
        · rw [final, hcontrols, engineText_engineRunning]
    | stored cmd =>
        refine hdone 1 { s with controls := .getMsgQueue } ?_ htold hgreeted rfl ?_
        · simp [Transition.exec, step, TcpMonitor.basicControlsTask, hcontrols]
        · rw [final, hcontrols]
    | testSock cmd | sendMsg cmd | sendTcp cmd =>
        rw [Notifies, hcontrols] at hnotifies
        exact hnotifies trivial

/-! ## The greeting -/

theorem settled_of_not_greeted {s : TcpMonitor} (h : ¬ s.Greeted) : s.Settled :=
  fun _ _ hgreeted => absurd hgreeted h

/-- The greeting is the last that the client has been told. -/
theorem settled_greeting_iff (s : TcpMonitor) (tempx : EngineCmd) :
    { s.sendTcp tempx with monitor := .greeted }.Settled ↔
      (s.told ≠ none → s.Notifies ∨ tempx = s.final) := by
  obtain ⟨-, hcontrols, hengine⟩ := sendTcp_rest s tempx
  have htold : { s.sendTcp tempx with monitor := .greeted }.told = s.told.map (· ++ [tempx]) :=
    told_sendTcp s tempx
  have hnotifies : { s.sendTcp tempx with monitor := .greeted }.Notifies ↔ s.Notifies :=
    notifies_of_controls hcontrols
  have hfinal : { s.sendTcp tempx with monitor := .greeted }.final = s.final :=
    final_of_controls hcontrols hengine
  constructor
  · intro h hsome
    obtain ⟨before, hbefore⟩ := Option.ne_none_iff_exists'.mp hsome
    have hlast := h (before ++ [tempx]) (by rw [htold, hbefore]; rfl) (.inl rfl)
    rw [hnotifies, hfinal, List.getLast?_concat, Option.some.injEq] at hlast
    exact hlast
  · intro h texts hsent _
    rw [htold] at hsent
    obtain ⟨before, hbefore, rfl⟩ := Option.map_eq_some_iff.mp hsent
    rw [hnotifies, hfinal, List.getLast?_concat, Option.some.injEq]
    exact h (by rw [hbefore]; simp)

/-- No other statement of the task leaves a client with the wrong text. -/
theorem Settled.tcpMonitorTask {s : TcpMonitor} (h : s.Settled) (shutdownAll : Bool)
    (hnot : ∀ tempx, s.monitor ≠ .sendTcp tempx) : (s.tcpMonitorTask shutdownAll).Settled := by
  rw [TcpMonitor.tcpMonitorTask]
  cases hmonitor : s.monitor with
  | testSock =>
      exact h.of_told rfl rfl fun texts htold _ => ⟨htold, .inr (.inl hmonitor)⟩
  | sleeping =>
      have hgreeted : s.Greeted := .inr (.inr (.inl hmonitor))
      cases shutdownAll with
      | true =>
          obtain ⟨-, hcontrols, hengine⟩ := closeTcp_rest s
          refine h.of_told hcontrols hengine fun texts htold _ => ⟨?_, hgreeted⟩
          rw [← told_closeTcp s]
          exact htold
      | false => exact h.of_told rfl rfl fun texts htold _ => ⟨htold, hgreeted⟩
  | accepting => exact h
  | accepted | reading =>
      apply settled_of_not_greeted
      simp [Greeted]
  | sendMsg tempx =>
      cases hopen : s.sockOpen with
      | true =>
          apply settled_of_not_greeted
          simp [Greeted]
      | false =>
          intro texts htold
          simp [told] at htold
  | sendTcp tempx => exact absurd hmonitor (hnot tempx)
  | greeted => exact h.of_told rfl rfl fun texts htold _ => ⟨htold, .inl hmonitor⟩
  | returned => exact h

theorem Settled.tcpMonitorTask_iff {s : TcpMonitor} (h : s.Settled) (shutdownAll : Bool) :
    (s.tcpMonitorTask shutdownAll).Settled ↔ GreetsInTime s (.tcpMonitorTask shutdownAll) := by
  by_cases hsends : ∃ tempx, s.monitor = .sendTcp tempx
  · obtain ⟨tempx, hmonitor⟩ := hsends
    have hstep : s.tcpMonitorTask shutdownAll = { s.sendTcp tempx with monitor := .greeted } := by
      rw [TcpMonitor.tcpMonitorTask, hmonitor]
    rw [hstep, settled_greeting_iff, GreetsInTime, hmonitor]
    constructor
    · intro hall tempx' htempx
      cases htempx
      exact hall
    · intro hall
      exact hall tempx rfl
  · have hnot := not_exists.mp hsends
    exact iff_of_true (h.tcpMonitorTask shutdownAll hnot) fun tempx htempx =>
      absurd htempx (hnot tempx)

/-- What an event does to a state that is settled. -/
theorem Settled.step_iff {s : TcpMonitor} (h : s.Settled) (e : TcpEvent) :
    (s.step e).Settled ↔ GreetsInTime s e := by
  cases e with
  | tcpMonitorTask shutdownAll => exact h.tcpMonitorTask_iff shutdownAll
  | basicControlsTask => exact iff_of_true h.basicControlsTask trivial
  | connect =>
      refine iff_of_true ?_ trivial
      simp only [TcpMonitor.step]
      split
      · apply settled_of_not_greeted
        simp [Greeted]
      · exact h
  | acceptFails =>
      refine iff_of_true ?_ trivial
      simp only [TcpMonitor.step]
      split
      · intro texts htold
        simp [told] at htold
      · exact h
  | hangUp =>
      refine iff_of_true ?_ trivial
      intro texts htold
      rw [told_hangUp] at htold
      cases htold
  | closeTcp =>
      obtain ⟨hmonitor, hcontrols, hengine⟩ := closeTcp_rest s
      refine iff_of_true (h.of_told hcontrols hengine fun texts htold hgreeted => ?_) trivial
      rw [← told_closeTcp s, ← greeted_congr hmonitor]
      exact ⟨htold, hgreeted⟩
  | closer i =>
      obtain ⟨hmonitor, hcontrols, hengine⟩ := closer_rest s i
      refine iff_of_true (h.of_told hcontrols hengine fun texts htold hgreeted => ?_) trivial
      rw [← greeted_congr hmonitor]
      exact ⟨told_closer s i htold, hgreeted⟩
  | command cmd =>
      refine iff_of_true ?_ trivial
      simp only [TcpMonitor.step]
      split
      · exact fun texts _ _ => .inl trivial
      · exact h

theorem settled_start : start.Settled := by
  intro texts htold
  cases htold

/-- A client is told the truth after every part of a run, and however the command under way
then ends, exactly when every greeting is sent in time. -/
theorem truthful_iff (es : List TcpEvent) :
    (∀ fs, fs <+: es → ∀ n,
      (Transition.exec step start (fs ++ List.replicate n .basicControlsTask)).Truthful) ↔
      Transition.Meets step GreetsInTime start es := by
  have hsettled : (∀ fs, fs <+: es → ∀ n,
      (Transition.exec step start (fs ++ List.replicate n .basicControlsTask)).Truthful) ↔
      ∀ fs, fs <+: es → (Transition.exec step start fs).Settled := by
    simp only [Transition.exec_append, settled_iff]
  rw [hsettled, Transition.forall_prefix_iff, and_iff_right settled_start]
  have hrange : Transition.Meets step (fun _ _ => True) start es :=
    Transition.meets_of_forall (fun _ _ => trivial) start es
  exact Transition.meets_congr_of_meets (I := Settled) (fun s e _ _ hnext => hnext)
    (fun s e h _ => h.step_iff e) settled_start hrange

/-- A client that connects while the engine is being started. -/
def connectsDuringStart : List TcpEvent :=
  [.tcpMonitorTask false, .command .startSeq, .basicControlsTask, .connect, .tcpMonitorTask false,
    .tcpMonitorTask false, .tcpMonitorTask false, .tcpMonitorTask false, .basicControlsTask,
    .basicControlsTask]

/-- The client has been told that the engine is off. -/
theorem not_truthful_connectsDuringStart :
    let s := Transition.exec step start connectsDuringStart
    s.told = some [.shutdown] ∧ s.Greeted ∧ s.controls = .getMsgQueue ∧ s.engineRunning = 1 ∧
      ¬ s.Truthful := by
  refine ⟨rfl, .inl rfl, rfl, rfl, ?_⟩
  intro h
  have hlast := h [.shutdown] rfl (.inl rfl) rfl
  exact absurd hlast (by decide)

end TcpMonitor

end TruckControl
