import TruckControl.Model.Odata
import TruckControl.Verification.Poll

/-!
# Records and relays

`onoff` is meant to be the state of the relay. A command that works like a switch writes
it ahead of the relay, which the poll has to follow; `ON_ACC` and `OFF_ACC` do not write
it at all.
-/

namespace TruckControl

open InputType OutputType

namespace Relay

variable {r : Relay}

/-- The record says what the relay does. -/
def Synced (r : Relay) : Prop := r.datap.onoff = IoState.level r.hw

def Blinking (r : Relay) : Prop := r.datap.type = 3#8 ∧ r.datap.reset = 1#8

/-- In step: synced, or blinking, when the relay alone goes on and off. -/
def InStep (r : Relay) : Prop := r.Synced ∨ r.Blinking

instance (r : Relay) : Decidable r.Synced := inferInstanceAs (Decidable (_ = _))

instance (r : Relay) : Decidable r.Blinking := inferInstanceAs (Decidable (_ ∧ _))

instance (r : Relay) : Decidable r.InStep := inferInstanceAs (Decidable (_ ∨ _))

theorem synced_setOutput_of_type_zero (htype : r.datap.type = 0#8) (onoff : Bool) :
    (r.setOutput onoff).Synced := by
  rw [setOutput, if_pos htype]
  rfl

theorem InStep.setOutput (h : r.InStep) (onoff : Bool) : (r.setOutput onoff).InStep := by
  by_cases h0 : r.datap.type = 0#8
  · exact .inl (synced_setOutput_of_type_zero h0 onoff)
  · rw [Relay.setOutput, if_neg h0]
    split_ifs with h1 hr0 hr1 h23 hr0 h4 hr0 hr1
    · exact .inl rfl
    · -- the release of a momentary-contact switch
      rcases h with h | h
      · exact .inl h
      · rw [Blinking, h1] at h
        exact absurd h.1 (by decide)
    · exact h
    · exact .inl rfl
    · exact h
    · exact .inl rfl
    · rcases h with h | h
      · exact .inl h
      · rw [Blinking, h4] at h
        exact absurd h.1 (by decide)
    · exact h
    · exact h

theorem InStep.timerPort (h : r.InStep) : r.timerPort.InStep := by
  have h' := h
  rw [Relay.timerPort]
  split_ifs with hcount hlast hblink
  · exact .inl rfl
  · exact .inr ⟨hblink, hcount.2⟩
  · rcases h with h | h
    · exact .inl h
    · exact absurd h.1 hblink
  · exact h'

/-- Every action keeps an output in step, if `mark` says what the relay already does and
`drive` does what the record already says. -/
theorem InStep.act (h : r.InStep) {a : Action}
    (hmark : ∀ onoff, a = .mark onoff → r.hw = onoff)
    (hdrive : ∀ onoff, a = .drive onoff → r.datap.reset = 0#8 →
      r.datap.onoff = IoState.level onoff) : (r.act a).InStep := by
  cases a with
  | keep => exact h
  | set onoff => exact h.setOutput onoff
  | scan => exact h.timerPort
  | mark onoff => exact .inl (by rw [Synced, Relay.act, hmark onoff rfl])
  | drive onoff =>
      rw [Relay.act]
      split_ifs with hreset
      · exact .inl (hdrive onoff rfl hreset)
      · exact h
  | switch onoff =>
      rw [Relay.act]
      split_ifs
      · exact .inl rfl
      · exact h
  | start => exact .inl rfl
  | stop => exact .inl rfl

end Relay

/-- The outputs whose records a request for an input marks. -/
def requestOutputs (k : ℕ) : List ℕ :=
  if k = headlampInput then [lheadlamp, rheadlamp]
  else if k = runningLightsInput then [runninglights]
  else if k = brightsInput then [lbrights, rbrights]
  else if k = coolingfanInput then [coolingfan]
  else []

/-- A block with outputs to mark marks those of its input. -/
def Block.marksRequested : Block → Bool
  | .requestInput k _ outputs => k < 7 && outputs = requestOutputs k
  | _ => true

theorem issued_mark {block : Block} (h : block.Issued) {p : ℕ} {onoff : Bool}
    (hact : block.action p = .mark onoff) :
    ∃ k < 7, p ∈ requestOutputs k ∧ block = .requestInput k onoff (requestOutputs k) := by
  have hall : ∀ cmd, ∀ block ∈ basicControls cmd, block.marksRequested = true := by
    decide +kernel
  have hmarks := h.of_forall hall
  cases block with
  | requestInput k level outputs =>
      simp only [Block.marksRequested, Bool.and_eq_true, decide_eq_true_eq] at hmarks
      obtain ⟨hk, rfl⟩ := hmarks
      rw [Block.action] at hact
      split_ifs at hact with hp
      exact ⟨k, hk, hp, by rw [Relay.Action.mark.inj hact]⟩
  | _ => grind [Block.action]

/-- Nothing else asks for an input that has such outputs. -/
theorem issued_request {block : Block} (h : block.Issued) {k : ℕ} {onoff : Bool}
    (hreq : block.request = some (k, onoff)) (hk : requestOutputs k ≠ []) :
    block = .requestInput k onoff (requestOutputs k) := by
  have hall : ∀ cmd, ∀ block ∈ basicControls cmd, ∀ r ∈ block.request,
      requestOutputs r.1 ≠ [] → block = .requestInput r.1 r.2 (requestOutputs r.1) := by
    decide +kernel
  exact h.of_forall hall (k, onoff) hreq hk

theorem issued_drive {block : Block} (h : block.Issued) {p : ℕ} {onoff : Bool}
    (hact : block.action p = .drive onoff) : p = accon ∧ block = .acc onoff := by
  cases block with
  | acc onoff' =>
      rw [Block.action] at hact
      split_ifs at hact with hp
      exact ⟨hp, by rw [Relay.Action.drive.inj hact]⟩
  | _ => grind [Block.action]

namespace Controller

variable {db : Database}

/-- What keeps record and relay together as a block runs. `ON_ACC` and `OFF_ACC` must find
the record as they drive the relay. A request must be new and drive its outputs as a plain
switch, or find them as asked. -/
def BlockKeepsSync (db : Database) (s : IoState) : Block → Prop
  | .acc onoff =>
      (s.datap accon).reset = 0#8 → (s.datap accon).onoff = IoState.level onoff
  | .requestInput k onoff outputs =>
      ∀ p ∈ outputs, s.hwBit p = onoff ∨
        s.seen k ≠ onoff ∧ db.input p = k ∧ (db.records p).type = 0#8
  | _ => True

instance (db : Database) (s : IoState) : DecidablePred (BlockKeepsSync db s)
  | .acc _ => inferInstanceAs (Decidable (_ = _ → _ = _))
  | .requestInput k onoff outputs => inferInstanceAs (Decidable (∀ p ∈ outputs, s.hwBit p = onoff ∨
      s.seen k ≠ onoff ∧ db.input p = k ∧ (db.records p).type = 0#8))
  | .changeInput _ _ | .fuelPump _ | .setOutput _ _ | .testLeftBlinker | .testRightBlinker
  | .startSeqPower | .startSeqEnable | .shutdownAcc | .shutdownFuelPump => .isTrue trivial

/-- An input is pending that an output waits for to be in step. -/
def Unsettled (db : Database) (s : IoState) (k : ℕ) : Prop :=
  s.Pending k ∧ ∃ p < 40, db.input p = k ∧ ¬ (s.relay p).InStep

instance (db : Database) (s : IoState) (k : ℕ) : Decidable (Unsettled db s k) :=
  inferInstanceAs (Decidable (_ ∧ _))

/-- What keeps record and relay together at one event. A poll, which answers the highest
pending input, must forget none that is waited for, and an expiring port must clear none. -/
def KeepsSync (db : Database) (c : Controller) : Event → Prop
  | .basicControlsTask => ∀ block ∈ c.todo.head?, BlockKeepsSync db c.io block
  | .monitorFakeInputTask bank =>
      bank = 0 → ∀ j < 7, Unsettled db c.io j → ∀ k < 7, c.io.Pending k → k ≤ j
  | .timerTask => ∀ q < 7, (c.io.relay q).Expires → ¬ Unsettled db c.io q
  | _ => True

instance (db : Database) (c : Controller) : DecidablePred (KeepsSync db c)
  | .basicControlsTask =>
      inferInstanceAs (Decidable (∀ block ∈ c.todo.head?, BlockKeepsSync db c.io block))
  | .monitorFakeInputTask bank => inferInstanceAs (Decidable (bank = 0 →
      ∀ j < 7, Unsettled db c.io j → ∀ k < 7, c.io.Pending k → k ≤ j))
  | .timerTask =>
      inferInstanceAs (Decidable (∀ q < 7, (c.io.relay q).Expires → ¬ Unsettled db c.io q))
  | .addMsgQueue _ | .getMsgQueue | .monitorInputTask _ _ | .lightsOnDelay _ => .isTrue trivial

/-- The condition at a command. -/
theorem KeepsSync.block {c : Controller} {e : Event} (he : KeepsSync db c e) {block : Block}
    (hex : Executes block c e) : BlockKeepsSync db c.io block := by
  obtain ⟨rfl, hhead⟩ := hex
  exact he block hhead

/-- The record of the output was marked, and its relay waits for the poll. -/
structure Awaits (db : Database) (c : Controller) (p : ℕ) : Prop where
  input_lt : db.input p < 7
  requested : p ∈ requestOutputs (db.input p)
  type_eq : (db.records p).type = 0#8
  pending : c.io.Pending (db.input p)

/-- In step, or about to be. -/
def Tracked (db : Database) (c : Controller) (p : ℕ) : Prop :=
  (c.io.relay p).InStep ∨ Awaits db c p

/-- A request leaves its outputs in step or their input pending. -/
theorem tracked_of_mark {c : Controller} (hc : c.WellFormed db) {e : Event}
    (he : KeepsSync db c e) {p : ℕ} (hp : p < 40) {block : Block} (hex : Executes block c e)
    {onoff : Bool} (hmark : block.action p = .mark onoff) : Tracked db (c.step e) p := by
  obtain ⟨k, hk, hpk, rfl⟩ := issued_mark (hc.issued hex) hmark
  rcases he.block hex p hpk with hhw | ⟨hnew, hin, htype⟩
  · left
    have hact : c.action db e p = .mark onoff := (congrFun (action_of_executes hex) p).trans hmark
    rw [relay_step hc e hp, hact]
    exact .inl (congrArg IoState.level hhw.symm)
  · right
    subst hin
    refine ⟨hk, hpk, htype, ?_⟩
    obtain ⟨hseen, hasked⟩ := shadow_of_request hc hex (j := db.input p) rfl (by omega)
    rw [IoState.Pending, hseen, hasked, if_pos rfl]
    exact Ne.symm hnew

/-- Every other event keeps an output in step. -/
theorem inStep_step {c : Controller} (hc : c.WellFormed db) {e : Event}
    (he : KeepsSync db c e) {p : ℕ} (hp : p < 40)
    (hmark : ∀ onoff, c.action db e p ≠ .mark onoff) (h : (c.io.relay p).InStep) :
    ((c.step e).io.relay p).InStep := by
  rw [relay_step hc e hp]
  refine h.act (fun onoff hact => absurd hact (hmark onoff)) ?_
  intro onoff hdrive hreset
  rcases action_cases db c e p with ⟨block, hex, hact⟩ | hact | ⟨_, _, hact⟩ | ⟨_, _, hact⟩
  · obtain ⟨rfl, rfl⟩ := issued_drive (hc.issued hex) (hact ▸ hdrive)
    exact he.block hex hreset
  · cases hact.symm.trans hdrive
  · cases hact.symm.trans hdrive
  · cases hact.symm.trans hdrive

/-- A pending request stays pending, or its outputs get in step. -/
theorem tracked_of_awaits {c : Controller} (hc : c.WellFormed db) (hclean : c.io.Clean)
    {e : Event} (he : KeepsSync db c e) {p : ℕ} (hp : p < 40)
    (hmark : ∀ onoff, c.action db e p ≠ .mark onoff) (h : Awaits db c p) :
    Tracked db (c.step e) p := by
  obtain ⟨hk, hpk, htype, hpend⟩ := h
  have hsettled (h : ¬ Unsettled db c.io (db.input p)) : (c.io.relay p).InStep := by
    by_contra hin
    exact h ⟨hpend, p, hp, rfl, hin⟩
  cases shadowStep hc e (Nat.lt_succ_of_lt hk) with
  | unchanged hseen hasked =>
      refine .inr ⟨hk, hpk, htype, ?_⟩
      rw [IoState.Pending, hseen, hasked]
      exact hpend
  | requested block onoff hexec hrequest hseen hasked =>
      have hblock := issued_request (hc.issued hexec) hrequest (List.ne_nil_of_mem hpk)
      subst hblock
      refine absurd ?_ (hmark onoff)
      rw [action_of_executes hexec]
      exact if_pos hpk
  | answered k onoff hpoll hedge hpending hseen hasked =>
      left
      obtain ⟨hk', hpend', habove, -⟩ := hclean.pollEdge_zero_iff.mp hedge
      rcases Nat.lt_trichotomy (db.input p) k with hlt | heq | hgt
      · subst hpoll
        have hin := hsettled fun h => Nat.not_le_of_lt hlt (he rfl _ hk h k hk' hpend')
        exact inStep_step hc he hp hmark hin
      · have hset : c.edge e = some (db.input p, onoff) := by
          rw [hpoll, heq]
          exact hedge
        have htype' : (c.io.relay p).datap.type = 0#8 := by
          rw [(Relay.setup_eq_of_eq (hc.setup hp)).2.2.2.1, htype]
        rw [relay_step hc e hp, action_of_edge hset, Relay.act]
        exact .inl (Relay.synced_setOutput_of_type_zero htype' onoff)
      · exact absurd hpend (habove _ hk hgt)
  | expired htick hexpires hseen hasked =>
      subst htick
      have hin := hsettled (he _ hk hexpires)
      exact .inl (inStep_step hc he hp hmark hin)
  | takenBack htick hinput hseen hasked =>
      rcases hinput with hinput | hinput <;> rw [hinput] at hpk <;> cases hpk

theorem tracked_step {c : Controller} (hc : c.WellFormed db) (hclean : c.io.Clean) {e : Event}
    (he : KeepsSync db c e) {p : ℕ} (hp : p < 40) (h : Tracked db c p) :
    Tracked db (c.step e) p := by
  by_cases hmark : ∃ onoff, c.action db e p = .mark onoff
  · obtain ⟨onoff, hmark⟩ := hmark
    rcases action_cases db c e p with ⟨block, hex, hact⟩ | hact | ⟨_, _, hact⟩ | ⟨_, _, hact⟩
    · exact tracked_of_mark hc he hp hex (hact.symm.trans hmark)
    · cases hact.symm.trans hmark
    · cases hact.symm.trans hmark
    · cases hact.symm.trans hmark
  · have hmark' (onoff : Bool) : c.action db e p ≠ .mark onoff := fun h => hmark ⟨onoff, h⟩
    rcases h with h | h
    · exact .inl (inStep_step hc he hp hmark' h)
    · exact tracked_of_awaits hc hclean he hp hmark' h

/-- All outputs stay in step or wait for the poll. -/
theorem tracked_exec {c : Controller} (hc : c.WellFormed db) (hclean : c.io.Clean)
    {es : List Event} (hes : Transition.Meets step (KeepsSync db) c es) {p : ℕ} (hp : p < 40)
    (h : Tracked db c p) : Tracked db (Transition.exec step c es) p := by
  induction es generalizing c with
  | nil => exact h
  | cons e es ih =>
      obtain ⟨he, hes⟩ := hes
      exact ih (wellFormed_step hc e) (clean_step hc hclean e) hes
        (tracked_step hc hclean he hp h)

/-- From a database whose records say off, every record says what its relay does in every
state without a pending request, as long as no event parts the two. -/
theorem onoff_eq_hwBit (db : Database) (inports : Banks) (lightsOnDelay : ℕ)
    (hdb : ∀ p < 40, (Relay.mk (db.records p) false).InStep) (es : List Event)
    (hes : Transition.Meets step (KeepsSync db) (boot db inports lightsOnDelay) es) :
    let c := Transition.exec step (boot db inports lightsOnDelay) es
    (∀ bank < 6, c.io.fakeInportstatus1 bank = c.io.fakeInportstatus2 bank) →
      ∀ p < 40, ¬ (c.io.relay p).Blinking →
        (c.io.datap p).onoff = IoState.level (c.io.hwBit p) := by
  intro c hquiet p hp hblink
  have hboot := Reachable.boot db inports lightsOnDelay
  have hinit : Tracked db (boot db inports lightsOnDelay) p := by
    left
    rw [relay_boot db inports lightsOnDelay hp]
    exact hdb p hp
  rcases tracked_exec hboot.wellFormed hboot.clean hes hp hinit with hin | hwait
  · rcases hin with hsync | hin
    · exact hsync
    · exact absurd hin hblink
  · -- a request cannot be pending here
    refine absurd ?_ hwait.pending
    have hbank := realBanks_bank_lt (db.input p) (Nat.lt_trans hwait.input_lt (by decide))
    rw [IoState.asked, IoState.seen, Banks.bit, Banks.bit, hquiet _ hbank]

/-- `ON_FAN` and its poll. -/
theorem onoff_eq_hwBit_odata :
    let c := Transition.exec step (boot odata (fun _ => 0#8) 0)
      [.addMsgQueue CmdType.onFan.toByte, .getMsgQueue, .basicControlsTask,
        .monitorFakeInputTask 0]
    ∀ p < 40, ¬ (c.io.relay p).Blinking → (c.io.datap p).onoff = IoState.level (c.io.hwBit p) := by
  refine onoff_eq_hwBit odata (fun _ => 0#8) 0 ?_ _ ?_ ?_
  · decide +kernel
  · simp only [boot, initIps_odata]
    decide +kernel
  · simp only [boot, initIps_odata]
    decide +kernel

/-- `ON_ACC` alone: the accessories are on, and their record says off. -/
theorem onoff_ne_hwBit_odata :
    let c := Transition.exec step (boot odata (fun _ => 0#8) 0)
      [.addMsgQueue CmdType.onAcc.toByte, .getMsgQueue, .basicControlsTask]
    (∀ bank < 6, c.io.fakeInportstatus1 bank = c.io.fakeInportstatus2 bank) ∧
      ¬ (c.io.relay accon).Blinking ∧ (c.io.datap accon).onoff = 0#8 ∧
      c.io.hwBit accon = true := by
  simp only [boot, initIps_odata]
  decide +kernel

end Controller

end TruckControl
