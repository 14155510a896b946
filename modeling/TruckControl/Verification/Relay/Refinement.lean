import Mathlib.Data.List.Infix
import TruckControl.Model.Controller
import TruckControl.Verification.Relay.Functions

/-!
# The controller acts on each output as the output machine does

Every event of the controller is, on each port, one action of `Relay`. The table of
actions is `Controller.action`; `Controller.acts_step` is the simulation.
-/

namespace TruckControl

open InputType OutputType

namespace IoState

variable {db : Database} {s t u : IoState}

/-! ## Composition -/

theorem Acts.trans {a b c : ℕ → Relay.Action} (hst : Acts s t a) (htu : Acts t u b)
    (hc : ∀ p < 40, ∀ r : Relay, (r.act (a p)).act (b p) = r.act (c p)) : Acts s u c := by
  refine ⟨?_, fun p hp h => htu.found p hp (hst.found p hp h), htu.ip_eq.trans hst.ip_eq⟩
  intro p hp
  rw [htu.relay_eq p hp, hst.relay_eq p hp, hc p hp]

theorem Acts.congr {a b : ℕ → Relay.Action} (h : Acts s t a) (hab : ∀ p < 40, a p = b p) :
    Acts s t b :=
  ⟨fun p hp => hab p hp ▸ h.relay_eq p hp, h.found, h.ip_eq⟩

/-- A loop over distinct ports, each round of which acts on its own port. -/
theorem Acts.foldl {f : IoState → ℕ → IoState} {a : Relay.Action} {ports : List ℕ}
    (hnodup : ports.Nodup) (hs : WellFormed db s)
    (hf : ∀ s, WellFormed db s → ∀ q ∈ ports,
      Acts s (f s q) fun p => if p = q then a else .keep) :
    Acts s (ports.foldl f s) fun p => if p ∈ ports then a else .keep := by
  induction ports generalizing s with
  | nil => exact (Acts.of_keep (fun _ _ => rfl) rfl rfl).congr fun p _ => by simp
  | cons q ports ih =>
      obtain ⟨hq, hports⟩ := List.nodup_cons.mp hnodup
      have hfirst := hf s hs q List.mem_cons_self
      have hothers := ih hports (hfirst.wellFormed hs) fun s hs r hr =>
        hf s hs r (List.mem_cons_of_mem q hr)
      apply hfirst.trans hothers
      intro p _ r
      by_cases hpq : p = q
      · have hp : p ∉ ports := hpq ▸ hq
        simp [hpq, hq, Relay.act]
      · simp [hpq, Relay.act]

/-- A loop whose rounds change single outputs changes nothing outside the outputs. -/
theorem rest_foldl {f : IoState → ℕ → IoState} {a : Relay.Action} {ports : List ℕ}
    (hs : WellFormed db s)
    (hf : ∀ s, WellFormed db s → ∀ q ∈ ports, ActsOn s (f s q) q a) :
    (ports.foldl f s).rest = s.rest := by
  induction ports generalizing s with
  | nil => rfl
  | cons q ports ih =>
      have hfirst := hf s hs q List.mem_cons_self
      have hothers := ih (hfirst.wellFormed hs) fun s hs r hr =>
        hf s hs r (List.mem_cons_of_mem q hr)
      rw [List.foldl_cons, hothers, hfirst.rest_eq]

/-! ## The direct commands -/

theorem actsOn_execAcc (onoff : Bool) : ActsOn s (s.execAcc onoff) accon (.drive onoff) := by
  have hq : accon < 40 := by decide
  have hstore : ActsOn s (s.insertData accon accon) accon .keep :=
    actsOn_record (d := s.datap accon) rfl
  by_cases hr : (s.datap accon).reset = 0#8
  · have hdrive : ActsOn s ((s.insertData accon accon).changeOutput accon onoff) accon
        (.drive onoff) := by
      refine ⟨?_, by simp [hq], ?_⟩
      · intro p hp
        by_cases hpa : p = accon
        · simp [hpa, relay, Relay.act, hr, hq]
        · simp [hpa, relay, hp, hq]
      · intro p hp h
        rw [oll_changeOutput _ hq]
        exact hstore.found p hp h
    simpa [execAcc, hr] using hdrive
  · have hkeep : ActsOn s (s.insertData accon accon) accon (.drive onoff) :=
      actsOn_record (d := s.datap accon) (by simp [Relay.act, relay, hr])
    simpa [execAcc, hr] using hkeep

theorem actsOn_execFuelPump (onoff : Bool) :
    ActsOn s (s.execFuelPump onoff) fuelpump (.switch onoff) := by
  have hq : fuelpump < 40 := by decide
  by_cases hr : (s.datap fuelpump).reset = 0#8
  · refine ⟨?_, ?_, ?_⟩
    · intro p hp
      by_cases hpf : p = fuelpump
      · simp [execFuelPump, hpf, relay, Relay.act, hr, hq]
      · simp [execFuelPump, hpf, relay, hr, hp, hq]
    · simp [execFuelPump, hr, hq]
    · intro p hp h
      simp only [execFuelPump, hr, if_true]
      apply found_insertData
      apply found_write
      rw [oll_changeOutput _ hq]
      exact h
  · have hact : (s.relay fuelpump).act (.switch onoff) = s.relay fuelpump := by
      simp [Relay.act, relay, hr]
    cases onoff with
    | false => simpa [execFuelPump, hr] using actsOn_keep hact
    | true =>
        have hstore : ActsOn s (s.insertData fuelpump fuelpump) fuelpump (.switch true) :=
          actsOn_record (d := s.datap fuelpump) hact
        simpa [execFuelPump, hr] using hstore

theorem actsOn_markOutput (q : ℕ) (onoff : Bool) :
    ActsOn s (s.markOutput onoff q) q (.mark onoff) := by
  refine ⟨?_, rfl, ?_⟩
  · intro p _
    by_cases hpq : p = q
    · simp [markOutput, hpq, relay, Relay.act]
    · simp [markOutput, hpq, relay]
  · intro p _ h
    exact found_insertData _ _ _ p (found_write s q p _ h)

/-- Drive the relay, then assign to the record and store it back. -/
theorem relay_drive_write {p q : ℕ} (hp : p < 40) (hq : q < 40) (d : OData) (v : Bool) :
    (((s.changeOutput q v).write q d).insertData q q).relay p =
      if p = q then ⟨d, v⟩ else s.relay p := by
  by_cases hpq : p = q
  · simp [hpq, relay, hq]
  · simp [hpq, relay, hp, hq]

theorem found_drive_write {q : ℕ} (hq : q < 40) (d : OData) (v : Bool) (p : ℕ)
    (h : ∃ d, ollistFindData p s.oll = some d) :
    ∃ e, ollistFindData p (((s.changeOutput q v).write q d).insertData q q).oll = some e := by
  apply found_insertData
  apply found_write
  rw [oll_changeOutput _ hq]
  exact h

theorem actsOn_drive_write {q : ℕ} (hq : q < 40) {d : OData} {v : Bool} {a : Relay.Action}
    (hact : (s.relay q).act a = ⟨d, v⟩) :
    ActsOn s (((s.changeOutput q v).write q d).insertData q q) q a := by
  refine ⟨?_, by simp [hq], fun p _ h => found_drive_write hq d v p h⟩
  intro p hp
  rw [relay_drive_write hp hq]
  by_cases hpq : p = q
  · rw [if_pos hpq, if_pos hpq, hpq, hact]
  · rw [if_neg hpq, if_neg hpq]

theorem actsOn_startOutput (hs : WellFormed db s) {q : ℕ} (hq : q < 40) :
    ActsOn s (s.startOutput q) q .start := by
  have hport := hs.port hq
  have h := actsOn_write (s := s) hq (d := { s.datap q with onoff := 1#8, reset := 0#8 })
    (v := true) (a := .start) hport rfl
  simpa [startOutput, hport] using h

theorem actsOn_stopOutput (hs : WellFormed db s) {q : ℕ} (hq : q < 40) :
    ActsOn s (s.stopOutput q) q .stop := by
  have hport := hs.port hq
  have h := actsOn_drive_write (s := s) hq (d := { s.datap q with onoff := 0#8 })
    (v := false) (a := .stop) rfl
  simpa [stopOutput, hq, hport] using h

end IoState

/-! ## The blocks of a command -/

/-- The outputs a block names are among the forty. -/
def Block.Valid : Block → Prop
  | .changeInput index _ => index < 40
  | .requestInput index _ outputs => index < 40 ∧ outputs.Nodup ∧ ∀ q ∈ outputs, q < 40
  | .setOutput index _ => index < 40
  | _ => True

instance : DecidablePred Block.Valid
  | .changeInput _ _ => inferInstanceAs (Decidable (_ < _))
  | .requestInput _ _ _ => inferInstanceAs (Decidable (_ ∧ _))
  | .setOutput _ _ => inferInstanceAs (Decidable (_ < _))
  | .acc _ | .fuelPump _ | .testLeftBlinker | .testRightBlinker | .startSeqPower
  | .startSeqEnable | .shutdownAcc | .shutdownFuelPump => .isTrue trivial

/-- What a block does to a port. -/
def Block.action (p : ℕ) : Block → Relay.Action
  | .acc onoff => if p = accon then .drive onoff else .keep
  | .fuelPump onoff => if p = fuelpump then .switch onoff else .keep
  | .requestInput _ onoff outputs => if p ∈ outputs then .mark onoff else .keep
  | .setOutput index onoff => if p = index then .set onoff else .keep
  | .startSeqPower => if p = accon ∨ p = fuelpump then .start else .keep
  | .shutdownAcc => if p = accon then .stop else .keep
  | .shutdownFuelPump => if p = fuelpump then .stop else .keep
  | _ => .keep

/-- A block of one of the commands. -/
def Block.Issued (block : Block) : Prop := ∃ cmd, block ∈ basicControls cmd

/-- What holds of the blocks of every command. -/
theorem Block.Issued.of_forall {P : Block → Prop} {block : Block} (h : block.Issued)
    (hall : ∀ cmd, ∀ block ∈ basicControls cmd, P block) : P block := by
  obtain ⟨cmd, hmem⟩ := h
  exact hall cmd block hmem

theorem Block.Issued.valid {block : Block} (h : block.Issued) : block.Valid := by
  have hall : ∀ cmd, ∀ block ∈ basicControls cmd, block.Valid := by decide +kernel
  exact h.of_forall hall

namespace IoState

variable {db : Database} {s : IoState}

theorem acts_execBlock (hs : WellFormed db s) {block : Block} (hvalid : block.Valid) :
    Acts s (s.execBlock block) block.action := by
  have hkeep {t : IoState} (hrelay : ∀ p < 40, t.relay p = s.relay p) (holl : t.oll = s.oll)
      (hip : t.ip = s.ip) : Acts s t fun _ => .keep := Acts.of_keep hrelay holl hip
  cases block with
  | changeInput index onoff => exact hkeep (fun _ _ => rfl) rfl rfl
  | acc onoff => exact (actsOn_execAcc onoff).acts
  | fuelPump onoff => exact (actsOn_execFuelPump onoff).acts
  | requestInput index onoff outputs =>
      obtain ⟨-, hnodup, -⟩ := hvalid
      have hrequest : Acts s (s.changeInput index onoff) fun _ => .keep :=
        hkeep (fun _ _ => rfl) rfl rfl
      have hmark := Acts.foldl (a := .mark onoff) hnodup (hrequest.wellFormed hs)
        fun s _ q _ => (actsOn_markOutput (s := s) q onoff).acts
      exact hrequest.trans hmark fun p _ r => rfl
  | setOutput index onoff => exact (actsOn_setOutput hs hvalid onoff).acts
  | testLeftBlinker => exact hkeep (fun _ _ => rfl) rfl rfl
  | testRightBlinker => exact hkeep (fun _ _ => rfl) rfl rfl
  | startSeqPower =>
      have hacc := (actsOn_startOutput hs (q := accon) (by decide)).acts
      have hpump := (actsOn_startOutput (hacc.wellFormed hs) (q := fuelpump) (by decide)).acts
      apply hacc.trans hpump
      intro p _ r
      by_cases hp : p = accon
      · subst hp
        rfl
      · simp [Block.action, hp, Relay.act]
  | startSeqEnable => exact hkeep (fun _ _ => rfl) rfl rfl
  | shutdownAcc =>
      let s' : IoState := { s with
        runningHours := 0#8, runningMinutes := 0#8, runningSeconds := 0#8, engineRunning := 0 }
      have hclock : Acts s s' fun _ => .keep := hkeep (fun _ _ => rfl) rfl rfl
      have hstop := (actsOn_stopOutput (hclock.wellFormed hs) (q := accon) (by decide)).acts
      exact hclock.trans hstop fun p _ r => rfl
  | shutdownFuelPump =>
      have hstop := (actsOn_stopOutput hs (q := fuelpump) (by decide)).acts
      exact ⟨hstop.relay_eq, hstop.found, hstop.ip_eq⟩

/-! ## Edges -/

theorem dispatch_eq_foldl (hs : WellFormed db s) (index : ℕ) (onoff : Bool) :
    s.dispatch index onoff = (db.driven index).foldl (fun s q => s.setOutput q onoff) s := by
  rw [dispatch, hs.ip, Database.driven, List.foldl_map, List.foldl_filter]
  simp only [decide_eq_true_eq]

/-- An edge of an input reaches exactly the outputs that the input drives. -/
theorem acts_dispatch (hs : WellFormed db s) {index : ℕ} (hi : index < 40) (onoff : Bool) :
    Acts s (s.dispatch index onoff)
      fun p => if db.input p = index then .set onoff else .keep := by
  rw [dispatch_eq_foldl hs]
  have h := Acts.foldl (f := fun s q => s.setOutput q onoff) (a := .set onoff)
    (db.driven_nodup index) hs fun s hs q hq =>
      (actsOn_setOutput hs ((db.mem_driven hi).mp hq).1 onoff).acts
  apply h.congr
  intro p hp
  simp [db.mem_driven hi, hp]

theorem rest_dispatch (hs : WellFormed db s) {index : ℕ} (hi : index < 40) (onoff : Bool) :
    (s.dispatch index onoff).rest = s.rest := by
  rw [dispatch_eq_foldl hs]
  exact rest_foldl hs fun s hs q hq => actsOn_setOutput hs ((db.mem_driven hi).mp hq).1 onoff

theorem realIndex_lt : ∀ bank < 6, ∀ index < 8, realIndex bank index < 40 := by decide

/-- A decoded edge is one of the forty inputs. -/
theorem decodeChange_lt {bank index : ℕ} {result status : UCHAR} {onoff : Bool}
    (hb : bank < 6) (h : decodeChange bank result status = some (index, onoff)) : index < 40 := by
  rw [decodeChange] at h
  split_ifs at h
  obtain ⟨rfl, -⟩ := Prod.mk.inj (Option.some.inj h)
  exact realIndex_lt bank hb _ (Byte.highestBit_lt _)

/-- What an edge does to the outputs. -/
def edgeAction (db : Database) (edge : Option (ℕ × Bool)) (p : ℕ) : Relay.Action :=
  match edge with
  | none => .keep
  | some (index, onoff) => if db.input p = index then .set onoff else .keep

theorem edgeAction_eq_keep {edge : Option (ℕ × Bool)} {p : ℕ}
    (h : ∀ onoff, edge ≠ some (db.input p, onoff)) : edgeAction db edge p = .keep := by
  cases edge with
  | none => rfl
  | some edge =>
      obtain ⟨index, onoff⟩ := edge
      have hne : db.input p ≠ index := fun heq => h onoff (by rw [heq])
      exact if_neg hne

theorem acts_monitorInputTask (hs : WellFormed db s) {bank : ℕ} (hb : bank < 6)
    (result : UCHAR) :
    Acts s (s.monitorInputTask bank result)
      (edgeAction db (decodeChange bank result (s.inportstatus bank))) := by
  rw [monitorInputTask]
  cases h : decodeChange bank result (s.inportstatus bank) with
  | none => exact Acts.of_keep (fun _ _ => rfl) rfl rfl
  | some edge =>
      obtain ⟨index, onoff⟩ := edge
      have hd := acts_dispatch hs (decodeChange_lt hb h) onoff
      exact ⟨hd.relay_eq, hd.found, hd.ip_eq⟩

theorem acts_monitorFakeInputTask (hs : WellFormed db s) {bank : ℕ} (hb : bank < 6) :
    Acts s (s.monitorFakeInputTask bank)
      (edgeAction db (decodeChange bank (s.fakeInportstatus2 bank)
        (s.fakeInportstatus1 bank))) := by
  simp only [monitorFakeInputTask]
  cases h : decodeChange bank (s.fakeInportstatus2 bank) (s.fakeInportstatus1 bank) with
  | none => exact Acts.of_keep (fun _ _ => rfl) rfl rfl
  | some edge =>
      obtain ⟨index, onoff⟩ := edge
      let s' : IoState := { s with
        fakeInportstatus2 := Function.update s.fakeInportstatus2 bank
          (if onoff then s.fakeInportstatus2 bank |||
              (s.fakeInportstatus2 bank ^^^ s.fakeInportstatus1 bank)
            else s.fakeInportstatus2 bank &&&
              ~~~(s.fakeInportstatus2 bank ^^^ s.fakeInportstatus1 bank)) }
      have hs' : WellFormed db s' := ⟨hs.found, hs.setup, hs.ip⟩
      have hd := acts_dispatch hs' (decodeChange_lt hb h) onoff
      exact ⟨hd.relay_eq, hd.found, hd.ip_eq⟩

/-! ## The timer -/

/-- The relay of a blink output follows the seconds gone; the others do not move. -/
def blink (s : IoState) (q : ℕ) : IoState :=
  if (s.datap q).type = 3#8 then
    s.changeOutput q (((s.datap q).timeDelay - (s.datap q).timeLeft) % 2#32 ≠ 0#32)
  else s

/-- Take back what was asked of an input, and what was seen of it. -/
def clearInput (q : ℕ) (s : IoState) : IoState :=
  { s with
    fakeInportstatus1 := s.fakeInportstatus1.assign q false
    fakeInportstatus2 := s.fakeInportstatus2.assign q false }

@[simp] theorem relay_clearInput (q p : ℕ) : (s.clearInput q).relay p = s.relay p := rfl

theorem rest_blink {q : ℕ} (hq : q < 40) : (s.blink q).rest = s.rest := by
  rw [blink]
  split_ifs
  · exact rest_changeOutput s hq _
  · rfl

theorem oll_blink {q : ℕ} (hq : q < 40) : (s.blink q).oll = s.oll := by
  rw [blink]
  split_ifs
  · exact oll_changeOutput s hq _
  · rfl

theorem hwBit_blink {q : ℕ} (hq : q < 40) :
    (s.blink q).hwBit q = if (s.datap q).type = 3#8 then
        decide (((s.datap q).timeDelay - (s.datap q).timeLeft) % 2#32 ≠ 0#32)
      else s.hwBit q := by
  rw [blink]
  split_ifs
  · simp [hq]
  · rfl

theorem relay_blink_write {p q : ℕ} (hp : p < 40) (hq : q < 40) (d : OData) :
    ((s.blink q).write q d).relay p =
      if p = q then ⟨d, (s.blink q).hwBit q⟩ else s.relay p := by
  by_cases hpq : p = q
  · simp [hpq, relay]
  · rw [blink]
    split_ifs <;> simp [hpq, relay, hp, hq]

theorem timerPort_of_not_counting {q : ℕ} (h : ¬ (s.relay q).Counting) :
    s.timerPort q = s := if_neg h

/-- A scan that does not end the countdown. -/
theorem timerPort_of_counting (hs : WellFormed db s) {q : ℕ} (hq : q < 40)
    (h : (s.relay q).Counting) (hlast : (s.datap q).timeLeft ≠ 1#32) :
    s.timerPort q =
      (s.blink q).write q { s.datap q with timeLeft := (s.datap q).timeLeft - 1#32 } := by
  have hport := hs.port hq
  have hleft : (s.datap q).timeLeft - 1#32 ≠ 0#32 := by
    intro h0
    apply hlast
    bv_omega
  simp only [Relay.Counting, relay] at h
  simp only [timerPort, h, hport, hleft, blink, and_self, if_true, if_false]

/-- The scan that ends the countdown. -/
theorem timerPort_of_expires (hs : WellFormed db s) {q : ℕ} (hq : q < 40)
    (h : (s.relay q).Expires) :
    s.timerPort q =
      let d := { s.datap q with timeLeft := 0#32, onoff := 0#8, reset := 0#8 }
      (((((s.blink q).write q { s.datap q with timeLeft := 0#32 }).changeOutput q
        false).write q d).insertData q q).clearInput q := by
  have hport := hs.port hq
  obtain ⟨hcount, hlast⟩ := h
  simp only [Relay.Counting, relay] at hcount hlast
  have hleft : (s.datap q).timeLeft - 1#32 = 0#32 := by rw [hlast]; decide
  simp only [timerPort, hcount, hport, hleft, blink, clearInput, and_self, if_true]
  split_ifs <;> simp [hport]

theorem acts_timerPort (hs : WellFormed db s) {q : ℕ} (hq : q < 40) :
    Acts s (s.timerPort q) fun p => if p = q then .scan else .keep := by
  have hfound (d : OData) (p : ℕ) (h : ∃ e, ollistFindData p s.oll = some e) :
      ∃ e, ollistFindData p ((s.blink q).write q d).oll = some e := by
    apply found_write
    rw [oll_blink hq]
    exact h
  by_cases hcount : (s.relay q).Counting
  · by_cases hlast : (s.datap q).timeLeft = 1#32
    · have hact : (s.relay q).timerPort =
          ⟨{ s.datap q with timeLeft := 0#32, onoff := 0#8, reset := 0#8 }, false⟩ := by
        rw [Relay.timerPort, if_pos hcount]
        exact if_pos hlast
      rw [timerPort_of_expires hs hq ⟨hcount, hlast⟩]
      refine ⟨?_, fun p _ h => found_drive_write hq _ false p (hfound _ p h), ?_⟩
      · intro p hp
        rw [relay_clearInput, relay_drive_write hp hq, relay_blink_write hp hq]
        by_cases hpq : p = q
        · rw [if_pos hpq, if_pos hpq, hpq, Relay.act, hact]
        · simp [hpq, Relay.act]
      · have hrest := (rest_changeOutput ((s.blink q).write q { s.datap q with timeLeft := 0#32 })
          hq false).trans (rest_blink hq)
        have hip := congrArg IoState.ip hrest
        exact hip
    · have hact : (s.relay q).timerPort =
          ⟨{ s.datap q with timeLeft := (s.datap q).timeLeft - 1#32 }, (s.blink q).hwBit q⟩ := by
        rw [Relay.timerPort, if_pos hcount, hwBit_blink hq]
        exact if_neg hlast
      rw [timerPort_of_counting hs hq hcount hlast]
      refine ⟨?_, fun p _ h => hfound _ p h, ?_⟩
      · intro p hp
        rw [relay_blink_write hp hq]
        by_cases hpq : p = q
        · rw [if_pos hpq, if_pos hpq, hpq, Relay.act, hact]
        · simp [hpq, Relay.act]
      · have hip := congrArg IoState.ip (rest_blink (s := s) hq)
        exact hip
  · rw [timerPort_of_not_counting hcount]
    have hact : (s.relay q).timerPort = s.relay q := if_neg hcount
    exact (actsOn_keep (a := .scan) hact).acts

theorem acts_timerScan (hs : WellFormed db s) :
    Acts s s.timerScan fun p => if p < testoutput27 then .scan else .keep := by
  have h := Acts.foldl (f := timerPort) (a := .scan) (List.nodup_range (n := testoutput27)) hs
    fun s hs q hq => acts_timerPort hs (Nat.lt_trans (List.mem_range.mp hq) (by decide))
  exact h.congr fun p _ => by simp only [List.mem_range]

/-- A change outside the outputs. -/
structure SameOutputs (s t : IoState) : Prop where
  oll : t.oll = s.oll
  outportstatus : t.outportstatus = s.outportstatus
  ip : t.ip = s.ip

theorem SameOutputs.trans (hst : SameOutputs s t) (htu : SameOutputs t u) : SameOutputs s u :=
  ⟨htu.oll.trans hst.oll, htu.outportstatus.trans hst.outportstatus, htu.ip.trans hst.ip⟩

theorem SameOutputs.acts (h : SameOutputs s t) : Acts s t fun _ => .keep := by
  refine Acts.of_keep ?_ h.oll h.ip
  intro p _
  rw [relay, relay, datap, datap, hwBit, hwBit, h.oll, h.outportstatus]

theorem SameOutputs.addMsgQueue (h : SameOutputs s t) (cmd : UCHAR) :
    SameOutputs s (t.addMsgQueue cmd) :=
  ⟨h.oll, h.outportstatus, h.ip⟩

theorem timerEngine_outputs (s : IoState) : SameOutputs s s.timerEngine := by
  simp only [timerEngine]
  split_ifs
  · iterate 2 apply SameOutputs.addMsgQueue
    exact ⟨rfl, rfl, rfl⟩
  · exact ⟨rfl, rfl, rfl⟩
  · iterate 5 apply SameOutputs.addMsgQueue
    exact ⟨rfl, rfl, rfl⟩
  · exact ⟨rfl, rfl, rfl⟩
  · exact ⟨rfl, rfl, rfl⟩

theorem timerLblinkers_outputs (s : IoState) : SameOutputs s s.timerLblinkers := by
  simp only [timerLblinkers]
  split_ifs <;> exact ⟨rfl, rfl, rfl⟩

theorem timerRblinkers_outputs (s : IoState) : SameOutputs s s.timerRblinkers := by
  simp only [timerRblinkers]
  split_ifs <;> exact ⟨rfl, rfl, rfl⟩

/-- What a tick does before its scan is outside the outputs. -/
theorem acts_timer_prologue (s : IoState) :
    Acts s (timerRblinkers (timerLblinkers (timerUptime (timerEngine s)))) fun _ => .keep := by
  have huptime (s : IoState) : SameOutputs s s.timerUptime := ⟨rfl, rfl, rfl⟩
  exact ((((timerEngine_outputs s).trans (huptime _)).trans
    (timerLblinkers_outputs _)).trans (timerRblinkers_outputs _)).acts

theorem acts_timerTask (hs : WellFormed db s) :
    Acts s s.timerTask fun p => if p < testoutput27 then .scan else .keep := by
  have hprologue := acts_timer_prologue s
  exact hprologue.trans (acts_timerScan (hprologue.wellFormed hs)) fun p _ r => rfl

end IoState

/-! ## The simulation -/

namespace Controller

variable {db : Database}

/-- A well-formed state, and the rest of a command to execute. -/
structure WellFormed (db : Database) (c : Controller) : Prop where
  io : c.io.WellFormed db
  rest : ∃ cmd, c.todo <:+ basicControls cmd

theorem WellFormed.todo {c : Controller} (h : c.WellFormed db) :
    ∀ block ∈ c.todo, block.Issued := by
  obtain ⟨cmd, hrest⟩ := h.rest
  exact fun block hb => ⟨cmd, hrest.subset hb⟩

/-- The input edge that an event brings to the outputs. -/
def edge (c : Controller) : Event → Option (ℕ × Bool)
  | .monitorInputTask bank result =>
      if bank < 6 then IoState.decodeChange bank result (c.io.inportstatus bank) else none
  | .monitorFakeInputTask bank =>
      if bank < 6 then
        IoState.decodeChange bank (c.io.fakeInportstatus2 bank) (c.io.fakeInportstatus1 bank)
      else none
  | _ => none

/-- What an event does to the ports. -/
def action (db : Database) (c : Controller) (e : Event) : ℕ → Relay.Action :=
  match e with
  | .basicControlsTask =>
      match c.todo with
      | [] => fun _ => .keep
      | block :: _ => block.action
  | .timerTask => fun p => if p < testoutput27 then .scan else .keep
  | .monitorInputTask bank result => IoState.edgeAction db (c.edge (.monitorInputTask bank result))
  | .monitorFakeInputTask bank => IoState.edgeAction db (c.edge (.monitorFakeInputTask bank))
  | .addMsgQueue _ | .getMsgQueue | .lightsOnDelay _ => fun _ => .keep

theorem acts_step {c : Controller} (h : c.WellFormed db) (e : Event) :
    c.io.Acts (c.step e).io (c.action db e) := by
  have hkeep {t : IoState} (ht : IoState.SameOutputs c.io t) :
      c.io.Acts t fun _ => .keep := ht.acts
  cases e with
  | addMsgQueue cmd => exact hkeep ⟨rfl, rfl, rfl⟩
  | getMsgQueue =>
      rw [step]
      cases c.todo with
      | nil => exact hkeep ⟨rfl, rfl, rfl⟩
      | cons block todo => exact hkeep ⟨rfl, rfl, rfl⟩
  | basicControlsTask =>
      rw [step, action]
      cases htodo : c.todo with
      | nil => exact hkeep ⟨rfl, rfl, rfl⟩
      | cons block todo =>
          have hissued := h.todo block (htodo ▸ List.mem_cons_self)
          exact IoState.acts_execBlock h.io hissued.valid
  | monitorInputTask bank result =>
      rw [step, action, edge]
      by_cases hb : bank < 6
      · rw [if_pos hb, if_pos hb]
        exact IoState.acts_monitorInputTask h.io hb result
      · rw [if_neg hb, if_neg hb]
        exact hkeep ⟨rfl, rfl, rfl⟩
  | monitorFakeInputTask bank =>
      rw [step, action, edge]
      by_cases hb : bank < 6
      · rw [if_pos hb, if_pos hb]
        exact IoState.acts_monitorFakeInputTask h.io hb
      · rw [if_neg hb, if_neg hb]
        exact hkeep ⟨rfl, rfl, rfl⟩
  | timerTask =>
      have htimer := IoState.acts_timerTask h.io
      simp only [step, action]
      exact htimer
  | lightsOnDelay delay => exact hkeep ⟨rfl, rfl, rfl⟩

/-- One event of the controller is one action of every output machine. -/
theorem relay_step {c : Controller} (h : c.WellFormed db) (e : Event) {p : ℕ} (hp : p < 40) :
    (c.step e).io.relay p = (c.io.relay p).act (c.action db e p) :=
  (acts_step h e).relay_eq p hp

theorem wellFormed_step {c : Controller} (h : c.WellFormed db) (e : Event) :
    (c.step e).WellFormed db := by
  refine ⟨(acts_step h e).wellFormed h.io, ?_⟩
  cases stepCases c e with
  | got htodo hstep =>
      rw [hstep]
      exact ⟨_, List.suffix_refl _⟩
  | executed block todo htodo hstep =>
      obtain ⟨cmd, hrest⟩ := h.rest
      rw [htodo] at hrest
      rw [hstep]
      exact ⟨cmd, (List.suffix_cons block todo).trans hrest⟩
  | idle hstep | added cmd hstep | switched bank result hb hstep | polled bank hb hstep
  | ticked hstep | delayed delay hstep =>
      rw [hstep]
      exact h.rest

/-- The setup of a record is that of the database. -/
theorem WellFormed.setup {c : Controller} (h : c.WellFormed db) {p : ℕ} (hp : p < 40) :
    (c.io.relay p).datap.setup = (db.records p).setup :=
  h.io.setup p hp

theorem wellFormed_exec {c : Controller} (h : c.WellFormed db) (es : List Event) :
    (Transition.exec step c es).WellFormed db :=
  Transition.inv_exec (I := WellFormed db) (fun _ e hc => wellFormed_step hc e) es h

theorem wellFormed_boot (db : Database) (inports : Banks) (lightsOnDelay : ℕ) :
    (boot db inports lightsOnDelay).WellFormed db := by
  have holl : (boot db inports lightsOnDelay).io.oll = db.olLoadConfig := rfl
  have hfind (p : ℕ) (hp : p < 40) := db.ollistFindData_olLoadConfig p hp
  refine ⟨⟨?_, ?_, by simp only [boot]⟩, ?_⟩
  · intro p hp
    rw [holl]
    exact ⟨db.records p, hfind p hp⟩
  · intro p hp
    rw [IoState.datap, holl, hfind p hp]
    rfl
  · exact ⟨0, by simp [boot]⟩

/-- The invariant rule of the controller. -/
theorem Reachable.invariant {I : Controller → Prop}
    (hboot : ∀ inports lightsOnDelay, I (boot db inports lightsOnDelay))
    (hstep : ∀ c e, Reachable db c → I c → I (c.step e)) {c : Controller}
    (h : Reachable db c) : I c := by
  refine Transition.Reachable.invariant ?_ hstep h
  intro c hc
  obtain ⟨inports, lightsOnDelay, rfl⟩ := hc
  exact hboot inports lightsOnDelay

theorem Reachable.boot (db : Database) (inports : Banks) (lightsOnDelay : ℕ) :
    Reachable db (boot db inports lightsOnDelay) :=
  Transition.Reachable.initial ⟨inports, lightsOnDelay, rfl⟩

theorem Reachable.after {c : Controller} (h : Reachable db c) (es : List Event) :
    Reachable db (Transition.exec step c es) :=
  Transition.Reachable.after h es

theorem Reachable.wellFormed {c : Controller} (h : Reachable db c) : c.WellFormed db :=
  h.invariant (wellFormed_boot db) fun _ e _ hc => wellFormed_step hc e

/-- The event runs `basic_controls_task` through this block. -/
def Executes (block : Block) (c : Controller) (e : Event) : Prop :=
  e = .basicControlsTask ∧ c.todo.head? = some block

instance (block : Block) (c : Controller) (e : Event) : Decidable (Executes block c e) :=
  inferInstanceAs (Decidable (_ ∧ _))

theorem WellFormed.issued {c : Controller} (hc : c.WellFormed db) {block : Block} {e : Event}
    (h : Executes block c e) : block.Issued := by
  obtain ⟨todo, htodo⟩ := List.head?_eq_some_iff.mp h.2
  exact hc.todo block (htodo ▸ List.mem_cons_self)

theorem action_of_executes {block : Block} {c : Controller} {e : Event}
    (h : Executes block c e) : c.action db e = block.action := by
  obtain ⟨rfl, hhead⟩ := h
  obtain ⟨todo, htodo⟩ := List.head?_eq_some_iff.mp hhead
  simp only [action, htodo]

/-- The second half of `SHUTDOWN` is to come once the first has been executed. -/
theorem todo_shutdownFuelPump {c : Controller} (hc : c.WellFormed db) {e : Event}
    (h : (c.step e).todo.head? = some .shutdownFuelPump) :
    Executes .shutdownAcc c e ∨ e ≠ .basicControlsTask ∧ (c.step e).todo = c.todo := by
  have hfirst : ∀ cmd, (basicControls cmd).head? ≠ some .shutdownFuelPump := by decide +kernel
  have hsecond : ∀ cmd, ∀ rest ∈ (basicControls cmd).tails,
      rest.tail.head? = some .shutdownFuelPump → rest.head? = some .shutdownAcc := by
    decide +kernel
  have hbefore (htail : c.todo.tail.head? = some .shutdownFuelPump) :
      c.todo.head? = some .shutdownAcc := by
    obtain ⟨cmd, hrest⟩ := hc.rest
    exact hsecond cmd c.todo ((List.mem_tails _ _).mpr hrest) htail
  cases stepCases c e with
  | got htodo hstep =>
      rw [hstep] at h
      exact absurd h (hfirst _)
  | executed block todo htodo hstep =>
      refine .inl ⟨rfl, hbefore ?_⟩
      rw [hstep] at h
      rw [htodo]
      exact h
  | idle hstep =>
      by_cases hbasic : e = .basicControlsTask
      · -- a block that is to come would have been executed
        subst hbasic
        obtain ⟨todo, htodo⟩ := List.head?_eq_some_iff.mp h
        rw [hstep] at htodo
        have hlength := congrArg (fun c => c.todo.length) hstep
        simp [step, htodo] at hlength
      · exact .inr ⟨hbasic, by rw [hstep]⟩
  | added cmd hstep => exact .inr ⟨by simp, by rw [hstep]⟩
  | switched bank result hb hstep => exact .inr ⟨by simp, by rw [hstep]⟩
  | polled bank hb hstep => exact .inr ⟨by simp, by rw [hstep]⟩
  | ticked hstep => exact .inr ⟨by simp, by rw [hstep]⟩
  | delayed delay hstep => exact .inr ⟨by simp, by rw [hstep]⟩

/-- Only a command, and only in its own blocks, does more than edges and scans. -/
theorem action_cases (db : Database) (c : Controller) (e : Event) (p : ℕ) :
    (∃ block, Executes block c e ∧ c.action db e p = block.action p) ∨
      c.action db e p = .keep ∨
      (∃ onoff, c.edge e = some (db.input p, onoff) ∧ c.action db e p = .set onoff) ∨
      (e = .timerTask ∧ p < testoutput27 ∧ c.action db e p = .scan) := by
  have hedge (edge : Option (ℕ × Bool)) : IoState.edgeAction db edge p = .keep ∨
      ∃ onoff, edge = some (db.input p, onoff) ∧ IoState.edgeAction db edge p = .set onoff := by
    rcases edge with _ | ⟨index, onoff⟩
    · exact .inl rfl
    · by_cases hi : db.input p = index
      · exact .inr ⟨onoff, by rw [hi], if_pos hi⟩
      · exact .inl (if_neg hi)
  cases e with
  | basicControlsTask =>
      cases htodo : c.todo with
      | nil => exact .inr (.inl (by simp only [action, htodo]))
      | cons block todo =>
          have hex : Executes block c .basicControlsTask := ⟨rfl, by rw [htodo, List.head?_cons]⟩
          exact .inl ⟨block, hex, by rw [action_of_executes hex]⟩
  | timerTask =>
      by_cases hp : p < testoutput27
      · exact .inr (.inr (.inr ⟨rfl, hp, if_pos hp⟩))
      · exact .inr (.inl (if_neg hp))
  | monitorInputTask bank result =>
      rcases hedge (c.edge (.monitorInputTask bank result)) with h | h
      · exact .inr (.inl h)
      · exact .inr (.inr (.inl h))
  | monitorFakeInputTask bank =>
      rcases hedge (c.edge (.monitorFakeInputTask bank)) with h | h
      · exact .inr (.inl h)
      · exact .inr (.inr (.inl h))
  | addMsgQueue cmd => exact .inr (.inl rfl)
  | getMsgQueue => exact .inr (.inl rfl)
  | lightsOnDelay delay => exact .inr (.inl rfl)

/-- A port that an event brings an edge to is set. -/
theorem action_of_edge {c : Controller} {e : Event} {p : ℕ} {onoff : Bool}
    (h : c.edge e = some (db.input p, onoff)) : c.action db e p = .set onoff := by
  cases e with
  | monitorInputTask bank result => rw [action, h]; exact if_pos rfl
  | monitorFakeInputTask bank => rw [action, h]; exact if_pos rfl
  | _ => cases h

/-! ## Invariants of single outputs -/

/-- At start a relay is off and its record as loaded. -/
theorem relay_boot (db : Database) (inports : Banks) (lightsOnDelay : ℕ) {p : ℕ} (hp : p < 40) :
    (Controller.boot db inports lightsOnDelay).io.relay p = ⟨db.records p, false⟩ := by
  have holl : (Controller.boot db inports lightsOnDelay).io.oll = db.olLoadConfig := rfl
  have hhw : (Controller.boot db inports lightsOnDelay).io.hwBit p = false := by
    change (0#8).getLsbD _ = false
    simp
  rw [IoState.relay, IoState.datap, holl, hhw, db.ollistFindData_olLoadConfig p hp]
  rfl

/-- What holds of an output at start, and is kept by every action, holds in every
reachable state. -/
theorem Reachable.relay_invariant {I : Relay → Prop} {p : ℕ} (hp : p < 40)
    (hinit : I ⟨db.records p, false⟩) (hact : ∀ r a, I r → I (r.act a))
    {c : Controller} (h : Reachable db c) : I (c.io.relay p) := by
  refine h.invariant (I := fun c => I (c.io.relay p)) ?_ ?_
  · intro inports lightsOnDelay
    rw [relay_boot db _ _ hp]
    exact hinit
  · intro c e hc hI
    rw [relay_step hc.wellFormed e hp]
    exact hact _ _ hI

end Controller

end TruckControl
