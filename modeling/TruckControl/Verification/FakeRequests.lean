import TruckControl.Model.Odata
import TruckControl.Verification.Poll

/-!
# Requests of all the inputs

Whatever is asked of the forty inputs, `monitor_fake_input_task` is to bring it to the
outputs. It takes all that has changed in a bank between two polls for one change.
-/

namespace TruckControl

open InputType OutputType

namespace IoState

variable {db : Database} {s : IoState}

/-! ## Changes that are too large -/

/-- The change of a bank is too large to decode when the input on bit 7 is not alone. -/
theorem Aligned.mask_gt_iff (h : s.Aligned) {bank : ℕ} (hb : bank < 6) :
    (s.fakeInportstatus2 bank ^^^ s.fakeInportstatus1 bank) > 0x80#8 ↔
      ∃ k j, s.PendingIn bank k ∧ s.PendingIn bank j ∧ (realBanks k).index = 7 ∧
        (realBanks j).index < 7 := by
  rw [Byte.gt_iff, Byte.getLsbD_xor_iff, h.changed_iff hb (by decide)]
  constructor
  · rintro ⟨⟨k, hk, hk7⟩, i, hi, hbit⟩
    rw [Byte.getLsbD_xor_iff, h.changed_iff hb (Nat.lt_succ_of_lt hi)] at hbit
    obtain ⟨j, hj, rfl⟩ := hbit
    exact ⟨k, j, hk, hj, hk7, hi⟩
  · rintro ⟨k, j, hk, hj, hk7, hj7⟩
    refine ⟨⟨k, hk, hk7⟩, (realBanks j).index, hj7, ?_⟩
    rw [Byte.getLsbD_xor_iff, h.changed_iff hb (Nat.lt_succ_of_lt hj7)]
    exact ⟨j, hj, rfl⟩

/-- A poll finds an edge where something has changed, and not too much. -/
theorem Aligned.pollEdge_eq_none_iff (h : s.Aligned) {bank : ℕ} (hb : bank < 6) :
    s.pollEdge bank = none ↔ (∀ k, ¬ s.PendingIn bank k) ∨
      (s.fakeInportstatus2 bank ^^^ s.fakeInportstatus1 bank) > 0x80#8 := by
  have hsame : s.fakeInportstatus2 bank = s.fakeInportstatus1 bank ↔
      ∀ k, ¬ s.PendingIn bank k := by
    constructor
    · rintro heq k ⟨hk, rfl, hpend⟩
      exact hpend (congrArg (fun b => b.getLsbD (realBanks k).index) heq)
    · intro hno
      apply BitVec.eq_of_getLsbD_eq
      intro i hi
      by_contra hne
      obtain ⟨k, hk, -⟩ := (h.changed_iff hb hi).mp hne
      exact hno k hk
  rw [← hsame, pollEdge, decodeChange]
  split_ifs with heq hmask
  · simp [heq]
  · simp [hmask]
  · simp [heq, hmask]

/-! ## What a poll leaves -/

theorem Aligned.changeInput (h : s.Aligned) {index : ℕ} (hi : index < 40) (onoff : Bool) :
    (s.changeInput index onoff).Aligned := by
  intro bank hb i hi8 hne
  have hbit : ((s.changeInput index onoff).fakeInportstatus2 bank).getLsbD i =
      if bank = (realBanks index).bank ∧ i = (realBanks index).index then onoff
      else (s.fakeInportstatus2 bank).getLsbD i := Banks.getLsbD_assign _ hi onoff bank i
  by_cases hat : bank = (realBanks index).bank ∧ i = (realBanks index).index
  · exact ⟨index, hi, hat.1.symm, hat.2.symm⟩
  · rw [hbit, if_neg hat] at hne
    exact h bank hb i hi8 hne

theorem Aligned.monitorFakeInputTask (h : s.Aligned) (hs : WellFormed db s) {bank : ℕ}
    (hb : bank < 6) : (s.monitorFakeInputTask bank).Aligned := by
  cases hedge : s.pollEdge bank with
  | none => rwa [monitorFakeInputTask_of_none hedge]
  | some edge =>
      obtain ⟨hasked, hseen⟩ := shadow_monitorFakeInputTask hs hb hedge
      intro b hb6 i hi hne
      rw [hasked, hseen] at hne
      by_cases hbb : b = bank
      · subst hbb
        rw [Function.update_self, Function.update_self] at hne
        exact absurd rfl hne
      · rw [Function.update_of_ne hbb, Function.update_of_ne hbb] at hne
        exact h b hb6 i hi hne

/-! ## The calls of a poll -/

/-- The calls of `set_output` for an edge, in the order of the table. -/
def dispatchCalls (index : ℕ) (onoff : Bool) (s : IoState) : List (ℕ × Bool) :=
  (s.ip.filter fun row => row.input = index).map fun row => (row.port, onoff)

theorem dispatch_eq_foldl_calls (index : ℕ) (onoff : Bool) (s : IoState) :
    s.dispatch index onoff =
      (s.dispatchCalls index onoff).foldl (fun s call => s.setOutput call.1 call.2) s := by
  rw [dispatch, dispatchCalls, List.foldl_map, List.foldl_filter]
  simp only [decide_eq_true_eq]

/-- The calls of `set_output` that a poll of a bank makes. -/
def pollCalls (s : IoState) (bank : ℕ) : List (ℕ × Bool) :=
  match s.pollEdge bank with
  | none => []
  | some (index, onoff) => s.dispatchCalls index onoff

theorem mem_pollCalls_iff (hs : WellFormed db s) {bank : ℕ} (hb : bank < 6) {p : ℕ}
    (hp : p < 40) {onoff : Bool} :
    (p, onoff) ∈ s.pollCalls bank ↔ s.pollEdge bank = some (db.input p, onoff) := by
  rw [pollCalls]
  cases hedge : s.pollEdge bank with
  | none => simp
  | some edge =>
      obtain ⟨index, level⟩ := edge
      have hi : index < 40 := decodeChange_lt hb hedge
      have hmem : p ∈ db.driven index ↔ db.input p = index := by
        rw [db.mem_driven hi]
        exact and_iff_right hp
      rw [Database.driven, ← hs.ip] at hmem
      simp only [dispatchCalls, List.mem_map, Prod.mk.injEq, Option.some.injEq]
      simp only [List.mem_map] at hmem
      rw [eq_comm (a := index), ← hmem]
      constructor
      · rintro ⟨row, hrow, rfl, rfl⟩
        exact ⟨⟨row, hrow, rfl⟩, rfl⟩
      · rintro ⟨⟨row, hrow, rfl⟩, rfl⟩
        exact ⟨row, hrow, rfl, rfl⟩

end IoState

/-! ## Requests and polls -/

/-- What the command and timer tasks and the poller do, in any order. -/
inductive FakeEvent where
  | changeInput (index : ℕ) (onoff : Bool)
  | monitorFakeInputTask (bank : ℕ)
  deriving DecidableEq, Repr

/-- The state of the server, with the levels that were last requested and those that had
been requested when the bank of an input was last polled. -/
structure FakeInputs where
  io : IoState
  level : ℕ → Bool
  polled : ℕ → Bool

namespace FakeInputs

def step (f : FakeInputs) : FakeEvent → FakeInputs
  | .changeInput index onoff =>
      if index < 40 then
        { f with io := f.io.changeInput index onoff, level := Function.update f.level index onoff }
      else f
  | .monitorFakeInputTask bank =>
      if bank < 6 then
        { f with
          io := f.io.monitorFakeInputTask bank
          polled := fun k => if (realBanks k).bank = bank then f.level k else f.polled k }
      else f

/-- The server as it starts. -/
def boot (db : Database) (inports : Banks) (lightsOnDelay : ℕ) : FakeInputs where
  io := (Controller.boot db inports lightsOnDelay).io
  level := fun _ => false
  polled := fun _ => false

/-- The input is requested at another level than at the last poll of its bank. -/
def ChangedIn (f : FakeInputs) (bank k : ℕ) : Prop :=
  k < 40 ∧ (realBanks k).bank = bank ∧ f.level k ≠ f.polled k

/-- A poll brings what was requested: both arrays have the requested levels of the bank,
and the outputs of every changed input have been called with its new level. -/
def Answers (db : Database) (f : FakeInputs) : FakeEvent → Prop
  | .changeInput _ _ => True
  | .monitorFakeInputTask bank => bank < 6 → ∀ k < 40, (realBanks k).bank = bank →
      (f.step (.monitorFakeInputTask bank)).io.seen k = f.level k ∧
        (f.step (.monitorFakeInputTask bank)).io.asked k = f.level k ∧
          (f.level k ≠ f.polled k →
            ∀ p < 40, db.input p = k → (p, f.level k) ∈ f.io.pollCalls bank)

/-- A poll finds changes in one direction only, on no lower input that drives an output,
and on bit 7 alone if there. -/
def Decodable (db : Database) (f : FakeInputs) : FakeEvent → Prop
  | .changeInput _ _ => True
  | .monitorFakeInputTask bank => bank < 6 → ∀ k j, f.ChangedIn bank k → f.ChangedIn bank j →
      f.level k = f.level j ∧
        ((realBanks j).index < (realBanks k).index →
          (∀ p < 40, db.input p ≠ j) ∧ (realBanks k).index ≠ 7)

/-- The arrays hold the requests, and what the last polls have seen of them. -/
structure Holds (db : Database) (f : FakeInputs) : Prop where
  io : f.io.WellFormed db
  aligned : f.io.Aligned
  asked : ∀ k < 40, f.io.asked k = f.level k
  seen : ∀ k < 40, f.io.seen k = f.polled k

variable {db : Database} {f : FakeInputs}

theorem Holds.pendingIn_iff (h : Holds db f) {bank k : ℕ} :
    f.io.PendingIn bank k ↔ f.ChangedIn bank k := by
  refine and_congr_right fun hk => and_congr_right fun _ => ?_
  rw [IoState.Pending, h.asked k hk, h.seen k hk]

theorem holds_boot (db : Database) (inports : Banks) (lightsOnDelay : ℕ) :
    Holds db (boot db inports lightsOnDelay) where
  io := (Controller.wellFormed_boot db inports lightsOnDelay).io
  aligned := fun _ _ _ _ hne => absurd rfl hne
  asked := fun _ _ => BitVec.getLsbD_zero
  seen := fun _ _ => BitVec.getLsbD_zero

theorem Holds.changeInput (h : Holds db f) (index : ℕ) (onoff : Bool) :
    Holds db (f.step (.changeInput index onoff)) := by
  by_cases hi : index < 40
  · rw [step, if_pos hi]
    refine ⟨⟨h.io.found, h.io.setup, h.io.ip⟩, h.aligned.changeInput hi onoff, ?_, h.seen⟩
    intro k hk
    change (f.io.fakeInportstatus2.assign index onoff).bit k = Function.update f.level index onoff k
    rw [Banks.bit_assign _ hi hk, Function.update_apply]
    by_cases hki : k = index
    · rw [if_pos hki, if_pos hki]
    · rw [if_neg hki, if_neg hki]
      exact h.asked k hk
  · rw [step, if_neg hi]
    exact h

/-! ## One poll -/

theorem Holds.decodable (h : Holds db f) {bank : ℕ}
    (hans : Answers db f (.monitorFakeInputTask bank)) :
    Decodable db f (.monitorFakeInputTask bank) := by
  intro hb k j hk hj
  have hstep : (f.step (.monitorFakeInputTask bank)).io = f.io.monitorFakeInputTask bank := by
    rw [step, if_pos hb]
  have hseen (k : ℕ) (hk : f.ChangedIn bank k) :
      (f.io.monitorFakeInputTask bank).seen k = f.level k := by
    rw [← hstep]
    exact (hans hb k hk.1 hk.2.1).1
  cases hedge : f.io.pollEdge bank with
  | none =>
      have hsame := hseen k hk
      rw [IoState.monitorFakeInputTask_of_none hedge, h.seen k hk.1] at hsame
      exact absurd hsame.symm hk.2.2
  | some edge =>
      obtain ⟨r, onoff⟩ := edge
      have hmask : ¬ (f.io.fakeInportstatus2 bank ^^^ f.io.fakeInportstatus1 bank) > 0x80#8 := by
        intro hgt
        rw [(h.aligned.pollEdge_eq_none_iff hb).mpr (.inr hgt)] at hedge
        cases hedge
      obtain ⟨-, hhigh, -⟩ := (h.aligned.pollEdge_iff hb hmask).mp hedge
      have hlevel (k : ℕ) (hk : f.ChangedIn bank k) : f.level k = onoff := by
        rw [← hseen k hk, (IoState.pollBits h.io hb hedge hk.1 hk.2.1).2]
        exact if_pos (h.pendingIn_iff.mpr hk).2.2
      refine ⟨(hlevel k hk).trans (hlevel j hj).symm, fun hlt => ⟨?_, ?_⟩⟩
      · intro p hp hin
        have hcall := (hans hb j hj.1 hj.2.1).2.2 hj.2.2 p hp hin
        rw [IoState.mem_pollCalls_iff h.io hb hp, hedge] at hcall
        have hrj : r = j := (Prod.mk.inj (Option.some.inj hcall)).1.trans hin
        have hle := hhigh k (h.pendingIn_iff.mpr hk)
        rw [hrj] at hle
        exact Nat.not_le_of_lt hlt hle
      · intro h7
        apply hmask
        rw [h.aligned.mask_gt_iff hb]
        exact ⟨k, j, h.pendingIn_iff.mpr hk, h.pendingIn_iff.mpr hj, h7, h7 ▸ hlt⟩

theorem Holds.answers (h : Holds db f) {bank : ℕ}
    (hdec : Decodable db f (.monitorFakeInputTask bank)) :
    Answers db f (.monitorFakeInputTask bank) := by
  intro hb k hk hkb
  have hstep : (f.step (.monitorFakeInputTask bank)).io = f.io.monitorFakeInputTask bank := by
    rw [step, if_pos hb]
  have hmask : ¬ (f.io.fakeInportstatus2 bank ^^^ f.io.fakeInportstatus1 bank) > 0x80#8 := by
    intro hgt
    obtain ⟨k, j, hk, hj, hk7, hj7⟩ := (h.aligned.mask_gt_iff hb).mp hgt
    have hno := (hdec hb k j (h.pendingIn_iff.mp hk) (h.pendingIn_iff.mp hj)).2 (hk7.symm ▸ hj7)
    exact hno.2 hk7
  rw [hstep]
  cases hedge : f.io.pollEdge bank with
  | none =>
      have hsame : f.level k = f.polled k := by
        by_contra hne
        rcases (h.aligned.pollEdge_eq_none_iff hb).mp hedge with hno | hgt
        · exact hno k (h.pendingIn_iff.mpr ⟨hk, hkb, hne⟩)
        · exact hmask hgt
      rw [IoState.monitorFakeInputTask_of_none hedge, h.seen k hk, h.asked k hk]
      exact ⟨hsame.symm, rfl, fun hne => absurd hsame hne⟩
  | some edge =>
      obtain ⟨r, onoff⟩ := edge
      obtain ⟨hr, hhigh, hon⟩ := (h.aligned.pollEdge_iff hb hmask).mp hedge
      have hrin := h.pendingIn_iff.mp hr
      have honoff : f.level r = onoff := by
        rw [Bool.eq_iff_iff, hon]
        constructor
        · intro hrtrue j hj
          rw [h.asked j hj.1, ← (hdec hb r j hrin (h.pendingIn_iff.mp hj)).1, hrtrue]
        · intro hall
          rw [← h.asked r hr.1]
          exact hall r hr
      have hlevel (hin : f.ChangedIn bank k) : f.level k = onoff :=
        ((hdec hb k r hin hrin).1).trans honoff
      have hbits : (if f.io.Pending k then onoff else f.io.asked k) = f.level k := by
        by_cases hpend : f.io.Pending k
        · rw [if_pos hpend, hlevel (h.pendingIn_iff.mp ⟨hk, hkb, hpend⟩)]
        · rw [if_neg hpend, h.asked k hk]
      obtain ⟨hasked, hseen⟩ := IoState.pollBits h.io hb hedge hk hkb
      refine ⟨hseen.trans hbits, hasked.trans hbits, ?_⟩
      intro hne p hp hin
      have hkin : f.ChangedIn bank k := ⟨hk, hkb, hne⟩
      -- a lower input would drive no output
      have hindex : (realBanks k).index = (realBanks r).index := by
        refine Nat.le_antisymm (hhigh k (h.pendingIn_iff.mpr hkin)) ?_
        by_contra hlt
        exact ((hdec hb r k hrin hkin).2 (Nat.lt_of_not_le hlt)).1 p hp hin
      have hkr : k = r := realBanks_injective k hk r hr.1 (hkb.trans hr.2.1.symm) hindex
      rw [IoState.mem_pollCalls_iff h.io hb hp, hedge, hin, hlevel hkin, hkr]

theorem Holds.monitorFakeInputTask (h : Holds db f) {bank : ℕ}
    (hans : Answers db f (.monitorFakeInputTask bank)) :
    Holds db (f.step (.monitorFakeInputTask bank)) := by
  by_cases hb : bank < 6
  · have hstep : f.step (.monitorFakeInputTask bank) = { f with
        io := f.io.monitorFakeInputTask bank
        polled := fun k => if (realBanks k).bank = bank then f.level k else f.polled k } := by
      rw [step, if_pos hb]
    have hbank := hans hb
    rw [hstep] at hbank ⊢
    refine ⟨(IoState.acts_monitorFakeInputTask h.io hb).wellFormed h.io,
      h.aligned.monitorFakeInputTask h.io hb, ?_, ?_⟩
    · intro k hk
      by_cases hkb : (realBanks k).bank = bank
      · exact (hbank k hk hkb).2.1
      · exact (IoState.pollBits_other h.io hb hkb).1.trans (h.asked k hk)
    · intro k hk
      by_cases hkb : (realBanks k).bank = bank
      · exact (hbank k hk hkb).1.trans (if_pos hkb).symm
      · exact ((IoState.pollBits_other h.io hb hkb).2.trans (h.seen k hk)).trans (if_neg hkb).symm
  · rw [step, if_neg hb]
    exact h

/-! ## Runs -/

/-- Since the last request every bank has been polled. -/
def CaughtUp (es : List FakeEvent) : Prop :=
  ∃ fs pass, es = fs ++ pass ∧ (∀ e ∈ pass, ∃ bank, e = .monitorFakeInputTask bank) ∧
    ∀ bank < 6, .monitorFakeInputTask bank ∈ pass

/-- Polls request nothing, and note the levels of the banks they look at. -/
theorem polled_exec (pass : List FakeEvent)
    (hpass : ∀ e ∈ pass, ∃ bank, e = .monitorFakeInputTask bank) (f : FakeInputs) {k : ℕ}
    (hk : k < 40)
    (h : .monitorFakeInputTask (realBanks k).bank ∈ pass ∨ f.polled k = f.level k) :
    (Transition.exec step f pass).polled k = (Transition.exec step f pass).level k := by
  induction pass generalizing f with
  | nil => exact h.resolve_left List.not_mem_nil
  | cons e pass ih =>
      obtain ⟨bank, rfl⟩ := hpass e List.mem_cons_self
      apply ih fun e he => hpass e (List.mem_cons_of_mem _ he)
      have hb := realBanks_bank_lt k hk
      by_cases hkb : (realBanks k).bank = bank
      · right
        rw [step, if_pos (hkb ▸ hb)]
        exact if_pos hkb
      · rcases h with hmem | heq
        · left
          rcases List.mem_cons.mp hmem with hhead | htail
          · exact absurd (FakeEvent.monitorFakeInputTask.inj hhead) hkb
          · exact htail
        · right
          by_cases hb6 : bank < 6
          · rw [step, if_pos hb6]
            exact (if_neg hkb).trans heq
          · rw [step, if_neg hb6]
            exact heq

theorem answers_iff (h : Holds db f) (e : FakeEvent) : Answers db f e ↔ Decodable db f e := by
  cases e with
  | changeInput index onoff => exact Iff.rfl
  | monitorFakeInputTask bank => exact ⟨h.decodable, h.answers⟩

theorem Holds.step (h : Holds db f) {e : FakeEvent} (hans : Answers db f e) :
    Holds db (f.step e) := by
  cases e with
  | changeInput index onoff => exact h.changeInput index onoff
  | monitorFakeInputTask bank => exact h.monitorFakeInputTask hans

/-- In any order of requests and polls, every poll answers what was requested exactly when
every poll finds changes that can be taken for one; and then, whenever the poller has caught
up, both arrays hold the levels last requested of all inputs. -/
theorem requests_answered_iff (db : Database) (inports : Banks) (lightsOnDelay : ℕ)
    (es : List FakeEvent) :
    let f := boot db inports lightsOnDelay
    (Transition.Meets step (Answers db) f es ↔ Transition.Meets step (Decodable db) f es) ∧
      (Transition.Meets step (Decodable db) f es → CaughtUp es → ∀ k < 40,
        (Transition.exec step f es).io.seen k = (Transition.exec step f es).level k ∧
          (Transition.exec step f es).io.asked k = (Transition.exec step f es).level k) := by
  intro f
  have hboot := holds_boot db inports lightsOnDelay
  have hrange : Transition.Meets step (fun _ _ => True) f es :=
    Transition.meets_of_forall (fun _ _ => trivial) f es
  have hiff : Transition.Meets step (Answers db) f es ↔
      Transition.Meets step (Decodable db) f es :=
    Transition.meets_congr_of_meets (fun _ _ h _ hans => h.step hans)
      (fun _ e h _ => answers_iff h e) hboot hrange
  refine ⟨hiff, ?_⟩
  intro hes hcaught k hk
  have hend : Holds db (Transition.exec step f es) :=
    Transition.inv_exec_of_meets (fun _ _ h hans => h.step hans) hboot (hiff.mpr hes)
  obtain ⟨fs, pass, rfl, hpass, hall⟩ := hcaught
  have hpolled := polled_exec pass hpass (Transition.exec step f fs) hk
    (.inl (hall _ (realBanks_bank_lt k hk)))
  rw [← Transition.exec_append] at hpolled
  exact ⟨(hend.seen k hk).trans hpolled, hend.asked k hk⟩

/-- The fan is on, and between two polls it is requested off and the headlamps on. The poll
takes both for off, and the headlamps' request is gone. -/
theorem request_lost_odata :
    let pass := (List.range 6).map .monitorFakeInputTask
    let es := .changeInput coolingfanInput true ::
      (pass ++ .changeInput coolingfanInput false :: .changeInput headlampInput true :: pass)
    let f := Transition.exec step (boot odata (fun _ => 0#8) 0) es
    CaughtUp es ∧ f.level headlampInput = true ∧ f.io.seen headlampInput = false ∧
      f.io.asked headlampInput = false ∧ f.io.hwBit lheadlamp = false := by
  intro pass es f
  have hcaught : CaughtUp es := by
    refine ⟨.changeInput coolingfanInput true :: (pass ++ [.changeInput coolingfanInput false,
      .changeInput headlampInput true]), pass, ?_, ?_, ?_⟩
    · decide
    · intro e he
      obtain ⟨bank, -, rfl⟩ := List.mem_map.mp he
      exact ⟨bank, rfl⟩
    · decide
  have hlost : f.level headlampInput = true ∧ f.io.seen headlampInput = false ∧
      f.io.asked headlampInput = false ∧ f.io.hwBit lheadlamp = false := by
    simp only [f, es, pass, boot, Controller.boot, initIps_odata]
    decide +kernel
  exact ⟨hcaught, hlost⟩

end FakeInputs

end TruckControl
