import Mathlib.Data.List.Perm.Basic
import TruckControl.Library.FlatCounts
import TruckControl.Library.Reports
import TruckControl.Verification.FakeRequests
import TruckControl.Verification.Side

/-!
# The physical inputs

`monitor_input_task` takes all that has changed in a bank between two samples for one
change, of the highest input and in one direction.
-/

namespace TruckControl

open InputType OutputType

namespace IoState

/-! ## What the outputs leave alone -/

/-- The state with other levels noted for the physical inputs. -/
def withInports (st : Banks) (s : IoState) : IoState := { s with inportstatus := st }

theorem changeOutput_withInports (st : Banks) (index : ℕ) (onoff : Bool) (s : IoState) :
    (s.withInports st).changeOutput index onoff =
      (s.changeOutput index onoff).withInports st := by
  rw [changeOutput, changeOutput]
  split <;> rfl

/-- No output looks at the levels of the physical inputs. -/
theorem setOutput_withInports (st : Banks) (otp : ℕ) (onoff : Bool) (s : IoState) :
    (s.withInports st).setOutput otp onoff = (s.setOutput otp onoff).withInports st := by
  have hdatap : (s.withInports st).datap otp = s.datap otp := rfl
  have hwrite (d : OData) : (s.withInports st).write otp d = (s.write otp d).withInports st := rfl
  have hinsert (t : IoState) (index : ℕ) :
      (t.withInports st).insertData index otp = (t.insertData index otp).withInports st := rfl
  have hadd (t : IoState) (cmd : UCHAR) :
      (t.withInports st).addMsgQueue cmd = (t.addMsgQueue cmd).withInports st := rfl
  simp only [setOutput, hdatap, hwrite, changeOutput_withInports, hinsert, hadd]
  split_ifs <;> rfl

/-- The calls of `set_output` one after the other. -/
def setOutputs (calls : List (ℕ × Bool)) (s : IoState) : IoState :=
  calls.foldl (fun s call => s.setOutput call.1 call.2) s

theorem setOutputs_withInports (st : Banks) (calls : List (ℕ × Bool)) (s : IoState) :
    (s.withInports st).setOutputs calls = (s.setOutputs calls).withInports st := by
  induction calls generalizing s with
  | nil => rfl
  | cons call calls ih =>
      rw [setOutputs, List.foldl_cons, setOutput_withInports]
      exact ih (s.setOutput call.1 call.2)

theorem inportstatus_setOutputs (calls : List (ℕ × Bool)) (s : IoState) :
    (s.setOutputs calls).inportstatus = s.inportstatus := by
  have hframe := congrArg IoState.inportstatus (setOutputs_withInports s.inportstatus calls s)
  exact hframe

theorem ip_setOutputs (calls : List (ℕ × Bool)) (s : IoState) :
    (s.setOutputs calls).ip = s.ip := by
  have hside : (s.setOutputs calls).side = s.side := by
    rw [setOutputs]
    apply foldl_keeps side
    intro s call
    exact side_setOutput s call.1 call.2
  have hip := congrArg IoState.ip hside
  exact hip

/-! ## A bank of a pass -/

/-- The calls of `set_output` as `monitor_input_task` looks at a bank. -/
def inputCalls (s : IoState) (bank : ℕ) (result : UCHAR) : List (ℕ × Bool) :=
  match decodeChange bank result (s.inportstatus bank) with
  | none => []
  | some (index, onoff) => s.dispatchCalls index onoff

/-- What it notes for the bank: a change that is too large stays pending. -/
def noted (s : IoState) (bank : ℕ) (result : UCHAR) : UCHAR :=
  if result ^^^ s.inportstatus bank > 0x80#8 then s.inportstatus bank else result

theorem monitorInputTask_eq (s : IoState) (bank : ℕ) (result : UCHAR) :
    s.monitorInputTask bank result = (s.setOutputs (s.inputCalls bank result)).withInports
      (Function.update s.inportstatus bank (s.noted bank result)) := by
  rw [monitorInputTask, inputCalls, noted]
  cases hdecode : decodeChange bank result (s.inportstatus bank) with
  | none =>
      have hkeep : (if result ^^^ s.inportstatus bank > 0x80#8 then s.inportstatus bank
          else result) = s.inportstatus bank := by
        rw [decodeChange] at hdecode
        split_ifs at hdecode with heq hgt
        · rw [heq, ite_self]
        · rw [if_pos hgt]
      rw [hkeep, Function.update_eq_self]
      rfl
  | some edge =>
      have hmask : ¬ result ^^^ s.inportstatus bank > 0x80#8 := by
        intro hgt
        rw [decodeChange] at hdecode
        split_ifs at hdecode
      simp only
      rw [if_neg hmask, dispatch_eq_foldl_calls, ← setOutputs, inportstatus_setOutputs]
      rfl

theorem ip_monitorInputTask (s : IoState) (bank : ℕ) (result : UCHAR) :
    (s.monitorInputTask bank result).ip = s.ip := by
  rw [monitorInputTask_eq]
  exact ip_setOutputs _ s

theorem inportstatus_monitorInputTask (s : IoState) (bank : ℕ) (result : UCHAR) :
    (s.monitorInputTask bank result).inportstatus =
      Function.update s.inportstatus bank (s.noted bank result) := by
  rw [monitorInputTask_eq]
  rfl

/-! ## A pass -/

/-- The bytes of a sample in the order in which they are read. -/
def reads (sample : Banks) : List (ℕ × UCHAR) := (List.range 6).map fun bank => (bank, sample bank)

def readBank (s : IoState) (read : ℕ × UCHAR) : IoState := s.monitorInputTask read.1 read.2

def readCalls (s : IoState) (read : ℕ × UCHAR) : List (ℕ × Bool) := s.inputCalls read.1 read.2

/-- A pass of `monitor_input_task`. -/
def inputPass (sample : Banks) (s : IoState) : IoState :=
  Transition.exec readBank s (reads sample)

/-- The calls of `set_output` in a pass. -/
def passCalls (sample : Banks) (s : IoState) : List (ℕ × Bool) :=
  Transition.reports readBank readCalls s (reads sample)

/-- A bank neither changes what is noted of the others nor the assignments. -/
theorem read_banks (sample : Banks) {banks : List ℕ} (hnodup : banks.Nodup) {s t : IoState}
    (hip : t.ip = s.ip) (hst : ∀ bank ∈ banks, t.inportstatus bank = s.inportstatus bank) :
    Transition.reports readBank readCalls t (banks.map fun bank => (bank, sample bank)) =
        banks.flatMap (fun bank => s.inputCalls bank (sample bank)) ∧
      ∀ bank, (Transition.exec readBank t
        (banks.map fun bank => (bank, sample bank))).inportstatus bank =
          if bank ∈ banks then s.noted bank (sample bank) else t.inportstatus bank := by
  induction banks generalizing t with
  | nil => exact ⟨rfl, fun bank => (if_neg List.not_mem_nil).symm⟩
  | cons b banks ih =>
      obtain ⟨hb, hbanks⟩ := List.nodup_cons.mp hnodup
      have hbst := hst b List.mem_cons_self
      have hcalls : t.inputCalls b (sample b) = s.inputCalls b (sample b) := by
        simp only [inputCalls, dispatchCalls, hbst, hip]
      have hnoted : t.noted b (sample b) = s.noted b (sample b) := by
        rw [noted, noted, hbst]
      have hnext (bank : ℕ) (hbank : bank ∈ banks) :
          (t.monitorInputTask b (sample b)).inportstatus bank = s.inportstatus bank := by
        have hne : bank ≠ b := fun heq => hb (heq ▸ hbank)
        rw [inportstatus_monitorInputTask, Function.update_of_ne hne]
        exact hst bank (List.mem_cons_of_mem b hbank)
      obtain ⟨hrest, hfinal⟩ := ih hbanks ((ip_monitorInputTask t b (sample b)).trans hip) hnext
      constructor
      · rw [List.map_cons, Transition.reports, List.flatMap_cons]
        exact congrArg₂ (· ++ ·) hcalls hrest
      · intro bank
        rw [List.map_cons, Transition.exec_cons]
        refine (hfinal bank).trans ?_
        by_cases hbb : bank = b
        · subst hbb
          rw [if_neg hb, if_pos List.mem_cons_self, inportstatus_monitorInputTask,
            Function.update_self, hnoted]
        · have hiff : bank ∈ b :: banks ↔ bank ∈ banks := by simp [hbb]
          simp only [hiff]
          rw [inportstatus_monitorInputTask, Function.update_of_ne hbb]

theorem passCalls_eq (sample : Banks) (s : IoState) :
    s.passCalls sample = (List.range 6).flatMap fun bank => s.inputCalls bank (sample bank) :=
  (read_banks sample List.nodup_range rfl fun _ _ => rfl).1

theorem inportstatus_inputPass (sample : Banks) (s : IoState) {bank : ℕ} (hb : bank < 6) :
    (s.inputPass sample).inportstatus bank = s.noted bank (sample bank) := by
  have hfinal := (read_banks sample (List.nodup_range (n := 6)) (s := s) (t := s) rfl
    fun _ _ => rfl).2 bank
  rw [if_pos (List.mem_range.mpr hb)] at hfinal
  exact hfinal

/-! ## What a sample asks for -/

/-- The sample differs from the noted levels in the bits of inputs only. -/
def DiffersOnWired (s : IoState) (sample : Banks) : Prop :=
  ∀ bank < 6, ∀ i < 8, (sample bank).getLsbD i ≠ (s.inportstatus bank).getLsbD i →
    ∃ k < 40, (realBanks k).bank = bank ∧ (realBanks k).index = i

/-- The inputs that a sample finds changed. -/
def changedInputs (s : IoState) (sample : Banks) : List ℕ :=
  (List.range 40).filter fun k => sample.bit k ≠ s.inportstatus.bit k

/-- A call for each changed input and each output assigned to it, with the input's level. -/
def wantedCalls (s : IoState) (sample : Banks) : List (ℕ × Bool) :=
  (s.changedInputs sample).flatMap fun k => s.dispatchCalls k (sample.bit k)

/-- The pass makes these calls, each as often as it is wanted and no others, and notes the
sample. -/
structure AnswersSample (s : IoState) (sample : Banks) : Prop where
  calls : (s.passCalls sample).Perm (s.wantedCalls sample)
  noted : ∀ bank < 6, (s.inputPass sample).inportstatus bank = sample bank

/-- The changed inputs of a bank. -/
def changedIn (s : IoState) (sample : Banks) (bank : ℕ) : List ℕ :=
  ((List.range 40).filter fun k => (realBanks k).bank = bank).filter
    fun k => sample.bit k ≠ s.inportstatus.bit k

/-- The calls that are wanted for a bank. -/
def wantedIn (s : IoState) (sample : Banks) (bank : ℕ) : List (ℕ × Bool) :=
  (s.changedIn sample bank).flatMap fun k => s.dispatchCalls k (sample.bit k)

/-- Some output is assigned to the input. -/
def Assigned (s : IoState) (k : ℕ) : Prop := ∃ row ∈ s.ip, row.input = k

instance (s : IoState) (k : ℕ) : Decidable (s.Assigned k) :=
  inferInstanceAs (Decidable (∃ row ∈ s.ip, row.input = k))

/-- What can be taken for one change: below a changed input only inputs change that no output
is assigned to; they go on with it if it goes on and an output is assigned to it; and it is
not on bit 7. -/
def DecodableIn (s : IoState) (sample : Banks) (bank : ℕ) : Prop :=
  ∀ k ∈ s.changedIn sample bank, ∀ j ∈ s.changedIn sample bank,
    (realBanks j).index < (realBanks k).index →
      ¬ s.Assigned j ∧ (s.Assigned k → sample.bit k = true → sample.bit j = true) ∧
        (realBanks k).index ≠ 7

def Decodable (s : IoState) (sample : Banks) : Prop := ∀ bank < 6, s.DecodableIn sample bank

instance (s : IoState) (sample : Banks) (bank : ℕ) : Decidable (s.DecodableIn sample bank) :=
  inferInstanceAs (Decidable (∀ k ∈ s.changedIn sample bank, ∀ j ∈ s.changedIn sample bank,
    (realBanks j).index < (realBanks k).index →
      ¬ s.Assigned j ∧ (s.Assigned k → sample.bit k = true → sample.bit j = true) ∧
        (realBanks k).index ≠ 7))

instance (s : IoState) (sample : Banks) : Decidable (s.Decodable sample) :=
  inferInstanceAs (Decidable (∀ bank < 6, s.DecodableIn sample bank))

variable {s : IoState} {sample : Banks} {bank : ℕ}

theorem wantedCalls_eq (s : IoState) (sample : Banks) :
    s.wantedCalls sample = (List.range 6).flatMap (s.wantedIn sample) := by
  have hbanks : List.range 40 = (List.range 6).flatMap fun bank =>
      (List.range 40).filter fun k => (realBanks k).bank = bank := by decide
  rw [wantedCalls, changedInputs, hbanks, List.filter_flatMap, List.flatMap_assoc]
  rfl

theorem mem_changedIn {k : ℕ} : k ∈ s.changedIn sample bank ↔
    k < 40 ∧ (realBanks k).bank = bank ∧ sample.bit k ≠ s.inportstatus.bit k := by
  rw [changedIn, List.mem_filter, List.mem_filter, List.mem_range, decide_eq_true_iff,
    decide_eq_true_iff, and_assoc]

theorem nodup_changedIn (s : IoState) (sample : Banks) (bank : ℕ) :
    (s.changedIn sample bank).Nodup :=
  (List.nodup_range.filter _).filter _

/-! ### Calls for an input -/

theorem length_dispatchCalls (k : ℕ) (v w : Bool) (s : IoState) :
    (s.dispatchCalls k v).length = (s.dispatchCalls k w).length := by
  simp [dispatchCalls]

/-- All the calls for an input have one level. -/
theorem countP_dispatchCalls (k : ℕ) (v : Bool) (s : IoState) :
    (s.dispatchCalls k v).countP Prod.snd = if v then (s.dispatchCalls k v).length else 0 := by
  cases v with
  | false => simp [dispatchCalls, List.countP_map, Function.comp_def]
  | true => simp [dispatchCalls, List.countP_map, Function.comp_def]

theorem dispatchCalls_eq_nil_iff (k : ℕ) (v : Bool) (s : IoState) :
    s.dispatchCalls k v = [] ↔ ¬ s.Assigned k := by
  simp [dispatchCalls, Assigned]

/-! ## One bank -/

/-- The sample as if it had been requested: both tasks decode a change alike. -/
def asRequested (s : IoState) (sample : Banks) : IoState :=
  { s with fakeInportstatus1 := s.inportstatus, fakeInportstatus2 := sample }

theorem DiffersOnWired.aligned (h : s.DiffersOnWired sample) : (s.asRequested sample).Aligned := h

theorem pendingIn_asRequested {k : ℕ} :
    (s.asRequested sample).PendingIn bank k ↔ k ∈ s.changedIn sample bank :=
  mem_changedIn.symm

/-- A bank taken for a change of one input, while the others changed too. -/
structure DecodedAs (s : IoState) (sample : Banks) (bank k : ℕ) (onoff : Bool)
    (others : List ℕ) : Prop where
  changed : (s.changedIn sample bank).Perm (k :: others)
  below : ∀ j ∈ others, (realBanks j).index < (realBanks k).index
  level : onoff = true ↔ ∀ j ∈ k :: others, sample.bit j = true
  calls : s.inputCalls bank (sample bank) = s.dispatchCalls k onoff

/-- What a pass finds in a bank: nothing, too much, or a change. -/
theorem DiffersOnWired.bank_cases (h : s.DiffersOnWired sample) (hb : bank < 6) :
    s.inputCalls bank (sample bank) = [] ∧ s.changedIn sample bank = [] ∨
    s.inputCalls bank (sample bank) = [] ∧ sample bank ^^^ s.inportstatus bank > 0x80#8 ∨
    ∃ k onoff others, s.DecodedAs sample bank k onoff others := by
  have halign := h.aligned
  cases hedge : (s.asRequested sample).pollEdge bank with
  | none =>
      have hcalls : s.inputCalls bank (sample bank) = [] := by
        have hdecode : decodeChange bank (sample bank) (s.inportstatus bank) = none := hedge
        rw [inputCalls, hdecode]
      rcases (halign.pollEdge_eq_none_iff hb).mp hedge with hno | hgt
      · left
        refine ⟨hcalls, List.eq_nil_iff_forall_not_mem.mpr ?_⟩
        intro k hk
        exact hno k (pendingIn_asRequested.mpr hk)
      · exact .inr (.inl ⟨hcalls, hgt⟩)
  | some edge =>
      obtain ⟨k, onoff⟩ := edge
      have hmask : ¬ sample bank ^^^ s.inportstatus bank > 0x80#8 := by
        intro hgt
        rw [(halign.pollEdge_eq_none_iff hb).mpr (.inr hgt)] at hedge
        cases hedge
      obtain ⟨hk, hhigh, hon⟩ := (halign.pollEdge_iff hb hmask).mp hedge
      have hkmem := pendingIn_asRequested.mp hk
      have hperm := List.perm_cons_erase hkmem
      refine .inr (.inr ⟨k, onoff, (s.changedIn sample bank).erase k, hperm, ?_, ?_, ?_⟩)
      · intro j hj
        obtain ⟨hjk, hjmem⟩ := (nodup_changedIn s sample bank).mem_erase_iff.mp hj
        have hjin := pendingIn_asRequested.mpr hjmem
        refine Nat.lt_of_le_of_ne (hhigh j hjin) fun hindex => hjk ?_
        exact realBanks_injective j hjin.1 k hk.1 (hjin.2.1.trans hk.2.1.symm) hindex
      · rw [hon]
        constructor
        · intro hall j hj
          exact hall j (pendingIn_asRequested.mpr (hperm.mem_iff.mpr hj))
        · intro hall j hj
          exact hall j (hperm.mem_iff.mp (pendingIn_asRequested.mp hj))
      · have hdecode : decodeChange bank (sample bank) (s.inportstatus bank) =
            some (k, onoff) := hedge
        rw [inputCalls, hdecode]

/-- The change of a bank is too large when the input on bit 7 is not alone. -/
theorem DiffersOnWired.mask_gt_iff (h : s.DiffersOnWired sample) (hb : bank < 6) :
    sample bank ^^^ s.inportstatus bank > 0x80#8 ↔
      ∃ k ∈ s.changedIn sample bank, ∃ j ∈ s.changedIn sample bank,
        (realBanks j).index < (realBanks k).index ∧ (realBanks k).index = 7 := by
  refine (h.aligned.mask_gt_iff hb).trans ?_
  constructor
  · rintro ⟨k, j, hk, hj, hk7, hj7⟩
    exact ⟨k, pendingIn_asRequested.mp hk, j, pendingIn_asRequested.mp hj, hk7 ▸ hj7, hk7⟩
  · rintro ⟨k, hk, j, hj, hlt, hk7⟩
    exact ⟨k, j, pendingIn_asRequested.mpr hk, pendingIn_asRequested.mpr hj, hk7, hk7 ▸ hlt⟩

section

variable {k : ℕ} {onoff : Bool} {others : List ℕ}

/-- The calls that are wanted for the others. -/
def othersCalls (s : IoState) (sample : Banks) (others : List ℕ) : List (ℕ × Bool) :=
  others.flatMap fun j => s.dispatchCalls j (sample.bit j)

theorem DecodedAs.wanted (h : s.DecodedAs sample bank k onoff others) :
    (s.wantedIn sample bank).Perm
      (s.dispatchCalls k (sample.bit k) ++ s.othersCalls sample others) :=
  h.changed.flatMap_right _

theorem othersCalls_eq_nil_iff (s : IoState) (sample : Banks) (others : List ℕ) :
    s.othersCalls sample others = [] ↔ ∀ j ∈ others, ¬ s.Assigned j := by
  simp only [othersCalls, List.flatMap_eq_nil_iff, dispatchCalls_eq_nil_iff]

/-- The calls are as many as are wanted without the others. -/
theorem DecodedAs.length_calls (h : s.DecodedAs sample bank k onoff others) :
    (s.inputCalls bank (sample bank)).length + (s.othersCalls sample others).length =
      (s.wantedIn sample bank).length := by
  rw [h.calls, h.wanted.length_eq, List.length_append, length_dispatchCalls k onoff (sample.bit k)]

/-- The input goes on where it is called on. -/
theorem DecodedAs.bit_of_onoff (h : s.DecodedAs sample bank k onoff others)
    (hon : onoff = true) : sample.bit k = true :=
  h.level.mp hon k List.mem_cons_self

theorem DecodedAs.countP_calls_le (h : s.DecodedAs sample bank k onoff others) :
    (s.inputCalls bank (sample bank)).countP Prod.snd ≤
      (s.wantedIn sample bank).countP Prod.snd := by
  rw [h.calls, h.wanted.countP_eq, List.countP_append, countP_dispatchCalls]
  cases honoff : onoff with
  | false => exact Nat.zero_le _
  | true =>
      rw [h.bit_of_onoff honoff, countP_dispatchCalls]
      exact Nat.le_add_right _ _

/-- As many calls as wanted, and as many to ON: nothing was wanted for the others, and the
input was called at its level. -/
theorem DecodedAs.of_counts (h : s.DecodedAs sample bank k onoff others)
    (hlen : (s.inputCalls bank (sample bank)).length = (s.wantedIn sample bank).length)
    (hon : (s.inputCalls bank (sample bank)).countP Prod.snd =
      (s.wantedIn sample bank).countP Prod.snd) :
    (∀ j ∈ others, ¬ s.Assigned j) ∧ (s.Assigned k → sample.bit k = true → onoff = true) := by
  have hnone : s.othersCalls sample others = [] := by
    have hsum := h.length_calls
    exact List.eq_nil_of_length_eq_zero (by omega)
  refine ⟨(othersCalls_eq_nil_iff s sample others).mp hnone, ?_⟩
  intro hassigned hbit
  by_contra hoff
  rw [h.calls, h.wanted.countP_eq, hnone, List.append_nil, hbit, countP_dispatchCalls,
    countP_dispatchCalls, if_neg hoff, if_pos rfl] at hon
  exact (dispatchCalls_eq_nil_iff k true s).mp (List.eq_nil_of_length_eq_zero hon.symm) hassigned

theorem DecodedAs.perm (h : s.DecodedAs sample bank k onoff others)
    (hothers : ∀ j ∈ others, ¬ s.Assigned j)
    (hlevel : s.Assigned k → sample.bit k = true → onoff = true) :
    (s.inputCalls bank (sample bank)).Perm (s.wantedIn sample bank) := by
  have hcalls : s.dispatchCalls k onoff = s.dispatchCalls k (sample.bit k) := by
    by_cases hassigned : s.Assigned k
    · have hsame : onoff = sample.bit k := by
        rw [Bool.eq_iff_iff]
        exact ⟨h.bit_of_onoff, hlevel hassigned⟩
      rw [hsame]
    · rw [(dispatchCalls_eq_nil_iff k _ s).mpr hassigned,
        (dispatchCalls_eq_nil_iff k _ s).mpr hassigned]
  have hwanted := h.wanted
  rw [(othersCalls_eq_nil_iff s sample others).mpr hothers, List.append_nil] at hwanted
  rw [h.calls, hcalls]
  exact hwanted.symm

/-- What the condition says of a bank that is taken for one change. -/
theorem DecodedAs.decodableIn_iff (h : s.DecodedAs sample bank k onoff others) :
    s.DecodableIn sample bank ↔
      (∀ j ∈ others, ¬ s.Assigned j) ∧ (s.Assigned k → sample.bit k = true → onoff = true) ∧
        (others ≠ [] → (realBanks k).index ≠ 7) := by
  have hk : k ∈ s.changedIn sample bank := h.changed.mem_iff.mpr List.mem_cons_self
  have hmem {j : ℕ} (hj : j ∈ others) : j ∈ s.changedIn sample bank :=
    h.changed.mem_iff.mpr (List.mem_cons_of_mem k hj)
  constructor
  · intro hdec
    refine ⟨fun j hj => (hdec k hk j (hmem hj) (h.below j hj)).1, ?_, ?_⟩
    · intro hassigned hbit
      rw [h.level]
      intro j hj
      rcases List.mem_cons.mp hj with rfl | hj
      · exact hbit
      · exact (hdec k hk j (hmem hj) (h.below j hj)).2.1 hassigned hbit
    · intro hne
      obtain ⟨j, hj⟩ := List.exists_mem_of_ne_nil others hne
      exact (hdec k hk j (hmem hj) (h.below j hj)).2.2
  · rintro ⟨hothers, hlevel, hseven⟩ i hi j hj hlt
    have hjother : j ∈ others := by
      rcases List.mem_cons.mp (h.changed.mem_iff.mp hj) with rfl | hj
      · rcases List.mem_cons.mp (h.changed.mem_iff.mp hi) with rfl | hi
        · exact absurd hlt (Nat.lt_irrefl _)
        · exact absurd hlt (Nat.lt_asymm (h.below i hi))
      · exact hj
    refine ⟨hothers j hjother, ?_, ?_⟩
    · intro hassigned hbit
      rcases List.mem_cons.mp (h.changed.mem_iff.mp hi) with rfl | hi
      · exact h.level.mp (hlevel hassigned hbit) j (List.mem_cons_of_mem _ hjother)
      · exact absurd hassigned (hothers i hi)
    · rcases List.mem_cons.mp (h.changed.mem_iff.mp hi) with rfl | hi
      · exact hseven (List.ne_nil_of_mem hjother)
      · have := h.below i hi
        have := realBanks_index_lt k (mem_changedIn.mp hk).1
        omega

end

/-! ## All banks -/

theorem DiffersOnWired.countP_le (h : s.DiffersOnWired sample) (hb : bank < 6) :
    (s.inputCalls bank (sample bank)).countP (fun _ => true) ≤
        (s.wantedIn sample bank).countP (fun _ => true) ∧
      (s.inputCalls bank (sample bank)).countP Prod.snd ≤
        (s.wantedIn sample bank).countP Prod.snd := by
  rcases h.bank_cases hb with ⟨hcalls, -⟩ | ⟨hcalls, -⟩ | ⟨k, onoff, others, hdecoded⟩
  · rw [hcalls]
    exact ⟨Nat.zero_le _, Nat.zero_le _⟩
  · rw [hcalls]
    exact ⟨Nat.zero_le _, Nat.zero_le _⟩
  · rw [List.countP_true]
    exact ⟨hdecoded.length_calls ▸ Nat.le_add_right _ _, hdecoded.countP_calls_le⟩

/-- The sample is noted where the change was not too large. -/
theorem noted_eq_iff (s : IoState) (bank : ℕ) (result : UCHAR) :
    s.noted bank result = result ↔ ¬ result ^^^ s.inportstatus bank > 0x80#8 := by
  rw [noted]
  split_ifs with hgt
  · refine iff_of_false ?_ (not_not.mpr hgt)
    intro heq
    rw [heq, BitVec.xor_self] at hgt
    exact absurd hgt (by decide)
  · exact iff_of_true rfl hgt

theorem AnswersSample.decodable (hwired : s.DiffersOnWired sample)
    (h : s.AnswersSample sample) : s.Decodable sample := by
  have hperm := h.calls
  rw [passCalls_eq, wantedCalls_eq] at hperm
  have hall : ∀ bank ∈ List.range 6, (s.inputCalls bank (sample bank)).countP (fun _ => true) =
      (s.wantedIn sample bank).countP (fun _ => true) :=
    FlatCounts.countP_eq_of_flatMap
      (fun bank hb => (hwired.countP_le (List.mem_range.mp hb)).1) (hperm.countP_eq _)
  have hon : ∀ bank ∈ List.range 6, (s.inputCalls bank (sample bank)).countP Prod.snd =
      (s.wantedIn sample bank).countP Prod.snd :=
    FlatCounts.countP_eq_of_flatMap
      (fun bank hb => (hwired.countP_le (List.mem_range.mp hb)).2) (hperm.countP_eq _)
  intro bank hb
  have hmask : ¬ sample bank ^^^ s.inportstatus bank > 0x80#8 := by
    rw [← noted_eq_iff, ← inportstatus_inputPass sample s hb]
    exact h.noted bank hb
  rcases hwired.bank_cases hb with ⟨-, hnone⟩ | ⟨-, hgt⟩ | ⟨k, onoff, others, hdecoded⟩
  · intro k hk
    rw [hnone] at hk
    cases hk
  · exact absurd hgt hmask
  · have hlen := hall bank (List.mem_range.mpr hb)
    rw [List.countP_true] at hlen
    obtain ⟨hothers, hlevel⟩ := hdecoded.of_counts hlen (hon bank (List.mem_range.mpr hb))
    refine hdecoded.decodableIn_iff.mpr ⟨hothers, hlevel, ?_⟩
    intro hne hseven
    obtain ⟨j, hj⟩ := List.exists_mem_of_ne_nil others hne
    apply hmask
    rw [hwired.mask_gt_iff hb]
    exact ⟨k, hdecoded.changed.mem_iff.mpr List.mem_cons_self, j,
      hdecoded.changed.mem_iff.mpr (List.mem_cons_of_mem k hj), hdecoded.below j hj, hseven⟩

theorem Decodable.answersSample (hwired : s.DiffersOnWired sample)
    (h : s.Decodable sample) : s.AnswersSample sample := by
  have hmask (bank : ℕ) (hb : bank < 6) :
      ¬ sample bank ^^^ s.inportstatus bank > 0x80#8 := by
    intro hgt
    obtain ⟨k, hk, j, hj, hlt, hseven⟩ := (hwired.mask_gt_iff hb).mp hgt
    exact (h bank hb k hk j hj hlt).2.2 hseven
  constructor
  · rw [passCalls_eq, wantedCalls_eq]
    apply List.Perm.flatMap_left
    intro bank hb
    have hb6 := List.mem_range.mp hb
    rcases hwired.bank_cases hb6 with ⟨hcalls, hnone⟩ | ⟨-, hgt⟩ | ⟨k, onoff, others, hdecoded⟩
    · rw [hcalls, wantedIn, hnone]
      exact List.Perm.refl []
    · exact absurd hgt (hmask bank hb6)
    · obtain ⟨hothers, hlevel, -⟩ := hdecoded.decodableIn_iff.mp (h bank hb6)
      exact hdecoded.perm hothers hlevel
  · intro bank hb
    rw [inportstatus_inputPass sample s hb, noted_eq_iff]
    exact hmask bank hb

/-- A pass answers a sample exactly when what has changed in each bank can be taken for one
change. -/
theorem answersSample_iff (s : IoState) (sample : Banks) (hwired : s.DiffersOnWired sample) :
    s.AnswersSample sample ↔ s.Decodable sample :=
  ⟨AnswersSample.decodable hwired, Decodable.answersSample hwired⟩

instance (s : IoState) (sample : Banks) : Decidable (s.DiffersOnWired sample) :=
  inferInstanceAs (Decidable (∀ bank < 6, ∀ i < 8, _ → ∃ k < 40, _ ∧ _))

/-- The switch of the headlamps on its own. -/
theorem answersSample_odata :
    let s := (Controller.boot odata (fun _ => 0#8) 0).io
    let sample : Banks := Banks.assign (fun _ => 0#8) headlampInput true
    s.DiffersOnWired sample ∧ s.AnswersSample sample := by
  intro s sample
  have hwired : s.DiffersOnWired sample := by
    decide +kernel
  have hdecodable : s.Decodable sample := by
    simp only [s, sample, Controller.boot, initIps_odata]
    decide +kernel
  exact ⟨hwired, (answersSample_iff s sample hwired).mpr hdecodable⟩

/-- The switches of the headlamps and of the fan go on in one sample, and only the outputs of
the fan are called. -/
theorem not_answersSample_odata :
    let s := (Controller.boot odata (fun _ => 0#8) 0).io
    let sample : Banks :=
      Banks.assign (Banks.assign (fun _ => 0#8) headlampInput true) coolingfanInput true
    s.DiffersOnWired sample ∧ ¬ s.AnswersSample sample ∧
      (lheadlamp, true) ∈ s.wantedCalls sample ∧ (lheadlamp, true) ∉ s.passCalls sample := by
  intro s sample
  have hwired : s.DiffersOnWired sample := by
    decide +kernel
  have hcall : (lheadlamp, true) ∈ s.wantedCalls sample ∧
      (lheadlamp, true) ∉ s.passCalls sample := by
    rw [passCalls_eq]
    simp only [s, sample, Controller.boot, initIps_odata]
    decide +kernel
  exact ⟨hwired, fun h => hcall.2 (h.calls.mem_iff.mpr hcall.1), hcall⟩

end IoState

end TruckControl
