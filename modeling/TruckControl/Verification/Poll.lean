import TruckControl.Verification.ShadowInputs

/-!
# The poll of the requested inputs

Only nine inputs are ever requested, so no bank but the first two ever changes, and a
mask is never too large to decode. A poll of the first bank answers its highest pending
input and forgets the others.
-/

namespace TruckControl

open InputType OutputType

/-- The bits of the banks that commands ask for: inputs 0 to 6, and input 8. -/
def Requestable (bank i : ℕ) : Prop := bank = 0 ∧ i < 7 ∨ bank = 1 ∧ i = 0

theorem requestable_of_request {block : Block} (h : block.Issued) {k : ℕ} {onoff : Bool}
    (hreq : block.request = some (k, onoff)) : k < 7 ∨ k = 8 := by
  have hall : ∀ cmd, ∀ block ∈ basicControls cmd, ∀ r ∈ block.request, r.1 < 7 ∨ r.1 = 8 := by
    decide +kernel
  exact h.of_forall hall (k, onoff) hreq

theorem requestable_real {k : ℕ} (h : k < 7 ∨ k = 8) :
    Requestable (realBanks k).bank (realBanks k).index := by
  rcases h with h | h
  · rw [realBanks_of_lt k (by omega)]
    exact .inl ⟨rfl, h⟩
  · rw [h]
    exact .inr (by decide)

namespace IoState

variable {db : Database} {s : IoState}

/-- No other bit is set in either array. -/
structure Clean (s : IoState) : Prop where
  seen_eq : ∀ bank i, ¬ Requestable bank i → (s.fakeInportstatus1 bank).getLsbD i = false
  asked_eq : ∀ bank i, ¬ Requestable bank i → (s.fakeInportstatus2 bank).getLsbD i = false

/-- A byte array without other bits keeps this when one of the nine is written, or any is
cleared. -/
private theorem getLsbD_assign_clean {b : Banks}
    (hb : ∀ bank i, ¬ Requestable bank i → (b bank).getLsbD i = false) {k : ℕ} (hk : k < 40)
    {onoff : Bool} (h : onoff = true → k < 7 ∨ k = 8) (bank i : ℕ) (hno : ¬ Requestable bank i) :
    (b.assign k onoff bank).getLsbD i = false := by
  rw [Banks.getLsbD_assign b hk]
  split_ifs with heq
  · obtain ⟨rfl, rfl⟩ := heq
    cases onoff with
    | false => rfl
    | true => exact absurd (requestable_real (h rfl)) hno
  · exact hb bank i hno

/-! ## Decoding -/

theorem Clean.bit_seven (h : s.Clean) (bank : ℕ) :
    (s.fakeInportstatus2 bank).getLsbD 7 = (s.fakeInportstatus1 bank).getLsbD 7 := by
  have hno : ¬ Requestable bank 7 := by simp [Requestable]
  rw [h.seen_eq bank 7 hno, h.asked_eq bank 7 hno]

/-- A change of such a bank is never too large to decode. -/
theorem Clean.mask_le (h : s.Clean) (bank : ℕ) :
    ¬ (s.fakeInportstatus2 bank ^^^ s.fakeInportstatus1 bank) > 0x80#8 := by
  apply Byte.le_of_getLsbD_seven
  rw [BitVec.getLsbD_xor, h.bit_seven, Bool.xor_self]

theorem bit_of_lt (b : Banks) {k : ℕ} (hk : k < 8) : b.bit k = (b 0).getLsbD k := by
  rw [Banks.bit, realBanks_of_lt k hk]

/-- An input that was asked to change and has not been polled since. -/
def Pending (s : IoState) (k : ℕ) : Prop := s.asked k ≠ s.seen k

instance (s : IoState) (k : ℕ) : Decidable (s.Pending k) := inferInstanceAs (Decidable (_ ≠ _))

/-- The edge that a poll of a bank finds. -/
def pollEdge (s : IoState) (bank : ℕ) : Option (ℕ × Bool) :=
  decodeChange bank (s.fakeInportstatus2 bank) (s.fakeInportstatus1 bank)

/-! ### Pending inputs of a bank -/

/-- An input of the bank that the next poll finds changed. -/
def PendingIn (s : IoState) (bank k : ℕ) : Prop :=
  k < 40 ∧ (realBanks k).bank = bank ∧ s.Pending k

/-- The two arrays differ in the bits of inputs only. -/
def Aligned (s : IoState) : Prop :=
  ∀ bank < 6, ∀ i < 8,
    (s.fakeInportstatus2 bank).getLsbD i ≠ (s.fakeInportstatus1 bank).getLsbD i →
      ∃ k < 40, (realBanks k).bank = bank ∧ (realBanks k).index = i

theorem realIndex_realBanks :
    ∀ k < 40, realIndex (realBanks k).bank (realBanks k).index = k := by decide

theorem Aligned.changed_iff (h : s.Aligned) {bank i : ℕ} (hb : bank < 6) (hi : i < 8) :
    (s.fakeInportstatus2 bank).getLsbD i ≠ (s.fakeInportstatus1 bank).getLsbD i ↔
      ∃ k, s.PendingIn bank k ∧ (realBanks k).index = i := by
  constructor
  · intro hne
    obtain ⟨k, hk, rfl, rfl⟩ := h bank hb i hi hne
    exact ⟨k, ⟨hk, rfl, hne⟩, rfl⟩
  · rintro ⟨k, ⟨hk, rfl, hpend⟩, rfl⟩
    exact hpend

/-- A change that can be decoded is taken for one of the highest pending input, to ON when
all pending inputs of the bank were asked ON. -/
theorem Aligned.pollEdge_iff (h : s.Aligned) {bank : ℕ} (hb : bank < 6)
    (hmask : ¬ (s.fakeInportstatus2 bank ^^^ s.fakeInportstatus1 bank) > 0x80#8)
    {k : ℕ} {onoff : Bool} :
    s.pollEdge bank = some (k, onoff) ↔
      s.PendingIn bank k ∧ (∀ j, s.PendingIn bank j → (realBanks j).index ≤ (realBanks k).index) ∧
        (onoff = true ↔ ∀ j, s.PendingIn bank j → s.asked j = true) := by
  have hon : (∀ i < 8, (s.fakeInportstatus2 bank).getLsbD i ≠
      (s.fakeInportstatus1 bank).getLsbD i → (s.fakeInportstatus2 bank).getLsbD i = true) ↔
        ∀ j, s.PendingIn bank j → s.asked j = true := by
    constructor
    · rintro hall j ⟨hj, rfl, hpend⟩
      exact hall _ (realBanks_index_lt j hj) hpend
    · intro hall i hi hne
      obtain ⟨j, hj, rfl⟩ := (h.changed_iff hb hi).mp hne
      have hasked := hall j hj
      obtain ⟨-, rfl, -⟩ := hj
      exact hasked
  have habove {i : ℕ} : (∀ j < 8, i < j → (s.fakeInportstatus2 bank).getLsbD j =
      (s.fakeInportstatus1 bank).getLsbD j) ↔
        ∀ j, s.PendingIn bank j → (realBanks j).index ≤ i := by
    constructor
    · intro hall j hj
      by_contra hlt
      have hj8 := realBanks_index_lt j hj.1
      exact (h.changed_iff hb hj8).mpr ⟨j, hj, rfl⟩ (hall _ hj8 (Nat.lt_of_not_le hlt))
    · intro hall j hj hij
      by_contra hne
      obtain ⟨k, hk, rfl⟩ := (h.changed_iff hb hj).mp hne
      exact Nat.not_le_of_lt hij (hall k hk)
  rw [pollEdge, decodeChange_eq_some_iff bank hmask, hon]
  constructor
  · rintro ⟨i, hi, hk, hbit, hhigh, honoff⟩
    obtain ⟨j, hj, rfl⟩ := (h.changed_iff hb hi).mp hbit
    have hkj : k = j := by
      rw [hk, ← hj.2.1]
      exact realIndex_realBanks j hj.1
    subst hkj
    exact ⟨hj, habove.mp hhigh, honoff⟩
  · rintro ⟨hk, hhigh, honoff⟩
    have hk8 := realBanks_index_lt k hk.1
    refine ⟨(realBanks k).index, hk8, ?_, (h.changed_iff hb hk8).mpr ⟨k, hk, rfl⟩,
      habove.mpr hhigh, honoff⟩
    rw [← hk.2.1]
    exact (realIndex_realBanks k hk.1).symm

/-! ### The first bank -/

theorem Clean.aligned (h : s.Clean) : s.Aligned := by
  have hreal : ∀ i < 7, ∃ k < 40, (realBanks k).bank = 0 ∧ (realBanks k).index = i := by decide
  intro bank _ i _ hne
  by_cases hreq : Requestable bank i
  · rcases hreq with ⟨rfl, hi⟩ | ⟨rfl, rfl⟩
    · exact hreal i hi
    · exact ⟨brakeInput, by decide⟩
  · exact absurd ((h.asked_eq bank i hreq).trans (h.seen_eq bank i hreq).symm) hne

theorem Clean.pendingIn_zero_iff (h : s.Clean) {k : ℕ} :
    s.PendingIn 0 k ↔ k < 7 ∧ s.Pending k := by
  have hfirst : ∀ k < 40, (realBanks k).bank = 0 → k < 8 := by decide
  constructor
  · rintro ⟨hk, hbank, hpend⟩
    have hk8 := hfirst k hk hbank
    refine ⟨?_, hpend⟩
    by_contra hlt
    have h7 : k = 7 := by omega
    apply hpend
    rw [asked, seen, bit_of_lt _ hk8, bit_of_lt _ hk8, h7]
    exact h.bit_seven 0
  · rintro ⟨hk, hpend⟩
    refine ⟨Nat.lt_trans hk (by decide), ?_, hpend⟩
    rw [realBanks_of_lt k (Nat.lt_succ_of_lt hk)]

/-- A poll of the first bank answers the highest pending input, and answers ON only when
every pending input of the bank was asked ON. -/
theorem Clean.pollEdge_zero_iff (h : s.Clean) {k : ℕ} {onoff : Bool} :
    s.pollEdge 0 = some (k, onoff) ↔
      k < 7 ∧ s.Pending k ∧ (∀ j < 7, k < j → ¬ s.Pending j) ∧
        (onoff = true ↔ ∀ j < 7, s.Pending j → s.asked j = true) := by
  have hindex {k : ℕ} (hk : k < 7) : (realBanks k).index = k := by
    rw [realBanks_of_lt k (Nat.lt_succ_of_lt hk)]
  rw [h.aligned.pollEdge_iff (by decide) (h.mask_le 0)]
  simp only [h.pendingIn_zero_iff, and_imp, and_assoc]
  refine and_congr_right fun hk => and_congr_right fun _ => and_congr_left fun _ => ?_
  refine forall₂_congr fun j hj => ?_
  rw [hindex hk, hindex hj, ← Nat.not_lt]
  exact imp_not_comm

/-- The second bank has only the brakes to answer, and the others have nothing. -/
theorem Clean.pollEdge_pos (h : s.Clean) {bank k : ℕ} {onoff : Bool} (hb : 0 < bank)
    (hedge : s.pollEdge bank = some (k, onoff)) : k = brakeInput := by
  obtain ⟨i, -, hk, hbit, -, -⟩ := (decodeChange_eq_some_iff bank (h.mask_le bank)).mp hedge
  have hreq : Requestable bank i := by
    by_contra hno
    apply hbit
    rw [h.seen_eq bank i hno, h.asked_eq bank i hno]
  rcases hreq with ⟨hzero, -⟩ | ⟨rfl, rfl⟩
  · omega
  · rw [hk]
    decide

/-! ## What a poll leaves -/

theorem monitorFakeInputTask_of_none {bank : ℕ} (h : s.pollEdge bank = none) :
    s.monitorFakeInputTask bank = s := by
  rw [pollEdge] at h
  simp only [monitorFakeInputTask, h]

/-- After an edge the bank is settled: its pending inputs are as the edge says. -/
theorem shadow_monitorFakeInputTask (hs : WellFormed db s) {bank : ℕ} (hb : bank < 6)
    {index : ℕ} {onoff : Bool} (h : s.pollEdge bank = some (index, onoff)) :
    let mask := s.fakeInportstatus2 bank ^^^ s.fakeInportstatus1 bank
    let settled := if onoff then s.fakeInportstatus2 bank ||| mask
      else s.fakeInportstatus2 bank &&& ~~~mask
    (s.monitorFakeInputTask bank).fakeInportstatus2 =
        Function.update s.fakeInportstatus2 bank settled ∧
      (s.monitorFakeInputTask bank).fakeInportstatus1 =
        Function.update s.fakeInportstatus1 bank settled := by
  intro mask settled
  rw [pollEdge] at h
  have hs' : WellFormed db { s with
      fakeInportstatus2 := Function.update s.fakeInportstatus2 bank settled } :=
    ⟨hs.found, hs.setup, hs.ip⟩
  have hrest := shadow_of_rest (rest_dispatch hs' (decodeChange_lt hb h) onoff)
  have hself : Function.update s.fakeInportstatus2 bank settled bank = settled :=
    Function.update_self ..
  simp only [monitorFakeInputTask, h]
  refine ⟨hrest.2, ?_⟩
  rw [hrest.1]
  exact congrArg (Function.update s.fakeInportstatus1 bank)
    ((congrArg (fun b => b bank) hrest.2).trans hself)

/-- An edge settles all pending inputs of its bank at one level. -/
theorem pollBits (hs : WellFormed db s) {bank : ℕ} (hb : bank < 6) {index : ℕ} {onoff : Bool}
    (h : s.pollEdge bank = some (index, onoff)) {k : ℕ} (hk : k < 40)
    (hbank : (realBanks k).bank = bank) :
    (s.monitorFakeInputTask bank).asked k = (if s.Pending k then onoff else s.asked k) ∧
      (s.monitorFakeInputTask bank).seen k = (if s.Pending k then onoff else s.asked k) := by
  subst hbank
  obtain ⟨hasked, hseen⟩ := shadow_monitorFakeInputTask hs hb h
  rw [asked, seen, hasked, hseen, Banks.bit, Banks.bit, Function.update_self,
    Function.update_self, Byte.getLsbD_settle _ _ (realBanks_index_lt k hk)]
  exact ⟨rfl, rfl⟩

/-- A poll leaves the inputs of the other banks alone. -/
theorem pollBits_other (hs : WellFormed db s) {bank : ℕ} (hb : bank < 6) {k : ℕ}
    (hbank : (realBanks k).bank ≠ bank) :
    (s.monitorFakeInputTask bank).asked k = s.asked k ∧
      (s.monitorFakeInputTask bank).seen k = s.seen k := by
  cases h : s.pollEdge bank with
  | none =>
      rw [monitorFakeInputTask_of_none h]
      exact ⟨rfl, rfl⟩
  | some edge =>
      obtain ⟨hasked, hseen⟩ := shadow_monitorFakeInputTask hs hb h
      rw [asked, seen, hasked, hseen, Banks.bit, Banks.bit, Function.update_of_ne hbank,
        Function.update_of_ne hbank]
      exact ⟨rfl, rfl⟩

/-! ## Only the nine -/

theorem clean_of_shadow {t : IoState} (h : s.Clean)
    (h1 : t.fakeInportstatus1 = s.fakeInportstatus1)
    (h2 : t.fakeInportstatus2 = s.fakeInportstatus2) : t.Clean :=
  ⟨fun bank i hno => h1 ▸ h.seen_eq bank i hno, fun bank i hno => h2 ▸ h.asked_eq bank i hno⟩

theorem Clean.execBlock (h : s.Clean) (hs : WellFormed db s) {block : Block}
    (hissued : block.Issued) : (s.execBlock block).Clean := by
  obtain ⟨h1, h2⟩ := shadow_execBlock hs hissued.valid
  cases hreq : block.request with
  | none =>
      rw [hreq] at h2
      exact clean_of_shadow h h1 h2
  | some request =>
      obtain ⟨k, onoff⟩ := request
      rw [hreq] at h2
      have hk := requestable_of_request hissued hreq
      refine ⟨fun bank i hno => h1 ▸ h.seen_eq bank i hno, ?_⟩
      intro bank i hno
      rw [h2]
      exact getLsbD_assign_clean h.asked_eq (by omega) (fun _ => hk) bank i hno

theorem Clean.monitorFakeInputTask (h : s.Clean) (hs : WellFormed db s) {bank : ℕ}
    (hb : bank < 6) : (s.monitorFakeInputTask bank).Clean := by
  cases hedge : s.pollEdge bank with
  | none =>
      rw [monitorFakeInputTask_of_none hedge]
      exact h
  | some edge =>
      obtain ⟨index, onoff⟩ := edge
      obtain ⟨h2, h1⟩ := shadow_monitorFakeInputTask hs hb hedge
      have hsettled (i : ℕ) (hno : ¬ Requestable bank i) :
          (if onoff then s.fakeInportstatus2 bank |||
              (s.fakeInportstatus2 bank ^^^ s.fakeInportstatus1 bank)
            else s.fakeInportstatus2 bank &&&
              ~~~(s.fakeInportstatus2 bank ^^^ s.fakeInportstatus1 bank)).getLsbD i = false := by
        have hs1 := h.seen_eq bank i hno
        have hs2 := h.asked_eq bank i hno
        cases onoff <;> simp only [Bool.false_eq_true, if_true, if_false, BitVec.getLsbD_or,
          BitVec.getLsbD_and, BitVec.getLsbD_xor, hs1, hs2, Bool.or_false, Bool.xor_false,
          Bool.false_and]
      refine ⟨?_, ?_⟩
      · intro b i hno
        rw [h1]
        by_cases hbb : b = bank
        · subst hbb
          rw [Function.update_self]
          exact hsettled i hno
        · rw [Function.update_of_ne hbb]
          exact h.seen_eq b i hno
      · intro b i hno
        rw [h2]
        by_cases hbb : b = bank
        · subst hbb
          rw [Function.update_self]
          exact hsettled i hno
        · rw [Function.update_of_ne hbb]
          exact h.asked_eq b i hno

theorem Clean.timerPort (h : s.Clean) (hs : WellFormed db s) {q : ℕ} (hq : q < 40) :
    (s.timerPort q).Clean := by
  obtain ⟨h1, h2⟩ := shadow_timerPort hs hq
  by_cases hexp : (s.relay q).Expires
  · rw [if_pos hexp] at h1 h2
    refine ⟨?_, ?_⟩
    · intro bank i hno
      rw [h1]
      exact getLsbD_assign_clean h.seen_eq hq (fun hon => by cases hon) bank i hno
    · intro bank i hno
      rw [h2]
      exact getLsbD_assign_clean h.asked_eq hq (fun hon => by cases hon) bank i hno
  · rw [if_neg hexp] at h1 h2
    exact clean_of_shadow h h1 h2

theorem Clean.timerPrologue (h : s.Clean) : s.timerPrologue.Clean := by
  have hback {t u : IoState} {q : ℕ} (hq : q < 40) (ht : t.Clean)
      (h1 : u.fakeInportstatus1 = t.fakeInportstatus1)
      (h2 : u.fakeInportstatus2 = t.fakeInportstatus2 ∨
        u.fakeInportstatus2 = t.fakeInportstatus2.assign q false) : u.Clean := by
    rcases h2 with h2 | h2
    · exact clean_of_shadow ht h1 h2
    · refine ⟨fun bank i hno => h1 ▸ ht.seen_eq bank i hno, ?_⟩
      intro bank i hno
      rw [h2]
      exact getLsbD_assign_clean ht.asked_eq hq (fun hon => by cases hon) bank i hno
  obtain ⟨h1, h2⟩ := shadow_timerEngine s
  obtain ⟨hL1, hL2⟩ := shadow_timerLblinkers (timerUptime (timerEngine s))
  obtain ⟨hR1, hR2⟩ := shadow_timerRblinkers (timerLblinkers (timerUptime (timerEngine s)))
  have huptime : (timerUptime (timerEngine s)).Clean := clean_of_shadow h h1 h2
  exact hback (by decide) (hback (by decide) huptime hL1 hL2) hR1 hR2

theorem Clean.timerTask (h : s.Clean) (hs : WellFormed db s) : s.timerTask.Clean := by
  have hscan (ports : List ℕ) (hports : ∀ q ∈ ports, q < 40) (t : IoState) (ht : t.Clean)
      (hwf : WellFormed db t) : (ports.foldl IoState.timerPort t).Clean := by
    induction ports generalizing t with
    | nil => exact ht
    | cons q ports ih =>
        have hq := hports q List.mem_cons_self
        exact ih (fun r hr => hports r (List.mem_cons_of_mem q hr)) _ (ht.timerPort hwf hq)
          ((acts_timerPort hwf hq).wellFormed hwf)
  apply hscan _ _ _ h.timerPrologue ((acts_timer_prologue s).wellFormed hs)
  intro q hq
  exact Nat.lt_trans (List.mem_range.mp hq) (by decide)

/-- Moving a switch touches neither of the two arrays. -/
theorem shadow_monitorInputTask (hs : WellFormed db s) {bank : ℕ} (hb : bank < 6)
    (result : UCHAR) :
    (s.monitorInputTask bank result).fakeInportstatus1 = s.fakeInportstatus1 ∧
      (s.monitorInputTask bank result).fakeInportstatus2 = s.fakeInportstatus2 := by
  rw [IoState.monitorInputTask]
  cases hedge : decodeChange bank result (s.inportstatus bank) with
  | none => exact ⟨rfl, rfl⟩
  | some edge =>
      obtain ⟨index, onoff⟩ := edge
      obtain ⟨h1, h2⟩ := shadow_of_rest (rest_dispatch hs (decodeChange_lt hb hedge) onoff)
      exact ⟨h1, h2⟩

theorem Clean.monitorInputTask (h : s.Clean) (hs : WellFormed db s) {bank : ℕ} (hb : bank < 6)
    (result : UCHAR) : (s.monitorInputTask bank result).Clean :=
  clean_of_shadow h (shadow_monitorInputTask hs hb result).1
    (shadow_monitorInputTask hs hb result).2

end IoState

namespace Controller

variable {db : Database}

theorem clean_step {c : Controller} (h : c.WellFormed db) (hclean : c.io.Clean) (e : Event) :
    (c.step e).io.Clean := by
  cases stepCases c e with
  | idle hstep => rwa [hstep]
  | executed block todo htodo hstep =>
      rw [hstep]
      exact hclean.execBlock h.io (h.todo block (htodo ▸ List.mem_cons_self))
  | switched bank result hb hstep =>
      rw [hstep]
      exact hclean.monitorInputTask h.io hb result
  | polled bank hb hstep =>
      rw [hstep]
      exact hclean.monitorFakeInputTask h.io hb
  | ticked hstep =>
      have htimer := hclean.timerTask h.io
      simpa only [hstep] using htimer
  | added cmd hstep | got htodo hstep | delayed delay hstep =>
      rw [hstep]
      exact IoState.clean_of_shadow hclean rfl rfl

theorem clean_exec {c : Controller} (h : c.WellFormed db) (hclean : c.io.Clean)
    (es : List Event) : (Transition.exec step c es).io.Clean := by
  induction es generalizing c with
  | nil => exact hclean
  | cons e es ih => exact ih (wellFormed_step h e) (clean_step h hclean e)

theorem Reachable.clean {c : Controller} (h : Reachable db c) : c.io.Clean := by
  refine h.invariant (I := fun c => c.io.Clean) ?_ fun c e hc hI => clean_step hc.wellFormed hI e
  intro inports lightsOnDelay
  refine ⟨fun bank i _ => ?_, fun bank i _ => ?_⟩
  · change (0#8).getLsbD i = false
    simp
  · change (0#8).getLsbD i = false
    simp

/-- But for the switches, edges of the first inputs come from a poll of the first bank. -/
theorem poll_of_edge {c : Controller} (hclean : c.io.Clean) {e : Event}
    (hswitch : ∀ bank result, e ≠ .monitorInputTask bank result) {k : ℕ} (hk : k < 8)
    {onoff : Bool} (h : c.edge e = some (k, onoff)) :
    e = .monitorFakeInputTask 0 ∧ c.io.pollEdge 0 = some (k, onoff) := by
  cases e with
  | monitorInputTask bank result => exact absurd rfl (hswitch bank result)
  | monitorFakeInputTask bank =>
      rw [edge] at h
      split_ifs at h
      rcases Nat.eq_zero_or_pos bank with hzero | hpos
      · subst hzero
        exact ⟨rfl, h⟩
      · have hbrake := hclean.pollEdge_pos hpos h
        rw [hbrake] at hk
        exact absurd hk (by decide)
  | _ => cases h

/-! ## What an event does to an input of the first bank -/

/-- The two bits of an input change by a request, by the answer of a poll, by the expiry
of the port of the same number, or by the end of a blinker test. -/
inductive ShadowStep (c : Controller) (e : Event) (j : ℕ) : Prop where
  | unchanged (hseen : (c.step e).io.seen j = c.io.seen j)
      (hasked : (c.step e).io.asked j = c.io.asked j)
  | requested (block : Block) (onoff : Bool) (hexec : Executes block c e)
      (hrequest : block.request = some (j, onoff)) (hseen : (c.step e).io.seen j = c.io.seen j)
      (hasked : (c.step e).io.asked j = onoff)
  | answered (k : ℕ) (onoff : Bool) (hpoll : e = .monitorFakeInputTask 0)
      (hedge : c.io.pollEdge 0 = some (k, onoff)) (hpending : c.io.Pending j)
      (hseen : (c.step e).io.seen j = onoff) (hasked : (c.step e).io.asked j = onoff)
  | expired (htick : e = .timerTask) (hexpires : (c.io.relay j).Expires)
      (hseen : (c.step e).io.seen j = false) (hasked : (c.step e).io.asked j = false)
  | takenBack (htick : e = .timerTask) (hinput : j = leftblinkerInput ∨ j = rightblinkerInput)
      (hseen : (c.step e).io.seen j = c.io.seen j) (hasked : (c.step e).io.asked j = false)

/-- A request changes what is asked of its own input. -/
theorem shadow_of_request {c : Controller} (hc : c.WellFormed db) {e : Event} {block : Block}
    (hex : Executes block c e) {k : ℕ} {onoff : Bool} (hreq : block.request = some (k, onoff))
    {j : ℕ} (hj : j < 40) :
    (c.step e).io.seen j = c.io.seen j ∧
      (c.step e).io.asked j = if j = k then onoff else c.io.asked j := by
  have hissued := hc.issued hex
  have hk := requestable_of_request hissued hreq
  obtain ⟨rfl, hhead⟩ := hex
  obtain ⟨todo, htodo⟩ := List.head?_eq_some_iff.mp hhead
  obtain ⟨h1, h2⟩ := IoState.shadow_execBlock hc.io hissued.valid
  rw [hreq] at h2
  have hio : (c.step .basicControlsTask).io = c.io.execBlock block := by rw [step, htodo]
  rw [hio]
  refine ⟨congrArg (fun b => Banks.bit b j) h1, ?_⟩
  rw [IoState.asked, h2]
  exact Banks.bit_assign _ (by omega) hj onoff

/-- Other blocks change neither. -/
theorem shadow_of_no_request {c : Controller} (hc : c.WellFormed db) {e : Event} {block : Block}
    (hex : Executes block c e) (hreq : block.request = none) (j : ℕ) :
    (c.step e).io.seen j = c.io.seen j ∧ (c.step e).io.asked j = c.io.asked j := by
  have hissued := hc.issued hex
  obtain ⟨rfl, hhead⟩ := hex
  obtain ⟨todo, htodo⟩ := List.head?_eq_some_iff.mp hhead
  obtain ⟨h1, h2⟩ := IoState.shadow_execBlock hc.io hissued.valid
  rw [hreq] at h2
  have hio : (c.step .basicControlsTask).io = c.io.execBlock block := by rw [step, htodo]
  rw [hio]
  exact ⟨congrArg (fun b => Banks.bit b j) h1, congrArg (fun b => Banks.bit b j) h2⟩

private theorem shadowStep_block {c : Controller} (hc : c.WellFormed db) {block : Block}
    {todo : List Block} (htodo : c.todo = block :: todo) {j : ℕ} (hj : j < 40) :
    ShadowStep c .basicControlsTask j := by
  have hex : Executes block c .basicControlsTask := ⟨rfl, by rw [htodo, List.head?_cons]⟩
  cases hreq : block.request with
  | none =>
      obtain ⟨hseen, hasked⟩ := shadow_of_no_request hc hex hreq j
      exact .unchanged hseen hasked
  | some request =>
      obtain ⟨k, onoff⟩ := request
      obtain ⟨hseen, hasked⟩ := shadow_of_request hc hex hreq hj
      by_cases hjk : j = k
      · subst hjk
        exact .requested block onoff hex hreq hseen (hasked.trans (if_pos rfl))
      · exact .unchanged hseen (hasked.trans (if_neg hjk))

theorem shadowStep {c : Controller} (hc : c.WellFormed db) (e : Event) {j : ℕ} (hj : j < 8) :
    ShadowStep c e j := by
  have hj40 : j < 40 := by omega
  have hbank : (realBanks j).bank = 0 := by rw [realBanks_of_lt j hj]
  cases stepCases c e with
  | idle hstep => exact .unchanged (by rw [hstep]) (by rw [hstep])
  | added cmd hstep | got htodo hstep | delayed delay hstep =>
      exact .unchanged (by rw [hstep]; rfl) (by rw [hstep]; rfl)
  | executed block todo htodo hstep => exact shadowStep_block hc htodo hj40
  | switched bank result hb hstep =>
      have hrest := IoState.shadow_monitorInputTask hc.io hb result
      refine .unchanged ?_ ?_
      · rw [hstep]
        exact congrArg (fun b => Banks.bit b j) hrest.1
      · rw [hstep]
        exact congrArg (fun b => Banks.bit b j) hrest.2
  | polled bank hb hstep =>
      have hio : (c.step (.monitorFakeInputTask bank)).io = c.io.monitorFakeInputTask bank := by
        rw [hstep]
      rcases Nat.eq_zero_or_pos bank with hzero | hpos
      · subst hzero
        cases hedge : c.io.pollEdge 0 with
        | none =>
            rw [IoState.monitorFakeInputTask_of_none hedge] at hio
            exact .unchanged (by rw [hio]) (by rw [hio])
        | some edge =>
            obtain ⟨k, onoff⟩ := edge
            obtain ⟨hasked, hseen⟩ := IoState.pollBits hc.io hb hedge hj40 hbank
            rw [← hio] at hasked hseen
            by_cases hpend : c.io.Pending j
            · rw [if_pos hpend] at hasked hseen
              exact .answered k onoff rfl hedge hpend hseen hasked
            · rw [if_neg hpend] at hasked hseen
              have heq : c.io.asked j = c.io.seen j := not_not.mp hpend
              exact .unchanged (hseen.trans heq) hasked
      · obtain ⟨hasked, hseen⟩ := IoState.pollBits_other hc.io hb
          (hbank.trans_ne (Nat.ne_of_lt hpos))
        rw [← hio] at hasked hseen
        exact .unchanged hseen hasked
  | ticked hstep =>
      have hio : (c.step .timerTask).io = c.io.timerTask := by rw [hstep]
      obtain ⟨hseen, hasked⟩ := IoState.shadow_timerTask hc.io hj40
      rw [← hio] at hseen hasked
      have hscan : j < testoutput27 := Nat.lt_trans hj (by decide)
      by_cases hexp : (c.io.relay j).Expires
      · rw [if_pos ⟨hscan, hexp⟩] at hseen hasked
        rcases hasked with hasked | hasked
        · exact .expired rfl hexp hseen hasked
        · exact .expired rfl hexp hseen hasked.2
      · rw [if_neg fun h => hexp h.2] at hseen hasked
        rcases hasked with hasked | ⟨hinput, hasked⟩
        · exact .unchanged hseen hasked
        · exact .takenBack rfl hinput hseen hasked

/-- Nobody asks for an input, and it was not seen as on. -/
def Unasked (k : ℕ) (c : Controller) : Prop := c.io.seen k = false ∧ c.io.asked k = false

theorem unasked_block {c : Controller} (hc : c.WellFormed db) {block : Block}
    {todo : List Block} (htodo : c.todo = block :: todo) {k : ℕ} (hk : k < 40)
    (hrequest : block.request ≠ some (k, true)) (h : Unasked k c) :
    Unasked k (c.step .basicControlsTask) := by
  obtain ⟨hseen, hasked⟩ := h
  have hex : Executes block c .basicControlsTask := ⟨rfl, by rw [htodo, List.head?_cons]⟩
  cases hreq : block.request with
  | none =>
      obtain ⟨h1, h2⟩ := shadow_of_no_request hc hex hreq k
      exact ⟨h1.trans hseen, h2.trans hasked⟩
  | some request =>
      obtain ⟨j, onoff⟩ := request
      obtain ⟨h1, h2⟩ := shadow_of_request hc hex hreq hk
      refine ⟨h1.trans hseen, h2.trans ?_⟩
      split_ifs with hkj
      · subst hkj
        cases onoff with
        | false => rfl
        | true => exact absurd hreq hrequest
      · exact hasked

theorem unasked_poll {c : Controller} (hc : c.WellFormed db) {bank : ℕ} (hb : bank < 6) {k : ℕ}
    (hk : k < 40) (h : Unasked k c) :
    Unasked k { c with io := c.io.monitorFakeInputTask bank } := by
  obtain ⟨hseen, hasked⟩ := h
  have hsettled : ¬ c.io.Pending k := not_not.mpr (hasked.trans hseen.symm)
  by_cases hbank : (realBanks k).bank = bank
  · cases hedge : c.io.pollEdge bank with
    | none =>
        rw [IoState.monitorFakeInputTask_of_none hedge]
        exact ⟨hseen, hasked⟩
    | some edge =>
        obtain ⟨h2, h1⟩ := IoState.pollBits hc.io hb hedge hk hbank
        rw [if_neg hsettled] at h1 h2
        exact ⟨h1.trans hasked, h2.trans hasked⟩
  · obtain ⟨h2, h1⟩ := IoState.pollBits_other hc.io hb hbank
    exact ⟨h1.trans hseen, h2.trans hasked⟩

theorem unasked_step {c : Controller} (hc : c.WellFormed db) {e : Event} {k : ℕ} (hk : k < 40)
    (hrequest : ∀ block, Executes block c e → block.request ≠ some (k, true))
    (h : Unasked k c) : Unasked k (c.step e) := by
  cases stepCases c e with
  | idle hstep => rwa [hstep]
  | added cmd hstep | got htodo hstep | delayed delay hstep =>
      rw [hstep]
      exact h
  | executed block todo htodo hstep =>
      exact unasked_block hc htodo hk (hrequest block ⟨rfl, by rw [htodo, List.head?_cons]⟩) h
  | switched bank result hb hstep =>
      obtain ⟨h1, h2⟩ := IoState.shadow_monitorInputTask hc.io hb result
      rw [hstep]
      exact ⟨(congrArg (fun b => Banks.bit b k) h1).trans h.1,
        (congrArg (fun b => Banks.bit b k) h2).trans h.2⟩
  | polled bank hb hstep =>
      rw [hstep]
      exact unasked_poll hc hb hk h
  | ticked hstep =>
      obtain ⟨hseen, hasked⟩ := h
      obtain ⟨h1, h2⟩ := IoState.shadow_timerTask hc.io hk
      have hio : (c.step .timerTask).io = c.io.timerTask := by rw [hstep]
      rw [hseen, ite_self] at h1
      rw [hasked, ite_self] at h2
      rw [Unasked, hio]
      exact ⟨h1, h2.elim id fun h => h.2⟩

/-- No edge of an input comes that is not pending, but from its switch. -/
theorem edge_ne_of_settled {c : Controller} (hclean : c.io.Clean) {e : Event}
    (hswitch : ∀ bank result, e ≠ .monitorInputTask bank result) {k : ℕ} (hk : k < 8)
    (h : ¬ c.io.Pending k) (onoff : Bool) : c.edge e ≠ some (k, onoff) := by
  intro hedge
  obtain ⟨-, hpoll⟩ := poll_of_edge hclean hswitch hk hedge
  exact h (hclean.pollEdge_zero_iff.mp hpoll).2.1

theorem Unasked.not_pending {c : Controller} {k : ℕ} (h : Unasked k c) : ¬ c.io.Pending k :=
  not_not.mpr (h.2.trans h.1.symm)

end Controller

end TruckControl
