import TruckControl.Model.Odata
import TruckControl.Verification.Poll

/-!
# The inputs of expiring outputs

When a time-delay or blink output switches itself off, the scan forgets the request that
switched it on. It looks for that request under the number of the output.
-/

namespace TruckControl

open InputType OutputType

namespace IoState

variable {db : Database} {s : IoState} {k : ℕ}

/-! ## The scan, port by port -/

/-- What a tick has done when its scan reaches a port. -/
def scanTo (p : ℕ) (s : IoState) : IoState := (List.range p).foldl timerPort s.timerPrologue

theorem scanTo_succ (p : ℕ) (s : IoState) : s.scanTo (p + 1) = (s.scanTo p).timerPort p := by
  rw [scanTo, scanTo, List.range_succ, List.foldl_append, List.foldl_cons, List.foldl_nil]

theorem timerTask_eq_scanTo (s : IoState) : s.timerTask = s.scanTo testoutput27 := rfl

theorem wellFormed_scanTo (hs : WellFormed db s) {p : ℕ} (hp : p ≤ 40) :
    WellFormed db (s.scanTo p) := by
  induction p with
  | zero => exact (acts_timer_prologue s).wellFormed hs
  | succ p ih =>
      have hwf := ih (by omega)
      rw [scanTo_succ]
      exact (acts_timerPort hwf (by omega)).wellFormed hwf

/-- Both bits of an input are clear. -/
def Forgotten (s : IoState) (k : ℕ) : Prop := s.seen k = false ∧ s.asked k = false

instance (s : IoState) (k : ℕ) : Decidable (s.Forgotten k) := inferInstanceAs (Decidable (_ ∧ _))

theorem Forgotten.timerPort (h : s.Forgotten k) (hs : WellFormed db s) {q : ℕ} (hq : q < 40)
    (hk : k < 40) : (s.timerPort q).Forgotten k := by
  obtain ⟨hseen, hasked⟩ := h
  refine ⟨?_, ?_⟩
  · rw [seen_timerPort hs hq hk, hseen, ite_self]
  · rw [asked_timerPort hs hq hk, hasked, ite_self]

/-- The rest of the scan asks for nothing. -/
theorem Forgotten.scanTo {p q : ℕ} (h : (s.scanTo p).Forgotten k) (hs : WellFormed db s)
    (hk : k < 40) (hpq : p ≤ q) (hq : q ≤ 40) : (s.scanTo q).Forgotten k := by
  induction q, hpq using Nat.le_induction with
  | base => exact h
  | succ q hpq ih =>
      rw [scanTo_succ]
      exact (ih (by omega)).timerPort (wellFormed_scanTo hs (by omega)) (by omega) hk

/-! ## One expiry -/

/-- An expiry clears both bits of one input, and no other bit. -/
structure ClearsInput (index : ℕ) (s t : IoState) : Prop where
  forgotten : t.Forgotten index
  seen_eq : ∀ bank i, ¬ (bank = (realBanks index).bank ∧ i = (realBanks index).index) →
    (t.fakeInportstatus1 bank).getLsbD i = (s.fakeInportstatus1 bank).getLsbD i
  asked_eq : ∀ bank i, ¬ (bank = (realBanks index).bank ∧ i = (realBanks index).index) →
    (t.fakeInportstatus2 bank).getLsbD i = (s.fakeInportstatus2 bank).getLsbD i

/-- The bits that are looked up are those of the input, or clearing them changes nothing and
there is nothing to clear. -/
def Harmless (p index : ℕ) (s : IoState) : Prop :=
  p = index ∨ s.Forgotten index ∧ s.Forgotten p

instance (p index : ℕ) (s : IoState) : Decidable (Harmless p index s) :=
  inferInstanceAs (Decidable (_ ∨ _))

private theorem getLsbD_clear_eq (b : Banks) {p : ℕ} (hp : p < 40) (hclear : b.bit p = false)
    (bank i : ℕ) : (b.assign p false bank).getLsbD i = (b bank).getLsbD i := by
  rw [Banks.getLsbD_assign b hp]
  split_ifs with h
  · obtain ⟨rfl, rfl⟩ := h
    exact hclear.symm
  · rfl

/-- An expiry clears the bits of its input alone exactly when it is harmless. -/
theorem clearsInput_timerPort_iff (hs : WellFormed db s) {p index : ℕ} (hp : p < 40)
    (hindex : index < 40) (hexp : (s.relay p).Expires) :
    ClearsInput index s (s.timerPort p) ↔ Harmless p index s := by
  obtain ⟨h1, h2⟩ := shadow_timerPort hs hp
  rw [if_pos hexp] at h1 h2
  have hforgotten : (s.timerPort p).Forgotten p := by
    simp [Forgotten, seen_timerPort hs hp hp, asked_timerPort hs hp hp, hexp]
  constructor
  · intro h
    by_cases hport : p = index
    · exact .inl hport
    · have hother : ¬ ((realBanks p).bank = (realBanks index).bank ∧
          (realBanks p).index = (realBanks index).index) :=
        fun heq => hport (realBanks_injective p hp index hindex heq.1 heq.2)
      obtain ⟨hseen, hasked⟩ := h.forgotten
      rw [seen_timerPort hs hp hindex, if_neg fun heq => hport heq.1.symm] at hseen
      rw [asked_timerPort hs hp hindex, if_neg fun heq => hport heq.1.symm] at hasked
      refine .inr ⟨⟨hseen, hasked⟩, ?_, ?_⟩
      · exact (h.seen_eq _ _ hother).symm.trans hforgotten.1
      · exact (h.asked_eq _ _ hother).symm.trans hforgotten.2
  · rintro (rfl | ⟨hinput, hport⟩)
    · refine ⟨hforgotten, ?_, ?_⟩
      · intro bank i hne
        rw [h1, Banks.getLsbD_assign _ hp, if_neg hne]
      · intro bank i hne
        rw [h2, Banks.getLsbD_assign _ hp, if_neg hne]
    · refine ⟨hinput.timerPort hs hp hindex, ?_, ?_⟩
      · intro bank i _
        rw [h1]
        exact getLsbD_clear_eq _ hp hport.1 bank i
      · intro bank i _
        rw [h2]
        exact getLsbD_clear_eq _ hp hport.2 bank i

/-- A forgotten input that is asked for is pending. -/
theorem Forgotten.pending_changeInput (h : s.Forgotten k) (hk : k < 40) :
    (s.changeInput k true).Pending k := by
  have hasked : (s.changeInput k true).asked k = true := by
    change (s.fakeInportstatus2.assign k true).bit k = true
    rw [Banks.bit_assign _ hk hk, if_pos rfl]
  have hseen : (s.changeInput k true).seen k = false := h.1
  rw [Pending, hasked, hseen]
  decide

end IoState

namespace Controller

variable {db : Database}

/-! ## After the expiry -/

/-- No command asks for the input. -/
def NotAsked (k : ℕ) (c : Controller) (e : Event) : Prop :=
  ∀ block, Executes block c e → block.request ≠ some (k, true)

theorem forgotten_exec {c : Controller} (hc : c.WellFormed db) {k : ℕ} (hk : k < 40)
    (h : c.io.Forgotten k) {es : List Event} (hes : Transition.Meets step (NotAsked k) c es) :
    (Transition.exec step c es).io.Forgotten k := by
  induction es generalizing c with
  | nil => exact h
  | cons e es ih => exact ih (wellFormed_step hc e) (unasked_step hc hk hes.1 h) hes.2

/-! ## Runs -/

/-- Each output that the tick switches off takes its own input's request back, and no other.
The next request for that input, whatever happens until then, is an edge again. -/
def ExpiriesRight (db : Database) (c : Controller) (e : Event) : Prop :=
  e = .timerTask → ∀ p < testoutput27, db.input p < 40 →
    let s := c.io.scanTo p
    (s.relay p).Expires →
      IoState.ClearsInput (db.input p) s (s.timerPort p) ∧
        ∀ es, Transition.Meets step (NotAsked (db.input p)) (c.step e) es →
          ((Transition.exec step (c.step e) es).io.changeInput (db.input p) true).Pending
            (db.input p)

/-- Each output that the tick switches off has the number of its input, or neither number is
asked for. -/
def ExpiriesHarmless (db : Database) (c : Controller) (e : Event) : Prop :=
  e = .timerTask → ∀ p < testoutput27, db.input p < 40 →
    let s := c.io.scanTo p
    (s.relay p).Expires → IoState.Harmless p (db.input p) s

theorem expiriesRight_iff {c : Controller} (hc : c.WellFormed db) (e : Event) :
    ExpiriesRight db c e ↔ ExpiriesHarmless db c e := by
  rw [ExpiriesRight, ExpiriesHarmless]
  refine forall_congr' fun he => forall₃_congr fun p hp hindex => ?_
  have hp40 : p < 40 := Nat.lt_trans hp (by decide)
  have hwf := IoState.wellFormed_scanTo hc.io (p := p) (by omega)
  refine forall_congr' fun hexp => ?_
  rw [← IoState.clearsInput_timerPort_iff hwf hp40 hindex hexp]
  refine and_iff_left_of_imp fun h es hes => ?_
  have hforgotten : (c.io.scanTo (p + 1)).Forgotten (db.input p) := by
    rw [IoState.scanTo_succ]
    exact h.forgotten
  have hstep : (c.step e).io.Forgotten (db.input p) := by
    have hio : (c.step .timerTask).io = c.io.scanTo testoutput27 := by
      rw [step, IoState.timerTask_eq_scanTo]
    rw [he, hio]
    exact hforgotten.scanTo hc.io hindex hp (by decide)
  exact (forgotten_exec (wellFormed_step hc e) hindex hstep hes).pending_changeInput hindex

/-- Along a run, the expiries take back the right requests exactly as far as they are
harmless. -/
theorem expiries_iff (db : Database) (inports : Banks) (lightsOnDelay : ℕ) (es : List Event) :
    Transition.Meets step (ExpiriesRight db) (boot db inports lightsOnDelay) es ↔
      Transition.Meets step (ExpiriesHarmless db) (boot db inports lightsOnDelay) es :=
  Transition.meets_congr (I := WellFormed db) (fun _ e hc => wellFormed_step hc e)
    (fun _ e hc => expiriesRight_iff hc e) es
    (wellFormed_boot db inports lightsOnDelay)

/-- The head lamps are asked for, then the starter is triggered by its switch. -/
def lampsAndStarter : List Event :=
  [.addMsgQueue CmdType.onLights.toByte, .getMsgQueue, .basicControlsTask,
    .monitorFakeInputTask 0, .monitorInputTask 0 0x20#8] ++ List.replicate 9 .timerTask

/-- The tick that switches the starter off forgets that the head lamps were asked for. -/
theorem not_expiriesRight_odata :
    ¬ Transition.Meets step (ExpiriesRight odata) (boot odata (fun _ => 0#8) 0)
      (lampsAndStarter ++ [.timerTask]) := by
  intro h
  rw [Transition.meets_append] at h
  have hlast := h.2.1 rfl starter (by decide) (by decide)
  have hexp : (((Transition.exec step (boot odata (fun _ => 0#8) 0) lampsAndStarter).io.scanTo
      starter).relay starter).Expires := by
    simp only [boot, initIps_odata]
    decide +kernel
  have hlost := (hlast hexp).1.asked_eq 0 0 (by decide)
  revert hlost
  simp only [boot, initIps_odata]
  decide +kernel

end Controller

end TruckControl
