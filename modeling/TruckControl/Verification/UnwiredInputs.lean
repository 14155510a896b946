import TruckControl.Verification.PhysicalInputs

/-!
# The bits without an input

The third bank of each card has four inputs. What stands in its other four bits is decoded
too, and the number of the bit is then taken for the number of an input.
-/

namespace TruckControl

open InputType OutputType

namespace IoState

/-! ## Two runs -/

/-- The calls of `set_output` over any number of passes. -/
def runCalls (s : IoState) (samples : List Banks) : List (ℕ × Bool) :=
  Transition.reports readBank readCalls s (samples.flatMap reads)

/-- Two runs side by side. An event is a bank and what either run reads there. -/
def pairStep (s : IoState × IoState) (e : ℕ × UCHAR × UCHAR) : IoState × IoState :=
  (s.1.readBank (e.1, e.2.1), s.2.readBank (e.1, e.2.2))

def pairReads (samples : Banks × Banks) : List (ℕ × UCHAR × UCHAR) :=
  (List.range 6).map fun bank => (bank, samples.1 bank, samples.2 bank)

/-- What the bits without an input do to a bank: none of them changes; or no other bit
changes, and they are too many or no output is assigned to the number of the highest of them;
or they are not too many, and no output is assigned to that number or to the highest changed
input. -/
def UnwiredHarmless (s : IoState) (bank : ℕ) (result : UCHAR) : Prop :=
  let mask := result ^^^ s.inportstatus bank
  mask &&& 0xF0#8 = 0 ∨
    mask &&& 0x0F#8 = 0 ∧ (mask > 0x80#8 ∨ ¬ s.Assigned (mask2int mask)) ∨
    ¬ mask > 0x80#8 ∧ ¬ s.Assigned (mask2int mask) ∧
      ¬ s.Assigned (realIndex bank (mask2int (mask &&& 0x0F#8)))

instance (s : IoState) (bank : ℕ) (result : UCHAR) : Decidable (s.UnwiredHarmless bank result) :=
  inferInstanceAs (Decidable (_ ∨ _ ∧ (_ ∨ _) ∨ _ ∧ _ ∧ _))

/-- In the third banks both runs see the same, or what they see without an input does
nothing. -/
def PairHarmless (s : IoState × IoState) (e : ℕ × UCHAR × UCHAR) : Prop :=
  e.1 = 2 ∨ e.1 = 5 →
    e.2.1 = e.2.2 ∧ s.1.inportstatus e.1 = s.2.inportstatus e.1 ∨
      s.1.UnwiredHarmless e.1 e.2.1 ∧ s.2.UnwiredHarmless e.1 e.2.2

instance (s : IoState × IoState) (e : ℕ × UCHAR × UCHAR) : Decidable (PairHarmless s e) :=
  inferInstanceAs (Decidable (_ → _))

/-- The two arrays have the same bits at all inputs. -/
def AgreeOnWired (a b : Banks) : Prop := ∀ k < 40, a.bit k = b.bit k

instance (a b : Banks) : Decidable (AgreeOnWired a b) :=
  inferInstanceAs (Decidable (∀ k < 40, _ = _))

/-- Two runs that have done the same, and know the same of all inputs. -/
def SameButUnwired (s t : IoState) : Prop :=
  ∃ st, t = s.withInports st ∧ AgreeOnWired s.inportstatus st

/-! ## Bits and inputs -/

/-- Every bit of a bank is an input, but for the upper half of the third banks. -/
theorem wired_of_lt : ∀ bank < 6, ∀ i < 8, (bank = 2 ∨ bank = 5) ∧ 4 ≤ i ∨
    ∃ k < 40, (realBanks k).bank = bank ∧ (realBanks k).index = i := by decide

theorem realIndex_unwired : ∀ bank < 6, ∀ i < 8, (bank = 2 ∨ bank = 5) → 4 ≤ i →
    realIndex bank i = i := by decide

theorem highestBit_upper : ∀ mask : BitVec 8, mask &&& 0xF0#8 ≠ 0 →
    4 ≤ Byte.highestBit mask ∧ Byte.highestBit mask < 8 := by decide +kernel

theorem eq_lower : ∀ mask : BitVec 8, mask &&& 0xF0#8 = 0 →
    mask &&& 0x0F#8 = mask ∧ ¬ mask > 0x80#8 := by decide +kernel

variable {a b : Banks} {bank : ℕ}

theorem AgreeOnWired.bank_eq (h : AgreeOnWired a b) (hb : bank < 6)
    (hfull : ¬ (bank = 2 ∨ bank = 5)) : a bank = b bank := by
  apply BitVec.eq_of_getLsbD_eq
  intro i hi
  rcases wired_of_lt bank hb i hi with ⟨hthird, -⟩ | ⟨k, hk, rfl, rfl⟩
  · exact absurd hthird hfull
  · exact h k hk

theorem AgreeOnWired.lower_eq (h : AgreeOnWired a b) (hb : bank < 6) :
    a bank &&& 0x0F#8 = b bank &&& 0x0F#8 := by
  apply BitVec.eq_of_getLsbD_eq
  intro i hi
  rw [BitVec.getLsbD_and, BitVec.getLsbD_and]
  rcases wired_of_lt bank hb i hi with ⟨-, hupper⟩ | ⟨k, hk, rfl, rfl⟩
  · have hzero : ∀ j < 8, 4 ≤ j → (0x0F#8).getLsbD j = false := by decide
    rw [hzero i hi hupper, Bool.and_false, Bool.and_false]
  · exact congrArg (· && (0x0F#8).getLsbD (realBanks k).index) (h k hk)

theorem getLsbD_of_lower_eq {x y : UCHAR} (h : x &&& 0x0F#8 = y &&& 0x0F#8) {i : ℕ}
    (hi : i < 4) : x.getLsbD i = y.getLsbD i := by
  have hone : ∀ j < 4, (0x0F#8).getLsbD j = true := by decide
  have hbit := congrArg (fun b : UCHAR => b.getLsbD i) h
  simpa [BitVec.getLsbD_and, hone i hi] using hbit

theorem xor_and_lower (x y : UCHAR) :
    (x ^^^ y) &&& 0x0F#8 = (x &&& 0x0F#8) ^^^ (y &&& 0x0F#8) := by
  apply BitVec.eq_of_getLsbD_eq
  intro i hi
  simp only [BitVec.getLsbD_and, BitVec.getLsbD_xor, Bool.and_xor_distrib_right]

theorem lower_eq_of_xor {x y : UCHAR} (h : (x ^^^ y) &&& 0x0F#8 = 0) :
    y &&& 0x0F#8 = x &&& 0x0F#8 := by
  rw [xor_and_lower] at h
  exact (BitVec.xor_eq_zero_iff.mp h).symm

/-! ## One bank -/

variable {s t : IoState} {result : UCHAR}

/-- The calls for what has changed at the inputs of a third bank. -/
def wiredCalls (s : IoState) (bank : ℕ) (result : UCHAR) : List (ℕ × Bool) :=
  let mask := (result ^^^ s.inportstatus bank) &&& 0x0F#8
  if mask = 0 then []
  else s.dispatchCalls (realIndex bank (mask2int mask)) (mask &&& result = mask)

theorem inputCalls_of_lower (hlower : (result ^^^ s.inportstatus bank) &&& 0xF0#8 = 0) :
    s.inputCalls bank result = s.wiredCalls bank result := by
  obtain ⟨hmask, hgt⟩ := eq_lower _ hlower
  rw [inputCalls, wiredCalls, decodeChange]
  simp only [hmask]
  by_cases heq : result = s.inportstatus bank
  · have hzero : result ^^^ s.inportstatus bank = 0 := BitVec.xor_eq_zero_iff.mpr heq
    rw [if_pos heq, if_pos hzero]
  · have hne : result ^^^ s.inportstatus bank ≠ 0 := fun h0 => heq (BitVec.xor_eq_zero_iff.mp h0)
    rw [if_neg heq, if_neg hgt, if_neg hne]

/-- Where a bit without an input is the highest, its number is taken for that of an input. -/
theorem inputCalls_of_upper (hb : bank < 6) (hthird : bank = 2 ∨ bank = 5)
    (hupper : (result ^^^ s.inportstatus bank) &&& 0xF0#8 ≠ 0)
    (hnone : result ^^^ s.inportstatus bank > 0x80#8 ∨
      ¬ s.Assigned (mask2int (result ^^^ s.inportstatus bank))) :
    s.inputCalls bank result = [] := by
  obtain ⟨hfour, height⟩ := highestBit_upper _ hupper
  have hraw := realIndex_unwired bank hb _ height hthird hfour
  rw [inputCalls, decodeChange]
  split_ifs with heq hgt
  · rfl
  · rfl
  · simp only [mask2int, hraw]
    exact (dispatchCalls_eq_nil_iff _ _ s).mpr (hnone.resolve_left hgt)

theorem UnwiredHarmless.calls (h : s.UnwiredHarmless bank result) (hb : bank < 6)
    (hthird : bank = 2 ∨ bank = 5) :
    s.inputCalls bank result = s.wiredCalls bank result ∧
      s.noted bank result &&& 0x0F#8 = result &&& 0x0F#8 := by
  by_cases hupper : (result ^^^ s.inportstatus bank) &&& 0xF0#8 = 0
  · rw [noted, if_neg (eq_lower _ hupper).2]
    exact ⟨inputCalls_of_lower hupper, rfl⟩
  · rcases h.resolve_left hupper with ⟨hlower, hnone⟩ | ⟨hgt, hraw, hinput⟩
    · have hwired : s.wiredCalls bank result = [] := by rw [wiredCalls, if_pos hlower]
      rw [inputCalls_of_upper hb hthird hupper hnone, hwired, noted]
      refine ⟨rfl, ?_⟩
      split_ifs
      · exact lower_eq_of_xor hlower
      · rfl
    · have hwired : s.wiredCalls bank result = [] := by
        rw [wiredCalls, (dispatchCalls_eq_nil_iff _ _ s).mpr hinput, ite_self]
      rw [inputCalls_of_upper hb hthird hupper (.inr hraw), hwired, noted, if_neg hgt]
      exact ⟨rfl, rfl⟩

/-- The calls for the inputs are the same in both runs. -/
theorem wiredCalls_congr {st : Banks} {r₁ r₂ : UCHAR}
    (hresult : r₁ &&& 0x0F#8 = r₂ &&& 0x0F#8)
    (hnoted : s.inportstatus bank &&& 0x0F#8 = st bank &&& 0x0F#8) :
    s.wiredCalls bank r₁ = (s.withInports st).wiredCalls bank r₂ := by
  have hst : (s.withInports st).inportstatus bank = st bank := rfl
  have hmask : (r₁ ^^^ s.inportstatus bank) &&& 0x0F#8 = (r₂ ^^^ st bank) &&& 0x0F#8 := by
    rw [xor_and_lower, hresult, hnoted, ← xor_and_lower]
  have hon : (r₂ ^^^ st bank) &&& 0x0F#8 &&& r₁ = (r₂ ^^^ st bank) &&& 0x0F#8 &&& r₂ := by
    rw [BitVec.and_assoc, BitVec.and_comm _ r₁, hresult, BitVec.and_comm r₂,
      ← BitVec.and_assoc]
  simp only [wiredCalls, hst, hmask, hon]
  rfl

/-! ## Runs -/

/-- A bank in which both runs make the same calls and note the same of all inputs. -/
theorem SameButUnwired.of_bank (h : SameButUnwired s t) {r₁ r₂ : UCHAR}
    (hcalls : s.inputCalls bank r₁ = t.inputCalls bank r₂)
    (hnoted : ∀ k < 40, (realBanks k).bank = bank → (s.noted bank r₁).getLsbD (realBanks k).index =
      (t.noted bank r₂).getLsbD (realBanks k).index) :
    SameButUnwired (s.monitorInputTask bank r₁) (t.monitorInputTask bank r₂) := by
  obtain ⟨st, rfl, hagree⟩ := h
  refine ⟨Function.update st bank ((s.withInports st).noted bank r₂), ?_, ?_⟩
  · rw [monitorInputTask_eq, monitorInputTask_eq, ← hcalls, setOutputs_withInports]
    rfl
  · intro k hk
    rw [inportstatus_monitorInputTask, Banks.bit, Banks.bit]
    by_cases hkb : (realBanks k).bank = bank
    · rw [hkb, Function.update_self, Function.update_self]
      exact hnoted k hk hkb
    · rw [Function.update_of_ne hkb, Function.update_of_ne hkb]
      exact hagree k hk

theorem SameButUnwired.step (h : SameButUnwired s t) (hb : bank < 6) (hab : AgreeOnWired a b)
    (hok : PairHarmless (s, t) (bank, a bank, b bank)) :
    s.inputCalls bank (a bank) = t.inputCalls bank (b bank) ∧
      SameButUnwired (s.monitorInputTask bank (a bank)) (t.monitorInputTask bank (b bank)) := by
  have hpair := h
  obtain ⟨st, rfl, hagree⟩ := h
  have hst : (s.withInports st).inportstatus bank = st bank := rfl
  have hip : (s.withInports st).ip = s.ip := rfl
  have hequal (hresult : a bank = b bank) (hnoted : s.inportstatus bank = st bank) :
      s.inputCalls bank (a bank) = (s.withInports st).inputCalls bank (b bank) ∧
        SameButUnwired (s.monitorInputTask bank (a bank))
          ((s.withInports st).monitorInputTask bank (b bank)) := by
    have hcalls : s.inputCalls bank (a bank) = (s.withInports st).inputCalls bank (b bank) := by
      simp only [inputCalls, dispatchCalls, hst, hip, hresult, hnoted]
    refine ⟨hcalls, hpair.of_bank hcalls fun k _ _ => ?_⟩
    simp only [noted, hst, hresult, hnoted]
  by_cases hthird : bank = 2 ∨ bank = 5
  · rcases hok hthird with ⟨hresult, hnoted⟩ | ⟨hfirst, hsecond⟩
    · exact hequal hresult hnoted
    · obtain ⟨hcalls₁, hnoted₁⟩ := hfirst.calls hb hthird
      obtain ⟨hcalls₂, hnoted₂⟩ := hsecond.calls hb hthird
      have hresult := hab.lower_eq hb
      have hcalls : s.inputCalls bank (a bank) = (s.withInports st).inputCalls bank (b bank) := by
        rw [hcalls₁, hcalls₂]
        exact wiredCalls_congr hresult (hagree.lower_eq hb)
      refine ⟨hcalls, hpair.of_bank hcalls ?_⟩
      intro k hk hkb
      have hfour : ∀ k < 40, (realBanks k).bank = 2 ∨ (realBanks k).bank = 5 →
          (realBanks k).index < 4 := by decide
      exact getLsbD_of_lower_eq ((hnoted₁.trans hresult).trans hnoted₂.symm)
        (hfour k hk (hkb ▸ hthird))
  · exact hequal (hab.bank_eq hb hthird) (hagree.bank_eq hb hthird)

/-- Some banks of a pair of samples. -/
theorem SameButUnwired.banks (hab : AgreeOnWired a b) {banks : List ℕ}
    (hbanks : ∀ bank ∈ banks, bank < 6) (h : SameButUnwired s t)
    (hok : Transition.Meets pairStep PairHarmless (s, t)
      (banks.map fun bank => (bank, a bank, b bank))) :
    Transition.reports readBank readCalls s (banks.map fun bank => (bank, a bank)) =
        Transition.reports readBank readCalls t (banks.map fun bank => (bank, b bank)) ∧
      SameButUnwired (Transition.exec readBank s (banks.map fun bank => (bank, a bank)))
        (Transition.exec readBank t (banks.map fun bank => (bank, b bank))) := by
  induction banks generalizing s t with
  | nil => exact ⟨rfl, h⟩
  | cons bank banks ih =>
      obtain ⟨hb, hrest⟩ := List.forall_mem_cons.mp hbanks
      obtain ⟨hcalls, hnext⟩ := h.step hb hab hok.1
      obtain ⟨hlater, hlast⟩ := ih hrest hnext hok.2
      refine ⟨?_, hlast⟩
      rw [List.map_cons, List.map_cons, Transition.reports, Transition.reports]
      exact congrArg₂ (· ++ ·) hcalls hlater

theorem exec_pairStep (banks : List ℕ) (s t : IoState) (a b : Banks) :
    Transition.exec pairStep (s, t) (banks.map fun bank => (bank, a bank, b bank)) =
      (Transition.exec readBank s (banks.map fun bank => (bank, a bank)),
        Transition.exec readBank t (banks.map fun bank => (bank, b bank))) := by
  induction banks generalizing s t with
  | nil => rfl
  | cons bank banks ih => exact ih _ _

theorem SameButUnwired.runCalls_eq {samples : List (Banks × Banks)} (h : SameButUnwired s t)
    (hwired : ∀ p ∈ samples, AgreeOnWired p.1 p.2)
    (hok : Transition.Meets pairStep PairHarmless (s, t) (samples.flatMap pairReads)) :
    s.runCalls (samples.map Prod.fst) = t.runCalls (samples.map Prod.snd) := by
  induction samples generalizing s t with
  | nil => rfl
  | cons p samples ih =>
      obtain ⟨hp, hrest⟩ := List.forall_mem_cons.mp hwired
      rw [List.flatMap_cons, Transition.meets_append] at hok
      obtain ⟨hcalls, hnext⟩ := h.banks hp (fun bank hb => List.mem_range.mp hb) hok.1
      have hlater := hok.2
      rw [pairReads, exec_pairStep] at hlater
      simp only [runCalls, List.map_cons, List.flatMap_cons, Transition.reports_append]
      exact congrArg₂ (· ++ ·) hcalls (ih hnext hrest hlater)

/-- Two runs over samples that agree at all inputs make the same calls in the same order, if
in each bank they see the same or what they see without an input does nothing. -/
theorem runCalls_eq_of_harmless (s : IoState) (samples : List (Banks × Banks))
    (hwired : ∀ p ∈ samples, AgreeOnWired p.1 p.2)
    (hok : Transition.Meets pairStep PairHarmless (s, s) (samples.flatMap pairReads)) :
    s.runCalls (samples.map Prod.fst) = s.runCalls (samples.map Prod.snd) :=
  SameButUnwired.runCalls_eq ⟨s.inportstatus, rfl, fun _ _ => rfl⟩ hwired hok

/-- The two highest bits of the third bank change together, and nothing is taken for them. -/
theorem runCalls_eq_odata :
    let s := (Controller.boot odata (fun _ => 0#8) 0).io
    let samples : List (Banks × Banks) :=
      [(fun _ => 0#8, Function.update (fun _ => 0#8) 2 0xC0#8)]
    s.runCalls (samples.map Prod.fst) = s.runCalls (samples.map Prod.snd) := by
  intro s samples
  apply runCalls_eq_of_harmless s samples
  · decide +kernel
  · simp only [s, samples, Controller.boot, initIps_odata]
    decide +kernel

/-- Bit 6 of the third bank is taken for the fan's switch. -/
theorem not_runCalls_eq_odata :
    let s := (Controller.boot odata (fun _ => 0#8) 0).io
    let samples : List (Banks × Banks) :=
      [(fun _ => 0#8, Function.update (fun _ => 0#8) 2 (1#8 <<< coolingfanInput))]
    (∀ p ∈ samples, AgreeOnWired p.1 p.2) ∧ s.runCalls (samples.map Prod.fst) = [] ∧
      s.runCalls (samples.map Prod.snd) = [(coolingfan, true)] := by
  intro s samples
  refine ⟨by decide +kernel, ?_, ?_⟩
  · simp only [s, samples, Controller.boot, initIps_odata]
    decide +kernel
  · simp only [s, samples, Controller.boot, initIps_odata]
    decide +kernel

end IoState

end TruckControl
