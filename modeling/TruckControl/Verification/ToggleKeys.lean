import TruckControl.Model.Odata
import TruckControl.Model.Truck
import TruckControl.Verification.Drain
import TruckControl.Verification.SwitchCommands

/-!
# The keys that work like a toggle

`serial_recv_task` remembers in flags of its own what it has switched by keys, and nobody
else writes them. A key toggles its outputs only while the flag agrees with what the poll has
last seen of the input, and with the outputs.
-/

namespace TruckControl

open InputType OutputType

namespace Relay

/-- An edge of the driving input switches the relay over. -/
def Flips (r : Relay) (onoff : Bool) : Prop :=
  r.datap.type = 0#8 ∧ (r.hw = onoff ↔ r.datap.polarity = 1#8) ∨
    r.datap.type = 1#8 ∧ r.datap.reset = 0#8 ∧ r.hw = decide (r.datap.onoff = 1#8) ∨
    (r.datap.type = 2#8 ∨ r.datap.type = 3#8) ∧ r.datap.reset = 0#8 ∧ r.hw = false ∨
    r.datap.type = 4#8 ∧ r.datap.reset = 0#8 ∧ r.hw = true

instance (r : Relay) (onoff : Bool) : Decidable (r.Flips onoff) :=
  inferInstanceAs (Decidable (_ ∨ _ ∨ _ ∨ _))

theorem hw_setOutput_eq_not_iff (r : Relay) (onoff : Bool) :
    (r.setOutput onoff).hw = !r.hw ↔ r.Flips onoff := by
  rw [setOutput, Flips]
  split_ifs with h0 hpol h1 hr0 hr1 h23 hr0 h4 hr0 hr1
  · cases onoff <;> cases r.hw <;> simp [h0, hpol]
  · cases onoff <;> cases r.hw <;> simp [h0, hpol]
  · by_cases hon : r.datap.onoff = 1#8 <;> cases r.hw <;> simp [h1, hr0, hon]
  · simp [h1, hr1]
  · simp [h1, hr0]
  · rcases h23 with h | h <;> cases r.hw <;> simp [h, hr0]
  · rcases h23 with h | h <;> simp [h, hr0]
  · cases r.hw <;> simp [h4, hr0]
  · simp [h4, hr1]
  · simp [h4, hr0]
  · rw [not_or] at h23
    simp [h0, h1, h23, h4]

end Relay

namespace Controller

variable {db : Database} {c : Controller} {e : Event}

/-! ## Requests on their way to the outputs -/

/-- A request drives no relay. -/
theorem hw_act_request (r : Relay) (k p : ℕ) (onoff : Bool) (outputs : List ℕ) :
    (r.act ((Block.requestInput k onoff outputs).action p)).hw = r.hw := by
  rw [Block.action]
  split_ifs <;> rfl

theorem hw_marks {p : ℕ} {blocks : List Block}
    (h : ∀ block ∈ blocks, ∃ k onoff outputs, block = .requestInput k onoff outputs) (r : Relay) :
    (marks p r blocks).hw = r.hw := by
  induction blocks generalizing r with
  | nil => rfl
  | cons block blocks ih =>
      obtain ⟨⟨k, onoff, outputs, rfl⟩, hrest⟩ := List.forall_mem_cons.mp h
      exact (ih hrest _).trans (hw_act_request r k p onoff outputs)

theorem drains_ne (he : Drains e) :
    e ≠ .timerTask ∧ ∀ bank result, e ≠ .monitorInputTask bank result := by
  cases e with
  | timerTask => exact he.elim
  | monitorInputTask bank result => exact he.elim
  | _ => exact ⟨by simp, by simp⟩

/-- Without a command and without an answer of the poll, nothing moves. -/
theorem unmoved_step (hc : c.WellFormed db) (hclean : c.io.Clean) (he : Drains e)
    (hno : ∀ block, ¬ Executes block c e)
    (hquiet : ∀ k onoff, e = .monitorFakeInputTask 0 → c.io.pollEdge 0 ≠ some (k, onoff)) :
    (∀ j < 7, (c.step e).io.seen j = c.io.seen j ∧ (c.step e).io.asked j = c.io.asked j) ∧
      ∀ p < 40, db.input p < 7 → (c.step e).io.relay p = c.io.relay p := by
  refine ⟨?_, ?_⟩
  · intro j hj
    cases shadowStep hc e (Nat.lt_succ_of_lt hj) with
    | unchanged hseen hasked => exact ⟨hseen, hasked⟩
    | requested block onoff hexec hrequest hseen hasked => exact absurd hexec (hno block)
    | answered k onoff hpoll hedge hpending hseen hasked =>
        exact absurd hedge (hquiet k onoff hpoll)
    | expired htick hexpires hseen hasked => exact absurd htick (drains_ne he).1
    | takenBack htick hinput hseen hasked => exact absurd htick (drains_ne he).1
  · intro p hp hin
    rw [relay_step hc e hp]
    rcases action_cases db c e p with ⟨block, hex, -⟩ | heq | ⟨onoff, hedge, -⟩ | ⟨htick, -, -⟩
    · exact absurd hex (hno block)
    · rw [heq]
      rfl
    · obtain ⟨hpoll, hanswer⟩ := poll_of_edge hclean (drains_ne he).2 (Nat.lt_succ_of_lt hin) hedge
      exact absurd hanswer (hquiet _ onoff hpoll)
    · exact absurd htick (drains_ne he).1

/-- All that is left to execute are requests, and those of the input are for this level. -/
def AsksOnly (c : Controller) (i : ℕ) (onoff : Bool) : Prop :=
  ∀ block ∈ c.work, ∃ k v outputs, block = .requestInput k v outputs ∧ (k = i → v = onoff)

theorem AsksOnly.step {i : ℕ} {onoff : Bool} (h : AsksOnly c i onoff) (he : Drains e) :
    AsksOnly (c.step e) i onoff := by
  intro block hmem
  apply h
  cases workStep c he with
  | kept hno hwork => rwa [hwork] at hmem
  | executed block hex hwork =>
      rw [hwork]
      exact List.mem_cons_of_mem _ hmem

/-- An input that is requested as it was last seen brings no edge. -/
theorem hwBit_step_of_seen (hc : c.WellFormed db) (hclean : c.io.Clean) {p : ℕ} (hp : p < 40)
    (hi : db.input p < 7) {onoff : Bool} (hwork : AsksOnly c (db.input p) onoff)
    (hseen : c.io.seen (db.input p) = onoff) (hasked : c.io.asked (db.input p) = onoff)
    (he : Drains e) :
    (c.step e).io.hwBit p = c.io.hwBit p ∧ (c.step e).io.seen (db.input p) = onoff ∧
      (c.step e).io.asked (db.input p) = onoff := by
  have hpend : ¬ c.io.Pending (db.input p) := fun h => h (hasked.trans hseen.symm)
  have hrequest {block : Block} (hex : Executes block c e) :
      ∃ k v outputs, block = .requestInput k v outputs ∧ (k = db.input p → v = onoff) := by
    apply hwork
    obtain ⟨todo, htodo⟩ := List.head?_eq_some_iff.mp hex.2
    rw [work, htodo]
    exact List.mem_cons_self
  have hhw : (c.step e).io.hwBit p = c.io.hwBit p := by
    change (IoState.relay _ p).hw = (c.io.relay p).hw
    rw [relay_step hc e hp]
    rcases action_cases db c e p with ⟨block, hex, hact⟩ | hact | ⟨v, hedge, -⟩ | ⟨htick, -, -⟩
    · obtain ⟨k, v, outputs, rfl, -⟩ := hrequest hex
      rw [hact]
      exact hw_act_request _ k p v outputs
    · rw [hact]
      rfl
    · exact absurd hedge
        (edge_ne_of_settled hclean (drains_ne he).2 (Nat.lt_succ_of_lt hi) hpend v)
    · exact absurd htick (drains_ne he).1
  refine ⟨hhw, ?_⟩
  cases shadowStep hc e (Nat.lt_succ_of_lt hi) with
  | unchanged hseen' hasked' => exact ⟨hseen'.trans hseen, hasked'.trans hasked⟩
  | requested block v hexec hreq hseen' hasked' =>
      obtain ⟨k, v', outputs, rfl, hlevel⟩ := hrequest hexec
      obtain ⟨rfl, rfl⟩ := Prod.mk.inj (Option.some.inj hreq)
      exact ⟨hseen'.trans hseen, hasked'.trans (hlevel rfl)⟩
  | answered k v hpoll hedge hpending hseen' hasked' => exact absurd hpending hpend
  | expired htick hexpires hseen' hasked' => exact absurd htick (drains_ne he).1
  | takenBack htick hinput hseen' hasked' => exact absurd htick (drains_ne he).1

theorem hwBit_exec_of_seen (hc : c.WellFormed db) (hclean : c.io.Clean) {p : ℕ} (hp : p < 40)
    (hi : db.input p < 7) {onoff : Bool} (hwork : AsksOnly c (db.input p) onoff)
    (hseen : c.io.seen (db.input p) = onoff) (hasked : c.io.asked (db.input p) = onoff)
    {es : List Event} (hes : ∀ e ∈ es, Drains e) :
    (Transition.exec step c es).io.hwBit p = c.io.hwBit p := by
  induction es generalizing c with
  | nil => rfl
  | cons e es ih =>
      obtain ⟨he, hrest⟩ := List.forall_mem_cons.mp hes
      obtain ⟨hhw, hseen', hasked'⟩ :=
        hwBit_step_of_seen hc hclean hp hi hwork hseen hasked he
      rw [Transition.exec_cons, ih (wellFormed_step hc e) (clean_step hc hclean e)
        (hwork.step he) hseen' hasked' hrest, hhw]

/-! ## A request that is answered -/

/-- How far the last request has come: it waits behind requests that are settled already, or
it is pending, or the poll has answered it. Without the poll the output would be `r`. -/
inductive Progress (i p : ℕ) (onoff : Bool) (r : Relay) (c : Controller) : Prop where
  | waits (front : List Block) (outputs : List ℕ)
      (hwork : c.work = front ++ [.requestInput i onoff outputs])
      (hfront : ∀ block ∈ front, ∃ k v outputs, block = .requestInput k v outputs ∧ k < 7 ∧
        k ≠ i ∧ c.io.seen k = v)
      (hseen : c.io.seen i ≠ onoff) (hsettled : ¬ c.io.Pending i)
      (hrelay : marks p (c.io.relay p) c.work = r)
  | pending (hwork : c.work = []) (hseen : c.io.seen i ≠ onoff) (hasked : c.io.asked i = onoff)
      (hrelay : c.io.relay p = r)
  | answered (hwork : c.work = []) (hsettled : ¬ c.io.Pending i)
      (hrelay : c.io.relay p = r.setOutput onoff)

/-- No other input of the first bank is pending. -/
def Alone (i : ℕ) (c : Controller) : Prop := ∀ j < 7, j ≠ i → ¬ c.io.Pending j

section

variable {p : ℕ} {onoff : Bool} {r : Relay}

theorem executes_work {block : Block} (hex : Executes block c e) : c.work ≠ [] := by
  obtain ⟨todo, htodo⟩ := List.head?_eq_some_iff.mp hex.2
  rw [work, htodo]
  simp

/-- Nothing moves while the input is not pending and no command is executed. -/
theorem Progress.unmoved (hc : c.WellFormed db) (hclean : c.io.Clean) (hp : p < 40)
    (hi : db.input p < 7) (halone : Alone (db.input p) c)
    (hpend : ¬ c.io.Pending (db.input p)) (h : Progress (db.input p) p onoff r c) (he : Drains e)
    (hno : ∀ block, ¬ Executes block c e) (hwork : (c.step e).work = c.work) :
    Alone (db.input p) (c.step e) ∧ Progress (db.input p) p onoff r (c.step e) := by
  have hsettled (j : ℕ) (hj : j < 7) : ¬ c.io.Pending j := by
    by_cases hji : j = db.input p
    · rwa [hji]
    · exact halone j hj hji
  obtain ⟨hbits, hrelays⟩ := unmoved_step hc hclean he hno fun k _ _ hedge =>
    hsettled k (hclean.pollEdge_zero_iff.mp hedge).1 (hclean.pollEdge_zero_iff.mp hedge).2.1
  have hrelay := hrelays p hp hi
  have hpending (j : ℕ) (hj : j < 7) : ¬ (c.step e).io.Pending j := by
    rw [IoState.Pending, (hbits j hj).1, (hbits j hj).2]
    exact hsettled j hj
  refine ⟨fun j hj _ => hpending j hj, ?_⟩
  cases h with
  | waits front outputs hfirst hfront hseen hsettled' hmarks =>
      refine .waits front outputs (hwork.trans hfirst) ?_ ?_ (hpending _ hi) ?_
      · intro block hblock
        obtain ⟨k, v, outs, hreq, hk, hki, hkv⟩ := hfront block hblock
        exact ⟨k, v, outs, hreq, hk, hki, (hbits k hk).1.trans hkv⟩
      · rw [(hbits _ hi).1]
        exact hseen
      · rw [hrelay, hwork]
        exact hmarks
  | pending hnone hseen hasked hmarks =>
      exact absurd (fun heq => hseen (heq.symm.trans hasked)) hpend
  | answered hnone hsettled' hmarks =>
      exact .answered (hwork.trans hnone) (hpending _ hi) (hrelay.trans hmarks)

/-- A block of the requests that wait is executed. -/
theorem Progress.executed (hc : c.WellFormed db) (hp : p < 40) (hi : db.input p < 40)
    (halone : Alone (db.input p) c) (h : Progress (db.input p) p onoff r c) {block : Block}
    (hex : Executes block c e) (hwork : c.work = block :: (c.step e).work) :
    Alone (db.input p) (c.step e) ∧ Progress (db.input p) p onoff r (c.step e) := by
  cases h with
  | pending hnone hseen hasked hmarks => exact absurd hnone (executes_work hex)
  | answered hnone hsettled hmarks => exact absurd hnone (executes_work hex)
  | waits front outputs hfirst hfront hseen hsettled hmarks =>
      have hrelay : (c.step e).io.relay p = (c.io.relay p).act (block.action p) := by
        rw [relay_step hc e hp, action_of_executes hex]
      have hmarks' : marks p ((c.step e).io.relay p) (c.step e).work = r := by
        rw [hrelay, ← hmarks, hwork]
        rfl
      rw [hwork] at hfirst
      cases front with
      | nil =>
          obtain ⟨rfl, hrest⟩ := List.cons_eq_cons.mp hfirst
          have hbits (j : ℕ) (hj : j < 40) := shadow_of_request hc hex (j := j) rfl hj
          refine ⟨?_, .pending hrest ?_ ?_ ?_⟩
          · intro j hj hji
            obtain ⟨hseen', hasked'⟩ := hbits j (Nat.lt_trans hj (by decide))
            rw [IoState.Pending, hseen', hasked', if_neg hji]
            exact halone j hj hji
          · rw [(hbits _ hi).1]
            exact hseen
          · rw [(hbits _ hi).2]
            exact if_pos rfl
          · rw [hrest] at hmarks'
            exact hmarks'
      | cons first front =>
          obtain ⟨rfl, hrest⟩ := List.cons_eq_cons.mp hfirst
          obtain ⟨⟨k, v, outs, rfl, hk, hki, hkv⟩, hfront'⟩ := List.forall_mem_cons.mp hfront
          have hbits (j : ℕ) (hj : j < 40) := shadow_of_request hc hex (j := j) rfl hj
          refine ⟨?_, .waits front outputs hrest ?_ ?_ ?_ hmarks'⟩
          · intro j hj hji
            obtain ⟨hseen', hasked'⟩ := hbits j (Nat.lt_trans hj (by decide))
            rw [IoState.Pending, hseen', hasked']
            by_cases hjk : j = k
            · rw [if_pos hjk, hjk, hkv]
              simp
            · rw [if_neg hjk]
              exact halone j hj hji
          · intro b hb
            obtain ⟨k', v', outs', hreq, hk', hki', hkv'⟩ := hfront' b hb
            refine ⟨k', v', outs', hreq, hk', hki', ?_⟩
            rw [(hbits k' (Nat.lt_trans hk' (by decide))).1]
            exact hkv'
          · rw [(hbits _ hi).1]
            exact hseen
          · obtain ⟨hseen', hasked'⟩ := hbits _ hi
            rw [IoState.Pending, hseen', hasked', if_neg (Ne.symm hki)]
            exact hsettled

/-- A pending request stays so until the poll answers it, as it was asked. -/
theorem Progress.polled (hc : c.WellFormed db) (hclean : c.io.Clean) (hp : p < 40)
    (hi : db.input p < 7) (halone : Alone (db.input p) c) (hnone : c.work = [])
    (hseen : c.io.seen (db.input p) ≠ onoff) (hasked : c.io.asked (db.input p) = onoff)
    (hrelay : c.io.relay p = r) (he : Drains e) (hno : ∀ block, ¬ Executes block c e)
    (hwork : (c.step e).work = c.work) :
    Alone (db.input p) (c.step e) ∧ Progress (db.input p) p onoff r (c.step e) := by
  have hpend : c.io.Pending (db.input p) := fun heq => hseen (heq.symm.trans hasked)
  by_cases hedge : ∃ v, c.edge e = some (db.input p, v)
  · obtain ⟨v, hedge⟩ := hedge
    obtain ⟨rfl, hpoll⟩ := poll_of_edge hclean (drains_ne he).2 (Nat.lt_succ_of_lt hi) hedge
    obtain ⟨-, -, -, hv⟩ := hclean.pollEdge_zero_iff.mp hpoll
    have hlevel : v = onoff := by
      rw [Bool.eq_iff_iff, hv, ← hasked]
      constructor
      · intro hall
        exact hall _ hi hpend
      · intro hon j hj hpending
        by_cases hji : j = db.input p
        · rwa [hji]
        · exact absurd hpending (halone j hj hji)
    have hsettled (j : ℕ) (hj : j < 7) :
        ¬ (c.step (.monitorFakeInputTask 0)).io.Pending j := by
      have hbank : (realBanks j).bank = 0 := by rw [realBanks_of_lt j (Nat.lt_succ_of_lt hj)]
      obtain ⟨hasked', hseen'⟩ :=
        IoState.pollBits hc.io (by decide) hpoll (Nat.lt_trans hj (by decide)) hbank
      exact not_not.mpr (hasked'.trans hseen'.symm)
    refine ⟨fun j hj _ => hsettled j hj, .answered (hwork.trans hnone) (hsettled _ hi) ?_⟩
    rw [relay_step hc _ hp, action_of_edge hedge, hrelay, hlevel, Relay.act]
  · have hquiet (k : ℕ) (v : Bool) (hpoll : e = .monitorFakeInputTask 0) :
        c.io.pollEdge 0 ≠ some (k, v) := by
      subst hpoll
      intro hanswer
      obtain ⟨hk, hkpend, -, -⟩ := hclean.pollEdge_zero_iff.mp hanswer
      have hki : k = db.input p := by
        by_contra hne
        exact halone k hk hne hkpend
      exact hedge ⟨v, hki ▸ hanswer⟩
    obtain ⟨hbits, hrelays⟩ := unmoved_step hc hclean he hno hquiet
    refine ⟨?_, .pending (hwork.trans hnone) ?_ ?_ ((hrelays p hp hi).trans hrelay)⟩
    · intro j hj hji
      rw [IoState.Pending, (hbits j hj).1, (hbits j hj).2]
      exact halone j hj hji
    · rw [(hbits _ hi).1]
      exact hseen
    · exact (hbits _ hi).2.trans hasked

theorem Progress.next (hc : c.WellFormed db) (hclean : c.io.Clean) (hp : p < 40)
    (hi : db.input p < 7) (halone : Alone (db.input p) c)
    (h : Progress (db.input p) p onoff r c) (he : Drains e) :
    Alone (db.input p) (c.step e) ∧ Progress (db.input p) p onoff r (c.step e) := by
  cases workStep c he with
  | executed block hex hwork =>
      exact h.executed hc hp (Nat.lt_trans hi (by decide)) halone hex hwork
  | kept hno hwork =>
      cases h with
      | waits front outputs hfirst hfront hseen hsettled hmarks =>
          exact Progress.unmoved hc hclean hp hi halone hsettled
            (.waits front outputs hfirst hfront hseen hsettled hmarks) he hno hwork
      | answered hnone hsettled hmarks =>
          exact Progress.unmoved hc hclean hp hi halone hsettled (.answered hnone hsettled hmarks)
            he hno hwork
      | pending hnone hseen hasked hmarks =>
          exact Progress.polled hc hclean hp hi halone hnone hseen hasked hmarks he hno hwork

/-- Once nothing is left, the request has been answered. -/
theorem Progress.relay_of_idle (hc : c.WellFormed db) (hclean : c.io.Clean) (hp : p < 40)
    (hi : db.input p < 7) (halone : Alone (db.input p) c)
    (h : Progress (db.input p) p onoff r c) {es : List Event} (hes : ∀ e ∈ es, Drains e)
    (hidle : Idle (Transition.exec step c es)) :
    (Transition.exec step c es).io.relay p = r.setOutput onoff := by
  induction es generalizing c with
  | nil =>
      cases h with
      | waits front outputs hfirst hfront hseen hsettled hmarks =>
          have hnil : front ++ [Block.requestInput (db.input p) onoff outputs] = [] :=
            hfirst.symm.trans hidle.work
          simp at hnil
      | pending hnone hseen hasked hmarks =>
          have hsettled := hidle.not_pending (Nat.lt_trans hi (by decide))
          exact absurd (fun heq => hseen (heq.symm.trans hasked)) hsettled
      | answered hnone hsettled hmarks => exact hmarks
  | cons e es ih =>
      obtain ⟨he, hrest⟩ := List.forall_mem_cons.mp hes
      obtain ⟨halone', h'⟩ := h.next hc hclean hp hi halone he
      exact ih (wellFormed_step hc e) (clean_step hc hclean e) halone' h' hrest hidle

end

end Controller

/-! ## The keys -/

namespace Keypad

/-- The input that a toggle key asks for. -/
def toggleInput : KeyType → Option ℕ
  | .kp4 => some coolingfanInput
  | .kp6 => some runningLightsInput
  | .kp7 => some headlampInput
  | _ => none

/-- What `serial_recv_task` remembers of a toggle key. -/
def flag (k : Keypad) : KeyType → ℕ
  | .kp4 => k.fanOn
  | .kp6 => k.runningLights
  | .kp7 => k.lightsOn
  | _ => 0

/-- The level that the next press asks for. -/
def level (k : Keypad) (key : KeyType) : Bool := k.flag key = 0

/-- The key of the headlamps takes the brights back that were switched on by key. -/
def WithBrights (k : Keypad) (key : KeyType) : Prop := key = .kp7 ∧ k.brights = 1

instance (k : Keypad) (key : KeyType) : Decidable (k.WithBrights key) :=
  inferInstanceAs (Decidable (_ ∧ _))

/-- The blocks of the commands of a press, in the order of their execution. -/
def blocks (k : Keypad) (key : KeyType) : List Block :=
  (k.serialRecvTask key.toByte).2.reverse.flatMap basicControls

variable {k : Keypad} {key : KeyType} {i : ℕ}

theorem ofByte_toByte (key : KeyType) : KeyType.ofByte key.toByte = some key := by
  cases key <;> decide

theorem blocks_eq (hkey : toggleInput key = some i) :
    ∃ front outputs, k.blocks key = front ++ [.requestInput i (k.level key) outputs] ∧
      (¬ k.WithBrights key ∧ front = [] ∨
        k.WithBrights key ∧ front = [.requestInput brightsInput false [lbrights, rbrights]]) := by
  have hbyte := ofByte_toByte key
  cases key <;> simp only [toggleInput, reduceCtorEq, Option.some.injEq] at hkey
  all_goals
    subst hkey
    simp only [blocks, serialRecvTask, hbyte]
  · by_cases hflag : k.fanOn = 0 <;> simp [hflag, level, flag, WithBrights, basicControls]
  · by_cases hflag : k.runningLights = 0 <;> simp [hflag, level, flag, WithBrights, basicControls]
  · by_cases hbrights : k.brights = 1
    · refine ⟨[.requestInput brightsInput false [lbrights, rbrights]], [lheadlamp, rheadlamp], ?_,
        .inr ⟨⟨rfl, hbrights⟩, rfl⟩⟩
      by_cases hflag : k.lightsOn = 0 <;> simp [hflag, hbrights, level, flag, basicControls]
    · refine ⟨[], [lheadlamp, rheadlamp], ?_, .inl ⟨fun h => hbrights h.2, rfl⟩⟩
      by_cases hflag : k.lightsOn = 0 <;> simp [hflag, hbrights, level, flag, basicControls]

/-- A press of a toggle key brings one or two commands on the queue, which all ask for an
input. -/
theorem serialRecvTask_toggle (hkey : toggleInput key = some i) :
    (k.serialRecvTask key.toByte).2.length ≤ 2 ∧
      ∀ cmd ∈ (k.serialRecvTask key.toByte).2, Controller.Requests cmd := by
  have hbyte := ofByte_toByte key
  refine ⟨?_, ?_⟩
  · rw [serialRecvTask, hbyte]
    cases key <;> simp only [toggleInput, reduceCtorEq] at hkey
    all_goals
      dsimp only
      split_ifs <;> simp
  · intro cmd hcmd
    obtain ⟨key', hkey', c, hc, rfl⟩ := mem_serialRecvTask hcmd
    obtain rfl : key = key' := Option.some.inj (hbyte.symm.trans hkey')
    have hall : ∀ key, toggleInput key ≠ none → ∀ c ∈ keyCommands key,
        switchCommand c ≠ none := by
      intro key
      cases key <;> decide
    have hswitch := hall key (by simp [hkey]) c hc
    obtain ⟨⟨j, onoff⟩, hr⟩ := Option.ne_none_iff_exists'.mp hswitch
    obtain ⟨hj, outputs, hblock⟩ := basicControls_switchCommand hr
    exact ⟨_, hblock, j, onoff, rfl, hj⟩

end Keypad

namespace Truck

variable {db : Database} {t : Truck}

/-- Commands that find room wait on the queue. -/
theorem addMsgQueues_eq (cmds : List UCHAR) (c : Controller)
    (hroom : c.io.msgQueue.ptr + cmds.length ≤ msgQueueSize) :
    ∃ q : MsgQueue, q.waiting = c.io.msgQueue.waiting ++ cmds ∧
      addMsgQueues cmds c = { c with io := { c.io with msgQueue := q } } := by
  induction cmds generalizing c with
  | nil => exact ⟨c.io.msgQueue, by simp, rfl⟩
  | cons cmd cmds ih =>
      rw [List.length_cons] at hroom
      have hone : c.io.msgQueue.ptr < msgQueueSize := by omega
      have hptr : (c.io.msgQueue.addMsgQueue cmd).ptr = c.io.msgQueue.ptr + 1 := by
        rw [MsgQueue.addMsgQueue, if_pos hone]
      obtain ⟨q, hq, heq⟩ := ih (c.step (.addMsgQueue cmd)) (by
        change (c.io.msgQueue.addMsgQueue cmd).ptr + cmds.length ≤ msgQueueSize
        omega)
      refine ⟨q, ?_, heq⟩
      have hwaiting : (c.step (.addMsgQueue cmd)).io.msgQueue.waiting =
          c.io.msgQueue.waiting ++ [cmd] := c.io.msgQueue.waiting_addMsgQueue cmd hone
      rw [hq, hwaiting, List.append_assoc, List.singleton_append]

/-- The server takes no steps but its own. -/
theorem server_step (t : Truck) (e : TruckEvent) :
    ∃ es, (t.step e).server = Transition.exec Controller.step t.server es := by
  cases e with
  | server e =>
      by_cases he : ∀ cmd, e ≠ .addMsgQueue cmd
      · obtain ⟨cmds, -, hstep⟩ := t.step_server he
        exact ⟨[e], by rw [hstep, Transition.exec_cons, Transition.exec_nil]⟩
      · simp only [not_forall, not_not] at he
        obtain ⟨cmd, rfl⟩ := he
        exact ⟨[], rfl⟩
  | hostAddMsgQueue =>
      cases hhost : t.host with
      | none => exact ⟨[], by rw [step, hhost, Transition.exec_nil]⟩
      | some cmd => exact ⟨[.addMsgQueue cmd], by rw [step, hhost]; rfl⟩
  | serialRecvTask =>
      cases hline : t.toServer with
      | nil => exact ⟨[], by rw [step, hline, Transition.exec_nil]⟩
      | cons cmd rest =>
          refine ⟨(t.keypad.serialRecvTask cmd).2.map .addMsgQueue, ?_⟩
          rw [step, hline, Transition.exec, List.foldl_map]
          rfl
  | hostCmd cmd buf =>
      refine ⟨[], ?_⟩
      rw [step, Transition.exec_nil]
      split_ifs <;> rfl
  | sendSerialother frame =>
      refine ⟨[], ?_⟩
      rw [step, Transition.exec_nil]
      split_ifs <;> rfl
  | startRecv7200 =>
      cases hline : t.toStm32 with
      | nil => exact ⟨[], by rw [step, hline, Transition.exec_nil]⟩
      | cons frame rest => exact ⟨[], by rw [step, hline, Transition.exec_nil]⟩
  | startDefaultTask key => exact ⟨[], rfl⟩
  | callback01 rawData => exact ⟨[], rfl⟩
  | startRecvFPGA => exact ⟨[], rfl⟩
  | startTask7200 => exact ⟨[], rfl⟩

theorem Reachable.server (h : Reachable db t) : Controller.Reachable db t.server := by
  refine Transition.Reachable.invariant (I := fun t => Controller.Reachable db t.server) ?_ ?_ h
  · rintro t ⟨inports, lightsOnDelay, sendBuffer, rfl⟩
    exact .boot db inports lightsOnDelay
  · intro t e _ hserver
    obtain ⟨es, hes⟩ := server_step t e
    rw [hes]
    exact hserver.after es

/-! ## One press -/

/-- What `serial_recv_task` remembers of the key is the level that the poll has last seen of
its input, no brights are taken back that the poll has seen as on, and the outputs are such
that the edge switches them over. -/
def KeyAgrees (db : Database) (t : Truck) (key : KeyType) (i : ℕ) : Prop :=
  ∀ p < 40, db.input p = i →
    t.server.io.seen i ≠ t.keypad.level key ∧
      (t.keypad.WithBrights key → t.server.io.seen brightsInput = false) ∧
      (Controller.marks p (t.server.io.relay p) (t.keypad.blocks key)).Flips (t.keypad.level key)

instance (db : Database) (t : Truck) (key : KeyType) (i : ℕ) : Decidable (KeyAgrees db t key i) :=
  inferInstanceAs (Decidable (∀ p < 40, db.input p = i → _ ∧ _ ∧ _))

/-- The server right after a press of a toggle key, which found it at rest. -/
structure Pressed (db : Database) (t : Truck) (key : KeyType) (i : ℕ) (c : Controller) :
    Prop where
  wellFormed : c.WellFormed db
  clean : c.io.Clean
  todo : c.todo = []
  waiting : c.io.msgQueue.waiting = (t.keypad.serialRecvTask key.toByte).2
  relay : ∀ p, c.io.relay p = t.server.io.relay p
  seen : c.io.fakeInportstatus1 = t.server.io.fakeInportstatus1
  inputs : ∀ bank < 6, c.io.fakeInportstatus2 bank = c.io.fakeInportstatus1 bank
  key : Keypad.toggleInput key = some i

theorem Reachable.pressed (ht : Reachable db t) {key : KeyType} {i : ℕ}
    (hkey : Keypad.toggleInput key = some i) (hline : t.toServer.head? = some key.toByte)
    (htodo : t.server.todo = []) (hqueue : t.server.io.msgQueue.waiting = [])
    (hinputs : ∀ bank < 6,
      t.server.io.fakeInportstatus2 bank = t.server.io.fakeInportstatus1 bank) :
    Pressed db t key i (t.step .serialRecvTask).server := by
  obtain ⟨rest, hrest⟩ := List.head?_eq_some_iff.mp hline
  have hroom : t.server.io.msgQueue.ptr + (t.keypad.serialRecvTask key.toByte).2.length ≤
      msgQueueSize := by
    have hlength := (Keypad.serialRecvTask_toggle (k := t.keypad) hkey).1
    have hptr := t.server.io.msgQueue.waiting_eq_nil_iff.mp hqueue
    have hsize : msgQueueSize = 50 := rfl
    omega
  obtain ⟨q, hq, hadd⟩ := addMsgQueues_eq _ t.server hroom
  have hserver : (t.step .serialRecvTask).server =
      { t.server with io := { t.server.io with msgQueue := q } } := by
    rw [step, hrest]
    exact hadd
  have hreach : Controller.Reachable db (t.step .serialRecvTask).server :=
    Reachable.server (Transition.Reachable.after_one ht .serialRecvTask)
  refine ⟨hreach.wellFormed, hreach.clean, ?_, ?_, ?_, ?_, ?_, hkey⟩
  · rw [hserver]
    exact htodo
  · rw [hserver, hq, hqueue, List.nil_append]
  · intro p
    rw [hserver]
    rfl
  · rw [hserver]
  · rw [hserver]
    exact hinputs

namespace Pressed

variable {key : KeyType} {i p : ℕ} {c : Controller}

theorem work (h : Pressed db t key i c) : c.work = t.keypad.blocks key := by
  rw [Controller.work, h.todo, List.nil_append, IoState.waitingBlocks, h.waiting, Keypad.blocks]

theorem not_pending (h : Pressed db t key i c) {j : ℕ} (hj : j < 40) : ¬ c.io.Pending j := by
  rw [IoState.Pending, IoState.asked, IoState.seen, Banks.bit, Banks.bit,
    h.inputs _ (realBanks_bank_lt j hj), not_not]

theorem seen_eq (h : Pressed db t key i c) (j : ℕ) : c.io.seen j = t.server.io.seen j := by
  rw [IoState.seen, h.seen, IoState.seen]

theorem input_lt (h : Pressed db t key i c) : i < 7 ∧ i ≠ brightsInput := by
  have hall : ∀ key, ∀ i ∈ Keypad.toggleInput key, i < 7 ∧ i ≠ brightsInput := by
    intro key
    cases key <;> decide
  exact hall key i h.key

theorem hw_marks (h : Pressed db t key i c) :
    (Controller.marks p (t.server.io.relay p) (t.keypad.blocks key)).hw =
      t.server.io.hwBit p := by
  obtain ⟨front, outputs, hblocks, hfront⟩ := Keypad.blocks_eq (k := t.keypad) h.key
  apply Controller.hw_marks
  intro block hblock
  rw [hblocks] at hblock
  rcases List.mem_append.mp hblock with hmem | hmem
  · rcases hfront with ⟨-, rfl⟩ | ⟨-, rfl⟩
    · cases hmem
    · exact ⟨_, _, _, List.mem_singleton.mp hmem⟩
  · exact ⟨_, _, _, List.mem_singleton.mp hmem⟩

/-- The schedule that executes all commands first and polls then. -/
def schedule (t : Truck) (key : KeyType) : List Event :=
  Controller.rounds (t.keypad.serialRecvTask key.toByte).2.length ++ [.monitorFakeInputTask 0]

theorem drains_schedule (t : Truck) (key : KeyType) :
    ∀ e ∈ schedule t key, Controller.Drains e := by
  intro e he
  rcases List.mem_append.mp he with hmem | hmem
  · rw [Controller.rounds, List.mem_flatten] at hmem
    obtain ⟨round, hround, hmem⟩ := hmem
    rw [List.eq_of_mem_replicate hround] at hmem
    simp only [List.mem_cons, List.not_mem_nil, or_false] at hmem
    rcases hmem with rfl | rfl <;> trivial
  · rw [List.mem_singleton.mp hmem]
    trivial

theorem executed (h : Pressed db t key i c) : c.Executed (Transition.exec Controller.step c
    (Controller.rounds (t.keypad.serialRecvTask key.toByte).2.length)) :=
  Controller.exec_rounds _ h.wellFormed h.todo (congrArg List.length h.waiting) fun cmd hcmd =>
    (Keypad.serialRecvTask_toggle (k := t.keypad) h.key).2 cmd (h.waiting ▸ hcmd)

theorem idle_schedule (h : Pressed db t key i c) :
    (Transition.exec Controller.step c (schedule t key)).Idle := by
  have hexec := h.executed
  rw [schedule, Transition.exec_append, Transition.exec_cons, Transition.exec_nil]
  refine Controller.idle_poll (Controller.wellFormed_exec h.wellFormed _)
    (Controller.clean_exec h.wellFormed h.clean _) hexec.work ?_
  intro bank hb hne
  rw [hexec.above bank hne, hexec.seen, h.inputs bank hb]

/-! ## What becomes of the outputs -/

/-- A key that asks for what the poll has seen moves nothing. -/
theorem hwBit_of_seen (h : Pressed db t key i c) (hp : p < 40) (hin : db.input p = i)
    (hseen : t.server.io.seen i = t.keypad.level key) {es : List Event}
    (hes : ∀ e ∈ es, Controller.Drains e) :
    (Transition.exec Controller.step c es).io.hwBit p = t.server.io.hwBit p := by
  obtain ⟨hi, hbrights⟩ := h.input_lt
  have hseen' : c.io.seen i = t.keypad.level key := (h.seen_eq i).trans hseen
  have hasked' : c.io.asked i = t.keypad.level key :=
    (not_not.mp (h.not_pending (Nat.lt_trans hi (by decide)))).trans hseen'
  have hwork : Controller.AsksOnly c i (t.keypad.level key) := by
    obtain ⟨front, outputs, hblocks, hfront⟩ := Keypad.blocks_eq (k := t.keypad) h.key
    intro block hblock
    rw [h.work, hblocks] at hblock
    rcases List.mem_append.mp hblock with hmem | hmem
    · rcases hfront with ⟨-, rfl⟩ | ⟨-, rfl⟩
      · cases hmem
      · exact ⟨_, _, _, List.mem_singleton.mp hmem, fun heq => absurd heq.symm hbrights⟩
    · exact ⟨_, _, _, List.mem_singleton.mp hmem, fun _ => rfl⟩
  subst hin
  rw [Controller.hwBit_exec_of_seen h.wellFormed h.clean hp hi hwork hseen' hasked' hes]
  exact congrArg Relay.hw (h.relay p)

/-- Any other key brings its edge to the outputs, unless brights are taken back. -/
theorem relay_of_idle (h : Pressed db t key i c) (hp : p < 40) (hin : db.input p = i)
    (hseen : t.server.io.seen i ≠ t.keypad.level key)
    (hbrights : t.keypad.WithBrights key → t.server.io.seen brightsInput = false)
    {es : List Event} (hes : ∀ e ∈ es, Controller.Drains e)
    (hidle : (Transition.exec Controller.step c es).Idle) :
    (Transition.exec Controller.step c es).io.relay p =
      (Controller.marks p (t.server.io.relay p) (t.keypad.blocks key)).setOutput
        (t.keypad.level key) := by
  obtain ⟨hi, hne⟩ := h.input_lt
  obtain ⟨front, outputs, hblocks, hfront⟩ := Keypad.blocks_eq (k := t.keypad) h.key
  subst hin
  have hprogress : Controller.Progress (db.input p) p (t.keypad.level key)
      (Controller.marks p (t.server.io.relay p) (t.keypad.blocks key)) c := by
    refine .waits front outputs (h.work.trans hblocks) ?_ ?_
      (h.not_pending (Nat.lt_trans hi (by decide))) ?_
    · intro block hblock
      rcases hfront with ⟨-, rfl⟩ | ⟨hwith, rfl⟩
      · cases hblock
      · exact ⟨brightsInput, false, _, List.mem_singleton.mp hblock, by decide, Ne.symm hne,
          (h.seen_eq _).trans (hbrights hwith)⟩
    · rw [h.seen_eq]
      exact hseen
    · rw [h.relay, h.work]
  have halone : Controller.Alone (db.input p) c :=
    fun j hj _ => h.not_pending (Nat.lt_trans hj (by decide))
  exact hprogress.relay_of_idle h.wellFormed h.clean hp hi halone hes hidle

/-- With the brights pending too, a poll after both commands answers the brights alone. -/
theorem hwBit_of_brights (h : Pressed db t key i c) (hp : p < 40) (hin : db.input p = i)
    (hwith : t.keypad.WithBrights key) (hseen : t.server.io.seen brightsInput = true) :
    (Transition.exec Controller.step c (schedule t key)).io.hwBit p = t.server.io.hwBit p := by
  obtain ⟨front, outputs, hblocks, hfront⟩ := Keypad.blocks_eq (k := t.keypad) h.key
  have hexec := h.executed
  have hi : i = headlampInput := by
    have hkey := h.key
    rw [hwith.1] at hkey
    exact (Option.some.inj hkey).symm
  rw [schedule, Transition.exec_append, Transition.exec_cons, Transition.exec_nil]
  have hwf := Controller.wellFormed_exec h.wellFormed
    (Controller.rounds (t.keypad.serialRecvTask key.toByte).2.length)
  have hclean := Controller.clean_exec h.wellFormed h.clean
    (Controller.rounds (t.keypad.serialRecvTask key.toByte).2.length)
  generalize Transition.exec Controller.step c
    (Controller.rounds (t.keypad.serialRecvTask key.toByte).2.length) = c' at hexec hwf hclean ⊢
  have hpending : c'.io.Pending brightsInput := by
    have hasked := hexec.asked brightsInput (by decide)
    rcases hfront with ⟨hno, -⟩ | ⟨-, rfl⟩
    · exact absurd hwith hno
    · rw [h.work, hblocks, hi] at hasked
      have hoff : c'.io.asked brightsInput = false := hasked
      rw [IoState.Pending, hoff, IoState.seen, hexec.seen, ← IoState.seen, h.seen_eq, hseen]
      exact Bool.false_ne_true
  have hedge (v : Bool) : c'.edge (.monitorFakeInputTask 0) ≠ some (db.input p, v) := by
    intro hset
    obtain ⟨-, -, habove, -⟩ := hclean.pollEdge_zero_iff.mp hset
    exact habove brightsInput (by decide) (by rw [hin, hi]; decide) hpending
  change (IoState.relay _ p).hw = _
  rw [Controller.relay_step hwf _ hp, Controller.action, IoState.edgeAction_eq_keep hedge,
    Relay.act, hexec.relay p hp, h.work, h.relay]
  exact h.hw_marks

end Pressed

/-- A press of a toggle key that comes when nothing waits, is executed or is pending can be
executed; and then, however the commands and the polls take turns, its outputs have the
opposite level exactly when the key agrees with the server. -/
theorem key_toggles_iff (db : Database) (t : Truck) (ht : Reachable db t) (key : KeyType)
    (i : ℕ) (hkey : Keypad.toggleInput key = some i) (hline : t.toServer.head? = some key.toByte)
    (htodo : t.server.todo = []) (hqueue : t.server.io.msgQueue.waiting = [])
    (hinputs : ∀ bank < 6,
      t.server.io.fakeInportstatus2 bank = t.server.io.fakeInportstatus1 bank) :
    let c := (t.step .serialRecvTask).server
    (∃ es, (∀ e ∈ es, Controller.Drains e) ∧ (Transition.exec Controller.step c es).Idle) ∧
      ((∀ es, (∀ e ∈ es, Controller.Drains e) →
          (Transition.exec Controller.step c es).Idle → ∀ p < 40, db.input p = i →
            (Transition.exec Controller.step c es).io.hwBit p = !t.server.io.hwBit p) ↔
        KeyAgrees db t key i) := by
  intro c
  have h : Pressed db t key i c := ht.pressed hkey hline htodo hqueue hinputs
  have hes := Pressed.drains_schedule t key
  have hidle := h.idle_schedule
  refine ⟨⟨Pressed.schedule t key, hes, hidle⟩, ?_, ?_⟩
  · intro hall p hp hin
    have hflip := hall _ hes hidle p hp hin
    have hmoved : (Transition.exec Controller.step c (Pressed.schedule t key)).io.hwBit p ≠
        t.server.io.hwBit p := by
      rw [hflip]
      simp
    have hseen : t.server.io.seen i ≠ t.keypad.level key :=
      fun heq => hmoved (h.hwBit_of_seen hp hin heq hes)
    have hbrights (hwith : t.keypad.WithBrights key) : t.server.io.seen brightsInput = false :=
      Bool.eq_false_iff.mpr fun hon => hmoved (h.hwBit_of_brights hp hin hwith hon)
    refine ⟨hseen, hbrights, ?_⟩
    rw [← Relay.hw_setOutput_eq_not_iff, h.hw_marks, ← hflip,
      ← h.relay_of_idle hp hin hseen hbrights hes hidle]
    rfl
  · intro hagrees es hes hidle p hp hin
    obtain ⟨hseen, hbrights, hflips⟩ := hagrees p hp hin
    have hrelay := h.relay_of_idle hp hin hseen hbrights hes hidle
    rw [← Relay.hw_setOutput_eq_not_iff, h.hw_marks] at hflips
    exact (congrArg Relay.hw hrelay).trans hflips

/-- The fan's key as the first event. -/
theorem key_toggles_odata :
    let t := Transition.exec step (boot odata (fun _ => 0#8) 0 fun _ => 0#8)
      [.startRecv7200, .startDefaultTask .kp4, .startTask7200]
    ∀ es, (∀ e ∈ es, Controller.Drains e) →
      (Transition.exec Controller.step (t.step .serialRecvTask).server es).Idle →
        ∀ p < 40, odata.input p = coolingfanInput →
          (Transition.exec Controller.step (t.step .serialRecvTask).server es).io.hwBit p =
            !t.server.io.hwBit p := by
  intro t
  have ht : Reachable odata t :=
    Transition.Reachable.after (Transition.Reachable.initial ⟨_, _, _, rfl⟩) _
  refine (key_toggles_iff odata t ht .kp4 coolingfanInput rfl ?_ rfl ?_ ?_).2.mpr ?_
  all_goals simp only [t, boot, Controller.boot, initIps_odata]
  all_goals decide +kernel

/-- `ON_FAN` of the client, then the fan's key: the key asks for what is on already. -/
theorem key_ignored_odata :
    let t := Transition.exec step (boot odata (fun _ => 0#8) 0 fun _ => 0#8)
      [.startRecv7200, .hostCmd .onFan fun _ => 0#8, .hostAddMsgQueue, .server .getMsgQueue,
        .server .basicControlsTask, .server (.monitorFakeInputTask 0), .startDefaultTask .kp4,
        .startTask7200]
    let c := Transition.exec Controller.step (t.step .serialRecvTask).server
      [.getMsgQueue, .basicControlsTask, .monitorFakeInputTask 0]
    t.toServer.head? = some KeyType.kp4.toByte ∧ t.server.Idle ∧
      t.server.io.msgQueue.waiting = [] ∧ t.server.io.hwBit coolingfan = true ∧ c.Idle ∧
        c.io.hwBit coolingfan = true := by
  intro t c
  have hbefore : t.toServer.head? = some KeyType.kp4.toByte ∧
      t.server.io.msgQueue.waiting = [] ∧ t.server.io.hwBit coolingfan = true := by
    simp only [t, boot, Controller.boot, initIps_odata]
    decide +kernel
  have hidle : t.server.Idle := by
    constructor <;> simp only [t, boot, Controller.boot, initIps_odata] <;> decide +kernel
  have hidle' : c.Idle := by
    constructor <;> simp only [c, t, boot, Controller.boot, initIps_odata] <;> decide +kernel
  have hafter : c.io.hwBit coolingfan = true := by
    simp only [c, t, boot, Controller.boot, initIps_odata]
    decide +kernel
  exact ⟨hbefore.1, hidle, hbefore.2.1, hbefore.2.2, hidle', hafter⟩

end Truck

end TruckControl
