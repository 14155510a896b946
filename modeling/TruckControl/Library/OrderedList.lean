import TruckControl.Library.LinkedList

/-!
# Ordered lists, searched and extended step by step

A list in memory holds a map from its keys to its values. A search walks along it node by
node, and a new node is filled before it is hung in.
-/

namespace TruckControl

theorem Memory.alloc_eq_self {α : Type*} {m : Memory α} {a : ℕ} {x : α}
    (hlive : m.live a = true) (hx : m.content a = x) : m.alloc a x = m := by
  have hcontent : Function.update m.content a x = m.content := by
    rw [← hx, Function.update_eq_self]
  have hlives : Function.update m.live a true = m.live := by
    rw [← hlive, Function.update_eq_self]
  rw [Memory.alloc, hcontent, hlives]

namespace LinkedList

variable {κ ν : Type*} {m m' : Memory (ListNode κ ν)} {p first cur prev : Option ℕ}
  {as bs : List ℕ} {a b : ℕ} {key : κ} {v : ν}

theorem Segment.unique (h : Segment m p as none) (h' : Segment m p bs none) : as = bs := by
  induction as generalizing p bs with
  | nil =>
      cases h
      cases h'
      rfl
  | cons a as ih =>
      cases h with
      | cons a h =>
          cases h' with
          | cons a h' => rw [ih h h']

theorem Segment.reaches (h : Segment m p as none) (ha : a ∈ as) : Reaches m p a := by
  induction as generalizing p with
  | nil => cases ha
  | cons b as ih =>
      cases h with
      | cons b h =>
          rcases List.mem_cons.mp ha with rfl | ha
          · exact .here a
          · exact .next b (ih h ha)

/-- A node that is not in use is not in a list. -/
theorem notMem_of_free (hlive : ∀ a ∈ as, m.live a = true) (hb : m.live b = false) : b ∉ as := by
  intro hmem
  rw [hlive b hmem] at hb
  cases hb

variable [LinearOrder κ] {f : κ → Option ν}

/-- The nodes `as` from `first` on are allocated, in the order of their keys, and hold `f`. -/
structure Indexes (m : Memory (ListNode κ ν)) (first : Option ℕ) (as : List ℕ)
    (f : κ → Option ν) : Prop where
  chain : Segment m first as none
  ordered : Ordered m as
  live : ∀ a ∈ as, m.live a = true
  entries : Entries as (fun a => (m.content a).key) (fun a => (m.content a).value) f

/-- The nodes before `cur` are there, up to `prev`, and their keys are smaller. -/
def Passed (m : Memory (ListNode κ ν)) (first : Option ℕ) (key : κ) (cur prev : Option ℕ) :
    Prop :=
  ∃ lo hi, Segment m first (lo ++ hi) none ∧ cur = hi.head? ∧ prev = before lo first ∧
    ∀ a ∈ lo, (m.content a).key < key

/-- And the nodes from `cur` on have greater keys. -/
def Between (m : Memory (ListNode κ ν)) (first : Option ℕ) (key : κ) (cur prev : Option ℕ) :
    Prop :=
  Passed m first key cur prev ∧ ∀ a, cur = some a → key < (m.content a).key

/-- A new node is filled, and not in the list. -/
structure Filled (m : Memory (ListNode κ ν)) (first : Option ℕ) (key : κ) (v : ν) (b : ℕ)
    (cur prev : Option ℕ) : Prop where
  between : Between m first key cur prev
  live : m.live b = true
  content : m.content b = ⟨key, v, cur⟩
  notMem : ∀ as, Segment m first as none → b ∉ as

/-! ## The search -/

theorem Indexes.empty (m : Memory (ListNode κ ν)) : Indexes m none [] fun _ => none where
  chain := .nil none
  ordered := List.Pairwise.nil
  live := by simp
  entries := by simp [Entries]

theorem Indexes.passed (h : Indexes m first as f) (key : κ) : Passed m first key first first :=
  ⟨[], as, h.chain, h.chain.eq_head, rfl, by simp⟩

/-- The node at which a search is is in the list, with those before it. -/
theorem Indexes.split (h : Indexes m first as f) (hpassed : Passed m first key cur prev) :
    ∃ lo hi, as = lo ++ hi ∧ cur = hi.head? ∧ prev = before lo first ∧
      ∀ a ∈ lo, (m.content a).key < key := by
  obtain ⟨lo, hi, hchain, hcur, hprev, hlo⟩ := hpassed
  exact ⟨lo, hi, h.chain.unique hchain, hcur, hprev, hlo⟩

theorem Indexes.mem_of_passed (h : Indexes m first as f)
    (hpassed : Passed m first key (some a) prev) : a ∈ as := by
  obtain ⟨lo, hi, has, hcur, -, -⟩ := h.split hpassed
  rw [has]
  exact List.mem_append_right lo (List.mem_of_mem_head? hcur.symm)

theorem Indexes.value (h : Indexes m first as f) (ha : a ∈ as) :
    f (m.content a).key = some (m.content a).value :=
  (h.entries _ _).mpr ⟨a, ha, rfl, rfl⟩

/-- What the map holds is found along the list, and nothing else is. -/
theorem Indexes.eq_some_iff (h : Indexes m first as f) :
    f key = some v ↔
      ∃ a, Reaches m first a ∧ (m.content a).key = key ∧ (m.content a).value = v := by
  rw [h.entries key v]
  refine exists_congr fun a => and_congr_left fun _ => ?_
  exact ⟨h.chain.reaches, h.chain.mem_of_reaches⟩

/-- Where the search goes on. -/
theorem Passed.next (h : Passed m first key (some a) prev) (hlt : (m.content a).key < key) :
    Passed m first key (m.content a).next (some a) := by
  obtain ⟨lo, hi, hchain, hcur, -, hlo⟩ := h
  cases hi with
  | nil => cases hcur
  | cons b hi =>
      cases hcur
      obtain ⟨r, -, hright⟩ := hchain.split
      cases hright with
      | cons a hright =>
          refine ⟨lo ++ [a], hi, ?_, hright.eq_head, (before_concat lo a first).symm, ?_⟩
          · rwa [List.append_assoc, List.singleton_append]
          · intro b hb
            rcases List.mem_append.mp hb with hb | hb
            · exact hlo b hb
            · rw [List.mem_singleton.mp hb]
              exact hlt

/-- Between two nodes the keys before are smaller and those behind are greater. -/
theorem Indexes.split_between (h : Indexes m first as f) (hbetween : Between m first key cur prev) :
    ∃ lo hi, as = lo ++ hi ∧ cur = hi.head? ∧ prev = before lo first ∧
      (∀ a ∈ lo, (m.content a).key < key) ∧ ∀ a ∈ hi, key < (m.content a).key := by
  obtain ⟨lo, hi, has, hcur, hprev, hlo⟩ := h.split hbetween.1
  refine ⟨lo, hi, has, hcur, hprev, hlo, ?_⟩
  cases hi with
  | nil => simp
  | cons b hi =>
      have hb := hbetween.2 b hcur
      have hord := h.ordered
      rw [has] at hord
      obtain ⟨hrest, -⟩ := List.pairwise_cons.mp (List.pairwise_append.mp hord).2.1
      intro a ha
      rcases List.mem_cons.mp ha with rfl | ha
      · exact hb
      · exact lt_trans hb (hrest a ha)

/-- A key that is between two nodes is not in the map. -/
theorem Indexes.eq_none (h : Indexes m first as f) (hbetween : Between m first key cur prev) :
    f key = none := by
  obtain ⟨lo, hi, has, -, -, hlo, hhi⟩ := h.split_between hbetween
  rw [Option.eq_none_iff_forall_ne_some]
  intro v hv
  obtain ⟨a, ha, hkey, -⟩ := (h.entries key v).mp hv
  rw [has] at ha
  rcases List.mem_append.mp ha with ha | ha
  · exact ne_of_lt (hlo a ha) hkey
  · exact ne_of_gt (hhi a ha) hkey

/-! ## Changes -/

/-- A new node changes nothing before it is hung in. -/
theorem Indexes.alloc (h : Indexes m first as f) (hb : m.live b = false) (x : ListNode κ ν) :
    Indexes (m.alloc b x) first as f := by
  have hsame (a : ℕ) (ha : a ∈ as) : (m.alloc b x).content a = m.content a :=
    m.content_alloc_of_ne (ne_of_mem_of_not_mem ha (notMem_of_free h.live hb)) x
  refine ⟨h.chain.congr fun a ha => by rw [hsame a ha],
    h.ordered.congr fun a ha => by rw [hsame a ha], ?_, ?_⟩
  · intro a ha
    exact m.live_alloc (h.live a ha) b x
  · intro key v
    rw [h.entries key v]
    refine exists_congr fun a => and_congr_right fun ha => ?_
    dsimp only
    rw [hsame a ha]

theorem Indexes.filled (h : Indexes m first as f) (hb : m.live b = false)
    (hbetween : Between m first key cur prev) (v : ν) :
    Filled (m.alloc b ⟨key, v, cur⟩) first key v b cur prev := by
  have hnotMem := notMem_of_free h.live hb
  have hchain := (h.alloc hb ⟨key, v, cur⟩).chain
  have hsame (a : ℕ) (ha : a ∈ as) : (m.alloc b ⟨key, v, cur⟩).content a = m.content a :=
    m.content_alloc_of_ne (ne_of_mem_of_not_mem ha hnotMem) _
  refine ⟨⟨?_, ?_⟩, m.live_alloc_self b _, m.content_alloc_self b _, ?_⟩
  · obtain ⟨lo, hi, has, hcur, hprev, hlo⟩ := h.split hbetween.1
    rw [has] at hchain
    refine ⟨lo, hi, hchain, hcur, hprev, ?_⟩
    intro a ha
    rw [hsame a (has ▸ List.mem_append_left hi ha)]
    exact hlo a ha
  · intro a ha
    subst ha
    rw [hsame a (h.mem_of_passed hbetween.1)]
    exact hbetween.2 a rfl
  · intro bs hbs
    rwa [hbs.unique hchain]

/-- Another value for a node. -/
theorem Indexes.replace (h : Indexes m first as f) (ha : a ∈ as) (v : ν) :
    Indexes (m.set a { m.content a with value := v }) first as
      (Function.update f (m.content a).key (some v)) := by
  have hold (b : ℕ) (hb : b ≠ a) :
      (m.set a { m.content a with value := v }).content b = m.content b :=
    m.content_set_of_ne hb _
  have hself : (m.set a { m.content a with value := v }).content a =
      { m.content a with value := v } := m.content_set_self a _
  have hsame (b : ℕ) :
      ((m.set a { m.content a with value := v }).content b).key = (m.content b).key ∧
        ((m.set a { m.content a with value := v }).content b).next = (m.content b).next := by
    by_cases hba : b = a
    · rw [hba, hself]
      exact ⟨rfl, rfl⟩
    · rw [hold b hba]
      exact ⟨rfl, rfl⟩
  refine ⟨h.chain.congr fun b _ => (hsame b).2, h.ordered.congr fun b _ => (hsame b).1,
    h.live, ?_⟩
  -- the map without the key, and the node put back
  have hrest : Entries (as.filter (· ≠ a))
      (fun b => ((m.set a { m.content a with value := v }).content b).key)
      (fun b => ((m.set a { m.content a with value := v }).content b).value)
      (Function.update f (m.content a).key none) := by
    refine h.entries.erase ?_ ?_
    · intro c
      rw [List.mem_filter, decide_eq_true_eq]
      refine and_congr_right fun hc => not_congr ⟨fun heq => by rw [heq], fun heq => ?_⟩
      exact h.ordered.key_injective hc ha heq
    · intro c hc
      obtain ⟨-, hca⟩ := List.mem_filter.mp hc
      rw [hold c (of_decide_eq_true hca)]
      exact ⟨rfl, rfl⟩
  have hmem (c : ℕ) : c ∈ as ↔ c = a ∨ c ∈ as.filter (· ≠ a) := by
    rw [List.mem_filter, decide_eq_true_eq]
    by_cases hca : c = a
    · simp [hca, ha]
    · simp [hca]
  have hall := hrest.insert (b := a) (hsame a).1 hmem
  rwa [hself] at hall

/-- A node whose key belongs between those before and those behind it is in the list now. -/
theorem Indexes.insert {lo hi : List ℕ} {first' : Option ℕ} (h : Indexes m first (lo ++ hi) f)
    (hb : b ∉ lo ++ hi) (hlive : m'.live = m.live) (hlive' : m.live b = true)
    (hnew : (m'.content b).key = key ∧ (m'.content b).value = v)
    (hkeep : ∀ a, a ∈ lo ++ hi → (m'.content a).key = (m.content a).key ∧
      (m'.content a).value = (m.content a).value)
    (hlo : ∀ a ∈ lo, (m.content a).key < key) (hhi : ∀ a ∈ hi, key < (m.content a).key)
    (hchain : Segment m' first' (lo ++ b :: hi) none) :
    Indexes m' first' (lo ++ b :: hi) (Function.update f key (some v)) := by
  refine ⟨hchain, ?_, ?_, ?_⟩
  · refine (h.ordered.congr fun a ha => (hkeep a ha).1).insert ?_ ?_
    · intro a ha
      rw [hnew.1, (hkeep a (List.mem_append_left hi ha)).1]
      exact hlo a ha
    · intro a ha
      rw [hnew.1, (hkeep a (List.mem_append_right lo ha)).1]
      exact hhi a ha
  · intro a ha
    rw [hlive]
    rcases List.mem_append.mp ha with ha | ha
    · exact h.live a (List.mem_append_left hi ha)
    · rcases List.mem_cons.mp ha with rfl | ha
      · exact hlive'
      · exact h.live a (List.mem_append_right lo ha)
  · have hrest : Entries (lo ++ hi) (fun a => (m'.content a).key) (fun a => (m'.content a).value)
        (Function.update f key none) := by
      refine h.entries.erase ?_ hkeep
      intro c
      refine ⟨fun hc => ⟨hc, ?_⟩, And.left⟩
      rcases List.mem_append.mp hc with hc | hc
      · exact ne_of_lt (hlo c hc)
      · exact ne_of_gt (hhi c hc)
    have hmem (c : ℕ) : c ∈ lo ++ b :: hi ↔ c = b ∨ c ∈ lo ++ hi := by
      simp only [List.mem_append, List.mem_cons]
      tauto
    have hall := hrest.insert (b := b) hnew.1 hmem
    rwa [hnew.2] at hall

/-- A search that is still at the first node has passed none, and no other has. -/
theorem Indexes.first_iff {lo hi : List ℕ} (h : Indexes m first (lo ++ hi) f) :
    hi.head? = first ↔ lo = [] := by
  constructor
  · intro heq
    cases lo with
    | nil => rfl
    | cons a lo =>
        rw [h.chain.eq_head] at heq
        have ha : a ∈ hi := List.mem_of_mem_head? heq
        have hnodup := h.ordered.nodup
        exact absurd (List.mem_append_right lo ha) (List.nodup_cons.mp hnodup).1
  · intro hlo
    rw [hlo] at h
    exact h.chain.eq_head.symm

/-- The new node becomes the first one. -/
theorem Indexes.hang_first (h : Indexes m first as f) (hfilled : Filled m first key v b cur prev)
    (hcur : cur = first) :
    Indexes m (some b) (b :: as) (Function.update f key (some v)) := by
  obtain ⟨lo, hi, has, hhead, -, hlo, hhi⟩ := h.split_between hfilled.between
  rw [has] at h
  have hnil : lo = [] := h.first_iff.mp (hhead ▸ hcur)
  subst hnil
  rw [List.nil_append] at has
  have hb := hfilled.notMem _ h.chain
  have hnew := hfilled.content
  have hchain : Segment m (some b) ([] ++ b :: hi) none := by
    refine .cons b ?_
    rw [hnew, hcur]
    exact h.chain
  have hkeyValue : (m.content b).key = key ∧ (m.content b).value = v := by
    rw [hnew]
    exact ⟨rfl, rfl⟩
  rw [has]
  exact h.insert hb rfl hfilled.live hkeyValue (fun a _ => ⟨rfl, rfl⟩) hlo hhi hchain

/-- The new node is behind `prev`, which is one of the list. -/
theorem Indexes.hang_behind (h : Indexes m first as f) (hfilled : Filled m first key v b cur prev)
    (hcur : cur ≠ first) :
    ∃ c lo hi, prev = some c ∧ as = lo ++ [c] ++ hi ∧
      Indexes (m.set c { m.content c with next := some b }) first (lo ++ [c] ++ b :: hi)
        (Function.update f key (some v)) := by
  obtain ⟨lo, hi, has, hhead, hprev, hlo, hhi⟩ := h.split_between hfilled.between
  rw [has] at h
  rcases List.eq_nil_or_concat' lo with rfl | ⟨lo, c, rfl⟩
  · exact absurd (hhead.trans (h.first_iff.mpr rfl)) hcur
  · rw [before_concat] at hprev
    refine ⟨c, lo, hi, hprev, has, ?_⟩
    have hb := hfilled.notMem _ h.chain
    obtain ⟨hbLo, hbHi⟩ := not_or.mp (mt List.mem_append.mpr hb)
    obtain ⟨hcLo, hcHi⟩ : c ∉ lo ∧ c ∉ hi := by
      have hnodup := h.ordered.nodup
      rw [List.append_assoc] at hnodup
      simpa using (List.nodup_cons.mp (List.nodup_middle.mp hnodup)).1
    have hkeep := key_value_set_next m c (some b)
    refine h.insert hb rfl hfilled.live ?_ (fun a _ => hkeep a) hlo hhi ?_
    · rw [(hkeep b).1, (hkeep b).2, hfilled.content]
      exact ⟨rfl, rfl⟩
    · obtain ⟨q, hleft, hright⟩ := h.chain.split
      rw [hright.eq_head, ← hhead] at hleft hright
      have hhung := hleft.insert_behind hright hcLo hbLo hcHi hbHi key v
      rwa [Memory.alloc_eq_self hfilled.live hfilled.content] at hhung

end LinkedList

end TruckControl
