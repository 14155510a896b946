import TruckControl.Model.OllistMemory

/-!
# The list of records is a finite map

The nodes are kept in the order of their indexes, and each has a record of its own. What is
found is what was inserted last.
-/

namespace TruckControl

open LinkedList

namespace OllistT

variable {l l' : OllistT} {as : List ℕ} {m : ℤ → Option OData} {fuel : ℕ} {i : ℤ}

/-- The list as a finite map: its nodes are `as`, all of them and their records allocated. -/
structure Represents (l : OllistT) (as : List ℕ) (m : ℤ → Option OData) : Prop where
  chain : Segment l.nodes l.first as none
  ordered : Ordered l.nodes as
  live : ∀ a ∈ as, l.nodes.live a = true
  data_live : ∀ a ∈ as, l.data.live (l.nodes.content a).value = true
  values : ∀ a ∈ as, ∀ b ∈ as,
    (l.nodes.content a).value = (l.nodes.content b).value → a = b
  lookup : ∀ i d, m i = some d ↔
    ∃ a ∈ as, (l.nodes.content a).key = i ∧ l.data.content (l.nodes.content a).value = d

/-- What a search for an index has to give. -/
def Finds (l : OllistT) (fuel : ℕ) (i : ℤ) : Option OData → Prop
  | none => l.findData fuel i = some (-1, none)
  | some d => ∃ p, l.findData fuel i = some (0, some p) ∧ l.data.live p = true ∧
      l.data.content p = d

theorem Represents.eq_none (h : l.Represents as m) (hno : ∀ a ∈ as, (l.nodes.content a).key ≠ i) :
    m i = none := by
  rw [Option.eq_none_iff_forall_ne_some]
  intro d hd
  obtain ⟨a, ha, hkey, -⟩ := (h.lookup i d).mp hd
  exact hno a ha hkey

theorem Represents.finds (h : l.Represents as m) (hfuel : as.length < fuel) (i : ℤ) :
    l.Finds fuel i (m i) := by
  have hsearch := search i h.chain h.ordered hfuel l.first
  generalize hwalk : walk l.nodes i fuel l.first l.first = r at hsearch
  cases hsearch with
  | hit lo a hi has hkey =>
      have ha : a ∈ as := by simp [has]
      rw [(h.lookup i _).mpr ⟨a, ha, hkey, rfl⟩]
      exact ⟨_, by rw [findData, hwalk], h.data_live a ha, rfl⟩
  | miss lo hi has hlo hhi =>
      have hnone : m i = none := by
        apply h.eq_none
        intro a ha
        rw [has] at ha
        rcases List.mem_append.mp ha with ha | ha
        · exact ne_of_lt (hlo a ha)
        · exact ne_of_gt (hhi a ha)
      rw [hnone, Finds, findData, hwalk]

/-! ## Insertion -/

/-- `malloc` gives blocks that are not in use. -/
def Unused (l : OllistT) (got : Mallocs) : Prop :=
  l.data.live got.datap = false ∧ l.nodes.live got.new = false

theorem Represents.value_ne {a : ℕ} (h : l.Represents as m) (ha : a ∈ as) {p : ℕ}
    (hp : l.data.live p = false) : (l.nodes.content a).value ≠ p := by
  intro heq
  have hlive := h.data_live a ha
  rw [heq, hp] at hlive
  cases hlive

theorem Represents.notMem {p : ℕ} (h : l.Represents as m) (hp : l.nodes.live p = false) :
    p ∉ as := by
  intro hmem
  rw [h.live p hmem] at hp
  cases hp

/-- The entries that a list's nodes and records are. -/
def Stored (l : OllistT) (as : List ℕ) (m : ℤ → Option OData) : Prop :=
  Entries as (fun a => (l.nodes.content a).key)
    (fun a => l.data.content (l.nodes.content a).value) m

theorem Represents.stored (h : l.Represents as m) : l.Stored as m := h.lookup

/-- The record of a node is replaced: the new one is stored, the old one freed. -/
theorem Represents.replace (h : l.Represents as m) {a : ℕ} (ha : a ∈ as)
    (hkey : (l.nodes.content a).key = i) {p : ℕ} (hp : l.data.live p = false) {d : OData}
    {left : OData → OData} (hfirst : l'.first = l.first)
    (hnodes : l'.nodes = l.nodes.set a { l.nodes.content a with value := p })
    (hdata : l'.data = (l.data.alloc p d).free left (l.nodes.content a).value) :
    l'.Represents as (Function.update m i (some d)) := by
  have hold (b : ℕ) (hb : b ≠ a) : l'.nodes.content b = l.nodes.content b := by
    rw [hnodes, l.nodes.content_set_of_ne hb]
  have hself : l'.nodes.content a = { l.nodes.content a with value := p } := by
    rw [hnodes, l.nodes.content_set_self]
  have hsame (b : ℕ) : (l'.nodes.content b).key = (l.nodes.content b).key ∧
      (l'.nodes.content b).next = (l.nodes.content b).next := by
    by_cases hba : b = a
    · rw [hba, hself]
      exact ⟨rfl, rfl⟩
    · rw [hold b hba]
      exact ⟨rfl, rfl⟩
  have hvalue : p ≠ (l.nodes.content a).value := (h.value_ne ha hp).symm
  have hother (b : ℕ) (hb : b ∈ as) (hba : b ≠ a) :
      (l.nodes.content b).value ≠ (l.nodes.content a).value :=
    fun heq => hba (h.values b hb a ha heq)
  have hcontent (b : ℕ) (hb : b ∈ as) (hba : b ≠ a) :
      l'.data.content (l'.nodes.content b).value = l.data.content (l.nodes.content b).value := by
    rw [hold b hba, hdata, Memory.content_free_of_ne _ left (hother b hb hba),
      l.data.content_alloc_of_ne (h.value_ne hb hp)]
  have hown : l'.data.content (l'.nodes.content a).value = d := by
    rw [hself, hdata, Memory.content_free_of_ne _ left hvalue, Memory.content_alloc_self]
  have hchain : Segment l'.nodes l.first as none := h.chain.congr fun b _ => (hsame b).2
  refine ⟨by rw [hfirst]; exact hchain, h.ordered.congr fun b _ => (hsame b).1, ?_, ?_, ?_, ?_⟩
  · intro b hb
    rw [hnodes]
    exact h.live b hb
  · intro b hb
    rw [hdata]
    by_cases hba : b = a
    · rw [hba, hself, Memory.live_free_of_ne _ left hvalue, Memory.live_alloc_self]
    · rw [hold b hba, Memory.live_free_of_ne _ left (hother b hb hba)]
      exact l.data.live_alloc (h.data_live b hb) p d
  · intro b hb c hc heq
    by_cases hba : b = a
    · by_cases hca : c = a
      · rw [hba, hca]
      · rw [hba, hself, hold c hca] at heq
        exact absurd heq.symm (h.value_ne hc hp)
    · by_cases hca : c = a
      · rw [hca, hself, hold b hba] at heq
        exact absurd heq (h.value_ne hb hp)
      · rw [hold b hba, hold c hca] at heq
        exact h.values b hb c hc heq
  · -- the map without the index, and the node put back
    have hmem (c : ℕ) : c ∈ as.filter (· ≠ a) ↔ c ∈ as ∧ (l.nodes.content c).key ≠ i := by
      rw [List.mem_filter, decide_eq_true_eq, ← hkey]
      refine and_congr_right fun hc => not_congr ⟨fun heq => by rw [heq], fun heq => ?_⟩
      exact h.ordered.key_injective hc ha heq
    have hrest : l'.Stored (as.filter (· ≠ a)) (Function.update m i none) := by
      refine h.stored.erase hmem fun c hc => ?_
      obtain ⟨hc, hca⟩ := List.mem_filter.mp hc
      exact ⟨(hsame c).1, hcontent c hc (of_decide_eq_true hca)⟩
    have hall : l'.Stored as (Function.update m i
        (some (l'.data.content (l'.nodes.content a).value))) := by
      refine hrest.insert ((hsame a).1.trans hkey) fun c => ?_
      rw [List.mem_filter, decide_eq_true_eq]
      by_cases hca : c = a
      · simp [hca, ha]
      · simp [hca]
    rw [hown] at hall
    exact hall

/-- A node with a record of its own is added where its index belongs. -/
theorem Represents.add {lo hi : List ℕ} {got : Mallocs} {d : OData}
    (h : l.Represents (lo ++ hi) m) (hunused : l.Unused got)
    (hlo : ∀ a ∈ lo, (l.nodes.content a).key < i) (hhi : ∀ a ∈ hi, i < (l.nodes.content a).key)
    (hchain : Segment l'.nodes l'.first (lo ++ got.new :: hi) none)
    (hlive : l'.nodes.live = Function.update l.nodes.live got.new true)
    (hnew : (l'.nodes.content got.new).key = i ∧ (l'.nodes.content got.new).value = got.datap)
    (hkeep : ∀ b, b ≠ got.new → (l'.nodes.content b).key = (l.nodes.content b).key ∧
      (l'.nodes.content b).value = (l.nodes.content b).value)
    (hdata : l'.data = l.data.alloc got.datap d) :
    l'.Represents (lo ++ got.new :: hi) (Function.update m i (some d)) := by
  have hnotMem : got.new ∉ lo ++ hi := h.notMem hunused.2
  have hold (b : ℕ) (hb : b ∈ lo ++ hi) := hkeep b (ne_of_mem_of_not_mem hb hnotMem)
  have hcases (b : ℕ) (hb : b ∈ lo ++ got.new :: hi) : b = got.new ∨ b ∈ lo ++ hi := by
    simp only [List.mem_append, List.mem_cons] at hb ⊢
    tauto
  have hcontent (b : ℕ) (hb : b ∈ lo ++ hi) :
      l'.data.content (l'.nodes.content b).value = l.data.content (l.nodes.content b).value := by
    rw [hdata, (hold b hb).2, l.data.content_alloc_of_ne (h.value_ne hb hunused.1)]
  have hown : l'.data.content (l'.nodes.content got.new).value = d := by
    rw [hdata, hnew.2, Memory.content_alloc_self]
  refine ⟨hchain, ?_, ?_, ?_, ?_, ?_⟩
  · refine (h.ordered.congr fun b hb => (hold b hb).1).insert ?_ ?_
    · intro a ha
      rw [hnew.1, (hold a (List.mem_append_left hi ha)).1]
      exact hlo a ha
    · intro a ha
      rw [hnew.1, (hold a (List.mem_append_right lo ha)).1]
      exact hhi a ha
  · intro b hb
    rw [hlive]
    rcases hcases b hb with rfl | hb
    · rw [Function.update_self]
    · rw [Function.update_of_ne (ne_of_mem_of_not_mem hb hnotMem), h.live b hb]
  · intro b hb
    rw [hdata]
    rcases hcases b hb with rfl | hb
    · rw [hnew.2, Memory.live_alloc_self]
    · rw [(hold b hb).2]
      exact l.data.live_alloc (h.data_live b hb) got.datap d
  · intro b hb c hc heq
    rcases hcases b hb with rfl | hb <;> rcases hcases c hc with rfl | hc
    · rfl
    · rw [hnew.2, (hold c hc).2] at heq
      exact absurd heq.symm (h.value_ne hc hunused.1)
    · rw [hnew.2, (hold b hb).2] at heq
      exact absurd heq (h.value_ne hb hunused.1)
    · rw [(hold b hb).2, (hold c hc).2] at heq
      exact h.values b hb c hc heq
  · -- the index was absent, so nothing has to be taken out before
    have hmem (c : ℕ) : c ∈ lo ++ hi ↔ c ∈ lo ++ hi ∧ (l.nodes.content c).key ≠ i := by
      refine ⟨fun hc => ⟨hc, ?_⟩, And.left⟩
      rcases List.mem_append.mp hc with hc | hc
      · exact ne_of_lt (hlo c hc)
      · exact ne_of_gt (hhi c hc)
    have hrest : l'.Stored (lo ++ hi) (Function.update m i none) :=
      h.stored.erase hmem fun c hc => ⟨(hold c hc).1, hcontent c hc⟩
    have hall : l'.Stored (lo ++ got.new :: hi) (Function.update m i
        (some (l'.data.content (l'.nodes.content got.new).value))) := by
      refine hrest.insert hnew.1 fun c => ?_
      simp only [List.mem_append, List.mem_cons]
      tauto
    rw [hown] at hall
    exact hall

theorem Represents.add_front {got : Mallocs} (h : l.Represents as m) (hunused : l.Unused got)
    (hhi : ∀ a ∈ as, i < (l.nodes.content a).key) (d : OData) :
    Represents
      { first := some got.new
        nodes := l.nodes.alloc got.new ⟨i, got.datap, l.first⟩
        data := l.data.alloc got.datap d }
      (got.new :: as) (Function.update m i (some d)) := by
  have hfront : l.Represents ([] ++ as) m := h
  have hlo : ∀ a ∈ ([] : List ℕ), (l.nodes.content a).key < i := by simp
  refine hfront.add hunused hlo hhi ?_ rfl ?_ ?_ rfl
  · exact h.chain.insert_front (h.notMem hunused.2) i got.datap
  · simp only [Memory.content_alloc_self, and_self]
  · intro b hb
    simp only [l.nodes.content_alloc_of_ne hb, and_self]

theorem Represents.add_behind {lo hi : List ℕ} {b : ℕ} {got : Mallocs}
    (h : l.Represents (lo ++ [b] ++ hi) m) (hunused : l.Unused got)
    (hlo : ∀ a ∈ lo ++ [b], (l.nodes.content a).key < i)
    (hhi : ∀ a ∈ hi, i < (l.nodes.content a).key) (d : OData) :
    let added := l.nodes.alloc got.new ⟨i, got.datap, hi.head?⟩
    Represents
      { l with
        nodes := added.set b { added.content b with next := some got.new }
        data := l.data.alloc got.datap d }
      (lo ++ [b] ++ got.new :: hi) (Function.update m i (some d)) := by
  intro added
  have hnotMem := h.notMem hunused.2
  obtain ⟨q, hleft, hright⟩ := h.chain.split
  have hq : q = hi.head? := hright.eq_head
  rw [hq] at hleft hright
  obtain ⟨hbLo, hbHi⟩ : b ∉ lo ∧ b ∉ hi := by
    have hnodup := h.ordered.nodup
    rw [List.append_assoc] at hnodup
    simpa using (List.nodup_cons.mp (List.nodup_middle.mp hnodup)).1
  obtain ⟨hnewLo, hnewHi⟩ : got.new ∉ lo ++ [b] ∧ got.new ∉ hi := by
    simpa [not_or, and_assoc] using hnotMem
  refine h.add hunused hlo hhi ?_ rfl ?_ ?_ rfl
  · exact hleft.insert_behind hright hbLo hnewLo hbHi hnewHi i got.datap
  · have hsame := key_value_set_next added b (some got.new) got.new
    rw [Memory.content_alloc_self] at hsame
    exact hsame
  · intro c hc
    have hsame := key_value_set_next added b (some got.new) c
    rw [l.nodes.content_alloc_of_ne hc] at hsame
    exact hsame

/-- A chain does not begin again behind one of its nodes. -/
theorem head?_ne_of_nodup {lo hi : List ℕ} {b : ℕ} (h : (lo ++ [b] ++ hi).Nodup) :
    hi.head? ≠ (lo ++ [b] ++ hi).head? := by
  cases lo with
  | nil =>
      intro heq
      exact (List.nodup_cons.mp h).1 (List.mem_of_mem_head? heq)
  | cons a lo =>
      intro heq
      have ha : a ∈ hi := List.mem_of_mem_head? heq
      exact (List.nodup_cons.mp h).1 (List.mem_append_right _ ha)

/-- Every insertion is an update of the map, wherever the node is or has to be. -/
theorem Represents.insertData (h : l.Represents as m) (hfuel : as.length < fuel) {got : Mallocs}
    (hunused : l.Unused got) (d : OData) (left : OData → OData) :
    ∃ l' as', l.insertData left fuel i d got = some l' ∧
      l'.Represents as' (Function.update m i (some d)) ∧ as'.length ≤ as.length + 1 := by
  have hsearch := search i h.chain h.ordered hfuel l.first
  generalize hwalk : walk l.nodes i fuel l.first l.first = r at hsearch
  cases hsearch with
  | hit lo a hi has hkey =>
      have ha : a ∈ as := by simp [has]
      refine ⟨_, as, by rw [OllistT.insertData, hwalk], ?_, Nat.le_succ _⟩
      exact h.replace ha hkey hunused.1 rfl rfl rfl
  | miss lo hi has hlo hhi =>
      rw [has] at h
      rcases List.eq_nil_or_concat' lo with rfl | ⟨lo, b, rfl⟩
      · have hfirst : hi.head? = l.first := h.chain.eq_head.symm
        refine ⟨_, _, ?_, h.add_front hunused hhi d, ?_⟩
        · rw [OllistT.insertData, hwalk]
          simp only [hfirst, if_true]
        · exact Nat.le_of_eq (by rw [has, List.length_cons])
      · have hfirst : ¬ hi.head? = l.first := by
          rw [h.chain.eq_head]
          exact head?_ne_of_nodup h.ordered.nodup
        refine ⟨_, _, ?_, h.add_behind hunused hlo hhi d, ?_⟩
        · rw [OllistT.insertData, hwalk]
          simp only [if_neg hfirst, before_concat]
        · simp only [has, List.length_append, List.length_cons]
          omega

/-! ## Sequences of insertions -/

/-- A call of `ollist_insert_data`, and what `malloc` returns in it. -/
structure Insertion where
  index : ℤ
  datap2 : OData
  got : Mallocs

def insertAll (left : OData → OData) (fuel : ℕ) : List Insertion → OllistT → Option OllistT
  | [], l => some l
  | c :: calls, l =>
      (l.insertData left fuel c.index c.datap2 c.got).bind (insertAll left fuel calls)

/-- In each call `malloc` gives blocks that are not in use then. -/
def AllUnused (left : OData → OData) (fuel : ℕ) : List Insertion → OllistT → Prop
  | [], _ => True
  | c :: calls, l => l.Unused c.got ∧
      match l.insertData left fuel c.index c.datap2 c.got with
      | none => True
      | some l' => AllUnused left fuel calls l'

/-- The map after the calls: for each index the last record inserted there. -/
def inserted (calls : List Insertion) (m : ℤ → Option OData) : ℤ → Option OData :=
  calls.foldl (fun m c => Function.update m c.index (some c.datap2)) m

theorem inserted_apply (calls : List Insertion) (m : ℤ → Option OData) (i : ℤ) :
    inserted calls m i =
      ((calls.reverse.find? fun c => c.index = i).map Insertion.datap2).or (m i) := by
  induction calls generalizing m with
  | nil => rfl
  | cons c calls ih =>
      rw [inserted, List.foldl_cons, ← inserted, ih, List.reverse_cons, List.find?_append]
      by_cases hi : c.index = i
      · subst hi
        cases calls.reverse.find? fun d => d.index = c.index with
        | none => simp
        | some d => simp
      · have hne : i ≠ c.index := Ne.symm hi
        cases calls.reverse.find? fun d => d.index = i with
        | none => simp [hi, Function.update_of_ne hne]
        | some d => simp

theorem Represents.insertAll (left : OData → OData) {calls : List Insertion}
    (h : l.Represents as m) (hfuel : as.length + calls.length < fuel)
    (hunused : AllUnused left fuel calls l) :
    ∃ l' as', OllistT.insertAll left fuel calls l = some l' ∧
      l'.Represents as' (inserted calls m) ∧ as'.length ≤ as.length + calls.length := by
  induction calls generalizing l as m with
  | nil => exact ⟨l, as, rfl, h, Nat.le_refl _⟩
  | cons c calls ih =>
      rw [List.length_cons] at hfuel
      have hlt : as.length < fuel := by omega
      obtain ⟨l', as', hstep, h', hlength⟩ :=
        h.insertData (i := c.index) hlt hunused.1 c.datap2 left
      have hrest := hunused.2
      rw [hstep] at hrest
      obtain ⟨l'', as'', hrun, h'', hlength'⟩ := ih h' (by omega) hrest
      refine ⟨l'', as'', ?_, h'', ?_⟩
      · rw [OllistT.insertAll, hstep, Option.bind_some, hrun]
      · rw [List.length_cons]
        omega

theorem represents_init (l : OllistT) : l.init.Represents [] fun _ => none where
  chain := .nil none
  ordered := List.Pairwise.nil
  live := by simp
  data_live := by simp
  values := by simp
  lookup := by simp

/-- The indexes of the list, from its head on, are strictly increasing. -/
def Increasing (l : OllistT) : Prop :=
  ∃ as, Segment l.nodes l.first as none ∧ (as.map fun a => (l.nodes.content a).key).Pairwise (· < ·)

theorem Represents.increasing (h : l.Represents as m) : l.Increasing :=
  ⟨as, h.chain, List.pairwise_map.mpr h.ordered⟩

/-- Any sequence of insertions on an initialised list: the indexes stay in order, and each
search gives the last record that was inserted there. -/
theorem find_insertAll (left : OData → OData) (calls : List Insertion) (l : OllistT)
    (hfuel : calls.length < fuel) (hunused : AllUnused left fuel calls l.init) :
    ∃ l', OllistT.insertAll left fuel calls l.init = some l' ∧ l'.Increasing ∧
      ∀ i, l'.Finds fuel i
        ((calls.reverse.find? fun c => c.index = i).map Insertion.datap2) := by
  have hroom : ([] : List ℕ).length + calls.length < fuel := by simpa using hfuel
  obtain ⟨l', as', hrun, h, hlength⟩ := (represents_init l).insertAll left hroom hunused
  have hroom' : as'.length < fuel := Nat.lt_of_le_of_lt hlength hroom
  refine ⟨l', hrun, h.increasing, fun i => ?_⟩
  have hfinds := h.finds hroom' i
  rwa [inserted_apply, Option.or_none] at hfinds

/-- Memory of which nothing is in use. -/
def unallocated : OllistT where
  first := none
  nodes := ⟨fun _ => ⟨0, 0, none⟩, fun _ => false⟩
  data := ⟨fun _ => default, fun _ => false⟩

/-- Behind, in front, in the middle, and again. -/
def fourInsertions : List Insertion :=
  [⟨7, { (default : OData) with label := "ACCON" }, ⟨0, 0⟩⟩,
    ⟨2, { (default : OData) with label := "STARTER" }, ⟨1, 1⟩⟩,
    ⟨5, { (default : OData) with label := "FUELPUMP" }, ⟨2, 2⟩⟩,
    ⟨7, { (default : OData) with label := "LIGHTBAR" }, ⟨3, 3⟩⟩]

theorem find_fourInsertions :
    ∃ l', OllistT.insertAll id 5 fourInsertions unallocated.init = some l' ∧
      l'.Finds 5 7 (some { (default : OData) with label := "LIGHTBAR" }) ∧ l'.Finds 5 3 none := by
  have hunused : AllUnused id 5 fourInsertions unallocated.init :=
    And.intro ⟨rfl, rfl⟩
      (And.intro ⟨rfl, rfl⟩ (And.intro ⟨rfl, rfl⟩ (And.intro ⟨rfl, rfl⟩ trivial)))
  obtain ⟨l', hrun, -, hfinds⟩ :=
    find_insertAll id fourInsertions unallocated (by decide : fourInsertions.length < 5) hunused
  exact ⟨l', hrun, hfinds 7, hfinds 3⟩

/-! ## The list of the other modules -/

/-- The map that a list without pointers stands for. Its indexes are natural numbers. -/
def mapOf (o : Ollist) (i : ℤ) : Option OData :=
  if 0 ≤ i then ollistFindData i.toNat o else none

theorem mapOf_init : mapOf ollistInit = fun _ => none := by
  funext i
  rw [mapOf]
  split_ifs <;> rfl

theorem mapOf_insertData (o : Ollist) (index : ℕ) (d : OData) :
    mapOf (ollistInsertData index o d) = Function.update (mapOf o) index (some d) := by
  funext i
  rw [mapOf, ollistFindData, ollistInsertData, SortedList.find_insert]
  by_cases hi : i = index
  · subst hi
    simp
  · rw [Function.update_of_ne hi, mapOf]
    by_cases hpos : 0 ≤ i
    · have hne : ¬ i.toNat = index := by omega
      rw [if_pos hpos, if_pos hpos, if_neg hne, ollistFindData]
    · rw [if_neg hpos, if_neg hpos]

theorem inserted_mapOf {calls : List Insertion} (hindex : ∀ c ∈ calls, 0 ≤ c.index) (o : Ollist) :
    inserted calls (mapOf o) =
      mapOf (calls.foldl (fun o c => ollistInsertData c.index.toNat o c.datap2) o) := by
  induction calls generalizing o with
  | nil => rfl
  | cons c calls ih =>
      obtain ⟨hc, hcalls⟩ := List.forall_mem_cons.mp hindex
      rw [List.foldl_cons, ← ih hcalls, mapOf_insertData, Int.toNat_of_nonneg hc]
      rfl

/-- Insertions in memory are those of the list without pointers, and a search finds the same
behind them. -/
theorem finds_ollistFindData (left : OData → OData) {calls : List Insertion}
    (hindex : ∀ c ∈ calls, 0 ≤ c.index) (l : OllistT) (hfuel : calls.length < fuel)
    (hunused : AllUnused left fuel calls l.init) :
    ∃ l', OllistT.insertAll left fuel calls l.init = some l' ∧ ∀ i : ℕ, l'.Finds fuel i
      (ollistFindData i
        (calls.foldl (fun o c => ollistInsertData c.index.toNat o c.datap2) ollistInit)) := by
  have hroom : ([] : List ℕ).length + calls.length < fuel := by simpa using hfuel
  obtain ⟨l', as', hrun, h, hlength⟩ := (represents_init l).insertAll left hroom hunused
  rw [← mapOf_init, inserted_mapOf hindex] at h
  refine ⟨l', hrun, fun i => ?_⟩
  have hfinds := h.finds (Nat.lt_of_le_of_lt hlength hroom) i
  rwa [mapOf, if_pos (Int.natCast_nonneg i), Int.toNat_natCast] at hfinds

end OllistT

end TruckControl
