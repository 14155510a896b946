import TruckControl.Verification.OllistMap

/-!
# Taking records out of the list

The pointer to the node before is what a node is unlinked through. At the head it is the
node itself, and the list goes on pointing at what has been freed.
-/

namespace TruckControl

open LinkedList

namespace OllistT

variable {l l' : OllistT} {as : List ℕ} {m : ℤ → Option OData} {fuel : ℕ} {i : ℤ}
  {left : ListNode ℤ ℕ → ListNode ℤ ℕ}

/-- No freed node is reachable from the head of the list. -/
def NoFreed (l : OllistT) : Prop := ∀ a, Reaches l.nodes l.first a → l.nodes.live a = true

theorem Represents.noFreed (h : l.Represents as m) : l.NoFreed :=
  fun a ha => h.live a (h.chain.mem_of_reaches ha)

theorem not_noFreed {a : ℕ} (hfirst : l.first = some a) (hfree : l.nodes.live a = false) :
    ¬ l.NoFreed := by
  intro h
  have hlive := h a (by rw [hfirst]; exact .here a)
  rw [hfree] at hlive
  cases hlive

/-! ## Unlinking a node -/

@[simp] theorem live_unlink_self (cur prev : ℕ) (nodes : Memory (ListNode ℤ ℕ)) :
    (unlink left cur prev nodes).live cur = false :=
  Memory.live_free_self ..

/-- Nothing is allocated when a node is unlinked. -/
theorem live_unlink {cur prev a : ℕ} {nodes : Memory (ListNode ℤ ℕ)}
    (h : nodes.live a = false) : (unlink left cur prev nodes).live a = false := by
  by_cases ha : a = cur
  · rw [ha, live_unlink_self]
  · rw [unlink, Memory.live_free_of_ne _ left ha, Memory.live_set, h]

/-- Behind another node it works: the index is gone, and nothing else. The node itself may
have been written to before. -/
theorem Represents.unlink {lo hi : List ℕ} {a b : ℕ} (h : l.Represents (lo ++ [b] ++ a :: hi) m)
    (left : ListNode ℤ ℕ → ListNode ℤ ℕ) (nodes : Memory (ListNode ℤ ℕ))
    (hlive : nodes.live = l.nodes.live)
    (hsame : ∀ c, c ≠ a → nodes.content c = l.nodes.content c)
    (hnext : (nodes.content a).next = (l.nodes.content a).next) :
    Represents { l with nodes := unlink left a b nodes } (lo ++ [b] ++ hi)
      (Function.update m (l.nodes.content a).key none) := by
  have hnodup := h.ordered.nodup
  have hsub : (lo ++ [b] ++ hi).Sublist (lo ++ [b] ++ a :: hi) :=
    (List.Sublist.refl _).append (List.sublist_cons_self a hi)
  have hmem (c : ℕ) (hc : c ∈ lo ++ [b] ++ hi) : c ∈ lo ++ [b] ++ a :: hi := hsub.subset hc
  have haNot : a ∉ lo ++ [b] ++ hi := by
    exact (List.nodup_cons.mp (List.nodup_middle.mp hnodup)).1
  have hcases (c : ℕ) (hc : c ∈ lo ++ [b] ++ a :: hi) : c = a ∨ c ∈ lo ++ [b] ++ hi := by
    simp only [List.mem_append, List.mem_cons] at hc ⊢
    tauto
  obtain ⟨hbLo, hbHi⟩ : b ∉ lo ∧ b ∉ a :: hi := by
    rw [List.append_assoc] at hnodup
    simpa using (List.nodup_cons.mp (List.nodup_middle.mp hnodup)).1
  -- key and value of the other nodes
  have hkeep (c : ℕ) (hc : c ∈ lo ++ [b] ++ hi) :
      ((OllistT.unlink left a b nodes).content c).key = (l.nodes.content c).key ∧
        ((OllistT.unlink left a b nodes).content c).value = (l.nodes.content c).value := by
    have hca : c ≠ a := ne_of_mem_of_not_mem hc haNot
    have hset := key_value_set_next nodes b (nodes.content a).next c
    rw [OllistT.unlink, Memory.content_free_of_ne _ left hca, ← hsame c hca]
    exact hset
  have hchain : Segment nodes l.first (lo ++ [b] ++ a :: hi) none := by
    refine h.chain.congr fun c _ => ?_
    by_cases hca : c = a
    · rw [hca, hnext]
    · rw [hsame c hca]
  refine ⟨?_, ?_, ?_, ?_, ?_, ?_⟩
  · have haLo : a ∉ lo ++ [b] := fun hc => haNot (List.mem_append_left hi hc)
    have haHi : a ∉ hi := fun hc => haNot (List.mem_append_right (lo ++ [b]) hc)
    exact hchain.unlink hbLo haLo (fun hc => hbHi (List.mem_cons_of_mem a hc)) haHi left
  · have hord : Ordered l.nodes (lo ++ [b] ++ hi) := List.Pairwise.sublist hsub h.ordered
    exact hord.congr fun c hc => (hkeep c hc).1
  · intro c hc
    have hca : c ≠ a := ne_of_mem_of_not_mem hc haNot
    rw [OllistT.unlink, Memory.live_free_of_ne _ left hca, Memory.live_set, hlive]
    exact h.live c (hmem c hc)
  · intro c hc
    rw [(hkeep c hc).2]
    exact h.data_live c (hmem c hc)
  · intro c hc e he heq
    rw [(hkeep c hc).2, (hkeep e he).2] at heq
    exact h.values c (hmem c hc) e (hmem e he) heq
  · have hrest (c : ℕ) : c ∈ lo ++ [b] ++ hi ↔
        c ∈ lo ++ [b] ++ a :: hi ∧ (l.nodes.content c).key ≠ (l.nodes.content a).key := by
      constructor
      · intro hc
        refine ⟨hmem c hc, fun heq => ?_⟩
        have hca := h.ordered.key_injective (hmem c hc) (by simp) heq
        exact ne_of_mem_of_not_mem hc haNot hca
      · rintro ⟨hc, hkey⟩
        refine (hcases c hc).resolve_left fun hca => hkey ?_
        rw [hca]
    refine h.stored.erase hrest fun c hc => ⟨(hkeep c hc).1, ?_⟩
    dsimp only
    rw [(hkeep c hc).2]

/-! ## What a search for the node to unlink comes to -/

/-- The three cases of a list and an index, with the way the loop ends in each. -/
inductive Position (l : OllistT) (as : List ℕ) (m : ℤ → Option OData) (fuel : ℕ) (i : ℤ) : Prop
  | absent (hnone : m i = none)
      (hwalk : ∃ cur prev, walk l.nodes i fuel l.first l.first = some (.miss cur prev))
  | head (a : ℕ) (hfirst : l.first = some a) (hkey : (l.nodes.content a).key = i)
      (hwalk : walk l.nodes i fuel l.first l.first = some (.hit a (some a)))
  | behind (lo : List ℕ) (b a : ℕ) (hi : List ℕ) (has : as = lo ++ [b] ++ a :: hi)
      (hkey : (l.nodes.content a).key = i)
      (hwalk : walk l.nodes i fuel l.first l.first = some (.hit a (some b)))

theorem Represents.position (h : l.Represents as m) (hfuel : as.length < fuel) (i : ℤ) :
    Position l as m fuel i := by
  have hsearch := search i h.chain h.ordered hfuel l.first
  generalize hwalk : walk l.nodes i fuel l.first l.first = r at hsearch
  cases hsearch with
  | hit lo a hi has hkey =>
      rcases List.eq_nil_or_concat' lo with rfl | ⟨lo, b, rfl⟩
      · have hfirst : l.first = some a := by rw [h.chain.eq_head, has]; rfl
        refine .head a hfirst hkey ?_
        rw [hwalk, before_nil, hfirst]
      · refine .behind lo b a hi has hkey ?_
        rw [hwalk, before_concat]
  | miss lo hi has hlo hhi =>
      refine .absent (h.eq_none fun a ha => ?_) ⟨_, _, hwalk⟩
      rw [has] at ha
      rcases List.mem_append.mp ha with ha | ha
      · exact ne_of_lt (hlo a ha)
      · exact ne_of_gt (hhi a ha)

/-- The index of a node is present. -/
theorem Represents.eq_some (h : l.Represents as m) {a : ℕ} (ha : a ∈ as)
    (hkey : (l.nodes.content a).key = i) :
    m i = some (l.data.content (l.nodes.content a).value) :=
  (h.lookup i _).mpr ⟨a, ha, hkey, rfl⟩

/-- The index of the first node. -/
def HeadIndex (l : OllistT) (i : ℤ) : Prop :=
  ∃ a, l.first = some a ∧ (l.nodes.content a).key = i

/-- Behind the head another index is the first. -/
theorem Represents.not_headIndex {lo hi : List ℕ} {a b : ℕ}
    (h : l.Represents (lo ++ [b] ++ a :: hi) m) (hkey : (l.nodes.content a).key = i) :
    ¬ l.HeadIndex i := by
  rintro ⟨c, hfirst, hc⟩
  rw [h.chain.eq_head] at hfirst
  have hcMem : c ∈ lo ++ [b] ++ a :: hi := List.mem_of_mem_head? hfirst
  have hca : c = a := h.ordered.key_injective hcMem (by simp) (hc.trans hkey.symm)
  have hnodup := h.ordered.nodup
  have hhead : (a :: hi).head? ≠ (lo ++ [b] ++ a :: hi).head? := head?_ne_of_nodup hnodup
  rw [hfirst, hca] at hhead
  exact hhead rfl

theorem Represents.not_headIndex_of_eq_none (h : l.Represents as m) (hnone : m i = none) :
    ¬ l.HeadIndex i := by
  rintro ⟨a, hfirst, hkey⟩
  rw [h.chain.eq_head] at hfirst
  rw [h.eq_some (List.mem_of_mem_head? hfirst) hkey] at hnone
  cases hnone

/-! ## `ollist_remove_data` -/

/-- The index is gone, everything else is as it was, the record is handed out, and the list
is sound. -/
structure Removed (m : ℤ → Option OData) (fuel : ℕ) (i : ℤ) (l' : OllistT) (datap : Option ℕ) :
    Prop where
  absent : l'.Finds fuel i none
  others : ∀ j, j ≠ i → l'.Finds fuel j (m j)
  returned : match m i with
    | some d => ∃ p, datap = some p ∧ l'.data.live p = true ∧ l'.data.content p = d
    | none => datap = none
  noFreed : l'.NoFreed

def RemoveWorks (left : ListNode ℤ ℕ → ListNode ℤ ℕ) (fuel : ℕ) (i : ℤ) (l : OllistT)
    (m : ℤ → Option OData) : Prop :=
  ∃ l' datap, l.removeData left fuel i = some (l', datap) ∧ Removed m fuel i l' datap

theorem Represents.removeWorks_iff (h : l.Represents as m) (hfuel : as.length < fuel) :
    RemoveWorks left fuel i l m ↔ ¬ l.HeadIndex i := by
  cases h.position hfuel i with
  | absent hnone hwalk =>
      obtain ⟨cur, prev, hwalk⟩ := hwalk
      refine iff_of_true ⟨l, none, by rw [removeData, hwalk], ?_, fun j _ => h.finds hfuel j, ?_,
        h.noFreed⟩ (h.not_headIndex_of_eq_none hnone)
      · rw [← hnone]
        exact h.finds hfuel i
      · rw [hnone]
  | head a hfirst hkey hwalk =>
      refine iff_of_false ?_ (not_not_intro ⟨a, hfirst, hkey⟩)
      rintro ⟨l', datap, hstep, hremoved⟩
      rw [removeData, hwalk] at hstep
      cases hstep
      exact absurd hremoved.noFreed (not_noFreed hfirst (live_unlink_self a a l.nodes))
  | behind lo b a hi has hkey hwalk =>
      subst has
      have hlength : (lo ++ [b] ++ hi).length < fuel := by
        simp only [List.length_append, List.length_cons] at hfuel ⊢
        omega
      have h' := h.unlink left l.nodes rfl (fun c _ => rfl) rfl
      rw [hkey] at h'
      refine iff_of_true ⟨_, _, by rw [removeData, hwalk], ?_, ?_, ?_, h'.noFreed⟩
        (h.not_headIndex hkey)
      · have hfinds := h'.finds hlength i
        rwa [Function.update_self] at hfinds
      · intro j hj
        have hfinds := h'.finds hlength j
        rwa [Function.update_of_ne hj] at hfinds
      · rw [h.eq_some (by simp) hkey]
        exact ⟨_, rfl, h.data_live a (by simp), rfl⟩

/-! ## `ollist_removeall_data` -/

def RemoveallWorks (left : ListNode ℤ ℕ → ListNode ℤ ℕ) (fuel : ℕ) (l : OllistT) : Prop :=
  ∃ l', l.removeallData left fuel = some l' ∧ (∀ j, l'.Finds fuel j none) ∧ l'.NoFreed

/-- What is freed stays so through the loop, whatever the freed nodes read as. -/
theorem live_removeallLoop {a : ℕ} (fuel : ℕ) {cur prev : Option ℕ}
    {nodes nodes' : Memory (ListNode ℤ ℕ)} (hfree : nodes.live a = false)
    (hloop : removeallLoop left fuel cur prev nodes = some nodes') : nodes'.live a = false := by
  induction fuel generalizing cur prev nodes with
  | zero => cases hloop
  | succ fuel ih =>
      cases cur with
      | none =>
          rw [removeallLoop, Option.some.injEq] at hloop
          rw [← hloop, hfree]
      | some cur =>
          cases prev with
          | none => cases hloop
          | some prev => exact ih (live_unlink hfree) hloop

theorem Represents.removeallWorks_iff (h : l.Represents as m) (hfuel : as.length < fuel) :
    RemoveallWorks left fuel l ↔ l.first = none := by
  cases hfirst : l.first with
  | none =>
      have has : as = [] := by
        have hhead := h.chain.eq_head
        rw [hfirst] at hhead
        exact List.head?_eq_none_iff.mp hhead.symm
      subst has
      have hloop : l.removeallData left fuel = some l := by
        cases fuel with
        | zero => exact absurd hfuel (Nat.not_lt_zero _)
        | succ fuel => rw [removeallData, hfirst, removeallLoop, Option.map_some, ← hfirst]
      refine iff_of_true ⟨l, hloop, fun j => ?_, h.noFreed⟩ rfl
      have hnone : m j = none := h.eq_none (by simp)
      rw [← hnone]
      exact h.finds hfuel j
  | some a =>
      refine iff_of_false ?_ (by simp)
      rintro ⟨l', hstep, -, hsound⟩
      rw [removeallData, hfirst, Option.map_eq_some_iff] at hstep
      obtain ⟨nodes, hloop, rfl⟩ := hstep
      cases fuel with
      | zero => cases hloop
      | succ fuel =>
          rw [removeallLoop] at hloop
          have hfree := live_removeallLoop fuel (live_unlink_self a a l.nodes) hloop
          exact absurd hsound (not_noFreed rfl hfree)

/-! ## `ollist_change_data` -/

/-- On a present index the new record is found, and the others are; on an absent one the
status is -1 and the list is as it was. -/
def ChangeWorks (left : ListNode ℤ ℕ → ListNode ℤ ℕ) (fuel : ℕ) (i : ℤ) (datap : ℕ)
    (l : OllistT) (m : ℤ → Option OData) : Prop :=
  match m i with
  | some _ => ∃ l' status, l.changeData left fuel i datap = some (l', status) ∧
      l'.Finds fuel i (some (l.data.content datap)) ∧ (∀ j, j ≠ i → l'.Finds fuel j (m j)) ∧
      l'.NoFreed
  | none => l.changeData left fuel i datap = some (l, -1) ∧ l.NoFreed

theorem Represents.changeWorks_iff (h : l.Represents as m) (hfuel : as.length < fuel)
    (datap : ℕ) : ChangeWorks left fuel i datap l m ↔ m i = none := by
  cases h.position hfuel i with
  | absent hnone hwalk =>
      obtain ⟨cur, prev, hwalk⟩ := hwalk
      refine iff_of_true ?_ hnone
      rw [ChangeWorks, hnone]
      exact ⟨by rw [changeData, hwalk], h.noFreed⟩
  | head a hfirst hkey hwalk =>
      have ha : a ∈ as := by
        rw [h.chain.eq_head] at hfirst
        exact List.mem_of_mem_head? hfirst
      rw [ChangeWorks, h.eq_some ha hkey]
      refine iff_of_false ?_ (by simp)
      rintro ⟨l', status, hstep, -, -, hsound⟩
      rw [changeData, hwalk] at hstep
      cases hstep
      exact absurd hsound (not_noFreed hfirst (live_unlink_self a a _))
  | behind lo b a hi has hkey hwalk =>
      subst has
      have hlength : (lo ++ [b] ++ hi).length < fuel := by
        simp only [List.length_append, List.length_cons] at hfuel ⊢
        omega
      rw [ChangeWorks, h.eq_some (by simp) hkey]
      refine iff_of_false ?_ (by simp)
      rintro ⟨l', status, hstep, hfinds, -, -⟩
      rw [changeData, hwalk] at hstep
      cases hstep
      -- the node with the new record has been taken out
      have h' := h.unlink left (l.nodes.set a { l.nodes.content a with value := datap }) rfl
        (fun c hc => l.nodes.content_set_of_ne hc _) (by rw [Memory.content_set_self])
      have hgone := h'.finds hlength i
      rw [hkey, Function.update_self] at hgone
      obtain ⟨p, hfound, -⟩ := hfinds
      rw [Finds, hfound] at hgone
      cases hgone

/-! ## All three -/

/-- The operations work exactly where no node is unlinked at the head: removal of one index
on any but the first, removal of all on the empty list, a change nowhere but on an absent
index, where there is nothing to do. -/
theorem removal_iff (h : l.Represents as m) (hfuel : as.length < fuel)
    (left : ListNode ℤ ℕ → ListNode ℤ ℕ) (i : ℤ) (datap : ℕ) :
    (RemoveWorks left fuel i l m ↔ ¬ l.HeadIndex i) ∧
      (RemoveallWorks left fuel l ↔ l.first = none) ∧
      (ChangeWorks left fuel i datap l m ↔ m i = none) :=
  ⟨h.removeWorks_iff hfuel, h.removeallWorks_iff hfuel, h.changeWorks_iff hfuel datap⟩

/-- A list of two records, under the indexes 2 and 7. -/
def twoRecords : OllistT where
  first := some 0
  nodes := ⟨fun a => if a = 0 then ⟨2, 0, some 1⟩ else ⟨7, 1, none⟩, fun a => a < 2⟩
  data := ⟨fun p => { (default : OData) with port := BitVec.ofNat 8 p }, fun p => p < 3⟩

/-- The records by their indexes. -/
def twoRecordsMap : ℤ → Option OData :=
  Function.update (Function.update (fun _ => none) 7 (some (twoRecords.data.content 1))) 2
    (some (twoRecords.data.content 0))

theorem represents_twoRecords : twoRecords.Represents [0, 1] twoRecordsMap where
  chain := .cons 0 (.cons 1 (.nil none))
  ordered := by
    rw [Ordered]
    decide
  live := by decide
  data_live := by decide
  values := by decide
  lookup := by
    intro i d
    rw [twoRecordsMap]
    by_cases h2 : i = 2
    · subst h2
      simp [twoRecords]
    · rw [Function.update_of_ne h2]
      by_cases h7 : i = 7
      · subst h7
        simp [twoRecords]
      · rw [Function.update_of_ne h7]
        simp [twoRecords, Ne.symm h2, Ne.symm h7]

/-- The second record can be removed. -/
theorem removal_twoRecords : RemoveWorks id 3 7 twoRecords twoRecordsMap := by
  refine (removal_iff represents_twoRecords (by decide : [0, 1].length < 3) id 7 2).1.mpr ?_
  rintro ⟨a, hfirst, hkey⟩
  cases hfirst
  exact absurd hkey (by decide)

/-- The first cannot, nor can all be, nor can the second be changed. -/
theorem removal_twoRecords_fails :
    ¬ RemoveWorks id 3 2 twoRecords twoRecordsMap ∧ ¬ RemoveallWorks id 3 twoRecords ∧
      ¬ ChangeWorks id 3 7 2 twoRecords twoRecordsMap := by
  have hfuel : [0, 1].length < 3 := by decide
  refine ⟨?_, ?_, ?_⟩
  · rw [represents_twoRecords.removeWorks_iff hfuel]
    exact not_not_intro ⟨0, rfl, rfl⟩
  · rw [represents_twoRecords.removeallWorks_iff hfuel]
    exact Option.some_ne_none 0
  · rw [represents_twoRecords.changeWorks_iff hfuel]
    have hkey : twoRecordsMap 7 = some (twoRecords.data.content 1) := rfl
    rw [hkey]
    exact Option.some_ne_none _

end OllistT

end TruckControl
