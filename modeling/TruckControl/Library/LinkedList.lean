import Mathlib.Data.List.Nodup
import Mathlib.Logic.Function.Basic
import Mathlib.Order.Lattice

/-!
# Singly linked lists in memory

Blocks of memory are allocated and freed one by one. A freed block can still be read, and
what it holds then is anybody's guess. Lists are chains of nodes through such a memory; a
search walks along one with a pointer to the node before.
-/

namespace TruckControl

/-- What each block holds, and whether it is allocated. -/
structure Memory (α : Type*) where
  content : ℕ → α
  live : ℕ → Bool

namespace Memory

variable {α : Type*} (m : Memory α)

def set (a : ℕ) (x : α) : Memory α := { m with content := Function.update m.content a x }

def alloc (a : ℕ) (x : α) : Memory α :=
  { content := Function.update m.content a x, live := Function.update m.live a true }

/-- Free a block. `left` is what it then reads as. -/
def free (left : α → α) (a : ℕ) : Memory α :=
  { content := Function.update m.content a (left (m.content a))
    live := Function.update m.live a false }

@[simp] theorem live_set (a : ℕ) (x : α) : (m.set a x).live = m.live := rfl

@[simp] theorem content_set_self (a : ℕ) (x : α) : (m.set a x).content a = x :=
  Function.update_self ..

theorem content_set_of_ne {a b : ℕ} (h : b ≠ a) (x : α) :
    (m.set a x).content b = m.content b := Function.update_of_ne h ..

@[simp] theorem content_alloc_self (a : ℕ) (x : α) : (m.alloc a x).content a = x :=
  Function.update_self ..

theorem content_alloc_of_ne {a b : ℕ} (h : b ≠ a) (x : α) :
    (m.alloc a x).content b = m.content b := Function.update_of_ne h ..

@[simp] theorem live_alloc_self (a : ℕ) (x : α) : (m.alloc a x).live a = true :=
  Function.update_self ..

theorem live_alloc_of_ne {a b : ℕ} (h : b ≠ a) (x : α) : (m.alloc a x).live b = m.live b :=
  Function.update_of_ne h ..

/-- A block stays allocated while others are. -/
theorem live_alloc {b : ℕ} (h : m.live b = true) (a : ℕ) (x : α) :
    (m.alloc a x).live b = true := by
  by_cases hb : b = a
  · rw [hb, live_alloc_self]
  · rw [m.live_alloc_of_ne hb, h]

@[simp] theorem live_free_self (left : α → α) (a : ℕ) : (m.free left a).live a = false :=
  Function.update_self ..

theorem live_free_of_ne (left : α → α) {a b : ℕ} (h : b ≠ a) :
    (m.free left a).live b = m.live b := Function.update_of_ne h ..

theorem content_free_of_ne (left : α → α) {a b : ℕ} (h : b ≠ a) :
    (m.free left a).content b = m.content b := Function.update_of_ne h ..

end Memory

/-- A node of a list. -/
structure ListNode (κ ν : Type*) where
  key : κ
  value : ν
  next : Option ℕ

namespace LinkedList

variable {κ ν : Type*} {m m' : Memory (ListNode κ ν)} {p q : Option ℕ} {as bs : List ℕ}

/-! ## Chains -/

/-- The nodes `as` lead from a pointer to another, each to the next. -/
inductive Segment (m : Memory (ListNode κ ν)) : Option ℕ → List ℕ → Option ℕ → Prop
  | nil (p : Option ℕ) : Segment m p [] p
  | cons (a : ℕ) {as : List ℕ} {q : Option ℕ} (h : Segment m (m.content a).next as q) :
      Segment m (some a) (a :: as) q

/-- A node that is reached by following the pointers. -/
inductive Reaches (m : Memory (ListNode κ ν)) : Option ℕ → ℕ → Prop
  | here (a : ℕ) : Reaches m (some a) a
  | next (a : ℕ) {b : ℕ} (h : Reaches m (m.content a).next b) : Reaches m (some a) b

namespace Segment

theorem append (h : Segment m p as q) {r : Option ℕ} (h' : Segment m q bs r) :
    Segment m p (as ++ bs) r := by
  induction h with
  | nil p => exact h'
  | cons a h ih => exact .cons a (ih h')

theorem split (h : Segment m p (as ++ bs) q) : ∃ r, Segment m p as r ∧ Segment m r bs q := by
  induction as generalizing p with
  | nil => exact ⟨p, .nil p, h⟩
  | cons a as ih =>
      cases h with
      | cons a h =>
          obtain ⟨r, hleft, hright⟩ := ih h
          exact ⟨r, .cons a hleft, hright⟩

/-- A chain depends on the pointers of its own nodes only. -/
theorem congr (h : Segment m p as q)
    (hsame : ∀ a ∈ as, (m'.content a).next = (m.content a).next) : Segment m' p as q := by
  induction h with
  | nil p => exact .nil p
  | cons a h ih =>
      obtain ⟨ha, has⟩ := List.forall_mem_cons.mp hsame
      refine .cons a ?_
      rw [ha]
      exact ih has

/-- Where a chain begins. -/
theorem eq_head (h : Segment m p as none) : p = as.head? := by
  cases h with
  | nil => rfl
  | cons a h => rfl

/-- The nodes that are reached are those of the chain. -/
theorem mem_of_reaches (h : Segment m p as none) {b : ℕ} (hb : Reaches m p b) : b ∈ as := by
  induction hb generalizing as with
  | here a =>
      cases h with
      | cons a h => exact List.mem_cons_self
  | next a hb ih =>
      cases h with
      | cons a h => exact List.mem_cons_of_mem a (ih h)

/-- Redirect the last pointer of a chain. -/
theorem redirect {b : ℕ} (h : Segment m p (as ++ [b]) q)
    (hsame : ∀ a ∈ as, (m'.content a).next = (m.content a).next) :
    Segment m' p (as ++ [b]) (m'.content b).next := by
  obtain ⟨r, hleft, hright⟩ := h.split
  cases hright with
  | cons b hright => exact (hleft.congr hsame).append (.cons b (.nil _))

end Segment

/-! ## Redirected pointers -/

/-- Another pointer in a node leaves its key and its value. -/
theorem key_value_set_next (m : Memory (ListNode κ ν)) (a : ℕ) (q : Option ℕ) (b : ℕ) :
    ((m.set a { m.content a with next := q }).content b).key = (m.content b).key ∧
      ((m.set a { m.content a with next := q }).content b).value = (m.content b).value := by
  by_cases hb : b = a
  · rw [hb, Memory.content_set_self]
    exact ⟨rfl, rfl⟩
  · rw [m.content_set_of_ne hb]
    exact ⟨rfl, rfl⟩

/-- Put a node behind another. -/
theorem Segment.insert_behind {a b : ℕ} {hi : List ℕ} (h : Segment m p (as ++ [a]) q)
    (hrest : Segment m q hi none) (ha : a ∉ as) (hb : b ∉ as ++ [a]) (hhi : a ∉ hi)
    (hbhi : b ∉ hi) (key : κ) (value : ν) :
    let added := m.alloc b ⟨key, value, q⟩
    Segment (added.set a { added.content a with next := some b }) p (as ++ [a] ++ b :: hi)
      none := by
  intro added
  have hba : b ≠ a := fun heq => hb (heq ▸ List.mem_append_right as List.mem_cons_self)
  have hkeep (c : ℕ) (hca : c ≠ a) (hcb : c ≠ b) :
      (added.set a { added.content a with next := some b }).content c = m.content c := by
    rw [added.content_set_of_ne hca, m.content_alloc_of_ne hcb]
  have hfront : Segment (added.set a { added.content a with next := some b }) p (as ++ [a])
      ((added.set a { added.content a with next := some b }).content a).next := by
    refine h.redirect fun c hc => ?_
    rw [hkeep c (ne_of_mem_of_not_mem hc ha)
      (ne_of_mem_of_not_mem (List.mem_append_left [a] hc) hb)]
  rw [Memory.content_set_self] at hfront
  refine hfront.append (.cons b ?_)
  rw [added.content_set_of_ne hba, Memory.content_alloc_self]
  refine hrest.congr fun c hc => ?_
  rw [hkeep c (ne_of_mem_of_not_mem hc hhi) (ne_of_mem_of_not_mem hc hbhi)]

/-- Put a node before all others. -/
theorem Segment.insert_front {b : ℕ} (h : Segment m p as none) (hb : b ∉ as) (key : κ)
    (value : ν) : Segment (m.alloc b ⟨key, value, p⟩) (some b) (b :: as) none := by
  refine .cons b ?_
  rw [Memory.content_alloc_self]
  refine h.congr fun c hc => ?_
  rw [m.content_alloc_of_ne (ne_of_mem_of_not_mem hc hb)]

/-- Take the node behind another out of a chain. -/
theorem Segment.unlink {a b : ℕ} {hi : List ℕ} (h : Segment m p (as ++ [a] ++ b :: hi) none)
    (ha : a ∉ as) (hb : b ∉ as ++ [a]) (hhi : a ∉ hi) (hbhi : b ∉ hi)
    (left : ListNode κ ν → ListNode κ ν) :
    Segment ((m.set a { m.content a with next := (m.content b).next }).free left b) p
      (as ++ [a] ++ hi) none := by
  have hab : a ≠ b := fun heq => hb (heq ▸ List.mem_append_right as List.mem_cons_self)
  have hkeep (c : ℕ) (hca : c ≠ a) (hcb : c ≠ b) :
      ((m.set a { m.content a with next := (m.content b).next }).free left b).content c =
        m.content c := by
    rw [Memory.content_free_of_ne _ left hcb, m.content_set_of_ne hca]
  obtain ⟨r, hleft, hright⟩ := h.split
  have hfront : Segment ((m.set a { m.content a with next := (m.content b).next }).free left b) p
      (as ++ [a])
      (((m.set a { m.content a with next := (m.content b).next }).free left b).content a).next := by
    refine hleft.redirect fun c hc => ?_
    rw [hkeep c (ne_of_mem_of_not_mem hc ha)
      (ne_of_mem_of_not_mem (List.mem_append_left [a] hc) hb)]
  rw [Memory.content_free_of_ne _ left hab, Memory.content_set_self] at hfront
  cases hright with
  | cons b hright =>
      refine hfront.append (hright.congr fun c hc => ?_)
      rw [hkeep c (ne_of_mem_of_not_mem hc hhi) (ne_of_mem_of_not_mem hc hbhi)]

/-! ## The search -/

variable [LinearOrder κ] {key : κ}

/-- The nodes are in strictly increasing order of their keys. -/
def Ordered (m : Memory (ListNode κ ν)) (as : List ℕ) : Prop :=
  as.Pairwise fun a b => (m.content a).key < (m.content b).key

theorem Ordered.nodup (h : Ordered m as) : as.Nodup := by
  refine List.Pairwise.imp (fun {a b} hlt => ?_) h
  intro heq
  rw [heq] at hlt
  exact lt_irrefl _ hlt

theorem Ordered.key_injective (h : Ordered m as) {a b : ℕ} (ha : a ∈ as) (hb : b ∈ as)
    (heq : (m.content a).key = (m.content b).key) : a = b := by
  have hmap : (as.map fun a => (m.content a).key).Nodup := by
    refine List.Pairwise.imp (fun {j k} hlt => ne_of_lt hlt) (R := fun j k => j < k) ?_
    exact List.pairwise_map.mpr h
  exact List.inj_on_of_nodup_map hmap ha hb heq

/-- A node whose key is between those before and those behind it keeps the order. -/
theorem Ordered.insert {lo hi : List ℕ} {b : ℕ} (h : Ordered m (lo ++ hi))
    (hlo : ∀ a ∈ lo, (m.content a).key < (m.content b).key)
    (hhi : ∀ a ∈ hi, (m.content b).key < (m.content a).key) : Ordered m (lo ++ b :: hi) := by
  obtain ⟨hfront, hback, hcross⟩ := List.pairwise_append.mp h
  refine List.pairwise_append.mpr ⟨hfront, List.pairwise_cons.mpr ⟨hhi, hback⟩, ?_⟩
  intro a ha c hc
  rcases List.mem_cons.mp hc with rfl | hc
  · exact hlo a ha
  · exact hcross a ha c hc

/-- The order depends on the keys of the nodes only. -/
theorem Ordered.congr (h : Ordered m as)
    (hsame : ∀ a ∈ as, (m'.content a).key = (m.content a).key) : Ordered m' as := by
  refine List.Pairwise.imp_of_mem (fun {a b} ha hb hlt => ?_) h
  rw [hsame a ha, hsame b hb]
  exact hlt

/-- Where a search ends: at a node with the key, or where such a node would have to be
inserted; and the node before. -/
inductive Stop where
  | hit (cur : ℕ) (prev : Option ℕ)
  | miss (cur prev : Option ℕ)
  deriving DecidableEq, Repr

/-- Walk to the first node whose key is not smaller. `fuel` bounds the turns: without
any left the search has not ended. -/
def walk (m : Memory (ListNode κ ν)) (key : κ) : ℕ → Option ℕ → Option ℕ → Option Stop
  | 0, _, _ => none
  | _ + 1, none, prev => some (.miss none prev)
  | fuel + 1, some cur, prev =>
      if (m.content cur).key = key then some (.hit cur prev)
      else if (m.content cur).key > key then some (.miss (some cur) prev)
      else walk m key fuel (m.content cur).next (some cur)

/-- The node before: the last one passed, or the one that was there at the start. -/
def before (lo : List ℕ) (prev : Option ℕ) : Option ℕ := (lo.map some).getLastD prev

@[simp] theorem before_nil (prev : Option ℕ) : before [] prev = prev := rfl

theorem before_cons (a : ℕ) (lo : List ℕ) (prev : Option ℕ) :
    before (a :: lo) prev = before lo (some a) := by
  rw [before, List.map_cons, List.getLastD_cons, before]

@[simp] theorem before_concat (lo : List ℕ) (b : ℕ) (prev : Option ℕ) :
    before (lo ++ [b]) prev = some b := by
  rw [before, List.map_append, List.map_singleton, List.getLastD_concat]

/-- What a search along ordered nodes comes to. -/
inductive Search (m : Memory (ListNode κ ν)) (key : κ) (as : List ℕ) (prev : Option ℕ) :
    Option Stop → Prop
  | hit (lo : List ℕ) (a : ℕ) (hi : List ℕ) (has : as = lo ++ a :: hi)
      (hkey : (m.content a).key = key) : Search m key as prev (some (.hit a (before lo prev)))
  | miss (lo hi : List ℕ) (has : as = lo ++ hi) (hlo : ∀ a ∈ lo, (m.content a).key < key)
      (hhi : ∀ a ∈ hi, key < (m.content a).key) :
      Search m key as prev (some (.miss hi.head? (before lo prev)))

theorem search (key : κ) (h : Segment m p as none) (hord : Ordered m as) {fuel : ℕ}
    (hfuel : as.length < fuel) (prev : Option ℕ) :
    Search m key as prev (walk m key fuel p prev) := by
  induction as generalizing p prev fuel with
  | nil =>
      cases fuel with
      | zero => exact absurd hfuel (Nat.not_lt_zero _)
      | succ fuel =>
          cases h with
          | nil => exact .miss [] [] rfl (by simp) (by simp)
  | cons a as ih =>
      cases fuel with
      | zero => exact absurd hfuel (Nat.not_lt_zero _)
      | succ fuel =>
          cases h with
          | cons a h =>
              obtain ⟨ha, has⟩ := List.pairwise_cons.mp hord
              rw [walk]
              split_ifs with heq hgt
              · exact .hit [] a as rfl heq
              · refine .miss [] (a :: as) rfl (by simp) ?_
                intro b hb
                rcases List.mem_cons.mp hb with rfl | hb
                · exact hgt
                · exact lt_trans hgt (ha b hb)
              · have hlt : (m.content a).key < key := lt_of_le_of_ne (not_lt.mp hgt) heq
                have hrest := ih h has (Nat.lt_of_succ_lt_succ hfuel) (some a)
                generalize walk m key fuel (m.content a).next (some a) = r at hrest ⊢
                cases hrest with
                | hit lo b hi hsplit hkey =>
                    rw [← before_cons a lo prev]
                    exact .hit (a :: lo) b hi (by rw [hsplit, List.cons_append]) hkey
                | miss lo hi hsplit hlo hhi =>
                    rw [← before_cons a lo prev]
                    refine .miss (a :: lo) hi (by rw [hsplit, List.cons_append]) ?_ hhi
                    exact List.forall_mem_cons.mpr ⟨hlt, hlo⟩

/-! ## The entries of a map -/

section

variable {m : κ → Option ν} {as rest : List ℕ} {key key' : ℕ → κ} {val val' : ℕ → ν} {i : κ}
  {b : ℕ}

/-- The nodes hold what the map holds. -/
def Entries (as : List ℕ) (key : ℕ → κ) (val : ℕ → ν) (m : κ → Option ν) : Prop :=
  ∀ i d, m i = some d ↔ ∃ a ∈ as, key a = i ∧ val a = d

/-- Without the nodes of a key the nodes hold the map without it. -/
theorem Entries.erase (h : Entries as key val m) (hrest : ∀ c, c ∈ rest ↔ c ∈ as ∧ key c ≠ i)
    (hsame : ∀ c ∈ rest, key' c = key c ∧ val' c = val c) :
    Entries rest key' val' (Function.update m i none) := by
  intro j d
  by_cases hj : j = i
  · rw [hj, Function.update_self]
    constructor
    · intro hd
      cases hd
    · rintro ⟨c, hc, hkey, -⟩
      rw [(hsame c hc).1] at hkey
      exact absurd hkey ((hrest c).mp hc).2
  · rw [Function.update_of_ne hj, h]
    constructor
    · rintro ⟨c, hc, hkey, hval⟩
      have hc' : c ∈ rest := (hrest c).mpr ⟨hc, fun heq => hj (hkey.symm.trans heq)⟩
      exact ⟨c, hc', (hsame c hc').1.trans hkey, (hsame c hc').2.trans hval⟩
    · rintro ⟨c, hc, hkey, hval⟩
      rw [(hsame c hc).1] at hkey
      rw [(hsame c hc).2] at hval
      exact ⟨c, ((hrest c).mp hc).1, hkey, hval⟩

/-- A node of a key that no other node has. -/
theorem Entries.insert (h : Entries rest key val (Function.update m i none)) (hb : key b = i)
    (has : ∀ c, c ∈ as ↔ c = b ∨ c ∈ rest) :
    Entries as key val (Function.update m i (some (val b))) := by
  intro j d
  have hj := h j d
  by_cases hji : j = i
  · rw [hji, Function.update_self] at hj
    rw [hji, Function.update_self, Option.some.injEq]
    constructor
    · intro heq
      exact ⟨b, (has b).mpr (.inl rfl), hb, heq⟩
    · rintro ⟨c, hc, hkey, hval⟩
      rcases (has c).mp hc with rfl | hc
      · exact hval
      · cases hj.mpr ⟨c, hc, hkey, hval⟩
  · rw [Function.update_of_ne hji] at hj
    rw [Function.update_of_ne hji, hj]
    constructor
    · rintro ⟨c, hc, hcontent⟩
      exact ⟨c, (has c).mpr (.inr hc), hcontent⟩
    · rintro ⟨c, hc, hkey, hval⟩
      rcases (has c).mp hc with rfl | hc
      · exact absurd (hkey.symm.trans hb) hji
      · exact ⟨c, hc, hkey, hval⟩

end

end LinkedList

end TruckControl
