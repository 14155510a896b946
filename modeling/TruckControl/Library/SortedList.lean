import Mathlib.Data.List.Basic

/-!
# Keyed lists kept sorted by one walk

A list of key and value pairs in strictly increasing key order. Insertion walks to
the first key that is not smaller, and replaces or inserts there; a search stops at
the first key that is larger. The early stop is right only because of the order,
which the type therefore carries.
-/

namespace TruckControl

/-- A strictly increasing list of keyed values. -/
structure SortedList (β : Type*) where
  nodes : List (ℕ × β)
  sorted : nodes.Pairwise (fun a b => a.1 < b.1)

namespace SortedList

variable {β : Type*}

/-! ## The walks -/

def insertNodes (index : ℕ) (value : β) : List (ℕ × β) → List (ℕ × β)
  | [] => [(index, value)]
  | cur :: rest =>
      if cur.1 = index then (index, value) :: rest
      else if cur.1 > index then (index, value) :: cur :: rest
      else cur :: insertNodes index value rest

def findNodes (index : ℕ) : List (ℕ × β) → Option β
  | [] => none
  | cur :: rest =>
      if cur.1 = index then some cur.2
      else if cur.1 > index then none
      else findNodes index rest

theorem mem_insertNodes {index : ℕ} {value : β} {nodes : List (ℕ × β)} {node : ℕ × β}
    (h : node ∈ insertNodes index value nodes) : node = (index, value) ∨ node ∈ nodes := by
  induction nodes with
  | nil => simpa [insertNodes] using h
  | cons cur rest ih =>
      rw [insertNodes] at h
      split at h
      · rcases List.mem_cons.mp h with h | h
        · exact .inl h
        · exact .inr (List.mem_cons_of_mem cur h)
      · split at h
        · exact List.mem_cons.mp h
        · rcases List.mem_cons.mp h with h | h
          · exact .inr (h ▸ List.mem_cons_self)
          · exact (ih h).imp_right (List.mem_cons_of_mem cur)

theorem insertNodes_sorted (index : ℕ) (value : β) (nodes : List (ℕ × β))
    (h : nodes.Pairwise (fun a b => a.1 < b.1)) :
    (insertNodes index value nodes).Pairwise (fun a b => a.1 < b.1) := by
  induction nodes with
  | nil => simp [insertNodes]
  | cons cur rest ih =>
      have hrest : ∀ node ∈ rest, cur.1 < node.1 := fun node hn =>
        List.rel_of_pairwise_cons h hn
      rw [insertNodes]
      split
      · rename_i heq
        exact List.pairwise_cons.mpr ⟨fun node hn => heq ▸ hrest node hn, h.of_cons⟩
      · split
        · rename_i hgt
          refine List.pairwise_cons.mpr ⟨fun node hn => ?_, h⟩
          rcases List.mem_cons.mp hn with rfl | hn
          · exact hgt
          · exact Nat.lt_trans hgt (hrest node hn)
        · rename_i hne hle
          refine List.pairwise_cons.mpr ⟨fun node hn => ?_, ih h.of_cons⟩
          rcases mem_insertNodes hn with rfl | hn
          · exact Nat.lt_of_le_of_ne (Nat.le_of_not_gt hle) hne
          · exact hrest node hn

/-- A key below every key of the list is not found. -/
theorem findNodes_eq_none {index : ℕ} {nodes : List (ℕ × β)}
    (h : ∀ node ∈ nodes, index < node.1) : findNodes index nodes = none := by
  cases nodes with
  | nil => rfl
  | cons cur rest =>
      have hlt : index < cur.1 := h cur List.mem_cons_self
      simp [findNodes, hlt, Nat.ne_of_gt hlt]

theorem findNodes_insertNodes (index key : ℕ) (value : β) (nodes : List (ℕ × β))
    (h : nodes.Pairwise (fun a b => a.1 < b.1)) :
    findNodes key (insertNodes index value nodes) =
      if key = index then some value else findNodes key nodes := by
  induction nodes with
  | nil =>
      by_cases hk : key = index
      · simp [insertNodes, findNodes, hk]
      · simp [insertNodes, findNodes, hk, Ne.symm hk]
  | cons cur rest ih =>
      rw [insertNodes]
      split
      · rename_i heq
        by_cases hk : key = index
        · simp [findNodes, hk]
        · simp [findNodes, hk, heq, Ne.symm hk]
      · rename_i hne
        split
        · rename_i hgt
          by_cases hk : key = index
          · simp [findNodes, hk]
          · rw [if_neg hk, findNodes, if_neg (Ne.symm hk)]
            split
            · rename_i hlt
              have hall : ∀ node ∈ cur :: rest, key < node.1 := by
                intro node hn
                rcases List.mem_cons.mp hn with rfl | hn
                · exact Nat.lt_trans hlt hgt
                · exact Nat.lt_trans (Nat.lt_trans hlt hgt) (List.rel_of_pairwise_cons h hn)
              exact (findNodes_eq_none hall).symm
            · rfl
        · rename_i hle
          rw [findNodes, findNodes, ih h.of_cons]
          by_cases hk : key = index
          · subst hk
            simp [hne, hle]
          · simp [hk]

/-! ## The operations on sorted lists -/

/-- The list without nodes. -/
def init : SortedList β := ⟨[], List.Pairwise.nil⟩

def insert (index : ℕ) (value : β) (l : SortedList β) : SortedList β :=
  ⟨insertNodes index value l.nodes, insertNodes_sorted index value l.nodes l.sorted⟩

def find (index : ℕ) (l : SortedList β) : Option β := findNodes index l.nodes

/-- A search after an insertion. -/
@[simp] theorem find_insert (index key : ℕ) (value : β) (l : SortedList β) :
    (l.insert index value).find key = if key = index then some value else l.find key :=
  findNodes_insertNodes index key value l.nodes l.sorted

/-- A search finds exactly the pairs of the list. -/
theorem mem_nodes_iff (l : SortedList β) (key : ℕ) (value : β) :
    (key, value) ∈ l.nodes ↔ l.find key = some value := by
  obtain ⟨nodes, h⟩ := l
  change _ ↔ findNodes key nodes = some value
  induction nodes with
  | nil => simp [findNodes]
  | cons cur rest ih =>
      have hrest : ∀ node ∈ rest, cur.1 < node.1 := fun node hn =>
        List.rel_of_pairwise_cons h hn
      rw [findNodes, List.mem_cons, ih h.of_cons]
      split
      · rename_i heq
        have hnone : findNodes key rest = none :=
          findNodes_eq_none fun node hn => heq ▸ hrest node hn
        rw [hnone, ← heq]
        obtain ⟨k, v⟩ := cur
        simp [eq_comm]
      · rename_i hne
        have hcur : (key, value) ≠ cur := fun he => hne (by rw [← he])
        split
        · rename_i hgt
          have hnone : findNodes key rest = none :=
            findNodes_eq_none fun node hn => Nat.lt_trans hgt (hrest node hn)
          simp [hcur, hnone]
        · simp [hcur]

/-- A key that no insertion of a sequence names keeps its value. -/
theorem find_foldl_insert_of_notMem (key : ℕ) (f : ℕ → β) (keys : List ℕ) (l : SortedList β)
    (h : key ∉ keys) :
    (keys.foldl (fun l i => l.insert i (f i)) l).find key = l.find key := by
  induction keys generalizing l with
  | nil => rfl
  | cons i keys ih =>
      simp only [List.mem_cons, not_or] at h
      rw [List.foldl_cons, ih _ h.2, find_insert, if_neg h.1]

/-- Inserting a value for each key of a sequence leaves exactly these values. -/
theorem find_foldl_insert (key : ℕ) (f : ℕ → β) (keys : List ℕ) (l : SortedList β)
    (h : key ∈ keys) :
    (keys.foldl (fun l i => l.insert i (f i)) l).find key = some (f key) := by
  induction keys generalizing l with
  | nil => simp at h
  | cons i keys ih =>
      rw [List.foldl_cons]
      by_cases hk : key ∈ keys
      · exact ih _ hk
      · have hi : key = i := (List.mem_cons.mp h).resolve_right hk
        rw [find_foldl_insert_of_notMem key f keys _ hk, find_insert, if_pos hi, hi]

/-! ## Other values under the same keys -/

variable {γ : Type*}

def map (f : β → γ) (l : SortedList β) : SortedList γ :=
  ⟨l.nodes.map fun node => (node.1, f node.2), List.pairwise_map.mpr l.sorted⟩

theorem map_insert (f : β → γ) (index : ℕ) (value : β) (l : SortedList β) :
    (l.insert index value).map f = (l.map f).insert index (f value) := by
  have hnodes (nodes : List (ℕ × β)) :
      (insertNodes index value nodes).map (fun node => (node.1, f node.2)) =
        insertNodes index (f value) (nodes.map fun node => (node.1, f node.2)) := by
    induction nodes with
    | nil => rfl
    | cons cur rest ih =>
        rw [insertNodes, List.map_cons, insertNodes]
        split_ifs <;> simp [ih]
  simp only [map, insert, hnodes]

end SortedList

end TruckControl
