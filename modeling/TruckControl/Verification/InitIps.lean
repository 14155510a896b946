import Mathlib.Data.List.Nodup
import TruckControl.Model.HostStart
import TruckControl.Verification.OutputBits

/-!
# The table of driven inputs

`init_ips` asks for each input and each port whether a record has both, and writes a row if
there is one. Different rows come from different records, so forty records fill forty rows
at most.
-/

namespace TruckControl

/-! ## The rows -/

section Rows

variable {l : Ollist} {i k : ℕ}

/-- The first record, in the order of the list, with a port and an input. -/
def firstRecord (l : Ollist) (port input : ℕ) : Option OData :=
  (l.nodes.map Prod.snd).find? fun d => d.port.toNat = port ∧ d.inputPort.toNat = input

/-- No input that is searched for is the mark of a record without one. -/
theorem ollistFindDataOp_eq_firstRecord (hi : i < 40) :
    ollistFindDataOp i k l = firstRecord l k i := by
  rw [ollistFindDataOp, firstRecord]
  congr 1
  funext d
  have hmark : d.inputPort.toNat = i → d.inputPort ≠ 0xFF#8 := by
    intro heq hff
    rw [hff] at heq
    simp at heq
    omega
  simp only [decide_eq_decide]
  constructor
  · intro h
    exact h.2
  · intro h
    exact ⟨hmark h.2, h⟩

theorem mem_initIps (l : Ollist) (row : Ip) :
    row ∈ initIps l ↔ row.port < 40 ∧ row.input < 40 ∧
      ∃ d, firstRecord l row.port row.input = some d ∧ d.label = row.label := by
  simp only [initIps, List.mem_flatMap, List.mem_filterMap, List.mem_range, Option.map_eq_some_iff]
  constructor
  · rintro ⟨i, hi, k, hk, d, hd, rfl⟩
    rw [ollistFindDataOp_eq_firstRecord hi] at hd
    exact ⟨hk, hi, d, hd, rfl⟩
  · rintro ⟨hk, hi, d, hd, hlabel⟩
    rw [← ollistFindDataOp_eq_firstRecord hi] at hd
    refine ⟨row.input, hi, row.port, hk, d, hd, ?_⟩
    rw [hlabel]

/-- By input, and then by port. -/
def RowLt (a b : Ip) : Prop := a.input < b.input ∨ a.input = b.input ∧ a.port < b.port

theorem pairwise_initIps (l : Ollist) : (initIps l).Pairwise RowLt := by
  rw [initIps, List.pairwise_flatMap]
  have hrow {i k : ℕ} {row : Ip}
      (h : ((ollistFindDataOp i k l).map fun otp => (⟨k, i, otp.label⟩ : Ip)) = some row) :
      row.input = i ∧ row.port = k := by
    obtain ⟨d, -, rfl⟩ := Option.map_eq_some_iff.mp h
    exact ⟨rfl, rfl⟩
  constructor
  · intro i _
    rw [List.pairwise_filterMap]
    refine List.Pairwise.imp (fun {k k'} hlt => ?_) List.pairwise_lt_range
    intro a ha b hb
    rw [RowLt, (hrow ha).1, (hrow ha).2, (hrow hb).1, (hrow hb).2]
    exact .inr ⟨rfl, hlt⟩
  · refine List.Pairwise.imp (fun {i i'} hlt => ?_) List.pairwise_lt_range
    intro a ha b hb
    obtain ⟨k, -, ha⟩ := List.mem_filterMap.mp ha
    obtain ⟨k', -, hb⟩ := List.mem_filterMap.mp hb
    rw [RowLt, (hrow ha).1, (hrow hb).1]
    exact .inl hlt

/-- Each row is of a record of its own: no more rows than records. -/
theorem length_initIps_le (l : Ollist) : (initIps l).length ≤ l.nodes.length := by
  have hnodup : ((initIps l).map fun row => (row.port, row.input)).Nodup := by
    refine List.pairwise_map.mpr (List.Pairwise.imp (fun {a b} hlt => ?_) (pairwise_initIps l))
    intro heq
    have hport := congrArg Prod.fst heq
    have hinput := congrArg Prod.snd heq
    simp only at hport hinput
    rw [RowLt] at hlt
    omega
  have hsub : ((initIps l).map fun row => (row.port, row.input)) ⊆
      l.nodes.map fun node => (node.2.port.toNat, node.2.inputPort.toNat) := by
    intro pair hpair
    obtain ⟨row, hrow, rfl⟩ := List.mem_map.mp hpair
    obtain ⟨-, -, d, hd, -⟩ := (mem_initIps l row).mp hrow
    have hmem := List.mem_of_find?_eq_some hd
    have hports := List.find?_some hd
    simp only [decide_eq_true_eq] at hports
    obtain ⟨node, hnode, rfl⟩ := List.mem_map.mp hmem
    refine List.mem_map.mpr ⟨node, hnode, ?_⟩
    rw [hports.1, hports.2]
  have hle := hnodup.length_le_of_subset hsub
  rwa [List.length_map, List.length_map] at hle

end Rows

/-! ## The loops -/

namespace IpTable

variable {l : Ollist}

/-- The double loop stores the rows one after the other. -/
theorem foldl_search (l : Ollist) (t : IpTable) :
    (List.range 40).foldl (fun t i => (List.range 40).foldl (search l i) t) t =
      (TruckControl.initIps l).foldl store t := by
  rw [TruckControl.initIps, List.foldl_flatMap]
  congr 1
  funext t i
  rw [List.foldl_filterMap]
  congr 1
  funext t k
  rw [search]
  cases ollistFindDataOp i k l <;> rfl

@[simp] theorem j_store (t : IpTable) (row : Ip) : (t.store row).j = t.j + 1 := rfl

@[simp] theorem stores_store (t : IpTable) (row : Ip) : (t.store row).stores = t.j :: t.stores :=
  rfl

theorem ip_store_self (t : IpTable) (row : Ip) : (t.store row).ip t.j = row :=
  Function.update_self ..

theorem ip_store_of_ne (t : IpTable) (row : Ip) {n : ℕ} (h : n ≠ t.j) :
    (t.store row).ip n = t.ip n :=
  Function.update_of_ne h ..

theorem mem_stores_foldl_store (rows : List Ip) (t : IpTable) (n : ℕ) :
    n ∈ (rows.foldl store t).stores ↔ n ∈ t.stores ∨ t.j ≤ n ∧ n < t.j + rows.length := by
  induction rows generalizing t with
  | nil =>
      rw [List.foldl_nil, List.length_nil]
      constructor
      · exact .inl
      · rintro (h | h)
        · exact h
        · omega
  | cons row rows ih =>
      rw [List.foldl_cons, ih, List.length_cons, j_store, stores_store, List.mem_cons]
      constructor
      · rintro ((rfl | h) | h)
        · exact .inr ⟨Nat.le_refl _, by omega⟩
        · exact .inl h
        · exact .inr ⟨by omega, by omega⟩
      · rintro (h | h)
        · exact .inl (.inr h)
        · by_cases hn : n = t.j
          · exact .inl (.inl hn)
          · exact .inr ⟨by omega, by omega⟩

theorem ip_foldl_store_of_lt (rows : List Ip) (t : IpTable) {n : ℕ} (hn : n < t.j) :
    (rows.foldl store t).ip n = t.ip n := by
  induction rows generalizing t with
  | nil => rfl
  | cons row rows ih =>
      have hlt : n < (t.store row).j := Nat.lt_succ_of_lt hn
      rw [List.foldl_cons, ih _ hlt, ip_store_of_ne t row (Nat.ne_of_lt hn)]

/-- The stored rows stand in their order from the first index on; what follows is as it was. -/
theorem ip_foldl_store (rows : List Ip) (t : IpTable) (n : ℕ) :
    (rows.foldl store t).ip (t.j + n) = (rows[n]?).getD (t.ip (t.j + n)) := by
  induction rows generalizing t n with
  | nil => rfl
  | cons row rows ih =>
      rw [List.foldl_cons]
      cases n with
      | zero =>
          have hlt : t.j < (t.store row).j := Nat.lt_succ_self _
          rw [Nat.add_zero, ip_foldl_store_of_lt rows _ hlt, ip_store_self]
          rfl
      | succ n =>
          have hindex : t.j + (n + 1) = (t.store row).j + n := by
            rw [j_store]
            omega
          have hne : (t.store row).j + n ≠ t.j := by
            rw [j_store]
            omega
          rw [hindex, ih, ip_store_of_ne t row hne, List.getElem?_cons_succ]

/-- The whole table: the rows, then rows without a port, then the memory behind. -/
theorem ip_initIps (l : Ollist) (ip : ℕ → Ip) (n : ℕ) :
    (IpTable.initIps l ip).ip n =
      ((TruckControl.initIps l)[n]?).getD (if n < 40 then ⟨99, 0, ""⟩ else ip n) := by
  have hcleared : (List.range 40).foldl (fun ip i => Function.update ip i ⟨99, 0, ""⟩) ip n =
      if n < 40 then ⟨99, 0, ""⟩ else ip n := by
    rw [foldl_update_apply (fun _ => (⟨99, 0, ""⟩ : Ip))]
    simp only [List.mem_range]
  rw [IpTable.initIps, foldl_search]
  have hrows := ip_foldl_store (TruckControl.initIps l)
    ⟨(List.range 40).foldl (fun ip i => Function.update ip i ⟨99, 0, ""⟩) ip, 0, []⟩ n
  simp only [Nat.zero_add, hcleared] at hrows
  exact hrows

theorem maxIps_initIps (l : Ollist) (ip : ℕ → Ip) (hlength : (TruckControl.initIps l).length ≤ 40) :
    (IpTable.initIps l ip).maxIps = (TruckControl.initIps l).length := by
  have hport (n : ℕ) (hn : n < 40) :
      ((IpTable.initIps l ip).ip n).port < 40 ↔ n < (TruckControl.initIps l).length := by
    rw [ip_initIps, if_pos hn]
    by_cases hlt : n < (TruckControl.initIps l).length
    · rw [List.getElem?_eq_getElem hlt]
      exact iff_of_true ((mem_initIps l _).mp (List.getElem_mem hlt)).1 hlt
    · rw [List.getElem?_eq_none (Nat.le_of_not_gt hlt)]
      exact iff_of_false (by decide) hlt
  obtain ⟨rest, hrest⟩ := Nat.exists_eq_add_of_le hlength
  have hsplit : List.range 40 = List.range (TruckControl.initIps l).length ++
      (List.range rest).map ((TruckControl.initIps l).length + ·) := by
    rw [← List.range_add, ← hrest]
  have hfront : (List.range (TruckControl.initIps l).length).countP
      (fun i => ((IpTable.initIps l ip).ip i).port < 40) = (TruckControl.initIps l).length := by
    rw [List.countP_eq_length.mpr, List.length_range]
    intro n hn
    rw [List.mem_range] at hn
    simpa using (hport n (by omega)).mpr hn
  have hback : ((List.range rest).map ((TruckControl.initIps l).length + ·)).countP
      (fun i => ((IpTable.initIps l ip).ip i).port < 40) = 0 := by
    rw [List.countP_eq_zero]
    intro n hn
    obtain ⟨r, hr, rfl⟩ := List.mem_map.mp hn
    rw [List.mem_range] at hr
    rw [decide_eq_true_eq, hport _ (by omega)]
    omega
  rw [maxIps, hsplit, List.countP_append, hfront, hback, Nat.add_zero]

/-- The rows up to `max_ips` are the table that the other modules work with. -/
theorem rows_initIps (l : Ollist) (ip : ℕ → Ip) (hlength : (TruckControl.initIps l).length ≤ 40) :
    (List.range (IpTable.initIps l ip).maxIps).map (IpTable.initIps l ip).ip =
      TruckControl.initIps l := by
  rw [maxIps_initIps l ip hlength]
  refine List.ext_getElem (by simp) fun n hn hrow => ?_
  rw [List.getElem_map, List.getElem_range, ip_initIps, List.getElem?_eq_getElem hrow,
    Option.getD_some]

/-- What `init_ips` has to build out of a list: a table of `max_ips` rows, in order, and
nothing behind it. -/
structure Lists (l : Ollist) (ip : ℕ → Ip) (t : IpTable) : Prop where
  mem : ∀ port input label, (∃ n < t.maxIps, t.ip n = ⟨port, input, label⟩) ↔
    port < 40 ∧ input < 40 ∧ ∃ d, firstRecord l port input = some d ∧ d.label = label
  ordered : ∀ n r, n < r → r < t.maxIps → RowLt (t.ip n) (t.ip r)
  distinct : ∀ n r, n < t.maxIps → r < t.maxIps → t.ip n = t.ip r → n = r
  stores_lt : ∀ n ∈ t.stores, n < 40
  behind : ∀ n, 40 ≤ n → t.ip n = ip n
  maxIps_le : t.maxIps ≤ 40

/-- Any forty records, with any ports and inputs, give a table that fits and is complete. -/
theorem lists_initIps (l : Ollist) (ip : ℕ → Ip)
    (hkeys : l.nodes.map Prod.fst = List.range 40) :
    Lists l ip (IpTable.initIps l ip) := by
  have hlength : (TruckControl.initIps l).length ≤ 40 := by
    have hrecords := congrArg List.length hkeys
    rw [List.length_map, List.length_range] at hrecords
    rw [← hrecords]
    exact length_initIps_le l
  have hmax := maxIps_initIps l ip hlength
  have hrow (n : ℕ) (hn : n < (TruckControl.initIps l).length) :
      (IpTable.initIps l ip).ip n = (TruckControl.initIps l)[n] := by
    rw [ip_initIps, List.getElem?_eq_getElem hn, Option.getD_some]
  have hordered (n r : ℕ) (hlt : n < r) (hr : r < (TruckControl.initIps l).length) :
      RowLt ((IpTable.initIps l ip).ip n) ((IpTable.initIps l ip).ip r) := by
    rw [hrow n (by omega), hrow r hr]
    exact List.pairwise_iff_getElem.mp (pairwise_initIps l) n r (by omega) hr hlt
  have hirrefl (row : Ip) : ¬ RowLt row row := by
    rw [RowLt]
    omega
  refine ⟨?_, ?_, ?_, ?_, ?_, ?_⟩
  · intro port input label
    rw [hmax]
    have hmem := mem_initIps l ⟨port, input, label⟩
    rw [← hmem, List.mem_iff_getElem]
    constructor
    · rintro ⟨n, hn, heq⟩
      exact ⟨n, hn, by rw [← hrow n hn, heq]⟩
    · rintro ⟨n, hn, heq⟩
      exact ⟨n, hn, by rw [hrow n hn, heq]⟩
  · intro n r hlt hr
    rw [hmax] at hr
    exact hordered n r hlt hr
  · intro n r hn hr heq
    rw [hmax] at hn hr
    rcases Nat.lt_trichotomy n r with hlt | hsame | hlt
    · exact absurd (heq ▸ hordered n r hlt hr) (hirrefl _)
    · exact hsame
    · exact absurd (heq ▸ hordered r n hlt hn) (hirrefl _)
  · intro n hn
    rw [IpTable.initIps, foldl_search, mem_stores_foldl_store] at hn
    rcases hn with hn | ⟨-, hn⟩
    · cases hn
    · rw [Nat.zero_add] at hn
      exact Nat.lt_of_lt_of_le hn hlength
  · intro n hn
    have hout : (TruckControl.initIps l)[n]? = none := List.getElem?_eq_none (by omega)
    have hnot : ¬ n < 40 := by omega
    rw [ip_initIps, hout, Option.getD_none, if_neg hnot]
  · rw [hmax]
    exact hlength

theorem lists_initIps_odata : odata.olLoadConfig.nodes.map Prod.fst = List.range 40 ∧
    Lists odata.olLoadConfig (fun _ => ⟨0, 0, ""⟩)
      (IpTable.initIps odata.olLoadConfig fun _ => ⟨0, 0, ""⟩) := by
  have hkeys : odata.olLoadConfig.nodes.map Prod.fst = List.range 40 := by decide +kernel
  exact ⟨hkeys, lists_initIps odata.olLoadConfig _ hkeys⟩

end IpTable

end TruckControl
