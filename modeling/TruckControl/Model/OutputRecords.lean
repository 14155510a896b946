import Mathlib.Tactic.SplitIfs
import TruckControl.Library.SortedList
import TruckControl.Model.Commands

/-! # The output records, their list, and the table of driven inputs -/

namespace TruckControl

/-- One output of the IO box. The static half says which input drives it and how; the
current state is `onoff`, `timeLeft` and `reset`. -/
structure OData where
  label : String
  port : UCHAR
  onoff : UCHAR
  inputPort : UCHAR
  polarity : UCHAR
  type : UCHAR
  timeDelay : UINT
  timeLeft : UINT
  pulseTime : UCHAR
  reset : UCHAR
  deriving DecidableEq, Repr, Inhabited

/-! ## The list -/

abbrev Ollist := SortedList OData

def ollistInit : Ollist := SortedList.init

def ollistInsertData (index : ℕ) (l : Ollist) (datap : OData) : Ollist :=
  l.insert index datap

def ollistFindData (index : ℕ) (l : Ollist) : Option OData :=
  l.find index

/-- The first record, in list order, of the given port and the given input. -/
def ollistFindDataOp (index port : ℕ) (l : Ollist) : Option OData :=
  (l.nodes.map Prod.snd).find? fun datap =>
    datap.inputPort ≠ 0xFF#8 ∧ datap.port.toNat = port ∧ datap.inputPort.toNat = index

/-! ## The table of driven inputs -/

/-- One row of `ip`: an output and the input that drives it. -/
structure Ip where
  port : ℕ
  input : ℕ
  label : String
  deriving DecidableEq, Repr

/-- The rows `init_ips` fills, in its order: by input, then by port. -/
def initIps (l : Ollist) : List Ip :=
  (List.range 40).flatMap fun i =>
    (List.range 40).filterMap fun k =>
      (ollistFindDataOp i k l).map fun otp => ⟨k, i, otp.label⟩

/-! ## Databases -/

/-- The forty records of `odata.dat`. A record is stored and looked up under the
number of its own port. -/
structure Database where
  records : ℕ → OData
  port_eq : ∀ i < 40, (records i).port.toNat = i

namespace Database

variable (db : Database)

/-- The list `olLoadConfig` builds from a complete file. -/
def olLoadConfig : Ollist :=
  (List.range 40).foldl (fun l i => ollistInsertData i l (db.records i)) ollistInit

/-- The input that drives a port. -/
def input (p : ℕ) : ℕ := (db.records p).inputPort.toNat

theorem ollistFindData_olLoadConfig (p : ℕ) (hp : p < 40) :
    ollistFindData p db.olLoadConfig = some (db.records p) :=
  SortedList.find_foldl_insert p db.records (List.range 40) ollistInit (List.mem_range.mpr hp)

theorem ollistFindData_olLoadConfig_of_le (p : ℕ) (hp : 40 ≤ p) :
    ollistFindData p db.olLoadConfig = none := by
  have h : p ∉ List.range 40 := by simpa using hp
  exact SortedList.find_foldl_insert_of_notMem p db.records (List.range 40) ollistInit h

theorem mem_nodes_olLoadConfig (p : ℕ) (datap : OData) :
    (p, datap) ∈ db.olLoadConfig.nodes ↔ p < 40 ∧ datap = db.records p := by
  rw [SortedList.mem_nodes_iff]
  change ollistFindData p db.olLoadConfig = some datap ↔ _
  by_cases hp : p < 40
  · simp [db.ollistFindData_olLoadConfig p hp, hp, eq_comm]
  · simp [db.ollistFindData_olLoadConfig_of_le p (Nat.le_of_not_gt hp), hp]

/-- The search of `init_ips` succeeds for a port and the input that drives it. -/
theorem ollistFindDataOp_isSome_iff (index port : ℕ) (hi : index < 40) :
    (ollistFindDataOp index port db.olLoadConfig).isSome ↔
      port < 40 ∧ db.input port = index := by
  rw [ollistFindDataOp, List.find?_isSome]
  constructor
  · rintro ⟨datap, hmem, hd⟩
    obtain ⟨⟨p, d⟩, hnode, rfl⟩ := List.mem_map.mp hmem
    obtain ⟨hp, rfl⟩ := (db.mem_nodes_olLoadConfig p d).mp hnode
    simp only [decide_eq_true_eq] at hd
    obtain ⟨-, hport, hinput⟩ := hd
    rw [db.port_eq p hp] at hport
    subst hport
    exact ⟨hp, hinput⟩
  · rintro ⟨hp, hinput⟩
    refine ⟨db.records port, List.mem_map.mpr ⟨(port, db.records port),
      (db.mem_nodes_olLoadConfig port _).mpr ⟨hp, rfl⟩, rfl⟩, ?_⟩
    have hne : (db.records port).inputPort ≠ 0xFF#8 := by
      intro hff
      rw [Database.input, hff] at hinput
      simp at hinput
      omega
    simp only [decide_eq_true_eq]
    exact ⟨hne, db.port_eq port hp, hinput⟩

/-- The record the search finds is the record of the port. -/
theorem ollistFindDataOp_eq (index port : ℕ) (hi : index < 40) (hk : port < 40) :
    ollistFindDataOp index port db.olLoadConfig =
      if db.input port = index then some (db.records port) else none := by
  cases h : ollistFindDataOp index port db.olLoadConfig with
  | none =>
      have hnot : ¬ (ollistFindDataOp index port db.olLoadConfig).isSome := by simp [h]
      rw [db.ollistFindDataOp_isSome_iff index port hi] at hnot
      rw [if_neg fun hin => hnot ⟨hk, hin⟩]
  | some otp =>
      have hsome : (ollistFindDataOp index port db.olLoadConfig).isSome := by simp [h]
      rw [if_pos ((db.ollistFindDataOp_isSome_iff index port hi).mp hsome).2]
      obtain ⟨⟨p, d⟩, hnode, rfl⟩ := List.mem_map.mp (List.mem_of_find?_eq_some h)
      obtain ⟨hp, rfl⟩ := (db.mem_nodes_olLoadConfig p d).mp hnode
      have hport := List.find?_some h
      simp only [decide_eq_true_eq] at hport
      rw [← hport.2.1, db.port_eq p hp]

/-- The table of a loaded database, without its searches. -/
theorem initIps_olLoadConfig :
    initIps db.olLoadConfig = (List.range 40).flatMap fun i =>
      (List.range 40).filterMap fun k =>
        if db.input k = i then some ⟨k, i, (db.records k).label⟩ else none := by
  apply List.flatMap_congr
  intro i hi
  apply List.filterMap_congr
  intro k hk
  rw [db.ollistFindDataOp_eq i k (List.mem_range.mp hi) (List.mem_range.mp hk)]
  split_ifs <;> rfl

/-- The ports that `init_ips` finds for an input, in the order of the table. -/
def driven (index : ℕ) : List ℕ :=
  ((initIps db.olLoadConfig).filter fun row => row.input = index).map Ip.port

private theorem filter_rows (l : Ollist) (i index : ℕ) :
    (((List.range 40).filterMap fun k =>
        (ollistFindDataOp i k l).map fun otp => (⟨k, i, otp.label⟩ : Ip)).filter
      fun row => row.input = index).map Ip.port =
      if i = index then (List.range 40).filter fun k => (ollistFindDataOp i k l).isSome
      else [] := by
  generalize List.range 40 = ks
  induction ks with
  | nil => simp
  | cons k ks ih =>
      cases h : ollistFindDataOp i k l with
      | none => simpa [List.filterMap_cons, h] using ih
      | some otp =>
          rw [List.filterMap_cons, h]
          by_cases hi : i = index
          · subst hi
            simpa [h] using ih
          · simpa [h, hi] using ih

theorem driven_eq (index : ℕ) :
    db.driven index = (List.range 40).flatMap fun i =>
      if i = index then
        (List.range 40).filter fun k => (ollistFindDataOp i k db.olLoadConfig).isSome
      else [] := by
  simp only [driven, initIps, List.filter_flatMap, List.map_flatMap, filter_rows]

private theorem flatMap_ite_eq {α : Type*} (f : ℕ → List α) (index n : ℕ) :
    ((List.range n).flatMap fun i => if i = index then f i else []) =
      if index < n then f index else [] := by
  induction n with
  | zero => simp
  | succ n ih =>
      rw [List.range_succ, List.flatMap_append, ih]
      rcases Nat.lt_trichotomy index n with h | h | h
      · simp [h, Nat.lt_succ_of_lt h, Nat.ne_of_gt h]
      · simp [h]
      · have h' : ¬ index < n := Nat.not_lt_of_gt h
        have h'' : ¬ index < n + 1 := by omega
        simp [h', h'', Nat.ne_of_lt h]

theorem driven_eq_filter {index : ℕ} (hi : index < 40) :
    db.driven index = (List.range 40).filter fun p => db.input p = index := by
  rw [driven_eq, flatMap_ite_eq, if_pos hi]
  apply List.filter_congr
  intro p hp
  rw [Bool.eq_iff_iff, db.ollistFindDataOp_isSome_iff index p hi]
  simp [List.mem_range.mp hp]

theorem driven_eq_nil {index : ℕ} (hi : 40 ≤ index) : db.driven index = [] := by
  rw [driven_eq, flatMap_ite_eq, if_neg (Nat.not_lt_of_le hi)]

theorem driven_nodup (index : ℕ) : (db.driven index).Nodup := by
  by_cases hi : index < 40
  · rw [db.driven_eq_filter hi]
    exact List.nodup_range.filter _
  · rw [db.driven_eq_nil (Nat.le_of_not_gt hi)]
    exact List.nodup_nil

theorem mem_driven {index p : ℕ} (hi : index < 40) :
    p ∈ db.driven index ↔ p < 40 ∧ db.input p = index := by
  simp [db.driven_eq_filter hi]

end Database

end TruckControl
