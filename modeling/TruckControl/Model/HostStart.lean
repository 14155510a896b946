import Mathlib.Data.Int.Notation
import TruckControl.Model.IoState

/-! # What `get_host_cmd_task` sets up before its loop -/

namespace TruckControl

/-! ## The translation of ports to banks -/

/-- A turn of `for(i = 0;i < 20;i++)`. -/
def fillFirstCard (realBanks : ℕ → RealBank) (i : ℕ) : ℕ → RealBank :=
  let bank := i / 8
  Function.update realBanks i ⟨i, bank, i - bank * 8⟩

/-- A turn of `for(i = 20;i < 40;i++)`. The difference is negative before the 4 is added. -/
def fillSecondCard (realBanks : ℕ → RealBank) (i : ℕ) : ℕ → RealBank :=
  let bank := (i + 4) / 8
  let index : ℤ := i - bank * 8 + 4
  Function.update realBanks i ⟨i, bank, index.toNat⟩

/-- Both loops, over whatever the table held. -/
def fillRealBanks (realBanks : ℕ → RealBank) : ℕ → RealBank :=
  (List.range' 20 20).foldl fillSecondCard ((List.range' 0 20).foldl fillFirstCard realBanks)

/-! ## The table of driven inputs -/

/-- `ip` while it is filled: what it and the memory behind it hold, the next index, and the
indexes that have been stored to. -/
structure IpTable where
  ip : ℕ → Ip
  j : ℕ
  stores : List ℕ

namespace IpTable

/-- `ip[j].port = k; ip[j].input = i; strcpy(ip[j++].label,otp->label);`. -/
def store (t : IpTable) (row : Ip) : IpTable where
  ip := Function.update t.ip t.j row
  j := t.j + 1
  stores := t.j :: t.stores

/-- The body of the double loop. -/
def search (l : Ollist) (i : ℕ) (t : IpTable) (k : ℕ) : IpTable :=
  match ollistFindDataOp i k l with
  | none => t
  | some otp => t.store ⟨k, i, otp.label⟩

/-- The loops of `init_ips`, over whatever the memory held. -/
def initIps (l : Ollist) (ip : ℕ → Ip) : IpTable :=
  let cleared := (List.range 40).foldl (fun ip i => Function.update ip i ⟨99, 0, ""⟩) ip
  (List.range 40).foldl (fun t i => (List.range 40).foldl (search l i) t) ⟨cleared, 0, []⟩

/-- `max_ips`. -/
def maxIps (t : IpTable) : ℕ := (List.range 40).countP fun i => (t.ip i).port < 40

end IpTable

end TruckControl
