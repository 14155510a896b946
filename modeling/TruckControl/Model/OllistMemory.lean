import Mathlib.Data.Int.Notation
import Mathlib.Data.Int.Order.Basic
import TruckControl.Library.LinkedList
import TruckControl.Model.OutputRecords

/-! # The list of output records, as it lies in memory -/

namespace TruckControl

open LinkedList

/-- `ollist_t`, and the blocks of its nodes and of the records. A node is kept under its
`index`, its value is `datap`, and `next` is `nextp`. -/
structure OllistT where
  first : Option ℕ
  nodes : Memory (ListNode ℤ ℕ)
  data : Memory OData

/-- What `malloc` returns in a call: the block of the record, and that of the node if there
has to be one. -/
structure Mallocs where
  datap : ℕ
  new : ℕ

namespace OllistT

/-- `ollist_init`. -/
def init (l : OllistT) : OllistT := { l with first := none }

/-- `ollist_insert_data`. A null pointer that is followed ends the program. -/
def insertData (left : OData → OData) (fuel : ℕ) (index : ℤ) (datap2 : OData) (got : Mallocs)
    (l : OllistT) : Option OllistT :=
  let data := l.data.alloc got.datap datap2
  match walk l.nodes index fuel l.first l.first with
  | none => none
  | some (.hit cur _) =>
      let node := l.nodes.content cur
      some { l with
        nodes := l.nodes.set cur { node with value := got.datap }
        data := data.free left node.value }
  | some (.miss cur prev) =>
      let nodes := l.nodes.alloc got.new ⟨index, got.datap, cur⟩
      if cur = l.first then some { first := some got.new, nodes := nodes, data := data }
      else
        match prev with
        | none => none
        | some prev =>
            let node := nodes.content prev
            some { l with nodes := nodes.set prev { node with next := some got.new }, data := data }

/-- `ollist_find_data`: the status, and the pointer that it stores. -/
def findData (fuel : ℕ) (index : ℤ) (l : OllistT) : Option (ℤ × Option ℕ) :=
  match walk l.nodes index fuel l.first l.first with
  | none => none
  | some (.hit cur _) => some (0, some (l.nodes.content cur).value)
  | some (.miss _ _) => some (-1, none)

/-- `prev->nextp = cur->nextp; free(cur);`. -/
def unlink (left : ListNode ℤ ℕ → ListNode ℤ ℕ) (cur prev : ℕ) (nodes : Memory (ListNode ℤ ℕ)) :
    Memory (ListNode ℤ ℕ) :=
  let next := (nodes.content cur).next
  (nodes.set prev { nodes.content prev with next := next }).free left cur

/-- `ollist_remove_data`, with the pointer that it stores. -/
def removeData (left : ListNode ℤ ℕ → ListNode ℤ ℕ) (fuel : ℕ) (index : ℤ) (l : OllistT) :
    Option (OllistT × Option ℕ) :=
  match walk l.nodes index fuel l.first l.first with
  | some (.hit cur (some prev)) =>
      some ({ l with nodes := unlink left cur prev l.nodes }, some (l.nodes.content cur).value)
  | some (.hit _ none) | none => none
  | some (.miss _ _) => some (l, none)

/-- The loop of `ollist_removeall_data`. It goes on with the `nextp` of a node that it has
freed. -/
def removeallLoop (left : ListNode ℤ ℕ → ListNode ℤ ℕ) :
    ℕ → Option ℕ → Option ℕ → Memory (ListNode ℤ ℕ) → Option (Memory (ListNode ℤ ℕ))
  | 0, _, _, _ => none
  | _ + 1, none, _, nodes => some nodes
  | _ + 1, some _, none, _ => none
  | fuel + 1, some cur, some prev, nodes =>
      let nodes := unlink left cur prev nodes
      removeallLoop left fuel (nodes.content cur).next (some cur) nodes

/-- `ollist_removeall_data`. -/
def removeallData (left : ListNode ℤ ℕ → ListNode ℤ ℕ) (fuel : ℕ) (l : OllistT) :
    Option OllistT :=
  (removeallLoop left fuel l.first l.first l.nodes).map fun nodes => { l with nodes := nodes }

/-- `ollist_change_data`, with its status. -/
def changeData (left : ListNode ℤ ℕ → ListNode ℤ ℕ) (fuel : ℕ) (index : ℤ) (datap : ℕ)
    (l : OllistT) : Option (OllistT × ℤ) :=
  match walk l.nodes index fuel l.first l.first with
  | some (.hit cur (some prev)) =>
      let nodes := l.nodes.set cur { l.nodes.content cur with value := datap }
      some ({ l with nodes := unlink left cur prev nodes }, 0)
  | some (.hit _ none) | none => none
  | some (.miss _ _) => some (l, -1)

end OllistT

end TruckControl
