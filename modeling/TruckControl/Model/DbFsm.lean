import Mathlib.Data.Nat.Notation

/-! # The debouncers before the sensors -/

namespace TruckControl

/-- `eg_state_type`. -/
inductive EgState where
  | zero | wait1_1 | wait1_2 | wait1_3
  | one | wait0_1 | wait0_2 | wait0_3
  deriving DecidableEq, Repr

/-- The registers of `db_fsm`. -/
structure DbFsm where
  qReg : BitVec 14
  temp1 : BitVec 4
  stateReg : EgState
  deriving DecidableEq, Repr

namespace DbFsm

def reset : DbFsm where
  qReg := 0
  temp1 := 0
  stateReg := .zero

def mTick (s : DbFsm) : Bool := s.qReg = 0

def stateNext (sw mTick : Bool) : EgState → EgState
  | .zero => if sw then .wait1_1 else .zero
  | .wait1_1 => if !sw then .zero else if mTick then .wait1_2 else .wait1_1
  | .wait1_2 => if !sw then .zero else if mTick then .wait1_3 else .wait1_2
  | .wait1_3 => if !sw then .zero else if mTick then .one else .wait1_3
  | .one => if !sw then .wait0_1 else .one
  | .wait0_1 => if sw then .one else if mTick then .wait0_2 else .wait0_1
  | .wait0_2 => if sw then .one else if mTick then .wait0_3 else .wait0_2
  | .wait0_3 => if sw then .one else if mTick then .zero else .wait0_3

def db (s : DbFsm) : Bool :=
  match s.stateReg with
  | .zero | .wait1_1 | .wait1_2 | .wait1_3 => false
  | .one | .wait0_1 | .wait0_2 | .wait0_3 => true

/-- A rising edge of the clock. `temp1` is one clock behind the four upper bits of `q_reg`. -/
def clk (sw : Bool) (s : DbFsm) : DbFsm where
  qReg := if s.temp1 = 0b1000 then 0 else s.qReg + 1
  temp1 := s.qReg.extractLsb' 10 4
  stateReg := stateNext sw s.mTick s.stateReg

/-- The inputs at the edges since the reset. -/
def run (sws : List Bool) : DbFsm := sws.foldl (fun s sw => s.clk sw) reset

end DbFsm

end TruckControl
