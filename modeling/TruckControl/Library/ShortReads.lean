import Mathlib.Data.List.Basic
import Mathlib.Order.Lattice

/-!
# Reads that come short

A stream is read into one buffer and the buffer is written out after each read, whether the
read has filled it or not. A place that a read does not reach keeps its byte.
-/

namespace TruckControl.ShortReads

variable {α : Type*}

/-- The buffer after a read. -/
def afterRead (buf : ℕ → α) (got : List α) : ℕ → α := fun i => got.getD i (buf i)

/-- The buffer is written out after reads of these lengths. Read `j` brings no more than
`rc j`, and no more than is there. -/
def copy (rc : ℕ → ℕ) : List ℕ → ℕ → (ℕ → α) → List α → List α
  | [], _, _, _ => []
  | len :: lens, j, buf, stream =>
      let got := stream.take (min (rc j) len)
      let buf := afterRead buf got
      (List.range len).map buf ++ copy rc lens (j + 1) buf (stream.drop got.length)

/-- Where in a stream of this size read `n` begins, when `c` are asked for every time. -/
def start (rc : ℕ → ℕ) (c size : ℕ) : ℕ → ℕ
  | 0 => 0
  | n + 1 => min (start rc c size n + min (rc n) c) size

/-- The place of the stream from which the byte at place `i` of the buffer comes after `n`
reads: the last read that has reached so far has brought it. -/
def source (rc : ℕ → ℕ) (c size i : ℕ) : ℕ → Option ℕ
  | 0 => none
  | n + 1 =>
      if start rc c size n + i < start rc c size (n + 1) then some (start rc c size n + i)
      else source rc c size i n

/-- The byte at place `i` of the buffer after `n` reads. -/
def place (rc : ℕ → ℕ) (c : ℕ) (buf : ℕ → α) (stream : List α) (n i : ℕ) : α :=
  match source rc c stream.length i n with
  | none => buf i
  | some q => stream.getD q (buf i)

variable {rc : ℕ → ℕ} {c : ℕ} {buf : ℕ → α} {stream : List α}

theorem start_succ (rc : ℕ → ℕ) (c size n : ℕ) :
    start rc c size (n + 1) = min (start rc c size n + min (rc n) c) size := rfl

theorem source_succ (rc : ℕ → ℕ) (c size i n : ℕ) :
    source rc c size i (n + 1) =
      if start rc c size n + i < start rc c size (n + 1) then some (start rc c size n + i)
      else source rc c size i n := rfl

theorem start_le (rc : ℕ → ℕ) (c : ℕ) (stream : List α) (n : ℕ) :
    start rc c stream.length n ≤ stream.length := by
  cases n with
  | zero => exact Nat.zero_le _
  | succ n => exact Nat.min_le_right _ _

/-- What a read brings lies on what the reads before it have left. -/
theorem afterRead_place {n len i : ℕ} (hlen : len ≤ c) (hi : i < c → i < len) :
    afterRead (place rc c buf stream n)
        ((stream.drop (start rc c stream.length n)).take (min (rc n) len)) i =
      place rc c buf stream (n + 1) i := by
  have hstart := start_le rc c stream n
  have hnext := start_succ rc c stream.length n
  rw [afterRead, place, place, source_succ]
  by_cases hreach : start rc c stream.length n + i < start rc c stream.length (n + 1)
  · have hlt : i < len := hi (by omega)
    have htake : i < min (rc n) len := by omega
    have hin : start rc c stream.length n + i < stream.length := by omega
    rw [if_pos hreach, List.getD_eq_getElem?_getD, List.getElem?_take_of_lt htake,
      List.getElem?_drop, List.getElem?_eq_getElem hin, Option.getD_some]
    simp [hin]
  · have hout : ((stream.drop (start rc c stream.length n)).take (min (rc n) len)).length ≤ i := by
      rw [List.length_take, List.length_drop]
      omega
    rw [if_neg hreach, List.getD_eq_getElem?_getD, List.getElem?_eq_none hout, Option.getD_none]

theorem drop_start (n : ℕ) :
    (stream.drop (start rc c stream.length n)).drop
        ((stream.drop (start rc c stream.length n)).take (min (rc n) c)).length =
      stream.drop (start rc c stream.length (n + 1)) := by
  have hstart := start_le rc c stream n
  rw [List.drop_drop, List.length_take, List.length_drop, start_succ]
  congr 1
  omega

/-- What is written of the whole stream, when all reads but the last ask for `c`. -/
theorem copy_eq (rc : ℕ → ℕ) (hc : 0 < c) {last : ℕ} (hlast : last ≤ c) (buf : ℕ → α)
    (stream : List α) (m n : ℕ) :
    copy rc (List.replicate m c ++ [last]) n (place rc c buf stream n)
        (stream.drop (start rc c stream.length n)) =
      (List.range (c * m + last)).map fun p => place rc c buf stream (n + p / c + 1) (p % c) := by
  induction m generalizing n with
  | zero =>
      rw [List.replicate_zero, List.nil_append, copy, copy, List.append_nil, Nat.mul_zero,
        Nat.zero_add]
      apply List.map_congr_left
      intro i hi
      have hlt : i < last := List.mem_range.mp hi
      rw [Nat.div_eq_of_lt (by omega), Nat.mod_eq_of_lt (by omega), Nat.add_zero,
        afterRead_place hlast fun _ => hlt]
  | succ m ih =>
      have hread : afterRead (place rc c buf stream n)
          ((stream.drop (start rc c stream.length n)).take (min (rc n) c)) =
            place rc c buf stream (n + 1) :=
        funext fun i => afterRead_place (Nat.le_refl c) id
      have hsplit : List.range (c * (m + 1) + last) =
          List.range c ++ (List.range (c * m + last)).map (c + ·) := by
        rw [← List.range_add]
        congr 1
        rw [Nat.mul_succ]
        omega
      rw [List.replicate_succ, List.cons_append, copy, hread, drop_start, ih, hsplit,
        List.map_append, List.map_map]
      congr 1
      · apply List.map_congr_left
        intro i hi
        have hlt : i < c := List.mem_range.mp hi
        rw [Nat.div_eq_of_lt hlt, Nat.mod_eq_of_lt hlt, Nat.add_zero]
      · apply List.map_congr_left
        intro p _
        rw [Function.comp_apply, Nat.add_div_left p hc, Nat.add_mod_left,
          Nat.add_assoc n 1, Nat.add_comm 1]

end TruckControl.ShortReads
