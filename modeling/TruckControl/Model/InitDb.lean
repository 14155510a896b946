import TruckControl.Model.OdataFile
import TruckControl.Model.SetTime

/-! # `init_db`: the database from a table of text -/

namespace TruckControl

/-- What C leaves to the machine that `init_db` runs on. -/
structure Platform where
  /-- Whether `char` is a signed type. -/
  charSigned : Bool
  /-- What lies behind `tempy` when a field of a row is read. -/
  behindTempy : ℕ → ℕ → List UCHAR
  /-- What lies behind the name in `filename`. -/
  behindFilename : List Char
  /-- What `atoi` makes of a number that is no `int`. -/
  atoiBeyond : List UCHAR → ℤ

namespace Platform

variable (M : Platform)

/-- A `char` in an expression. -/
def promote (c : UCHAR) : ℤ := if M.charSigned then c.toInt else c.toNat

def atoi (s : List UCHAR) : ℤ :=
  let v := TruckControl.atoi s
  if -2147483648 ≤ v ∧ v ≤ 2147483647 then v else M.atoiBeyond s

/-- `int_array[j][p] = atoi(tempy)`, after `s` has been copied to the cleared `tempy`: ten
characters leave no zero in it. -/
def stored (j p : ℕ) (s : List UCHAR) : UCHAR :=
  BitVec.ofInt 8 (M.atoi (s ++ List.replicate (10 - s.length) 0 ++ M.behindTempy j p))

end Platform

/-! ## `copy_labels` -/

/-- The name of the table: what is in front of the dot, with `.csv`. The search may run on behind
the end of the name. -/
def csvName (filename : List Char) : Option (List Char) :=
  match (filename.take 30).findIdx? fun c => c = '.' with
  | none => none
  | some i => if 25 < i then none else some (filename.take i ++ ".csv".toList)

def isalpha (c : UCHAR) : Bool :=
  65 ≤ c.toNat && c.toNat ≤ 90 || 97 ≤ c.toNat && c.toNat ≤ 122

/-- Where the numbers of a row end: `pch` is the text from the pointer on, `m` is how much is in
`tempx`, and `ints` is the row of `int_array`. -/
structure Numbers where
  pch : List UCHAR
  k : ℕ
  m : ℕ
  ints : List UCHAR

/-- `while(!isalpha(*pch))`. There is no result if the pointer leaves the buffer, or if more is
stored in `tempx`, `tempy` or the row than they hold. -/
def scanNumbers (M : Platform) (buf : List UCHAR) (j : ℕ) :
    List UCHAR → ℕ → ℕ → ℕ → ℕ → List UCHAR → Option Numbers
  | [], _, _, _, _, _ => none
  | [c], k, m, _, _, ints => if isalpha c then some ⟨[c], k, m, ints⟩ else none
  | c :: d :: pch, k, m, n, p, ints =>
      if isalpha c then some ⟨c :: d :: pch, k, m, ints⟩
      else if 100 ≤ m then none
      else if d = ascii ',' then
        -- `memcpy(tempy,(void*)(pch-n+1),n-1)`, where `n` counts the comma as well
        let at' := buf.length - (d :: pch).length
        let tempy := (buf.drop (at' + 1 - (n + 1))).take n
        if 10 < n ∨ 10 ≤ p then none
        else scanNumbers M buf j (d :: pch) (k + 1) (m + 1) 0 (p + 1)
          (ints.set p (M.stored j p tempy))
      else scanNumbers M buf j (d :: pch) (k + 1) (m + 1) (n + 1) p ints

/-- `while(*pch2 != '\n' && k < fsize)`: how long the label is, `k`, and the text behind it. -/
def scanLabel (fsize : ℕ) : List UCHAR → ℕ → ℕ → Option (ℕ × ℕ × List UCHAR)
  | [], _, _ => none
  | c :: pch2, i, k =>
      if c ≠ ascii '\n' ∧ k < fsize then scanLabel fsize pch2 (i + 1) (k + 1)
      else some (i, k, c :: pch2)

/-- The string in an array of `n` characters that has been cleared. -/
def clearedCopy (n : ℕ) (s : List UCHAR) : List UCHAR :=
  (s.takeWhile (fun c => c ≠ 0#8) ++ List.replicate n 0).take n

theorem length_clearedCopy (n : ℕ) (s : List UCHAR) : (clearedCopy n s).length = n := by
  rw [clearedCopy, List.length_take, List.length_append, List.length_replicate]
  omega

/-- What the loop over the rows works on. -/
structure CsvScan where
  pch : List UCHAR
  k : ℕ
  intArray : ℕ → List UCHAR
  labelArray : ℕ → List UCHAR

/-- The `for` over the rows, once. -/
def CsvScan.next (M : Platform) (buf : List UCHAR) (fsize : ℕ) (s : CsvScan) (j : ℕ) :
    Option CsvScan :=
  match scanNumbers M buf j s.pch s.k 0 0 0 (s.intArray j) with
  | none => none
  | some r =>
      -- `tempx[m-1] = 0`
      if r.m = 0 then none
      else
        match scanLabel fsize r.pch 0 r.k with
        | none => none
        | some (i, k, pch2) =>
            if oLabelSize < i then none
            else some
              { pch := pch2, k := k
                intArray := Function.update s.intArray j r.ints
                labelArray :=
                  Function.update s.labelArray j (clearedCopy oLabelSize (r.pch.take i)) }

/-- The static buffer with the file in it. -/
def csvBuf (file : List UCHAR) : List UCHAR := file ++ List.replicate (3000 - file.length) 0

/-- The tables before the loop, and the pointer at the first newline. -/
def csvStart (buf : List UCHAR) : CsvScan where
  pch := buf.dropWhile fun c => c ≠ ascii '\n'
  k := 0
  intArray := fun _ => List.replicate 10 0
  labelArray := fun _ => List.replicate oLabelSize 0

/-- `copy_labels` behind the opening of the file. A label that fills its row has no end for
`strcpy`. -/
def copyLabels (M : Platform) (file : List UCHAR) : Option CsvScan :=
  if 3000 < file.length then none
  else
    let buf := csvBuf file
    match (List.range numPortBits).foldlM (CsvScan.next M buf file.length) (csvStart buf) with
    | none => none
    | some s =>
        if (List.range numPortBits).all fun i => (s.labelArray i).contains 0 then some s else none

/-! ## `main` -/

/-- `int_array[i][p]` in an expression. -/
def CsvScan.value (M : Platform) (s : CsvScan) (i p : ℕ) : ℤ :=
  M.promote ((s.intArray i).getD p 0)

/-- Record `i` of `curr_o_array`, which has been cleared. -/
def CsvScan.record (M : Platform) (s : CsvScan) (i : ℕ) : ORecord where
  bytes :=
    clearedCopy oLabelSize (s.labelArray i) ++
      [BitVec.ofNat 8 i, BitVec.ofInt 8 (s.value M i 1), BitVec.ofInt 8 (s.value M i 2),
        BitVec.ofInt 8 (s.value M i 3), BitVec.ofInt 8 (s.value M i 4), 0] ++
      getBytes (BitVec.ofInt 32 (s.value M i 5)) ++ getBytes (BitVec.ofInt 32 (s.value M i 6)) ++
      [BitVec.ofInt 8 (s.value M i 7), BitVec.ofInt 8 (s.value M i 8), 0, 0]
  length_bytes := by
    simp only [List.length_append, length_clearedCopy, getBytes, List.length_cons, List.length_nil]
    rfl

/-- What `oWriteConfig` writes of an array. -/
def oWriteConfig (currOArray : ℕ → ORecord) (size : ℕ) : List UCHAR :=
  0xAA#8 :: (List.range (size / sizeofOData)).flatMap fun i => (currOArray i).bytes

/-- How `init_db` ends. -/
inductive InitDb where
  /-- It has left one of its arrays, and C says nothing of what follows. -/
  | outside
  | copyLabelsFailed
  | badIndex (i : ℕ) (found : ℤ)
  | written (filename : List Char) (content : List UCHAR)
  deriving DecidableEq

/-- `main` with the name of the database as its only parameter. `files` are the files that can be
opened. -/
def initDb (M : Platform) (name : List Char) (files : List Char → Option (List UCHAR)) : InitDb :=
  if 30 ≤ name.length then .outside
  else
    match (csvName (name ++ Char.ofNat 0 :: M.behindFilename)).bind files with
    | none => .copyLabelsFailed
    | some file =>
        match copyLabels M file with
        | none => .outside
        | some s =>
            match (List.range numPortBits).find? fun i => s.value M i 0 ≠ i with
            | some i => .badIndex i (s.value M i 0)
            | none => .written name (oWriteConfig (s.record M) osize)

end TruckControl
