import TruckControl.Library.Chunks
import TruckControl.Model.OutputRecords
import TruckControl.Model.ParamFile
import TruckControl.Model.ParamTables

/-! # `odata.dat` -/

namespace TruckControl

def numPortBits : ℕ := 40

def oLabelSize : ℕ := 30

/-- `sizeof(O_DATA)`: the label, five bytes and one to align, two integers, two bytes and two
to align. -/
def sizeofOData : ℕ := 48

/-- A record of an output, as it lies in memory and in the file. -/
structure ORecord where
  bytes : List UCHAR
  length_bytes : bytes.length = sizeofOData

namespace ORecord

@[ext] theorem ext {r s : ORecord} (h : r.bytes = s.bytes) : r = s := by
  cases r
  cases s
  cases h
  rfl

/-- The label as a string: the bytes up to the first NUL. -/
def label (r : ORecord) : String :=
  String.ofList
    (((r.bytes.take oLabelSize).takeWhile fun c => c ≠ 0#8).map fun c => Char.ofNat c.toNat)

/-- The fields of the bytes. -/
def odata (r : ORecord) : OData where
  label := r.label
  port := r.bytes.getD 30 0
  onoff := r.bytes.getD 31 0
  inputPort := r.bytes.getD 32 0
  polarity := r.bytes.getD 33 0
  type := r.bytes.getD 34 0
  timeDelay := Params.intAt r.bytes 9
  timeLeft := Params.intAt r.bytes 10
  pulseTime := r.bytes.getD 44 0
  reset := r.bytes.getD 45 0

end ORecord

/-- The list of records. -/
abbrev OMemory := SortedList ORecord

/-! ## Loading -/

/-- `read(fp,&o_data,sizeof(O_DATA))`. -/
def readORecord (file : List UCHAR) (oData : ORecord) : ORecord where
  bytes := readInto sizeofOData file oData.bytes
  length_bytes := by
    rw [length_readInto (Nat.le_of_eq oData.length_bytes.symm), oData.length_bytes]

/-- What the loop of `olLoadConfig` works on: the rest of the file, the record that is read
into, and the list. -/
structure OLoading where
  rest : List UCHAR
  oData : ORecord
  oll : OMemory

/-- A turn of the loop. Nothing asks how much has been read. -/
def OLoading.next (s : OLoading) (i : ℕ) : OLoading :=
  let oData := readORecord s.rest s.oData
  { rest := s.rest.drop sizeofOData, oData := oData, oll := s.oll.insert i oData }

/-- What `olLoadConfig` returns, and what it leaves. -/
structure OLoaded where
  ret : ℤ
  oll : OMemory
  errmsg : String

/-- `olLoadConfig`. A file that cannot be opened comes with the text of `strerror`; `id` and
`oData` are what the variables hold before they are read into. -/
def olLoadConfig (id : UCHAR) (oData : ORecord) (file : Except String (List UCHAR))
    (oll : OMemory) : OLoaded :=
  match file with
  | .error errmsg => ⟨-2, oll, errmsg⟩
  | .ok content =>
      if content.headD id ≠ 0xAA#8 then ⟨-1, oll, "invalid file format - id is not 0x55"⟩
      else
        let s := (List.range numPortBits).foldl OLoading.next ⟨content.drop 1, oData, oll⟩
        ⟨0, s.oll, "Success"⟩

/-! ## Writing -/

/-- What `write` puts into the file for a pointer that was found; with none it fails. -/
def writtenRecord (pio : Option ORecord) : List UCHAR :=
  match pio with
  | none => []
  | some pio => pio.bytes

/-- What `olWriteConfig` has written to the emptied file when it is through. -/
def olWriteConfig (size : ℕ) (oll : OMemory) : List UCHAR :=
  0xAA#8 :: (List.range (size / sizeofOData)).flatMap fun i => writtenRecord (oll.find i)

/-- `osize`. -/
def osize : ℕ := sizeofOData * numPortBits

end TruckControl
