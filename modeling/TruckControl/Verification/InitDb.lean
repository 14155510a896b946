import Mathlib.Data.Nat.Log
import TruckControl.Model.InitDb
import TruckControl.Verification.OdataFile
import TruckControl.Verification.SetTime

/-!
# The import of the database

The rows of the table become the records of the file, as far as their numbers fit into a `char`.
-/

namespace TruckControl

/-! ## A number of the table -/

/-- `atoi` reads an integer up to what is no digit. -/
theorem atoi_signed_append (v : ℤ) {t : List UCHAR} (ht : t.takeWhile Decimal.isDigit = []) :
    atoi (Decimal.signed 8 v ++ t) = v := by
  have hdigits := Decimal.digits_decimal 8 v.natAbs
  rw [Decimal.signed]
  split_ifs with hneg
  · have hminus : isSpace (BitVec.ofNat 8 45) = false := by decide
    have htake : (Decimal.decimal 8 v.natAbs ++ t).takeWhile Decimal.isDigit =
        Decimal.decimal 8 v.natAbs := by
      rw [List.takeWhile_append_of_pos (hdigits.all_isDigit (by decide)), ht, List.append_nil]
    rw [List.cons_append, atoi, List.dropWhile_cons_of_neg (by simp [hminus])]
    simp only [if_pos (show BitVec.ofNat 8 45 = ascii '-' from rfl), htake,
      Decimal.number_decimal (show 6 ≤ 8 by decide)]
    omega
  · rw [atoi_digits_append hdigits (Decimal.decimal_ne_nil 8 v.natAbs) ht,
      Decimal.number_decimal (by decide)]
    omega

/-- A field of a row: no letter, no comma, and not longer than `tempy`. -/
structure Field (s : List UCHAR) : Prop where
  no_letter : ∀ c ∈ s, isalpha c = false
  no_comma : ascii ',' ∉ s
  length_le : s.length ≤ 10

theorem width_le {v : ℤ} {n : ℕ} (hn : 2 ≤ n) (hlow : -1 ≤ v) (hhigh : v.natAbs < 10 ^ n) :
    Decimal.width v ≤ n := by
  rw [Decimal.width]
  by_cases hzero : v.natAbs = 0
  · rw [hzero, Nat.log_zero_right]
    split_ifs <;> omega
  · have hlog := Nat.log_lt_of_lt_pow hzero hhigh
    split_ifs with hneg
    · have hone : v.natAbs = 1 := by omega
      rw [hone, Nat.log_one_right]
      omega
    · omega

theorem field_signed {v : ℤ} (hlow : -1 ≤ v) (hhigh : v < 4294967296) :
    Field (Decimal.signed 8 v) where
  no_letter := by
    intro c hc
    rcases Decimal.mem_signed hc with rfl | ⟨d, hd, rfl⟩
    · decide
    · have hall : ∀ d < 10, isalpha (Decimal.digit 8 d) = false := by decide
      exact hall d hd
  no_comma := by
    intro hc
    have hall : ∀ d < 10, ascii ',' ≠ Decimal.digit 8 d := by decide
    rcases Decimal.mem_signed hc with heq | ⟨d, hd, heq⟩
    · exact absurd heq (by decide)
    · exact hall d hd heq
  length_le := by
    rw [Decimal.length_signed]
    exact width_le (by decide) hlow (by omega)

namespace Platform

variable (M : Platform)

/-- What a `char` keeps of a number that is shorter than `tempy`. -/
theorem stored_signed {v : ℤ} (hlow : -1 ≤ v) (hhigh : v < 1000000000) (j p : ℕ) :
    M.stored j p (Decimal.signed 8 v) = BitVec.ofInt 8 v := by
  have hlength : (Decimal.signed 8 v).length ≤ 9 := by
    rw [Decimal.length_signed]
    exact width_le (by decide) hlow (by omega)
  have hzero : (List.replicate (10 - (Decimal.signed 8 v).length) 0 ++
      M.behindTempy j p).takeWhile Decimal.isDigit = [] := by
    obtain ⟨k, hk⟩ : ∃ k, 10 - (Decimal.signed 8 v).length = k + 1 :=
      ⟨9 - (Decimal.signed 8 v).length, by omega⟩
    rw [hk, List.replicate_succ, List.cons_append, List.takeWhile_cons_of_neg]
    decide
  rw [stored, List.append_assoc, atoi, atoi_signed_append v hzero, if_pos (by omega)]

/-- A `char` in a `char` is itself, with or without a sign. -/
theorem ofInt_promote (c : UCHAR) : BitVec.ofInt 8 (M.promote c) = c := by
  rw [promote]
  split_ifs
  · exact BitVec.ofInt_toInt
  · rw [BitVec.ofInt_natCast, BitVec.ofNat_toNat, BitVec.setWidth_eq]

/-- The number in field `p` of row `j` comes back out of its `char`: it is small, or it is a sign
that has been extended and `atoi`, which has no result for such numbers, has made the same of its
ten digits and what is behind them. -/
def Keeps (j p : ℕ) (v : UINT) : Prop :=
  v.toNat < (if M.charSigned then 128 else 256) ∨
    M.charSigned ∧ 4294967168 ≤ v.toNat ∧
      BitVec.ofInt 8 (M.atoi (Decimal.signed 8 v.toNat ++ M.behindTempy j p)) = v.setWidth 8

instance (j p : ℕ) (v : UINT) : Decidable (M.Keeps j p v) := inferInstanceAs (Decidable (_ ∨ _))

/-- A number of ten digits fills `tempy`. -/
theorem stored_long {v : UINT} (h : 1000000000 ≤ v.toNat) (j p : ℕ) :
    M.stored j p (Decimal.signed 8 v.toNat) =
      BitVec.ofInt 8 (M.atoi (Decimal.signed 8 v.toNat ++ M.behindTempy j p)) := by
  have hlog : Nat.log 10 v.toNat = 9 := by
    apply Nat.log_eq_of_pow_le_of_lt_pow
    · omega
    · have hlt := v.isLt
      omega
  have hlength : (Decimal.signed 8 (v.toNat : ℤ)).length = 10 := by
    have hpos : ¬ (v.toNat : ℤ) < 0 := by omega
    rw [Decimal.length_signed, Decimal.width, if_neg hpos, Int.natAbs_natCast, hlog]
  rw [stored, hlength, Nat.sub_self, List.replicate_zero, List.append_nil]

/-- A `char` in an `int`: the sign is extended. -/
theorem toNat_ofInt_promote (c : UCHAR) : (BitVec.ofInt 32 (M.promote c)).toNat =
    if M.charSigned ∧ 128 ≤ c.toNat then 4294967040 + c.toNat else c.toNat := by
  have hlt := c.isLt
  have htoInt : c.toInt = if 128 ≤ c.toNat then (c.toNat : ℤ) - 256 else c.toNat := by
    rw [BitVec.toInt_eq_toNat_cond]
    split_ifs <;> omega
  rw [promote, BitVec.toNat_ofInt]
  simp only [Nat.reducePow, Nat.cast_ofNat]
  by_cases hsigned : M.charSigned
  · simp only [hsigned, if_true, true_and, htoInt]
    split_ifs <;> omega
  · rw [if_neg hsigned, if_neg fun h => hsigned h.1]
    omega

theorem toNat_ofInt_eight {v : ℕ} (h : v < 256) : (BitVec.ofInt 8 (v : ℤ)).toNat = v := by
  rw [BitVec.ofInt_natCast, BitVec.toNat_ofNat, Nat.mod_eq_of_lt h]

/-- What is read of an `int` that has been a `char`. -/
theorem ofInt_promote_eq_iff (j p : ℕ) (v : UINT) :
    BitVec.ofInt 32 (M.promote (M.stored j p (Decimal.signed 8 v.toNat))) = v ↔
      M.Keeps j p v := by
  have hlt := v.isLt
  rw [← BitVec.toNat_inj, toNat_ofInt_promote, Keeps]
  by_cases hsmall : v.toNat < 256
  · rw [M.stored_signed (by omega) (by omega), toNat_ofInt_eight hsmall]
    have hshort : ¬ 4294967168 ≤ v.toNat := by omega
    cases M.charSigned with
    | false => simp [hsmall]
    | true =>
        simp [hshort]
  · have hc := (M.stored j p (Decimal.signed 8 v.toNat)).isLt
    have hfirst : ¬ v.toNat < if M.charSigned = true then 128 else 256 := by
      split_ifs <;> omega
    rw [or_iff_right hfirst]
    constructor
    · intro h
      split_ifs at h with hsigned
      · have hlong : 4294967168 ≤ v.toNat := by omega
        refine ⟨hsigned.1, hlong, ?_⟩
        rw [← M.stored_long (by omega), ← BitVec.toNat_inj, BitVec.toNat_setWidth]
        omega
      · omega
    · rintro ⟨hsigned, hlong, hbyte⟩
      rw [← M.stored_long (by omega), ← BitVec.toNat_inj, BitVec.toNat_setWidth] at hbyte
      rw [if_pos ⟨hsigned, by omega⟩]
      omega

end Platform

/-! ## The scanner -/

section

variable {M : Platform} {buf pre read rest ints : List UCHAR} {c d : UCHAR} {j k m n p : ℕ}

theorem scanNumbers_of_isalpha (h : isalpha c = true) :
    scanNumbers M buf j (c :: rest) k m n p ints = some ⟨c :: rest, k, m, ints⟩ := by
  cases rest with
  | nil => rw [scanNumbers, if_pos h]
  | cons d rest => rw [scanNumbers, if_pos h]

theorem scanNumbers_move (hc : isalpha c = false) (hm : m < 100) (hd : d ≠ ascii ',') :
    scanNumbers M buf j (c :: d :: rest) k m n p ints =
      scanNumbers M buf j (d :: rest) (k + 1) (m + 1) (n + 1) p ints := by
  have hletter : ¬ isalpha c = true := by simp [hc]
  rw [scanNumbers, if_neg hletter, if_neg (Nat.not_le.mpr hm), if_neg hd]

/-- At a comma the characters that have been counted are in `tempy`. -/
theorem scanNumbers_comma (hc : isalpha c = false) (hm : m < 100) (hp : p < 10)
    (hbuf : buf = pre ++ (read ++ ascii ',' :: rest)) (hread : read.length ≤ 10) :
    scanNumbers M buf j (c :: ascii ',' :: rest) k m read.length p ints =
      scanNumbers M buf j (ascii ',' :: rest) (k + 1) (m + 1) 0 (p + 1)
        (ints.set p (M.stored j p read)) := by
  have hletter : ¬ isalpha c = true := by simp [hc]
  have hplace : buf.length - (ascii ',' :: rest).length + 1 - (read.length + 1) = pre.length := by
    rw [hbuf, List.length_append, List.length_append]
    omega
  have htempy : (buf.drop pre.length).take read.length = read := by
    rw [hbuf, List.drop_left, List.take_left]
  rw [scanNumbers, if_neg hletter, if_neg (Nat.not_le.mpr hm), if_pos rfl]
  simp only [hplace, htempy]
  rw [if_neg (by omega)]

/-- The scanner moves over what is left of a field, to the comma behind it. -/
theorem scanNumbers_field {s : List UCHAR} (hc : isalpha c = false)
    (hletters : ∀ d ∈ s, isalpha d = false) (hcomma : ascii ',' ∉ s) (hm : m + s.length < 100)
    (hp : p < 10) (hbuf : buf = pre ++ (read ++ (s ++ ascii ',' :: rest)))
    (hread : read.length + s.length ≤ 10) :
    scanNumbers M buf j (c :: (s ++ ascii ',' :: rest)) k m read.length p ints =
      scanNumbers M buf j (ascii ',' :: rest) (k + (s.length + 1)) (m + (s.length + 1)) 0 (p + 1)
        (ints.set p (M.stored j p (read ++ s))) := by
  induction s generalizing c k m read with
  | nil =>
      rw [List.nil_append, scanNumbers_comma hc (by omega) hp hbuf (by omega), List.append_nil]
      rfl
  | cons d s ih =>
      obtain ⟨hd, hs⟩ := List.forall_mem_cons.mp hletters
      rw [List.mem_cons, not_or] at hcomma
      rw [List.length_cons] at hm hread
      have hmoved : buf = pre ++ ((read ++ [d]) ++ (s ++ ascii ',' :: rest)) := by
        rw [hbuf, List.append_assoc, List.singleton_append, List.cons_append]
      have hcount : (read ++ [d]).length = read.length + 1 := by simp
      have hrest := ih (k := k + 1) (m := m + 1) hd hs hcomma.2 (by omega) hmoved (by omega)
      rw [hcount] at hrest
      rw [List.cons_append, scanNumbers_move hc (by omega) (Ne.symm hcomma.1), hrest,
        List.append_assoc, List.singleton_append, List.length_cons]
      have hk : k + 1 + (s.length + 1) = k + (s.length + 1 + 1) := by omega
      have hm' : m + 1 + (s.length + 1) = m + (s.length + 1 + 1) := by omega
      rw [hk, hm']

/-- Integers, each with a comma behind it. -/
def fieldTexts (vs : List ℤ) : List UCHAR :=
  vs.flatMap fun v => Decimal.signed 8 v ++ [ascii ',']

/-- The row of `int_array` behind the fields from `p` on. -/
def setFields (M : Platform) (j : ℕ) : ℕ → List UCHAR → List ℤ → List UCHAR
  | _, ints, [] => ints
  | p, ints, v :: vs =>
      setFields M j (p + 1) (ints.set p (M.stored j p (Decimal.signed 8 v))) vs

/-- The scanner reads field after field, up to the letter behind the last comma. -/
theorem scanNumbers_fields {vs : List ℤ} (hc : isalpha c = false) (hd : isalpha d = true)
    (hvs : ∀ v ∈ vs, -1 ≤ v ∧ v < 4294967296) (hm : m + 11 * vs.length < 100)
    (hp : p + vs.length ≤ 10) (hbuf : buf = pre ++ (fieldTexts vs ++ d :: rest)) :
    scanNumbers M buf j (c :: (fieldTexts vs ++ d :: rest)) k m 0 p ints =
      some ⟨d :: rest, k + ((fieldTexts vs).length + 1), m + ((fieldTexts vs).length + 1),
        setFields M j p ints vs⟩ := by
  induction vs generalizing c k m p ints pre with
  | nil =>
      have hne : d ≠ ascii ',' := by
        rintro rfl
        exact absurd hd (by decide)
      exact (scanNumbers_move hc (by omega) hne).trans (scanNumbers_of_isalpha hd)
  | cons v vs ih =>
      obtain ⟨hv, hvs⟩ := List.forall_mem_cons.mp hvs
      have hfield := field_signed hv.1 hv.2
      have hlength := hfield.length_le
      rw [List.length_cons] at hm hp
      have htexts : fieldTexts (v :: vs) ++ d :: rest =
          Decimal.signed 8 v ++ ascii ',' :: (fieldTexts vs ++ d :: rest) := by
        simp [fieldTexts]
      have hbehind : buf = (pre ++ Decimal.signed 8 v ++ [ascii ',']) ++
          (fieldTexts vs ++ d :: rest) := by
        rw [hbuf, htexts]
        simp
      rw [htexts] at hbuf ⊢
      have hroom : m + (Decimal.signed 8 v).length < 100 := by omega
      have hempty : ([] : List UCHAR).length + (Decimal.signed 8 v).length ≤ 10 := by simpa
      have hfirst : scanNumbers M buf j
          (c :: (Decimal.signed 8 v ++ ascii ',' :: (fieldTexts vs ++ d :: rest))) k m
          ([] : List UCHAR).length p ints = _ :=
        scanNumbers_field hc hfield.no_letter hfield.no_comma hroom (by omega) hbuf hempty
      rw [List.length_nil, List.nil_append] at hfirst
      rw [hfirst, ih (by decide) hvs (by omega) (by omega) hbehind]
      have hcount : (fieldTexts (v :: vs)).length =
          (Decimal.signed 8 v).length + 1 + (fieldTexts vs).length := by
        simp [fieldTexts]
        omega
      rw [hcount, setFields]
      congr 2 <;> omega

/-- The label ends at a newline or at the end of the file. -/
theorem scanLabel_append {s : List UCHAR} {fsize i : ℕ} (hs : ascii '\n' ∉ s)
    (hk : k + s.length ≤ fsize) (hend : d = ascii '\n' ∨ k + s.length = fsize) :
    scanLabel fsize (s ++ d :: rest) i k = some (i + s.length, k + s.length, d :: rest) := by
  induction s generalizing i k with
  | nil =>
      have hstop : ¬ (d ≠ ascii '\n' ∧ k < fsize) := by
        rintro ⟨hne, hlt⟩
        rcases hend with heq | heq
        · exact hne heq
        · exact absurd heq (Nat.ne_of_lt hlt)
      rw [List.nil_append, scanLabel, if_neg hstop]
      rfl
  | cons c s ih =>
      rw [List.mem_cons, not_or] at hs
      rw [List.length_cons] at hk hend
      rw [List.cons_append, scanLabel, if_pos ⟨Ne.symm hs.1, by omega⟩,
        ih hs.2 (by omega) (hend.imp_right fun h => by omega), List.length_cons]
      have hi : i + 1 + s.length = i + (s.length + 1) := by omega
      have hk' : k + 1 + s.length = k + (s.length + 1) := by omega
      rw [hi, hk']

end

/-! ## The table -/

/-- An integer that fits into a byte, or the -1 that stands for none. -/
abbrev CsvByte := { v : ℤ // -1 ≤ v ∧ v ≤ 255 }

structure CsvLabel where
  chars : List UCHAR
  letter : UCHAR
  behind : List UCHAR
  chars_eq : chars = letter :: behind
  isalpha_letter : isalpha letter = true
  length_le : chars.length ≤ 29
  no_newline : ascii '\n' ∉ chars
  no_zero : 0#8 ∉ chars

/-- A row, without the number that counts it. -/
structure CsvRow where
  onoff : CsvByte
  inputPort : CsvByte
  polarity : CsvByte
  type : CsvByte
  timeDelay : UINT
  timeLeft : UINT
  pulseTime : CsvByte
  reset : CsvByte
  label : CsvLabel

namespace CsvRow

variable (r : CsvRow)

def fields (i : ℕ) : List ℤ :=
  [i, r.onoff, r.inputPort, r.polarity, r.type, r.timeDelay.toNat, r.timeLeft.toNat, r.pulseTime,
    r.reset]

def text (i : ℕ) : List UCHAR := fieldTexts (r.fields i) ++ r.label.chars

/-- The record that row `i` stands for. -/
def odata (i : ℕ) : OData where
  label := String.ofList (r.label.chars.map fun c => Char.ofNat c.toNat)
  port := BitVec.ofNat 8 i
  onoff := BitVec.ofInt 8 r.onoff
  inputPort := BitVec.ofInt 8 r.inputPort
  polarity := BitVec.ofInt 8 r.polarity
  type := BitVec.ofInt 8 r.type
  timeDelay := r.timeDelay
  timeLeft := r.timeLeft
  pulseTime := BitVec.ofInt 8 r.pulseTime
  reset := BitVec.ofInt 8 r.reset

theorem fields_bounds {i : ℕ} (hi : i < numPortBits) :
    ∀ v ∈ r.fields i, -1 ≤ v ∧ v < 4294967296 := by
  have hbyte (b : CsvByte) : -1 ≤ (b : ℤ) ∧ (b : ℤ) < 4294967296 := by
    have hb := b.property
    omega
  have hint (v : UINT) : -1 ≤ (v.toNat : ℤ) ∧ (v.toNat : ℤ) < 4294967296 := by
    have hlt := v.isLt
    omega
  have hindex : -1 ≤ (i : ℤ) ∧ (i : ℤ) < 4294967296 := by
    rw [numPortBits] at hi
    omega
  simp [fields, hbyte, hint, hindex]

end CsvRow

/-- Rows of the table, each behind a newline. -/
def csvRows (rows : ℕ → CsvRow) (is : List ℕ) : List UCHAR :=
  is.flatMap fun i => ascii '\n' :: (rows i).text i

/-- The table, and what may follow behind the end of its last row. -/
def csvFile (rows : ℕ → CsvRow) (rest : List UCHAR) : List UCHAR :=
  csvRows rows (List.range numPortBits) ++ rest

/-- Nothing follows the last row, or a newline does. -/
def EndsRow (s : List UCHAR) : Prop := s = [] ∨ ∃ t, s = ascii '\n' :: t

instance (s : List UCHAR) : Decidable (EndsRow s) :=
  match s with
  | [] => .isTrue (.inl rfl)
  | c :: t =>
      if h : c = ascii '\n' then .isTrue (.inr ⟨t, by rw [h]⟩)
      else .isFalse (by
        rintro (hnil | ⟨t', heq⟩)
        · cases hnil
        · exact h (List.cons.inj heq).1)

theorem endsRow_csvRows {rest : List UCHAR} (hrest : EndsRow rest) (rows : ℕ → CsvRow)
    (is : List ℕ) : EndsRow (csvRows rows is ++ rest) := by
  cases is with
  | nil => exact hrest
  | cons i is => exact .inr ⟨_, rfl⟩

/-! ## The loop over the rows -/

section

variable {M : Platform} {buf pre rest : List UCHAR} {rows : ℕ → CsvRow} {fsize j : ℕ} {d : UCHAR}

/-- What a row leaves in `int_array`. -/
def rowInts (M : Platform) (r : CsvRow) (j : ℕ) : List UCHAR :=
  setFields M j 0 (List.replicate 10 0) (r.fields j)

/-- The loop behind row `j`, with the pointer at `pch`. -/
def CsvScan.behind (M : Platform) (s : CsvScan) (r : CsvRow) (j : ℕ) (pch : List UCHAR) :
    CsvScan where
  pch := pch
  k := s.k + (1 + (r.text j).length)
  intArray := Function.update s.intArray j (rowInts M r j)
  labelArray := Function.update s.labelArray j (clearedCopy oLabelSize r.label.chars)

theorem CsvScan.next_row {s : CsvScan} {r : CsvRow} (hj : j < numPortBits)
    (hpch : s.pch = ascii '\n' :: (r.text j ++ d :: rest)) (hbuf : buf = pre ++ s.pch)
    (hsize : s.k + (1 + (r.text j).length) ≤ fsize)
    (hend : d = ascii '\n' ∨ s.k + (1 + (r.text j).length) = fsize)
    (hints : s.intArray j = List.replicate 10 0) :
    s.next M buf fsize j = some (s.behind M r j (d :: rest)) := by
  have hlength := r.label.length_le
  have hlabel : r.label.letter :: (r.label.behind ++ d :: rest) =
      r.label.chars ++ d :: rest := by
    rw [r.label.chars_eq, List.cons_append]
  have htext : r.text j ++ d :: rest =
      fieldTexts (r.fields j) ++ r.label.letter :: (r.label.behind ++ d :: rest) := by
    rw [hlabel, CsvRow.text, List.append_assoc]
  have hcount : (r.text j).length = (fieldTexts (r.fields j)).length + r.label.chars.length := by
    rw [CsvRow.text, List.length_append]
  have hplace : buf = (pre ++ [ascii '\n']) ++
      (fieldTexts (r.fields j) ++ r.label.letter :: (r.label.behind ++ d :: rest)) := by
    rw [hbuf, hpch, htext]
    simp
  have hnine : (r.fields j).length = 9 := rfl
  have hnumbers : scanNumbers M buf j s.pch s.k 0 0 0 (s.intArray j) =
      some ⟨r.label.letter :: (r.label.behind ++ d :: rest),
        s.k + ((fieldTexts (r.fields j)).length + 1), 0 + ((fieldTexts (r.fields j)).length + 1),
        rowInts M r j⟩ := by
    rw [hpch, htext, hints]
    exact scanNumbers_fields (by decide) r.label.isalpha_letter (r.fields_bounds hj)
      (by rw [hnine]; decide) (by rw [hnine]; decide) hplace
  have hscan : scanLabel fsize (r.label.chars ++ d :: rest) 0
      (s.k + ((fieldTexts (r.fields j)).length + 1)) =
        some (r.label.chars.length, s.k + (1 + (r.text j).length), d :: rest) := by
    rw [scanLabel_append r.label.no_newline (by omega) (hend.imp_right fun h => by omega),
      Nat.zero_add]
    congr 3
    omega
  rw [next, hnumbers]
  simp only [hlabel, hscan, List.take_left]
  rw [if_neg (by omega), if_neg (by rw [oLabelSize]; omega), behind]

/-- The tables hold what row `q` of the text says. -/
def CsvScan.Copied (M : Platform) (rows : ℕ → CsvRow) (s : CsvScan) (q : ℕ) : Prop :=
  s.intArray q = rowInts M (rows q) q ∧
    s.labelArray q = clearedCopy oLabelSize (rows q).label.chars

/-- From row `i` on, the loop copies `n` rows and leaves the ones before them as they are. The
pointer is at the newline in front of a row, and `k` counts the characters up to it. -/
theorem foldlM_next (hrest : EndsRow rest) (z : UCHAR) (zs : List UCHAR) {i n : ℕ}
    (hn : i + n ≤ numPortBits) {s : CsvScan}
    (hpch : s.pch = (csvRows rows (List.range' i n) ++ rest) ++ z :: zs)
    (hbuf : buf = pre ++ s.pch)
    (hsize : s.k + (csvRows rows (List.range' i n) ++ rest).length = fsize)
    (hints : ∀ q, i ≤ q → s.intArray q = List.replicate 10 0) :
    ∃ s', (List.range' i n).foldlM (CsvScan.next M buf fsize) s = some s' ∧
      (∀ q < i, s'.intArray q = s.intArray q ∧ s'.labelArray q = s.labelArray q) ∧
      ∀ q, i ≤ q → q < i + n → s'.Copied M rows q := by
  induction n generalizing i s pre with
  | zero => exact ⟨s, rfl, fun q _ => ⟨rfl, rfl⟩, fun q hle hlt => absurd hlt (by omega)⟩
  | succ n ih =>
      have htail := endsRow_csvRows hrest rows (List.range' (i + 1) n)
      have hrows : csvRows rows (List.range' i (n + 1)) ++ rest =
          ascii '\n' :: ((rows i).text i ++ (csvRows rows (List.range' (i + 1) n) ++ rest)) := by
        rw [List.range'_succ]
        simp [csvRows]
      rw [hrows] at hpch hsize
      generalize htail_eq : csvRows rows (List.range' (i + 1) n) ++ rest = tail at *
      -- the row ends at a newline, or at the end of the file with a zero behind it
      obtain ⟨d, behind, hd, hend⟩ : ∃ d behind, tail ++ z :: zs = d :: behind ∧
          (d = ascii '\n' ∨ tail = []) := by
        rcases htail with rfl | ⟨t, rfl⟩
        · exact ⟨z, zs, rfl, .inr rfl⟩
        · exact ⟨ascii '\n', t ++ z :: zs, rfl, .inl rfl⟩
      have hrow : s.pch = ascii '\n' :: ((rows i).text i ++ d :: behind) := by
        rw [hpch, ← hd]
        simp
      simp only [List.length_cons, List.length_append] at hsize
      have hstop : d = ascii '\n' ∨ s.k + (1 + ((rows i).text i).length) = fsize := by
        refine hend.imp_right fun h => ?_
        rw [h, List.length_nil] at hsize
        omega
      have hnext := CsvScan.next_row (M := M) (by omega) hrow hbuf (by omega) hstop
        (hints i (Nat.le_refl i))
      have hplace : buf = (pre ++ ascii '\n' :: (rows i).text i) ++ d :: behind := by
        rw [hbuf, hrow]
        simp
      have hcleared (q : ℕ) (hq : i + 1 ≤ q) :
          (s.behind M (rows i) i (d :: behind)).intArray q = List.replicate 10 0 :=
        (Function.update_of_ne (by omega) _ _).trans (hints q (by omega))
      have hcount : (s.behind M (rows i) i (d :: behind)).k + tail.length = fsize := by
        change s.k + (1 + ((rows i).text i).length) + tail.length = fsize
        omega
      rw [← htail_eq] at hcount
      obtain ⟨s', hfold, hbefore, hcopied⟩ := ih (by omega)
        (by rw [htail_eq]; exact hd.symm) hplace hcount hcleared
      refine ⟨s', ?_, fun q hq => ?_, fun q hle hlt => ?_⟩
      · rw [List.range'_succ, List.foldlM_cons, hnext]
        exact hfold
      · rw [(hbefore q (by omega)).1, (hbefore q (by omega)).2, CsvScan.behind]
        simp only [Function.update_of_ne (by omega : q ≠ i), and_self]
      · by_cases heq : q = i
        · rw [CsvScan.Copied, heq, (hbefore i (by omega)).1, (hbefore i (by omega)).2,
            CsvScan.behind]
          simp only [Function.update_self, and_self]
        · exact hcopied q (by omega) (by omega)

end

/-! ## The labels -/

/-- A string without a zero ends where its characters do. -/
theorem takeWhile_string {s : List UCHAR} (hs : 0#8 ∉ s) (t : List UCHAR) :
    (s ++ t).takeWhile (fun c => c ≠ 0#8) = s ++ t.takeWhile fun c => c ≠ 0#8 := by
  apply List.takeWhile_append_of_pos
  intro c hc
  simp only [ne_eq, decide_eq_true_eq]
  rintro rfl
  exact hs hc

theorem clearedCopy_eq {n : ℕ} {s : List UCHAR} (hs : 0#8 ∉ s) (hn : s.length ≤ n) :
    clearedCopy n s = s ++ List.replicate (n - s.length) 0 := by
  have hall := takeWhile_string hs []
  rw [List.takeWhile_nil, List.append_nil] at hall
  rw [clearedCopy, hall, List.take_append, List.take_of_length_le hn, List.take_replicate,
    Nat.min_eq_left (Nat.sub_le _ _)]

theorem takeWhile_clearedCopy {n : ℕ} {s : List UCHAR} (hs : 0#8 ∉ s) (hn : s.length < n) :
    (clearedCopy n s).takeWhile (fun c => c ≠ 0#8) = s := by
  obtain ⟨k, hk⟩ : ∃ k, n - s.length = k + 1 := ⟨n - s.length - 1, by omega⟩
  rw [clearedCopy_eq hs (Nat.le_of_lt hn), hk, takeWhile_string hs, List.replicate_succ,
    List.takeWhile_cons_of_neg (by simp), List.append_nil]

/-- `strcpy` takes over what `strncpy` has left. -/
theorem clearedCopy_clearedCopy {n : ℕ} {s : List UCHAR} (hs : 0#8 ∉ s) (hn : s.length < n) :
    clearedCopy n (clearedCopy n s) = clearedCopy n s := by
  have hall := takeWhile_string hs []
  rw [List.takeWhile_nil, List.append_nil] at hall
  rw [clearedCopy, takeWhile_clearedCopy hs hn, clearedCopy, hall]

theorem CsvLabel.length_lt (l : CsvLabel) : l.chars.length < oLabelSize :=
  Nat.lt_succ_of_le l.length_le

/-- A label leaves a zero in its row. -/
theorem CsvLabel.zero_mem (l : CsvLabel) : 0#8 ∈ clearedCopy oLabelSize l.chars := by
  have hlength := l.length_lt
  rw [clearedCopy_eq l.no_zero (Nat.le_of_lt hlength), List.mem_append, List.mem_replicate]
  exact .inr ⟨by omega, rfl⟩

/-! ## The file -/

section

variable {M : Platform} {rows : ℕ → CsvRow} {rest : List UCHAR} {s : CsvScan} {i : ℕ}

theorem copyLabels_csvFile (hrest : EndsRow rest) (hlength : (csvFile rows rest).length ≤ 2999) :
    ∃ s, copyLabels M (csvFile rows rest) = some s ∧
      ∀ q < numPortBits, s.Copied M rows q := by
  obtain ⟨k, hk⟩ : ∃ k, 3000 - (csvFile rows rest).length = k + 1 :=
    ⟨2999 - (csvFile rows rest).length, by omega⟩
  have hbuf : csvBuf (csvFile rows rest) =
      (csvRows rows (List.range' 0 numPortBits) ++ rest) ++ 0 :: List.replicate k 0 := by
    rw [csvBuf, hk, csvFile, List.range_eq_range', List.replicate_succ]
  -- the file begins with a newline
  have hpch : (csvStart (csvBuf (csvFile rows rest))).pch = csvBuf (csvFile rows rest) := rfl
  obtain ⟨s, hfold, -, hcopied⟩ := foldlM_next (M := M) hrest 0 (List.replicate k 0)
    (Nat.le_of_eq (Nat.zero_add numPortBits)) (hpch.trans hbuf) (List.nil_append _).symm
    (Nat.zero_add _) (fun q _ => rfl)
  have hlabels : ((List.range numPortBits).all fun i => (s.labelArray i).contains 0) = true := by
    rw [List.all_eq_true]
    intro q hq
    have hlt := List.mem_range.mp hq
    rw [(hcopied q (Nat.zero_le q) (by omega)).2, List.contains_iff_mem]
    exact (rows q).label.zero_mem
  refine ⟨s, ?_, fun q hq => hcopied q (Nat.zero_le q) (by omega)⟩
  rw [← List.range_eq_range', hpch] at hfold
  rw [copyLabels, if_neg (by omega)]
  simp only [csvFile] at hfold ⊢
  rw [hfold]
  simp only [hlabels, if_true]

/-- The fields of a record that the tables make. -/
theorem CsvScan.odata_record (M : Platform) (s : CsvScan) (i : ℕ) :
    (s.record M i).odata =
      { label := String.ofList (((clearedCopy oLabelSize (s.labelArray i)).takeWhile
          fun c => c ≠ 0#8).map fun c => Char.ofNat c.toNat)
        port := BitVec.ofNat 8 i
        onoff := BitVec.ofInt 8 (s.value M i 1)
        inputPort := BitVec.ofInt 8 (s.value M i 2)
        polarity := BitVec.ofInt 8 (s.value M i 3)
        type := BitVec.ofInt 8 (s.value M i 4)
        timeDelay := BitVec.ofInt 32 (s.value M i 5)
        timeLeft := BitVec.ofInt 32 (s.value M i 6)
        pulseTime := BitVec.ofInt 8 (s.value M i 7)
        reset := BitVec.ofInt 8 (s.value M i 8) } := by
  have hlength := length_clearedCopy oLabelSize (s.labelArray i)
  have htake (t : List UCHAR) : (clearedCopy oLabelSize (s.labelArray i) ++ t).take oLabelSize =
      clearedCopy oLabelSize (s.labelArray i) := List.take_left' hlength
  have hget (t : List UCHAR) (q : ℕ) (hq : 30 ≤ q) :
      (clearedCopy oLabelSize (s.labelArray i) ++ t).getD q 0 = t.getD (q - 30) 0 := by
    rw [List.getD_eq_getElem?_getD, List.getElem?_append_right (by rw [hlength]; exact hq), hlength,
      oLabelSize, ← List.getD_eq_getElem?_getD]
  simp only [ORecord.odata, ORecord.label, CsvScan.record, List.append_assoc, htake, Params.intAt]
  simp (disch := decide) only [hget, getBytes, Nat.reduceMul, Nat.reduceAdd, Nat.reduceSub,
    List.cons_append, List.nil_append, List.getD_cons_succ, List.getD_cons_zero,
    Params.append_getBytes]

/-- What a row of `int_array` gives back. -/
theorem CsvScan.Copied.value (h : s.Copied M rows i) (p : ℕ) :
    s.value M i p = M.promote ((rowInts M (rows i) i).getD p 0) := by
  rw [CsvScan.value, h.1]

theorem CsvScan.Copied.odata_iff (h : s.Copied M rows i) :
    (s.record M i).odata = (rows i).odata i ↔
      M.Keeps i 5 (rows i).timeDelay ∧ M.Keeps i 6 (rows i).timeLeft := by
  have hbyte (p : ℕ) (b : CsvByte)
      (hp : (rowInts M (rows i) i).getD p 0 = M.stored i p (Decimal.signed 8 b)) :
      BitVec.ofInt 8 (s.value M i p) = BitVec.ofInt 8 b := by
    have hb := b.property
    rw [h.value, M.ofInt_promote, hp, M.stored_signed hb.1 (by omega)]
  have hint (p : ℕ) (v : UINT)
      (hp : (rowInts M (rows i) i).getD p 0 = M.stored i p (Decimal.signed 8 v.toNat)) :
      BitVec.ofInt 32 (s.value M i p) = v ↔ M.Keeps i p v := by
    rw [h.value, hp, M.ofInt_promote_eq_iff]
  have hlabel : (clearedCopy oLabelSize (s.labelArray i)).takeWhile (fun c => c ≠ 0#8) =
      (rows i).label.chars := by
    have hlength := (rows i).label.length_lt
    rw [h.2, clearedCopy_clearedCopy (rows i).label.no_zero hlength,
      takeWhile_clearedCopy (rows i).label.no_zero hlength]
  rw [CsvScan.odata_record, CsvRow.odata, OData.mk.injEq, hlabel, hbyte 1 (rows i).onoff rfl,
    hbyte 2 (rows i).inputPort rfl, hbyte 3 (rows i).polarity rfl, hbyte 4 (rows i).type rfl,
    hbyte 7 (rows i).pulseTime rfl, hbyte 8 (rows i).reset rfl, hint 5 (rows i).timeDelay rfl,
    hint 6 (rows i).timeLeft rfl]
  simp

/-- The first column counts the rows, as `main` wants it. -/
theorem CsvScan.Copied.index (h : s.Copied M rows i) (hi : i < numPortBits) :
    s.value M i 0 = i := by
  have hstored : (rowInts M (rows i) i).getD 0 0 = M.stored i 0 (Decimal.signed 8 i) := rfl
  have hsigned : ∀ i < numPortBits, (BitVec.ofInt 8 (i : ℤ)).toInt = i := by decide
  have hunsigned : ∀ i < numPortBits, (BitVec.ofInt 8 (i : ℤ)).toNat = i := by decide
  have hlt : i < 40 := hi
  rw [h.value, hstored, M.stored_signed (by omega) (by omega), Platform.promote, hsigned i hi,
    hunsigned i hi, ite_self]

/-- `init_db` gets through every such table. -/
theorem initDb_csvFile (M : Platform) (rows : ℕ → CsvRow) {rest : List UCHAR}
    {files : List Char → Option (List UCHAR)} (hrest : EndsRow rest)
    (hlength : (csvFile rows rest).length ≤ 2999)
    (hfiles : files "odata.csv".toList = some (csvFile rows rest)) :
    ∃ s : CsvScan, (∀ q < numPortBits, s.Copied M rows q) ∧
      initDb M "odata.dat".toList files =
        .written "odata.dat".toList (oWriteConfig (s.record M) osize) := by
  obtain ⟨s, hcopy, hcopied⟩ := copyLabels_csvFile (M := M) hrest hlength
  have hname : csvName ("odata.dat".toList ++ Char.ofNat 0 :: M.behindFilename) =
      some "odata.csv".toList := rfl
  have hindex : (List.range numPortBits).find? (fun i => s.value M i 0 ≠ i) = none := by
    rw [List.find?_eq_none]
    intro i hi
    have hlt := List.mem_range.mp hi
    simp [(hcopied i hlt).index hlt]
  refine ⟨s, hcopied, ?_⟩
  rw [initDb, if_neg (by decide), hname, Option.bind_some, hfiles]
  simp only [hcopy, hindex]

/-! ## The condition -/

/-- `odata.dat` is written, with the rows of the table as its records. -/
def Imported (rows : ℕ → CsvRow) (r : InitDb) : Prop :=
  ∃ content, r = .written "odata.dat".toList content ∧ content.length = 1 + osize ∧
    content.head? = some 0xAA#8 ∧
    ∀ i < numPortBits, ∃ r : ORecord, r.bytes = recordBytes content i ∧ r.odata = (rows i).odata i

theorem recordBytes_oWriteConfig (currOArray : ℕ → ORecord) :
    (oWriteConfig currOArray osize).length = 1 + osize ∧ ∀ i < numPortBits,
      recordBytes (oWriteConfig currOArray osize) i = (currOArray i).bytes :=
  recordBytes_marked (fun i => (currOArray i).bytes) fun i _ => (currOArray i).length_bytes

theorem imported_written_iff (h : ∀ q < numPortBits, s.Copied M rows q) :
    Imported rows (.written "odata.dat".toList (oWriteConfig (s.record M) osize)) ↔
      ∀ i < numPortBits, M.Keeps i 5 (rows i).timeDelay ∧ M.Keeps i 6 (rows i).timeLeft := by
  obtain ⟨hlength, hfile⟩ := recordBytes_oWriteConfig (s.record M)
  constructor
  · rintro ⟨content, hwritten, -, -, hrecords⟩ i hi
    obtain ⟨-, rfl⟩ := InitDb.written.inj hwritten
    obtain ⟨r, hbytes, hodata⟩ := hrecords i hi
    rw [hfile i hi] at hbytes
    rw [ORecord.ext hbytes] at hodata
    exact (h i hi).odata_iff.mp hodata
  · intro hkeeps
    refine ⟨_, rfl, hlength, rfl, fun i hi => ?_⟩
    exact ⟨s.record M i, (hfile i hi).symm, (h i hi).odata_iff.mpr (hkeeps i hi)⟩

end

/-! ## The database of the other modules -/

/-- The database that a table describes. -/
def csvDatabase (rows : ℕ → CsvRow) : Database where
  records i := (rows i).odata i
  port_eq := by
    intro i hi
    rw [CsvRow.odata, BitVec.toNat_ofNat, Nat.mod_eq_of_lt (by omega)]

/-- The server loads an imported file as the database of its table. -/
theorem map_olLoadConfig_imported {rows : ℕ → CsvRow} {content : List UCHAR}
    (h : Imported rows (.written "odata.dat".toList content)) (id : UCHAR) (oData : ORecord) :
    (olLoadConfig id oData (.ok content) SortedList.init).oll.map ORecord.odata =
      (csvDatabase rows).olLoadConfig := by
  obtain ⟨content', hwritten, hlength, hmark, hrecords⟩ := h
  obtain ⟨-, rfl⟩ := InitDb.written.inj hwritten
  refine map_olLoadConfig (csvDatabase rows) ?_ (Nat.le_of_eq hlength.symm) fun i hi r hr => ?_
  · rw [List.headD_eq_head?_getD, hmark, Option.getD_some]
  · obtain ⟨r', hbytes, hodata⟩ := hrecords i hi
    rw [ORecord.ext (hr.trans hbytes.symm)]
    exact hodata

/-! ## Any table -/

/-- A table of at most 2999 bytes is always written to a file, and that has its rows as the
records exactly if the delays and the times left fit into a `char`. -/
theorem initDb_iff (M : Platform) (rows : ℕ → CsvRow) (rest : List UCHAR)
    (files : List Char → Option (List UCHAR)) (hrest : EndsRow rest)
    (hlength : (csvFile rows rest).length ≤ 2999)
    (hfiles : files "odata.csv".toList = some (csvFile rows rest)) :
    (∃ content, initDb M "odata.dat".toList files = .written "odata.dat".toList content) ∧
      (Imported rows (initDb M "odata.dat".toList files) ↔
        ∀ i < numPortBits,
          M.Keeps i 5 (rows i).timeDelay ∧ M.Keeps i 6 (rows i).timeLeft) := by
  obtain ⟨s, hcopied, hwritten⟩ := initDb_csvFile M rows hrest hlength hfiles
  rw [hwritten]
  exact ⟨⟨_, rfl⟩, imported_written_iff hcopied⟩

/-- A machine with signed characters and a zero behind `tempy`, whose `atoi` drops what an `int`
has no room for. -/
def signedChars : Platform where
  charSigned := true
  behindTempy := fun _ _ => [0]
  behindFilename := []
  atoiBeyond := fun s => (atoi s).bmod 4294967296

/-- An output without an input, with a delay. -/
def delayRow (timeDelay : UINT) : CsvRow where
  onoff := ⟨0, by decide⟩
  inputPort := ⟨-1, by decide⟩
  polarity := ⟨0, by decide⟩
  type := ⟨2, by decide⟩
  timeDelay := timeDelay
  timeLeft := 0
  pulseTime := ⟨0, by decide⟩
  reset := ⟨0, by decide⟩
  label :=
    { chars := [ascii 'X', ascii '1'], letter := ascii 'X', behind := [ascii '1']
      chars_eq := rfl, isalpha_letter := rfl, length_le := by decide
      no_newline := by decide, no_zero := by decide }

/-- The only file is the table. -/
def csvOnly (timeDelay : UINT) (name : List Char) : Option (List UCHAR) :=
  if name = "odata.csv".toList then some (csvFile (fun _ => delayRow timeDelay) [ascii '\n'])
  else none

theorem initDb_fifteen :
    Imported (fun _ => delayRow 15) (initDb signedChars "odata.dat".toList (csvOnly 15)) :=
  (initDb_iff signedChars (fun _ => delayRow 15) [ascii '\n'] (csvOnly 15) (by decide)
    (by decide +kernel) rfl).2.mpr fun i _ => ⟨.inl (by decide), .inl (by decide)⟩

/-- A delay of 300 becomes one of 44. -/
theorem imported_long :
    ¬ Imported (fun _ => delayRow 300) (initDb signedChars "odata.dat".toList (csvOnly 300)) := by
  have htable : csvOnly 300 "odata.csv".toList =
      some (csvFile (fun _ => delayRow 300) [ascii '\n']) := rfl
  obtain ⟨s, hcopied, hwritten⟩ := initDb_csvFile signedChars (fun _ => delayRow 300)
    (by decide) (by decide +kernel) htable
  rw [hwritten, imported_written_iff hcopied]
  intro h
  have hkeeps := (h 0 (by decide)).1
  revert hkeeps
  decide

end TruckControl
