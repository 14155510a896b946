import Mathlib.Data.List.TakeWhile
import TruckControl.Model.SendConfig
import TruckControl.Verification.MessageFrames

/-!
# The configuration text, from the server to the client

The text has to end before `tempx` does.
-/

namespace TruckControl

/-! ## A number back -/

theorem takeWhile_digits {w : ℕ} (hw : 6 ≤ w) (n : ℕ) :
    (Decimal.decimal w n).takeWhile Decimal.isDigit = Decimal.decimal w n ∧
      (Decimal.decimal w n).dropWhile Decimal.isDigit = [] := by
  have hall := (Decimal.digits_decimal w n).all_isDigit hw
  exact ⟨List.takeWhile_eq_self_iff.mpr hall, List.dropWhile_eq_nil_iff.mpr hall⟩

/-- A text of digits begins with neither a white space nor a sign. -/
theorem leadingSign_decimal (n : ℕ) :
    leadingSign ((Decimal.decimal 16 n).dropWhile isWhite) = (false, Decimal.decimal 16 n) := by
  have hfirst : ∀ d < 10, isWhite (Decimal.digit 16 d) = false ∧
      Decimal.digit 16 d ≠ 0x2D#16 ∧ Decimal.digit 16 d ≠ 0x2B#16 := by
    decide
  cases hs : Decimal.decimal 16 n with
  | nil => exact absurd hs (Decimal.decimal_ne_nil 16 n)
  | cons c s =>
      obtain ⟨d, hd, rfl⟩ := Decimal.digits_decimal 16 n c (by rw [hs]; exact List.mem_cons_self)
      obtain ⟨hwhite, hminus, hplus⟩ := hfirst d hd
      rw [List.dropWhile_cons_of_neg (by rw [hwhite]; decide), leadingSign, if_neg hminus,
        if_neg hplus]

theorem leadingSign_minus (s : List (BitVec 16)) :
    leadingSign ((0x2D#16 :: s).dropWhile isWhite) = (true, s) := by
  rw [List.dropWhile_cons_of_neg (by decide), leadingSign, if_pos rfl]

/-- The client parses what `%d` writes. -/
theorem intParse_signed {i : ℤ} (hlow : -2 ^ 31 ≤ i) (hhigh : i < 2 ^ 31) :
    intParse (Decimal.signed 16 i) = some i := by
  obtain ⟨htake, hdrop⟩ := takeWhile_digits (w := 16) (by decide) i.natAbs
  have hne := Decimal.decimal_ne_nil 16 i.natAbs
  have hnumber := Decimal.number_decimal (w := 16) (by decide) i.natAbs
  rw [Decimal.signed]
  split_ifs with hneg
  · have hvalue : -(i.natAbs : ℤ) = i := by omega
    have hrange : Decimal.decimal 16 i.natAbs ≠ [] ∧ (∀ c ∈ ([] : List (BitVec 16)), c = 0) ∧
        -2 ^ 31 ≤ i ∧ i < 2 ^ 31 := ⟨hne, List.forall_mem_nil _, hlow, hhigh⟩
    simp only [intParse, leadingSign_minus, htake, hdrop, hnumber, hvalue, List.dropWhile_nil,
      if_true]
    rw [if_pos hrange]
  · have hvalue : (i.natAbs : ℤ) = i := by omega
    have hrange : Decimal.decimal 16 i.natAbs ≠ [] ∧ (∀ c ∈ ([] : List (BitVec 16)), c = 0) ∧
        -2 ^ 31 ≤ i ∧ i < 2 ^ 31 := ⟨hne, List.forall_mem_nil _, hlow, hhigh⟩
    simp only [intParse, leadingSign_decimal, htake, hdrop, hnumber, hvalue, List.dropWhile_nil,
      Bool.false_eq_true, if_false]
    rw [if_pos hrange]

theorem intParse_toInt (v : UINT) : intParse (Decimal.signed 16 v.toInt) = some v.toInt := by
  have hlow := BitVec.le_two_mul_toInt (x := v)
  have hhigh := BitVec.two_mul_toInt_lt (x := v)
  apply intParse_signed
  · omega
  · omega

/-! ## The words of the text -/

theorem splitOn_flatMap {sep : BitVec 16} {last : List (BitVec 16)} (hlast : sep ∉ last)
    {words : List (List (BitVec 16))} (hwords : ∀ word ∈ words, sep ∉ word) :
    (words.flatMap (fun word => word ++ [sep]) ++ last).splitOn sep = words ++ [last] := by
  induction words with
  | nil => exact List.splitOn_eq_singleton hlast
  | cons word words ih =>
      obtain ⟨hword, hrest⟩ := List.forall_mem_cons.mp hwords
      rw [List.flatMap_cons, List.append_assoc, List.append_assoc, List.singleton_append,
        List.splitOn_append_cons_self_of_not_mem hword, ih hrest, List.cons_append]

/-- The text, as the client has it. -/
def paramChars (ps : Params) (password : Password) : List (BitVec 16) :=
  (paramText ps password).map (BitVec.setWidth 16)

theorem paramChars_eq (ps : Params) (password : Password) :
    paramChars ps password =
      (ps.fields.map fun v => Decimal.signed 16 v.toInt).flatMap (fun word => word ++ [0x20#16]) ++
        password.chars.map (BitVec.setWidth 16) := by
  have hword (v : UINT) : (Decimal.signed 8 v.toInt ++ [0x20#8]).map (BitVec.setWidth 16) =
      Decimal.signed 16 v.toInt ++ [0x20#16] := by
    rw [List.map_append, Decimal.map_setWidth_signed (by decide) (by decide)]
    rfl
  rw [paramChars, paramText, List.map_append, List.map_flatMap, List.flatMap_map]
  simp only [hword]

theorem splitOn_paramChars (ps : Params) (password : Password) :
    (paramChars ps password).splitOn 0x20#16 =
      (ps.fields.map fun v => Decimal.signed 16 v.toInt) ++
        [password.chars.map (BitVec.setWidth 16)] := by
  have hspace : ∀ c : UCHAR, c.setWidth 16 = 0x20#16 → c = 0x20#8 := by decide +kernel
  rw [paramChars_eq]
  apply splitOn_flatMap
  · intro hmem
    obtain ⟨c, hc, heq⟩ := List.mem_map.mp hmem
    rw [hspace c heq] at hc
    exact password.noSpace hc
  · intro word hword
    obtain ⟨v, -, rfl⟩ := List.mem_map.mp hword
    exact notMem_signed (by decide) (by decide) (by decide) v.toInt

/-- The client takes each value for the parameter it is. -/
theorem sendConfig_paramChars (ps : Params) (password : Password) (c : CfgParams) :
    c.sendConfig (paramChars ps password) = some (CfgParams.ofServer ps password) := by
  rw [CfgParams.sendConfig, splitOn_paramChars]
  simp [Params.fields, CfgParams.setWord, intParse_toInt, CfgParams.ofServer]

/-! ## The buffer -/

theorem length_paramText (ps : Params) (password : Password) :
    (paramText ps password).length =
      (ps.fields.map fun v => Decimal.width v.toInt).sum + 17 + password.chars.length := by
  rw [paramText, List.length_append, List.length_flatMap]
  simp only [Params.fields, List.length_append, Decimal.length_signed, List.length_singleton,
    List.map_cons, List.map_nil, List.sum_cons, List.sum_nil]
  omega

theorem length_paramText_pos (ps : Params) (password : Password) :
    1 ≤ (paramText ps password).length := by
  rw [length_paramText]
  omega

/-- The text fits in `tempx`, and a client that waits for a message takes from what is sent one
packet, in which it finds the seventeen values and the password. -/
structure RoundTrips (ps : Params) (password : Password) (after : ℕ → UCHAR) : Prop where
  fits : (paramText ps password).length + 1 ≤ sizeofTempx
  received : ∃ r packets,
    OnReceived (.header []) (sendParamMsg ps password after).sendMsg.bytes r packets
  parsed : ∀ r packets,
    OnReceived (.header []) (sendParamMsg ps password after).sendMsg.bytes r packets →
      ∃ ret, packets.map processMsg = [some (CmdType.sendConfig.toByte.setWidth 16, ret)] ∧
        ∀ c : CfgParams, c.sendConfig ret = some (CfgParams.ofServer ps password)

/-- The configuration arrives exactly if the seventeen numbers and the password take no more
than 22 characters. -/
theorem roundTrips_iff (ps : Params) (password : Password) (after : ℕ → UCHAR) :
    RoundTrips ps password after ↔
      (ps.fields.map fun v => Decimal.width v.toInt).sum + password.chars.length ≤ 22 := by
  have hlen := length_paramText ps password
  constructor
  · intro h
    have hfits := h.fits
    rw [sizeofTempx] at hfits
    omega
  · intro h
    have hfits : (sendParamMsg ps password after).text.length ≤ 127 := by
      change (paramText ps password).length ≤ 127
      omega
    have hread := onReceived_sendMsgs [sendParamMsg ps password after]
      (by rw [List.forall_mem_singleton]; exact hfits)
    rw [sendMsgs, List.flatMap_singleton] at hread
    refine ⟨by rw [sizeofTempx]; omega, hread.1, fun r packets hr => ?_⟩
    refine ⟨paramChars ps password, ?_, sendConfig_paramChars ps password⟩
    rw [hread.2 r packets hr, List.map_singleton, List.map_singleton,
      TextMsg.processMsg_packet (length_paramText_pos ps password)]
    rfl

/-- The parameters that `make_params` writes to `param.conf`. -/
def madeParams : Params where
  rpmMphUpdateRate := 1
  fpgaXmitRate := 2
  highRevLimit := 9
  lowRevLimit := 7
  coolingFanOn := 180
  coolingFanOff := 170
  blowerEnabled := 50
  blower1On := 32
  blower2On := 20
  blower3On := 10
  lightsOnDelay := 6
  engineTempLimit := 195
  battBoxTemp := 40
  testBank := 1
  passwordTimeout := 1
  passwordRetries := 1
  baudrate3 := 0

/-- And the password, `4567`. -/
def madePassword : Password where
  chars := [0x34, 0x35, 0x36, 0x37]
  length_le := by decide
  noSpace := by decide
  strlen := by decide

/-- A text of 49 characters, for a buffer of 40. -/
theorem not_roundTrips_madeParams :
    (paramText madeParams madePassword).length = 49 ∧
      ∀ after, ¬ RoundTrips madeParams madePassword after := by
  have hlen : (paramText madeParams madePassword).length = 49 := by
    decide +kernel
  refine ⟨hlen, fun after h => ?_⟩
  have hfits := h.fits
  rw [hlen] at hfits
  exact absurd hfits (by decide)

end TruckControl
