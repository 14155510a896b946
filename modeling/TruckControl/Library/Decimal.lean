import Mathlib.Data.Nat.Digits.Lemmas

/-!
# Decimal numbers as text

The characters are bit vectors of any width that has room for the ten digits.
-/

namespace TruckControl.Decimal

variable {w : ℕ}

/-- The character of a digit. -/
def digit (w d : ℕ) : BitVec w := BitVec.ofNat w (48 + d)

/-- A number without leading zeros. -/
def decimal (w n : ℕ) : List (BitVec w) :=
  if n = 0 then [digit w 0] else (Nat.digits 10 n).reverse.map (digit w)

/-- The last `k` digits of a number, with leading zeros. -/
def padded (w : ℕ) : ℕ → ℕ → List (BitVec w)
  | 0, _ => []
  | k + 1, n => padded w k (n / 10) ++ [digit w (n % 10)]

/-- An integer, with a minus sign if it is negative. -/
def signed (w : ℕ) (i : ℤ) : List (BitVec w) :=
  if i < 0 then BitVec.ofNat w 45 :: decimal w i.natAbs else decimal w i.natAbs

/-- How many characters an integer takes. -/
def width (i : ℤ) : ℕ := (if i < 0 then 1 else 0) + (Nat.log 10 i.natAbs + 1)

/-- The number that a text of digits stands for. -/
def number (s : List (BitVec w)) : ℕ := s.foldl (fun v c => 10 * v + (c.toNat - 48)) 0

def isDigit (c : BitVec w) : Bool := 48 ≤ c.toNat && c.toNat ≤ 57

/-! ## Digits -/

theorem toNat_digit (hw : 6 ≤ w) {d : ℕ} (hd : d < 10) : (digit w d).toNat = 48 + d := by
  have hpow : 2 ^ 6 ≤ 2 ^ w := Nat.pow_le_pow_right (by decide) hw
  rw [digit, BitVec.toNat_ofNat, Nat.mod_eq_of_lt]
  omega

theorem isDigit_digit (hw : 6 ≤ w) {d : ℕ} (hd : d < 10) : isDigit (digit w d) = true := by
  rw [isDigit, toNat_digit hw hd, Bool.and_eq_true, decide_eq_true_eq, decide_eq_true_eq]
  omega

/-- A wider digit is the digit of wider characters. -/
theorem setWidth_digit {v : ℕ} (hw : 6 ≤ w) (hv : 6 ≤ v) {d : ℕ} (hd : d < 10) :
    (digit w d).setWidth v = digit v d := by
  apply BitVec.eq_of_toNat_eq
  have hlt := (digit v d).isLt
  rw [BitVec.toNat_setWidth, toNat_digit hw hd, ← toNat_digit hv hd, Nat.mod_eq_of_lt hlt]

/-! ## Texts -/

/-- Each character is a digit. -/
def Digits (s : List (BitVec w)) : Prop := ∀ c ∈ s, ∃ d < 10, c = digit w d

theorem digits_decimal (w n : ℕ) : Digits (decimal w n) := by
  intro c hc
  rw [decimal] at hc
  split_ifs at hc with hzero
  · exact ⟨0, by decide, List.mem_singleton.mp hc⟩
  · obtain ⟨d, hd, rfl⟩ := List.mem_map.mp hc
    exact ⟨d, Nat.digits_lt_base (by decide) (List.mem_reverse.mp hd), rfl⟩

theorem digits_padded (w k n : ℕ) : Digits (padded w k n) := by
  induction k generalizing n with
  | zero =>
      intro c hc
      cases hc
  | succ k ih =>
      intro c hc
      rcases List.mem_append.mp hc with hc | hc
      · exact ih (n / 10) c hc
      · exact ⟨n % 10, Nat.mod_lt n (by decide), List.mem_singleton.mp hc⟩

theorem Digits.all_isDigit {s : List (BitVec w)} (h : Digits s) (hw : 6 ≤ w) :
    ∀ c ∈ s, isDigit c = true := by
  intro c hc
  obtain ⟨d, hd, rfl⟩ := h c hc
  exact isDigit_digit hw hd

theorem decimal_ne_nil (w n : ℕ) : decimal w n ≠ [] := by
  rw [decimal]
  split_ifs with hzero
  · exact List.cons_ne_nil _ _
  · rw [Ne, List.map_eq_nil_iff, List.reverse_eq_nil_iff]
    exact Nat.digits_ne_nil_iff_ne_zero.mpr hzero

theorem length_padded (w k n : ℕ) : (padded w k n).length = k := by
  induction k generalizing n with
  | zero => rfl
  | succ k ih => rw [padded, List.length_append, ih, List.length_singleton]

theorem length_signed (w : ℕ) (i : ℤ) : (signed w i).length = width i := by
  have hdecimal (n : ℕ) : (decimal w n).length = Nat.log 10 n + 1 := by
    rw [decimal]
    split_ifs with hzero
    · rw [hzero]
      rfl
    · rw [List.length_map, List.length_reverse, Nat.length_digits 10 n (by decide) hzero]
  rw [signed, width]
  split_ifs
  · rw [List.length_cons, hdecimal]
    omega
  · rw [hdecimal]
    omega

/-- The characters of an integer are digits and a minus sign. -/
theorem mem_signed {i : ℤ} {c : BitVec w} (h : c ∈ signed w i) :
    c = BitVec.ofNat w 45 ∨ ∃ d < 10, c = digit w d := by
  rw [signed] at h
  split_ifs at h
  · rcases List.mem_cons.mp h with rfl | h
    · exact .inl rfl
    · exact .inr (digits_decimal w _ c h)
  · exact .inr (digits_decimal w _ c h)

theorem map_setWidth_decimal {v : ℕ} (hw : 6 ≤ w) (hv : 6 ≤ v) (n : ℕ) :
    (decimal w n).map (BitVec.setWidth v) = decimal v n := by
  rw [decimal, decimal]
  split_ifs
  · rw [List.map_singleton, setWidth_digit hw hv (by decide)]
  · rw [List.map_map]
    apply List.map_congr_left
    intro d hd
    exact setWidth_digit hw hv (Nat.digits_lt_base (by decide) (List.mem_reverse.mp hd))

theorem map_setWidth_signed {v : ℕ} (hw : 6 ≤ w) (hv : 6 ≤ v) (i : ℤ) :
    (signed w i).map (BitVec.setWidth v) = signed v i := by
  have hminus : (BitVec.ofNat w 45).setWidth v = BitVec.ofNat v 45 := by
    have hpow : 2 ^ 6 ≤ 2 ^ w := Nat.pow_le_pow_right (by decide) hw
    apply BitVec.eq_of_toNat_eq
    rw [BitVec.toNat_setWidth, BitVec.toNat_ofNat, BitVec.toNat_ofNat,
      Nat.mod_eq_of_lt (by omega : 45 < 2 ^ w)]
  rw [signed, signed]
  split_ifs
  · rw [List.map_cons, hminus, map_setWidth_decimal hw hv]
  · rw [map_setWidth_decimal hw hv]

/-! ## The number back -/

theorem number_append (s t : List (BitVec w)) :
    number (s ++ t) = t.foldl (fun v c => 10 * v + (c.toNat - 48)) (number s) :=
  List.foldl_append

theorem number_concat (s : List (BitVec w)) (c : BitVec w) :
    number (s ++ [c]) = 10 * number s + (c.toNat - 48) := number_append s [c]

theorem number_reverse_digits (hw : 6 ≤ w) {ds : List ℕ} (h : ∀ d ∈ ds, d < 10) :
    number (ds.reverse.map (digit w)) = Nat.ofDigits 10 ds := by
  induction ds with
  | nil => rfl
  | cons d ds ih =>
      obtain ⟨hd, hds⟩ := List.forall_mem_cons.mp h
      rw [List.reverse_cons, List.map_append, List.map_singleton, number_concat, ih hds,
        toNat_digit hw hd, Nat.ofDigits_cons]
      omega

theorem number_decimal (hw : 6 ≤ w) (n : ℕ) : number (decimal w n) = n := by
  rw [decimal]
  split_ifs with hzero
  · have hdigit := toNat_digit hw (d := 0) (by decide)
    rw [← List.nil_append [digit w 0], number_concat, hdigit, hzero]
    rfl
  · rw [number_reverse_digits hw fun d hd => Nat.digits_lt_base (by decide) hd,
      Nat.ofDigits_digits]

theorem number_padded (hw : 6 ≤ w) {k n : ℕ} (hn : n < 10 ^ k) : number (padded w k n) = n := by
  induction k generalizing n with
  | zero =>
      rw [Nat.pow_zero, Nat.lt_one_iff] at hn
      rw [hn]
      rfl
  | succ k ih =>
      have hdiv : n / 10 < 10 ^ k := by
        rw [Nat.pow_succ] at hn
        exact Nat.div_lt_of_lt_mul (by rwa [Nat.mul_comm])
      rw [padded, number_concat, ih hdiv, toNat_digit hw (Nat.mod_lt n (by decide))]
      omega

/-! ## Where a number ends -/

theorem takeWhile_decimal_append (hw : 6 ≤ w) (n : ℕ) {c : BitVec w} (hc : isDigit c = false)
    (s : List (BitVec w)) : (decimal w n ++ c :: s).takeWhile isDigit = decimal w n := by
  have hstop : (c :: s).takeWhile isDigit = [] := by
    rw [List.takeWhile_cons_of_neg]
    simp [hc]
  rw [List.takeWhile_append_of_pos ((digits_decimal w n).all_isDigit hw), hstop, List.append_nil]

theorem decimal_injective (hw : 6 ≤ w) {m n : ℕ} (h : decimal w m = decimal w n) : m = n := by
  rw [← number_decimal hw m, h, number_decimal hw n]

/-- Two texts that begin with numbers are equal only if the numbers are, and then the rests. -/
theorem decimal_append_inj (hw : 6 ≤ w) {m n : ℕ} {c d : BitVec w} {s t : List (BitVec w)}
    (hc : isDigit c = false) (hd : isDigit d = false) :
    decimal w m ++ c :: s = decimal w n ++ d :: t ↔ m = n ∧ c :: s = d :: t := by
  constructor
  · intro h
    have htake := congrArg (List.takeWhile isDigit) h
    rw [takeWhile_decimal_append hw m hc, takeWhile_decimal_append hw n hd] at htake
    rw [htake] at h
    exact ⟨decimal_injective hw htake, List.append_cancel_left h⟩
  · intro h
    rw [h.1, h.2]

end TruckControl.Decimal
