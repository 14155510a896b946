import Mathlib.Data.List.TakeWhile
import TruckControl.Verification.HostText

/-!
# The time that `SET_TIME` sets

The text is cut at its separators, one field after the other. The hour is the one of a clock
with twelve hours.
-/

namespace TruckControl

open Scan

/-! ## Numbers -/

theorem ascii_ne_digit {c : Char} (hc : Decimal.isDigit (ascii c) = false) {s : List UCHAR}
    (hs : Decimal.Digits s) : ascii c ∉ s := by
  intro hmem
  have hdigit := hs.all_isDigit (by decide) (ascii c) hmem
  rw [hc] at hdigit
  cases hdigit

/-- `atoi` stops behind the digits. -/
theorem atoi_digits_append {s t : List UCHAR} (hs : Decimal.Digits s) (hne : s ≠ [])
    (ht : t.takeWhile Decimal.isDigit = []) : atoi (s ++ t) = Decimal.number s := by
  have hall := hs.all_isDigit (by decide)
  cases s with
  | nil => exact absurd rfl hne
  | cons c rest =>
      have hdigit := hall c List.mem_cons_self
      have hspace : isSpace c = false := by
        obtain ⟨d, hd, rfl⟩ := hs c List.mem_cons_self
        have hnone : ∀ d < 10, isSpace (Decimal.digit 8 d) = false := by decide
        exact hnone d hd
      have hne (c' : Char) (hc' : Decimal.isDigit (ascii c') = false) : c ≠ ascii c' := by
        rintro rfl
        rw [hc'] at hdigit
        cases hdigit
      have htake : (c :: (rest ++ t)).takeWhile Decimal.isDigit = c :: rest := by
        rw [← List.cons_append, List.takeWhile_append_of_pos hall, ht, List.append_nil]
      rw [List.cons_append, atoi, List.dropWhile_cons_of_neg (by simp [hspace])]
      simp only [if_neg (hne '-' (by decide)), if_neg (hne '+' (by decide)), htake]

/-- `atoi` on a field of digits. -/
theorem atoi_digits {s : List UCHAR} (hs : Decimal.Digits s) : atoi s = Decimal.number s := by
  by_cases hne : s = []
  · rw [hne]
    rfl
  · have happend := atoi_digits_append hs hne List.takeWhile_nil
    rwa [List.append_nil] at happend

theorem drop_padded_four (y : ℕ) :
    (Decimal.padded 8 4 y).drop 2 = Decimal.padded 8 2 (y % 100) := by
  have hhigh : y % 100 / 10 % 10 = y / 10 % 10 := by omega
  have hlow : y % 100 % 10 = y % 10 := by omega
  simp [Decimal.padded, hhigh, hlow]

/-! ## The fields of the text -/

namespace DateTime

variable (d : DateTime)

/-- The fields as they follow each other, and how long the text is. -/
theorem length_toString :
    d.toString.length = (Decimal.decimal 8 d.month).length + (Decimal.decimal 8 d.day).length +
      (Decimal.decimal 8 d.hour12).length + 16 := by
  simp only [toString, List.length_append, List.length_cons, Decimal.length_padded, List.length_nil]
  omega

/-- The time as `struct tm` has it. -/
def tm : Tm where
  tmSec := d.second
  tmMin := d.minute
  tmHour := d.hour
  tmMday := d.day
  tmMon := d.month - 1
  tmYear := d.year - 1900

/-- The packet that the client sends. -/
def packet : List UCHAR := setTimePacket d.toString

end DateTime

theorem length_setTimePacket {str : List UCHAR} (h : str ≠ []) :
    (setTimePacket str).length = 2 * str.length + 2 := by
  have hpos := List.length_pos_iff.mpr h
  rw [setTimePacket, bytesFromString]
  simp only [List.length_append, List.length_cons, List.length_take, Pairs.length_flat,
    List.length_nil]
  omega

/-- The characters of the packet: the last one is lost. -/
theorem text_setTimePacket (str : List UCHAR) (c : UCHAR) :
    HostTask.text (setTimePacket (str ++ [c])) = str ++ [0] := by
  have hflat : (bytesFromString (str ++ [c])).take ((bytesFromString (str ++ [c])).length - 2) =
      bytesFromString str := by
    have hsplit : bytesFromString (str ++ [c]) = bytesFromString str ++ [c, 0] := by
      simp [bytesFromString, Pairs.flat]
    rw [hsplit, List.length_append]
    exact List.take_left' (by simp)
  rw [HostTask.text, setTimePacket, hflat]
  change Pairs.evens (bytesFromString str ++ [0, 0]) = _
  rw [bytesFromString, Pairs.evens_flat_append, List.map_id']
  rfl

/-! ## The parser -/

section

variable {mem : ℕ → UCHAR} {p : ℕ} {s b : List UCHAR} {c : Char}

/-- A field of digits is found, and its number read. -/
theorem field_of_at (h : At mem p (s ++ ascii c :: b)) (hs : Decimal.Digits s)
    (hc : Decimal.isDigit (ascii c) = false) {left : ℕ} (hleft : s.length ≤ left) :
    scan mem (ascii c) left p = s.length ∧ atoi (slice mem p s.length) = Decimal.number s ∧
      At mem (p + s.length + 1) b := by
  refine ⟨scan_of_at h (ascii_ne_digit hc hs) hleft, ?_, ?_⟩
  · have hfield : slice mem p s.length = s := (at_append.mp h).1
    rw [hfield, atoi_digits hs]
  · exact (at_cons.mp (at_append.mp h).2).2

/-- The last two digits of a field of four. -/
theorem century_of_at {y : ℕ} (h : At mem p (Decimal.padded 8 4 y ++ b)) :
    atoi (slice mem (p + 2) 2) = (y % 100 : ℕ) := by
  have hfield := (at_append.mp h).1
  have hlast := hfield.drop (n := 2) (by rw [Decimal.length_padded]; decide)
  rw [drop_padded_four, At, Decimal.length_padded] at hlast
  have hlt : y % 100 < 10 ^ 2 := Nat.mod_lt y (by decide)
  rw [hlast, atoi_digits (Decimal.digits_padded 8 2 (y % 100)),
    Decimal.number_padded (by decide) hlt]

end

/-- What the handler makes of a text that lies in `tempx`. -/
theorem setTime_toString (d : DateTime) {msgLen : ℕ} {msgBuf2 : ℕ → UCHAR}
    (hlen : d.toString.length ≤ msgLen) (h : At (timeText msgLen msgBuf2) 0 d.toString) :
    setTime msgLen msgBuf2 =
      { d.tm with tmHour := d.hour12 + if d.hour < 12 then 0 else 12 } := by
  have hlength := d.length_toString
  have hdigits (n : ℕ) := Decimal.digits_decimal 8 n
  have hpadded (k n : ℕ) := Decimal.digits_padded 8 k n
  rw [DateTime.toString] at h
  -- the fields from left to right, each from where the one before has ended
  obtain ⟨hmon, hmonNumber, h⟩ := field_of_at h (hdigits d.month) (by decide)
    (show _ ≤ msgLen by omega)
  rw [Nat.zero_add] at h
  obtain ⟨hday, hdayNumber, h⟩ := field_of_at h (hdigits d.day) (by decide)
    (show _ ≤ msgLen by omega)
  have hyearNumber := century_of_at h
  obtain ⟨hyear, -, h⟩ := field_of_at h (hpadded 4 d.year) (by decide)
    (show _ ≤ msgLen by rw [Decimal.length_padded]; omega)
  rw [Decimal.length_padded] at hyear h
  obtain ⟨hhour, hhourNumber, h⟩ := field_of_at h (hdigits d.hour12) (by decide)
    (show _ ≤ msgLen by omega)
  obtain ⟨hmin, hminNumber, h⟩ := field_of_at h (hpadded 2 d.minute) (by decide)
    (show _ ≤ msgLen by rw [Decimal.length_padded]; omega)
  rw [Decimal.length_padded] at hmin hminNumber h
  obtain ⟨hsec, hsecNumber, h⟩ := field_of_at h (hpadded 2 d.second) (by decide)
    (show _ ≤ msgLen by rw [Decimal.length_padded]; omega)
  rw [Decimal.length_padded] at hsec hsecNumber h
  have hampm := (at_cons.mp h).1
  -- back from behind a separator to the field in front of it
  have hback (p i : ℕ) : p + i + 1 - i - 1 = p := by omega
  have hback2 (p : ℕ) : p + 2 + 1 - 3 = p := by omega
  simp only [setTime, hmon, hday, hyear, hhour, hmin, hsec, hback, hback2, hmonNumber, hdayNumber,
    hyearNumber, hhourNumber, hminNumber, hsecNumber, hampm, DateTime.tm, Tm.mk.injEq]
  rw [Decimal.number_decimal (by decide), Decimal.number_decimal (by decide),
    Decimal.number_decimal (by decide),
    Decimal.number_padded (by decide) (Nat.lt_trans d.second_lt (by decide)),
    Decimal.number_padded (by decide) (Nat.lt_trans d.minute_lt (by decide))]
  have hle := d.le_year
  have hge := d.year_le
  refine ⟨rfl, rfl, ?_, rfl, rfl, by omega⟩
  by_cases hmorning : d.hour < 12
  · have hne : ascii 'A' ≠ ascii 'P' := by decide
    rw [if_pos hmorning, if_neg hne, if_pos hmorning, Int.add_zero]
  · rw [if_neg hmorning, if_pos rfl, if_neg hmorning]

/-! ## The round trip -/

/-- The text lies in `tempx` when `msg_buf2` begins with what has been received of it. -/
theorem at_timeText {str : List UCHAR} (hstr : 1 ≤ str.length) {msgBuf2 : ℕ → UCHAR}
    (h : At msgBuf2 0 (str ++ [0])) :
    At (timeText (setTimePacket (str ++ [ascii 'M'])).length msgBuf2) 0 (str ++ [ascii 'M']) := by
  have hlen : (setTimePacket (str ++ [ascii 'M'])).length / 2 = str.length + 2 := by
    rw [length_setTimePacket (by simp), List.length_append, List.length_singleton]
    omega
  obtain ⟨hfront, -⟩ := at_append.mp h
  refine at_append.mpr ⟨?_, at_cons.mpr ⟨?_, rfl⟩⟩
  · refine Eq.trans ?_ hfront
    apply slice_congr
    intro k hk
    rw [Nat.zero_add, timeText, hlen, if_neg (by omega), if_pos (by omega)]
  · rw [timeText, hlen]
    simp

theorem DateTime.toString_eq (d : DateTime) :
    d.toString = d.toString.dropLast ++ [ascii 'M'] ∧ 1 ≤ d.toString.dropLast.length := by
  have hne : d.toString ≠ [] := by
    rw [← List.length_pos_iff, d.length_toString]
    omega
  have hlast : d.toString.getLast hne = ascii 'M' := by simp [DateTime.toString]
  refine ⟨?_, ?_⟩
  · rw [← hlast, List.dropLast_append_getLast]
  · rw [List.length_dropLast, d.length_toString]
    omega

/-- The server takes the time of the client exactly outside of the hours after midnight and
after noon. -/
theorem setTime_eq_iff (d : DateTime) (s : HostTask) (h : s.HoldsText d.packet) :
    setTime d.packet.length (fun k => s.msgBuf2 k) = d.tm ↔ d.hour % 12 ≠ 0 := by
  obtain ⟨hstr, hpos⟩ := d.toString_eq
  have htext : HostTask.text d.packet = d.toString.dropLast ++ [0] := by
    rw [DateTime.packet, hstr, text_setTimePacket, List.dropLast_concat]
  have hbuf : At (fun k : ℕ => s.msgBuf2 k) 0 (d.toString.dropLast ++ [0]) := by
    rw [HostTask.HoldsText, htext] at h
    rw [At, slice]
    simpa using h
  have hat := at_timeText hpos hbuf
  rw [← hstr] at hat
  have hlen : d.toString.length ≤ d.packet.length := by
    rw [DateTime.packet, length_setTimePacket (by rw [hstr]; simp)]
    omega
  rw [setTime_toString d hlen hat]
  have hhour := d.hour_lt
  have hiff : (d.hour12 + if d.hour < 12 then 0 else 12) = d.hour ↔ d.hour % 12 ≠ 0 := by
    rw [DateTime.hour12]
    split_ifs <;> omega
  rw [← hiff, Tm.mk.injEq]
  simp only [DateTime.tm, true_and, and_true]
  constructor
  · intro heq
    exact_mod_cast heq
  · intro heq
    exact_mod_cast heq

/-! ## The afternoon, and noon -/

/-- A time of the seventh of May. -/
def seventhOfMay (hour : Fin 24) : DateTime where
  year := 2026
  month := 5
  day := 7
  hour := hour
  minute := 30
  second := 8
  le_year := by decide
  year_le := by decide
  le_month := by decide
  month_le := by decide
  le_day := by decide
  day_le := by decide
  hour_lt := hour.isLt
  minute_lt := by decide
  second_lt := by decide

/-- The task that has taken the packet of a time as its first message. -/
def timeTaken (d : DateTime) : HostTask :=
  ((HostTask.start 0 (clientSend d.packet)).receive fun _ => 0).1

theorem setTime_afternoon :
    (timeTaken (seventhOfMay 16)).HoldsText (seventhOfMay 16).packet ∧
      setTime (seventhOfMay 16).packet.length (fun k => (timeTaken (seventhOfMay 16)).msgBuf2 k) =
        ⟨8, 30, 16, 7, 4, 126⟩ := by
  have hholds : (timeTaken (seventhOfMay 16)).HoldsText (seventhOfMay 16).packet := by
    decide +kernel
  have htm : (seventhOfMay 16).tm = ⟨8, 30, 16, 7, 4, 126⟩ := by decide
  have hhour : (seventhOfMay 16).hour % 12 ≠ 0 := by decide
  exact ⟨hholds, ((setTime_eq_iff _ _ hholds).mpr hhour).trans htm⟩

/-- At half past twelve the hour becomes 24. -/
theorem setTime_noon :
    (timeTaken (seventhOfMay 12)).HoldsText (seventhOfMay 12).packet ∧
      setTime (seventhOfMay 12).packet.length (fun k => (timeTaken (seventhOfMay 12)).msgBuf2 k) =
        ⟨8, 30, 24, 7, 4, 126⟩ ∧
      (seventhOfMay 12).tm = ⟨8, 30, 12, 7, 4, 126⟩ := by
  decide +kernel

end TruckControl
