import TruckControl.Library.Decimal
import TruckControl.Library.Pairs
import TruckControl.Library.Scan
import TruckControl.Model.HostTask

/-! # Setting the time of the server -/

namespace TruckControl

/-- A character of the source. -/
def ascii (c : Char) : UCHAR := BitVec.ofNat 8 c.toNat

/-! ## The client -/

def isLeapYear (year : ℕ) : Bool := year % 4 = 0 && (year % 100 ≠ 0 || year % 400 = 0)

def daysInMonth (year month : ℕ) : ℕ :=
  if month = 2 then if isLeapYear year then 29 else 28
  else if month ∈ [4, 6, 9, 11] then 30 else 31

/-- A `DateTime` of this century. -/
structure DateTime where
  year : ℕ
  month : ℕ
  day : ℕ
  hour : ℕ
  minute : ℕ
  second : ℕ
  le_year : 2000 ≤ year
  year_le : year ≤ 2099
  le_month : 1 ≤ month
  month_le : month ≤ 12
  le_day : 1 ≤ day
  day_le : day ≤ daysInMonth year month
  hour_lt : hour < 24
  minute_lt : minute < 60
  second_lt : second < 60

namespace DateTime

/-- `h` of the format: 12, 1, .., 11. -/
def hour12 (d : DateTime) : ℕ := if d.hour % 12 = 0 then 12 else d.hour % 12

/-- `localDate.ToString(culture)` for en-US, `M/d/yyyy h:mm:ss tt`. -/
def toString (d : DateTime) : List UCHAR :=
  Decimal.decimal 8 d.month ++ ascii '/' ::
    (Decimal.decimal 8 d.day ++ ascii '/' ::
      (Decimal.padded 8 4 d.year ++ ascii ' ' ::
        (Decimal.decimal 8 d.hour12 ++ ascii ':' ::
          (Decimal.padded 8 2 d.minute ++ ascii ':' ::
            (Decimal.padded 8 2 d.second ++ ascii ' ' ::
              [ascii (if d.hour < 12 then 'A' else 'P'), ascii 'M'])))))

end DateTime

/-- `BytesFromString`. -/
def bytesFromString (str : List UCHAR) : List UCHAR := Pairs.flat (fun c => c) (fun _ => 0) str

/-- The packet of `SetTime`: the last character stays zero. -/
def setTimePacket (str : List UCHAR) : List UCHAR :=
  let bytes := bytesFromString str
  CmdType.setTime.toByte :: 0 :: bytes.take (bytes.length - 2) ++ [0, 0]

/-! ## The server -/

/-- `struct tm`, as far as it is set. -/
structure Tm where
  tmSec : ℤ
  tmMin : ℤ
  tmHour : ℤ
  tmMday : ℤ
  tmMon : ℤ
  tmYear : ℤ
  deriving DecidableEq, Repr

def isSpace (c : UCHAR) : Bool := c = ascii ' ' || (9 ≤ c.toNat && c.toNat ≤ 13)

/-- `atoi`. -/
def atoi (s : List UCHAR) : ℤ :=
  match s.dropWhile isSpace with
  | [] => 0
  | c :: rest =>
      if c = ascii '-' then -(Decimal.number (rest.takeWhile Decimal.isDigit) : ℤ)
      else if c = ascii '+' then Decimal.number (rest.takeWhile Decimal.isDigit)
      else Decimal.number ((c :: rest).takeWhile Decimal.isDigit)

/-- `tempx` when it is parsed. It is cleared, gets the text and the last character of it. -/
def timeText (msgLen : ℕ) (msgBuf2 : ℕ → UCHAR) (i : ℕ) : UCHAR :=
  if i = msgLen / 2 - 2 then ascii 'M' else if i < msgLen / 2 + 2 then msgBuf2 i else 0

/-- `SET_TIME`, up to `mktime`. After each loop `pch` is behind the separator, and what is
copied to `temp_time` is followed by a zero. -/
def setTime (msgLen : ℕ) (msgBuf2 : ℕ → UCHAR) : Tm :=
  let tempx := timeText msgLen msgBuf2
  let i := Scan.scan tempx (ascii '/') msgLen 0
  let pch := i + 1
  let mon := atoi (Scan.slice tempx 0 i)
  let i := Scan.scan tempx (ascii '/') msgLen pch
  let pch := pch + i + 1
  let mday := atoi (Scan.slice tempx (pch - i - 1) i)
  let i := Scan.scan tempx (ascii ' ') msgLen pch
  let pch := pch + i + 1
  let year := atoi (Scan.slice tempx (pch - 3) 2) + 100
  let i := Scan.scan tempx (ascii ':') msgLen pch
  let pch := pch + i + 1
  let hour := atoi (Scan.slice tempx (pch - i - 1) i)
  let i := Scan.scan tempx (ascii ':') msgLen pch
  let pch := pch + i + 1
  let min := atoi (Scan.slice tempx (pch - 3) 2)
  let i := Scan.scan tempx (ascii ' ') msgLen pch
  let pch := pch + i + 1
  let sec := atoi (Scan.slice tempx (pch - 3) 2)
  { tmSec := sec
    tmMin := min
    tmHour := if tempx pch = ascii 'P' then hour + 12 else hour
    tmMday := mday
    tmMon := mon - 1
    tmYear := year }

end TruckControl
