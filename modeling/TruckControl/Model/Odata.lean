import TruckControl.Model.OutputRecords

/-! # The database of the repository -/

namespace TruckControl

/-- The columns of `odata.csv` that are not zero in every row, in the order input, type,
delay, label. The port of a row is its number. -/
def odataCsv : List (UCHAR × UCHAR × UINT × String) :=
  [(5, 2, 10, "STARTER"), (7, 4, 0, "ACCON"), (7, 4, 0, "FUELPUMP"), (6, 0, 0, "COOLINGFAN"),
    (0, 0, 0, "LHEADLAMP"), (0, 0, 0, "RHEADLAMP"), (1, 0, 0, "RUNNINGLIGHTS"),
    (41, 0, 0, "LIGHTBAR"), (2, 3, 15, "LEFTRBLINKER"), (3, 3, 15, "RIGHTRBLINKER"),
    (2, 3, 15, "LEFTFBLINKER"), (3, 3, 15, "RIGHTFBLINKER"), (8, 0, 0, "LBRAKELIGHT"),
    (8, 0, 0, "RBRAKELIGHT"), (2, 2, 15, "XLBLINKER"), (3, 2, 15, "XRBLINKER"),
    (4, 0, 0, "LBRIGHTS"), (4, 0, 0, "RBRIGHTS"), (41, 0, 0, "HTRBLOWERLOW"),
    (41, 0, 0, "HTRBLOWERMED"), (41, 0, 0, "HTRBLOWERHIGH"), (41, 0, 0, "WWIPER1"),
    (41, 0, 0, "WWIPER2"), (41, 0, 0, "TRLEFTBLINKER"), (41, 0, 0, "TRRIGHTBLINKER"),
    (41, 0, 0, "INTRUDERALARM"), (41, 0, 0, "BLINKINDICATE"), (41, 0, 0, "BATTERYCOMPHEATER"),
    (41, 0, 0, "ALARMSPEAKER"), (41, 0, 0, "BACKUPLIGHTS"), (41, 0, 0, "TESTOUTPUT27"),
    (41, 0, 0, "TESTOUTPUT28"), (41, 0, 0, "TESTOUTPUT29"), (41, 0, 0, "TESTOUTPUT30"),
    (41, 0, 0, "TESTOUTPUT31"), (41, 0, 0, "TESTOUTPUT32"), (41, 0, 0, "TESTOUTPUT33"),
    (41, 0, 0, "TESTOUTPUT34"), (41, 0, 0, "TESTOUTPUT35"), (41, 0, 0, "NULL2")]

def odata : Database where
  records p :=
    let row := odataCsv.getD p (0, 0, 0, "")
    { label := row.2.2.2, port := BitVec.ofNat 8 p, onoff := 0, inputPort := row.1, polarity := 0,
      type := row.2.1, timeDelay := row.2.2.1, timeLeft := 0, pulseTime := 0, reset := 0 }
  port_eq := by
    intro i hi
    simp
    omega

/-- The table of driven inputs that `odata` gives. -/
def odataIps : List Ip :=
  [⟨4, 0, "LHEADLAMP"⟩, ⟨5, 0, "RHEADLAMP"⟩, ⟨6, 1, "RUNNINGLIGHTS"⟩, ⟨8, 2, "LEFTRBLINKER"⟩,
    ⟨10, 2, "LEFTFBLINKER"⟩, ⟨14, 2, "XLBLINKER"⟩, ⟨9, 3, "RIGHTRBLINKER"⟩,
    ⟨11, 3, "RIGHTFBLINKER"⟩, ⟨15, 3, "XRBLINKER"⟩, ⟨16, 4, "LBRIGHTS"⟩, ⟨17, 4, "RBRIGHTS"⟩,
    ⟨0, 5, "STARTER"⟩, ⟨3, 6, "COOLINGFAN"⟩, ⟨1, 7, "ACCON"⟩, ⟨2, 7, "FUELPUMP"⟩,
    ⟨12, 8, "LBRAKELIGHT"⟩, ⟨13, 8, "RBRAKELIGHT"⟩]

theorem initIps_odata : initIps odata.olLoadConfig = odataIps := by
  rw [Database.initIps_olLoadConfig]
  decide +kernel

end TruckControl
