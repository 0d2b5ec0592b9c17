import DmrBridge.Lib.Endian
import DmrBridge.Lib.FixedText
import DmrBridge.Types

/-!
# The RPTC packet

`Brandmeister::config_packet`: the configuration of the peer in fields of fixed width. Degrees are
floating point, so their formatter is a parameter.
-/

open FixedText Endian

namespace DmrBridge

/-! ## Wire-format newtypes -/

def maxCallsignLen : Nat := 8
def maxFreqHz : UInt32 := 999999999

structure Frequency where
  value : UInt32
  nonzero : value ≠ 0
  range : value ≤ maxFreqHz

def Frequency.deserialize (v : UInt32) : Except String Frequency :=
  if h0 : v = 0 then .error "frequency must be non-zero"
  else if h : v > maxFreqHz then .error "frequency must fit in 9 digits (max 999999999)"
  else .ok ⟨v, h0, UInt32.not_lt.mp h⟩

def Frequency.asRptcDigits (f : Frequency) : String := zeroPadded 9 f.value.toNat

def isAsciiAlphanumeric (b : UInt8) : Bool := 48 ≤ b && b ≤ 57 || 65 ≤ b && b ≤ 90 || 97 ≤ b && b ≤ 122

structure Callsign where
  asStr : String
  nonempty : asStr ≠ ""
  short : asStr.utf8ByteSize ≤ maxCallsignLen
  ascii : (bytes asStr).all isAsciiAlphanumeric

def Callsign.deserialize (s : String) : Except String Callsign :=
  if h0 : s = "" then .error "callsign must not be empty"
  else if h : s.utf8ByteSize > maxCallsignLen then
    .error ("callsign must be at most 8 chars, got " ++ toString s.utf8ByteSize)
  else if ha : (bytes s).all isAsciiAlphanumeric then .ok ⟨s, h0, Nat.not_lt.mp h, ha⟩
  else .error "callsign must be ASCII alphanumeric only"

/-! ## Configuration -/

variable {F : Type}

structure PeerConfig (F : Type) where
  callsign : Callsign
  dmrId : DmrId
  rxFreq : Frequency
  txFreq : Frequency
  txPower : String
  colorCode : ColorCode
  latitude : Option F
  longitude : Option F
  height : Option UInt32
  location : String
  description : String
  url : String

structure RuntimeConfig (F : Type) where
  peer : PeerConfig F
  /-- `dmr.slot` -/
  slot : Slot

/-- `f64` and `fmt_latlon` -/
structure Degrees (F : Type) where
  zero : F
  maxLatitude : F
  maxLongitude : F
  fmtLatlon : F → Nat → F → String

/-! ## The packet -/

def softwareId : String := "20260412_asl-dmr-bridge"
def packageId : String := "MMDVM_asl-dmr-bridge"
def defaultLocation : String := ""
def defaultDescription : String := "asl-dmr-bridge"

inductive RptcField where
  | callsign
  | rxFreq
  | txFreq
  | txPower
  | colorCode
  | latitude
  | longitude
  | height
  | location
  | description
  | slots
  | url
  | softwareId
  | packageId
  deriving DecidableEq

namespace RptcField

def all : List RptcField :=
  [callsign, rxFreq, txFreq, txPower, colorCode, latitude, longitude, height, location, description, slots, url,
    softwareId, packageId]

def width : RptcField → Nat
  | callsign => 8
  | rxFreq => 9
  | txFreq => 9
  | txPower => 2
  | colorCode => 2
  | latitude => 8
  | longitude => 9
  | height => 3
  | location => 20
  | description => 19
  | slots => 1
  | url => 124
  | softwareId => 40
  | packageId => 40

end RptcField

def configStringLen : Nat := (RptcField.all.map RptcField.width).sum

def orDefault (value default : String) : String := if value = "" then default else value

/-- `none` is a panic: a slice off a character boundary, or the assertion on the length. -/
def fmtStr (value : String) (width : Nat) : Option String :=
  let cut := (lastUpTo (fun i => (String.Pos.Raw.mk i).isValid value) (min value.utf8ByteSize width)).getD 0
  if h : (String.Pos.Raw.mk cut).IsValid value then
    let s := value.extract value.startPos ⟨⟨cut⟩, h⟩
    let s := s ++ spaces (width - s.utf8ByteSize)
    if s.utf8ByteSize = width then some s else none
  else none

def slotDigit : Slot → String
  | .one => "1"
  | .two => "2"

/-- The text between the repeater id and the end of the packet. -/
def configPayload (D : Degrees F) (config : RuntimeConfig F) : Option String := do
  let r := config.peer
  let height := min (r.height.getD 0) 999
  let callsign ← fmtStr r.callsign.asStr RptcField.callsign.width
  let rxFreq ← fmtStr r.rxFreq.asRptcDigits RptcField.rxFreq.width
  let txFreq ← fmtStr r.txFreq.asRptcDigits RptcField.txFreq.width
  let txPower ← fmtStr (orDefault r.txPower "01") RptcField.txPower.width
  let colorCode := zeroPadded RptcField.colorCode.width r.colorCode.value.toNat
  let latitude := D.fmtLatlon (r.latitude.getD D.zero) RptcField.latitude.width D.maxLatitude
  let longitude := D.fmtLatlon (r.longitude.getD D.zero) RptcField.longitude.width D.maxLongitude
  let height := zeroPadded RptcField.height.width height.toNat
  let location ← fmtStr (orDefault r.location defaultLocation) RptcField.location.width
  let description ← fmtStr (orDefault r.description defaultDescription) RptcField.description.width
  let url ← fmtStr r.url RptcField.url.width
  let software ← fmtStr softwareId RptcField.softwareId.width
  let package ← fmtStr packageId RptcField.packageId.width
  return callsign ++ rxFreq ++ txFreq ++ txPower ++ colorCode ++ latitude ++ longitude ++ height ++ location ++
    description ++ slotDigit config.slot ++ url ++ software ++ package

def tagRptc : List UInt8 := bytes "RPTC"

def configPacket (D : Degrees F) (config : RuntimeConfig F) : Option (List UInt8) := do
  let payload ← configPayload D config
  if payload.utf8ByteSize = configStringLen then
    return tagRptc ++ beBytes 4 config.peer.dmrId.asU32.toNat ++ bytes payload
  else none

/-! ## The layout -/

/-- What a field holds. -/
def RptcField.Holds (D : Degrees F) (config : RuntimeConfig F) (field : RptcField) (text : String) : Prop :=
  match field with
  | callsign => Fitted config.peer.callsign.asStr field.width text
  | rxFreq => Decimal field.width config.peer.rxFreq.value.toNat text
  | txFreq => Decimal field.width config.peer.txFreq.value.toNat text
  | txPower => Fitted (orDefault config.peer.txPower "01") field.width text
  | colorCode => Decimal field.width config.peer.colorCode.value.toNat text
  | latitude => text = D.fmtLatlon (config.peer.latitude.getD D.zero) field.width D.maxLatitude
  | longitude => text = D.fmtLatlon (config.peer.longitude.getD D.zero) field.width D.maxLongitude
  | height => Decimal field.width (min (config.peer.height.getD 0).toNat 999) text
  | location => Fitted config.peer.location field.width text
  | description => Fitted (orDefault config.peer.description defaultDescription) field.width text
  | slots => text = slotDigit config.slot
  | url => Fitted config.peer.url field.width text
  | softwareId => Fitted DmrBridge.softwareId field.width text
  | packageId => Fitted DmrBridge.packageId field.width text

/-- The tag and the repeater id come first. -/
def RptcField.offset (field : RptcField) : Nat := 8 + offsetIn width all field

example : RptcField.all.map RptcField.offset = [8, 16, 25, 34, 36, 38, 46, 55, 58, 78, 97, 98, 222, 262] := by decide

theorem fmtStr_fitted (value : String) (width : Nat) :
    ∃ text, fmtStr value width = some text ∧ Fitted value width text := by
  have hzero : (String.Pos.Raw.mk 0).isValid value = true :=
    String.Pos.Raw.isValid_eq_true_iff.mpr (@isValid_of_append "" value)
  obtain ⟨i, hi, hvalid, hle, hlast⟩ :=
    lastUpTo_spec (p := fun i => (String.Pos.Raw.mk i).isValid value) hzero (min value.utf8ByteSize width)
  have hboundary : (String.Pos.Raw.mk i).IsValid value := String.Pos.Raw.isValid_eq_true_iff.mp hvalid
  have hfitted : Fitted value width (value.extract value.startPos ⟨⟨i⟩, hboundary⟩ ++ spaces (width - i)) := by
    apply fitted_of_last hboundary (Nat.le_trans hle (Nat.min_le_right _ _))
    intro j hj hjvalid
    exact hlast j (Nat.le_min.mpr ⟨hjvalid.le_utf8ByteSize, hj⟩) (String.Pos.Raw.isValid_eq_true_iff.mpr hjvalid)
  obtain ⟨rest, -, hsize⟩ := extract_boundary hboundary
  refine ⟨_, ?_, hfitted⟩
  unfold fmtStr
  simp only [hi, Option.getD_some]
  rw [dif_pos hboundary, hsize, if_pos hfitted.size]

/-- What `fmtStr` returns: it never panics. -/
def fittedText (value : String) (width : Nat) : String := (fmtStr value width).getD ""

theorem fmtStr_eq (value : String) (width : Nat) : fmtStr value width = some (fittedText value width) := by
  obtain ⟨text, htext, -⟩ := fmtStr_fitted value width
  rw [fittedText, htext]
  rfl

theorem fittedText_fitted (value : String) (width : Nat) : Fitted value width (fittedText value width) := by
  obtain ⟨text, htext, hfitted⟩ := fmtStr_fitted value width
  rw [fittedText, htext]
  exact hfitted

theorem fittedText_decimal {width n : Nat} (hwidth : 0 < width) (h : n < 10 ^ width) :
    Decimal width n (fittedText (zeroPadded width n) width) := by
  have hdecimal := decimal_zeroPadded hwidth h
  have hwhole := (fittedText_fitted (zeroPadded width n) width).whole (Nat.le_of_eq hdecimal.size)
  rw [hdecimal.size, Nat.sub_self] at hwhole
  rw [hwhole]
  show Decimal width n (zeroPadded width n ++ "")
  rw [String.append_empty]
  exact hdecimal

theorem frequency_lt (f : Frequency) : f.value.toNat < 10 ^ 9 := by
  have hrange := UInt32.le_iff_toNat_le.mp f.range
  have hmax : maxFreqHz.toNat = 999999999 := rfl
  omega

theorem frequency_decimal (f : Frequency) : Decimal 9 f.value.toNat (fittedText f.asRptcDigits 9) :=
  fittedText_decimal (by decide) (frequency_lt f)

theorem colorCode_lt (cc : ColorCode) : cc.value.toNat < 10 ^ 2 := by
  have hrange := UInt8.le_iff_toNat_le.mp cc.range
  have hmax : maxColorCode.toNat = 15 := rfl
  omega

theorem slotDigit_size (slot : Slot) : (slotDigit slot).utf8ByteSize = 1 := by
  cases slot with
  | one => decide
  | two => decide

theorem height_toNat (height : UInt32) : (min height 999).toNat = min height.toNat 999 := by
  have hmin : min height 999 = if height ≤ 999 then height else 999 := rfl
  have hle : height ≤ 999 ↔ height.toNat ≤ 999 := UInt32.le_iff_toNat_le
  rw [hmin]
  split
  · rename_i hlow
    rw [Nat.min_eq_left (hle.mp hlow)]
  · rename_i hhigh
    rw [Nat.min_eq_right (Nat.le_of_not_le fun h => hhigh (hle.mpr h))]
    rfl

theorem height_lt (height : UInt32) : (min height 999).toNat < 10 ^ 3 := by
  rw [height_toNat]
  omega

theorem orDefault_empty (value : String) : orDefault value defaultLocation = value := by
  unfold orDefault
  split
  · rename_i hempty
    exact hempty.symm
  · rfl

/-- The text that goes into a field. -/
def RptcField.text (D : Degrees F) (config : RuntimeConfig F) : RptcField → String
  | callsign => fittedText config.peer.callsign.asStr callsign.width
  | rxFreq => fittedText config.peer.rxFreq.asRptcDigits rxFreq.width
  | txFreq => fittedText config.peer.txFreq.asRptcDigits txFreq.width
  | txPower => fittedText (orDefault config.peer.txPower "01") txPower.width
  | colorCode => zeroPadded colorCode.width config.peer.colorCode.value.toNat
  | latitude => D.fmtLatlon (config.peer.latitude.getD D.zero) latitude.width D.maxLatitude
  | longitude => D.fmtLatlon (config.peer.longitude.getD D.zero) longitude.width D.maxLongitude
  | height => zeroPadded height.width (min (config.peer.height.getD 0) 999).toNat
  | location => fittedText (orDefault config.peer.location defaultLocation) location.width
  | description => fittedText (orDefault config.peer.description defaultDescription) description.width
  | slots => slotDigit config.slot
  | url => fittedText config.peer.url url.width
  | softwareId => fittedText DmrBridge.softwareId softwareId.width
  | packageId => fittedText DmrBridge.packageId packageId.width

/-- Every field is written, in order, and nothing else. -/
theorem configPayload_text (D : Degrees F) (config : RuntimeConfig F) :
    ∃ payload, configPayload D config = some payload ∧
      bytes payload = RptcField.all.flatMap fun field => bytes (field.text D config) := by
  unfold configPayload
  simp only [fmtStr_eq, Option.bind_eq_bind, Option.bind_some]
  refine ⟨_, rfl, ?_⟩
  simp only [RptcField.all, RptcField.text, List.flatMap_cons, List.flatMap_nil, bytes_append, List.append_assoc,
    List.append_nil]

theorem RptcField.text_holds (D : Degrees F) (config : RuntimeConfig F)
    (hlatitude : (D.fmtLatlon (config.peer.latitude.getD D.zero) latitude.width D.maxLatitude).utf8ByteSize =
      latitude.width)
    (hlongitude : (D.fmtLatlon (config.peer.longitude.getD D.zero) longitude.width D.maxLongitude).utf8ByteSize =
      longitude.width) (field : RptcField) :
    (field.text D config).utf8ByteSize = field.width ∧ field.Holds D config (field.text D config) := by
  have hfitted (value : String) (width : Nat) :
      (fittedText value width).utf8ByteSize = width ∧ Fitted value width (fittedText value width) :=
    ⟨(fittedText_fitted value width).size, fittedText_fitted value width⟩
  cases field with
  | callsign => exact hfitted _ _
  | rxFreq => exact ⟨(hfitted _ _).1, frequency_decimal config.peer.rxFreq⟩
  | txFreq => exact ⟨(hfitted _ _).1, frequency_decimal config.peer.txFreq⟩
  | txPower => exact hfitted _ _
  | colorCode =>
    have hdecimal := @decimal_zeroPadded colorCode.width _ (by decide) (colorCode_lt config.peer.colorCode)
    exact ⟨hdecimal.size, hdecimal⟩
  | latitude => exact ⟨hlatitude, rfl⟩
  | longitude => exact ⟨hlongitude, rfl⟩
  | height =>
    have hdecimal := @decimal_zeroPadded height.width _ (by decide) (height_lt (config.peer.height.getD 0))
    refine ⟨hdecimal.size, ?_⟩
    rw [height_toNat] at hdecimal
    unfold Holds text
    rw [height_toNat]
    exact hdecimal
  | location =>
    refine ⟨(hfitted _ _).1, ?_⟩
    unfold Holds text
    rw [orDefault_empty]
    exact (hfitted _ _).2
  | description => exact hfitted _ _
  | slots => exact ⟨slotDigit_size config.slot, rfl⟩
  | url => exact hfitted _ _
  | softwareId => exact hfitted _ _
  | packageId => exact hfitted _ _

theorem rptc_layout (D : Degrees F) (config : RuntimeConfig F)
    (hlatitude : (D.fmtLatlon (config.peer.latitude.getD D.zero) RptcField.latitude.width D.maxLatitude).utf8ByteSize =
      RptcField.latitude.width)
    (hlongitude :
      (D.fmtLatlon (config.peer.longitude.getD D.zero) RptcField.longitude.width D.maxLongitude).utf8ByteSize =
        RptcField.longitude.width) :
    ∃ pkt, configPacket D config = some pkt ∧ pkt.length = 302 ∧ pkt.take 4 = bytes "RPTC" ∧
      (pkt.drop 4).take 4 = beBytes 4 config.peer.dmrId.asU32.toNat ∧
      ∀ field : RptcField, ∃ text, (pkt.drop field.offset).take field.width = bytes text ∧
        text.utf8ByteSize = field.width ∧ field.Holds D config text := by
  obtain ⟨payload, hpayload, hbytes⟩ := configPayload_text D config
  have htext := RptcField.text_holds D config hlatitude hlongitude
  have hwidth (field : RptcField) : (bytes (field.text D config)).length = field.width := by
    rw [length_bytes]
    exact (htext field).1
  have hsize : payload.utf8ByteSize = configStringLen := by
    rw [← length_bytes, hbytes, List.length_flatMap]
    simp only [hwidth]
    rfl
  have htag : tagRptc.length = 4 := by decide
  have hfront : (tagRptc ++ beBytes 4 config.peer.dmrId.asU32.toNat).length = 8 := by
    rw [List.length_append, htag, length_beBytes]
  refine ⟨tagRptc ++ beBytes 4 config.peer.dmrId.asU32.toNat ++ bytes payload, ?_, ?_, ?_, ?_, ?_⟩
  · unfold configPacket
    rw [hpayload]
    exact if_pos hsize
  · rw [List.length_append, hfront, length_bytes, hsize]
    rfl
  · rw [List.append_assoc, List.take_left' htag]
    rfl
  · rw [List.append_assoc, List.drop_left' htag, List.take_left' (length_beBytes 4 _)]
  · intro field
    refine ⟨field.text D config, ?_, htext field⟩
    have hall : field ∈ RptcField.all := by
      cases field <;> decide
    have hslice := slice_field hwidth hall (tagRptc ++ beBytes 4 config.peer.dmrId.asU32.toNat)
    rw [hfront, ← hbytes] at hslice
    exact hslice

/-- Ten-thousandths of a degree, written with a sign, zeros and four decimals. -/
def tenThousandths : Degrees Int where
  zero := 0
  maxLatitude := 899999
  maxLongitude := 1799999
  fmtLatlon value width limit :=
    let v := max (-limit) (min value limit)
    (if v < 0 then "-" else "+") ++ zeroPadded (width - 6) (v.natAbs / 10000) ++ "." ++ zeroPadded 4 (v.natAbs % 10000)

/-- The location is cut before the `Ü`, of which one byte would fit. -/
theorem rptc_layout_sample :
    let config : RuntimeConfig Int :=
      { peer :=
          { callsign := ⟨"N0CALL", by decide, by decide, by decide⟩
            dmrId := ⟨1234567, by decide⟩
            rxFreq := ⟨434000000, by decide, by decide⟩
            txFreq := ⟨439000000, by decide, by decide⟩
            txPower := ""
            colorCode := ⟨7, by decide⟩
            latitude := some 473769
            longitude := none
            height := some 50
            location := "Bahnhof Altstetten Übergang"
            description := ""
            url := "" }
        slot := .one }
    ∃ pkt, configPacket tenThousandths config = some pkt ∧ pkt.length = 302 ∧
      (pkt.drop RptcField.location.offset).take RptcField.location.width = bytes "Bahnhof Altstetten  " := by
  intro config
  obtain ⟨pkt, hpkt, hlen, -, -, hfields⟩ := rptc_layout tenThousandths config (by decide) (by decide)
  obtain ⟨text, htext, -, hheld⟩ := hfields .location
  have hcut : fittedText "Bahnhof Altstetten Übergang" 20 = "Bahnhof Altstetten  " := by decide +kernel
  have hfitted := fittedText_fitted "Bahnhof Altstetten Übergang" 20
  rw [hcut] at hfitted
  refine ⟨pkt, hpkt, hlen, htext.trans (congrArg bytes ?_)⟩
  exact Fitted.unique hheld hfitted

end DmrBridge
