/-
  EcuTelemetry.System.ConfigLimits

  A config on its way from `PUT .../config` to the device.  Three checks stand on
  it: the bounds of `ConfigBody`, which no NaN meets, the ranges of `struct.pack`,
  and the checks of `handleConfigSet` on the narrowed values.  They do not agree;
  here is exactly which bodies get how far.
-/

import EcuTelemetry.Firmware.ConfigInForce
import EcuTelemetry.Firmware.RoundTrip
import EcuTelemetry.Lib.Narrowing
import EcuTelemetry.Wire.Golden
import EcuTelemetry.Backend.DeviceFrame

namespace EcuTelemetry.System

open Backend Backend.Protocol

/-! ## How far a body gets -/

/-- The value goes into an `f` field: it is not beyond the greatest binary32 value. -/
def FieldF (x : F64) : Prop := x.lt F64.huge = true ∨ x.isInf = true

/-- The value arrives as a positive finite one. -/
def Positive (x : F64) : Prop := F64.tiny.lt x = true ∧ x.lt F64.huge = true

instance (x : F64) : Decidable (FieldF x) := inferInstanceAs (Decidable (_ ∨ _))

instance (x : F64) : Decidable (Positive x) := inferInstanceAs (Decidable (_ ∧ _))

/-- The backend can send the config. -/
structure Sendable (body : ConfigBody) (version : ℕ) : Prop where
  version : version < 2 ^ 32
  rpm : FieldF body.rpmLimit
  current : FieldF body.currentLimitA

/-- The device can use it. -/
structure Usable (body : ConfigBody) (version : ℕ) : Prop where
  version : version < 2 ^ 32
  rpm : Positive body.rpmLimit
  current : Positive body.currentLimitA

/-- The row can be sent, and a device that takes its CONFIG_SET answers with a status. -/
def Answered {F : Type} (cfg : ConfigRow F) (status : UInt8) : Prop :=
  ∃ payload bytes, cfg.configSet = .ok payload ∧ payload.pack = .ok bytes ∧
    ∀ f : Firmware.Frame, f.isConfigSet → f.payload = bytes →
      f.configAck = { configVersion := UInt32.ofNat cfg.version, status := status }

/-! ## Narrowing -/

theorem Positive.fieldF {x : F64} (h : Positive x) : FieldF x := .inl h.2

/-- A value that is not below zero overflows exactly from `huge` on. -/
theorem overflowsF32_iff {x : F64} (hnan : x.isNaN = false) (hpos : x.lt (F64.ofNat 0) = false) :
    x.overflowsF32 = true ↔ ¬ (x.lt F64.huge = true ∨ x.isInf = true) := by
  have hhuge : F64.huge.isNaN = false := by decide
  have hzero : (F64.ofNat 0).isNaN = false := by decide +kernel
  -- a value that is not negative, as a magnitude
  have hsigned : x.signedMag = (Binary.decodeMag 52 x.mag : ℕ) := by
    rw [F64.signedMag]
    split
    · next hneg =>
      have hle : ¬ x.signedMag < (F64.ofNat 0).signedMag := fun hlt =>
        absurd (F64.lt_iff.mpr ⟨hnan, hzero, hlt⟩) (by rw [hpos]; decide)
      rw [show (F64.ofNat 0).signedMag = 0 by decide +kernel, F64.signedMag, if_pos hneg] at hle
      omega
    · rfl
  -- `huge` is half a unit above FLT_MAX, where rounding goes up
  have hlt : x.lt F64.huge = true ↔ x.roundMag < 2 ^ Binary.overflowExp := by
    rw [F64.lt_iff, F64.huge_signedMag, hsigned, Nat.cast_lt, F64.roundMag_lt_iff]
    exact ⟨fun h => h.2.2, fun h => ⟨hnan, hhuge, h⟩⟩
  have hfinite : x.isFinite = true ↔ ¬ x.isInf = true := by
    rw [F64.isNaN, decide_eq_false_iff_not] at hnan
    rw [F64.isFinite, F64.isInf, decide_eq_true_eq, decide_eq_true_eq]
    omega
  rw [F64.overflowsF32, Bool.and_eq_true, hfinite, decide_eq_true_eq, hlt, not_or, not_lt,
    and_comm]

theorem exists_toF32_iff {x : F64} : (∃ y, x.toF32 = some y) ↔ x.overflowsF32 = false := by
  rw [← Option.isSome_iff_exists, Option.isSome_iff_ne_none, Ne, F64.toF32_eq_none_iff,
    Bool.not_eq_true]

/-- A limit that is not below zero has a binary32 value exactly if it is a field. -/
theorem fieldF_iff {x : F64} (hnan : x.isNaN = false) (hpos : x.lt (F64.ofNat 0) = false) :
    FieldF x ↔ ∃ y, x.toF32 = some y := by
  rw [FieldF, exists_toF32_iff, ← Bool.not_eq_true, overflowsF32_iff hnan hpos, not_not]

/-- The bounds of `temp_limit_c` leave only finite values. -/
theorem toF32_of_temp {x : F64} (hnan : x.isNaN = false) (hlow : x.lt (F64.negNat 40) = false)
    (hhigh : (F64.ofNat 300).lt x = false) : ∃ y, x.toF32 = some y ∧ y.isFinite = true := by
  have hfortyNaN : (F64.negNat 40).isNaN = false := by decide +kernel
  have htopNaN : (F64.ofNat 300).isNaN = false := by decide +kernel
  have hforty : (F64.negNat 40).signedMag = -((40 * 2 ^ 1074 : ℕ) : ℤ) := by decide +kernel
  have htop : (F64.ofNat 300).signedMag = ((300 * 2 ^ 1074 : ℕ) : ℤ) := by decide +kernel
  have hunits : 40 * 2 ^ 1074 ≤ 300 * 2 ^ 1074 := by decide +kernel
  have hsmall : 300 * 2 ^ 1074 < (2 ^ 25 - 1) * 2 ^ 1177 := by decide +kernel
  have hinf : 300 * 2 ^ 1074 < Binary.decodeMag 52 0x7FF0000000000000 := by decide +kernel
  -- the two bounds stay opaque, so that `omega` does not compute with them
  generalize 300 * 2 ^ 1074 = top at *
  generalize 40 * 2 ^ 1074 = forty at *
  -- both refusals of the validator, on the magnitude
  have hge : ¬ x.signedMag < -(forty : ℤ) := by
    rw [← hforty]
    exact fun hlt => absurd (F64.lt_iff.mpr ⟨hnan, hfortyNaN, hlt⟩) (by rw [hlow]; decide)
  have hle : ¬ (top : ℤ) < x.signedMag := by
    rw [← htop]
    exact fun hlt => absurd (F64.lt_iff.mpr ⟨htopNaN, hnan, hlt⟩) (by rw [hhigh]; decide)
  have hmag : Binary.decodeMag 52 x.mag ≤ top := by
    rw [F64.signedMag] at hle hge
    split at hle <;> split at hge <;> omega
  have hfinite : x.isFinite = true := by
    rw [F64.isFinite, decide_eq_true_eq]
    by_contra hlt
    rw [F64.isNaN, decide_eq_false_iff_not] at hnan
    rw [show x.mag = 0x7FF0000000000000 by omega] at hmag
    omega
  -- within 300 degrees the float cannot overflow
  obtain ⟨y, hy, hyfinite, -⟩ :=
    F64.toF32_of_lt hfinite ((F64.roundMag_lt_iff x).mpr (hmag.trans_lt hsmall))
  exact ⟨y, hy, hyfinite⟩

/-! ## The frame -/

open Firmware.ByteWriter in
/-- The two sides write the same bytes for values that the narrowing connects. -/
theorem pack_eq_encode {p : Protocol.ConfigSet} {cs : Firmware.ConfigSet}
    (hversion : p.configVersion = cs.configVersion.toNat)
    (hhz : p.telemetryHz = cs.telemetryHz.toNat) (hlevel : p.logLevel = cs.logLevel.toNat)
    (hrpm : p.rpmLimit.toF32 = some cs.rpmLimit) (htemp : p.tempLimitC.toF32 = some cs.tempLimitC)
    (hcurrent : p.currentLimitA.toF32 = some cs.currentLimitA) : p.pack = .ok cs.encode := by
  have hfield : ∀ {x : F64} {y : F32}, x.toF32 = some y → packF x = .ok (f32 y) := by
    intro x y h
    rw [packF, h, f32, u32_eq]
  rw [Protocol.ConfigSet.pack, hversion, hhz, hlevel, hfield hrpm, hfield htemp, hfield hcurrent]
  simp only [Wire.packU_u32, Wire.packU_u16, Wire.packU_u8]
  rfl

theorem decode_encode (cs : Firmware.ConfigSet) : Firmware.ConfigSet.decode cs.encode = some cs :=
  Firmware.decode_of_encode Firmware.ConfigSet.encode_eq Firmware.ConfigSet.decode_eq
    (Firmware.ConfigSet.layout_fits cs)

/-! ## From the body to the answer -/

variable {F : Type}

/-- The row of an accepted body. -/
def configRow (body : ConfigBody) (dev : String) (version level : ℕ) (now : F) : ConfigRow F where
  deviceId := dev
  version := version
  telemetryHz := body.telemetryHz.toNat
  logLevel := level
  rpmLimit := Database.sqlReal body.rpmLimit
  tempLimitC := Database.sqlReal body.tempLimitC
  currentLimitA := Database.sqlReal body.currentLimitA
  createdAt := now

/-- The new row is the current one. -/
theorem currentConfig_newConfig (db : Database F) (dev : String) (body : ConfigBody) (level : ℕ)
    (now : F) :
    (db.newConfig dev body.telemetryHz.toNat level body.rpmLimit body.tempLimitC body.currentLimitA
      now).currentConfig dev = some (configRow body dev (db.nextConfigVersion dev) level now) := by
  have hnew : ∀ r ∈ db.configs, r.deviceId = dev → r.version < db.nextConfigVersion dev :=
    fun r hr hdev => hdev ▸ Database.version_lt_next hr
  exact @Database.currentConfig_append _ _
    (configRow body dev (db.nextConfigVersion dev) level now) hnew

theorem toF32_of_packF {x : F64} {bytes : List Byte} (h : packF x = .ok bytes) :
    ∃ y, x.toF32 = some y := by
  rw [packF] at h
  split at h
  · next y hy => exact ⟨y, hy⟩
  · cases h

section Body

variable {body : ConfigBody} {level : ℕ} (hvalid : body.valid = true)
  (hlevel : logLevel body.logLevel = some level)
include hvalid

/-- The bounds of a body, each by the comparison that pydantic makes. -/
theorem valid_bounds : (1 ≤ body.telemetryHz ∧ body.telemetryHz ≤ 100) ∧
    (F64.ofNat 0).le body.rpmLimit = true ∧
    ((F64.negNat 40).le body.tempLimitC = true ∧ body.tempLimitC.le (F64.ofNat 300) = true) ∧
    (F64.ofNat 0).le body.currentLimitA = true := by
  rw [ConfigBody.valid] at hvalid
  obtain ⟨hvalid, hcurrent⟩ := Bool.and_eq_true_iff.mp hvalid
  obtain ⟨hvalid, hhigh⟩ := Bool.and_eq_true_iff.mp hvalid
  obtain ⟨hvalid, hlow⟩ := Bool.and_eq_true_iff.mp hvalid
  obtain ⟨hhz, hrpm⟩ := Bool.and_eq_true_iff.mp hvalid
  obtain ⟨hone, hhundred⟩ := Bool.and_eq_true_iff.mp hhz
  exact ⟨⟨of_decide_eq_true hone, of_decide_eq_true hhundred⟩, hrpm, ⟨hlow, hhigh⟩, hcurrent⟩

/-- No limit is a NaN. -/
theorem valid_numbers : body.rpmLimit.isNaN = false ∧ body.tempLimitC.isNaN = false ∧
    body.currentLimitA.isNaN = false := by
  obtain ⟨-, hrpm, ⟨hlow, -⟩, hcurrent⟩ := valid_bounds hvalid
  exact ⟨(F64.not_nan_of_le hrpm).2, (F64.not_nan_of_le hlow).2, (F64.not_nan_of_le hcurrent).2⟩

theorem fieldF_rpm_iff : FieldF body.rpmLimit ↔ ∃ y, body.rpmLimit.toF32 = some y :=
  fieldF_iff (valid_numbers hvalid).1 (F64.lt_eq_false_of_le (valid_bounds hvalid).2.1)

theorem fieldF_current_iff :
    FieldF body.currentLimitA ↔ ∃ y, body.currentLimitA.toF32 = some y :=
  fieldF_iff (valid_numbers hvalid).2.2 (F64.lt_eq_false_of_le (valid_bounds hvalid).2.2.2)

/-- The parts of what packs fit their fields. -/
theorem sendable_of_packs {dev : String} {version : ℕ} {now : F}
    (h : (configRow body dev version level now).Packs) : Sendable body version := by
  obtain ⟨payload, bytes, hset, hpack⟩ := h
  rw [ConfigRow.configSet] at hset
  split at hset
  · next rpm temp current hrpm htemp hcurrent =>
    obtain rfl := Except.ok.inj hset
    -- each field of the frame was packed, so each fits
    rw [ConfigSet.pack] at hpack
    obtain ⟨_, hversion, hpack⟩ := exists_of_bind_eq_ok hpack
    obtain ⟨_, _, hpack⟩ := exists_of_bind_eq_ok hpack
    obtain ⟨_, _, hpack⟩ := exists_of_bind_eq_ok hpack
    obtain ⟨_, hrpmField, hpack⟩ := exists_of_bind_eq_ok hpack
    obtain ⟨_, _, hpack⟩ := exists_of_bind_eq_ok hpack
    obtain ⟨_, hcurrentField, _⟩ := exists_of_bind_eq_ok hpack
    -- SQLite stores NaN as NULL and every other number as it is
    have hreal : ∀ {x y : F64}, Database.sqlReal x = some y → y = x := by
      intro x y hxy
      rw [Database.sqlReal] at hxy
      split at hxy
      · cases hxy
      · exact (Option.some.inj hxy).symm
    obtain rfl := hreal hrpm
    obtain rfl := hreal hcurrent
    refine ⟨?_, (fieldF_rpm_iff hvalid).mpr (toF32_of_packF hrpmField),
      (fieldF_current_iff hvalid).mpr (toF32_of_packF hcurrentField)⟩
    rw [packU] at hversion
    split at hversion
    · next hlt => exact hlt
    · cases hversion
  · cases hset

include hlevel

/-- What can be sent reaches the device as the narrowed values. -/
theorem frame_of_sendable (dev : String) {version : ℕ} (now : F) (h : Sendable body version) :
    ∃ (payload : Protocol.ConfigSet) (cs : Firmware.ConfigSet),
      (configRow body dev version level now).configSet = .ok payload ∧
      payload.pack = .ok cs.encode ∧ cs.configVersion = UInt32.ofNat version ∧
      (cs.acceptable = true ↔ Usable body version) := by
  obtain ⟨⟨hlow, hhigh⟩, -, ⟨hcold, hhot⟩, -⟩ := valid_bounds hvalid
  obtain ⟨hrpmNaN, htempNaN, hcurrentNaN⟩ := valid_numbers hvalid
  -- each limit has a 32-bit value, or `struct.pack` would have raised
  obtain ⟨rpm, hrpm⟩ := (fieldF_rpm_iff hvalid).mp h.rpm
  obtain ⟨temp, htemp, htempFinite⟩ :=
    toF32_of_temp htempNaN (F64.lt_eq_false_of_le hcold) (F64.lt_eq_false_of_le hhot)
  obtain ⟨current, hcurrent⟩ := (fieldF_current_iff hvalid).mp h.current
  have hlevel3 := logLevel_le hlevel
  -- the tests of the device on the narrowed value are those of `Usable`
  have hpositive : ∀ {x : F64} {y : F32}, x.toF32 = some y →
      (y.isFinite = true ∧ F32.zero.lt y = true ↔ Positive x) := by
    intro x y hxy
    rw [Positive, ← F64.toF32_positive_iff]
    -- telemetry_hz, log_level and temp_limit_c are within the device's bounds already
    constructor
    · exact fun hy => ⟨y, hxy, hy⟩
    · rintro ⟨y', hy', hpos⟩
      obtain rfl := Option.some.inj (hxy.symm.trans hy')
      exact hpos
  have hhz : (UInt16.ofNat body.telemetryHz.toNat).toNat = body.telemetryHz.toNat :=
    UInt16.toNat_ofNat_of_lt' (by show _ < 65536; omega)
  have hcode : (UInt8.ofNat level).toNat = level :=
    UInt8.toNat_ofNat_of_lt' (by show _ < 256; omega)
  refine ⟨{ configVersion := version, telemetryHz := body.telemetryHz.toNat, logLevel := level,
            rpmLimit := body.rpmLimit, tempLimitC := body.tempLimitC,
            currentLimitA := body.currentLimitA },
    { configVersion := .ofNat version, telemetryHz := .ofNat body.telemetryHz.toNat,
      logLevel := .ofNat level, rpmLimit := rpm, tempLimitC := temp, currentLimitA := current },
    ?_, ?_, rfl, ?_⟩
  · rw [ConfigRow.configSet, configRow, Database.sqlReal, Database.sqlReal, Database.sqlReal,
      hrpmNaN, htempNaN, hcurrentNaN]
    rfl
  · apply pack_eq_encode
    · exact (UInt32.toNat_ofNat_of_lt' h.version).symm
    · exact hhz.symm
    · exact hcode.symm
    · exact hrpm
    · exact htemp
    · exact hcurrent
  · simp only [Firmware.ConfigSet.acceptable, Bool.and_eq_true, decide_eq_true_eq,
      UInt16.le_iff_toNat_le, UInt8.le_iff_toNat_le, hhz, hcode, htempFinite]
    constructor
    · rintro ⟨⟨⟨⟨⟨-, hr⟩, hrpos⟩, -⟩, hc⟩, hcpos⟩
      exact ⟨h.version, (hpositive hrpm).mp ⟨hr, hrpos⟩, (hpositive hcurrent).mp ⟨hc, hcpos⟩⟩
    · intro husable
      obtain ⟨hr, hrpos⟩ := (hpositive hrpm).mpr husable.rpm
      obtain ⟨hc, hcpos⟩ := (hpositive hcurrent).mpr husable.current
      refine ⟨⟨⟨⟨⟨⟨⟨?_, ?_⟩, ?_⟩, hr⟩, hrpos⟩, trivial⟩, hc⟩, hcpos⟩
      · show 1 ≤ body.telemetryHz.toNat
        omega
      · show body.telemetryHz.toNat ≤ 1000
        omega
      · exact hlevel3

end Body

/-- The acknowledgement of a frame with an encoded payload. -/
theorem configAck_encode {f : Firmware.Frame} {cs : Firmware.ConfigSet} (hf : f.isConfigSet)
    (hpayload : f.payload = cs.encode) :
    f.configAck = { configVersion := cs.configVersion,
                    status := if cs.acceptable then 0 else 1 } := by
  have haccepted : f.accepted.isSome = cs.acceptable := by
    rw [Firmware.Frame.accepted, if_pos hf, hpayload, decode_encode, Option.filter]
    cases cs.acceptable <;> rfl
  rw [Firmware.Frame.configAck, hpayload, decode_encode, haccepted]
  rfl

/-- A row has one answer. -/
theorem answered_iff {cfg : ConfigRow F} {payload : Protocol.ConfigSet} {cs : Firmware.ConfigSet}
    {status : UInt8} (hset : cfg.configSet = .ok payload) (hpack : payload.pack = .ok cs.encode)
    (hversion : cs.configVersion = UInt32.ofNat cfg.version) :
    Answered cfg status ↔ (if cs.acceptable then (0 : UInt8) else 1) = status := by
  constructor
  · rintro ⟨payload', bytes, hset', hpack', hanswer⟩
    obtain rfl := Except.ok.inj (hset.symm.trans hset')
    obtain rfl := Except.ok.inj (hpack.symm.trans hpack')
    -- some frame carries the payload
    have hdr : { hdr : Firmware.FrameHeader // hdr.msgType = Firmware.MsgType.CONFIG_SET } :=
      ⟨{ msgType := _, deviceId := [], seq := 0, tsMs := 0, fwVersion := 0 }, rfl⟩
    obtain ⟨f, hf, hpayload⟩ : ∃ f : Firmware.Frame, f.isConfigSet ∧ f.payload = cs.encode :=
      ⟨{ hdr := hdr.1, payloadLen := 20, payload := cs.encode }, hdr.2, rfl⟩
    have hack := (configAck_encode hf hpayload).symm.trans (hanswer f hf hpayload)
    exact congrArg Firmware.ConfigAck.status hack
  · intro hstatus
    refine ⟨payload, cs.encode, hset, hpack, fun f hf hpayload => ?_⟩
    rw [configAck_encode hf hpayload, hversion, hstatus]

/-- The three fates of an accepted config.  It can be sent if and only if its version and
    its limits fit their fields; the device answers status 0 if and only if moreover the
    limits of rpm and current arrive as positive finite values; else, when it can be sent
    at all, it answers status 1. -/
theorem config_fate (db : Database F) (dev : String) (now : F) {body : ConfigBody} {level : ℕ}
    (hvalid : body.valid = true) (hlevel : logLevel body.logLevel = some level) :
    ∃ cfg, (db.newConfig dev body.telemetryHz.toNat level body.rpmLimit body.tempLimitC
        body.currentLimitA now).currentConfig dev = some cfg ∧
      cfg.version = db.nextConfigVersion dev ∧
      (cfg.Packs ↔ Sendable body cfg.version) ∧
      (Answered cfg 0 ↔ Usable body cfg.version) ∧
      (Answered cfg 1 ↔ Sendable body cfg.version ∧ ¬ Usable body cfg.version) := by
  refine ⟨_, currentConfig_newConfig db dev body level now, rfl, ?_⟩
  show ((configRow body dev _ level now).Packs ↔ Sendable body (db.nextConfigVersion dev)) ∧
    (_ ↔ Usable body (db.nextConfigVersion dev)) ∧
    (_ ↔ Sendable body (db.nextConfigVersion dev) ∧ ¬ Usable body (db.nextConfigVersion dev))
  -- a row that can be sent makes the frame that the device judges
  by_cases hsend : Sendable body (db.nextConfigVersion dev)
  · obtain ⟨payload, cs, hset, hpack, hversion, husable⟩ :=
      frame_of_sendable hvalid hlevel dev now hsend
    refine ⟨⟨fun _ => hsend, fun _ => ⟨payload, _, hset, hpack⟩⟩, ?_, ?_⟩
    · rw [answered_iff hset hpack hversion, ← husable]
      cases cs.acceptable <;> decide
    · rw [answered_iff hset hpack hversion, ← husable]
      cases cs.acceptable <;> simp [hsend]
  -- one that cannot is never answered
  · have hpacks : ¬ (configRow body dev (db.nextConfigVersion dev) level now).Packs :=
      mt (sendable_of_packs hvalid) hsend
    have hanswered : ∀ status,
        ¬ Answered (configRow body dev (db.nextConfigVersion dev) level now) status :=
      fun status ⟨payload, bytes, hset, hpack, _⟩ => hpacks ⟨payload, bytes, hset, hpack⟩
    have husable : ¬ Usable body (db.nextConfigVersion dev) := fun h =>
      hsend ⟨h.version, h.rpm.fieldF, h.current.fieldF⟩
    refine ⟨iff_of_false hpacks hsend, iff_of_false (hanswered 0) husable, ?_⟩
    exact iff_of_false (hanswered 1) fun h => hsend h.1

/-- A body that asks for an rpm limit of zero. -/
def zeroRpm : ConfigBody := { rpmLimit := F64.ofNat 0 }

/-- `PUT .../config` takes it, and the device refuses it. -/
theorem zeroRpm_fate : zeroRpm.valid = true ∧
    ∃ cfg, (Database.newConfig ({} : Database ℚ) "ecu-001" 10 1 zeroRpm.rpmLimit zeroRpm.tempLimitC
      zeroRpm.currentLimitA 0).currentConfig "ecu-001" = some cfg ∧ Answered cfg 1 := by
  have hvalid : zeroRpm.valid = true := by decide +kernel
  obtain ⟨cfg, hcfg, hversion, -, -, hrefused⟩ :=
    @config_fate ℚ {} "ecu-001" 0 zeroRpm 1 hvalid rfl
  have hfirst : cfg.version = 1 := hversion
  refine ⟨hvalid, cfg, hcfg, hrefused.mpr ⟨⟨?_, ?_, ?_⟩, fun h => absurd h.rpm ?_⟩⟩
  · rw [hfirst]
    decide
  · decide +kernel
  · decide +kernel
  · decide +kernel

end EcuTelemetry.System
