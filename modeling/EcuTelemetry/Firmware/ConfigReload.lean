/-
  EcuTelemetry.Firmware.ConfigReload

  Reading back the text that `configToText` writes.  The version, the rate and
  the log level come back; a limit comes back if six significant digits hold it.
-/

import EcuTelemetry.Firmware.UsableLimits

namespace EcuTelemetry.Firmware

open Printf Strto Digits

/-! ## Lines -/

/-- Characters that no step of the parser looks at. -/
def isPlain (c : Byte) : Bool :=
  decide (c ≠ 0 ∧ c ≠ 0x09 ∧ c ≠ 0x0A ∧ c ≠ 0x0D ∧ c ≠ 0x20 ∧ c ≠ 0x23 ∧ c ≠ 0x3D)

def Plain (s : List Byte) : Prop := ∀ c ∈ s, isPlain c = true

instance (s : List Byte) : Decidable (Plain s) :=
  List.decidableBAll (fun c : Byte => isPlain c = true) s

theorem Plain.ne {s : List Byte} (h : Plain s) {c : Byte} (hc : isPlain c = false) : c ∉ s :=
  fun hmem => by rw [h c hmem] at hc; cases hc

theorem getLines_append {l : List Byte} (h : 0x0A ∉ l) (rest : List Byte) :
    getLines (l ++ 0x0A :: rest) = l :: getLines rest := by
  induction l with
  | nil => rw [List.nil_append, getLines, if_pos rfl]
  | cons c l ih =>
    obtain ⟨hc, hl⟩ := not_or.mp (fun hor => h (List.mem_cons.mpr hor))
    rw [List.cons_append, getLines, if_neg (fun heq => hc heq.symm), ih hl]

theorem takeWhile_ne {s : List Byte} {c : Byte} (h : c ∉ s) (rest : List Byte) :
    (s ++ c :: rest).takeWhile (· ≠ c) = s ∧ (s ++ c :: rest).dropWhile (· ≠ c) = c :: rest := by
  have hs : ∀ d ∈ s, decide (d ≠ c) = true := fun d hd => decide_eq_true fun heq => h (heq ▸ hd)
  rw [List.takeWhile_append_of_pos hs, List.dropWhile_append_of_pos hs]
  rw [List.takeWhile_cons_of_neg (by simp), List.dropWhile_cons_of_neg (by simp), List.append_nil]
  exact ⟨rfl, rfl⟩

/-- No white space at the ends. -/
theorem trim_eq {s : List Byte} (h : ∀ c ∈ s, c ≠ 0x20 ∧ c ≠ 0x09 ∧ c ≠ 0x0D ∧ c ≠ 0x0A) :
    trim s = s := by
  have hwhite : ∀ c ∈ s, ¬ (decide (c = 0x20) || decide (c = 0x09) || decide (c = 0x0D) ||
      decide (c = 0x0A)) = true := by
    intro c hc
    obtain ⟨h1, h2, h3, h4⟩ := h c hc
    simp [h1, h2, h3, h4]
  have hfront : s.dropWhile (fun c => decide (c = 0x20) || decide (c = 0x09) || decide (c = 0x0D) ||
      decide (c = 0x0A)) = s := by
    rcases s with _ | ⟨c, s⟩
    · rfl
    · exact List.dropWhile_cons_of_neg (hwhite c List.mem_cons_self)
  rw [trim, hfront]
  exact List.rdropWhile_eq_self_iff.mpr fun hne => hwhite _ (List.getLast_mem hne)

theorem Plain.white {s : List Byte} (h : Plain s) :
    ∀ c ∈ s, c ≠ 0x20 ∧ c ≠ 0x09 ∧ c ≠ 0x0D ∧ c ≠ 0x0A := by
  intro c hc
  obtain ⟨-, htab, hline, hreturn, hspace, -, -⟩ := of_decide_eq_true (h c hc)
  exact ⟨hspace, htab, hreturn, hline⟩

/-- A line `key=val` of plain texts is one `set`. -/
theorem parseLine_set {key val : List Byte} (hkey : Plain key) (hval : Plain val) (lineno : ℕ)
    (cfg : Config) : parseLine lineno (key ++ 0x3D :: val) cfg = cfg.set lineno key val := by
  -- no comment in it, no blank around it, and one `=`
  have hhash : 0x23 ∉ key ++ 0x3D :: val := by
    rw [List.mem_append, List.mem_cons]
    rintro (hmem | heq | hmem)
    · exact hkey.ne rfl hmem
    · exact absurd heq (by decide)
    · exact hval.ne rfl hmem
  have hcomment : (key ++ 0x3D :: val).takeWhile (· ≠ 0x23) = key ++ 0x3D :: val :=
    List.takeWhile_eq_self_iff.mpr fun c hc => decide_eq_true fun heq => hhash (heq ▸ hc)
  have hclean : cleanLine (key ++ 0x3D :: val) = key ++ 0x3D :: val := by
    rw [cleanLine, hcomment]
    refine trim_eq fun c hc => ?_
    rcases List.mem_append.mp hc with hc | hc
    · exact hkey.white c hc
    · rcases List.mem_cons.mp hc with rfl | hc
      · decide
      · exact hval.white c hc
  obtain ⟨htake, hdrop⟩ := takeWhile_ne (hkey.ne (c := 0x3D) rfl) val
  have hsplit : splitKey (key ++ 0x3D :: val) = (key, val) := by
    rw [splitKey, htake, hdrop, trim_eq hkey.white]
    show (key, trim val) = _
    rw [trim_eq hval.white]
  have hne : key ++ 0x3D :: val ≠ [] := fun h => by
    rw [List.append_eq_nil_iff] at h
    cases h.2
  have hmem : 0x3D ∈ key ++ 0x3D :: val := List.mem_append_right _ List.mem_cons_self
  simp only [parseLine, hclean, if_neg hne, if_neg (not_not.mpr hmem), hsplit]

/-! ## Values -/

theorem plain_run {ds : List Byte} (h : ∀ c ∈ ds, isDigit c = true) : Plain ds := by
  intro c hc
  have hdigit := isDigit_iff.mp (h c hc)
  have hne : ∀ d : Byte, isDigit d = false → c ≠ d := fun d hd heq => by
    rw [← heq, h c hc] at hd
    cases hd
  exact decide_eq_true ⟨hne _ rfl, hne _ rfl, hne _ rfl, hne _ rfl, hne _ rfl, hne _ rfl, hne _ rfl⟩

theorem plain_append {s t : List Byte} (hs : Plain s) (ht : Plain t) : Plain (s ++ t) :=
  fun c hc => (List.mem_append.mp hc).elim (hs c) (ht c)

theorem plain_cons {c : Byte} {s : List Byte} (hc : isPlain c = true) (hs : Plain s) :
    Plain (c :: s) :=
  List.forall_mem_cons.mpr ⟨hc, hs⟩

/-- Numerals hold no blank and no `#`. -/
theorem plain_numeral (t : Numeral) : Plain t.text := by
  have hexponent : Plain (exponentText t.exponent) := by
    have hrun := t.exponent_run
    generalize t.exponent = e at hrun ⊢
    rcases e with _ | ⟨negative, ds⟩
    · exact nofun
    · refine plain_cons rfl (plain_cons ?_ (plain_run (hrun (negative, ds) rfl).digits))
      cases negative <;> rfl
  refine plain_append (plain_run t.whole_run.digits) (plain_append ?_ hexponent)
  split
  · exact nofun
  · exact plain_cons rfl (plain_run t.fraction_digits)

theorem cBytes_plain {s : List Byte} (h : Plain s) : cBytes s = s :=
  List.takeWhile_eq_self_iff.mpr fun _ hc => decide_eq_true fun heq => h.ne rfl (heq ▸ hc)

theorem plain_general {x : F32} (hx : x.isFinite = true) : Plain (general x) := by
  obtain ⟨t, -, -, htext, -⟩ := general_numeral hx
  rw [htext]
  refine plain_append ?_ (plain_numeral t)
  split
  · exact plain_cons rfl nofun
  · exact nofun

/-- What a limit comes back as. -/
def reread (x : F32) : F32 := (strtof (general x)).1

theorem strtof_general {x : F32} (hx : x.isFinite = true) :
    strtof (general x) = (reread x, []) := by
  obtain ⟨t, -, -, htext, -⟩ := general_numeral hx
  rw [reread, htext, t.strtof_text]

theorem reread_eq_iff {x : F32} (hx : x.isFinite = true) : reread x = x ↔ SixDigits x := by
  rw [← strtof_general_iff hx, strtof_general hx]
  constructor
  · exact fun h => by rw [h]
  · exact fun h => (Prod.mk.inj h).1

/-- `strtof` on the text of a finite value gives the value with six digits. -/
theorem toFloat_general {x : F32} (hx : x.isFinite = true) :
    toFloat (general x) = some (reread x) := by
  have hne : general x ≠ [] := by
    obtain ⟨t, -, -, htext, -⟩ := general_numeral hx
    obtain ⟨c, s, hstart, -⟩ := t.text_start
    rw [htext, hstart]
    exact fun h => by cases (List.append_eq_nil_iff.mp h).2
  rw [toFloat, cBytes_plain (plain_general hx), strtof_general hx]
  exact if_pos ⟨rfl, hne⟩

theorem toLong_dec {n : ℕ} (h : (n : ℤ) ≤ LONG_MAX) : toLong (dec n) = some (n : ℤ) := by
  have hrun := isRun_dec n
  rw [toLong, cBytes_plain (plain_run hrun.digits), strtol_run hrun (by rw [value_dec]; exact h),
    value_dec]
  exact if_pos ⟨rfl, hrun.ne_nil⟩

/-! ## The text of a configuration -/

section Set

variable {n : ℕ} {cfg : Config}

/-- `config_version` is read back as written. -/
theorem set_configVersion {v : UInt32} :
    cfg.set n (str "config_version") (dec v.toNat) = .ok { cfg with configVersion := v } := by
  have hlong : (v.toNat : ℤ) ≤ LONG_MAX := by
    have := v.toNat_lt
    rw [LONG_MAX]
    omega
  have hfilter : ((some (v.toNat : ℤ)).filter fun l => !decide (l < 0)) = some (v.toNat : ℤ) :=
    Option.filter_some_pos (by simp)
  rw [Config.set, if_neg (by decide), if_pos rfl, toLong_dec hlong, hfilter]
  simp only [Int.toNat_natCast, UInt32.ofNat_toNat]

/-- `hz` is read back as written, within its range. -/
theorem set_rate {hz : ℤ} (h : 1 ≤ hz ∧ hz ≤ 1000) :
    cfg.set n (str "hz") (int hz) = .ok { cfg with hz := hz } := by
  obtain ⟨k, rfl⟩ := Int.eq_ofNat_of_zero_le (zero_le_one.trans h.1)
  have hlong : (k : ℤ) ≤ LONG_MAX := by
    rw [LONG_MAX]
    omega
  have hfilter : ((some (k : ℤ)).filter fun l => !(decide (l < 1) || decide (l > 1000))) = some
      (k : ℤ) := by
    refine Option.filter_some_pos ?_
    simp only [Bool.not_eq_true', Bool.or_eq_false_iff, decide_eq_false_iff_not]
    omega
  have hint : int (k : ℤ) = dec k := rfl
  rw [Config.set, if_pos rfl, hint, toLong_dec hlong, hfilter]

theorem set_logLevel {l : LogLevel} :
    cfg.set n (str "log_level") (logLevelName l) = .ok { cfg with logLevel := l } := by
  have hparse : parseLogLevel (logLevelName l) = some l := by cases l <;> decide
  rw [Config.set, if_neg (by decide), if_neg (by decide), if_neg (by decide), if_neg (by decide),
    if_neg (by decide), if_pos rfl, hparse]

theorem set_rpmLimit {x : F32} (hx : x.isFinite = true) (hpos : nonPositive (reread x) = false) :
    cfg.set n (str "rpm_limit") (general x) =
      .ok { cfg with limits := { cfg.limits with rpmLimit := reread x } } := by
  have hfilter : ((some (reread x)).filter fun f => !nonPositive f) = some (reread x) :=
    Option.filter_some_pos (by rw [hpos]; rfl)
  rw [Config.set, if_neg (by decide), if_neg (by decide), if_pos rfl, toFloat_general hx, hfilter]

theorem set_tempLimitC {x : F32} (hx : x.isFinite = true) :
    cfg.set n (str "temp_limit_c") (general x) =
      .ok { cfg with limits := { cfg.limits with tempLimitC := reread x } } := by
  rw [Config.set, if_neg (by decide), if_neg (by decide), if_neg (by decide), if_pos rfl,
    toFloat_general hx]

theorem set_currentLimitA {x : F32} (hx : x.isFinite = true)
    (hpos : nonPositive (reread x) = false) :
    cfg.set n (str "current_limit_a") (general x) =
      .ok { cfg with limits := { cfg.limits with currentLimitA := reread x } } := by
  have hfilter : ((some (reread x)).filter fun f => !nonPositive f) = some (reread x) :=
    Option.filter_some_pos (by rw [hpos]; rfl)
  rw [Config.set, if_neg (by decide), if_neg (by decide), if_neg (by decide), if_neg (by decide),
    if_pos rfl, toFloat_general hx, hfilter]

end Set

theorem nonPositive_reread {x : F32} (hx : x.isFinite = true) (hpos : F32.zero.lt x = true) :
    nonPositive (reread x) = false := by
  obtain ⟨-, -, hlt⟩ := F32.lt_iff.mp hpos
  rw [F32.zero_signedMag] at hlt
  have hreread : 0 < (reread x).signedMag := strtof_general_pos hx hlt
  rw [nonPositive, Bool.and_eq_false_iff]
  exact .inr (decide_eq_false (not_le.mpr hreread))

/-- The limits as they come back. -/
def Limits.reread (l : Limits) : Limits where
  rpmLimit := Firmware.reread l.rpmLimit
  tempLimitC := Firmware.reread l.tempLimitC
  currentLimitA := Firmware.reread l.currentLimitA

/-- The first line of a text, then the rest. -/
theorem parseLines_set {key val : List Byte} (hkey : Plain key) (hval : Plain val) {n : ℕ}
    {rest : List Byte} {cfg cfg' : Config} (h : cfg.set (n + 1) key val = .ok cfg') :
    parseLines n (getLines (key ++ 0x3D :: (val ++ 0x0A :: rest))) cfg =
      parseLines (n + 1) (getLines rest) cfg' := by
  have hline : 0x0A ∉ key ++ 0x3D :: val := by
    rw [List.mem_append, List.mem_cons]
    rintro (hmem | heq | hmem)
    · exact hkey.ne rfl hmem
    · exact absurd heq (by decide)
    · exact hval.ne rfl hmem
  have htext : key ++ 0x3D :: (val ++ 0x0A :: rest) = (key ++ 0x3D :: val) ++ 0x0A :: rest := by
    rw [List.append_assoc, List.cons_append]
  rw [htext, getLines_append hline, parseLines, parseLine_set hkey hval, h]
  rfl

/-- The text is always taken, and only the limits may come back changed. -/
theorem parse_configToText {cfg : Config} (hhz : 1 ≤ cfg.hz ∧ cfg.hz ≤ 1000)
    (hvalid : ∀ k : LimitKey, k.validatorTakes (cfg.limits.get k) = true) (d : Config) :
    parseConfigText (configToText cfg) d = .ok { cfg with limits := cfg.limits.reread } := by
  -- what is written for a finite limit reads back, and a positive one stays positive
  have hrpm : cfg.limits.rpmLimit.isFinite = true := validatorTakes_isFinite (hvalid .rpm)
  have htemp : cfg.limits.tempLimitC.isFinite = true := validatorTakes_isFinite (hvalid .temp)
  have hcurrent : cfg.limits.currentLimitA.isFinite = true :=
    validatorTakes_isFinite (hvalid .current)
  have hrpmPos := nonPositive_reread hrpm (Bool.and_eq_true_iff.mp (hvalid .rpm)).2
  have hcurrentPos := nonPositive_reread hcurrent (Bool.and_eq_true_iff.mp (hvalid .current)).2
  have hlevel : Plain (logLevelName cfg.logLevel) := by cases cfg.logLevel <;> decide
  have hrate : Plain (int cfg.hz) := by
    obtain ⟨k, hk⟩ := Int.eq_ofNat_of_zero_le (zero_le_one.trans hhz.1)
    rw [hk]
    exact plain_run (isRun_dec k).digits
  obtain ⟨comment, hcomment⟩ : ∃ comment, comment =
    str "# ECU agent configuration (written by ecu_agent)" := ⟨_, rfl⟩
  -- the text as lines, each a key and a value
  have htext : configToText cfg = comment ++ 0x0A ::
      (str "config_version" ++ 0x3D :: (dec cfg.configVersion.toNat ++ 0x0A ::
      (str "hz" ++ 0x3D :: (int cfg.hz ++ 0x0A ::
      (str "log_level" ++ 0x3D :: (logLevelName cfg.logLevel ++ 0x0A ::
      (str "rpm_limit" ++ 0x3D :: (general cfg.limits.rpmLimit ++ 0x0A ::
      (str "temp_limit_c" ++ 0x3D :: (general cfg.limits.tempLimitC ++ 0x0A ::
      (str "current_limit_a" ++
        0x3D :: (general cfg.limits.currentLimitA ++ 0x0A :: [])))))))))))) := by
    have hline : str "# ECU agent configuration (written by ecu_agent)\n" = comment ++ [0x0A] := by
      rw [hcomment]
      rfl
    have hversion : str "config_version=" = str "config_version" ++ [0x3D] := rfl
    have hhz : str "hz=" = str "hz" ++ [0x3D] := rfl
    have hlevel : str "log_level=" = str "log_level" ++ [0x3D] := rfl
    have hrpm : str "rpm_limit=" = str "rpm_limit" ++ [0x3D] := rfl
    have htemp : str "temp_limit_c=" = str "temp_limit_c" ++ [0x3D] := rfl
    have hcurrent : str "current_limit_a=" = str "current_limit_a" ++ [0x3D] := rfl
    have hnewline : str "\n" = [0x0A] := rfl
    simp only [configToText, hline, hversion, hhz, hlevel, hrpm, htemp, hcurrent, hnewline,
      List.append_assoc, List.cons_append, List.nil_append]
  have hfirst : parseLine 1 comment d = .ok d := by
    rw [hcomment]
    rfl
  -- line by line; each sets one field
  rw [parseConfigText, htext, getLines_append (by rw [hcomment]; decide), parseLines, hfirst]
  show parseLines 1 (getLines _) d = _
  rw [parseLines_set (by decide) (plain_run (isRun_dec _).digits) set_configVersion,
    parseLines_set (by decide) hrate (set_rate hhz), parseLines_set (by decide) hlevel set_logLevel,
    parseLines_set (by decide) (plain_general hrpm) (set_rpmLimit hrpm hrpmPos),
    parseLines_set (by decide) (plain_general htemp) (set_tempLimitC htemp),
    parseLines_set (by decide) (plain_general hcurrent) (set_currentLimitA hcurrent hcurrentPos)]
  rfl

/-- The text of a configuration that a CONFIG_SET brought is taken, with the version,
    the rate and the log level; it gives the configuration back if and only if each
    limit is the float next to a decimal of at most six significant digits. -/
theorem config_reloads_iff {cs : ConfigSet} (h : cs.acceptable = true) (d : Config) :
    (∃ limits, parseConfigText (configToText cs.config) d = .ok { cs.config with limits }) ∧
      (parseConfigText (configToText cs.config) d = .ok cs.config ↔
        ∀ k, SixDigits (cs.config.limits.get k)) := by
  have hvalid := acceptable_validatorTakes h
  have hfinite : ∀ k, (cs.config.limits.get k).isFinite = true := fun k =>
    validatorTakes_isFinite (hvalid k)
  have hparse := parse_configToText (acceptable_hz h) hvalid d
  refine ⟨⟨_, hparse⟩, ?_⟩
  rw [hparse]
  constructor
  -- the text says only what was written, so each limit must read back
  · intro heq k
    have hlimits : cs.config.limits.reread = cs.config.limits :=
      congrArg Config.limits (Except.ok.inj heq)
    refine (reread_eq_iff (hfinite k)).mp ?_
    cases k with
    | rpm => exact congrArg Limits.rpmLimit hlimits
    | temp => exact congrArg Limits.tempLimitC hlimits
    | current => exact congrArg Limits.currentLimitA hlimits
  · intro hsix
    have hback : ∀ k, reread (cs.config.limits.get k) = cs.config.limits.get k := fun k =>
      (reread_eq_iff (hfinite k)).mpr (hsix k)
    have hlimits : cs.config.limits.reread = cs.config.limits := by
      have hrpm : reread cs.config.limits.rpmLimit = cs.config.limits.rpmLimit := hback .rpm
      have htemp : reread cs.config.limits.tempLimitC = cs.config.limits.tempLimitC := hback .temp
      have hcurrent : reread cs.config.limits.currentLimitA = cs.config.limits.currentLimitA :=
        hback .current
      rw [Limits.reread, hrpm, htemp, hcurrent]
    rw [hlimits]

theorem config_reloads_iff_short :
    let cs : ConfigSet := { configVersion := 7, telemetryHz := 25, logLevel := 2,
                            rpmLimit := ⟨0x459C4000⟩, tempLimitC := ⟨0xC2C90000⟩,
                            currentLimitA := ⟨0x3DCCCCCD⟩ }
    parseConfigText (configToText cs.config) {} = .ok cs.config := by
  intro cs
  have hok : cs.acceptable = true := by decide
  refine (config_reloads_iff hok {}).2.mpr fun k => ?_
  cases k with
  | rpm => exact ⟨false, 5000, 0, by decide, by decide +kernel⟩
  | temp => exact ⟨true, 1005, -1, by decide, by decide +kernel⟩
  | current => exact ⟨false, 1, -1, by decide, by decide +kernel⟩

/-- A limit of 5000.125 comes back as 5000.12. -/
theorem limit_reloads_changed :
    let cs : ConfigSet := { configVersion := 7, telemetryHz := 25, logLevel := 2,
                            rpmLimit := ⟨0x459C4100⟩, tempLimitC := ⟨0x42DC0000⟩,
                            currentLimitA := ⟨0x43160000⟩ }
    cs.acceptable = true ∧ general cs.rpmLimit = str "5000.12" ∧
      parseConfigText (configToText cs.config) {} =
        .ok { cs.config with limits := { cs.config.limits with rpmLimit := ⟨0x459C40F6⟩ } } ∧
      parseConfigText (configToText cs.config) {} ≠ .ok cs.config := by
  decide +kernel

end EcuTelemetry.Firmware
