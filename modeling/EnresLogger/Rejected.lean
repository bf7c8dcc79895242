import EnresLogger.ConfigFlash

/-!
# A text that does not parse

`parseObject` answers a text it rejects with `JsonObject::invalid()`, an object
without entries: every lookup in it gives the default of the type asked for.
`phaseConfig` goes through the lookups without asking for `success()`.  It writes
the defaults over the configuration, and returns `true` (`phaseConfig_rejected`).

Only `cfgM` is left: the number of meters it reads is 0.
-/

namespace EnresLogger

open Lib

/-- `JsonObject::invalid()`: each lookup gives `T()`. -/
def JsonObject.invalid : JsonObject where
  u8 _ := 0
  u16 _ := 0
  u32 _ := 0
  float _ := 0
  str _ := ""

/-- The JSON library: what `parseObject` makes of a text, and the `success()` of
the object it returns. -/
structure ArduinoJson where
  parseObject : String → JsonObject
  success : String → Bool
  rejects : ∀ config, success config = false → parseObject config = .invalid

namespace SDConfig

/-- `readConfig(config)` -/
def readConfig (json : ArduinoJson) (config : List UInt8) (cfg : SDConfig) :
    Option (Bool × SDConfig) :=
  cfg.phaseConfig json.parseObject (text config)

/-- `readConfig(path)`, on the text of the file if it can be opened. -/
def readConfigFile (json : ArduinoJson) (file : Option (List UInt8)) (cfg : SDConfig) :
    Option (List UInt8 × SDConfig) :=
  match file with
  | none => some ([], cfg)
  | some config => do
      let (_, cfg) ← cfg.phaseConfig json.parseObject (text config)
      return (config, cfg)

/-- Both readings keep the configuration, and the one that can say so reports
the failure. -/
structure KeptOnFailure (json : ArduinoJson) (config : List UInt8) (cfg : SDConfig) : Prop where
  file : cfg.readConfigFile json (some config) = some (config, cfg)
  text : cfg.readConfig json config = some (false, cfg)

/-- Zeros and empty strings, but for the meters. -/
def cleared (cfg : SDConfig) : SDConfig where
  cfgG := phaseGlobal .invalid
  cfgM := cfg.cfgM
  cfgS := phaseSensor .invalid
  cfgF := phaseFlow .invalid

variable {json : ArduinoJson} {config : List UInt8} {cfg : SDConfig}

/-! ### What a rejected text does -/

/-- **A rejected text clears the configuration**, and is reported as read. -/
theorem phaseConfig_rejected (h : json.success (EnresLogger.text config) = false) :
    cfg.phaseConfig json.parseObject (EnresLogger.text config) = some (true, cfg.cleared) := by
  rw [phaseConfig, json.rejects _ h]
  rfl

theorem readConfig_rejected (h : json.success (EnresLogger.text config) = false) :
    cfg.readConfig json config = some (true, cfg.cleared) :=
  phaseConfig_rejected h

theorem readConfigFile_rejected (h : json.success (EnresLogger.text config) = false) :
    cfg.readConfigFile json (some config) = some (config, cfg.cleared) := by
  rw [readConfigFile, phaseConfig_rejected h]
  rfl

theorem cleared_interval (cfg : SDConfig) : cfg.cleared.cfgG.interval = 0 := rfl

/-- The result says that the text was read. -/
theorem not_kept_of_rejected (h : json.success (EnresLogger.text config) = false) :
    ¬ cfg.KeptOnFailure json config := by
  intro hkept
  have htext : some (true, cfg.cleared) = some (false, cfg) :=
    (readConfig_rejected h).symm.trans hkept.text
  exact Bool.false_ne_true (Prod.mk.inj (Option.some.inj htext)).1.symm

/-- **No rejected text leaves the configuration and is reported.**  The reading
with a result reports success each time, and a configuration that says an
interval is changed by both. -/
theorem never_keptOnFailure (json : ArduinoJson) (config : List UInt8)
    (h : json.success (EnresLogger.text config) = false) (cfg : SDConfig) :
    ¬ cfg.KeptOnFailure json config ∧
      cfg.readConfig json config = some (true, cfg.cleared) ∧
      cfg.readConfigFile json (some config) = some (config, cfg.cleared) ∧
      (cfg.cfgG.interval ≠ 0 → cfg.cleared ≠ cfg) := by
  refine ⟨not_kept_of_rejected h, readConfig_rejected h, readConfigFile_rejected h, ?_⟩
  intro hinterval hsame
  rw [← hsame] at hinterval
  exact hinterval (cleared_interval cfg)

/-- A library that knows one text. -/
def oneMeterJson : ArduinoJson where
  parseObject := parseOneMeter
  success config := config = EnresLogger.text oneMeter
  rejects := by
    intro config h
    have hne : config ≠ EnresLogger.text oneMeter := of_decide_eq_false h
    simp [parseOneMeter, JsonObject.invalid, hne]

theorem oneMeterJson_cut :
    oneMeterJson.success (EnresLogger.text oneMeter.dropLast) = false := by
  have hne : EnresLogger.text oneMeter.dropLast ≠ EnresLogger.text oneMeter := by
    intro h
    have hchars := String.ofList_injective h
    revert hchars
    decide
  exact decide_eq_false hne

/-- The stored copy of a text, after the constructor. -/
theorem never_keptOnFailure_cut :
    ¬ (plain 0 0 0).KeptOnFailure oneMeterJson oneMeter.dropLast ∧
      (plain 0 0 0).readConfig oneMeterJson oneMeter.dropLast =
        some (true, (plain 0 0 0).cleared) ∧
      (plain 0 0 0).readConfigFile oneMeterJson (some oneMeter.dropLast) =
        some (oneMeter.dropLast, (plain 0 0 0).cleared) ∧
      ((plain 0 0 0).cfgG.interval ≠ 0 → (plain 0 0 0).cleared ≠ plain 0 0 0) :=
  never_keptOnFailure oneMeterJson oneMeter.dropLast oneMeterJson_cut (plain 0 0 0)

/-- The interval was 60 and is 0, and the result is `true`. -/
theorem not_keptOnFailure :
    (plain 0 0 0).cfgG.interval = 60 ∧
      ((plain 0 0 0).readConfig oneMeterJson oneMeter.dropLast).map
        (fun r => (r.1, r.2.cfgG.interval)) = some (true, 0) ∧
      ¬ (plain 0 0 0).KeptOnFailure oneMeterJson oneMeter.dropLast := by
  refine ⟨rfl, ?_, not_kept_of_rejected oneMeterJson_cut⟩
  rw [readConfig_rejected oneMeterJson_cut]
  rfl

end SDConfig

end EnresLogger
