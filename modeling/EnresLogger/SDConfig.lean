import EnresLogger.Lib.Loop

/-!
# The configuration

`SDConfig.cpp` fills four records from a JSON text.  What the JSON library makes
of the text is a `JsonObject`: for each path and each C++ type the value that
`root[..][..]` converts to.  A `float` is the word that holds it.

`phaseConfig` checks nothing.  The number of meters is the only thing it indexes
a table with: `phaseConfig_isSome`.
-/

namespace EnresLogger

open Lib

inductive Key
  | name (s : String)
  | index (i : Nat)
  deriving DecidableEq, Repr

/-- A parsed text, by path and by the type it is converted to. -/
structure JsonObject where
  u8 : List Key → UInt8
  u16 : List Key → UInt16
  u32 : List Key → UInt32
  float : List Key → UInt32
  str : List Key → String

def MAXSSID : Nat := 5
def MAXMETER : Nat := 21

structure ConfigGlobal where
  type : UInt8
  interval : UInt16
  numMeter : UInt8
  adcExt : UInt8
  mbc : UInt8
  wifiSsid : Vector String MAXSSID
  wifiPass : Vector String MAXSSID
  url : String
  token : String
  batch : UInt8
  path : String
  batch_path : String
  path_sensor : String
  batch_path_sensor : String
  log_use : UInt8
  log_server : String

structure ConfigMeter where
  id : UInt8
  xid : UInt32
  type : UInt8
  index : UInt8
  adjust : Vector UInt32 10
  table : Vector UInt16 11

structure ConfigSensor where
  used : Vector UInt8 2
  xid : Vector UInt32 2
  pin : Vector UInt8 8
  type : Vector UInt8 8
  range : Vector (Vector UInt32 2) 8
  adjust : Vector (Vector UInt32 2) 8

structure ConfigFlow where
  id : UInt8
  xid : UInt32
  adjust : Vector UInt32 9

structure SDConfig where
  cfgG : ConfigGlobal
  cfgM : Vector ConfigMeter MAXMETER
  cfgS : ConfigSensor
  cfgF : ConfigFlow

namespace SDConfig

/-- A configuration that says no more than the type, the meters and the batch. -/
def plain (type numMeter batch : UInt8) : SDConfig where
  cfgG := {
    type, numMeter, batch, interval := 60, adcExt := 0, mbc := 0, log_use := 0
    wifiSsid := .replicate _ "", wifiPass := .replicate _ "", url := "", token := ""
    path := "", batch_path := "", path_sensor := "", batch_path_sensor := "", log_server := "" }
  cfgM := .replicate _ ⟨0, 0, 0, 0, .replicate _ 0, .replicate _ 0⟩
  cfgS := ⟨.replicate _ 1, .replicate _ 0, .replicate _ 0, .replicate _ 0,
    .replicate _ (.replicate _ 0), .replicate _ (.replicate _ 0)⟩
  cfgF := ⟨0, 0, .replicate _ 0⟩

def phaseGlobal (root : JsonObject) : ConfigGlobal where
  type := root.u8 [.name "global", .name "type"]
  interval := root.u16 [.name "global", .name "interval"]
  numMeter := root.u8 [.name "global", .name "meters"]
  adcExt := root.u8 [.name "global", .name "adc_ext"]
  mbc := root.u8 [.name "global", .name "mbc"]
  wifiSsid := .ofFn fun i => root.str [.name "global", .name "wifi", .index i, .name "ssid"]
  wifiPass := .ofFn fun i => root.str [.name "global", .name "wifi", .index i, .name "pass"]
  url := root.str [.name "global", .name "url"]
  token := root.str [.name "global", .name "token"]
  batch := root.u8 [.name "global", .name "batch"]
  path := root.str [.name "global", .name "path"]
  batch_path := root.str [.name "global", .name "batch_path"]
  path_sensor := root.str [.name "global", .name "path_sensor"]
  batch_path_sensor := root.str [.name "global", .name "batch_path_sensor"]
  log_use := root.u8 [.name "global", .name "log_use"]
  log_server := root.str [.name "global", .name "log_server"]

/-- Entry 10 of the table is the Modbus function. -/
def phaseMeter (root : JsonObject) (i : Nat) : ConfigMeter where
  id := root.u8 [.name "meter", .index i, .name "id"]
  xid := root.u32 [.name "meter", .index i, .name "xid"]
  type := root.u8 [.name "meter", .index i, .name "type"]
  index := root.u8 [.name "meter", .index i, .name "index"]
  adjust := .ofFn fun j => root.float [.name "meter", .index i, .name "adjust", .index j]
  table := .ofFn fun j => root.u16 [.name "meter", .index i, .name "table", .index j]

def phaseSensor (root : JsonObject) : ConfigSensor where
  used := .ofFn fun i => root.u8 [.name "sensor", .name "used", .index i]
  xid := .ofFn fun i => root.u32 [.name "sensor", .name "xid", .index i]
  pin := .ofFn fun i => root.u8 [.name "sensor", .name "pin", .index i]
  type := .ofFn fun i => root.u8 [.name "sensor", .name "type", .index i]
  range := .ofFn fun i => .ofFn fun j =>
    root.float [.name "sensor", .name "range", .index i, .index j]
  adjust := .ofFn fun i => .ofFn fun j =>
    root.float [.name "sensor", .name "adjust", .index i, .index j]

def phaseFlow (root : JsonObject) : ConfigFlow where
  id := root.u8 [.name "flow", .name "id"]
  xid := root.u32 [.name "flow", .name "xid"]
  adjust := .ofFn fun i => root.float [.name "flow", .name "adjust", .index i]

/-- `phaseConfig(config)`, given how the JSON library parses; `none` when it
writes past `cfgM`. -/
def phaseConfig (parseObject : String → JsonObject) (cfg : SDConfig) (config : String) :
    Option (Bool × SDConfig) := do
  let root := parseObject config
  let cfgG := phaseGlobal root
  let cfgM ← forLoop cfgG.numMeter.toNat (fun i t => putAt t i (phaseMeter root i)) cfg.cfgM
  return (true, { cfgG, cfgM, cfgS := phaseSensor root, cfgF := phaseFlow root })

/-- **The tables hold as many meters as they have entries**, and nothing else of
the text can lead out of them. -/
theorem phaseConfig_isSome (parseObject : String → JsonObject) (cfg : SDConfig)
    (config : String) :
    (phaseConfig parseObject cfg config).isSome = true ↔
      (phaseGlobal (parseObject config)).numMeter.toNat ≤ MAXMETER := by
  rw [← forLoop_putAt_isSome cfg.cfgM _ (phaseMeter (parseObject config)), phaseConfig]
  cases forLoop (phaseGlobal (parseObject config)).numMeter.toNat
    (fun i t => putAt t i (phaseMeter (parseObject config) i)) cfg.cfgM <;> rfl

theorem phaseConfig_cfgG {parseObject : String → JsonObject} {cfg cfg' : SDConfig}
    {config : String} {ok : Bool} (h : phaseConfig parseObject cfg config = some (ok, cfg')) :
    cfg'.cfgG = phaseGlobal (parseObject config) := by
  rw [phaseConfig, Option.bind_eq_bind, Option.bind_eq_some_iff] at h
  obtain ⟨t, _, h⟩ := h
  cases h
  rfl

end SDConfig

end EnresLogger
