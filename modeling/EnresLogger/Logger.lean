import EnresLogger.SensorPayload

/-!
# The logger

`main.cpp`: logging passes put records into the ring and advance `wIndex`, post
tasks read them back, send them and advance `rIndex`.  Both indices and the
mark `0x55` are kept in the clock's battery-backed RAM, and `setup` restores
them.

A task returns `none` when it leaves one of the fixed tables.  What it meets
outside (the bus, the chip, the network) are its arguments.

Three fields of `Logger` are read by no function: `stores` lists the words the
current task has written to the NVRAM, in order, `commits` the records whose
write was reported successful since the last reset of the indices, with the
index of each, and `posts` the requests sent and their answers.
-/

namespace EnresLogger

open Lib

def MAXPOST : Nat := 6
def FLASH_ERROR_MAX : Nat := 3

/-! ### State -/

/-- The mark and the two index words from `SRAM_ADDRESS` on. -/
structure NVRAM where
  mark : UInt8
  w : Nat
  r : Nat
  deriving DecidableEq, Repr

/-- One `writenvram`. -/
inductive Store
  | mark
  | w (index : Nat)
  | r (index : Nat)
  deriving DecidableEq, Repr

def NVRAM.write (nv : NVRAM) : Store → NVRAM
  | .mark => { nv with mark := 0x55 }
  | .w index => { nv with w := index }
  | .r index => { nv with r := index }

/-- A POST: which records it carries, the request and the status. -/
structure Post where
  kind : Kind
  index : Nat
  num : Nat
  url : String
  playload : String
  httpCode : UInt16

structure Logger where
  flash : SPIFlashMeter
  sd : SDConfig
  md : Meters
  fd : FlowData
  wBuff : RecordBuff
  rBuff : RecordBuff
  wIndex : Nat
  rIndex : Nat
  fErrorCnt : Nat
  nv : NVRAM
  stores : List Store
  commits : List (Nat × Record)
  posts : List Post

/-- What a logging pass meets: the clock, the bus for each meter, the sensors
and what the chip makes of the write. -/
structure Pass where
  now : UInt32
  fpu : Fpu
  bus : Nat → Bus
  outcome : WriteOutcome

/-- What a post task meets: whether WiFi is up, whether the chip refuses to be
read, and the status of each request. -/
structure Network where
  wifi : Bool
  busy : Bool × Bool
  httpCode : Nat → UInt16

namespace Logger

/-! ### Indices -/

def store (s : Logger) (x : Store) : Logger :=
  { s with nv := s.nv.write x, stores := s.stores ++ [x] }

def getWIndex (s : Logger) : Logger := { s with wIndex := s.nv.w }
def setWIndex (s : Logger) : Logger := s.store (.w s.wIndex)
def getRIndex (s : Logger) : Logger := { s with rIndex := s.nv.r }
def setRIndex (s : Logger) : Logger := s.store (.r s.rIndex)

/-- The NVRAM part of `setup`; RAM is as a reset leaves it. -/
def setup (sd : SDConfig) (s : Logger) : Logger :=
  let s := { s with
    sd, md := .replicate _ {}, fd := {}, wBuff := .replicate _ 0, rBuff := .replicate _ 0
    wIndex := 0, rIndex := 0, fErrorCnt := 0, stores := [] }
  if s.nv.mark ≠ 0x55 then (({ s with commits := [] }.store .mark).setWIndex).setRIndex
  else s.getWIndex.getRIndex

/-! ### Logging -/

/-- The records about to be written: `data` is the part of `wBuff` handed to the
flash, `records` what it says. -/
structure Batch where
  kind : Kind
  num : Nat
  data : List UInt8
  records : List Record

/-- What follows `flash.write*Data` in the three functions. -/
def afterWrite (s : Logger) (ok : Bool) (b : Batch) : Logger :=
  if ok then
    { s with
      wIndex := (s.wIndex + b.num) % 4294967296, fErrorCnt := 0
      commits := s.commits ++
        b.records.mapIdx fun i x => ((s.wIndex + i) % 4294967296, x) }.setWIndex
  else
    let s := { s with fErrorCnt := (s.fErrorCnt + 1) % 256 }
    if FLASH_ERROR_MAX ≤ s.fErrorCnt ∧ s.wIndex = s.rIndex then
      -- move to the next sector
      let w := (s.wIndex / 64 + 1) * 64 % 4294967296
      ({ s with fErrorCnt := 0, wIndex := w, rIndex := w }.setRIndex).setWIndex
    else s

def writeBatch (s : Logger) (o : WriteOutcome) (b : Batch) : Logger :=
  let r := s.flash.writeData b.kind o s.wIndex b.data
  { s with flash := r.2 }.afterWrite r.1 b

/-- `meterToFlash` up to the write. -/
def meterBatch (s : Logger) : Option (Logger × Batch) := do
  let num := s.sd.cfgG.numMeter.toNat
  let c ← fillMeters num s.sd.cfgM s.md s.wBuff
  let data ← c.buf.get 0 (RECSIZE * num)
  return ({ s with wBuff := c.buf }, ⟨.meter, num, data, meterRecords num s.sd.cfgM s.md⟩)

/-- `SensorToFlash` up to the write. -/
def sensorBatch (fpu : Fpu) (now : UInt32) (s : Logger) : Option (Logger × Batch) := do
  let c ← fillSensor fpu s.sd.cfgS now s.wBuff
  let data ← c.buf.get 0 RECSIZESENSOR
  return ({ s with wBuff := c.buf }, ⟨.sensor, 1, data, [sensorRecord fpu s.sd.cfgS now]⟩)

/-- `flowToFlash` up to the write. -/
def flowBatch (s : Logger) : Option (Logger × Batch) := do
  let c ← fillFlow s.sd.cfgF s.fd s.wBuff
  let data ← c.buf.get 0 RECSIZE
  return ({ s with wBuff := c.buf }, ⟨.flow, 1, data, [.flow s.sd.cfgF.xid s.fd]⟩)

def meterToFlash (o : WriteOutcome) (s : Logger) : Option Logger := do
  let (s, b) ← s.meterBatch
  return s.writeBatch o b

def SensorToFlash (fpu : Fpu) (now : UInt32) (o : WriteOutcome) (s : Logger) : Option Logger := do
  let (s, b) ← s.sensorBatch fpu now
  return s.writeBatch o b

def flowToFlash (o : WriteOutcome) (s : Logger) : Option Logger := do
  let (s, b) ← s.flowBatch
  return s.writeBatch o b

/-- The loop of `ReadMeterToFlash_Task`: the first meter that fails ends it. -/
def readMeters (p : Pass) (s : Logger) : Option (Bool × Meters) :=
  forLoop s.sd.cfgG.numMeter.toNat (fun i st =>
    if st.1 then do
      let m ← s.sd.cfgM[i]?
      let r ← readMeterData p.fpu (p.bus i) st.2 (UInt8.ofNat i) m.id m.index m.type p.now
        m.adjust m.table
      return (r.1 == 0, r.2)
    else some st) (true, s.md)

def ReadMeterToFlash_Task (p : Pass) (s : Logger) : Option Logger := do
  let (ok, md) ← s.readMeters p
  let s := { s with md }
  if ok then s.meterToFlash p.outcome else return s

def ReadSensorToFlash_Task (p : Pass) (s : Logger) : Option Logger :=
  s.SensorToFlash p.fpu p.now p.outcome

def ReadFlowToFlash_Task (p : Pass) (s : Logger) : Option Logger :=
  let r := readFlowData p.fpu (p.bus 0) s.fd s.sd.cfgF.id p.now s.sd.cfgF.adjust
  let s := { s with fd := r.2 }
  if r.1 = 0 then s.flowToFlash p.outcome else some s

/-- The logging step of `loop`. -/
def logTask (p : Pass) (s : Logger) : Option Logger :=
  match s.sd.cfgG.type with
  | 1 => s.ReadMeterToFlash_Task p
  | 2 => s.ReadSensorToFlash_Task p
  | 3 => s.ReadFlowToFlash_Task p
  | _ => some s

/-! ### Posting -/

/-- `flash.read*Data(rIndex, rBuff, RECSIZE*num)` -/
def readRecords (s : Logger) (kind : Kind) (busy : Bool × Bool) (num : Nat) :
    Option (Bool × Logger) := do
  let out ← s.rBuff.get 0 (RECSIZE * num)
  let r := s.flash.readData kind busy s.rIndex out
  let rBuff ← s.rBuff.put 0 r.2
  return (r.1, { s with rBuff })

/-- `rIndex += num; setRIndex();` -/
def advance (s : Logger) (num : Nat) : Logger :=
  { s with rIndex := (s.rIndex + num) % 4294967296 }.setRIndex

/-- The request of a batch and what follows it. -/
def postBatch (s : Logger) (kind : Kind) (num : Nat) (path playload : String)
    (httpCode : UInt16) : Logger :=
  let url := "http://" ++ s.sd.cfgG.url ++ (path ++ "?access_token=" ++ s.sd.cfgG.token)
  let s := { s with posts := s.posts ++ [⟨kind, s.rIndex, num, url, playload, httpCode⟩] }
  if httpCode ≠ 200 then s else s.advance num

/-- `flashMeterToBatchPost` and `flashFlowToBatchPost`. -/
def flashToBatchPost (fmt : Format) (kind : Kind) (l : Layout) (path : String) (net : Network)
    (num : Nat) (s : Logger) : Option Logger := do
  let (ok, s) ← s.readRecords kind net.busy num
  if ok then
    let playload ← batchBody fmt l s.rBuff num
    return s.postBatch kind num path playload (net.httpCode 0)
  else return s

def flashMeterToBatchPost (fmt : Format) (net : Network) (num : Nat) (s : Logger) :
    Option Logger :=
  s.flashToBatchPost fmt .meter meterLayout s.sd.cfgG.batch_path net num

def flashFlowToBatchPost (fmt : Format) (net : Network) (num : Nat) (s : Logger) :
    Option Logger :=
  s.flashToBatchPost fmt .flow flowLayout s.sd.cfgG.batch_path_sensor net num

def flashSensorToBatchPost (fmt : Format) (net : Network) (num : Nat) (s : Logger) :
    Option Logger := do
  let (ok, s) ← s.readRecords .sensor net.busy num
  if ok then
    let body ← sensorBody fmt s.rBuff num
    return s.postBatch .sensor num s.sd.cfgG.batch_path_sensor body.1 (net.httpCode 0)
  else return s

/-- The measurements of a single post; the last one closes the array. -/
def singleFields : List (String × String) :=
  [("w", ","), ("wh", ","), ("pf", ","), ("varh", ","), ("i0", ","), ("i1", ","), ("i2", ","),
    ("v0", ","), ("v1", ","), ("v2", "\x7d]")]

/-- The loop of `flashMeterToPost`, from record `i` on, with `k` records left:
a request that is not answered with 200 ends it. -/
def singlePosts (fmt : Format) (net : Network) (num : Nat) :
    Nat → Nat → Nat → Logger → Option Logger
  | 0, _, _, s => some (s.advance num)
  | k + 1, i, index, s => do
      let xid ← s.rBuff.word index
      let mdt ← s.rBuff.word (index + 4)
      let path := s.sd.cfgG.path ++ toString xid.toNat ++ "?access_token=" ++ s.sd.cfgG.token
      let st ← decodeFields fmt s.rBuff singleFields
        ("[\x7b" ++ "\"mdt\":\"" ++ fmt.time mdt ++ "\",", index + 8)
      let post := ⟨.meter, s.rIndex + i, 1, "http://" ++ s.sd.cfgG.url ++ path, st.1,
        net.httpCode i⟩
      let s := { s with posts := s.posts ++ [post] }
      if net.httpCode i ≠ 200 then return s
      else singlePosts fmt net num k (i + 1) (st.2 + padding st.2) s

def flashMeterToPost (fmt : Format) (net : Network) (num : Nat) (s : Logger) :
    Option Logger := do
  let (ok, s) ← s.readRecords .meter net.busy num
  if ok then s.singlePosts fmt net num num 0 0 else return s

/-- The body is empty. -/
def flashSensorToPost (_ : Format) (_ : Network) (_ : Nat) (s : Logger) : Option Logger := some s

/-- The body is empty. -/
def flashFlowToPost (_ : Format) (_ : Network) (_ : Nat) (s : Logger) : Option Logger := some s

/-- The three `ReadFlash*ToPost_Task` differ in the functions they call. -/
def readFlashToPost (single batch : Nat → Logger → Option Logger) (net : Network) (s : Logger) :
    Option Logger :=
  if net.wifi then
    if s.rIndex < s.wIndex then
      let numPost := s.wIndex - s.rIndex
      if s.sd.cfgG.batch = 0 then
        single (if MAXPOST < numPost then MAXPOST else numPost) s
      else
        batch (if s.sd.cfgG.batch.toNat < numPost then s.sd.cfgG.batch.toNat else numPost) s
    else some s
  else some s

def ReadFlashMeterToPost_Task (fmt : Format) (net : Network) : Logger → Option Logger :=
  readFlashToPost (flashMeterToPost fmt net) (flashMeterToBatchPost fmt net) net

def ReadFlashSensorToPost_Task (fmt : Format) (net : Network) : Logger → Option Logger :=
  readFlashToPost (flashSensorToPost fmt net) (flashSensorToBatchPost fmt net) net

def ReadFlashFlowToPost_Task (fmt : Format) (net : Network) : Logger → Option Logger :=
  readFlashToPost (flashFlowToPost fmt net) (flashFlowToBatchPost fmt net) net

/-- The posting step of `loop`. -/
def postTask (fmt : Format) (net : Network) (s : Logger) : Option Logger :=
  match s.sd.cfgG.type with
  | 1 => s.ReadFlashMeterToPost_Task fmt net
  | 2 => s.ReadFlashSensorToPost_Task fmt net
  | 3 => s.ReadFlashFlowToPost_Task fmt net
  | _ => some s

/-! ### The server -/

/-- The answer 2 of the server. -/
def resetIndex (s : Logger) : Logger :=
  ({ s with wIndex := 0, rIndex := 0, commits := [] }.setWIndex).setRIndex

/-- `serverChkTask`, with the status and `root["restart"]` of the answer; the
flag says that it ends in `ESP.restart`. -/
def serverChkTask (wifi : Bool) (httpCode : UInt16) (restart : UInt8) (s : Logger) :
    Bool × Logger :=
  if wifi then
    if httpCode ≠ 200 then (false, s)
    else if restart = 1 then (true, s)
    else if restart = 2 then (true, s.resetIndex)
    else (false, s)
  else (false, s)

end Logger

end EnresLogger
