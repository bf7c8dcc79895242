import EnresLogger.Lib.Bytes
import EnresLogger.SDConfig
import EnresLogger.SPIFlashMeter

/-!
# The configuration in the flash

`setup` keeps the text of `/config` in the first sector of the chip, and parses
what it finds there when the SD card cannot be read.

`toCharArray` takes the size of the buffer and keeps one byte of it for its NUL.
`writeConfigFlash` gives it the length of the text, so the last character does
not fit: `toCharArray_length`.  The pages behind that store what the buffer
holds (`writeConfigFlash_pages`), and `readConfigFlash_stored` is what comes back.
A text is a list of bytes, and a stack array one of unknown bytes.
-/

namespace EnresLogger

open Lib

/-- `getBytes(buf, bufsize, index)` of the string `s`. -/
def getBytes {n : Nat} (s : List UInt8) (buf : Buf n) (bufsize index : Nat) : Option (Buf n) :=
  if bufsize = 0 then some buf
  else if s.length ≤ index then buf.put 0 [0]
  else do
    let k := min (bufsize - 1) (s.length - index)
    let buf ← buf.put 0 (strncpy (s.drop index) k)
    buf.put k [0]

def toCharArray {n : Nat} (s : List UInt8) (buf : Buf n) (bufsize : Nat) : Option (Buf n) :=
  getBytes s buf bufsize 0

namespace SPIFlash

def getAddress (page offset : Nat) : Nat := page * 256 + offset

/-- `writeCharArray(page, offset, data, size, true)` -/
def writeCharArray (f : SPIFlash) (o : ProgOutcome) (page offset : Nat) (data : List UInt8) :
    Bool × SPIFlash :=
  f.writeByteArray o (getAddress page offset) data

end SPIFlash

/-- What one `writeConfigFlash` or `readConfigFlash` meets: the stack array, what
the chip makes of the erase and of each page, and whether it refuses to be read. -/
structure ConfigOutcome where
  stack : Buf 4096
  erase : EraseOutcome
  page : Nat → ProgOutcome
  busy : Bool

def ConfigOutcome.healthy (stack : Buf 4096) : ConfigOutcome :=
  ⟨stack, .done, fun _ => .healthy, false⟩

namespace SPIFlashMeter

def pageSize : Nat := 256
def configSize : Nat := 4096
def configAddress : Nat := 0

/-- `none` when `buff` is left.  A text with more than 255 pages leaves it before
the counter, a `uint8_t`, would wrap. -/
def writeConfigFlash (m : SPIFlashMeter) (o : ConfigOutcome) (config : List UInt8) :
    Option (Bool × SPIFlashMeter) := do
  let flash := (m.flash.eraseSector o.erase configAddress).2
  let buff ← toCharArray config o.stack config.length
  let flash ← forLoop (config.length / pageSize + 1) (fun i flash => do
    let data ← buff.get (i * pageSize) pageSize
    return (flash.writeCharArray (o.page i) i 0 data).2) flash
  return (true, { m with flash })

/-- `none` when the array has no NUL. -/
def readConfigFlash (m : SPIFlashMeter) (o : ConfigOutcome) : Option (List UInt8) :=
  cString (m.flash.readByteArray o.busy 0 configSize o.stack.bytes).2

end SPIFlashMeter

/-- The characters of a text. -/
def text (config : List UInt8) : String :=
  String.ofList (config.map fun b => Char.ofNat b.toNat)

/-- The configuration part of `setup`, on the text of `/config` if there is one. -/
def setupConfig (parseObject : String → JsonObject) (o : ConfigOutcome)
    (card : Option (List UInt8)) (m : SPIFlashMeter) (cfg : SDConfig) :
    Option (SPIFlashMeter × SDConfig) :=
  match card with
  | some config => do
      let (_, cfg) ← cfg.phaseConfig parseObject (text config)
      let (_, m) ← m.writeConfigFlash o config
      return (m, cfg)
  | none => do
      let config ← m.readConfigFlash o
      let (_, cfg) ← cfg.phaseConfig parseObject (text config)
      return (m, cfg)

/-! ### What is stored -/

/-- **One character is missing.**  A size that is the length leaves no room for
the NUL. -/
theorem toCharArray_length {n : Nat} {c : List UInt8} (hpos : 0 < c.length) (hlen : c.length ≤ n)
    (h0 : 0 ∉ c) (stack : Buf n) :
    ∃ buff, toCharArray c stack c.length = some buff ∧ buff.Begins (c.dropLast ++ [0]) := by
  have hk : min (c.length - 1) (c.length - 0) = c.dropLast.length := by
    rw [List.length_dropLast]
    omega
  have hcopy : strncpy (c.drop 0) c.dropLast.length = c.dropLast := by
    rw [List.drop_zero, strncpy_eq_take h0 (by rw [List.length_dropLast]; omega),
      List.length_dropLast, List.dropLast_eq_take]
  have hroom : c.dropLast.length + [0].length ≤ n := by
    rw [List.length_dropLast, List.length_singleton]
    omega
  have hempty : stack.Begins [] := List.nil_prefix
  obtain ⟨b1, h1, hb1⟩ := hempty.put c.dropLast (by rw [List.length_nil]; omega)
  rw [List.nil_append] at hb1
  obtain ⟨b2, h2, hb2⟩ := hb1.put [0] hroom
  refine ⟨b2, ?_, hb2⟩
  rw [toCharArray, getBytes, if_neg (by omega), if_neg (by omega)]
  simp only [hk, hcopy, Option.bind_eq_bind]
  rw [show (0 : Nat) = ([] : List UInt8).length from rfl, h1, Option.bind_some, h2]

namespace SPIFlashMeter

variable {m : SPIFlashMeter}

/-- The first `i` pages hold the beginning of the buffer, the rest of the sector
is erased. -/
structure Paged (capacity : Nat) (buff : Buf 4096) (i : Nat) (f : SPIFlash) : Prop where
  capacity : f.capacity = capacity
  stored : f.mem.read 0 (256 * i) = buff.bytes.take (256 * i)
  erased : f.mem.blank (256 * i) (4096 - 256 * i) = true

theorem Paged.write {capacity : Nat} {buff : Buf 4096} {i : Nat} {f : SPIFlash}
    (h : Paged capacity buff i f) (hcap : 4096 ≤ capacity) (hi : i < 16) :
    ∃ data, buff.get (i * pageSize) pageSize = some data ∧
      Paged capacity buff (i + 1) (f.writeCharArray .healthy i 0 data).2 := by
  have hsize := buff.size
  have hlen : ((buff.bytes.drop (256 * i)).take 256).length = 256 := by
    rw [List.length_take, List.length_drop]
    omega
  have hget : buff.get (i * pageSize) pageSize = some ((buff.bytes.drop (256 * i)).take 256) := by
    rw [pageSize, Nat.mul_comm]
    exact if_pos (by omega)
  refine ⟨_, hget, ?_⟩
  generalize hdata : (buff.bytes.drop (256 * i)).take 256 = data at hlen ⊢
  have haddr : SPIFlash.getAddress i 0 = 256 * i := by
    rw [SPIFlash.getAddress]
    omega
  have hrange : f.InRange (256 * i) data.length := by
    refine ⟨by omega, ?_, by omega⟩
    rw [h.capacity]
    omega
  have hblank : f.mem.blank (256 * i) data.length = true :=
    Mem.blank_mono h.erased (Nat.le_refl _) (by omega)
  rw [SPIFlash.writeCharArray, haddr, SPIFlash.writeByteArray_healthy hrange (by omega) hblank]
  refine ⟨h.capacity, ?_, ?_⟩
  · calc (f.mem.program (256 * i) data).read 0 (256 * (i + 1))
        = (f.mem.program (256 * i) data).read 0 (256 * i) ++
            (f.mem.program (256 * i) data).read (256 * i) data.length := by
          rw [Nat.mul_succ, Mem.read_append, Nat.zero_add, hlen]
      _ = f.mem.read 0 (256 * i) ++ data := by
          rw [Mem.read_program_disjoint (by omega), Mem.read_program_of_blank hblank]
      _ = buff.bytes.take (256 * (i + 1)) := by
          rw [h.stored, ← hdata, Nat.mul_succ, List.take_add]
  · refine (Mem.blank_congr ?_).trans
      (Mem.blank_mono h.erased (show 256 * i ≤ 256 * (i + 1) by omega)
        (show 256 * (i + 1) + (4096 - 256 * (i + 1)) ≤ _ by omega))
    exact Mem.read_program_disjoint (by omega)

/-- **What a write leaves**, when the text fits the buffer. -/
theorem writeConfigFlash_pages (hcap : 4096 ≤ m.flash.capacity) {c : List UInt8}
    (hlen : c.length ≤ 4095) {stack buff : Buf 4096}
    (hbuff : toCharArray c stack c.length = some buff) :
    ∃ m', m.writeConfigFlash (.healthy stack) c = some (true, m') ∧
      Paged m.flash.capacity buff (c.length / 256 + 1) m'.flash := by
  have hstart : Paged m.flash.capacity buff 0 (m.flash.eraseSector .done configAddress).2 := by
    refine ⟨rfl, by simp, ?_⟩
    exact Mem.blank_erase (show SPIFlash.busAddress 0 / 4096 * 4096 ≤ 256 * 0 by decide)
      (show 256 * 0 + (4096 - 256 * 0) ≤ SPIFlash.busAddress 0 / 4096 * 4096 + 4096 by decide)
  obtain ⟨f, hf, hpaged⟩ := forLoop_spec (n := c.length / 256 + 1)
    (f := fun i (flash : SPIFlash) => do
      let data ← buff.get (i * pageSize) pageSize
      return (flash.writeCharArray .healthy i 0 data).2)
    (Paged m.flash.capacity buff) hstart (by
      intro i f hi hpaged
      obtain ⟨data, hdata, hnext⟩ := hpaged.write hcap (by omega)
      exact ⟨_, by rw [hdata]; rfl, hnext⟩)
  refine ⟨{ m with flash := f }, ?_, hpaged⟩
  rw [writeConfigFlash]
  simp only [ConfigOutcome.healthy, hbuff, Option.bind_eq_bind, Option.bind_some]
  simp only [Option.bind_eq_bind] at hf
  rw [show c.length / pageSize = c.length / 256 from rfl, hf]
  rfl

/-- **What comes back is the text without its last character.** -/
theorem readConfigFlash_stored (hcap : 4096 ≤ m.flash.capacity) {c : List UInt8}
    (hpos : 0 < c.length) (hlen : c.length ≤ 4095) (h0 : 0 ∉ c) (stack stack' : Buf 4096) :
    ∃ m', m.writeConfigFlash (.healthy stack) c = some (true, m') ∧
      m'.readConfigFlash (.healthy stack') = some c.dropLast := by
  obtain ⟨buff, hbuff, hbegins⟩ := toCharArray_length hpos (by omega) h0 stack
  obtain ⟨m', hwrite, hpaged⟩ := writeConfigFlash_pages hcap hlen hbuff
  refine ⟨m', hwrite, ?_⟩
  have hrange : m'.flash.InRange 0 configSize := by
    refine ⟨by decide, ?_, by decide⟩
    rw [hpaged.capacity, configSize]
    omega
  -- the pages written reach past the NUL
  have hprefix : c.dropLast ++ [0] <+: buff.bytes.take (256 * (c.length / 256 + 1)) := by
    refine List.prefix_take_iff.mpr ⟨hbegins, ?_⟩
    rw [List.length_append, List.length_dropLast, List.length_singleton]
    omega
  obtain ⟨rest, hrest⟩ := hprefix
  have hread : m'.flash.mem.read 0 configSize = c.dropLast ++ 0 :: (rest ++
      m'.flash.mem.read (0 + 256 * (c.length / 256 + 1))
        (4096 - 256 * (c.length / 256 + 1))) := by
    rw [show configSize = 256 * (c.length / 256 + 1) + (4096 - 256 * (c.length / 256 + 1)) by
      rw [configSize]; omega, Mem.read_append, hpaged.stored, ← hrest]
    simp only [List.append_assoc, List.nil_append, List.cons_append]
  simp only [readConfigFlash, ConfigOutcome.healthy]
  rw [SPIFlash.readByteArray_eq hrange (by decide) stack'.size, if_neg Bool.false_ne_true, hread]
  exact cString_append (fun hmem => h0 (List.dropLast_subset c hmem))

end SPIFlashMeter

/-! ### Two boots -/

theorem setupConfig_card {parseObject : String → JsonObject} {o : ConfigOutcome}
    {c : List UInt8} {m m' : SPIFlashMeter} {cfg cfg' : SDConfig}
    (h : setupConfig parseObject o (some c) m cfg = some (m', cfg')) :
    m.writeConfigFlash o c = some (true, m') ∧
      ∃ ok, cfg.phaseConfig parseObject (text c) = some (ok, cfg') := by
  simp only [setupConfig] at h
  obtain ⟨⟨ok, cfg1⟩, hparse, h⟩ := Option.bind_eq_some_iff.mp h
  obtain ⟨⟨ok', m1⟩, hwrite, h⟩ := Option.bind_eq_some_iff.mp h
  cases h
  refine ⟨?_, ok, hparse⟩
  obtain ⟨buff, hbuff, hrest⟩ := Option.bind_eq_some_iff.mp hwrite
  obtain ⟨flash, hflash, hok⟩ := Option.bind_eq_some_iff.mp hrest
  cases hok
  exact hwrite

theorem setupConfig_of_card {parseObject : String → JsonObject} {o : ConfigOutcome}
    {c : List UInt8} {m m' : SPIFlashMeter} {cfg cfg' : SDConfig} {ok : Bool}
    (hparse : cfg.phaseConfig parseObject (text c) = some (ok, cfg'))
    (hwrite : m.writeConfigFlash o c = some (true, m')) :
    setupConfig parseObject o (some c) m cfg = some (m', cfg') := by
  simp only [setupConfig, hparse, hwrite, Option.bind_eq_bind, Option.bind_some, Option.pure_def]

theorem setupConfig_flash {parseObject : String → JsonObject} {o : ConfigOutcome}
    {c : List UInt8} {m : SPIFlashMeter} (hread : m.readConfigFlash o = some c) (cfg : SDConfig) :
    setupConfig parseObject o none m cfg =
      (cfg.phaseConfig parseObject (text c)).map fun r => (m, r.2) := by
  simp only [setupConfig, hread, Option.bind_eq_bind, Option.bind_some, Option.pure_def]
  cases cfg.phaseConfig parseObject (text c) <;> rfl

theorem dropLast_ne {c : List UInt8} (hpos : 0 < c.length) : c.dropLast ≠ c := by
  intro heq
  have := congrArg List.length heq
  rw [List.length_dropLast] at this
  omega

/-- **No text comes back.**  On a chip that works the text read is the one written
without its last character, and that is what a boot without the card parses. -/
theorem config_never_kept {m : SPIFlashMeter} (hcap : 4096 ≤ m.flash.capacity) {c : List UInt8}
    (hpos : 0 < c.length) (hlen : c.length ≤ 4095) (h0 : 0 ∉ c) (stack stack' : Buf 4096) :
    (∃ m', m.writeConfigFlash (.healthy stack) c = some (true, m') ∧
      m'.readConfigFlash (.healthy stack') = some c.dropLast ∧
      m'.readConfigFlash (.healthy stack') ≠ some c) ∧
    ∀ parseObject cfg₀ cfg₁ m',
      setupConfig parseObject (.healthy stack) (some c) m cfg₀ = some (m', cfg₁) →
      (∃ ok, cfg₀.phaseConfig parseObject (text c) = some (ok, cfg₁)) ∧
      setupConfig parseObject (.healthy stack') none m' cfg₀ =
        (cfg₀.phaseConfig parseObject (text c.dropLast)).map fun r => (m', r.2) := by
  obtain ⟨m₁, hwrite, hread⟩ := SPIFlashMeter.readConfigFlash_stored hcap hpos hlen h0 stack stack'
  refine ⟨⟨m₁, hwrite, hread, fun h => dropLast_ne hpos (Option.some.inj (hread.symm.trans h))⟩, ?_⟩
  intro parseObject cfg₀ cfg₁ m' hboot
  obtain ⟨hwrite', hparse⟩ := setupConfig_card hboot
  cases hwrite.symm.trans hwrite'
  exact ⟨hparse, setupConfig_flash hread cfg₀⟩

/-- `{"global":{"meters":1}}` -/
def oneMeter : List UInt8 :=
  [0x7b, 0x22, 0x67, 0x6c, 0x6f, 0x62, 0x61, 0x6c, 0x22, 0x3a, 0x7b, 0x22, 0x6d, 0x65, 0x74,
    0x65, 0x72, 0x73, 0x22, 0x3a, 0x31, 0x7d, 0x7d]

/-- What the JSON library makes of that text; any other one is refused, and
nothing is found in it. -/
def parseOneMeter (config : String) : JsonObject where
  u8 path := if config = text oneMeter ∧ path = [.name "global", .name "meters"] then 1 else 0
  u16 _ := 0
  u32 _ := 0
  float _ := 0
  str _ := ""

/-- A chip of 4 MiB. -/
def newChip : SPIFlashMeter := .begin (blankChip 4194304) 64

theorem config_never_kept_first :
    (∃ m', newChip.writeConfigFlash (.healthy (.replicate _ 0)) oneMeter = some (true, m') ∧
      m'.readConfigFlash (.healthy (.replicate _ 0)) = some oneMeter.dropLast ∧
      m'.readConfigFlash (.healthy (.replicate _ 0)) ≠ some oneMeter) ∧
    ∀ parseObject cfg₀ cfg₁ m',
      setupConfig parseObject (.healthy (.replicate _ 0)) (some oneMeter) newChip cfg₀ =
        some (m', cfg₁) →
      (∃ ok, cfg₀.phaseConfig parseObject (text oneMeter) = some (ok, cfg₁)) ∧
      setupConfig parseObject (.healthy (.replicate _ 0)) none m' cfg₀ =
        (cfg₀.phaseConfig parseObject (text oneMeter.dropLast)).map fun r => (m', r.2) :=
  config_never_kept (show 4096 ≤ 4194304 by decide) (by decide) (by decide) (by decide) _ _

theorem parseOneMeter_meters (config : String) :
    (SDConfig.phaseGlobal (parseOneMeter config)).numMeter =
      if config = text oneMeter then 1 else 0 := by
  simp [SDConfig.phaseGlobal, parseOneMeter]

/-- The text read is not the one written: the boot with the card finds one meter
in it, the boot without the card none. -/
theorem not_config_kept :
    ∃ m' cfg₁ cfg₂,
      newChip.writeConfigFlash (.healthy (.replicate _ 0)) oneMeter = some (true, m') ∧
      m'.readConfigFlash (.healthy (.replicate _ 0)) ≠ some oneMeter ∧
      setupConfig parseOneMeter (.healthy (.replicate _ 0)) (some oneMeter) newChip
        (.plain 0 0 0) = some (m', cfg₁) ∧
      setupConfig parseOneMeter (.healthy (.replicate _ 0)) none m' (.plain 0 0 0) =
        some (m', cfg₂) ∧
      cfg₁.cfgG.numMeter = 1 ∧ cfg₂.cfgG.numMeter = 0 := by
  have hone : (SDConfig.phaseGlobal (parseOneMeter (text oneMeter))).numMeter = 1 :=
    (parseOneMeter_meters _).trans (if_pos rfl)
  have hzero : (SDConfig.phaseGlobal (parseOneMeter (text oneMeter.dropLast))).numMeter = 0 := by
    refine (parseOneMeter_meters _).trans (if_neg (fun h => ?_))
    have hchars := String.ofList_injective h
    revert hchars
    decide
  obtain ⟨m', hwrite, hread⟩ := SPIFlashMeter.readConfigFlash_stored (m := newChip)
    (show 4096 ≤ 4194304 by decide) (c := oneMeter) (by decide) (by decide) (by decide)
    (.replicate _ 0) (.replicate _ 0)
  obtain ⟨⟨ok₁, cfg₁⟩, h₁⟩ := Option.isSome_iff_exists.mp
    ((SDConfig.phaseConfig_isSome parseOneMeter (.plain 0 0 0) (text oneMeter)).mpr
      (by rw [hone]; decide))
  obtain ⟨⟨ok₂, cfg₂⟩, h₂⟩ := Option.isSome_iff_exists.mp
    ((SDConfig.phaseConfig_isSome parseOneMeter (.plain 0 0 0) (text oneMeter.dropLast)).mpr
      (by rw [hzero]; decide))
  refine ⟨m', cfg₁, cfg₂, hwrite, ?_, setupConfig_of_card h₁ hwrite, ?_, ?_, ?_⟩
  · rw [hread]
    exact fun h => dropLast_ne (c := oneMeter) (by decide) (Option.some.inj h)
  · rw [setupConfig_flash hread, h₂]
    rfl
  · rw [SDConfig.phaseConfig_cfgG h₁, hone]
  · rw [SDConfig.phaseConfig_cfgG h₂, hzero]

end EnresLogger
