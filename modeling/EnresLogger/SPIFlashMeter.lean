import EnresLogger.SPIFlash
import EnresLogger.Lib.Ring

/-!
# The record ring

`SPIFlashMeter.cpp` keeps records of `_recordSize` bytes in the flash from
`_reserveSize` on.  The record of index `k` lies at location `k % _maxRecord`.
`writeRecords` and `readRecords` are the bodies that the meter, sensor and flow
functions share word for word.

`Mounted` is what `begin(64)` leaves on a chip whose size is a multiple of a
sector and is reached by three address bytes: the ring is a whole number of
sectors.  On a mounted ring

* `writeRecords_effect`: a write of `n` records at `index` sends commands only
  to locations of indices from `index` up to the end of the sector of the last
  record;
* `writeRecords_cell`: if it reports success, each record is in its location;
* `readRecords_eq`: a read that reports success returns the cells of the
  locations read, as long as each of its one or two parts is below `2^16` bytes.
-/

namespace EnresLogger

open Lib

structure SPIFlashMeter where
  flash : SPIFlash
  recordSize : Nat
  maxRecord : Nat

/-- What the chip makes of one `write*Data`: of the erase for record `i`, of the
program, and of the program of the second part when the ring end splits it. -/
structure WriteOutcome where
  erase : Nat → EraseOutcome
  first : ProgOutcome
  second : ProgOutcome

def WriteOutcome.healthy : WriteOutcome := ⟨fun _ => .done, .healthy, .healthy⟩

def WriteOutcome.dead : WriteOutcome := ⟨fun _ => .busy, .dead, .dead⟩

/-- The three record kinds share the ring. -/
inductive Kind
  | meter
  | sensor
  | flow
  deriving DecidableEq, Repr

namespace SPIFlashMeter

def sectorSize : Nat := 4096
def reserveSize : Nat := 8192

/-- `begin(recordSize, debug)` once the chip has answered. -/
def begin (flash : SPIFlash) (recordSize : Nat) : SPIFlashMeter :=
  { flash, recordSize
    maxRecord := (flash.capacity + 4294967296 - reserveSize) % 4294967296 / recordSize }

/-- `(index%_maxRecord)*_recordSize + _reserveSize` -/
def recordAddress (m : SPIFlashMeter) (index : Nat) : Nat :=
  (index % m.maxRecord * m.recordSize + reserveSize) % 4294967296

/-- The erase loop: the sector of every record that is the first of one. -/
def eraseLoop (m : SPIFlashMeter) (o : Nat → EraseOutcome) (index numRec : Nat) : SPIFlash :=
  (List.range numRec).foldl (fun f i =>
    if (index + i) % 4294967296 % (sectorSize / m.recordSize) = 0 then
      (f.eraseSector (o i) (m.recordAddress ((index + i) % 4294967296))).2
    else f) m.flash

/-- The number of bytes up to the ring end, when the records go past it. -/
def splitAt (m : SPIFlashMeter) (index size : Nat) : Option Nat :=
  if index % m.maxRecord < m.maxRecord ∧
      m.maxRecord < (index % m.maxRecord + size / m.recordSize) % 4294967296 then
    some ((m.maxRecord - index % m.maxRecord) * m.recordSize % 4294967296)
  else none

def writeRecords (m : SPIFlashMeter) (o : WriteOutcome) (index : Nat) (buff : List UInt8) :
    Bool × SPIFlashMeter :=
  let addr := m.recordAddress index
  let flash := m.eraseLoop o.erase index (buff.length / m.recordSize % 256)
  match m.splitAt index buff.length with
  | some k =>
      let r := flash.writeByteArray o.first addr (buff.take k)
      let r' := r.2.writeByteArray o.second reserveSize (buff.drop k)
      (r.1 && r'.1, { m with flash := r'.2 })
  | none =>
      let r := flash.writeByteArray o.first addr buff
      (r.1, { m with flash := r.2 })

/-- Into a buffer `out` of the size asked for.  `busy` says which of the two
reads the chip refuses. -/
def readRecords (m : SPIFlashMeter) (busy : Bool × Bool) (index : Nat) (out : List UInt8) :
    Bool × List UInt8 :=
  let addr := m.recordAddress index
  match m.splitAt index out.length with
  | some k =>
      let r := m.flash.readByteArray busy.1 addr k (out.take k)
      let r' := m.flash.readByteArray busy.2 reserveSize (out.length - k) (out.drop k)
      (r.1 && r'.1, r.2 ++ r'.2)
  | none => m.flash.readByteArray busy.1 addr out.length out

def writeMeterData := writeRecords
def readMeterData := readRecords
def writeSensorData := writeRecords
def readSensorData := readRecords
def writeFlowData := writeRecords
def readFlowData := readRecords

def writeData : Kind → SPIFlashMeter → WriteOutcome → Nat → List UInt8 → Bool × SPIFlashMeter
  | .meter => writeMeterData
  | .sensor => writeSensorData
  | .flow => writeFlowData

def readData : Kind → SPIFlashMeter → Bool × Bool → Nat → List UInt8 → Bool × List UInt8
  | .meter => readMeterData
  | .sensor => readSensorData
  | .flow => readFlowData

theorem writeData_eq (k : Kind) : writeData k = writeRecords := by cases k <;> rfl

theorem readData_eq (k : Kind) : readData k = readRecords := by cases k <;> rfl

/-! ### A mounted ring -/

/-- The address of a location. -/
def loc (p : Nat) : Nat := 8192 + 64 * p

/-- The 64 bytes at a location. -/
def cell (m : SPIFlashMeter) (p : Nat) : List UInt8 := m.flash.mem.read (loc p) 64

structure Mounted (m : SPIFlashMeter) : Prop where
  recordSize : m.recordSize = 64
  capacity : m.flash.capacity = 8192 + 64 * m.maxRecord
  sectors : 64 ∣ m.maxRecord
  pos : 0 < m.maxRecord
  bus : m.flash.capacity ≤ 16777216

/-- **A ring of whole sectors.**  The chip may have any size that is a multiple
of a sector, as long as three address bytes reach it. -/
theorem mounted_begin {f : SPIFlash} (h1 : 4096 ∣ f.capacity) (h2 : 8192 < f.capacity)
    (h3 : f.capacity ≤ 16777216) : Mounted (begin f 64) := by
  have hmax : (begin f 64).maxRecord = (f.capacity - 8192) / 64 := by
    simp only [begin, reserveSize]
    omega
  have hcap : (begin f 64).flash.capacity = f.capacity := rfl
  refine ⟨rfl, ?_, ?_, ?_, h3⟩
  · rw [hmax, hcap]
    omega
  · rw [hmax]
    omega
  · rw [hmax]
    omega

section Mounted

variable {m : SPIFlashMeter} (hm : m.Mounted)
include hm

theorem Mounted.le_max : 64 ≤ m.maxRecord := Nat.le_of_dvd hm.pos hm.sectors

theorem Mounted.max_lt : m.maxRecord < 262144 := by
  have h1 := hm.capacity
  have h2 := hm.bus
  omega

theorem Mounted.mod_lt (index : Nat) : index % m.maxRecord < m.maxRecord :=
  Nat.mod_lt _ hm.pos

theorem Mounted.recordAddress (index : Nat) : m.recordAddress index = loc (index % m.maxRecord) := by
  have h1 := hm.mod_lt index
  have h2 := hm.max_lt
  rw [SPIFlashMeter.recordAddress, hm.recordSize, loc, reserveSize]
  omega

/-- The record of an index that starts a sector starts a sector of the chip. -/
theorem Mounted.mod_sector (index : Nat) : index % m.maxRecord % 64 = index % 64 :=
  Nat.mod_mod_of_dvd _ hm.sectors

theorem Mounted.splitAt {index n : Nat} (hn : n ≤ 2097152) :
    m.splitAt index (64 * n) =
      if m.maxRecord < index % m.maxRecord + n then
        some (64 * (m.maxRecord - index % m.maxRecord)) else none := by
  have h1 := hm.mod_lt index
  have h2 := hm.max_lt
  rw [SPIFlashMeter.splitAt, hm.recordSize, Nat.mul_div_cancel_left n (by omega)]
  by_cases h : m.maxRecord < index % m.maxRecord + n
  · rw [if_pos h, if_pos (by omega)]
    congr 1
    omega
  · rw [if_neg h, if_neg (by omega)]

end Mounted

/-! ### Windows -/

/-- Every byte the command covers lies in the location of an index from `a` up
to `b`. -/
def InWindow (max a b : Nat) (c : Cmd) : Prop :=
  ∀ x, c.Covers x → ∃ j, a ≤ j ∧ j < b ∧ loc (j % max) ≤ x ∧ x < loc (j % max) + 64

theorem inWindow_of_range {max a b s n : Nat} {c : Cmd} (ha : a ≤ s) (hb : s + n ≤ b)
    (hn : s % max + n ≤ max)
    (hc : ∀ x, c.Covers x → loc (s % max) ≤ x ∧ x < loc (s % max) + 64 * n) :
    InWindow max a b c := by
  intro x hx
  obtain ⟨h1, h2⟩ := hc x hx
  simp only [loc] at h1 h2
  have hk : (x - loc (s % max)) / 64 < n := by
    simp only [loc]
    omega
  refine ⟨s + (x - loc (s % max)) / 64, by omega, by omega, ?_⟩
  rw [ring_add (by omega)]
  simp only [loc]
  omega

theorem InWindow.mono {max a b a' b' : Nat} {c : Cmd} (h : InWindow max a b c) (ha : a' ≤ a)
    (hb : b ≤ b') : InWindow max a' b' c := by
  intro x hx
  obtain ⟨j, h1, h2, h3⟩ := h x hx
  exact ⟨j, by omega, by omega, h3⟩

/-- Commands in a window leave the location of an index outside it alone. -/
theorem InWindow.not_covers {max a b k x : Nat} {c : Cmd} (h : InWindow max a b c)
    (hk : ∀ j, a ≤ j → j < b → j % max ≠ k) (h1 : loc k ≤ x) (h2 : x < loc k + 64) :
    ¬ c.Covers x := by
  intro hc
  obtain ⟨j, hj1, hj2, hx1, hx2⟩ := h x hc
  have hne := hk j hj1 hj2
  simp only [loc] at h1 h2 hx1 hx2
  omega

section Write

variable {m : SPIFlashMeter} (hm : m.Mounted)
include hm

/-- The sector a sector start `s` erases begins at its own location. -/
theorem Mounted.erase_base {s : Nat} (hs : 64 ∣ s) :
    SPIFlash.busAddress (m.recordAddress s) / 4096 * 4096 = loc (s % m.maxRecord) := by
  have h1 := hm.mod_lt s
  have h2 := hm.mod_sector s
  have hcap := hm.capacity
  have hbus := hm.bus
  rw [hm.recordAddress, SPIFlash.busAddress, loc, Nat.mod_eq_of_lt (by omega)]
  omega

theorem Mounted.erase_inWindow {s b : Nat} (hs : 64 ∣ s) (hb : s + 64 ≤ b) :
    InWindow m.maxRecord s b
      (.erase (SPIFlash.busAddress (m.recordAddress s) / 4096 * 4096)) := by
  have h1 := hm.mod_lt s
  have h2 := hm.mod_sector s
  obtain ⟨q, hq⟩ := hm.sectors
  rw [hm.erase_base hs]
  refine inWindow_of_range (Nat.le_refl s) hb (by omega) (fun x hx => ?_)
  simp only [Cmd.Covers] at hx
  omega

/-- **The erase loop stays in the sectors that start in the batch.** -/
theorem Mounted.eraseLoop_effect (o : Nat → EraseOutcome) {index : Nat} (n : Nat)
    (hidx : index + n ≤ 4294967296) :
    ∃ new, SPIFlash.Effect m.flash (m.eraseLoop o index n) new ∧
      ∀ c ∈ new, InWindow m.maxRecord (ceilTo 64 index) (ceilTo 64 (index + n)) c := by
  induction n with
  | zero => exact ⟨[], .refl _, by simp⟩
  | succ n ih =>
    obtain ⟨new, hnew, hwin⟩ := ih (by omega)
    have hmono : ceilTo 64 (index + n) ≤ ceilTo 64 (index + (n + 1)) := ceilTo_mono (by omega)
    have hwin' : ∀ c ∈ new,
        InWindow m.maxRecord (ceilTo 64 index) (ceilTo 64 (index + (n + 1))) c :=
      fun c hc => (hwin c hc).mono (Nat.le_refl _) hmono
    rw [eraseLoop, List.range_succ, List.foldl_append, List.foldl_cons, List.foldl_nil,
      ← eraseLoop, hm.recordSize, Nat.mod_eq_of_lt (show index + n < 4294967296 by omega)]
    split
    · -- `index + n` starts a sector
      rename_i hstart
      have hdvd : 64 ∣ index + n := Nat.dvd_of_mod_eq_zero hstart
      have hbegin : ceilTo 64 index ≤ index + n := ceilTo_le (by omega) hdvd (by omega)
      have hend : index + n + 64 ≤ ceilTo 64 (index + (n + 1)) := by
        have h1 := le_ceilTo (show 0 < 64 by omega) (index + (n + 1))
        obtain ⟨q, hq⟩ := dvd_ceilTo 64 (index + (n + 1))
        obtain ⟨q', hq'⟩ := hdvd
        omega
      obtain ⟨new', hnew', hc'⟩ := SPIFlash.eraseSector_effect (m.eraseLoop o index n) (o n)
        (m.recordAddress (index + n))
      refine ⟨new' ++ new, hnew.trans hnew', fun c hc => ?_⟩
      rcases List.mem_append.mp hc with h | h
      · rw [hc' c h]
        exact (hm.erase_inWindow hdvd hend).mono hbegin (Nat.le_refl _)
      · exact hwin' c h
    · exact ⟨new, hnew, hwin'⟩

/-- An erase loop that is not held up erases the sector of every sector start. -/
theorem Mounted.eraseLoop_sends {o : Nat → EraseOutcome} (ho : ∀ i, o i ≠ .busy)
    {index n i : Nat} (hidx : index + n ≤ 4294967296) (hi : i < n) (hs : 64 ∣ index + i) :
    ∃ new, SPIFlash.Effect m.flash (m.eraseLoop o index n) new ∧
      .erase (loc ((index + i) % m.maxRecord)) ∈ new := by
  induction n with
  | zero => omega
  | succ n ih =>
    rw [eraseLoop, List.range_succ, List.foldl_append, List.foldl_cons, List.foldl_nil,
      ← eraseLoop, hm.recordSize, Nat.mod_eq_of_lt (show index + n < 4294967296 by omega)]
    have hsends := SPIFlash.eraseSector_sends (m.eraseLoop o index n) (ho n)
      (m.recordAddress (index + n))
    rcases Nat.lt_or_eq_of_le (Nat.le_of_lt_succ hi) with hin | rfl
    · obtain ⟨new, hnew, hmem⟩ := ih (by omega) hin
      split
      · exact ⟨_, hnew.trans hsends, List.mem_append_right _ hmem⟩
      · exact ⟨new, hnew, hmem⟩
    · obtain ⟨new, hnew, _⟩ := hm.eraseLoop_effect o i (show index + i ≤ 4294967296 by omega)
      rw [if_pos (show (index + i) % (sectorSize / 64) = 0 from Nat.mod_eq_zero_of_dvd hs)]
      refine ⟨_, hnew.trans hsends, List.mem_append_left _ ?_⟩
      rw [hm.erase_base hs]
      exact List.mem_singleton.mpr rfl

omit hm in
theorem eraseLoop_capacity (o : Nat → EraseOutcome) (index n : Nat) :
    (m.eraseLoop o index n).capacity = m.flash.capacity := by
  rw [eraseLoop]
  induction n with
  | zero => rfl
  | succ n ih =>
    rw [List.range_succ, List.foldl_append, List.foldl_cons, List.foldl_nil]
    split
    · obtain ⟨_, h, _⟩ := SPIFlash.eraseSector_effect ((List.range n).foldl _ m.flash) (o n)
        (m.recordAddress ((index + n) % 4294967296))
      rw [h.capacity, ih]
    · exact ih

theorem Mounted.writeRecords_whole {o : WriteOutcome} {index n : Nat} {buff : List UInt8}
    (hlen : buff.length = 64 * n) (hn : n < 256) (hend : index % m.maxRecord + n ≤ m.maxRecord) :
    m.writeRecords o index buff =
      let r := (m.eraseLoop o.erase index n).writeByteArray o.first (loc (index % m.maxRecord)) buff
      (r.1, { m with flash := r.2 }) := by
  have hnum : buff.length / m.recordSize % 256 = n := by
    rw [hlen, hm.recordSize]
    omega
  rw [writeRecords, hnum, hm.recordAddress, hlen, hm.splitAt (by omega), if_neg (by omega)]

theorem Mounted.writeRecords_split {o : WriteOutcome} {index n : Nat} {buff : List UInt8}
    (hlen : buff.length = 64 * n) (hn : n < 256) (hend : m.maxRecord < index % m.maxRecord + n) :
    m.writeRecords o index buff =
      let k := 64 * (m.maxRecord - index % m.maxRecord)
      let r := (m.eraseLoop o.erase index n).writeByteArray o.first
        (loc (index % m.maxRecord)) (buff.take k)
      let r' := r.2.writeByteArray o.second (loc 0) (buff.drop k)
      (r.1 && r'.1, { m with flash := r'.2 }) := by
  have hnum : buff.length / m.recordSize % 256 = n := by
    rw [hlen, hm.recordSize]
    omega
  rw [writeRecords, hnum, hm.recordAddress, hlen, hm.splitAt (by omega), if_pos hend]
  rfl

theorem Mounted.inRange {f : SPIFlash} (hf : f.capacity = m.flash.capacity) {p k : Nat}
    (hp : p < m.maxRecord) (hk : p + k ≤ m.maxRecord) : f.InRange (loc p) (64 * k) := by
  have h1 := hm.capacity
  have h2 := hm.bus
  refine ⟨?_, ?_, ?_⟩
  · rw [loc]
    omega
  · rw [hf, loc]
    omega
  · rw [loc]
    omega

theorem Mounted.program_effect (o : WriteOutcome) (index : Nat) {n : Nat} {buff : List UInt8}
    (hlen : buff.length = 64 * n) (hn : n ≤ 64) :
    ∃ new, SPIFlash.Effect (m.eraseLoop o.erase index n)
        (m.writeRecords o index buff).2.flash new ∧
      ∀ c ∈ new, InWindow m.maxRecord index (index + n) c := by
  have h1 := hm.mod_lt index
  have h2 := hm.le_max
  have hcap := eraseLoop_capacity (m := m) o.erase index n
  by_cases hend : index % m.maxRecord + n ≤ m.maxRecord
  · -- one program, at the location of `index`
    rw [hm.writeRecords_whole hlen (by omega) hend]
    have hr := hm.inRange hcap h1 hend
    rw [← hlen] at hr
    obtain ⟨new, hnew, hc⟩ := SPIFlash.writeByteArray_effect (o := o.first) hr (by omega)
    refine ⟨new, hnew, fun c h => ?_⟩
    rw [hc c h]
    refine inWindow_of_range (Nat.le_refl index) (Nat.le_refl _) hend (fun x hx => ?_)
    simp only [Cmd.Covers, hlen] at hx
    exact hx
  · -- two programs: up to the ring end, and from location 0 on
    rw [hm.writeRecords_split hlen (by omega) (by omega)]
    have hk : (buff.take (64 * (m.maxRecord - index % m.maxRecord))).length =
        64 * (m.maxRecord - index % m.maxRecord) := by
      rw [List.length_take, hlen]
      omega
    have hk' : (buff.drop (64 * (m.maxRecord - index % m.maxRecord))).length =
        64 * (index % m.maxRecord + n - m.maxRecord) := by
      rw [List.length_drop, hlen]
      omega
    have hr := hm.inRange hcap h1
      (show index % m.maxRecord + (m.maxRecord - index % m.maxRecord) ≤ m.maxRecord by omega)
    rw [← hk] at hr
    obtain ⟨new1, hnew1, hc1⟩ := SPIFlash.writeByteArray_effect (o := o.first) hr (by omega)
    have hr' := hm.inRange (hnew1.capacity.trans hcap) (show 0 < m.maxRecord by omega)
      (show 0 + (index % m.maxRecord + n - m.maxRecord) ≤ m.maxRecord by omega)
    rw [← hk'] at hr'
    obtain ⟨new2, hnew2, hc2⟩ := SPIFlash.writeByteArray_effect (o := o.second) hr' (by omega)
    refine ⟨new2 ++ new1, hnew1.trans hnew2, fun c h => ?_⟩
    rcases List.mem_append.mp h with h | h
    · rw [hc2 c h]
      have hzero : (index + (m.maxRecord - index % m.maxRecord)) % m.maxRecord = 0 := by
        rw [ring_add_wrap (by omega) (by omega)]
        omega
      refine inWindow_of_range (s := index + (m.maxRecord - index % m.maxRecord))
        (n := index % m.maxRecord + n - m.maxRecord) (by omega) (by omega)
        (by rw [hzero]; omega) (fun x hx => ?_)
      simp only [Cmd.Covers, hk'] at hx
      rw [hzero]
      exact hx
    · rw [hc1 c h]
      refine inWindow_of_range (n := m.maxRecord - index % m.maxRecord) (Nat.le_refl index)
        (by omega) (by omega) (fun x hx => ?_)
      simp only [Cmd.Covers, hk] at hx
      exact hx

/-- **A write disturbs only the window up to the end of its last sector.** -/
theorem Mounted.writeRecords_effect (o : WriteOutcome) {index n : Nat} {buff : List UInt8}
    (hlen : buff.length = 64 * n) (hn : n ≤ 64) (hidx : index + n ≤ 4294967296) :
    ∃ new, SPIFlash.Effect m.flash (m.writeRecords o index buff).2.flash new ∧
      ∀ c ∈ new, InWindow m.maxRecord index (ceilTo 64 (index + n)) c := by
  obtain ⟨new, hnew, hwin⟩ := hm.eraseLoop_effect o.erase n hidx
  obtain ⟨new', hnew', hwin'⟩ := hm.program_effect o index hlen hn
  refine ⟨new' ++ new, hnew.trans hnew', fun c hc => ?_⟩
  rcases List.mem_append.mp hc with h | h
  · exact (hwin' c h).mono (Nat.le_refl _) (le_ceilTo (by omega) _)
  · exact (hwin c h).mono (le_ceilTo (by omega) _) (Nat.le_refl _)

omit hm in
@[simp] theorem writeRecords_maxRecord (m : SPIFlashMeter) (o : WriteOutcome) (index : Nat)
    (buff : List UInt8) : (m.writeRecords o index buff).2.maxRecord = m.maxRecord := by
  rw [writeRecords]
  split <;> rfl

theorem Mounted.writeRecords_mounted (o : WriteOutcome) {index n : Nat} {buff : List UInt8}
    (hlen : buff.length = 64 * n) (hn : n ≤ 64) (hidx : index + n ≤ 4294967296) :
    (m.writeRecords o index buff).2.Mounted := by
  obtain ⟨new, h, _⟩ := hm.writeRecords_effect o hlen hn hidx
  have hsize : (m.writeRecords o index buff).2.recordSize = m.recordSize := by
    rw [writeRecords]
    split <;> rfl
  refine ⟨hsize.trans hm.recordSize, ?_, ?_, ?_, ?_⟩
  · rw [h.capacity, writeRecords_maxRecord, hm.capacity]
  · rw [writeRecords_maxRecord]
    exact hm.sectors
  · rw [writeRecords_maxRecord]
    exact hm.pos
  · rw [h.capacity]
    exact hm.bus

/-- A location outside the window keeps its record. -/
theorem Mounted.writeRecords_frame (o : WriteOutcome) {index n k : Nat} {buff : List UInt8}
    (hlen : buff.length = 64 * n) (hn : n ≤ 64) (hidx : index + n ≤ 4294967296)
    (hk : ∀ j, index ≤ j → j < ceilTo 64 (index + n) → j % m.maxRecord ≠ k) :
    (m.writeRecords o index buff).2.cell k = m.cell k := by
  obtain ⟨new, h, hwin⟩ := hm.writeRecords_effect o hlen hn hidx
  exact h.read_eq (fun c hc x h1 h2 => (hwin c hc).not_covers hk h1 h2)

/-- **A write that reports success has stored every record.** -/
theorem Mounted.writeRecords_cell {o : WriteOutcome} {index n : Nat} {buff : List UInt8}
    (hlen : buff.length = 64 * n) (hn : n ≤ 64)
    (hok : (m.writeRecords o index buff).1 = true) {k : Nat} (hk : k < n) :
    (m.writeRecords o index buff).2.cell ((index + k) % m.maxRecord) =
      (buff.drop (64 * k)).take 64 := by
  have h1 := hm.mod_lt index
  have h2 := hm.le_max
  have hcap := eraseLoop_capacity (m := m) o.erase index n
  by_cases hend : index % m.maxRecord + n ≤ m.maxRecord
  · rw [hm.writeRecords_whole hlen (by omega) hend] at hok ⊢
    have hr := hm.inRange hcap h1 hend
    rw [← hlen] at hr
    have hread := SPIFlash.writeByteArray_read hr (by omega) hok
    have hloc : loc ((index + k) % m.maxRecord) = loc (index % m.maxRecord) + 64 * k := by
      rw [ring_add (by omega), loc, loc]
      omega
    rw [cell, hloc]
    exact Mem.read_drop_take hread (by omega)
  · rw [hm.writeRecords_split hlen (by omega) (by omega)] at hok ⊢
    simp only [Bool.and_eq_true] at hok
    obtain ⟨hok1, hok2⟩ := hok
    have hlen1 : (buff.take (64 * (m.maxRecord - index % m.maxRecord))).length =
        64 * (m.maxRecord - index % m.maxRecord) := by
      rw [List.length_take, hlen]
      omega
    have hlen2 : (buff.drop (64 * (m.maxRecord - index % m.maxRecord))).length =
        64 * (index % m.maxRecord + n - m.maxRecord) := by
      rw [List.length_drop, hlen]
      omega
    have hr := hm.inRange hcap h1
      (show index % m.maxRecord + (m.maxRecord - index % m.maxRecord) ≤ m.maxRecord by omega)
    rw [← hlen1] at hr
    obtain ⟨_, heff1, _⟩ := SPIFlash.writeByteArray_effect (o := o.first) hr (by omega)
    have hr' := hm.inRange (heff1.capacity.trans hcap) (show 0 < m.maxRecord by omega)
      (show 0 + (index % m.maxRecord + n - m.maxRecord) ≤ m.maxRecord by omega)
    rw [← hlen2] at hr'
    by_cases hlow : index % m.maxRecord + k < m.maxRecord
    · -- in the first part, which the second program does not cover
      obtain ⟨_, heff2, hc2⟩ := SPIFlash.writeByteArray_effect (o := o.second) hr' (by omega)
      have hread := SPIFlash.writeByteArray_read hr (by omega) hok1
      have hloc : loc ((index + k) % m.maxRecord) = loc (index % m.maxRecord) + 64 * k := by
        rw [ring_add hlow, loc, loc]
        omega
      rw [cell, hloc, heff2.read_eq (fun c hc x hx1 hx2 => ?_), Mem.read_drop_take hread (by omega),
        List.drop_take, List.take_take, Nat.min_eq_left (by omega)]
      rw [hc2 c hc]
      simp only [Cmd.Covers, hlen2, loc] at hx1 hx2 ⊢
      omega
    · -- in the second part
      have hread := SPIFlash.writeByteArray_read hr' (by omega) hok2
      have hloc : loc ((index + k) % m.maxRecord) =
          loc 0 + 64 * (index % m.maxRecord + k - m.maxRecord) := by
        rw [ring_add_wrap (by omega) (by omega), loc, loc]
      rw [cell, hloc, Mem.read_drop_take hread (by omega), List.drop_drop]
      congr 2
      omega

end Write

/-! ### Reading -/

/-- The cells of `n` consecutive indices, one after the other. -/
def cells (m : SPIFlashMeter) (index n : Nat) : List UInt8 :=
  ((List.range n).map fun i => m.cell ((index + i) % m.maxRecord)).flatten

theorem cells_succ (m : SPIFlashMeter) (index n : Nat) :
    m.cells index (n + 1) = m.cells index n ++ m.cell ((index + n) % m.maxRecord) := by
  simp [cells, List.range_succ]

theorem cells_add (m : SPIFlashMeter) (index n k : Nat) :
    m.cells index (n + k) = m.cells index n ++ m.cells (index + n) k := by
  induction k with
  | zero => simp [cells]
  | succ k ih =>
    rw [← Nat.add_assoc, cells_succ, ih, cells_succ, List.append_assoc, Nat.add_assoc]

theorem read_loc (m : SPIFlashMeter) (index : Nat) : ∀ {n : Nat},
    index % m.maxRecord + n ≤ m.maxRecord →
    m.flash.mem.read (loc (index % m.maxRecord)) (64 * n) = m.cells index n := by
  intro n
  induction n with
  | zero => intro _; rfl
  | succ n ih =>
    intro h
    have hloc : loc (index % m.maxRecord) + 64 * n = loc ((index + n) % m.maxRecord) := by
      rw [ring_add (by omega), loc, loc]
      omega
    rw [Nat.mul_succ, Mem.read_append, ih (by omega), hloc, cells_succ]
    rfl

/-- The one or two parts of a transfer of `n` records, in bytes, are each below
`2^16`, the range of `bufferSize`. -/
def PartsFit (max index n : Nat) : Prop :=
  if max < index % max + n then
    64 * (max - index % max) < 65536 ∧ 64 * (index % max + n - max) < 65536
  else 64 * n < 65536

theorem partsFit_of_lt {max index n : Nat} (hmax : 0 < max) (h : n < 1024) :
    PartsFit max index n := by
  have := Nat.mod_lt index hmax
  unfold PartsFit
  split <;> omega

/-- **A read that reports success returns the cells.** -/
theorem Mounted.readRecords_eq {m : SPIFlashMeter} (hm : m.Mounted) {busy : Bool × Bool}
    {index n : Nat} {out : List UInt8} (hout : out.length = 64 * n) (hn : n ≤ m.maxRecord)
    (hfit : PartsFit m.maxRecord index n) (hok : (m.readRecords busy index out).1 = true) :
    (m.readRecords busy index out).2 = m.cells index n := by
  have h1 := hm.mod_lt index
  have h2 := hm.max_lt
  rw [readRecords, hout, hm.splitAt (by omega), hm.recordAddress] at hok ⊢
  by_cases hend : m.maxRecord < index % m.maxRecord + n
  · simp only [if_pos hend, show reserveSize = loc 0 from rfl] at hok ⊢
    rw [PartsFit, if_pos hend] at hfit
    have hsize : 64 * n - 64 * (m.maxRecord - index % m.maxRecord) =
        64 * (index % m.maxRecord + n - m.maxRecord) := by omega
    have hr := hm.inRange (f := m.flash) rfl h1
      (show index % m.maxRecord + (m.maxRecord - index % m.maxRecord) ≤ m.maxRecord by omega)
    have hr' := hm.inRange (f := m.flash) rfl (show 0 < m.maxRecord by omega)
      (show 0 + (index % m.maxRecord + n - m.maxRecord) ≤ m.maxRecord by omega)
    have hwrap : (index + (m.maxRecord - index % m.maxRecord)) % m.maxRecord = 0 := by
      rw [ring_add_wrap (by omega) (by omega)]
      omega
    rw [hsize, SPIFlash.readByteArray_eq hr hfit.1 (by rw [List.length_take, hout]; omega),
      SPIFlash.readByteArray_eq hr' hfit.2 (by rw [List.length_drop, hout]; omega)] at hok ⊢
    cases hb1 : busy.1
    · cases hb2 : busy.2
      · have hsplit : n = (m.maxRecord - index % m.maxRecord) +
            (index % m.maxRecord + n - m.maxRecord) := by omega
        conv_rhs => rw [hsplit, cells_add]
        rw [← read_loc m index (show index % m.maxRecord + (m.maxRecord - index % m.maxRecord) ≤
            m.maxRecord by omega),
          ← read_loc m (index + (m.maxRecord - index % m.maxRecord))
            (n := index % m.maxRecord + n - m.maxRecord) (by rw [hwrap]; omega), hwrap]
        rfl
      · simp [hb2] at hok
    · simp [hb1] at hok
  · simp only [if_neg hend] at hok ⊢
    rw [PartsFit, if_neg hend] at hfit
    have hr := hm.inRange (f := m.flash) rfl h1 (Nat.not_lt.mp hend)
    rw [SPIFlash.readByteArray_eq hr hfit hout] at hok ⊢
    cases hb : busy.1
    · rw [← read_loc m index (Nat.not_lt.mp hend)]
      rfl
    · simp [hb] at hok

end SPIFlashMeter

end EnresLogger
