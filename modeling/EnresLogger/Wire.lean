import EnresLogger.Driver
import EnresLogger.Retention

/-!
# The record ring on the wire

`SPIFlashMeter.cpp` over the driver of `Driver.lean`: the same three functions,
with nothing between them and the chip but bytes.  The sizes of the ring are those
of an `SPIFlashMeter`.

`writeRecords_refines` and `readRecords_refines` say that each of them is one of
the other model, with some outcome.  `WireRun` is any run of a writer on the wire,
and `WireRun.refines` finds the run of `Retention.lean` that it is, so what is
proved there about every outcome holds here of every chip.
-/

namespace EnresLogger

open Lib

namespace Driver

/-! ### The functions -/

/-- The erase loop of `write*Data`. -/
def eraseLoop (m : SPIFlashMeter) (index numRec : Nat) (d : Driver) : Driver :=
  (List.range numRec).foldl (fun d i =>
    if (index + i) % 4294967296 % (SPIFlashMeter.sectorSize / m.recordSize) = 0 then
      (d.eraseSector (m.recordAddress ((index + i) % 4294967296))).2
    else d) d

/-- `write*Data(index, buff, size)` -/
def writeRecords (m : SPIFlashMeter) (index : Nat) (buff : List UInt8) (d : Driver) :
    Bool × Driver :=
  let addr := m.recordAddress index
  let d := d.eraseLoop m index (buff.length / m.recordSize % 256)
  match m.splitAt index buff.length with
  | some k =>
      let r := d.writeByteArray addr (buff.take k)
      let r' := r.2.writeByteArray SPIFlashMeter.reserveSize (buff.drop k)
      (r.1 && r'.1, r'.2)
  | none => d.writeByteArray addr buff

/-- `read*Data(index, out, size)` -/
def readRecords (m : SPIFlashMeter) (index : Nat) (out : List UInt8) (d : Driver) :
    (Bool × List UInt8) × Driver :=
  let addr := m.recordAddress index
  match m.splitAt index out.length with
  | some k =>
      let r := d.readByteArray addr k (out.take k)
      let r' := r.2.readByteArray SPIFlashMeter.reserveSize (out.length - k) (out.drop k)
      ((r.1.1 && r'.1.1, r.1.2 ++ r'.1.2), r'.2)
  | none => d.readByteArray addr out.length out

/-! ### One call -/

section Calls

variable {m : SPIFlashMeter} {d : Driver} {index n : Nat}

theorem eraseLoop_succ (m : SPIFlashMeter) (index n : Nat) (d : Driver) :
    d.eraseLoop m index (n + 1) =
      if (index + n) % 4294967296 % (SPIFlashMeter.sectorSize / m.recordSize) = 0 then
        ((d.eraseLoop m index n).eraseSector (m.recordAddress ((index + n) % 4294967296))).2
      else d.eraseLoop m index n := by
  rw [eraseLoop, List.range_succ, List.foldl_append, List.foldl_cons, List.foldl_nil, ← eraseLoop]

theorem ring_eraseLoop_succ (m : SPIFlashMeter) (o : Nat → EraseOutcome) (index n : Nat) :
    m.eraseLoop o index (n + 1) =
      if (index + n) % 4294967296 % (SPIFlashMeter.sectorSize / m.recordSize) = 0 then
        ((m.eraseLoop o index n).eraseSector (o n)
          (m.recordAddress ((index + n) % 4294967296))).2
      else m.eraseLoop o index n := by
  rw [SPIFlashMeter.eraseLoop, List.range_succ, List.foldl_append, List.foldl_cons,
    List.foldl_nil, ← SPIFlashMeter.eraseLoop]

theorem ring_eraseLoop_congr {o o' : Nat → EraseOutcome} (h : ∀ i < n, o i = o' i) :
    m.eraseLoop o index n = m.eraseLoop o' index n := by
  induction n with
  | zero => rfl
  | succ n ih =>
    rw [ring_eraseLoop_succ, ring_eraseLoop_succ, ih fun i hi => h i (Nat.lt_succ_of_lt hi),
      h n (Nat.lt_succ_self n)]

theorem eraseLoop_refines (h : d.Drives m.flash) (index n : Nat) :
    ∃ o, (d.eraseLoop m index n).Drives (m.eraseLoop o index n) := by
  induction n with
  | zero => exact ⟨fun _ => .busy, h⟩
  | succ n ih =>
    obtain ⟨o, hd⟩ := ih
    by_cases hstart :
        (index + n) % 4294967296 % (SPIFlashMeter.sectorSize / m.recordSize) = 0
    · obtain ⟨⟨e, he, _⟩, _⟩ :=
        eraseSector_refines hd (m.recordAddress ((index + n) % 4294967296))
      have hsame : m.eraseLoop (fun i => if i = n then e else o i) index n =
          m.eraseLoop o index n :=
        ring_eraseLoop_congr fun i hi => if_neg (Nat.ne_of_lt hi)
      refine ⟨fun i => if i = n then e else o i, ?_⟩
      rw [eraseLoop_succ, ring_eraseLoop_succ, if_pos hstart, if_pos hstart, if_pos rfl, hsame]
      exact he
    · refine ⟨o, ?_⟩
      rw [eraseLoop_succ, ring_eraseLoop_succ, if_neg hstart, if_neg hstart]
      exact hd

theorem eraseLoop_prompt (h : d.Drives m.flash) (hp : d.Prompt) (hclosed : d.chip.taken = none)
    (index n : Nat) :
    (d.eraseLoop m index n).Drives (m.eraseLoop (fun _ => .done) index n) ∧
      (d.eraseLoop m index n).Prompt ∧ (d.eraseLoop m index n).chip.taken = none := by
  induction n with
  | zero => exact ⟨h, hp, hclosed⟩
  | succ n ih =>
    obtain ⟨hd, hp', hclosed'⟩ := ih
    rw [eraseLoop_succ, ring_eraseLoop_succ]
    split
    · obtain ⟨_, hd', hp''⟩ :=
        eraseSector_prompt hd hp' hclosed' (m.recordAddress ((index + n) % 4294967296))
      exact ⟨hd', hp'', (eraseSector_refines hd _).2.2⟩
    · exact ⟨hd, hp', hclosed'⟩

theorem take_drop_length {buff : List UInt8} (hm : m.Mounted) (hlen : buff.length = 64 * n)
    (hend : m.maxRecord < index % m.maxRecord + n) :
    (buff.take (64 * (m.maxRecord - index % m.maxRecord))).length =
        64 * (m.maxRecord - index % m.maxRecord) ∧
      (buff.drop (64 * (m.maxRecord - index % m.maxRecord))).length =
        64 * (index % m.maxRecord + n - m.maxRecord) := by
  have h1 := hm.mod_lt index
  rw [List.length_take, List.length_drop, hlen]
  omega

/-- A write on the wire that does not pass the ring end, and one that does. -/
theorem writeRecords_eq (hm : m.Mounted) {buff : List UInt8} (hlen : buff.length = 64 * n)
    (hn : n < 256) : d.writeRecords m index buff =
      if m.maxRecord < index % m.maxRecord + n then
        let k := 64 * (m.maxRecord - index % m.maxRecord)
        let r := (d.eraseLoop m index n).writeByteArray (SPIFlashMeter.loc (index % m.maxRecord))
          (buff.take k)
        let r' := r.2.writeByteArray (SPIFlashMeter.loc 0) (buff.drop k)
        (r.1 && r'.1, r'.2)
      else (d.eraseLoop m index n).writeByteArray (SPIFlashMeter.loc (index % m.maxRecord)) buff := by
  have hnum : buff.length / m.recordSize % 256 = n := by
    rw [hlen, hm.recordSize]
    omega
  rw [writeRecords, hnum, hm.recordAddress, hlen, hm.splitAt (by omega)]
  by_cases hend : m.maxRecord < index % m.maxRecord + n
  · rw [if_pos hend, if_pos hend]
    rfl
  · rw [if_neg hend, if_neg hend]

/-- **A write of records on the wire is one of the other model**, with the outcome
of each erase and of each program. -/
theorem writeRecords_refines (hm : m.Mounted) (h : d.Drives m.flash) (index : Nat)
    {buff : List UInt8} (hlen : buff.length = 64 * n) (hn : n ≤ 64) :
    ∃ o, (d.writeRecords m index buff).1 = (m.writeRecords o index buff).1 ∧
      (d.writeRecords m index buff).2.Drives (m.writeRecords o index buff).2.flash := by
  have h1 := hm.mod_lt index
  have h2 := hm.le_max
  obtain ⟨oe, hd⟩ := eraseLoop_refines h index n
  have hcap := SPIFlashMeter.eraseLoop_capacity (m := m) oe index n
  rw [writeRecords_eq hm hlen (by omega)]
  by_cases hend : m.maxRecord < index % m.maxRecord + n
  · rw [if_pos hend]
    obtain ⟨hlen1, hlen2⟩ := take_drop_length hm hlen hend
    have hr := hm.inRange hcap h1
      (show index % m.maxRecord + (m.maxRecord - index % m.maxRecord) ≤ m.maxRecord by omega)
    rw [← hlen1] at hr
    obtain ⟨⟨o₁, hok₁, hd₁⟩, _, _⟩ := writeByteArray_refines hd hr (by omega)
    have hr' := hm.inRange (hd₁.capacity.symm.trans (by
        rw [(writeByteArray_refines hd hr (by omega)).2.1.capacity, hd.capacity, hcap]))
      (show 0 < m.maxRecord by omega)
      (show 0 + (index % m.maxRecord + n - m.maxRecord) ≤ m.maxRecord by omega)
    rw [← hlen2] at hr'
    obtain ⟨⟨o₂, hok₂, hd₂⟩, _, _⟩ := writeByteArray_refines hd₁ hr' (by omega)
    refine ⟨⟨oe, o₁, o₂⟩, ?_⟩
    rw [hm.writeRecords_split hlen (by omega) hend]
    dsimp only
    rw [hok₁, hok₂]
    exact ⟨rfl, hd₂⟩
  · rw [if_neg hend]
    have hr := hm.inRange hcap h1 (show index % m.maxRecord + n ≤ m.maxRecord by omega)
    rw [← hlen] at hr
    obtain ⟨⟨o₁, hok₁, hd₁⟩, _, _⟩ := writeByteArray_refines hd hr (by omega)
    refine ⟨⟨oe, o₁, .dead⟩, ?_⟩
    rw [hm.writeRecords_whole hlen (by omega) (by omega)]
    exact ⟨hok₁, hd₁⟩

theorem writeRecords_prompt (hm : m.Mounted) (h : d.Drives m.flash) (hp : d.Prompt)
    (hclosed : d.chip.taken = none) (index : Nat) {buff : List UInt8}
    (hlen : buff.length = 64 * n) (hn : n ≤ 64) :
    (d.writeRecords m index buff).1 = (m.writeRecords .healthy index buff).1 ∧
      (d.writeRecords m index buff).2.Drives (m.writeRecords .healthy index buff).2.flash ∧
      (d.writeRecords m index buff).2.Prompt ∧
      (d.writeRecords m index buff).2.chip.taken = none := by
  have h1 := hm.mod_lt index
  have h2 := hm.le_max
  obtain ⟨hd, hp, hclosed⟩ := eraseLoop_prompt h hp hclosed index n
  have hcap := SPIFlashMeter.eraseLoop_capacity (m := m) (fun _ => .done) index n
  rw [writeRecords_eq hm hlen (by omega)]
  by_cases hend : m.maxRecord < index % m.maxRecord + n
  · rw [if_pos hend]
    obtain ⟨hlen1, hlen2⟩ := take_drop_length hm hlen hend
    have hr := hm.inRange hcap h1
      (show index % m.maxRecord + (m.maxRecord - index % m.maxRecord) ≤ m.maxRecord by omega)
    rw [← hlen1] at hr
    obtain ⟨hok₁, hd₁, hp₁, hclosed₁⟩ := writeByteArray_prompt hd hp hclosed hr (by omega)
    have hr' := hm.inRange (hd₁.capacity.symm.trans (by
        rw [(writeByteArray_refines hd hr (by omega)).2.1.capacity, hd.capacity, hcap]))
      (show 0 < m.maxRecord by omega)
      (show 0 + (index % m.maxRecord + n - m.maxRecord) ≤ m.maxRecord by omega)
    rw [← hlen2] at hr'
    obtain ⟨hok₂, hd₂, hp₂, hclosed₂⟩ := writeByteArray_prompt hd₁ hp₁ hclosed₁ hr' (by omega)
    rw [hm.writeRecords_split hlen (by omega) hend]
    dsimp only [WriteOutcome.healthy]
    rw [hok₁, hok₂]
    exact ⟨rfl, hd₂, hp₂, hclosed₂⟩
  · rw [if_neg hend]
    have hr := hm.inRange hcap h1 (show index % m.maxRecord + n ≤ m.maxRecord by omega)
    rw [← hlen] at hr
    rw [hm.writeRecords_whole hlen (by omega) (by omega)]
    exact writeByteArray_prompt hd hp hclosed hr (by omega)

/-- **A read of records on the wire** is one of the other model. -/
theorem readRecords_refines (hm : m.Mounted) (h : d.Drives m.flash) (index : Nat)
    {out : List UInt8} (hlen : out.length = 64 * n) (hn : n ≤ m.maxRecord)
    (hfit : SPIFlashMeter.PartsFit m.maxRecord index n) :
    (∃ busy, (d.readRecords m index out).1 = m.readRecords busy index out) ∧
      (d.readRecords m index out).2.Drives m.flash ∧
      (d.Prompt → d.chip.taken = none → (d.readRecords m index out).1.1 = true ∧
        (d.readRecords m index out).2.Prompt ∧
        (d.readRecords m index out).2.chip.taken = none) := by
  have h1 := hm.mod_lt index
  have h2 := hm.max_lt
  by_cases hend : m.maxRecord < index % m.maxRecord + n
  · rw [SPIFlashMeter.PartsFit, if_pos hend] at hfit
    have hsize : 64 * n - 64 * (m.maxRecord - index % m.maxRecord) =
        64 * (index % m.maxRecord + n - m.maxRecord) := by omega
    have hr := hm.inRange (f := m.flash) rfl h1
      (show index % m.maxRecord + (m.maxRecord - index % m.maxRecord) ≤ m.maxRecord by omega)
    have hr' := hm.inRange (f := m.flash) rfl (show 0 < m.maxRecord by omega)
      (show 0 + (index % m.maxRecord + n - m.maxRecord) ≤ m.maxRecord by omega)
    obtain ⟨⟨b₁, hread₁⟩, hd₁, hclosed₁, hprompt₁⟩ := readByteArray_refines h hr hfit.1
      (out.take (64 * (m.maxRecord - index % m.maxRecord)))
    obtain ⟨⟨b₂, hread₂⟩, hd₂, hclosed₂, hprompt₂⟩ := readByteArray_refines hd₁ hr' hfit.2
      (out.drop (64 * (m.maxRecord - index % m.maxRecord)))
    rw [readRecords, hlen, hm.splitAt (by omega), if_pos hend, hm.recordAddress]
    dsimp only
    rw [hsize, show SPIFlashMeter.reserveSize = SPIFlashMeter.loc 0 from rfl]
    refine ⟨⟨(b₁, b₂), ?_⟩, hd₂, fun hp hclosed => ?_⟩
    · rw [SPIFlashMeter.readRecords, hlen, hm.splitAt (by omega), if_pos hend, hm.recordAddress]
      dsimp only
      rw [hsize, show SPIFlashMeter.reserveSize = SPIFlashMeter.loc 0 from rfl, hread₁, hread₂]
    · obtain ⟨hfirst, hp₁⟩ := hprompt₁ hp hclosed
      obtain ⟨hsecond, hp₂⟩ := hprompt₂ hp₁ hclosed₁
      rw [hfirst, hsecond]
      exact ⟨rfl, hp₂, hclosed₂⟩
  · rw [SPIFlashMeter.PartsFit, if_neg hend] at hfit
    have hr := hm.inRange (f := m.flash) rfl h1 (show index % m.maxRecord + n ≤ m.maxRecord by omega)
    obtain ⟨⟨b, hread⟩, hd, hclosed', hprompt⟩ := readByteArray_refines h hr hfit out
    rw [readRecords, hlen, hm.splitAt (by omega), if_neg hend, hm.recordAddress]
    refine ⟨⟨(b, false), ?_⟩, hd, fun hp hclosed => ?_⟩
    · rw [SPIFlashMeter.readRecords, hlen, hm.splitAt (by omega), if_neg hend, hm.recordAddress]
      exact hread
    · obtain ⟨hfirst, hp'⟩ := hprompt hp hclosed
      refine ⟨?_, hp', hclosed'⟩
      rw [hfirst]
      rfl

end Calls

end Driver

/-! ### Runs -/

/-- The driver, the write index `W`, and the bytes last committed under each
index. -/
structure WireWriter where
  driver : Driver
  next : Nat
  hist : Nat → Option (List UInt8)

namespace WireWriter

/-- `write*Data(W, buf, 64*n)`, and what the caller does with the result. -/
def write (m : SPIFlashMeter) (s : WireWriter) (n : Nat) (buff : List UInt8) : WireWriter :=
  let r := s.driver.writeRecords m s.next buff
  if r.1 then
    { driver := r.2, next := s.next + n
      hist := fun j => if s.next ≤ j ∧ j < s.next + n then
        some (Writer.record buff (j - s.next)) else s.hist j }
  else { s with driver := r.2 }

def jump (s : WireWriter) : WireWriter := { s with next := (s.next / 64 + 1) * 64 }

/-- A read, of which the writer sees nothing. -/
def read (m : SPIFlashMeter) (s : WireWriter) (index : Nat) (out : List UInt8) : WireWriter :=
  { s with driver := (s.driver.readRecords m index out).2 }

end WireWriter

/-- Writes, jumps and reads of at most 21 records, in any order. -/
inductive WireRun (m : SPIFlashMeter) (d : Driver) (W₀ : Nat) : WireWriter → Prop
  | start : WireRun m d W₀ ⟨d, W₀, fun _ => none⟩
  | write {s : WireWriter} {n : Nat} {buff : List UInt8} :
      WireRun m d W₀ s → n ≤ 21 → buff.length = 64 * n → s.next < 4294967296 →
      s.next + n ≤ 4294967296 → WireRun m d W₀ (s.write m n buff)
  | jump {s : WireWriter} : WireRun m d W₀ s → WireRun m d W₀ s.jump
  | read {s : WireWriter} (index : Nat) {n : Nat} {out : List UInt8} :
      WireRun m d W₀ s → n ≤ 21 → out.length = 64 * n → WireRun m d W₀ (s.read m index out)

/-- A ring that differs in its chip alone. -/
theorem SPIFlashMeter.Mounted.eq_with {m m' : SPIFlashMeter} (hm : m.Mounted) (hm' : m'.Mounted)
    (hmax : m'.maxRecord = m.maxRecord) : m' = { m with flash := m'.flash } := by
  obtain ⟨flash, recordSize, maxRecord⟩ := m'
  have hsize : recordSize = m.recordSize := hm'.recordSize.trans hm.recordSize.symm
  subst hsize hmax
  rfl

section Runs

variable {m₀ : SPIFlashMeter} {d₀ : Driver} {W₀ : Nat}

/-- **A run on the wire is a run of the other model**, by induction on the run. -/
theorem WireRun.refines (hm₀ : m₀.Mounted) (hd₀ : d₀.Drives m₀.flash) {w : WireWriter}
    (hw : WireRun m₀ d₀ W₀ w) :
    ∃ s, WriterRun m₀ W₀ s ∧ s.next = w.next ∧ s.hist = w.hist ∧
      w.driver.Drives s.ring.flash := by
  induction hw with
  | start => exact ⟨_, .start, rfl, rfl, hd₀⟩
  | @write w n buff _ hn hlen hlt hidx ih =>
    obtain ⟨s, hs, hnext, hhist, hd⟩ := ih
    obtain ⟨hm, _⟩ := hs.retains hm₀
    obtain ⟨o, hok, hd'⟩ := Driver.writeRecords_refines hm hd w.next hlen
      (by omega : n ≤ 64)
    have hsame : w.driver.writeRecords s.ring w.next buff = w.driver.writeRecords m₀ w.next buff := by
      rw [hm₀.eq_with hm hs.maxRecord]
      rfl
    rw [hsame] at hok hd'
    refine ⟨_, hs.write .meter o hn hlen (by rw [hnext]; exact hlt) (by rw [hnext]; exact hidx), ?_⟩
    rw [Writer.write, SPIFlashMeter.writeData_eq, WireWriter.write, hnext]
    rw [← hok]
    split
    · exact ⟨rfl, by rw [hhist], hd'⟩
    · exact ⟨rfl, hhist, hd'⟩
  | @jump w _ ih =>
    obtain ⟨s, hs, hnext, hhist, hd⟩ := ih
    exact ⟨_, hs.jump, by rw [Writer.jump, hnext]; rfl, hhist, hd⟩
  | @read w index n out _ hn hlen ih =>
    obtain ⟨s, hs, hnext, hhist, hd⟩ := ih
    obtain ⟨hm, _⟩ := hs.retains hm₀
    have hle := hm.le_max
    obtain ⟨_, hd', _⟩ := Driver.readRecords_refines hm hd index hlen
      (by omega) (SPIFlashMeter.partsFit_of_lt hm.pos (by omega))
    have hsame : w.driver.readRecords s.ring index out = w.driver.readRecords m₀ index out := by
      rw [hm₀.eq_with hm hs.maxRecord]
      rfl
    rw [hsame] at hd'
    exact ⟨s, hs, hnext, hhist, hd'⟩

theorem WriterRun.wire_read (hm₀ : m₀.Mounted) {s : Writer} (hs : WriterRun m₀ W₀ s) {d : Driver}
    (hd : d.Drives s.ring.flash) {r n : Nat} (hn : n ≤ 21) (hback : s.next + 84 ≤ r + m₀.maxRecord)
    (hcommit : ∀ j, r ≤ j → j < r + n → s.hist j ≠ none) {out : List UInt8}
    (hout : out.length = 64 * n) (hok : (d.readRecords m₀ r out).1.1 = true) :
    (d.readRecords m₀ r out).1.2 = s.committed r n := by
  obtain ⟨hm, _⟩ := hs.retains hm₀
  have hmax := hs.maxRecord
  have hle := hm.le_max
  have hfit : SPIFlashMeter.PartsFit s.ring.maxRecord r n :=
    SPIFlashMeter.partsFit_of_lt hm.pos (by omega)
  have hsame : d.readRecords s.ring r out = d.readRecords m₀ r out := by
    rw [hm₀.eq_with hm hmax]
    rfl
  obtain ⟨⟨busy, hread⟩, _⟩ := Driver.readRecords_refines hm hd r hout (by omega) hfit
  rw [hsame] at hread
  rw [hread] at hok ⊢
  rw [hm.readRecords_eq hout (by omega) hfit hok]
  exact hs.cells_eq hm₀ (by rw [hmax]; exact hback) hcommit

/-- **Read after write, down to the bytes on the bus.**  Whatever the chip makes of
each program and of each erase, however long it takes, and however impatient the
driver is: a read of at most 21 committed records that are no more than
`_maxRecord - 84` behind `W` returns the bytes last committed, if it reports
success. -/
theorem WireRun.reads_back (hm₀ : m₀.Mounted) (hd₀ : d₀.Drives m₀.flash) {w : WireWriter}
    (hw : WireRun m₀ d₀ W₀ w) {r n : Nat} (hn : n ≤ 21)
    (hback : w.next + 84 ≤ r + m₀.maxRecord)
    (hcommit : ∀ j, r ≤ j → j < r + n → w.hist j ≠ none) {out : List UInt8}
    (hout : out.length = 64 * n) (hok : (w.driver.readRecords m₀ r out).1.1 = true) :
    (w.driver.readRecords m₀ r out).1.2 =
      ((List.range n).map fun i => (w.hist (r + i)).getD []).flatten := by
  obtain ⟨s, hs, hnext, hhist, hd⟩ := hw.refines hm₀ hd₀
  rw [← hhist] at hcommit ⊢
  exact hs.wire_read hm₀ hd hn (by rw [hnext]; exact hback) hcommit hout hok

/-! ### A chip that works -/

theorem WireRun.prompt (hm₀ : m₀.Mounted) (hd₀ : d₀.Drives m₀.flash) (hp₀ : d₀.Prompt)
    (hclosed₀ : d₀.chip.taken = none) (hmax : 128 ≤ m₀.maxRecord) (hW₀ : 64 ∣ W₀) {w : WireWriter}
    (hw : WireRun m₀ d₀ W₀ w) :
    w.driver.Prompt ∧ w.driver.chip.taken = none ∧
      ∃ s, WriterRun m₀ W₀ s ∧ s.next = w.next ∧ s.hist = w.hist ∧ w.driver.Drives s.ring.flash ∧
        s.ring.Ready w.next := by
  induction hw with
  | start =>
    exact ⟨hp₀, hclosed₀, _, .start, rfl, rfl, hd₀, Or.inl (Nat.mod_eq_zero_of_dvd hW₀)⟩
  | @write w n buff _ hn hlen hlt hidx ih =>
    obtain ⟨hp, hclosed, s, hs, hnext, hhist, hd, hready⟩ := ih
    obtain ⟨hm, _⟩ := hs.retains hm₀
    obtain ⟨hok, hd', hp', hclosed'⟩ := Driver.writeRecords_prompt hm hd hp
      hclosed w.next hlen (by omega : n ≤ 64)
    obtain ⟨happend, hready'⟩ := hm.append hlen (by omega) hidx (by rw [hs.maxRecord]; exact hmax)
      hready
    have hsame : w.driver.writeRecords s.ring w.next buff = w.driver.writeRecords m₀ w.next buff := by
      rw [hm₀.eq_with hm hs.maxRecord]
      rfl
    rw [hsame] at hok hd' hp' hclosed'
    rw [WireWriter.write, if_pos (hok.trans happend)]
    refine ⟨hp', hclosed', _, hs.write .meter .healthy hn hlen (by rw [hnext]; exact hlt)
      (by rw [hnext]; exact hidx), ?_⟩
    rw [Writer.write, SPIFlashMeter.writeData_eq, hnext, if_pos happend, hhist]
    exact ⟨rfl, rfl, hd', hready'⟩
  | @jump w _ ih =>
    obtain ⟨hp, hclosed, s, hs, hnext, hhist, hd, _⟩ := ih
    exact ⟨hp, hclosed, _, hs.jump, by rw [Writer.jump, hnext]; rfl, hhist, hd,
      Or.inl (Nat.mul_mod_left _ 64)⟩
  | @read w index n out _ hn hlen ih =>
    obtain ⟨hp, hclosed, s, hs, hnext, hhist, hd, hready⟩ := ih
    obtain ⟨hm, _⟩ := hs.retains hm₀
    have hle := hm.le_max
    obtain ⟨_, hd', hprompt⟩ := Driver.readRecords_refines hm hd index hlen
      (by omega) (SPIFlashMeter.partsFit_of_lt hm.pos (by omega))
    obtain ⟨_, hp', hclosed'⟩ := hprompt hp hclosed
    have hsame : w.driver.readRecords s.ring index out = w.driver.readRecords m₀ index out := by
      rw [hm₀.eq_with hm hs.maxRecord]
      rfl
    rw [hsame] at hd' hp' hclosed'
    exact ⟨hp', hclosed', s, hs, hnext, hhist, hd', hready⟩

theorem WireRun.write_takes (hm₀ : m₀.Mounted) (hd₀ : d₀.Drives m₀.flash) (hp₀ : d₀.Prompt)
    (hclosed₀ : d₀.chip.taken = none) (hmax : 128 ≤ m₀.maxRecord) (hW₀ : 64 ∣ W₀) {w : WireWriter}
    (hw : WireRun m₀ d₀ W₀ w) {n : Nat} (hn : n ≤ 21) (hidx : w.next + n ≤ 4294967296)
    {buff : List UInt8} (hlen : buff.length = 64 * n) :
    (w.driver.writeRecords m₀ w.next buff).1 = true := by
  obtain ⟨hp, hclosed, s, hs, hnext, _, hd, hready⟩ := hw.prompt hm₀ hd₀ hp₀ hclosed₀ hmax hW₀
  obtain ⟨hm, _⟩ := hs.retains hm₀
  obtain ⟨hok, _⟩ := Driver.writeRecords_prompt hm hd hp hclosed w.next hlen
    (by omega : n ≤ 64)
  obtain ⟨happend, _⟩ := hm.append hlen (by omega) hidx (by rw [hs.maxRecord]; exact hmax) hready
  rw [hm₀.eq_with hm hs.maxRecord] at hok happend
  exact hok.trans happend

theorem WireRun.read_takes (hm₀ : m₀.Mounted) (hd₀ : d₀.Drives m₀.flash) (hp₀ : d₀.Prompt)
    (hclosed₀ : d₀.chip.taken = none) (hmax : 128 ≤ m₀.maxRecord) (hW₀ : 64 ∣ W₀) {w : WireWriter}
    (hw : WireRun m₀ d₀ W₀ w) {n : Nat} (hn : n ≤ 21) (r : Nat) {out : List UInt8}
    (hout : out.length = 64 * n) : (w.driver.readRecords m₀ r out).1.1 = true := by
  obtain ⟨hp, hclosed, s, hs, _, _, hd, _⟩ := hw.prompt hm₀ hd₀ hp₀ hclosed₀ hmax hW₀
  obtain ⟨hm, _⟩ := hs.retains hm₀
  have hle := hm.le_max
  obtain ⟨_, _, hprompt⟩ := Driver.readRecords_refines hm hd r hout
    (by omega) (SPIFlashMeter.partsFit_of_lt hm.pos (by omega))
  have hok := (hprompt hp hclosed).1
  rw [hm₀.eq_with hm hs.maxRecord] at hok
  exact hok

/-- **No run fails on a chip that works and is prompt**: every write takes, and every
read of at most 21 records reports success, with the bytes last committed when they are
records no more than `_maxRecord - 84` behind `W`. -/
theorem WireRun.never_fails (hm₀ : m₀.Mounted) (hd₀ : d₀.Drives m₀.flash) (hp₀ : d₀.Prompt)
    (hclosed₀ : d₀.chip.taken = none) (hmax : 128 ≤ m₀.maxRecord) (hW₀ : 64 ∣ W₀) {w : WireWriter}
    (hw : WireRun m₀ d₀ W₀ w) {n : Nat} (hn : n ≤ 21) :
    (∀ buff : List UInt8, buff.length = 64 * n → w.next + n ≤ 4294967296 →
      (w.driver.writeRecords m₀ w.next buff).1 = true) ∧
    ∀ (r : Nat) (out : List UInt8), out.length = 64 * n →
      (w.driver.readRecords m₀ r out).1.1 = true ∧
        (w.next + 84 ≤ r + m₀.maxRecord → (∀ j, r ≤ j → j < r + n → w.hist j ≠ none) →
          (w.driver.readRecords m₀ r out).1.2 =
            ((List.range n).map fun i => (w.hist (r + i)).getD []).flatten) := by
  constructor
  · intro buff hlen hidx
    exact hw.write_takes hm₀ hd₀ hp₀ hclosed₀ hmax hW₀ hn hidx hlen
  · intro r out hout
    have hok := hw.read_takes hm₀ hd₀ hp₀ hclosed₀ hmax hW₀ hn r hout
    refine ⟨hok, fun hback hcommit => ?_⟩
    obtain ⟨s, hs, hnext, hhist, hd⟩ := hw.refines hm₀ hd₀
    rw [← hhist] at hcommit ⊢
    exact hs.wire_read hm₀ hd hn (by rw [hnext]; exact hback) hcommit hout hok

/-- The ring of a chip of 64 KiB, and one record in it. -/
def smallRing : SPIFlashMeter := SPIFlashMeter.begin (blankChip 65536) 64

theorem smallRing_mounted : smallRing.Mounted :=
  SPIFlashMeter.mounted_begin (by decide) (by decide) (by decide)

theorem smallRing_maxRecord : smallRing.maxRecord = 896 := rfl

def firstRecord : WireWriter :=
  (⟨Driver.quickDriver fun _ => .quick, 0, fun _ => none⟩ : WireWriter).write smallRing 1
    (List.replicate 64 7)

theorem firstRecord_run : WireRun smallRing (Driver.quickDriver fun _ => .quick) 0 firstRecord :=
  .write .start (by omega) rfl (by decide) (by decide)

theorem firstRecord_eq : firstRecord.next = 1 ∧ firstRecord.hist 0 = some (List.replicate 64 7) := by
  have hok := WireRun.write_takes smallRing_mounted (Driver.quickDriver_drives _)
    Driver.quickDriver_prompt rfl (by rw [smallRing_maxRecord]; omega) (Nat.dvd_zero 64) .start
    (n := 1) (by omega) (by decide)
    (show (List.replicate 64 (7 : UInt8)).length = 64 * 1 from rfl)
  rw [firstRecord, WireWriter.write, if_pos hok]
  exact ⟨rfl, rfl⟩

theorem firstRecord_hist {j : Nat} (hj : j < 0 + 1) : firstRecord.hist j ≠ none := by
  obtain rfl : j = 0 := by omega
  rw [firstRecord_eq.2]
  exact Option.some_ne_none _

/-- It is read back. -/
theorem WireRun.reads_back_first :
    (firstRecord.driver.readRecords smallRing 0 (List.replicate 64 0)).1.2 =
      List.replicate 64 7 := by
  have hok := firstRecord_run.read_takes smallRing_mounted (Driver.quickDriver_drives _)
    Driver.quickDriver_prompt rfl (by rw [smallRing_maxRecord]; omega) (Nat.dvd_zero 64) (n := 1)
    (by omega) 0 (show (List.replicate 64 (0 : UInt8)).length = 64 * 1 from rfl)
  rw [WireRun.reads_back smallRing_mounted (Driver.quickDriver_drives _) firstRecord_run (r := 0)
    (n := 1) (by omega) (by rw [firstRecord_eq.1, smallRing_maxRecord]; omega)
    (fun _ _ hj => firstRecord_hist hj) rfl hok, List.range_one, List.map_cons, List.map_nil,
    firstRecord_eq.2]
  rfl

theorem WireRun.never_fails_first :
    (firstRecord.driver.writeRecords smallRing firstRecord.next (List.replicate 64 8)).1 = true ∧
      (firstRecord.driver.readRecords smallRing 0 (List.replicate 64 0)).1 =
        (true, List.replicate 64 7) := by
  obtain ⟨hwrite, hread⟩ := WireRun.never_fails smallRing_mounted (Driver.quickDriver_drives _)
    Driver.quickDriver_prompt rfl (by rw [smallRing_maxRecord]; omega) (Nat.dvd_zero 64)
    firstRecord_run (n := 1) (by omega)
  obtain ⟨hok, hbytes⟩ := hread 0 (List.replicate 64 0) rfl
  refine ⟨hwrite _ rfl (by rw [firstRecord_eq.1]; omega), Prod.ext hok ?_⟩
  refine (hbytes (by rw [firstRecord_eq.1, smallRing_maxRecord]; omega)
    (fun _ _ hj => firstRecord_hist hj)).trans ?_
  rw [List.range_one, List.map_cons, List.map_nil, firstRecord_eq.2]
  rfl

end Runs

end EnresLogger
