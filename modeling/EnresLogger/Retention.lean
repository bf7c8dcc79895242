import EnresLogger.Append

/-!
# What the ring retains

A caller of `write*Data` keeps an index `W` that goes on by `n` when a write
reports success, stays when it does not, and may jump to the next multiple of
64.  `WriterRun` is any run of such a caller on a ring, on a chip that may fail
every erase and every program.

`WriterRun.retains` is the invariant: the records committed, with the furthest
sector end any write has reached as the mark, form a `RingLog` that `Retains`.
That mark is never more than 84 ahead of `W`, 20 for the last record of a batch
and 64 for its sector, so a record at most `_maxRecord - 84` behind `W` is
still in its location: `read_committed`.

The read must stay below `2^16` bytes in each of its parts, because
`readByteArray` takes its size as a `uint16_t`, and the chip must have room for
the reserved bytes, or `_maxRecord` is out of all proportion to it.
`not_readsBack` has a run for each, on chips that work.
-/

namespace EnresLogger

open Lib

namespace SPIFlashMeter

theorem readRecords_idle (m : SPIFlashMeter) (index : Nat) (out : List UInt8) :
    (m.readRecords (false, false) index out).1 = true := by
  rw [readRecords]
  split <;> rfl

end SPIFlashMeter

open SPIFlashMeter

/-! ### Runs of a writer -/

/-- The ring, the write index `W`, and the bytes last committed under each
index. -/
structure Writer where
  ring : SPIFlashMeter
  next : Nat
  hist : Nat → Option (List UInt8)

namespace Writer

/-- The record `k` of a batch. -/
def record (buff : List UInt8) (k : Nat) : List UInt8 := (buff.drop (64 * k)).take 64

/-- `write*Data(W, buf, 64*n)`, and what the caller does with the result. -/
def write (s : Writer) (k : Kind) (o : WriteOutcome) (n : Nat) (buff : List UInt8) : Writer :=
  let r := s.ring.writeData k o s.next buff
  if r.1 then
    { ring := r.2, next := s.next + n
      hist := fun j => if s.next ≤ j ∧ j < s.next + n then some (record buff (j - s.next))
        else s.hist j }
  else { s with ring := r.2 }

def jump (s : Writer) : Writer := { s with next := (s.next / 64 + 1) * 64 }

/-- The bytes committed under the indices `[r, r + n)`. -/
def committed (s : Writer) (r n : Nat) : List UInt8 :=
  ((List.range n).map fun i => (s.hist (r + i)).getD []).flatten

end Writer

inductive WriterRun (m₀ : SPIFlashMeter) (W₀ : Nat) : Writer → Prop
  | start : WriterRun m₀ W₀ ⟨m₀, W₀, fun _ => none⟩
  | write {s : Writer} (k : Kind) (o : WriteOutcome) {n : Nat} {buff : List UInt8} :
      WriterRun m₀ W₀ s → n ≤ 21 → buff.length = 64 * n → s.next < 4294967296 →
      s.next + n ≤ 4294967296 → WriterRun m₀ W₀ (s.write k o n buff)
  | jump {s : Writer} : WriterRun m₀ W₀ s → WriterRun m₀ W₀ s.jump

/-- The records of a writer as a log on the ring. -/
def Writer.log (s : Writer) (hi : Nat) : RingLog (List UInt8) :=
  ⟨s.ring.cell, s.next, hi, s.hist⟩

/-- One write is one step of the log, whatever the chip did. -/
theorem Writer.write_step {s : Writer} (hm : s.ring.Mounted) {hi : Nat} (k : Kind)
    (o : WriteOutcome) {n : Nat} {buff : List UInt8} (hn : n ≤ 64) (hlen : buff.length = 64 * n)
    (hidx : s.next + n ≤ 4294967296) (hret : (s.log hi).Retains s.ring.maxRecord) :
    RingLog.Step s.ring.maxRecord (s.log hi)
      ((s.write k o n buff).log (max hi (ceilTo 64 (s.next + n)))) := by
  have hframe : ∀ p, (∀ j, s.next ≤ j → j < max hi (ceilTo 64 (s.next + n)) →
      j % s.ring.maxRecord ≠ p) →
      (s.ring.writeRecords o s.next buff).2.cell p = s.ring.cell p :=
    fun p hp => hm.writeRecords_frame o hlen hn hidx (fun j h1 h2 => hp j h1 (by omega))
  unfold write
  rw [writeData_eq]
  by_cases hok : (s.ring.writeRecords o s.next buff).1 = true
  · simp only [hok, if_true]
    refine ⟨Nat.le_add_right _ _, Nat.le_max_left _ _, hframe, fun j x hx => ?_⟩
    simp only [log] at hx ⊢
    by_cases hj : s.next ≤ j ∧ j < s.next + n
    · rw [if_pos hj] at hx
      refine Or.inr ⟨hj.1, hj.2, ?_⟩
      obtain ⟨i, rfl⟩ := Nat.exists_eq_add_of_le hj.1
      rw [hm.writeRecords_cell hlen hn hok (by omega)]
      rw [Nat.add_sub_cancel_left] at hx
      exact Option.some.inj hx
    · rw [if_neg hj] at hx
      exact Or.inl ⟨(hret j x hx).1, hx⟩
  · simp only [hok]
    exact ⟨Nat.le_refl _, Nat.le_max_left _ _, hframe,
      fun j x hx => Or.inl ⟨(hret j x hx).1, hx⟩⟩

theorem Writer.jump_step {s : Writer} {hi N : Nat} (hret : (s.log hi).Retains N) :
    RingLog.Step N (s.log hi) (s.jump.log hi) :=
  ⟨by simp only [log, jump]; omega, Nat.le_refl _, fun _ _ => rfl,
    fun j x hx => Or.inl ⟨(hret j x hx).1, hx⟩⟩

theorem Writer.write_ring (s : Writer) (k : Kind) (o : WriteOutcome) (n : Nat)
    (buff : List UInt8) : (s.write k o n buff).ring = (s.ring.writeRecords o s.next buff).2 := by
  unfold write
  rw [writeData_eq]
  by_cases hok : (s.ring.writeRecords o s.next buff).1 = true <;> simp only [hok] <;> rfl

theorem Writer.next_le_write (s : Writer) (k : Kind) (o : WriteOutcome) (n : Nat)
    (buff : List UInt8) : s.next ≤ (s.write k o n buff).next := by
  unfold write
  by_cases hok : (s.ring.writeData k o s.next buff).1 = true <;> simp only [hok] <;> simp

theorem Writer.write_next_le (s : Writer) (k : Kind) (o : WriteOutcome) (n : Nat)
    (buff : List UInt8) : (s.write k o n buff).next ≤ s.next + n := by
  unfold write
  by_cases hok : (s.ring.writeData k o s.next buff).1 = true <;> simp only [hok] <;> simp

theorem WriterRun.maxRecord {m₀ : SPIFlashMeter} {W₀ : Nat} {s : Writer}
    (hs : WriterRun m₀ W₀ s) : s.ring.maxRecord = m₀.maxRecord := by
  induction hs with
  | start => rfl
  | write k o _ _ _ _ _ ih => rw [Writer.write_ring, writeRecords_maxRecord, ih]
  | jump _ ih => exact ih

/-- **The invariant of every run**: the ring stays mounted, no write has reached
further than 84 ahead of `W`, and the log retains. -/
theorem WriterRun.retains {m₀ : SPIFlashMeter} {W₀ : Nat} (hm₀ : m₀.Mounted) {s : Writer}
    (hs : WriterRun m₀ W₀ s) :
    s.ring.Mounted ∧ ∃ hi, hi ≤ s.next + 84 ∧ (s.log hi).Retains s.ring.maxRecord := by
  induction hs with
  | start => exact ⟨hm₀, 0, Nat.zero_le _, RingLog.retains_of_empty (fun _ => rfl)⟩
  | @write s k o n buff _ hn hlen _ hidx ih =>
    obtain ⟨hm, hi, hle, hret⟩ := ih
    have hceil := ceilTo_lt (show 0 < 64 by omega) (s.next + n)
    have hnext := s.next_le_write k o n buff
    have hstep := s.write_step hm k o (by omega) hlen hidx hret
    rw [Writer.write_ring, writeRecords_maxRecord]
    exact ⟨hm.writeRecords_mounted o hlen (by omega) hidx, max hi (ceilTo 64 (s.next + n)),
      by omega, hret.step hstep⟩
  | @jump s _ ih =>
    obtain ⟨hm, hi, hle, hret⟩ := ih
    refine ⟨hm, hi, ?_, hret.step (s.jump_step hret)⟩
    simp only [Writer.jump]
    omega

/-! ### Reading back -/

theorem WriterRun.cells_eq {m₀ : SPIFlashMeter} {W₀ : Nat} (hm₀ : m₀.Mounted) {s : Writer}
    (hs : WriterRun m₀ W₀ s) {r n : Nat} (hback : s.next + 84 ≤ r + s.ring.maxRecord)
    (hcommit : ∀ j, r ≤ j → j < r + n → s.hist j ≠ none) :
    s.ring.cells r n = s.committed r n := by
  obtain ⟨_, hi, hle, hret⟩ := hs.retains hm₀
  rw [SPIFlashMeter.cells, Writer.committed]
  congr 1
  refine List.map_congr_left (fun i hin => ?_)
  have hlt := List.mem_range.mp hin
  obtain ⟨x, hx⟩ := Option.ne_none_iff_exists'.mp (hcommit (r + i) (by omega) (by omega))
  rw [hx, Option.getD_some]
  exact (hret (r + i) x hx).2 (by show hi ≤ _; omega)

/-- Every read of `[r, r + n)` that reports success returns the committed
bytes. -/
def Writer.ReadsBack (s : Writer) (r n : Nat) : Prop :=
  ∀ (k : Kind) (busy : Bool × Bool) (out : List UInt8), out.length = 64 * n →
    (s.ring.readData k busy r out).1 = true → (s.ring.readData k busy r out).2 = s.committed r n

/-- The range is committed, and at most `_maxRecord - 84` behind `W`. -/
structure Writer.Covers (s : Writer) (r n : Nat) : Prop where
  le : r + n ≤ s.next
  back : s.next + 84 ≤ r + s.ring.maxRecord
  committed : ∀ j, r ≤ j → j < r + n → s.hist j ≠ none

/-- **Read after write.**  On a chip that has room for a ring, a read of
committed records at most `_maxRecord - 84` behind `W`, in parts below `2^16`
bytes, returns the bytes last committed. -/
theorem read_committed {f : SPIFlash} (hdvd : 4096 ∣ f.capacity) (hroom : 8192 ≤ f.capacity)
    (hcap : f.capacity ≤ 16777216) {W₀ : Nat} (_ : 64 ∣ W₀) {s : Writer}
    (hs : WriterRun (begin f 64) W₀ s) {r n : Nat} (hr : s.Covers r n)
    (hfit : PartsFit s.ring.maxRecord r n) : s.ReadsBack r n := by
  intro k busy out hout hok
  have hmax := hs.maxRecord
  have hle := hr.le
  have hback := hr.back
  rcases Nat.eq_or_lt_of_le hroom with h0 | hpos
  · -- a chip of the reserved bytes alone has no ring
    have : s.ring.maxRecord = 0 := by
      rw [hmax, begin, ← h0]
      rfl
    omega
  · have hm₀ := mounted_begin hdvd hpos hcap
    obtain ⟨hm, _⟩ := hs.retains hm₀
    rw [readData_eq] at hok ⊢
    rw [hm.readRecords_eq hout (by omega) hfit hok, hs.cells_eq hm₀ hback hr.committed]

/-! ### Runs on chips that work -/

theorem record_replicate {n k : Nat} (b : UInt8) (hk : k < n) :
    Writer.record (List.replicate (64 * n) b) k = List.replicate 64 b := by
  rw [Writer.record, List.drop_replicate, List.take_replicate]
  congr 1
  omega

/-- A chip that works takes every batch: `k` of them, 21 records each. -/
theorem WriterRun.fill {m₀ : SPIFlashMeter} (hm₀ : m₀.Mounted) (hmax : 128 ≤ m₀.maxRecord)
    (b : UInt8) : ∀ {k : Nat}, 21 * k ≤ 4294967296 →
    ∃ s, WriterRun m₀ 0 s ∧ s.next = 21 * k ∧ s.ring.Ready s.next ∧
      ∀ j < s.next, s.hist j = some (List.replicate 64 b) := by
  intro k
  induction k with
  | zero => exact fun _ => ⟨_, .start, rfl, Or.inl rfl, fun j hj => absurd hj (Nat.not_lt_zero j)⟩
  | succ k ih =>
    intro hk
    obtain ⟨s, hs, hnext, hready, hhist⟩ := ih (by omega)
    obtain ⟨hm, _⟩ := hs.retains hm₀
    have hlen : (List.replicate (64 * 21) b).length = 64 * 21 := List.length_replicate
    obtain ⟨hok, hready'⟩ := hm.append hlen (by omega) (show s.next + 21 ≤ _ by omega)
      (by rw [hs.maxRecord]; exact hmax) hready
    have hwrite : s.write .meter .healthy 21 (List.replicate (64 * 21) b) =
        { ring := (s.ring.writeRecords .healthy s.next (List.replicate (64 * 21) b)).2
          next := s.next + 21
          hist := fun j => if s.next ≤ j ∧ j < s.next + 21 then
              some (Writer.record (List.replicate (64 * 21) b) (j - s.next)) else s.hist j } := by
      rw [Writer.write, writeData_eq]
      simp only [hok, if_true]
    refine ⟨_, hs.write .meter .healthy (n := 21) (by omega) hlen (by omega) (by omega), ?_⟩
    rw [hwrite]
    refine ⟨by simp only [hnext, Nat.mul_succ], hready', fun j hj => ?_⟩
    simp only at hj ⊢
    split
    · rw [record_replicate b (by omega)]
    · exact hhist j (by omega)

/-- One batch on a chip of 64 KiB, read back. -/
theorem read_committed_first :
    ∃ s : Writer, WriterRun (begin (blankChip 65536) 64) 0 s ∧ s.next = 21 ∧ s.ReadsBack 0 21 ∧
      (s.ring.readData .meter (false, false) 0 (List.replicate 1344 0)).1 = true := by
  have hm : (begin (blankChip 65536) 64).Mounted :=
    mounted_begin (by decide) (by decide) (by decide)
  have hmax : (begin (blankChip 65536) 64).maxRecord = 896 := rfl
  obtain ⟨s, hs, hnext, _, hhist⟩ := WriterRun.fill hm (by omega) 1 (k := 1) (by omega)
  have hring := hs.maxRecord
  refine ⟨s, hs, hnext, ?_, ?_⟩
  · refine read_committed (by decide) (by decide) (by decide) (Nat.dvd_zero 64) hs
      ⟨by omega, by omega, fun j _ h => ?_⟩ (partsFit_of_lt (by omega) (by omega))
    rw [hhist j (by omega)]
    exact Option.some_ne_none _
  · rw [readData_eq]
    exact readRecords_idle _ _ _

/-- The statement for one chip, with a read of any length. -/
def RetainsOn (f : SPIFlash) : Prop :=
  ∀ W₀ s r n, 64 ∣ W₀ → WriterRun (begin f 64) W₀ s → s.Covers r n → s.ReadsBack r n

/-- Two records on a chip of one sector: both are sent to address 0. -/
def oneSectorRun : Writer :=
  ((⟨begin (blankChip 4096) 64, 0, fun _ => none⟩ : Writer).write .meter .healthy 1
    (List.replicate 64 0xFF)).write .meter .healthy 1 (List.replicate 64 0)

/-- **A read of `2^16` bytes returns none of them**, and a chip smaller than the
reserved bytes has every record at address 0. -/
theorem not_readsBack : ¬ RetainsOn (blankChip 131072) ∧ ¬ RetainsOn (blankChip 4096) := by
  constructor
  · intro h
    have hm : (begin (blankChip 131072) 64).Mounted :=
      mounted_begin (by decide) (by decide) (by decide)
    have hmax : (begin (blankChip 131072) 64).maxRecord = 1920 := rfl
    obtain ⟨s, hs, hnext, _, hhist⟩ := WriterRun.fill hm (by omega) 1 (k := 49) (by omega)
    obtain ⟨hring, _⟩ := hs.retains hm
    have hs1920 : s.ring.maxRecord = 1920 := hs.maxRecord.trans hmax
    have hread := h 0 s 0 1024 (Nat.dvd_zero 64) hs ⟨by omega, by omega, fun j _ hj => by
      rw [hhist j (by omega)]
      exact Option.some_ne_none _⟩ .meter (false, false) (List.replicate 65536 0)
      List.length_replicate (by rw [readData_eq]; exact readRecords_idle _ _ _)
    have hout : (s.ring.readRecords (false, false) 0 (List.replicate 65536 0)).2 =
        List.replicate 65536 0 := by
      rw [readRecords, List.length_replicate, hring.splitAt (n := 1024) (by omega),
        if_neg (by rw [Nat.zero_mod]; omega)]
      rfl
    rw [readData_eq, hout, Writer.committed, List.range_succ_eq_map, List.map_cons,
      hhist (0 + 0) (by omega)] at hread
    have := congrArg List.head? hread
    rw [List.head?_replicate, List.flatten_cons, Option.getD_some, List.head?_append,
      List.head?_replicate, if_neg (by decide), if_neg (by decide), Option.some_or] at this
    exact absurd this (by decide)
  · intro h
    have hfirst : (Writer.write ⟨begin (blankChip 4096) 64, 0, fun _ => none⟩ .meter .healthy 1
        (List.replicate 64 0xFF)).next ≤ 0 + 1 := Writer.write_next_le _ _ _ _ _
    have hs : WriterRun (begin (blankChip 4096) 64) 0 oneSectorRun :=
      (WriterRun.start.write .meter .healthy (n := 1) (by omega) rfl (by decide) (by decide)).write
        .meter .healthy (n := 1) (by omega) rfl (by omega) (by omega)
    have hmax : oneSectorRun.ring.maxRecord = 67108800 := hs.maxRecord
    -- the zeros have gone where the first record is read from
    obtain ⟨hnext, hhist, hcell⟩ : oneSectorRun.next = 1 ∧
        oneSectorRun.hist 0 = some (List.replicate 64 0xFF) ∧
        (oneSectorRun.ring.readData .meter (false, false) 0 (List.replicate 64 0)).2 =
          List.replicate 64 0 := by
      decide +kernel
    generalize oneSectorRun = s at hs hmax hnext hhist hcell
    have hread := h 0 s 0 1 (Nat.dvd_zero 64) hs ⟨by omega, by omega, fun j _ hj => by
      obtain rfl : j = 0 := by omega
      rw [hhist]
      exact Option.some_ne_none _⟩ .meter (false, false) (List.replicate 64 0) rfl
      (by rw [readData_eq]; exact readRecords_idle _ _ _)
    rw [hcell, Writer.committed, List.range_one, List.map_cons, List.map_nil, hhist] at hread
    exact absurd (congrArg List.head? hread) (by decide)

end EnresLogger
