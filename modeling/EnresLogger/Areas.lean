import EnresLogger.SPIFlashMeter
import Mathlib.Data.List.Nodup

/-!
# Data and configuration

The first `reserveSize` bytes of the chip are not the ring's.  Here a transfer
is taken apart into the calls of the driver it makes: the erases, and the one or
two parts of the buffer.  `writeRecords_eq` and `readRecords_parts` say that it
makes these and no others.

`areas_apart` says that, for every index, all these calls stay behind the
reserved bytes and before the end of the chip.  The index of a record may
run past `2^32` within a batch; the erase is then that of another sector of the
ring, but still of the ring.
-/

namespace EnresLogger

open Lib

/-! ### Calls of the driver -/

/-- A range of the chip that the driver is asked for. -/
inductive Access
  | erase (address : Nat)
  | program (address size : Nat)
  | read (address size : Nat)
  deriving DecidableEq, Repr

namespace Access

def address : Access → Nat
  | erase a | program a _ | read a _ => a

def size : Access → Nat
  | erase _ => 4096
  | program _ n | read _ n => n

/-- Between the reserved bytes and the end of the chip, where `_addressCheck`
leaves the address as it is. -/
structure Inside (f : SPIFlash) (a : Access) : Prop where
  ge : SPIFlashMeter.reserveSize ≤ a.address
  le : a.address + a.size ≤ f.capacity
  check : ∀ f' : SPIFlash, f'.capacity = f.capacity →
    f'.addressCheck a.address a.size = a.address
  aligned : ∀ s, a = .erase s → SPIFlashMeter.sectorSize ∣ s

end Access

namespace SPIFlashMeter

/-- The erases of a write of `numRec` records: the record, and the address. -/
def erases (m : SPIFlashMeter) (index numRec : Nat) : List (Nat × Nat) :=
  ((List.range numRec).filter fun i =>
      (index + i) % 4294967296 % (sectorSize / m.recordSize) = 0).map
    fun i => (i, m.recordAddress ((index + i) % 4294967296))

/-- The one or two parts of a transfer: their addresses and sizes. -/
def parts (m : SPIFlashMeter) (index size : Nat) : List (Nat × Nat) :=
  match m.splitAt index size with
  | some k => [(m.recordAddress index, k), (reserveSize, size - k)]
  | none => [(m.recordAddress index, size)]

def writeAccesses (m : SPIFlashMeter) (index size : Nat) : List Access :=
  ((m.erases index (size / m.recordSize % 256)).map fun e => .erase e.2) ++
    (m.parts index size).map fun p => .program p.1 p.2

def readAccesses (m : SPIFlashMeter) (index size : Nat) : List Access :=
  (m.parts index size).map fun p => .read p.1 p.2

/-- One erase after the other. -/
def eraseAll (o : Nat → EraseOutcome) (f : SPIFlash) (es : List (Nat × Nat)) : SPIFlash :=
  es.foldl (fun f e => (f.eraseSector (o e.1) e.2).2) f

/-- One part of the buffer after the other. -/
def programAll : List ProgOutcome → SPIFlash → List (Nat × Nat) → List UInt8 → Bool × SPIFlash
  | o :: os, f, (a, n) :: ps, buff =>
      let r := f.writeByteArray o a (buff.take n)
      let r' := programAll os r.2 ps (buff.drop n)
      (r.1 && r'.1, r'.2)
  | _, f, _, _ => (true, f)

def readAll : List Bool → SPIFlash → List (Nat × Nat) → List UInt8 → Bool × List UInt8
  | busy :: bs, f, (a, n) :: ps, out =>
      let r := f.readByteArray busy a n (out.take n)
      let r' := readAll bs f ps (out.drop n)
      (r.1 && r'.1, r.2 ++ r'.2)
  | _, _, _, out => (true, out)

/-! ### A transfer is its calls -/

theorem eraseLoop_eq (m : SPIFlashMeter) (o : Nat → EraseOutcome) (index numRec : Nat) :
    m.eraseLoop o index numRec = eraseAll o m.flash (m.erases index numRec) := by
  rw [eraseLoop, eraseAll, erases, List.foldl_map, List.foldl_filter]
  simp only [decide_eq_true_eq]

/-- **A write is its erases and its parts.** -/
theorem writeRecords_eq (m : SPIFlashMeter) (o : WriteOutcome) (index : Nat) (buff : List UInt8) :
    m.writeRecords o index buff =
      let r := programAll [o.first, o.second]
        (eraseAll o.erase m.flash (m.erases index (buff.length / m.recordSize % 256)))
        (m.parts index buff.length) buff
      (r.1, { m with flash := r.2 }) := by
  rw [writeRecords, eraseLoop_eq, parts]
  cases m.splitAt index buff.length with
  | none => simp only [programAll, List.take_length, Bool.and_true]
  | some k =>
    have htake : (buff.drop k).take (buff.length - k) = buff.drop k :=
      List.take_of_length_le (Nat.le_of_eq List.length_drop)
    simp only [programAll, htake, Bool.and_true]

/-- **A read is its parts.** -/
theorem readRecords_parts (m : SPIFlashMeter) (busy : Bool × Bool) (index : Nat)
    (out : List UInt8) :
    m.readRecords busy index out =
      readAll [busy.1, busy.2] m.flash (m.parts index out.length) out := by
  rw [readRecords, parts]
  cases m.splitAt index out.length with
  | none => simp only [readAll, List.take_length, List.drop_length, Bool.and_true, List.append_nil]
  | some k =>
    have htake : (out.drop k).take (out.length - k) = out.drop k :=
      List.take_of_length_le (Nat.le_of_eq List.length_drop)
    have hdrop : (out.drop k).drop (out.length - k) = [] :=
      List.drop_of_length_le (Nat.le_of_eq List.length_drop)
    simp only [readAll, htake, hdrop, Bool.and_true, List.append_nil]

/-! ### Arithmetic -/

/-- The products, sums and differences of a transfer of `n` records stay in 32
bits, and the number of records in 8. -/
structure NoWrap (m : SPIFlashMeter) (index n : Nat) : Prop where
  capacity : reserveSize ≤ m.flash.capacity ∧ m.flash.capacity < 4294967296
  address : ∀ i, i % m.maxRecord * m.recordSize + reserveSize < 4294967296
  sum : index % m.maxRecord + 64 * n / m.recordSize < 4294967296
  number : 64 * n / m.recordSize < 256
  rest : index % m.maxRecord ≤ m.maxRecord ∧
    (m.maxRecord - index % m.maxRecord) * m.recordSize < 4294967296
  tail : m.maxRecord < index % m.maxRecord + 64 * n / m.recordSize →
    (m.maxRecord - index % m.maxRecord) * m.recordSize ≤ 64 * n

/-- The bytes of the chip that take the bytes of the buffer, in order. -/
def places (ps : List (Nat × Nat)) : List Nat :=
  ps.flatMap fun p => (List.range p.2).map (p.1 + ·)

section Mounted

variable {m : SPIFlashMeter} (hm : m.Mounted) {index n : Nat}
include hm

theorem Mounted.noWrap (hn : n ≤ 21) : NoWrap m index n := by
  have h1 := hm.capacity
  have h2 := hm.bus
  have h3 := hm.mod_lt index
  have h4 := hm.max_lt
  have hsize := hm.recordSize
  refine ⟨⟨by rw [h1, reserveSize]; omega, by omega⟩, fun i => ?_, ?_, ?_, ⟨Nat.le_of_lt h3, ?_⟩,
    ?_⟩
  · have := hm.mod_lt i
    rw [hsize, reserveSize]
    omega
  · rw [hsize]
    omega
  · rw [hsize]
    omega
  · rw [hsize]
    omega
  · rw [hsize]
    omega

theorem Mounted.parts (hn : n ≤ 21) :
    m.parts index (64 * n) =
      if m.maxRecord < index % m.maxRecord + n then
        [(loc (index % m.maxRecord), 64 * (m.maxRecord - index % m.maxRecord)),
          (loc 0, 64 * (index % m.maxRecord + n - m.maxRecord))]
      else [(loc (index % m.maxRecord), 64 * n)] := by
  have h1 := hm.mod_lt index
  rw [SPIFlashMeter.parts, hm.splitAt (by omega), hm.recordAddress]
  by_cases h : m.maxRecord < index % m.maxRecord + n
  · rw [if_pos h, if_pos h]
    have hsize : 64 * n - 64 * (m.maxRecord - index % m.maxRecord) =
        64 * (index % m.maxRecord + n - m.maxRecord) := by omega
    simp only [hsize]
    rfl
  · rw [if_neg h, if_neg h]

theorem Mounted.inside {p k : Nat} (hp : p < m.maxRecord) (hk : p + k ≤ m.maxRecord)
    {a : Access} (haddr : a.address = loc p) (hsize : a.size = 64 * k)
    (herase : ∀ s, a = .erase s → sectorSize ∣ s) : a.Inside m.flash := by
  have hr := hm.inRange (f := m.flash) rfl hp hk
  refine ⟨?_, ?_, fun f' hf => ?_, herase⟩
  · rw [haddr, loc, reserveSize]
    omega
  · rw [haddr, hsize]
    exact hr.le
  · rw [haddr, hsize]
    exact (hm.inRange hf hp hk).addressCheck

theorem Mounted.part_inside (hn : n ≤ 21) {q : Nat × Nat} (hq : q ∈ m.parts index (64 * n)) :
    ∃ p k, p < m.maxRecord ∧ p + k ≤ m.maxRecord ∧ k ≤ n ∧ q = (loc p, 64 * k) := by
  have h1 := hm.mod_lt index
  have h2 := hm.le_max
  rw [hm.parts hn] at hq
  split at hq
  · rcases List.mem_cons.mp hq with rfl | hq
    · exact ⟨_, _, h1, by omega, by omega, rfl⟩
    · rw [List.mem_singleton.mp hq]
      exact ⟨0, _, hm.pos, by omega, by omega, rfl⟩
  · rw [List.mem_singleton.mp hq]
    exact ⟨_, _, h1, by omega, by omega, rfl⟩

theorem Mounted.erase_inside {e : Nat × Nat} (he : e ∈ m.erases index n) :
    (Access.erase e.2).Inside m.flash := by
  rw [erases, List.mem_map] at he
  obtain ⟨i, hi, rfl⟩ := he
  rw [List.mem_filter, hm.recordSize, decide_eq_true_eq] at hi
  have h1 := hm.mod_lt ((index + i) % 4294967296)
  have h2 := hm.mod_sector ((index + i) % 4294967296)
  obtain ⟨q, hq⟩ := hm.sectors
  have hstart : (index + i) % 4294967296 % m.maxRecord % 64 = 0 := by
    rw [h2]
    exact hi.2
  refine hm.inside h1 (k := 64) (by omega) (hm.recordAddress _) rfl (fun s hs => ?_)
  obtain rfl : m.recordAddress ((index + i) % 4294967296) = s := Access.erase.inj hs
  rw [hm.recordAddress, loc, sectorSize]
  omega

/-- **Every call stays in the ring.** -/
theorem Mounted.accesses_inside (hn : n ≤ 21) :
    ∀ a ∈ m.writeAccesses index (64 * n) ++ m.readAccesses index (64 * n), a.Inside m.flash := by
  intro a ha
  rw [writeAccesses, readAccesses, List.mem_append, List.mem_append, List.mem_map, List.mem_map,
    List.mem_map] at ha
  rcases ha with (⟨e, he, rfl⟩ | ⟨q, hq, rfl⟩) | ⟨q, hq, rfl⟩
  · exact hm.erase_inside he
  · obtain ⟨p, k, hp, hk, _, rfl⟩ := hm.part_inside hn hq
    exact hm.inside hp hk rfl rfl (fun s hs => nomatch hs)
  · obtain ⟨p, k, hp, hk, _, rfl⟩ := hm.part_inside hn hq
    exact hm.inside hp hk rfl rfl (fun s hs => nomatch hs)

/-- **Byte `j` of the buffer is byte `j % 64` of record `j / 64`.** -/
theorem Mounted.places_eq (hn : n ≤ 21) :
    places (m.parts index (64 * n)) =
      (List.range (64 * n)).map fun j => m.recordAddress (index + j / 64) + j % 64 := by
  have h1 := hm.mod_lt index
  have h2 := hm.le_max
  rw [hm.parts hn, places]
  by_cases h : m.maxRecord < index % m.maxRecord + n
  · -- the second part begins with the location 0
    have hsum : 64 * n = 64 * (m.maxRecord - index % m.maxRecord) +
        64 * (index % m.maxRecord + n - m.maxRecord) := by omega
    rw [if_pos h, hsum, List.range_add, List.map_append, List.map_map, List.flatMap_cons,
      List.flatMap_cons, List.flatMap_nil, List.append_nil]
    generalize hbase : loc 0 = base
    dsimp only
    refine congrArg₂ (· ++ ·) ?_ ?_
    · apply List.map_congr_left
      intro j hj
      have hj := List.mem_range.mp hj
      rw [hm.recordAddress, ring_add (by omega), loc, loc]
      omega
    · apply List.map_congr_left
      intro j hj
      have hj := List.mem_range.mp hj
      dsimp only [Function.comp]
      rw [hm.recordAddress, ring_add_wrap (by omega) (by omega), ← hbase, loc, loc]
      omega
  · rw [if_neg h]
    simp only [List.flatMap_cons, List.flatMap_nil, List.append_nil]
    apply List.map_congr_left
    intro j hj
    have hj := List.mem_range.mp hj
    rw [hm.recordAddress, ring_add (by omega), loc, loc]
    omega

/-- No byte of the chip is meant twice. -/
theorem Mounted.places_nodup (hn : n ≤ 21) : (places (m.parts index (64 * n))).Nodup := by
  have h2 := hm.le_max
  rw [hm.places_eq hn]
  refine List.Nodup.map_on (fun j hj j' hj' h => ?_) List.nodup_range
  have hj := List.mem_range.mp hj
  have hj' := List.mem_range.mp hj'
  rw [hm.recordAddress, hm.recordAddress, loc, loc] at h
  have hcell : (index + j / 64) % m.maxRecord = (index + j' / 64) % m.maxRecord := by omega
  have hrecord : j / 64 = j' / 64 := by
    rcases Nat.lt_trichotomy (j / 64) (j' / 64) with hlt | heq | hgt
    · exact absurd hcell (ring_ne (by omega) (by omega))
    · exact heq
    · exact absurd hcell.symm (ring_ne (by omega) (by omega))
  omega

/-! ### The reserved bytes -/

omit hm in
/-- Erases inside leave the bytes before them, and the size of the chip. -/
theorem eraseAll_reserved (o : Nat → EraseOutcome) {f : SPIFlash} {es : List (Nat × Nat)}
    (hes : ∀ e ∈ es, (Access.erase e.2).Inside m.flash) (hbus : m.flash.capacity ≤ 16777216)
    {x : Nat} (hx : x < reserveSize) :
    (eraseAll o f es).mem x = f.mem x ∧ (eraseAll o f es).capacity = f.capacity := by
  induction es generalizing f with
  | nil => exact ⟨rfl, rfl⟩
  | cons e es ih =>
    have hin := hes e List.mem_cons_self
    obtain ⟨new, heff, hnew⟩ := f.eraseSector_effect (o e.1) e.2
    have hkeep : (f.eraseSector (o e.1) e.2).2.mem x = f.mem x := by
      refine heff.frame x (fun c hc => ?_)
      have hge : reserveSize ≤ e.2 := hin.ge
      have hle : e.2 + 4096 ≤ m.flash.capacity := hin.le
      have hbase : SPIFlash.busAddress e.2 / 4096 * 4096 = e.2 := by
        have hdvd := hin.aligned e.2 rfl
        rw [SPIFlash.busAddress, Nat.mod_eq_of_lt (by omega)]
        exact Nat.div_mul_cancel hdvd
      rw [hnew c hc, hbase]
      simp only [Cmd.Covers]
      omega
    obtain ⟨hmem, hcap⟩ := @ih (f.eraseSector (o e.1) e.2).2
      (fun e' he' => hes e' (List.mem_cons_of_mem _ he'))
    exact ⟨hmem.trans hkeep, hcap.trans heff.capacity⟩

theorem Mounted.programAll_reserved {os : List ProgOutcome} {f : SPIFlash}
    {ps : List (Nat × Nat)} {buff : List UInt8} (hf : f.capacity = m.flash.capacity)
    (hps : ∀ q ∈ ps, ∃ p k, p < m.maxRecord ∧ p + k ≤ m.maxRecord ∧ k ≤ 21 ∧ q = (loc p, 64 * k))
    {x : Nat} (hx : x < reserveSize) : (programAll os f ps buff).2.mem x = f.mem x := by
  induction ps generalizing os f buff with
  | nil => cases os <;> rfl
  | cons q ps ih =>
    cases os with
    | nil => rfl
    | cons o os =>
      obtain ⟨p, k, hp, hk, hk21, rfl⟩ := hps q List.mem_cons_self
      have hrange := hm.inRange hf hp hk
      have hle : (buff.take (64 * k)).length ≤ 64 * k := List.length_take_le _ _
      have hr : f.InRange (loc p) (buff.take (64 * k)).length :=
        ⟨hrange.lt, Nat.le_trans (by omega) hrange.le, Nat.le_trans (by omega) hrange.bus⟩
      obtain ⟨new, heff, hnew⟩ := SPIFlash.writeByteArray_effect (o := o) hr (by omega)
      have hkeep : (f.writeByteArray o (loc p) (buff.take (64 * k))).2.mem x = f.mem x := by
        refine heff.frame x (fun c hc => ?_)
        rw [hnew c hc]
        simp only [Cmd.Covers, loc]
        rw [reserveSize] at hx
        omega
      exact (ih (heff.capacity.trans hf) (fun q' hq' => hps q' (List.mem_cons_of_mem _ hq'))).trans
        hkeep

/-- **A write leaves the reserved bytes alone**, and so the configuration. -/
theorem Mounted.writeRecords_reserved (o : WriteOutcome) {buff : List UInt8}
    (hlen : buff.length = 64 * n) (hn : n ≤ 21) {x : Nat} (hx : x < reserveSize) :
    (m.writeRecords o index buff).2.flash.mem x = m.flash.mem x := by
  obtain ⟨hmem, hcap⟩ := @eraseAll_reserved m o.erase m.flash
    (m.erases index (buff.length / m.recordSize % 256)) (fun e he => hm.erase_inside he) hm.bus x hx
  rw [writeRecords_eq]
  refine (hm.programAll_reserved hcap (fun q hq => ?_) hx).trans hmem
  rw [hlen] at hq
  obtain ⟨p, k, hp, hk, hkn, rfl⟩ := hm.part_inside hn hq
  exact ⟨p, k, hp, hk, by omega, rfl⟩

end Mounted

/-- **Data and configuration never mix**: on every chip of whole sectors, for
every index and up to 21 records, nothing wraps, every erase, program
and read stays between the reserved bytes and the end of the chip, where
`_addressCheck` accepts it, and the parts take each byte of the buffer to its
own place in the ring.  Writing and reading, of whatever kind, are these calls. -/
theorem areas_apart (f : SPIFlash) (h1 : 4096 ∣ f.capacity)
    (h2 : 65536 ≤ f.capacity ∧ f.capacity ≤ 16777216) (index n : Nat) (hn : n ≤ 21) (k : Kind) :
    let m := begin f 64
    (NoWrap m index n ∧
      ∀ a ∈ m.writeAccesses index (64 * n) ++ m.readAccesses index (64 * n), a.Inside f) ∧
    (places (m.parts index (64 * n)) =
        (List.range (64 * n)).map (fun j => m.recordAddress (index + j / 64) + j % 64) ∧
      (places (m.parts index (64 * n))).Nodup ∧ (m.parts index (64 * n)).length ≤ 2) ∧
    (∀ o (buff : List UInt8), buff.length = 64 * n →
      (writeData k m o index buff =
        let r := programAll [o.first, o.second] (eraseAll o.erase f (m.erases index n))
          (m.parts index (64 * n)) buff
        (r.1, { m with flash := r.2 })) ∧
      ∀ x < reserveSize, (writeData k m o index buff).2.flash.mem x = f.mem x) ∧
    ∀ busy (out : List UInt8), out.length = 64 * n →
      readData k m busy index out = readAll [busy.1, busy.2] f (m.parts index (64 * n)) out := by
  intro m
  have hm : m.Mounted := mounted_begin h1 (by omega) h2.2
  refine ⟨⟨hm.noWrap hn, hm.accesses_inside hn⟩,
    ⟨hm.places_eq hn, hm.places_nodup hn, ?_⟩, fun o buff hlen => ⟨?_, fun x hx => ?_⟩,
    fun busy out hlen => ?_⟩
  · rw [hm.parts hn]
    split
    · exact Nat.le_refl 2
    · exact Nat.le_succ 1
  · have hnum : buff.length / m.recordSize % 256 = n := by
      rw [hlen, hm.recordSize]
      omega
    rw [writeData_eq, writeRecords_eq, hnum, hlen]
    rfl
  · rw [writeData_eq]
    exact hm.writeRecords_reserved o hlen hn hx
  · rw [readData_eq, readRecords_parts, hlen]
    rfl

/-- 21 records at the end of the indices, on the smallest chip. -/
theorem areas_apart_last :
    NoWrap (begin (blankChip 65536) 64) 4294967293 21 ∧
      List.Forall (fun a => a.Inside (blankChip 65536))
        ((begin (blankChip 65536) 64).writeAccesses 4294967293 1344 ++
          (begin (blankChip 65536) 64).readAccesses 4294967293 1344) := by
  have h := areas_apart (blankChip 65536) ⟨16, rfl⟩ ⟨Nat.le_refl _, by decide⟩ 4294967293 21
    (Nat.le_refl 21) .meter
  exact ⟨h.1.1, List.forall_iff_forall_mem.mpr h.1.2⟩

end SPIFlashMeter

end EnresLogger
