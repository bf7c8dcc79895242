import EnresLogger.Lib.Nor
import EnresLogger.SPIFlash

/-!
# The driver on the wire

`SPIFlash.cpp` again, this time byte for byte: `Driver` is the object and the chip
at the other end of its bus.  A call selects the chip, exchanges bytes with it and
deselects it.  `patience` is the clock: how many reads of the status register come
before the time of a wait is over.

The calls of `SPIFlash.lean` are what these come to.  `notBusy_spec` and
`writeEnable_spec` are about the two waits, `programPages_spec` about the page
loop, and `writeByteArray_refines`, `readByteArray_refines` and
`eraseSector_refines` put them together.

A write whose read-back finds another byte returns without deselecting the chip.
The next call takes a byte of the record for the status register, and a read or a
write comes through it; an erase may not: `eraseSector_leftBehind`.
-/

namespace EnresLogger

open Lib

def READSTAT1 : UInt8 := 0x05
def READDATA : UInt8 := 0x03
def PAGEPROG : UInt8 := 0x02
def WRITEENABLE : UInt8 := 0x06
def SECTORERASE : UInt8 := 0x20

def BUSY : UInt8 := 0x01
def WRTEN : UInt8 := 0x02

def CALLBEGIN : UInt8 := 0x01
def UNKNOWNCAP : UInt8 := 0x03
def CHIPBUSY : UInt8 := 0x04
def CANTENWRITE : UInt8 := 0x06
def NORESPONSE : UInt8 := 0x0C

structure Driver where
  chip : Nor
  /-- `_chip.capacity` -/
  capacity : Nat
  /-- `_chip.eraseTime` -/
  eraseTime : Nat
  errorcode : UInt8
  state : UInt8
  /-- `_currentAddress` -/
  currentAddress : Nat
  /-- reads of the status register in the time of the `k`-th wait -/
  patience : Nat → Nat
  waits : Nat

namespace Driver

/-! ### The bus -/

/-- `_transferAddress` -/
def addressBytes (address : Nat) : List UInt8 :=
  [UInt8.ofNat (address / 65536), UInt8.ofNat (address / 256), UInt8.ofNat address]

/-- `_nextByte(b)`, with what the chip gives back. -/
def nextByte (b : UInt8) (d : Driver) : UInt8 × Driver :=
  let r := d.chip.transfer b
  (r.1, { d with chip := r.2 })

/-- `_nextByte` for each of the bytes. -/
def nextBytes (bs : List UInt8) (d : Driver) : Driver := { d with chip := d.chip.send bs }

/-- `_beginSPI`, for the instructions that are used. -/
def beginSPI (opcode : UInt8) (d : Driver) : Driver :=
  let d := { d with chip := d.chip.select }
  d.nextBytes (opcode ::
    if opcode = READDATA ∨ opcode = PAGEPROG then addressBytes d.currentAddress else [])

/-- `CHIP_DESELECT`, and `_endSPI`. -/
def endSPI (d : Driver) : Driver := { d with chip := d.chip.deselect }

def readStat1 (d : Driver) : UInt8 × Driver :=
  let r := (d.beginSPI READSTAT1).nextByte 0
  (r.1, r.2.endSPI)

/-- `a && b`, where `b` is not called if `a` fails. -/
def andThen (r : Bool × Driver) (f : Driver → Bool × Driver) : Bool × Driver :=
  if r.1 then f r.2 else (false, r.2)

/-! ### Waiting -/

/-- `_notBusy`, with `n` reads left in its time. -/
def notBusyLoop : Nat → Driver → Bool × Driver
  | 0, d =>
      let r := d.readStat1
      (false, { r.2 with state := r.1, errorcode := CHIPBUSY }.endSPI)
  | n + 1, d =>
      let r := d.readStat1
      let d := { r.2 with state := r.1 }
      if d.state &&& BUSY ≠ 0 then notBusyLoop n d else (true, d)

def notBusy (d : Driver) : Bool × Driver :=
  notBusyLoop (d.patience d.waits) { d with waits := d.waits + 1 }

/-- The loop of `_writeEnable`. -/
def writeEnableLoop : Nat → Driver → Bool × Driver
  | 0, d =>
      let r := (d.beginSPI WRITEENABLE).endSPI.readStat1
      (false, { r.2 with state := r.1, errorcode := CANTENWRITE }.endSPI)
  | n + 1, d =>
      let r := (d.beginSPI WRITEENABLE).endSPI.readStat1
      let d := { r.2 with state := r.1 }
      if d.state &&& WRTEN = 0 then writeEnableLoop n d else (true, d)

/-- The latch is only set if the last status did not show it. -/
def writeEnable (d : Driver) : Bool × Driver :=
  if d.state &&& WRTEN = 0 then
    writeEnableLoop (d.patience d.waits) { d with waits := d.waits + 1 }
  else (true, d)

/-- `_notBusy() && _writeEnable()` -/
def enabled (d : Driver) : Bool × Driver := andThen d.notBusy writeEnable

/-! ### Before a transfer -/

/-- `_addressCheck` -/
def addressCheck (address size : Nat) (d : Driver) : Bool × Driver :=
  if d.errorcode = UNKNOWNCAP ∨ d.errorcode = NORESPONSE then (false, d)
  else if d.eraseTime = 0 then (false, { d with errorcode := CALLBEGIN })
  else if (List.range size).any fun i => d.capacity ≤ (address + i) % 4294967296 then
    (true, { d with currentAddress := 0 })
  else (true, { d with currentAddress := address })

/-- The loop of `_notPrevWritten`. -/
def blankLoop : Nat → Driver → Bool × Driver
  | 0, d => (true, d)
  | n + 1, d =>
      let r := d.nextByte 0
      if r.1 ≠ 0xFF then (false, r.2) else blankLoop n r.2

def notPrevWritten (size : Nat) (d : Driver) : Bool × Driver :=
  let r := blankLoop size (d.beginSPI READDATA)
  (r.1, r.2.endSPI)

def prep (opcode : UInt8) (address size : Nat) (d : Driver) : Bool × Driver :=
  andThen (d.addressCheck address size) fun d =>
    if opcode = PAGEPROG then
      andThen d.enabled fun d => d.notPrevWritten size
    else d.notBusy

/-! ### The calls -/

/-- The body of the page loop, behind its waits. -/
def page (bs : List UInt8) (d : Driver) : Driver :=
  let d := (d.beginSPI PAGEPROG).nextBytes bs
  { d with currentAddress := (d.currentAddress + bs.length) % 4294967296 }.endSPI

/-- The `while (length > 0)` loop. -/
def programPages : Nat → Nat → List UInt8 → Driver → Bool × Driver
  | 0, _, _, d => (true, d)
  | _ + 1, _, [], d => (true, d)
  | fuel + 1, maxBytes, data, d =>
      andThen d.enabled fun d =>
        programPages fuel 256 (data.drop maxBytes) (d.page (data.take maxBytes))

/-- The read-back: a byte that differs ends it at once. -/
def compare : List UInt8 → Driver → Bool × Driver
  | [], d => (true, d.endSPI)
  | b :: bs, d =>
      let r := d.nextByte 0
      if r.1 ≠ b then (false, r.2) else compare bs r.2

/-- `writeByteArray` behind `_prep`. -/
def writePages (address : Nat) (data : List UInt8) (d : Driver) : Bool × Driver :=
  andThen (programPages data.length (256 - address % 256) data d) fun d =>
    andThen d.notBusy fun d =>
      compare data ({ d with currentAddress := address }.beginSPI READDATA)

/-- `writeByteArray(address, data, size, true)`, and `writeCharArray`. -/
def writeByteArray (address : Nat) (data : List UInt8) (d : Driver) : Bool × Driver :=
  let data := data.take (data.length % 65536)
  andThen (d.prep PAGEPROG address data.length) (writePages address data)

/-- `_nextBuf(READDATA, ...)` -/
def nextBuf : Nat → Driver → List UInt8 × Driver
  | 0, d => ([], d)
  | n + 1, d =>
      let r := d.nextByte 0
      let r' := nextBuf n r.2
      (r.1 :: r'.1, r'.2)

/-- `readByteArray(address, out, size)` -/
def readByteArray (address size : Nat) (out : List UInt8) (d : Driver) :
    (Bool × List UInt8) × Driver :=
  let size := size % 65536
  let r := d.prep READDATA address size
  if r.1 then
    let r' := nextBuf size (r.2.beginSPI READDATA)
    ((true, r'.1 ++ out.drop size), r'.2.endSPI)
  else ((false, out), r.2)

/-- The erase itself: the last address byte is 0. -/
def sendErase (address : Nat) (d : Driver) : Driver :=
  ((d.beginSPI SECTORERASE).nextBytes
    [UInt8.ofNat (address / 65536), UInt8.ofNat (address / 256), 0]).endSPI

/-- `eraseSector(address)` -/
def eraseSector (address : Nat) (d : Driver) : Bool × Driver :=
  andThen d.enabled fun d => (d.sendErase address).notBusy

/-! ### What a wait changes -/

/-- The second one is the first one after some waiting: the chip is deselected and
its cells are the same. -/
def Waits (d d' : Driver) : Prop :=
  ∃ wel busy state errorcode waits,
    d' = { d with chip := { d.chip with wel, busy, taken := none }, state, errorcode, waits } ∧
      (errorcode = d.errorcode ∨ errorcode = CHIPBUSY ∨ errorcode = CANTENWRITE)

theorem Waits.trans {d d' d'' : Driver} (h : Waits d d') (h' : Waits d' d'') : Waits d d'' := by
  obtain ⟨wel, busy, state, errorcode, waits, rfl, herror⟩ := h
  obtain ⟨wel', busy', state', errorcode', waits', rfl, rfl | herror'⟩ := h'
  · exact ⟨_, _, _, _, _, rfl, herror⟩
  · exact ⟨_, _, _, _, _, rfl, Or.inr herror'⟩

/-- Deselected, and done with what it was told to do. -/
structure Idle (d : Driver) : Prop where
  taken : d.chip.taken = none
  busy : d.chip.busy = 0

/-- The last status read still shows the latch. -/
structure Ready (d : Driver) : Prop extends d.Idle where
  latch : d.state &&& WRTEN ≠ 0 ↔ d.chip.wel = true

/-! ### The status register -/

theorem status_busy (c : Nor) : c.status &&& BUSY ≠ 0 ↔ 0 < c.busy := by
  rw [Nor.status]
  by_cases h : 0 < c.busy
  · rw [if_pos h]
    exact iff_of_true (by decide) h
  · rw [if_neg h]
    refine iff_of_false ?_ h
    cases c.wel <;> decide

theorem status_latch {c : Nor} (h : c.busy = 0) : c.status &&& WRTEN ≠ 0 ↔ c.wel = true := by
  rw [Nor.status, if_neg (by omega)]
  cases c.wel <;> decide

theorem readStat1_closed {d : Driver} (h : d.chip.taken = none) :
    d.readStat1 = (d.chip.status, { d with chip := { d.chip with busy := d.chip.busy - 1 } }) := by
  obtain ⟨hstatus, hchip⟩ := Nor.select_status h 0
  show (((d.chip.select.send [0x05]).transfer 0).1,
    { d with chip := ((d.chip.select.send [0x05]).transfer 0).2.deselect }) = _
  rw [hstatus, hchip]

theorem readStat1_open {d : Driver} {a : Nat} (h : d.chip.Reads a) :
    d.readStat1 = (d.chip.cells ((a + 1) % 16777216),
      { d with chip := { d.chip with taken := none } }) := by
  obtain ⟨_, hopen, ts, hchip⟩ := h.transfer READSTAT1
  obtain ⟨hcell, hopen', ts', hchip'⟩ := hopen.transfer 0
  show (((d.chip.select.transfer READSTAT1).2.transfer 0).1,
    { d with chip := ((d.chip.select.transfer READSTAT1).2.transfer 0).2.deselect }) = _
  rw [h.select, hopen'.deselect, hcell, hchip', hchip]

/-! ### The waits -/

theorem notBusyLoop_spec (n : Nat) {d : Driver} (h : d.chip.taken = none) :
    let r := notBusyLoop n d
    Waits d r.2 ∧ r.2.chip.wel = d.chip.wel ∧ (r.1 = true → r.2.Ready) ∧
      (d.chip.busy < n → r.1 = true) := by
  induction n generalizing d with
  | zero =>
    rw [notBusyLoop, readStat1_closed h]
    dsimp only [endSPI]
    rw [Nor.deselect_closed (by exact h)]
    refine ⟨⟨d.chip.wel, d.chip.busy - 1, d.chip.status, CHIPBUSY, d.waits, by rw [← h],
      Or.inr (Or.inl rfl)⟩, rfl, fun hok => ?_, fun hlt => ?_⟩
    · cases hok
    · exact absurd hlt (Nat.not_lt_zero _)
  | succ n ih =>
    rw [notBusyLoop, readStat1_closed h]
    dsimp only
    by_cases hbusy : d.chip.status &&& BUSY ≠ 0
    · rw [if_pos hbusy]
      obtain ⟨hwaits, hwel, hready, hok⟩ := @ih { d with
        chip := { d.chip with busy := d.chip.busy - 1 }, state := d.chip.status } h
      have hfirst : Waits d { d with
          chip := { d.chip with busy := d.chip.busy - 1 }, state := d.chip.status } :=
        ⟨d.chip.wel, d.chip.busy - 1, d.chip.status, d.errorcode, d.waits, by rw [← h],
          Or.inl rfl⟩
      exact ⟨hfirst.trans hwaits, hwel, hready,
        fun hlt => hok (show d.chip.busy - 1 < n by
          have := (status_busy d.chip).mp hbusy
          omega)⟩
    · rw [if_neg hbusy]
      have hzero : d.chip.busy = 0 := by
        have := mt (status_busy d.chip).mpr hbusy
        omega
      refine ⟨⟨d.chip.wel, d.chip.busy - 1, d.chip.status, d.errorcode, d.waits, by rw [← h],
        Or.inl rfl⟩, rfl,
        fun _ => ⟨⟨h, ?_⟩, status_latch hzero⟩, fun _ => rfl⟩
      show d.chip.busy - 1 = 0
      omega

theorem notBusy_spec {d : Driver} (h : d.chip.taken = none) :
    Waits d d.notBusy.2 ∧ d.notBusy.2.chip.wel = d.chip.wel ∧
      (d.notBusy.1 = true → d.notBusy.2.Ready) ∧
      (d.chip.busy < d.patience d.waits → d.notBusy.1 = true) := by
  obtain ⟨hwaits, hwel, hready, hok⟩ :=
    @notBusyLoop_spec (d.patience d.waits) { d with waits := d.waits + 1 } h
  have hfirst : Waits d { d with waits := d.waits + 1 } :=
    ⟨d.chip.wel, d.chip.busy, d.state, d.errorcode, d.waits + 1, by rw [← h], Or.inl rfl⟩
  exact ⟨hfirst.trans hwaits, hwel, hready, hok⟩

/-- **A wait that begins while the chip gives back its cells**: one of them is
taken for the status. -/
theorem notBusy_open {d : Driver} {a : Nat} (h : d.chip.Reads a) :
    Waits d d.notBusy.2 ∧ d.notBusy.2.chip.wel = d.chip.wel ∧
      (d.notBusy.1 = true → d.notBusy.2.Idle) := by
  have hopen : Waits d { d with
      chip := { d.chip with taken := none }, state := d.chip.cells ((a + 1) % 16777216)
      waits := d.waits + 1 } :=
    ⟨d.chip.wel, d.chip.busy, _, d.errorcode, d.waits + 1, rfl, Or.inl rfl⟩
  have hread : ({ d with waits := d.waits + 1 } : Driver).chip.Reads a := h
  rw [notBusy]
  cases d.patience d.waits with
  | zero =>
    rw [notBusyLoop, readStat1_open hread]
    dsimp only [endSPI]
    rw [Nor.deselect_closed rfl]
    exact ⟨⟨d.chip.wel, d.chip.busy, _, CHIPBUSY, d.waits + 1, rfl, Or.inr (Or.inl rfl)⟩, rfl,
      fun hok => by cases hok⟩
  | succ n =>
    rw [notBusyLoop, readStat1_open hread]
    dsimp only
    split
    · obtain ⟨hwaits, hwel, hready, _⟩ := @notBusyLoop_spec n { d with
        chip := { d.chip with taken := none }, state := d.chip.cells ((a + 1) % 16777216)
        waits := d.waits + 1 } rfl
      exact ⟨hopen.trans hwaits, hwel, fun hok => (hready hok).toIdle⟩
    · exact ⟨hopen, rfl, fun _ => ⟨rfl, h.busy⟩⟩

theorem writeEnableLoop_spec (n : Nat) {d : Driver} (h : d.Idle) :
    let r := writeEnableLoop n d
    Waits d r.2 ∧ r.2.Idle ∧ (r.1 = true → r.2.chip.wel = true) ∧ (0 < n → r.1 = true) := by
  have henable : (d.beginSPI WRITEENABLE).endSPI = { d with chip := { d.chip with wel := true } } := by
    show ({ d with chip := (d.chip.select.send [0x06]).deselect } : Driver) = _
    rw [Nor.send_writeEnable h.taken h.busy]
  have hclosed : ({ d with chip := { d.chip with wel := true } } : Driver).chip.taken = none :=
    h.taken
  have hbusy : d.chip.busy - 1 = 0 := by
    have := h.busy
    omega
  have hlatch : ({ d.chip with wel := true } : Nor).status &&& WRTEN ≠ 0 :=
    (status_latch (c := { d.chip with wel := true }) h.busy).mpr rfl
  have hwaits : ∀ errorcode, (errorcode = d.errorcode ∨ errorcode = CHIPBUSY ∨
      errorcode = CANTENWRITE) → Waits d { d with
        chip := { d.chip with wel := true, busy := d.chip.busy - 1 }
        state := ({ d.chip with wel := true } : Nor).status, errorcode } := fun errorcode herror =>
    ⟨true, d.chip.busy - 1, _, errorcode, d.waits, by rw [← h.taken], herror⟩
  cases n with
  | zero =>
    rw [writeEnableLoop, henable, readStat1_closed hclosed]
    dsimp only [endSPI]
    rw [Nor.deselect_closed (by exact h.taken)]
    exact ⟨hwaits CANTENWRITE (Or.inr (Or.inr rfl)), ⟨h.taken, hbusy⟩, fun _ => rfl,
      fun h0 => absurd h0 (Nat.lt_irrefl 0)⟩
  | succ n =>
    rw [writeEnableLoop, henable, readStat1_closed hclosed]
    dsimp only
    rw [if_neg hlatch]
    exact ⟨hwaits d.errorcode (Or.inl rfl), ⟨h.taken, hbusy⟩, fun _ => rfl, fun _ => rfl⟩

/-- The latch is set when the state that was read last is to be trusted. -/
theorem writeEnable_spec {d : Driver} (h : d.Idle) :
    Waits d d.writeEnable.2 ∧ d.writeEnable.2.Idle ∧
      (d.Ready → d.writeEnable.1 = true → d.writeEnable.2.chip.wel = true) ∧
      (0 < d.patience d.waits → d.writeEnable.1 = true) := by
  rw [writeEnable]
  split
  · obtain ⟨hwaits, hidle, hwel, hok⟩ := @writeEnableLoop_spec (d.patience d.waits)
      { d with waits := d.waits + 1 } ⟨h.taken, h.busy⟩
    have hfirst : Waits d { d with waits := d.waits + 1 } :=
      ⟨d.chip.wel, d.chip.busy, d.state, d.errorcode, d.waits + 1, by rw [← h.taken], Or.inl rfl⟩
    exact ⟨hfirst.trans hwaits, hidle, fun _ => hwel, hok⟩
  · rename_i hstate
    exact ⟨⟨d.chip.wel, d.chip.busy, d.state, d.errorcode, d.waits, by rw [← h.taken], Or.inl rfl⟩,
      h, fun hready _ => hready.latch.mp hstate, fun _ => rfl⟩

/-! ### Reading -/

/-- The same, with these bytes taken. -/
def hold (d : Driver) (taken : Option (List UInt8)) : Driver :=
  { d with chip := { d.chip with taken } }

theorem hold_none {d : Driver} (h : d.chip.taken = none) : d.hold none = d := by
  rw [hold, ← h]

theorem addr_bytes (address : Nat) :
    Nor.addr (UInt8.ofNat (address / 65536)) (UInt8.ofNat (address / 256)) (UInt8.ofNat address) =
      SPIFlash.busAddress address := by
  rw [Nor.addr, SPIFlash.busAddress]
  simp only [UInt8.toNat_ofNat']
  omega

theorem beginSPI_read {d : Driver} (h : d.Idle) : ∃ ts,
    d.beginSPI READDATA = d.hold (some ts) ∧
      (d.hold (some ts)).chip.Reads (SPIFlash.busAddress d.currentAddress) := by
  obtain ⟨hreads, ts, hchip⟩ := Nor.reads_select h.taken h.busy
    (UInt8.ofNat (d.currentAddress / 65536)) (UInt8.ofNat (d.currentAddress / 256))
    (UInt8.ofNat d.currentAddress)
  rw [addr_bytes, hchip] at hreads
  refine ⟨ts, ?_, hreads⟩
  show ({ d with chip := d.chip.select.send _ } : Driver) = _
  rw [hold, ← hchip]
  rfl

theorem nextByte_reads {d : Driver} {a : Nat} (h : d.chip.Reads a) (ha : a < 16777216) :
    ∃ ts, d.nextByte 0 = (d.chip.cells a, d.hold (some ts)) ∧
      (d.hold (some ts)).chip.Reads (a + 1) := by
  obtain ⟨hcell, hreads, ts, hchip⟩ := h.transfer 0
  rw [Nat.mod_eq_of_lt ha] at hcell
  rw [hchip] at hreads
  refine ⟨ts, ?_, hreads⟩
  rw [nextByte, hcell, hchip]
  rfl

theorem blankLoop_spec {n : Nat} {d : Driver} {a : Nat} (h : d.chip.Reads a)
    (ha : a + n ≤ 16777216) : ∃ ts a', blankLoop n d = (d.chip.cells.blank a n, d.hold (some ts)) ∧
      (d.hold (some ts)).chip.Reads a' := by
  induction n generalizing d a with
  | zero =>
    obtain ⟨hbusy, h, m, l, ts, htaken, rfl⟩ := h
    refine ⟨_, _, ?_, hbusy, h, m, l, ts, rfl, rfl⟩
    rw [blankLoop, hold, ← htaken]
    rfl
  | succ n ih =>
    obtain ⟨ts, hbyte, hreads⟩ := nextByte_reads h (by omega)
    rw [blankLoop, hbyte, Mem.blank, Mem.read_succ, List.all_cons]
    dsimp only
    by_cases hff : d.chip.cells a = 0xFF
    · obtain ⟨ts', a', hloop, hreads'⟩ := ih hreads (by omega)
      rw [if_neg (not_not_intro hff), hloop, hff]
      exact ⟨ts', a', by simp only [beq_self_eq_true, Bool.true_and]; rfl, hreads'⟩
    · rw [if_pos hff, beq_false_of_ne hff, Bool.false_and]
      exact ⟨ts, a + 1, rfl, hreads⟩

theorem endSPI_reads {d : Driver} {ts : Option (List UInt8)} {a : Nat}
    (h : (d.hold ts).chip.Reads a) : (d.hold ts).endSPI = d.hold none := by
  rw [endSPI, h.deselect]
  rfl

/-- The range that is looked at begins where `_addressCheck` has put it. -/
theorem notPrevWritten_spec {d : Driver} (h : d.Idle) {n : Nat}
    (hn : d.currentAddress + n ≤ 16777216) (hlt : d.currentAddress < 16777216) :
    d.notPrevWritten n = (d.chip.cells.blank d.currentAddress n, d) := by
  obtain ⟨ts, hbegin, hreads⟩ := beginSPI_read h
  rw [SPIFlash.busAddress, Nat.mod_eq_of_lt hlt] at hreads
  obtain ⟨ts', a', hloop, hreads'⟩ := blankLoop_spec hreads hn
  rw [notPrevWritten, hbegin, hloop]
  dsimp only
  rw [endSPI_reads hreads']
  have hclosed : (d.hold (some ts)).hold none = d := hold_none h.taken
  rw [hclosed]
  rfl

theorem nextBuf_spec {n : Nat} {d : Driver} {a : Nat} (h : d.chip.Reads a)
    (ha : a + n ≤ 16777216) : ∃ ts a', nextBuf n d = (d.chip.cells.read a n, d.hold (some ts)) ∧
      (d.hold (some ts)).chip.Reads a' := by
  induction n generalizing d a with
  | zero =>
    obtain ⟨hbusy, h, m, l, ts, htaken, rfl⟩ := h
    refine ⟨_, _, ?_, hbusy, h, m, l, ts, rfl, rfl⟩
    rw [nextBuf, hold, ← htaken]
    rfl
  | succ n ih =>
    obtain ⟨ts, hbyte, hreads⟩ := nextByte_reads h (by omega)
    obtain ⟨ts', a', hloop, hreads'⟩ := ih hreads (by omega)
    rw [nextBuf, hbyte, Mem.read_succ]
    dsimp only
    rw [hloop]
    exact ⟨ts', a', rfl, hreads'⟩

/-- The `i`-th byte is the first one that the cells from `a` on do not have. -/
structure FirstDiff (m : Mem) (a : Nat) (bs : List UInt8) (i : Nat) : Prop where
  same : ∀ j < i, bs[j]? = some (m (a + j))
  differs : ∃ b, bs[i]? = some b ∧ m (a + i) ≠ b

theorem FirstDiff.cons {m : Mem} {a i : Nat} {bs : List UInt8} (h : FirstDiff m (a + 1) bs i) :
    FirstDiff m a (m a :: bs) (i + 1) where
  same := fun j hj => by
    cases j with
    | zero => rfl
    | succ j =>
      rw [List.getElem?_cons_succ, h.same j (by omega), Nat.add_assoc a 1 j, Nat.add_comm 1 j]
  differs := by
    obtain ⟨b, hb, hne⟩ := h.differs
    rw [Nat.add_assoc, Nat.add_comm 1 i] at hne
    exact ⟨b, by rw [List.getElem?_cons_succ, hb], hne⟩

/-- **The read-back**: the chip is deselected if and only if no byte differs. -/
theorem compare_spec {bs : List UInt8} {d : Driver} {a : Nat} (h : d.chip.Reads a)
    (ha : a + bs.length ≤ 16777216) :
    (compare bs d).1 = (d.chip.cells.read a bs.length == bs) ∧
      ∃ ts, (compare bs d).2 = d.hold ts ∧ if (compare bs d).1 then ts = none
        else ∃ i, FirstDiff d.chip.cells a bs i ∧ (d.hold ts).chip.Reads (a + i + 1) := by
  induction bs generalizing d a with
  | nil =>
    refine ⟨rfl, none, ?_, rfl⟩
    rw [compare, endSPI, h.deselect]
    rfl
  | cons b bs ih =>
    rw [List.length_cons] at ha ⊢
    obtain ⟨ts, hbyte, hreads⟩ := nextByte_reads h (by omega)
    rw [compare, hbyte, Mem.read_succ]
    dsimp only
    by_cases hb : d.chip.cells a = b
    · obtain ⟨hok, ts', hd', hcase⟩ := ih hreads (by omega)
      rw [if_neg (not_not_intro hb)]
      refine ⟨?_, ts', hd', ?_⟩
      · rw [hok, hb, List.cons_beq_cons, beq_self_eq_true, Bool.true_and]
        rfl
      · split
        · rename_i hsame
          rw [if_pos hsame] at hcase
          exact hcase
        · rename_i hdiff
          rw [if_neg hdiff] at hcase
          obtain ⟨i, hfirst, hreads'⟩ := hcase
          subst hb
          refine ⟨i + 1, hfirst.cons, ?_⟩
          rw [Nat.add_assoc a 1 i, Nat.add_comm 1 i] at hreads'
          exact hreads'
    · rw [if_pos hb]
      refine ⟨?_, some ts, rfl, 0, ⟨fun j hj => absurd hj (Nat.not_lt_zero j), b, rfl, hb⟩, hreads⟩
      rw [eq_comm, beq_eq_false_iff_ne]
      exact fun heq => hb (List.cons.inj heq).1

/-! ### Pages -/

/-- What no call changes. -/
structure Kept (d d' : Driver) : Prop where
  jobs : d'.chip.jobs = d.chip.jobs
  capacity : d'.capacity = d.capacity
  eraseTime : d'.eraseTime = d.eraseTime
  patience : d'.patience = d.patience
  error : d'.errorcode = d.errorcode ∨ d'.errorcode = CHIPBUSY ∨ d'.errorcode = CANTENWRITE

theorem Kept.refl (d : Driver) : Kept d d := ⟨rfl, rfl, rfl, rfl, Or.inl rfl⟩

theorem Kept.trans {d d' d'' : Driver} (h : Kept d d') (h' : Kept d' d'') : Kept d d'' where
  jobs := h'.jobs.trans h.jobs
  capacity := h'.capacity.trans h.capacity
  eraseTime := h'.eraseTime.trans h.eraseTime
  patience := h'.patience.trans h.patience
  error := by
    rcases h'.error with herror | herror
    · rw [herror]
      exact h.error
    · exact Or.inr herror

theorem kept_address (d : Driver) (address : Nat) : Kept d { d with currentAddress := address } :=
  ⟨rfl, rfl, rfl, rfl, Or.inl rfl⟩

theorem Waits.kept {d d' : Driver} (h : Waits d d') : Kept d d' := by
  obtain ⟨wel, busy, state, errorcode, waits, rfl, herror⟩ := h
  exact ⟨rfl, rfl, rfl, rfl, herror⟩

theorem Waits.cells {d d' : Driver} (h : Waits d d') : d'.chip.cells = d.chip.cells := by
  obtain ⟨_, _, _, _, _, rfl, _⟩ := h
  rfl

theorem Waits.taken {d d' : Driver} (h : Waits d d') : d'.chip.taken = none := by
  obtain ⟨_, _, _, _, _, rfl, _⟩ := h
  rfl

theorem Waits.currentAddress {d d' : Driver} (h : Waits d d') :
    d'.currentAddress = d.currentAddress := by
  obtain ⟨_, _, _, _, _, rfl, _⟩ := h
  rfl

theorem Waits.begun {d d' : Driver} (h : Waits d d') : d'.chip.begun = d.chip.begun := by
  obtain ⟨_, _, _, _, _, rfl, _⟩ := h
  rfl

/-- A chip that works, and is done before any wait is over. -/
structure Prompt (d : Driver) : Prop where
  left : ∀ k, (d.chip.jobs k).left = none
  polls : ∀ k w, (d.chip.jobs k).polls < d.patience w
  busy : ∀ w, d.chip.busy < d.patience w

theorem Prompt.of_busy {d d' : Driver} (h : d.Prompt) (hkept : Kept d d')
    (hbusy : ∀ w, d'.chip.busy < d.patience w) : d'.Prompt where
  left := by
    rw [hkept.jobs]
    exact h.left
  polls := by
    rw [hkept.jobs, hkept.patience]
    exact h.polls
  busy := by
    rw [hkept.patience]
    exact hbusy

theorem Prompt.patience_pos {d : Driver} (h : d.Prompt) (w : Nat) : 0 < d.patience w :=
  Nat.lt_of_le_of_lt (Nat.zero_le _) (h.busy w)

theorem enabled_spec {d : Driver} (h : d.chip.taken = none) :
    Waits d d.enabled.2 ∧ (d.enabled.1 = true → d.enabled.2.Idle ∧ d.enabled.2.chip.wel = true) ∧
      (d.Prompt → d.enabled.1 = true) := by
  obtain ⟨hwaits, _, hready, hok⟩ := notBusy_spec h
  rw [enabled, andThen]
  cases hfirst : d.notBusy.1 with
  | false =>
    rw [if_neg Bool.false_ne_true]
    refine ⟨hwaits, (fun hok => by cases hok), fun hprompt => ?_⟩
    rw [hfirst] at hok
    exact hok (hprompt.busy _)
  | true =>
    rw [if_pos rfl]
    have hready := hready hfirst
    obtain ⟨hwaits', hidle, hwel, hok'⟩ := writeEnable_spec hready.toIdle
    refine ⟨hwaits.trans hwaits', fun hok => ⟨hidle, hwel hready hok⟩, fun hprompt => hok' ?_⟩
    rw [hwaits.kept.patience]
    exact hprompt.patience_pos _

theorem page_eq {d : Driver} (h : d.Idle) (hwel : d.chip.wel = true) {bs : List UInt8}
    (hbs : bs ≠ []) (hcur : d.currentAddress + bs.length ≤ 16777216) :
    d.page bs = { d with
      chip := d.chip.begin (Nor.programJob d.chip.cells d.currentAddress bs)
      currentAddress := d.currentAddress + bs.length } := by
  have hlen : 0 < bs.length := List.length_pos_iff.mpr hbs
  have hprogram := Nor.send_program h.taken h.busy hwel (UInt8.ofNat (d.currentAddress / 65536))
    (UInt8.ofNat (d.currentAddress / 256)) (UInt8.ofNat d.currentAddress) hbs
  rw [addr_bytes, SPIFlash.busAddress, Nat.mod_eq_of_lt (by omega)] at hprogram
  have hsplit : d.chip.select.send (0x02 :: UInt8.ofNat (d.currentAddress / 65536) ::
      UInt8.ofNat (d.currentAddress / 256) :: UInt8.ofNat d.currentAddress :: bs) =
      (d.chip.select.send (PAGEPROG :: addressBytes d.currentAddress)).send bs :=
    Nor.send_append (PAGEPROG :: addressBytes d.currentAddress) bs d.chip.select
  rw [← hprogram, hsplit, ← Nat.mod_eq_of_lt
    (show d.currentAddress + bs.length < 4294967296 by omega)]
  rfl

/-- A program inside a page: the rest of the chip stays, and a job that the cells
take stores the bytes. -/
theorem programJob_spec {m : Mem} {a : Nat} {bs : List UInt8} (h : a % 256 + bs.length ≤ 256)
    (j : Job) : (∀ x, x < a ∨ a + bs.length ≤ x → Nor.programJob m a bs j x = m x) ∧
      (j.left = none → Nor.programJob m a bs j = m.program a bs) := by
  rw [Nor.programJob]
  cases j.left with
  | none =>
    dsimp only
    rw [Mem.programPage_eq (by omega), Nat.add_zero]
    exact ⟨fun x hx => Mem.program_of_not_mem hx, fun _ => rfl⟩
  | some g =>
    dsimp only
    rw [Mem.overlayPage_eq h]
    exact ⟨fun x hx => Mem.overlay_of_not_mem hx, fun hnone => by cases hnone⟩

/-- What a range of pages has become. -/
structure Programmed (d d' : Driver) (a n : Nat) : Prop extends Kept d d' where
  taken : d'.chip.taken = none
  frame : ∀ x, x < a ∨ a + n ≤ x → d'.chip.cells x = d.chip.cells x

theorem Programmed.of_waits {d d' : Driver} (h : Waits d d') (a n : Nat) :
    Programmed d d' a n :=
  ⟨h.kept, h.taken, fun _ _ => by rw [h.cells]⟩

theorem Programmed.trans {d d' d'' : Driver} {a k n : Nat} (h : Programmed d d' a k)
    (h' : Programmed d' d'' (a + k) n) : Programmed d d'' a (k + n) where
  toKept := h.toKept.trans h'.toKept
  taken := h'.taken
  frame := fun x hx => by
    rw [h'.frame x (by omega), h.frame x (by omega)]

theorem page_spec {d : Driver} (h : d.Idle) (hwel : d.chip.wel = true) {bs : List UInt8}
    (hbs : bs ≠ []) (hpage : d.currentAddress % 256 + bs.length ≤ 256)
    (hcur : d.currentAddress + bs.length ≤ 16777216) :
    Programmed d (d.page bs) d.currentAddress bs.length ∧ (d.page bs).chip.wel = false ∧
      (d.page bs).currentAddress = d.currentAddress + bs.length ∧
      (d.Prompt → (d.page bs).Prompt ∧
        (d.page bs).chip.cells = d.chip.cells.program d.currentAddress bs) := by
  obtain ⟨hframe, hstored⟩ := programJob_spec (m := d.chip.cells) hpage (d.chip.jobs d.chip.begun)
  rw [page_eq h hwel hbs hcur]
  have hkept : Kept d { d with
      chip := d.chip.begin (Nor.programJob d.chip.cells d.currentAddress bs)
      currentAddress := d.currentAddress + bs.length } := ⟨rfl, rfl, rfl, rfl, Or.inl rfl⟩
  exact ⟨⟨hkept, h.taken, hframe⟩, rfl, rfl, fun hprompt =>
    ⟨hprompt.of_busy hkept fun w => hprompt.polls _ w, hstored (hprompt.left _)⟩⟩

theorem Prompt.of_waits {d d' : Driver} (h : d.Prompt) (hwaits : Waits d d') (hidle : d'.Idle) :
    d'.Prompt := by
  refine h.of_busy hwaits.kept fun w => ?_
  rw [hidle.busy]
  exact h.patience_pos w

theorem programPages_cons (fuel maxBytes : Nat) {data : List UInt8} (hdata : data ≠ [])
    (d : Driver) : programPages (fuel + 1) maxBytes data d =
      andThen d.enabled fun d =>
        programPages fuel 256 (data.drop maxBytes) (d.page (data.take maxBytes)) := by
  cases data with
  | nil => exact absurd rfl hdata
  | cons b bs =>
    rw [programPages]
    exact hdata

/-- **The page loop**: by induction on the fuel, a page at a time.  It ends early or
not, and a chip that works takes every byte. -/
theorem programPages_spec {fuel : Nat} : ∀ {d : Driver} {maxBytes : Nat} {data : List UInt8},
    d.chip.taken = none → data.length ≤ fuel → 0 < maxBytes →
    d.currentAddress % 256 + maxBytes = 256 → d.currentAddress + data.length ≤ 16777216 →
    let r := programPages fuel maxBytes data d
    Programmed d r.2 d.currentAddress data.length ∧
      (r.1 = true → data ≠ [] → r.2.chip.wel = false) ∧
      (d.Prompt → r.1 = true ∧ r.2.Prompt ∧
        r.2.chip.cells = d.chip.cells.program d.currentAddress data) := by
  induction fuel with
  | zero =>
    intro d maxBytes data hclosed hfuel hpos hpage hcur
    obtain rfl := List.eq_nil_of_length_eq_zero (Nat.le_zero.mp hfuel)
    exact ⟨⟨.refl d, hclosed, fun _ _ => rfl⟩, fun _ hne => absurd rfl hne,
      fun hprompt => ⟨rfl, hprompt, (Mem.program_nil _ _).symm⟩⟩
  | succ fuel ih =>
    intro d maxBytes data hclosed hfuel hpos hpage hcur
    by_cases hdata : data = []
    · subst hdata
      exact ⟨⟨.refl d, hclosed, fun _ _ => rfl⟩, fun _ hne => absurd rfl hne,
        fun hprompt => ⟨rfl, hprompt, (Mem.program_nil _ _).symm⟩⟩
    · rw [programPages_cons fuel maxBytes hdata, andThen]
      obtain ⟨hwaits, hidle, hok⟩ := enabled_spec hclosed
      have haddr := hwaits.currentAddress
      have hcells := hwaits.cells
      cases hfirst : d.enabled.1 with
      | false =>
        rw [if_neg Bool.false_ne_true]
        refine ⟨.of_waits hwaits _ _, (fun h => by cases h), fun hprompt => ?_⟩
        rw [hok hprompt] at hfirst
        cases hfirst
      | true =>
        rw [if_pos rfl]
        obtain ⟨hidle, hwel⟩ := hidle hfirst
        have hprompt := fun h : d.Prompt => h.of_waits hwaits hidle
        generalize d.enabled.2 = d₁ at hwaits hidle hwel haddr hcells hprompt ⊢
        have hlen : 0 < data.length := List.length_pos_iff.mpr hdata
        have htake : (data.take maxBytes).length = min maxBytes data.length := List.length_take
        have hdrop : (data.drop maxBytes).length = data.length - maxBytes := List.length_drop
        have hne : data.take maxBytes ≠ [] := by
          rw [← List.length_pos_iff, htake]
          omega
        obtain ⟨hprog, hlatch, hnext, hstored⟩ := page_spec hidle hwel hne
          (by rw [haddr, htake]; omega) (by rw [haddr, htake]; omega)
        rw [haddr] at hprog hnext hstored
        by_cases hlong : maxBytes < data.length
        · -- further pages
          have hmax : (data.take maxBytes).length = maxBytes := by omega
          rw [hmax] at hprog hnext
          obtain ⟨hrest, hlatch', hstored'⟩ := @ih (d₁.page (data.take maxBytes)) 256
            (data.drop maxBytes) hprog.taken (by omega) (by omega) (by rw [hnext]; omega)
            (by rw [hnext]; omega)
          rw [hnext] at hrest hstored'
          have hall : Programmed d
              (programPages fuel 256 (data.drop maxBytes) (d₁.page (data.take maxBytes))).2
              d.currentAddress data.length := by
            have := (Programmed.of_waits hwaits d.currentAddress 0).trans
              (by rw [Nat.add_zero]; exact hprog.trans hrest)
            rw [hdrop, Nat.zero_add, Nat.add_sub_cancel' (by omega)] at this
            exact this
          refine ⟨hall, fun h _ => hlatch' h ?_, fun h => ?_⟩
          · rw [← List.length_pos_iff]
            omega
          · obtain ⟨hp, hc⟩ := hstored (hprompt h)
            obtain ⟨hok', hp', hc'⟩ := hstored' hp
            refine ⟨hok', hp', ?_⟩
            rw [hc', hc, hcells]
            have := Mem.program_append d.chip.cells d.currentAddress (data.take maxBytes)
              (data.drop maxBytes)
            rw [hmax, List.take_append_drop] at this
            exact this
        · -- the last page
          have hnil : data.drop maxBytes = [] := List.drop_of_length_le (by omega)
          have hall : data.take maxBytes = data := List.take_of_length_le (by omega)
          have hlast : programPages fuel 256 (data.drop maxBytes) (d₁.page (data.take maxBytes)) =
              (true, d₁.page (data.take maxBytes)) := by
            rw [hnil]
            cases fuel <;> rw [programPages]
          rw [hlast]
          rw [hall] at hprog hlatch hstored ⊢
          refine ⟨?_, fun _ _ => hlatch, fun h => ?_⟩
          · have := (Programmed.of_waits hwaits d.currentAddress 0).trans
              (by rw [Nat.add_zero]; exact hprog)
            rw [Nat.zero_add] at this
            exact this
          · obtain ⟨hp, hc⟩ := hstored (hprompt h)
            exact ⟨rfl, hp, by rw [hc, hcells]⟩

/-! ### Before a transfer -/

/-- What `begin` leaves, and no call takes away. -/
structure Identified (d : Driver) : Prop where
  error : d.errorcode ≠ UNKNOWNCAP ∧ d.errorcode ≠ NORESPONSE
  eraseTime : d.eraseTime ≠ 0

theorem Identified.of_kept {d d' : Driver} (h : d.Identified) (hkept : Kept d d') :
    d'.Identified where
  error := by
    rcases hkept.error with herror | herror | herror
    · rw [herror]
      exact h.error
    · rw [herror]
      decide
    · rw [herror]
      decide
  eraseTime := by
    rw [hkept.eraseTime]
    exact h.eraseTime

/-- Between two calls: deselected, or left behind while it gives back its cells. -/
def Still (d : Driver) : Prop := d.chip.taken = none ∨ ∃ a, d.chip.Reads a

/-- The object and the chip are those of the other model. -/
structure Drives (d : Driver) (f : SPIFlash) : Prop where
  capacity : d.capacity = f.capacity
  cells : d.chip.cells = f.mem
  identified : d.Identified
  still : d.Still

theorem notBusy_still {d : Driver} (h : d.Still) :
    Waits d d.notBusy.2 ∧ (d.notBusy.1 = true → d.notBusy.2.Idle) := by
  rcases h with hclosed | ⟨a, hopen⟩
  · obtain ⟨hwaits, _, hready, _⟩ := notBusy_spec hclosed
    exact ⟨hwaits, fun hok => (hready hok).toIdle⟩
  · obtain ⟨hwaits, _, hidle⟩ := notBusy_open hopen
    exact ⟨hwaits, hidle⟩

/-- The two waits, with a chip that may have been left behind: the latch may not be
set. -/
theorem enabled_still {d : Driver} (h : d.Still) :
    Waits d d.enabled.2 ∧ (d.enabled.1 = true → d.enabled.2.Idle) := by
  obtain ⟨hwaits, hidle⟩ := notBusy_still h
  rw [enabled, andThen]
  cases hfirst : d.notBusy.1 with
  | false =>
    rw [if_neg Bool.false_ne_true]
    exact ⟨hwaits, fun hok => by cases hok⟩
  | true =>
    rw [if_pos rfl]
    obtain ⟨hwaits', hidle', _⟩ := writeEnable_spec (hidle hfirst)
    exact ⟨hwaits.trans hwaits', fun _ => hidle'⟩

section Calls

variable {d : Driver} {f : SPIFlash} {address : Nat}

theorem addressCheck_spec (h : d.Drives f) {n : Nat} (hr : f.InRange address n) :
    d.addressCheck address n = (true, { d with currentAddress := address }) := by
  have hfit := hr.addressCheck
  rw [SPIFlash.addressCheck] at hfit
  rw [addressCheck, if_neg (not_or.mpr h.identified.error), if_neg h.identified.eraseTime,
    h.capacity]
  split
  · rename_i hany
    rw [if_pos hany] at hfit
    rw [← hfit]
  · rfl

/-- **Before a write**: it goes on only if the range is erased. -/
theorem prep_write (h : d.Drives f) {n : Nat} (hr : f.InRange address n) :
    let r := d.prep PAGEPROG address n
    Waits { d with currentAddress := address } r.2 ∧
      (r.1 = true → r.2.Idle ∧ f.mem.blank address n = true) ∧
      (d.Prompt → d.chip.taken = none → r.1 = f.mem.blank address n ∧ r.2.Prompt) := by
  rw [prep, addressCheck_spec h hr, andThen, if_pos rfl, if_pos rfl]
  dsimp only
  have hstill : Still { d with currentAddress := address } := h.still
  have hcells : ({ d with currentAddress := address } : Driver).chip.cells = f.mem := h.cells
  have haddr : ({ d with currentAddress := address } : Driver).currentAddress = address := rfl
  have hprompt : d.Prompt → Prompt { d with currentAddress := address } :=
    fun hp => ⟨hp.left, hp.polls, hp.busy⟩
  have hclosed : d.chip.taken = none →
      ({ d with currentAddress := address } : Driver).chip.taken = none := fun h => h
  generalize ({ d with currentAddress := address } : Driver) = d₀ at *
  obtain ⟨hwaits, hidle⟩ := enabled_still hstill
  have hok := fun hp hc => (enabled_spec (hclosed hc)).2.2 (hprompt hp)
  rw [andThen]
  cases hfirst : d₀.enabled.1 with
  | false =>
    rw [if_neg Bool.false_ne_true]
    refine ⟨hwaits, (fun hok => by cases hok), fun hp hc => ?_⟩
    rw [hok hp hc] at hfirst
    cases hfirst
  | true =>
    rw [if_pos rfl]
    have hidle := hidle hfirst
    have hbus := hr.bus
    have hlt := hr.lt
    rw [← haddr, ← hwaits.currentAddress] at hbus hlt
    rw [notPrevWritten_spec hidle hbus hlt, hwaits.currentAddress, haddr, hwaits.cells, hcells]
    exact ⟨hwaits, fun hok => ⟨hidle, hok⟩, fun hp _ => ⟨rfl, (hprompt hp).of_waits hwaits hidle⟩⟩

theorem cells_overlay {data : List UInt8} {g : Mem} {stall : Bool}
    (hframe : ∀ x, x < address ∨ address + data.length ≤ x → g x = f.mem x) :
    ProgOutcome.cells ⟨false, some g, stall⟩ f.mem address data = g := by
  funext x
  show f.mem.overlay address data.length g x = g x
  by_cases hx : address ≤ x ∧ x < address + data.length
  · exact if_pos hx
  · rw [hframe x (by omega)]
    exact if_neg hx

theorem Drives.of_programmed {d' : Driver} {f' : SPIFlash} (h : d.Drives f) (hkept : Kept d d')
    (hstill : d'.Still) (hcap : f'.capacity = f.capacity) (hcells : d'.chip.cells = f'.mem) :
    d'.Drives f' where
  capacity := by rw [hkept.capacity, h.capacity, hcap]
  cells := hcells
  identified := h.identified.of_kept hkept
  still := hstill

/-- The read-back of a write: only when a byte differs the chip is left behind. -/
theorem readBack_spec (h : d.Idle) (hlt : address < 16777216) {data : List UInt8}
    (hbus : address + data.length ≤ 16777216) :
    let r := compare data ({ d with currentAddress := address }.beginSPI READDATA)
    r.1 = (d.chip.cells.read address data.length == data) ∧ Kept d r.2 ∧
      r.2.chip = { d.chip with taken := r.2.chip.taken } ∧
      (r.1 = true → r.2.chip.taken = none) ∧
      (r.1 = false → ∃ i, FirstDiff d.chip.cells address data i ∧
        r.2.chip.Reads (address + i + 1)) := by
  have haimed : Idle { d with currentAddress := address } := ⟨h.taken, h.busy⟩
  obtain ⟨ts, hbegin, hreads⟩ := beginSPI_read haimed
  rw [show SPIFlash.busAddress address = address from Nat.mod_eq_of_lt hlt] at hreads
  obtain ⟨hcmp, ts', hd', hcase⟩ := compare_spec hreads hbus
  rw [hbegin]
  dsimp only
  rw [hd']
  refine ⟨hcmp, ⟨rfl, rfl, rfl, rfl, Or.inl rfl⟩, rfl, fun hok => ?_, fun hok => ?_⟩
  · rw [if_pos hok] at hcase
    exact hcase
  · rw [if_neg (by rw [hok]; exact Bool.false_ne_true)] at hcase
    exact hcase

/-- The chip as a write leaves it that has read back another byte: it is giving back
what comes behind that byte, and the latch is not set. -/
structure LeftBehind (d : Driver) (address : Nat) (data : List UInt8) (i : Nat) : Prop where
  first : FirstDiff d.chip.cells address data i
  reads : d.chip.Reads (address + i + 1)
  latch : d.chip.wel = false

theorem writePages_spec {d₁ : Driver} {data : List UInt8} (hr : f.InRange address data.length)
    (hidle : d₁.Idle) (haddr : d₁.currentAddress = address) (hcells : d₁.chip.cells = f.mem) :
    let r := d₁.writePages address data
    Kept d₁ r.2 ∧ (r.2.chip.taken = none ∨ r.1 = false ∧ ∃ i, r.2.LeftBehind address data i) ∧
      (∃ stall, r.1 = (!stall && r.2.chip.cells.read address data.length == data)) ∧
      (∀ x, x < address ∨ address + data.length ≤ x → r.2.chip.cells x = f.mem x) ∧
      (d₁.Prompt → r.1 = (r.2.chip.cells.read address data.length == data) ∧
        r.2.chip.cells = f.mem.program address data ∧ r.2.Prompt) := by
  have hbus := hr.bus
  have hlt := hr.lt
  obtain ⟨hprog, hlatch, hprompt⟩ := @programPages_spec data.length d₁ (256 - address % 256) data
    hidle.taken (Nat.le_refl _) (by omega) (by rw [haddr]; omega) (by rw [haddr]; exact hbus)
  rw [haddr, hcells] at hprompt
  rw [haddr] at hprog
  have hframe : ∀ {g : Mem}, g = (programPages data.length (256 - address % 256) data d₁).2.chip.cells →
      ∀ x, x < address ∨ address + data.length ≤ x → g x = f.mem x := by
    intro g hg x hx
    rw [hg, hprog.frame x hx, hcells]
  rw [writePages, andThen]
  generalize programPages data.length (256 - address % 256) data d₁ = r at *
  obtain ⟨ok, d₂⟩ := r
  dsimp only at hprog hlatch hprompt hframe
  cases ok with
  | false =>
    rw [if_neg Bool.false_ne_true]
    refine ⟨hprog.toKept, Or.inl hprog.taken, ⟨true, rfl⟩, hframe rfl, fun hp => ?_⟩
    exact absurd (hprompt hp).1 Bool.false_ne_true
  | true =>
    rw [if_pos rfl, andThen]
    obtain ⟨hwaits, hwel, hready, hok⟩ := notBusy_spec hprog.taken
    cases hfirst : d₂.notBusy.1 with
    | false =>
      rw [if_neg Bool.false_ne_true]
      refine ⟨hprog.toKept.trans hwaits.kept, Or.inl hwaits.taken, ⟨true, rfl⟩, ?_, fun hp => ?_⟩
      · exact hframe hwaits.cells
      · rw [hok ((hprompt hp).2.1.busy _)] at hfirst
        cases hfirst
    | true =>
      rw [if_pos rfl]
      have hidle₂ := (hready hfirst).toIdle
      obtain ⟨hres, hk, hchip, htaken, hreads⟩ := readBack_spec hidle₂ hlt hbus
      have hcells' := (congrArg Nor.cells hchip).trans hwaits.cells
      have hres' := hres
      rw [hwaits.cells, ← hcells'] at hres'
      refine ⟨(hprog.toKept.trans hwaits.kept).trans hk, ?_, ⟨false, hres'⟩, hframe hcells',
        fun hp => ⟨hres', hcells'.trans (hprompt hp).2.2, ?_⟩⟩
      · cases hok : (compare data ({ d₂.notBusy.2 with
            currentAddress := address }.beginSPI READDATA)).1 with
        | true => exact Or.inl (htaken hok)
        | false =>
          obtain ⟨i, hdiff, hreads⟩ := hreads hok
          refine Or.inr ⟨rfl, i, ?_, hreads, ?_⟩
          · rw [hcells', ← hwaits.cells]
            exact hdiff
          · rw [hchip]
            show d₂.notBusy.2.chip.wel = false
            rw [hwel]
            refine hlatch rfl fun hnil => ?_
            obtain ⟨b, hb, _⟩ := hdiff.differs
            rw [hnil] at hb
            cases hb
      · refine ((hprompt hp).2.1.of_waits hwaits hidle₂).of_busy hk fun w => ?_
        rw [hchip]
        exact ((hprompt hp).2.1.of_waits hwaits hidle₂).busy w

theorem Still.of_write {data : List UInt8}
    (h : d.chip.taken = none ∨ ∃ i, d.LeftBehind address data i) : d.Still := by
  rcases h with h | ⟨i, h⟩
  · exact Or.inl h
  · exact Or.inr ⟨_, h.reads⟩

/-- **A write on the wire is a write of the other model**, whatever the chip does
and however long it takes. -/
theorem writeByteArray_refines (h : d.Drives f) {data : List UInt8}
    (hr : f.InRange address data.length) (hsize : data.length < 65536) :
    (∃ o, (d.writeByteArray address data).1 = (f.writeByteArray o address data).1 ∧
      (d.writeByteArray address data).2.Drives (f.writeByteArray o address data).2) ∧
      Kept d (d.writeByteArray address data).2 ∧
      ((d.writeByteArray address data).2.chip.taken = none ∨
        (d.writeByteArray address data).1 = false ∧
          ∃ i, (d.writeByteArray address data).2.LeftBehind address data i) := by
  have htake : data.take (data.length % 65536) = data := by
    rw [Nat.mod_eq_of_lt hsize, List.take_length]
  rw [writeByteArray, htake, andThen]
  obtain ⟨hwaits, hgo, _⟩ := prep_write h hr
  have hkept : Kept d (d.prep PAGEPROG address data.length).2 :=
    (kept_address d address).trans hwaits.kept
  cases hfirst : (d.prep PAGEPROG address data.length).1 with
  | false =>
    rw [if_neg Bool.false_ne_true]
    refine ⟨⟨.dead, ?_⟩, hkept, Or.inl hwaits.taken⟩
    rw [SPIFlash.writeByteArray_eq hr hsize]
    exact ⟨rfl, h.of_programmed hkept (Or.inl hwaits.taken) rfl (hwaits.cells.trans h.cells)⟩
  | true =>
    rw [if_pos rfl]
    obtain ⟨hidle, hblank⟩ := hgo hfirst
    obtain ⟨hkept', hstill, ⟨stall, hres⟩, hframe, _⟩ := writePages_spec hr hidle
      hwaits.currentAddress (hwaits.cells.trans h.cells)
    generalize writePages address data (d.prep PAGEPROG address data.length).2 = r at *
    refine ⟨⟨⟨false, some r.2.chip.cells, stall⟩, ?_⟩, hkept.trans hkept', hstill⟩
    rw [SPIFlash.writeByteArray_eq hr hsize, hblank, cells_overlay hframe]
    exact ⟨hres, h.of_programmed (hkept.trans hkept') (.of_write (hstill.imp_right And.right)) rfl
      rfl⟩

theorem writeByteArray_prompt (h : d.Drives f) (hp : d.Prompt) (hclosed : d.chip.taken = none)
    {data : List UInt8} (hr : f.InRange address data.length) (hsize : data.length < 65536) :
    (d.writeByteArray address data).1 = (f.writeByteArray .healthy address data).1 ∧
      (d.writeByteArray address data).2.Drives (f.writeByteArray .healthy address data).2 ∧
      (d.writeByteArray address data).2.Prompt ∧
      (d.writeByteArray address data).2.chip.taken = none := by
  have htake : data.take (data.length % 65536) = data := by
    rw [Nat.mod_eq_of_lt hsize, List.take_length]
  rw [writeByteArray, htake, andThen]
  obtain ⟨hwaits, hgo, hprep⟩ := prep_write h hr
  obtain ⟨hblank, hp'⟩ := hprep hp hclosed
  have hkept : Kept d (d.prep PAGEPROG address data.length).2 :=
    (kept_address d address).trans hwaits.kept
  cases hfirst : (d.prep PAGEPROG address data.length).1 with
  | false =>
    rw [if_neg Bool.false_ne_true, SPIFlash.writeByteArray_refused hr hsize (by
      rw [← hblank, hfirst])]
    exact ⟨rfl, h.of_programmed hkept (Or.inl hwaits.taken) rfl (hwaits.cells.trans h.cells), hp',
      hwaits.taken⟩
  | true =>
    rw [if_pos rfl]
    obtain ⟨hidle, hblank⟩ := hgo hfirst
    obtain ⟨hkept', hstill, _, _, hworks⟩ := writePages_spec hr hidle hwaits.currentAddress
      (hwaits.cells.trans h.cells)
    obtain ⟨hres, hcells, hp''⟩ := hworks hp'
    have hok : (writePages address data (d.prep PAGEPROG address data.length).2).1 = true := by
      rw [hres, hcells, Mem.read_program_of_blank hblank]
      exact beq_self_eq_true data
    rw [SPIFlash.writeByteArray_healthy hr hsize hblank]
    refine ⟨hok, h.of_programmed (hkept.trans hkept') (.of_write (hstill.imp_right And.right)) rfl
      hcells, hp'', ?_⟩
    rcases hstill with hclosed' | ⟨hfail, _⟩
    · exact hclosed'
    · rw [hok] at hfail
      cases hfail

/-- **A read on the wire**: the cells, or a chip that is busy for too long. -/
theorem readByteArray_refines (h : d.Drives f) {n : Nat} (hr : f.InRange address n)
    (hsize : n < 65536) (out : List UInt8) :
    (∃ busy, (d.readByteArray address n out).1 = f.readByteArray busy address n out) ∧
      (d.readByteArray address n out).2.Drives f ∧
      (d.readByteArray address n out).2.chip.taken = none ∧
      (d.Prompt → d.chip.taken = none →
        (d.readByteArray address n out).1 = f.readByteArray false address n out ∧
          (d.readByteArray address n out).2.Prompt) := by
  have hstill : Still { d with currentAddress := address } := h.still
  have hprep : d.prep READDATA address n = notBusy { d with currentAddress := address } := by
    rw [prep, addressCheck_spec h hr, andThen, if_pos rfl]
    rfl
  rw [readByteArray, Nat.mod_eq_of_lt hsize, hprep]
  obtain ⟨hwaits, hidle⟩ := notBusy_still hstill
  have hok : d.Prompt → d.chip.taken = none →
      (notBusy { d with currentAddress := address }).1 = true := fun hp hclosed =>
    (notBusy_spec (d := { d with currentAddress := address }) hclosed).2.2.2 (hp.busy _)
  have hkept : Kept d (notBusy { d with currentAddress := address }).2 :=
    (kept_address d address).trans hwaits.kept
  have hcells : (notBusy { d with currentAddress := address }).2.chip.cells = f.mem :=
    hwaits.cells.trans h.cells
  have haddr : (notBusy { d with currentAddress := address }).2.currentAddress = address :=
    hwaits.currentAddress
  have hp' : d.Prompt → (notBusy { d with currentAddress := address }).2.Idle →
      (notBusy { d with currentAddress := address }).2.Prompt := fun hp hidle =>
    Prompt.of_waits (d := { d with currentAddress := address }) ⟨hp.left, hp.polls, hp.busy⟩
      hwaits hidle
  have htaken := hwaits.taken
  generalize notBusy { d with currentAddress := address } = r at *
  obtain ⟨ok, d₁⟩ := r
  have hbusAddress : SPIFlash.busAddress address = address := Nat.mod_eq_of_lt hr.lt
  cases ok with
  | false =>
    rw [if_neg Bool.false_ne_true]
    refine ⟨⟨true, rfl⟩, h.of_programmed hkept (Or.inl htaken) rfl hcells, htaken,
      fun hp hclosed => ?_⟩
    cases hok hp hclosed
  | true =>
    have hidle := hidle rfl
    obtain ⟨ts, hbegin, hreads⟩ := beginSPI_read hidle
    rw [show d₁.currentAddress = address from haddr, hbusAddress] at hreads
    obtain ⟨ts', a', hbuf, hreads'⟩ := nextBuf_spec (n := n) hreads hr.bus
    have hread : f.readByteArray false address n out = (true, f.mem.read address n ++ out.drop n) := by
      rw [SPIFlash.readByteArray, Nat.mod_eq_of_lt hsize, hr.addressCheck, hbusAddress]
      rfl
    have hmem : (d₁.hold (some ts)).chip.cells = f.mem := hcells
    rw [if_pos rfl]
    dsimp only
    rw [hbegin, hbuf, endSPI_reads hreads', hmem]
    have hend : (d₁.hold (some ts)).hold none = d₁ := hold_none hidle.taken
    rw [hend]
    exact ⟨⟨false, hread.symm⟩, h.of_programmed hkept (Or.inl htaken) rfl hcells, htaken,
      fun hp _ => ⟨hread.symm, hp' hp hidle⟩⟩

/-! ### Erasing -/

/-- The sector of an address. -/
def sector (address : Nat) : Nat := SPIFlash.busAddress address / 4096 * 4096

theorem sendErase_eq (h : d.Idle) (address : Nat) :
    d.sendErase address = if d.chip.wel then
      { d with
        chip := d.chip.begin (Nor.eraseJob d.chip.cells (SPIFlash.busAddress address / 256 * 256)) }
    else d := by
  have herase := Nor.send_erase h.taken h.busy (UInt8.ofNat (address / 65536))
    (UInt8.ofNat (address / 256)) 0
  have haddr : Nor.addr (UInt8.ofNat (address / 65536)) (UInt8.ofNat (address / 256)) 0 =
      SPIFlash.busAddress address / 256 * 256 := by
    rw [Nor.addr, SPIFlash.busAddress]
    simp only [UInt8.toNat_ofNat']
    show _ + 0 = _
    omega
  rw [haddr] at herase
  show ({ d with chip := (d.chip.select.send [0x20, UInt8.ofNat (address / 65536),
    UInt8.ofNat (address / 256), 0]).deselect } : Driver) = _
  rw [herase]
  cases d.chip.wel <;> rfl

/-- An erase that begins: nothing changes outside the sector, and a job that the
cells take erases it. -/
theorem sendErase_spec (h : d.Idle) (hwel : d.chip.wel = true) (address : Nat) :
    Kept d (d.sendErase address) ∧ (d.sendErase address).chip.taken = none ∧
      (d.sendErase address).chip.busy = (d.chip.jobs d.chip.begun).polls ∧
      (∀ x, x < sector address ∨ sector address + 4096 ≤ x →
        (d.sendErase address).chip.cells x = d.chip.cells x) ∧
      ((d.chip.jobs d.chip.begun).left = none →
        (d.sendErase address).chip.cells = d.chip.cells.erase (sector address) 4096) := by
  have hbase : SPIFlash.busAddress address / 256 * 256 / 4096 * 4096 = sector address := by
    rw [sector]
    omega
  rw [sendErase_eq h, if_pos hwel]
  refine ⟨⟨rfl, rfl, rfl, rfl, Or.inl rfl⟩, h.taken, rfl, ?_⟩
  show (∀ x, _ → Nor.eraseJob _ _ _ x = _) ∧ (_ → Nor.eraseJob _ _ _ = _)
  rw [Nor.eraseJob, hbase]
  cases (d.chip.jobs d.chip.begun).left with
  | none => exact ⟨fun x hx => Mem.erase_of_not_mem hx, fun _ => rfl⟩
  | some g => exact ⟨fun x hx => Mem.overlay_of_not_mem hx, fun hnone => by cases hnone⟩

theorem eraseSector_mem (f : SPIFlash) (address : Nat) :
    (f.eraseSector .done address).2.mem = f.mem.erase (sector address) 4096 := rfl

theorem sector_overlay {g : Mem}
    (hframe : ∀ x, x < sector address ∨ sector address + 4096 ≤ x → g x = f.mem x) :
    (f.eraseSector (.worn g) address).2.mem = g := by
  funext x
  show f.mem.overlay (sector address) 4096 g x = g x
  by_cases hx : sector address ≤ x ∧ x < sector address + 4096
  · exact if_pos hx
  · rw [hframe x (by omega)]
    exact if_neg hx

/-- **An erase on the wire**: the cells it leaves are those of the other model, and
if that one reports success, so does the driver. -/
theorem eraseSector_refines (h : d.Drives f) (address : Nat) :
    (∃ o, (d.eraseSector address).2.Drives (f.eraseSector o address).2 ∧
      ((f.eraseSector o address).1 = true → (d.eraseSector address).1 = true)) ∧
      Kept d (d.eraseSector address).2 ∧ (d.eraseSector address).2.chip.taken = none := by
  obtain ⟨hwaits, hidle⟩ := enabled_still h.still
  have hcells := hwaits.cells.trans h.cells
  rw [eraseSector, andThen]
  cases hfirst : d.enabled.1 with
  | false =>
    rw [if_neg Bool.false_ne_true]
    exact ⟨⟨.busy, h.of_programmed hwaits.kept (Or.inl hwaits.taken) rfl hcells, fun h => by cases h⟩,
      hwaits.kept, hwaits.taken⟩
  | true =>
    rw [if_pos rfl]
    have hidle := hidle hfirst
    have hkept := hwaits.kept
    generalize d.enabled.2 = d₁ at *
    cases hwel : d₁.chip.wel with
    | false =>
      -- the chip ignores the erase
      rw [sendErase_eq hidle, hwel, if_neg Bool.false_ne_true]
      obtain ⟨hwaits', _⟩ := notBusy_spec hidle.taken
      refine ⟨⟨.busy, h.of_programmed (hkept.trans hwaits'.kept) (Or.inl hwaits'.taken) rfl
        (hwaits'.cells.trans hcells), fun h => by cases h⟩, hkept.trans hwaits'.kept, hwaits'.taken⟩
    | true =>
      obtain ⟨hkept', htaken, _, hframe, herased⟩ := sendErase_spec hidle hwel address
      obtain ⟨hwaits', _⟩ := notBusy_spec htaken
      have hall := (hkept.trans hkept').trans hwaits'.kept
      have hstill : Still (d₁.sendErase address).notBusy.2 := Or.inl hwaits'.taken
      refine ⟨?_, hall, hwaits'.taken⟩
      rw [hcells] at hframe herased
      by_cases hdone : (d₁.chip.jobs d₁.chip.begun).left = none ∧
          (d₁.sendErase address).notBusy.1 = true
      · refine ⟨.done, h.of_programmed hall hstill rfl ?_, fun _ => hdone.2⟩
        rw [hwaits'.cells, herased hdone.1, eraseSector_mem]
      · refine ⟨.worn (d₁.sendErase address).chip.cells, h.of_programmed hall hstill rfl ?_,
          fun h => by cases h⟩
        rw [hwaits'.cells, sector_overlay hframe]

theorem eraseSector_prompt (h : d.Drives f) (hp : d.Prompt) (hclosed : d.chip.taken = none)
    (address : Nat) :
    (d.eraseSector address).1 = (f.eraseSector .done address).1 ∧
      (d.eraseSector address).2.Drives (f.eraseSector .done address).2 ∧
      (d.eraseSector address).2.Prompt := by
  obtain ⟨hwaits, hidle, hok⟩ := enabled_spec hclosed
  obtain ⟨hidle, hwel⟩ := hidle (hok hp)
  have hp' := hp.of_waits hwaits hidle
  have hcells := hwaits.cells.trans h.cells
  rw [eraseSector, andThen, hok hp, if_pos rfl]
  obtain ⟨hkept, htaken, hbusy, _, herased⟩ := sendErase_spec hidle hwel address
  obtain ⟨hwaits', _, hready, hok'⟩ := notBusy_spec htaken
  have hdone : (d.enabled.2.sendErase address).notBusy.1 = true := by
    refine hok' ?_
    rw [hbusy, hkept.patience]
    exact hp'.polls _ _
  have hall := (hwaits.kept.trans hkept).trans hwaits'.kept
  refine ⟨hdone, h.of_programmed hall (Or.inl hwaits'.taken) rfl ?_, hp.of_busy hall fun w => ?_⟩
  · rw [hwaits'.cells, herased (hp'.left _), hcells, eraseSector_mem]
  · rw [(hready hdone).busy]
    exact hp.patience_pos w

/-! ### A chip that is left behind -/

/-- A byte that says, taken for the status, that the chip is done and its latch is
set. -/
def Misleads (v : UInt8) : Prop := v &&& BUSY = 0 ∧ v &&& WRTEN ≠ 0

instance (v : UInt8) : Decidable (Misleads v) := inferInstanceAs (Decidable (_ ∧ _))

/-- The wait takes the second byte that is still to come for the status. -/
theorem notBusy_leftBehind {a : Nat} (h : d.chip.Reads a) (hwel : d.chip.wel = false)
    (hpatience : ∀ w, 1 < d.patience w) :
    d.notBusy.1 = true ∧
      (Misleads (d.chip.cells ((a + 1) % 16777216)) →
        d.notBusy.2.state = d.chip.cells ((a + 1) % 16777216)) ∧
      (¬ Misleads (d.chip.cells ((a + 1) % 16777216)) → d.notBusy.2.Ready) := by
  obtain ⟨n, hn⟩ : ∃ n, d.patience d.waits = n + 1 + 1 :=
    ⟨d.patience d.waits - 2, by have := hpatience d.waits; omega⟩
  have hread : ({ d with waits := d.waits + 1 } : Driver).chip.Reads a := h
  rw [notBusy, hn, notBusyLoop, readStat1_open hread]
  dsimp only
  generalize d.chip.cells ((a + 1) % 16777216) = v
  by_cases hbusy : v &&& BUSY = 0
  · rw [if_neg (not_not_intro hbusy)]
    refine ⟨rfl, fun _ => rfl, fun hfair => ⟨⟨rfl, h.busy⟩, ?_⟩⟩
    -- a status without the latch is the truth
    refine iff_of_false (fun hlatch => hfair ⟨hbusy, hlatch⟩) ?_
    rw [hwel]
    exact Bool.false_ne_true
  · rw [if_pos hbusy]
    obtain ⟨_, _, hready, hok⟩ := @notBusyLoop_spec (n + 1) { d with
      chip := { d.chip with taken := none }, state := v, waits := d.waits + 1 } rfl
    have hok := hok (show d.chip.busy < n + 1 by have := h.busy; omega)
    exact ⟨hok, fun hlies => absurd hlies.1 hbusy, fun _ => hready hok⟩

/-- **An erase behind a failed read-back** reports success, and it has erased the
sector unless the byte taken for the status misleads it. -/
theorem eraseSector_leftBehind {data : List UInt8} {i : Nat} (h : d.LeftBehind address data i)
    (hpatience : ∀ w, 1 < d.patience w) (hleft : (d.chip.jobs d.chip.begun).left = none)
    (hpolls : ∀ w, (d.chip.jobs d.chip.begun).polls < d.patience w) (s : Nat) :
    (d.eraseSector s).1 = true ∧ (d.eraseSector s).2.chip.cells =
      if Misleads (d.chip.cells ((address + i + 2) % 16777216)) then d.chip.cells
      else d.chip.cells.erase (sector s) 4096 := by
  obtain ⟨hok, hstate, hready⟩ := notBusy_leftBehind h.reads h.latch hpatience
  obtain ⟨hwaits, hwel, hidle⟩ := notBusy_open h.reads
  have hidle := hidle hok
  have hwel := hwel.trans h.latch
  have hcells := hwaits.cells
  have hjobs := hwaits.kept.jobs
  have hbegun := hwaits.begun
  have hpat := hwaits.kept.patience
  have henabled : d.enabled = d.notBusy.2.writeEnable := by
    rw [enabled, andThen, if_pos hok]
  rw [eraseSector, andThen, henabled]
  generalize d.notBusy.2 = d₁ at *
  by_cases hlies : Misleads (d.chip.cells ((address + i + 2) % 16777216))
  · -- no write enable is sent, and the chip ignores the erase
    have hgo : d₁.writeEnable = (true, d₁) := by
      rw [writeEnable, hstate hlies, if_neg hlies.2]
    rw [hgo, if_pos rfl, if_pos hlies, sendErase_eq hidle, hwel, if_neg Bool.false_ne_true]
    obtain ⟨hwaits', _, _, hok'⟩ := notBusy_spec hidle.taken
    refine ⟨hok' ?_, hwaits'.cells.trans hcells⟩
    rw [hidle.busy, hpat]
    exact Nat.lt_trans Nat.zero_lt_one (hpatience _)
  · have hready := hready hlies
    obtain ⟨hwaits₁, hidle₁, hlatch, hok₁⟩ := writeEnable_spec hidle
    have hok₁ := hok₁ (by rw [hpat]; exact Nat.lt_trans Nat.zero_lt_one (hpatience _))
    obtain ⟨hkept, htaken, hbusy, _, herased⟩ := sendErase_spec hidle₁ (hlatch hready hok₁) s
    have hjob : d₁.writeEnable.2.chip.jobs d₁.writeEnable.2.chip.begun =
        d.chip.jobs d.chip.begun := by
      rw [hwaits₁.kept.jobs, hwaits₁.begun, hjobs, hbegun]
    rw [hjob] at hbusy herased
    obtain ⟨hwaits₂, _, _, hok₂⟩ := notBusy_spec htaken
    rw [hok₁, if_pos rfl, if_neg hlies]
    refine ⟨hok₂ ?_, ?_⟩
    · rw [hbusy, hkept.patience, hwaits₁.kept.patience, hpat]
      exact hpolls _
    · rw [hwaits₂.cells, herased hleft, hwaits₁.cells, hcells]

/-- **A write that has read back another byte, and then an erase.**  The write leaves
the chip selected; the erase reports success, and erases the sector unless the byte two
behind the one that differs has its lowest bit clear and the next one set. -/
theorem eraseSector_behind_write (h : d.Drives f) {data : List UInt8}
    (hr : f.InRange address data.length) (hsize : data.length < 65536) {d' : Driver}
    (hd' : (d.writeByteArray address data).2 = d') (hopen : d'.chip.taken ≠ none)
    (hpatience : ∀ w, 1 < d.patience w) (hleft : (d'.chip.jobs d'.chip.begun).left = none)
    (hpolls : ∀ w, (d'.chip.jobs d'.chip.begun).polls < d.patience w) (s : Nat) :
    ∃ i, FirstDiff d'.chip.cells address data i ∧ (d'.eraseSector s).1 = true ∧
      (d'.eraseSector s).2.chip.cells =
        if Misleads (d'.chip.cells ((address + i + 2) % 16777216)) then d'.chip.cells
        else d'.chip.cells.erase (sector s) 4096 := by
  obtain ⟨_, hkept, hstill⟩ := writeByteArray_refines h hr hsize
  rw [hd'] at hkept hstill
  rw [← hkept.patience] at hpatience hpolls
  rcases hstill with hclosed | ⟨_, i, hbehind⟩
  · exact absurd hclosed hopen
  · obtain ⟨hok, hcells⟩ := eraseSector_leftBehind hbehind hpatience hleft hpolls s
    exact ⟨i, hbehind.first, hok, hcells⟩

end Calls

/-- A blank chip of 64 KiB that does at once whatever it is sent. -/
def quickDriver (jobs : Nat → Job) : Driver where
  chip := ⟨(0xEF, 0x40, 0x10), fun _ => 0xFF, false, 0, none, jobs, 0⟩
  capacity := 65536
  eraseTime := 400
  errorcode := 0
  state := 0
  currentAddress := 0
  patience := fun _ => 2
  waits := 0

theorem quickDriver_drives (jobs : Nat → Job) : (quickDriver jobs).Drives (blankChip 65536) where
  capacity := rfl
  cells := rfl
  identified := ⟨⟨show (0 : UInt8) ≠ UNKNOWNCAP by decide, show (0 : UInt8) ≠ NORESPONSE by decide⟩,
    show 400 ≠ 0 by decide⟩
  still := Or.inl rfl

theorem quickDriver_prompt : (quickDriver fun _ => .quick).Prompt where
  left := fun _ => rfl
  polls := fun _ _ => Nat.succ_pos 1
  busy := fun _ => Nat.succ_pos 1

/-- The program clears the lowest bit of every cell of the record, whatever the
record is. -/
def wornDriver : Driver := quickDriver fun k => if k = 0 then ⟨0, some fun _ => 0xFE⟩ else .quick

/-- The erase behind that write reports success, and the cells stay. -/
theorem eraseSector_behind_write_worn :
    ((wornDriver.writeByteArray 0 [0, 0, 0]).2.eraseSector 0).1 = true ∧
      ((wornDriver.writeByteArray 0 [0, 0, 0]).2.eraseSector 0).2.chip.cells 0 = 0xFE := by
  obtain ⟨hopen, hleft, hpolls, hcell, hcell₂⟩ :
      (wornDriver.writeByteArray 0 [0, 0, 0]).2.chip.taken.isSome = true ∧
      ((wornDriver.writeByteArray 0 [0, 0, 0]).2.chip.jobs
        (wornDriver.writeByteArray 0 [0, 0, 0]).2.chip.begun).left.isNone = true ∧
      ((wornDriver.writeByteArray 0 [0, 0, 0]).2.chip.jobs
        (wornDriver.writeByteArray 0 [0, 0, 0]).2.chip.begun).polls = 0 ∧
      (wornDriver.writeByteArray 0 [0, 0, 0]).2.chip.cells 0 = 0xFE ∧
      (wornDriver.writeByteArray 0 [0, 0, 0]).2.chip.cells 2 = 0xFE := by
    decide +kernel
  have hr : (blankChip 65536).InRange 0 [(0 : UInt8), 0, 0].length :=
    ⟨by decide, by decide, by decide⟩
  obtain ⟨i, hdiff, hok, herased⟩ := eraseSector_behind_write (d := wornDriver)
    (quickDriver_drives _) hr (by decide) rfl
    (fun h => by rw [h] at hopen; cases hopen) (fun _ => Nat.lt_succ_self 1)
    (Option.isNone_iff_eq_none.mp hleft) (fun _ => by rw [hpolls]; exact Nat.succ_pos 1) 0
  -- the first byte differs
  have hi : i = 0 := by
    cases i with
    | zero => rfl
    | succ i =>
      have hsame := hdiff.same 0 (Nat.succ_pos i)
      rw [hcell] at hsame
      cases hsame
  subst hi
  rw [if_pos (by rw [hcell₂]; decide)] at herased
  rw [herased]
  exact ⟨hok, hcell⟩

end Driver

end EnresLogger
