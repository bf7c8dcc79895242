import EnresLogger.Lib.Memory

/-!
# A serial NOR flash

The chip at the other end of an SPI bus, byte for byte, as its data sheet has it.
While it is selected it takes one byte and gives one back in each transfer; the
first byte is the instruction.  A write enable, a program and an erase are carried
out when the chip is deselected.

What the data sheet leaves open is a `Job`: for how long a program or an erase
keeps the chip busy, counted in reads of the status register, and what it leaves
in the cells when they do not take it.

A chip that is busy knows only the status register, and one whose write enable
latch is not set ignores programs and erases.  Each of these takes the latch back.
-/

namespace EnresLogger.Lib

structure Job where
  polls : Nat
  left : Option Mem

/-- An operation that the cells take. -/
def Job.quick : Job := ⟨0, none⟩

structure Nor where
  /-- what it answers to an identification: manufacturer, type, capacity -/
  jedec : UInt8 × UInt8 × UInt8
  cells : Mem
  /-- the write enable latch -/
  wel : Bool
  /-- how many reads of the status register still find it busy -/
  busy : Nat
  /-- the bytes taken since it was selected -/
  taken : Option (List UInt8)
  /-- the programs and erases, in their order -/
  jobs : Nat → Job
  begun : Nat

/-! ### Inside a page -/

/-- The `i`-th cell of a program at `a`: it stays in the page of `a`. -/
def pageCell (a i : Nat) : Nat := a / 256 * 256 + (a % 256 + i) % 256

namespace Mem

def programPage (m : Mem) (a : Nat) : Nat → List UInt8 → Mem
  | _, [] => m
  | i, b :: bs => programPage (m.program (pageCell a i) [b]) a (i + 1) bs

/-- The cells of a program of `n` bytes at `a` take their bytes from `g`. -/
def overlayPage (m : Mem) (a n : Nat) (g : Mem) : Mem :=
  fun x => if (List.range n).any fun i => pageCell a i == x then g x else m x

theorem read_succ (m : Mem) (a n : Nat) : m.read a (n + 1) = m a :: m.read (a + 1) n := by
  rw [Nat.add_comm, read_append]
  rfl

theorem programPage_eq {m : Mem} {a i : Nat} {bs : List UInt8} (h : a % 256 + i + bs.length ≤ 256) :
    m.programPage a i bs = m.program (a + i) bs := by
  induction bs generalizing m i with
  | nil => rw [programPage, program_nil]
  | cons b bs ih =>
    rw [List.length_cons] at h
    have hcell : pageCell a i = a + i := by
      rw [pageCell]
      omega
    rw [programPage, ih (by omega), hcell, ← Nat.add_assoc,
      show a + i + 1 = a + i + [b].length from rfl, program_append]
    rfl

theorem overlayPage_eq {m g : Mem} {a n : Nat} (h : a % 256 + n ≤ 256) :
    m.overlayPage a n g = m.overlay a n g := by
  funext x
  rw [overlayPage, overlay]
  congr 1
  rw [eq_iff_iff, List.any_eq_true]
  constructor
  · rintro ⟨i, hi, hx⟩
    have hi := List.mem_range.mp hi
    have hx := beq_iff_eq.mp hx
    rw [pageCell] at hx
    omega
  · rintro ⟨h1, h2⟩
    refine ⟨x - a, List.mem_range.mpr (by omega), beq_iff_eq.mpr ?_⟩
    rw [pageCell]
    omega

end Mem

namespace Nor

/-! ### The bus -/

/-- Three address bytes, high byte first. -/
def addr (h m l : UInt8) : Nat := 65536 * h.toNat + 256 * m.toNat + l.toNat

/-- Bit 0 is busy, bit 1 the latch. -/
def status (c : Nor) : UInt8 :=
  if 0 < c.busy then 0x03 else if c.wel then 0x02 else 0x00

def select (c : Nor) : Nor :=
  { c with taken := some (c.taken.getD []) }

/-- What the chip gives back, with these bytes taken. -/
def output (c : Nor) : List UInt8 → UInt8
  | 0x05 :: _ => c.status
  | [0x9F] => if c.busy = 0 then c.jedec.1 else 0xFF
  | [0x9F, _] => if c.busy = 0 then c.jedec.2.1 else 0xFF
  | [0x9F, _, _] => if c.busy = 0 then c.jedec.2.2 else 0xFF
  | 0x03 :: h :: m :: l :: rest =>
      if c.busy = 0 then c.cells ((addr h m l + rest.length) % 16777216) else 0xFF
  | _ => 0xFF

/-- One byte each way. -/
def transfer (b : UInt8) (c : Nor) : UInt8 × Nor :=
  match c.taken with
  | none => (0xFF, c)
  | some bs =>
      (c.output bs, { c with
        taken := some (bs ++ [b])
        busy := if bs.head? = some 0x05 then c.busy - 1 else c.busy })

/-- A program or an erase begins. -/
def begin (c : Nor) (cells : Job → Mem) : Nor :=
  { c with
    cells := cells (c.jobs c.begun), wel := false, busy := (c.jobs c.begun).polls
    begun := c.begun + 1 }

def programJob (m : Mem) (a : Nat) (bs : List UInt8) (j : Job) : Mem :=
  match j.left with
  | none => m.programPage a 0 bs
  | some g => m.overlayPage a bs.length g

def eraseJob (m : Mem) (a : Nat) (j : Job) : Mem :=
  match j.left with
  | none => m.erase (a / 4096 * 4096) 4096
  | some g => m.overlay (a / 4096 * 4096) 4096 g

/-- What a chip that is not busy does with the bytes it has taken. -/
def execute (c : Nor) : List UInt8 → Nor
  | [0x06] => { c with wel := true }
  | [0x04] => { c with wel := false }
  | 0x02 :: h :: m :: l :: b :: bs =>
      if c.wel then c.begin (programJob c.cells (addr h m l) (b :: bs)) else c
  | [0x20, h, m, l] => if c.wel then c.begin (eraseJob c.cells (addr h m l)) else c
  | _ => c

def deselect (c : Nor) : Nor :=
  match c.taken with
  | none => c
  | some bs =>
      let c := { c with taken := none }
      if c.busy = 0 then c.execute bs else c

/-- Bytes that are neither a program nor an erase. -/
theorem execute_skip (c : Nor) {b b' : UInt8} (bs : List UInt8) (hprogram : b ≠ 0x02)
    (herase : b ≠ 0x20) : c.execute (b :: b' :: bs) = c := by
  unfold execute
  split
  · rename_i heq
    cases heq
  · rename_i heq
    cases heq
  · rename_i heq
    exact absurd (List.cons.inj heq).1 hprogram
  · rename_i heq
    exact absurd (List.cons.inj heq).1 herase
  · rfl

theorem deselect_closed {c : Nor} (hc : c.taken = none) : c.deselect = c := by
  rw [deselect, hc]

/-! ### Bytes in a row -/

/-- What the chip gives back is not looked at. -/
def send (bs : List UInt8) (c : Nor) : Nor := bs.foldl (fun c b => (c.transfer b).2) c

@[simp] theorem send_nil (c : Nor) : c.send [] = c := rfl

theorem send_cons (b : UInt8) (bs : List UInt8) (c : Nor) :
    c.send (b :: bs) = (c.transfer b).2.send bs := rfl

theorem send_append (bs bs' : List UInt8) (c : Nor) : c.send (bs ++ bs') = (c.send bs).send bs' :=
  List.foldl_append

theorem transfer_snd {c : Nor} {ts : List UInt8} (h : c.taken = some ts)
    (hts : ts.head? ≠ some 0x05) (b : UInt8) :
    (c.transfer b).2 = { c with taken := some (ts ++ [b]) } := by
  rw [transfer, h]
  dsimp only
  rw [if_neg hts]

/-- The bytes are collected, unless it is the status that is read. -/
theorem send_taken {c : Nor} {ts bs : List UInt8} (h : c.taken = some ts)
    (hts : (ts ++ bs).head? ≠ some 0x05) : c.send bs = { c with taken := some (ts ++ bs) } := by
  induction bs generalizing c ts with
  | nil =>
    rw [send_nil, List.append_nil, ← h]
  | cons b bs ih =>
    have hhead : ts.head? ≠ some 0x05 := by
      intro h5
      cases ts with
      | nil => cases h5
      | cons t ts => exact hts h5
    rw [send_cons, transfer_snd h hhead, ih rfl (by rw [List.append_assoc]; exact hts),
      List.append_assoc]
    rfl

/-! ### Instructions

Each of them for a chip that is not selected. -/

section Instructions

variable {c : Nor} (hc : c.taken = none)
include hc

theorem select_eq : c.select = { c with taken := some [] } := by
  rw [select, hc]
  rfl

theorem send_deselect {b : UInt8} (bs : List UInt8) (hb : b ≠ 0x05) :
    (c.select.send (b :: bs)).deselect = if c.busy = 0 then c.execute (b :: bs) else c := by
  have hclosed : { c with taken := none } = c := by
    rw [← hc]
  have hhead : ([] ++ b :: bs).head? ≠ some 0x05 := fun h => hb (Option.some.inj h)
  rw [select_eq hc, send_taken rfl hhead]
  show (if c.busy = 0 then execute { c with taken := none } (b :: bs)
    else { c with taken := none }) = _
  rw [hclosed]

/-- The status register: what it says, and one read less to come. -/
theorem select_status (b : UInt8) :
    let r := (c.select.send [0x05]).transfer b
    r.1 = c.status ∧ r.2.deselect = { c with busy := c.busy - 1 } := by
  have hsent : c.select.send [0x05] = { c with taken := some [0x05] } := by
    rw [select_eq hc]
    rfl
  have hclosed : { c with busy := c.busy - 1, taken := none } = { c with busy := c.busy - 1 } := by
    rw [← hc]
  rw [hsent]
  refine ⟨rfl, ?_⟩
  show (if c.busy - 1 = 0 then { c with busy := c.busy - 1, taken := none }
    else { c with busy := c.busy - 1, taken := none }) = _
  rw [ite_self, hclosed]

theorem send_writeEnable (h : c.busy = 0) :
    (c.select.send [0x06]).deselect = { c with wel := true } := by
  rw [send_deselect hc [] (by decide), if_pos h]
  rfl

theorem send_program (h : c.busy = 0) (hwel : c.wel = true) (a m l : UInt8) {bs : List UInt8}
    (hbs : bs ≠ []) : (c.select.send (0x02 :: a :: m :: l :: bs)).deselect =
      c.begin (programJob c.cells (addr a m l) bs) := by
  obtain ⟨b, bs', rfl⟩ := List.exists_cons_of_ne_nil hbs
  rw [send_deselect hc _ (by decide), if_pos h]
  exact if_pos hwel

theorem send_erase (h : c.busy = 0) (a m l : UInt8) :
    (c.select.send [0x20, a, m, l]).deselect =
      if c.wel then c.begin (eraseJob c.cells (addr a m l)) else c := by
  rw [send_deselect hc _ (by decide), if_pos h]
  rfl

theorem select_identify (h : c.busy = 0) (b₁ b₂ b₃ : UInt8) :
    let r₁ := (c.select.send [0x9F]).transfer b₁
    let r₂ := r₁.2.transfer b₂
    let r₃ := r₂.2.transfer b₃
    (r₁.1, r₂.1, r₃.1) = c.jedec ∧ r₃.2.deselect = c := by
  have hsent : c.select.send [0x9F] = { c with taken := some [0x9F] } := by
    rw [select_eq hc]
    rfl
  have hclosed : { c with taken := none } = c := by
    rw [← hc]
  rw [hsent]
  dsimp only
  refine ⟨?_, ?_⟩
  · show (if c.busy = 0 then c.jedec.1 else 0xFF, if c.busy = 0 then c.jedec.2.1 else 0xFF,
      if c.busy = 0 then c.jedec.2.2 else 0xFF) = _
    rw [if_pos h, if_pos h, if_pos h]
  · show (if c.busy = 0 then execute { c with taken := none } [0x9F, b₁, b₂, b₃]
      else { c with taken := none }) = c
    rw [hclosed, if_pos h, execute_skip _ _ (by decide) (by decide)]

end Instructions

/-! ### Reading -/

/-- The chip is giving back its cells, from `a` on. -/
structure Reads (c : Nor) (a : Nat) : Prop where
  busy : c.busy = 0
  taken : ∃ h m l ts, c.taken = some (0x03 :: h :: m :: l :: ts) ∧ a = addr h m l + ts.length

theorem reads_select {c : Nor} (hc : c.taken = none) (hbusy : c.busy = 0) (h m l : UInt8) :
    (c.select.send [0x03, h, m, l]).Reads (addr h m l) ∧
      ∃ ts, c.select.send [0x03, h, m, l] = { c with taken := some ts } := by
  have hsent : c.select.send [0x03, h, m, l] = { c with taken := some [0x03, h, m, l] } := by
    rw [select_eq hc]
    rfl
  rw [hsent]
  exact ⟨⟨hbusy, h, m, l, [], rfl, rfl⟩, _, rfl⟩

theorem Reads.transfer {c : Nor} {a : Nat} (h : c.Reads a) (b : UInt8) :
    (c.transfer b).1 = c.cells (a % 16777216) ∧ (c.transfer b).2.Reads (a + 1) ∧
      ∃ ts, (c.transfer b).2 = { c with taken := some ts } := by
  obtain ⟨hbusy, h, m, l, ts, htaken, rfl⟩ := h
  have hsnd : (c.transfer b).2 = { c with taken := some (0x03 :: h :: m :: l :: (ts ++ [b])) } :=
    transfer_snd htaken (by simp) b
  refine ⟨?_, ⟨?_, h, m, l, ts ++ [b], ?_, ?_⟩, _, hsnd⟩
  · rw [Nor.transfer, htaken]
    exact if_pos hbusy
  · rw [hsnd]
    exact hbusy
  · rw [hsnd]
  · rw [List.length_append, List.length_singleton, Nat.add_assoc]

theorem Reads.select {c : Nor} {a : Nat} (h : c.Reads a) : c.select = c := by
  obtain ⟨_, h, m, l, ts, htaken, rfl⟩ := h
  rw [Nor.select, htaken, Option.getD_some, ← htaken]

theorem Reads.deselect {c : Nor} {a : Nat} (h : c.Reads a) :
    c.deselect = { c with taken := none } := by
  obtain ⟨hbusy, h, m, l, ts, htaken, rfl⟩ := h
  rw [Nor.deselect, htaken]
  exact if_pos hbusy

end Nor

end EnresLogger.Lib
