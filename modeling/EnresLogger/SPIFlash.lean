import EnresLogger.Lib.Memory

/-!
# The flash driver

`SPIFlash.cpp` drives one NOR chip.  A chip is its capacity and its cells; next
to them stands `cmds`, the erase and program commands the chip has been sent,
newest first, which no function reads.

What a worn or busy chip does is not decided here.  Each call takes an outcome
that says so: `EraseOutcome` for an erase, `ProgOutcome` for a program, a `Bool`
for a read.  `EraseOutcome.done` and `ProgOutcome.healthy` are the chip that
works.

The driver sends three address bytes, so a command reaches the cell
`busAddress` names.  `Mem` is indexed by such addresses.

`Effect` is what any sequence of calls does to a chip: it sends commands, and a
cell that no command covers keeps its byte.  `writeByteArray_effect` and
`eraseSector_effect` say which commands.  `writeByteArray_read` says that a
write that reports success has stored its bytes, `writeByteArray_healthy` when
it does report success.
-/

namespace EnresLogger

open Lib

/-! ### The chip -/

/-- A command that changes cells, with the address the chip decodes. -/
inductive Cmd
  | erase (address : Nat)
  | program (address size : Nat)
  deriving DecidableEq, Repr

/-- The cell `x` is in the range of the command. -/
def Cmd.Covers : Cmd → Nat → Prop
  | .erase a, x => a ≤ x ∧ x < a + 4096
  | .program a n, x => a ≤ x ∧ x < a + n

instance (c : Cmd) (x : Nat) : Decidable (c.Covers x) := by
  cases c <;> unfold Cmd.Covers <;> infer_instance

structure SPIFlash where
  /-- `_chip.capacity`, in bytes. -/
  capacity : Nat
  mem : Mem
  cmds : List Cmd

/-- A chip as it leaves the factory. -/
def blankChip (capacity : Nat) : SPIFlash := ⟨capacity, fun _ => 0xFF, []⟩

/-- What the chip makes of one erase: it erases, it stays busy and is sent
nothing, or it times out and leaves the sector as it may. -/
inductive EraseOutcome
  | done
  | busy
  | worn (left : Mem)

/-- What the chip makes of one program: `busy` before the first page, `left` in
the target range when the cells do not take the bytes, `stall` before the last
page or the read-back is through. -/
structure ProgOutcome where
  busy : Bool
  left : Option Mem
  stall : Bool

def ProgOutcome.healthy : ProgOutcome := ⟨false, none, false⟩

/-- A chip that does not answer. -/
def ProgOutcome.dead : ProgOutcome := ⟨true, none, false⟩

/-- The cells after the bytes have been sent to a range. -/
def ProgOutcome.cells (o : ProgOutcome) (m : Mem) (address : Nat) (data : List UInt8) : Mem :=
  match o.left with
  | none => m.program address data
  | some left => m.overlay address data.length left

theorem ProgOutcome.cells_of_not_mem {o : ProgOutcome} {m : Mem} {address x : Nat}
    {data : List UInt8} (h : x < address ∨ address + data.length ≤ x) :
    o.cells m address data x = m x := by
  unfold cells
  cases o.left with
  | none => exact Mem.program_of_not_mem h
  | some left => exact Mem.overlay_of_not_mem h

namespace SPIFlash

/-- `_transferAddress` sends bits 23 to 0. -/
def busAddress (address : Nat) : Nat := address % 16777216

/-- `_addressCheck`, on a chip that `begin` has identified and with
`pageOverflow` left at its default: the address a command will start at. -/
def addressCheck (f : SPIFlash) (address size : Nat) : Nat :=
  if (List.range size).any fun i => f.capacity ≤ (address + i) % 4294967296 then 0 else address

/-- `_notPrevWritten`, reading on from the address `_addressCheck` left. -/
def notPrevWritten (f : SPIFlash) (address size : Nat) : Bool :=
  f.mem.blank (busAddress address) size

/-- One page program: the chip stays in the page of the address. -/
def pageProgram (m : Mem) (page : Nat) : Nat → List UInt8 → Mem
  | _, [] => m
  | off, b :: bs => pageProgram (m.program (page + off % 256) [b]) page (off + 1) bs

/-- The `while (length > 0)` loop of `writeByteArray` and `writeCharArray`: the
first program ends with its page, the next ones take 256 bytes. -/
def programPages : Nat → Mem → Nat → Nat → List UInt8 → Mem
  | 0, m, _, _, _ => m
  | _ + 1, m, _, _, [] => m
  | fuel + 1, m, cur, maxBytes, data =>
      let a := busAddress cur
      programPages fuel (pageProgram m (a / 256 * 256) (a % 256) (data.take maxBytes))
        (cur + maxBytes) 256 (data.drop maxBytes)

/-- `writeByteArray(address, data, size, true)`, and `writeCharArray`, whose
body is the same.  The size is a `uint16_t`. -/
def writeByteArray (f : SPIFlash) (o : ProgOutcome) (address : Nat) (data : List UInt8) :
    Bool × SPIFlash :=
  let data := data.take (data.length % 65536)
  let cur := f.addressCheck address data.length
  if o.busy then (false, f)
  else if !f.notPrevWritten cur data.length then (false, f)
  else
    let mem := match o.left with
      | none => programPages data.length f.mem cur (256 - address % 256) data
      | some left => f.mem.overlay (busAddress cur) data.length left
    let f' := { f with mem, cmds := .program (busAddress cur) data.length :: f.cmds }
    if o.stall then (false, f')
    else (mem.read (busAddress address) data.length == data, f')

/-- `readByteArray(address, out, size)` into a buffer: the bytes read replace
the first ones of `out`.  The size is a `uint16_t`. -/
def readByteArray (f : SPIFlash) (busy : Bool) (address size : Nat) (out : List UInt8) :
    Bool × List UInt8 :=
  let size := size % 65536
  if busy then (false, out)
  else (true, f.mem.read (busAddress (f.addressCheck address size)) size ++ out.drop size)

/-- `eraseSector(address)`: the last address byte is sent as zero, and the chip
erases the 4096 bytes around it. -/
def eraseSector (f : SPIFlash) (o : EraseOutcome) (address : Nat) : Bool × SPIFlash :=
  let a := busAddress address / 4096 * 4096
  match o with
  | .busy => (false, f)
  | .done => (true, { f with mem := f.mem.erase a 4096, cmds := .erase a :: f.cmds })
  | .worn left => (false, { f with mem := f.mem.overlay a 4096 left, cmds := .erase a :: f.cmds })

/-! ### Pages -/

theorem pageProgram_eq {m : Mem} {page off : Nat} {bs : List UInt8} (h : off + bs.length ≤ 256) :
    pageProgram m page off bs = m.program (page + off) bs := by
  induction bs generalizing m off with
  | nil => rw [pageProgram, Mem.program_nil]
  | cons b bs ih =>
    simp only [List.length_cons] at h
    rw [pageProgram, ih (by omega), Nat.mod_eq_of_lt (by omega), ← Nat.add_assoc,
      show page + off + 1 = page + off + [b].length from rfl, Mem.program_append]
    rfl

/-- **The page loop stores a range**, as long as no address leaves 24 bits. -/
theorem programPages_eq : ∀ (fuel : Nat) {m : Mem} {cur maxBytes : Nat} {data : List UInt8},
    data.length ≤ fuel → 0 < maxBytes → cur % 256 + maxBytes = 256 →
    cur + data.length ≤ 16777216 →
    programPages fuel m cur maxBytes data = m.program cur data := by
  intro fuel
  induction fuel with
  | zero =>
    intro m cur maxBytes data hf _ _ _
    rw [List.eq_nil_of_length_eq_zero (Nat.le_zero.mp hf), programPages, Mem.program_nil]
  | succ fuel ih =>
    intro m cur maxBytes data hf hpos hpage hcur
    cases hd : data with
    | nil => rw [programPages, Mem.program_nil]
    | cons b bs =>
      have hlt : cur < 16777216 := by
        rw [hd] at hcur
        simp only [List.length_cons] at hcur
        omega
      rw [programPages, ← hd]
      · rw [busAddress, Nat.mod_eq_of_lt hlt, pageProgram_eq (by rw [List.length_take]; omega),
          Nat.div_add_mod']
        by_cases hlong : maxBytes ≤ data.length
        · rw [ih (by rw [List.length_drop]; omega) (by omega) (by omega)
              (by rw [List.length_drop]; omega)]
          have htake : (data.take maxBytes).length = maxBytes := by
            rw [List.length_take, Nat.min_eq_left hlong]
          have := Mem.program_append m cur (data.take maxBytes) (data.drop maxBytes)
          rw [htake, List.take_append_drop] at this
          exact this
        · rw [List.drop_of_length_le (by omega), List.take_of_length_le (by omega)]
          cases fuel <;> rw [programPages]
      · exact List.cons_ne_nil b bs

/-! ### Effects -/

/-- `f'` is `f` after the commands `new`: no other cell has changed. -/
structure Effect (f f' : SPIFlash) (new : List Cmd) : Prop where
  cmds : f'.cmds = new ++ f.cmds
  capacity : f'.capacity = f.capacity
  frame : ∀ x, (∀ c ∈ new, ¬ c.Covers x) → f'.mem x = f.mem x

theorem Effect.refl (f : SPIFlash) : Effect f f [] :=
  ⟨rfl, rfl, fun _ _ => rfl⟩

theorem Effect.trans {f f' f'' : SPIFlash} {new new' : List Cmd} (h : Effect f f' new)
    (h' : Effect f' f'' new') : Effect f f'' (new' ++ new) where
  cmds := by rw [h'.cmds, h.cmds, List.append_assoc]
  capacity := h'.capacity.trans h.capacity
  frame := fun x hx => by
    rw [h'.frame x (fun c hc => hx c (List.mem_append_left _ hc)),
      h.frame x (fun c hc => hx c (List.mem_append_right _ hc))]

theorem Effect.read_eq {f f' : SPIFlash} {new : List Cmd} (h : Effect f f' new) {a n : Nat}
    (hx : ∀ c ∈ new, ∀ x, a ≤ x → x < a + n → ¬ c.Covers x) :
    f'.mem.read a n = f.mem.read a n :=
  Mem.read_congr (fun x h1 h2 => h.frame x (fun c hc => hx c hc x h1 h2))

/-- An erase that begins sends one command, to the sector of its address. -/
theorem eraseSector_sends (f : SPIFlash) {o : EraseOutcome} (ho : o ≠ .busy) (address : Nat) :
    Effect f (f.eraseSector o address).2 [.erase (busAddress address / 4096 * 4096)] := by
  have hout : ∀ x, (∀ c ∈ [Cmd.erase (busAddress address / 4096 * 4096)], ¬ c.Covers x) →
      x < busAddress address / 4096 * 4096 ∨ busAddress address / 4096 * 4096 + 4096 ≤ x := by
    intro x hx
    have := hx _ (List.mem_singleton.mpr rfl)
    simp only [Cmd.Covers] at this
    omega
  cases o with
  | busy => exact absurd rfl ho
  | done => exact ⟨rfl, rfl, fun x hx => Mem.erase_of_not_mem (hout x hx)⟩
  | worn left => exact ⟨rfl, rfl, fun x hx => Mem.overlay_of_not_mem (hout x hx)⟩

theorem eraseSector_effect (f : SPIFlash) (o : EraseOutcome) (address : Nat) :
    ∃ new, Effect f (f.eraseSector o address).2 new ∧
      ∀ c ∈ new, c = .erase (busAddress address / 4096 * 4096) := by
  by_cases ho : o = .busy
  · subst ho
    exact ⟨[], .refl f, by simp⟩
  · exact ⟨_, eraseSector_sends f ho address, by simp⟩

/-- A range the chip has, reached by its three address bytes. -/
structure InRange (f : SPIFlash) (address size : Nat) : Prop where
  lt : address < 16777216
  le : address + size ≤ f.capacity
  bus : address + size ≤ 16777216

theorem InRange.addressCheck {f : SPIFlash} {a n : Nat} (h : f.InRange a n) :
    f.addressCheck a n = a := by
  rw [SPIFlash.addressCheck, if_neg]
  simp only [List.any_eq_true, List.mem_range, decide_eq_true_eq, not_exists, not_and, Nat.not_le]
  intro i hi
  have h1 := h.le
  have h2 := h.bus
  rw [Nat.mod_eq_of_lt (by omega)]
  omega

theorem InRange.busAddress {f : SPIFlash} {a n : Nat} (h : f.InRange a n) :
    SPIFlash.busAddress a = a := Nat.mod_eq_of_lt h.lt

section Write

variable {f : SPIFlash} {o : ProgOutcome} {address : Nat} {data : List UInt8}

theorem writeByteArray_eq (hr : f.InRange address data.length)
    (hsize : data.length < 65536) :
    f.writeByteArray o address data =
      if o.busy || !f.mem.blank address data.length then (false, f)
      else (!o.stall && (o.cells f.mem address data).read address data.length == data,
        { f with mem := o.cells f.mem address data
                 cmds := .program address data.length :: f.cmds }) := by
  have hbus := hr.bus
  have htake : data.take (data.length % 65536) = data := by
    rw [Nat.mod_eq_of_lt hsize, List.take_length]
  rw [writeByteArray]
  simp only [htake, hr.addressCheck, notPrevWritten, hr.busAddress]
  rw [programPages_eq data.length (Nat.le_refl _) (by omega) (by omega) (by omega)]
  cases o.busy <;> cases f.mem.blank address data.length <;> cases o.stall <;> rfl

theorem writeByteArray_effect (hr : f.InRange address data.length)
    (hsize : data.length < 65536) :
    ∃ new, Effect f (f.writeByteArray o address data).2 new ∧
      ∀ c ∈ new, c = .program address data.length := by
  rw [writeByteArray_eq hr hsize]
  split
  · exact ⟨[], .refl f, by simp⟩
  · refine ⟨[.program address data.length], ⟨rfl, rfl, fun x hx => ?_⟩, by simp⟩
    have := hx _ (List.mem_singleton.mpr rfl)
    simp only [Cmd.Covers] at this
    have hout : x < address ∨ address + data.length ≤ x := by omega
    exact ProgOutcome.cells_of_not_mem hout

/-- **A write that reports success has stored its bytes.** -/
theorem writeByteArray_read (hr : f.InRange address data.length)
    (hsize : data.length < 65536) (hok : (f.writeByteArray o address data).1 = true) :
    (f.writeByteArray o address data).2.mem.read address data.length = data := by
  rw [writeByteArray_eq hr hsize] at hok ⊢
  split at hok
  · cases hok
  · rename_i hc
    rw [if_neg hc]
    simp only [Bool.and_eq_true, beq_iff_eq] at hok
    exact hok.2

theorem writeByteArray_healthy (hr : f.InRange address data.length)
    (hsize : data.length < 65536) (hbl : f.mem.blank address data.length = true) :
    f.writeByteArray .healthy address data =
      (true, { f with mem := f.mem.program address data
                      cmds := .program address data.length :: f.cmds }) := by
  have hcells : ProgOutcome.healthy.cells f.mem address data = f.mem.program address data := rfl
  rw [writeByteArray_eq hr hsize, hbl, hcells, Mem.read_program_of_blank hbl]
  simp [ProgOutcome.healthy]

/-- A range that is not erased is refused, and the chip is sent nothing. -/
theorem writeByteArray_refused (hr : f.InRange address data.length)
    (hsize : data.length < 65536) (hbl : f.mem.blank address data.length = false) :
    f.writeByteArray o address data = (false, f) := by
  rw [writeByteArray_eq hr hsize, hbl]
  simp

end Write

theorem readByteArray_eq {f : SPIFlash} {busy : Bool} {address size : Nat} {out : List UInt8}
    (hr : f.InRange address size) (hsize : size < 65536) (hout : out.length = size) :
    f.readByteArray busy address size out =
      if busy then (false, out) else (true, f.mem.read address size) := by
  rw [readByteArray]
  simp only [Nat.mod_eq_of_lt hsize, hr.addressCheck, List.drop_of_length_le (Nat.le_of_eq hout),
    List.append_nil, hr.busAddress]

end SPIFlash

end EnresLogger
