import EnresLogger.Wire

/-!
# What the chip says it is

`SPIFlash::begin` asks the chip for three bytes and looks its capacity up in a
table.  `begin_spec` has the three ways this goes: it fails, or the driver is left
as `Drives` asks for, with the capacity of the table, or it reports success with a
capacity of 0.

The last is a chip of a known manufacturer and an unknown size.  The ring is laid
out on it all the same, with 67108736 records, and `WireRun.unsized` says what comes
of that: no write and no read ever gets through, and the erases do.
-/

namespace EnresLogger

open Lib

def JEDECID : UInt8 := 0x9F
def READSFDP : UInt8 := 0x5A
def DUMMYBYTE : UInt8 := 0xEE

def WINBOND_MANID : UInt8 := 0xEF
def MICROCHIP_MANID : UInt8 := 0xBF

def UNKNOWNCHIP : UInt8 := 0x02

namespace Driver

/-! ### The functions -/

/-- `_getSFDP`: nobody looks at the answer. -/
def getSFDP (d : Driver) : Driver :=
  let r := d.notBusy
  if r.1 then
    ({ r.2.beginSPI READSFDP with currentAddress := 0 }.nextBytes
      (addressBytes 0 ++ [DUMMYBYTE, 0, 0, 0, 0])).endSPI
  else r.2

/-- `_getJedecId`, with the three bytes it has read. -/
def getJedecId (d : Driver) : (Bool × UInt8 × UInt8 × UInt8) × Driver :=
  let r := d.notBusy
  if r.1 then
    let r₁ := (r.2.beginSPI JEDECID).nextByte 0
    let r₂ := r₁.2.nextByte 0
    let r₃ := r₂.2.nextByte 0
    let d := r₃.2.endSPI
    if r₁.1 = 0 ∨ r₂.1 = 0 ∨ r₃.1 = 0 then
      ((false, r₁.1, r₂.1, r₃.1), { d with errorcode := NORESPONSE })
    else ((true, r₁.1, r₂.1, r₃.1), d)
  else ((false, 0, 0, 0), r.2)

/-- `_capID`, `_memSize` and `_eraseTime`. -/
def capID : List (UInt8 × Nat × Nat) :=
  [(0x10, 65536, 1000), (0x11, 131072, 2000), (0x12, 262144, 2000), (0x13, 524288, 4000),
    (0x14, 1048576, 6000), (0x15, 2097152, 10000), (0x16, 4194304, 15000), (0x17, 8388608, 100000),
    (0x18, 16777216, 200000), (0x19, 33554432, 400000), (0x43, 8388608, 50)]

/-- The loop over the table: every entry is looked at. -/
def size (id : UInt8) (l : List (UInt8 × Nat × Nat)) (d : Driver) : Driver :=
  l.foldl (fun d e => if id = e.1 then { d with capacity := e.2.1, eraseTime := e.2.2 } else d) d

/-- `_chipID`.  `_chip.capacity/KB8` multiplies: `KB8` is `8L * 1024L`. -/
def chipID (d : Driver) : Bool × Driver :=
  let r := d.getSFDP.getJedecId
  if r.1.1 then
    if r.2.capacity = 0 then
      if r.1.2.1 = WINBOND_MANID ∨ r.1.2.1 = MICROCHIP_MANID then
        (true, size r.1.2.2.2 capID r.2)
      else (false, { r.2 with errorcode := UNKNOWNCAP })
    else (true, { r.2 with
      eraseTime := r.2.capacity / 8 * 1024 % 4294967296, errorcode := UNKNOWNCHIP })
  else (false, r.2)

/-- `begin(_chipSize)` -/
def begin (chipSize : Nat) (d : Driver) : Bool × Driver :=
  chipID (if chipSize ≠ 0 then { d with capacity := chipSize / 8 } else d)

/-! ### The three bytes -/

/-- The object and the chip when the power comes on. -/
structure Fresh (d : Driver) : Prop where
  taken : d.chip.taken = none
  capacity : d.capacity = 0
  eraseTime : d.eraseTime = 0
  errorcode : d.errorcode = 0

theorem instruction_eq (d : Driver) {opcode : UInt8} (hop : ¬ (opcode = READDATA ∨ opcode = PAGEPROG))
    (a : Nat) (bs : List UInt8) :
    ({ d.beginSPI opcode with currentAddress := a }.nextBytes bs).endSPI =
      { d with chip := (d.chip.select.send (opcode :: bs)).deselect, currentAddress := a } := by
  rw [beginSPI, if_neg hop]
  rfl

theorem getSFDP_spec {d : Driver} (h : d.chip.taken = none) (hp : d.Prompt) :
    ∃ a, Waits { d with currentAddress := a } d.getSFDP ∧ d.getSFDP.Idle := by
  obtain ⟨hwaits, _, hready, hok⟩ := notBusy_spec h
  have hok := hok (hp.busy _)
  have hidle := (hready hok).toIdle
  refine ⟨0, ?_⟩
  rw [getSFDP]
  dsimp only
  rw [if_pos hok]
  generalize d.notBusy.2 = d₁ at *
  rw [instruction_eq d₁ (by decide), Nor.send_deselect hidle.taken _ (by decide), if_pos hidle.busy,
    addressBytes, List.cons_append, Nor.execute_skip _ _ (by decide) (by decide)]
  obtain ⟨wel, busy, state, errorcode, waits, rfl, herror⟩ := hwaits
  exact ⟨⟨wel, busy, state, errorcode, waits, rfl, herror⟩, hidle.taken, hidle.busy⟩

/-- The chip answers with three bytes, none of them 0. -/
def Present (d : Driver) : Prop :=
  d.chip.jedec.1 ≠ 0 ∧ d.chip.jedec.2.1 ≠ 0 ∧ d.chip.jedec.2.2 ≠ 0

instance (d : Driver) : Decidable d.Present := inferInstanceAs (Decidable (_ ∧ _ ∧ _))

theorem getJedecId_spec {d : Driver} (h : d.chip.taken = none) (hp : d.Prompt) :
    ∃ d', Waits d d' ∧ d'.Idle ∧ (d.Present → d.getJedecId = ((true, d.chip.jedec), d')) ∧
      (¬ d.Present → d.getJedecId = ((false, d.chip.jedec), { d' with errorcode := NORESPONSE })) := by
  obtain ⟨hwaits, _, hready, hok⟩ := notBusy_spec h
  have hok := hok (hp.busy _)
  have hidle := (hready hok).toIdle
  have hjedec : d.notBusy.2.chip.jedec = d.chip.jedec := by
    obtain ⟨_, _, _, _, _, heq, _⟩ := hwaits
    rw [heq]
  refine ⟨d.notBusy.2, hwaits, hidle, ?_⟩
  rw [getJedecId]
  dsimp only
  rw [if_pos hok, Present, ← hjedec]
  generalize d.notBusy.2 = d₁ at *
  have hbegin : d₁.beginSPI JEDECID = { d₁ with chip := d₁.chip.select.send [0x9F] } := by
    rw [beginSPI, if_neg (by decide)]
    rfl
  obtain ⟨hbytes, hchip⟩ := Nor.select_identify hidle.taken hidle.busy 0 0 0
  rw [hbegin]
  dsimp only [nextByte, endSPI]
  rw [hchip, ← hbytes]
  constructor
  · rintro ⟨h₁, h₂, h₃⟩
    exact if_neg fun hzero => by
      rcases hzero with h0 | h0 | h0
      · exact h₁ h0
      · exact h₂ h0
      · exact h₃ h0
  · intro habsent
    refine if_pos ?_
    by_contra hzero
    obtain ⟨h₁, hzero⟩ := not_or.mp hzero
    exact habsent ⟨h₁, not_or.mp hzero⟩

/-! ### The table -/

theorem size_of_not_mem {id : UInt8} {l : List (UInt8 × Nat × Nat)} (h : ∀ e ∈ l, e.1 ≠ id)
    (d : Driver) : size id l d = d := by
  induction l generalizing d with
  | nil => rfl
  | cons e l ih =>
    rw [size, List.foldl_cons, if_neg (Ne.symm (h e List.mem_cons_self))]
    exact ih (fun e' he' => h e' (List.mem_cons_of_mem e he')) d

theorem size_of_mem {l : List (UInt8 × Nat × Nat)} (hl : (l.map Prod.fst).Nodup)
    {e : UInt8 × Nat × Nat} (he : e ∈ l) (d : Driver) :
    size e.1 l d = { d with capacity := e.2.1, eraseTime := e.2.2 } := by
  induction l generalizing d with
  | nil => cases he
  | cons e' l ih =>
    obtain ⟨hnew, hl⟩ := List.nodup_cons.mp hl
    rw [size, List.foldl_cons]
    rcases List.mem_cons.mp he with rfl | he
    · rw [if_pos rfl]
      refine size_of_not_mem (fun e' he' hkey => hnew ?_) _
      rw [← hkey]
      exact List.mem_map_of_mem he'
    · have hne : e.1 ≠ e'.1 := fun hkey => hnew (hkey ▸ List.mem_map_of_mem he)
      rw [if_neg hne]
      exact ih hl he d

theorem capID_nodup : (capID.map Prod.fst).Nodup := by decide

theorem capID_eraseTime {e : UInt8 × Nat × Nat} (he : e ∈ capID) : e.2.2 ≠ 0 := by
  revert e
  decide

/-- The manufacturer is one of the two. -/
def Supported (d : Driver) : Prop :=
  d.chip.jedec.1 = WINBOND_MANID ∨ d.chip.jedec.1 = MICROCHIP_MANID

/-- What the identification is made of, under the words of the source. -/
theorem begin_eq {d : Driver} (h : d.Fresh) (hp : d.Prompt) :
    ∃ d', d'.Idle ∧ d'.Prompt ∧ d'.chip.cells = d.chip.cells ∧ d'.capacity = 0 ∧ d'.eraseTime = 0 ∧
      (d'.errorcode ≠ UNKNOWNCAP ∧ d'.errorcode ≠ NORESPONSE) ∧
      (d.Present → d.Supported → d.begin 0 = (true, size d.chip.jedec.2.2 capID d')) ∧
      (d.Present → ¬ d.Supported → d.begin 0 = (false, { d' with errorcode := UNKNOWNCAP })) ∧
      (¬ d.Present → d.begin 0 = (false, { d' with errorcode := NORESPONSE })) := by
  obtain ⟨a, hwaits, hidle⟩ := getSFDP_spec h.taken hp
  have hp₀ : Prompt { d with currentAddress := a } := ⟨hp.left, hp.polls, hp.busy⟩
  obtain ⟨d', hwaits', hidle', hsome, hnone⟩ :=
    getJedecId_spec hidle.taken (hp₀.of_waits hwaits hidle)
  have hall := hwaits.trans hwaits'
  have hjedec : d.getSFDP.chip.jedec = d.chip.jedec := by
    obtain ⟨_, _, _, _, _, heq, _⟩ := hwaits
    rw [heq]
  have hpresent : d.getSFDP.Present ↔ d.Present := by rw [Present, Present, hjedec]
  rw [hpresent, hjedec] at hsome hnone
  have hp' := hp₀.of_waits hall hidle'
  obtain ⟨wel, busy, state, errorcode, waits, heq, herror⟩ := hall
  have hcap : d'.capacity = 0 := by
    rw [heq]
    exact h.capacity
  refine ⟨d', hidle', hp', by rw [heq], hcap, by rw [heq]; exact h.eraseTime, ?_, ?_, ?_, ?_⟩
  · rw [heq]
    show errorcode ≠ UNKNOWNCAP ∧ errorcode ≠ NORESPONSE
    rcases herror with herror | herror | herror
    · rw [herror, show ({ d with currentAddress := a } : Driver).errorcode = 0 from h.errorcode]
      decide
    · rw [herror]
      decide
    · rw [herror]
      decide
  · intro hpres hsupp
    rw [begin, if_neg (not_not_intro rfl), chipID, hsome hpres]
    dsimp only
    rw [if_pos rfl, if_pos hcap]
    exact if_pos hsupp
  · intro hpres hsupp
    rw [begin, if_neg (not_not_intro rfl), chipID, hsome hpres]
    dsimp only
    rw [if_pos rfl, if_pos hcap]
    exact if_neg hsupp
  · intro hpres
    rw [begin, if_neg (not_not_intro rfl), chipID, hnone hpres]
    rfl

/-- **The three ways an identification goes.**  It succeeds exactly for a chip of one of
the two manufacturers that answers.  If the table has its size, the driver drives it; if
not, or if it fails, the driver has no size. -/
theorem begin_spec {d : Driver} (h : d.Fresh) (hp : d.Prompt) :
    ((d.begin 0).1 = true ↔ d.Present ∧ d.Supported) ∧
      (∀ e ∈ capID, e.1 = d.chip.jedec.2.2 → d.Present → d.Supported →
        (d.begin 0).2.Drives ⟨e.2.1, d.chip.cells, []⟩ ∧ (d.begin 0).2.eraseTime = e.2.2) ∧
      (((∀ e ∈ capID, e.1 ≠ d.chip.jedec.2.2) ∨ ¬ (d.Present ∧ d.Supported)) →
        (d.begin 0).2.capacity = 0 ∧ (d.begin 0).2.eraseTime = 0) ∧
      (d.begin 0).2.chip.cells = d.chip.cells ∧ (d.begin 0).2.chip.taken = none ∧
      (d.begin 0).2.Prompt := by
  obtain ⟨d', hidle, hp', hcells, hcap, htime, herror, hok, hunknown, habsent⟩ := begin_eq h hp
  by_cases hpres : d.Present
  · by_cases hsupp : d.Supported
    · rw [hok hpres hsupp]
      by_cases hsize : ∃ e ∈ capID, e.1 = d.chip.jedec.2.2
      · obtain ⟨e, he, hid⟩ := hsize
        rw [← hid, size_of_mem capID_nodup he]
        refine ⟨iff_of_true rfl ⟨hpres, hsupp⟩, ?_, ?_, hcells, hidle.taken,
          ⟨hp'.left, hp'.polls, hp'.busy⟩⟩
        · intro e' he' hid' _ _
          have hsame : e' = e := by
            have hall : ∀ e₁ ∈ capID, ∀ e₂ ∈ capID, e₁.1 = e₂.1 → e₁ = e₂ := by decide
            exact hall e' he' e he hid'
          rw [hsame]
          exact ⟨⟨rfl, hcells, ⟨herror, capID_eraseTime he⟩, Or.inl hidle.taken⟩, rfl⟩
        · rintro (hnone | hnot)
          · exact absurd rfl (hnone e he)
          · exact absurd ⟨hpres, hsupp⟩ hnot
      · push Not at hsize
        rw [size_of_not_mem hsize]
        exact ⟨iff_of_true rfl ⟨hpres, hsupp⟩, fun e he hid => absurd hid (hsize e he),
          fun _ => ⟨hcap, htime⟩, hcells, hidle.taken, hp'⟩
    · rw [hunknown hpres hsupp]
      exact ⟨iff_of_false Bool.false_ne_true fun hboth => hsupp hboth.2,
        fun _ _ _ _ hboth => absurd hboth hsupp, fun _ => ⟨hcap, htime⟩, hcells, hidle.taken,
        ⟨hp'.left, hp'.polls, hp'.busy⟩⟩
  · rw [habsent hpres]
    exact ⟨iff_of_false Bool.false_ne_true fun hboth => hpres hboth.1,
      fun _ _ _ hboth => absurd hboth hpres, fun _ => ⟨hcap, htime⟩, hcells, hidle.taken,
      ⟨hp'.left, hp'.polls, hp'.busy⟩⟩

/-- A blank chip with this capacity byte, before `begin`. -/
def freshDriver (id : UInt8) : Driver where
  chip := ⟨(WINBOND_MANID, 0x40, id), fun _ => 0xFF, false, 0, none, fun _ => .quick, 0⟩
  capacity := 0
  eraseTime := 0
  errorcode := 0
  state := 0
  currentAddress := 0
  patience := fun _ => 2
  waits := 0

theorem freshDriver_fresh (id : UInt8) : (freshDriver id).Fresh := ⟨rfl, rfl, rfl, rfl⟩

theorem freshDriver_prompt (id : UInt8) : (freshDriver id).Prompt where
  left := fun _ => rfl
  polls := fun _ _ => Nat.succ_pos 1
  busy := fun _ => Nat.succ_pos 1

/-- 64 KiB. -/
theorem begin_spec_64K : ((freshDriver 0x10).begin 0).1 = true ∧
    ((freshDriver 0x10).begin 0).2.Drives (blankChip 65536) ∧
    ((freshDriver 0x10).begin 0).2.eraseTime = 1000 := by
  obtain ⟨hok, hdrives, _⟩ := begin_spec (freshDriver_fresh 0x10) (freshDriver_prompt 0x10)
  have hpres : (freshDriver 0x10).Present := by decide
  have hsupp : (freshDriver 0x10).Supported := Or.inl rfl
  exact ⟨hok.mpr ⟨hpres, hsupp⟩,
    hdrives (0x10, 65536, 1000) List.mem_cons_self rfl hpres hsupp⟩

/-! ### A driver without a size -/

theorem notBusyLoop_eraseTime (n : Nat) (d : Driver) :
    (notBusyLoop n d).2.eraseTime = d.eraseTime := by
  induction n generalizing d with
  | zero => rfl
  | succ n ih =>
    rw [notBusyLoop]
    dsimp only
    split
    · exact ih _
    · rfl

theorem writeEnableLoop_eraseTime (n : Nat) (d : Driver) :
    (writeEnableLoop n d).2.eraseTime = d.eraseTime := by
  induction n generalizing d with
  | zero => rfl
  | succ n ih =>
    rw [writeEnableLoop]
    dsimp only
    split
    · exact ih _
    · rfl

theorem andThen_eraseTime {r : Bool × Driver} {f : Driver → Bool × Driver}
    (hf : (f r.2).2.eraseTime = r.2.eraseTime) : (andThen r f).2.eraseTime = r.2.eraseTime := by
  rw [andThen]
  split
  · exact hf
  · rfl

theorem notBusy_eraseTime (d : Driver) : d.notBusy.2.eraseTime = d.eraseTime :=
  notBusyLoop_eraseTime _ _

theorem writeEnable_eraseTime (d : Driver) : d.writeEnable.2.eraseTime = d.eraseTime := by
  rw [writeEnable]
  split
  · exact writeEnableLoop_eraseTime _ _
  · rfl

theorem eraseSector_eraseTime (d : Driver) (address : Nat) :
    (d.eraseSector address).2.eraseTime = d.eraseTime := by
  have henabled : d.enabled.2.eraseTime = d.eraseTime :=
    (andThen_eraseTime (writeEnable_eraseTime _)).trans (notBusy_eraseTime d)
  exact (andThen_eraseTime (r := d.enabled) (f := fun d => (d.sendErase address).notBusy)
    (notBusy_eraseTime _)).trans henabled

theorem eraseLoop_eraseTime (m : SPIFlashMeter) (index n : Nat) (d : Driver) :
    (d.eraseLoop m index n).eraseTime = d.eraseTime := by
  induction n with
  | zero => rfl
  | succ n ih =>
    rw [eraseLoop_succ]
    split
    · rw [eraseSector_eraseTime, ih]
    · exact ih

/-- `_addressCheck` refuses, whatever the range. -/
theorem prep_unsized {d : Driver} (h : d.eraseTime = 0) (opcode : UInt8) (address n : Nat) :
    (d.prep opcode address n).1 = false ∧ (d.prep opcode address n).2.eraseTime = 0 ∧
      (d.prep opcode address n).2.chip = d.chip := by
  rw [prep, addressCheck, if_pos h]
  split <;> exact ⟨rfl, h, rfl⟩

theorem writeByteArray_unsized {d : Driver} (h : d.eraseTime = 0) (address : Nat)
    (data : List UInt8) :
    (d.writeByteArray address data).1 = false ∧ (d.writeByteArray address data).2.eraseTime = 0 ∧
      (d.writeByteArray address data).2.chip = d.chip := by
  obtain ⟨hno, htime, hchip⟩ :=
    prep_unsized h PAGEPROG address (data.take (data.length % 65536)).length
  rw [writeByteArray, andThen, hno, if_neg Bool.false_ne_true]
  exact ⟨rfl, htime, hchip⟩

theorem readByteArray_unsized {d : Driver} (h : d.eraseTime = 0) (address n : Nat)
    (out : List UInt8) :
    (d.readByteArray address n out).1 = (false, out) ∧
      (d.readByteArray address n out).2.eraseTime = 0 := by
  obtain ⟨hno, htime, _⟩ := prep_unsized h READDATA address (n % 65536)
  rw [readByteArray]
  dsimp only
  rw [hno, if_neg Bool.false_ne_true]
  exact ⟨rfl, htime⟩

theorem writeRecords_unsized {d : Driver} (h : d.eraseTime = 0) (m : SPIFlashMeter) (index : Nat)
    (buff : List UInt8) :
    (d.writeRecords m index buff).1 = false ∧ (d.writeRecords m index buff).2.eraseTime = 0 ∧
      (d.writeRecords m index buff).2.chip =
        (d.eraseLoop m index (buff.length / m.recordSize % 256)).chip := by
  have hloop := (eraseLoop_eraseTime m index (buff.length / m.recordSize % 256) d).trans h
  rw [writeRecords]
  dsimp only
  cases m.splitAt index buff.length with
  | none => exact writeByteArray_unsized hloop _ _
  | some k =>
    obtain ⟨hno, htime, hchip⟩ :=
      writeByteArray_unsized hloop (m.recordAddress index) (buff.take k)
    obtain ⟨_, htime', hchip'⟩ :=
      writeByteArray_unsized htime SPIFlashMeter.reserveSize (buff.drop k)
    dsimp only
    rw [hno]
    exact ⟨rfl, htime', hchip'.trans hchip⟩

theorem readRecords_unsized {d : Driver} (h : d.eraseTime = 0) (m : SPIFlashMeter) (index : Nat)
    (out : List UInt8) :
    (d.readRecords m index out).1 = (false, out) ∧
      (d.readRecords m index out).2.eraseTime = 0 := by
  rw [readRecords]
  dsimp only
  cases m.splitAt index out.length with
  | none => exact readByteArray_unsized h _ _ _
  | some k =>
    obtain ⟨hno, htime⟩ := readByteArray_unsized h (m.recordAddress index) k (out.take k)
    obtain ⟨hno', htime'⟩ :=
      readByteArray_unsized htime SPIFlashMeter.reserveSize (out.length - k) (out.drop k)
    dsimp only
    rw [hno, hno', List.take_append_drop]
    exact ⟨rfl, htime'⟩

end Driver

/-- **What a run keeps on a chip without a size.** -/
theorem WireRun.eraseTime {m : SPIFlashMeter} {d : Driver} {W₀ : Nat} (h : d.eraseTime = 0)
    {w : WireWriter} (hw : WireRun m d W₀ w) :
    w.driver.eraseTime = 0 ∧ w.hist = fun _ => none := by
  induction hw with
  | start => exact ⟨h, rfl⟩
  | @write w n buff _ _ _ _ _ ih =>
    obtain ⟨htime, hhist⟩ := ih
    obtain ⟨hno, htime', _⟩ := Driver.writeRecords_unsized htime m w.next buff
    rw [WireWriter.write, hno, if_neg Bool.false_ne_true]
    exact ⟨htime', hhist⟩
  | jump _ ih => exact ih
  | @read w index n out _ _ _ ih =>
    obtain ⟨htime, hhist⟩ := ih
    exact ⟨(Driver.readRecords_unsized htime m index out).2, hhist⟩

/-- **`begin` reports success on a chip it has no size for.**  From then on, in every run,
nothing is committed, each write fails when its erases are done, and each read fails. -/
theorem Driver.begin_unsized {d : Driver} (h : d.Fresh) (hp : d.Prompt) (hpres : d.Present)
    (hsupp : d.Supported) (hsize : ∀ e ∈ Driver.capID, e.1 ≠ d.chip.jedec.2.2) :
    (d.begin 0).1 = true ∧ ∀ (m : SPIFlashMeter) (W₀ : Nat) (w : WireWriter),
      WireRun m (d.begin 0).2 W₀ w → w.hist = (fun _ => none) ∧
        (∀ index buff, (w.driver.writeRecords m index buff).1 = false ∧
          (w.driver.writeRecords m index buff).2.chip =
            (w.driver.eraseLoop m index (buff.length / m.recordSize % 256)).chip) ∧
        ∀ index out, (w.driver.readRecords m index out).1 = (false, out) := by
  obtain ⟨d', _, _, _, _, htime', _, hok, _⟩ := Driver.begin_eq h hp
  rw [hok hpres hsupp, Driver.size_of_not_mem hsize]
  refine ⟨rfl, ?_⟩
  intro m W₀ w hw
  obtain ⟨htime, hhist⟩ := hw.eraseTime htime'
  refine ⟨hhist, ?_, ?_⟩
  · intro index buff
    obtain ⟨hno, _, hchip⟩ := Driver.writeRecords_unsized htime m index buff
    exact ⟨hno, hchip⟩
  · intro index out
    exact (Driver.readRecords_unsized htime m index out).1

/-- A chip of 64 MiB: the first write takes nothing. -/
theorem Driver.begin_unsized_64M : ((Driver.freshDriver 0x20).begin 0).1 = true ∧
    (((Driver.freshDriver 0x20).begin 0).2.writeRecords smallRing 0 (List.replicate 64 7)).1 =
      false := by
  obtain ⟨hok, hrun⟩ := Driver.begin_unsized (Driver.freshDriver_fresh 0x20)
    (Driver.freshDriver_prompt 0x20) (by decide) (Or.inl rfl) (by decide)
  obtain ⟨_, hwrite, _⟩ := hrun smallRing 0 _ .start
  exact ⟨hok, (hwrite 0 (List.replicate 64 7)).1⟩

end EnresLogger
