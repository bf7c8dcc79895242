import EnresLogger.Lib.Torn
import EnresLogger.Crash

/-!
# The indices byte by byte

`writenvram` sends a word to the clock chip byte by byte, the lowest one first, and the
chip keeps each byte as it comes.  A reset can fall between two of them.  Then the word
in the chip is neither the old one nor the new one, if a carry ran between them:
`NVRAM.ofChip_send`.

`torn_pass_iff` says when a pass that is cut so leaves the indices in order, and
`crash_consistent_bytes` that with no reset in such a place the indices stand for
committed records after every boot, as they do when a store is made whole or not at all.
-/

namespace EnresLogger

open Lib

def MCP7940_NVRAM : Nat := 0x20
def SRAM_ADDRESS : Nat := MCP7940_NVRAM

namespace RTC_MCP7940

/-- `writenvram(address, buf, size)`: the chip counts its address up. -/
def writenvram (address : Nat) (buf : List UInt8) (chip : Mem) : Mem :=
  chip.store (MCP7940_NVRAM + address) buf

def readnvram (size address : Nat) (chip : Mem) : List UInt8 :=
  chip.read (MCP7940_NVRAM + address) size

end RTC_MCP7940

/-! ### Stores and the chip -/

def Store.address : Store → Nat
  | .mark => SRAM_ADDRESS
  | .w _ => SRAM_ADDRESS + 1
  | .r _ => SRAM_ADDRESS + 5

def Store.bytes : Store → List UInt8
  | .mark => [0x55]
  | .w index => leBytes (UInt32.ofNat index)
  | .r index => leBytes (UInt32.ofNat index)

/-- The store, when only its first `i` bytes get through. -/
def Store.send (x : Store) (i : Nat) (chip : Mem) : Mem :=
  RTC_MCP7940.writenvram x.address (x.bytes.take i) chip

/-- The index fits its word. -/
def Store.Fits : Store → Prop
  | .mark => True
  | .w index => index < 4294967296
  | .r index => index < 4294967296

namespace NVRAM

/-- What `setup` reads. -/
def ofChip (chip : Mem) : NVRAM where
  mark := (RTC_MCP7940.readnvram 1 SRAM_ADDRESS chip).headD 0
  w := (leWord (RTC_MCP7940.readnvram 4 (SRAM_ADDRESS + 1) chip)).toNat
  r := (leWord (RTC_MCP7940.readnvram 4 (SRAM_ADDRESS + 5) chip)).toNat

/-- A store of which `i` bytes get through. -/
def torn (nv : NVRAM) (x : Store) (i : Nat) : NVRAM :=
  match x with
  | .mark => if i = 0 then nv else nv.write .mark
  | .w index => { nv with w := Lib.torn nv.w index i }
  | .r index => { nv with r := Lib.torn nv.r index i }

/-- **The bytes of a store**, on the words. -/
theorem ofChip_send (chip : Mem) {x : Store} (hx : x.Fits) {i : Nat} (hi : i ≤ 4) :
    ofChip (x.send i chip) = (ofChip chip).torn x i := by
  have hword : ∀ (a : Nat) (w : UInt32), leWord ((chip.store a ((leBytes w).take i)).read a 4) =
      leWord ((leBytes w).take i ++ (chip.read a 4).drop i) := by
    intro a w
    have hlen : ((leBytes w).take i).length = i := by
      rw [List.length_take, leBytes_length]
      omega
    rw [Mem.read_store_prefix chip a (by rw [hlen]; exact hi), hlen]
  have hother : ∀ (a b n : Nat) {bs : List UInt8}, b + n ≤ a ∨ a + bs.length ≤ b →
      (chip.store a (bs.take i)).read b n = chip.read b n := by
    intro a b n bs h
    refine Mem.read_store_disjoint (h.imp_right fun h => Nat.le_trans ?_ h)
    exact Nat.add_le_add_left (List.length_take_le' i bs) a
  rw [ofChip, ofChip, Store.send]
  cases x with
  | mark =>
    simp only [RTC_MCP7940.readnvram, RTC_MCP7940.writenvram, Store.address, Store.bytes]
    rw [hother _ (MCP7940_NVRAM + (SRAM_ADDRESS + 1)) _ (Or.inr (by decide)),
      hother _ (MCP7940_NVRAM + (SRAM_ADDRESS + 5)) _ (Or.inr (by decide))]
    cases i with
    | zero => rfl
    | succ i =>
      have hmark : ∀ a, (chip.store a [0x55]).read a 1 = [0x55] :=
        fun a => Mem.read_store chip a [0x55]
      rw [List.take_of_length_le (Nat.succ_le_succ (Nat.zero_le i)), hmark]
      rfl
  | w index =>
    simp only [RTC_MCP7940.readnvram, RTC_MCP7940.writenvram, Store.address, Store.bytes]
    rw [hother _ (MCP7940_NVRAM + SRAM_ADDRESS) _ (Or.inl (by decide)),
      hother _ (MCP7940_NVRAM + (SRAM_ADDRESS + 5)) _ (Or.inr (Nat.le_refl 69)), hword,
      leWord_torn (Mem.read_length _ _ _) _ hi, UInt32.toNat_ofNat_of_lt' hx]
    rfl
  | r index =>
    simp only [RTC_MCP7940.readnvram, RTC_MCP7940.writenvram, Store.address, Store.bytes]
    rw [hother _ (MCP7940_NVRAM + SRAM_ADDRESS) _ (Or.inl (by decide)),
      hother _ (MCP7940_NVRAM + (SRAM_ADDRESS + 1)) _ (Or.inl (by decide)), hword,
      leWord_torn (Mem.read_length _ _ _) _ hi, UInt32.toNat_ofNat_of_lt' hx]
    rfl

/-- The words found when the stores before the `k`-th one were made, and `i` bytes of
that one. -/
def cut (nv : NVRAM) (xs : List Store) (k i : Nat) : NVRAM :=
  match xs[k]? with
  | none => xs.foldl write nv
  | some x => ((xs.take k).foldl write nv).torn x i

theorem ofChip_w_lt (chip : Mem) : (ofChip chip).w < 4294967296 := UInt32.toNat_lt _

theorem ofChip_r_lt (chip : Mem) : (ofChip chip).r < 4294967296 := UInt32.toNat_lt _

/-- **A whole store.** -/
theorem ofChip_store (chip : Mem) {x : Store} (hx : x.Fits) :
    ofChip (x.send 4 chip) = (ofChip chip).write x := by
  rw [ofChip_send chip hx (Nat.le_refl 4)]
  cases x with
  | mark => rfl
  | w index => rw [torn, torn_full (ofChip_w_lt chip) hx, write]
  | r index => rw [torn, torn_full (ofChip_r_lt chip) hx, write]

end NVRAM

/-- The chip when the stores before the `k`-th one were made, and `i` bytes of that one. -/
def chipCut (chip : Mem) (xs : List Store) (k i : Nat) : Mem :=
  match xs[k]? with
  | none => xs.foldl (fun c x => x.send 4 c) chip
  | some x => x.send i ((xs.take k).foldl (fun c x => x.send 4 c) chip)

/-- **Cuts of the chip are cuts of the words.** -/
theorem ofChip_chipCut (chip : Mem) {xs : List Store} (hxs : ∀ x ∈ xs, x.Fits) (k : Nat) {i : Nat}
    (hi : i ≤ 4) : NVRAM.ofChip (chipCut chip xs k i) = (NVRAM.ofChip chip).cut xs k i := by
  have hwhole : ∀ (ys : List Store) (chip : Mem), (∀ x ∈ ys, x.Fits) →
      NVRAM.ofChip (ys.foldl (fun c x => x.send 4 c) chip) =
        ys.foldl NVRAM.write (NVRAM.ofChip chip) := by
    intro ys
    induction ys with
    | nil => exact fun _ _ => rfl
    | cons y ys ih =>
      intro chip hys
      rw [List.foldl_cons, List.foldl_cons, ih _ fun x hx => hys x (List.mem_cons_of_mem y hx),
        NVRAM.ofChip_store chip (hys y List.mem_cons_self)]
  rw [chipCut, NVRAM.cut]
  cases hk : xs[k]? with
  | none => exact hwhole xs chip hxs
  | some x =>
    dsimp only
    rw [NVRAM.ofChip_send _ (hxs x (List.mem_of_getElem? hk)) hi,
      hwhole _ chip fun y hy => hxs y (List.mem_of_mem_take hy)]

namespace Logger

/-! ### A cut inside a task -/

/-- What a pass does to the indices: nothing, or it stores a `wIndex` that is `n` greater. -/
theorem Backed.pass {s s' : Logger} {p : Pass} (h : s.Backed) (hlog : s.start.logTask p = some s')
    (hskip : ¬ s.Skips p) (hw : s.wIndex + s.passSize < 4294967296) :
    s'.Backed ∧ s'.rIndex = s.rIndex ∧ ∃ n, n ≤ s.passSize ∧ n ≤ MAXMETER ∧
      s'.wIndex = s.wIndex + n ∧
      (s'.stores = [] ∧ n = 0 ∨ s'.stores = [.w (s.wIndex + n)]) := by
  rw [logTask_eq, Option.map_eq_some_iff] at hlog
  obtain ⟨⟨s₁, b?⟩, hbatch, rfl⟩ := hlog
  obtain ⟨hprep, hof⟩ := batch_spec hbatch
  have hs₁ := h.start.prepared hprep
  cases b? with
  | none =>
    obtain ⟨md, fd, wBuff, rfl⟩ := hprep
    exact ⟨hs₁, rfl, 0, Nat.zero_le _, Nat.zero_le _, rfl, Or.inl ⟨rfl, rfl⟩⟩
  | some b =>
    have hb := hof b rfl
    have hnot : ¬ ((s₁.flash.writeData b.kind p.outcome s₁.wIndex b.data).1 = false ∧
        s₁.AtEscape) := fun hesc => hskip ⟨s₁, b, hbatch, hesc⟩
    have hsize : b.num = s.passSize := hb.size
    obtain ⟨md, fd, wBuff, rfl⟩ := hprep
    refine ⟨hs₁.writeBatch p.outcome hb.toSound (fun _ => by rw [hsize]; exact hw), ?_⟩
    dsimp only
    have hmod : (s.wIndex + b.num) % 4294967296 = s.wIndex + b.num :=
      Nat.mod_eq_of_lt (by omega)
    rcases writeBatch_cases { s.start with md, fd, wBuff } p.outcome b with
      ⟨_, heq⟩ | ⟨_, _, heq⟩ | ⟨hfail, hesc, _⟩
    · rw [heq]
      refine ⟨rfl, b.num, Nat.le_of_eq hsize, hb.toSound.le, hmod, Or.inr ?_⟩
      show [Store.w ((s.wIndex + b.num) % 4294967296)] = _
      rw [hmod]
    · rw [heq]
      exact ⟨rfl, 0, Nat.zero_le _, Nat.zero_le _, rfl, Or.inl ⟨rfl, rfl⟩⟩
    · exact absurd ⟨hfail, hesc⟩ hnot

theorem Backed.cut_pass {s s' : Logger} (h : s.Backed) {n : Nat}
    (hstores : s'.stores = [] ∧ n = 0 ∨ s'.stores = [.w (s.wIndex + n)]) (i : Nat) :
    s.nv.cut s'.stores 0 i = ⟨0x55, torn s.wIndex (s.wIndex + n) i, s.rIndex⟩ := by
  rcases hstores with ⟨hnil, rfl⟩ | hone
  · rw [hnil, Nat.add_zero, torn_self, ← h.nv]
    rfl
  · rw [hone, h.nv]
    rfl

theorem Backed.cut_post {s s' : Logger} (h : s.Backed) (hp : Posted s.start s') (i : Nat) :
    ∃ n, s.rIndex + n ≤ s.wIndex ∧ s'.rIndex = s.rIndex + n ∧
      s.nv.cut s'.stores 0 i = ⟨0x55, s.wIndex, torn s.rIndex (s.rIndex + n) i⟩ := by
  have hlt := h.lt
  have hle := h.spans.1
  obtain ⟨rBuff, posts, rfl | ⟨num, hnum, rfl⟩⟩ := hp
  · refine ⟨0, hle, rfl, ?_⟩
    rw [Nat.add_zero, torn_self, ← h.nv]
    rfl
  · have hmod : (s.rIndex + num) % 4294967296 = s.rIndex + num := by
      refine Nat.mod_eq_of_lt ?_
      have : s.rIndex + num ≤ s.wIndex := hnum
      omega
    refine ⟨num, hnum, hmod, ?_⟩
    show NVRAM.torn s.nv (.r ((s.rIndex + num) % 4294967296)) i = _
    rw [hmod, h.nv]
    rfl

theorem le_pow_of_le_MAXMETER {n i : Nat} (hn : n ≤ MAXMETER) (hi : 0 < i) : n ≤ 256 ^ i := by
  refine Nat.le_trans hn (Nat.le_trans (show MAXMETER ≤ 256 ^ 1 by decide) ?_)
  exact Nat.pow_le_pow_right (by decide) hi

/-- **A pass cut inside its store**, with any number of bytes through, on any chip that
holds the indices.  The device finds them in order unless a carry out of the bytes that got
through takes `wIndex` back behind `rIndex`. -/
theorem torn_pass_iff {s s' : Logger} {p : Pass} (h : s.Backed)
    (hlog : s.start.logTask p = some s') (hskip : ¬ s.Skips p)
    (hw : s.wIndex + s.passSize < 4294967296) {chip : Mem} (hchip : NVRAM.ofChip chip = s.nv)
    {i : Nat} (hpos : 0 < i) (hi : i ≤ 4) (sd : SDConfig) :
    let n := s'.wIndex - s.wIndex
    let found := { s' with nv := .ofChip (chipCut chip s'.stores 0 i) }.setup sd
    found.rIndex = s.rIndex ∧
      found.wIndex = (if s.wIndex % 256 ^ i + n < 256 ^ i then s.wIndex + n
        else s.wIndex + n - 256 ^ i) ∧
      (found.rIndex ≤ found.wIndex ↔
        s.wIndex % 256 ^ i + n < 256 ^ i ∨ s.rIndex + 256 ^ i ≤ s.wIndex + n) := by
  obtain ⟨_, _, n, _, hmax, hwIndex, hstores⟩ := h.pass hlog hskip hw
  have hn : s'.wIndex - s.wIndex = n := by omega
  have hfits : ∀ x ∈ s'.stores, x.Fits := by
    intro x hx
    rcases hstores with ⟨hnil, _⟩ | hone
    · rw [hnil] at hx
      cases hx
    · rw [hone] at hx
      obtain rfl := List.mem_singleton.mp hx
      show s.wIndex + n < 4294967296
      omega
  have hpow := le_pow_of_le_MAXMETER hmax hpos
  have hspans := h.spans.1
  have hlow := Nat.mod_le s.wIndex (256 ^ i)
  intro n' found
  have hnv : NVRAM.ofChip (chipCut chip s'.stores 0 i) =
      ⟨0x55, torn s.wIndex (s.wIndex + n) i, s.rIndex⟩ := by
    rw [ofChip_chipCut chip hfits 0 hi, hchip, h.cut_pass hstores]
  obtain ⟨_, _, _, _, _, hsetup⟩ := setup_of_mark (s := { s' with
    nv := .ofChip (chipCut chip s'.stores 0 i) }) sd (by rw [hnv])
  have hfound : found.wIndex = torn s.wIndex (s.wIndex + n) i ∧ found.rIndex = s.rIndex := by
    rw [show found = _ from hsetup]
    dsimp only
    rw [hnv]
    exact ⟨rfl, rfl⟩
  rw [hfound.1, hfound.2, show n' = n from hn, torn_add hpow]
  refine ⟨rfl, rfl, ?_⟩
  split <;> omega

theorem not_skips {s : Logger} (p : Pass) (h : (s.fErrorCnt + 1) % 256 < FLASH_ERROR_MAX) :
    ¬ s.Skips p := by
  rintro ⟨s₁, b, hbatch, _, hesc⟩
  obtain ⟨md, fd, wBuff, rfl⟩ := (batch_spec hbatch).1
  exact absurd hesc.1 (Nat.not_le.mpr h)

/-- A clock chip of which only the mark is written. -/
def markedChip : Mem := Mem.store (fun _ => 0) (MCP7940_NVRAM + SRAM_ADDRESS) [0x55]

theorem newDevice_pass : ∃ s', ((newDevice 0 0).setup (.plain 2 0 1)).start.logTask
    (sensorPass .healthy) = some s' ∧ s'.wIndex = 1 :=
  Option.map_eq_some_iff.mp (by decide +kernel :
    (((newDevice 0 0).setup (.plain 2 0 1)).start.logTask (sensorPass .healthy)).map (·.wIndex) =
      some 1)

/-- A device that finds 255 in both words. -/
def at255 : Logger := (factory (blankChip 65536) (.plain 2 0 1) ⟨0x55, 255, 255⟩).setup (.plain 2 0 1)

def chip255 : Mem :=
  Mem.store (fun _ => 0) (MCP7940_NVRAM + SRAM_ADDRESS) [0x55, 255, 0, 0, 0, 255, 0, 0, 0]

theorem at255_backed : at255.Backed :=
  ⟨rfl, ⟨Nat.le_refl _, fun _ h₁ h₂ => absurd h₁ (Nat.not_le.mpr h₂)⟩, by decide⟩

/-- A pass from 255 to 256, cut after one byte: the device finds 0. -/
theorem torn_pass_iff_carry :
    ∃ s', at255.start.logTask (sensorPass .healthy) = some s' ∧ s'.wIndex = 256 ∧
      let found := { s' with nv := .ofChip (chipCut chip255 s'.stores 0 1) }.setup (.plain 2 0 1)
      found.rIndex = 255 ∧ found.wIndex = 0 ∧ ¬ found.rIndex ≤ found.wIndex := by
  have hpass : (at255.start.logTask (sensorPass .healthy)).map (·.wIndex) = some 256 := by
    decide +kernel
  have hchip : NVRAM.ofChip chip255 = at255.nv := by decide +kernel
  obtain ⟨s', hlog, hw⟩ := Option.map_eq_some_iff.mp hpass
  obtain ⟨hr, hw', hiff⟩ := torn_pass_iff at255_backed hlog (not_skips _ (by decide)) (by decide)
    hchip (i := 1) (by decide) (by decide) (.plain 2 0 1)
  rw [hw] at hw' hiff
  exact ⟨s', hlog, hw, hr, hw', fun hle => absurd (hiff.mp hle) (by decide)⟩

/-! ### Runs -/

/-- The device as it is found when, of the `k`-th store of a task, `i` bytes got through. -/
def foundCut (s' : Logger) (xs : List Store) (chip : Mem) (k i : Nat) (sd : SDConfig) : Logger :=
  { s' with nv := .ofChip (chipCut chip xs k i) }.setup sd

/-- A carry does not take `wIndex` back behind `rIndex`. -/
def SafeCutLog (s s' : Logger) (i : Nat) : Prop :=
  s.wIndex % 256 ^ i + (s'.wIndex - s.wIndex) < 256 ^ i ∨
    s.rIndex + 256 ^ i ≤ s'.wIndex

/-- There is no carry in `rIndex`. -/
def SafeCutPost (s s' : Logger) (i : Nat) : Prop :=
  s.rIndex % 256 ^ i + (s'.rIndex - s.rIndex) < 256 ^ i

/-- Runs in which a reset may also fall inside a store. -/
inductive ByteReach (fmt : Format) (s₀ : Logger) : Logger → Prop
  | refl : ByteReach fmt s₀ s₀
  | step {s s' : Logger} {l : Label} :
      ByteReach fmt s₀ s → next fmt l s = some s' → Safe s l → ByteReach fmt s₀ s'
  | cutLog {s s' : Logger} {p : Pass} {chip : Mem} {i : Nat} (sd : SDConfig) :
      ByteReach fmt s₀ s → s.start.logTask p = some s' → ¬ s.Skips p →
      s.wIndex + s.passSize < 4294967296 → NVRAM.ofChip chip = s.nv → 0 < i → i ≤ 4 →
      SafeCutLog s s' i → ByteReach fmt s₀ (foundCut s' s'.stores chip 0 i sd)
  | cutPost {s s' : Logger} {net : Network} {chip : Mem} {i : Nat} (sd : SDConfig) :
      ByteReach fmt s₀ s → s.start.postTask fmt net = some s' → NVRAM.ofChip chip = s.nv → i ≤ 4 →
      SafeCutPost s s' i → ByteReach fmt s₀ (foundCut s' s'.stores chip 0 i sd)
  | cutResetW {s : Logger} {chip : Mem} {i : Nat} (sd : SDConfig) :
      -- the records still count while `wIndex` is not 0
      ByteReach fmt s₀ s → NVRAM.ofChip chip = s.nv → i ≤ 4 →
      s.rIndex ≤ s.wIndex / 256 ^ i * 256 ^ i →
      ByteReach fmt s₀ (foundCut s s.start.resetIndex.stores chip 0 i sd)
  | cutResetR {s : Logger} {chip : Mem} {i : Nat} (sd : SDConfig) :
      ByteReach fmt s₀ s → NVRAM.ofChip chip = s.nv → i ≤ 4 → s.rIndex < 256 ^ i →
      ByteReach fmt s₀ (foundCut s.start.resetIndex s.start.resetIndex.stores chip 1 i sd)

theorem foundCut_backed {s' : Logger} {xs : List Store} {chip : Mem} {k i : Nat} (sd : SDConfig)
    (hfits : ∀ x ∈ xs, x.Fits) (hi : i ≤ 4) {w r : Nat}
    (hcut : (NVRAM.ofChip chip).cut xs k i = ⟨0x55, w, r⟩) (hspans : Spans s'.commits r w)
    (hw : w < 4294967296) : (foundCut s' xs chip k i sd).Backed := by
  refine Bootable.setup ⟨?_, ?_, ?_⟩ sd <;> dsimp only <;> rw [ofChip_chipCut chip hfits k hi, hcut]
  · exact hspans
  · exact hw

theorem Spans.shorter {commits : List (Nat × Record)} {r w w' : Nat} (h : Spans commits r w)
    (hr : r ≤ w') (hw : w' ≤ w) : Spans commits r w' :=
  ⟨hr, fun i h₁ h₂ => h.2 i h₁ (Nat.lt_of_lt_of_le h₂ hw)⟩

theorem Backed.foundCut_log {s s' : Logger} {p : Pass} {chip : Mem} {i : Nat} (h : s.Backed)
    (sd : SDConfig) (hlog : s.start.logTask p = some s') (hskip : ¬ s.Skips p)
    (hw : s.wIndex + s.passSize < 4294967296) (hchip : NVRAM.ofChip chip = s.nv) (hpos : 0 < i)
    (hi : i ≤ 4) (hsafe : SafeCutLog s s' i) : (foundCut s' s'.stores chip 0 i sd).Backed := by
  obtain ⟨hback, hr, n, hsize, hmax, hwIndex, hstores⟩ := h.pass hlog hskip hw
  have hfits : ∀ x ∈ s'.stores, x.Fits := by
    intro x hx
    rcases hstores with ⟨hnil, _⟩ | hone
    · rw [hnil] at hx
      cases hx
    · rw [hone] at hx
      obtain rfl := List.mem_singleton.mp hx
      exact Nat.lt_of_le_of_lt (Nat.add_le_add_left hsize _) hw
  refine foundCut_backed sd hfits hi (by rw [hchip]; exact h.cut_pass hstores i) ?_ ?_
  · -- the word found is one that the records reach up to
    have hspans := hback.spans
    rw [hr, hwIndex] at hspans
    rw [SafeCutLog, hwIndex, Nat.add_sub_cancel_left] at hsafe
    rw [torn_add (le_pow_of_le_MAXMETER hmax hpos)]
    have := h.spans.1
    split
    · exact hspans
    · rcases hsafe with hlt | hle
      · contradiction
      · exact hspans.shorter (by omega) (Nat.sub_le _ _)
  · exact torn_lt (k := 4) hi h.lt

theorem Backed.foundCut_post {fmt : Format} {s s' : Logger} {net : Network} {chip : Mem} {i : Nat}
    (h : s.Backed) (sd : SDConfig) (hpost : s.start.postTask fmt net = some s')
    (hchip : NVRAM.ofChip chip = s.nv) (hi : i ≤ 4) (hsafe : SafeCutPost s s' i) :
    (foundCut s' s'.stores chip 0 i sd).Backed := by
  have hp := postTask_posted hpost
  obtain ⟨n, hn, hr, hcut⟩ := h.cut_post hp i
  have hlt := h.lt
  have hfits : ∀ x ∈ s'.stores, x.Fits := by
    intro x hx
    obtain ⟨rBuff, posts, rfl | ⟨num, hnum, rfl⟩⟩ := hp
    · cases hx
    · obtain rfl := List.mem_singleton.mp hx
      exact Nat.mod_lt _ (by decide)
  refine foundCut_backed sd hfits hi (by rw [hchip]; exact hcut) ?_ hlt
  rw [SafeCutPost, hr, Nat.add_sub_cancel_left] at hsafe
  rw [torn_add (by omega), if_pos hsafe, hp.commits]
  exact h.spans.advance hn

theorem resetIndex_fits (s : Logger) : ∀ x ∈ s.start.resetIndex.stores, x.Fits := by
  intro x hx
  have hzero : (0 : Nat) < 4294967296 := by decide
  rcases List.mem_cons.mp hx with rfl | hx
  · exact hzero
  · obtain rfl := List.mem_singleton.mp hx
    exact hzero

theorem Backed.foundCut_resetW {s : Logger} {chip : Mem} {i : Nat} (h : s.Backed) (sd : SDConfig)
    (hchip : NVRAM.ofChip chip = s.nv) (hi : i ≤ 4)
    (hsafe : s.rIndex ≤ s.wIndex / 256 ^ i * 256 ^ i) :
    (foundCut s s.start.resetIndex.stores chip 0 i sd).Backed := by
  refine foundCut_backed (w := torn s.wIndex 0 i) (r := s.rIndex) sd s.resetIndex_fits hi ?_ ?_ ?_
  · rw [hchip, h.nv]
    rfl
  · rw [torn_to_zero]
    exact h.spans.shorter hsafe (Nat.div_mul_le_self _ _)
  · exact torn_lt (k := 4) hi h.lt

theorem Backed.foundCut_resetR {s : Logger} {chip : Mem} {i : Nat} (h : s.Backed) (sd : SDConfig)
    (hchip : NVRAM.ofChip chip = s.nv) (hi : i ≤ 4) (hsafe : s.rIndex < 256 ^ i) :
    (foundCut s.start.resetIndex s.start.resetIndex.stores chip 1 i sd).Backed := by
  refine foundCut_backed (w := 0) (r := torn s.rIndex 0 i) sd s.resetIndex_fits hi ?_ ?_ (by decide)
  · rw [hchip, h.nv]
    rfl
  · rw [torn_to_zero, Nat.div_eq_of_lt hsafe, Nat.zero_mul]
    exact Spans.refl _ 0

/-- **After every boot the indices stand for committed records**, in every run whose resets
fall outside tasks, between stores where `Safe` allows, or inside a store where no carry puts
the indices out of order. -/
theorem crash_consistent_bytes {fmt : Format} {s₀ s₁ s : Logger} (hfresh : s₀.nv.mark ≠ 0x55)
    (hword : s₀.nv.w < 4294967296) (hboot : Boot (SafeBoot s₀.nv) s₀ s₁)
    (hrun : ByteReach fmt s₁ s) : Spans s.commits s.rIndex s.wIndex := by
  have hback : s.Backed := by
    induction hrun with
    | refl => exact backed_of_boot hfresh hword hboot
    | step _ hnext hsafe ih => exact ih.next hnext hsafe
    | cutLog sd _ hlog hskip hw hchip hpos hi hsafe ih =>
      exact ih.foundCut_log sd hlog hskip hw hchip hpos hi hsafe
    | cutPost sd _ hpost hchip hi hsafe ih => exact ih.foundCut_post sd hpost hchip hi hsafe
    | cutResetW sd _ hchip hi hsafe ih => exact ih.foundCut_resetW sd hchip hi hsafe
    | cutResetR sd _ hchip hi hsafe ih => exact ih.foundCut_resetR sd hchip hi hsafe
  exact hback.spans

/-- A record is logged on a new device, and power fails in the middle of the new `wIndex`. -/
theorem crash_consistent_bytes_first :
    ∃ s', ((newDevice 0 0).setup (.plain 2 0 1)).start.logTask (sensorPass .healthy) = some s' ∧
      let s := foundCut s' s'.stores markedChip 0 2 (.plain 2 0 1)
      Spans s.commits s.rIndex s.wIndex := by
  obtain ⟨s', hlog, hw⟩ := newDevice_pass
  have hchip : NVRAM.ofChip markedChip = ((newDevice 0 0).setup (.plain 2 0 1)).nv := by
    decide +kernel
  refine ⟨s', hlog, @crash_consistent_bytes .zero (newDevice 0 0) _ _ (by decide) (by decide)
    (.whole (.plain 2 0 1)) (.cutLog (.plain 2 0 1) .refl hlog
      (not_skips _ (by decide)) (by decide) hchip (by decide) (by decide) (Or.inl ?_))⟩
  rw [hw]
  decide

end Logger

end EnresLogger
