import EnresLogger.Overrun

/-!
# The tables

`cfgM` and `md` have 21 entries, `wBuff` and `rBuff` 21 records.  Nothing checks
what a configuration says against that.  `Fits` is what it must say: no more than
21 meters, and a batch of no more than 21 if the type posts at all.

The argument is that of a type system.  `Fits.progress`: with a configuration
that fits every step is made inside the tables.  `next_sd`: a step keeps the
configuration, and so `Fits`.  `contained_iff` is about whole runs, and says that
nothing less will do.
-/

namespace EnresLogger

open Lib

/-! ### Reading into a buffer -/

theorem SPIFlash.readByteArray_length (f : SPIFlash) (busy : Bool) (address : Nat)
    {n : Nat} {out : List UInt8} (hsize : n < 65536) (hout : out.length = n) :
    (f.readByteArray busy address n out).2.length = n := by
  rw [readByteArray, Nat.mod_eq_of_lt hsize]
  cases busy with
  | true => exact hout
  | false =>
    show (Mem.read _ _ n ++ out.drop n).length = n
    rw [List.length_append, Mem.read_length, List.length_drop]
    omega

theorem SPIFlashMeter.splitAt_le {m : SPIFlashMeter} {index size k : Nat}
    (h : m.splitAt index size = some k) : k ≤ size := by
  rw [splitAt] at h
  split at h
  · rename_i hsplit
    cases h
    have hrecords : m.maxRecord - index % m.maxRecord ≤ size / m.recordSize := by
      have := Nat.mod_le (index % m.maxRecord + size / m.recordSize) 4294967296
      omega
    calc (m.maxRecord - index % m.maxRecord) * m.recordSize % 4294967296
        ≤ (m.maxRecord - index % m.maxRecord) * m.recordSize := Nat.mod_le _ _
      _ ≤ size / m.recordSize * m.recordSize := Nat.mul_le_mul_right _ hrecords
      _ ≤ size := Nat.div_mul_le_self _ _
  · cases h

theorem SPIFlashMeter.readRecords_length (m : SPIFlashMeter) (busy : Bool × Bool) (index : Nat)
    {out : List UInt8} (hout : out.length < 65536) :
    (m.readRecords busy index out).2.length = out.length := by
  rw [readRecords]
  cases hsplit : m.splitAt index out.length with
  | none => exact m.flash.readByteArray_length busy.1 _ hout rfl
  | some k =>
    have hk := splitAt_le hsplit
    have hfirst := m.flash.readByteArray_length busy.1 (m.recordAddress index) (n := k)
      (by omega) (show (out.take k).length = k by rw [List.length_take]; omega)
    have hsecond := m.flash.readByteArray_length busy.2 reserveSize (n := out.length - k)
      (by omega) List.length_drop
    simp only [List.length_append, hfirst, hsecond]
    omega

/-- The indices of the records a request carries. -/
def Post.subjects (x : Post) : List Nat := List.range' x.index x.num

namespace Logger

/-! ### Posts -/

theorem readRecords_isSome (s : Logger) (kind : Kind) (busy : Bool × Bool) {num : Nat}
    (h : num ≤ MAXMETER) :
    ∃ ok rBuff, s.readRecords kind busy num = some (ok, { s with rBuff }) := by
  simp only [MAXMETER] at h
  obtain ⟨out, hout⟩ := s.rBuff.get_isSome (i := 0) (k := RECSIZE * num) (by
    simp only [RECSIZE]
    omega)
  have hlen : out.length = 64 * num := Buf.get_length hout
  have hroom : 0 + (s.flash.readData kind busy s.rIndex out).2.length ≤ 1344 := by
    rw [SPIFlashMeter.readData_eq, SPIFlashMeter.readRecords_length _ _ _ (by omega)]
    omega
  obtain ⟨rBuff, hput⟩ := s.rBuff.put_isSome hroom
  refine ⟨(s.flash.readData kind busy s.rIndex out).1, rBuff, ?_⟩
  simp only [readRecords, hout, hput, Option.bind_eq_bind, Option.bind_some, Option.pure_def]

theorem readRecords_idle (s : Logger) (kind : Kind) {num : Nat} (h : num ≤ MAXMETER) :
    ∃ rBuff, s.readRecords kind (false, false) num = some (true, { s with rBuff }) := by
  obtain ⟨ok, rBuff, hread⟩ := s.readRecords_isSome kind (false, false) h
  obtain ⟨out, _, hread'⟩ := Option.bind_eq_some_iff.mp hread
  obtain ⟨_, _, hread'⟩ := Option.bind_eq_some_iff.mp hread'
  have hok := (Prod.mk.inj (Option.some.inj hread')).1
  rw [SPIFlashMeter.readData_eq, SPIFlashMeter.readRecords_idle] at hok
  rw [← hok] at hread
  exact ⟨rBuff, hread⟩

theorem readRecords_none (s : Logger) (kind : Kind) (busy : Bool × Bool) {num : Nat}
    (h : MAXMETER < num) : s.readRecords kind busy num = none := by
  simp only [MAXMETER] at h
  rw [readRecords, Buf.get_none _ (by simp only [RECSIZE]; omega)]
  rfl

theorem flashToBatchPost_isSome (s : Logger) (fmt : Format) (kind : Kind) {l : Layout}
    (hl : l.fields.length + 2 ≤ 16) (path : String) (net : Network) {num : Nat}
    (h : num ≤ MAXMETER) : ∃ s', s.flashToBatchPost fmt kind l path net num = some s' := by
  obtain ⟨ok, rBuff, hread⟩ := s.readRecords_isSome kind net.busy h
  obtain ⟨playload, hbody⟩ := batchBody_isSome fmt hl rBuff h
  simp only [flashToBatchPost, hread, Option.bind_eq_bind, Option.bind_some]
  cases ok with
  | true => exact ⟨_, by rw [if_pos rfl, hbody]; rfl⟩
  | false => exact ⟨_, rfl⟩

theorem flashSensorToBatchPost_isSome (s : Logger) (fmt : Format) (net : Network) {num : Nat}
    (h : num ≤ MAXMETER) : ∃ s', s.flashSensorToBatchPost fmt net num = some s' := by
  obtain ⟨ok, rBuff, hread⟩ := s.readRecords_isSome .sensor net.busy h
  obtain ⟨body, hbody⟩ := sensorBody_isSome fmt rBuff h
  simp only [flashSensorToBatchPost, hread, Option.bind_eq_bind, Option.bind_some]
  cases ok with
  | true => exact ⟨_, by rw [if_pos rfl, hbody]; rfl⟩
  | false => exact ⟨_, rfl⟩

/-- The payload of record `i`. -/
def singlePayload (fmt : Format) (rBuff : RecordBuff) (i : Nat) : Option String := do
  let mdt ← rBuff.word (64 * i + 4)
  let st ← decodeFields fmt rBuff singleFields
    ("[\x7b" ++ "\"mdt\":\"" ++ fmt.time mdt ++ "\",", 64 * i + 8)
  return st.1

theorem singlePosts_succ (fmt : Format) (net : Network) (num k : Nat) {i : Nat} {s : Logger}
    (hi : i < MAXMETER) :
    ∃ x : Post, x.subjects = [s.rIndex + i] ∧ x.kind = .meter ∧ x.httpCode = net.httpCode i ∧
      some x.playload = singlePayload fmt s.rBuff i ∧
      s.singlePosts fmt net num (k + 1) i (64 * i) =
        if net.httpCode i ≠ 200 then some { s with posts := s.posts ++ [x] }
        else { s with posts := s.posts ++ [x] }.singlePosts fmt net num k (i + 1)
          (64 * (i + 1)) := by
  have h21 : i < 21 := hi
  obtain ⟨xid, hxid⟩ := s.rBuff.word_isSome (i := 64 * i) (by omega)
  obtain ⟨mdt, hmdt⟩ := s.rBuff.word_isSome (i := 64 * i + 4) (by omega)
  obtain ⟨playload, hp⟩ := decodeFields_isSome fmt s.rBuff singleFields
    ("[\x7b" ++ "\"mdt\":\"" ++ fmt.time mdt ++ "\",", 64 * i + 8)
    (show 64 * i + 8 + 4 * 10 ≤ 1344 by omega)
  have hcursor : 64 * i + 8 + 4 * singleFields.length +
      padding (64 * i + 8 + 4 * singleFields.length) = 64 * (i + 1) := by
    rw [show singleFields.length = 10 from rfl, padding, RECSIZE]
    omega
  refine ⟨⟨.meter, s.rIndex + i, 1, "http://" ++ s.sd.cfgG.url ++ (s.sd.cfgG.path ++
    toString xid.toNat ++ "?access_token=" ++ s.sd.cfgG.token), playload, net.httpCode i⟩,
    rfl, rfl, rfl, ?_, ?_⟩
  · simp only [singlePayload, hmdt, hp, Option.bind_eq_bind, Option.bind_some, Option.pure_def]
  · rw [singlePosts]
    simp only [hxid, hmdt, hp, Option.bind_eq_bind, Option.bind_some, hcursor]
    split <;> rfl

theorem singlePosts_isSome (fmt : Format) (net : Network) (num : Nat) :
    ∀ (k i : Nat) (s : Logger), i + k ≤ MAXMETER →
      ∃ s', s.singlePosts fmt net num k i (64 * i) = some s' := by
  intro k
  induction k with
  | zero => exact fun i s _ => ⟨_, rfl⟩
  | succ k ih =>
    intro i s h
    obtain ⟨x, _, _, _, _, hturn⟩ := singlePosts_succ fmt net num k (s := s)
      (show i < MAXMETER by omega)
    rw [hturn]
    split
    · exact ⟨_, rfl⟩
    · exact ih (i + 1) _ (by omega)

theorem flashMeterToPost_isSome (s : Logger) (fmt : Format) (net : Network) {num : Nat}
    (h : num ≤ MAXMETER) : ∃ s', s.flashMeterToPost fmt net num = some s' := by
  obtain ⟨ok, rBuff, hread⟩ := s.readRecords_isSome .meter net.busy h
  simp only [flashMeterToPost, hread, Option.bind_eq_bind, Option.bind_some]
  cases ok with
  | true => exact singlePosts_isSome fmt net num num 0 { s with rBuff } (by omega)
  | false => exact ⟨_, rfl⟩

theorem readFlashToPost_isSome {single batch : Nat → Logger → Option Logger} {net : Network}
    {s : Logger} (hbatch : s.sd.cfgG.batch.toNat ≤ MAXMETER)
    (h1 : ∀ num ≤ MAXMETER, ∃ s', single num s = some s')
    (h2 : ∀ num ≤ MAXMETER, ∃ s', batch num s = some s') :
    ∃ s', readFlashToPost single batch net s = some s' := by
  have hmax : MAXPOST ≤ MAXMETER := by decide
  rw [readFlashToPost]
  split
  · split
    · dsimp only
      split
      · refine h1 _ ?_
        split <;> omega
      · refine h2 _ ?_
        split <;> omega
    · exact ⟨s, rfl⟩
  · exact ⟨s, rfl⟩

/-! ### Progress -/

/-- What a configuration must say for the tables to be large enough. -/
structure Fits (g : ConfigGlobal) : Prop where
  meters : g.numMeter.toNat ≤ MAXMETER
  batch : (kindOf g.type).isSome = true → g.batch.toNat ≤ MAXMETER

theorem Fits.postTask {s : Logger} (h : Fits s.sd.cfgG) (fmt : Format) (net : Network) :
    ∃ s', s.postTask fmt net = some s' := by
  rw [Logger.postTask]
  split
  · rename_i htype
    refine readFlashToPost_isSome (h.batch (by rw [htype]; rfl)) (fun num hnum => ?_)
      (fun num hnum => ?_)
    · exact s.flashMeterToPost_isSome fmt net hnum
    · exact s.flashToBatchPost_isSome fmt _ (by decide) _ net hnum
  · rename_i htype
    refine readFlashToPost_isSome (h.batch (by rw [htype]; rfl)) (fun num hnum => ?_)
      (fun num hnum => ?_)
    · exact ⟨s, rfl⟩
    · exact s.flashSensorToBatchPost_isSome fmt net hnum
  · rename_i htype
    refine readFlashToPost_isSome (h.batch (by rw [htype]; rfl)) (fun num hnum => ?_)
      (fun num hnum => ?_)
    · exact ⟨s, rfl⟩
    · exact s.flashToBatchPost_isSome fmt _ (by decide) _ net hnum
  · exact ⟨s, rfl⟩

/-- The reading loop touches the entries of the configured meters, and succeeds
when all of them answer. -/
theorem readMeters_spec {s : Logger} (h : s.sd.cfgG.numMeter.toNat ≤ MAXMETER) (p : Pass) :
    ∃ ok md, s.readMeters p = some (ok, md) ∧ ((∀ i, (p.bus i).Answers) → ok = true) := by
  obtain ⟨⟨ok, md⟩, hr, hok⟩ := forLoop_spec (n := s.sd.cfgG.numMeter.toNat) (s := (true, s.md))
    (f := fun i (st : Bool × Meters) =>
      if st.1 then do
        let m ← s.sd.cfgM[i]?
        let r ← readMeterData p.fpu (p.bus i) st.2 (UInt8.ofNat i) m.id m.index m.type p.now
          m.adjust m.table
        return (r.1 == 0, r.2)
      else some st) (fun _ st => (∀ i, (p.bus i).Answers) → st.1 = true) (fun _ => rfl) (by
    intro i st hi hst
    have hi' : i < MAXMETER := by omega
    have hindex : (UInt8.ofNat i).toNat < MAXMETER := by
      rw [UInt8.toNat_ofNat', Nat.mod_eq_of_lt (Nat.lt_trans hi' (by decide))]
      exact hi'
    split
    · rw [Vector.getElem?_eq_getElem hi']
      have hmeter : (readMeterData p.fpu (p.bus i) st.2 (UInt8.ofNat i) s.sd.cfgM[i].id
          s.sd.cfgM[i].index s.sd.cfgM[i].type p.now s.sd.cfgM[i].adjust
          s.sd.cfgM[i].table).isSome = true := readMeterData_isSome hindex
      obtain ⟨r, hr⟩ := Option.isSome_iff_exists.mp hmeter
      simp only [Option.bind_eq_bind, Option.bind_some, hr, Option.pure_def]
      refine ⟨_, rfl, fun hbus => ?_⟩
      have hanswer : ∃ md', readMeterData p.fpu (p.bus i) st.2 (UInt8.ofNat i) s.sd.cfgM[i].id
          s.sd.cfgM[i].index s.sd.cfgM[i].type p.now s.sd.cfgM[i].adjust
          s.sd.cfgM[i].table = some (0, md') := readMeterData_answered (hbus i) hindex
      obtain ⟨md', hanswer⟩ := hanswer
      rw [hr] at hanswer
      cases hanswer
      rfl
    · exact ⟨st, rfl, hst⟩)
  exact ⟨ok, md, hr, hok⟩

theorem meterBatch_isSome {s : Logger} (h : s.sd.cfgG.numMeter.toNat ≤ MAXMETER) :
    ∃ s₁ b, s.meterBatch = some (s₁, b) := by
  obtain ⟨c, hc, hold⟩ := fillMeters_holds h s.sd.cfgM s.md s.wBuff
  have hget := get_of_holds hold (k := RECSIZE * s.sd.cfgG.numMeter.toNat)
    (by rw [meterRecords_length h]; rfl)
  simp only [meterBatch, hc, hget, Option.bind_eq_bind, Option.bind_some, Option.pure_def]
  exact ⟨_, _, rfl⟩

theorem flowBatch_isSome (s : Logger) : ∃ s₁ b, s.flowBatch = some (s₁, b) := by
  obtain ⟨c, hc, hold⟩ := fillFlow_holds s.sd.cfgF s.fd s.wBuff
  simp only [flowBatch, hc, get_of_holds hold (k := RECSIZE) rfl, Option.bind_eq_bind,
    Option.bind_some, Option.pure_def]
  exact ⟨_, _, rfl⟩

theorem Fits.logBatch {s : Logger} (h : Fits s.sd.cfgG) (p : Pass) : ∃ r, s.batch p = some r := by
  rw [Logger.batch]
  split
  · obtain ⟨ok, md, hread, _⟩ := readMeters_spec h.meters p
    obtain ⟨s₁, b, hb⟩ := meterBatch_isSome (s := { s with md }) h.meters
    rw [hread, Option.bind_eq_bind, Option.bind_some]
    cases ok with
    | true => exact ⟨_, by simp only [if_pos, hb]; rfl⟩
    | false => exact ⟨_, rfl⟩
  · obtain ⟨s₁, b, hb⟩ := sensorBatch_isSome p.fpu p.now s
    exact ⟨_, by rw [hb]; rfl⟩
  · dsimp only
    split
    · obtain ⟨s₁, b, hb⟩ := flowBatch_isSome { s with
        fd := (readFlowData p.fpu (p.bus 0) s.fd s.sd.cfgF.id p.now s.sd.cfgF.adjust).2 }
      exact ⟨_, by rw [hb]; rfl⟩
    · exact ⟨_, rfl⟩
  · exact ⟨_, rfl⟩

/-- **Progress**: with a configuration that fits, every step stays in the tables. -/
theorem Fits.progress {s : Logger} (h : Fits s.sd.cfgG) (fmt : Format) (l : Label) :
    ∃ s', Logger.next fmt l s = some s' := by
  have hstart : Fits s.start.sd.cfgG := h
  cases l with
  | log p =>
    obtain ⟨r, hr⟩ := hstart.logBatch p
    exact ⟨_, by rw [Logger.next, logTask_eq, hr]; rfl⟩
  | post net => exact hstart.postTask fmt net
  | server wifi httpCode restart sd => exact ⟨_, rfl⟩
  | restart sd => exact ⟨_, rfl⟩
  | cutLog p cut sd =>
    obtain ⟨⟨s₁, b?⟩, hr⟩ := hstart.logBatch p
    rw [Logger.next, hr, Option.bind_eq_bind, Option.bind_some]
    cases b? with
    | none => exact ⟨_, rfl⟩
    | some b => exact ⟨_, rfl⟩
  | cutPost net k sd =>
    obtain ⟨s', hs'⟩ := hstart.postTask fmt net
    exact ⟨_, by rw [Logger.next, hs']; rfl⟩
  | cutReset k sd => exact ⟨_, rfl⟩

/-! ### Runs -/

/-- Where the step resets the device, `setup` finds the configuration `sd`. -/
def Keeps (sd : SDConfig) : Label → Prop
  | .log _ => True
  | .post _ => True
  | .server _ _ _ sd' => sd' = sd
  | .restart sd' => sd' = sd
  | .cutLog _ _ sd' => sd' = sd
  | .cutPost _ _ sd' => sd' = sd
  | .cutReset _ sd' => sd' = sd

theorem setup_sd (s : Logger) (sd : SDConfig) : (s.setup sd).sd = sd := by
  by_cases h : s.nv.mark = 0x55
  · obtain ⟨_, _, _, _, _, heq⟩ := setup_of_mark sd h
    rw [heq]
  · obtain ⟨_, _, _, _, _, heq⟩ := setup_of_no_mark sd h
    rw [heq]

/-- **Preservation**: no task changes the configuration. -/
theorem next_sd {fmt : Format} {sd : SDConfig} {s s' : Logger} {l : Label} (hs : s.sd = sd)
    (hnext : Logger.next fmt l s = some s') (hl : Keeps sd l) : s'.sd = sd := by
  cases l with
  | log p =>
    obtain ⟨s₁, hprep, hcase⟩ := logTask_cases hnext
    obtain ⟨md, fd, wBuff, rfl⟩ := hprep
    rcases hcase with rfl | ⟨b, _, rfl⟩
    · exact hs
    · exact (writeBatch_sd _ _ _).trans hs
  | post net => exact (postTask_posted hnext).sd.trans hs
  | server wifi httpCode restart sd' =>
    obtain rfl : sd' = sd := hl
    rcases server_cases hnext with rfl | rfl | rfl
    · exact hs
    · exact setup_sd _ _
    · exact setup_sd _ _
  | restart sd' =>
    obtain rfl : sd' = sd := hl
    cases hnext
    exact setup_sd _ _
  | cutLog p cut sd' =>
    obtain rfl : sd' = sd := hl
    obtain ⟨s₁, _, rfl | ⟨b, _, _, rfl⟩⟩ := cutLog_cases hnext
    · exact setup_sd _ _
    · exact setup_sd _ _
  | cutPost net k sd' =>
    obtain rfl : sd' = sd := hl
    obtain ⟨s₁, _, hnext⟩ := Option.bind_eq_some_iff.mp hnext
    cases hnext
    exact setup_sd _ _
  | cutReset k sd' =>
    obtain rfl : sd' = sd := hl
    cases hnext
    exact setup_sd _ _

/-- A device that is new, or has run, under whatever configurations. -/
inductive Used (fmt : Format) : Logger → Prop
  | new (flash : SPIFlash) (sd : SDConfig) (nv : NVRAM) : Used fmt (factory flash sd nv)
  | ran {flash : SPIFlash} {sd : SDConfig} {nv : NVRAM} {s₁ s : Logger} :
      Boot (fun _ => True) (factory flash sd nv) s₁ →
      Reach fmt (fun _ _ _ => True) s₁ s → Used fmt s

/-- With this text the tables are never left: not when it is parsed, and not in
any step of a run after a boot of any device with it. -/
def Contained (parseObject : String → JsonObject) (config : String) : Prop :=
  ∀ fmt cfg₀, ∃ ok sd, SDConfig.phaseConfig parseObject cfg₀ config = some (ok, sd) ∧
    ∀ s₀, Used fmt s₀ → ∀ s, Reach fmt (fun _ l _ => Keeps sd l) (s₀.setup sd) s →
      ∀ l, ∃ s', Logger.next fmt l s = some s'

theorem Fits.contained {parseObject : String → JsonObject} {config : String}
    (h : Fits (SDConfig.phaseGlobal (parseObject config))) : Contained parseObject config := by
  intro fmt cfg₀
  obtain ⟨⟨ok, sd⟩, hparse⟩ := Option.isSome_iff_exists.mp
    ((SDConfig.phaseConfig_isSome parseObject cfg₀ config).mpr h.meters)
  rw [← SDConfig.phaseConfig_cfgG hparse] at h
  refine ⟨ok, sd, hparse, fun s₀ _ s hrun l => ?_⟩
  have hsd : s.sd = sd := hrun.invariant (fun s => s.sd = sd) (setup_sd s₀ sd)
    (fun _ _ _ hs hnext hl => next_sd hs hnext hl)
  rw [← hsd] at h
  exact h.progress fmt l

/-! ### A batch too large -/

/-- WiFi is up, the chip answers, and so does the server. -/
def online : Network := ⟨true, (false, false), fun _ => 200⟩

theorem readFlashToPost_none {single batch : Nat → Logger → Option Logger} {s : Logger}
    (hbatch : MAXMETER < s.sd.cfgG.batch.toNat) (hback : s.rIndex + MAXMETER < s.wIndex)
    (h : ∀ num, MAXMETER < num → batch num s = none) :
    readFlashToPost single batch online s = none := by
  have hne : s.sd.cfgG.batch ≠ 0 := by
    intro h0
    rw [h0] at hbatch
    exact absurd hbatch (by decide)
  rw [readFlashToPost, if_pos (show online.wifi = true from rfl), if_pos (by omega)]
  simp only [if_neg hne]
  refine h _ ?_
  split <;> omega

/-- A backlog larger than the buffer, and a batch that does not cut it down. -/
theorem postTask_none {s : Logger} (fmt : Format) (hkind : (kindOf s.sd.cfgG.type).isSome = true)
    (hbatch : MAXMETER < s.sd.cfgG.batch.toNat) (hback : s.rIndex + MAXMETER < s.wIndex) :
    s.postTask fmt online = none := by
  have hbody : ∀ (kind : Kind) (l : Layout) (path : String) (num : Nat), MAXMETER < num →
      s.flashToBatchPost fmt kind l path online num = none := by
    intro kind l path num hnum
    rw [flashToBatchPost, readRecords_none s _ _ hnum]
    rfl
  rw [Logger.postTask]
  split
  · exact readFlashToPost_none hbatch hback (fun num hnum => hbody _ _ _ num hnum)
  · refine readFlashToPost_none hbatch hback (fun num hnum => ?_)
    rw [flashSensorToBatchPost, readRecords_none s _ _ hnum]
    rfl
  · exact readFlashToPost_none hbatch hback (fun num hnum => hbody _ _ _ num hnum)
  · rename_i h1 h2 h3
    rw [kindOf] at hkind
    · cases hkind
    · exact h1
    · exact h2
    · exact h3

theorem Reach.mono {fmt : Format} {ok ok' : Logger → Label → Logger → Prop}
    (himp : ∀ s l s', ok s l s' → ok' s l s') {s₀ s : Logger} (h : Reach fmt ok s₀ s) :
    Reach fmt ok' s₀ s := by
  induction h with
  | refl => exact .refl
  | step _ hnext hok ih => exact ih.step hnext (himp _ _ _ hok)

theorem exists_used {k : Nat} (hk : k ≤ 896) :
    ∃ s, Used .zero s ∧ s.nv = ⟨0x55, k, 0⟩ := by
  obtain ⟨s, hs⟩ := exists_filled k hk
  refine ⟨s, .ran (.whole (.plain 2 0 1)) (hs.run.mono (fun _ _ _ _ => trivial)), ?_⟩
  rw [hs.appendable.nv, hs.wIndex, hs.rIndex]

/-- **The tables are never left if and only if the text fits them.** -/
theorem contained_iff (parseObject : String → JsonObject) (config : String) :
    Contained parseObject config ↔ Fits (SDConfig.phaseGlobal (parseObject config)) := by
  refine ⟨fun h => ?_, Fits.contained⟩
  obtain ⟨ok, sd, hparse, hrun⟩ := h .zero (.plain 0 0 0)
  refine ⟨(SDConfig.phaseConfig_isSome parseObject (.plain 0 0 0) config).mp (by rw [hparse]; rfl),
    fun hkind => ?_⟩
  rw [← SDConfig.phaseConfig_cfgG hparse] at hkind ⊢
  by_contra hbatch
  -- the device comes to the new configuration with a backlog of 22
  obtain ⟨s₀, hused, hnv⟩ := exists_used (k := 22) (by decide)
  obtain ⟨s', hnext⟩ := hrun s₀ hused _ .refl (.post online)
  have hindex : (s₀.setup sd).start.rIndex + MAXMETER < (s₀.setup sd).start.wIndex := by
    obtain ⟨_, _, _, _, _, heq⟩ := setup_of_mark sd (by rw [hnv])
    rw [heq, hnv]
    exact show 0 + 21 < 22 by decide
  have hsd : (s₀.setup sd).start.sd = sd := setup_sd s₀ sd
  have hnone : Logger.next .zero (.post online) (s₀.setup sd) = none :=
    postTask_none .zero (by rw [hsd]; exact hkind) (by rw [hsd]; omega) hindex
  rw [hnone] at hnext
  cases hnext

theorem Appendable.next_meterPass {s : Logger} (h : s.Appendable) (fmt : Format) {p : Pass}
    (hp : p.outcome = .healthy) (hbus : ∀ i, (p.bus i).Answers) (htype : s.sd.cfgG.type = 1)
    (hmeters : s.sd.cfgG.numMeter.toNat ≤ MAXMETER)
    (hw : s.wIndex + s.sd.cfgG.numMeter.toNat < 4294967296) :
    ∃ s', Logger.next fmt (.log p) s = some s' ∧ s'.Appendable ∧
      s'.wIndex = s.wIndex + s.sd.cfgG.numMeter.toNat ∧ s'.rIndex = s.rIndex ∧ s'.sd = s.sd := by
  obtain ⟨ok, md, hread, hok⟩ := readMeters_spec (s := s.start) hmeters p
  obtain rfl := hok hbus
  obtain ⟨s₁, b, hb⟩ := meterBatch_isSome (s := { s.start with md }) hmeters
  have hbatch : s.start.batch p = some (s₁, some b) := by
    rw [batch]
    simp only [show s.start.sd.cfgG.type = 1 from htype, hread, Option.bind_eq_bind,
      Option.bind_some, if_true, hb, Option.pure_def]
  have hsize : s.passSize = s.sd.cfgG.numMeter.toNat := by
    rw [Logger.passSize, htype]
    rfl
  obtain ⟨s', hnext, happ, hw', hr', hsd, _⟩ := h.next_pass fmt hp hbatch (by omega)
  exact ⟨s', hnext, happ, by rw [hw', hsize], hr', hsd⟩

/-- Three meters and a batch of 30, as in the file the sources come with. -/
def threeMeters : JsonObject where
  u8 path :=
    if path = [.name "global", .name "type"] then 1
    else if path = [.name "global", .name "meters"] then 3
    else if path = [.name "global", .name "batch"] then 30
    else 0
  u16 _ := 0
  u32 _ := 0
  float _ := 0
  str _ := ""

theorem threeMeters_global :
    (SDConfig.phaseGlobal threeMeters).type = 1 ∧
      (SDConfig.phaseGlobal threeMeters).numMeter = 3 ∧
      (SDConfig.phaseGlobal threeMeters).batch = 30 := by
  simp [SDConfig.phaseGlobal, threeMeters]

/-- A new device with this configuration, after `k` passes. -/
theorem exists_threeMeters {sd : SDConfig} (hsd : sd.cfgG = SDConfig.phaseGlobal threeMeters) :
    ∀ k ≤ 8, ∃ s, Reach .zero (fun _ l _ => Keeps sd l) ((newDevice 0 0).setup sd) s ∧
      s.Appendable ∧ s.wIndex = 3 * k ∧ s.rIndex = 0 ∧ s.sd = sd := by
  obtain ⟨htype, hnum, _⟩ := threeMeters_global
  rw [← hsd] at htype hnum
  intro k
  induction k with
  | zero =>
    intro _
    have happ : ((newDevice 0 0).setup sd).Appendable :=
      appendable_of_fresh (by decide) (newDevice_mounted 0 0) (by decide) sd
    obtain ⟨_, _, _, _, _, heq⟩ := setup_of_no_mark (s := newDevice 0 0) sd (by decide)
    exact ⟨_, .refl, happ, by rw [heq], by rw [heq], setup_sd _ _⟩
  | succ k ih =>
    intro hk
    obtain ⟨s, hrun, happ, hw, hr, rfl⟩ := ih (by omega)
    have hthree : s.sd.cfgG.numMeter.toNat = 3 := by
      rw [hnum]
      rfl
    obtain ⟨s', hnext, happ', hw', hr', hsd'⟩ := happ.next_meterPass .zero
      (p := sensorPass .healthy) rfl (fun _ _ _ _ _ _ => rfl) htype (by rw [hthree]; decide)
      (by omega)
    refine ⟨s', hrun.step hnext trivial, happ', ?_, by rw [hr', hr], hsd'⟩
    rw [hw', hw, hthree, Nat.mul_succ]

/-- Eight passes without a post, and then one: it asks for 24 records. -/
theorem not_contained :
    ¬ Contained (fun _ => threeMeters) "" ∧
      ∃ ok sd s, SDConfig.phaseConfig (fun _ => threeMeters) (.plain 0 0 0) "" = some (ok, sd) ∧
        Reach .zero (fun _ l _ => Keeps sd l) ((newDevice 0 0).setup sd) s ∧
        s.wIndex = 24 ∧ s.rIndex = 0 ∧ Logger.next .zero (.post online) s = none := by
  obtain ⟨htype, hnum, hbatch⟩ := threeMeters_global
  obtain ⟨⟨ok, sd⟩, hparse⟩ := Option.isSome_iff_exists.mp
    ((SDConfig.phaseConfig_isSome (fun _ => threeMeters) (.plain 0 0 0) "").mpr
      (by rw [hnum]; decide))
  have hcfg := SDConfig.phaseConfig_cfgG hparse
  obtain ⟨s, hrun, _, hw, hr, hsd⟩ := exists_threeMeters hcfg 8 (Nat.le_refl 8)
  have hnone : Logger.next .zero (.post online) s = none := by
    refine postTask_none .zero ?_ ?_ ?_
    · rw [show s.start.sd = sd from hsd, hcfg, htype]
      rfl
    · rw [show s.start.sd = sd from hsd, hcfg, hbatch]
      decide
    · show s.rIndex + MAXMETER < s.wIndex
      rw [hw, hr]
      decide
  refine ⟨fun h => ?_, ok, sd, s, hparse, hrun, hw, hr, hnone⟩
  obtain ⟨ok', sd', hparse', hsteps⟩ := h .zero (.plain 0 0 0)
  cases hparse.symm.trans hparse'
  obtain ⟨s', hs'⟩ := hsteps _ (.new _ _ _) s hrun (.post online)
  rw [hnone] at hs'
  cases hs'

end Logger

end EnresLogger
