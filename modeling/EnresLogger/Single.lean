import EnresLogger.Delivery
import EnresLogger.Tables
import Mathlib.Data.List.Nodup

/-!
# Delivery one by one

In single-post mode a call sends up to `MAXPOST` records, each in a request of
its own, and moves `rIndex` behind the last one only: a request that fails
behind one that was answered with 200 makes the next call send that one again.

`singlePosts_answered` and `singlePosts_refused` say what the loop does when all
of its requests are answered with 200, and when already the first is not.  In a
run of such calls the records answered for lie below `rIndex`, and no record is
answered for twice: `acknowledged_once`.
-/

namespace EnresLogger

open Lib

namespace Logger

/-- The indices of the records answered for, in the order of the answers. -/
def acknowledged (s : Logger) : List Nat := s.answered.flatMap Post.subjects

/-! ### The loop over single requests -/

/-- Requests for the records `i`, .., `i + k - 1` of `rBuff`, all answered with
200. -/
structure SinglePosts (fmt : Format) (s : Logger) (i k : Nat) (new : List Post) : Prop where
  subjects : new.flatMap Post.subjects = List.range' (s.rIndex + i) k
  answers : ∀ x ∈ new, x.kind = .meter ∧ x.httpCode = 200
  payloads : new.map (fun x => some x.playload) =
    (List.range' i k).map (singlePayload fmt s.rBuff)

/-- **All requests are answered with 200**: they are for one record each, and
then `rIndex` moves. -/
theorem singlePosts_answered {fmt : Format} {net : Network} {num : Nat} (k i : Nat) {s : Logger}
    (hcode : ∀ j, i ≤ j → j < i + k → net.httpCode j = 200) (hroom : i + k ≤ MAXMETER) :
    ∃ new, SinglePosts fmt s i k new ∧ s.singlePosts fmt net num k i (64 * i) =
      some ({ s with posts := s.posts ++ new }.advance num) := by
  induction k generalizing i s with
  | zero =>
    refine ⟨[], ⟨rfl, fun x hx => absurd hx List.not_mem_nil, rfl⟩, ?_⟩
    rw [List.append_nil]
    rfl
  | succ k ih =>
    obtain ⟨x, hsub, hkind, hx, hpay, heq⟩ := singlePosts_succ fmt net num k (s := s)
      (show i < MAXMETER by omega)
    have hi : net.httpCode i = 200 := hcode i (Nat.le_refl i) (by omega)
    rw [if_neg (not_not_intro hi)] at heq
    obtain ⟨new, hnew, hrest⟩ := @ih (i + 1) { s with posts := s.posts ++ [x] }
      (fun j h1 h2 => hcode j (by omega) (by omega)) (by omega)
    refine ⟨x :: new, ⟨?_, fun y hy => ?_, ?_⟩, ?_⟩
    · rw [List.flatMap_cons, hsub, hnew.subjects, List.range'_succ]
      rfl
    · rcases List.mem_cons.mp hy with rfl | hy
      · exact ⟨hkind, hx.trans hi⟩
      · exact hnew.answers y hy
    · rw [List.map_cons, hpay, hnew.payloads, List.range'_succ]
      rfl
    · rw [heq, hrest]
      show some ({ s with posts := s.posts ++ [x] ++ new }.advance num) = _
      rw [List.append_assoc]
      rfl

/-- **The first request is refused**: that is all the call does. -/
theorem singlePosts_refused {fmt : Format} {net : Network} {num k : Nat} {s : Logger}
    (hcode : net.httpCode 0 ≠ 200) :
    ∃ x : Post, x.httpCode ≠ 200 ∧ s.singlePosts fmt net num (k + 1) 0 0 =
      some { s with posts := s.posts ++ [x] } := by
  obtain ⟨x, _, _, hx, _, heq⟩ := singlePosts_succ fmt net num k (s := s)
    (show 0 < MAXMETER by decide)
  rw [if_pos hcode] at heq
  exact ⟨x, by rw [hx]; exact hcode, heq⟩

/-! ### Runs -/

/-- Single-post mode. -/
structure SingleMode (sd : SDConfig) : Prop where
  type : sd.cfgG.type = 1
  batch : sd.cfgG.batch = 0

/-- The number of records of the next call. -/
def numPost (s : Logger) : Nat :=
  min (s.wIndex - s.rIndex)
    (if s.sd.cfgG.batch = 0 then MAXPOST else s.sd.cfgG.batch.toNat)

theorem numPost_le (s : Logger) : s.numPost ≤ s.wIndex - s.rIndex := Nat.min_le_left _ _

theorem numPost_pos {s : Logger} (h : s.rIndex < s.wIndex) : 0 < s.numPost := by
  rw [numPost]
  split
  · rw [MAXPOST]
    omega
  · rename_i hbatch
    have hne : s.sd.cfgG.batch.toNat ≠ 0 := fun h0 => hbatch (UInt8.toNat_inj.mp h0)
    omega

theorem readFlashToPost_eq (single batch : Nat → Logger → Option Logger) (net : Network)
    (s : Logger) :
    readFlashToPost single batch net s =
      if net.wifi ∧ s.rIndex < s.wIndex then
        (if s.sd.cfgG.batch = 0 then single else batch) s.numPost s
      else some s := by
  rw [readFlashToPost]
  by_cases hgo : net.wifi = true ∧ s.rIndex < s.wIndex
  · rw [if_pos hgo, if_pos hgo.1, if_pos hgo.2, numPost]
    by_cases hbatch : s.sd.cfgG.batch = 0
    · simp only [if_pos hbatch]
      congr 1
      split <;> omega
    · simp only [if_neg hbatch]
      congr 1
      split <;> omega
  · rw [if_neg hgo]
    split
    · rename_i hwifi
      exact if_neg fun hlt => hgo ⟨hwifi, hlt⟩
    · rfl

theorem postTask_single {s : Logger} (hmode : SingleMode s.sd) (fmt : Format) (net : Network) :
    s.postTask fmt net = if net.wifi ∧ s.rIndex < s.wIndex then
      s.flashMeterToPost fmt net s.numPost else some s := by
  rw [postTask, hmode.type]
  refine (readFlashToPost_eq _ _ net s).trans ?_
  rw [if_pos hmode.batch]

theorem numPost_single {s : Logger} (hmode : SingleMode s.sd) : s.numPost ≤ MAXPOST := by
  rw [numPost, if_pos hmode.batch]
  exact Nat.min_le_right _ _

/-- No request of the call is refused behind one that is answered with 200. -/
def NoneBehind (s : Logger) (net : Network) : Prop :=
  net.wifi = true → (∃ s₁, s.readRecords .meter net.busy s.numPost = some (true, s₁)) →
    net.httpCode 0 = 200 → ∀ i < s.numPost, net.httpCode i = 200

/-- A step without a reset: no request is refused behind one that is answered,
and the device does not move on to the sector behind the last index. -/
def Steady (s : Logger) (l : Label) (_ : Logger) : Prop :=
  match l with
  | .log _ => s.AtEscape → s.wIndex < 4294967232
  | .post net => s.start.NoneBehind net
  | .server wifi httpCode restart _ => (s.start.serverChkTask wifi httpCode restart).1 = false
  | _ => False

/-- No record is answered for twice, and those answered for are not sent again. -/
structure AckedOnce (sd : SDConfig) (s : Logger) : Prop where
  sd_eq : s.sd = sd
  lt : s.wIndex < 4294967296
  below : ∀ i ∈ s.acknowledged, i < s.rIndex
  once : s.acknowledged.Nodup

theorem acknowledged_append (s : Logger) (new : List Post) :
    { s with posts := s.posts ++ new }.acknowledged =
      s.acknowledged ++ (new.filter (·.httpCode == 200)).flatMap Post.subjects := by
  simp only [acknowledged, answered, List.filter_append, List.flatMap_append]

/-- The next `k` records have been answered for, and `rIndex` moves behind them. -/
theorem AckedOnce.answered {sd : SDConfig} {s : Logger} (h : AckedOnce sd s) {k : Nat}
    (hle : s.rIndex + k ≤ s.wIndex) {new : List Post}
    (hsubjects : new.flatMap Post.subjects = List.range' s.rIndex k)
    (hcode : ∀ x ∈ new, x.httpCode = 200) (rBuff : RecordBuff) :
    AckedOnce sd ({ s with rBuff, posts := s.posts ++ new }.advance k) := by
  have hlt := h.lt
  have hr : (s.rIndex + k) % 4294967296 = s.rIndex + k := Nat.mod_eq_of_lt (by omega)
  have hack : ({ s with rBuff, posts := s.posts ++ new }.advance k).acknowledged =
      s.acknowledged ++ List.range' s.rIndex k := by
    have hnew := acknowledged_append s new
    rw [List.filter_eq_self.mpr (fun x hx => beq_iff_eq.mpr (hcode x hx)), hsubjects] at hnew
    exact hnew
  refine ⟨h.sd_eq, h.lt, fun i hi => ?_, ?_⟩
  · show i < (s.rIndex + k) % 4294967296
    rw [hr]
    rw [hack] at hi
    rcases List.mem_append.mp hi with hi | hi
    · exact Nat.lt_of_lt_of_le (h.below i hi) (Nat.le_add_right _ _)
    · exact (List.mem_range'_1.mp hi).2
  · rw [hack, List.nodup_append']
    refine ⟨h.once, List.nodup_range', fun i hi hi' => ?_⟩
    have h1 := h.below i hi
    have h2 := (List.mem_range'_1.mp hi').1
    omega

theorem AckedOnce.refused {sd : SDConfig} {s : Logger} (h : AckedOnce sd s) {x : Post}
    (hcode : x.httpCode ≠ 200) (rBuff : RecordBuff) :
    AckedOnce sd { s with rBuff, posts := s.posts ++ [x] } := by
  have hack : ({ s with rBuff, posts := s.posts ++ [x] } : Logger).acknowledged =
      s.acknowledged := by
    rw [show ({ s with rBuff, posts := s.posts ++ [x] } : Logger).acknowledged = _ from
      acknowledged_append s [x], List.filter_cons_of_neg (by simpa using hcode), List.filter_nil,
      List.flatMap_nil, List.append_nil]
  exact ⟨h.sd_eq, h.lt, by rw [hack]; exact h.below, by rw [hack]; exact h.once⟩

/-- **A call** in single-post mode. -/
theorem AckedOnce.post {fmt : Format} {sd : SDConfig} {s s' : Logger} (h : AckedOnce sd s)
    (hmode : SingleMode sd) {net : Network} (hnext : s.postTask fmt net = some s')
    (hnone : s.NoneBehind net) : AckedOnce sd s' := by
  rw [← h.sd_eq] at hmode
  have hsix : s.numPost ≤ 6 := numPost_single hmode
  have hle := s.numPost_le
  rw [postTask_single hmode] at hnext
  split at hnext
  · rename_i hgo
    have hlt := hgo.2
    obtain ⟨⟨ok, s₁⟩, hread, hnext⟩ := Option.bind_eq_some_iff.mp hnext
    obtain ⟨rBuff, rfl⟩ := readRecords_spec hread
    cases ok with
    | false =>
      cases hnext
      exact ⟨h.sd_eq, h.lt, h.below, h.once⟩
    | true =>
      change singlePosts fmt net s.numPost s.numPost 0 (64 * 0) { s with rBuff } = some s' at hnext
      by_cases hcode : net.httpCode 0 = 200
      · -- all of them are answered
        have hall := hnone hgo.1 ⟨_, hread⟩ hcode
        obtain ⟨new, hnew, heq⟩ := @singlePosts_answered fmt net s.numPost s.numPost 0
          { s with rBuff } (fun j _ hj => hall j (by omega)) (show 0 + s.numPost ≤ 21 by omega)
        rw [heq] at hnext
        cases hnext
        exact h.answered (by omega) hnew.subjects (fun x hx => (hnew.answers x hx).2) rBuff
      · -- the first one is refused
        obtain ⟨k, hk⟩ := Nat.exists_eq_succ_of_ne_zero (Nat.ne_of_gt (numPost_pos hlt))
        obtain ⟨x, hx, heq⟩ := @singlePosts_refused fmt net (k + 1) k { s with rBuff } hcode
        rw [hk] at hnext
        cases heq.symm.trans hnext
        exact h.refused hx rBuff
  · cases hnext
    exact h

theorem AckedOnce.log {fmt : Format} {sd : SDConfig} {s s' : Logger} (h : AckedOnce sd s)
    {p : Pass} (hnext : next fmt (.log p) s = some s')
    (hesc : s.AtEscape → s.wIndex < 4294967232) : AckedOnce sd s' := by
  obtain ⟨s₁, hprep, hcase⟩ := log_cases hnext
  obtain ⟨md, fd, wBuff, rfl⟩ := hprep
  have hback : AckedOnce sd { s.start with md, fd, wBuff } := ⟨h.sd_eq, h.lt, h.below, h.once⟩
  rcases hcase with rfl | ⟨b, _, rfl⟩
  · exact hback
  · have hsd := (writeBatch_sd { s.start with md, fd, wBuff } p.outcome b).trans h.sd_eq
    rcases writeBatch_cases { s.start with md, fd, wBuff } p.outcome b with
      ⟨_, heq⟩ | ⟨_, _, heq⟩ | ⟨_, hat, heq⟩
    · rw [heq] at hsd ⊢
      exact ⟨hsd, Nat.mod_lt _ (by decide), h.below, h.once⟩
    · rw [heq] at hsd ⊢
      exact ⟨hsd, h.lt, h.below, h.once⟩
    · -- the device moves on to the next sector
      have hlt := hesc hat
      have heqr : s.wIndex = s.rIndex := hat.2
      rw [heq] at hsd ⊢
      refine ⟨hsd, Nat.mod_lt _ (by decide), fun i hi => ?_, h.once⟩
      have := h.below i hi
      show i < (s.wIndex / 64 + 1) * 64 % 4294967296
      omega

theorem serverChkTask_stays {wifi : Bool} {httpCode : UInt16} {restart : UInt8} {s : Logger}
    (h : (s.serverChkTask wifi httpCode restart).1 = false) :
    (s.serverChkTask wifi httpCode restart).2 = s := by
  rcases serverChkTask_cases wifi httpCode restart s with heq | heq | heq
  · rw [heq]
  · rw [heq] at h
    cases h
  · rw [heq] at h
    cases h

theorem AckedOnce.next {fmt : Format} {sd : SDConfig} {s s' : Logger} {l : Label}
    (h : AckedOnce sd s) (hmode : SingleMode sd) (hnext : Logger.next fmt l s = some s')
    (hl : Steady s l s') : AckedOnce sd s' := by
  have hstart : AckedOnce sd s.start := ⟨h.sd_eq, h.lt, h.below, h.once⟩
  cases l with
  | log p => exact h.log hnext hl
  | post net => exact hstart.post hmode hnext hl
  | server wifi httpCode restart sd' =>
    rw [Logger.next] at hnext
    rw [if_neg (by rw [hl]; decide), serverChkTask_stays hl] at hnext
    cases hnext
    exact hstart
  | restart => exact hl.elim
  | cutLog => exact hl.elim
  | cutPost => exact hl.elim
  | cutReset => exact hl.elim

/-- **No acknowledged record is sent again**, in a run of single posts where no
request is refused behind one of its call that is answered with 200. -/
theorem acknowledged_once {fmt : Format} {s₀ s : Logger} (hmode : SingleMode s₀.sd)
    (hnew : s₀.posts = []) (hlt : s₀.wIndex < 4294967296) (hrun : Reach fmt Steady s₀ s) :
    s.acknowledged.Nodup := by
  have hack : s₀.acknowledged = [] := by
    rw [acknowledged, Logger.answered, hnew]
    rfl
  have h₀ : AckedOnce s₀.sd s₀ :=
    ⟨rfl, hlt, by rw [hack]; exact fun i hi => absurd hi List.not_mem_nil, by
      rw [hack]; exact List.nodup_nil⟩
  exact (hrun.invariant (AckedOnce s₀.sd) h₀ (fun _ _ _ h hnext hl => h.next hmode hnext hl)).once

/-- A device with two meters that posts one record after the other. -/
def oneByOne : Logger :=
  (factory (blankChip 65536) (.plain 1 2 0) ⟨0, 0, 0⟩).setup (.plain 1 2 0)

/-- A server that answers the requests of a call with these codes, then with 200. -/
def answers (codes : List UInt16) : Network := ⟨true, (false, false), fun i => codes.getD i 200⟩

/-- The second request of a call is refused: the next call sends both records
again. -/
theorem not_acknowledged_once :
    SingleMode oneByOne.sd ∧ oneByOne.posts = [] ∧
      ∃ s, oneByOne.run .zero [.log (sensorPass .healthy), .post (answers [200, 500]),
        .post (answers [])] = some s ∧ s.acknowledged = [0, 0, 1] ∧ ¬ s.acknowledged.Nodup := by
  have hrun : (oneByOne.run .zero [.log (sensorPass .healthy), .post (answers [200, 500]),
      .post (answers [])]).map acknowledged = some [0, 0, 1] := by decide +kernel
  obtain ⟨s, hs, hack⟩ := Option.map_eq_some_iff.mp hrun
  exact ⟨⟨rfl, rfl⟩, rfl, s, hs, hack, by rw [hack]; decide⟩

/-- A pass, and a call whose requests are all answered. -/
theorem acknowledged_once_first :
    ∃ s, oneByOne.run .zero [.log (sensorPass .healthy), .post (answers [])] = some s ∧
      s.acknowledged.Nodup := by
  have hfits : Fits oneByOne.sd.cfgG := ⟨show 2 ≤ 21 by decide, fun _ => show 0 ≤ 21 by decide⟩
  obtain ⟨s₁, h₁⟩ := hfits.progress .zero (.log (sensorPass .healthy))
  have hsd : s₁.sd = oneByOne.sd := next_sd rfl h₁ trivial
  obtain ⟨s, h₂⟩ : ∃ s, next .zero (.post (answers [])) s₁ = some s :=
    Fits.progress (by rw [hsd]; exact hfits) .zero _
  refine ⟨s, ?_, ?_⟩
  · exact (run_cons h₁).trans (run_cons h₂)
  · have hlog : Steady oneByOne (.log (sensorPass .healthy)) s₁ :=
      fun _ => show 0 < 4294967232 by decide
    have hpost : Steady s₁ (.post (answers [])) s := fun _ _ _ i _ => rfl
    exact @acknowledged_once .zero oneByOne s ⟨rfl, rfl⟩ rfl (show 0 < 4294967296 by decide)
      ((Reach.refl.step h₁ hlog).step h₂ hpost)

end Logger

end EnresLogger
