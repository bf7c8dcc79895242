import Mathlib.Data.List.Forall2

/-!
# Two runs side by side

A `Machine` takes an input at each step, may get stuck, and may stop by itself.
`run` is what one sees of it: each step with the state it began in.

Properties of two runs relate their visits one by one.  `lockstep` keeps a
relation between the states along the runs.  `lockstep_iff` is for a relation
that only a good pair of steps keeps: then the property fails at the first pair
that is not good, and so it holds all along if and only if all pairs are good.
-/

namespace EnresLogger.Lib

structure Machine (σ ι ο : Type*) where
  step : ι → σ → Option (σ × ο)
  stops : ο → Bool

/-- One step, with the state it began in. -/
structure Visit (σ ι ο : Type*) where
  state : σ
  input : ι
  output : ο

namespace Machine

variable {σ ι ο : Type*} (m : Machine σ ι ο)

def run : List ι → σ → Option (List (Visit σ ι ο))
  | [], _ => some []
  | a :: as, s => (m.step a s).bind fun r =>
      if m.stops r.2 then some [⟨s, a, r.2⟩]
      else (run as r.1).map fun vs => ⟨s, a, r.2⟩ :: vs

variable {m}

theorem run_cons {a : ι} {as : List ι} {s : σ} {vs : List (Visit σ ι ο)}
    (h : m.run (a :: as) s = some vs) :
    ∃ s' o vs', m.step a s = some (s', o) ∧ vs = ⟨s, a, o⟩ :: vs' ∧
      (m.stops o = true → vs' = []) ∧ (m.stops o = false → m.run as s' = some vs') := by
  obtain ⟨⟨s', o⟩, hstep, h⟩ := Option.bind_eq_some_iff.mp h
  cases hstop : m.stops o with
  | true =>
    rw [hstop, if_pos rfl] at h
    cases h
    exact ⟨s', o, [], hstep, rfl, fun _ => rfl,
      fun hgo => absurd (hstop.symm.trans hgo) (by decide)⟩
  | false =>
    rw [hstop, if_neg Bool.false_ne_true] at h
    obtain ⟨vs', hrest, rfl⟩ := Option.map_eq_some_iff.mp h
    exact ⟨s', o, vs', hstep, rfl, fun hgo => absurd (hstop.symm.trans hgo) (by decide),
      fun _ => hrest⟩

/-- **Progress**: a machine that never gets stuck where an invariant holds has
its runs. -/
theorem run_isSome {P : σ → Prop}
    (hstep : ∀ a s, P s → ∃ s' o, m.step a s = some (s', o) ∧ P s') (as : List ι) {s : σ}
    (h : P s) : ∃ vs, m.run as s = some vs := by
  induction as generalizing s with
  | nil => exact ⟨[], rfl⟩
  | cons a as ih =>
    obtain ⟨s', o, ho, hs'⟩ := hstep a s h
    obtain ⟨vs, hvs⟩ := ih hs'
    rw [run, ho, Option.bind_some]
    split
    · exact ⟨_, rfl⟩
    · exact ⟨_, by rw [hvs]; rfl⟩

theorem run_inputs {as : List ι} {s : σ} {vs : List (Visit σ ι ο)} (h : m.run as s = some vs) :
    ∀ v ∈ vs, v.input ∈ as := by
  induction as generalizing s vs with
  | nil =>
    cases h
    exact fun v hv => absurd hv List.not_mem_nil
  | cons a as ih =>
    intro v hv
    obtain ⟨s', o, vs', _, rfl, hstop, hgo⟩ := run_cons h
    rcases List.mem_cons.mp hv with rfl | hv
    · exact List.mem_cons_self
    · cases ho : m.stops o with
      | true =>
        rw [hstop ho] at hv
        cases hv
      | false => exact List.mem_cons_of_mem a (ih (hgo ho) v hv)

/-- **The induction over a run**: what a step that goes on keeps, where `G` holds of it, holds
of every state. -/
theorem run_invariant {I : σ → Prop} {G : Visit σ ι ο → Prop}
    (hstep : ∀ {s s' a o}, I s → G ⟨s, a, o⟩ → m.step a s = some (s', o) → m.stops o = false →
      I s')
    {as : List ι} {s : σ} {vs : List (Visit σ ι ο)} (h : I s) (hrun : m.run as s = some vs)
    (hG : ∀ v ∈ vs, G v) : ∀ v ∈ vs, I v.state := by
  induction as generalizing s vs with
  | nil =>
    cases hrun
    exact fun v hv => absurd hv List.not_mem_nil
  | cons a as ih =>
    intro v hv
    obtain ⟨s', o, vs', ho, rfl, hstop, hgo⟩ := run_cons hrun
    rcases List.mem_cons.mp hv with rfl | hv
    · exact h
    · cases hs : m.stops o with
      | true =>
        rw [hstop hs] at hv
        cases hv
      | false =>
        exact ih (hstep h (hG _ List.mem_cons_self) ho hs) (hgo hs)
          (fun v hv => hG v (List.mem_cons_of_mem _ hv)) v hv

variable {R : σ → σ → Prop} {I : ι → ι → Prop} {P Q : Visit σ ι ο → Visit σ ι ο → Prop}
  {G : Visit σ ι ο → Prop}

/-- **Lockstep**: a relation that every pair of steps keeps. -/
theorem lockstep
    (hstep : ∀ {s t s' t' a b o p}, R s t → I a b → m.step a s = some (s', o) →
      m.step b t = some (t', p) →
        R s' t' ∧ m.stops o = m.stops p ∧ P ⟨s, a, o⟩ ⟨t, b, p⟩)
    {as bs : List ι} (hI : List.Forall₂ I as bs) :
    ∀ {s t : σ} {vs ws : List (Visit σ ι ο)}, R s t → m.run as s = some vs →
      m.run bs t = some ws → List.Forall₂ P vs ws := by
  induction hI with
  | nil =>
    intro s t vs ws _ hvs hws
    cases hvs
    cases hws
    exact .nil
  | cons hab _ ih =>
    intro s t vs ws hR hvs hws
    obtain ⟨s', o, vs', ho, rfl, hstop, hgo⟩ := run_cons hvs
    obtain ⟨t', p, ws', hp, rfl, hstop', hgo'⟩ := run_cons hws
    obtain ⟨hR', hstops, hP⟩ := hstep hR hab ho hp
    refine .cons hP ?_
    cases hs : m.stops o with
    | true =>
      rw [hstop hs, hstop' (hstops.symm.trans hs)]
      exact .nil
    | false => exact ih hR' (hgo hs) (hgo' (hstops.symm.trans hs))

/-- **Lockstep while good**: the property holds of a pair of steps exactly when
the pair is good, and a good pair keeps the relation.  `G` is what is known of
the steps of the first run. -/
theorem lockstep_iff
    (hstep : ∀ {s t s' t' a b o p}, R s t → I a b → m.step a s = some (s', o) →
      m.step b t = some (t', p) → G ⟨s, a, o⟩ →
        m.stops o = m.stops p ∧ (P ⟨s, a, o⟩ ⟨t, b, p⟩ ↔ Q ⟨s, a, o⟩ ⟨t, b, p⟩) ∧
        (Q ⟨s, a, o⟩ ⟨t, b, p⟩ → R s' t'))
    {as bs : List ι} (hI : List.Forall₂ I as bs) :
    ∀ {s t : σ} {vs ws : List (Visit σ ι ο)}, R s t → m.run as s = some vs →
      m.run bs t = some ws → (∀ v ∈ vs, G v) → (List.Forall₂ P vs ws ↔ List.Forall₂ Q vs ws) := by
  induction hI with
  | nil =>
    intro s t vs ws _ hvs hws _
    cases hvs
    cases hws
    exact iff_of_true .nil .nil
  | cons hab _ ih =>
    intro s t vs ws hR hvs hws hG
    obtain ⟨s', o, vs', ho, rfl, hstop, hgo⟩ := run_cons hvs
    obtain ⟨t', p, ws', hp, rfl, hstop', hgo'⟩ := run_cons hws
    obtain ⟨hstops, hPQ, hkeep⟩ := hstep hR hab ho hp (hG _ List.mem_cons_self)
    rw [List.forall₂_cons, List.forall₂_cons, hPQ]
    refine and_congr_right fun hQ => ?_
    cases hs : m.stops o with
    | true =>
      rw [hstop hs, hstop' (hstops.symm.trans hs)]
      exact iff_of_true .nil .nil
    | false =>
      exact ih (hkeep hQ) (hgo hs) (hgo' (hstops.symm.trans hs))
        fun v hv => hG v (List.mem_cons_of_mem _ hv)

end Machine

/-! ### Lists of equal length, pair by pair -/

variable {α β : Type*} {as : List α} {bs : List β}

theorem forall₂_right_iff {Q : β → Prop} (hlen : as.length = bs.length) :
    List.Forall₂ (fun _ b => Q b) as bs ↔ ∀ b ∈ bs, Q b := by
  induction as generalizing bs with
  | nil =>
    obtain rfl := List.eq_nil_of_length_eq_zero hlen.symm
    exact iff_of_true .nil fun b hb => absurd hb List.not_mem_nil
  | cons a as ih =>
    cases bs with
    | nil => cases hlen
    | cons b bs => rw [List.forall₂_cons, ih (Nat.succ.inj hlen), List.forall_mem_cons]

theorem forall₂_imp_iff {P : α → Prop} {Q : β → Prop} (hlen : as.length = bs.length) :
    List.Forall₂ (fun a b => P a → Q b) as bs ↔
      ∀ (k : Nat) (a : α), as[k]? = some a → P a → ∃ b, bs[k]? = some b ∧ Q b := by
  rw [List.forall₂_iff_get]
  constructor
  · rintro ⟨_, h⟩ k a ha hP
    obtain ⟨hk, rfl⟩ := List.getElem?_eq_some_iff.mp ha
    exact ⟨bs[k], List.getElem?_eq_getElem (hlen ▸ hk), h k hk (hlen ▸ hk) hP⟩
  · intro h
    refine ⟨hlen, fun k hk hk' hP => ?_⟩
    obtain ⟨b, hb, hQ⟩ := h k _ (List.getElem?_eq_getElem hk) hP
    obtain ⟨_, rfl⟩ := List.getElem?_eq_some_iff.mp hb
    exact hQ

end EnresLogger.Lib
