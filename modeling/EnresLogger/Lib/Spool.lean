import Mathlib.Data.List.Basic
import Mathlib.Tactic.Common

/-!
# Spools

A spool takes entries in at its end and hands them out in groups from its
front.  It remembers the groups, so that `entered` is everything it ever took
in: what has been handed out, in order, and what is still queued.

`Spool.Step` is one operation.  Handing out changes no entry (`take_entered`),
so what a spool has handed out is the part of what entered it that satisfies any
test which parts the two (`filter_entered`): nothing is lost, repeated or out of
order.
-/

namespace EnresLogger.Lib

structure Spool (α : Type*) where
  sent : List (List α)
  queued : List α

namespace Spool

variable {α : Type*} {q q' : Spool α}

def empty : Spool α := ⟨[], []⟩

def put (q : Spool α) (xs : List α) : Spool α := { q with queued := q.queued ++ xs }

/-- Hand out the next `n` entries as one group. -/
def take (q : Spool α) (n : Nat) : Spool α := ⟨q.sent ++ [q.queued.take n], q.queued.drop n⟩

/-- All entries, the oldest first. -/
def entered (q : Spool α) : List α := q.sent.flatten ++ q.queued

inductive Step (q : Spool α) : Spool α → Prop
  | idle : Step q q
  | put (xs : List α) : Step q (q.put xs)
  | take (n : Nat) : Step q (q.take n)

theorem put_entered (q : Spool α) (xs : List α) : (q.put xs).entered = q.entered ++ xs :=
  (List.append_assoc _ _ _).symm

theorem take_entered (q : Spool α) (n : Nat) : (q.take n).entered = q.entered := by
  simp [entered, take, List.flatten_append]

/-- **What has been handed out** is what entered and passes a test that the
queued entries fail. -/
theorem filter_entered {q : Spool α} {p : α → Bool} (hsent : ∀ e ∈ q.sent.flatten, p e = true)
    (hqueued : ∀ e ∈ q.queued, p e = false) : q.entered.filter p = q.sent.flatten := by
  have hnil : q.queued.filter p = [] :=
    List.filter_eq_nil_iff.mpr fun e he => by rw [hqueued e he]; exact Bool.false_ne_true
  rw [entered, List.filter_append, List.filter_eq_self.mpr hsent, hnil, List.append_nil]

end Spool

end EnresLogger.Lib
