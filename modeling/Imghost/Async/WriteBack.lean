/-
  Imghost.Async.WriteBack — tasks that write back whole rows, as clients of one row.

  A task's log says what it has read and written (`draft`). Seen from the row with one
  key, an answered call is a step of `Shared.Step`: it concerns another row, it takes a
  snapshot, or it writes an edited snapshot back.
-/

import Imghost.Async.Pool
import Imghost.Data.Snapshot

namespace Imghost.Async.WriteBack

open Imghost.Data

variable {Req : Type} {Reply : Req → Type} {Err α σ Γ ρ κ β : Type} [DecidableEq κ] (key : ρ → κ)
  (row : σ → κ → Option ρ) (next : Γ → Event Reply Err → Γ) (first : Γ) (draft : Γ → Draft ρ)

/-- The row with the key `k`, and the tasks' drafts of it. -/
def shared (k : κ) (p : Pool Reply Err σ α) : Shared ρ where
  row := row p.world k
  drafts i := (draft (p.seen next first i)).about key k

variable {key row next first draft} {B : Backend Reply Err σ} {col : ρ → β} {k : κ} {p : Pool Reply Err σ α} {i : Nat}
  {t : Task Reply Err α} {r : Req} {f : Except Err (Reply r) → Program Reply Err α} {fault : Option Err}

theorem drafts_eq {s : ρ} (h : (draft (p.seen next first i)).read = some s) (hk : key s = k) :
    (shared key row next first draft k p).drafts i = draft (p.seen next first i) :=
  (Draft.about_of_read h).trans (if_pos hk)

theorem of_drafts_read {s : ρ} (h : ((shared key row next first draft k p).drafts i).read = some s) :
    (shared key row next first draft k p).drafts i = draft (p.seen next first i) ∧ key s = k := Draft.of_about_read h

theorem shared_advance (ht : p.tasks[i]? = some t) : shared key row next first draft k (p.advance B i t r f fault) =
    { row := row (B.answer i r fault p.world).2 k
      drafts := (shared key row next first draft k p).setDraft i
        ((draft (next (p.seen next first i) ⟨r, (B.answer i r fault p.world).1, fault.isSome⟩)).about key k) } := by
  simp only [shared, Shared.mk.injEq]
  refine ⟨rfl, funext fun j => ?_⟩
  by_cases h : j = i
  · subst h
    rw [Pool.seen_advance_self ht, Shared.setDraft_self]
  · rw [Pool.seen_advance_of_ne h, Shared.setDraft_of_ne _ _ h]

/-- A call that leaves the task's draft alone, and the row as it is or deleted. -/
theorem step_quiet (ht : p.tasks[i]? = some t)
    (hrow : row (B.answer i r fault p.world).2 k = row p.world k ∨ row (B.answer i r fault p.world).2 k = none)
    (hdraft : draft (next (p.seen next first i) ⟨r, (B.answer i r fault p.world).1, fault.isSome⟩) =
      draft (p.seen next first i)) :
    Shared.Step col (shared key row next first draft k p)
      (shared key row next first draft k (p.advance B i t r f fault)) := by
  have hsame : shared key row next first draft k (p.advance B i t r f fault) =
      { shared key row next first draft k p with row := row (B.answer i r fault p.world).2 k } := by
    rw [shared_advance ht, hdraft]
    simp only [Shared.mk.injEq, true_and]
    funext j
    by_cases h : j = i
    · subst h; rw [Shared.setDraft_self]; rfl
    · rw [Shared.setDraft_of_ne _ _ h]
  rw [hsame]
  rcases hrow with h | h
  · rw [h]; exact .idle _
  · rw [h]; exact .drop _

/-- A snapshot taken before anything is written. -/
theorem step_read (ht : p.tasks[i]? = some t)
    (hrow : row (B.answer i r fault p.world).2 k = row p.world k) (hbefore : (draft (p.seen next first i)).written = none)
    (hafter : (draft (next (p.seen next first i) ⟨r, (B.answer i r fault p.world).1, fault.isSome⟩)).written = none) :
    Shared.Step col (shared key row next first draft k p)
      (shared key row next first draft k (p.advance B i t r f fault)) := by
  obtain ⟨s, hs⟩ := Draft.about_of_unwritten key k hafter
  obtain ⟨s', hs'⟩ := Draft.about_of_unwritten key k hbefore
  rw [shared_advance ht, hs, hrow]
  refine .read _ i s ?_
  simp only [shared, hs']

/-- A write-back of the row with the key of the snapshot. -/
theorem step_write (ht : p.tasks[i]? = some t) {s x now new : ρ}
    (hbefore : draft (p.seen next first i) = { read := some s, written := none })
    (hafter : draft (next (p.seen next first i) ⟨r, (B.answer i r fault p.world).1, fault.isSome⟩) =
      { read := some s, written := some x })
    (hnow : row p.world (key s) = some now)
    (hrow : row (B.answer i r fault p.world).2 k = if k = key s then some new else row p.world k)
    (hnew : col new = col x) (hfresh : col x = col s → col now = col s) :
    Shared.Step col (shared key row next first draft k p)
      (shared key row next first draft k (p.advance B i t r f fault)) := by
  have hdraft : (shared key row next first draft k p).drafts i =
      if key s = k then { read := some s, written := none } else { read := none, written := none } := by
    simp only [shared, hbefore]
    exact Draft.about_of_read rfl
  rw [shared_advance ht, hafter, Draft.about_of_read rfl, hrow]
  by_cases h : key s = k
  · subst h
    rw [if_pos rfl] at hdraft
    rw [if_pos rfl, if_pos rfl]
    exact .write _ i s x now new (by rw [hdraft]) (by rw [hdraft]) hnow hnew hfresh
  · -- the row of another key
    rw [if_neg h] at hdraft
    rw [if_neg h, if_neg (Ne.symm h)]
    exact .read (shared key row next first draft k p) i none (by rw [hdraft])

end Imghost.Async.WriteBack
