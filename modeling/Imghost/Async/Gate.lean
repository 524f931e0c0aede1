/-
  Imghost.Async.Gate — callers that check a level and raise it later.

  A gate lets a caller through when the level it reads has room for the caller's weight;
  the caller raises the level by that weight in a later call, and is waiting until then.
  What is waiting counts against the cap as much as the level does.

  - `bounded_advance`: level and waiting weight stay within the cap, if whoever is let
    through finds room beside those who are waiting.
  - `counted_advance`: a level that never falls is at least what was counted.
-/

import Mathlib.Algebra.BigOperators.Group.Finset.Piecewise
import Mathlib.Algebra.Order.BigOperators.Group.Finset
import Imghost.Async.Pool

namespace Imghost.Async

variable {Req : Type} {Reply : Req → Type} {Err α σ : Type}

structure Gate (Reply : Req → Type) (Err : Type) where
  /-- What task `i` adds to the level. -/
  weight : Nat → Nat
  /-- The reply that lets task `i` through. -/
  passes : Nat → Event Reply Err → Bool
  /-- The call that raises the level. -/
  counts : Req → Bool

namespace Gate

inductive Phase where
  | outside
  | waiting
  | counted
  deriving DecidableEq

variable (G : Gate Reply Err)

def next (i : Nat) : Phase → Event Reply Err → Phase
  | .outside, e => if G.passes i e then .waiting else .outside
  | .waiting, e => if G.counts e.req then .counted else .waiting
  | .counted, _ => .counted

/-- Nobody raises the level who was not let through, and nobody does it twice. -/
def protocol (allowed : Nat → Req → Prop) (i : Nat) : Protocol Reply Err Phase where
  can phase r := allowed i r ∧ (G.counts r = true → phase = .waiting)
  next := G.next i

/-- A call that is neither the check nor the count. -/
def Quiet (allowed : Nat → Req → Prop) (i : Nat) (r : Req) : Prop :=
  allowed i r ∧ G.counts r = false ∧ ∀ x b, G.passes i ⟨r, x, b⟩ = false

/-- The phase task `i` has reached. -/
def phaseOf (p : Pool Reply Err σ α) (i : Nat) : Phase := p.seen (G.next i) .outside i

/-- The weight of the tasks in a phase. -/
def total (phase : Phase) (p : Pool Reply Err σ α) : Nat :=
  ∑ i ∈ Finset.range p.tasks.length, if G.phaseOf p i = phase then G.weight i else 0

/-- A caller for whom the level has room finds it beside those who are waiting. -/
def RoomBeside (level : σ → Int) (cap : Int) (p : Pool Reply Err σ α) (i : Nat) : Prop :=
  level p.world + G.weight i ≤ cap → level p.world + G.total .waiting p + G.weight i ≤ cap

/-- The tasks that returned. -/
def returned (p : Pool Reply Err σ α) : Finset Nat :=
  (Finset.range p.tasks.length).filter fun i => p.tasks[i]?.any (·.rest.value.isSome)

variable {G} {B : Backend Reply Err σ} {p : Pool Reply Err σ α} {i : Nat} {t : Task Reply Err α} {r : Req}
  {k : Except Err (Reply r) → Program Reply Err α} {fault : Option Err}

theorem can_of_quiet {allowed : Nat → Req → Prop} {phase : Phase} (h : G.Quiet allowed i r) :
    (G.protocol allowed i).can phase r := ⟨h.1, fun hc => by rw [h.2.1] at hc; cases hc⟩

theorem next_of_quiet {allowed : Nat → Req → Prop} {e : Event Reply Err} {phase : Phase}
    (h : G.Quiet allowed i e.req) : (G.protocol allowed i).next phase e = phase := by
  obtain ⟨r, x, b⟩ := e
  obtain ⟨-, hcounts, hpasses⟩ := h
  cases phase with
  | outside => simp only [protocol, next, hpasses x b, Bool.false_eq_true, if_false]
  | waiting => simp only [protocol, next, hcounts, Bool.false_eq_true, if_false]
  | counted => rfl

/-- A program that makes only such calls, and what follows it. -/
theorem wp_quiet {β : Type} {allowed : Nat → Req → Prop} {Honest : Event Reply Err → Prop} {phase : Phase}
    {q : Program Reply Err α} {f : α → Program Reply Err β} {Q : Except Err β → Phase → Prop}
    (hq : q.Uses (G.Quiet allowed i)) (hok : ∀ a, wp ((G.protocol allowed i).machine Honest) Q (f a) phase)
    (herr : ∀ e, Q (.error e) phase) : wp ((G.protocol allowed i).machine Honest) Q (q >>= f) phase :=
  Protocol.wp_pass (fun _ h => can_of_quiet h) (fun _ h => next_of_quiet h) hq hok herr

theorem phaseOf_advance_self (ht : p.tasks[i]? = some t) : G.phaseOf (p.advance B i t r k fault) i =
    G.next i (G.phaseOf p i) ⟨r, (B.answer i r fault p.world).1, fault.isSome⟩ := Pool.seen_advance_self ht

theorem phaseOf_advance_of_ne {j : Nat} (h : j ≠ i) : G.phaseOf (p.advance B i t r k fault) j = G.phaseOf p j :=
  Pool.seen_advance_of_ne h

/-- One task moves from its phase to the next, and all others stay. -/
theorem total_advance (phase : Phase) (ht : p.tasks[i]? = some t) :
    G.total phase (p.advance B i t r k fault) + (if G.phaseOf p i = phase then G.weight i else 0) =
      G.total phase p + if G.phaseOf (p.advance B i t r k fault) i = phase then G.weight i else 0 := by
  have hmem : i ∈ Finset.range p.tasks.length := Finset.mem_range.mpr (List.getElem?_eq_some_iff.mp ht).1
  have hothers : ∀ j ∈ (Finset.range p.tasks.length).erase i,
      (if G.phaseOf (p.advance B i t r k fault) j = phase then G.weight j else 0) =
        if G.phaseOf p j = phase then G.weight j else 0 := by
    intro j hj
    rw [phaseOf_advance_of_ne (Finset.ne_of_mem_erase hj)]
  rw [total, total, Pool.tasks_length_advance, ← Finset.add_sum_erase _ _ hmem, ← Finset.add_sum_erase _ _ hmem,
    Finset.sum_congr rfl hothers]
  omega

section

variable {level : σ → Int} {cap : Int}

/-- Level and waiting weight stay within the cap. -/
theorem bounded_advance (ht : p.tasks[i]? = some t) (hcan : G.counts r = true → G.phaseOf p i = .waiting)
    (hpass : G.passes i ⟨r, (B.answer i r fault p.world).1, fault.isSome⟩ = true →
      level p.world + G.total .waiting p + G.weight i ≤ cap)
    (hrise : level (p.advance B i t r k fault).world ≤ level p.world + if G.counts r then (G.weight i : Int) else 0)
    (h : level p.world + G.total .waiting p ≤ cap) :
    level (p.advance B i t r k fault).world + G.total .waiting (p.advance B i t r k fault) ≤ cap := by
  have htotal := @total_advance _ _ _ _ _ G B _ _ _ r k fault .waiting ht
  rw [phaseOf_advance_self ht] at htotal
  rcases hphase : G.phaseOf p i with _ | _ | _
  · have hcounts : G.counts r = false := by
      by_contra hc
      rw [hcan (by simpa using hc)] at hphase
      cases hphase
    rw [hphase] at htotal
    simp only [hcounts, Bool.false_eq_true, if_false] at hrise
    by_cases hp : G.passes i ⟨r, (B.answer i r fault p.world).1, fault.isSome⟩ = true
    · have hroom := hpass hp
      simp only [next, hp, if_true, reduceCtorEq, if_false] at htotal
      omega
    · simp only [next, hp, if_false, reduceCtorEq] at htotal
      omega
  · rw [hphase] at htotal
    by_cases hc : G.counts r = true
    · simp only [next, hc, if_true, reduceCtorEq, if_false] at htotal
      simp only [hc, if_true] at hrise
      omega
    · simp only [next, hc, if_false, if_true, Bool.false_eq_true] at htotal hrise
      omega
  · have hcounts : G.counts r = false := by
      by_contra hc
      rw [hcan (by simpa using hc)] at hphase
      cases hphase
    rw [hphase] at htotal
    simp only [hcounts, Bool.false_eq_true, if_false] at hrise
    simp only [next, reduceCtorEq, if_false] at htotal
    omega

/-- A level that never falls is at least what was counted. -/
theorem counted_advance (ht : p.tasks[i]? = some t)
    (hkeep : level p.world + (if G.counts r then (G.weight i : Int) else 0) ≤ level (p.advance B i t r k fault).world)
    (h : (G.total .counted p : Int) ≤ level p.world) :
    (G.total .counted (p.advance B i t r k fault) : Int) ≤ level (p.advance B i t r k fault).world := by
  have htotal := @total_advance _ _ _ _ _ G B _ _ _ r k fault .counted ht
  rw [phaseOf_advance_self ht] at htotal
  rcases hphase : G.phaseOf p i with _ | _ | _ <;> rw [hphase] at htotal
  · have hnot : G.next i .outside ⟨r, (B.answer i r fault p.world).1, fault.isSome⟩ ≠ .counted := by
      simp only [next]
      split <;> exact Phase.noConfusion
    simp only [reduceCtorEq, if_false, if_neg hnot] at htotal
    split at hkeep <;> omega
  · by_cases hc : G.counts r = true
    · simp only [next, hc, if_true, reduceCtorEq, if_false] at htotal hkeep
      omega
    · simp only [next, hc, if_false, reduceCtorEq] at htotal hkeep
      omega
  · simp only [next, if_true] at htotal
    split at hkeep <;> omega

end

theorem total_start (phase : Phase) (hphase : phase ≠ .outside) (w : σ) (ps : List (Program Reply Err α)) :
    G.total phase (Pool.start w ps) = 0 := by
  refine Finset.sum_eq_zero fun i _ => if_neg ?_
  rw [phaseOf, Pool.seen_start]
  exact hphase.symm

/-- Who returned was counted. -/
theorem card_returned_le {allowed : Nat → Req → Prop} {Honest : Event Reply Err → Prop}
    {Q : Nat → Except Err α → Phase → Prop} (hweight : ∀ i, 1 ≤ G.weight i)
    (hfollows : p.Follows (G.protocol allowed) Honest Q fun _ => .outside)
    (hQ : ∀ i a phase, Q i (.ok a) phase → phase = .counted) : (returned p).card ≤ G.total .counted p := by
  rw [returned, Finset.card_filter]
  refine Finset.sum_le_sum fun i _ => ?_
  split
  swap
  · exact Nat.zero_le _
  rename_i hdone
  obtain ⟨t, ht, hval⟩ := (Option.any_eq_true _ _).mp hdone
  obtain ⟨a, ha⟩ := Program.outcome_of_value hval
  have hphase : G.phaseOf p i = .counted := by
    rw [phaseOf, Pool.seen_eq ht]
    exact hQ i a _ (hfollows.done ht ha)
  rw [if_pos hphase]
  exact hweight i

end Gate

end Imghost.Async
