/-
  Imghost.Tasks.Life — the life of one call of `enqueue`.

  Whatever queue it goes through, a call leaves marks: it is waiting in some place for an
  attempt, or running it; an attempt was started; it has ended. `echo` is a message that was
  pushed while its sender does not know it yet. The marks of a call are a multiset, so two
  copies of one task are two marks.

  `Moves` is all that can happen to the marks. A call that never has a mark taken away is
  never lost (`Lives`); a call that is never copied starts no attempt twice (`Single`).
-/

import Mathlib.Algebra.Order.Group.Multiset
import Mathlib.Data.Multiset.Filter
import Mathlib.Data.Multiset.UnionInter

namespace Imghost.Tasks

inductive Mark where
  | waiting (attempt : Int)
  | running (attempt : Int)
  | echo
  | started (attempt : Int)
  | ended
  deriving DecidableEq, Repr

/-- What a move does to the number of copies of a task. -/
inductive Change where
  | kept
  | lost
  | copied
  deriving DecidableEq, Repr

inductive Moves : Change → Multiset Mark → Multiset Mark → Prop where
  | stay (life) : Moves .kept life life
  | pass {a b : Int} (h : a ≤ b) (rest) : Moves .kept (.waiting a ::ₘ rest) (.waiting b ::ₘ rest)
  | start (a rest) : Moves .kept (.waiting a ::ₘ rest) (.running a ::ₘ .started a ::ₘ rest)
  | retry {a b : Int} (h : a < b) (rest) : Moves .kept (.running a ::ₘ rest) (.waiting b ::ₘ rest)
  | finish (a rest) : Moves .kept (.running a ::ₘ rest) (.ended ::ₘ rest)
  | reject (a rest) : Moves .kept (.waiting a ::ₘ rest) (.ended ::ₘ rest)
  | carry (a rest) : Moves .kept (.waiting a ::ₘ rest) (.waiting a ::ₘ .echo ::ₘ rest)
  | confirm (rest) : Moves .kept (.echo ::ₘ rest) rest
  | copy (a rest) : Moves .copied (.echo ::ₘ rest) (.waiting a ::ₘ rest)
  | loseWaiting (a rest) : Moves .lost (.waiting a ::ₘ rest) rest
  | loseRunning (a rest) : Moves .lost (.running a ::ₘ rest) rest

def Mark.isTicket : Mark → Bool
  | .waiting _ | .running _ => true
  | _ => false

/-- The copies of the task that are in some place. -/
def tickets (life : Multiset Mark) : Multiset Mark := life.filter (·.isTicket = true)

/-- The call is in some place, or has ended. -/
def Lives (life : Multiset Mark) : Prop := (∃ m ∈ life, m.isTicket = true) ∨ .ended ∈ life

/-- The attempt a mark is about is not before `a`: a task that waits for `b` has started
    only attempts before `b`, and one that runs `b` none after it. -/
def Mark.allows (a : Int) : Mark → Prop
  | .waiting b => a < b
  | .running b => a ≤ b
  | _ => True

/-- One copy at most, no attempt started twice, and none that is still to come. -/
structure Single (life : Multiset Mark) : Prop where
  one : (tickets life).card ≤ 1
  once : ∀ a, life.count (.started a) ≤ 1
  past : ∀ a, .started a ∈ life → ∀ m ∈ life, m.allows a

variable {change : Change} {life life' rest : Multiset Mark} {m t : Mark}

@[simp] theorem tickets_cons_ticket (h : m.isTicket = true) : tickets (m ::ₘ rest) = m ::ₘ tickets rest :=
  Multiset.filter_cons_of_pos _ h

@[simp] theorem tickets_cons_other (h : m.isTicket = false) : tickets (m ::ₘ rest) = tickets rest :=
  Multiset.filter_cons_of_neg _ (by simp [h])

theorem allows_of_not_ticket {a : Int} (h : m.isTicket = false) : m.allows a := by
  cases m with
  | waiting | running => cases h
  | echo | started | ended => trivial

theorem not_ticket_of_mem (h : tickets rest = 0) (hm : m ∈ rest) : m.isTicket = false := by
  by_contra hticket
  have : m ∈ tickets rest := Multiset.mem_filter.mpr ⟨hm, by simpa using hticket⟩
  rw [h] at this
  exact Multiset.notMem_zero m this

/-- The one copy of a task, and what is known of its past. -/
theorem single_ticket (ht : t.isTicket = true) : Single (t ::ₘ rest) ↔
    tickets rest = 0 ∧ (∀ a, rest.count (.started a) ≤ 1) ∧ ∀ a, .started a ∈ rest → t.allows a := by
  have hne : ∀ a, Mark.started a ≠ t := by
    rintro a rfl
    cases ht
  constructor
  · intro h
    have hone := h.one
    rw [tickets_cons_ticket ht, Multiset.card_cons] at hone
    refine ⟨Multiset.card_eq_zero.mp (by omega), fun a => ?_, fun a ha => ?_⟩
    · have := h.once a
      rwa [Multiset.count_cons_of_ne (hne a)] at this
    · exact h.past a (Multiset.mem_cons_of_mem ha) t (Multiset.mem_cons_self t rest)
  · intro h
    obtain ⟨hnone, honce, hpast⟩ := h
    refine ⟨?_, fun a => ?_, fun a ha m hm => ?_⟩
    · rw [tickets_cons_ticket ht, hnone]
      exact le_rfl
    · rw [Multiset.count_cons_of_ne (hne a)]
      exact honce a
    · have hold := (Multiset.mem_cons.mp ha).resolve_left (hne a)
      rcases Multiset.mem_cons.mp hm with rfl | hm
      · exact hpast a hold
      · exact allows_of_not_ticket (not_ticket_of_mem hnone hm)

/-- Marks that are no copies and start nothing do not matter. -/
theorem single_other (hm : m = .echo ∨ m = .ended) : Single (m ::ₘ rest) ↔ Single rest := by
  have hticket : m.isTicket = false := by rcases hm with rfl | rfl <;> rfl
  have hne : ∀ a, Mark.started a ≠ m := by rcases hm with rfl | rfl <;> exact fun a => nofun
  constructor
  · intro h
    refine ⟨tickets_cons_other hticket ▸ h.one, fun a => ?_, fun a ha n hn => ?_⟩
    · have := h.once a
      rwa [Multiset.count_cons_of_ne (hne a)] at this
    · exact h.past a (Multiset.mem_cons_of_mem ha) n (Multiset.mem_cons_of_mem hn)
  · intro h
    refine ⟨(tickets_cons_other hticket).symm ▸ h.one, fun a => ?_, fun a ha n hn => ?_⟩
    · rw [Multiset.count_cons_of_ne (hne a)]
      exact h.once a
    · have hold := (Multiset.mem_cons.mp ha).resolve_left (hne a)
      rcases Multiset.mem_cons.mp hn with rfl | hn
      · exact allows_of_not_ticket hticket
      · exact h.past a hold n hn

/-- Without copies there is nothing to wait for. -/
theorem single_of_no_ticket (hnone : tickets rest = 0) (honce : ∀ a, rest.count (.started a) ≤ 1) : Single rest :=
  ⟨by rw [hnone]; exact Nat.zero_le 1, honce, fun _ _ _ hm => allows_of_not_ticket (not_ticket_of_mem hnone hm)⟩

theorem lives_cons_other (hm : m.isTicket = false) (hne : m ≠ .ended) (h : Lives (m ::ₘ rest)) : Lives rest := by
  rcases h with ⟨n, hn, hticket⟩ | h
  · rcases Multiset.mem_cons.mp hn with rfl | hn
    · rw [hm] at hticket
      cases hticket
    · exact .inl ⟨n, hn, hticket⟩
  · exact .inr ((Multiset.mem_cons.mp h).resolve_left (Ne.symm hne))

theorem lives_of_mem (hm : m ∈ life) (hticket : m.isTicket = true) : Lives life := .inl ⟨m, hm, hticket⟩

/-- A call that loses no copy is never lost. -/
theorem Moves.lives (h : Moves change life life') (hkept : change ≠ .lost) (hlives : Lives life) : Lives life' := by
  cases h with
  | stay => exact hlives
  | pass | start | retry | carry | copy => exact lives_of_mem (Multiset.mem_cons_self _ _) rfl
  | finish | reject => exact .inr (Multiset.mem_cons_self _ _)
  | confirm =>
    have hne : Mark.echo ≠ .ended := nofun
    exact lives_cons_other rfl hne hlives
  | loseWaiting | loseRunning => exact absurd rfl hkept

/-- A call that is not copied starts no attempt twice. -/
theorem Moves.single (h : Moves change life life') (hkept : change ≠ .copied) (hsingle : Single life) : Single life' := by
  cases h with
  | stay => exact hsingle
  | pass hle rest =>
    obtain ⟨hnone, honce, hpast⟩ := (single_ticket rfl).mp hsingle
    exact (single_ticket rfl).mpr ⟨hnone, honce, fun a ha => lt_of_lt_of_le (hpast a ha) hle⟩
  | start a rest =>
    obtain ⟨hnone, honce, hpast⟩ := (single_ticket rfl).mp hsingle
    have hnew : .started a ∉ rest := fun h => lt_irrefl a (hpast a h)
    refine (single_ticket rfl).mpr ⟨?_, fun b => ?_, fun b hb => ?_⟩
    · rw [tickets_cons_other rfl, hnone]
    · by_cases e : b = a
      · subst e
        rw [Multiset.count_cons_self, Multiset.count_eq_zero.mpr hnew]
      · rw [Multiset.count_cons_of_ne (by simpa using e)]
        exact honce b
    · rcases Multiset.mem_cons.mp hb with hb | hb
      · exact (Mark.started.inj hb).le
      · exact (hpast b hb).le
  | retry hlt rest =>
    obtain ⟨hnone, honce, hpast⟩ := (single_ticket rfl).mp hsingle
    exact (single_ticket rfl).mpr ⟨hnone, honce, fun a ha => lt_of_le_of_lt (hpast a ha) hlt⟩
  | finish a rest =>
    obtain ⟨hnone, honce, -⟩ := (single_ticket rfl).mp hsingle
    exact (single_other (.inr rfl)).mpr (single_of_no_ticket hnone honce)
  | reject a rest =>
    obtain ⟨hnone, honce, -⟩ := (single_ticket rfl).mp hsingle
    exact (single_other (.inr rfl)).mpr (single_of_no_ticket hnone honce)
  | carry a rest =>
    rw [Multiset.cons_swap]
    exact (single_other (.inl rfl)).mpr hsingle
  | confirm => exact (single_other (.inl rfl)).mp hsingle
  | copy => exact absurd rfl hkept
  | loseWaiting a rest =>
    obtain ⟨hnone, honce, -⟩ := (single_ticket rfl).mp hsingle
    exact single_of_no_ticket hnone honce
  | loseRunning a rest =>
    obtain ⟨hnone, honce, -⟩ := (single_ticket rfl).mp hsingle
    exact single_of_no_ticket hnone honce

/-- Marks elsewhere do not matter to a move. -/
theorem Moves.frame (h : Moves change life life') (more : Multiset Mark) : Moves change (life + more) (life' + more) := by
  cases h with
  | stay => exact .stay _
  | pass hle | start | retry hlt | finish | reject | carry | confirm | copy | loseWaiting | loseRunning =>
    simp only [Multiset.cons_add]
    constructor <;> assumption

/-- Only a call that has no marks yet gets its first. -/
theorem Moves.zero (h : Moves change 0 life') : life' = 0 := by
  generalize hzero : (0 : Multiset Mark) = life at h
  cases h with
  | stay => rfl
  | pass | start | retry | finish | reject | carry | confirm | copy | loseWaiting | loseRunning =>
    exact absurd hzero.symm Multiset.cons_ne_zero

theorem single_zero : Single 0 := single_of_no_ticket rfl fun _ => Nat.zero_le 1

theorem single_first (a : Int) : Single {.waiting a} := (single_ticket rfl).mpr ⟨rfl, fun _ => Nat.zero_le 1, nofun⟩

/-- What has ended stays so. -/
theorem Moves.ended (h : Moves change life life') (hended : .ended ∈ life) : .ended ∈ life' := by
  cases h with
  | stay => exact hended
  | pass | start | retry | finish | reject | carry | confirm | copy | loseWaiting | loseRunning =>
    simp only [Multiset.mem_cons, reduceCtorEq, false_or] at hended ⊢
    first | exact hended | exact .inr hended

end Imghost.Tasks
