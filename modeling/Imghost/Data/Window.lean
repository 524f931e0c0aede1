/-
  Imghost.Data.Window — event logs and sliding windows.

  Events carry a time and a weight, and are kept in the order in which they happened.
  `prune` drops events from the front, as a deque does; `since` keeps those after a
  cutoff. On a log in order the two agree, and pruning twice is pruning at the later
  cutoff, so a log that is only ever pruned holds what the history holds `since` some
  horizon. A sliding-window limit is about `load`, the weight since a cutoff.
-/

import Mathlib.Algebra.Order.BigOperators.Group.List
import Mathlib.Algebra.Order.Group.Nat
import Mathlib.Algebra.Order.Ring.Int
import Mathlib.Data.List.Sort

namespace Imghost.Data.Window

variable {ε T : Type} [LinearOrder T] (time : ε → T)

/-- `while events and events[0] <= cutoff: events.popleft()`. -/
def prune (cutoff : T) (events : List ε) : List ε := events.dropWhile fun e => decide (time e ≤ cutoff)

def since (cutoff : T) (events : List ε) : List ε := events.filter fun e => decide (cutoff < time e)

/-- In the order in which they happened. -/
def Chronological (events : List ε) : Prop := events.Pairwise fun a b => time a ≤ time b

variable {time} {cutoff cutoff' : T} {events : List ε}

theorem mem_since {e : ε} : e ∈ since time cutoff events ↔ e ∈ events ∧ cutoff < time e := by
  simp only [since, List.mem_filter, decide_eq_true_eq]

theorem since_append (events events' : List ε) :
    since time cutoff (events ++ events') = since time cutoff events ++ since time cutoff events' :=
  List.filter_append _ _

theorem Chronological.since (h : Chronological time events) : Chronological time (since time cutoff events) :=
  h.sublist List.filter_sublist

theorem Chronological.append_singleton {e : ε} (h : Chronological time events) (hlast : ∀ a ∈ events, time a ≤ time e) :
    Chronological time (events ++ [e]) := by
  refine List.pairwise_append.mpr ⟨h, List.pairwise_singleton _ _, fun a ha b hb => ?_⟩
  rw [List.mem_singleton.mp hb]
  exact hlast a ha

/-- In order, what is dropped from the front is all there is to drop. -/
theorem prune_eq_since (h : Chronological time events) : prune time cutoff events = since time cutoff events := by
  induction events with
  | nil => rfl
  | cons e events ih =>
    obtain ⟨hfirst, hrest⟩ := List.pairwise_cons.mp h
    by_cases he : time e ≤ cutoff
    · simp only [prune, since, List.dropWhile_cons, he, decide_true, if_true, List.filter_cons, not_lt.mpr he,
        decide_false, Bool.false_eq_true, if_false]
      exact ih hrest
    · have hall : ∀ a ∈ events, cutoff < time a := fun a ha => lt_of_lt_of_le (not_le.mp he) (hfirst a ha)
      have hkeep : since time cutoff (e :: events) = e :: events := by
        refine List.filter_eq_self.mpr fun a ha => decide_eq_true ?_
        rcases List.mem_cons.mp ha with rfl | ha
        · exact not_le.mp he
        · exact hall a ha
      rw [hkeep]
      simp only [prune, List.dropWhile_cons, he, decide_false, Bool.false_eq_true, if_false]

/-- Two cutoffs come to the later one. -/
theorem since_since : since time cutoff (since time cutoff' events) = since time (max cutoff cutoff') events := by
  rw [since, since, since, List.filter_filter]
  refine List.filter_congr fun e _ => ?_
  simp only [max_lt_iff, Bool.decide_and]

theorem since_sublist (h : cutoff' ≤ cutoff) : (since time cutoff events).Sublist (since time cutoff' events) := by
  refine List.monotone_filter_right events fun e he => ?_
  simp only [decide_eq_true_eq] at he ⊢
  exact lt_of_le_of_lt h he

/-! ## Logs that are pruned -/

/-- A log that may have lost events, but none after the horizon. -/
structure Recent (time : ε → T) (horizon : T) (events full : List ε) : Prop where
  sublist : events.Sublist full
  since : ∀ cutoff, horizon ≤ cutoff → Window.since time cutoff events = Window.since time cutoff full

variable {horizon horizon' : T} {full : List ε}

theorem Recent.refl (horizon : T) (events : List ε) : Recent time horizon events events := ⟨List.Sublist.refl _, fun _ _ => rfl⟩

theorem Recent.mono (h : Recent time horizon events full) (hlater : horizon ≤ horizon') : Recent time horizon' events full :=
  ⟨h.sublist, fun cutoff hcutoff => h.since cutoff (hlater.trans hcutoff)⟩

theorem Recent.append (h : Recent time horizon events full) (e : ε) : Recent time horizon (events ++ [e]) (full ++ [e]) := by
  refine ⟨h.sublist.append (List.Sublist.refl _), fun cutoff hcutoff => ?_⟩
  rw [since_append, since_append, h.since cutoff hcutoff]

/-- Pruned at a cutoff that is no earlier than the horizon. -/
theorem Recent.prune (h : Recent time horizon events full) (hfull : Chronological time full) (hcutoff : horizon ≤ cutoff) :
    Recent time cutoff (prune time cutoff events) full ∧ prune time cutoff events = Window.since time cutoff full := by
  have hpruned : Window.prune time cutoff events = Window.since time cutoff full := by
    rw [prune_eq_since (hfull.sublist h.sublist), h.since cutoff hcutoff]
  refine ⟨⟨?_, fun cutoff' hcutoff' => ?_⟩, hpruned⟩
  · rw [hpruned]
    exact List.filter_sublist
  · rw [hpruned, since_since, max_eq_left hcutoff']

/-! ## Load -/

variable (time) (weight : ε → Nat)

/-- The weight of the events since the cutoff. -/
def load (cutoff : T) (events : List ε) : Nat := ((since time cutoff events).map weight).sum

variable {time weight}

theorem load_append (events events' : List ε) :
    load time weight cutoff (events ++ events') = load time weight cutoff events + load time weight cutoff events' := by
  rw [load, since_append, List.map_append, List.sum_append]
  rfl

theorem load_singleton_le (e : ε) : load time weight cutoff [e] ≤ weight e := by
  simp only [load, since, List.filter_cons, List.filter_nil]
  split <;> simp

/-- The later the cutoff, the smaller the load. -/
theorem load_anti (h : cutoff' ≤ cutoff) : load time weight cutoff events ≤ load time weight cutoff' events :=
  ((since_sublist h).map weight).sum_le_sum fun _ _ => Nat.zero_le _

theorem load_cons (e : ε) (events : List ε) : load time weight cutoff (e :: events) =
    (if cutoff < time e then weight e else 0) + load time weight cutoff events := by
  by_cases h : cutoff < time e <;> simp [load, since, h]

/-- What was pruned does not count after a later cutoff. -/
theorem load_since (h : cutoff' ≤ cutoff) : load time weight cutoff (since time cutoff' events) =
    load time weight cutoff events := by
  rw [load, since_since, max_eq_left h, load]

/-- Two cutoffs give the same load exactly when what lies between them weighs nothing. -/
theorem load_eq_iff (h : cutoff' ≤ cutoff) : load time weight cutoff events = load time weight cutoff' events ↔
    ∀ e ∈ events, cutoff' < time e → time e ≤ cutoff → weight e = 0 := by
  induction events with
  | nil => exact iff_of_true rfl (by simp)
  | cons e events ih =>
    have hrest : load time weight cutoff events ≤ load time weight cutoff' events := load_anti h
    simp only [load_cons, List.forall_mem_cons]
    rw [← ih]
    by_cases hlate : cutoff < time e
    · have hlate' : cutoff' < time e := lt_of_le_of_lt h hlate
      have hnot : ¬time e ≤ cutoff := not_le.mpr hlate
      simp only [hlate, hlate', if_true, hnot, false_imp_iff, implies_true, true_and]
      omega
    · by_cases hmid : cutoff' < time e
      · simp only [hlate, hmid, if_true, if_false, not_lt.mp hlate, true_imp_iff]
        omega
      · simp only [hlate, hmid, if_false, false_imp_iff, true_and, Nat.zero_add]

end Imghost.Data.Window
