/-
  Imghost.Data.Events — machines that take one event after the other.

  A machine is a total step function: an event that is not enabled changes nothing. A list
  of events is a run, so "for every interleaving" is "for every list of events".
-/

import Mathlib.Data.List.Basic

namespace Imghost.Data

variable {σ ε : Type} (step : σ → ε → σ)

def runEvents (s : σ) (es : List ε) : σ := es.foldl step s

/-- Every event satisfies `C` in the state it is taken in. -/
def Along (C : σ → ε → Prop) : σ → List ε → Prop
  | _, [] => True
  | s, e :: es => C s e ∧ Along C (step s e) es

variable {step} {C C' : σ → ε → Prop} {s : σ} {es es' : List ε} {e : ε}

@[simp] theorem runEvents_nil : runEvents step s [] = s := rfl
@[simp] theorem runEvents_cons : runEvents step s (e :: es) = runEvents step (step s e) es := rfl

theorem runEvents_append : runEvents step s (es ++ es') = runEvents step (runEvents step s es) es' := List.foldl_append

theorem runEvents_snoc : runEvents step s (es ++ [e]) = step (runEvents step s es) e := runEvents_append

theorem along_append : Along step C s (es ++ es') ↔ Along step C s es ∧ Along step C (runEvents step s es) es' := by
  induction es generalizing s with
  | nil => simp only [List.nil_append, Along, runEvents_nil, true_and]
  | cons e es ih => rw [List.cons_append, Along, Along, ih, runEvents_cons, and_assoc]

theorem Along.and (h : Along step C s es) (h' : Along step C' s es) : Along step (fun s e => C s e ∧ C' s e) s es := by
  induction es generalizing s with
  | nil => trivial
  | cons e es ih => exact ⟨⟨h.1, h'.1⟩, ih h.2 h'.2⟩

theorem along_true : Along step (fun _ _ => True) s es := by
  induction es generalizing s with
  | nil => trivial
  | cons e es ih => exact ⟨trivial, ih⟩

theorem along_of_forall (h : ∀ e ∈ es, ∀ s, C s e) : Along step C s es := by
  induction es generalizing s with
  | nil => trivial
  | cons e es ih => exact ⟨h e List.mem_cons_self s, ih fun e' he' => h e' (List.mem_cons_of_mem e he')⟩

instance decidableAlong [∀ s e, Decidable (C s e)] : (s : σ) → (es : List ε) → Decidable (Along step C s es)
  | _, [] => inferInstanceAs (Decidable True)
  | s, e :: es => @instDecidableAnd _ _ inferInstance (decidableAlong (step s e) es)

/-- What every event that satisfies `C` keeps, every run of such events keeps. -/
theorem runEvents_invariant {I : σ → Prop} (hstep : ∀ s e, I s → C s e → I (step s e)) (hs : I s)
    (hes : Along step C s es) : I (runEvents step s es) := by
  induction es generalizing s with
  | nil => exact hs
  | cons e es ih => exact ih (hstep s e hs hes.1) hes.2

/-- Where an element stands in a list that has grown by one. -/
theorem split_snoc {α : Type} {xs before after : List α} {x y : α} (h : xs ++ [x] = before ++ y :: after) :
    (before = xs ∧ y = x ∧ after = []) ∨ ∃ after', after = after' ++ [x] ∧ xs = before ++ y :: after' := by
  rcases List.eq_nil_or_concat after with rfl | ⟨after', z, rfl⟩
  · obtain ⟨hbefore, hx⟩ := List.append_inj' h rfl
    exact .inl ⟨hbefore.symm, (List.singleton_inj.mp hx).symm, rfl⟩
  · rw [List.concat_eq_append, ← List.cons_append, ← List.append_assoc] at h
    obtain ⟨hbefore, hx⟩ := List.append_inj' h rfl
    obtain rfl := List.singleton_inj.mp hx
    exact .inr ⟨after', List.concat_eq_append, hbefore⟩

end Imghost.Data
