/-
  Imghost.Async.Watched — a program by itself in an environment with a memory.

  `Backend.traced` restricts what the environment does at a call by the call and the state;
  here the restriction may also look at the calls before it and what they were answered.
  `Obeys ok log calls`: after `log`, each of the `calls` is one the restriction allows.
-/

import Imghost.Async.Moments

namespace Imghost.Async

open Program

variable {Req : Type} {Reply : Req → Type} {Err α σ : Type}
variable {ok : List (Event Reply Err) → Event Reply Err → Prop}

def Obeys (ok : List (Event Reply Err) → Event Reply Err → Prop) :
    List (Event Reply Err) → List (Event Reply Err) → Prop
  | _, [] => True
  | log, e :: calls => ok log e ∧ Obeys ok (log ++ [e]) calls

instance decidableObeys [∀ log e, Decidable (ok log e)] : (log calls : List (Event Reply Err)) →
    Decidable (Obeys ok log calls)
  | _, [] => isTrue trivial
  | log, e :: calls => by
    have := decidableObeys (log ++ [e]) calls
    exact inferInstanceAs (Decidable (ok log e ∧ Obeys ok (log ++ [e]) calls))

variable {B : Backend Reply Err σ}

variable (B ok) in
/-- The state and the calls so far, changed by one program in such an environment. -/
def Backend.watched : Machine Reply Err (σ × List (Event Reply Err)) where
  can _ _ := True
  step r s x s' := ∃ d fault, B.answer 0 r fault (B.elapse d s.1) = (x, s'.1) ∧
    s'.2 = s.2 ++ [⟨r, x, fault.isSome⟩] ∧ ok s.2 ⟨r, x, fault.isSome⟩

theorem wp_watched {Q : Except Err α → σ × List (Event Reply Err) → Prop} {p : Program Reply Err α} {s : σ}
    {log : List (Event Reply Err)} (h : wp (B.watched ok) Q p (s, log)) (ms : List (Moment Err))
    (hobeys : Obeys ok log (traceAlone B p ms s)) :
    Q (runAlone B p ms s).1 ((runAlone B p ms s).2, log ++ traceAlone B p ms s) := by
  induction p generalizing s log ms with
  | ret a =>
    rw [traceAlone, List.append_nil]
    exact h
  | raise e =>
    rw [traceAlone, List.append_nil]
    exact h
  | call r k ih =>
    rw [traceAlone] at hobeys ⊢
    obtain ⟨hnow, hrest⟩ := hobeys
    rw [List.append_cons]
    exact ih _ (h.2 _ (_, _) ⟨_, _, rfl, rfl, hnow⟩) _ hrest

/-- One call, what is known of its answer, and what follows it. -/
theorem wp_watched_perform {r : Req} {Q : Except Err (Reply r) → σ × List (Event Reply Err) → Prop} {s : σ}
    {log : List (Event Reply Err)}
    (h : ∀ d fault, ok log ⟨r, (B.answer 0 r fault (B.elapse d s)).1, fault.isSome⟩ →
      Q (B.answer 0 r fault (B.elapse d s)).1
        ((B.answer 0 r fault (B.elapse d s)).2, log ++ [⟨r, (B.answer 0 r fault (B.elapse d s)).1, fault.isSome⟩])) :
    wp (B.watched ok) Q (perform r : Program Reply Err (Reply r)) (s, log) := by
  refine (wp_perform _).mpr ⟨trivial, ?_⟩
  rintro x ⟨s', log'⟩ ⟨d, fault, hanswer, hlog, hok⟩
  have hnow := h d fault
  rw [hanswer] at hnow
  dsimp only at hlog hok
  rw [hlog]
  exact hnow hok

end Imghost.Async
