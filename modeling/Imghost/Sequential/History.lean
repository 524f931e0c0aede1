/-
  Imghost.Sequential.History — operations one after another.

  A `Turn` is one operation with nothing beside it, and what the environment does at its
  calls: time passes, calls fail. `worlds` are the states a list of turns goes through.
  A property that each turn keeps exactly when some condition on the state before it
  holds is kept by the whole list exactly when every turn meets that condition
  (`worlds_iff`).
-/

import Imghost.Service.Operations

namespace Imghost.Sequential

open Imghost.Async Imghost.Model Imghost.Service

structure Turn where
  op : Op
  moments : List (Moment PyExc)

namespace Turn

variable (rt : Runtime)

def result (t : Turn) (w : World) : Except PyExc OpResult := (runAlone backend (t.op.program rt) t.moments w).1
def after (t : Turn) (w : World) : World := (runAlone backend (t.op.program rt) t.moments w).2

/-- The operation returned. -/
def accepted (t : Turn) (w : World) : Bool := (t.result rt w).isOk

/-- The states before, between and after the turns. -/
def worlds : World → List Turn → List World
  | w, [] => [w]
  | w, t :: ts => w :: worlds (t.after rt w) ts

/-- Every turn satisfies `C` in the state it begins in. -/
def Each (C : Turn → World → Prop) : World → List Turn → Prop
  | _, [] => True
  | w, t :: ts => C t w ∧ Each C (t.after rt w) ts

instance decidableEach {C : Turn → World → Prop} [∀ t w, Decidable (C t w)] :
    (w : World) → (ts : List Turn) → Decidable (Each rt C w ts)
  | _, [] => inferInstanceAs (Decidable True)
  | w, t :: ts => @instDecidableAnd _ _ _ (decidableEach (t.after rt w) ts)

variable {rt} {t : Turn} {w : World}

/-- What is shown of the program alone holds of the turn. -/
theorem after_of_wp {Q : Except PyExc OpResult → World → Prop}
    (h : wp (backend.alone fun _ _ _ => True) Q (t.op.program rt) w) : Q (t.result rt w) (t.after rt w) :=
  wp_alone h t.moments (meetsAlone_true _ _ _)

theorem result_of_accepted (h : t.accepted rt w = true) : ∃ x, t.result rt w = .ok x := by
  unfold accepted at h
  cases hx : t.result rt w with
  | ok x => exact ⟨x, rfl⟩
  | error e => rw [hx] at h; cases h

/-- `P` holds throughout exactly when each turn meets the condition under which it keeps
    `P`; `I` holds throughout anyway. -/
theorem worlds_iff {I P : World → Prop} {D C : Turn → World → Prop}
    (hkeeps : ∀ t w, I w → P w → D t w → I (t.after rt w)) (hiff : ∀ t w, I w → P w → D t w → (P (t.after rt w) ↔ C t w))
    {w : World} {ts : List Turn} (hI : I w) (hD : Each rt D w ts) :
    (∀ w' ∈ worlds rt w ts, P w') ↔ P w ∧ Each rt C w ts := by
  induction ts generalizing w with
  | nil => simp [worlds, Each]
  | cons t ts ih =>
    rw [worlds, List.forall_mem_cons]
    refine and_congr_right fun hP => ?_
    rw [ih (hkeeps t w hI hP hD.1) hD.2, hiff t w hI hP hD.1]
    exact Iff.rfl

end Turn

end Imghost.Sequential
