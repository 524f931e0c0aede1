/-
  Imghost.Async.Moments — a program by itself, call by call.

  The moments of a run alone are the environment's part in it: the n-th one says what
  happens at the n-th call. With these equations a run is followed one call after the
  other, so "the write fails" is a statement about the moment of the write.
  `Backend.traced` keeps the calls with their answers beside the state, for what a run
  leaves of what it has done (`wp_traced`).
-/

import Imghost.Async.Pool

namespace Imghost.Async

open Program

variable {Req : Type} {Reply : Req → Type} {Err α β σ : Type}

/-- The fault at the n-th call from here. -/
def faultAt (ms : List (Moment Err)) (n : Nat) : Option Err := (ms.getD n .quiet).fault

variable {ms : List (Moment Err)}

theorem faultAt_zero : (ms.headD .quiet).fault = faultAt ms 0 := by
  cases ms <;> rfl

@[simp] theorem faultAt_tail (n : Nat) : faultAt ms.tail n = faultAt ms (n + 1) := by
  cases ms with
  | nil => rfl
  | cons m ms => rfl

@[simp] theorem faultAt_nil (n : Nat) : faultAt ([] : List (Moment Err)) n = none := by
  simp [faultAt, Moment.quiet]

/-! ## Sequences -/

theorem sequence_assoc {γ : Type} (p : Program Reply Err α) (f : α → Program Reply Err β)
    (g : β → Program Reply Err γ) : p >>= f >>= g = p >>= fun a => f a >>= g := by
  induction p with
  | ret a => rfl
  | raise e => rfl
  | call r k ih =>
    show call r _ = call r _
    congr
    funext x
    exact ih x

theorem sequence_pure (a : α) (f : α → Program Reply Err β) : (pure a : Program Reply Err α) >>= f = f a := rfl

variable {B : Backend Reply Err σ}

@[simp] theorem runAlone_pure (a : α) (s : σ) : runAlone B (pure a : Program Reply Err α) ms s = (.ok a, s) := rfl

/-- One call, and the run of what follows it. -/
theorem runAlone_await (r : Req) (f : Reply r → Program Reply Err β) (ms : List (Moment Err)) (s : σ) :
    runAlone B (perform r >>= f) ms s =
      match B.answer 0 r (faultAt ms 0) (B.elapse (ms.headD .quiet).elapsed s) with
      | (.ok a, s') => runAlone B (f a) ms.tail s'
      | (.error e, s') => (.error e, s') := by
  rw [← faultAt_zero]
  simp only [perform, bind_eq, Program.bind, runAlone]
  rcases B.answer 0 r (ms.headD .quiet).fault (B.elapse (ms.headD .quiet).elapsed s) with ⟨_ | a, s'⟩ <;> rfl

/-- One call whose exception is caught. -/
theorem runAlone_attempt (r : Req) (f : Except Err (Reply r) → Program Reply Err β) (ms : List (Moment Err)) (s : σ) :
    runAlone B (attempt (perform r) >>= f) ms s =
      runAlone B (f (B.answer 0 r (faultAt ms 0) (B.elapse (ms.headD .quiet).elapsed s)).1) ms.tail
        (B.answer 0 r (faultAt ms 0) (B.elapse (ms.headD .quiet).elapsed s)).2 := by
  rw [← faultAt_zero]
  simp only [attempt, perform, bind_eq, Program.bind, Program.tryExcept, runAlone]
  rcases B.answer 0 r (ms.headD .quiet).fault (B.elapse (ms.headD .quiet).elapsed s) with ⟨_ | a, s'⟩ <;> rfl

theorem runAlone_value (x : Except Err α) (f : α → Program Reply Err β) (s : σ) :
    runAlone B ((ofExcept x : Program Reply Err α) >>= f) ms s =
      match x with
      | .ok a => runAlone B (f a) ms s
      | .error e => (.error e, s) := by
  cases x <;> rfl

theorem runAlone_check (c : Bool) (e : Err) (f : Unit → Program Reply Err β) (s : σ) :
    runAlone B ((raiseIf c e : Program Reply Err Unit) >>= f) ms s =
      if c then (.error e, s) else runAlone B (f ()) ms s := by
  cases c <;> rfl

/-! ## What a run did -/

variable (B) in
/-- The calls of a run alone, with their answers. -/
def traceAlone : Program Reply Err α → List (Moment Err) → σ → List (Event Reply Err)
  | .ret _, _, _ => []
  | .raise _, _, _ => []
  | .call r k, ms, s =>
    let m := ms.headD .quiet
    let a := B.answer 0 r m.fault (B.elapse m.elapsed s)
    ⟨r, a.1, m.fault.isSome⟩ :: traceAlone (k a.1) ms.tail a.2

variable (B) in
/-- The state and the calls so far, changed by one program whose calls all satisfy `C`. -/
def Backend.traced (C : Req → Option Err → σ → Prop) : Machine Reply Err (σ × List (Event Reply Err)) where
  can _ _ := True
  step r s x s' := ∃ d fault, C r fault (B.elapse d s.1) ∧ B.answer 0 r fault (B.elapse d s.1) = (x, s'.1) ∧
    s'.2 = s.2 ++ [⟨r, x, fault.isSome⟩]

variable {C : Req → Option Err → σ → Prop}

theorem wp_traced {Q : Except Err α → σ × List (Event Reply Err) → Prop} {p : Program Reply Err α} {s : σ}
    {log : List (Event Reply Err)} (h : wp (B.traced C) Q p (s, log)) (ms : List (Moment Err)) (hC : MeetsAlone B C p ms s) :
    Q (runAlone B p ms s).1 ((runAlone B p ms s).2, log ++ traceAlone B p ms s) := by
  induction p generalizing s log ms with
  | ret a =>
    rw [traceAlone, List.append_nil]
    exact h
  | raise e =>
    rw [traceAlone, List.append_nil]
    exact h
  | call r k ih =>
    obtain ⟨hr, hrest⟩ := hC
    rw [traceAlone, List.append_cons]
    exact ih _ (h.2 _ (_, _) ⟨_, _, hr, rfl, rfl⟩) _ hrest

/-- One call, what is known of its answer, and what follows it. -/
theorem wp_traced_perform {r : Req} {Q : Except Err (Reply r) → σ × List (Event Reply Err) → Prop} {s : σ}
    {log : List (Event Reply Err)}
    (h : ∀ d fault, C r fault (B.elapse d s) → Q (B.answer 0 r fault (B.elapse d s)).1
      ((B.answer 0 r fault (B.elapse d s)).2, log ++ [⟨r, (B.answer 0 r fault (B.elapse d s)).1, fault.isSome⟩])) :
    wp (B.traced C) Q (perform r : Program Reply Err (Reply r)) (s, log) := by
  refine (wp_perform _).mpr ⟨trivial, ?_⟩
  rintro x ⟨s', log'⟩ ⟨d, fault, hC, hanswer, hlog⟩
  have hnow := h d fault hC
  rw [hanswer] at hnow
  dsimp only at hlog
  rwa [hlog]

end Imghost.Async
