/-
  Imghost.Async.Logic — assertions about coroutines.

  A `Machine` says which calls are allowed in a state and which replies and next
  states each of them can have. `wp M Q p s`: run from `s`, every call `p` makes is
  allowed, and `Q` holds of the result and the state it ends in. The same rules serve
  a world that only one coroutine changes (the state is the world) and a coroutine
  among others (the state is what it has seen and done itself, `Protocol`).
-/

import Imghost.Async.Program

namespace Imghost.Async

variable {Req : Type} {Reply : Req → Type} {Err α β S : Type}

structure Machine (Reply : Req → Type) (Err S : Type) where
  can : Req → S → Prop
  step : (r : Req) → S → Except Err (Reply r) → S → Prop

open Program

variable (M : Machine Reply Err S)

def wp (Q : Except Err α → S → Prop) : Program Reply Err α → S → Prop
  | .ret a, s => Q (.ok a) s
  | .raise e, s => Q (.error e) s
  | .call r k, s => M.can r s ∧ ∀ x s', M.step r s x s' → wp Q (k x) s'

/-- What is left to show of a program whose continuation is `f`. -/
def bindPost (Q : Except Err β → S → Prop) (f : α → Program Reply Err β) : Except Err α → S → Prop
  | .ok a, s => wp M Q (f a) s
  | .error e, s => Q (.error e) s

/-- What is left to show of the body of a `try` whose handler is `h`. -/
def tryPost (Q : Except Err α → S → Prop) (h : Err → Program Reply Err α) : Except Err α → S → Prop
  | .ok a, s => Q (.ok a) s
  | .error e, s => wp M Q (h e) s

variable {M} {Q Q' : Except Err α → S → Prop}

@[simp] theorem bindPost_ok {Q : Except Err β → S → Prop} (f : α → Program Reply Err β) (a : α) (s : S) :
    bindPost M Q f (.ok a) s = wp M Q (f a) s := rfl
@[simp] theorem bindPost_error {Q : Except Err β → S → Prop} (f : α → Program Reply Err β) (e : Err) (s : S) :
    bindPost M Q f (.error e) s = Q (.error e) s := rfl
@[simp] theorem tryPost_ok (h : Err → Program Reply Err α) (a : α) (s : S) :
    tryPost M Q h (.ok a) s = Q (.ok a) s := rfl
@[simp] theorem tryPost_error (h : Err → Program Reply Err α) (e : Err) (s : S) :
    tryPost M Q h (.error e) s = wp M Q (h e) s := rfl

@[simp] theorem wp_ret (a : α) (s : S) : wp M Q (.ret a) s ↔ Q (.ok a) s := Iff.rfl
@[simp] theorem wp_pure (a : α) (s : S) : wp M Q (pure a : Program Reply Err α) s ↔ Q (.ok a) s := Iff.rfl
@[simp] theorem wp_raise (e : Err) (s : S) : wp M Q (.raise e) s ↔ Q (.error e) s := Iff.rfl

theorem wp_mono (hQ : ∀ x s, Q x s → Q' x s) {p : Program Reply Err α} {s : S} (h : wp M Q p s) : wp M Q' p s := by
  induction p generalizing s with
  | ret a => exact hQ _ _ h
  | raise e => exact hQ _ _ h
  | call r k ih => exact ⟨h.1, fun x s' hs => ih x (h.2 x s' hs)⟩

theorem wp_bind_fun {Q : Except Err β → S → Prop} (p : Program Reply Err α) (f : α → Program Reply Err β) (s : S) :
    wp M Q (p.bind f) s ↔ wp M (bindPost M Q f) p s := by
  induction p generalizing s with
  | ret a => exact Iff.rfl
  | raise e => exact Iff.rfl
  | call r k ih =>
    constructor
    · exact fun h => ⟨h.1, fun x s' hs => (ih x s').mp (h.2 x s' hs)⟩
    · exact fun h => ⟨h.1, fun x s' hs => (ih x s').mpr (h.2 x s' hs)⟩

@[simp] theorem wp_bind {Q : Except Err β → S → Prop} (p : Program Reply Err α) (f : α → Program Reply Err β) (s : S) :
    wp M Q (p >>= f) s ↔ wp M (bindPost M Q f) p s := wp_bind_fun p f s

@[simp] theorem wp_tryExcept (p : Program Reply Err α) (h : Err → Program Reply Err α) (s : S) :
    wp M Q (p.tryExcept h) s ↔ wp M (tryPost M Q h) p s := by
  induction p generalizing s with
  | ret a => exact Iff.rfl
  | raise e => exact Iff.rfl
  | call r k ih =>
    constructor
    · exact fun h => ⟨h.1, fun x s' hs => (ih x s').mp (h.2 x s' hs)⟩
    · exact fun h => ⟨h.1, fun x s' hs => (ih x s').mpr (h.2 x s' hs)⟩

@[simp] theorem wp_ofExcept (x : Except Err α) (s : S) : wp M Q (ofExcept x : Program Reply Err α) s ↔ Q x s := by
  cases x <;> exact Iff.rfl

@[simp] theorem wp_raiseIf {Q : Except Err Unit → S → Prop} (c : Bool) (e : Err) (s : S) :
    wp M Q (raiseIf c e : Program Reply Err Unit) s ↔ (c = true → Q (.error e) s) ∧ (c = false → Q (.ok ()) s) := by
  cases c <;> simp [raiseIf]

@[simp] theorem wp_attempt {Q : Except Err (Except Err α) → S → Prop} (p : Program Reply Err α) (s : S) :
    wp M Q p.attempt s ↔ wp M (fun x s' => Q (.ok x) s') p s := by
  simp only [attempt, wp_tryExcept, wp_bind_fun]
  constructor <;> refine wp_mono fun x s' h => ?_ <;> cases x <;> exact h

@[simp] theorem wp_ite (c : Prop) [Decidable c] (p q : Program Reply Err α) (s : S) :
    wp M Q (if c then p else q) s ↔ (c → wp M Q p s) ∧ (¬c → wp M Q q s) := by
  by_cases h : c <;> simp [h]

@[simp] theorem wp_perform {r : Req} {Q : Except Err (Reply r) → S → Prop} (s : S) :
    wp M Q (perform r : Program Reply Err (Reply r)) s ↔ M.can r s ∧ ∀ x s', M.step r s x s' → Q x s' := by
  constructor
  · intro h
    refine ⟨h.1, fun x s' hs => ?_⟩
    have := h.2 x s' hs
    cases x <;> exact this
  · intro h
    refine ⟨h.1, fun x s' hs => ?_⟩
    have := h.2 x s' hs
    cases x <;> exact this

/-- A sequence: run the first program to an intermediate assertion, then the rest from it. -/
theorem wp_seq {R : Except Err α → S → Prop} {Q : Except Err β → S → Prop} {p : Program Reply Err α}
    {f : α → Program Reply Err β} {s : S} (hp : wp M R p s) (hok : ∀ a s', R (.ok a) s' → wp M Q (f a) s')
    (herr : ∀ e s', R (.error e) s' → Q (.error e) s') : wp M Q (p >>= f) s := by
  rw [wp_bind]
  refine wp_mono (fun x s' hx => ?_) hp
  cases x with
  | ok a => exact hok a s' hx
  | error e => exact herr e s' hx

/-- A handler that re-raises. -/
theorem wp_then_raise {Q : Except Err β → S → Prop} {p : Program Reply Err α} {e : Err} {s : S}
    (hp : wp M (fun _ _ => True) p s) (hQ : ∀ e s, Q (.error e) s) : wp M Q (p >>= fun _ => raise e) s :=
  wp_seq hp (fun _ s' _ => hQ e s') fun e s' _ => hQ e s'

theorem wp_check {Q : Except Err β → S → Prop} {c : Bool} {e : Err} {f : Unit → Program Reply Err β} {s : S}
    (hraise : c = true → Q (.error e) s) (hgo : c = false → wp M Q (f ()) s) :
    wp M Q ((raiseIf c e : Program Reply Err Unit) >>= f) s := by
  rw [wp_bind, wp_raiseIf]
  exact ⟨hraise, hgo⟩

theorem wp_value {Q : Except Err β → S → Prop} {x : Except Err α} {f : α → Program Reply Err β} {s : S}
    (hok : ∀ a, x = .ok a → wp M Q (f a) s) (herr : ∀ e, x = .error e → Q (.error e) s) :
    wp M Q ((ofExcept x : Program Reply Err α) >>= f) s := by
  rw [wp_bind, wp_ofExcept]
  cases x with
  | ok a => exact hok a rfl
  | error e => exact herr e rfl

theorem wp_and {p : Program Reply Err α} {s : S} (h : wp M Q p s) (h' : wp M Q' p s) :
    wp M (fun x s => Q x s ∧ Q' x s) p s := by
  induction p generalizing s with
  | ret a => exact ⟨h, h'⟩
  | raise e => exact ⟨h, h'⟩
  | call r k ih => exact ⟨h.1, fun x s' hs => ih x (h.2 x s' hs) (h'.2 x s' hs)⟩

/-- A program that only makes calls which keep `I` ends in a state of `I`. -/
theorem wp_of_uses {allowed : Req → Prop} {I : S → Prop}
    (hI : ∀ r s, allowed r → I s → M.can r s ∧ ∀ x s', M.step r s x s' → I s') {p : Program Reply Err α}
    (hp : p.Uses allowed) {s : S} (hs : I s) (hQ : ∀ x s', I s' → Q x s') : wp M Q p s := by
  induction p generalizing s with
  | ret a => exact hQ _ _ hs
  | raise e => exact hQ _ _ hs
  | call r k ih => exact ⟨(hI r s hp.1 hs).1, fun x s' h => ih x (hp.2 x) ((hI r s hp.1 hs).2 x s' h)⟩

/-- What is known of the values a program returns goes with what is known of its end. -/
theorem wp_of_yields {P : α → Prop} {p : Program Reply Err α} {s : S} (hp : p.Yields P) (h : wp M Q p s) :
    wp M (fun x s => Q x s ∧ ∀ a, x = .ok a → P a) p s := by
  induction p generalizing s with
  | ret a => exact ⟨h, fun b hb => Except.ok.inj hb ▸ hp⟩
  | raise e => exact ⟨h, fun b hb => nomatch hb⟩
  | call r k ih => exact ⟨h.1, fun x s' hs => ih x (hp x) (h.2 x s' hs)⟩

/-- The loop rule: `I xs` holds whenever `xs` are the items still to visit. -/
theorem wp_forEach {Q : Except Err Unit → S → Prop} {f : β → Program Reply Err Unit} {I : List β → S → Prop}
    (hbody : ∀ x xs s, I (x :: xs) s →
      wp M (fun y s' => match y with | .ok _ => I xs s' | .error e => Q (.error e) s') (f x) s)
    (hend : ∀ s, I [] s → Q (.ok ()) s) {xs : List β} {s : S} (hs : I xs s) : wp M Q (forEach xs f) s := by
  induction xs generalizing s with
  | nil => exact hend s hs
  | cons x xs ih =>
    simp only [forEach, wp_bind_fun]
    refine wp_mono (fun y s' hy => ?_) (hbody x xs s hs)
    cases y with
    | ok _ => exact ih hy
    | error e => exact hy

/-- The loop rule with an accumulator. -/
theorem wp_foldEach {f : α → β → Program Reply Err α} {I : List β → α → S → Prop}
    (hbody : ∀ x xs a s, I (x :: xs) a s →
      wp M (fun y s' => match y with | .ok a' => I xs a' s' | .error e => Q (.error e) s') (f a x) s)
    (hend : ∀ a s, I [] a s → Q (.ok a) s) {xs : List β} {a : α} {s : S} (hs : I xs a s) :
    wp M Q (foldEach xs a f) s := by
  induction xs generalizing a s with
  | nil => exact hend a s hs
  | cons x xs ih =>
    simp only [foldEach, wp_bind_fun]
    refine wp_mono (fun y s' hy => ?_) (hbody x xs a s hs)
    cases y with
    | ok a' => exact ih hy
    | error e => exact hy

end Imghost.Async
