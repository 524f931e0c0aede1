/-
  Imghost.Async.Program — coroutines as trees of awaited calls.

  A coroutine runs without interruption between two `await`s. `Program` keeps just
  that: it returns, raises, or awaits one request and continues with the reply, which
  is a value or an exception. `try … except` is `tryExcept`; a `for` loop over a list
  is `forEach`. What a request does, and what happens between two awaits, is said
  elsewhere (`Imghost.Async.Logic`, `Imghost.Async.Pool`).

  `Uses` bounds the requests a program can make, `Yields` the values it can return,
  whatever it is answered.
-/

namespace Imghost.Async

inductive Program {Req : Type} (Reply : Req → Type) (Err α : Type) : Type where
  | ret (a : α)
  | raise (e : Err)
  | call (r : Req) (k : Except Err (Reply r) → Program Reply Err α)

variable {Req : Type} {Reply : Req → Type} {Err α β γ : Type}

namespace Program

def bind : Program Reply Err α → (α → Program Reply Err β) → Program Reply Err β
  | ret a, f => f a
  | raise e, _ => raise e
  | call r k, f => call r fun x => (k x).bind f

instance : Monad (Program Reply Err) where
  pure := ret
  bind := bind

/-- `await r`: an exception of the call is raised in the caller. -/
def perform (r : Req) : Program Reply Err (Reply r) :=
  call r fun
    | .ok a => ret a
    | .error e => raise e

/-- `try: p except Exception as e: h e`. -/
def tryExcept : Program Reply Err α → (Err → Program Reply Err α) → Program Reply Err α
  | ret a, _ => ret a
  | raise e, h => h e
  | call r k, h => call r fun x => (k x).tryExcept h

/-- The value of a plain call that may raise. -/
def ofExcept : Except Err α → Program Reply Err α
  | .ok a => ret a
  | .error e => raise e

/-- `if c: raise e`. -/
def raiseIf (c : Bool) (e : Err) : Program Reply Err Unit := if c then raise e else ret ()

/-- The result of `p`, an exception included. -/
def attempt (p : Program Reply Err α) : Program Reply Err (Except Err α) :=
  (p.bind fun a => ret (.ok a)).tryExcept fun e => ret (.error e)

/-- `for x in xs: await f(x)`. -/
def forEach : List β → (β → Program Reply Err Unit) → Program Reply Err Unit
  | [], _ => ret ()
  | x :: xs, f => (f x).bind fun _ => forEach xs f

/-- `for x in xs: acc = await f(acc, x)`. -/
def foldEach : List β → α → (α → β → Program Reply Err α) → Program Reply Err α
  | [], a, _ => ret a
  | x :: xs, a, f => (f a x).bind fun a' => foldEach xs a' f

theorem bind_eq (p : Program Reply Err α) (f : α → Program Reply Err β) : p >>= f = p.bind f := rfl

/-! ## Finished programs -/

/-- What a finished program ended with; `none` while it still awaits a call. -/
def outcome : Program Reply Err α → Option (Except Err α)
  | ret a => some (.ok a)
  | raise e => some (.error e)
  | call _ _ => none

def finished (p : Program Reply Err α) : Bool := p.outcome.isSome

/-- The value of a program that returned. -/
def value (p : Program Reply Err α) : Option α :=
  match p.outcome with
  | some (.ok a) => some a
  | _ => none

theorem outcome_of_value {p : Program Reply Err α} (h : p.value.isSome = true) : ∃ a, p.outcome = some (.ok a) := by
  cases p with
  | ret a => exact ⟨a, rfl⟩
  | raise e => cases h
  | call r k => cases h

/-! ## The requests a program can make -/

variable (allowed : Req → Prop)

def Uses : Program Reply Err α → Prop
  | ret _ => True
  | raise _ => True
  | call r k => allowed r ∧ ∀ x, (k x).Uses

variable {allowed}

theorem uses_bind {p : Program Reply Err α} {f : α → Program Reply Err β} (hp : p.Uses allowed)
    (hf : ∀ a, (f a).Uses allowed) : (p.bind f).Uses allowed := by
  induction p with
  | ret a => exact hf a
  | raise e => trivial
  | call r k ih => exact ⟨hp.1, fun x => ih x (hp.2 x)⟩

theorem uses_tryExcept {p : Program Reply Err α} {h : Err → Program Reply Err α} (hp : p.Uses allowed)
    (hh : ∀ e, (h e).Uses allowed) : (p.tryExcept h).Uses allowed := by
  induction p with
  | ret a => trivial
  | raise e => exact hh e
  | call r k ih => exact ⟨hp.1, fun x => ih x (hp.2 x)⟩

theorem uses_perform {r : Req} (hr : allowed r) : (perform r : Program Reply Err (Reply r)).Uses allowed :=
  ⟨hr, fun x => by cases x <;> trivial⟩

theorem uses_ofExcept (x : Except Err α) : (ofExcept x : Program Reply Err α).Uses allowed := by cases x <;> trivial

theorem uses_value {x : Except Err α} {f : α → Program Reply Err β} (hf : ∀ a, x = .ok a → (f a).Uses allowed) :
    ((ofExcept x).bind f).Uses allowed := by
  cases x with
  | ok a => exact hf a rfl
  | error e => trivial

theorem uses_raiseIf (c : Bool) (e : Err) : (raiseIf c e : Program Reply Err Unit).Uses allowed := by cases c <;> trivial

theorem uses_attempt {p : Program Reply Err α} (hp : p.Uses allowed) : p.attempt.Uses allowed :=
  uses_tryExcept (uses_bind hp fun _ => trivial) fun _ => trivial

theorem uses_forEach {xs : List β} {f : β → Program Reply Err Unit} (hf : ∀ x ∈ xs, (f x).Uses allowed) :
    (forEach xs f).Uses allowed := by
  induction xs with
  | nil => trivial
  | cons x xs ih =>
    exact uses_bind (hf x List.mem_cons_self) fun _ => ih fun y hy => hf y (List.mem_cons_of_mem x hy)

theorem uses_foldEach {xs : List β} {f : α → β → Program Reply Err α}
    (hf : ∀ a, ∀ x ∈ xs, (f a x).Uses allowed) (a : α) : (foldEach xs a f).Uses allowed := by
  induction xs generalizing a with
  | nil => trivial
  | cons x xs ih =>
    exact uses_bind (hf a x List.mem_cons_self) fun a' =>
      ih (fun b y hy => hf b y (List.mem_cons_of_mem x hy)) a'

theorem Uses.mono {allowed' : Req → Prop} {p : Program Reply Err α} (h : ∀ r, allowed r → allowed' r)
    (hp : p.Uses allowed) : p.Uses allowed' := by
  induction p with
  | ret a => trivial
  | raise e => trivial
  | call r k ih => exact ⟨h r hp.1, fun x => ih x (hp.2 x)⟩

/-! ## More requests -/

/-- A program whose requests are some of a larger type. -/
def widen {Req' : Type} {Reply' : Req' → Type} : Program Reply Err α → Program (Sum.elim Reply Reply') Err α
  | ret a => ret a
  | raise e => raise e
  | call r k => call (.inl r) fun x => (k x).widen

theorem uses_widen {Req' : Type} {Reply' : Req' → Type} {allowed : Req ⊕ Req' → Prop} {p : Program Reply Err α}
    (h : p.Uses fun r => allowed (.inl r)) : (p.widen : Program (Sum.elim Reply Reply') Err α).Uses allowed := by
  induction p with
  | ret a => trivial
  | raise e => trivial
  | call r k ih => exact ⟨h.1, fun x => ih x (h.2 x)⟩

/-! ## The values a program can return -/

def Yields (P : α → Prop) : Program Reply Err α → Prop
  | ret a => P a
  | raise _ => True
  | call _ k => ∀ x, (k x).Yields P

theorem yields_of_forall {P : α → Prop} (h : ∀ a, P a) (p : Program Reply Err α) : p.Yields P := by
  induction p with
  | ret a => exact h a
  | raise e => trivial
  | call r k ih => exact ih

theorem yields_bind {P : α → Prop} {Q : β → Prop} {p : Program Reply Err α} {f : α → Program Reply Err β}
    (hp : p.Yields P) (hf : ∀ a, P a → (f a).Yields Q) : (p.bind f).Yields Q := by
  induction p with
  | ret a => exact hf a hp
  | raise e => trivial
  | call r k ih => exact fun x => ih x (hp x)

/-- A call whose reply does not matter. -/
theorem yields_then {Q : β → Prop} {p : Program Reply Err α} {f : α → Program Reply Err β}
    (hf : ∀ a, (f a).Yields Q) : (p.bind f).Yields Q :=
  yields_bind (yields_of_forall (fun _ => trivial) p) fun a (_ : True) => hf a

theorem yields_ofExcept {P : α → Prop} {x : Except Err α} (h : ∀ a, x = .ok a → P a) :
    (ofExcept x : Program Reply Err α).Yields P := by
  cases x with
  | ok a => exact h a rfl
  | error e => trivial

theorem yields_widen {Req' : Type} {Reply' : Req' → Type} {P : α → Prop} {p : Program Reply Err α} (hp : p.Yields P) :
    (p.widen : Program (Sum.elim Reply Reply') Err α).Yields P := by
  induction p with
  | ret a => exact hp
  | raise e => trivial
  | call r k ih => exact fun x => ih x (hp x)

theorem uses_any (p : Program Reply Err α) : p.Uses fun _ => True := by
  induction p with
  | ret a => trivial
  | raise e => trivial
  | call r k ih => exact ⟨trivial, ih⟩

/-- What follows a program need only be looked at for the values it can return. -/
theorem uses_bind_yields {allowed : Req → Prop} {P : α → Prop} {p : Program Reply Err α} {f : α → Program Reply Err β}
    (hp : p.Uses allowed) (hP : p.Yields P) (hf : ∀ a, P a → (f a).Uses allowed) : (p.bind f).Uses allowed := by
  induction p with
  | ret a => exact hf a hP
  | raise e => trivial
  | call r k ih => exact ⟨hp.1, fun x => ih x (hp.2 x) (hP x)⟩

end Program

end Imghost.Async
