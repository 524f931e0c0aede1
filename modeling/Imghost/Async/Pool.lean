/-
  Imghost.Async.Pool — many coroutines over one world.

  A `Backend` says what an awaited call does to the world: `exec` when it succeeds,
  `fail` when the environment makes it raise, `blocked` while it has to wait for
  another task, `elapse` when time passes between two calls. A `Pool` is a world and
  the tasks running over it; a schedule (a list of `Choice`s) is one interleaving of
  their calls, so "for every interleaving" is "for every schedule". Each task keeps
  the log of its own calls and replies: what it has seen and done so far.

  - `runAlone`: one program with nothing else running.
  - `run_invariant`: an invariant of every call a schedule makes holds at its end.
  - `Protocol` / `Follows`: what a task's program can ask next, given its log.
-/

import Imghost.Async.Logic

namespace Imghost.Async

variable {Req : Type} {Reply : Req → Type} {Err α σ Γ : Type}

/-- A call a task made, and the answer it got; `injected` when the environment made it
    raise. -/
structure Event (Reply : Req → Type) (Err : Type) where
  req : Req
  reply : Except Err (Reply req)
  injected : Bool

/-- The call as one of a larger type of requests. -/
def Event.widen {Req' : Type} {Reply' : Req' → Type} (e : Event Reply Err) : Event (Sum.elim Reply Reply') Err :=
  ⟨.inl e.req, e.reply, e.injected⟩

structure Backend (Reply : Req → Type) (Err σ : Type) where
  exec : Nat → (r : Req) → σ → Except Err (Reply r) × σ
  fail : Nat → (r : Req) → Err → σ → Except Err (Reply r) × σ
  blocked : Nat → Req → σ → Bool
  elapse : Nat → σ → σ

namespace Backend

variable (B : Backend Reply Err σ)

/-- The answer to task `i`'s call `r`, with the fault the environment chose, if any. -/
def answer (i : Nat) (r : Req) (fault : Option Err) (s : σ) : Except Err (Reply r) × σ :=
  match fault with
  | none => B.exec i r s
  | some e => B.fail i r e s

@[simp] theorem answer_none (i : Nat) (r : Req) (s : σ) : B.answer i r none s = B.exec i r s := rfl
@[simp] theorem answer_some (i : Nat) (r : Req) (e : Err) (s : σ) : B.answer i r (some e) s = B.fail i r e s := rfl

/-- A backend for two kinds of requests over one state. -/
def extend {Req' : Type} {Reply' : Req' → Type} (B' : Backend Reply' Err σ) : Backend (Sum.elim Reply Reply') Err σ where
  exec i r s :=
    match r with
    | .inl r => B.exec i r s
    | .inr r => B'.exec i r s
  fail i r e s :=
    match r with
    | .inl r => B.fail i r e s
    | .inr r => B'.fail i r e s
  blocked i r s :=
    match r with
    | .inl r => B.blocked i r s
    | .inr r => B'.blocked i r s
  elapse := B.elapse

theorem answer_extend_inl {Req' : Type} {Reply' : Req' → Type} (B' : Backend Reply' Err σ) (i : Nat) (r : Req)
    (fault : Option Err) (s : σ) : (B.extend B').answer i (.inl r) fault s = B.answer i r fault s := by
  cases fault <;> rfl

/-- A backend over a part of a larger state; `put` also brings about what depends on the part. -/
def lift {τ : Type} (get : τ → σ) (put : σ → τ → τ) : Backend Reply Err τ where
  exec i r s := ((B.exec i r (get s)).1, put (B.exec i r (get s)).2 s)
  fail i r e s := ((B.fail i r e (get s)).1, put (B.fail i r e (get s)).2 s)
  blocked i r s := B.blocked i r (get s)
  elapse d s := put (B.elapse d (get s)) s

end Backend

/-! ## One program alone -/

/-- What the environment does at one call: time passes, then the call fails or not. -/
structure Moment (Err : Type) where
  elapsed : Nat
  fault : Option Err

def Moment.quiet : Moment Err := ⟨0, none⟩

variable (B : Backend Reply Err σ)

/-- Run a program with nothing else running; after the listed moments nothing happens
    any more. -/
def runAlone : Program Reply Err α → List (Moment Err) → σ → Except Err α × σ
  | .ret a, _, s => (.ok a, s)
  | .raise e, _, s => (.error e, s)
  | .call r k, ms, s =>
    let m := ms.headD .quiet
    let a := B.answer 0 r m.fault (B.elapse m.elapsed s)
    runAlone (k a.1) ms.tail a.2

section

variable {B} {β : Type}

/-- With nothing happening at any call, a sequence is one run after the other. -/
theorem runAlone_bind (p : Program Reply Err α) (f : α → Program Reply Err β) (s : σ) :
    runAlone B (p >>= f) [] s =
      match runAlone B p [] s with
      | (.ok a, s') => runAlone B (f a) [] s'
      | (.error e, s') => (.error e, s') := by
  induction p generalizing s with
  | ret a => rfl
  | raise e => rfl
  | call r k ih => exact ih _ _

theorem runAlone_tryExcept (p : Program Reply Err α) (h : Err → Program Reply Err α) (s : σ) :
    runAlone B (p.tryExcept h) [] s =
      match runAlone B p [] s with
      | (.ok a, s') => (.ok a, s')
      | (.error e, s') => runAlone B (h e) [] s' := by
  induction p generalizing s with
  | ret a => rfl
  | raise e => rfl
  | call r k ih => exact ih _ _

theorem runAlone_perform (r : Req) (s : σ) :
    runAlone B (Program.perform r : Program Reply Err (Reply r)) [] s = B.exec 0 r (B.elapse 0 s) := by
  simp only [Program.perform, runAlone, List.headD_nil, Moment.quiet, Backend.answer_none]
  rcases B.exec 0 r (B.elapse 0 s) with ⟨e | a, s'⟩ <;> rfl

end

variable (C : Req → Option Err → σ → Prop)

/-- Every call of the run satisfies `C`. -/
def MeetsAlone : Program Reply Err α → List (Moment Err) → σ → Prop
  | .ret _, _, _ => True
  | .raise _, _, _ => True
  | .call r k, ms, s =>
    let m := ms.headD .quiet
    let s' := B.elapse m.elapsed s
    let a := B.answer 0 r m.fault s'
    C r m.fault s' ∧ MeetsAlone (k a.1) ms.tail a.2

/-- The world as the state, changed by one program whose calls all satisfy `C`. -/
def Backend.alone : Machine Reply Err σ where
  can _ _ := True
  step r s x s' := ∃ d fault, C r fault (B.elapse d s) ∧ B.answer 0 r fault (B.elapse d s) = (x, s')

variable {B C}

/-- The assertions proved of a program hold of each of its runs. -/
theorem wp_alone {Q : Except Err α → σ → Prop} {p : Program Reply Err α} {s : σ} (h : wp (B.alone C) Q p s)
    (ms : List (Moment Err)) (hC : MeetsAlone B C p ms s) :
    Q (runAlone B p ms s).1 (runAlone B p ms s).2 := by
  induction p generalizing s ms with
  | ret a => exact h
  | raise e => exact h
  | call r k ih =>
    obtain ⟨hr, hrest⟩ := hC
    exact ih _ (h.2 _ _ ⟨_, _, hr, rfl⟩) _ hrest

/-- One call of a program alone, and what follows it. -/
theorem wp_alone_await {β : Type} {r : Req} {f : Reply r → Program Reply Err β} {Q : Except Err β → σ → Prop} {s : σ}
    (hok : ∀ d fault a, C r fault (B.elapse d s) → (B.answer 0 r fault (B.elapse d s)).1 = .ok a →
      wp (B.alone C) Q (f a) (B.answer 0 r fault (B.elapse d s)).2)
    (herr : ∀ d fault e, C r fault (B.elapse d s) → (B.answer 0 r fault (B.elapse d s)).1 = .error e →
      Q (.error e) (B.answer 0 r fault (B.elapse d s)).2) : wp (B.alone C) Q (Program.perform r >>= f) s := by
  rw [wp_bind, wp_perform]
  refine ⟨trivial, fun x s' h => ?_⟩
  obtain ⟨d, fault, hC, h⟩ := h
  have hx : (B.answer 0 r fault (B.elapse d s)).1 = x := congrArg Prod.fst h
  have hs : (B.answer 0 r fault (B.elapse d s)).2 = s' := congrArg Prod.snd h
  subst hs
  cases x with
  | ok a => exact hok d fault a hC hx
  | error e => exact herr d fault e hC hx

/-- A program over a part of the requests, by itself. -/
theorem wp_alone_widen {Req' : Type} {Reply' : Req' → Type} {B' : Backend Reply' Err σ} {C : Req ⊕ Req' → Option Err → σ → Prop}
    {Q : Except Err α → σ → Prop} {p : Program Reply Err α} {s : σ}
    (h : wp (B.alone fun r fault s => C (.inl r) fault s) Q p s) : wp ((B.extend B').alone C) Q p.widen s := by
  induction p generalizing s with
  | ret a => exact h
  | raise e => exact h
  | call r k ih =>
    refine ⟨trivial, fun x s' hstep => ih x (h.2 x s' ?_)⟩
    obtain ⟨d, fault, hC, hanswer⟩ := hstep
    rw [Backend.answer_extend_inl] at hanswer
    exact ⟨d, fault, hC, hanswer⟩

/-- A call fails only where one of the moments says so. -/
theorem meetsAlone_faults (p : Program Reply Err α) (ms : List (Moment Err)) (s : σ) :
    MeetsAlone B (fun _ fault _ => fault.isSome = true → ∃ m ∈ ms, m.fault.isSome = true) p ms s := by
  suffices h : ∀ ms', (∀ m ∈ ms', m ∈ ms) →
      MeetsAlone B (fun _ fault _ => fault.isSome = true → ∃ m ∈ ms, m.fault.isSome = true) p ms' s from h ms fun _ h => h
  induction p generalizing s with
  | ret a => exact fun _ _ => trivial
  | raise e => exact fun _ _ => trivial
  | call r k ih =>
    intro ms' hms
    refine ⟨fun hfault => ?_, ih _ _ ms'.tail fun m hm => hms m (List.mem_of_mem_tail hm)⟩
    cases ms' with
    | nil => cases hfault
    | cons m rest => exact ⟨m, hms m List.mem_cons_self, hfault⟩

/-- Where no moment brings a fault, no call is made to fail. -/
theorem meetsAlone_unfailing {ms : List (Moment Err)} (hms : ∀ m ∈ ms, m.fault = none) (p : Program Reply Err α) (s : σ) :
    MeetsAlone B (fun _ fault _ => fault = none) p ms s := by
  induction p generalizing s ms with
  | ret a => trivial
  | raise e => trivial
  | call r k ih =>
    refine ⟨?_, ih _ (fun m hm => hms m (List.mem_of_mem_tail hm)) _⟩
    cases ms with
    | nil => rfl
    | cons m ms => exact hms m List.mem_cons_self

theorem meetsAlone_true (p : Program Reply Err α) (ms : List (Moment Err)) (s : σ) :
    MeetsAlone B (fun _ _ _ => True) p ms s := by
  induction p generalizing s ms with
  | ret a => trivial
  | raise e => trivial
  | call r k ih => exact ⟨trivial, ih _ _ _⟩

theorem meetsAlone_quiet (hC : ∀ r s, C r none s) (p : Program Reply Err α) (s : σ) : MeetsAlone B C p [] s := by
  induction p generalizing s with
  | ret a => trivial
  | raise e => trivial
  | call r k ih => exact ⟨hC r _, ih _ _⟩

/-! ## Pools -/

structure Task (Reply : Req → Type) (Err α : Type) where
  log : List (Event Reply Err)
  rest : Program Reply Err α

structure Pool (Reply : Req → Type) (Err σ α : Type) where
  world : σ
  tasks : List (Task Reply Err α)

inductive Choice (Err : Type) where
  /-- Task `i` makes its next call. -/
  | call (i : Nat) (fault : Option Err)
  /-- Time passes. -/
  | elapse (d : Nat)

namespace Pool

def start (w : σ) (ps : List (Program Reply Err α)) : Pool Reply Err σ α := ⟨w, ps.map fun p => ⟨[], p⟩⟩

def finished (p : Pool Reply Err σ α) : Bool := p.tasks.all (·.rest.finished)

variable (B)

/-- Task `i`, about to call `r`, gets its answer. -/
def advance (p : Pool Reply Err σ α) (i : Nat) (t : Task Reply Err α) (r : Req)
    (k : Except Err (Reply r) → Program Reply Err α) (fault : Option Err) : Pool Reply Err σ α :=
  let a := B.answer i r fault p.world
  { world := a.2
    tasks := p.tasks.set i ⟨t.log ++ [⟨r, a.1, fault.isSome⟩], k a.1⟩ }

def step (p : Pool Reply Err σ α) : Choice Err → Pool Reply Err σ α
  | .elapse d => { p with world := B.elapse d p.world }
  | .call i fault =>
    match p.tasks[i]? with
    | some t =>
      match t.rest with
      | .call r k => if B.blocked i r p.world then p else p.advance B i t r k fault
      | _ => p
    | none => p

def run (p : Pool Reply Err σ α) (cs : List (Choice Err)) : Pool Reply Err σ α := cs.foldl (step B) p

/-- The call a choice makes now, if it makes one. -/
def calling (p : Pool Reply Err σ α) : Choice Err → Option (Nat × Req × Option Err)
  | .elapse _ => none
  | .call i fault =>
    match p.tasks[i]? with
    | some t =>
      match t.rest with
      | .call r _ => if B.blocked i r p.world then none else some (i, r, fault)
      | _ => none
    | none => none

/-- Every call the schedule makes satisfies `C` in the pool it is made in. -/
def Meets (C : Pool Reply Err σ α → Nat → Req → Option Err → Prop) : Pool Reply Err σ α → List (Choice Err) → Prop
  | _, [] => True
  | p, c :: cs => (∀ x ∈ p.calling B c, C p x.1 x.2.1 x.2.2) ∧ Meets C (p.step B c) cs

variable {B}

instance decidableMeets {C : Pool Reply Err σ α → Nat → Req → Option Err → Prop}
    [∀ p i r fault, Decidable (C p i r fault)] :
    (p : Pool Reply Err σ α) → (cs : List (Choice Err)) → Decidable (p.Meets B C cs)
  | _, [] => inferInstanceAs (Decidable True)
  | p, c :: cs => @instDecidableAnd _ _ (Option.decidableForallMem (p.calling B c)) (decidableMeets (p.step B c) cs)

@[simp] theorem run_nil (p : Pool Reply Err σ α) : p.run B [] = p := rfl
@[simp] theorem run_cons (p : Pool Reply Err σ α) (c : Choice Err) (cs : List (Choice Err)) :
    p.run B (c :: cs) = (p.step B c).run B cs := rfl

/-- A choice does nothing, lets time pass, or answers one task's call. -/
theorem step_cases (p : Pool Reply Err σ α) (c : Choice Err) :
    p.step B c = p ∨ (∃ d, p.step B c = { p with world := B.elapse d p.world }) ∨
      ∃ i t r k fault, p.tasks[i]? = some t ∧ t.rest = .call r k ∧ p.calling B c = some (i, r, fault) ∧
        p.step B c = p.advance B i t r k fault := by
  cases c with
  | elapse d => exact .inr (.inl ⟨d, rfl⟩)
  | call i fault =>
    rcases ht : p.tasks[i]? with _ | t
    · left; simp only [step, ht]
    rcases hr : t.rest with a | e | ⟨r, k⟩
    · left; simp only [step, ht, hr]
    · left; simp only [step, ht, hr]
    by_cases hb : B.blocked i r p.world = true
    · left; simp only [step, ht, hr, hb, if_true]
    · refine .inr (.inr ⟨i, t, r, k, fault, ht, hr, ?_, ?_⟩)
      · simp only [calling, ht, hr, hb, if_false, Bool.false_eq_true]
      · simp only [step, ht, hr, hb, if_false, Bool.false_eq_true]

/-- Only a call that is not blocked is made. -/
theorem free_of_calling {p : Pool Reply Err σ α} {c : Choice Err} {i : Nat} {r : Req} {fault : Option Err}
    (h : p.calling B c = some (i, r, fault)) : B.blocked i r p.world = false := by
  cases c with
  | elapse d => cases h
  | call i' fault' =>
    simp only [calling] at h
    split at h
    · split at h
      · split at h
        · cases h
        · rename_i hfree
          obtain ⟨rfl, rfl, -⟩ : i' = i ∧ _ ∧ _ := by simpa using h
          simpa using hfree
      · cases h
    · cases h

theorem step_of_calling {p : Pool Reply Err σ α} {c : Choice Err} {i : Nat} {r : Req} {fault : Option Err}
    (h : p.calling B c = some (i, r, fault)) :
    ∃ t k, p.tasks[i]? = some t ∧ t.rest = .call r k ∧ p.step B c = p.advance B i t r k fault := by
  cases c with
  | elapse d => cases h
  | call i' fault' =>
    rcases ht : p.tasks[i']? with _ | t
    · simp [calling, ht] at h
    rcases hr : t.rest with a | e | ⟨r', k⟩
    · simp [calling, ht, hr] at h
    · simp [calling, ht, hr] at h
    by_cases hb : B.blocked i' r' p.world = true
    · simp [calling, ht, hr, hb] at h
    · simp only [calling, ht, hr, hb, Bool.false_eq_true, if_false, Option.some.injEq, Prod.mk.injEq] at h
      obtain ⟨rfl, rfl, rfl⟩ := h
      exact ⟨t, k, ht, hr, by simp only [step, ht, hr, hb, Bool.false_eq_true, if_false]⟩

/-- What holds at the start, is kept by the passing of time and by every answered call
    that satisfies `C`, holds at the end of every schedule whose calls satisfy `C`. -/
theorem run_invariant_free {C : Pool Reply Err σ α → Nat → Req → Option Err → Prop} {I : Pool Reply Err σ α → Prop}
    (htime : ∀ p d, I p → I { p with world := B.elapse d p.world })
    (hcall : ∀ p i t r k fault, I p → p.tasks[i]? = some t → t.rest = .call r k → B.blocked i r p.world = false →
      C p i r fault → I (p.advance B i t r k fault))
    {p : Pool Reply Err σ α} (hp : I p) {cs : List (Choice Err)} (hC : p.Meets B C cs) : I (p.run B cs) := by
  induction cs generalizing p with
  | nil => exact hp
  | cons c cs ih =>
    obtain ⟨hnow, hrest⟩ := hC
    refine ih ?_ hrest
    rcases step_cases (B := B) p c with h | ⟨d, h⟩ | ⟨i, t, r, k, fault, ht, hr, hc, h⟩
    · rw [h]; exact hp
    · rw [h]; exact htime p d hp
    · rw [h]; exact hcall p i t r k fault hp ht hr (free_of_calling hc) (hnow _ hc)

theorem run_invariant {C : Pool Reply Err σ α → Nat → Req → Option Err → Prop} {I : Pool Reply Err σ α → Prop}
    (htime : ∀ p d, I p → I { p with world := B.elapse d p.world })
    (hcall : ∀ p i t r k fault, I p → p.tasks[i]? = some t → t.rest = .call r k → C p i r fault →
      I (p.advance B i t r k fault))
    {p : Pool Reply Err σ α} (hp : I p) {cs : List (Choice Err)} (hC : p.Meets B C cs) : I (p.run B cs) :=
  run_invariant_free htime (fun p i t r k fault h ht hr _ hc => hcall p i t r k fault h ht hr hc) hp hC

theorem run_append (p : Pool Reply Err σ α) (cs cs' : List (Choice Err)) : p.run B (cs ++ cs') = (p.run B cs).run B cs' :=
  List.foldl_append

theorem meets_append {C : Pool Reply Err σ α → Nat → Req → Option Err → Prop} {p : Pool Reply Err σ α}
    {cs cs' : List (Choice Err)} : p.Meets B C (cs ++ cs') ↔ p.Meets B C cs ∧ (p.run B cs).Meets B C cs' := by
  induction cs generalizing p with
  | nil => simp only [List.nil_append, Meets, run_nil, true_and]
  | cons c cs ih =>
    rw [List.cons_append, Meets, Meets, ih, run_cons, and_assoc]

theorem Meets.and {C C' : Pool Reply Err σ α → Nat → Req → Option Err → Prop} {p : Pool Reply Err σ α}
    {cs : List (Choice Err)} (h : p.Meets B C cs) (h' : p.Meets B C' cs) :
    p.Meets B (fun p i r fault => C p i r fault ∧ C' p i r fault) cs := by
  induction cs generalizing p with
  | nil => trivial
  | cons c cs ih => exact ⟨fun x hx => ⟨h.1 x hx, h'.1 x hx⟩, ih h.2 h'.2⟩

theorem meets_true (p : Pool Reply Err σ α) (cs : List (Choice Err)) : p.Meets B (fun _ _ _ _ => True) cs := by
  induction cs generalizing p with
  | nil => trivial
  | cons c cs ih => exact ⟨fun _ _ => trivial, ih _⟩

/-- A task that has made no call is still at its beginning. -/
theorem rest_of_untouched {w : σ} {ps : List (Program Reply Err α)} {cs : List (Choice Err)} {i : Nat}
    {t : Task Reply Err α} (ht : ((start w ps).run B cs).tasks[i]? = some t) (hlog : t.log = []) :
    ps[i]? = some t.rest := by
  let atBeginning : Pool Reply Err σ α → Prop := fun p =>
    ∀ (j : Nat) (u : Task Reply Err α), p.tasks[j]? = some u → u.log = [] → ps[j]? = some u.rest
  have hinv : atBeginning ((start w ps).run B cs) := by
    refine run_invariant (fun p d h => h) (fun p i t r k fault h ht hr _ => ?_) ?_ (meets_true _ cs)
    · intro j u hj hlog
      simp only [advance, List.getElem?_set] at hj
      split at hj
      · split at hj
        · obtain rfl := Option.some.inj hj
          simp at hlog
        · cases hj
      · exact h j u hj hlog
    · intro j u hj _
      simp only [start, List.getElem?_map, Option.map_eq_some_iff] at hj
      obtain ⟨q, hq, rfl⟩ := hj
      exact hq
  exact hinv i t ht hlog

/-! ## What a schedule did -/

variable (B) in
/-- The calls of a schedule and their answers, in the order they were made. -/
def trace : Pool Reply Err σ α → List (Choice Err) → List (Event Reply Err)
  | _, [] => []
  | p, c :: cs =>
    match p.calling B c with
    | some (i, r, fault) => ⟨r, (B.answer i r fault p.world).1, fault.isSome⟩ :: trace (p.step B c) cs
    | none => trace (p.step B c) cs

/-- An invariant that speaks of what was done so far. -/
theorem run_trace_invariant_free {C : Pool Reply Err σ α → Nat → Req → Option Err → Prop}
    {I : List (Event Reply Err) → Pool Reply Err σ α → Prop}
    (htime : ∀ p d es, I es p → I es { p with world := B.elapse d p.world })
    (hcall : ∀ p i t r k fault es, I es p → p.tasks[i]? = some t → t.rest = .call r k → B.blocked i r p.world = false →
      C p i r fault → I (es ++ [⟨r, (B.answer i r fault p.world).1, fault.isSome⟩]) (p.advance B i t r k fault))
    {p : Pool Reply Err σ α} {es : List (Event Reply Err)} (hp : I es p) {cs : List (Choice Err)} (hC : p.Meets B C cs) :
    I (es ++ p.trace B cs) (p.run B cs) := by
  induction cs generalizing p es with
  | nil => rwa [trace, List.append_nil]
  | cons c cs ih =>
    obtain ⟨hnow, hrest⟩ := hC
    rw [run_cons, trace]
    rcases hc : p.calling B c with _ | ⟨i, r, fault⟩
    · refine ih ?_ hrest
      rcases step_cases (B := B) p c with h | ⟨d, h⟩ | ⟨i, t, r, k, fault, -, -, hc', -⟩
      · rw [h]; exact hp
      · rw [h]; exact htime p d es hp
      · rw [hc] at hc'; cases hc'
    · dsimp only
      rw [List.append_cons]
      refine ih ?_ hrest
      obtain ⟨t, k, ht, hr, h⟩ := step_of_calling hc
      rw [h]
      exact hcall p i t r k fault es hp ht hr (free_of_calling hc) (hnow _ hc)

theorem run_trace_invariant {C : Pool Reply Err σ α → Nat → Req → Option Err → Prop}
    {I : List (Event Reply Err) → Pool Reply Err σ α → Prop}
    (htime : ∀ p d es, I es p → I es { p with world := B.elapse d p.world })
    (hcall : ∀ p i t r k fault es, I es p → p.tasks[i]? = some t → t.rest = .call r k → C p i r fault →
      I (es ++ [⟨r, (B.answer i r fault p.world).1, fault.isSome⟩]) (p.advance B i t r k fault))
    {p : Pool Reply Err σ α} {es : List (Event Reply Err)} (hp : I es p) {cs : List (Choice Err)} (hC : p.Meets B C cs) :
    I (es ++ p.trace B cs) (p.run B cs) :=
  run_trace_invariant_free htime (fun p i t r k fault es h ht hr _ hc => hcall p i t r k fault es h ht hr hc) hp hC

/-- The tasks after one of them is answered: itself, or unchanged. -/
theorem advance_tasks {p : Pool Reply Err σ α} {i j : Nat} {t u : Task Reply Err α} {r : Req}
    {k : Except Err (Reply r) → Program Reply Err α} {fault : Option Err}
    (hj : (p.advance B i t r k fault).tasks[j]? = some u) :
    (j = i ∧ u = ⟨t.log ++ [⟨r, (B.answer i r fault p.world).1, fault.isSome⟩], k (B.answer i r fault p.world).1⟩) ∨
      (j ≠ i ∧ p.tasks[j]? = some u) := by
  simp only [advance, List.getElem?_set] at hj
  by_cases e : i = j
  · subst e
    simp only [if_true] at hj
    split at hj
    · exact .inl ⟨rfl, (Option.some.inj hj).symm⟩
    · cases hj
  · rw [if_neg e] at hj
    exact .inr ⟨Ne.symm e, hj⟩

/-- What task `i` makes of its own log, beginning with `g`. -/
def seen (next : Γ → Event Reply Err → Γ) (g : Γ) (p : Pool Reply Err σ α) (i : Nat) : Γ :=
  match p.tasks[i]? with
  | some t => t.log.foldl next g
  | none => g

section

variable {next : Γ → Event Reply Err → Γ} {g : Γ} {p : Pool Reply Err σ α} {i : Nat} {t : Task Reply Err α} {r : Req}
  {k : Except Err (Reply r) → Program Reply Err α} {fault : Option Err}

theorem seen_eq (ht : p.tasks[i]? = some t) : p.seen next g i = t.log.foldl next g := by rw [seen, ht]

theorem seen_advance_self (ht : p.tasks[i]? = some t) : (p.advance B i t r k fault).seen next g i =
    next (p.seen next g i) ⟨r, (B.answer i r fault p.world).1, fault.isSome⟩ := by
  have hlt : i < p.tasks.length := (List.getElem?_eq_some_iff.mp ht).1
  simp only [seen, advance, List.getElem?_set_self hlt, ht, List.foldl_append, List.foldl_cons, List.foldl_nil]

theorem seen_advance_of_ne {j : Nat} (h : j ≠ i) : (p.advance B i t r k fault).seen next g j = p.seen next g j := by
  simp only [seen, advance, List.getElem?_set_ne (Ne.symm h)]

theorem seen_start (w : σ) (ps : List (Program Reply Err α)) (i : Nat) : (start w ps).seen next g i = g := by
  simp only [seen, start, List.getElem?_map]
  cases ps[i]? <;> rfl

end

/-- What stands in a task's log stays there. -/
theorem mem_log_run {p : Pool Reply Err σ α} {i : Nat} {t : Task Reply Err α} {e : Event Reply Err} (ht : p.tasks[i]? = some t) (he : e ∈ t.log)
    (cs : List (Choice Err)) : ∃ t', (p.run B cs).tasks[i]? = some t' ∧ e ∈ t'.log := by
  let logged : Pool Reply Err σ α → Prop := fun p => ∃ t', p.tasks[i]? = some t' ∧ e ∈ t'.log
  refine run_invariant (I := logged) (fun _ _ h => h) ?_ ⟨t, ht, he⟩ (meets_true p cs)
  intro p' j u r' k' fault' h hj hr _
  obtain ⟨t', ht', he'⟩ := h
  have hlt : i < p'.tasks.length := (List.getElem?_eq_some_iff.mp ht').1
  by_cases hij : i = j
  · subst hij
    obtain rfl : t' = u := Option.some.inj (ht'.symm.trans hj)
    refine ⟨⟨t'.log ++ [⟨r', (B.answer i r' fault' p'.world).1, fault'.isSome⟩], k' (B.answer i r' fault' p'.world).1⟩, ?_,
      List.mem_append_left _ he'⟩
    simp only [advance, List.getElem?_set_self hlt]
  · exact ⟨t', by simp only [advance, List.getElem?_set_ne (Ne.symm hij), ht'], he'⟩

/-- A call that a schedule makes stands in the log of its task at the end. -/
theorem call_mem_log {p : Pool Reply Err σ α} {c : Choice Err} {i : Nat} {r : Req} {fault : Option Err}
    (hc : p.calling B c = some (i, r, fault)) (cs : List (Choice Err)) : ∃ t, (p.run B (c :: cs)).tasks[i]? = some t ∧ ⟨r, (B.answer i r fault p.world).1, fault.isSome⟩ ∈ t.log := by
  obtain ⟨t, k, ht, _, hstep⟩ := step_of_calling hc
  have hlt : i < p.tasks.length := (List.getElem?_eq_some_iff.mp ht).1
  rw [run_cons, hstep]
  refine mem_log_run (t := ⟨t.log ++ [⟨r, (B.answer i r fault p.world).1, fault.isSome⟩], k (B.answer i r fault p.world).1⟩)
    ?_ (List.mem_append_right _ List.mem_cons_self) cs
  simp only [advance, List.getElem?_set_self hlt]

theorem tasks_length_advance {p : Pool Reply Err σ α} {i : Nat} {t : Task Reply Err α} {r : Req}
    {k : Except Err (Reply r) → Program Reply Err α} {fault : Option Err} :
    (p.advance B i t r k fault).tasks.length = p.tasks.length := List.length_set

end Pool

/-! ## Protocols -/

/-- What a task has seen and done (`Γ`), and what it can ask then. -/
structure Protocol (Reply : Req → Type) (Err Γ : Type) where
  can : Γ → Req → Prop
  next : Γ → Event Reply Err → Γ

namespace Protocol

variable (P : Protocol Reply Err Γ) (Honest : Event Reply Err → Prop)

/-- The state of the protocol as the machine's state; the replies are any the backend
    gives (`Honest`). -/
def machine : Machine Reply Err Γ where
  can r g := P.can g r
  step r g x g' := ∃ b, Honest ⟨r, x, b⟩ ∧ g' = P.next g ⟨r, x, b⟩

def after (g : Γ) (log : List (Event Reply Err)) : Γ := log.foldl P.next g

@[simp] theorem after_nil (g : Γ) : P.after g [] = g := rfl
@[simp] theorem after_snoc (g : Γ) (log : List (Event Reply Err)) (e : Event Reply Err) :
    P.after g (log ++ [e]) = P.next (P.after g log) e := by simp [after]

variable {P Honest}

/-- The steps of a protocol, as the rules of `wp` leave them. -/
@[simp] theorem machine_step {r : Req} {g g' : Γ} {x : Except Err (Reply r)} :
    (P.machine Honest).step r g x g' ↔ ∃ b, Honest ⟨r, x, b⟩ ∧ g' = P.next g ⟨r, x, b⟩ := Iff.rfl
@[simp] theorem machine_can {r : Req} {g : Γ} : (P.machine Honest).can r g ↔ P.can g r := Iff.rfl

/-- One call and what follows it: the reply is a value, with which the program goes on, or
    an exception, which it ends with. -/
theorem wp_await {β : Type} {g : Γ} {r : Req} {f : Reply r → Program Reply Err β} {Q : Except Err β → Γ → Prop}
    (hcan : P.can g r)
    (hok : ∀ a b, Honest ⟨r, .ok a, b⟩ → wp (P.machine Honest) Q (f a) (P.next g ⟨r, .ok a, b⟩))
    (herr : ∀ e b, Honest ⟨r, .error e, b⟩ → Q (.error e) (P.next g ⟨r, .error e, b⟩)) :
    wp (P.machine Honest) Q (Program.perform r >>= f) g := by
  rw [wp_bind, wp_perform]
  refine ⟨hcan, ?_⟩
  rintro (e | a) _ ⟨b, hb, rfl⟩
  · exact herr e b hb
  · exact hok a b hb

/-- A program whose calls are all allowed, and leave the protocol where it is. -/
theorem wp_stay {allowed : Req → Prop} {g : Γ} {p : Program Reply Err α} {Q : Except Err α → Γ → Prop}
    (hcan : ∀ r, allowed r → P.can g r) (hnext : ∀ e : Event Reply Err, allowed e.req → P.next g e = g)
    (hp : p.Uses allowed) (hQ : ∀ x, Q x g) : wp (P.machine Honest) Q p g := by
  refine wp_of_uses (fun r g' hr hg => ?_) hp rfl fun x g' hg => hg ▸ hQ x
  subst hg
  refine ⟨hcan r hr, ?_⟩
  rintro x _ ⟨b, -, rfl⟩
  exact (hnext ⟨r, x, b⟩ hr).symm

/-- Such a program, and what follows it. -/
theorem wp_pass {β : Type} {allowed : Req → Prop} {g : Γ} {p : Program Reply Err α} {f : α → Program Reply Err β}
    {Q : Except Err β → Γ → Prop} (hcan : ∀ r, allowed r → P.can g r)
    (hnext : ∀ e : Event Reply Err, allowed e.req → P.next g e = g) (hp : p.Uses allowed)
    (hok : ∀ a, wp (P.machine Honest) Q (f a) g) (herr : ∀ e, Q (.error e) g) :
    wp (P.machine Honest) Q (p >>= f) g := by
  rw [wp_bind]
  refine wp_stay hcan hnext hp fun x => ?_
  cases x with
  | ok a => exact hok a
  | error e => exact herr e

/-- A program whose calls are allowed wherever the protocol is. -/
theorem wp_any {allowed : Req → Prop} {g : Γ} {p : Program Reply Err α} {Q : Except Err α → Γ → Prop}
    (hcan : ∀ g r, allowed r → P.can g r) (hp : p.Uses allowed) (hQ : ∀ x g, Q x g) :
    wp (P.machine Honest) Q p g :=
  wp_of_uses (fun r g' hr _ => ⟨hcan g' r hr, fun _ _ _ => trivial⟩) hp trivial fun x g' _ => hQ x g'

/-- A program of which nothing is asked. -/
theorem wp_free (hcan : ∀ g r, P.can g r) (p : Program Reply Err α) (g : Γ) :
    wp (P.machine Honest) (fun _ _ => True) p g := by
  induction p generalizing g with
  | ret a => trivial
  | raise e => trivial
  | call r k ih => exact ⟨hcan g r, fun x g' _ => ih x g'⟩

/-! ### Fewer requests -/

section

variable {Req' : Type} {Reply' : Req' → Type}

/-- The part of a protocol about the requests of a smaller type. -/
def left (P : Protocol (Sum.elim Reply Reply') Err Γ) : Protocol Reply Err Γ where
  can g r := P.can g (.inl r)
  next g e := P.next g e.widen

theorem wp_widen {P : Protocol (Sum.elim Reply Reply') Err Γ} {Honest : Event (Sum.elim Reply Reply') Err → Prop} {g : Γ}
    {p : Program Reply Err α} {Q : Except Err α → Γ → Prop} (h : wp (P.left.machine fun e => Honest e.widen) Q p g) :
    wp (P.machine Honest) Q p.widen g := by
  induction p generalizing g with
  | ret a => exact h
  | raise e => exact h
  | call r k ih => exact ⟨h.1, fun x g' hg => ih x (h.2 x g' hg)⟩

end

end Protocol

/-- Every task still follows its protocol: the rest of its program does, from where its
    log has brought it. -/
def Pool.Follows (P : Nat → Protocol Reply Err Γ) (Honest : Event Reply Err → Prop)
    (Q : Nat → Except Err α → Γ → Prop) (g : Nat → Γ) (p : Pool Reply Err σ α) : Prop :=
  ∀ i t, p.tasks[i]? = some t → wp ((P i).machine Honest) (Q i) t.rest ((P i).after (g i) t.log)

namespace Pool

variable {P : Nat → Protocol Reply Err Γ} {Honest : Event Reply Err → Prop} {Q : Nat → Except Err α → Γ → Prop}
  {g : Nat → Γ} {p : Pool Reply Err σ α}

theorem Follows.can {i : Nat} {t : Task Reply Err α} {r : Req} {k : Except Err (Reply r) → Program Reply Err α}
    (h : p.Follows P Honest Q g) (ht : p.tasks[i]? = some t) (hr : t.rest = .call r k) :
    (P i).can ((P i).after (g i) t.log) r := by
  have := h i t ht
  rw [hr] at this
  exact this.1

theorem Follows.advance {i : Nat} {t : Task Reply Err α} {r : Req} {k : Except Err (Reply r) → Program Reply Err α}
    {fault : Option Err} (h : p.Follows P Honest Q g) (ht : p.tasks[i]? = some t) (hr : t.rest = .call r k)
    (hh : Honest ⟨r, (B.answer i r fault p.world).1, fault.isSome⟩) :
    (p.advance B i t r k fault).Follows P Honest Q g := by
  intro j u hj
  rcases advance_tasks hj with ⟨rfl, rfl⟩ | ⟨-, hj⟩
  · have := h j t ht
    rw [hr] at this
    rw [Protocol.after_snoc]
    exact this.2 _ _ ⟨_, hh, rfl⟩
  · exact h j u hj

theorem follows_start {ps : List (Program Reply Err α)} {w : σ}
    (h : ∀ i q, ps[i]? = some q → wp ((P i).machine Honest) (Q i) q (g i)) : (start w ps).Follows P Honest Q g := by
  intro i t ht
  simp only [start, List.getElem?_map] at ht
  rcases hq : ps[i]? with _ | q
  · rw [hq] at ht; cases ht
  · rw [hq] at ht
    obtain rfl := Option.some.inj ht
    exact h i q hq

/-- What a task that has finished knows of its result. -/
theorem Follows.done {i : Nat} {t : Task Reply Err α} {x : Except Err α} (h : p.Follows P Honest Q g)
    (ht : p.tasks[i]? = some t) (hx : t.rest.outcome = some x) : Q i x ((P i).after (g i) t.log) := by
  have := h i t ht
  rcases hr : t.rest with a | e | ⟨r, k⟩
  · rw [hr] at hx this; obtain rfl := Option.some.inj hx; exact this
  · rw [hr] at hx this; obtain rfl := Option.some.inj hx; exact this
  · rw [hr] at hx; cases hx

end Pool

end Imghost.Async
