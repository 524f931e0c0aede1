/-
  Imghost.OAuth.Flows — what a callback completes is what its start began.

  Starts, callbacks and anything else that touches users and links run at the same time, in
  any order; any call can fail. The state that a callback brings carries the mode and the
  user; nobody but the server can write one.

  - `a_state_is_used_once`: of the callbacks with the same state one at most exchanges a code.
  - `a_callback_serves_its_start`: a callback that exchanges a code brings the state of a start,
    and sends the verifier that start has drawn. It signs in only in the mode of a sign-in; it
    links an identity to an account that was there only if that account was signed in at the start
    and at the callback, in the mode of linking; and likewise for the confirmation that an account may
    be deleted.
-/

import Imghost.OAuth.FlowLog
import Imghost.Service.Operations
import Imghost.Sessions.TokenLife
import Imghost.Web.PublicOrigin

namespace Imghost.OAuth

open Imghost.Async Imghost.Data Imghost.Model Imghost.Service Imghost.Sessions Imghost.Tokens Program

section

-- the checks of a user's fields are not to be run on variables
attribute [local irreducible] strip validateUserInput

variable {lib : FlowLib} {call : Option FlowCall} {log log' : FlowLog} {c : CallbackCall}

/-! ## The nonces of a run -/

/-- `uuid4` repeats no id: the starts draw different ones, none of which is in the table. -/
structure FreshJtis (w₀ : FlowWorld) (calls : List FlowCall) : Prop where
  distinct : ∀ (i j : Nat) c c', calls[i]? = some (.start c) → calls[j]? = some (.start c') → c.jti = c'.jti → i = j
  unused : ∀ c, .start c ∈ calls → ∀ nonce ∈ w₀.nonces, nonce.jti ≠ c.jti

def Created (lib : FlowLib) (calls : List FlowCall) (p : FlowPool) (nonce : OAuthStateNonce) : Prop :=
  ∃ (j : Nat) (c : StartCall) (t : Task FlowCallReply PyExc RedirectResponse), calls[j]? = some (.start c) ∧ p.tasks[j]? = some t ∧
    NonceOf lib c t.log nonce ∧ Answered t.log (.inr (.createOauthStateNonce nonce)) nonce

/-- Task `i` has deleted the nonce. -/
def Consumed (p : FlowPool) (i : Nat) (nonce : OAuthStateNonce) : Prop :=
  ∃ t, p.tasks[i]? = some t ∧ Answered t.log (.inr (.consumeOauthStateNonce nonce.jti)) (some nonce)

structure Flowing (lib : FlowLib) (w₀ : FlowWorld) (calls : List FlowCall) (p : FlowPool) : Prop where
  follows : p.Follows (fun i => flowing lib calls[i]?) HonestFlow (fun i => EndedFlow lib calls[i]?) fun _ => []
  /-- Each call was one that its task could ask then. -/
  allowed : ∀ (i : Nat) (t : Task FlowCallReply PyExc RedirectResponse), p.tasks[i]? = some t →
    ∀ log e, log ++ [e] <+: t.log → CanFlow lib calls[i]? log e.req
  rows : ∀ nonce ∈ p.world.nonces, nonce ∈ w₀.nonces ∨ Created lib calls p nonce
  consumed : ∀ i nonce, Consumed p i nonce →
    (nonce ∈ w₀.nonces ∨ Created lib calls p nonce) ∧ ∀ row ∈ p.world.nonces, row.jti ≠ nonce.jti
  once : ∀ i j nonce nonce', Consumed p i nonce → Consumed p j nonce' → nonce.jti = nonce'.jti → i = j

variable {w₀ : FlowWorld} {calls : List FlowCall} {p : FlowPool} {outside : Outside} {i : Nat}
  {t : Task FlowCallReply PyExc RedirectResponse} {fault : Option PyExc} {nonce : OAuthStateNonce}

theorem flowing_after (log : FlowLog) : (flowing lib call).after [] log = log := by
  induction log using List.reverseRecOn with
  | nil => rfl
  | append_singleton log e ih => rw [Protocol.after_snoc, ih]; rfl

theorem NonceOf.mono {c : StartCall} (h : NonceOf lib c log nonce) (hlog : log <+: log') : NonceOf lib c log' nonce where
  jti := h.jti
  mode := h.mode
  codeVerifier := h.codeVerifier
  user := by
    obtain ⟨user, huser, hid⟩ := h.user
    exact ⟨user, huser.mono hlog, hid⟩

/-- The ids of the users that are signed in are UUIDs. -/
def UserIds (outside : Outside) : Prop :=
  ∀ cookies w user, outside.authenticatedUser cookies w = .ok (some user) → IsUserId user.id

theorem honest_flow (hids : UserIds outside) (i : Nat) (r : FlowCallReq) (fault : Option PyExc) (w : FlowWorld) :
    HonestFlow ⟨r, ((flowBackend outside).answer i r fault w).1, fault.isSome⟩ := by
  cases fault with
  | some e => rcases r with r | r <;> cases r <;> trivial
  | none =>
    rcases r with r | r
    · trivial
    rw [Backend.answer_none]
    cases r with
    | authenticatedUser cookies =>
      show HonestFlow ⟨.inr (.authenticatedUser cookies), outside.authenticatedUser cookies w, _⟩
      cases hanswer : outside.authenticatedUser cookies w with
      | error e => trivial
      | ok user =>
        cases user with
        | none => trivial
        | some user => exact hids _ _ _ hanswer
    | createOauthStateNonce nonce =>
      show HonestFlow ⟨.inr (.createOauthStateNonce nonce), (w.createOauthStateNonce nonce).1, _⟩
      unfold FlowWorld.createOauthStateNonce
      split
      · trivial
      · split
        · trivial
        · rfl
    | consumeOauthStateNonce jti =>
      show HonestFlow ⟨.inr (.consumeOauthStateNonce jti), .ok (w.consumeOauthStateNonce jti).1, _⟩
      cases hfound : (w.consumeOauthStateNonce jti).1 with
      | none => trivial
      | some nonce =>
        have hhit := (Option.filter_eq_some_iff.mp hfound).2
        rw [Bool.and_eq_true] at hhit
        exact beq_iff_eq.mp hhit.1
    | _ => trivial

section

variable {r : FlowCallReq} {k : Except PyExc (FlowCallReply r) → FlowProg RedirectResponse}

/-- The task that is answered has one more event. -/
theorem task_advance (ht : p.tasks[i]? = some t) : (p.advance (flowBackend outside) i t r k fault).tasks[i]? =
    some ⟨t.log ++ [⟨r, ((flowBackend outside).answer i r fault p.world).1, fault.isSome⟩],
      k ((flowBackend outside).answer i r fault p.world).1⟩ := by
  simp only [Pool.advance, List.getElem?_set_self (List.getElem?_eq_some_iff.mp ht).1]

theorem created_advance (h : Created lib calls p nonce) (ht : p.tasks[i]? = some t) :
    Created lib calls (p.advance (flowBackend outside) i t r k fault) nonce := by
  obtain ⟨j, c, u, hj, hu, hof, hanswered⟩ := h
  by_cases hij : i = j
  · subst hij
    obtain rfl := Option.some.inj (ht.symm.trans hu)
    exact ⟨i, c, _, hj, task_advance ht, hof.mono (List.prefix_append _ _), hanswered.mono (List.prefix_append _ _)⟩
  · exact ⟨j, c, u, hj, by simp only [Pool.advance, List.getElem?_set_ne hij, hu], hof, hanswered⟩

/-- What is consumed after a call was consumed before it, or by it. -/
theorem consumed_advance {j : Nat} (ht : p.tasks[i]? = some t)
    (h : Consumed (p.advance (flowBackend outside) i t r k fault) j nonce) :
    Consumed p j nonce ∨ j = i ∧ ∃ b, (⟨r, ((flowBackend outside).answer i r fault p.world).1, fault.isSome⟩ : FlowEvent) =
      ⟨.inr (.consumeOauthStateNonce nonce.jti), .ok (some nonce), b⟩ := by
  obtain ⟨u, hu, b, hb⟩ := h
  rcases Pool.advance_tasks hu with ⟨rfl, rfl⟩ | ⟨-, hu⟩
  · rcases List.mem_append.mp hb with hb | hb
    · exact .inl ⟨t, ht, b, hb⟩
    · exact .inr ⟨rfl, b, (List.mem_singleton.mp hb).symm⟩
  · exact .inl ⟨u, hu, b, hb⟩

theorem can_flow (h : Flowing lib w₀ calls p) (ht : p.tasks[i]? = some t) (hr : t.rest = .call r k) :
    CanFlow lib calls[i]? t.log r := by
  have hcan := h.follows.can ht hr
  rwa [flowing_after] at hcan

theorem allowed_advance (h : Flowing lib w₀ calls p) (ht : p.tasks[i]? = some t) (hr : t.rest = .call r k) {j : Nat}
    {u : Task FlowCallReply PyExc RedirectResponse} {e : FlowEvent}
    (hu : (p.advance (flowBackend outside) i t r k fault).tasks[j]? = some u) (he : log ++ [e] <+: u.log) :
    CanFlow lib calls[j]? log e.req := by
  rcases Pool.advance_tasks hu with ⟨rfl, rfl⟩ | ⟨-, hu⟩
  · rcases List.prefix_concat_iff.mp he with he | he
    · obtain ⟨rfl, hlast⟩ := List.append_inj' he rfl
      obtain rfl := List.singleton_inj.mp hlast
      exact can_flow h ht hr
    · exact h.allowed j t ht log e he
  · exact h.allowed j u hu log e he

/-- A call that brings no nonce and deletes none for a callback. -/
theorem flowing_aside (hids : UserIds outside) (h : Flowing lib w₀ calls p) (ht : p.tasks[i]? = some t) (hr : t.rest = .call r k)
    (hrows : ∀ row ∈ ((flowBackend outside).answer i r fault p.world).2.nonces, row ∈ p.world.nonces)
    (haside : ∀ nonce b, (⟨r, ((flowBackend outside).answer i r fault p.world).1, fault.isSome⟩ : FlowEvent) ≠
      ⟨.inr (.consumeOauthStateNonce nonce.jti), .ok (some nonce), b⟩) :
    Flowing lib w₀ calls (p.advance (flowBackend outside) i t r k fault) where
  follows := h.follows.advance ht hr (honest_flow hids ..)
  allowed := fun _ _ hu _ _ he => allowed_advance h ht hr hu he
  rows := by
    intro nonce hnonce
    exact (h.rows nonce (hrows nonce hnonce)).imp_right (created_advance · ht)
  consumed := by
    intro j nonce hconsumed
    rcases consumed_advance ht hconsumed with hconsumed | ⟨-, b, hb⟩
    · obtain ⟨hfrom, hgone⟩ := h.consumed j nonce hconsumed
      exact ⟨hfrom.imp_right (created_advance · ht), fun row hrow => hgone row (hrows row hrow)⟩
    · exact absurd hb (haside nonce b)
  once := by
    intro j j' nonce nonce' hj hj' hjti
    rcases consumed_advance ht hj with hj | ⟨-, b, hb⟩
    · rcases consumed_advance ht hj' with hj' | ⟨-, b, hb⟩
      · exact h.once j j' nonce nonce' hj hj' hjti
      · exact absurd hb (haside nonce' b)
    · exact absurd hb (haside nonce b)

theorem rows_withOAuth {oauth : OAuthWorld} {w : FlowWorld} {row : OAuthStateNonce} (h : row ∈ (w.withOAuth oauth).nonces) :
    row ∈ w.nonces := (Table.mem_deleteWhere.mp h).1

/-- Whoever has the `jti` of a start that has stored nothing yet: nobody. -/
theorem jti_unused (hfresh : FreshJtis w₀ calls) {s : StartCall} (hs : calls[i]? = some (.start s)) (ht : p.tasks[i]? = some t)
    (hnone : ∀ e ∈ t.log, ∀ nonce', e.req ≠ .inr (.createOauthStateNonce nonce'))
    (hfrom : nonce ∈ w₀.nonces ∨ Created lib calls p nonce) : nonce.jti ≠ s.jti := by
  rcases hfrom with hold | ⟨j, s', u, hj, hu, hof, b, hb⟩
  · exact hfresh.unused s (List.mem_of_getElem? hs) nonce hold
  · intro hjti
    obtain rfl := hfresh.distinct j i s' s hj hs (hof.jti.symm.trans hjti)
    obtain rfl := Option.some.inj (ht.symm.trans hu)
    exact hnone _ hb nonce rfl

theorem flowing_create (hids : UserIds outside) (hfresh : FreshJtis w₀ calls) {stored : OAuthStateNonce}
    {k : Except PyExc (FlowCallReply (.inr (.createOauthStateNonce stored))) → FlowProg RedirectResponse}
    (h : Flowing lib w₀ calls p) (ht : p.tasks[i]? = some t) (hr : t.rest = .call (.inr (.createOauthStateNonce stored)) k)
    {nonces : Table OAuthStateNonce.jti} (hinsert : p.world.nonces.insert stored = some nonces)
    (hanswer : (flowBackend outside).answer i (.inr (.createOauthStateNonce stored)) fault p.world =
      (.ok stored, { p.world with nonces := nonces })) :
    Flowing lib w₀ calls (p.advance (flowBackend outside) i t (.inr (.createOauthStateNonce stored)) k fault) := by
  have hcan := can_flow h ht hr
  have hother : ∀ nonce b, (⟨.inr (.createOauthStateNonce stored),
      ((flowBackend outside).answer i (.inr (.createOauthStateNonce stored)) fault p.world).1, fault.isSome⟩ : FlowEvent) ≠
      ⟨.inr (.consumeOauthStateNonce nonce.jti), .ok (some nonce), b⟩ := by
    intro nonce b heq
    cases congrArg Event.req heq
  cases hcall : calls[i]? with
  | none =>
    rw [hcall] at hcan
    cases hcan
  | some call =>
    rw [hcall] at hcan
    cases call with
    | callback c => exact hcan.elim
    | other q => cases hcan
    | start s =>
      obtain ⟨hof, hnone⟩ := hcan
      have hcreated : Created lib calls (p.advance (flowBackend outside) i t (.inr (.createOauthStateNonce stored)) k fault)
          stored := by
        refine ⟨i, s, _, hcall, task_advance ht, hof.mono (List.prefix_append _ _), fault.isSome, ?_⟩
        rw [hanswer]
        exact List.mem_append_right _ List.mem_cons_self
      refine ⟨h.follows.advance ht hr (honest_flow hids ..), fun _ _ hu _ _ he => allowed_advance h ht hr hu he, ?_, ?_, ?_⟩
      · intro nonce hnonce
        simp only [Pool.advance, hanswer] at hnonce
        rcases (Table.mem_insert hinsert).mp hnonce with hnonce | rfl
        · exact (h.rows nonce hnonce).imp_right (created_advance · ht)
        · exact .inr hcreated
      · intro j nonce hconsumed
        rcases consumed_advance ht hconsumed with hconsumed | ⟨-, b, hb⟩
        · obtain ⟨hfrom, hgone⟩ := h.consumed j nonce hconsumed
          refine ⟨hfrom.imp_right (created_advance · ht), ?_⟩
          intro row hrow
          simp only [Pool.advance, hanswer] at hrow
          rcases (Table.mem_insert hinsert).mp hrow with hrow | rfl
          · exact hgone row hrow
          · rw [hof.jti]
            exact (jti_unused hfresh hcall ht hnone hfrom).symm
        · exact absurd hb (hother nonce b)
      · intro j j' nonce nonce' hj hj' hjti
        rcases consumed_advance ht hj with hj | ⟨-, b, hb⟩
        · rcases consumed_advance ht hj' with hj' | ⟨-, b, hb⟩
          · exact h.once j j' nonce nonce' hj hj' hjti
          · exact absurd hb (hother nonce' b)
        · exact absurd hb (hother nonce b)

theorem flowing_consume (hids : UserIds outside) {jti : String}
    {k : Except PyExc (FlowCallReply (.inr (.consumeOauthStateNonce jti))) → FlowProg RedirectResponse}
    (h : Flowing lib w₀ calls p) (ht : p.tasks[i]? = some t) (hr : t.rest = .call (.inr (.consumeOauthStateNonce jti)) k)
    {found : OAuthStateNonce} (hfound : (p.world.consumeOauthStateNonce jti).1 = some found) :
    Flowing lib w₀ calls (p.advance (flowBackend outside) i t (.inr (.consumeOauthStateNonce jti)) k none) := by
  obtain ⟨hrow, hhit⟩ := Option.filter_eq_some_iff.mp hfound
  have hmem : found ∈ p.world.nonces := Table.find?_mem hrow
  have hjti : found.jti = jti := Table.find?_key hrow
  subst hjti
  have hworld : ∀ row ∈ ((flowBackend outside).answer i (.inr (.consumeOauthStateNonce found.jti)) none p.world).2.nonces,
      row ∈ p.world.nonces ∧ row.jti ≠ found.jti := by
    intro row hrow
    obtain ⟨hrow, hmiss⟩ := Table.mem_deleteWhere.mp hrow
    refine ⟨hrow, ?_⟩
    intro hkey
    rw [Table.eq_of_key hrow hmem hkey] at hmiss
    rw [hmiss] at hhit
    cases hhit
  -- the nonces consumed after the call: those before it, and the one found
  have hcases : ∀ j nonce, Consumed (p.advance (flowBackend outside) i t (.inr (.consumeOauthStateNonce found.jti)) k none) j nonce →
      Consumed p j nonce ∨ j = i ∧ nonce = found := by
    intro j nonce hconsumed
    rcases consumed_advance ht hconsumed with hconsumed | ⟨rfl, b, hb⟩
    · exact .inl hconsumed
    · refine .inr ⟨rfl, ?_⟩
      have hanswer : ((flowBackend outside).answer j (.inr (.consumeOauthStateNonce found.jti)) none p.world).1 =
          .ok (some found) := congrArg Except.ok hfound
      rw [hanswer] at hb
      simp only [Event.mk.injEq] at hb
      obtain ⟨hreq, hreply, -⟩ := hb
      have hkey : found.jti = nonce.jti := by
        injection hreq with hreq
        injection hreq
      rw [← hkey] at hreply
      exact (Option.some.inj (Except.ok.inj (eq_of_heq hreply))).symm
  refine ⟨h.follows.advance ht hr (honest_flow hids ..), fun _ _ hu _ _ he => allowed_advance h ht hr hu he, ?_, ?_, ?_⟩
  · intro nonce hnonce
    exact (h.rows nonce (hworld nonce hnonce).1).imp_right (created_advance · ht)
  · intro j nonce hconsumed
    rcases hcases j nonce hconsumed with hconsumed | ⟨-, rfl⟩
    · obtain ⟨hfrom, hgone⟩ := h.consumed j nonce hconsumed
      exact ⟨hfrom.imp_right (created_advance · ht), fun row hrow => hgone row (hworld row hrow).1⟩
    · exact ⟨(h.rows nonce hmem).imp_right (created_advance · ht), fun row hrow => (hworld row hrow).2⟩
  · intro j j' nonce nonce' hj hj' hsame
    rcases hcases j nonce hj with hold | ⟨rfl, rfl⟩
    · rcases hcases j' nonce' hj' with hold' | ⟨-, rfl⟩
      · exact h.once j j' nonce nonce' hold hold' hsame
      · exact absurd hsame.symm ((h.consumed j nonce hold).2 _ hmem)
    · rcases hcases j' nonce' hj' with hold' | ⟨rfl, -⟩
      · exact absurd hsame ((h.consumed j' nonce' hold').2 _ hmem)
      · rfl

end

theorem flowing_world (h : Flowing lib w₀ calls p) {w : FlowWorld} (hrows : ∀ row ∈ w.nonces, row ∈ p.world.nonces) :
    Flowing lib w₀ calls { p with world := w } where
  follows := h.follows
  allowed := h.allowed
  rows := fun nonce hnonce => h.rows nonce (hrows nonce hnonce)
  consumed := by
    intro j nonce hconsumed
    obtain ⟨hfrom, hgone⟩ := h.consumed j nonce hconsumed
    exact ⟨hfrom, fun row hrow => hgone row (hrows row hrow)⟩
  once := h.once

theorem flowing_advance (hids : UserIds outside) (hfresh : FreshJtis w₀ calls) {r : FlowCallReq}
    {k : Except PyExc (FlowCallReply r) → FlowProg RedirectResponse} (h : Flowing lib w₀ calls p) (ht : p.tasks[i]? = some t)
    (hr : t.rest = .call r k) : Flowing lib w₀ calls (p.advance (flowBackend outside) i t r k fault) := by
  rcases r with r | r
  · apply flowing_aside hids h ht hr
    · intro row hrow
      rw [flowBackend, Backend.answer_extend_inl] at hrow
      cases fault <;> exact rows_withOAuth hrow
    · intro nonce b heq
      cases congrArg Event.req heq
  cases fault with
  | some e =>
    apply flowing_aside hids h ht hr
    · exact fun row hrow => hrow
    · intro nonce b heq
      have hreq := congrArg Event.req heq
      obtain rfl := Sum.inr.inj hreq
      have hreply : (Except.error e : Except PyExc (Option OAuthStateNonce)) = .ok (some nonce) := by
        injection heq
      cases hreply
  | none =>
    cases r with
    | createOauthStateNonce stored =>
      have hanswer : (flowBackend outside).answer i (.inr (.createOauthStateNonce stored)) none p.world =
          p.world.createOauthStateNonce stored := rfl
      have haside : ∀ nonce b, (⟨.inr (.createOauthStateNonce stored),
          ((flowBackend outside).answer i (.inr (.createOauthStateNonce stored)) none p.world).1, false⟩ : FlowEvent) ≠
          ⟨.inr (.consumeOauthStateNonce nonce.jti), .ok (some nonce), b⟩ := by
        intro nonce b heq
        cases congrArg Event.req heq
      cases hinsert : p.world.nonces.insert stored with
      | none =>
        apply flowing_aside hids h ht hr _ haside
        intro row hrow
        rw [hanswer, FlowWorld.createOauthStateNonce] at hrow
        simp only [hinsert] at hrow
        exact hrow
      | some nonces =>
        by_cases hgone : (stored.userId.any fun userId => (p.world.oauth.base.users.find? userId).isNone) = true
        · apply flowing_aside hids h ht hr _ haside
          intro row hrow
          rw [hanswer, FlowWorld.createOauthStateNonce] at hrow
          simp only [hinsert, hgone, if_true] at hrow
          exact hrow
        · apply flowing_create hids hfresh h ht hr hinsert
          rw [hanswer, FlowWorld.createOauthStateNonce]
          simp only [hinsert, hgone, if_false, Bool.false_eq_true]
          rfl
    | consumeOauthStateNonce jti =>
      cases hfound : (p.world.consumeOauthStateNonce jti).1 with
      | some found => exact flowing_consume hids h ht hr hfound
      | none =>
        apply flowing_aside hids h ht hr
        · exact fun row hrow => (Table.mem_deleteWhere.mp hrow).1
        · intro nonce b heq
          have hanswer : ((flowBackend outside).answer i (.inr (.consumeOauthStateNonce jti)) none p.world).1 =
              .ok none := congrArg Except.ok hfound
          rw [hanswer] at heq
          obtain rfl := FlowReq.consumeOauthStateNonce.inj (Sum.inr.inj (congrArg Event.req heq))
          have hreply : (Except.ok none : Except PyExc (Option OAuthStateNonce)) = .ok (some nonce) := by
            injection heq
          cases hreply
    | deleteExpiredOauthStateNonces =>
      apply flowing_aside hids h ht hr
      · exact fun row hrow => (Table.mem_deleteWhere.mp hrow).1
      · intro nonce b heq
        cases congrArg Event.req heq
    | _ =>
      apply flowing_aside hids h ht hr
      · exact fun row hrow => hrow
      · intro nonce b heq
        cases congrArg Event.req heq

theorem flowing_start (w : FlowWorld) (calls : List FlowCall) : Flowing lib w calls (FlowPool.start lib w calls) := by
  have hlog : ∀ (j : Nat) (u : Task FlowCallReply PyExc RedirectResponse), (FlowPool.start lib w calls).tasks[j]? = some u →
      u.log = [] := by
    intro j u hu
    simp only [FlowPool.start, Pool.start, List.map_map, List.getElem?_map, Option.map_eq_some_iff] at hu
    obtain ⟨call, -, rfl⟩ := hu
    rfl
  have hnone : ∀ j nonce, ¬Consumed (FlowPool.start lib w calls) j nonce := by
    intro j nonce hconsumed
    obtain ⟨u, hu, b, hb⟩ := hconsumed
    rw [hlog j u hu] at hb
    cases hb
  refine ⟨?_, ?_, fun nonce hnonce => .inl hnonce, fun j nonce hc => absurd hc (hnone j nonce),
    fun j _ nonce _ hc => absurd hc (hnone j nonce)⟩
  · apply Pool.follows_start
    intro j q hq
    rw [List.getElem?_map, Option.map_eq_some_iff] at hq
    obtain ⟨call, hcall, rfl⟩ := hq
    rw [hcall]
    exact prog_flows call
  · intro j u hu log e he
    rw [hlog j u hu] at he
    exact absurd (List.prefix_nil.mp he) (by simp)

theorem flowing_run (hids : UserIds outside) {w : FlowWorld} (hfresh : FreshJtis w calls) (cs : List (Choice PyExc)) :
    Flowing lib w calls ((FlowPool.start lib w calls).run (flowBackend outside) cs) := by
  apply Pool.run_invariant (I := Flowing lib w calls) _ _ (flowing_start w calls) (Pool.meets_true _ cs)
  · intro p d h
    exact flowing_world h fun _ => rows_withOAuth
  · intro p i t r k fault h ht hr _
    exact flowing_advance hids hfresh h ht hr

/-! ## What a callback has done -/

def Asked (log : FlowLog) (r : FlowCallReq) : Prop := ∃ e ∈ log, e.req = r

/-- The callback has sent a code and a verifier to the provider. -/
def Exchanged (log : FlowLog) : Prop := ∃ name code uri verifier, Asked log (.inr (.exchangeCode name code uri verifier))

theorem allowed_of_asked (h : Flowing lib w₀ calls p) (ht : p.tasks[i]? = some t) {r : FlowCallReq} (hr : Asked t.log r) :
    ∃ log, log <+: t.log ∧ CanFlow lib calls[i]? log r := by
  obtain ⟨e, he, rfl⟩ := hr
  obtain ⟨before, after, hsplit⟩ := List.append_of_mem he
  have hprefix : before ++ [e] <+: t.log := ⟨after, by rw [hsplit, List.append_assoc]; rfl⟩
  exact ⟨before, (List.prefix_append _ _).trans hprefix, h.allowed i t ht before e hprefix⟩

theorem passed_of_exchanged (h : Flowing lib w₀ calls p) (hc : calls[i]? = some (.callback c)) (ht : p.tasks[i]? = some t)
    {name code uri verifier : String} (hx : Asked t.log (.inr (.exchangeCode name code uri verifier))) :
    ∃ payload nonce, Passed lib c t.log payload nonce ∧ verifier = nonce.codeVerifier := by
  obtain ⟨log, hlog, hcan⟩ := allowed_of_asked h ht hx
  rw [hc] at hcan
  obtain ⟨payload, nonce, hpassed, hverifier⟩ := hcan
  exact ⟨payload, nonce, hpassed.mono hlog, hverifier⟩

/-- What the callback goes on with is what the verifier of states returns. -/
theorem loads_of_state {lib : SessionLib} {secretKey : String} {now : DateTime} {maxAge : Int} {state : Option String}
    {payload : OAuthStatePayload} (h : oauthCallbackState lib secretKey now maxAge state = .ok (some payload)) :
    OAuthStateManager.loads lib.toTokenLib secretKey now maxAge (strOr state "") = .ok payload := by
  unfold oauthCallbackState at h
  split at h
  · split at h <;> cases h
  · next loaded hloads =>
    rw [hloads]
    split at h
    · cases h
    · exact congrArg Except.ok (Option.some.inj (Except.ok.inj h))

/-- The payload does not depend on when the state is read. -/
theorem payload_unique {lib : SessionLib} {secretKey : String} {now now' : DateTime} {maxAge : Int} {state : Option String}
    {payload payload' : OAuthStatePayload} (h : oauthCallbackState lib secretKey now maxAge state = .ok (some payload))
    (h' : oauthCallbackState lib secretKey now' maxAge state = .ok (some payload')) : payload = payload' := by
  obtain ⟨fields, hverify, -, hbuild⟩ := loads_ok (loads_of_state h)
  obtain ⟨fields', hverify', -, hbuild'⟩ := loads_ok (loads_of_state h')
  obtain rfl := Json.dict.inj (Option.some.inj (Except.ok.inj (hverify.symm.trans hverify')))
  rw [hbuild, hbuild']

/-- The nonce of a callback that has passed is one that its task has deleted. -/
theorem consumed_of_passed (ht : p.tasks[i]? = some t) {payload : OAuthStatePayload} (hpassed : Passed lib c t.log payload nonce) :
    Consumed p i nonce := by
  obtain ⟨b, hb⟩ := hpassed.consumed
  rw [← hpassed.jti] at hb
  exact ⟨t, ht, b, hb⟩

/-- Of the callbacks with the same state one at most exchanges a code. -/
theorem a_state_is_used_once (lib : FlowLib) (outside : Outside) (hids : UserIds outside) (w : FlowWorld) (calls : List FlowCall)
    (hfresh : FreshJtis w calls) (cs : List (Choice PyExc)) (i j : Nat) (c c' : CallbackCall)
    (hc : calls[i]? = some (.callback c)) (hc' : calls[j]? = some (.callback c')) (hstate : c.state = c'.state) (hne : i ≠ j)
    (t u : Task FlowCallReply PyExc RedirectResponse)
    (ht : ((FlowPool.start lib w calls).run (flowBackend outside) cs).tasks[i]? = some t)
    (hu : ((FlowPool.start lib w calls).run (flowBackend outside) cs).tasks[j]? = some u)
    (hx : Exchanged t.log) : ¬Exchanged u.log := by
  intro hx'
  have hflowing : Flowing lib w calls _ := flowing_run hids hfresh cs
  obtain ⟨_, _, _, _, hx⟩ := hx
  obtain ⟨_, _, _, _, hx'⟩ := hx'
  obtain ⟨payload, nonce, hpassed, -⟩ := passed_of_exchanged hflowing hc ht hx
  obtain ⟨payload', nonce', hpassed', -⟩ := passed_of_exchanged hflowing hc' hu hx'
  obtain ⟨now, hnow⟩ := hpassed.state
  obtain ⟨now', hnow'⟩ := hpassed'.state
  rw [← hstate] at hnow'
  obtain rfl := payload_unique hnow hnow'
  exact hne (hflowing.once i j nonce nonce' (consumed_of_passed ht hpassed) (consumed_of_passed hu hpassed')
    (hpassed.jti.trans hpassed'.jti.symm))

/-! ## The start of a callback -/

/-- The codecs are Python's, and the ids that the starts draw are UUIDs. -/
structure FlowCodecs (lib : FlowLib) (calls : List FlowCall) : Prop where
  json : ∀ payload now, RoundTrips lib.sessions ((Minted.oauthState payload).values lib.sessions now)
  str : ∀ s, lib.sessions.str (.str s) = s
  jtis : ∀ c, .start c ∈ calls → strip c.jti = c.jti

/-- The response sends the browser to the provider with this state. -/
def Issues (t : Task FlowCallReply PyExc RedirectResponse) (state : String) : Prop :=
  ∃ provider redirectUri codeChallenge, t.rest.outcome = some (.ok (.authorization provider redirectUri state codeChallenge))

/-- HMAC signatures are not forged: a state with a valid signature is one that a start of the run has sent. -/
def StatesUnforged (lib : FlowLib) (calls : List FlowCall) (p : FlowPool) : Prop :=
  ∀ c now payload, .callback c ∈ calls → oauthCallbackState lib.sessions lib.secretKey now 600 c.state = .ok (some payload) →
    ∃ (j : Nat) (s : StartCall) (u : Task FlowCallReply PyExc RedirectResponse) (state : String),
      calls[j]? = some (.start s) ∧ p.tasks[j]? = some u ∧ Issues u state ∧ c.state = some state

/-- The user was signed in where the flow was started, and where it ends. -/
def SignedInAtBoth (s : StartCall) (startLog : FlowLog) (c : CallbackCall) (log : FlowLog) (userId : String) : Prop :=
  (∃ user : User, Answered startLog (.inr (.authenticatedUser s.cookies)) (some user) ∧ user.id = userId) ∧
    ∃ user : User, Answered log (.inr (.authenticatedUser c.cookies)) (some user) ∧ user.id = userId

/-- What the callback has done is what the start began. -/
structure Serves (lib : FlowLib) (s : StartCall) (startLog : FlowLog) (c : CallbackCall)
    (t : Task FlowCallReply PyExc RedirectResponse) : Prop where
  exchange : ∀ name code uri verifier, Asked t.log (.inr (.exchangeCode name code uri verifier)) → verifier = s.codeVerifier
  session : ∀ userId, Asked t.log (.inr (.createSession userId)) → startMode lib s.mode = "login"
  link : ∀ link, Asked t.log (.inl (.inr (.createUserSsoLink link))) → Identified t.log link.provider link.providerUid ∧
    (startMode lib s.mode = "login" ∧ link.userId = c.userId ∨
      startMode lib s.mode = "link" ∧ SignedInAtBoth s startLog c t.log link.userId)
  deletion : ∀ location token, t.rest.outcome = some (.ok (.redirect location (some (.deleteReauth token)))) →
    startMode lib s.mode = "delete_account" ∧ ∃ now userId provider providerUid link, SignedInAtBoth s startLog c t.log userId ∧
      Identified t.log provider providerUid ∧
      Answered t.log (.inl (.inr (.getUserSsoLink provider providerUid))) (some link) ∧ link.userId = userId ∧
      token = AccountDeleteReauthTokenManager.dumps lib.sessions lib.secretKey now ⟨userId, provider, providerUid, none⟩

theorem startMode_cases (lib : FlowLib) (mode : String) : startMode lib mode = "login" ∨ startMode lib mode = "link" ∨
    startMode lib mode = "delete_account" := by
  unfold startMode
  dsimp only
  split
  · next h => simpa [bound, Bool.or_eq_true, beq_iff_eq] using h
  · exact .inl rfl

theorem strip_startMode (lib : FlowLib) (mode : String) : strip (startMode lib mode) = startMode lib mode := by
  rcases startMode_cases lib mode with h | h | h <;> rw [h] <;> decide +kernel

/-- What is read from a state is what was written. -/
theorem state_read {lib : SessionLib} {secretKey : String} {now mintedAt : DateTime} {payload payload' : OAuthStatePayload}
    (hjson : RoundTrips lib ((Minted.oauthState payload).values lib mintedAt)) (hstr : ∀ s, lib.str (.str s) = s)
    (h : oauthCallbackState lib secretKey now 600 (some (OAuthStateManager.dumps lib secretKey mintedAt payload)) =
      .ok (some payload')) :
    payload'.mode = strip payload.mode ∧ payload'.jti = strip payload.jti ∧
      payload'.userId = (payload.userId.filter (· ≠ "")).map strip := by
  have hloads := loads_of_state h
  have htoken : strOr (some (OAuthStateManager.dumps lib secretKey mintedAt payload)) "" =
      (Minted.oauthState payload).token lib ⟨secretKey, 0, true, ⟨""⟩⟩ mintedAt := by
    rw [strOr]
    split
    · next hempty => exact hempty.symm
    · rfl
  rw [htoken] at hloads
  obtain ⟨fields, hverify, -, hbuild⟩ := loads_ok hloads
  obtain ⟨loaded, hloaded, hlookup⟩ := parsed_values hjson hverify
  obtain rfl := Json.dict.inj hloaded
  have hmode : fields.lookup "mode" = some (.str payload.mode) := (hlookup _).trans rfl
  have hjti : fields.lookup "jti" = some (.str payload.jti) := (hlookup _).trans rfl
  have huser : fields.lookup "user_id" = some (optionalStr payload.userId) := (hlookup _).trans rfl
  rw [hbuild]
  refine ⟨textField_str hstr hmode, textField_str hstr hjti, ?_⟩
  dsimp only
  cases huserId : payload.userId with
  | none =>
    rw [huserId] at huser
    rw [huser]
    rfl
  | some userId =>
    rw [huserId] at huser
    rw [textField_str hstr huser, huser]
    by_cases hempty : userId = ""
    · simp [hempty, optionalStr, Tokens.truthy]
    · simp [hempty, optionalStr, Tokens.truthy]

/-- What a callback knows, once it has passed, of the start whose state it brings. -/
theorem start_of_passed (h : Flowing lib w₀ calls p) (hfresh : FreshJtis w₀ calls) (hcodecs : FlowCodecs lib calls) {j : Nat}
    {s : StartCall} {u : Task FlowCallReply PyExc RedirectResponse} {state : String} (hs : calls[j]? = some (.start s))
    (hu : p.tasks[j]? = some u) (hissues : Issues u state) (hstate : c.state = some state) (ht : p.tasks[i]? = some t)
    {payload : OAuthStatePayload} (hpassed : Passed lib c t.log payload nonce) :
    payload.mode = startMode lib s.mode ∧ nonce.codeVerifier = s.codeVerifier ∧
      (bound payload.mode = true → ∀ userId, payload.userId = some userId → SignedInAtBoth s u.log c t.log userId) := by
  have hmem := List.mem_of_getElem? hs
  obtain ⟨provider, redirectUri, codeChallenge, hresponse⟩ := hissues
  have hended := h.follows.done hu hresponse
  rw [flowing_after, hs] at hended
  obtain ⟨mintedAt, nextPath, issued, hof, rfl⟩ := hended
  obtain ⟨now, hnow⟩ := hpassed.state
  rw [hstate] at hnow
  obtain ⟨hmode, hjti, huserId⟩ := state_read (hcodecs.json _ _) hcodecs.str hnow
  have hmode : payload.mode = startMode lib s.mode := by
    rw [hmode]
    exact (congrArg strip hof.mode).trans (strip_startMode lib s.mode)
  have hjti : nonce.jti = s.jti := by
    rw [hpassed.jti, hjti, hof.jti, hcodecs.jtis s hmem]
  refine ⟨hmode, ?_, ?_⟩
  · rcases (h.consumed i nonce (consumed_of_passed ht hpassed)).1 with hold | ⟨j', s', u', hs', hu', hof', -⟩
    · exact absurd hjti (hfresh.unused s hmem nonce hold)
    · obtain rfl := hfresh.distinct j' j s' s hs' hs (hof'.jti.symm.trans hjti)
      obtain rfl := FlowCall.start.inj (Option.some.inj (hs'.symm.trans hs))
      exact hof'.codeVerifier
  · intro hbound userId huser
    obtain ⟨user', hanswered', huser'⟩ := hpassed.user hbound
    obtain ⟨user, hanswered, hissuedUser, hids⟩ := hof.user
    rw [boundUser, ← hmode, if_pos hbound] at hissuedUser
    refine ⟨?_, user', hanswered', Option.some.inj (huser'.symm.trans huser)⟩
    cases user with
    | none =>
      rw [huserId, hissuedUser] at huser
      cases huser
    | some user =>
      obtain ⟨hstrip, hne⟩ := hids user rfl
      refine ⟨user, hanswered, ?_⟩
      rw [huserId, hissuedUser] at huser
      simp only [Option.map_some, Option.filter_some, ne_eq, hne, not_false_eq_true, decide_true, if_true, hstrip,
        Option.some.injEq] at huser
      exact huser

end

/-! ## Python's codecs -/

section

variable {json : JsonLib} {sessions : SessionLib} {values : List (String × Json)}

theorem loads_dumped (hcodecs : PythonCodecs json sessions) (hkeys : (values.map (·.1)).Nodup)
    (hscalar : ∀ field ∈ values, isScalar field.2 = true) :
    sessions.jsonLoads (sessions.dumpsSorted (.dict values)) = .ok (.dict (sortFields values)) := by
  rw [hcodecs.loads, hcodecs.dumpsSorted]
  exact jsonLoads_dumps json hkeys hscalar

/-- What is signed is verified. -/
theorem verify_dumped (hcodecs : PythonCodecs json sessions) (hkeys : (values.map (·.1)).Nodup)
    (hscalar : ∀ field ∈ values, isScalar field.2 = true) (secretKey : String) :
    verify sessions.toTokenLib secretKey (dumpsSigned sessions secretKey values) = .ok (some (.dict (sortFields values))) := by
  have hbytes : (sessions.dumpsSorted (.dict values)).toUTF8.toList ≠ [] := by
    apply encode_ne_nil
    rw [hcodecs.dumpsSorted, jsonDumps, dump_dict]
    intro h
    simpa using congrArg String.toList h
  have hsignature : sessions.hmacSha256 secretKey (sessions.dumpsSorted (.dict values)).toUTF8.toList ≠ "" := by
    intro h
    have hdigest := hcodecs.digest secretKey (sessions.dumpsSorted (.dict values)).toUTF8.toList
    rw [h] at hdigest
    cases hdigest
  rw [verify, dumpsSigned, splitToken_encode hbytes hsignature]
  simp only [compareDigest_self, parsePayload, decodeUtf8_encode, loads_dumped hcodecs hkeys hscalar]

/-- The fields of a state by their keys. -/
theorem sort_state (payload : OAuthStatePayload) (now : DateTime) : sortFields (payload.values sessions now) =
    [("created_at", createdAtOrNow sessions now payload.createdAt), ("jti", .str payload.jti), ("mode", .str payload.mode),
      ("next_path", .str payload.nextPath), ("user_id", optionalStr payload.userId)] := by
  simp [sortFields, OAuthStatePayload.values, List.insertionSort, List.orderedInsert]

theorem state_keys (payload : OAuthStatePayload) (now : DateTime) : ((payload.values sessions now).map (·.1)).Nodup := by
  show ["mode", "next_path", "jti", "user_id", "created_at"].Nodup
  decide

theorem state_scalars (payload : OAuthStatePayload) (now : DateTime) :
    ∀ field ∈ payload.values sessions now, isScalar field.2 = true := by
  cases huser : payload.userId <;> simp [OAuthStatePayload.values, createdAtOrNow, optionalStr, huser, isScalar]

theorem state_lookup (payload : OAuthStatePayload) (now : DateTime) (name : String) :
    (sortFields (payload.values sessions now)).lookup name = (payload.values sessions now).lookup name := by
  rw [sort_state]
  by_cases hname : name ∈ ["mode", "next_path", "jti", "user_id", "created_at"]
  · simp only [List.mem_cons, List.not_mem_nil, or_false] at hname
    rcases hname with rfl | rfl | rfl | rfl | rfl <;> rfl
  · simp only [List.mem_cons, List.not_mem_nil, or_false, not_or] at hname
    obtain ⟨hmode, hnext, hjti, huser, hcreated⟩ := hname
    simp [OAuthStatePayload.values, List.lookup_cons, beq_false_of_ne hmode, beq_false_of_ne hnext, beq_false_of_ne hjti,
      beq_false_of_ne huser, beq_false_of_ne hcreated]

/-- A state is read back from its text. -/
theorem state_round_trips (hcodecs : PythonCodecs json sessions) (payload : OAuthStatePayload) (now : DateTime) :
    RoundTrips sessions ((Minted.oauthState payload).values sessions now) :=
  ⟨_, loads_dumped hcodecs (state_keys payload now) (state_scalars payload now), state_lookup payload now⟩

end

/-! ## A run -/

namespace FlowSample

/-- `str` of a string is the string. -/
def strOf : Json → String
  | .str s => s
  | _ => ""

def sessions : SessionLib := { LifeSample.pythonLib with str := strOf }

def lib : FlowLib where
  toOAuthLib := { Service.Sample.runtime with capitalize := id }
  sessions := sessions
  url := Web.OriginSample.sampleLib
  secretKey := "secret"
  providers := ["google"]
  codeChallenge := fun _ => "challenge"

def ada : User := { Service.Sample.user with id := "ada" }

theorem no_identities : (([] : List UserSsoLink).map UserSsoLink.identity).Nodup := List.nodup_nil

def world : FlowWorld where
  oauth :=
    { base := { Service.Sample.world with users := .single ada, clock := LifeSample.firstOf2026 }
      links := ⟨.empty, no_identities⟩ }
  nonces := .empty

def outside : Outside where
  authenticatedUser cookies _ := .ok (if cookies = "of ada" then some ada else none)
  exchangeCode _ _ _ _ _ := .ok ⟨"google", "1", "ada@example.org", true, none, none⟩
  allowRegistration _ := .ok true
  createSession _ _ := .ok (some ("token", none))

def linking : StartCall := ⟨"google", none, "link", "of ada", .ok "https://i.example", "3f0c1de2", "verifier"⟩

def payload : OAuthStatePayload := ⟨"link", "/settings", "3f0c1de2", some "ada", none⟩

def state : String := OAuthStateManager.dumps sessions "secret" LifeSample.firstOf2026 payload

def callback : CallbackCall :=
  ⟨"google", some state, some "code", none, "of ada", .ok "https://i.example", "c", "new", "link-1"⟩

def calls : List FlowCall := [.start linking, .callback callback, .callback callback]

/-- The start, then one callback after the other. -/
def cs : List (Choice PyExc) := (List.range 3).flatMap fun i => List.replicate 12 (.call i none)

/-- What a state of that day is worth. -/
def readState (now : DateTime) : Except TokenExc (Option OAuthStatePayload) :=
  .ok (if 0 ≤ now - LifeSample.firstOf2026 ∧ now - LifeSample.firstOf2026 ≤ 600 * 1000000 then
    some { payload with createdAt := some "2026-01-01T00:00:00+00:00" } else none)

theorem codecs : PythonCodecs LifeSample.numbers sessions where
  loads := rfl
  dumpsSorted := rfl
  isoformat := rfl
  fromisoformat := LifeSample.python.fromisoformat
  digest := LifeSample.python.digest

theorem strOf_str (s : String) : sessions.str (.str s) = s := rfl

theorem state_is_read (now : DateTime) : oauthCallbackState sessions "secret" now 600 (some state) = readState now := by
  have hverify : verify sessions.toTokenLib "secret" state =
      .ok (some (.dict (sortFields (payload.values sessions LifeSample.firstOf2026)))) :=
    verify_dumped codecs (state_keys _ _) (state_scalars _ _) "secret"
  have hfield : ∀ name s, (payload.values sessions LifeSample.firstOf2026).lookup name = some (.str s) →
      textField sessions.toTokenLib (sortFields (payload.values sessions LifeSample.firstOf2026)) name = strip s := by
    intro name s h
    exact textField_str strOf_str ((state_lookup payload _ name).trans h)
  have hwritten : isoformat LifeSample.firstOf2026 = "2026-01-01T00:00:00+00:00" := by decide +kernel
  have hcreated : textField sessions.toTokenLib (sortFields (payload.values sessions LifeSample.firstOf2026)) "created_at" =
      "2026-01-01T00:00:00+00:00" := by
    refine (hfield "created_at" _ rfl).trans ?_
    show strip (isoformat LifeSample.firstOf2026) = _
    rw [hwritten]
    decide +kernel
  have hread : readIso "2026-01-01T00:00:00+00:00" = some LifeSample.firstOf2026 := by decide +kernel
  have hfresh : freshEnough sessions.toTokenLib now 600 "2026-01-01T00:00:00+00:00" =
      .ok (0 ≤ now - LifeSample.firstOf2026 && now - LifeSample.firstOf2026 ≤ 600 * 1000000) := by
    rw [freshEnough, codecs.fromisoformat _ _ hread]
  have hstate : strOr (some state) "" = state := by
    simp [strOr, state, OAuthStateManager.dumps, dumpsSigned, encodeToken]
  rw [oauthCallbackState, hstate, OAuthStateManager.loads,
    loads_parsed hverify hcreated (by decide) List.not_mem_nil hfresh]
  dsimp only
  rw [hfield "mode" _ rfl, hfield "next_path" _ rfl, hfield "jti" _ rfl, hfield "user_id" _ rfl, hcreated,
    state_lookup payload _ "user_id"]
  have hmode : strip payload.mode = payload.mode := by decide +kernel
  have hnext : strip payload.nextPath = payload.nextPath := by decide +kernel
  have hjti : strip payload.jti = payload.jti := by decide +kernel
  have huser : strip "ada" = "ada" := by decide +kernel
  have htruthy : Tokens.truthy ((payload.values sessions LifeSample.firstOf2026).lookup "user_id") = true := rfl
  rw [hmode, hnext, hjti, huser, htruthy, readState]
  by_cases hin : 0 ≤ now - LifeSample.firstOf2026 ∧ now - LifeSample.firstOf2026 ≤ 600 * 1000000
  · have hboth : (0 ≤ now - LifeSample.firstOf2026 && now - LifeSample.firstOf2026 ≤ 600 * 1000000 : Bool) = true := by
      simpa using hin
    rw [if_pos hin, if_pos hboth]
    rfl
  · have hneither : ¬(0 ≤ now - LifeSample.firstOf2026 && now - LifeSample.firstOf2026 ≤ 600 * 1000000 : Bool) = true := by
      simpa using hin
    rw [if_neg hin, if_neg hneither]
    rfl

/-- The callbacks, with what is read put in. -/
def reading : FlowProg RedirectResponse := do
  let now ← flowNow
  callbackWithState lib callback (readState now)

theorem callback_reads : oauthCallback lib callback = reading := by
  have hread : (fun now => callbackWithState lib callback (oauthCallbackState sessions "secret" now 600 (some state))) =
      fun now => callbackWithState lib callback (readState now) := by
    funext now
    rw [state_is_read]
  exact congrArg (flowNow >>= ·) hread

def pool : FlowPool := (Pool.start world [startOauth lib linking, reading, reading]).run (flowBackend outside) cs

theorem pool_eq : (FlowPool.start lib world calls).run (flowBackend outside) cs = pool := by
  show (Pool.start world [startOauth lib linking, oauthCallback lib callback, oauthCallback lib callback]).run _ _ = pool
  rw [callback_reads]
  rfl

/-- Whether a code was sent. -/
def exchanges (log : FlowLog) : Bool := log.any fun e => match e.req with
  | .inr (.exchangeCode ..) => true
  | _ => false

theorem exchanged_of {log : FlowLog} (h : exchanges log = true) : Exchanged log := by
  obtain ⟨e, he, hx⟩ := List.any_eq_true.mp h
  split at hx
  · next name code uri verifier hreq => exact ⟨name, code, uri, verifier, e, he, hreq⟩
  · cases hx

theorem the_first_exchanges : ∃ t, pool.tasks[1]? = some t ∧ Exchanged t.log := by
  have h : (pool.tasks[1]?.any fun t => exchanges t.log) = true := by decide +kernel
  rw [Option.any_eq_true] at h
  obtain ⟨t, ht, hx⟩ := h
  exact ⟨t, ht, exchanged_of hx⟩

theorem ids : UserIds outside := by
  intro cookies w user h
  have h : (if cookies = "of ada" then some ada else none) = some user := Except.ok.inj h
  split at h
  · obtain rfl := Option.some.inj h
    exact ⟨by decide +kernel, by decide⟩
  · cases h

theorem one_start (j : Nat) (s : StartCall) (h : calls[j]? = some (.start s)) : j = 0 ∧ s = linking := by
  rcases j with _ | _ | _ | j <;> simp [calls] at h
  exact ⟨rfl, h.symm⟩

theorem fresh : FreshJtis world calls where
  distinct i j c c' hi hj _ := (one_start i c hi).1.trans (one_start j c' hj).1.symm
  unused c _ nonce h := by cases h

theorem flowCodecs : FlowCodecs lib calls where
  json payload now := state_round_trips codecs payload now
  str := strOf_str
  jtis c h := by
    obtain ⟨j, hj⟩ := List.getElem?_of_mem h
    rw [(one_start j c hj).2]
    decide +kernel

theorem the_start_issues : ∃ t, pool.tasks[0]? = some t ∧ Issues t state := ⟨_, rfl, "google", _, _, rfl⟩

theorem states_unforged : StatesUnforged lib calls ((FlowPool.start lib world calls).run (flowBackend outside) cs) := by
  intro c now payload hc _
  obtain ⟨t, ht, hissues⟩ := the_start_issues
  have hcallback : c = callback := by simpa [calls] using hc
  rw [pool_eq]
  exact ⟨0, linking, t, state, rfl, ht, hissues, by rw [hcallback]; rfl⟩

end FlowSample

open FlowSample in
/-- The second callback brings the state that the first one has used. -/
theorem the_second_callback_sends_no_code :
    ∃ t u, pool.tasks[1]? = some t ∧ pool.tasks[2]? = some u ∧ Exchanged t.log ∧ ¬Exchanged u.log := by
  obtain ⟨t, ht, hx⟩ := the_first_exchanges
  have hsome : pool.tasks[2]?.isSome = true := by decide +kernel
  obtain ⟨u, hu⟩ := Option.isSome_iff_exists.mp hsome
  rw [← pool_eq] at ht hu ⊢
  exact ⟨t, u, ht, hu, hx,
    a_state_is_used_once lib outside ids world calls fresh cs 1 2 callback callback rfl rfl rfl (by decide) t u ht hu
      hx⟩

end Imghost.OAuth
