/-
  Imghost.Auth.KeyRotation — issuing a key replaces the old one for good.

  An authentication reads the key's row, does other things, and writes the whole row back with
  the time of use. A rotation in between gives the row a new id, so that the write meets no
  row; were an id drawn twice, it would bring the old hash back. With ids that `uuid4` never
  repeats, over every interleaving of issues and authentications of any users:

  - `hashes`: a user's row has the hash of the key stored last;
  - a user has one row at most;
  - a lookup that leads to a principal is made while the token is the user's latest key
    (`rotation_is_final`).
-/

import Imghost.Auth.Csrf

namespace Imghost.Auth

open Imghost.Async Imghost.Data Imghost.Model Imghost.Web Program

/-! ## The table -/

namespace ApiKeys

variable {t t' : ApiKeys} {k : ApiKey} {userId : String}

theorem eq_of_id {a b : ApiKey} (ha : a ∈ t.rows) (hb : b ∈ t.rows) (h : a.id = b.id) : a = b :=
  List.inj_on_of_nodup_map t.unique.ids ha hb h

theorem eq_of_user {a b : ApiKey} (ha : a ∈ t.rows) (hb : b ∈ t.rows) (h : a.userId = b.userId) : a = b :=
  List.inj_on_of_nodup_map t.unique.users ha hb h

theorem byHash_some {keyHash : String} (h : t.byHash keyHash = some k) : k ∈ t.rows ∧ k.keyHash = keyHash :=
  ⟨List.mem_of_find?_eq_some h, by simpa using List.find?_some h⟩

/-- The hash in the user's row. -/
def hashOf (t : ApiKeys) (userId : String) : Option String := (t.ofUser userId).map (·.keyHash)

theorem hashOf_eq_some {keyHash : String} :
    t.hashOf userId = some keyHash ↔ ∃ r ∈ t.rows, r.userId = userId ∧ r.keyHash = keyHash := by
  unfold hashOf ofUser
  rw [Option.map_eq_some_iff]
  constructor
  · intro ⟨r, hr, hh⟩
    exact ⟨r, List.mem_of_find?_eq_some hr, by simpa using List.find?_some hr, hh⟩
  · intro ⟨r, hr, hu, hh⟩
    refine ⟨r, ?_, hh⟩
    cases hfind : t.rows.find? (·.userId == userId) with
    | none =>
      have := List.find?_eq_none.mp hfind r hr
      simp [hu] at this
    | some r' =>
      have huser : r'.userId = userId := by simpa using List.find?_some hfind
      rw [eq_of_user (List.mem_of_find?_eq_some hfind) hr (huser.trans hu.symm)]

theorem commit_rows {rows : List ApiKey} (h : commit rows = .ok t') : t'.rows = rows := by
  unfold commit at h
  split at h
  · rw [← Except.ok.inj h]
  · cases h

/-- After an upsert: the new row and those of other users. -/
theorem mem_upsert (h : t.upsert k = .ok t') (r : ApiKey) : r ∈ t'.rows ↔ r = k ∨ (r ∈ t.rows ∧ r.userId ≠ k.userId) := by
  rw [commit_rows h]
  split
  · rename_i hany
    obtain ⟨old, hold, hu⟩ := List.any_eq_true.mp hany
    rw [List.mem_map]
    constructor
    · intro ⟨a, ha, hr⟩
      by_cases e : a.userId = k.userId
      · exact Or.inl (by simpa [e] using hr.symm)
      · have hra : a = r := by simpa [e] using hr
        exact Or.inr ⟨hra ▸ ha, hra ▸ e⟩
    · intro hr
      rcases hr with hr | ⟨hr, hne⟩
      · exact ⟨old, hold, by simp [beq_iff_eq.mp hu, hr]⟩
      · exact ⟨r, hr, by simp [hne]⟩
  · rename_i hnone
    have hother : ∀ a ∈ t.rows, a.userId ≠ k.userId := by
      intro a ha e
      exact hnone (List.any_eq_true.mpr ⟨a, ha, by simp [e]⟩)
    rw [List.mem_append, List.mem_singleton]
    constructor
    · intro hr
      rcases hr with hr | hr
      · exact Or.inr ⟨hr, hother r hr⟩
      · exact Or.inl hr
    · intro hr
      rcases hr with hr | hr
      · exact Or.inr hr
      · exact Or.inl hr.1

/-- After an update: the row in place of that with its id, and the others. -/
theorem mem_update (h : t.update k = .ok t') :
    (∃ old ∈ t.rows, old.id = k.id) ∧ ∀ r, r ∈ t'.rows ↔ r = k ∨ (r ∈ t.rows ∧ r.id ≠ k.id) := by
  unfold update at h
  split at h
  · rename_i hany
    obtain ⟨old, hold, hid⟩ := List.any_eq_true.mp hany
    have hid : old.id = k.id := by simpa using hid
    refine ⟨⟨old, hold, hid⟩, fun r => ?_⟩
    rw [commit_rows h, List.mem_map]
    constructor
    · intro ⟨a, ha, hr⟩
      by_cases e : a.id = k.id
      · exact Or.inl (by simpa [e] using hr.symm)
      · have hra : a = r := by simpa [e] using hr
        exact Or.inr ⟨hra ▸ ha, hra ▸ e⟩
    · intro hr
      rcases hr with hr | ⟨hr, hne⟩
      · exact ⟨old, hold, by simp [hid, hr]⟩
      · exact ⟨r, hr, by simp [hne]⟩
  · cases h

theorem hashOf_upsert (h : t.upsert k = .ok t') (userId : String) :
    t'.hashOf userId = if k.userId = userId then some k.keyHash else t.hashOf userId := by
  apply Option.ext
  intro keyHash
  rw [hashOf_eq_some]
  by_cases hu : k.userId = userId
  · rw [if_pos hu]
    constructor
    · intro ⟨r, hr, hru, hrh⟩
      rcases (mem_upsert h r).mp hr with e | ⟨_, hne⟩
      · rw [← hrh, e]
      · exact absurd (hru.trans hu.symm) hne
    · intro hk
      exact ⟨k, (mem_upsert h k).mpr (Or.inl rfl), hu, Option.some.inj hk⟩
  · rw [if_neg hu]
    rw [hashOf_eq_some]
    constructor
    · intro ⟨r, hr, hru, hrh⟩
      rcases (mem_upsert h r).mp hr with e | ⟨hr, _⟩
      · exact absurd (e ▸ hru) hu
      · exact ⟨r, hr, hru, hrh⟩
    · intro ⟨r, hr, hru, hrh⟩
      exact ⟨r, (mem_upsert h r).mpr (Or.inr ⟨hr, fun e => hu (e.symm.trans hru)⟩), hru, hrh⟩

/-- An update that leaves user and hash of its row alone changes no hash. -/
theorem hashOf_update (h : t.update k = .ok t')
    (hsame : ∀ r ∈ t.rows, r.id = k.id → r.userId = k.userId ∧ r.keyHash = k.keyHash) (userId : String) :
    t'.hashOf userId = t.hashOf userId := by
  obtain ⟨⟨old, hold, hid⟩, hmem⟩ := mem_update h
  obtain ⟨hou, hoh⟩ := hsame old hold hid
  apply Option.ext
  intro keyHash
  rw [hashOf_eq_some, hashOf_eq_some]
  constructor
  · intro ⟨r, hr, hru, hrh⟩
    rcases (hmem r).mp hr with e | ⟨hr, _⟩
    · exact ⟨old, hold, hou.trans (e ▸ hru), hoh.trans (e ▸ hrh)⟩
    · exact ⟨r, hr, hru, hrh⟩
  · intro ⟨r, hr, hru, hrh⟩
    by_cases e : r.id = k.id
    · obtain ⟨hku, hkh⟩ := hsame r hr e
      exact ⟨k, (hmem k).mpr (Or.inl rfl), hku.symm.trans hru, hkh.symm.trans hrh⟩
    · exact ⟨r, (hmem r).mpr (Or.inr ⟨hr, e⟩), hru, hrh⟩

end ApiKeys

/-! ## Operations -/

inductive KeyOp where
  /-- With the id `uuid4` draws for the key. -/
  | issue (user : User) (correlationId actorId : Option String) (source rawKey keyId : String)
  | authenticate (request : Request) (required : Bool)

inductive KeyResult where
  | issued (result : ApiKeyIssueResult)
  | principal (resolved : Option ResolvedPrincipal)
  deriving DecidableEq

variable (lib : AuthLib) (settings : Option WebSettings)

def KeyOp.prog : KeyOp → AuthProg KeyResult
  | .issue user correlationId actorId source rawKey keyId => do
    let result ← issueApiKey lib user correlationId actorId source rawKey keyId
    return .issued result
  | .authenticate request required => do
    let resolved ← authenticatedPrincipal lib settings request required
    return .principal resolved

/-- The id an operation draws. -/
def KeyOp.drawn : KeyOp → Option String
  | .issue _ _ _ _ _ keyId => some keyId
  | .authenticate _ _ => none

/-- `uuid4` repeats no id: those the operations draw are different from each other and from those of
    the rows. -/
structure FreshIds (w : AuthWorld) (ops : List KeyOp) : Prop where
  distinct : ∀ (i j : Nat) op op' keyId, ops[i]? = some op → ops[j]? = some op' → op.drawn = some keyId →
    op'.drawn = some keyId → i = j
  unused : ∀ op ∈ ops, ∀ r ∈ w.apiKeys.rows, op.drawn ≠ some r.id

abbrev KeyEvent := Event AuthReply AuthExc

/-- The row a call stored as a user's key. -/
def stored : KeyEvent → Option ApiKey
  | ⟨.upsertApiKey k, .ok _, _⟩ => some k
  | _ => none

/-- The hash of the key stored last for a user, beginning with `start`. -/
def latestHash (userId : String) (start : Option String) (es : List KeyEvent) : Option String :=
  es.foldl (fun latest e => match stored e with
    | some k => if k.userId = userId then some k.keyHash else latest
    | none => latest) start

/-! ## What a task knows -/

structure Knowledge where
  /-- The hashes looked up and the rows found. -/
  lookups : List (String × Option ApiKey)
  upserted : Bool

def Knowledge.next (g : Knowledge) : KeyEvent → Knowledge
  | ⟨.getApiKeyByHash keyHash, x, _⟩ => { g with lookups := g.lookups ++ [(keyHash, x.toOption.getD none)] }
  | ⟨.upsertApiKey _, _, _⟩ => { g with upserted := true }
  | _ => g

def CanAsk (op : Option KeyOp) (g : Knowledge) : AuthReq → Prop
  | .upsertApiKey k => g.upserted = false ∧ op.bind (·.drawn) = some k.id
  | .updateApiKey k => ∃ keyHash k₀, (keyHash, some k₀) ∈ g.lookups ∧ k = { k₀ with lastUsedAt := k.lastUsedAt }
  | _ => True

def knowing (op : Option KeyOp) : Protocol AuthReply AuthExc Knowledge := ⟨CanAsk op, Knowledge.next⟩

/-- Replies as the tables give them: the user with the id, the key with the hash. -/
def Honest : KeyEvent → Prop
  | ⟨.getUser userId, .ok (some user), _⟩ => user.id = userId
  | _ => True

/-- A principal of a key was looked up once, by its token, and is the user of the key found. -/
def LookedUp (lib : AuthLib) (resolved : Option ResolvedPrincipal) (g : Knowledge) : Prop :=
  ∀ user token, resolved = some { user := user, rawApiKey := some token } →
    ∃ k, g.lookups = [(lib.sha256 token, some k)] ∧ k.userId = user.id

/-- What is known at the end of an operation. -/
def Ended (lib : AuthLib) (x : Except AuthExc KeyResult) (g : Knowledge) : Prop :=
  ∀ resolved, x = .ok (.principal resolved) → LookedUp lib resolved g

variable {lib settings} {request : Request} {op : Option KeyOp}

theorem ended_of_error {e : AuthExc} {g : Knowledge} : Ended lib (.error e) g := by
  intro _ h
  cases h

/-- What is known at the end of an authentication. -/
def KnowsPrincipal (lib : AuthLib) (x : Except AuthExc (Option ResolvedPrincipal)) (g : Knowledge) : Prop :=
  ∀ resolved, x = .ok resolved → LookedUp lib resolved g

theorem knows_of_error {e : AuthExc} {g : Knowledge} : KnowsPrincipal lib (.error e) g := by
  intro _ h
  cases h

theorem knows_of_no_key {resolved : Option ResolvedPrincipal} {g : Knowledge}
    (h : ∀ p, resolved = some p → p.rawApiKey = none) : KnowsPrincipal lib (.ok resolved) g := by
  intro r hr user token hp
  cases hr
  have := h _ hp
  cases this

/-- A refusal: a call about the limiter, and an exception. -/
theorem refuses {g : Knowledge} {ipKey : String} {e : AuthExc} {Q : Except AuthExc (Option ResolvedPrincipal) → Knowledge → Prop}
    (hQ : ∀ e g, Q (.error e) g) :
    wp ((knowing op).machine Honest) Q (ask (.recordApiKeyFailure ipKey) >>= fun _ => raise e) g :=
  Protocol.wp_await trivial (fun _ _ _ => hQ _ _) fun _ _ _ => hQ _ _

theorem authenticateBearer_knows (s : WebSettings) (token : String) :
    wp ((knowing op).machine Honest) (KnowsPrincipal lib) (authenticateBearer lib s request token) ⟨[], false⟩ := by
  refine Protocol.wp_await trivial (fun _ _ _ => ?_) fun _ _ _ => knows_of_error
  refine Protocol.wp_await trivial (fun (found : Option ApiKey) _ _ => ?_) fun _ _ _ => knows_of_error
  cases found with
  | none => exact refuses fun _ _ => knows_of_error
  | some apiKey =>
    refine Protocol.wp_await trivial (fun (found : Option User) _ hfound => ?_) fun _ _ _ => knows_of_error
    cases huser : found.filter (!·.suspended) with
    | none => exact refuses fun _ _ => knows_of_error
    | some user =>
      have hid : user.id = apiKey.userId := by
        obtain rfl := (Option.filter_eq_some_iff.mp huser).1
        exact hfound
      refine Protocol.wp_await trivial (fun _ _ _ => ?_) fun _ _ _ => knows_of_error
      refine Protocol.wp_await trivial (fun (now : DateTime) _ _ => ?_) fun _ _ _ => knows_of_error
      refine Protocol.wp_await ?_ (fun (_ : ApiKey) _ _ => ?_) fun _ _ _ => knows_of_error
      · exact ⟨_, apiKey, List.mem_cons_self, rfl⟩
      · intro resolved hresolved user' token' hp
        cases hresolved
        cases hp
        exact ⟨apiKey, rfl, hid.symm⟩

theorem nobody_knows (required : Bool) (detail : String) (g : Knowledge) :
    wp ((knowing op).machine Honest) (KnowsPrincipal lib) (nobody required detail) g := by
  unfold nobody
  split
  · exact knows_of_error
  · exact knows_of_no_key fun _ h => nomatch h

theorem authenticateSession_knows (sessionToken : String) (required : Bool) :
    wp ((knowing op).machine Honest) (KnowsPrincipal lib) (authenticateSession sessionToken required) ⟨[], false⟩ := by
  unfold authenticateSession
  rw [wp_bind, wp_attempt, wp_perform]
  refine ⟨trivial, fun x g' _ => ?_⟩
  rw [bindPost_ok]
  cases x with
  | error e =>
    cases e with
    | sessionBackendUnavailable => exact nobody_knows ..
    | _ => exact knows_of_error
  | ok userId =>
    cases hid : userId.filter (· != "") with
    | none =>
      simp only [hid]
      exact nobody_knows ..
    | some userId =>
      simp only [hid]
      refine Protocol.wp_await trivial (fun (found : Option User) _ _ => ?_) fun _ _ _ => knows_of_error
      cases found with
      | none => exact nobody_knows ..
      | some user =>
        rw [wp_ite]
        refine ⟨fun _ => knows_of_error, fun _ => knows_of_no_key ?_⟩
        intro p hp
        cases hp
        rfl

theorem authenticatedPrincipal_knows (request : Request) (required : Bool) :
    wp ((knowing op).machine Honest) (KnowsPrincipal lib) (authenticatedPrincipal lib settings request required) ⟨[], false⟩ := by
  unfold authenticatedPrincipal
  split
  · exact knows_of_error
  · split
    · exact authenticateBearer_knows ..
    · split
      · exact authenticateSession_knows ..
      · exact nobody_knows ..

theorem issueApiKey_knows {user : User} {correlationId actorId : Option String} {source rawKey keyId : String} :
    wp ((knowing (some (.issue user correlationId actorId source rawKey keyId))).machine Honest) (fun _ _ => True)
      (issueApiKey lib user correlationId actorId source rawKey keyId) ⟨[], false⟩ := by
  refine Protocol.wp_await trivial (fun (_ : Option ApiKey) _ _ => ?_) fun _ _ _ => trivial
  refine Protocol.wp_await trivial (fun (now : DateTime) _ _ => ?_) fun _ _ _ => trivial
  refine Protocol.wp_await ⟨rfl, rfl⟩ (fun (_ : ApiKey) _ _ => ?_) fun _ _ _ => trivial
  cases correlationId with
  | none => trivial
  | some correlationId => exact Protocol.wp_await trivial (fun _ _ _ => trivial) fun _ _ _ => trivial

theorem prog_knows (op : KeyOp) :
    wp ((knowing (some op)).machine Honest) (Ended lib) (op.prog lib settings) ⟨[], false⟩ := by
  cases op with
  | issue user correlationId actorId source rawKey keyId =>
    refine wp_seq issueApiKey_knows (fun result _ _ => ?_) fun _ _ _ => ended_of_error
    intro _ h
    cases h
  | authenticate request required =>
    refine wp_seq (authenticatedPrincipal_knows request required) (fun resolved g hg => ?_) fun _ _ _ => ended_of_error
    intro _ h
    cases h
    exact hg resolved rfl

/-! ## The pool -/

abbrev KeyPool := Pool AuthReply AuthExc AuthWorld KeyResult

def KeyPool.start (lib : AuthLib) (settings : Option WebSettings) (w : AuthWorld) (ops : List KeyOp) : KeyPool :=
  Pool.start w (ops.map (·.prog lib settings))

/-- What task `i` knows. -/
abbrev known (p : KeyPool) (i : Nat) : Knowledge := p.seen Knowledge.next ⟨[], false⟩ i

/-- What a call does to the rows. -/
theorem answer_cases (i : Nat) (r : AuthReq) (fault : Option AuthExc) (w : AuthWorld) :
    ((backend.answer i r fault w).2.apiKeys = w.apiKeys ∧
        stored ⟨r, (backend.answer i r fault w).1, fault.isSome⟩ = none) ∨
      (∃ k t, r = .upsertApiKey k ∧ w.apiKeys.upsert k = .ok t ∧ (backend.answer i r fault w).2.apiKeys = t ∧
        stored ⟨r, (backend.answer i r fault w).1, fault.isSome⟩ = some k) ∨
      (∃ k t, r = .updateApiKey k ∧ w.apiKeys.update k = .ok t ∧ (backend.answer i r fault w).2.apiKeys = t ∧
        stored ⟨r, (backend.answer i r fault w).1, fault.isSome⟩ = none) := by
  cases fault with
  | some e =>
    left
    cases r <;> exact ⟨rfl, rfl⟩
  | none =>
    cases r with
    | upsertApiKey k =>
      rw [Backend.answer_none]
      simp only [backend, exec]
      split
      · exact Or.inl ⟨rfl, rfl⟩
      · cases h : w.apiKeys.upsert k with
        | error e => exact Or.inl ⟨rfl, rfl⟩
        | ok t => exact Or.inr (Or.inl ⟨k, t, rfl, h, rfl, rfl⟩)
    | updateApiKey k =>
      rw [Backend.answer_none]
      simp only [backend, exec]
      cases h : w.apiKeys.update k with
      | error e => exact Or.inl ⟨rfl, rfl⟩
      | ok t => exact Or.inr (Or.inr ⟨k, t, rfl, h, rfl, rfl⟩)
    | _ => exact Or.inl ⟨rfl, rfl⟩

theorem answer_honest (i : Nat) (r : AuthReq) (fault : Option AuthExc) (w : AuthWorld) :
    Honest ⟨r, (backend.answer i r fault w).1, fault.isSome⟩ := by
  cases r with
  | getUser userId =>
    cases fault with
    | some e => trivial
    | none =>
      simp only [Backend.answer_none, backend, exec]
      cases h : w.users.find? userId with
      | none => trivial
      | some user => exact Table.find?_key h
  | _ => trivial

/-- What a lookup finds is a row of the table. -/
theorem next_lookups {i : Nat} {r : AuthReq} {fault : Option AuthExc} {w : AuthWorld} {g : Knowledge} {keyHash : String}
    {k : ApiKey} (h : (keyHash, some k) ∈ (g.next ⟨r, (backend.answer i r fault w).1, fault.isSome⟩).lookups) :
    (keyHash, some k) ∈ g.lookups ∨ k ∈ w.apiKeys.rows := by
  cases r with
  | getApiKeyByHash asked =>
    cases fault with
    | some e => exact Or.inl (by simpa [Knowledge.next, backend, fallible, Except.toOption] using h)
    | none =>
      simp only [Backend.answer_none, backend, exec, Knowledge.next, Except.toOption, Option.getD_some, List.mem_append,
        List.mem_singleton, Prod.mk.injEq] at h
      rcases h with h | ⟨_, h⟩
      · exact Or.inl h
      · exact Or.inr (ApiKeys.byHash_some h.symm).1
  | _ => exact Or.inl h

theorem next_upserted {g : Knowledge} {e : KeyEvent} (h : g.upserted = true) : (g.next e).upserted = true := by
  obtain ⟨r, x, b⟩ := e
  cases r with
  | upsertApiKey k => rfl
  | _ => exact h

theorem latestHash_snoc (userId : String) (start : Option String) (es : List KeyEvent) (e : KeyEvent) :
    latestHash userId start (es ++ [e]) = match stored e with
      | some k => if k.userId = userId then some k.keyHash else latestHash userId start es
      | none => latestHash userId start es := by
  simp [latestHash, List.foldl_append]

theorem next_keeps_lookups {g : Knowledge} (e : KeyEvent) {lookup : String × Option ApiKey} (h : lookup ∈ g.lookups) :
    lookup ∈ (g.next e).lookups := by
  obtain ⟨r, x, b⟩ := e
  cases r with
  | getApiKeyByHash keyHash => exact List.mem_append_left _ h
  | _ => exact h

theorem log_keeps_lookups {g : Knowledge} {lookup : String × Option ApiKey} (h : lookup ∈ g.lookups) (log : List KeyEvent) :
    lookup ∈ (log.foldl Knowledge.next g).lookups := by
  induction log generalizing g with
  | nil => exact h
  | cons e log ih => exact ih (next_keeps_lookups e h)

/-- A lookup in a task's log is one it knows. -/
theorem lookup_of_mem_log {log : List KeyEvent} {g : Knowledge} {keyHash : String} {x : Except AuthExc (Option ApiKey)}
    {b : Bool} (h : (⟨.getApiKeyByHash keyHash, x, b⟩ : KeyEvent) ∈ log) :
    (keyHash, x.toOption.getD none) ∈ (log.foldl Knowledge.next g).lookups := by
  induction log generalizing g with
  | nil => cases h
  | cons e log ih =>
    rw [List.foldl_cons]
    rcases List.mem_cons.mp h with rfl | h
    · exact log_keeps_lookups (List.mem_append_right _ List.mem_cons_self) log
    · exact ih h

variable {w₀ : AuthWorld} {ops : List KeyOp}

/-- The id is that of a row from before, or was stored by a task that drew it. -/
def Used (w₀ : AuthWorld) (ops : List KeyOp) (p : KeyPool) (keyId : String) : Prop :=
  (∃ r ∈ w₀.apiKeys.rows, r.id = keyId) ∨
    ∃ j op, ops[j]? = some op ∧ op.drawn = some keyId ∧ (known p j).upserted = true

structure Rotating (lib : AuthLib) (w₀ : AuthWorld) (ops : List KeyOp) (es : List KeyEvent) (p : KeyPool) : Prop where
  hashes : ∀ userId, p.world.apiKeys.hashOf userId = latestHash userId (w₀.apiKeys.hashOf userId) es
  rows_used : ∀ r ∈ p.world.apiKeys.rows, Used w₀ ops p r.id
  lookups_used : ∀ i keyHash k, (keyHash, some k) ∈ (known p i).lookups → Used w₀ ops p k.id
  /-- A row that was looked up and is still there by its id has the same user and hash. -/
  agree : ∀ i keyHash k, (keyHash, some k) ∈ (known p i).lookups → ∀ r ∈ p.world.apiKeys.rows, r.id = k.id →
    r.userId = k.userId ∧ r.keyHash = k.keyHash
  follows : p.Follows (fun i => knowing ops[i]?) Honest (fun _ => Ended lib) fun _ => ⟨[], false⟩

theorem rotating_start : Rotating lib w₀ ops [] (KeyPool.start lib settings w₀ ops) := by
  have hnone : ∀ i, (known (KeyPool.start lib settings w₀ ops) i).lookups = [] := by
    intro i
    rw [known, KeyPool.start, Pool.seen_start]
  refine ⟨fun _ => rfl, fun r hr => Or.inl ⟨r, hr, rfl⟩, fun i _ _ h => ?_, fun i _ _ h => ?_, ?_⟩
  · rw [hnone i] at h
    cases h
  · rw [hnone i] at h
    cases h
  · refine Pool.follows_start fun i q hq => ?_
    rw [List.getElem?_map, Option.map_eq_some_iff] at hq
    obtain ⟨op, hop, rfl⟩ := hq
    rw [hop]
    exact prog_knows op

section

variable {es : List KeyEvent} {p : KeyPool} {i : Nat} {t : Task AuthReply AuthExc KeyResult} {r : AuthReq}
  {k : Except AuthExc (AuthReply r) → AuthProg KeyResult} {fault : Option AuthExc}

theorem known_self (ht : p.tasks[i]? = some t) : known (p.advance backend i t r k fault) i =
    (known p i).next ⟨r, (backend.answer i r fault p.world).1, fault.isSome⟩ := Pool.seen_advance_self ht

theorem Used.advance {keyId : String} (h : Used w₀ ops p keyId) (ht : p.tasks[i]? = some t) :
    Used w₀ ops (p.advance backend i t r k fault) keyId := by
  rcases h with h | ⟨j, op, hop, hdrawn, hup⟩
  · exact Or.inl h
  · refine Or.inr ⟨j, op, hop, hdrawn, ?_⟩
    by_cases hj : j = i
    · subst hj
      rw [known_self ht]
      exact next_upserted hup
    · rw [known, Pool.seen_advance_of_ne hj]
      exact hup

/-- What is looked up after a step was looked up before, or is a row of the table. -/
theorem lookups_advance {j : Nat} {keyHash : String} {found : ApiKey} (ht : p.tasks[i]? = some t)
    (h : (keyHash, some found) ∈ (known (p.advance backend i t r k fault) j).lookups) :
    (keyHash, some found) ∈ (known p j).lookups ∨ found ∈ p.world.apiKeys.rows := by
  by_cases hj : j = i
  · subst hj
    rw [known_self ht] at h
    exact next_lookups h
  · rw [known, Pool.seen_advance_of_ne hj] at h
    exact Or.inl h

theorem rotating_advance (hfresh : FreshIds w₀ ops) (h : Rotating lib w₀ ops es p) (ht : p.tasks[i]? = some t)
    (hr : t.rest = .call r k) :
    Rotating lib w₀ ops (es ++ [⟨r, (backend.answer i r fault p.world).1, fault.isSome⟩]) (p.advance backend i t r k fault) := by
  have hfollows := h.follows.advance ht hr (answer_honest i r fault p.world)
  have hcan : CanAsk ops[i]? (known p i) r := by
    have := h.follows.can ht hr
    rwa [known, Pool.seen_eq ht]
  -- what was looked up is used and agrees with the rows, before the rows change
  have hlookups : ∀ j keyHash found, (keyHash, some found) ∈ (known (p.advance backend i t r k fault) j).lookups →
      Used w₀ ops p found.id ∧
        ∀ r ∈ p.world.apiKeys.rows, r.id = found.id → r.userId = found.userId ∧ r.keyHash = found.keyHash := by
    intro j keyHash found hfound
    rcases lookups_advance ht hfound with hold | hrow
    · exact ⟨h.lookups_used j keyHash found hold, h.agree j keyHash found hold⟩
    · refine ⟨h.rows_used found hrow, fun r hr hid => ?_⟩
      rw [ApiKeys.eq_of_id hr hrow hid]
      exact ⟨rfl, rfl⟩
  have hadvance : (p.advance backend i t r k fault).world = (backend.answer i r fault p.world).2 := rfl
  rcases answer_cases i r fault p.world with ⟨hkeys, hstored⟩ | ⟨stored, rows, rfl, hrows, hkeys, hstored⟩ |
    ⟨updated, rows, rfl, hrows, hkeys, hstored⟩
  · -- no row changes
    refine ⟨fun userId => ?_, fun row hrow => ?_, fun j _ found hfound => ((hlookups j _ found hfound).1).advance ht,
      fun j _ found hfound row hrow => ?_, hfollows⟩
    · rw [latestHash_snoc, hstored, hadvance, hkeys]
      exact h.hashes userId
    · rw [hadvance, hkeys] at hrow
      exact (h.rows_used row hrow).advance ht
    · rw [hadvance, hkeys] at hrow
      exact (hlookups j _ found hfound).2 row hrow
  · -- a new key, with an id nobody has used
    obtain ⟨hnot, hdrawn⟩ := hcan
    obtain ⟨op, hop, hdrawn⟩ := Option.bind_eq_some_iff.mp hdrawn
    have hunused : ¬ Used w₀ ops p stored.id := by
      intro hused
      rcases hused with ⟨row, hrow, hid⟩ | ⟨j, op', hop', hdrawn', hup⟩
      · exact hfresh.unused op (List.mem_of_getElem? hop) row hrow (hid ▸ hdrawn)
      · obtain rfl := hfresh.distinct i j op op' stored.id hop hop' hdrawn hdrawn'
        rw [hnot] at hup
        cases hup
    refine ⟨fun userId => ?_, fun row hrow => ?_, fun j _ found hfound => ((hlookups j _ found hfound).1).advance ht,
      fun j _ found hfound row hrow hid => ?_, hfollows⟩
    · rw [latestHash_snoc, hstored, hadvance, hkeys, ApiKeys.hashOf_upsert hrows, h.hashes]
    · rw [hadvance, hkeys] at hrow
      rcases (ApiKeys.mem_upsert hrows row).mp hrow with rfl | ⟨hrow, _⟩
      · refine Or.inr ⟨i, op, hop, hdrawn, ?_⟩
        rw [known_self ht]
        rfl
      · exact (h.rows_used row hrow).advance ht
    · rw [hadvance, hkeys] at hrow
      rcases (ApiKeys.mem_upsert hrows row).mp hrow with rfl | ⟨hrow, _⟩
      · exact absurd (hid ▸ (hlookups j _ found hfound).1) hunused
      · exact (hlookups j _ found hfound).2 row hrow hid
  · -- the row that was looked up, if it is still there by its id, with the same user and hash
    obtain ⟨keyHash, looked, hlooked, hupdated⟩ := hcan
    have hsame : ∀ row ∈ p.world.apiKeys.rows, row.id = updated.id →
        row.userId = updated.userId ∧ row.keyHash = updated.keyHash := by
      rw [hupdated]
      exact h.agree i keyHash looked hlooked
    obtain ⟨⟨old, hold, hid⟩, hmem⟩ := ApiKeys.mem_update hrows
    refine ⟨fun userId => ?_, fun row hrow => ?_, fun j _ found hfound => ((hlookups j _ found hfound).1).advance ht,
      fun j _ found hfound row hrow hrowid => ?_, hfollows⟩
    · rw [latestHash_snoc, hstored, hadvance, hkeys, ApiKeys.hashOf_update hrows hsame]
      exact h.hashes userId
    · rw [hadvance, hkeys] at hrow
      rcases (hmem row).mp hrow with rfl | ⟨hrow, _⟩
      · exact (hid ▸ h.rows_used old hold).advance ht
      · exact (h.rows_used row hrow).advance ht
    · rw [hadvance, hkeys] at hrow
      rcases (hmem row).mp hrow with rfl | ⟨hrow, _⟩
      · obtain ⟨hu, hh⟩ := hsame old hold hid
        obtain ⟨hu', hh'⟩ := (hlookups j _ found hfound).2 old hold (hid.trans hrowid)
        exact ⟨hu.symm.trans hu', hh.symm.trans hh'⟩
      · exact (hlookups j _ found hfound).2 row hrow hrowid

end

theorem rotating_run (lib : AuthLib) (settings : Option WebSettings) (hfresh : FreshIds w₀ ops) (cs : List (Choice AuthExc)) :
    Rotating lib w₀ ops ((KeyPool.start lib settings w₀ ops).trace backend cs) ((KeyPool.start lib settings w₀ ops).run backend cs) := by
  have h := Pool.run_trace_invariant (B := backend) (C := fun _ _ _ _ => True) (I := Rotating lib w₀ ops)
    (fun p d es h => ⟨h.hashes, h.rows_used, h.lookups_used, h.agree, h.follows⟩)
    (fun p i t r k fault es h ht hr _ => rotating_advance hfresh h ht hr) (@rotating_start lib settings w₀ ops)
    (Pool.meets_true _ cs)
  simpa using h

/-! ## Rotation is final -/

/-- What a rotation promises of a run. -/
structure RotationFinal (lib : AuthLib) (settings : Option WebSettings) (w : AuthWorld) (ops : List KeyOp)
    (cs : List (Choice AuthExc)) : Prop where
  /-- A user's row has the hash of the key stored last. -/
  latest : ∀ userId, ((KeyPool.start lib settings w ops).run backend cs).world.apiKeys.hashOf userId =
    latestHash userId (w.apiKeys.hashOf userId) ((KeyPool.start lib settings w ops).trace backend cs)
  /-- A user has one row at most. -/
  one_row : ∀ a ∈ ((KeyPool.start lib settings w ops).run backend cs).world.apiKeys.rows,
    ∀ b ∈ ((KeyPool.start lib settings w ops).run backend cs).world.apiKeys.rows, a.userId = b.userId → a = b
  /-- An authentication that looked a hash up after `cs₁` and ended with a principal of a key: the hash is
      that of its token, and of the user's key stored last before the lookup. -/
  current : ∀ cs₁ c cs₂ i keyHash fault t user token, cs = cs₁ ++ c :: cs₂ →
    ((KeyPool.start lib settings w ops).run backend cs₁).calling backend c = some (i, .getApiKeyByHash keyHash, fault) →
    ((KeyPool.start lib settings w ops).run backend cs).tasks[i]? = some t →
    t.rest.outcome = some (.ok (.principal (some { user := user, rawApiKey := some token }))) →
    keyHash = lib.sha256 token ∧
      latestHash user.id (w.apiKeys.hashOf user.id) ((KeyPool.start lib settings w ops).trace backend cs₁) = some keyHash

theorem rotation_is_final (lib : AuthLib) (settings : Option WebSettings) (w : AuthWorld) (ops : List KeyOp)
    (hfresh : FreshIds w ops) (cs : List (Choice AuthExc)) : RotationFinal lib settings w ops cs := by
  have h := rotating_run lib settings hfresh cs
  refine ⟨h.hashes, fun a ha b hb => ApiKeys.eq_of_user ha hb, ?_⟩
  intro cs₁ c cs₂ i keyHash fault t user token hcs hcall ht hout
  have hbefore := rotating_run lib settings hfresh cs₁
  -- the lookup stands in the log of the task, which knows of one lookup
  obtain ⟨t', ht', hlogged⟩ := Pool.call_mem_log hcall cs₂
  rw [← Pool.run_append, ← hcs, ht] at ht'
  obtain rfl := Option.some.inj ht'
  obtain ⟨k, hlookups, huser⟩ := h.follows.done ht hout _ rfl user token rfl
  have hmem := lookup_of_mem_log (g := ⟨[], false⟩) hlogged
  change _ ∈ ((knowing ops[i]?).after ⟨[], false⟩ t.log).lookups at hmem
  rw [hlookups, List.mem_singleton, Prod.mk.injEq] at hmem
  obtain ⟨hhash, hfound⟩ := hmem
  refine ⟨hhash, ?_⟩
  -- what it found is a row of the user at that moment
  cases fault with
  | some e => simp [backend, fallible, Except.toOption] at hfound
  | none =>
    simp only [Backend.answer_none, backend, exec, Except.toOption, Option.getD_some] at hfound
    obtain ⟨hrow, hkey⟩ := ApiKeys.byHash_some hfound
    rw [← hbefore.hashes user.id]
    exact ApiKeys.hashOf_eq_some.mpr ⟨k, hrow, huser, hkey⟩

namespace RotationSample

open CsrfSample

def oldKey : ApiKey where
  id := "key-1"
  userId := "alice"
  keyHash := "old"
  createdAt := 0
  lastUsedAt := none

def keyWorld : AuthWorld := { world with apiKeys := ⟨[oldKey], by decide⟩ }

/-- An authentication with the old key, and a rotation. -/
def rotation : List KeyOp :=
  [.authenticate { deletion with headers := [("authorization", "Bearer old")] } true,
    .issue alice none none "api" "new" "key-2"]

/-- The key is replaced between the lookup and the write of its row. -/
def schedule : List (Choice AuthExc) :=
  [.call 0 none, .call 0 none, .call 1 none, .call 1 none, .call 1 none, .call 0 none, .call 0 none, .call 0 none, .call 0 none]

theorem fresh : FreshIds keyWorld rotation := by
  have hdraws : ∀ (i : Nat) op keyId, rotation[i]? = some op → op.drawn = some keyId → i = 1 := by
    intro i op keyId hop hdrawn
    rcases i with _ | _ | i
    · cases hop
      cases hdrawn
    · rfl
    · cases hop
  refine ⟨fun i j op op' keyId hi hj hd hd' => ?_, by decide⟩
  rw [hdraws i op keyId hi hd, hdraws j op' keyId hj hd']

end RotationSample

open RotationSample CsrfSample in
theorem rotation_is_final_here : RotationFinal sampleLib (some OriginSample.sampleSettings) keyWorld rotation schedule ∧
    ((KeyPool.start sampleLib (some OriginSample.sampleSettings) keyWorld rotation).run backend schedule).world.apiKeys.hashOf "alice" =
      some "new" :=
  ⟨rotation_is_final sampleLib (some OriginSample.sampleSettings) keyWorld rotation fresh schedule, by decide +kernel⟩

end Imghost.Auth
