/-
  Imghost.ShareX.Suspension — the links of a suspended user.

  `update_user` sweeps the user's links once, and stores the suspension afterwards. An upload
  that was let in before still creates a link between the two, or after them
  (`a_link_survives_the_suspension`); a submit that has consumed a link before still deletes.
  Where no link of the user is created from a sweep on, and no submit is between its link and
  its album when the suspension is stored, the links of a suspended user are of no use, in
  every state reached (`suspended_users_hold_no_links`).
-/

import Imghost.ShareX.Deletions

namespace Imghost.ShareX

open Imghost.Async Imghost.Data Imghost.Model Imghost.Service Program

/-! ## Users and links -/

/-- The suspension of the user is stored. -/
def Suspended (w : World) (u : String) : Prop := ∃ user, w.users.find? u = some user ∧ user.suspended = true

/-- No link of the user can be consumed. -/
def Unarmed (w : World) (u : String) : Prop :=
  ∀ selector c, w.sharexDeleteCapabilities.find? selector = some c → c.userId = u → live w.clock c = false

instance (w : World) (u : String) : Decidable (Suspended w u) :=
  decidable_of_iff ((w.users.find? u).any (·.suspended) = true) (by
    unfold Suspended
    cases w.users.find? u <;> simp)

/-! ## What an update of a user has done -/

structure Sweep where
  loaded : Option User
  /-- Whether the links of the user were revoked. -/
  swept : Bool
  deriving DecidableEq

def Sweep.nothing : Sweep := ⟨none, false⟩

def Sweep.next (g : Sweep) : ShareXCall → Sweep
  | ⟨.inl (.getUser _), .ok found, _⟩ => { g with loaded := found }
  | ⟨.inl (.revokeSharexDeleteCapabilitiesForUser _), .ok _, _⟩ => { g with swept := true }
  | _ => g

abbrev sweep (p : ShareXPool) (i : Nat) : Sweep := p.seen Sweep.next Sweep.nothing i

/-- The task has calls to make. -/
def running (p : ShareXPool) (i : Nat) : Bool := (p.tasks[i]?).any (!·.rest.finished)

/-- Operation `i` updates the user. -/
def updates (ops : List ShareXOp) (u : String) (i : Nat) : Bool :=
  match ops[i]? with
  | some (.service (.updateUser userId _ _ _ _)) => userId == u
  | _ => false

/-- An update has swept the user's links and not stored the suspension yet. -/
def Sweeping (ops : List ShareXOp) (u : String) (p : ShareXPool) (i : Nat) : Prop :=
  running p i = true ∧ updates ops u i = true ∧ (sweep p i).swept = true

/-- A submit has consumed a link of the user, and deleted no album yet. -/
def MidSubmit (u : String) (p : ShareXPool) (i : Nat) : Prop :=
  running p i = true ∧ (spent p i).deleted = none ∧ ((spent p i).capability.map (·.userId)) = some u

instance (ops : List ShareXOp) (u : String) (p : ShareXPool) (i : Nat) : Decidable (Sweeping ops u p i) :=
  inferInstanceAs (Decidable (_ ∧ _))

instance (u : String) (p : ShareXPool) (i : Nat) : Decidable (MidSubmit u p i) := inferInstanceAs (Decidable (_ ∧ _))

/-! ## The claim, and what it takes -/

/-- The operations at hand: suspensions of the user, uploads with API keys, deletion links. -/
def ShareXOp.suspends (u : String) : ShareXOp → Bool
  | .entry _ _ | .confirmPage _ _ | .confirmSubmit _ _ _ | .apiKeyUpload _ => true
  | .service (.updateUser userId payload _ _ _) => userId != u || payload.suspended == some true
  | .service _ => false

/-- The uploads of the user are over. -/
def UploadsDone (ops : List ShareXOp) (u : String) (p : ShareXPool) : Prop :=
  ∀ (i : Nat) (input : ApiKeyUpload), ops[i]? = some (.apiKeyUpload input) → input.userId = u → running p i = false

/-- With the suspension stored and the uploads over, no link of the user can be consumed, and no submit is
    about to delete an album through one. -/
def Disarmed (ops : List ShareXOp) (u : String) (p : ShareXPool) : Prop :=
  Suspended p.world u → UploadsDone ops u p → Unarmed p.world u ∧
    ∀ (i : Nat) (t : Task ShareXReply PyExc ShareXResult) (albumId : String)
      (k : Except PyExc (Option Album) → ShareXProg ShareXResult), p.tasks[i]? = some t →
      t.rest = .call (.inl (.deleteAlbumRow albumId)) k → ∀ c, (spent p i).capability = some c → c.userId ≠ u

/-- What must hold where a call is made: a link of the user is created while no suspension is stored and
    none has swept; the suspension is stored while no submit is between the user's link and its album. -/
def Orderly (ops : List ShareXOp) (u : String) (p : ShareXPool) (_ : Nat) (r : ShareXReq) (fault : Option PyExc) : Prop :=
  match r with
  | .inr (.createSharexDeleteCapability c) => fault = none → c.userId = u →
      ¬ Suspended p.world u ∧ ∀ i < p.tasks.length, ¬ Sweeping ops u p i
  | .inl (.updateUser user) => fault = none → user.id = u → ∀ i < p.tasks.length, ¬ MidSubmit u p i
  | _ => True

instance (ops : List ShareXOp) (u : String) (p : ShareXPool) (i : Nat) (r : ShareXReq) (fault : Option PyExc) :
    Decidable (Orderly ops u p i r fault) := by
  apply @Sum.casesOn _ _ _ r <;> intro r
  · apply @Req.casesOn _ r <;> (intros; delta Orderly; dsimp only; infer_instance)
  · apply @CapabilityReq.casesOn _ r <;> (intros; delta Orderly; dsimp only; infer_instance)

/-! ## One call -/

section

variable {w : World} {u : String} {i : Nat} {r : ShareXReq} {fault : Option PyExc}

/-- A link that is not live before a call is not live after it. -/
theorem unarmed_answer (h : Unarmed w u)
    (hcreate : ∀ c, r = .inr (.createSharexDeleteCapability c) → fault = none → c.userId ≠ u) :
    Unarmed (shareXBackend.answer i r fault w).2 u := by
  intro selector c' hc' huser
  rw [shareX_answer_clock]
  rcases row_before hc' with ⟨c, hc, hsame, hconsumed⟩ | hcreated
  · have hdead := h selector c hc (hsame.userId ▸ huser)
    cases hlive : live w.clock c' with
    | false => rfl
    | true =>
      obtain ⟨hrevoked, hunconsumed, hfresh⟩ := live_fields hlive
      have halive : live w.clock c = true := by
        rcases hconsumed with hconsumed | ⟨_, _, _, _, hc''⟩
        · simp only [live, Bool.and_eq_true, decide_eq_true_eq]
          refine ⟨⟨?_, ?_⟩, hsame.expiresAt ▸ hfresh⟩
          · by_contra hsome
            have := hsame.revoked (by simpa [Option.isNone_iff_eq_none, Option.isSome_iff_ne_none] using hsome)
            rw [hrevoked] at this
            cases this
          · rw [← hconsumed, hunconsumed]
            rfl
        · rw [hc''] at hunconsumed
          cases hunconsumed
      rw [hdead] at halive
      cases halive
  · cases fault with
    | none => exact absurd huser (hcreate c' hcreated rfl)
    | some e =>
      subst hcreated
      exact h selector c' hc' huser

theorem unarmed_elapse (h : Unarmed w u) (d : Nat) : Unarmed (shareXBackend.elapse d w) u := by
  intro selector c hc huser
  have hdead := h selector c hc huser
  cases hlive : live (w.clock + (d : Int)) c with
  | false => exact hlive
  | true =>
    obtain ⟨hrevoked, hunconsumed, hfresh⟩ := live_fields hlive
    have hearlier : w.clock < c.expiresAt := Int.lt_of_le_of_lt (Int.le_add_of_nonneg_right (Int.natCast_nonneg d)) hfresh
    simp [live, hrevoked, hunconsumed, hearlier] at hdead

/-- A sweep leaves no link of the user. -/
theorem unarmed_of_sweep {n : Nat}
    (h : (shareXBackend.answer i (.inl (.revokeSharexDeleteCapabilitiesForUser u)) fault w).1 = .ok n) :
    Unarmed (shareXBackend.answer i (.inl (.revokeSharexDeleteCapabilitiesForUser u)) fault w).2 u := by
  intro selector c' hc' huser
  rw [answer_inl] at h hc'
  rw [answer_of_ok h] at hc'
  simp only [exec, World.revokeSharexDeleteCapabilitiesForUser, Table.find?_modify, Option.map_eq_some_iff] at hc'
  obtain ⟨c, _, rfl⟩ := hc'
  split
  · simp [live, World.revoke]
  · rename_i hmiss
    rw [if_neg hmiss] at huser
    simp only [huser, beq_self_eq_true, Bool.true_and, Bool.and_eq_true, not_and] at hmiss
    cases hconsumed : c.consumedAt with
    | some t => simp [live, hconsumed]
    | none =>
      have hrevoked := hmiss (by rw [hconsumed]; rfl)
      simp only [live, Bool.and_eq_false_iff]
      exact Or.inl (Or.inl (by simpa [Option.isSome_iff_ne_none] using hrevoked))

/-- Calls that leave the rows of users alone. -/
def KeepsUsers : ShareXReq → Prop
  | .inl r => Req.changesUsers r = false
  | .inr _ => True

theorem answer_keepsUsers (h : KeepsUsers r) : (shareXBackend.answer i r fault w).2.users = w.users := by
  rcases r with r | r
  · rw [answer_inl]
    exact answer_users h
  · obtain ⟨t, ht⟩ := @capability_frame i fault r w
    rw [ht]

theorem suspended_of_users {w' : World} (h : w'.users = w.users) : Suspended w' u ↔ Suspended w u := by
  unfold Suspended
  rw [h]

/-- A write of another user, or one that fails, leaves the user alone; one of the user stores what it says. -/
theorem suspended_updateUser {user : User} :
    (Suspended (shareXBackend.answer i (.inl (.updateUser user)) fault w).2 u ↔ Suspended w u) ∨
      user.id = u ∧ fault = none ∧
        (Suspended (shareXBackend.answer i (.inl (.updateUser user)) fault w).2 u ↔ user.suspended = true) := by
  rw [answer_inl]
  cases hx : (backend.answer i (.updateUser user) fault w).1 with
  | error e =>
    left
    exact suspended_of_users (updateUser_error hx)
  | ok stored =>
    obtain ⟨row, _, hfind⟩ := find?_updateUser hx
    by_cases hid : user.id = u
    · right
      refine ⟨hid, ?_, ?_⟩
      · cases fault with
        | none => rfl
        | some e => cases hx
      · unfold Suspended
        rw [hfind, if_pos hid.symm]
        constructor
        · rintro ⟨stored, hstored, hsuspended⟩
          obtain rfl := Option.some.inj hstored
          exact hsuspended
        · exact fun h => ⟨_, rfl, h⟩
    · left
      unfold Suspended
      rw [hfind, if_neg (Ne.symm hid)]

end

/-! ## What the operations ask for -/

/-- The calls of an update of `userId`. Where that is the user `u`, the suspension is stored by one who has
    seen it stored or has swept the links. -/
def CanUpdate (u userId : String) (g : Sweep) : ShareXReq → Prop
  | .inl (.getUser _) => True
  | .inl (.revokeSharexDeleteCapabilitiesForUser id) => id = userId
  | .inl (.updateUser user) => user.id = userId ∧ (userId = u → user.suspended = true ∧
      ∃ loaded, g.loaded = some loaded ∧ loaded.id = u ∧ (loaded.suspended = true ∨ g.swept = true))
  | .inl r => Req.plain r = true
  | .inr _ => False

def suspending (u : String) (ops : List ShareXOp) (i : Nat) : Protocol ShareXReply PyExc Sweep :=
  match ops[i]? with
  | some (.service (.updateUser userId _ _ _ _)) => ⟨CanUpdate u userId, Sweep.next⟩
  | _ => ⟨fun _ r => KeepsUsers r, Sweep.next⟩

section

variable {u userId albumId : String} {ops : List ShareXOp} {i : Nat} {g : Sweep} {r : ShareXReq}

theorem suspending_can (h : (suspending u ops i).can g r) : KeepsUsers r ∨
    ∃ user, r = .inl (.updateUser user) ∧ (user.id = u → updates ops u i = true ∧ user.suspended = true ∧
      ∃ loaded, g.loaded = some loaded ∧ loaded.id = u ∧ (loaded.suspended = true ∨ g.swept = true)) := by
  unfold suspending at h
  split at h
  · rename_i userId _ _ _ _ hop
    rcases r with r | r
    · cases r <;> first | exact Or.inl rfl | cases h; done | skip
      case updateUser user =>
        obtain ⟨hid, hu⟩ := h
        refine Or.inr ⟨user, rfl, fun huser => ?_⟩
        have hupdates : updates ops u i = true := by
          unfold updates
          rw [hop]
          simpa using hid.symm.trans huser
        exact ⟨hupdates, hu (hid.symm.trans huser)⟩
    · exact h.elim
  · exact Or.inl h

theorem suspending_revoke {id : String} (h : (suspending u ops i).can g (.inl (.revokeSharexDeleteCapabilitiesForUser id)))
    (hupdates : updates ops u i = true) : id = u := by
  unfold suspending at h
  unfold updates at hupdates
  split at h
  · rename_i userId _ _ _ _ hop
    rw [hop] at hupdates
    have hid : id = userId := h
    rw [hid]
    simpa using hupdates
  · rename_i hno
    split at hupdates
    · rename_i userId _ _ _ _ hop
      exact absurd hop (hno _ _ _ _ _)
    · cases hupdates

theorem suspending_next : (suspending u ops i).next = Sweep.next := by
  unfold suspending
  split <;> rfl

theorem after_eq_sweep {p : ShareXPool} {t : Task ShareXReply PyExc ShareXResult} (ht : p.tasks[i]? = some t) :
    (suspending u ops i).after Sweep.nothing t.log = sweep p i := by
  rw [sweep, Pool.seen_eq ht, Protocol.after, suspending_next]

/-- A plain call is allowed, and leaves what is known alone. -/
theorem plain_updates (r : Req) (h : Req.plain r = true) : CanUpdate u userId g (.inl r) := by
  cases r <;> first | exact h | cases h

theorem next_of_plain (e : Call) (h : Req.plain e.req = true) : g.next e.widen = g := by
  obtain ⟨r, x, b⟩ := e
  cases r <;> first | rfl | cases h

/-- An announcement, and what follows it. -/
theorem wp_announce {β : Type} {p : Prog Unit} {f : Unit → Prog β} (hp : p.Uses (Req.plain · = true))
    (hf : wp ((⟨CanUpdate u userId, Sweep.next⟩ : Protocol ShareXReply PyExc Sweep).left.machine fun e => HonestReply e.widen)
      (fun _ _ => True) (f ()) g) :
    wp ((⟨CanUpdate u userId, Sweep.next⟩ : Protocol ShareXReply PyExc Sweep).left.machine fun e => HonestReply e.widen)
      (fun _ _ => True) (p >>= f) g :=
  Protocol.wp_pass plain_updates next_of_plain hp (fun _ => hf) fun _ => trivial

theorem revokeOnSuspension_sweeps {user : User} {suspended : Bool} (hid : user.id = userId) :
    wp ((⟨CanUpdate u userId, Sweep.next⟩ : Protocol ShareXReply PyExc Sweep).left.machine fun e => HonestReply e.widen)
      (fun x g' => x = .ok () → g'.loaded = g.loaded ∧ (suspended = true → g'.swept = true))
      (revokeOnSuspension user.id suspended) g := by
  unfold revokeOnSuspension
  rw [wp_ite]
  refine ⟨fun _ => ?_, fun hkept => fun _ => ⟨rfl, fun h => absurd h hkept⟩⟩
  exact Protocol.wp_await hid (fun _ _ _ => fun _ => ⟨rfl, fun _ => rfl⟩) fun _ _ _ h => nomatch h

theorem updateUser_suspends {rt : Runtime} {payload : UserUpdateInput} {correlationId : String} {actorId : Option String}
    {salt : String} (hpayload : userId = u → payload.suspended = some true) :
    wp ((⟨CanUpdate u userId, Sweep.next⟩ : Protocol ShareXReply PyExc Sweep).left.machine fun e => HonestReply e.widen)
      (fun _ _ => True) (updateUser rt userId payload correlationId actorId salt) Sweep.nothing := by
  refine wp_seq (R := fun x g => ∀ user, x = .ok user → g = ⟨some user, false⟩ ∧ user.id = userId) ?_ (fun user g h => ?_)
    fun _ _ _ => trivial
  · refine Protocol.wp_await trivial (fun (found : Option User) _ hfound => ?_) fun _ _ _ _ h => nomatch h
    cases found with
    | none => exact fun _ h => nomatch h
    | some user =>
      intro user' h
      obtain rfl := Except.ok.inj h
      exact ⟨rfl, hfound⟩
  obtain ⟨rfl, hid⟩ := h user rfl
  refine wp_announce (announceAdminStatus_uses (fun _ h => h) _ _ _ _ _) ?_
  -- the sweep, unless the user was suspended when loaded
  refine wp_seq (R := fun x g => x = .ok () → g.loaded = some user ∧
      (userId = u → user.suspended = true ∨ g.swept = true)) ?_ (fun _ g h => ?_) fun _ _ _ => trivial
  · unfold applySuspension
    rw [wp_ite]
    refine ⟨fun hsame => fun _ => ⟨rfl, fun hu => Or.inl ?_⟩, fun _ => ?_⟩
    · rw [hpayload hu] at hsame
      exact hsame.symm
    · refine wp_seq (revokeOnSuspension_sweeps hid) (fun _ g h => ?_) fun _ _ _ h => nomatch h
      obtain ⟨hloaded, hswept⟩ := h rfl
      refine Protocol.wp_stay plain_updates next_of_plain (uses_plain (fun _ h => h) rfl) fun _ _ =>
        ⟨hloaded, fun hu => Or.inr (hswept ?_)⟩
      rw [hpayload hu]
      rfl
  obtain ⟨hloaded, hswept⟩ := h rfl
  refine wp_value (fun passwordHash _ => ?_) fun _ _ => trivial
  refine wp_announce (announceLimits_uses (fun _ h => h) _ _ _ _) ?_
  refine Protocol.wp_await ⟨hid, fun hu => ⟨?_, user, hloaded, hid.trans hu, hswept hu⟩⟩ (fun _ _ _ => trivial) fun _ _ _ => trivial
  show (payload.suspended.getD user.suspended) = true
  rw [hpayload hu]
  rfl

/-- The calls of an upload. -/
def Uploads : ShareXReq → Prop
  | .inl r => Req.changesUsers r = false
  | .inr (.createSharexDeleteCapability _) => True
  | .inr _ => False

def UploadsBase (r : Req) : Prop := Uploads (.inl r)

theorem reads_upload (r : Req) (h : Req.reads r = true) : UploadsBase r := by
  cases r <;> first | rfl | cases h

theorem upload_uploads {rt : Runtime} {input : UploadInput} {draws : Draws} : (Service.upload rt input draws).Uses UploadsBase :=
  upload_uses reads_upload (fun _ => rfl) (fun _ _ => rfl) (fun _ => rfl) (fun _ => rfl) (fun _ => rfl) (fun _ => rfl) _ _ _

theorem askBase_uploads {r : Req} (h : UploadsBase r) : (askBase r).Uses Uploads := uses_perform h

theorem uploadFiles_uploads {lib : ShareXLib} {rt : Runtime} {input : ApiKeyUpload} {user : User} (items : List FileToUpload)
    (activeAlbumId activeDeleteToken : Option String) :
    (uploadFiles lib rt input user items activeAlbumId activeDeleteToken).Uses Uploads := by
  induction items generalizing activeAlbumId activeDeleteToken with
  | nil => trivial
  | cons item items ih =>
    refine uses_bind (uses_widen upload_uploads) fun result => uses_bind ?_ fun _ => uses_bind (ih _ _) fun _ => trivial
    unfold issueLink
    split
    · exact uses_bind (askBase_uploads rfl) fun _ => uses_bind (uses_perform trivial) fun _ => trivial
    · trivial

theorem apiKeyUpload_uploads {lib : ShareXLib} {rt : Runtime} {input : ApiKeyUpload} :
    (apiKeyUpload lib rt input).Uses Uploads := by
  refine uses_bind (uses_bind (askBase_uploads rfl) fun found => ?_) fun user => uploadFiles_uploads _ _ _
  split <;> trivial

/-- The calls of all but a submit. -/
def Spares (r : ShareXReq) : Prop := ∀ selector albumId, r ≠ .inr (.consumeSharexDeleteCapability selector albumId)

theorem uploads_spares (r : ShareXReq) (h : Uploads r) : Spares r := by
  rintro selector albumId rfl
  exact h

theorem uploads_keepsUsers (r : ShareXReq) (h : Uploads r) : KeepsUsers r := by
  rcases r with r | r
  · exact h
  · trivial

theorem aside_spares (r : ShareXReq) (h : Aside r) : Spares r := by
  rintro selector albumId rfl
  exact h

theorem shrinks_keepsUsers (r : ShareXReq) (h : Shrinks r) : KeepsUsers r := by
  rcases r with r | r
  · exact h.1
  · trivial

theorem askBase_shrinks {r : Req} (h : AsideBase r) : (askBase r).Uses Shrinks := uses_perform h

theorem renderTemplatePage_shrinks {page : Page} : (renderTemplatePage page).Uses Shrinks :=
  uses_bind (uses_perform trivial) fun _ => trivial

theorem confirmSubmit_shrinks {load : DateTime → Except PyExc Tokens.ShareXDeleteConfirmationPayload} {correlationId : String} :
    (confirmSubmit load albumId correlationId).Uses Shrinks := by
  refine uses_bind (askBase_shrinks ⟨rfl, Or.inl rfl⟩) fun _ => uses_bind (uses_ofExcept _) fun confirmation =>
    uses_bind (uses_perform trivial) fun consumed => ?_
  split
  · exact uses_bind (uses_perform trivial) fun _ => uses_bind (askBase_shrinks ⟨rfl, Or.inl rfl⟩) fun _ =>
      uses_bind (uses_raiseIf _ _) fun _ => uses_bind renderTemplatePage_shrinks fun _ => trivial
  · refine uses_bind (askBase_shrinks ⟨rfl, Or.inl rfl⟩) fun found => ?_
    split
    · trivial
    · exact uses_bind (uses_widen deleteAlbum_aside) fun _ => uses_bind renderTemplatePage_shrinks fun _ => trivial

variable {config : ShareXConfig} {q : ShareXProg ShareXResult}

theorem prog_spends (hops : ∀ op ∈ ops, op.suspends u = true) (hq : (ops.map (·.prog config))[i]? = some q) :
    wp ((playing Spares config ops i).machine HonestReply) (fun _ _ => True) q Spent.nothing := by
  rw [List.getElem?_map, Option.map_eq_some_iff] at hq
  obtain ⟨op, hop, rfl⟩ := hq
  have hof := hops op (List.mem_of_getElem? hop)
  unfold playing
  rw [hop]
  cases op with
  | confirmSubmit albumId cookie correlationId =>
    exact wp_seq sharexDeleteConfirmSubmit_spends (fun _ _ _ => trivial) fun _ _ _ => trivial
  | entry albumId token =>
    exact Protocol.wp_any (fun _ => aside_spares) (uses_bind entry_aside fun _ => trivial) fun _ _ => trivial
  | confirmPage albumId cookie =>
    exact Protocol.wp_any (fun _ => aside_spares)
      (uses_bind (uses_bind (uses_raiseIf _ _) fun _ => confirmPage_aside) fun _ => trivial) fun _ _ => trivial
  | apiKeyUpload input =>
    exact Protocol.wp_any (fun _ => uploads_spares) (uses_bind apiKeyUpload_uploads fun _ => trivial) fun _ _ => trivial
  | service op =>
    cases op with
    | updateUser userId payload correlationId actorId salt =>
      have huses : (Service.updateUser config.rt userId payload correlationId actorId salt).Uses fun r => Spares (.inl r) :=
        updateUser_uses (fun _ _ => nofun) (fun _ => nofun) (fun _ => nofun) _ _ _ _ _ _
      exact Protocol.wp_any (fun _ _ h => h) (uses_bind (uses_widen (uses_bind huses fun _ => trivial)) fun _ => trivial)
        fun _ _ => trivial
    | _ => cases hof

theorem prog_suspends (hops : ∀ op ∈ ops, op.suspends u = true) (hq : (ops.map (·.prog config))[i]? = some q) :
    wp ((suspending u ops i).machine HonestReply) (fun _ _ => True) q Sweep.nothing := by
  rw [List.getElem?_map, Option.map_eq_some_iff] at hq
  obtain ⟨op, hop, rfl⟩ := hq
  have hof := hops op (List.mem_of_getElem? hop)
  unfold suspending
  rw [hop]
  cases op with
  | confirmSubmit albumId cookie correlationId =>
    exact Protocol.wp_any (fun _ => shrinks_keepsUsers)
      (uses_bind (uses_bind (uses_raiseIf _ _) fun _ => confirmSubmit_shrinks) fun _ => trivial) fun _ _ => trivial
  | entry albumId token =>
    exact Protocol.wp_any (fun _ r h => shrinks_keepsUsers r (aside_shrinks h)) (uses_bind entry_aside fun _ => trivial)
      fun _ _ => trivial
  | confirmPage albumId cookie =>
    exact Protocol.wp_any (fun _ r h => shrinks_keepsUsers r (aside_shrinks h))
      (uses_bind (uses_bind (uses_raiseIf _ _) fun _ => confirmPage_aside) fun _ => trivial) fun _ _ => trivial
  | apiKeyUpload input =>
    exact Protocol.wp_any (fun _ => uploads_keepsUsers) (uses_bind apiKeyUpload_uploads fun _ => trivial) fun _ _ => trivial
  | service op =>
    cases op with
    | updateUser userId payload correlationId actorId salt =>
      have hpayload : userId = u → payload.suspended = some true := by
        intro hu
        simpa [ShareXOp.suspends, hu] using hof
      refine wp_seq (Protocol.wp_widen (wp_seq (R := fun _ _ => True) (Q := fun _ _ => True) (updateUser_suspends hpayload)
        (fun _ _ _ => trivial) fun _ _ _ => trivial)) (fun _ _ _ => trivial) fun _ _ _ => trivial
    | _ => cases hof

end

/-! ## The run -/

structure Holding (config : ShareXConfig) (ops : List ShareXOp) (u : String) (p : ShareXPool) : Prop where
  spends : p.Follows (playing Spares config ops) HonestReply (fun _ _ _ => True) fun _ => Spent.nothing
  suspends : p.Follows (suspending u ops) HonestReply (fun _ _ _ => True) fun _ => Sweep.nothing
  /-- A suspension that was read is still stored. -/
  loaded : ∀ i user, (sweep p i).loaded = some user → user.id = u → user.suspended = true → Suspended p.world u
  swept : ∀ i, Sweeping ops u p i → Unarmed p.world u
  settled : Suspended p.world u → Unarmed p.world u ∧ ∀ i, ¬ MidSubmit u p i
  holders : ∀ i c, (spent p i).capability = some c → ∃ albumId cookie correlationId,
    ops[i]? = some (.confirmSubmit albumId cookie correlationId)

section

variable {config : ShareXConfig} {ops : List ShareXOp} {u : String} {p : ShareXPool} {i j : Nat}
  {t : Task ShareXReply PyExc ShareXResult} {r : ShareXReq} {k : Except PyExc (ShareXReply r) → ShareXProg ShareXResult}
  {fault : Option PyExc} {w : World}

theorem running_of_call (ht : p.tasks[j]? = some t) (hr : t.rest = .call r k) : running p j = true := by
  rw [running, ht, Option.any_some, hr]
  rfl

theorem lt_of_running (h : running p i = true) : i < p.tasks.length := by
  by_contra hlt
  rw [running, List.getElem?_eq_none (Nat.le_of_not_lt hlt)] at h
  cases h

theorem running_before (ht : p.tasks[j]? = some t) (hr : t.rest = .call r k)
    (h : running (p.advance shareXBackend j t r k fault) i = true) : running p i = true := by
  by_cases hij : i = j
  · subst hij
    exact running_of_call ht hr
  · simpa only [running, Pool.advance, List.getElem?_set_ne (Ne.symm hij)] using h

theorem capability_of_next {g : Spent} {b : Bool} {c : ShareXDeleteCapability}
    (h : (g.next ⟨r, (shareXBackend.answer j r fault w).1, b⟩).capability = some c) :
    g.capability = some c ∨ ∃ s a, r = .inr (.consumeSharexDeleteCapability s a) ∧
      (shareXBackend.answer j (.inr (.consumeSharexDeleteCapability s a)) fault w).1 = .ok (some c) := by
  by_cases hconsume : ∃ s a, r = .inr (.consumeSharexDeleteCapability s a)
  · obtain ⟨s, a, rfl⟩ := hconsume
    cases hx : (shareXBackend.answer j (.inr (.consumeSharexDeleteCapability s a)) fault w).1 with
    | error e =>
      rw [hx] at h
      exact Or.inl h
    | ok found =>
      rw [hx] at h
      obtain rfl : found = some c := h
      exact Or.inr ⟨s, a, rfl, hx⟩
  · rw [next_capability fun s a h => hconsume ⟨s, a, h⟩] at h
    exact Or.inl h

theorem loaded_of_next {g : Sweep} {b : Bool} {user : User}
    (h : (g.next ⟨r, (shareXBackend.answer j r fault w).1, b⟩).loaded = some user) :
    g.loaded = some user ∨ w.users.find? user.id = some user := by
  by_cases hget : ∃ id, r = .inl (.getUser id)
  · obtain ⟨id, rfl⟩ := hget
    rw [answer_inl] at h
    cases hx : (backend.answer j (.getUser id) fault w).1 with
    | error e =>
      rw [hx] at h
      exact Or.inl h
    | ok found =>
      rw [hx] at h
      obtain rfl : found = some user := h
      have hfound : w.users.find? id = some user := Except.ok.inj (exec_of_ok hx)
      have hid : user.id = id := Table.find?_key hfound
      rw [hid]
      exact Or.inr hfound
  · left
    rcases r with r | r
    · cases r <;> first | exact absurd ⟨_, rfl⟩ hget | (revert h; cases (shareXBackend.answer j _ fault w).1 <;> exact id)
    · cases r <;> exact h

theorem swept_of_next {g : Sweep} {b : Bool} (h : (g.next ⟨r, (shareXBackend.answer j r fault w).1, b⟩).swept = true) :
    g.swept = true ∨ ∃ id n, r = .inl (.revokeSharexDeleteCapabilitiesForUser id) ∧
      (shareXBackend.answer j (.inl (.revokeSharexDeleteCapabilitiesForUser id)) fault w).1 = .ok n := by
  by_cases hrevoke : ∃ id, r = .inl (.revokeSharexDeleteCapabilitiesForUser id)
  · obtain ⟨id, rfl⟩ := hrevoke
    cases hx : (shareXBackend.answer j (.inl (.revokeSharexDeleteCapabilitiesForUser id)) fault w).1 with
    | error e =>
      rw [hx] at h
      exact Or.inl h
    | ok n => exact Or.inr ⟨id, n, rfl, hx⟩
  · left
    rcases r with r | r
    · cases r <;> first | exact absurd ⟨_, rfl⟩ hrevoke | (revert h; cases (shareXBackend.answer j _ fault w).1 <;> exact id)
    · cases r <;> exact h

theorem Holding.canSuspend (h : Holding config ops u p) (ht : p.tasks[j]? = some t) (hr : t.rest = .call r k) :
    (suspending u ops j).can (sweep p j) r := by
  have hcan := h.suspends.can ht hr
  rwa [after_eq_sweep ht] at hcan

theorem Holding.canSpend (h : Holding config ops u p) (ht : p.tasks[j]? = some t) (hr : t.rest = .call r k) :
    Spares r ∨ ∃ albumId cookie correlationId, ops[j]? = some (.confirmSubmit albumId cookie correlationId) ∧
      CanSpend (loadSharexConfirmation config.lib config.secretKey albumId cookie) albumId (spent p j) r := by
  have hcan := playing_can (h.spends.can ht hr)
  rwa [after_eq_spent ht] at hcan

/-- The holder of a link that is about to delete an album has deleted none. -/
theorem Holding.undeleted (h : Holding config ops u p) (ht : p.tasks[j]? = some t) {a : String}
    {k : Except PyExc (Option Album) → ShareXProg ShareXResult} (hr : t.rest = .call (.inl (.deleteAlbumRow a)) k)
    {c : ShareXDeleteCapability} (hc : (spent p j).capability = some c) : (spent p j).deleted = none := by
  obtain ⟨albumId, cookie, correlationId, hop⟩ := h.holders j c hc
  have hcan := h.spends.can ht hr
  rw [after_eq_spent ht] at hcan
  unfold playing at hcan
  rw [hop] at hcan
  exact hcan.2.1

/-- A call leaves the suspension as it is, or an update of the user stores it. -/
theorem suspension_cases (fault : Option PyExc) (h : Holding config ops u p) (ht : p.tasks[j]? = some t) (hr : t.rest = .call r k) :
    (Suspended (shareXBackend.answer j r fault p.world).2 u ↔ Suspended p.world u) ∨
      ∃ user, r = .inl (.updateUser user) ∧ user.id = u ∧ fault = none ∧ updates ops u j = true ∧
        Suspended (shareXBackend.answer j r fault p.world).2 u ∧
        ∃ loaded, (sweep p j).loaded = some loaded ∧ loaded.id = u ∧ (loaded.suspended = true ∨ (sweep p j).swept = true) := by
  rcases suspending_can (h.canSuspend ht hr) with hkeeps | ⟨user, rfl, hu⟩
  · exact Or.inl (suspended_of_users (answer_keepsUsers hkeeps))
  · rcases @suspended_updateUser p.world u j fault user with hsame | ⟨hid, hfault, hstored⟩
    · exact Or.inl hsame
    · obtain ⟨hupdates, hsuspended, hloaded⟩ := hu hid
      exact Or.inr ⟨user, rfl, hid, hfault, hupdates, hstored.mpr hsuspended, hloaded⟩

theorem Holding.stays_suspended (h : Holding config ops u p) (ht : p.tasks[j]? = some t) (hr : t.rest = .call r k)
    (hsuspended : Suspended p.world u) : Suspended (shareXBackend.answer j r fault p.world).2 u := by
  rcases suspension_cases fault h ht hr with hsame | ⟨_, _, _, _, _, hstored, _⟩
  · exact hsame.mpr hsuspended
  · exact hstored

/-- A submit that is between its link and its album was so before the call, if links cannot be consumed. -/
theorem midSubmit_before (h : Holding config ops u p) (ht : p.tasks[j]? = some t) (hr : t.rest = .call r k)
    (hmid : MidSubmit u (p.advance shareXBackend j t r k fault) i)
    (hunarmed : (∃ s a, r = .inr (.consumeSharexDeleteCapability s a)) → Unarmed p.world u) : MidSubmit u p i := by
  obtain ⟨hrunning, hdeleted, hcapability⟩ := hmid
  have hbefore := running_before ht hr hrunning
  by_cases hij : i = j
  swap
  · have hsame : spent (p.advance shareXBackend j t r k fault) i = spent p i := Pool.seen_advance_of_ne hij
    rw [hsame] at hdeleted hcapability
    exact ⟨hbefore, hdeleted, hcapability⟩
  subst hij
  have hself : spent (p.advance shareXBackend i t r k fault) i =
      (spent p i).next ⟨r, (shareXBackend.answer i r fault p.world).1, fault.isSome⟩ := Pool.seen_advance_self ht
  rw [hself] at hdeleted hcapability
  obtain ⟨c, hc, hcUser⟩ := Option.map_eq_some_iff.mp hcapability
  rcases capability_of_next hc with hheld | ⟨s, a, rfl, hx⟩
  · refine ⟨hbefore, ?_, by rw [hheld, Option.map_some, hcUser]⟩
    by_cases hdelete : ∃ a, r = .inl (.deleteAlbumRow a)
    · obtain ⟨a, rfl⟩ := hdelete
      exact h.undeleted ht hr hheld
    · rwa [next_deleted fun a h => hdelete ⟨a, h⟩] at hdeleted
  · obtain ⟨row, hrow, _, hlive, rfl, _⟩ := consume_ok hx
    have hdead := hunarmed ⟨s, a, rfl⟩ s row hrow hcUser
    rw [hdead] at hlive
    cases hlive

theorem holding_advance (h : Holding config ops u p) (ht : p.tasks[j]? = some t) (hr : t.rest = .call r k)
    (horderly : Orderly ops u p j r fault) : Holding config ops u (p.advance shareXBackend j t r k fault) := by
  have hself : sweep (p.advance shareXBackend j t r k fault) j =
      (sweep p j).next ⟨r, (shareXBackend.answer j r fault p.world).1, fault.isSome⟩ := Pool.seen_advance_self ht
  have hother : ∀ i, i ≠ j → sweep (p.advance shareXBackend j t r k fault) i = sweep p i :=
    fun i hij => Pool.seen_advance_of_ne hij
  -- links of the user that are dead stay dead, while a suspension is stored or has swept
  have hdead : Unarmed p.world u → (Suspended p.world u ∨ ∃ i, Sweeping ops u p i) →
      Unarmed (shareXBackend.answer j r fault p.world).2 u := by
    intro hunarmed hwhy
    refine unarmed_answer hunarmed fun c hc hfault huser => ?_
    subst hc
    obtain ⟨hunsuspended, hnone⟩ := horderly hfault huser
    rcases hwhy with hsuspended | ⟨i, hi⟩
    · exact hunsuspended hsuspended
    · exact hnone i (lt_of_running hi.1) hi
  refine ⟨h.spends.advance ht hr (honest_reply j r fault p.world), h.suspends.advance ht hr (honest_reply j r fault p.world),
    fun i user hloaded hid hsuspended => ?_, fun i hi => ?_, fun hsuspended => ?_, fun i c hc => ?_⟩
  · by_cases hij : i = j
    · subst hij
      rw [hself] at hloaded
      rcases loaded_of_next hloaded with hbefore | hrow
      · exact h.stays_suspended ht hr (h.loaded i user hbefore hid hsuspended)
      · exact h.stays_suspended ht hr ⟨user, hid ▸ hrow, hsuspended⟩
    · rw [hother i hij] at hloaded
      exact h.stays_suspended ht hr (h.loaded i user hloaded hid hsuspended)
  · obtain ⟨hrunning, hupdates, hswept⟩ := hi
    have hbefore := running_before ht hr hrunning
    by_cases hij : i = j
    · subst hij
      rw [hself] at hswept
      rcases swept_of_next hswept with hswept | ⟨id, n, rfl, hx⟩
      · exact hdead (h.swept i ⟨hbefore, hupdates, hswept⟩) (Or.inr ⟨i, hbefore, hupdates, hswept⟩)
      · obtain rfl := suspending_revoke (h.canSuspend ht hr) hupdates
        exact unarmed_of_sweep hx
    · rw [hother i hij] at hswept
      exact hdead (h.swept i ⟨hbefore, hupdates, hswept⟩) (Or.inr ⟨i, hbefore, hupdates, hswept⟩)
  · -- stored before, or by this call
    have hstored : Suspended p.world u → Unarmed (p.advance shareXBackend j t r k fault).world u ∧
        ∀ i, ¬ MidSubmit u (p.advance shareXBackend j t r k fault) i := by
      intro hbefore
      obtain ⟨hunarmed, hnone⟩ := h.settled hbefore
      exact ⟨hdead hunarmed (Or.inl hbefore), fun i hmid => hnone i (midSubmit_before h ht hr hmid fun _ => hunarmed)⟩
    rcases suspension_cases fault h ht hr with hsame | ⟨user, rfl, hid, hfault, hupdates, _, loaded, hloaded, hloadedId, hwhy⟩
    · exact hstored (hsame.mp hsuspended)
    · rcases hwhy with hseen | hswept
      · exact hstored (h.loaded j loaded hloaded hloadedId hseen)
      · have hsweeping : Sweeping ops u p j := ⟨running_of_call ht hr, hupdates, hswept⟩
        refine ⟨hdead (h.swept j hsweeping) (Or.inr ⟨j, hsweeping⟩), fun i hmid => ?_⟩
        have hbefore := midSubmit_before h ht hr hmid nofun
        exact horderly hfault hid i (lt_of_running hbefore.1) hbefore
  · by_cases hij : i = j
    · subst hij
      have hspent : spent (p.advance shareXBackend i t r k fault) i =
          (spent p i).next ⟨r, (shareXBackend.answer i r fault p.world).1, fault.isSome⟩ := Pool.seen_advance_self ht
      rw [hspent] at hc
      rcases capability_of_next hc with hheld | ⟨s, a, rfl, _⟩
      · exact h.holders i c hheld
      · rcases h.canSpend ht hr with hspares | ⟨albumId, cookie, correlationId, hop, _⟩
        · exact absurd rfl (hspares s a)
        · exact ⟨albumId, cookie, correlationId, hop⟩
    · have hspent : spent (p.advance shareXBackend j t r k fault) i = spent p i := Pool.seen_advance_of_ne hij
      rw [hspent] at hc
      exact h.holders i c hc

theorem holding_start (hops : ∀ op ∈ ops, op.suspends u = true) (hclean : Suspended w u → Unarmed w u) :
    Holding config ops u (ShareXPool.start config w ops) := by
  have hspent : ∀ i, spent (ShareXPool.start config w ops) i = Spent.nothing := Pool.seen_start w _
  have hsweep : ∀ i, sweep (ShareXPool.start config w ops) i = Sweep.nothing := Pool.seen_start w _
  refine ⟨Pool.follows_start fun i q hq => prog_spends hops hq, Pool.follows_start fun i q hq => prog_suspends hops hq,
    fun i user hloaded => ?_, fun i hi => ?_, fun hsuspended => ⟨hclean hsuspended, fun i hmid => ?_⟩, fun i c hc => ?_⟩
  · rw [hsweep] at hloaded
    cases hloaded
  · have hswept := hi.2.2
    rw [hsweep] at hswept
    cases hswept
  · have hcapability := hmid.2.2
    rw [hspent] at hcapability
    cases hcapability
  · rw [hspent] at hc
    cases hc

theorem holding_run (hops : ∀ op ∈ ops, op.suspends u = true) (hclean : Suspended w u → Unarmed w u) {cs : List (Choice PyExc)}
    (horderly : (ShareXPool.start config w ops).Meets shareXBackend (Orderly ops u) cs) :
    Holding config ops u ((ShareXPool.start config w ops).run shareXBackend cs) := by
  refine Pool.run_invariant (I := Holding config ops u) (fun p d h => ?_)
    (fun p j t r k fault h ht hr hcall => holding_advance h ht hr hcall) (holding_start hops hclean) horderly
  exact ⟨h.spends, h.suspends, h.loaded, fun i hi => unarmed_elapse (h.swept i hi) d,
    fun hsuspended => ⟨unarmed_elapse (h.settled hsuspended).1 d, (h.settled hsuspended).2⟩, h.holders⟩

end

/-- In a run whose calls are all orderly, in every state reached, the links of a suspended user are of no
    use. -/
theorem suspended_users_hold_no_links (config : ShareXConfig) (w : World) (ops : List ShareXOp) (u : String)
    (cs : List (Choice PyExc)) (hops : ∀ op ∈ ops, op.suspends u = true) (hclean : Suspended w u → Unarmed w u)
    (horderly : (ShareXPool.start config w ops).Meets shareXBackend (Orderly ops u) cs) :
    Disarmed ops u ((ShareXPool.start config w ops).run shareXBackend cs) := by
  have h : Holding config ops u ((ShareXPool.start config w ops).run shareXBackend cs) := holding_run hops hclean horderly
  intro hsuspended _
  obtain ⟨hunarmed, hnone⟩ := h.settled hsuspended
  refine ⟨hunarmed, fun i t albumId k ht hr c hc huser => hnone i ⟨running_of_call ht hr, h.undeleted ht hr hc, ?_⟩⟩
  rw [hc, Option.map_some, huser]

namespace Sample

def picture : FileToUpload where
  file := { filename := some "x.png", contentType := none, chunks := [[1]] }
  draws := Service.Sample.draws ⟨5, by decide⟩
  selector := "new"
  secret := "s"

/-- Alice's upload with her API key. -/
def upload : ShareXOp :=
  .apiKeyUpload { userId := "alice", files := [picture], albumId := none, title := none, deleteToken := none,
                  correlationId := "c", rateLimitKey := none }

/-- An administrator suspends Alice. -/
def suspension : ShareXOp :=
  .service (.updateUser "alice" { isAdmin := .unset, suspended := some true, quotaBytes := .unset, rateLimitRpm := .unset,
                                  rateLimitBph := .unset, password := none } "c" (some "admin") "salt")

def calling (i n : Nat) : List (Choice PyExc) := List.replicate n (.call i none)

/-- The upload is let in; the links are swept; the upload creates its link; the suspension is stored. -/
def sweptTooEarly : List (Choice PyExc) := calling 0 1 ++ calling 1 2 ++ calling 0 30 ++ calling 1 3

def uploadAndSuspension : ShareXPool := ShareXPool.start config site [upload, suspension]

theorem upload_done {p : ShareXPool} (h : running p 0 = false) : UploadsDone [upload, suspension] "alice" p := by
  intro i input hop _
  match i with
  | 0 => exact h
  | 1 => cases hop
  | i + 2 => cases hop

/-- The upload from its first call to its last, then the suspension. -/
def uploadFirst : List (Choice PyExc) := calling 0 30 ++ calling 1 5

/-- The submit has its link when the suspension begins, and deletes the album afterwards. -/
def submitAndSuspension : ShareXPool := Pool.start site [submit, suspension.prog config]

end Sample

open Sample in
/-- Suspended, with no upload under way, and with a link that can be consumed. -/
theorem a_link_survives_the_suspension :
    ¬ Disarmed [upload, suspension] "alice" ((ShareXPool.start config site [upload, suspension]).run shareXBackend sweptTooEarly) := by
  show ¬ Disarmed [upload, suspension] "alice" (uploadAndSuspension.run shareXBackend sweptTooEarly)
  intro h
  have hsuspended : Suspended (uploadAndSuspension.run shareXBackend sweptTooEarly).world "alice" := by decide +kernel
  have hdone : running (uploadAndSuspension.run shareXBackend sweptTooEarly) 0 = false := by decide +kernel
  obtain ⟨hunarmed, _⟩ := h hsuspended (upload_done hdone)
  have hlive : ∃ c, (uploadAndSuspension.run shareXBackend sweptTooEarly).world.sharexDeleteCapabilities.find? "new" = some c ∧
      c.userId = "alice" ∧ live (uploadAndSuspension.run shareXBackend sweptTooEarly).world.clock c = true :=
    ⟨issueCapability shareXLib site.clock "777777777" "alice" "new" "s", by decide +kernel, by decide +kernel, by decide +kernel⟩
  obtain ⟨c, hc, huser, hlive⟩ := hlive
  have hdead := hunarmed "new" c hc huser
  rw [hlive] at hdead
  cases hdead

-- a link that was consumed before the suspension still deletes its album
open Sample in
example : (submitAndSuspension.run shareXBackend (calling 0 2 ++ calling 1 5)).world.users.rows.map (·.suspended) = [true] ∧
    (submitAndSuspension.run shareXBackend (calling 0 2 ++ calling 1 5 ++ calling 0 12)).world.albums.rows = [] := by
  decide +kernel

open Sample in
theorem suspended_users_hold_no_links_here :
    Disarmed [upload, suspension] "alice" ((ShareXPool.start config site [upload, suspension]).run shareXBackend uploadFirst) :=
  suspended_users_hold_no_links config site [upload, suspension] "alice" uploadFirst (by decide +kernel)
    (fun h => absurd h (by decide +kernel)) (by decide +kernel)

end Imghost.ShareX
