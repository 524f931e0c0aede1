/-
  Imghost.ShareX.Deletions — a link deletes its own album, once.

  Any number of entries, confirmations and deletions by other means run at the same time. A
  submit that deletes an album has consumed one link before, of this album and of a user who
  may delete it; no other call consumes that link (`deletes_once`). The `UPDATE` that consumes
  it finds it unconsumed, unrevoked and unexpired, and the submit has checked its cookie before:
  a confirmation that an entry signed for this link and album at most five minutes before the
  check. The check and the `UPDATE` are two moments, so the confirmation can be older than that
  when the link is consumed (`a_confirmation_grows_old_on_the_way`).
-/

import Imghost.Data.Trim
import Imghost.ShareX.Submit

namespace Imghost.ShareX

open Imghost.Async Imghost.Data Imghost.Model Imghost.Service Imghost.Sessions Imghost.Tokens Program

/-! ## Confirmations -/

/-- What the server has signed. `json` writes and reads it back, and so does `datetime`; a confirmation
    is that of an entry (`entry_signs`), for an id without white space. -/
structure Issued (lib : SessionLib) (settings : SessionSettings) (cookie : String) (minted : Minted) (mintedAt : DateTime) : Prop where
  token : cookie = minted.token lib settings mintedAt
  json : RoundTrips lib (minted.values lib mintedAt)
  date : lib.fromisoformat (lib.isoformat mintedAt) = some (.aware mintedAt)
  date_stripped : strip (lib.isoformat mintedAt) = lib.isoformat mintedAt
  entry : ∀ payload, minted = .sharexConfirmation payload → payload.createdAt = none ∧
    strip payload.selector = payload.selector ∧ strip payload.albumId = payload.albumId

/-- HMAC signatures are not forged: a cookie with a valid signature is one that the server has issued. -/
def Unforged (lib : SessionLib) (secretKey cookie : String) : Prop :=
  ∀ json, verify lib.toTokenLib secretKey cookie = .ok (some json) →
    ∃ settings minted mintedAt, settings.secretKey = secretKey ∧ Issued lib settings cookie minted mintedAt

/-- An entry signed the cookie at `signedAt`, for the link and the album. -/
def SignedFor (lib : SessionLib) (secretKey cookie selector albumId : String) (signedAt : DateTime) : Prop :=
  ∃ userId, cookie = ShareXDeleteTokenManager.dumpsConfirmation lib secretKey signedAt ⟨selector, albumId, userId, none⟩

theorem loads_fresh {β : Type} {m : Manager β} {lib : TokenLib} {secretKey token : String} {now : DateTime} {maxAge : Int} {payload : β}
    (h : m.loads lib secretKey now maxAge token = .ok payload) :
    ∃ fields, verify lib secretKey token = .ok (some (.dict fields)) ∧
      freshEnough lib now maxAge (textField lib fields "created_at") = .ok true := by
  unfold Manager.loads at h
  split at h
  · cases h
  · rename_i fields hverify
    dsimp only at h
    split at h
    · cases h
    · split at h
      · cases h
      · cases h
      · rename_i hfresh
        exact ⟨fields, hverify, hfresh⟩
  · cases h

theorem freshEnough_iff {lib : TokenLib} {now instant : DateTime} {maxAge : Int} {createdAt : String}
    (hdate : lib.fromisoformat createdAt = some (.aware instant)) (h : freshEnough lib now maxAge createdAt = .ok true) :
    instant ≤ now ∧ now ≤ instant + maxAge * 1000000 := by
  rw [freshEnough, hdate] at h
  have hage : (decide (0 ≤ now - instant) && decide (now - instant ≤ maxAge * 1000000)) = true := Except.ok.inj h
  rw [Bool.and_eq_true, decide_eq_true_eq, decide_eq_true_eq] at hage
  exact ⟨Int.sub_nonneg.mp hage.1, Int.le_add_of_sub_left_le hage.2⟩

variable {lib : ShareXLib} {secretKey albumId cookie : String} {now : DateTime}

/-- A confirmation that is taken was signed for the link and the album, at most five minutes before. -/
theorem signed_recently {payload : ShareXDeleteConfirmationPayload} (hstr : ∀ s, lib.str (.str s) = s)
    (hunforged : Unforged lib.toSessionLib secretKey cookie)
    (h : loadSharexConfirmation lib secretKey albumId cookie now = .ok payload) :
    ∃ signedAt, SignedFor lib.toSessionLib secretKey cookie payload.selector albumId signedAt ∧ signedAt ≤ now ∧
      now ≤ signedAt + sharexDeleteConfirmSeconds * 1000000 := by
  obtain ⟨hloads, halbum⟩ := load_ok h
  obtain ⟨fields, hverify, _, hbuild⟩ := @loads_ok lib.toSessionLib _ _ _ _ _ _ _ hloads
  obtain ⟨fields', hverify', hfresh⟩ := loads_fresh hloads
  obtain rfl : fields' = fields := Json.dict.inj (Option.some.inj (Except.ok.inj (hverify'.symm.trans hverify)))
  obtain ⟨settings, minted, mintedAt, rfl, hissued⟩ := hunforged _ hverify
  obtain rfl := hissued.token
  obtain ⟨loaded, hloaded, hlookup⟩ := parsed_values hissued.json hverify
  obtain rfl := Json.dict.inj hloaded
  have hfamily : Family.sharexConfirmation = minted.family := by
    by_contra hother
    refine manager_rejects hissued.json hother ?_ hloads
    intro fields hmissing
    have hempty : textField lib.toTokenLib fields "selector" = "" := textField_missing hmissing
    simp [hempty]
  cases minted with
  | session | oauthState | deleteReauth => cases hfamily
  | sharexConfirmation signed =>
    obtain ⟨hcreated, hselector, hid⟩ := hissued.entry signed rfl
    have htext : ∀ name s, (signed.values lib.toSessionLib mintedAt).lookup name = some (.str s) →
        textField lib.toTokenLib fields' name = strip s :=
      fun name s hs => textField_str hstr ((hlookup name).trans hs)
    have hselectorText := htext "selector" signed.selector rfl
    have halbumText := htext "album_id" signed.albumId rfl
    have hdateText := htext "created_at" (strOr signed.createdAt (lib.isoformat mintedAt)) rfl
    have hdate : textField lib.toTokenLib fields' "created_at" = lib.isoformat mintedAt := by
      rw [hdateText, hcreated]
      exact hissued.date_stripped
    rw [hdate] at hfresh
    obtain ⟨hafter, hbefore⟩ := freshEnough_iff hissued.date hfresh
    refine ⟨mintedAt, ⟨signed.userId, ?_⟩, hafter, hbefore⟩
    have hpayloadSelector : payload.selector = signed.selector := by
      rw [hbuild]
      exact hselectorText.trans hselector
    have hpayloadAlbum : albumId = signed.albumId := by
      rw [← halbum, hbuild]
      exact halbumText.trans hid
    rw [hpayloadSelector, hpayloadAlbum]
    obtain ⟨selector, album, user, created⟩ := signed
    obtain rfl : created = none := hcreated
    rfl

theorem strip_strip (s : String) : strip (strip s) = strip s := by
  have htrim : ∀ s : String, strip s = String.ofList (trim isSpace s.toList) := fun _ => rfl
  rw [htrim (strip s), htrim s, String.toList_ofList, trim_trimmed (trimmed_trim _)]

theorem split_stripped {token selector secret : String} (h : splitCapabilityToken token = some (selector, secret)) :
    strip selector = selector := by
  unfold splitCapabilityToken at h
  dsimp only at h
  split at h
  · cases h
  · obtain ⟨rfl, _⟩ := Prod.mk.inj (Option.some.inj h)
    exact strip_strip _

/-- What an entry answers with: a confirmation for the link and the album. -/
theorem entry_signs {token : Option String} : (sharexDeleteEntry lib secretKey albumId token).Yields fun response =>
    ∃ url confirmation selector signedAt, response = .redirect url confirmation ∧ strip selector = selector ∧
      SignedFor lib.toSessionLib secretKey confirmation selector albumId signedAt := by
  refine yields_then fun _ => ?_
  split
  · trivial
  split
  · trivial
  rename_i token _ parts selector secret hsplit
  refine yields_then fun found => ?_
  split
  · trivial
  rename_i capability
  refine yields_then fun _ => yields_then fun _ => yields_then fun _ => yields_then fun _ => yields_then fun _ =>
    yields_then fun _ => yields_then fun _ => yields_then fun _ => yields_then fun _ => yields_then fun signedAt => ?_
  exact ⟨_, _, selector, signedAt, rfl, split_stripped hsplit, capability.userId, rfl⟩

/-! ## What a run does -/

/-- The links a task has consumed. -/
def consumptions (log : List ShareXCall) : List ShareXDeleteCapability :=
  log.filterMap fun
    | ⟨.inr (.consumeSharexDeleteCapability _ _), .ok found, _⟩ => found
    | _ => none

/-- The albums a task has deleted. -/
def deletions (log : List ShareXCall) : List Album :=
  log.filterMap fun
    | ⟨.inl (.deleteAlbumRow _), .ok found, _⟩ => found
    | _ => none

/-- `sharex_delete_entry`, the two confirmations, and `delete_album`. -/
def ShareXOp.ofDeletion : ShareXOp → Bool
  | .entry _ _ | .confirmPage _ _ | .confirmSubmit _ _ _ | .service (.deleteAlbum _ _ _ _) => true
  | _ => false

/-- The `UPDATE` of task `i` that consumes `c`, in the pool `p`: the row it finds, and the confirmation
    that the task has checked. -/
structure ConsumedRightly (config : ShareXConfig) (ops : List ShareXOp) (p : ShareXPool) (i : Nat) (selector albumId : String)
    (c : ShareXDeleteCapability) : Prop where
  row : ∃ row, p.world.sharexDeleteCapabilities.find? selector = some row ∧ row.albumId = albumId ∧ row.revokedAt = none ∧
    row.consumedAt = none ∧ p.world.clock < row.expiresAt ∧ c = consumed p.world.clock row
  confirmation : ∃ cookie correlationId readAt signedAt, ops[i]? = some (.confirmSubmit albumId cookie correlationId) ∧
    (spent p i).clock = some readAt ∧ readAt ≤ p.world.clock ∧
    SignedFor config.lib.toSessionLib config.secretKey cookie selector albumId signedAt ∧
    signedAt ≤ readAt ∧ readAt ≤ signedAt + sharexDeleteConfirmSeconds * 1000000

/-- A submit deletes at most one album: the one of the link it consumed, which the link's user owns,
    unless the user is an admin. -/
def DeletedRightly (w : World) (log : List ShareXCall) : Prop :=
  deletions log = [] ∨ ∃ c album user, consumptions log = [c] ∧ deletions log = [album] ∧
    w.albums.find? c.albumId = some album ∧ w.users.find? c.userId = some user ∧
    (user.isAdmin = true ∨ album.userId = some c.userId)

/-- The operations `ops` on `w`, after the schedule `cs`. -/
abbrev after (config : ShareXConfig) (w : World) (ops : List ShareXOp) (cs : List (Choice PyExc)) : ShareXPool :=
  (ShareXPool.start config w ops).run shareXBackend cs

/-- What the deletion links do in the run `cs` of `ops` from `w`. -/
structure DeletesOnce (config : ShareXConfig) (w : World) (ops : List ShareXOp) (cs : List (Choice PyExc)) : Prop where
  consumed : ∀ before choice rest, cs = before ++ choice :: rest → ∀ i selector albumId fault c,
    (after config w ops before).calling shareXBackend choice =
      some (i, .inr (.consumeSharexDeleteCapability selector albumId), fault) →
    (shareXBackend.answer i (.inr (.consumeSharexDeleteCapability selector albumId)) fault (after config w ops before).world).1 =
      .ok (some c) →
    ConsumedRightly config ops (after config w ops before) i selector albumId c
  /-- Of all calls, one consumes a link. -/
  once : ∀ (i j : Nat) (t u : Task ShareXReply PyExc ShareXResult), (after config w ops cs).tasks[i]? = some t →
    (after config w ops cs).tasks[j]? = some u → ∀ c ∈ consumptions t.log, ∀ c' ∈ consumptions u.log,
    c.selector = c'.selector → i = j ∧ consumptions t.log = [c]
  deleted : ∀ (i : Nat) (t : Task ShareXReply PyExc ShareXResult) (albumId cookie : String) (correlationId : Option String),
    (after config w ops cs).tasks[i]? = some t → ops[i]? = some (.confirmSubmit albumId cookie correlationId) →
    DeletedRightly w t.log

/-! ### Calls -/

/-- The calls of these operations: no row appears, and of albums and users none changes. -/
def Shrinks : ShareXReq → Prop
  | .inl r => Req.changesUsers r = false ∧ (Req.changesAlbums r = false ∨ ∃ albumId, r = .deleteAlbumRow albumId)
  | .inr (.createSharexDeleteCapability _) => False
  | .inr _ => True

/-- The calls of all but a submit. -/
def Aside : ShareXReq → Prop
  | .inr (.consumeSharexDeleteCapability _ _) => False
  | r => Shrinks r

def AsideBase (r : Req) : Prop := Aside (.inl r)

theorem aside_shrinks {r : ShareXReq} (h : Aside r) : Shrinks r := by
  rcases r with r | r
  · exact h
  · cases r <;> first | exact h.elim | trivial

theorem can_shrinks {load : DateTime → Except PyExc ShareXDeleteConfirmationPayload} {g : Spent} {r : ShareXReq}
    (h : CanSpend load albumId g r) : Shrinks r := by
  rcases r with r | r
  · cases r <;> first | exact ⟨rfl, Or.inl rfl⟩ | exact ⟨rfl, Or.inr ⟨_, rfl⟩⟩ | exact h.elim
  · cases r <;> first | exact h.elim | trivial

theorem reads_aside (r : Req) (h : Req.reads r = true) : AsideBase r := by
  cases r <;> first | exact ⟨rfl, Or.inl rfl⟩ | cases h

theorem deleteAlbum_aside {id : String} {deleteToken : Option String} {correlationId : String} {actorUser : Option User} :
    (deleteAlbum id deleteToken correlationId actorUser).Uses AsideBase :=
  deleteAlbum_uses reads_aside id ⟨rfl, Or.inr ⟨id, rfl⟩⟩ (fun _ => ⟨rfl, Or.inl rfl⟩) deleteToken correlationId actorUser

theorem askBase_aside {r : Req} (h : AsideBase r) : (askBase r).Uses Aside := uses_perform h

theorem entry_aside {token : Option String} : (sharexDeleteEntry lib secretKey albumId token).Uses Aside := by
  refine uses_bind (uses_raiseIf _ _) fun _ => ?_
  split
  · trivial
  split
  · trivial
  refine uses_bind (uses_perform trivial) fun found => ?_
  split
  · trivial
  exact uses_bind (uses_raiseIf _ _) fun _ => uses_bind (uses_raiseIf _ _) fun _ => uses_bind (askBase_aside ⟨rfl, Or.inl rfl⟩) fun _ =>
    uses_bind (uses_raiseIf _ _) fun _ => uses_bind (uses_ofExcept _) fun _ => uses_bind (uses_raiseIf _ _) fun _ =>
    uses_bind (askBase_aside ⟨rfl, Or.inl rfl⟩) fun _ => uses_bind (uses_raiseIf _ _) fun _ =>
    uses_bind (uses_perform trivial) fun _ => uses_bind (askBase_aside ⟨rfl, Or.inl rfl⟩) fun _ => trivial

theorem renderTemplatePage_aside {page : Page} : (renderTemplatePage page).Uses Aside :=
  uses_bind (uses_perform trivial) fun _ => trivial

theorem confirmPage_aside {load : DateTime → Except PyExc ShareXDeleteConfirmationPayload} :
    (confirmPage load albumId).Uses Aside := by
  refine uses_bind (askBase_aside ⟨rfl, Or.inl rfl⟩) fun _ => uses_bind (uses_ofExcept _) fun _ => uses_bind (uses_perform trivial) fun found =>
    uses_bind (askBase_aside ⟨rfl, Or.inl rfl⟩) fun album => ?_
  split
  · trivial
  refine uses_bind (uses_raiseIf _ _) fun _ => uses_bind (askBase_aside ⟨rfl, Or.inl rfl⟩) fun _ => uses_bind (uses_raiseIf _ _) fun _ => ?_
  split
  · exact uses_bind (uses_raiseIf _ _) fun _ => uses_bind renderTemplatePage_aside fun _ => trivial
  · exact uses_bind (uses_raiseIf _ _) fun _ => uses_bind (askBase_aside ⟨rfl, Or.inl rfl⟩)
      fun _ => uses_bind renderTemplatePage_aside fun _ => trivial

/-! ### The tables -/

section

variable {w : World} {j : Nat} {r : ShareXReq} {fault : Option PyExc}

/-- The tables that these calls only take rows from, or leave as they are. -/
structure Within (w w' : World) : Prop where
  users : w'.users = w.users
  albums : ∀ a album, w'.albums.find? a = some album → w.albums.find? a = some album

theorem Within.refl (w : World) : Within w w := ⟨rfl, fun _ _ h => h⟩

theorem Within.trans {w₀ w₁ w₂ : World} (h : Within w₀ w₁) (h' : Within w₁ w₂) : Within w₀ w₂ :=
  ⟨h'.users.trans h.users, fun a album ha => h.albums a album (h'.albums a album ha)⟩

theorem answer_within (h : Shrinks r) : Within w (shareXBackend.answer j r fault w).2 := by
  rcases r with r | r
  · rw [answer_inl]
    refine ⟨answer_users h.1, fun a album ha => ?_⟩
    rcases h.2 with hkept | ⟨albumId, rfl⟩
    · rwa [answer_albums hkept] at ha
    · rcases answer_cases j (.deleteAlbumRow albumId) fault w with hexec | ⟨e, _, hfail⟩
      · rw [hexec, find?_deleteAlbumRow] at ha
        split at ha
        · cases ha
        · exact ha
      · rwa [hfail] at ha
  · obtain ⟨t, ht⟩ := @capability_frame j fault r w
    rw [ht]
    exact ⟨rfl, fun _ _ h => h⟩

end

/-! ### What a submit knows -/

/-- What a submit has been told is what the tables held at the start. -/
structure Knows (w : World) (albumId : String) (now : DateTime) (g : Spent) : Prop where
  clock : ∀ t, g.clock = some t → t ≤ now
  actor : ∀ user, g.actor = some user → ∃ c, g.capability = some c ∧ w.users.find? c.userId = some user
  album : ∀ album, g.album = some album → w.albums.find? albumId = some album
  capability : ∀ c, g.capability = some c → c.albumId = albumId
  deleted : ∀ album, g.deleted = some album → ∃ c user, g.capability = some c ∧ w.albums.find? albumId = some album ∧
    w.users.find? c.userId = some user ∧ Accessible album user

section

variable {w w' : World} {g : Spent} {now' : DateTime} {load : DateTime → Except PyExc ShareXDeleteConfirmationPayload}

theorem knows_nothing : Knows w albumId now Spent.nothing :=
  ⟨fun _ h => (nomatch h), fun _ h => (nomatch h), fun _ h => (nomatch h), fun _ h => (nomatch h), fun _ h => nomatch h⟩

theorem Knows.later (h : Knows w albumId now g) (hle : now ≤ now') : Knows w albumId now' g :=
  ⟨fun t ht => Int.le_trans (h.clock t ht) hle, h.actor, h.album, h.capability, h.deleted⟩

theorem Knows.next {j : Nat} {r : ShareXReq} {fault : Option PyExc} (h : Knows w albumId w'.clock g) (hwithin : Within w w')
    (hcan : CanSpend load albumId g r) :
    Knows w albumId w'.clock (g.next ⟨r, (shareXBackend.answer j r fault w').1, fault.isSome⟩) := by
  rcases r with r | r
  · rw [answer_inl]
    cases hx : (backend.answer j r fault w').1 with
    | error e => cases r <;> exact h
    | ok found =>
      have hexec := exec_of_ok hx
      cases r <;> first | exact h | exact hcan.elim | skip
      case utcnow =>
        obtain rfl : w'.clock = found := Except.ok.inj hexec
        refine ⟨fun t ht => ?_, h.actor, h.album, h.capability, h.deleted⟩
        exact Int.le_of_eq (Option.some.inj ht).symm
      case getUser userId =>
        obtain rfl : w'.users.find? userId = found := Except.ok.inj hexec
        obtain ⟨c, hc, rfl⟩ := hcan
        refine ⟨h.clock, fun user huser => ⟨c, hc, ?_⟩, h.album, h.capability, h.deleted⟩
        rw [← hwithin.users]
        exact huser
      case getAlbum a =>
        obtain rfl : w'.albums.find? a = found := Except.ok.inj hexec
        obtain rfl : a = albumId := hcan
        exact ⟨h.clock, h.actor, fun album halbum => hwithin.albums _ album halbum, h.capability, h.deleted⟩
      case deleteAlbumRow a =>
        obtain rfl : w'.albums.find? a = found := Except.ok.inj hexec
        obtain ⟨rfl, _, c, user, album, hc, huser, halbum, haccess⟩ := hcan
        refine ⟨h.clock, h.actor, h.album, h.capability, fun deleted hdeleted => ⟨c, user, hc, ?_, ?_, ?_⟩⟩
        · exact hwithin.albums _ deleted hdeleted
        · obtain ⟨c', hc', huser'⟩ := h.actor user huser
          obtain rfl := Option.some.inj (hc'.symm.trans hc)
          exact huser'
        · obtain rfl := Option.some.inj ((h.album album halbum).symm.trans (hwithin.albums _ deleted hdeleted))
          exact haccess
  · cases hx : (shareXBackend.answer j (.inr r) fault w').1 with
    | error e => cases r <;> exact h
    | ok found =>
      cases r <;> first | exact h | exact hcan.elim | skip
      case consumeSharexDeleteCapability s a =>
        obtain ⟨hnone, hundeleted, rfl, _⟩ := hcan
        have hactor : ∀ user, g.actor = some user → False := by
          intro user huser
          obtain ⟨c, hc, _⟩ := h.actor user huser
          rw [hnone] at hc
          cases hc
        refine ⟨h.clock, fun user huser => (hactor user huser).elim, h.album, fun c hc => ?_, fun album halbum => ?_⟩
        · obtain rfl : found = some c := hc
          obtain ⟨before, _, hbefore, _, rfl, _⟩ := consume_ok hx
          exact hbefore
        · have halbum : g.deleted = some album := halbum
          rw [hundeleted] at halbum
          cases halbum

end

/-! ### The run -/

structure Deleting (config : ShareXConfig) (w : World) (ops : List ShareXOp) (p : ShareXPool) : Prop where
  follows : p.Follows (playing Aside config ops) HonestReply (fun _ _ _ => True) fun _ => Spent.nothing
  within : Within w p.world
  /-- The link a task has consumed stays consumed as long as it is there. -/
  stays : ∀ i c, (spent p i).capability = some c → ∀ row, p.world.sharexDeleteCapabilities.find? c.selector = some row →
    row.consumedAt.isSome = true
  apart : ∀ i j c c', (spent p i).capability = some c → (spent p j).capability = some c' → c.selector = c'.selector → i = j
  knows : ∀ i albumId cookie correlationId, ops[i]? = some (.confirmSubmit albumId cookie correlationId) →
    Knows w albumId p.world.clock (spent p i)
  consumptions : ∀ i t, p.tasks[i]? = some t → consumptions t.log = (spent p i).capability.toList
  deletions : ∀ i t albumId cookie correlationId, p.tasks[i]? = some t →
    ops[i]? = some (.confirmSubmit albumId cookie correlationId) → deletions t.log = (spent p i).deleted.toList

section

variable {config : ShareXConfig} {w : World} {ops : List ShareXOp} {p : ShareXPool} {j : Nat}
  {t : Task ShareXReply PyExc ShareXResult} {r : ShareXReq} {k : Except PyExc (ShareXReply r) → ShareXProg ShareXResult}
  {fault : Option PyExc}

theorem prog_plays (hops : ∀ op ∈ ops, op.ofDeletion = true) {i : Nat} {q : ShareXProg ShareXResult}
    (hq : (ops.map (·.prog config))[i]? = some q) :
    wp ((playing Aside config ops i).machine HonestReply) (fun _ _ => True) q Spent.nothing := by
  rw [List.getElem?_map, Option.map_eq_some_iff] at hq
  obtain ⟨op, hop, rfl⟩ := hq
  have hof := hops op (List.mem_of_getElem? hop)
  have haside : ∀ {q : ShareXProg ShareXResult}, q.Uses Aside →
      wp ((⟨fun _ r => Aside r, Spent.next⟩ : Protocol ShareXReply PyExc Spent).machine HonestReply) (fun _ _ => True) q Spent.nothing :=
    fun hq => Protocol.wp_any (fun _ _ h => h) hq fun _ _ => trivial
  unfold playing
  rw [hop]
  cases op with
  | confirmSubmit albumId cookie correlationId =>
    exact wp_seq sharexDeleteConfirmSubmit_spends (fun _ _ _ => trivial) fun _ _ _ => trivial
  | entry albumId token => exact haside (uses_bind entry_aside fun _ => trivial)
  | confirmPage albumId cookie =>
    exact haside (uses_bind (uses_bind (uses_raiseIf _ _) fun _ => confirmPage_aside) fun _ => trivial)
  | apiKeyUpload input => cases hof
  | service op =>
    cases op with
    | deleteAlbum albumId deleteToken correlationId actorUser =>
      exact haside (uses_bind (uses_widen (uses_bind deleteAlbum_aside fun _ => trivial)) fun _ => trivial)
    | _ => cases hof

theorem deleting_start (hops : ∀ op ∈ ops, op.ofDeletion = true) : Deleting config w ops (ShareXPool.start config w ops) := by
  have hnothing : ∀ i, spent (ShareXPool.start config w ops) i = Spent.nothing := Pool.seen_start w _
  have hnone : ∀ i c, (spent (ShareXPool.start config w ops) i).capability = some c → False := by
    intro i c hc
    rw [hnothing] at hc
    cases hc
  have hlog : ∀ (i : Nat) (t : Task ShareXReply PyExc ShareXResult), (ShareXPool.start config w ops).tasks[i]? = some t → t.log = [] := by
    intro i t ht
    simp only [ShareXPool.start, Pool.start, List.getElem?_map, Option.map_eq_some_iff] at ht
    obtain ⟨_, _, rfl⟩ := ht
    rfl
  refine ⟨Pool.follows_start fun i q hq => prog_plays hops hq, .refl w, fun i c hc => (hnone i c hc).elim,
    fun i j c c' hc => (hnone i c hc).elim, fun i albumId _ _ _ => ?_, fun i t ht => ?_, fun i t _ _ _ ht _ => ?_⟩
  · rw [hnothing]
    exact knows_nothing
  · rw [hnothing, hlog i t ht]
    rfl
  · rw [hnothing, hlog i t ht]
    rfl

/-- The call of a task, as its protocol has it. -/
theorem Deleting.can (h : Deleting config w ops p) (ht : p.tasks[j]? = some t) (hr : t.rest = .call r k) :
    Aside r ∨ ∃ albumId cookie correlationId, ops[j]? = some (.confirmSubmit albumId cookie correlationId) ∧
      CanSpend (loadSharexConfirmation config.lib config.secretKey albumId cookie) albumId (spent p j) r := by
  have hcan := playing_can (h.follows.can ht hr)
  rwa [after_eq_spent ht] at hcan

theorem Deleting.shrinks (h : Deleting config w ops p) (ht : p.tasks[j]? = some t) (hr : t.rest = .call r k) : Shrinks r := by
  rcases h.can ht hr with haside | ⟨_, _, _, _, hcan⟩
  · exact aside_shrinks haside
  · exact can_shrinks hcan

theorem Deleting.canSpend (h : Deleting config w ops p) (ht : p.tasks[j]? = some t) (hr : t.rest = .call r k)
    {albumId cookie : String} {correlationId : Option String} (hop : ops[j]? = some (.confirmSubmit albumId cookie correlationId)) :
    CanSpend (loadSharexConfirmation config.lib config.secretKey albumId cookie) albumId (spent p j) r := by
  have hcan := h.follows.can ht hr
  rw [after_eq_spent ht] at hcan
  unfold playing at hcan
  rwa [hop] at hcan

/-- What task `j` has consumed after its call: what it had before, or what the `UPDATE` gave it. -/
theorem capability_cases (fault : Option PyExc) (h : Deleting config w ops p) (ht : p.tasks[j]? = some t) (hr : t.rest = .call r k) :
    (spent (p.advance shareXBackend j t r k fault) j).capability = (spent p j).capability ∧
        consumptions [⟨r, (shareXBackend.answer j r fault p.world).1, fault.isSome⟩] = [] ∨
      ∃ s a c, r = .inr (.consumeSharexDeleteCapability s a) ∧
        (shareXBackend.answer j (.inr (.consumeSharexDeleteCapability s a)) fault p.world).1 = .ok (some c) ∧
        (spent p j).capability = none ∧ (spent (p.advance shareXBackend j t r k fault) j).capability = some c ∧
        consumptions [⟨r, (shareXBackend.answer j r fault p.world).1, fault.isSome⟩] = [c] := by
  have hself : spent (p.advance shareXBackend j t r k fault) j =
      (spent p j).next ⟨r, (shareXBackend.answer j r fault p.world).1, fault.isSome⟩ := Pool.seen_advance_self ht
  by_cases hconsume : ∃ s a, r = .inr (.consumeSharexDeleteCapability s a)
  · obtain ⟨s, a, rfl⟩ := hconsume
    have hnone : (spent p j).capability = none := by
      rcases h.can ht hr with haside | ⟨_, _, _, _, hcan⟩
      · exact haside.elim
      · exact hcan.1
    rw [hself]
    cases hx : (shareXBackend.answer j (.inr (.consumeSharexDeleteCapability s a)) fault p.world).1 with
    | error e => exact Or.inl ⟨rfl, rfl⟩
    | ok found =>
      cases found with
      | none => exact Or.inl ⟨hnone.symm, rfl⟩
      | some c => exact Or.inr ⟨s, a, c, rfl, hx, hnone, rfl, rfl⟩
  · refine Or.inl ⟨?_, ?_⟩
    · rw [hself, next_capability fun s a h => hconsume ⟨s, a, h⟩]
    · rcases r with r | r
      · rfl
      · cases r <;> first | exact absurd ⟨_, _, rfl⟩ hconsume | rfl

/-- A row whose consumption nobody has waited for. -/
theorem not_spent_of_live (h : Deleting config w ops p) {i : Nat} {c row : ShareXDeleteCapability} {selector : String}
    (hrow : p.world.sharexDeleteCapabilities.find? selector = some row) (hlive : live p.world.clock row = true)
    (hc : (spent p i).capability = some c) : c.selector ≠ selector := by
  intro hselector
  have hconsumed := h.stays i c hc row (by rw [hselector, hrow])
  simp only [live, Bool.and_eq_true] at hlive
  rw [Option.isNone_iff_eq_none.mp hlive.1.2] at hconsumed
  cases hconsumed

/-- The rows of what was consumed stay consumed through a call. -/
theorem stays_through (h : Deleting config w ops p) (hshrinks : Shrinks r) {i : Nat} {c row : ShareXDeleteCapability}
    (hc : (spent p i).capability = some c)
    (hrow : (shareXBackend.answer j r fault p.world).2.sharexDeleteCapabilities.find? c.selector = some row) :
    row.consumedAt.isSome = true := by
  rcases row_before hrow with ⟨row₀, hrow₀, _, hsame | ⟨_, _, _, _, hconsumed⟩⟩ | hcreated
  · rw [hsame]
    exact h.stays i c hc row₀ hrow₀
  · rw [hconsumed]
    rfl
  · subst hcreated
    exact hshrinks.elim

theorem deletions_cases (h : Deleting config w ops p) (ht : p.tasks[j]? = some t) (hr : t.rest = .call r k)
    {albumId cookie : String} {correlationId : Option String} (hop : ops[j]? = some (.confirmSubmit albumId cookie correlationId)) :
    (deletions t.log ++ deletions [⟨r, (shareXBackend.answer j r fault p.world).1, fault.isSome⟩] : List Album) =
      (spent (p.advance shareXBackend j t r k fault) j).deleted.toList := by
  have hself : spent (p.advance shareXBackend j t r k fault) j =
      (spent p j).next ⟨r, (shareXBackend.answer j r fault p.world).1, fault.isSome⟩ := Pool.seen_advance_self ht
  rw [hself, h.deletions j t albumId cookie correlationId ht hop]
  by_cases hdelete : ∃ a, r = .inl (.deleteAlbumRow a)
  · obtain ⟨a, rfl⟩ := hdelete
    have hnone : (spent p j).deleted = none := (h.canSpend ht hr hop).2.1
    rw [hnone]
    cases hx : (shareXBackend.answer j (.inl (.deleteAlbumRow a)) fault p.world).1 with
    | error e => exact (congrArg Option.toList hnone).symm
    | ok found => cases found <;> rfl
  · rw [next_deleted fun a h => hdelete ⟨a, h⟩]
    have hnil : deletions [⟨r, (shareXBackend.answer j r fault p.world).1, fault.isSome⟩] = [] := by
      rcases r with r | r
      · cases r <;> first | exact absurd ⟨_, rfl⟩ hdelete | rfl
      · rfl
    rw [hnil, List.append_nil]

theorem deleting_advance (h : Deleting config w ops p) (ht : p.tasks[j]? = some t) (hr : t.rest = .call r k) :
    Deleting config w ops (p.advance shareXBackend j t r k fault) := by
  have hshrinks := h.shrinks ht hr
  have hself : spent (p.advance shareXBackend j t r k fault) j =
      (spent p j).next ⟨r, (shareXBackend.answer j r fault p.world).1, fault.isSome⟩ := Pool.seen_advance_self ht
  have hother : ∀ i, i ≠ j → spent (p.advance shareXBackend j t r k fault) i = spent p i :=
    fun i hij => Pool.seen_advance_of_ne hij
  have hcapability := capability_cases fault h ht hr
  -- what a task has consumed now: before, or in this call
  have hhas : ∀ i c, (spent (p.advance shareXBackend j t r k fault) i).capability = some c →
      (spent p i).capability = some c ∨ i = j ∧ ∃ s a, r = .inr (.consumeSharexDeleteCapability s a) ∧
        (shareXBackend.answer j (.inr (.consumeSharexDeleteCapability s a)) fault p.world).1 = .ok (some c) := by
    intro i c hc
    by_cases hij : i = j
    · subst hij
      rcases hcapability with ⟨hsame, _⟩ | ⟨s, a, c', hr', hx, _, hnow, _⟩
      · rw [hsame] at hc
        exact Or.inl hc
      · rw [hnow] at hc
        obtain rfl := Option.some.inj hc
        exact Or.inr ⟨rfl, s, a, hr', hx⟩
    · rw [hother i hij] at hc
      exact Or.inl hc
  refine ⟨h.follows.advance ht hr (honest_reply j r fault p.world), h.within.trans (answer_within hshrinks), ?_, ?_, ?_, ?_, ?_⟩
  · intro i c hc row hrow
    rcases hhas i c hc with hbefore | ⟨_, s, a, rfl, hx⟩
    · exact stays_through h hshrinks hbefore hrow
    · obtain ⟨row₀, hrow₀, _, _, rfl, hafter⟩ := consume_ok hx
      obtain rfl : row₀.selector = s := Table.find?_key hrow₀
      obtain rfl := Option.some.inj (hafter.symm.trans hrow)
      rfl
  · intro i i' c c' hc hc' hselector
    -- the row of a second consumption would not be live
    rcases hhas i c hc with hbefore | ⟨rfl, s, a, rfl, hx⟩
    · rcases hhas i' c' hc' with hbefore' | ⟨rfl, s, a, rfl, hx⟩
      · exact h.apart i i' c c' hbefore hbefore' hselector
      · obtain ⟨row, hrow, _, hlive, rfl, _⟩ := consume_ok hx
        have hkey : row.selector = s := Table.find?_key hrow
        exact absurd (hselector.trans hkey) (not_spent_of_live h hrow hlive hbefore)
    · rcases hhas i' c' hc' with hbefore' | ⟨rfl, _⟩
      · obtain ⟨row, hrow, _, hlive, rfl, _⟩ := consume_ok hx
        have hkey : row.selector = s := Table.find?_key hrow
        exact absurd (hselector.symm.trans hkey) (not_spent_of_live h hrow hlive hbefore')
      · rfl
  · intro i albumId cookie correlationId hop
    have hclock : (p.advance shareXBackend j t r k fault).world.clock = p.world.clock := shareX_answer_clock r p.world
    by_cases hij : i = j
    · subst hij
      rw [hself, hclock]
      exact (h.knows i albumId cookie correlationId hop).next h.within (h.canSpend ht hr hop)
    · rw [hother i hij, hclock]
      exact h.knows i albumId cookie correlationId hop
  · intro i u hu
    rcases Pool.advance_tasks hu with ⟨rfl, rfl⟩ | ⟨hij, hu⟩
    · show consumptions (t.log ++ [_]) = _
      rw [consumptions, List.filterMap_append]
      show consumptions t.log ++ consumptions [_] = _
      rw [h.consumptions i t ht]
      rcases hcapability with ⟨hsame, hnil⟩ | ⟨s, a, c, _, _, hnone, hnow, hone⟩
      · rw [hsame, hnil, List.append_nil]
      · rw [hnow, hone, hnone]
        rfl
    · rw [hother i hij]
      exact h.consumptions i u hu
  · intro i u albumId cookie correlationId hu hop
    rcases Pool.advance_tasks hu with ⟨rfl, rfl⟩ | ⟨hij, hu⟩
    · show deletions (t.log ++ [_]) = _
      rw [deletions, List.filterMap_append]
      exact deletions_cases h ht hr hop
    · rw [hother i hij]
      exact h.deletions i u albumId cookie correlationId hu hop

theorem deleting_run (hops : ∀ op ∈ ops, op.ofDeletion = true) (cs : List (Choice PyExc)) :
    Deleting config w ops (after config w ops cs) := by
  refine Pool.run_invariant (I := Deleting config w ops) (fun p d h => ?_)
    (fun p j t r k fault h ht hr _ => deleting_advance h ht hr) (deleting_start hops) (Pool.meets_true _ cs)
  refine ⟨h.follows, ⟨h.within.users, h.within.albums⟩, h.stays, h.apart, fun i albumId cookie correlationId hop => ?_,
    h.consumptions, h.deletions⟩
  exact (h.knows i albumId cookie correlationId hop).later (Int.le_add_of_nonneg_right (Int.natCast_nonneg d))


theorem Deleting.consumed (h : Deleting config w ops p) (ht : p.tasks[j]? = some t) {selector albumId : String}
    {k : Except PyExc (Option ShareXDeleteCapability) → ShareXProg ShareXResult}
    (hr : t.rest = .call (.inr (.consumeSharexDeleteCapability selector albumId)) k) {c : ShareXDeleteCapability}
    (hx : (shareXBackend.answer j (.inr (.consumeSharexDeleteCapability selector albumId)) fault p.world).1 = .ok (some c))
    (hstr : ∀ s, config.lib.str (.str s) = s)
    (hunforged : ∀ albumId cookie correlationId, .confirmSubmit albumId cookie correlationId ∈ ops →
      Unforged config.lib.toSessionLib config.secretKey cookie) :
    ConsumedRightly config ops p j selector albumId c := by
  rcases h.can ht hr with haside | ⟨albumId, cookie, correlationId, hop, hcan⟩
  · exact haside.elim
  obtain ⟨_, _, rfl, readAt, payload, hclock, hload, rfl⟩ := hcan
  obtain ⟨row, hrow, halbum, hlive, rfl, _⟩ := consume_ok hx
  obtain ⟨hrevoked, hunconsumed, hfresh⟩ := live_fields hlive
  obtain ⟨signedAt, hsigned, hafter, hbefore⟩ :=
    signed_recently hstr (hunforged _ cookie correlationId (List.mem_of_getElem? hop)) hload
  exact ⟨⟨row, hrow, halbum, hrevoked, hunconsumed, hfresh, rfl⟩,
    ⟨cookie, correlationId, readAt, signedAt, hop, hclock, (h.knows j _ cookie correlationId hop).clock readAt hclock, hsigned,
      hafter, hbefore⟩⟩

theorem Deleting.deleted (h : Deleting config w ops p) (htokens : ∀ album ∈ w.albums, album.deleteToken ≠ some "")
    (ht : p.tasks[j]? = some t) {albumId cookie : String} {correlationId : Option String}
    (hop : ops[j]? = some (.confirmSubmit albumId cookie correlationId)) : DeletedRightly w t.log := by
  have hdeletions := h.deletions j t albumId cookie correlationId ht hop
  have hknows := h.knows j albumId cookie correlationId hop
  cases hdeleted : (spent p j).deleted with
  | none =>
    rw [hdeleted] at hdeletions
    exact Or.inl hdeletions
  | some album =>
    obtain ⟨c, user, hc, halbum, huser, haccess⟩ := hknows.deleted album hdeleted
    obtain rfl := hknows.capability c hc
    rw [hdeleted] at hdeletions
    refine Or.inr ⟨c, album, user, ?_, hdeletions, halbum, huser, ?_⟩
    · rw [h.consumptions j t ht, hc]
      rfl
    · rcases haccess with howner | htoken
      · have hid : user.id = c.userId := Table.find?_key huser
        simpa [adminOrOwner, hid] using howner
      · exact absurd htoken (htokens album (Table.find?_mem halbum))

end

namespace Sample

open FamiliesSample

/-- The cookie as its entry issued it. -/
def mintedSubmit : Minted := .sharexConfirmation ⟨"sel", "222222222", "alice", none⟩

def keyed : SessionSettings := { sampleSettings with secretKey := "secret" }

theorem cookie_round_trips : RoundTrips shareXLib.toSessionLib (mintedSubmit.values shareXLib.toSessionLib firstOf2026) := by
  have hloads : shareXLib.jsonLoads Sample.confirmationText = .ok (.dict Sample.confirmationFields) := by
    show loadsText Sample.confirmationText = _
    rw [loadsText, if_pos rfl]
  refine ⟨Sample.confirmationFields, hloads, fun name => ?_⟩
  have hvalues : mintedSubmit.values shareXLib.toSessionLib firstOf2026 =
      [("selector", .str "sel"), ("album_id", .str "222222222"), ("user_id", .str "alice"),
        ("created_at", .str "2026-01-01T00:00:00+00:00")] := rfl
  rw [hvalues, Sample.confirmationFields]
  by_cases hselector : name = "selector"
  · subst hselector
    rfl
  · by_cases halbum : name = "album_id"
    · subst halbum
      rfl
    · by_cases huser : name = "user_id"
      · subst huser
        rfl
      · have hs : (name == "selector") = false := by simpa using hselector
        have ha : (name == "album_id") = false := by simpa using halbum
        have hu : (name == "user_id") = false := by simpa using huser
        simp [List.lookup_cons, hs, ha, hu]

theorem cookie_unforged : Unforged shareXLib.toSessionLib "secret" signedCookie := by
  intro json _
  refine ⟨keyed, mintedSubmit, firstOf2026, rfl, rfl, cookie_round_trips, rfl, by decide +kernel, fun payload hpayload => ?_⟩
  obtain rfl := Minted.sharexConfirmation.inj hpayload
  exact ⟨rfl, by decide +kernel, by decide +kernel⟩

/-- The submit beside a second entry and the owner's own deletion. -/
def threeCalls : List ShareXOp :=
  [.confirmSubmit "222222222" signedCookie none, .entry "222222222" (some "sel.s"),
    .service (.deleteAlbum "222222222" none "c" (some alice))]

/-- Ten minutes between the check of the confirmation and the `UPDATE`. -/
def delayed : ShareXPool := (Pool.start site [submit]).run shareXBackend [.call 0 none, .elapse 600000000]

end Sample

end Imghost.ShareX
