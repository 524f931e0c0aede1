/-
  Imghost.ShareX.Submit — what a confirmed deletion asks for, one step after the other.

  A submit consumes at most one link, the one its cookie names, and only with a confirmation
  that it has just checked; it deletes at most one album, that of the link, and only after it
  has loaded the link's user and an album this user may delete (`confirmSubmit_spends`). What
  a cookie says does not depend on when it is read (`load_same`).
-/

import Imghost.Service.Footprint
import Imghost.ShareX.Rows

namespace Imghost.ShareX

open Imghost.Async Imghost.Data Imghost.Model Imghost.Service Imghost.Sessions Imghost.Tokens Program

/-! ## The confirmation -/

theorem manager_same {β : Type} {m : Manager β} {lib : TokenLib} {secretKey token : String} {now now' : DateTime} {maxAge : Int}
    {payload payload' : β} (h : m.loads lib secretKey now maxAge token = .ok payload)
    (h' : m.loads lib secretKey now' maxAge token = .ok payload') : payload = payload' := by
  unfold Manager.loads at h h'
  split at h
  · cases h
  · rename_i fields hverify
    rw [hverify] at h'
    dsimp only at h h'
    split at h
    · cases h
    · rename_i hpresent
      rw [if_neg hpresent] at h'
      split at h
      · cases h
      · cases h
      · split at h'
        · cases h'
        · cases h'
        · exact (Except.ok.inj h).symm.trans (Except.ok.inj h')
  · cases h

variable {lib : ShareXLib} {secretKey albumId cookie : String} {now now' : DateTime}

theorem load_ok {payload : ShareXDeleteConfirmationPayload} (h : loadSharexConfirmation lib secretKey albumId cookie now = .ok payload) :
    ShareXDeleteTokenManager.loadsConfirmation lib.toTokenLib secretKey now sharexDeleteConfirmSeconds cookie = .ok payload ∧
      payload.albumId = albumId := by
  unfold loadSharexConfirmation at h
  split at h
  · cases h
  · split at h
    · cases h
    · rename_i loaded hloaded
      split at h
      · rename_i halbum
        obtain rfl := Except.ok.inj h
        exact ⟨hloaded, halbum⟩
      · cases h

/-- Two readings of one cookie, each while it is valid, give the same. -/
theorem load_same {payload payload' : ShareXDeleteConfirmationPayload}
    (h : loadSharexConfirmation lib secretKey albumId cookie now = .ok payload)
    (h' : loadSharexConfirmation lib secretKey albumId cookie now' = .ok payload') : payload = payload' :=
  manager_same (load_ok h).1 (load_ok h').1

/-! ## What a submit has done -/

structure Spent where
  /-- The time read last. -/
  clock : Option DateTime
  capability : Option ShareXDeleteCapability
  actor : Option User
  album : Option Album
  deleted : Option Album

def Spent.nothing : Spent := ⟨none, none, none, none, none⟩

def Spent.next (g : Spent) : ShareXCall → Spent
  | ⟨.inl .utcnow, .ok now, _⟩ => { g with clock := some now }
  | ⟨.inl (.getUser _), .ok found, _⟩ => { g with actor := found }
  | ⟨.inl (.getAlbum _), .ok found, _⟩ => { g with album := found }
  | ⟨.inl (.deleteAlbumRow _), .ok found, _⟩ => { g with deleted := found }
  | ⟨.inr (.consumeSharexDeleteCapability _ _), .ok found, _⟩ => { g with capability := found }
  | _ => g

/-- What task `i` has done, if it is a submit. -/
abbrev spent (p : ShareXPool) (i : Nat) : Spent := p.seen Spent.next Spent.nothing i

theorem next_capability {g : Spent} {e : ShareXCall} (h : ∀ s a, e.req ≠ .inr (.consumeSharexDeleteCapability s a)) :
    (g.next e).capability = g.capability := by
  obtain ⟨r | r, x, b⟩ := e
  · cases r <;> cases x <;> rfl
  · cases r <;> first | exact absurd rfl (h _ _) | rfl

theorem next_deleted {g : Spent} {e : ShareXCall} (h : ∀ a, e.req ≠ .inl (.deleteAlbumRow a)) : (g.next e).deleted = g.deleted := by
  obtain ⟨r | r, x, b⟩ := e
  · cases r <;> first | exact absurd rfl (h _) | (cases x <;> rfl)
  · cases r <;> first | rfl | (cases x <;> rfl)

/-- `_require_album_access` without a token. -/
def Accessible (album : Album) (user : User) : Prop :=
  adminOrOwner album (some user) = true ∨ album.deleteToken = some ""

/-- The confirmation that allows the consumption of a link. -/
def Confirmed (load : DateTime → Except PyExc ShareXDeleteConfirmationPayload) (g : Spent) (selector : String) : Prop :=
  ∃ now payload, g.clock = some now ∧ load now = .ok payload ∧ payload.selector = selector

def CanSpend (load : DateTime → Except PyExc ShareXDeleteConfirmationPayload) (albumId : String) (g : Spent) : ShareXReq → Prop
  | .inr (.consumeSharexDeleteCapability selector a) => g.capability = none ∧ g.deleted = none ∧ a = albumId ∧ Confirmed load g selector
  | .inr (.getSharexDeleteCapability _) | .inr (.renderTemplatePage _) => True
  | .inr _ => False
  | .inl (.getUser userId) => ∃ c, g.capability = some c ∧ c.userId = userId
  | .inl (.getAlbum a) => a = albumId
  | .inl (.deleteAlbumRow a) => a = albumId ∧ g.deleted = none ∧
      ∃ c user album, g.capability = some c ∧ g.actor = some user ∧ g.album = some album ∧ Accessible album user
  | .inl .utcnow | .inl (.emit _) | .inl (.selectAlbumMedia _) | .inl (.listAlbumMedia _) | .inl (.storageDelete _) => True
  | .inl _ => False

def spending (load : DateTime → Except PyExc ShareXDeleteConfirmationPayload) (albumId : String) :
    Protocol ShareXReply PyExc Spent := ⟨CanSpend load albumId, Spent.next⟩

/-- Task `i` of the operations: a submit, or one of which no more is known than the calls it makes. -/
def playing (others : ShareXReq → Prop) (config : ShareXConfig) (ops : List ShareXOp) (i : Nat) : Protocol ShareXReply PyExc Spent :=
  match ops[i]? with
  | some (.confirmSubmit albumId cookie _) => spending (loadSharexConfirmation config.lib config.secretKey albumId cookie) albumId
  | _ => ⟨fun _ r => others r, Spent.next⟩

section

variable {others : ShareXReq → Prop} {config : ShareXConfig} {ops : List ShareXOp} {i : Nat}

theorem playing_can {g : Spent} {r : ShareXReq} (h : (playing others config ops i).can g r) :
    others r ∨ ∃ albumId cookie correlationId, ops[i]? = some (.confirmSubmit albumId cookie correlationId) ∧
      CanSpend (loadSharexConfirmation config.lib config.secretKey albumId cookie) albumId g r := by
  unfold playing at h
  split at h
  · rename_i albumId cookie correlationId hop
    exact Or.inr ⟨albumId, cookie, correlationId, hop, h⟩
  · exact Or.inl h

theorem playing_next : (playing others config ops i).next = Spent.next := by
  unfold playing
  split <;> rfl

theorem after_eq_spent {p : ShareXPool} {t : Task ShareXReply PyExc ShareXResult} (ht : p.tasks[i]? = some t) :
    (playing others config ops i).after Spent.nothing t.log = spent p i := by
  rw [spent, Pool.seen_eq ht, Protocol.after, playing_next]

end

/-- Replies as the tables give them. -/
def HonestReply : ShareXCall → Prop
  | ⟨.inl (.getUser userId), .ok (some user), _⟩ => user.id = userId
  | ⟨.inl (.getAlbum albumId), .ok (some album), _⟩ => album.id = albumId
  | ⟨.inr (.consumeSharexDeleteCapability selector albumId), .ok (some c), _⟩ => c.selector = selector ∧ c.albumId = albumId
  | _ => True

theorem honest_reply (i : Nat) (r : ShareXReq) (fault : Option PyExc) (w : World) :
    HonestReply ⟨r, (shareXBackend.answer i r fault w).1, fault.isSome⟩ := by
  rcases r with r | r
  · rw [answer_inl]
    cases r <;> try trivial
    case getUser userId =>
      cases hx : (backend.answer i (.getUser userId) fault w).1 with
      | error e => trivial
      | ok found =>
        cases found with
        | none => trivial
        | some user => exact Table.find?_key (Except.ok.inj (exec_of_ok hx))
    case getAlbum albumId =>
      cases hx : (backend.answer i (.getAlbum albumId) fault w).1 with
      | error e => trivial
      | ok found =>
        cases found with
        | none => trivial
        | some album => exact Table.find?_key (Except.ok.inj (exec_of_ok hx))
  · cases r <;> try trivial
    case consumeSharexDeleteCapability selector albumId =>
      cases hx : (shareXBackend.answer i (.inr (.consumeSharexDeleteCapability selector albumId)) fault w).1 with
      | error e => trivial
      | ok found =>
        cases found with
        | none => trivial
        | some c' =>
          obtain ⟨c, hc, hcAlbum, _, rfl, _⟩ := consume_ok hx
          have hselector : c.selector = selector := Table.find?_key hc
          exact ⟨hselector, hcAlbum⟩

/-- Where a submit ends: with a link of its cookie consumed, or none; an answer after a consumption
    comes after the deletion. -/
structure Ended {α : Type} (load : DateTime → Except PyExc ShareXDeleteConfirmationPayload) (x : Except PyExc α) (g : Spent) : Prop where
  confirmed : ∀ c, g.capability = some c → ∃ now payload, load now = .ok payload ∧ payload.selector = c.selector
  deleted : ∀ a, x = .ok a → g.capability = none ∨ g.deleted ≠ none

variable {α β : Type} {load : DateTime → Except PyExc ShareXDeleteConfirmationPayload} {g : Spent}

theorem ended_of_error {e : PyExc} (hg : ∀ c, g.capability = some c → ∃ now payload, load now = .ok payload ∧ payload.selector = c.selector) :
    Ended (α := α) load (.error e) g :=
  ⟨hg, fun _ h => nomatch h⟩

/-- Calls that leave what is known alone. -/
def Quiet : ShareXReq → Prop
  | .inl (.emit _) | .inl (.selectAlbumMedia _) | .inl (.listAlbumMedia _) | .inl (.storageDelete _) => True
  | .inr (.getSharexDeleteCapability _) | .inr (.renderTemplatePage _) => True
  | _ => False

def QuietBase (r : Req) : Prop := Quiet (.inl r)

theorem storage_quiet (items : List Media) : (deleteMediaStorageKeys items).Uses QuietBase :=
  deleteMediaStorageKeys_uses (fun _ => trivial) items

theorem can_of_quiet (r : ShareXReq) (h : Quiet r) : (spending load albumId).can g r := by
  rcases r with r | r
  · cases r <;> first | exact h.elim | trivial
  · cases r <;> first | exact h.elim | trivial

theorem next_of_quiet (e : ShareXCall) (h : Quiet e.req) : g.next e = g := by
  obtain ⟨r | r, x, b⟩ := e
  · cases r <;> first | exact h.elim | rfl
  · cases r <;> first | exact h.elim | rfl

/-- What is known of an album that was found for a user who may delete it. -/
def mayDelete (g : Spent) (album : Album) : Spent := { g with album := some album }

theorem requireAlbumAccess_checks {album : Album} {user : User} {allowExpired : Bool} {Q : Except PyExc β → Spent → Prop}
    {f : Unit → Prog β} (herr : ∀ e g', g'.capability = g.capability → Q (.error e) g')
    (hok : ∀ now, Accessible album user →
      wp ((spending load albumId).left.machine fun e => HonestReply e.widen) Q (f ()) { g with clock := some now }) :
    wp ((spending load albumId).left.machine fun e => HonestReply e.widen) Q
      (requireAlbumAccess album none (some user) allowExpired >>= f) g := by
  refine wp_seq (R := fun x g' => g'.capability = g.capability ∧ ∀ a, x = .ok a → Accessible album user ∧
      ∃ now, g' = { g with clock := some now }) ?_ (fun _ g' h => ?_) fun e g' h => herr e g' h.1
  · refine Protocol.wp_await trivial (fun (now : DateTime) _ _ => ?_) fun _ _ _ => ⟨rfl, fun _ h => nomatch h⟩
    refine wp_check (fun _ => ⟨rfl, fun _ h => nomatch h⟩) fun _ => ?_
    rw [wp_ite]
    refine ⟨fun howner => ⟨rfl, fun _ _ => ⟨Or.inl howner, now, rfl⟩⟩, fun _ => ?_⟩
    refine wp_check (fun _ => ⟨rfl, fun _ h => nomatch h⟩) fun htoken => ?_
    refine (wp_raiseIf _ _ _).mpr ⟨fun _ => ⟨rfl, fun _ h => nomatch h⟩, fun hpass => ⟨rfl, fun _ _ => ⟨Or.inr ?_, now, rfl⟩⟩⟩
    -- no token passes for an empty one only
    cases htok : album.deleteToken with
    | none =>
      rw [htok] at htoken
      cases htoken
    | some token =>
      rw [htok] at hpass
      simpa using hpass
  · obtain ⟨haccess, now, rfl⟩ := h.2 _ rfl
    exact hok now haccess

theorem deleteAlbum_spends {c : ShareXDeleteCapability} {user : User} {correlationId : String}
    (hg : g.capability = some c ∧ g.actor = some user ∧ g.deleted = none) :
    wp ((spending load albumId).machine HonestReply)
      (fun x g' => g'.capability = g.capability ∧ ∀ a, x = .ok a → g'.deleted ≠ none)
      (deleteAlbum albumId none correlationId (some user)).widen g := by
  refine Protocol.wp_widen ?_
  refine wp_seq (R := fun x g' => g'.capability = g.capability ∧ ∀ album, x = .ok album → g' = mayDelete g album) ?_
    (fun album g' h => ?_) fun _ _ h => ⟨h.1, fun _ h' => nomatch h'⟩
  · refine Protocol.wp_await rfl (fun (found : Option Album) _ _ => ?_) fun _ _ _ => ⟨rfl, fun _ h => nomatch h⟩
    cases found with
    | none => exact ⟨rfl, fun _ h => nomatch h⟩
    | some album => exact ⟨rfl, fun _ h => Except.ok.inj h ▸ rfl⟩
  obtain rfl := h.2 album rfl
  refine requireAlbumAccess_checks (fun _ _ h => ⟨h, fun _ h' => nomatch h'⟩) fun now haccess => ?_
  refine Protocol.wp_await trivial (fun (_ : List Media) _ _ => ?_) fun _ _ _ => ⟨rfl, fun _ h => nomatch h⟩
  refine wp_seq (R := fun x g' => g'.capability = g.capability ∧ ∀ a b, x = .ok (some a, b) → g'.deleted ≠ none) ?_
    (fun deleted g' h => ?_) fun _ _ h => ⟨h.1, fun _ h' => nomatch h'⟩
  · refine Protocol.wp_await trivial (fun (_ : List Media) _ _ => ?_) fun _ _ _ => ⟨rfl, fun _ _ h => nomatch h⟩
    refine Protocol.wp_await ⟨rfl, hg.2.2, c, user, album, hg.1, hg.2.1, rfl, haccess⟩ (fun (row : Option Album) _ _ => ?_)
      fun _ _ _ => ⟨rfl, fun _ _ h => nomatch h⟩
    cases row with
    | none => exact ⟨rfl, fun _ _ h => nomatch h⟩
    | some row => exact ⟨rfl, fun _ _ _ h => nomatch h⟩
  · obtain ⟨row, items⟩ := deleted
    cases row with
    | none => exact ⟨h.1, fun _ h' => nomatch h'⟩
    | some row =>
      have hdeleted := h.2 row items rfl
      refine Protocol.wp_pass (P := (spending load albumId).left) (fun r hr => can_of_quiet (.inl r) hr)
        (fun e he => next_of_quiet e.widen he) (storage_quiet items) (fun _ => ?_) fun _ => ⟨h.1, fun _ h' => nomatch h'⟩
      exact Protocol.wp_await trivial (fun _ _ _ => ⟨h.1, fun _ _ => hdeleted⟩) fun _ _ _ => ⟨h.1, fun _ h' => nomatch h'⟩

theorem renderTemplatePage_spends {page : Page} {Q : Except PyExc β → Spent → Prop} {f : Page → ShareXProg β}
    (hok : wp ((spending load albumId).machine HonestReply) Q (f page) g) (herr : ∀ e, Q (.error e) g) :
    wp ((spending load albumId).machine HonestReply) Q (renderTemplatePage page >>= f) g := by
  refine wp_seq (R := fun x g' => g' = g ∧ ∀ shown, x = .ok shown → shown = page) ?_ (fun shown g' h => ?_) fun e g' h => ?_
  · exact Protocol.wp_await trivial (fun _ _ _ => ⟨rfl, fun _ h => (Except.ok.inj h).symm⟩) fun _ _ _ => ⟨rfl, fun _ h => nomatch h⟩
  · obtain ⟨rfl, hshown⟩ := h
    rw [hshown shown rfl]
    exact hok
  · rw [h.1]
    exact herr e

theorem deleteConsumed_spends {c : ShareXDeleteCapability} {correlationId : String}
    (hg : g.capability = some c ∧ g.deleted = none)
    (hc : ∃ now payload, load now = .ok payload ∧ payload.selector = c.selector) :
    wp ((spending load albumId).machine HonestReply) (Ended load) (deleteConsumed c albumId correlationId) g := by
  have hnamed : ∀ c', g.capability = some c' → ∃ now payload, load now = .ok payload ∧ payload.selector = c'.selector := by
    intro c' hc'
    rw [hg.1] at hc'
    cases hc'
    exact hc
  refine Protocol.wp_await ⟨c, hg.1, rfl⟩ (fun (found : Option User) _ _ => ?_) fun _ _ _ => ended_of_error hnamed
  cases found with
  | none => exact ended_of_error hnamed
  | some user =>
    refine wp_seq (deleteAlbum_spends ⟨hg.1, rfl, hg.2⟩) (fun deleted g' h => ?_) fun _ g' h => ended_of_error (h.1 ▸ hnamed)
    refine renderTemplatePage_spends ?_ fun _ => ended_of_error (h.1 ▸ hnamed)
    exact ⟨h.1 ▸ hnamed, fun _ _ => Or.inr (h.2 deleted rfl)⟩

theorem alreadyConsumed_spends {confirmation : ShareXDeleteConfirmationPayload} (hg : g.capability = none) :
    wp ((spending load albumId).machine HonestReply) (Ended load) (alreadyConsumed confirmation albumId) g := by
  have hnamed : ∀ c, g.capability = some c → ∃ now payload, load now = .ok payload ∧ payload.selector = c.selector := by
    intro c hc
    rw [hg] at hc
    cases hc
  refine Protocol.wp_await trivial (fun (current : Option ShareXDeleteCapability) _ _ => ?_) fun _ _ _ => ended_of_error hnamed
  refine Protocol.wp_await rfl (fun (album : Option Album) _ _ => ?_) fun _ _ _ => ended_of_error hnamed
  refine wp_check (fun _ => ended_of_error hnamed) fun _ => ?_
  exact renderTemplatePage_spends ⟨hnamed, fun _ _ => Or.inl hg⟩ fun _ => ended_of_error hnamed

theorem confirmSubmit_spends {correlationId : String} :
    wp ((spending load albumId).machine HonestReply) (Ended load) (confirmSubmit load albumId correlationId) Spent.nothing := by
  have hnothing : ∀ clock : Option DateTime, ∀ c, ({ Spent.nothing with clock := clock } : Spent).capability = some c →
      ∃ now payload, load now = .ok payload ∧ payload.selector = c.selector := by
    intro _ _ h
    cases h
  refine Protocol.wp_await trivial (fun (now : DateTime) _ _ => ?_) fun _ _ _ => ended_of_error (hnothing none)
  refine wp_value (fun confirmation hload => ?_) fun _ _ => ended_of_error (hnothing (some now))
  refine Protocol.wp_await ⟨rfl, rfl, rfl, now, confirmation, rfl, hload, rfl⟩
    (fun (found : Option ShareXDeleteCapability) _ hfound => ?_) fun _ _ _ => ended_of_error (hnothing (some now))
  cases found with
  | none => exact alreadyConsumed_spends rfl
  | some c => exact deleteConsumed_spends ⟨rfl, rfl⟩ ⟨now, confirmation, hload, hfound.1.symm⟩

theorem sharexDeleteConfirmSubmit_spends {correlationId : Option String} :
    wp ((spending (loadSharexConfirmation lib secretKey albumId cookie) albumId).machine HonestReply)
      (Ended (loadSharexConfirmation lib secretKey albumId cookie))
      (sharexDeleteConfirmSubmit lib secretKey albumId cookie correlationId) Spent.nothing :=
  wp_check (fun _ => ended_of_error fun _ h => nomatch h) fun _ => confirmSubmit_spends

/-! ## A cookie -/

namespace Sample

open FamiliesSample

def confirmationText : String :=
  "\x7b\"album_id\":\"222222222\",\"created_at\":\"2026-01-01T00:00:00+00:00\",\"selector\":\"sel\",\"user_id\":\"alice\"\x7d"

def confirmationFields : List (String × Json) :=
  [("album_id", .str "222222222"), ("created_at", .str "2026-01-01T00:00:00+00:00"), ("selector", .str "sel"),
    ("user_id", .str "alice")]

def loadsText (text : String) : Except TokenExc Json :=
  if text = confirmationText then .ok (.dict confirmationFields) else .error .jsonDecodeError

/-- A library which knows the text of one confirmation and its date. -/
def shareXLib : ShareXLib :=
  { oneConfirmation with jsonLoads := loadsText, dumpsSorted := fun _ => confirmationText, sha256 := id }

def config : ShareXConfig where
  lib := shareXLib
  secretKey := "secret"
  rt := Service.Sample.runtime

/-- What an entry signs on the first of January 2026. -/
def signedCookie : String :=
  ShareXDeleteTokenManager.dumpsConfirmation shareXLib.toSessionLib "secret" firstOf2026 ⟨"sel", "222222222", "alice", none⟩

def payload : ShareXDeleteConfirmationPayload := ⟨"sel", "222222222", "alice", some "2026-01-01T00:00:00+00:00"⟩

theorem splits : splitToken signedCookie = some (confirmationText.toUTF8.toList, digest) := by
  have htext : confirmationText ≠ "" := by decide +kernel
  have hdigest : digest ≠ "" := by decide +kernel
  exact @splitToken_encode confirmationText.toUTF8.toList digest (encode_ne_nil htext) hdigest

theorem parses : verify shareXLib.toTokenLib "secret" signedCookie = .ok (some (.dict confirmationFields)) := by
  refine Hostile.verify_parsed.mpr ⟨confirmationText.toUTF8.toList, confirmationText, splits, decodeUtf8_encode _, ?_⟩
  show loadsText confirmationText = _
  rw [loadsText, if_pos rfl]

/-- The cookie's confirmation is good for five minutes. -/
def readsCookie (now : DateTime) : Except PyExc ShareXDeleteConfirmationPayload :=
  if 0 ≤ now - firstOf2026 ∧ now - firstOf2026 ≤ 300 * 1000000 then .ok payload else .error invalidConfirmation

theorem loads_signedCookie (now : DateTime) :
    ShareXDeleteTokenManager.loadsConfirmation shareXLib.toTokenLib "secret" now sharexDeleteConfirmSeconds signedCookie =
      if 0 ≤ now - firstOf2026 ∧ now - firstOf2026 ≤ 300 * 1000000 then .ok payload
      else .error (.valueError "invalid_sharex_delete_confirmation") := by
  have hcreated : textField shareXLib.toTokenLib confirmationFields "created_at" = "2026-01-01T00:00:00+00:00" := by decide +kernel
  have hselector : textField shareXLib.toTokenLib confirmationFields "selector" = "sel" := by decide +kernel
  have halbum : textField shareXLib.toTokenLib confirmationFields "album_id" = "222222222" := by decide +kernel
  have huser : textField shareXLib.toTokenLib confirmationFields "user_id" = "alice" := by decide +kernel
  have hfresh : freshEnough shareXLib.toTokenLib now sharexDeleteConfirmSeconds "2026-01-01T00:00:00+00:00" =
      .ok (0 ≤ now - firstOf2026 && now - firstOf2026 ≤ 300 * 1000000) := rfl
  have hrequired : "" ∉ [textField shareXLib.toTokenLib confirmationFields "selector",
      textField shareXLib.toTokenLib confirmationFields "album_id",
      textField shareXLib.toTokenLib confirmationFields "user_id"] := by
    rw [hselector, halbum, huser]
    decide +kernel
  unfold ShareXDeleteTokenManager.loadsConfirmation
  rw [@loads_parsed shareXLib.toSessionLib _ _ _ _ _ _ _ _ _ parses hcreated (by decide +kernel) hrequired hfresh]
  show (if _ then Except.ok (ShareXDeleteConfirmationPayload.mk _ _ _ _) else _) = _
  rw [hcreated, hselector, halbum, huser]
  by_cases h : 0 ≤ now - firstOf2026 ∧ now - firstOf2026 ≤ 300 * 1000000
  · rw [if_pos h, if_pos (by simpa using h)]
    rfl
  · rw [if_neg h, if_neg (by simpa using h)]

theorem load_signedCookie : loadSharexConfirmation shareXLib "secret" "222222222" signedCookie = readsCookie := by
  funext now
  have hne : signedCookie ≠ "" := by
    intro h
    have hsplit := splits
    rw [h] at hsplit
    have hempty : splitToken "" = none := by decide +kernel
    rw [hempty] at hsplit
    cases hsplit
  unfold loadSharexConfirmation readsCookie
  rw [if_neg hne, loads_signedCookie]
  by_cases h : 0 ≤ now - firstOf2026 ∧ now - firstOf2026 ≤ 300 * 1000000
  · rw [if_pos h, if_pos h]
    exact if_pos rfl
  · rw [if_neg h, if_neg h]
    rfl

/-- The submit of that cookie. -/
def submit : ShareXProg ShareXResult := do
  raiseIf (!isValidAlbumId shareXLib "222222222") notFound
  return .response (← confirmSubmit readsCookie "222222222" "sharex-delete")

theorem submit_prog : (ShareXOp.confirmSubmit "222222222" signedCookie none).prog config = submit := by
  show (do return ShareXResult.response (← do
    raiseIf (!isValidAlbumId shareXLib "222222222") notFound
    confirmSubmit (loadSharexConfirmation shareXLib "secret" "222222222" signedCookie) "222222222" "sharex-delete") : ShareXProg _) = _
  rw [load_signedCookie]
  rfl

def alice : User := { Service.Sample.user with id := "alice", username := "alice", email := "alice@example.org" }

def aliceAlbum : Album :=
  { Service.Sample.album with id := "222222222", userId := some "alice", deleteToken := none }

/-- The link of that album, as an upload has issued it. -/
def link : ShareXDeleteCapability := issueCapability shareXLib firstOf2026 "222222222" "alice" "sel" "s"

/-- One minute after the cookie was signed. -/
def site : World :=
  { Service.Sample.world with
    users := .single alice
    albums := .single aliceAlbum
    sharexDeleteCapabilities := ⟨[link], by decide⟩
    clock := firstOf2026 + 60 * 1000000 }

end Sample

end Imghost.ShareX
