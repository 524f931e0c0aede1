/-
  Imghost.ShareX.Capabilities — deletion links: their rows, the confirmation in the cookie,
  and the handlers that turn one into a deleted album.

  `sharex_delete_entry` checks a link and signs a confirmation; the confirmation is shown by
  `sharex_delete_confirm_page` and spent by `sharex_delete_confirm_submit`, which consumes the
  row in one `UPDATE` and deletes the album afterwards. Links are issued by uploads with an
  API key.

  `now()` and `utcnow()` are one clock. Rendering a page is one call that may raise and
  changes nothing. A key's row is looked up before an upload; the user it belongs to is an
  argument. Selectors and secrets that `secrets` draws are arguments.
-/

import Imghost.Service.Operations
import Imghost.Tokens.Families

namespace Imghost.ShareX

open Imghost.Async Imghost.Data Imghost.Model Imghost.Service Imghost.Sessions Imghost.Tokens Program

/-! ## Requests -/

/-- `sharex_delete` in the context of the template. -/
structure ShareXDelete where
  deleted : Bool
  albumId : String
  title : Option String
  itemCount : Nat
  deriving DecidableEq, Repr

structure Page where
  title : String
  sharexDelete : ShareXDelete
  /-- Whether the response deletes the cookie. -/
  clearsCookie : Bool
  deriving DecidableEq, Repr

inductive CapabilityReq where
  | createSharexDeleteCapability (capability : ShareXDeleteCapability)
  | getSharexDeleteCapability (selector : String)
  | touchSharexDeleteCapability (selector : String)
  | consumeSharexDeleteCapability (selector albumId : String)
  | renderTemplatePage (page : Page)
  deriving DecidableEq

@[reducible] def CapabilityReply : CapabilityReq → Type
  | .createSharexDeleteCapability _ => ShareXDeleteCapability
  | .getSharexDeleteCapability _ | .touchSharexDeleteCapability _ | .consumeSharexDeleteCapability _ _ =>
    Option ShareXDeleteCapability
  | .renderTemplatePage _ => Unit

/-- `revoked_at IS NULL AND consumed_at IS NULL AND expires_at > now()`. -/
def live (now : DateTime) (c : ShareXDeleteCapability) : Bool :=
  c.revokedAt.isNone && c.consumedAt.isNone && decide (now < c.expiresAt)

def touched (now : DateTime) (c : ShareXDeleteCapability) : ShareXDeleteCapability := { c with lastSeenAt := some now }

def consumed (now : DateTime) (c : ShareXDeleteCapability) : ShareXDeleteCapability :=
  { c with consumedAt := some now, lastSeenAt := some now }

section

variable (w : World)

def createCapability (c : ShareXDeleteCapability) : Except PyExc ShareXDeleteCapability × World :=
  match w.sharexDeleteCapabilities.insert c with
  | none => (.error uniqueViolation, w)
  | some t =>
    if (w.albums.find? c.albumId).isNone || (w.users.find? c.userId).isNone then (.error foreignKeyViolation, w)
    else (.ok c, { w with sharexDeleteCapabilities := t })

/-- `UPDATE … WHERE selector = $1 AND … RETURNING *`, of the row that `p` picks. -/
def updateCapability (selector : String) (p : ShareXDeleteCapability → Bool)
    (f : ShareXDeleteCapability → ShareXDeleteCapability) (hf : ∀ c, (f c).selector = c.selector) :
    Option ShareXDeleteCapability × World :=
  match (w.sharexDeleteCapabilities.find? selector).filter p with
  | none => (none, w)
  | some c => (some (f c), { w with sharexDeleteCapabilities := w.sharexDeleteCapabilities.update selector f hf })

def touchCapability (selector : String) : Option ShareXDeleteCapability × World :=
  updateCapability w selector (fun _ => true) (touched w.clock) fun _ => rfl

def consumeCapability (selector albumId : String) : Option ShareXDeleteCapability × World :=
  updateCapability w selector (fun c => c.albumId == albumId && live w.clock c) (consumed w.clock) fun _ => rfl

end

def execCapability : (r : CapabilityReq) → World → Except PyExc (CapabilityReply r) × World
  | .createSharexDeleteCapability capability, w => createCapability w capability
  | .getSharexDeleteCapability selector, w => (.ok (w.sharexDeleteCapabilities.find? selector), w)
  | .touchSharexDeleteCapability selector, w => let a := touchCapability w selector; (.ok a.1, a.2)
  | .consumeSharexDeleteCapability selector albumId, w => let a := consumeCapability w selector albumId; (.ok a.1, a.2)
  | .renderTemplatePage _, w => (.ok (), w)

/-- A call that raises has no effect. -/
def capabilityBackend : Backend CapabilityReply PyExc World where
  exec _ := execCapability
  fail _ _ e w := (.error e, w)
  blocked _ _ _ := false
  elapse := backend.elapse

abbrev ShareXReq := Req ⊕ CapabilityReq
abbrev ShareXReply : ShareXReq → Type := Sum.elim Reply CapabilityReply
abbrev ShareXProg (α : Type) := Program ShareXReply PyExc α
abbrev ShareXCall := Event ShareXReply PyExc

def shareXBackend : Backend ShareXReply PyExc World := backend.extend capabilityBackend

abbrev askBase (r : Req) : ShareXProg (Reply r) := @Program.perform ShareXReq ShareXReply PyExc (.inl r)
abbrev askCapability (r : CapabilityReq) : ShareXProg (CapabilityReply r) :=
  @Program.perform ShareXReq ShareXReply PyExc (.inr r)

namespace Repository

abbrev createSharexDeleteCapability (capability : ShareXDeleteCapability) : ShareXProg ShareXDeleteCapability :=
  askCapability (.createSharexDeleteCapability capability)
abbrev getSharexDeleteCapability (selector : String) : ShareXProg (Option ShareXDeleteCapability) :=
  askCapability (.getSharexDeleteCapability selector)
abbrev touchSharexDeleteCapability (selector : String) : ShareXProg (Option ShareXDeleteCapability) :=
  askCapability (.touchSharexDeleteCapability selector)
abbrev consumeSharexDeleteCapability (selector albumId : String) : ShareXProg (Option ShareXDeleteCapability) :=
  askCapability (.consumeSharexDeleteCapability selector albumId)
abbrev getAlbum (albumId : String) : ShareXProg (Option Album) := askBase (.getAlbum albumId)
abbrev getUser (userId : String) : ShareXProg (Option User) := askBase (.getUser userId)
abbrev listAlbumMedia (albumId : String) : ShareXProg (List Media) := askBase (.listAlbumMedia albumId)

end Repository

abbrev utcnow : ShareXProg DateTime := askBase .utcnow

/-- `render_template_page`, and the response. -/
def renderTemplatePage (page : Page) : ShareXProg Page := do
  askCapability (.renderTemplatePage page)
  return page

/-! ## ShareXDeleteTokenManager -/

def sharexDeleteCapabilityDays : Int := 90
def sharexDeleteConfirmSeconds : Int := 300
def sharexDeleteCapabilityPurpose : String := "sharex_delete_album"

structure ShareXLib extends SessionLib where
  /-- `sha256(text.encode("utf-8")).hexdigest()`. -/
  sha256 : String → String

variable (lib : ShareXLib)

/-- The row of `issue_capability`; its token is `f"{selector}.{secret}"`. -/
def issueCapability (now : DateTime) (albumId userId selector secret : String) : ShareXDeleteCapability where
  selector := selector
  purpose := sharexDeleteCapabilityPurpose
  albumId := albumId
  userId := userId
  secretHash := lib.sha256 secret
  createdAt := now
  expiresAt := now + sharexDeleteCapabilityDays * microsPerDay
  consumedAt := none
  revokedAt := none
  lastSeenAt := none

/-- `split_capability_token`; `none` when it raises `ValueError`. -/
def splitCapabilityToken (value : String) : Option (String × String) :=
  let (selector, dot, secret) := partitionDot value
  if !dot || selector == "" || secret == "" then none else some (strip selector, strip secret)

/-- An exception of a verifier that is no `ValueError` leaves the handler. -/
def escaped : TokenExc → PyExc
  | .typeError msg | .valueError msg => .exception msg
  | .recursionError => .exception "maximum recursion depth exceeded"
  | .jsonDecodeError => .exception "json"
  | .unicodeDecodeError => .exception "utf-8"

def verifyCapabilitySecret (capability : ShareXDeleteCapability) (secret : String) : Except PyExc Bool :=
  match compareDigest (lib.sha256 secret) capability.secretHash with
  | .ok equal => .ok equal
  | .error e => .error (escaped e)

/-! ## The handlers -/

/-- `is_valid_id(album_id, ALBUM_ID_LENGTH)`. -/
def isValidAlbumId (albumId : String) : Bool :=
  let normalized := (lib.lower albumId).toList
  normalized.length == albumIdLength && normalized.all (alphabet.contains ·)

def notFound : PyExc := .http 404 "Not Found"
def invalidUrl : PyExc := .http 403 "Invalid ShareX deletion URL."
def invalidConfirmation : PyExc := .http 403 "ShareX deletion confirmation expired or is invalid."

inductive Response where
  /-- With the confirmation in the cookie. -/
  | redirect (url confirmation : String)
  | page (page : Page)
  deriving DecidableEq, Repr

def sharexConfirmPath (albumId : String) : String := "/sharex/delete/" ++ albumId ++ "/confirm"

/-- `_load_sharex_confirmation` at the time `now`. -/
def loadSharexConfirmation (secretKey albumId cookie : String) (now : DateTime) :
    Except PyExc ShareXDeleteConfirmationPayload :=
  if cookie = "" then .error (.http 403 "Missing ShareX deletion confirmation.")
  else
    match ShareXDeleteTokenManager.loadsConfirmation lib.toTokenLib secretKey now sharexDeleteConfirmSeconds cookie with
    | .error e => .error (if e.isValueError then invalidConfirmation else escaped e)
    | .ok payload => if payload.albumId = albumId then .ok payload else .error invalidConfirmation

def sharexDeleteEntry (secretKey albumId : String) (token : Option String) : ShareXProg Response := do
  raiseIf (!isValidAlbumId lib albumId) notFound
  match token.filter (· != "") with
  | none => raise (.http 403 "Missing ShareX deletion token.")
  | some token =>
    match splitCapabilityToken token with
    | none => raise invalidUrl
    | some (selector, secret) => do
      let found ← Repository.getSharexDeleteCapability selector
      match found with
      | none => raise invalidUrl
      | some capability => do
        raiseIf (capability.purpose != sharexDeleteCapabilityPurpose) invalidUrl
        raiseIf (capability.albumId != albumId) invalidUrl
        let now ← utcnow
        raiseIf (!live now capability) invalidUrl
        let verified ← ofExcept (verifyCapabilitySecret lib capability secret)
        raiseIf (!verified) invalidUrl
        let album ← Repository.getAlbum albumId
        raiseIf (!album.any (·.userId == some capability.userId)) invalidUrl
        let _ ← Repository.touchSharexDeleteCapability selector
        let now ← utcnow
        return .redirect (sharexConfirmPath albumId) (ShareXDeleteTokenManager.dumpsConfirmation lib.toSessionLib secretKey now
          { selector := selector, albumId := albumId, userId := capability.userId, createdAt := none })

/-- The page of an album that is gone. -/
def albumDeleted (albumId : String) (title : Option String) (itemCount : Nat) : Page where
  title := "Album Deleted"
  sharexDelete := { deleted := true, albumId := albumId, title := title, itemCount := itemCount }
  clearsCookie := true

def confirmDelete (album : Album) (itemCount : Nat) : Page where
  title := "Confirm ShareX Delete"
  sharexDelete := { deleted := false, albumId := album.id, title := album.title, itemCount := itemCount }
  clearsCookie := false

/-- `load` is `_load_sharex_confirmation` of the request's cookie. -/
def confirmPage (load : DateTime → Except PyExc ShareXDeleteConfirmationPayload) (albumId : String) : ShareXProg Response := do
  let now ← utcnow
  let confirmation ← ofExcept (load now)
  let found ← Repository.getSharexDeleteCapability confirmation.selector
  let album ← Repository.getAlbum albumId
  match found with
  | none => raise invalidUrl
  | some capability => do
    raiseIf (capability.purpose != sharexDeleteCapabilityPurpose) invalidUrl
    let now ← utcnow
    raiseIf (capability.revokedAt.isSome || decide (capability.expiresAt ≤ now)) invalidUrl
    match album with
    | none => do
      raiseIf capability.consumedAt.isNone invalidUrl
      return .page (← renderTemplatePage (albumDeleted albumId none 0))
    | some album => do
      raiseIf (album.userId != some confirmation.userId) invalidUrl
      let items ← Repository.listAlbumMedia albumId
      return .page (← renderTemplatePage (confirmDelete album items.length))

/-- What is answered when nothing was consumed. -/
def alreadyConsumed (confirmation : ShareXDeleteConfirmationPayload) (albumId : String) : ShareXProg Response := do
  let current ← Repository.getSharexDeleteCapability confirmation.selector
  let album ← Repository.getAlbum albumId
  raiseIf (!(current.any fun c => c.userId == confirmation.userId && c.consumedAt.isSome) || album.isSome) invalidConfirmation
  return .page (← renderTemplatePage (albumDeleted albumId none 0))

/-- The deletion, with the capability that was consumed. -/
def deleteConsumed (capability : ShareXDeleteCapability) (albumId correlationId : String) : ShareXProg Response := do
  let actorUser ← Repository.getUser capability.userId
  match actorUser with
  | none => raise invalidConfirmation
  | some actorUser => do
    let deleted ← (deleteAlbum albumId none correlationId (some actorUser)).widen
    return .page (← renderTemplatePage (albumDeleted deleted.1.id deleted.1.title deleted.2.length))

def confirmSubmit (load : DateTime → Except PyExc ShareXDeleteConfirmationPayload) (albumId correlationId : String) :
    ShareXProg Response := do
  let now ← utcnow
  let confirmation ← ofExcept (load now)
  let consumed ← Repository.consumeSharexDeleteCapability confirmation.selector albumId
  match consumed with
  | none => alreadyConsumed confirmation albumId
  | some capability => deleteConsumed capability albumId correlationId

def sharexDeleteConfirmPage (secretKey albumId cookie : String) : ShareXProg Response := do
  raiseIf (!isValidAlbumId lib albumId) notFound
  confirmPage (loadSharexConfirmation lib secretKey albumId cookie) albumId

def sharexDeleteConfirmSubmit (secretKey albumId cookie : String) (correlationId : Option String) : ShareXProg Response := do
  raiseIf (!isValidAlbumId lib albumId) notFound
  confirmSubmit (loadSharexConfirmation lib secretKey albumId cookie) albumId (strOr correlationId "sharex-delete")

/-! ## Uploads with an API key -/

structure FileToUpload where
  file : UploadFile
  draws : Draws
  selector : String
  secret : String

structure ApiKeyUpload where
  /-- The user the bearer's key belongs to. -/
  userId : String
  files : List FileToUpload
  albumId : Option String
  title : Option String
  deleteToken : Option String
  correlationId : String
  rateLimitKey : Option String

/-- The last step of `authenticated_principal`. -/
def apiKeyUser (userId : String) : ShareXProg User := do
  let found ← Repository.getUser userId
  match found.filter (!·.suspended) with
  | none => raise (.http 403 "User is not allowed to authenticate.")
  | some user => return user

/-- The link of an album that is the user's own. -/
def issueLink (user : User) (album : Album) (selector secret : String) : ShareXProg Unit :=
  if album.userId = some user.id then do
    let now ← utcnow
    let _ ← Repository.createSharexDeleteCapability (issueCapability lib now album.id user.id selector secret)
  else pure ()

variable (rt : Runtime)

/-- `for item in file`, with the album and the token the next file goes to. -/
def uploadFiles (input : ApiKeyUpload) (user : User) :
    List FileToUpload → Option String → Option String → ShareXProg (List UploadResult)
  | [], _, _ => pure []
  | item :: items, activeAlbumId, activeDeleteToken => do
    let result ← (Service.upload rt
      { file := item.file, albumId := activeAlbumId, title := input.title, correlationId := input.correlationId,
        actor := { user := some user, source := "api" }, deleteToken := activeDeleteToken,
        rateLimitKey := input.rateLimitKey } item.draws).widen
    issueLink lib user result.album item.selector item.secret
    let results ← uploadFiles input user items (some result.album.id)
      (if truthy result.album.deleteToken then result.album.deleteToken else activeDeleteToken)
    return result :: results

def apiKeyUpload (input : ApiKeyUpload) : ShareXProg (List UploadResult) := do
  let user ← apiKeyUser input.userId
  uploadFiles lib rt input user input.files input.albumId input.deleteToken

/-! ## Operations -/

inductive ShareXOp where
  | entry (albumId : String) (token : Option String)
  | confirmPage (albumId cookie : String)
  | confirmSubmit (albumId cookie : String) (correlationId : Option String)
  | apiKeyUpload (input : ApiKeyUpload)
  | service (op : Service.Op)

inductive ShareXResult where
  | response (response : Response)
  | uploaded (results : List UploadResult)
  | service (result : OpResult)
  deriving DecidableEq, Repr

structure ShareXConfig where
  lib : ShareXLib
  secretKey : String
  rt : Runtime

def ShareXOp.prog (config : ShareXConfig) : ShareXOp → ShareXProg ShareXResult
  | .entry albumId token => do return .response (← sharexDeleteEntry config.lib config.secretKey albumId token)
  | .confirmPage albumId cookie => do
    return .response (← sharexDeleteConfirmPage config.lib config.secretKey albumId cookie)
  | .confirmSubmit albumId cookie correlationId => do
    return .response (← sharexDeleteConfirmSubmit config.lib config.secretKey albumId cookie correlationId)
  | .apiKeyUpload input => do return .uploaded (← ShareX.apiKeyUpload config.lib config.rt input)
  | .service op => do return .service (← (op.program config.rt).widen)

abbrev ShareXPool := Pool ShareXReply PyExc World ShareXResult

def ShareXPool.start (config : ShareXConfig) (w : World) (ops : List ShareXOp) : ShareXPool :=
  Pool.start w (ops.map (·.prog config))

end Imghost.ShareX
