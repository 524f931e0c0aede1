/-
  Imghost.Service.Upload — `UploadService.upload`.

  The random identifiers and the token a request draws are an argument (`Draws`).
  Telemetry is left out: it changes nothing the service reads. Both `except` branches
  of `upload` clean up alike and re-raise, so they are one handler; before the album
  is known they only re-raise.
-/

import Imghost.Service.Access

namespace Imghost.Service

open Imghost.Async Imghost.Model Program

/-- The random choices one upload makes. -/
structure Draws where
  albumId : Fin albumIdLength → Fin 31
  mediaId : Fin mediaIdLength → Fin 31
  deleteToken : Fin 32 → Fin 64

structure UploadResult where
  album : Album
  media : Media
  deriving DecidableEq, Repr

/-- The arguments of `upload`. -/
structure UploadInput where
  file : UploadFile
  albumId : Option String
  title : Option String
  correlationId : String
  actor : CurrentActor
  deleteToken : Option String
  rateLimitKey : Option String

/-! ## Reading the file -/

/-- The `while True` loop: `chunks` are still to come, `read` are those before. -/
def readChunks (maxUploadBytes : Int) : List Bytes → List Bytes → Except PyExc Bytes
  | [], read => .ok read.flatten
  | chunk :: chunks, read =>
    if chunk.isEmpty then .ok read.flatten
    else if maxUploadBytes < read.flatten.length + chunk.length then
      .error (.http 413 "Upload exceeds V1 size limit.")
    else readChunks maxUploadBytes chunks (read ++ [chunk])

def readBoundedUpload (file : UploadFile) : Prog Bytes := do
  let maxUploadBytes ← RuntimeConfig.getValue .maxUploadBytes
  ofExcept (readChunks maxUploadBytes file.chunks [])

/-! ## Quotas -/

def effectiveQuota (user : User) (defaultUserQuotaBytes : Int) : Int := user.quotaBytes.getD defaultUserQuotaBytes

def enforceStorageQuotas (user : Option User) (incomingBytes : Nat) : Prog Unit := do
  let allMedia ← Repository.listAllMedia
  let totalStorage := storageBytesForMedia allMedia
  let serverQuotaBytes ← RuntimeConfig.getValue .serverQuotaBytes
  raiseIf (0 < serverQuotaBytes && serverQuotaBytes < totalStorage + incomingBytes)
    (.http 507 "Server storage quota reached.")
  match user with
  | none => pure ()
  | some user => do
    let userStorage := storageBytesForMedia (allMedia.filter (·.userId == some user.id))
    let defaultUserQuotaBytes ← RuntimeConfig.getValue .defaultUserQuotaBytes
    let quota := effectiveQuota user defaultUserQuotaBytes
    raiseIf (0 < quota && quota < userStorage + incomingBytes) (.http 413 "User storage quota reached.")

/-! ## The album -/

def newAlbumExpiry (user : Option User) (now : DateTime) : Prog (Option DateTime) :=
  match user with
  | some _ => pure none
  | none => do
    let hours ← RuntimeConfig.getValue .anonExpiryHours
    let t ← ofExcept (addHours now hours)
    return some t

/-- The album an upload creates. -/
def newAlbum (title : Option String) (user : Option User) (draws : Draws) (now : DateTime)
    (expiresAt : Option DateTime) : Album where
  id := generateId draws.albumId
  title := title
  userId := user.map (·.id)
  coverMediaId := none
  deleteToken := if user.isSome then none else some (tokenUrlsafe draws.deleteToken)
  createdAt := now
  updatedAt := now
  expiresAt := expiresAt

/-- Who may append to an existing album. -/
def requireUploadAccess (album : Album) (actor : CurrentActor) (deleteToken : Option String) : Prog Unit :=
  match actor.user with
  | some user => raiseIf (album.userId != some user.id) (.http 403 "Album does not belong to authenticated user.")
  | none => requireAlbumAccess album deleteToken none false

/-- The branch of `_get_or_create_album` for an existing album. -/
def getAlbumForUpload (albumId : String) (actor : CurrentActor) (deleteToken : Option String) : Prog Album := do
  let found ← Repository.getAlbum albumId
  match found with
  | none => raise (.http 404 "Album not found.")
  | some album => do
    let now ← utcnow
    raiseIf (isExpired now album.expiresAt) (.http 404 "Album not found.")
    requireUploadAccess album actor deleteToken
    return album

/-- The other branch: a new album, announced on the event bus. -/
def createAlbumForUpload (title : Option String) (correlationId : String) (actor : CurrentActor)
    (deleteToken : Option String) (draws : Draws) : Prog Album := do
  let now ← utcnow
  let expiresAt ← newAlbumExpiry actor.user now
  let album := newAlbum title actor.user draws now expiresAt
  let _ ← Repository.createAlbum album
  EventBus.emit (.albumCreated album.id (actor.user.map (·.id)) 0 (actorKind actor.user deleteToken) actor.source
    correlationId)
  return album

/-- `if album_id:` takes the first branch for a non-empty id only. -/
def getOrCreateAlbum (albumId title : Option String) (correlationId : String) (actor : CurrentActor)
    (deleteToken : Option String) (draws : Draws) : Prog Album :=
  match albumId.filter (· != "") with
  | some albumId => getAlbumForUpload albumId actor deleteToken
  | none => createAlbumForUpload title correlationId actor deleteToken draws

/-! ## The media row -/

def uploadContentType (rt : Runtime) (file : UploadFile) : String :=
  strOr file.contentType (strOr (rt.guessType (file.filename.getD "")) "application/octet-stream")

def uploadFormat (rt : Runtime) (file : UploadFile) : String :=
  let contentType := uploadContentType rt file
  let suffix := rt.lower (pathSuffix (strOr file.filename "upload.bin"))
  let suffix := if suffix = "" then strOr (rt.guessExtension contentType) "" else suffix
  let fmt := lstripDots suffix
  if fmt = "" then afterLastSlash contentType else fmt

def uploadMediaType (rt : Runtime) (file : UploadFile) : MediaType :=
  if startsWith (uploadContentType rt file) "video/" || videoFormats.contains (rt.lower (uploadFormat rt file)) then
    .video
  else .image

def unsupportedFormat : MediaType → PyExc
  | .image => .http 415 "Unsupported image format."
  | .video => .http 415 "Unsupported video format."

def invalidFile : MediaType → PyExc
  | .image => .http 415 "Unsupported or invalid image file."
  | .video => .http 415 "Unsupported or invalid video file."

/-- The `try` around the processor: validate, extract the metadata, sanitise. -/
def processUpload (processor : MediaProcessor) (mediaType : MediaType) (payload : Bytes) (fmt : String) :
    Except PyExc (MediaMetadata × SanitizedFile) :=
  let attempted := do
    let validation ← processor.validate payload
    if validation.ok then
      let metadata ← processor.extractMetadata payload fmt
      let sanitized ← processor.sanitize payload metadata
      return (metadata, sanitized)
    else throw (PyExc.http 415 (validation.rejectionReason.getD "Unsupported Media Type"))
  match attempted with
  | .error (.videoProcessingError _) => .error (invalidFile mediaType)
  | result => result

/-- What `_create_media` decides before it stores anything. -/
def prepareMedia (rt : Runtime) (file : UploadFile) (payload : Bytes) : Except PyExc (MediaMetadata × SanitizedFile) :=
  let mediaType := uploadMediaType rt file
  match rt.getProcessor (uploadFormat rt file) with
  | none => .error (unsupportedFormat mediaType)
  | some processor => processUpload processor mediaType payload (uploadFormat rt file)

def storageKeyFor (user : Option User) (mediaId fmt : String) : String :=
  let ownerSegment := match user with
    | some user => user.id
    | none => "anon"
  let suffix := "." ++ if fmt = "jpeg" then "jpg" else fmt
  "originals/" ++ ownerSegment ++ "/" ++ mediaId ++ suffix

theorem storageKeyFor_ne_empty (user : Option User) (mediaId fmt : String) : storageKeyFor user mediaId fmt ≠ "" := by
  simp [storageKeyFor]

/-- The row an upload asks the repository to create. -/
def newMedia (rt : Runtime) (albumId : String) (file : UploadFile) (user : Option User) (draws : Draws)
    (metadata : MediaMetadata) (sanitized : SanitizedFile) (now : DateTime) : Media where
  id := generateId draws.mediaId
  albumId := albumId
  userId := user.map (·.id)
  filenameOrig := strOr file.filename (generateId draws.mediaId)
  mediaType := uploadMediaType rt file
  format := sanitized.format
  mimeType := sanitized.mimeType
  storageKey := storageKeyFor user (generateId draws.mediaId) sanitized.format
  thumbKey := none
  thumbIsOrig := false
  thumbStatus := .pending
  fileSize := sanitized.data.length
  thumbSize := none
  width := metadata.width
  height := metadata.height
  durationSecs := metadata.durationSecs
  isAnimated := metadata.isAnimated
  codecHint := metadata.codecHint
  position := 0
  createdAt := now

/-- `create_media_with_next_position`, with the stored object deleted when it fails. -/
def insertOrRollBack (media : Media) : Prog Media :=
  (Repository.createMediaWithNextPosition media).tryExcept fun e => do
    deleteStorageKeyBestEffort media.storageKey
    raise e

def createMedia (rt : Runtime) (albumId : String) (file : UploadFile) (payload : Bytes) (correlationId : String)
    (actor : CurrentActor) (draws : Draws) : Prog Media := do
  let (metadata, sanitized) ← ofExcept (prepareMedia rt file payload)
  Storage.put (storageKeyFor actor.user (generateId draws.mediaId) sanitized.format) sanitized.data
  let now ← utcnow
  let media ← insertOrRollBack (newMedia rt albumId file actor.user draws metadata sanitized now)
  EventBus.emit (.mediaUploaded media.id media.albumId (actor.user.map (·.id)) media.fileSize media.mediaType
    media.format (actorKind actor.user none) actor.source correlationId)
  let refreshed ← Repository.getMedia media.id
  return refreshed.getD media

/-! ## upload -/

/-- `if rate_limit_key: await self.rate_limiter.enforce_upload_limits(…)`. -/
def enforceRateLimit (rateLimitKey : Option String) (byteCount : Nat) (user : Option User) : Prog Unit :=
  match rateLimitKey.filter (· != "") with
  | some key => RateLimiter.enforceUploadLimits key byteCount user
  | none => pure ()

def uploadInto (rt : Runtime) (input : UploadInput) (payload : Bytes) (draws : Draws) (album : Album) : Prog Media := do
  let items ← Repository.listAlbumMedia album.id
  raiseIf (maxAlbumItems ≤ items.length) (.http 413 "Album item limit reached.")
  createMedia rt album.id input.file payload input.correlationId input.actor draws

/-- `if created_album and album is not None and not await list_album_media(…): await delete_album(…)`. -/
def cleanUpAlbum (createdAlbum : Bool) (album : Album) : Prog Unit :=
  if createdAlbum then do
    let items ← Repository.listAlbumMedia album.id
    if items.isEmpty then do
      let _ ← Repository.deleteAlbum album.id
      pure ()
    else pure ()
  else pure ()

/-- `try: await update_album(album) except LookupError: raise 404`. -/
def updateAlbumOr404 (album : Album) : Prog Unit := do
  let result ← attempt (Repository.updateAlbum album)
  match result with
  | .ok _ => pure ()
  | .error (.lookupError _) => raise (.http 404 "Album not found.")
  | .error e => raise e

def titled (album : Album) (title : Option String) : Album :=
  if !truthy album.title && truthy title then { album with title := title } else album

theorem titled_id (album : Album) (title : Option String) : (titled album title).id = album.id := by
  unfold titled; split <;> rfl

def upload (rt : Runtime) (input : UploadInput) (draws : Draws) : Prog UploadResult := do
  let payload ← readBoundedUpload input.file
  raiseIf payload.isEmpty (.http 400 "Empty file upload.")
  enforceRateLimit input.rateLimitKey payload.length input.actor.user
  enforceStorageQuotas input.actor.user payload.length
  let album ← getOrCreateAlbum input.albumId input.title input.correlationId input.actor input.deleteToken draws
  let media ← (uploadInto rt input payload draws album).tryExcept fun e => do
    cleanUpAlbum input.albumId.isNone album
    raise e
  let album := titled album input.title
  updateAlbumOr404 album
  return { album := album, media := media }

end Imghost.Service
