/-
  Imghost.Model.World — the database of `db/init/001-init.sql`, the object storage,
  and what one awaited call does to them.

  A `Req` is one SQL statement, one storage call, or one other thing a coroutine asks
  its surroundings for. The repository methods that run one statement, or several of
  which only the last writes and none reads what another writes, are one request.
  Two transactions are kept as their statements, because other transactions commit
  between them (READ COMMITTED):
  - `create_media_with_next_position`: `lockAlbum` (`SELECT … FOR UPDATE`),
    `nextPosition`, `insertMedia`, which commits and gives the lock back;
  - `delete_album`: `selectAlbumMedia`, then `deleteAlbumRow`, which commits.
  A row lock on an album makes the statements of other tasks that need the row wait
  (`blocked`). A call that raises has no effect; its transaction is rolled back.

  `ON DELETE CASCADE`, `ON DELETE SET NULL`, primary and foreign keys, the
  `updated_at` trigger and the `BIGINT` range are those of the schema. `users` rows
  carry the columns of `user_rate_limits` that `USER_SELECT` joins.
-/

import Mathlib.Data.List.Sort
import Imghost.Async.Pool
import Imghost.Data.Table
import Imghost.Model.Types

namespace Imghost.Model

open Imghost.Async Imghost.Data

/-- The integer keys of `RUNTIME_CONFIG_SPECS` the service reads. -/
inductive ConfigKey where
  | anonExpiryHours
  | maxUploadBytes
  | videoThumbFrames
  | defaultUserQuotaBytes
  | serverQuotaBytes
  deriving DecidableEq, Repr

structure World where
  users : Table User.id
  albums : Table Album.id
  media : Table Media.id
  sharexDeleteCapabilities : Table ShareXDeleteCapability.selector
  /-- `created_at` of the `audit_log` rows. -/
  auditLog : List DateTime
  /-- The effective runtime configuration. -/
  config : ConfigKey → Int
  /-- The object storage. -/
  objects : String → Option Bytes
  /-- The task holding an album row's `FOR UPDATE` lock. -/
  albumLocks : String → Option Nat
  clock : DateTime
  /-- What was emitted on the event bus. -/
  events : List BusEvent

/-! ## Requests -/

inductive Req where
  | utcnow
  | getValue (key : ConfigKey)
  | enforceUploadLimits (actorKey : String) (byteCount : Nat) (user : Option User)
  | emit (event : BusEvent)
  -- storage
  | put (key : String) (data : Bytes)
  | storageDelete (key : String)
  | getBytes (key : String)
  -- albums
  | createAlbum (album : Album)
  | getAlbum (albumId : String)
  | updateAlbum (album : Album)
  | listExpiredAlbums (now : DateTime)
  | selectAlbumMedia (albumId : String)
  | deleteAlbumRow (albumId : String)
  -- media
  | listAllMedia
  | listAlbumMedia (albumId : String)
  | lockAlbum (albumId : String)
  | nextPosition (albumId : String)
  | insertMedia (media : Media)
  | getMedia (mediaId : String)
  | updateMediaThumbnailState (mediaId : String) (thumbKey : Option String) (thumbIsOrig : Bool)
      (thumbStatus : ThumbStatus) (thumbSize : Option Nat)
  | updateMediaPositions (albumId : String) (positions : List (String × Int))
  | deleteMedia (mediaId : String)
  -- users
  | createUser (user : User)
  | getUser (userId : String)
  | getUserByEmail (email : String)
  | getUserByUsername (username : String)
  | updateUser (user : User)
  | listUserAlbums (userId : String)
  | listUserMedia (userId : String)
  | deleteUser (userId : String)
  -- capabilities and audit log
  | revokeSharexDeleteCapabilitiesForUser (userId : String)
  | deleteExpiredSharexDeleteCapabilities (now : DateTime)
  | deleteRevokedSharexDeleteCapabilitiesOlderThan (cutoff : DateTime)
  | deleteConsumedSharexDeleteCapabilitiesOlderThan (cutoff : DateTime)
  | countAuditEventsOlderThan (before : DateTime)
  | deleteAuditEventsOlderThan (before : DateTime)
  deriving DecidableEq

@[reducible] def Reply : Req → Type
  | .utcnow => DateTime
  | .getValue _ => Int
  | .enforceUploadLimits _ _ _ | .emit _ | .put _ _ | .storageDelete _ => Unit
  | .getBytes _ => Bytes
  | .createAlbum _ | .updateAlbum _ => Album
  | .getAlbum _ | .deleteAlbumRow _ => Option Album
  | .listExpiredAlbums _ | .listUserAlbums _ => List Album
  | .selectAlbumMedia _ | .listAllMedia | .listAlbumMedia _ | .updateMediaPositions _ _ | .listUserMedia _ => List Media
  | .lockAlbum _ => Option String
  | .nextPosition _ => Int
  | .insertMedia _ | .updateMediaThumbnailState _ _ _ _ _ => Media
  | .getMedia _ | .deleteMedia _ => Option Media
  | .getUser _ | .getUserByEmail _ | .getUserByUsername _ => Option User
  | .createUser _ | .updateUser _ => User
  | .deleteUser _ => Option User × List Album × List Media
  | .revokeSharexDeleteCapabilitiesForUser _ | .deleteExpiredSharexDeleteCapabilities _
  | .deleteRevokedSharexDeleteCapabilitiesOlderThan _ | .deleteConsumedSharexDeleteCapabilitiesOlderThan _
  | .countAuditEventsOlderThan _ | .deleteAuditEventsOlderThan _ => Nat

/-- A coroutine of the service. -/
abbrev Prog (α : Type) := Program Reply PyExc α

abbrev Call := Event Reply PyExc

/-! ## Errors of the database -/

def uniqueViolation : PyExc := .exception "duplicate key value violates unique constraint"
def foreignKeyViolation : PyExc := .exception "violates foreign key constraint"
def outOfRange : PyExc := .exception "bigint out of range"

def bigintMax : Int := 2 ^ 63 - 1
def inBigint (n : Int) : Bool := -(2 ^ 63) ≤ n && n ≤ bigintMax
def inInt (n : Int) : Bool := -(2 ^ 31) ≤ n && n ≤ 2 ^ 31 - 1

namespace World

variable (w : World)

/-! ## Queries -/

def mediaOf (albumId : String) : List Media := w.media.rows.filter (·.albumId == albumId)

/-- `SELECT * FROM media WHERE album_id = $1 ORDER BY position`. -/
def listAlbumMedia (albumId : String) : List Media :=
  (w.mediaOf albumId).insertionSort fun a b => a.position ≤ b.position

/-- `SELECT * FROM media ORDER BY created_at`. -/
def listAllMedia : List Media := w.media.rows.insertionSort fun a b => a.createdAt ≤ b.createdAt

def listUserMedia (userId : String) : List Media := w.listAllMedia.filter (·.userId == some userId)

def listUserAlbums (userId : String) : List Album :=
  (w.albums.rows.filter (·.userId == some userId)).insertionSort fun a b => a.createdAt ≤ b.createdAt

/-- `SELECT * FROM albums WHERE expires_at IS NOT NULL AND expires_at <= $1 ORDER BY expires_at`. -/
def listExpiredAlbums (now : DateTime) : List Album :=
  (w.albums.rows.filter (isExpired now ·.expiresAt)).insertionSort fun a b => a.expiresAt.getD 0 ≤ b.expiresAt.getD 0

/-- `SELECT COALESCE(MAX(position) + 1000, 1000) FROM media WHERE album_id = $1`. -/
def nextPosition (albumId : String) : Except PyExc Int :=
  match ((w.mediaOf albumId).map (·.position)).max? with
  | some p => if inBigint (p + 1000) then .ok (p + 1000) else .error outOfRange
  | none => .ok 1000

def hasUser : Option String → Bool
  | some u => (w.users.find? u).isSome
  | none => true

/-! ## Statements -/

def createAlbum (a : Album) : Except PyExc Album × World :=
  if !w.hasUser a.userId then (.error foreignKeyViolation, w)
  else
    match w.albums.insert a with
    | some t => (.ok a, { w with albums := t })
    | none => (.error uniqueViolation, w)

/-- The columns `update_album` sets, and `updated_at` from the trigger. -/
def setAlbum (a : Album) (row : Album) : Album :=
  { row with userId := a.userId, title := a.title, coverMediaId := a.coverMediaId, deleteToken := a.deleteToken,
             expiresAt := a.expiresAt, updatedAt := w.clock }

theorem setAlbum_id (a row : Album) : (w.setAlbum a row).id = row.id := rfl

def updateAlbum (a : Album) : Except PyExc Album × World :=
  match w.albums.find? a.id with
  | none => (.error (.lookupError "album_not_found"), w)
  | some row =>
    if row.userId != a.userId && !w.hasUser a.userId then (.error foreignKeyViolation, w)
    else (.ok (w.setAlbum a row), { w with albums := w.albums.update a.id (w.setAlbum a) (w.setAlbum_id a) })

/-- `DELETE FROM albums WHERE … RETURNING *` with its cascades, for the albums `p` picks. -/
def dropAlbums (p : Album → Bool) : World :=
  let gone := (w.albums.rows.filter p).map (·.id)
  { w with
    albums := w.albums.deleteWhere p
    media := w.media.deleteWhere (gone.contains ·.albumId)
    sharexDeleteCapabilities := w.sharexDeleteCapabilities.deleteWhere (gone.contains ·.albumId) }

def deleteAlbumRow (albumId : String) : Option Album × World :=
  (w.albums.find? albumId, w.dropAlbums (·.id == albumId))

def lockAlbum (i : Nat) (albumId : String) : Option String × World :=
  match w.albums.find? albumId with
  | some a => (some a.id, { w with albumLocks := fun x => if x = albumId then some i else w.albumLocks x })
  | none => (none, w)

/-- The end of task `i`'s transaction: its locks are free again. -/
def unlock (i : Nat) : World :=
  { w with albumLocks := fun x => if w.albumLocks x = some i then none else w.albumLocks x }

def insertMedia (i : Nat) (m : Media) : Except PyExc Media × World :=
  if (w.albums.find? m.albumId).isNone || !w.hasUser m.userId then (.error foreignKeyViolation, w.unlock i)
  else
    match w.media.insert m with
    | some t => (.ok m, { w.unlock i with media := t })
    | none => (.error uniqueViolation, w.unlock i)

def setThumb (thumbKey : Option String) (thumbIsOrig : Bool) (thumbStatus : ThumbStatus) (thumbSize : Option Nat)
    (m : Media) : Media :=
  { m with thumbKey := thumbKey, thumbIsOrig := thumbIsOrig, thumbStatus := thumbStatus, thumbSize := thumbSize }

theorem setThumb_id (thumbKey : Option String) (thumbIsOrig : Bool) (thumbStatus : ThumbStatus)
    (thumbSize : Option Nat) (m : Media) : (setThumb thumbKey thumbIsOrig thumbStatus thumbSize m).id = m.id := rfl

def updateMediaThumbnailState (mediaId : String) (thumbKey : Option String) (thumbIsOrig : Bool)
    (thumbStatus : ThumbStatus) (thumbSize : Option Nat) : Except PyExc Media × World :=
  match w.media.find? mediaId with
  | none => (.error (.lookupError "media_not_found"), w)
  | some m =>
    (.ok (setThumb thumbKey thumbIsOrig thumbStatus thumbSize m),
      { w with
        media := w.media.update mediaId (setThumb thumbKey thumbIsOrig thumbStatus thumbSize)
          (setThumb_id thumbKey thumbIsOrig thumbStatus thumbSize) })

/-- `UPDATE media SET position = $3 WHERE id = $1 AND album_id = $2`. -/
def setPosition (albumId : String) (m : Media) : String × Int → Media
  | (mediaId, position) => if m.id = mediaId ∧ m.albumId = albumId then { m with position := position } else m

def setPositions (albumId : String) (positions : List (String × Int)) (m : Media) : Media :=
  positions.foldl (setPosition albumId) m

theorem setPosition_id (albumId : String) (m : Media) (p : String × Int) : (setPosition albumId m p).id = m.id := by
  simp only [setPosition]; split <;> rfl

theorem setPositions_id (albumId : String) (positions : List (String × Int)) (m : Media) :
    (setPositions albumId positions m).id = m.id := by
  unfold setPositions
  induction positions generalizing m with
  | nil => rfl
  | cons p ps ih => rw [List.foldl_cons, ih, setPosition_id]

def updateMediaPositions (albumId : String) (positions : List (String × Int)) : Except PyExc (List Media) × World :=
  if positions.all (inBigint ·.2) then
    let w' := { w with media := w.media.modify (setPositions albumId positions) (setPositions_id albumId positions) }
    (.ok (w'.listAlbumMedia albumId), w')
  else (.error outOfRange, w)

/-- The columns `update_user` sets, and `updated_at` from the trigger. -/
def setUser (u : User) (row : User) : User :=
  { row with username := u.username, email := u.email, passwordHash := u.passwordHash, isAdmin := u.isAdmin,
             suspended := u.suspended, quotaBytes := u.quotaBytes, rateLimitRpm := u.rateLimitRpm,
             rateLimitBph := u.rateLimitBph, updatedAt := w.clock }

theorem setUser_id (u row : User) : (w.setUser u row).id = row.id := rfl

/-- `username` and `email` are `UNIQUE`. -/
def nameTaken (u : User) : Bool := w.users.rows.any fun v => v.id != u.id && (v.username == u.username || v.email == u.email)

/-- The columns `quota_bytes BIGINT`, `rpm INT` and `bph BIGINT`. -/
def limitsInRange (u : User) : Bool :=
  u.quotaBytes.all inBigint && u.rateLimitRpm.all inInt && u.rateLimitBph.all inBigint

def createUser (u : User) : Except PyExc User × World :=
  if !limitsInRange u then (.error outOfRange, w)
  else if w.nameTaken u then (.error uniqueViolation, w)
  else
    match w.users.insert u with
    | some t => (.ok u, { w with users := t })
    | none => (.error uniqueViolation, w)

/-- One transaction: the `users` row, its rate-limit overrides, the row read back. With
    no such row, either the override has no user or `row_to_user(None)` raises. -/
def updateUser (u : User) : Except PyExc User × World :=
  if !limitsInRange u then (.error outOfRange, w)
  else
    match w.users.find? u.id with
    | none =>
      if u.rateLimitRpm.isNone && u.rateLimitBph.isNone then
        (.error (.exception "'NoneType' object is not subscriptable"), w)
      else (.error foreignKeyViolation, w)
    | some row =>
      if w.nameTaken u then (.error uniqueViolation, w)
      else (.ok (w.setUser u row), { w with users := w.users.update u.id (w.setUser u) (w.setUser_id u) })

/-- `ON DELETE SET NULL` of `media.user_id`. -/
def dropUserId (userId : String) (m : Media) : Media := if m.userId = some userId then { m with userId := none } else m

theorem dropUserId_id (userId : String) (m : Media) : (dropUserId userId m).id = m.id := by
  unfold dropUserId; split <;> rfl

/-- `UserRepository.delete_user`: the albums go with the user, the media rows of other
    albums lose their `user_id`. -/
def deleteUser (userId : String) : (Option User × List Album × List Media) × World :=
  match w.users.find? userId with
  | none => ((none, [], []), w)
  | some u =>
    let albums := w.listUserAlbums userId
    let media := w.listAllMedia.filter fun m =>
      m.userId == some userId || (w.albums.find? m.albumId).any (·.userId == some userId)
    let w' := w.dropAlbums (·.userId == some userId)
    ((some u, albums, media),
      { w' with
        users := w'.users.delete userId
        media := w'.media.modify (dropUserId userId) (dropUserId_id userId)
        sharexDeleteCapabilities := w'.sharexDeleteCapabilities.deleteWhere (·.userId == userId) })

def revoke (now : DateTime) (c : ShareXDeleteCapability) : ShareXDeleteCapability :=
  { c with revokedAt := some (c.revokedAt.getD now), lastSeenAt := some now }

def revokeSharexDeleteCapabilitiesForUser (userId : String) : Nat × World :=
  let hit (c : ShareXDeleteCapability) : Bool := c.userId == userId && c.consumedAt.isNone && c.revokedAt.isNone
  let capabilities :=
    w.sharexDeleteCapabilities.modify (fun c => if hit c then revoke w.clock c else c) fun c => by split <;> rfl
  ((w.sharexDeleteCapabilities.rows.filter hit).length, { w with sharexDeleteCapabilities := capabilities })

def deleteCapabilities (p : ShareXDeleteCapability → Bool) : Nat × World :=
  ((w.sharexDeleteCapabilities.rows.filter p).length,
    { w with sharexDeleteCapabilities := w.sharexDeleteCapabilities.deleteWhere p })

/-! ## Storage -/

def put (key : String) (data : Bytes) : World :=
  { w with objects := fun k => if k = key then some data else w.objects k }

def storageDelete (key : String) : World :=
  { w with objects := fun k => if k = key then none else w.objects k }

end World

/-! ## The backend -/

open World in
def exec (i : Nat) : (r : Req) → World → Except PyExc (Reply r) × World
  | .utcnow, w => (.ok w.clock, w)
  | .getValue key, w => (.ok (w.config key), w)
  | .enforceUploadLimits _ _ _, w => (.ok (), w)
  | .emit event, w => (.ok (), { w with events := w.events ++ [event] })
  | .put key data, w => (.ok (), w.put key data)
  | .storageDelete key, w => (.ok (), w.storageDelete key)
  | .getBytes key, w =>
    match w.objects key with
    | some data => (.ok data, w)
    | none => (.error (.exception "No such file or directory"), w)
  | .createAlbum album, w => w.createAlbum album
  | .getAlbum albumId, w => (.ok (w.albums.find? albumId), w)
  | .updateAlbum album, w => w.updateAlbum album
  | .listExpiredAlbums now, w => (.ok (w.listExpiredAlbums now), w)
  | .selectAlbumMedia albumId, w => (.ok (w.listAlbumMedia albumId), w)
  | .deleteAlbumRow albumId, w => let a := w.deleteAlbumRow albumId; (.ok a.1, a.2)
  | .listAllMedia, w => (.ok w.listAllMedia, w)
  | .listAlbumMedia albumId, w => (.ok (w.listAlbumMedia albumId), w)
  | .lockAlbum albumId, w => let a := w.lockAlbum i albumId; (.ok a.1, a.2)
  | .nextPosition albumId, w =>
    match w.nextPosition albumId with
    | .ok p => (.ok p, w)
    | .error e => (.error e, w.unlock i)
  | .insertMedia m, w => w.insertMedia i m
  | .getMedia mediaId, w => (.ok (w.media.find? mediaId), w)
  | .updateMediaThumbnailState mediaId thumbKey thumbIsOrig thumbStatus thumbSize, w =>
    w.updateMediaThumbnailState mediaId thumbKey thumbIsOrig thumbStatus thumbSize
  | .updateMediaPositions albumId positions, w => w.updateMediaPositions albumId positions
  | .deleteMedia mediaId, w => (.ok (w.media.find? mediaId), { w with media := w.media.delete mediaId })
  | .createUser user, w => w.createUser user
  | .getUser userId, w => (.ok (w.users.find? userId), w)
  | .getUserByEmail email, w => (.ok (w.users.rows.find? (·.email == email)), w)
  | .getUserByUsername username, w => (.ok (w.users.rows.find? (·.username == username)), w)
  | .updateUser user, w => w.updateUser user
  | .listUserAlbums userId, w => (.ok (w.listUserAlbums userId), w)
  | .listUserMedia userId, w => (.ok (w.listUserMedia userId), w)
  | .deleteUser userId, w => let a := w.deleteUser userId; (.ok a.1, a.2)
  | .revokeSharexDeleteCapabilitiesForUser userId, w =>
    let a := w.revokeSharexDeleteCapabilitiesForUser userId; (.ok a.1, a.2)
  | .deleteExpiredSharexDeleteCapabilities now, w => let a := w.deleteCapabilities (·.expiresAt ≤ now); (.ok a.1, a.2)
  | .deleteRevokedSharexDeleteCapabilitiesOlderThan cutoff, w =>
    let a := w.deleteCapabilities (·.revokedAt.any (· ≤ cutoff)); (.ok a.1, a.2)
  | .deleteConsumedSharexDeleteCapabilitiesOlderThan cutoff, w =>
    let a := w.deleteCapabilities (·.consumedAt.any (· ≤ cutoff)); (.ok a.1, a.2)
  | .countAuditEventsOlderThan before, w => (.ok (w.auditLog.countP (· < before)), w)
  | .deleteAuditEventsOlderThan before, w =>
    (.ok (w.auditLog.countP (· < before)), { w with auditLog := w.auditLog.filter fun t => !decide (t < before) })

/-- The calls the environment can make raise: all but the clock and the event bus,
    whose listeners' exceptions are swallowed. -/
def fallible : Req → Bool
  | .utcnow | .emit _ => false
  | _ => true

/-- A call that raises: no effect, and its transaction is over. -/
def fail (i : Nat) (r : Req) (e : PyExc) (w : World) : Except PyExc (Reply r) × World :=
  if fallible r then (.error e, w.unlock i) else exec i r w

/-- A statement that needs an album row another task has locked. -/
def blocked (i : Nat) (r : Req) (w : World) : Bool :=
  let held (albumId : String) : Bool := (w.albumLocks albumId).any (· != i)
  match r with
  | .lockAlbum albumId | .deleteAlbumRow albumId => held albumId
  | .updateAlbum a => held a.id
  | .insertMedia m => held m.albumId
  | .deleteUser userId => w.albums.rows.any fun a => a.userId == some userId && held a.id
  | _ => false

def backend : Backend Reply PyExc World where
  exec := exec
  fail := fail
  blocked := blocked
  elapse d w := { w with clock := w.clock + d }

end Imghost.Model
