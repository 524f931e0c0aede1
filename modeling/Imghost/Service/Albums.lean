/-
  Imghost.Service.Albums — the operations of `UploadService` on existing albums and
  their media: `delete_album`, `update_album`, `reorder_album`, `delete_media`,
  `prune_expired_albums`, `admin_update_album`.

  An `Album` object an operation changes before it writes it back is a new value
  here, under the same name.
-/

import Imghost.Service.Upload

namespace Imghost.Service

open Imghost.Async Imghost.Model Program

def albumNotFound : PyExc := .http 404 "Album not found."
def mediaNotFound : PyExc := .http 404 "Media not found."

/-- `get_album`, and a 404 when there is none. -/
def getAlbumOr404 (albumId : String) : Prog Album := do
  let found ← Repository.getAlbum albumId
  match found with
  | some album => pure album
  | none => raise albumNotFound

/-- `"api" if actor_user else "web"`. -/
def sourceOf (actorUser : Option User) : String := if actorUser.isSome then "api" else "web"

/-! ## delete_album -/

def deleteAlbum (albumId : String) (deleteToken : Option String) (correlationId : String) (actorUser : Option User) :
    Prog (Album × List Media) := do
  let album ← getAlbumOr404 albumId
  requireAlbumAccess album deleteToken actorUser (actorUser.any (·.isAdmin))
  let _ ← Repository.listAlbumMedia albumId
  let deleted ← Repository.deleteAlbum albumId
  match deleted with
  | (none, _) => raise albumNotFound
  | (some deletedAlbum, deletedMedia) => do
    deleteMediaStorageKeys deletedMedia
    EventBus.emit (.albumDeleted deletedAlbum.id deletedAlbum.userId (actorUser.map (·.id))
      (actorKind actorUser deleteToken) deletedMedia.length
      (deletedMedia.map fun item => item.fileSize + item.thumbSize.getD 0).sum "web" correlationId)
    return (deletedAlbum, deletedMedia)

/-! ## update_album -/

structure AlbumPatch where
  title : MaybeUnset (Option String)
  coverMediaId : MaybeUnset (Option String)
  deriving DecidableEq, Repr

/-- The `if title is not UNSET` block: the album, and whether it changed. -/
def patchTitle (album : Album) (title : MaybeUnset (Option String)) (deleteToken : Option String) (correlationId : String)
    (actorUser : Option User) : Prog (Album × Bool) :=
  match title with
  | .unset => pure (album, false)
  | .set title =>
    let normalizedTitle := normalizeTitle title
    if album.title = normalizedTitle then pure (album, false)
    else do
      EventBus.emit (.albumTitleChanged album.id album.userId (actorUser.map (·.id)) (actorKind actorUser deleteToken)
        album.title normalizedTitle (sourceOf actorUser) correlationId)
      return ({ album with title := normalizedTitle }, true)

/-- The `if cover_media_id is not UNSET` block. -/
def patchCover (album : Album) (changed : Bool) (coverMediaId : MaybeUnset (Option String)) (items : List Media)
    (deleteToken : Option String) (correlationId : String) (actorUser : Option User) : Prog (Album × Bool) :=
  match coverMediaId with
  | .unset => pure (album, changed)
  | .set coverMediaId => do
    let nextCover ← ofExcept (normalizeCoverMediaId coverMediaId items)
    if album.coverMediaId = nextCover then return (album, changed)
    else do
      EventBus.emit (.albumCoverSet album.id album.userId (actorUser.map (·.id)) (actorKind actorUser deleteToken)
        nextCover (sourceOf actorUser) correlationId)
      return ({ album with coverMediaId := nextCover }, true)

/-- The title block returns the album with its new title, unchanged where it reports no change. -/
theorem patchTitle_yields (album : Album) (title : MaybeUnset (Option String)) (deleteToken : Option String)
    (correlationId : String) (actorUser : Option User) :
    (patchTitle album title deleteToken correlationId actorUser).Yields fun r =>
      r.1 = { album with title := match title with | .set title => normalizeTitle title | .unset => album.title } ∧
        (r.2 = false → r.1 = album) := by
  cases title with
  | unset => exact ⟨rfl, fun _ => rfl⟩
  | set title =>
    simp only [patchTitle]
    split
    · rename_i hsame
      exact ⟨by rw [← hsame], fun _ => rfl⟩
    · exact yields_then fun _ => ⟨rfl, fun h => nomatch h⟩

theorem normalizeCoverMediaId_ok {cover next : Option String} {items : List Media}
    (h : normalizeCoverMediaId cover items = .ok next) : next = cover := by
  unfold normalizeCoverMediaId at h
  split at h
  · exact (Except.ok.inj h).symm
  · split at h
    · exact (Except.ok.inj h).symm
    · cases h

/-- The cover block, of an album `s` the title block has seen before. -/
theorem patchCover_yields {s album : Album} {changed : Bool} (hchanged : changed = false → album = s)
    (cover : MaybeUnset (Option String)) (items : List Media) (deleteToken : Option String) (correlationId : String)
    (actorUser : Option User) :
    (patchCover album changed cover items deleteToken correlationId actorUser).Yields fun r =>
      r.1 = { album with coverMediaId := match cover with | .set cover => cover | .unset => album.coverMediaId } ∧
        (r.2 = false → r.1 = s) := by
  cases cover with
  | unset => exact ⟨rfl, hchanged⟩
  | set cover =>
    refine yields_bind (yields_ofExcept fun next h => normalizeCoverMediaId_ok h) fun next hnext => ?_
    subst hnext
    by_cases hsame : album.coverMediaId = next
    · rw [if_pos hsame]
      exact ⟨by rw [← hsame], hchanged⟩
    · rw [if_neg hsame]
      exact yields_then fun _ => ⟨rfl, fun h => nomatch h⟩

def writeIfChanged (album : Album) (changed : Bool) : Prog Unit := if changed then updateAlbumOr404 album else pure ()

def updateAlbum (albumId : String) (deleteToken : Option String) (correlationId : String) (actorUser : Option User)
    (patch : AlbumPatch) : Prog (Album × List Media) := do
  let album ← getAlbumOr404 albumId
  requireAlbumAccess album deleteToken actorUser false
  let items ← Repository.listAlbumMedia albumId
  let afterTitle ← patchTitle album patch.title deleteToken correlationId actorUser
  let patched ← patchCover afterTitle.1 afterTitle.2 patch.coverMediaId items deleteToken correlationId actorUser
  writeIfChanged patched.1 patched.2
  let items ← Repository.listAlbumMedia albumId
  return (patched.1, items)

/-! ## reorder_album -/

/-- The loop over `order`: every id must be in the album, and none come twice. -/
def collectPositions (items : List Media) :
    List (String × Int) → List (String × Int) → Except PyExc (List (String × Int))
  | [], positions => .ok positions
  | (mediaId, position) :: order, positions =>
    if !items.any (·.id == mediaId) then .error (.http 404 ("Media " ++ mediaId ++ " not found in album."))
    else if positions.any (·.1 == mediaId) then
      .error (.http 400 ("Duplicate media " ++ mediaId ++ " in order payload."))
    else collectPositions items order (positions ++ [(mediaId, position)])

/-- `{item.id: index * 1000 for index, item in enumerate(reordered, start=1)}`. -/
def rebalanced (reordered : List Media) : List (String × Int) :=
  reordered.zipIdx.map fun (item, index) => (item.id, ((index + 1) * 1000 : Nat))

/-- The new positions, spread out again where two of them have come too close. -/
def writePositions (albumId : String) (positions : List (String × Int)) : Prog (List Media) := do
  let reordered ← Repository.updateMediaPositions albumId positions
  if needsRebalance reordered then Repository.updateMediaPositions albumId (rebalanced reordered)
  else pure reordered

def reorderAlbum (albumId : String) (deleteToken : Option String) (order : List (String × Int))
    (correlationId : String) (actorUser : Option User) : Prog (Album × List Media) := do
  let album ← getAlbumOr404 albumId
  requireAlbumAccess album deleteToken actorUser false
  let items ← Repository.listAlbumMedia albumId
  raiseIf order.isEmpty (.http 400 "At least one position update is required.")
  let positions ← ofExcept (collectPositions items order [])
  let reordered ← writePositions albumId positions
  updateAlbumOr404 album
  EventBus.emit (.albumReordered album.id album.userId (actorUser.map (·.id)) (actorKind actorUser deleteToken)
    (sourceOf actorUser) correlationId)
  return (album, reordered)

/-! ## delete_media -/

structure MediaDeleteResult where
  deletedMedia : Media
  album : Option Album
  remainingItems : List Media
  albumDeleted : Bool
  deriving DecidableEq, Repr

def getMediaOr404 (mediaId : String) : Prog Media := do
  let found ← Repository.getMedia mediaId
  match found with
  | some media => pure media
  | none => raise mediaNotFound

/-- The row deleted, its objects with it, the event sent. -/
def removeMedia (mediaId : String) (deleteToken : Option String) (correlationId : String) (actorUser : Option User) :
    Prog Media := do
  let deleted ← Repository.deleteMedia mediaId
  match deleted with
  | none => raise mediaNotFound
  | some deletedMedia => do
    deleteMediaStorageKeys [deletedMedia]
    EventBus.emit (.mediaDeleted deletedMedia.id deletedMedia.albumId deletedMedia.userId (actorUser.map (·.id))
      (actorKind actorUser deleteToken) (deletedMedia.fileSize + deletedMedia.thumbSize.getD 0) (sourceOf actorUser)
      correlationId)
    return deletedMedia

def announceEmptiedAlbum (deletedAlbum : Option Album) (deleteToken : Option String) (correlationId : String)
    (actorUser : Option User) : Prog Unit :=
  match deletedAlbum with
  | none => pure ()
  | some deletedAlbum =>
    EventBus.emit (.albumDeleted deletedAlbum.id deletedAlbum.userId (actorUser.map (·.id))
      (actorKind actorUser deleteToken) 0 0 (sourceOf actorUser) correlationId)

/-- The last item is gone: so is the album. -/
def deleteEmptiedAlbum (albumId : String) (deletedMedia : Media) (deleteToken : Option String) (correlationId : String)
    (actorUser : Option User) : Prog MediaDeleteResult := do
  let deleted ← Repository.deleteAlbum albumId
  announceEmptiedAlbum deleted.1 deleteToken correlationId actorUser
  return { deletedMedia := deletedMedia, album := none, remainingItems := [], albumDeleted := true }

/-- Items remain: a cover that was deleted is dropped, the album written back. -/
def keepAlbum (album : Album) (deletedMedia : Media) (remainingItems : List Media) : Prog MediaDeleteResult := do
  let album := if album.coverMediaId = some deletedMedia.id then { album with coverMediaId := none } else album
  let result ← Program.attempt (Repository.updateAlbum album)
  match result with
  | .ok _ =>
    return { deletedMedia := deletedMedia, album := some album, remainingItems := remainingItems, albumDeleted := false }
  | .error (.lookupError _) =>
    return { deletedMedia := deletedMedia, album := none, remainingItems := [], albumDeleted := true }
  | .error e => raise e

def deleteMedia (mediaId : String) (deleteToken : Option String) (correlationId : String) (actorUser : Option User) :
    Prog MediaDeleteResult := do
  let media ← getMediaOr404 mediaId
  let album ← getAlbumOr404 media.albumId
  requireAlbumAccess album deleteToken actorUser false
  let deletedMedia ← removeMedia mediaId deleteToken correlationId actorUser
  let remainingItems ← Repository.listAlbumMedia album.id
  if remainingItems.isEmpty then deleteEmptiedAlbum album.id deletedMedia deleteToken correlationId actorUser
  else keepAlbum album deletedMedia remainingItems

/-! ## prune_expired_albums -/

structure PruneResult where
  dryRun : Bool
  albumIds : List String
  itemCount : Nat
  bytesFreed : Nat
  auditEventCount : Nat
  deriving DecidableEq, Repr

/-- `album_ids`, `item_count`, `bytes_freed` of the loop. -/
structure PruneTally where
  albumIds : List String
  itemCount : Nat
  bytesFreed : Nat
  deriving DecidableEq, Repr

/-- The loop over `storage_keys`: whether all were deleted; it stops at a failure. -/
def deleteKeys : List String → Prog Bool
  | [] => pure true
  | key :: keys => do
    let deleted ← Program.attempt (Storage.delete key)
    match deleted with
    | .ok _ => deleteKeys keys
    | .error _ => pure false

/-- The rows of an album whose objects are gone. -/
def pruneRows (albumId : String) : Prog Unit := do
  let deleted ← Repository.deleteAlbum albumId
  match deleted with
  | (none, _) => pure ()
  | (some deletedAlbum, deletedMedia) =>
    EventBus.emit (.albumDeleted deletedAlbum.id deletedAlbum.userId none .system deletedMedia.length
      (storageBytesForMedia deletedMedia) "system" ("prune-" ++ deletedAlbum.id))

/-- One turn of the loop over the expired albums. A turn whose objects cannot all be
    deleted takes its contribution to the tally back. -/
def pruneAlbum (dryRun : Bool) (tally : PruneTally) (album : Album) : Prog PruneTally := do
  let mediaItems ← Repository.listAlbumMedia album.id
  let counted : PruneTally :=
    { albumIds := tally.albumIds ++ [album.id], itemCount := tally.itemCount + mediaItems.length,
      bytesFreed := tally.bytesFreed + storageBytesForMedia mediaItems }
  if dryRun then return counted
  else do
    let storageOk ← deleteKeys (storageKeysForMedia mediaItems)
    if storageOk then do
      pruneRows album.id
      return counted
    else return tally

def pruneAuditLog (rt : Runtime) (dryRun : Bool) : Prog Nat :=
  if rt.telemetry then do
    let now ← utcnow
    let auditBefore ← ofExcept (subDays now rt.auditRetentionDays)
    if dryRun then Telemetry.countAuditEventsOlderThan auditBefore
    else Telemetry.deleteAuditEventsOlderThan auditBefore
  else pure 0

def sharexDeleteRetentionDays : Int := 30

def pruneCapabilities (dryRun : Bool) (now : DateTime) : Prog Unit :=
  if dryRun then pure ()
  else do
    let _ ← Repository.deleteExpiredSharexDeleteCapabilities now
    let revokedBefore ← ofExcept (subDays now sharexDeleteRetentionDays)
    let _ ← Repository.deleteRevokedSharexDeleteCapabilitiesOlderThan revokedBefore
    let consumedBefore ← ofExcept (subDays now sharexDeleteRetentionDays)
    let _ ← Repository.deleteConsumedSharexDeleteCapabilitiesOlderThan consumedBefore
    pure ()

def pruneExpiredAlbums (rt : Runtime) (dryRun : Bool) : Prog PruneResult := do
  let now ← utcnow
  let expiredAlbums ← Repository.listExpiredAlbums now
  let tally ← foldEach expiredAlbums { albumIds := [], itemCount := 0, bytesFreed := 0 } (pruneAlbum dryRun)
  let auditEventCount ← pruneAuditLog rt dryRun
  pruneCapabilities dryRun now
  return { dryRun := dryRun, albumIds := tally.albumIds, itemCount := tally.itemCount,
           bytesFreed := tally.bytesFreed, auditEventCount := auditEventCount }

/-! ## admin_update_album -/

/-- `old_expiry == new_expiry`, of the texts `isoformat` gives; the database hands out
    times in UTC. -/
def sameExpiry (stored : Option DateTime) (given : Option AwareDateTime) : Bool :=
  stored.map (fun t => (⟨t, 0⟩ : AwareDateTime)) == given

def adminUpdateAlbum (albumId : String) (expiresAt : MaybeUnset (Option AwareDateTime)) (correlationId : String)
    (actorId : Option String) : Prog Album := do
  let album ← getAlbumOr404 albumId
  match expiresAt with
  | .unset => return album
  | .set expiresAt =>
    if sameExpiry album.expiresAt expiresAt then return album
    else do
      let updated := { album with expiresAt := expiresAt.map (·.instant) }
      let _ ← Repository.updateAlbum updated
      EventBus.emit (.albumExpiryChanged updated.id updated.userId actorId .admin album.expiresAt expiresAt "api"
        correlationId)
      return updated

end Imghost.Service
