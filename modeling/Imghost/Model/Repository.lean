/-
  Imghost.Model.Repository — the methods of the repositories, the storage and the
  event bus as coroutines.
-/

import Imghost.Model.World

namespace Imghost.Model

open Imghost.Async

/-- `await` of one call. -/
abbrev ask (r : Req) : Prog (Reply r) := Program.perform r

/-! ## Everything but the database -/

abbrev utcnow : Prog DateTime := ask .utcnow
abbrev RuntimeConfig.getValue (key : ConfigKey) : Prog Int := ask (.getValue key)
abbrev RateLimiter.enforceUploadLimits (actorKey : String) (byteCount : Nat) (user : Option User) : Prog Unit :=
  ask (.enforceUploadLimits actorKey byteCount user)
abbrev EventBus.emit (event : BusEvent) : Prog Unit := ask (.emit event)

abbrev Storage.put (key : String) (data : Bytes) : Prog Unit := ask (.put key data)
abbrev Storage.delete (key : String) : Prog Unit := ask (.storageDelete key)
abbrev Storage.getBytes (key : String) : Prog Bytes := ask (.getBytes key)

namespace Telemetry

abbrev countAuditEventsOlderThan (before : DateTime) : Prog Nat := ask (.countAuditEventsOlderThan before)
abbrev deleteAuditEventsOlderThan (before : DateTime) : Prog Nat := ask (.deleteAuditEventsOlderThan before)

end Telemetry

namespace Repository

/-! ## Albums and media -/

abbrev createAlbum (album : Album) : Prog Album := ask (.createAlbum album)
abbrev getAlbum (albumId : String) : Prog (Option Album) := ask (.getAlbum albumId)
abbrev updateAlbum (album : Album) : Prog Album := ask (.updateAlbum album)
abbrev listExpiredAlbums (now : DateTime) : Prog (List Album) := ask (.listExpiredAlbums now)

/-- `delete_album`: the media rows, then the `DELETE` and the end of the transaction. -/
def deleteAlbum (albumId : String) : Prog (Option Album × List Media) := do
  let mediaRows ← (ask (.selectAlbumMedia albumId) : Prog (List Media))
  let albumRow ← (ask (.deleteAlbumRow albumId) : Prog (Option Album))
  match albumRow with
  | none => return (none, [])
  | some album => return (some album, mediaRows)

abbrev listAllMedia : Prog (List Media) := ask .listAllMedia
abbrev listAlbumMedia (albumId : String) : Prog (List Media) := ask (.listAlbumMedia albumId)

/-- `create_media_with_next_position`: lock the album, take the next position, insert. -/
def createMediaWithNextPosition (media : Media) : Prog Media := do
  let _ ← (ask (.lockAlbum media.albumId) : Prog (Option String))
  let position ← (ask (.nextPosition media.albumId) : Prog Int)
  ask (.insertMedia { media with position := position })

abbrev getMedia (mediaId : String) : Prog (Option Media) := ask (.getMedia mediaId)

abbrev updateMediaThumbnailState (mediaId : String) (thumbKey : Option String) (thumbIsOrig : Bool)
    (thumbStatus : ThumbStatus) (thumbSize : Option Nat) : Prog Media :=
  ask (.updateMediaThumbnailState mediaId thumbKey thumbIsOrig thumbStatus thumbSize)

abbrev updateMediaPositions (albumId : String) (positions : List (String × Int)) : Prog (List Media) :=
  ask (.updateMediaPositions albumId positions)
abbrev deleteMedia (mediaId : String) : Prog (Option Media) := ask (.deleteMedia mediaId)

/-! ## Users and capabilities -/

abbrev createUser (user : User) : Prog User := ask (.createUser user)
abbrev getUser (userId : String) : Prog (Option User) := ask (.getUser userId)
abbrev getUserByEmail (email : String) : Prog (Option User) := ask (.getUserByEmail email)
abbrev getUserByUsername (username : String) : Prog (Option User) := ask (.getUserByUsername username)
abbrev updateUser (user : User) : Prog User := ask (.updateUser user)
abbrev listUserAlbums (userId : String) : Prog (List Album) := ask (.listUserAlbums userId)
abbrev listUserMedia (userId : String) : Prog (List Media) := ask (.listUserMedia userId)
abbrev deleteUser (userId : String) : Prog (Option User × List Album × List Media) := ask (.deleteUser userId)

abbrev revokeSharexDeleteCapabilitiesForUser (userId : String) : Prog Nat :=
  ask (.revokeSharexDeleteCapabilitiesForUser userId)
abbrev deleteExpiredSharexDeleteCapabilities (now : DateTime) : Prog Nat :=
  ask (.deleteExpiredSharexDeleteCapabilities now)
abbrev deleteRevokedSharexDeleteCapabilitiesOlderThan (cutoff : DateTime) : Prog Nat :=
  ask (.deleteRevokedSharexDeleteCapabilitiesOlderThan cutoff)
abbrev deleteConsumedSharexDeleteCapabilitiesOlderThan (cutoff : DateTime) : Prog Nat :=
  ask (.deleteConsumedSharexDeleteCapabilitiesOlderThan cutoff)

end Repository

end Imghost.Model
