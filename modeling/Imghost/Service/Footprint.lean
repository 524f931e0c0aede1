/-
  Imghost.Service.Footprint — which calls each operation can make.

  `Req.reads` are the calls that change no row and no object, `Req.itemReads` those
  among them that fetch neither an album nor a user, `Req.plain` those that no argument
  about concurrent operations looks at. Everything else an operation may call is listed
  in `Op.writes`; `program_footprint` says the list is complete, whatever the calls are
  answered.
-/

import Imghost.Service.Operations

namespace Imghost.Service

open Imghost.Async Imghost.Model Program

def Req.plain : Req → Bool
  | .utcnow | .getValue _ | .enforceUploadLimits _ _ _ | .emit _ | .getBytes _ => true
  | .listExpiredAlbums _ | .listAllMedia | .listUserAlbums _ | .listUserMedia _ => true
  | .getUserByEmail _ | .getUserByUsername _ | .countAuditEventsOlderThan _ => true
  | _ => false

def Req.itemReads : Req → Bool
  | .selectAlbumMedia _ | .listAlbumMedia _ | .lockAlbum _ | .nextPosition _ | .getMedia _ => true
  | r => Req.plain r

def Req.reads : Req → Bool
  | .getAlbum _ | .getUser _ => true
  | r => Req.itemReads r

/-- The writes of an operation. -/
def Op.writes : Op → Req → Prop
  | .upload _ _, .createAlbum _ | .upload _ _, .put _ _ | .upload _ _, .insertMedia _ => True
  | .upload _ _, .storageDelete _ | .upload _ _, .deleteAlbumRow _ | .upload _ _, .updateAlbum _ => True
  | .generateThumbnail _ _ _, .updateMediaThumbnailState _ _ _ _ _ => True
  | .generateThumbnail _ _ _, .put _ _ | .generateThumbnail _ _ _, .storageDelete _ => True
  | .deleteAlbum albumId _ _ _, .deleteAlbumRow id => id = albumId
  | .deleteAlbum _ _ _ _, .storageDelete _ => True
  | .updateAlbum _ _ _ _ _, .updateAlbum _ => True
  | .reorderAlbum _ _ _ _ _, .updateAlbum _ => True
  | .reorderAlbum albumId _ _ _ _, .updateMediaPositions id _ => id = albumId
  | .deleteMedia mediaId _ _ _, .deleteMedia id => id = mediaId
  | .deleteMedia _ _ _ _, .storageDelete _ | .deleteMedia _ _ _ _, .deleteAlbumRow _ => True
  | .deleteMedia _ _ _ _, .updateAlbum _ => True
  | .pruneExpiredAlbums _, .storageDelete _ | .pruneExpiredAlbums _, .deleteAlbumRow _ => True
  | .pruneExpiredAlbums _, .deleteExpiredSharexDeleteCapabilities _ => True
  | .pruneExpiredAlbums _, .deleteRevokedSharexDeleteCapabilitiesOlderThan _ => True
  | .pruneExpiredAlbums _, .deleteConsumedSharexDeleteCapabilitiesOlderThan _ => True
  | .pruneExpiredAlbums _, .deleteAuditEventsOlderThan _ => True
  | .adminUpdateAlbum _ _ _ _, .updateAlbum _ => True
  | .createUser _ _ _ _ _ _ _, .createUser _ => True
  | .updateUser _ _ _ _ _, .updateUser _ => True
  | .updateUser _ _ _ _ _, .revokeSharexDeleteCapabilitiesForUser _ => True
  | .setUserAdminStatus _ _ _ _ _, .updateUser _ | .resetUserPassword _ _ _ _ _, .updateUser _ => True
  | .changePassword _ _ _ _ _, .updateUser _ => True
  | .deleteUserById _ _ _ _, .revokeSharexDeleteCapabilitiesForUser _ => True
  | .deleteUserById _ _ _ _, .storageDelete _ | .deleteUserById _ _ _ _, .deleteUser _ => True
  | _, _ => False

def Op.mayCall (op : Op) (r : Req) : Prop := Req.reads r = true ∨ op.writes r

/-! ## Parts that only make plain calls -/

section

variable {allowed : Req → Prop} (hplain : ∀ r, Req.plain r = true → allowed r)

include hplain

theorem uses_plain {r : Req} (h : Req.plain r = true) : (ask r).Uses allowed := uses_perform (hplain r h)

theorem requireAlbumAccess_uses (album : Album) (deleteToken : Option String) (actorUser : Option User)
    (allowExpired : Bool) : (requireAlbumAccess album deleteToken actorUser allowExpired).Uses allowed := by
  refine uses_bind (uses_plain hplain rfl) fun now => uses_bind (uses_raiseIf _ _) fun _ => ?_
  split
  · trivial
  · exact uses_bind (uses_raiseIf _ _) fun _ => uses_raiseIf _ _

theorem requireUploadAccess_uses (album : Album) (actor : CurrentActor) (deleteToken : Option String) :
    (requireUploadAccess album actor deleteToken).Uses allowed := by
  unfold requireUploadAccess
  split
  · exact uses_raiseIf _ _
  · exact requireAlbumAccess_uses hplain _ _ _ _

theorem readBoundedUpload_uses (file : UploadFile) : (readBoundedUpload file).Uses allowed :=
  uses_bind (uses_plain hplain rfl) fun _ => uses_ofExcept _

theorem enforceRateLimit_uses (key : Option String) (n : Nat) (user : Option User) :
    (enforceRateLimit key n user).Uses allowed := by
  unfold enforceRateLimit
  split
  · exact uses_plain hplain rfl
  · trivial

theorem enforceStorageQuotas_uses (user : Option User) (n : Nat) : (enforceStorageQuotas user n).Uses allowed := by
  refine uses_bind (uses_plain hplain rfl) fun _ => uses_bind (uses_plain hplain rfl) fun _ =>
    uses_bind (uses_raiseIf _ _) fun _ => ?_
  split
  · trivial
  · exact uses_bind (uses_plain hplain rfl) fun _ => uses_raiseIf _ _

theorem newAlbumExpiry_uses (user : Option User) (now : DateTime) : (newAlbumExpiry user now).Uses allowed := by
  unfold newAlbumExpiry
  split
  · trivial
  · exact uses_bind (uses_plain hplain rfl) fun _ => uses_bind (uses_ofExcept _) fun _ => trivial

theorem getAlbumForUpload_uses (hget : ∀ a, allowed (.getAlbum a)) (albumId : String) (actor : CurrentActor)
    (deleteToken : Option String) : (getAlbumForUpload albumId actor deleteToken).Uses allowed := by
  refine uses_bind (uses_perform (hget _)) fun found => ?_
  cases found with
  | none => trivial
  | some album =>
    exact uses_bind (uses_plain hplain rfl) fun _ => uses_bind (uses_raiseIf _ _) fun _ =>
      uses_bind (requireUploadAccess_uses hplain _ _ _) fun _ => trivial

theorem createAlbumForUpload_uses (hcreate : ∀ a, allowed (.createAlbum a)) (title : Option String)
    (correlationId : String) (actor : CurrentActor) (deleteToken : Option String) (draws : Draws) :
    (createAlbumForUpload title correlationId actor deleteToken draws).Uses allowed :=
  uses_bind (uses_plain hplain rfl) fun _ => uses_bind (newAlbumExpiry_uses hplain _ _) fun _ =>
    uses_bind (uses_perform (hcreate _)) fun _ => uses_bind (uses_plain hplain rfl) fun _ => trivial

theorem getOrCreateAlbum_uses (hget : ∀ a, allowed (.getAlbum a)) (hcreate : ∀ a, allowed (.createAlbum a))
    (albumId title : Option String) (correlationId : String) (actor : CurrentActor) (deleteToken : Option String)
    (draws : Draws) : (getOrCreateAlbum albumId title correlationId actor deleteToken draws).Uses allowed := by
  unfold getOrCreateAlbum
  split
  · exact getAlbumForUpload_uses hplain hget _ _ _
  · exact createAlbumForUpload_uses hplain hcreate _ _ _ _ _

theorem thumbFrames_uses (processor : MediaProcessor) : (thumbFrames processor).Uses allowed := by
  unfold thumbFrames
  split
  · exact uses_bind (uses_plain hplain rfl) fun _ => trivial
  · trivial

theorem patchTitle_uses (album : Album) (title : MaybeUnset (Option String)) (deleteToken : Option String)
    (correlationId : String) (actorUser : Option User) :
    (patchTitle album title deleteToken correlationId actorUser).Uses allowed := by
  unfold patchTitle
  split
  · trivial
  · dsimp only
    split
    · trivial
    · exact uses_bind (uses_plain hplain rfl) fun _ => trivial

theorem patchCover_uses (album : Album) (changed : Bool) (cover : MaybeUnset (Option String)) (items : List Media)
    (deleteToken : Option String) (correlationId : String) (actorUser : Option User) :
    (patchCover album changed cover items deleteToken correlationId actorUser).Uses allowed := by
  unfold patchCover
  split
  · trivial
  · refine uses_bind (uses_ofExcept _) fun _ => ?_
    split
    · trivial
    · exact uses_bind (uses_plain hplain rfl) fun _ => trivial

theorem announceEmptiedAlbum_uses (album : Option Album) (deleteToken : Option String) (correlationId : String)
    (actorUser : Option User) : (announceEmptiedAlbum album deleteToken correlationId actorUser).Uses allowed := by
  unfold announceEmptiedAlbum
  split
  · trivial
  · exact uses_plain hplain rfl

theorem announceRegistration_uses (user : User) (method source : String) (correlationId actorId : Option String) :
    (announceRegistration user method source correlationId actorId).Uses allowed := by
  unfold announceRegistration
  split
  · trivial
  · exact uses_plain hplain rfl

theorem announceAdminStatus_uses (user : User) (isAdmin : Bool) (source correlationId : String)
    (actorId : Option String) : (announceAdminStatus user isAdmin source correlationId actorId).Uses allowed := by
  unfold announceAdminStatus
  split
  · trivial
  · exact uses_plain hplain rfl

theorem applySuspension_uses (hrevoke : ∀ u, allowed (.revokeSharexDeleteCapabilitiesForUser u)) (user : User)
    (suspended : Bool) (correlationId : String) (actorId : Option String) :
    (applySuspension user suspended correlationId actorId).Uses allowed := by
  unfold applySuspension
  split
  · trivial
  · refine uses_bind ?_ fun _ => uses_plain hplain rfl
    unfold revokeOnSuspension
    split
    · exact uses_bind (uses_perform (hrevoke _)) fun _ => trivial
    · trivial

theorem announceLimits_uses (user : User) (changes : List (String × Option Int × Option Int)) (correlationId : String)
    (actorId : Option String) : (announceLimits user changes correlationId actorId).Uses allowed := by
  unfold announceLimits
  split
  · trivial
  · exact uses_plain hplain rfl

theorem announcePasswordChange_uses (user : User) (correlationId : Option String) (source : String) :
    (announcePasswordChange user correlationId source).Uses allowed := by
  unfold announcePasswordChange
  split
  · trivial
  · exact uses_plain hplain rfl

end

section

variable {allowed : Req → Prop} (hitems : ∀ r, Req.itemReads r = true → allowed r)

include hitems

theorem uses_itemRead {r : Req} (h : Req.itemReads r = true) : (ask r).Uses allowed := uses_perform (hitems r h)

theorem plain_of_itemReads (r : Req) (h : Req.plain r = true) : allowed r :=
  hitems r (by cases r <;> first | exact h | rfl)

/-! ## Parts that read media rows -/

theorem getMediaOr404_uses (mediaId : String) : (getMediaOr404 mediaId).Uses allowed := by
  refine uses_bind (uses_itemRead hitems rfl) fun found => ?_
  cases found <;> trivial

theorem deleteAlbumRows_uses {albumId : String} (h : allowed (.deleteAlbumRow albumId)) :
    (Repository.deleteAlbum albumId).Uses allowed := by
  refine uses_bind (uses_itemRead hitems rfl) fun rows => uses_bind (uses_perform h) fun row => ?_
  cases row <;> trivial

omit hitems in
theorem deleteStorageKeyBestEffort_uses (hdel : ∀ k, allowed (.storageDelete k)) (key : String) :
    (deleteStorageKeyBestEffort key).Uses allowed :=
  uses_tryExcept (uses_perform (hdel key)) fun _ => trivial

omit hitems in
theorem deleteMediaStorageKeys_uses (hdel : ∀ k, allowed (.storageDelete k)) (items : List Media) :
    (deleteMediaStorageKeys items).Uses allowed := by
  refine uses_forEach fun m _ => uses_bind (deleteStorageKeyBestEffort_uses hdel _) fun _ => ?_
  split
  · split
    · exact deleteStorageKeyBestEffort_uses hdel _
    · trivial
  · trivial

omit hitems in
theorem removeMedia_uses (hplain : ∀ r, Req.plain r = true → allowed r) {mediaId : String}
    (hmedia : allowed (.deleteMedia mediaId)) (hdel : ∀ k, allowed (.storageDelete k)) (deleteToken : Option String)
    (correlationId : String) (actorUser : Option User) :
    (removeMedia mediaId deleteToken correlationId actorUser).Uses allowed := by
  refine uses_bind (uses_perform hmedia) fun deleted => ?_
  cases deleted with
  | none => trivial
  | some m => exact uses_bind (deleteMediaStorageKeys_uses hdel _) fun _ => uses_bind (uses_plain hplain rfl) fun _ => trivial

theorem deleteEmptiedAlbum_uses {albumId : String} (hdelete : allowed (.deleteAlbumRow albumId)) (deletedMedia : Media)
    (deleteToken : Option String) (correlationId : String) (actorUser : Option User) :
    (deleteEmptiedAlbum albumId deletedMedia deleteToken correlationId actorUser).Uses allowed :=
  uses_bind (deleteAlbumRows_uses hitems hdelete) fun _ =>
    uses_bind (announceEmptiedAlbum_uses (plain_of_itemReads hitems) _ _ _ _) fun _ => trivial

omit hitems in
theorem keepAlbum_uses {album : Album} {deletedMedia : Media} {remainingItems : List Media}
    (hupdate : ∀ a : Album, a.id = album.id → allowed (.updateAlbum a)) :
    (keepAlbum album deletedMedia remainingItems).Uses allowed := by
  refine uses_bind (uses_attempt (uses_perform (hupdate _ ?_))) fun result => ?_
  · split <;> rfl
  · split <;> trivial

omit hitems in
theorem updateAlbumOr404_uses {album : Album} (h : allowed (.updateAlbum album)) :
    (updateAlbumOr404 album).Uses allowed := by
  refine uses_bind (uses_attempt (uses_perform h)) fun result => ?_
  split <;> trivial

theorem createMedia_uses {albumId : String} (hput : ∀ k d, allowed (.put k d))
    (hinsert : ∀ m, m.albumId = albumId → allowed (.insertMedia m)) (hdel : ∀ k, allowed (.storageDelete k))
    (rt : Runtime) (file : UploadFile) (payload : Bytes) (correlationId : String) (actor : CurrentActor)
    (draws : Draws) : (createMedia rt albumId file payload correlationId actor draws).Uses allowed := by
  refine uses_bind (uses_ofExcept _) fun prepared => uses_bind (uses_perform (hput _ _)) fun _ =>
    uses_bind (uses_itemRead hitems rfl) fun _ => uses_bind ?_ fun _ => uses_bind (uses_itemRead hitems rfl) fun _ =>
    uses_bind (uses_itemRead hitems rfl) fun _ => trivial
  refine uses_tryExcept ?_ fun e => uses_bind (deleteStorageKeyBestEffort_uses hdel _) fun _ => trivial
  exact uses_bind (uses_itemRead hitems rfl) fun _ => uses_bind (uses_itemRead hitems rfl) fun _ =>
    uses_perform (hinsert _ rfl)

theorem uploadInto_uses {album : Album} (hput : ∀ k d, allowed (.put k d))
    (hinsert : ∀ m, m.albumId = album.id → allowed (.insertMedia m)) (hdel : ∀ k, allowed (.storageDelete k))
    (rt : Runtime) (input : UploadInput) (payload : Bytes) (draws : Draws) : (uploadInto rt input payload draws album).Uses allowed :=
  uses_bind (uses_itemRead hitems rfl) fun _ => uses_bind (uses_raiseIf _ _) fun _ =>
    createMedia_uses hitems hput hinsert hdel _ _ _ _ _ _

theorem cleanUpAlbum_uses {album : Album} (hdelete : allowed (.deleteAlbumRow album.id)) (createdAlbum : Bool) :
    (cleanUpAlbum createdAlbum album).Uses allowed := by
  unfold cleanUpAlbum
  split
  · refine uses_bind (uses_itemRead hitems rfl) fun items => ?_
    split
    · exact uses_bind (deleteAlbumRows_uses hitems hdelete) fun _ => trivial
    · trivial
  · trivial

end

section

variable {allowed : Req → Prop} (hreads : ∀ r, Req.reads r = true → allowed r)

include hreads

theorem uses_ask {r : Req} (h : Req.reads r = true) : (ask r).Uses allowed := uses_perform (hreads r h)

theorem itemReads_of_reads (r : Req) (h : Req.itemReads r = true) : allowed r :=
  hreads r (by cases r <;> first | exact h | rfl)

theorem plain_of_reads (r : Req) (h : Req.plain r = true) : allowed r :=
  plain_of_itemReads (itemReads_of_reads hreads) r h

theorem getAlbumOr404_uses (albumId : String) : (getAlbumOr404 albumId).Uses allowed := by
  refine uses_bind (uses_ask hreads rfl) fun found => ?_
  cases found <;> trivial

theorem getUserOr404_uses (userId : String) : (getUserOr404 userId).Uses allowed := by
  refine uses_bind (uses_ask hreads rfl) fun found => ?_
  cases found <;> trivial

/-! ## upload -/

theorem upload_uses (hcreate : ∀ a, allowed (.createAlbum a)) (hput : ∀ k d, allowed (.put k d))
    (hinsert : ∀ m, allowed (.insertMedia m)) (hdel : ∀ k, allowed (.storageDelete k))
    (hdelete : ∀ a, allowed (.deleteAlbumRow a)) (hupdate : ∀ a, allowed (.updateAlbum a)) (rt : Runtime)
    (input : UploadInput) (draws : Draws) : (upload rt input draws).Uses allowed := by
  refine uses_bind (readBoundedUpload_uses (plain_of_reads hreads) _) fun payload => uses_bind (uses_raiseIf _ _) fun _ =>
    uses_bind (enforceRateLimit_uses (plain_of_reads hreads) _ _ _) fun _ =>
    uses_bind (enforceStorageQuotas_uses (plain_of_reads hreads) _ _) fun _ =>
    uses_bind (getOrCreateAlbum_uses (plain_of_reads hreads) (fun _ => hreads _ rfl) hcreate _ _ _ _ _ _) fun album =>
    uses_bind ?_ fun media => uses_bind (updateAlbumOr404_uses (hupdate _)) fun _ => trivial
  exact uses_tryExcept (uploadInto_uses (itemReads_of_reads hreads) hput (fun m _ => hinsert m) hdel _ _ _ _)
    fun e => uses_bind (cleanUpAlbum_uses (itemReads_of_reads hreads) (hdelete _) _) fun _ => trivial

/-! ## generate_thumbnail -/

omit hreads in
theorem storeThumbnail_uses (hput : ∀ k d, allowed (.put k d)) (media : Media) (thumbnail : ThumbnailResult) :
    (storeThumbnail media thumbnail).Uses allowed := by
  unfold storeThumbnail
  split
  · trivial
  · exact uses_bind (uses_perform (hput _ _)) fun _ => trivial

theorem makeThumbnail_uses (hput : ∀ k d, allowed (.put k d)) (rt : Runtime) (media : Media) :
    (makeThumbnail rt media).Uses allowed := by
  unfold makeThumbnail
  split
  · trivial
  · exact uses_bind (thumbFrames_uses (plain_of_reads hreads) _) fun _ => uses_bind (uses_ask hreads rfl) fun _ =>
      uses_bind (uses_ofExcept _) fun _ => uses_bind (uses_ofExcept _) fun _ => storeThumbnail_uses hput _ _

omit hreads in
theorem thumbnailFailed_uses (hdel : ∀ k, allowed (.storageDelete k))
    (hstate : ∀ i k o st n, allowed (.updateMediaThumbnailState i k o st n)) (rt : Runtime) (media : Media)
    (attempt maxAttempts : Nat) (written : Option String) (exc : PyExc) :
    (thumbnailFailed rt media attempt maxAttempts written exc).Uses allowed := by
  have htake : (takeBack written).Uses allowed := by
    unfold takeBack
    split
    · exact deleteStorageKeyBestEffort_uses hdel _
    · trivial
  unfold thumbnailFailed
  dsimp only
  split
  · exact uses_bind htake fun _ => uses_bind (uses_perform (hstate _ _ _ _ _)) fun _ => trivial
  · exact uses_bind htake fun _ => uses_bind (uses_attempt (uses_perform (hstate _ _ _ _ _))) fun _ => trivial

theorem generateThumbnail_uses (hput : ∀ k d, allowed (.put k d)) (hdel : ∀ k, allowed (.storageDelete k))
    (hstate : ∀ i k o st n, allowed (.updateMediaThumbnailState i k o st n)) (rt : Runtime) (mediaId : String)
    (attempt maxAttempts : Nat) : (generateThumbnail rt mediaId attempt maxAttempts).Uses allowed := by
  refine uses_bind (uses_ask hreads rfl) fun found => ?_
  cases found with
  | none => trivial
  | some media =>
    dsimp only
    split
    · trivial
    · refine uses_bind (uses_perform (hstate _ _ _ _ _)) fun _ =>
        uses_bind (uses_attempt (makeThumbnail_uses hreads hput rt media)) fun made => ?_
      cases made with
      | error e => exact thumbnailFailed_uses hdel hstate _ _ _ _ _ _
      | ok made =>
        refine uses_bind (uses_attempt (uses_perform (hstate _ _ _ _ _))) fun updated => ?_
        cases updated with
        | error e => exact thumbnailFailed_uses hdel hstate _ _ _ _ _ _
        | ok _ => trivial

/-! ## Albums -/

theorem deleteAlbum_uses (albumId : String) (hdelete : allowed (.deleteAlbumRow albumId))
    (hdel : ∀ k, allowed (.storageDelete k)) (deleteToken : Option String) (correlationId : String)
    (actorUser : Option User) : (deleteAlbum albumId deleteToken correlationId actorUser).Uses allowed := by
  refine uses_bind (getAlbumOr404_uses hreads _) fun _ => uses_bind (requireAlbumAccess_uses (plain_of_reads hreads) _ _ _ _) fun _ =>
    uses_bind (uses_ask hreads rfl) fun _ => uses_bind (deleteAlbumRows_uses (itemReads_of_reads hreads) hdelete) fun deleted => ?_
  split
  · trivial
  · exact uses_bind (deleteMediaStorageKeys_uses hdel _) fun _ => uses_bind (uses_ask hreads rfl) fun _ => trivial

theorem updateAlbum_uses (hupdate : ∀ a, allowed (.updateAlbum a)) (albumId : String) (deleteToken : Option String)
    (correlationId : String) (actorUser : Option User) (patch : AlbumPatch) :
    (updateAlbum albumId deleteToken correlationId actorUser patch).Uses allowed := by
  refine uses_bind (getAlbumOr404_uses hreads _) fun _ => uses_bind (requireAlbumAccess_uses (plain_of_reads hreads) _ _ _ _) fun _ =>
    uses_bind (uses_ask hreads rfl) fun _ => uses_bind (patchTitle_uses (plain_of_reads hreads) _ _ _ _ _) fun _ =>
    uses_bind (patchCover_uses (plain_of_reads hreads) _ _ _ _ _ _ _) fun _ => uses_bind ?_ fun _ =>
    uses_bind (uses_ask hreads rfl) fun _ => trivial
  unfold writeIfChanged
  split
  · exact updateAlbumOr404_uses (hupdate _)
  · trivial

omit hreads in
theorem writePositions_uses {albumId : String} (hpositions : ∀ ps, allowed (.updateMediaPositions albumId ps))
    (positions : List (String × Int)) : (writePositions albumId positions).Uses allowed := by
  refine uses_bind (uses_perform (hpositions _)) fun _ => ?_
  split
  · exact uses_perform (hpositions _)
  · trivial

theorem reorderAlbum_uses (hupdate : ∀ a, allowed (.updateAlbum a)) (albumId : String)
    (hpositions : ∀ ps, allowed (.updateMediaPositions albumId ps)) (deleteToken : Option String)
    (order : List (String × Int)) (correlationId : String) (actorUser : Option User) :
    (reorderAlbum albumId deleteToken order correlationId actorUser).Uses allowed := by
  exact uses_bind (getAlbumOr404_uses hreads _) fun _ => uses_bind (requireAlbumAccess_uses (plain_of_reads hreads) _ _ _ _) fun _ =>
    uses_bind (uses_ask hreads rfl) fun _ => uses_bind (uses_raiseIf _ _) fun _ => uses_bind (uses_ofExcept _) fun _ =>
    uses_bind (writePositions_uses hpositions _) fun _ => uses_bind (updateAlbumOr404_uses (hupdate _)) fun _ =>
    uses_bind (uses_ask hreads rfl) fun _ => trivial

theorem deleteMedia_uses (mediaId : String) (hmedia : allowed (.deleteMedia mediaId))
    (hdel : ∀ k, allowed (.storageDelete k)) (hdelete : ∀ a, allowed (.deleteAlbumRow a))
    (hupdate : ∀ a, allowed (.updateAlbum a)) (deleteToken : Option String) (correlationId : String)
    (actorUser : Option User) : (deleteMedia mediaId deleteToken correlationId actorUser).Uses allowed := by
  refine uses_bind (getMediaOr404_uses (itemReads_of_reads hreads) _) fun _ => uses_bind (getAlbumOr404_uses hreads _) fun _ =>
    uses_bind (requireAlbumAccess_uses (plain_of_reads hreads) _ _ _ _) fun _ =>
    uses_bind (removeMedia_uses (plain_of_reads hreads) hmedia hdel _ _ _) fun _ =>
    uses_bind (uses_ask hreads rfl) fun items => ?_
  split
  · exact deleteEmptiedAlbum_uses (itemReads_of_reads hreads) (hdelete _) _ _ _ _
  · exact keepAlbum_uses fun _ _ => hupdate _

omit hreads in
theorem deleteKeys_uses (hdel : ∀ k, allowed (.storageDelete k)) (keys : List String) :
    (deleteKeys keys).Uses allowed := by
  induction keys with
  | nil => trivial
  | cons key keys ih =>
    refine uses_bind (uses_attempt (uses_perform (hdel key))) fun deleted => ?_
    cases deleted with
    | ok _ => exact ih
    | error e => trivial

theorem pruneAlbum_uses (hdel : ∀ k, allowed (.storageDelete k)) (hdelete : ∀ a, allowed (.deleteAlbumRow a))
    (dryRun : Bool) (tally : PruneTally) (album : Album) : (pruneAlbum dryRun tally album).Uses allowed := by
  refine uses_bind (uses_ask hreads rfl) fun items => ?_
  dsimp only
  split
  · trivial
  · refine uses_bind (deleteKeys_uses hdel _) fun storageOk => ?_
    split
    · refine uses_bind (uses_bind (deleteAlbumRows_uses (itemReads_of_reads hreads) (hdelete _)) fun deleted => ?_) fun _ => trivial
      split
      · trivial
      · exact uses_ask hreads rfl
    · trivial

omit hreads in
theorem pruneAuditLog_uses (hnow : allowed .utcnow) (hcount : ∀ t, allowed (.countAuditEventsOlderThan t))
    (haudit : ∀ t, allowed (.deleteAuditEventsOlderThan t)) (rt : Runtime) (dryRun : Bool) :
    (pruneAuditLog rt dryRun).Uses allowed := by
  unfold pruneAuditLog
  split
  · refine uses_bind (uses_perform hnow) fun _ => uses_bind (uses_ofExcept _) fun _ => ?_
    split
    · exact uses_perform (hcount _)
    · exact uses_perform (haudit _)
  · trivial

omit hreads in
theorem pruneCapabilities_uses (hexpired : ∀ t, allowed (.deleteExpiredSharexDeleteCapabilities t))
    (hrevoked : ∀ t, allowed (.deleteRevokedSharexDeleteCapabilitiesOlderThan t))
    (hconsumed : ∀ t, allowed (.deleteConsumedSharexDeleteCapabilitiesOlderThan t)) (dryRun : Bool) (now : DateTime) :
    (pruneCapabilities dryRun now).Uses allowed := by
  unfold pruneCapabilities
  split
  · trivial
  · exact uses_bind (uses_perform (hexpired _)) fun _ => uses_bind (uses_ofExcept _) fun _ =>
      uses_bind (uses_perform (hrevoked _)) fun _ => uses_bind (uses_ofExcept _) fun _ =>
      uses_bind (uses_perform (hconsumed _)) fun _ => trivial

theorem pruneExpiredAlbums_uses (hdel : ∀ k, allowed (.storageDelete k)) (hdelete : ∀ a, allowed (.deleteAlbumRow a))
    (haudit : ∀ t, allowed (.deleteAuditEventsOlderThan t))
    (hexpired : ∀ t, allowed (.deleteExpiredSharexDeleteCapabilities t))
    (hrevoked : ∀ t, allowed (.deleteRevokedSharexDeleteCapabilitiesOlderThan t))
    (hconsumed : ∀ t, allowed (.deleteConsumedSharexDeleteCapabilitiesOlderThan t)) (rt : Runtime) (dryRun : Bool) :
    (pruneExpiredAlbums rt dryRun).Uses allowed := by
  refine uses_bind (uses_ask hreads rfl) fun now => uses_bind (uses_ask hreads rfl) fun expired =>
    uses_bind (uses_foldEach (fun tally album _ => pruneAlbum_uses hreads hdel hdelete dryRun tally album) _) fun _ =>
    uses_bind (pruneAuditLog_uses (hreads _ rfl) (fun _ => hreads _ rfl) haudit rt dryRun) fun _ =>
    uses_bind (pruneCapabilities_uses hexpired hrevoked hconsumed dryRun now) fun _ => trivial

theorem adminUpdateAlbum_uses (hupdate : ∀ a, allowed (.updateAlbum a)) (albumId : String)
    (expiresAt : MaybeUnset (Option AwareDateTime)) (correlationId : String) (actorId : Option String) :
    (adminUpdateAlbum albumId expiresAt correlationId actorId).Uses allowed := by
  refine uses_bind (getAlbumOr404_uses hreads _) fun album => ?_
  cases expiresAt with
  | unset => trivial
  | set expiresAt =>
    dsimp only
    split
    · trivial
    · exact uses_bind (uses_perform (hupdate _)) fun _ => uses_bind (uses_ask hreads rfl) fun _ => trivial

/-! ## Accounts -/

attribute [local irreducible] strip in
theorem createUser_uses (hcreate : ∀ u, allowed (.createUser u)) (rt : Runtime) (payload : UserCreateInput)
    (method : String) (correlationId actorId : Option String) (source userId salt : String) :
    (createUser rt payload method correlationId actorId source userId salt).Uses allowed := by
  exact uses_bind (uses_ofExcept _) fun _ => uses_bind (uses_ask hreads rfl) fun _ =>
    uses_bind (uses_raiseIf _ _) fun _ => uses_bind (uses_ask hreads rfl) fun _ => uses_bind (uses_raiseIf _ _) fun _ =>
    uses_bind (uses_ask hreads rfl) fun _ => uses_bind (uses_ofExcept _) fun _ =>
    uses_bind (uses_perform (hcreate _)) fun _ =>
    uses_bind (announceRegistration_uses (plain_of_reads hreads) _ _ _ _ _) fun _ => trivial

theorem updateUser_uses (hupdate : ∀ u, allowed (.updateUser u))
    (hrevoke : ∀ u, allowed (.revokeSharexDeleteCapabilitiesForUser u)) (rt : Runtime) (userId : String)
    (payload : UserUpdateInput) (correlationId : String) (actorId : Option String) (salt : String) :
    (updateUser rt userId payload correlationId actorId salt).Uses allowed := by
  exact uses_bind (getUserOr404_uses hreads _) fun user =>
    uses_bind (announceAdminStatus_uses (plain_of_reads hreads) _ _ _ _ _) fun _ =>
    uses_bind (applySuspension_uses (plain_of_reads hreads) hrevoke _ _ _ _) fun _ => uses_bind (uses_ofExcept _) fun _ =>
    uses_bind (announceLimits_uses (plain_of_reads hreads) _ _ _ _) fun _ =>
    uses_bind (uses_perform (hupdate _)) fun _ => trivial

theorem setUserAdminStatus_uses (hupdate : ∀ u, allowed (.updateUser u)) (userId : String) (isAdmin : Bool)
    (correlationId : String) (actorId : Option String) (source : String) :
    (setUserAdminStatus userId isAdmin correlationId actorId source).Uses allowed := by
  refine uses_bind (getUserOr404_uses hreads _) fun user => ?_
  split
  · trivial
  · exact uses_bind (uses_perform (hupdate _)) fun _ => uses_bind (uses_ask hreads rfl) fun _ => trivial

attribute [local irreducible] strip in
theorem resetUserPassword_uses (hupdate : ∀ u, u.passwordHash.isSome = true → allowed (.updateUser u)) (rt : Runtime)
    (userId newPassword correlationId : String) (actorId : Option String) (salt : String) :
    (resetUserPassword rt userId newPassword correlationId actorId salt).Uses allowed :=
  uses_bind (getUserOr404_uses hreads _) fun _ => uses_bind (uses_ofExcept _) fun _ =>
    uses_bind (uses_perform (hupdate _ rfl)) fun _ => uses_bind (uses_ask hreads rfl) fun _ => trivial

attribute [local irreducible] strip in
theorem changeCurrentUserPassword_uses (hupdate : ∀ u, u.passwordHash.isSome = true → allowed (.updateUser u))
    (rt : Runtime) (userId : String) (payload : PasswordChangeInput) (correlationId : Option String) (source salt : String) :
    (changeCurrentUserPassword rt userId payload correlationId source salt).Uses allowed := by
  refine uses_bind (uses_bind (uses_ask hreads rfl) fun found => ?_) fun user => uses_bind (uses_raiseIf _ _) fun _ =>
    uses_bind (uses_ofExcept _) fun _ => uses_bind (uses_perform (hupdate _ rfl)) fun _ =>
    uses_bind (announcePasswordChange_uses (plain_of_reads hreads) _ _ _) fun _ => trivial
  cases found with
  | none => trivial
  | some user => dsimp only; split <;> trivial

theorem deleteUserById_uses (hrevoke : ∀ u, allowed (.revokeSharexDeleteCapabilitiesForUser u))
    (hdel : ∀ k, allowed (.storageDelete k)) (hdelete : ∀ u, allowed (.deleteUser u))
    (userId correlationId deletedBy : String) (actorId : Option String) :
    (deleteUserById userId correlationId deletedBy actorId).Uses allowed := by
  refine uses_bind (getUserOr404_uses hreads _) fun _ => uses_bind (uses_perform (hrevoke _)) fun _ =>
    uses_bind (uses_ask hreads rfl) fun _ => uses_bind (uses_ask hreads rfl) fun _ =>
    uses_bind (uses_forEach fun key _ => uses_perform (hdel key)) fun _ =>
    uses_bind (uses_perform (hdelete _)) fun deleted => ?_
  split
  · trivial
  · exact uses_bind (uses_ask hreads rfl) fun _ => trivial

end

attribute [local irreducible] strip in
/-- Every call an operation makes is in its footprint. -/
theorem program_footprint (rt : Runtime) (op : Op) : (op.program rt).Uses op.mayCall := by
  have reads : ∀ r, Req.reads r = true → op.mayCall r := fun r h => .inl h
  cases op with
  | upload input draws =>
    exact uses_bind (upload_uses reads (fun _ => .inr trivial) (fun _ _ => .inr trivial) (fun _ => .inr trivial)
      (fun _ => .inr trivial) (fun _ => .inr trivial) (fun _ => .inr trivial) rt input draws) fun _ => trivial
  | generateThumbnail mediaId attempt maxAttempts =>
    exact uses_bind (generateThumbnail_uses reads (fun _ _ => .inr trivial) (fun _ => .inr trivial)
      (fun _ _ _ _ _ => .inr trivial) rt mediaId attempt maxAttempts) fun _ => trivial
  | deleteAlbum albumId deleteToken correlationId actorUser =>
    exact uses_bind (deleteAlbum_uses reads albumId (.inr rfl) (fun _ => .inr trivial) deleteToken correlationId
      actorUser) fun _ => trivial
  | updateAlbum albumId deleteToken correlationId actorUser patch =>
    exact uses_bind (updateAlbum_uses reads (fun _ => .inr trivial) albumId deleteToken correlationId actorUser patch)
      fun _ => trivial
  | reorderAlbum albumId deleteToken order correlationId actorUser =>
    exact uses_bind (reorderAlbum_uses reads (fun _ => .inr trivial) albumId (fun _ => .inr rfl) deleteToken order
      correlationId actorUser) fun _ => trivial
  | deleteMedia mediaId deleteToken correlationId actorUser =>
    exact uses_bind (deleteMedia_uses reads mediaId (.inr rfl) (fun _ => .inr trivial) (fun _ => .inr trivial)
      (fun _ => .inr trivial) deleteToken correlationId actorUser) fun _ => trivial
  | pruneExpiredAlbums dryRun =>
    exact uses_bind (pruneExpiredAlbums_uses reads (fun _ => .inr trivial) (fun _ => .inr trivial)
      (fun _ => .inr trivial) (fun _ => .inr trivial) (fun _ => .inr trivial) (fun _ => .inr trivial) rt dryRun)
      fun _ => trivial
  | adminUpdateAlbum albumId expiresAt correlationId actorId =>
    exact uses_bind (adminUpdateAlbum_uses reads (fun _ => .inr trivial) albumId expiresAt correlationId actorId)
      fun _ => trivial
  | createUser payload method correlationId actorId source userId salt =>
    exact uses_bind (createUser_uses reads (fun _ => .inr trivial) rt payload method correlationId actorId source userId
      salt) fun _ => trivial
  | updateUser userId payload correlationId actorId salt =>
    exact uses_bind (updateUser_uses reads (fun _ => .inr trivial) (fun _ => .inr trivial) rt userId payload
      correlationId actorId salt) fun _ => trivial
  | setUserAdminStatus userId isAdmin correlationId actorId source =>
    exact uses_bind (setUserAdminStatus_uses reads (fun _ => .inr trivial) userId isAdmin correlationId actorId source)
      fun _ => trivial
  | resetUserPassword userId newPassword correlationId actorId salt =>
    exact uses_bind (resetUserPassword_uses reads (fun _ _ => .inr trivial) rt userId newPassword correlationId actorId
      salt) fun _ => trivial
  | changePassword userId payload correlationId source salt =>
    exact uses_bind (changeCurrentUserPassword_uses reads (fun _ _ => .inr trivial) rt userId payload correlationId source
      salt) fun _ => trivial
  | deleteUserById userId correlationId deletedBy actorId =>
    exact uses_bind (deleteUserById_uses reads (fun _ => .inr trivial) (fun _ => .inr trivial) (fun _ => .inr trivial)
      userId correlationId deletedBy actorId) fun _ => trivial

end Imghost.Service
