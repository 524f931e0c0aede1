/-
  Imghost.Service.Operations — the operations of the service as one type, so that a
  list of them is a set of concurrent requests or a history of sequential ones.
-/

import Imghost.Model.Frames
import Imghost.Service.Accounts
import Imghost.Service.Albums
import Imghost.Service.Thumbnails

namespace Imghost.Service

open Imghost.Async Imghost.Data Imghost.Model Program

inductive Op where
  | upload (input : UploadInput) (draws : Draws)
  | generateThumbnail (mediaId : String) (attempt maxAttempts : Nat)
  | deleteAlbum (albumId : String) (deleteToken : Option String) (correlationId : String) (actorUser : Option User)
  | updateAlbum (albumId : String) (deleteToken : Option String) (correlationId : String) (actorUser : Option User)
      (patch : AlbumPatch)
  | reorderAlbum (albumId : String) (deleteToken : Option String) (order : List (String × Int))
      (correlationId : String) (actorUser : Option User)
  | deleteMedia (mediaId : String) (deleteToken : Option String) (correlationId : String) (actorUser : Option User)
  | pruneExpiredAlbums (dryRun : Bool)
  | adminUpdateAlbum (albumId : String) (expiresAt : MaybeUnset (Option AwareDateTime)) (correlationId : String)
      (actorId : Option String)
  | createUser (payload : UserCreateInput) (method : String) (correlationId actorId : Option String)
      (source userId salt : String)
  | updateUser (userId : String) (payload : UserUpdateInput) (correlationId : String) (actorId : Option String)
      (salt : String)
  | setUserAdminStatus (userId : String) (isAdmin : Bool) (correlationId : String) (actorId : Option String)
      (source : String)
  | resetUserPassword (userId newPassword correlationId : String) (actorId : Option String) (salt : String)
  | changePassword (userId : String) (payload : PasswordChangeInput) (correlationId : Option String)
      (source salt : String)
  | deleteUserById (userId correlationId deletedBy : String) (actorId : Option String)

/-- What an operation returns. -/
inductive OpResult where
  | uploaded (result : UploadResult)
  | taskRun (result : TaskRunResult)
  | albumWithMedia (album : Album) (media : List Media)
  | mediaDeleted (result : MediaDeleteResult)
  | pruned (result : PruneResult)
  | album (album : Album)
  | user (user : User)
  | userDeleted (counts : UserDeleteCounts)
  deriving DecidableEq, Repr

def Op.program (rt : Runtime) : Op → Prog OpResult
  | .upload input draws => do return .uploaded (← Service.upload rt input draws)
  | .generateThumbnail mediaId attempt maxAttempts => do
    return .taskRun (← Service.generateThumbnail rt mediaId attempt maxAttempts)
  | .deleteAlbum albumId deleteToken correlationId actorUser => do
    let result ← Service.deleteAlbum albumId deleteToken correlationId actorUser
    return .albumWithMedia result.1 result.2
  | .updateAlbum albumId deleteToken correlationId actorUser patch => do
    let result ← Service.updateAlbum albumId deleteToken correlationId actorUser patch
    return .albumWithMedia result.1 result.2
  | .reorderAlbum albumId deleteToken order correlationId actorUser => do
    let result ← Service.reorderAlbum albumId deleteToken order correlationId actorUser
    return .albumWithMedia result.1 result.2
  | .deleteMedia mediaId deleteToken correlationId actorUser => do
    return .mediaDeleted (← Service.deleteMedia mediaId deleteToken correlationId actorUser)
  | .pruneExpiredAlbums dryRun => do return .pruned (← Service.pruneExpiredAlbums rt dryRun)
  | .adminUpdateAlbum albumId expiresAt correlationId actorId => do
    return .album (← Service.adminUpdateAlbum albumId expiresAt correlationId actorId)
  | .createUser payload method correlationId actorId source userId salt => do
    return .user (← Service.createUser rt payload method correlationId actorId source userId salt)
  | .updateUser userId payload correlationId actorId salt => do
    return .user (← Service.updateUser rt userId payload correlationId actorId salt)
  | .setUserAdminStatus userId isAdmin correlationId actorId source => do
    return .user (← Service.setUserAdminStatus userId isAdmin correlationId actorId source)
  | .resetUserPassword userId newPassword correlationId actorId salt => do
    return .user (← Service.resetUserPassword rt userId newPassword correlationId actorId salt)
  | .changePassword userId payload correlationId source salt => do
    return .user (← Service.changeCurrentUserPassword rt userId payload correlationId source salt)
  | .deleteUserById userId correlationId deletedBy actorId => do
    return .userDeleted (← Service.deleteUserById userId correlationId deletedBy actorId)

/-- A database, its storage and the operations running over them. -/
abbrev Site := Pool Reply PyExc World OpResult

/-- The operations `ops`, all about to start, in the world `w`. -/
def Site.start (rt : Runtime) (w : World) (ops : List Op) : Site := Pool.start w (ops.map (Op.program rt))

/-- The rate limiter's verdict: no database or storage call. -/
def isRateLimit : Req → Bool
  | .enforceUploadLimits _ _ _ => true
  | _ => false

/-- Every database and storage call goes through; the rate limiter may turn uploads away. -/
def NoFaults (_ : Site) (_ : Nat) (r : Req) (fault : Option PyExc) : Prop := fault = none ∨ isRateLimit r = true

instance (p : Site) (i : Nat) (r : Req) (fault : Option PyExc) : Decidable (NoFaults p i r fault) :=
  inferInstanceAs (Decidable (fault = none ∨ isRateLimit r = true))

theorem Site.tasks_length_start {rt : Runtime} {w : World} {ops : List Op} :
    (Site.start rt w ops).tasks.length = ops.length := by
  rw [Site.start, Pool.start, List.length_map, List.length_map]

/-- Where every operation follows its protocol, so do the tasks about to run them. -/
theorem Site.start_follows {Γ : Type} {P : Nat → Protocol Reply PyExc Γ} {Honest : Call → Prop}
    {Q : Nat → Except PyExc OpResult → Γ → Prop} {g : Nat → Γ} {rt : Runtime} {w : World} {ops : List Op}
    (h : ∀ i op, ops[i]? = some op → wp ((P i).machine Honest) (Q i) (op.program rt) (g i)) :
    (Site.start rt w ops).Follows P Honest Q g := by
  refine Pool.follows_start fun i q hq => ?_
  rw [List.getElem?_map] at hq
  rcases hop : ops[i]? with _ | op
  · rw [hop] at hq; cases hq
  · rw [hop] at hq
    obtain rfl := Option.some.inj hq
    exact h i op hop

/-! ## Replies -/

/-- An answer the backend can give. -/
def Honest (e : Call) : Prop :=
  ∃ i w fault, (backend.answer i e.req fault w).1 = e.reply ∧ e.injected = fault.isSome

/-- An answer the backend can give where database and storage calls go through. -/
def Undisturbed (e : Call) : Prop := Honest e ∧ (e.injected = false ∨ isRateLimit e.req = true)

theorem honest_answer (i : Nat) (r : Req) (fault : Option PyExc) (w : World) :
    Honest ⟨r, (backend.answer i r fault w).1, fault.isSome⟩ := ⟨i, w, fault, rfl, rfl⟩

theorem undisturbed_answer {p : Site} {i : Nat} {r : Req} {fault : Option PyExc} (h : NoFaults p i r fault) :
    Undisturbed ⟨r, (backend.answer i r fault p.world).1, fault.isSome⟩ := by
  refine ⟨honest_answer i r fault p.world, ?_⟩
  rcases h with rfl | h
  · exact .inl rfl
  · exact .inr h

/-- An answer to a call other than the rate limiter's is what the call came to. -/
theorem Undisturbed.exec {e : Call} (h : Undisturbed e) (hr : isRateLimit e.req = false) :
    ∃ i w, (exec i e.req w).1 = e.reply := by
  obtain ⟨⟨i, w, fault, hx, hf⟩, hi | hi⟩ := h
  · rw [hi] at hf
    cases fault with
    | none => exact ⟨i, w, hx⟩
    | some e => cases hf
  · rw [hr] at hi
    cases hi

theorem Honest.exec_ok {r : Req} {a : Reply r} {b : Bool} (h : Honest ⟨r, .ok a, b⟩) :
    ∃ i w, (exec i r w).1 = .ok a := by
  obtain ⟨i, w, fault, h, -⟩ := h
  exact ⟨i, w, exec_of_ok h⟩

theorem Honest.getMedia_id {mediaId : String} {m : Media} {b : Bool} (h : Honest ⟨.getMedia mediaId, .ok (some m), b⟩) :
    m.id = mediaId := by
  obtain ⟨i, w, h⟩ := h.exec_ok
  exact Table.find?_key (Except.ok.inj h)

theorem Honest.insertMedia_eq {m m' : Media} {b : Bool} (h : Honest ⟨.insertMedia m, .ok m', b⟩) : m' = m := by
  obtain ⟨i, w, h⟩ := h.exec_ok
  simp only [exec, World.insertMedia] at h
  repeat' split at h
  · cases h
  · exact (Except.ok.inj h).symm
  · cases h

theorem Honest.getAlbum_id {albumId : String} {a : Album} {b : Bool} (h : Honest ⟨.getAlbum albumId, .ok (some a), b⟩) :
    a.id = albumId := by
  obtain ⟨i, w, h⟩ := h.exec_ok
  exact Table.find?_key (Except.ok.inj h)

theorem Honest.deleteMedia_id {mediaId : String} {m : Media} {b : Bool}
    (h : Honest ⟨.deleteMedia mediaId, .ok (some m), b⟩) : m.id = mediaId := by
  obtain ⟨i, w, h⟩ := h.exec_ok
  exact Table.find?_key (Except.ok.inj h)

theorem Honest.updateMediaThumbnailState_thumbKey {mediaId : String} {thumbKey : Option String} {thumbIsOrig : Bool}
    {thumbStatus : ThumbStatus} {thumbSize : Option Nat} {m : Media} {b : Bool}
    (h : Honest ⟨.updateMediaThumbnailState mediaId thumbKey thumbIsOrig thumbStatus thumbSize, .ok m, b⟩) :
    m.thumbKey = thumbKey := by
  obtain ⟨i, w, h⟩ := h.exec_ok
  simp only [exec, World.updateMediaThumbnailState] at h
  split at h
  · cases h
  · rw [← Except.ok.inj h]; rfl

/-- The calls that always come to a value. -/
def total : Req → Bool
  | .enforceUploadLimits _ _ _ | .getBytes _ | .createAlbum _ | .updateAlbum _ | .nextPosition _ | .insertMedia _ => false
  | .updateMediaThumbnailState _ _ _ _ _ | .updateMediaPositions _ _ | .createUser _ | .updateUser _ => false
  | _ => true

theorem Undisturbed.not_error {r : Req} {e : PyExc} {b : Bool} (h : Undisturbed ⟨r, .error e, b⟩)
    (hr : total r = true) : False := by
  have hl : isRateLimit r = false := by cases r <;> first | rfl | cases hr
  obtain ⟨i, w, hx⟩ := h.exec hl
  cases r <;> first | cases hx | cases hr

/-! ## A small site -/

namespace Sample

/-- Takes every file for a PNG and stores it as it is. -/
def processor : MediaProcessor where
  hasThumbFrames := false
  validate _ := .ok { ok := true, rejectionReason := none }
  extractMetadata _ formatHint :=
    .ok { width := some 1, height := some 1, durationSecs := none, codecHint := none, isAnimated := false,
          mimeType := "image/png", format := formatHint, rotationDegrees := 0 }
  sanitize payload _ := .ok { data := payload, mimeType := "image/png", format := "png" }
  generateThumbnail _ payload _ :=
    .ok { data := some payload, thumbIsOrig := false, format := "jpg", size := payload.length }

def runtime : Runtime where
  lower := id
  guessType _ := none
  guessExtension _ := none
  processors _ := some processor
  hashpw _ salt := salt
  checkpw _ _ := some true
  telemetry := false
  auditRetentionDays := 90

/-- No rows, no objects, no quotas. -/
def world : World where
  users := .empty
  albums := .empty
  media := .empty
  sharexDeleteCapabilities := .empty
  auditLog := []
  config key :=
    match key with
    | .maxUploadBytes => 100
    | .anonExpiryHours => 24
    | .videoThumbFrames => 10
    | .defaultUserQuotaBytes | .serverQuotaBytes => 0
  objects _ := none
  albumLocks _ := none
  clock := 0
  events := []

def user : User :=
  { id := "u", username := "u", email := "u", passwordHash := some "h", isAdmin := false, suspended := false,
    quotaBytes := none, rateLimitRpm := none, rateLimitBph := none, createdAt := 0, updatedAt := 0 }

/-- An anonymous album with the token `t`. -/
def album : Album :=
  { id := "a", title := none, userId := none, coverMediaId := none, deleteToken := some "t", createdAt := 0,
    updatedAt := 0, expiresAt := none }

/-- An item of that album. -/
def media (id : String) : Media :=
  { id := id, albumId := "a", userId := none, filenameOrig := "x.png", mediaType := .image, format := "png",
    mimeType := "image/png", storageKey := "originals/anon/" ++ id ++ ".png", thumbKey := none, thumbIsOrig := false,
    thumbStatus := .pending, fileSize := 1, thumbSize := none, width := none, height := none, durationSecs := none,
    isAnimated := false, codecHint := none, position := 1000, createdAt := 0 }

/-- Two items, one after the other. -/
def twoItems : Table Media.id := ⟨[media "m", { media "n" with position := 2000 }], by decide⟩

def draws (n : Fin 31) : Draws := { albumId := fun _ => n, mediaId := fun _ => n, deleteToken := fun _ => 0 }

def firstDraws : Draws := draws 0

def secondDraws : Draws := draws 1

/-- One byte for the album `albumId`, by whoever presents the token `t`. -/
def uploadTo (albumId : Option String) : UploadInput :=
  { file := { filename := some "x.png", contentType := none, chunks := [[1]] }, albumId := albumId, title := none,
    correlationId := "c", actor := { user := none, source := "web" }, deleteToken := some "t", rateLimitKey := none }

/-- Task `i` makes its next `n` calls. -/
def calls (i n : Nat) : List (Choice PyExc) := List.replicate n (.call i none)

end Sample

end Imghost.Service
