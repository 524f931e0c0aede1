/-
  Imghost.Service.Recovery — `AppState.recover_thumbnails` and the jobs that run beside it.

  The recovery lists the items whose thumbnail is not done and queues a run of
  `generate_thumbnail` for each. A failed one it makes `pending` again first, with
  `update_media`, which writes every column of the row it has listed; the service itself
  never calls it. `TaskReq` are the calls only the recovery makes: an application awaits
  those and the service's. The queue is not modelled: the runs it starts are jobs of
  their own.
-/

import Imghost.Service.Footprint

namespace Imghost.Model

open Imghost.Async Imghost.Data

/-! ## The calls of the recovery -/

inductive TaskReq where
  | listMediaByThumbStatus (statuses : List ThumbStatus)
  | updateMedia (media : Media)
  | enqueue (mediaId correlationId : String)
  deriving DecidableEq

@[reducible] def TaskReply : TaskReq → Type
  | .listMediaByThumbStatus _ => List Media
  | .updateMedia _ => Media
  | .enqueue _ _ => Unit

namespace World

variable (w : World)

/-- `UPDATE media SET … WHERE id = $1`: every column but the key. -/
def setMedia (m : Media) (row : Media) : Media := { m with id := row.id }

theorem setMedia_id (m row : Media) : (setMedia m row).id = row.id := rfl

/-- The foreign keys of a row that is overwritten: what does not change is not looked up. -/
def referencesHold (m row : Media) : Bool :=
  (row.albumId == m.albumId || (w.albums.find? m.albumId).isSome) && (row.userId == m.userId || w.hasUser m.userId)

def updateMedia (m : Media) : Except PyExc Media × World :=
  if !inBigint m.position then (.error outOfRange, w)
  else
    match w.media.find? m.id with
    | none => (.error (.lookupError "media_not_found"), w)
    | some row =>
      if w.referencesHold m row then
        (.ok (setMedia m row), { w with media := w.media.update m.id (setMedia m) (setMedia_id m) })
      else (.error foreignKeyViolation, w)

end World

def execTask : (r : TaskReq) → World → Except PyExc (TaskReply r) × World
  | .listMediaByThumbStatus statuses, w => (.ok (w.listAllMedia.filter (statuses.contains ·.thumbStatus)), w)
  | .updateMedia m, w => w.updateMedia m
  | .enqueue _ _, w => (.ok (), w)

def tasks : Backend TaskReply PyExc World where
  exec _ := execTask
  fail _ _ e w := (.error e, w)
  blocked _ _ _ := false
  elapse := backend.elapse

abbrev AppReq := Req ⊕ TaskReq
abbrev AppReply : AppReq → Type := Sum.elim Reply TaskReply
abbrev AppProg (α : Type) := Program AppReply PyExc α
abbrev AppCall := Event AppReply PyExc

/-- The world with both kinds of calls. -/
def app : Backend AppReply PyExc World := backend.extend tasks

abbrev askTask (r : TaskReq) : AppProg (TaskReply r) := @Program.perform AppReq AppReply PyExc (.inr r)

namespace Repository

abbrev listMediaByThumbStatus (statuses : List ThumbStatus) : AppProg (List Media) :=
  askTask (.listMediaByThumbStatus statuses)
abbrev findPendingThumbnails : AppProg (List Media) := listMediaByThumbStatus [.pending, .processing]
abbrev findFailedThumbnails : AppProg (List Media) := listMediaByThumbStatus [.failed]
abbrev updateMedia (media : Media) : AppProg Media := askTask (.updateMedia media)

end Repository

abbrev Tasks.enqueue (mediaId correlationId : String) : AppProg Unit := askTask (.enqueue mediaId correlationId)

end Imghost.Model

namespace Imghost.Service

open Imghost.Async Imghost.Data Imghost.Model Program

/-! ## recover_thumbnails -/

/-- `if include_failed and media.thumb_status == "failed": …`, and the run for the item. -/
def recoverThumbnail (includeFailed : Bool) (media : Media) : AppProg Unit := do
  if includeFailed && media.thumbStatus = .failed then
    let _ ← Repository.updateMedia { media with thumbStatus := .pending }
  Tasks.enqueue media.id ("recovery-" ++ media.id)

/-- The loop, with the ids it has `seen` and the number it has `enqueued`. -/
def recoverEach (includeFailed : Bool) : List Media → List String → Nat → AppProg Nat
  | [], _, enqueued => pure enqueued
  | media :: recoverable, seen, enqueued =>
    if seen.contains media.id then recoverEach includeFailed recoverable seen enqueued
    else do
      recoverThumbnail includeFailed media
      recoverEach includeFailed recoverable (media.id :: seen) (enqueued + 1)

/-- `if include_failed: recoverable.extend(…)`. -/
def alsoFailed (includeFailed : Bool) (recoverable : List Media) : AppProg (List Media) :=
  if includeFailed then do
    let failed ← Repository.findFailedThumbnails
    return recoverable ++ failed
  else pure recoverable

def recoverThumbnails (includeFailed : Bool) : AppProg Nat := do
  let pending ← Repository.findPendingThumbnails
  let recoverable ← alsoFailed includeFailed pending
  recoverEach includeFailed recoverable [] 0

/-! ## Jobs -/

/-- What runs at the same time; each thumbnail run has processors of its own. -/
inductive Job where
  | recoverThumbnails (includeFailed : Bool)
  | generateThumbnail (rt : Runtime) (mediaId : String) (attempt maxAttempts : Nat)
  | reorderAlbum (albumId : String) (deleteToken : Option String) (order : List (String × Int))
      (correlationId : String) (actorUser : Option User)

inductive JobResult where
  | enqueued (count : Nat)
  | taskRun (result : TaskRunResult)
  | albumWithMedia (album : Album) (media : List Media)

def Job.program : Job → AppProg JobResult
  | .recoverThumbnails includeFailed => do return .enqueued (← Service.recoverThumbnails includeFailed)
  | .generateThumbnail rt mediaId attempt maxAttempts => do
    return .taskRun (← (Service.generateThumbnail rt mediaId attempt maxAttempts).widen)
  | .reorderAlbum albumId deleteToken order correlationId actorUser => do
    let result ← (Service.reorderAlbum albumId deleteToken order correlationId actorUser).widen
    return .albumWithMedia result.1 result.2

end Imghost.Service
