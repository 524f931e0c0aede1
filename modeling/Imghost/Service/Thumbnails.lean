/-
  Imghost.Service.Thumbnails — `UploadService.generate_thumbnail`.

  The row is marked `processing`, the thumbnail made and stored, the row marked
  `done`. Whatever fails in between ends in the handler, which knows the key it has to
  take back: none before the thumbnail was stored, its key after.
-/

import Imghost.Service.Access

namespace Imghost.Service

open Imghost.Async Imghost.Model Program

inductive TaskState where
  | skipped
  | retryScheduled
  | succeeded
  | failedPermanent
  | failedExhausted
  deriving DecidableEq, Repr

structure TaskRunResult where
  state : TaskState
  reason : Option String
  retryable : Bool
  deriving DecidableEq, Repr

/-- `_thumbnail_failure_reason`: the first substring of the message that matches. -/
def thumbnailFailureReason (rt : Runtime) (exc : PyExc) : String :=
  let message := rt.lower exc.str
  let mentions (sub : String) : Bool := isSubstring sub message
  if exc = .valueError "processor_missing" then "processor_missing"
  else if mentions "extract" && mentions "metadata" then "metadata_extract_failed"
  else if mentions "thumbnail" && !mentions "cleanup" then "thumbnail_generate_failed"
  else if mentions "store" || mentions "write thumb" || mentions "thumbnail_store" then "thumbnail_store_failed"
  else if mentions "read source" || mentions "storage read" || mentions "get_bytes" then "storage_read_failed"
  else if mentions "update media" || mentions "repository update" then "repository_update_failed"
  else "thumbnail_generate_failed"

def thumbnailFailureIsRetryable (reason : String) : Bool :=
  ["storage_read_failed", "thumbnail_store_failed", "repository_update_failed",
    "thumbnail_generate_failed"].contains reason

def thumbKeyFor (mediaId fmt : String) : String := "thumbnails/" ++ mediaId ++ "." ++ if fmt = "jpeg" then "jpg" else fmt

theorem thumbKeyFor_ne_empty (mediaId fmt : String) : thumbKeyFor mediaId fmt ≠ "" := by
  simp [thumbKeyFor]

/-- The thumbnail columns of the draft row once the thumbnail is made, and the key
    written to storage for it. -/
structure MadeThumbnail where
  thumbKey : Option String
  thumbIsOrig : Bool
  thumbSize : Option Nat
  deriving DecidableEq, Repr

/-- `processor.thumb_frames = max(1, …)`, for the processors that have it. -/
def thumbFrames (processor : MediaProcessor) : Prog Int :=
  if processor.hasThumbFrames then do
    let frames ← RuntimeConfig.getValue .videoThumbFrames
    return max 1 frames
  else pure 0

def storeThumbnail (media : Media) (thumbnail : ThumbnailResult) : Prog MadeThumbnail :=
  if thumbnail.thumbIsOrig then pure { thumbKey := none, thumbIsOrig := true, thumbSize := some media.fileSize }
  else do
    Storage.put (thumbKeyFor media.id thumbnail.format) (thumbnail.data.getD [])
    return { thumbKey := some (thumbKeyFor media.id thumbnail.format), thumbIsOrig := false,
             thumbSize := some thumbnail.size }

/-- The first part of the `try`, up to and including the `put`. -/
def makeThumbnail (rt : Runtime) (media : Media) : Prog MadeThumbnail :=
  match rt.getProcessor media.format with
  | none => raise (.valueError "processor_missing")
  | some processor => do
    let frames ← thumbFrames processor
    let payload ← Storage.getBytes media.storageKey
    let metadata ← ofExcept (processor.extractMetadata payload media.format)
    let thumbnail ← ofExcept (processor.generateThumbnail frames payload metadata)
    storeThumbnail media thumbnail

/-- `if written_thumb_key is not None: try: await storage.delete(…) except Exception: …`. -/
def takeBack (writtenThumbKey : Option String) : Prog Unit :=
  match writtenThumbKey with
  | some key => deleteStorageKeyBestEffort key
  | none => pure ()

/-- The handler: retry later, or give up. -/
def thumbnailFailed (rt : Runtime) (media : Media) (attempt maxAttempts : Nat) (writtenThumbKey : Option String)
    (exc : PyExc) : Prog TaskRunResult :=
  let reason := thumbnailFailureReason rt exc
  let retryable := thumbnailFailureIsRetryable reason
  if retryable && attempt < maxAttempts then do
    takeBack writtenThumbKey
    let _ ← Repository.updateMediaThumbnailState media.id none false .pending none
    return { state := .retryScheduled, reason := some reason, retryable := true }
  else do
    takeBack writtenThumbKey
    let _ ← Program.attempt (Repository.updateMediaThumbnailState media.id none false .failed none)
    return { state := if retryable then .failedExhausted else .failedPermanent, reason := some reason,
             retryable := false }

/-- From the row that was read on: mark it, make the thumbnail, mark it again. -/
def runThumbnail (rt : Runtime) (media : Media) (attempt maxAttempts : Nat) : Prog TaskRunResult := do
  let _ ← Repository.updateMediaThumbnailState media.id media.thumbKey media.thumbIsOrig .processing media.thumbSize
  let made ← Program.attempt (makeThumbnail rt media)
  match made with
  | .error exc => thumbnailFailed rt media attempt maxAttempts none exc
  | .ok made => do
    let updated ← Program.attempt
      (Repository.updateMediaThumbnailState media.id made.thumbKey made.thumbIsOrig .done made.thumbSize)
    match updated with
    | .error exc => thumbnailFailed rt media attempt maxAttempts made.thumbKey exc
    | .ok _ => return { state := .succeeded, reason := none, retryable := false }

def generateThumbnail (rt : Runtime) (mediaId : String) (attempt maxAttempts : Nat) : Prog TaskRunResult := do
  let found ← Repository.getMedia mediaId
  match found with
  | none => return { state := .skipped, reason := some "missing_media", retryable := false }
  | some media =>
    if media.thumbStatus = .done then
      return { state := .skipped, reason := some "already_done", retryable := false }
    else runThumbnail rt media attempt maxAttempts

end Imghost.Service
