/-
  Imghost.Model.Types — the records of `models.py`, the events of `events.py`, and
  the exceptions the service raises.

  Identifiers, titles, tokens and storage keys are strings, as in the source. A
  `datetime` is an instant (microseconds since 0001-01-01 UTC); `thumb_status`,
  `media_type` and `actor_kind`, strings with a fixed set of values, are enumerations.
-/

import Mathlib.Algebra.Order.Ring.Int
import Mathlib.Data.Rat.Init

namespace Imghost.Model

abbrev Bytes := List UInt8

/-! ## datetime and timedelta -/

/-- Microseconds since `datetime.min` (UTC). -/
abbrev DateTime := Int

/-- A `datetime` with its offset from UTC: two of one instant can differ as texts. -/
structure AwareDateTime where
  instant : DateTime
  utcOffset : Int
  deriving DecidableEq, Repr

/-- `datetime.max`: the last microsecond of year 9999. -/
def datetimeMax : DateTime := 315537897599999999

/-- `timedelta.max.days`. -/
def timedeltaMaxDays : Int := 999999999

def microsPerHour : Int := 3600 * 1000000

def microsPerDay : Int := 24 * microsPerHour

/-! ## Exceptions -/

/-- The exceptions that cross the service: `HTTPException`, the two built-in classes
    the service catches or raises by name, `VideoProcessingError`, and any other. -/
inductive PyExc where
  | http (status : Nat) (detail : String)
  | lookupError (msg : String)
  | valueError (msg : String)
  | overflowError (msg : String)
  | videoProcessingError (msg : String)
  | exception (msg : String)
  deriving DecidableEq, Repr

/-- `str(exc)`. -/
def PyExc.str : PyExc → String
  | .http status detail => toString status ++ ": " ++ detail
  | .lookupError msg | .valueError msg | .overflowError msg | .videoProcessingError msg | .exception msg => msg

/-- `is_expired` of `web/display_helpers.py`, at the time `now`. -/
def isExpired (now : DateTime) : Option DateTime → Bool
  | some t => t ≤ now
  | none => false

/-! ## Rows -/

structure User where
  id : String
  username : String
  email : String
  passwordHash : Option String
  isAdmin : Bool
  suspended : Bool
  quotaBytes : Option Int
  rateLimitRpm : Option Int
  rateLimitBph : Option Int
  createdAt : DateTime
  updatedAt : DateTime
  deriving DecidableEq, Repr

structure Album where
  id : String
  title : Option String
  userId : Option String
  coverMediaId : Option String
  deleteToken : Option String
  createdAt : DateTime
  updatedAt : DateTime
  expiresAt : Option DateTime
  deriving DecidableEq, Repr

inductive MediaType where
  | image
  | video
  deriving DecidableEq, Repr

inductive ThumbStatus where
  | pending
  | processing
  | done
  | failed
  deriving DecidableEq, Repr

structure Media where
  id : String
  albumId : String
  userId : Option String
  filenameOrig : String
  mediaType : MediaType
  format : String
  mimeType : String
  storageKey : String
  thumbKey : Option String
  thumbIsOrig : Bool
  thumbStatus : ThumbStatus
  fileSize : Nat
  thumbSize : Option Nat
  width : Option Nat
  height : Option Nat
  durationSecs : Option Rat
  isAnimated : Bool
  codecHint : Option String
  position : Int
  createdAt : DateTime
  deriving DecidableEq, Repr

structure ShareXDeleteCapability where
  selector : String
  purpose : String
  albumId : String
  userId : String
  secretHash : String
  createdAt : DateTime
  expiresAt : DateTime
  consumedAt : Option DateTime
  revokedAt : Option DateTime
  lastSeenAt : Option DateTime
  deriving DecidableEq, Repr

/-- `if value:` of an optional string. -/
def truthy : Option String → Bool
  | some s => s != ""
  | none => false

@[simp] theorem truthy_none : truthy none = false := rfl
@[simp] theorem truthy_some (s : String) : truthy (some s) = (s != "") := rfl

/-! ## Events -/

inductive ActorKind where
  | system
  | admin
  | user
  | deleteToken
  | anonymous
  deriving DecidableEq, Repr

/-- What the service hands to `EventBus.emit`. -/
inductive BusEvent where
  | albumCreated (albumId : String) (userId : Option String) (itemCount : Nat) (actorKind : ActorKind)
      (source correlationId : String)
  | mediaUploaded (mediaId albumId : String) (userId : Option String) (fileSize : Nat) (mediaType : MediaType)
      (format : String) (actorKind : ActorKind) (source correlationId : String)
  | albumDeleted (albumId : String) (userId actorId : Option String) (actorKind : ActorKind) (itemCount totalSize : Nat)
      (source correlationId : String)
  | mediaDeleted (mediaId albumId : String) (userId actorId : Option String) (actorKind : ActorKind) (fileSize : Nat)
      (source correlationId : String)
  | albumTitleChanged (albumId : String) (userId actorId : Option String) (actorKind : ActorKind)
      (oldTitle newTitle : Option String) (source correlationId : String)
  | albumCoverSet (albumId : String) (userId actorId : Option String) (actorKind : ActorKind) (mediaId : Option String)
      (source correlationId : String)
  | albumReordered (albumId : String) (userId actorId : Option String) (actorKind : ActorKind)
      (source correlationId : String)
  | albumExpiryChanged (albumId : String) (userId actorId : Option String) (actorKind : ActorKind)
      (oldExpiry : Option DateTime) (newExpiry : Option AwareDateTime) (source correlationId : String)
  | userDeleted (userId : String) (actorId : Option String) (actorKind : ActorKind) (deletedBy : String)
      (albumCount mediaCount : Nat) (source correlationId : String)
  | userSuspended (userId : String) (actorId : Option String) (suspended : Bool) (source correlationId : String)
  | userPasswordReset (userId : String) (actorId : Option String) (source correlationId : String)
  | userPasswordChanged (userId : String) (actorId : Option String) (source correlationId : String)
  | userAdminStatusChanged (userId : String) (actorId : Option String) (oldIsAdmin newIsAdmin : Bool)
      (source correlationId : String)
  | userRegistered (userId : String) (actorId : Option String) (method source correlationId : String)
  | userLimitsChanged (userId : String) (actorId : Option String)
      (changes : List (String × Option Int × Option Int)) (source correlationId : String)
  deriving DecidableEq, Repr

end Imghost.Model
