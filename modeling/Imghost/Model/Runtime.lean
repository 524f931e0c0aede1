/-
  Imghost.Model.Runtime — what a service is configured with: the media processors of
  `processors.py`, the password hash, and the library functions that stay parameters.

  Everything proved later holds for every `Runtime`: decoding and encoding media,
  `bcrypt`, `str.lower` and the `mimetypes` tables are arbitrary functions.
-/

import Imghost.Model.Types

namespace Imghost.Model

structure ValidationResult where
  ok : Bool
  rejectionReason : Option String
  deriving DecidableEq, Repr

structure MediaMetadata where
  width : Option Nat
  height : Option Nat
  durationSecs : Option Rat
  codecHint : Option String
  isAnimated : Bool
  mimeType : String
  format : String
  rotationDegrees : Int
  deriving DecidableEq, Repr

structure SanitizedFile where
  data : Bytes
  mimeType : String
  format : String
  deriving DecidableEq, Repr

structure ThumbnailResult where
  data : Option Bytes
  thumbIsOrig : Bool
  format : String
  size : Nat
  deriving DecidableEq, Repr

structure MediaProcessor where
  /-- Whether the processor has a `thumb_frames`. -/
  hasThumbFrames : Bool
  validate : Bytes → Except PyExc ValidationResult
  extractMetadata : Bytes → String → Except PyExc MediaMetadata
  sanitize : Bytes → MediaMetadata → Except PyExc SanitizedFile
  /-- With the `thumb_frames` just set, where the processor has them. -/
  generateThumbnail : Int → Bytes → MediaMetadata → Except PyExc ThumbnailResult

structure Runtime where
  /-- `str.lower`. -/
  lower : String → String
  /-- `mimetypes.guess_type(name)[0]`. -/
  guessType : String → Option String
  /-- `mimetypes.guess_extension`. -/
  guessExtension : String → Option String
  /-- `ProcessorRegistry._processors`. -/
  processors : String → Option MediaProcessor
  /-- `bcrypt.hashpw(encoded, salt)`. -/
  hashpw : Bytes → String → String
  /-- `bcrypt.checkpw`; `none` when it raises `ValueError`. -/
  checkpw : Bytes → String → Option Bool
  /-- Whether the service was given a telemetry. -/
  telemetry : Bool
  auditRetentionDays : Int

namespace Runtime

/-- `ProcessorRegistry.get_processor`. -/
def getProcessor (rt : Runtime) (formatName : String) : Option MediaProcessor := rt.processors (rt.lower formatName)

end Runtime

/-- What an `UploadFile` delivers: `chunks` are the results of its successive `read`s. -/
structure UploadFile where
  filename : Option String
  contentType : Option String
  chunks : List Bytes
  deriving DecidableEq, Repr

structure CurrentActor where
  user : Option User
  source : String
  deriving DecidableEq, Repr

end Imghost.Model
