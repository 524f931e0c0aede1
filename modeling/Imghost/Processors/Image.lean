/-
  Imghost.Processors.Image — the processors of `media_processors/image.py`, over Pillow.

  `Pillow Image` is the library: `Image.open` finds the format in the bytes, and everything
  it does with an opened image is a parameter. The renderers of thumbnails are left out:
  they come as a function of the class's name.

  - `StaticPillowProcessor` (JPEG, PNG, BMP) writes its own format, whatever it has read.
  - `BrowserNormalizedPillowProcessor` (HEIF, AVIF, TIFF) writes a PNG or a JPEG.
  - `AnimatedPillowProcessor` (GIF, WebP) writes the format it has read, under its own MIME
    type; an animation it stores as it came.
-/

import Imghost.Svg.Dimensions

namespace Imghost.Processors

open Imghost.Model Imghost.Svg

/-- What Pillow raises: one of the errors its callers catch, or another. -/
inductive ImageError where
  | invalid (msg : String)
  | other (e : PyExc)

def ImageError.toExc : ImageError → PyExc
  | .invalid msg => .exception msg
  | .other e => e

structure Pillow (Image : Type) where
  /-- `Image.open`. -/
  openImage : Bytes → Except ImageError Image
  load : Image → Except ImageError Unit
  size : Image → ℕ × ℕ
  format : Image → Option String
  /-- `getattr(image, "is_animated", False)`. -/
  isAnimated : Image → Except PyExc Bool
  /-- `getattr(image, "n_frames", 1)`. -/
  nFrames : Image → Except PyExc ℕ
  /-- `Image.MIME`. -/
  mime : String → Option String
  mode : Image → String
  /-- `"transparency" in image.info`. -/
  hasTransparency : Image → Bool
  getbands : Image → List String
  /-- `image.info.get("icc_profile")`, where it is not empty. -/
  iccProfile : Image → Option Bytes
  exifTranspose : Image → Except PyExc Image
  convert : Image → String → Except PyExc Image
  /-- `ImageCms`: from the image's own profile to sRGB, in a mode. -/
  profileToProfile : Image → Bytes → String → Except ImageError Image
  /-- `image.save(output, format=…)`, with a quality if one is given. -/
  save : Image → String → Option ℕ → Except PyExc Bytes

/-- What the processors are built with. -/
structure MediaLib (Image : Type) where
  lower : String → String
  upper : String → String
  pillow : Pillow Image
  /-- `generate_thumbnail` of a class. -/
  thumbnail : String → Int → Bytes → MediaMetadata → Except PyExc ThumbnailResult

variable {Image : Type} (lib : MediaLib Image)

def liftError {α : Type} : Except ImageError α → Except PyExc α
  | .ok a => .ok a
  | .error e => .error e.toExc

/-- `_open_image`, outside `validate`. -/
def openImage (payload : Bytes) : Except PyExc Image := liftError (lib.pillow.openImage payload)

/-! ## PillowProcessor -/

/-- `PillowProcessor.validate`. -/
def validateImage (maxPixels : ℤ) (payload : Bytes) : Except PyExc ValidationResult :=
  let size := do
    let image ← lib.pillow.openImage payload
    lib.pillow.load image
    return lib.pillow.size image
  match size with
  | .error (.invalid _) => .ok invalidImage
  | .error (.other e) => .error e
  | .ok (width, height) => .ok (if maxPixels < width * height then tooManyPixels else ⟨true, none⟩)

/-- The frames of an image, looked at only where it is animated. -/
def frameCount (image : Image) (isAnimated : Bool) : Except PyExc ℕ :=
  if isAnimated then lib.pillow.nFrames image else .ok 1

/-- `PillowProcessor.extract_metadata`. -/
def imageMetadata (payload : Bytes) (formatHint : String) : Except PyExc MediaMetadata := do
  let image ← openImage lib payload
  let isAnimated ← lib.pillow.isAnimated image
  let nFrames ← frameCount lib image isAnimated
  return {
    width := some (lib.pillow.size image).1
    height := some (lib.pillow.size image).2
    durationSecs := none
    codecHint := none
    isAnimated := isAnimated && 1 < nFrames
    mimeType := (lib.pillow.mime ((lib.pillow.format image).getD "")).getD ("image/" ++ formatHint)
    format := lib.lower (strOr (lib.pillow.format image) formatHint)
    rotationDegrees := 0 }

/-! ## sanitize -/

/-- The image in a mode that the format can write. -/
def convertForFormat (image : Image) (saveFormat : String) : Except PyExc Image :=
  if saveFormat = "JPEG" && !(["RGB", "L"].contains (lib.pillow.mode image)) then lib.pillow.convert image "RGB"
  else .ok image

/-- `StaticPillowProcessor.sanitize`. -/
def sanitizeStatic (saveFormat mimeType : String) (payload : Bytes) (_ : MediaMetadata) : Except PyExc SanitizedFile := do
  let image ← openImage lib payload
  let image ← lib.pillow.exifTranspose image
  let converted ← convertForFormat lib image saveFormat
  let data ← lib.pillow.save converted saveFormat (if saveFormat = "JPEG" then some 95 else none)
  return ⟨data, mimeType, if saveFormat = "JPEG" then "jpeg" else lib.lower saveFormat⟩

/-- `_has_alpha`. -/
def hasAlpha (image : Image) : Bool :=
  if ["RGBA", "LA", "PA"].contains (lib.pillow.mode image) then true
  else if lib.pillow.mode image = "P" then lib.pillow.hasTransparency image
  else (lib.pillow.getbands image).contains "A"

/-- `_convert_with_color_profile`. -/
def convertWithColorProfile (image : Image) (targetMode : String) : Except PyExc Image :=
  match lib.pillow.iccProfile image with
  | none => lib.pillow.convert image targetMode
  | some iccProfile =>
    match lib.pillow.profileToProfile image iccProfile targetMode with
    | .ok converted => .ok converted
    | .error (.invalid _) => lib.pillow.convert image targetMode
    | .error (.other e) => .error e

/-- `BrowserNormalizedPillowProcessor.sanitize`. -/
def sanitizeNormalized (payload : Bytes) (_ : MediaMetadata) : Except PyExc SanitizedFile := do
  let image ← openImage lib payload
  let image ← lib.pillow.exifTranspose image
  let saveFormat := if hasAlpha lib image then "PNG" else "JPEG"
  let converted ← convertWithColorProfile lib image (if saveFormat = "PNG" then "RGBA" else "RGB")
  let data ← lib.pillow.save converted saveFormat (if saveFormat = "JPEG" then some 95 else none)
  return ⟨data, if saveFormat = "PNG" then "image/png" else "image/jpeg", if saveFormat = "PNG" then "png" else "jpeg"⟩

/-- `AnimatedPillowProcessor.sanitize`. -/
def sanitizeAnimated (mimeType : String) (payload : Bytes) (metadata : MediaMetadata) : Except PyExc SanitizedFile :=
  if metadata.isAnimated then .ok ⟨payload, mimeType, metadata.format⟩
  else do
    let image ← openImage lib payload
    let image ← lib.pillow.exifTranspose image
    let data ← lib.pillow.save image (lib.upper metadata.format) none
    return ⟨data, mimeType, metadata.format⟩

/-! ## The classes -/

/-- A subclass of `PillowProcessor`. -/
def pillowProcessor (name : String) (maxPixels : ℤ)
    (sanitize : Bytes → MediaMetadata → Except PyExc SanitizedFile) : MediaProcessor where
  hasThumbFrames := false
  validate := validateImage lib maxPixels
  extractMetadata := imageMetadata lib
  sanitize := sanitize
  generateThumbnail := lib.thumbnail name

def jpegProcessor (maxPixels : ℤ) : MediaProcessor :=
  pillowProcessor lib "JpegProcessor" maxPixels (sanitizeStatic lib "JPEG" "image/jpeg")

def pngProcessor (maxPixels : ℤ) : MediaProcessor :=
  pillowProcessor lib "PngProcessor" maxPixels (sanitizeStatic lib "PNG" "image/png")

def bmpProcessor (maxPixels : ℤ) : MediaProcessor :=
  pillowProcessor lib "BmpProcessor" maxPixels (sanitizeStatic lib "BMP" "image/bmp")

def heifProcessor (maxPixels : ℤ) : MediaProcessor := pillowProcessor lib "HeifProcessor" maxPixels (sanitizeNormalized lib)

def avifProcessor (maxPixels : ℤ) : MediaProcessor := pillowProcessor lib "AvifProcessor" maxPixels (sanitizeNormalized lib)

def tiffProcessor (maxPixels : ℤ) : MediaProcessor := pillowProcessor lib "TiffProcessor" maxPixels (sanitizeNormalized lib)

def gifProcessor (maxPixels : ℤ) : MediaProcessor :=
  pillowProcessor lib "GifProcessor" maxPixels (sanitizeAnimated lib "image/gif")

def webpProcessor (maxPixels : ℤ) : MediaProcessor :=
  pillowProcessor lib "WebpProcessor" maxPixels (sanitizeAnimated lib "image/webp")

/-! ## What is stored -/

section

variable {lib} {payload : Bytes} {metadata : MediaMetadata} {file : SanitizedFile}

theorem bind_eq_ok {ε α β : Type} {x : Except ε α} {f : α → Except ε β} {b : β} (h : (x >>= f) = .ok b) :
    ∃ a, x = .ok a ∧ f a = .ok b := by
  cases x with
  | error e => cases h
  | ok a => exact ⟨a, rfl, h⟩

theorem sanitizeStatic_stores {saveFormat mimeType : String}
    (h : sanitizeStatic lib saveFormat mimeType payload metadata = .ok file) :
    file.mimeType = mimeType ∧ file.format = if saveFormat = "JPEG" then "jpeg" else lib.lower saveFormat := by
  obtain ⟨image, -, h⟩ := bind_eq_ok h
  obtain ⟨turned, -, h⟩ := bind_eq_ok h
  obtain ⟨converted, -, h⟩ := bind_eq_ok h
  obtain ⟨data, -, h⟩ := bind_eq_ok h
  cases h
  exact ⟨rfl, rfl⟩

theorem sanitizeNormalized_stores (h : sanitizeNormalized lib payload metadata = .ok file) :
    (file.mimeType = "image/png" ∧ file.format = "png") ∨ (file.mimeType = "image/jpeg" ∧ file.format = "jpeg") := by
  obtain ⟨image, -, h⟩ := bind_eq_ok h
  obtain ⟨turned, -, h⟩ := bind_eq_ok h
  obtain ⟨converted, -, h⟩ := bind_eq_ok h
  obtain ⟨data, -, h⟩ := bind_eq_ok h
  cases h
  cases hasAlpha lib turned
  · exact .inr ⟨rfl, rfl⟩
  · exact .inl ⟨rfl, rfl⟩

theorem sanitizeAnimated_stores {mimeType : String} (h : sanitizeAnimated lib mimeType payload metadata = .ok file) :
    file.mimeType = mimeType ∧ file.format = metadata.format := by
  unfold sanitizeAnimated at h
  split at h
  · cases h
    exact ⟨rfl, rfl⟩
  · obtain ⟨image, -, h⟩ := bind_eq_ok h
    obtain ⟨turned, -, h⟩ := bind_eq_ok h
    obtain ⟨data, -, h⟩ := bind_eq_ok h
    cases h
    exact ⟨rfl, rfl⟩

theorem imageMetadata_format {formatHint : String} (h : imageMetadata lib payload formatHint = .ok metadata) :
    ∃ image, lib.pillow.openImage payload = .ok image ∧
      metadata.format = lib.lower (strOr (lib.pillow.format image) formatHint) := by
  obtain ⟨image, hopen, h⟩ := bind_eq_ok h
  obtain ⟨isAnimated, -, h⟩ := bind_eq_ok h
  obtain ⟨nFrames, -, h⟩ := bind_eq_ok h
  cases h
  refine ⟨image, ?_, rfl⟩
  unfold openImage at hopen
  cases hpayload : lib.pillow.openImage payload with
  | error e =>
    rw [hpayload] at hopen
    cases hopen
  | ok found =>
    rw [hpayload] at hopen
    cases hopen
    rfl

end

end Imghost.Processors
