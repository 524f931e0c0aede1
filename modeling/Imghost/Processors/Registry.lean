/-
  Imghost.Processors.Registry — every processor under the formats it supports, and what the
  row of an upload says of its file.

  The registry finds a processor by the extension, `media_type` comes from the client's
  content type and the extension, and the stored format and MIME type from the processor.

  - `stored_types_agree_iff`: the three agree in exactly those uploads whose content type is
    a video's only for a video's extension (and always for `m4v`), and where a file named as
    a GIF or a WebP is one.
  - `three_rows_that_disagree`: one for each way in which they do not.
-/

import Imghost.Processors.Image
import Imghost.Service.Alone
import Imghost.Service.Footprint
import Imghost.Service.Operations

namespace Imghost.Processors

open Imghost.Async Imghost.Data Imghost.Model Imghost.Nodes Imghost.Service Imghost.Svg Program

/-! ## SVG -/

structure XmlLib where
  /-- `ElementTree.fromstring`. -/
  fromstring : Bytes → Except XmlError (RefTree Element)
  /-- `ElementTree.tostring`. -/
  tostring : RefTree Element → Bytes

/-- `fromstring`, outside `validate`. -/
def parseXml (xml : XmlLib) (payload : Bytes) : Except PyExc (RefTree Element) :=
  match xml.fromstring payload with
  | .ok tree => .ok tree
  | .error .parseError => .error (.exception "not well-formed")
  | .error (.other e) => .error e

/-- `SvgProcessor.extract_metadata`. The sizes of the model are not negative: a side that
    the view box makes negative counts as 0. -/
def svgMetadata (xml : XmlLib) (payload : Bytes) (_ : String) : Except PyExc MediaMetadata := do
  let tree ← parseXml xml payload
  let (width, height) ← svgDimensions tree.value
  return { width := width.map Int.toNat, height := height.map Int.toNat, durationSecs := none, codecHint := none,
           isAnimated := false, mimeType := "image/svg+xml", format := "svg", rotationDegrees := 0 }

/-- `SvgProcessor.sanitize`; what `_sanitize_svg` leaves of the tree is `sanitized`. -/
def sanitizeSvgFile (xml : XmlLib) (lower : String → String) (payload : Bytes) (_ : MediaMetadata) :
    Except PyExc SanitizedFile := do
  let tree ← parseXml xml payload
  return ⟨xml.tostring (sanitized lower tree), "image/svg+xml", "svg"⟩

/-! ## Video -/

/-- What `_probe` raises: a `VideoProcessingError`, another `RuntimeError`, or something else. -/
inductive ProbeError where
  | processing (msg : String)
  | runtime (msg : String)
  | other (e : PyExc)

def ProbeError.toExc : ProbeError → PyExc
  | .processing msg => .videoProcessingError msg
  | .runtime msg => .exception msg
  | .other e => e

/-- A float that a number of seconds is read as. -/
inductive Seconds where
  | finite (value : ℚ)
  | notFinite

/-- The fields of the first video stream, as `_int_or_none`, `_float_or_none` and
    `_rotation_degrees` read them off the JSON that `ffprobe` writes. -/
structure VideoStream where
  codecName : String
  codecTag : String
  width : Option ℤ
  height : Option ℤ
  duration : Option Seconds
  rotationDegrees : ℤ

structure VideoLib where
  /-- `ffprobe` on a file with this extension. -/
  probe : Bytes → String → Except ProbeError VideoStream
  /-- `_remux`. -/
  remux : Bytes → String → ℤ → Except PyExc Bytes

/-- A subclass of `VideoProcessor`. -/
structure VideoClass where
  name : String
  mimeType : String
  codecHints : List (String × String)
  /-- `supported_formats()[0]`. -/
  format : String
  otherFormats : List String

namespace VideoClass

def mp4 : VideoClass := ⟨"Mp4Processor", "video/mp4", [], "mp4", ["m4v"]⟩

def mov : VideoClass :=
  ⟨"MovProcessor", "video/quicktime", [("hevc", "hevc"), ("hev1", "hevc"), ("hvc1", "hevc")], "mov", []⟩

def webm : VideoClass := ⟨"WebmProcessor", "video/webm", [("vp9", "vp9")], "webm", []⟩

def supportedFormats (c : VideoClass) : List String := c.format :: c.otherFormats

end VideoClass

def videoClasses : List VideoClass := [.mp4, .mov, .webm]

def invalidVideo : ValidationResult := ⟨false, some "Unsupported or invalid video file."⟩

/-- `_has_valid_duration`. -/
def hasValidDuration : Option Seconds → Bool
  | none => true
  | some .notFinite => false
  | some (.finite value) => 0 ≤ value

section

variable (video : VideoLib) (lower : String → String) (c : VideoClass)

/-- `VideoProcessor.validate`. -/
def validateVideo (maxPixels : ℤ) (payload : Bytes) : Except PyExc ValidationResult :=
  match video.probe payload c.format with
  | .error (.other e) => .error e
  | .error _ => .ok invalidVideo
  | .ok stream =>
    match stream.width, stream.height with
    | some width, some height =>
      if !(0 < width && 0 < height) then .ok invalidVideo
      else if !hasValidDuration stream.duration then .ok invalidVideo
      else .ok (if maxPixels < width * height then tooManyPixels else ⟨true, none⟩)
    | _, _ => .ok invalidVideo

/-- `VideoProcessor.extract_metadata`. -/
def videoMetadata (payload : Bytes) (_ : String) : Except PyExc MediaMetadata :=
  match video.probe payload c.format with
  | .error e => .error e.toExc
  | .ok stream => .ok {
      width := stream.width.map Int.toNat
      height := stream.height.map Int.toNat
      durationSecs := match stream.duration with
        | some (.finite value) => some value
        | _ => none
      codecHint := (c.codecHints.lookup (lower stream.codecName)).or (c.codecHints.lookup (lower stream.codecTag))
      isAnimated := true
      mimeType := c.mimeType
      format := c.format
      rotationDegrees := stream.rotationDegrees }

/-- `VideoProcessor.sanitize`. -/
def sanitizeVideo (payload : Bytes) (metadata : MediaMetadata) : Except PyExc SanitizedFile := do
  let data ← video.remux payload metadata.format metadata.rotationDegrees
  return ⟨data, c.mimeType, metadata.format⟩

end

/-! ## The registry -/

structure ProcessorLib (Image : Type) extends MediaLib Image where
  xml : XmlLib
  video : VideoLib

variable {Image : Type} (lib : ProcessorLib Image)

def svgProcessor (maxPixels : ℤ) : MediaProcessor where
  hasThumbFrames := false
  validate := Svg.validate (fun payload => (lib.xml.fromstring payload).map (·.value)) maxPixels
  extractMetadata := svgMetadata lib.xml
  sanitize := sanitizeSvgFile lib.xml lib.lower
  generateThumbnail := lib.thumbnail "SvgProcessor"

def videoProcessor (c : VideoClass) (maxPixels : ℤ) : MediaProcessor where
  hasThumbFrames := true
  validate := validateVideo lib.video c maxPixels
  extractMetadata := videoMetadata lib.video lib.lower c
  sanitize := sanitizeVideo lib.video c
  generateThumbnail := lib.thumbnail c.name

/-- `ProcessorRegistry._processors`. -/
abbrev ProcessorRegistry := Dict String MediaProcessor

/-- `register`: the processor under each of its `supported_formats()`. -/
def register (registry : ProcessorRegistry) (supportedFormats : List String) (processor : MediaProcessor) :
    ProcessorRegistry :=
  supportedFormats.foldl (fun registry formatName => registry.insert formatName processor) registry

/-- The processors with their `supported_formats()`, in the order of `build_processor_registry`. -/
def processorClasses (maxPixels : ℤ) : List (List String × MediaProcessor) :=
  let lib' := lib.toMediaLib
  [(["jpeg", "jpg", "mpo"], jpegProcessor lib' maxPixels), (["png"], pngProcessor lib' maxPixels),
   (["gif"], gifProcessor lib' maxPixels), (["webp"], webpProcessor lib' maxPixels), (["bmp"], bmpProcessor lib' maxPixels),
   (["heic", "heif"], heifProcessor lib' maxPixels), (["avif"], avifProcessor lib' maxPixels),
   (["tif", "tiff"], tiffProcessor lib' maxPixels), (["svg"], svgProcessor lib maxPixels)] ++
  videoClasses.map fun c => (c.supportedFormats, videoProcessor lib c maxPixels)

/-- `build_processor_registry`. -/
def buildProcessorRegistry (maxPixels : ℤ) : ProcessorRegistry :=
  (processorClasses lib maxPixels).foldl (fun registry c => register registry c.1 c.2) ∅

/-- The service with that registry. -/
def withRegistry (rt : Runtime) (maxPixels : ℤ) : Runtime :=
  { rt with lower := lib.lower, processors := (buildProcessorRegistry lib maxPixels).lookup }

/-! ## What the row should say -/

/-- The MIME type of each format that has a processor. -/
def mimeTypes : List (String × String) :=
  [("jpeg", "image/jpeg"), ("jpg", "image/jpeg"), ("mpo", "image/mpo"), ("png", "image/png"), ("gif", "image/gif"),
   ("webp", "image/webp"), ("bmp", "image/bmp"), ("heic", "image/heic"), ("heif", "image/heif"), ("avif", "image/avif"),
   ("tif", "image/tiff"), ("tiff", "image/tiff"), ("svg", "image/svg+xml"), ("mp4", "video/mp4"), ("m4v", "video/x-m4v"),
   ("mov", "video/quicktime"), ("webm", "video/webm")]

def mimeTypeOf (format : String) : Option String := mimeTypes.lookup format

/-- Media type, format and MIME type of a row say the same, and the format has a processor. -/
structure TypesAgree (rt : Runtime) (media : Media) : Prop where
  mediaType : media.mediaType = .video ↔ startsWith media.mimeType "video/" = true
  mimeType : mimeTypeOf media.format = some media.mimeType
  processor : (rt.getProcessor media.format).isSome = true

/-- What `_create_media` looks the processor up by. -/
def extension (rt : Runtime) (file : UploadFile) : String := rt.lower (uploadFormat rt file)

def saysVideo (rt : Runtime) (file : UploadFile) : Bool := startsWith (uploadContentType rt file) "video/"

def videoExtensions : List String := ["mp4", "m4v", "mov", "webm"]

/-- Pillow finds this format in the bytes, or none. -/
def ReadsAs (payload : Bytes) (format : String) : Prop :=
  ∀ image, lib.pillow.openImage payload = .ok image → lib.lower (strOr (lib.pillow.format image) format) = format

/-- The content type is a video's only where the extension is, and is one for `m4v`; a file
    named as a GIF or a WebP is one. -/
structure NamedRight (rt : Runtime) (file : UploadFile) (payload : Bytes) : Prop where
  video : saysVideo rt file = true → extension rt file ∈ videoExtensions
  m4v : extension rt file = "m4v" → saysVideo rt file = true
  animated : extension rt file = "gif" ∨ extension rt file = "webp" → ReadsAs lib payload (extension rt file)

/-- `str.lower` of ASCII text. -/
def LowersAscii (lower : String → String) : Prop :=
  ∀ s : String, (∀ c ∈ s.toList, c.toNat < 128) → lower s = String.ofList (s.toList.map Char.toLower)

/-! ## Looking a processor up -/

section

variable {lib} {maxPixels : ℤ}

theorem lookup_register (registry : ProcessorRegistry) (formats : List String) (processor : MediaProcessor) (key : String) :
    (register registry formats processor).lookup key = if key ∈ formats then some processor else registry.lookup key :=
  Dict.lookup_foldl_insert processor formats registry key

theorem lookup_classes {classes : List (List String × MediaProcessor)} {registry : ProcessorRegistry} {key : String}
    {processor : MediaProcessor}
    (h : (classes.foldl (fun registry c => register registry c.1 c.2) registry).lookup key = some processor) :
    (∃ formats, (formats, processor) ∈ classes ∧ key ∈ formats) ∨ registry.lookup key = some processor := by
  induction classes generalizing registry with
  | nil => exact .inr h
  | cons c classes ih =>
    rcases ih h with ⟨formats, hmem, hkey⟩ | hfound
    · exact .inl ⟨formats, List.mem_cons_of_mem c hmem, hkey⟩
    · rw [lookup_register] at hfound
      split at hfound
      · rename_i hkey
        cases hfound
        exact .inl ⟨c.1, List.mem_cons_self, hkey⟩
      · exact .inr hfound

theorem lookup_isSome {classes : List (List String × MediaProcessor)} {registry : ProcessorRegistry} {key : String}
    (h : (∃ c ∈ classes, key ∈ c.1) ∨ (registry.lookup key).isSome = true) :
    ((classes.foldl (fun registry c => register registry c.1 c.2) registry).lookup key).isSome = true := by
  induction classes generalizing registry with
  | nil =>
    rcases h with ⟨c, hmem, -⟩ | h
    · cases hmem
    · exact h
  | cons c classes ih =>
    apply ih
    rw [lookup_register]
    rcases h with ⟨c', hmem, hkey⟩ | h
    · rcases List.mem_cons.mp hmem with rfl | hmem
      · exact .inr (by rw [if_pos hkey]; rfl)
      · exact .inl ⟨c', hmem, hkey⟩
    · right
      split
      · rfl
      · exact h

/-- The formats that have a processor. -/
def formatNames : List String :=
  ["jpeg", "jpg", "mpo", "png", "gif", "webp", "bmp", "heic", "heif", "avif", "tif", "tiff", "svg", "mp4", "m4v", "mov",
   "webm"]

theorem registry_isSome {key : String} (h : key ∈ formatNames) :
    ((buildProcessorRegistry lib maxPixels).lookup key).isSome = true := by
  have hflat : (processorClasses lib maxPixels).flatMap (·.1) = formatNames := rfl
  rw [← hflat] at h
  exact lookup_isSome (.inl (List.mem_flatMap.mp h))

/-! ## What a processor stores -/

def plainTypes : List (String × String) :=
  [("jpeg", "image/jpeg"), ("png", "image/png"), ("bmp", "image/bmp"), ("svg", "image/svg+xml")]

variable {payload : Bytes} {fmt key : String} {metadata : MediaMetadata} {file : SanitizedFile}

/-- What the processor of `key` makes of a payload: a format of its own, the format Pillow
    has found, or the format of its class of videos. -/
inductive Stores (lib : ProcessorLib Image) (payload : Bytes) (fmt key : String) (file : SanitizedFile) : Prop
  | plain (hvideo : key ∉ videoExtensions) (hanimated : ¬ (key = "gif" ∨ key = "webp"))
      (hfile : (file.format, file.mimeType) ∈ plainTypes)
  | animated (image : Image) (hkey : key = "gif" ∨ key = "webp") (hopen : lib.pillow.openImage payload = .ok image)
      (hformat : file.format = lib.lower (strOr (lib.pillow.format image) fmt)) (hmime : file.mimeType = "image/" ++ key)
  | video (c : VideoClass) (hclass : c ∈ videoClasses) (hkey : key ∈ c.supportedFormats) (hformat : file.format = c.format)
      (hmime : file.mimeType = c.mimeType)

theorem static_stores (metadata : MediaMetadata) {saveFormat mimeType : String}
    (htypes : (if saveFormat = "JPEG" then "jpeg" else lib.lower saveFormat, mimeType) ∈ plainTypes)
    (hvideo : key ∉ videoExtensions) (hanimated : ¬ (key = "gif" ∨ key = "webp"))
    (h : sanitizeStatic lib.toMediaLib saveFormat mimeType payload metadata = .ok file) : Stores lib payload fmt key file := by
  obtain ⟨hmime, hformat⟩ := sanitizeStatic_stores h
  refine .plain hvideo hanimated ?_
  rw [hmime, hformat]
  exact htypes

theorem normalized_stores (metadata : MediaMetadata) (hvideo : key ∉ videoExtensions) (hanimated : ¬ (key = "gif" ∨ key = "webp"))
    (h : sanitizeNormalized lib.toMediaLib payload metadata = .ok file) : Stores lib payload fmt key file := by
  refine .plain hvideo hanimated ?_
  rcases sanitizeNormalized_stores h with ⟨hmime, hformat⟩ | ⟨hmime, hformat⟩ <;> rw [hmime, hformat] <;> decide

theorem animated_stores (hkey : key = "gif" ∨ key = "webp") (hmetadata : imageMetadata lib.toMediaLib payload fmt = .ok metadata)
    (h : sanitizeAnimated lib.toMediaLib ("image/" ++ key) payload metadata = .ok file) : Stores lib payload fmt key file := by
  obtain ⟨hmime, hformat⟩ := sanitizeAnimated_stores h
  obtain ⟨image, hopen, hfound⟩ := imageMetadata_format hmetadata
  exact .animated image hkey hopen (hformat.trans hfound) hmime

theorem svg_stores (metadata : MediaMetadata) (hvideo : key ∉ videoExtensions) (hanimated : ¬ (key = "gif" ∨ key = "webp"))
    (h : sanitizeSvgFile lib.xml lib.lower payload metadata = .ok file) : Stores lib payload fmt key file := by
  obtain ⟨tree, -, h⟩ := bind_eq_ok h
  cases h
  have hsvg : ("svg", "image/svg+xml") ∈ plainTypes := by decide
  exact .plain hvideo hanimated hsvg

theorem video_stores {c : VideoClass} (hclass : c ∈ videoClasses) (hkey : key ∈ c.supportedFormats)
    (hmetadata : videoMetadata lib.video lib.lower c payload fmt = .ok metadata)
    (h : sanitizeVideo lib.video c payload metadata = .ok file) : Stores lib payload fmt key file := by
  have hformat : metadata.format = c.format := by
    unfold videoMetadata at hmetadata
    split at hmetadata
    · cases hmetadata
    · cases hmetadata
      rfl
  obtain ⟨data, -, h⟩ := bind_eq_ok h
  cases h
  exact .video c hclass hkey hformat rfl

/-- Whatever the registry finds. -/
theorem processor_stores (hlower : LowersAscii lib.lower) {processor : MediaProcessor}
    (hfound : (buildProcessorRegistry lib maxPixels).lookup key = some processor)
    (hmetadata : processor.extractMetadata payload fmt = .ok metadata) (hfile : processor.sanitize payload metadata = .ok file) :
    Stores lib payload fmt key file := by
  have hpng : lib.lower "PNG" = "png" := hlower "PNG" (by simp)
  have hbmp : lib.lower "BMP" = "bmp" := hlower "BMP" (by simp)
  rcases lookup_classes hfound with ⟨formats, hmem, hkey⟩ | hnone
  swap
  · cases hnone
  rw [processorClasses, List.mem_append] at hmem
  rcases hmem with hmem | hmem
  · simp only [List.mem_cons, Prod.mk.injEq, List.not_mem_nil, or_false] at hmem
    have hplain : ∀ {names : List String}, (∀ name ∈ names, name ∉ videoExtensions ∧ ¬ (name = "gif" ∨ name = "webp")) →
        key ∈ names → key ∉ videoExtensions ∧ ¬ (key = "gif" ∨ key = "webp") := fun h hk => h key hk
    rcases hmem with ⟨rfl, rfl⟩ | ⟨rfl, rfl⟩ | ⟨rfl, rfl⟩ | ⟨rfl, rfl⟩ | ⟨rfl, rfl⟩ | ⟨rfl, rfl⟩ | ⟨rfl, rfl⟩ | ⟨rfl, rfl⟩ |
      ⟨rfl, rfl⟩
    case inr.inr.inl =>
      obtain rfl := List.mem_singleton.mp hkey
      exact animated_stores (.inl rfl) hmetadata hfile
    case inr.inr.inr.inl =>
      obtain rfl := List.mem_singleton.mp hkey
      exact animated_stores (.inr rfl) hmetadata hfile
    all_goals obtain ⟨hvideo, hanimated⟩ := hplain (by decide) hkey
    · exact static_stores metadata (by simp [plainTypes]) hvideo hanimated hfile
    · exact static_stores metadata (by simp [hpng, plainTypes]) hvideo hanimated hfile
    · exact static_stores metadata (by simp [hbmp, plainTypes]) hvideo hanimated hfile
    · exact normalized_stores metadata hvideo hanimated hfile
    · exact normalized_stores metadata hvideo hanimated hfile
    · exact normalized_stores metadata hvideo hanimated hfile
    · exact svg_stores metadata hvideo hanimated hfile
  · obtain ⟨c, hclass, h⟩ := List.mem_map.mp hmem
    cases h
    exact video_stores hclass hkey hmetadata hfile

/-! ## Whether the row agrees -/

/-- One format of each MIME type that a processor of animations stores. -/
theorem mimeTypeOf_animated {format key : String} (hkey : key = "gif" ∨ key = "webp") :
    mimeTypeOf format = some ("image/" ++ key) ↔ format = key := by
  constructor
  · intro h
    have hmem : (format, "image/" ++ key) ∈ mimeTypes := List.lookup_eq_some_iff.mp h |>.elim (by
      rintro l₁ ⟨l₂, heq, -⟩
      rw [heq]
      simp)
    rcases hkey with rfl | rfl
    · simpa [mimeTypes] using hmem
    · simpa [mimeTypes] using hmem
  · rintro rfl
    rcases hkey with rfl | rfl <;> rfl

theorem lower_formatName (hlower : LowersAscii lib.lower) {name : String} (h : name ∈ formatNames) : lib.lower name = name := by
  have hall : formatNames.all (fun name : String => name.toList.all (·.toNat < 128)) = true := by decide
  have hascii : ∀ name ∈ formatNames, ∀ c ∈ name.toList, c.toNat < 128 := by
    simpa only [List.all_eq_true, decide_eq_true_eq] using hall
  have hsame : ∀ name ∈ formatNames, String.ofList (name.toList.map Char.toLower) = name := by decide
  rw [hlower name (hascii name h), hsame name h]

variable {rt : Runtime} {albumId : String} {upload : UploadFile} {user : Option User} {draws : Draws} {now : DateTime}
  {position : ℤ}

/-- The row that an upload asks the repository for, at its position. -/
def rowOf (rt : Runtime) (albumId : String) (upload : UploadFile) (user : Option User) (draws : Draws)
    (metadata : MediaMetadata) (file : SanitizedFile) (now : DateTime) (position : ℤ) : Media :=
  { newMedia rt albumId upload user draws metadata file now with position := position }

/-- Where Pillow names no format, the extension stands for it. -/
theorem lower_hint (found : Option String) (hfmt : lib.lower fmt = key) (hkey : lib.lower key = key) :
    lib.lower (strOr found fmt) = key ↔ lib.lower (strOr found key) = key := by
  unfold strOr
  split
  · split
    · rw [hfmt, hkey]
    · rfl
  · rw [hfmt, hkey]

theorem processUpload_ok {processor : MediaProcessor} {mediaType : MediaType}
    (h : processUpload processor mediaType payload fmt = .ok (metadata, file)) :
    processor.extractMetadata payload fmt = .ok metadata ∧ processor.sanitize payload metadata = .ok file := by
  unfold processUpload at h
  dsimp only at h
  split at h
  · cases h
  · rename_i result hresult
    obtain ⟨validation, -, h⟩ := bind_eq_ok h
    split at h
    · obtain ⟨metadata', hmetadata, h⟩ := bind_eq_ok h
      obtain ⟨file', hfile, h⟩ := bind_eq_ok h
      cases h
      exact ⟨hmetadata, hfile⟩
    · cases h

theorem prepareMedia_stores (hlower : LowersAscii lib.lower)
    (h : prepareMedia (withRegistry lib rt maxPixels) upload payload = .ok (metadata, file)) :
    Stores lib payload (uploadFormat (withRegistry lib rt maxPixels) upload)
      (extension (withRegistry lib rt maxPixels) upload) file := by
  unfold prepareMedia at h
  dsimp only at h
  split at h
  · cases h
  · rename_i processor hfound
    obtain ⟨hmetadata, hfile⟩ := processUpload_ok h
    exact processor_stores hlower hfound hmetadata hfile

theorem rowOf_agrees_iff (hlower : LowersAscii lib.lower)
    (h : prepareMedia (withRegistry lib rt maxPixels) upload payload = .ok (metadata, file)) :
    TypesAgree (withRegistry lib rt maxPixels)
        (rowOf (withRegistry lib rt maxPixels) albumId upload user draws metadata file now position) ↔
      NamedRight lib (withRegistry lib rt maxPixels) upload payload := by
  have hstores := prepareMedia_stores hlower h
  generalize hrt : withRegistry lib rt maxPixels = rt' at *
  have hmediaType : (rowOf rt' albumId upload user draws metadata file now position).mediaType = .video ↔
      saysVideo rt' upload = true ∨ extension rt' upload ∈ videoFormats := by
    show uploadMediaType rt' upload = .video ↔ _
    unfold uploadMediaType saysVideo extension
    split <;> simp_all
  have hprocessor : ∀ name ∈ formatNames, (rt'.getProcessor name).isSome = true := by
    intro name hname
    rw [← hrt]
    show ((buildProcessorRegistry lib maxPixels).lookup (lib.lower name)).isSome = true
    rw [lower_formatName hlower hname]
    exact registry_isSome hname
  have hextension : extension rt' upload = lib.lower (uploadFormat rt' upload) := by rw [← hrt]; rfl
  generalize hkey : extension rt' upload = key at *
  cases hstores with
  | plain hvideo hanimated hfile =>
    have hplain : ∀ types ∈ plainTypes,
        types.1 ∈ formatNames ∧ mimeTypeOf types.1 = some types.2 ∧ startsWith types.2 "video/" = false := by decide
    obtain ⟨hname, hmime, hnotVideo⟩ := hplain _ hfile
    have hnotFormat : key ∉ videoFormats := by
      intro hmem
      exact hvideo ((by decide : ∀ name ∈ videoFormats, name ∈ videoExtensions) key hmem)
    constructor
    · intro hagree
      refine ⟨fun hstarts => ?_, fun hm4v => ?_, fun hkey' => ?_⟩
      · have hmime' : startsWith file.mimeType "video/" = true := hagree.mediaType.mp (hmediaType.mpr (.inl hstarts))
        rw [hnotVideo] at hmime'
        cases hmime'
      · rw [hkey] at hm4v
        rw [hm4v] at hvideo
        exact absurd (by decide) hvideo
      · rw [hkey] at hkey'
        exact absurd hkey' hanimated
    · intro hnamed
      refine ⟨?_, hmime, hprocessor _ hname⟩
      rw [hmediaType]
      show _ ↔ startsWith file.mimeType "video/" = true
      rw [hnotVideo]
      constructor
      · rintro (hstarts | hmem)
        · exact absurd (hkey ▸ hnamed.video hstarts) hvideo
        · exact absurd hmem hnotFormat
      · intro hfalse
        cases hfalse
  | animated image hanimated hopen hformat hmime =>
    have hnotVideo : startsWith file.mimeType "video/" = false := by
      rw [hmime]
      rcases hanimated with rfl | rfl <;> decide
    have hknown : key ∈ formatNames ∧ key ∉ videoExtensions ∧ key ∉ videoFormats ∧ key ≠ "m4v" := by
      rcases hanimated with rfl | rfl <;> decide
    have hreads : ReadsAs lib payload key ↔ file.format = key := by
      rw [hformat, lower_hint _ hextension.symm (lower_formatName hlower hknown.1)]
      constructor
      · intro hall
        exact hall image hopen
      · intro hread image' hopen'
        cases hopen.symm.trans hopen'
        exact hread
    have hmimeType : mimeTypeOf file.format = some file.mimeType ↔ ReadsAs lib payload key := by
      rw [hreads, hmime]
      exact mimeTypeOf_animated hanimated
    constructor
    · intro hagree
      refine ⟨fun hstarts => ?_, fun hm4v => absurd (hkey.symm.trans hm4v) hknown.2.2.2, fun _ => ?_⟩
      · have hmime' : startsWith file.mimeType "video/" = true := hagree.mediaType.mp (hmediaType.mpr (.inl hstarts))
        rw [hnotVideo] at hmime'
        cases hmime'
      · rw [hkey]
        exact hmimeType.mp hagree.mimeType
    · intro hnamed
      have hread := hnamed.animated (hkey.symm ▸ hanimated)
      rw [hkey] at hread
      refine ⟨?_, hmimeType.mpr hread, ?_⟩
      · rw [hmediaType]
        show _ ↔ startsWith file.mimeType "video/" = true
        rw [hnotVideo]
        constructor
        · rintro (hstarts | hmem)
          · exact absurd (hkey ▸ hnamed.video hstarts) hknown.2.1
          · exact absurd hmem hknown.2.2.1
        · intro hfalse
          cases hfalse
      · show (rt'.getProcessor file.format).isSome = true
        rw [hreads.mp hread]
        exact hprocessor key hknown.1
  | video c hclass hsupported hformat hmime =>
    have hclasses : ∀ c ∈ videoClasses, c.format ∈ formatNames ∧ mimeTypeOf c.format = some c.mimeType ∧
        startsWith c.mimeType "video/" = true ∧ ∀ name ∈ c.supportedFormats,
          name ∈ videoExtensions ∧ ¬ (name = "gif" ∨ name = "webp") ∧ (name ∉ videoFormats → name = "m4v") := by decide
    obtain ⟨hname, hknown, hvideo, hformats⟩ := hclasses c hclass
    obtain ⟨hextensions, hnotAnimated, hm4v⟩ := hformats key hsupported
    rw [← hmime] at hvideo
    constructor
    · intro hagree
      refine ⟨fun _ => hkey ▸ hextensions, fun hm4v' => ?_, fun hanimated => absurd (hkey ▸ hanimated) hnotAnimated⟩
      rcases hmediaType.mp (hagree.mediaType.mpr hvideo) with hstarts | hmem
      · exact hstarts
      · rw [hkey] at hm4v'
        rw [hm4v'] at hmem
        exact absurd hmem (by decide)
    · intro hnamed
      refine ⟨?_, ?_, ?_⟩
      · rw [hmediaType]
        refine ⟨fun _ => hvideo, fun _ => ?_⟩
        by_cases hmem : key ∈ videoFormats
        · exact .inr hmem
        · exact .inl (hnamed.m4v (hkey.trans (hm4v hmem)))
      · show mimeTypeOf file.format = some file.mimeType
        rw [hformat, hmime, hknown]
      · show (rt'.getProcessor file.format).isSome = true
        rw [hformat]
        exact hprocessor _ hname

/-! ## The row that is written -/

/-- The row of this upload: the file was accepted. -/
def RowOfUpload (rt : Runtime) (albumId : String) (upload : UploadFile) (payload : Bytes) (user : Option User)
    (draws : Draws) (media : Media) : Prop :=
  ∃ metadata file now position, prepareMedia rt upload payload = .ok (metadata, file) ∧
    media = rowOf rt albumId upload user draws metadata file now position

/-- The request leaves the table of media alone, or inserts the row of this upload. -/
def Writes (rt : Runtime) (albumId : String) (upload : UploadFile) (payload : Bytes) (user : Option User) (draws : Draws)
    (r : Req) : Prop :=
  Req.changesMedia r = false ∨ ∃ media, RowOfUpload rt albumId upload payload user draws media ∧ r = .insertMedia media

theorem createMedia_writes (rt : Runtime) (albumId : String) (upload : UploadFile) (payload : Bytes)
    (correlationId : String) (actor : CurrentActor) (draws : Draws) :
    (createMedia rt albumId upload payload correlationId actor draws).Uses
      (Writes rt albumId upload payload actor.user draws) := by
  unfold createMedia
  apply uses_value
  rintro ⟨metadata, file⟩ hprepared
  apply uses_bind (uses_perform (.inl rfl))
  intro _
  apply uses_bind (uses_perform (.inl rfl))
  intro now
  apply uses_bind
  · apply uses_tryExcept
    · apply uses_bind (uses_perform (.inl rfl))
      intro _
      apply uses_bind (uses_perform (.inl rfl))
      intro position
      exact uses_perform (.inr ⟨_, ⟨metadata, file, now, position, hprepared, rfl⟩, rfl⟩)
    · intro e
      exact uses_bind (deleteStorageKeyBestEffort_uses (fun _ => .inl rfl) _) fun _ => trivial
  · intro media
    apply uses_bind (uses_perform (.inl rfl))
    intro _
    apply uses_bind (uses_perform (.inl rfl))
    intro refreshed
    trivial

/-- Since `w` no row has come but that of this upload. -/
def OnlyAdds (rt : Runtime) (albumId : String) (upload : UploadFile) (payload : Bytes) (user : Option User)
    (draws : Draws) (w w' : World) : Prop :=
  ∀ media ∈ w'.media, media ∈ w.media ∨ RowOfUpload rt albumId upload payload user draws media

theorem onlyAdds_answer {r : Req} {fault : Option PyExc} {w w' : World}
    (h : Writes rt albumId upload payload user draws r) (hw' : OnlyAdds rt albumId upload payload user draws w w') :
    OnlyAdds rt albumId upload payload user draws w (backend.answer 0 r fault w').2 := by
  intro media hin
  rcases h with hsame | ⟨row, hrow, rfl⟩
  · rw [answer_media hsame] at hin
    exact hw' media hin
  · rcases answer_cases 0 (.insertMedia row) fault w' with ha | ⟨e, -, ha⟩
    swap
    · rw [ha] at hin
      exact hw' media hin
    rw [ha] at hin
    simp only [exec, World.insertMedia] at hin
    split at hin
    · exact hw' media hin
    split at hin
    · rename_i t ht
      rcases (Table.mem_insert ht).mp hin with hold | rfl
      · exact hw' media hold
      · exact .inr hrow
    · exact hw' media hin

theorem createMedia_adds (rt : Runtime) (albumId : String) (upload : UploadFile) (payload : Bytes)
    (correlationId : String) (actor : CurrentActor) (draws : Draws) (ms : List (Moment PyExc)) (w : World) :
    OnlyAdds rt albumId upload payload actor.user draws w
      (runAlone backend (createMedia rt albumId upload payload correlationId actor draws) ms w).2 := by
  have hstep : ∀ r w', Writes rt albumId upload payload actor.user draws r →
      OnlyAdds rt albumId upload payload actor.user draws w w' →
      (backend.alone fun _ _ _ => True).can r w' ∧ ∀ x w'', (backend.alone fun _ _ _ => True).step r w' x w'' →
        OnlyAdds rt albumId upload payload actor.user draws w w'' := by
    intro r w' hr hw'
    refine ⟨trivial, ?_⟩
    rintro x w'' ⟨d, fault, -, h⟩
    have hanswer : (backend.answer 0 r fault (backend.elapse d w')).2 = w'' := by rw [h]
    rw [← hanswer]
    exact onlyAdds_answer hr hw'
  have hwp : wp (backend.alone fun _ _ _ => True) (fun _ w' => OnlyAdds rt albumId upload payload actor.user draws w w')
      (createMedia rt albumId upload payload correlationId actor draws) w :=
    wp_of_uses hstep (createMedia_writes rt albumId upload payload correlationId actor draws) (fun _ h => .inl h)
      fun _ _ h => h
  exact wp_alone hwp ms (meetsAlone_true _ _ _)

end

/-- A row that an upload has written, with whatever failures on the way: media type, format and MIME type agree exactly
    when the file is named right. -/
theorem stored_types_agree_iff {Image : Type} (lib : ProcessorLib Image) (hlower : LowersAscii lib.lower) (rt : Runtime)
    (maxPixels : ℤ) (albumId : String) (upload : UploadFile) (payload : Bytes) (correlationId : String)
    (actor : CurrentActor) (draws : Draws) (ms : List (Moment PyExc)) (w : World) (media : Media)
    (hin : media ∈ (runAlone backend
      (createMedia (withRegistry lib rt maxPixels) albumId upload payload correlationId actor draws) ms w).2.media)
    (hnew : media ∉ w.media) :
    TypesAgree (withRegistry lib rt maxPixels) media ↔ NamedRight lib (withRegistry lib rt maxPixels) upload payload := by
  rcases createMedia_adds _ _ _ _ _ _ _ _ _ media hin with hold | ⟨metadata, file, now, position, hprepared, rfl⟩
  · exact absurd hold hnew
  · exact rowOf_agrees_iff hlower hprepared

namespace Sample

/-- A GIF of one pixel. -/
def gif : Bytes :=
  [0x47, 0x49, 0x46, 0x38, 0x39, 0x61, 1, 0, 1, 0, 0x80, 0, 0, 0, 0, 0, 0xff, 0xff, 0xff, 0x21, 0xf9, 4, 1, 0, 0, 0, 0, 0x2c,
   0, 0, 0, 0, 1, 0, 1, 0, 0, 2, 2, 0x44, 1, 0, 0x3b]

/-- A PNG of one pixel. -/
def png : Bytes :=
  [0x89, 0x50, 0x4e, 0x47, 0x0d, 0x0a, 0x1a, 0x0a, 0, 0, 0, 0x0d, 0x49, 0x48, 0x44, 0x52, 0, 0, 0, 1, 0, 0, 0, 1, 8, 6, 0, 0,
   0, 0x1f, 0x15, 0xc4, 0x89, 0, 0, 0, 0x0a, 0x49, 0x44, 0x41, 0x54, 0x78, 0x9c, 0x63, 0, 1, 0, 0, 5, 0, 1, 0x0d, 0x0a, 0x2d,
   0xb4, 0, 0, 0, 0, 0x49, 0x45, 0x4e, 0x44, 0xae, 0x42, 0x60, 0x82]

/-- Knows the two pictures; an image is its format, and saving one gives the picture again. -/
def pillow : Pillow String where
  openImage payload :=
    if payload = gif then .ok "GIF" else if payload = png then .ok "PNG" else .error (.invalid "cannot identify image file")
  load _ := .ok ()
  size _ := (1, 1)
  format image := some image
  isAnimated _ := .ok false
  nFrames _ := .ok 1
  mime format := if format = "GIF" then some "image/gif" else if format = "PNG" then some "image/png" else none
  mode image := if image = "GIF" then "P" else "RGBA"
  hasTransparency _ := true
  getbands image := if image = "GIF" then ["P"] else ["R", "G", "B", "A"]
  iccProfile _ := none
  exifTranspose image := .ok image
  convert image _ := .ok image
  profileToProfile image _ _ := .ok image
  save _ format _ := if format = "GIF" then .ok gif else if format = "PNG" then .ok png else .error (.exception "KeyError")

/-- A video that `ffprobe` knows: 320 by 240, two seconds. -/
def mp4 : Bytes := [0, 0, 0, 0x18, 0x66, 0x74, 0x79, 0x70, 0x6d, 0x70, 0x34, 0x32]

def library : ProcessorLib String where
  lower s := String.ofList (s.toList.map Char.toLower)
  upper s := String.ofList (s.toList.map Char.toUpper)
  pillow := pillow
  thumbnail _ _ payload _ := .ok ⟨some payload, false, "jpg", payload.length⟩
  xml := ⟨fun _ => .error .parseError, fun _ => []⟩
  video := {
    probe := fun payload _ =>
      if payload = mp4 then .ok ⟨"h264", "avc1", some 320, some 240, some (.finite 2), 0⟩
      else .error (.processing "ffprobe failed with exit code 1")
    remux := fun original _ _ => .ok original }

theorem library_lowers : LowersAscii library.lower := fun _ _ => rfl

def mediaRuntime : Runtime := withRegistry library Service.Sample.runtime 50000000

def albumWorld : World := { Service.Sample.world with albums := .single Service.Sample.album }

def named (filename contentType : String) : UploadFile := ⟨some filename, some contentType, []⟩

/-- The world after the upload of a payload to the album `a`. -/
def after (file : UploadFile) (payload : Bytes) : World :=
  (runAlone backend (createMedia mediaRuntime "a" file payload "c" ⟨none, "web"⟩ Service.Sample.firstDraws) [] albumWorld).2

/-- The row that an upload leaves there. -/
def row (file : UploadFile) (metadata : MediaMetadata) (stored : SanitizedFile) : Media :=
  rowOf mediaRuntime "a" file none Service.Sample.firstDraws metadata stored 0 1000

def onePixel : MediaMetadata := ⟨some 1, some 1, none, none, false, "", "", 0⟩

def twoSeconds : MediaMetadata := ⟨some 320, some 240, some 2, none, true, "", "", 0⟩

end Sample

open Sample in
theorem a_gif_is_stored_as_a_gif :
    TypesAgree mediaRuntime (row (named "a.gif" "image/gif") onePixel ⟨gif, "image/gif", "gif"⟩) ↔
      NamedRight library mediaRuntime (named "a.gif" "image/gif") gif :=
  stored_types_agree_iff library library_lowers Service.Sample.runtime 50000000 "a" (named "a.gif" "image/gif") gif "c"
    ⟨none, "web"⟩ Service.Sample.firstDraws [] albumWorld
    (row (named "a.gif" "image/gif") onePixel ⟨gif, "image/gif", "gif"⟩) (Table.mem_def.mpr (by decide +kernel))
    (mt Table.mem_def.mp (by decide +kernel))

open Sample in
/-- A PNG that is named as a GIF is stored as a `png` of type `image/gif`; one that is sent as a video is stored as a
    video of type `image/png`; and a video named `m4v` without a video's content type is stored
    as an image of type `video/mp4`. -/
theorem three_rows_that_disagree :
    (∃ m ∈ (after (named "a.gif" "image/gif") png).media,
        m.format = "png" ∧ m.mimeType = "image/gif" ∧ ¬ TypesAgree mediaRuntime m) ∧
      (∃ m ∈ (after (named "a.png" "video/mp4") png).media,
        m.mediaType = .video ∧ m.mimeType = "image/png" ∧ ¬ TypesAgree mediaRuntime m) ∧
      ∃ m ∈ (after (named "a.m4v" "application/octet-stream") mp4).media,
        m.mediaType = .image ∧ m.mimeType = "video/mp4" ∧ ¬ TypesAgree mediaRuntime m := by
  refine ⟨⟨row (named "a.gif" "image/gif") onePixel ⟨png, "image/gif", "png"⟩, Table.mem_def.mpr (by decide +kernel), rfl, rfl, ?_⟩,
    ⟨row (named "a.png" "video/mp4") onePixel ⟨png, "image/png", "png"⟩, Table.mem_def.mpr (by decide +kernel), by decide +kernel,
      rfl, ?_⟩,
    ⟨row (named "a.m4v" "application/octet-stream") twoSeconds ⟨mp4, "video/mp4", "mp4"⟩, Table.mem_def.mpr (by decide +kernel),
      by decide +kernel, rfl, ?_⟩⟩
  · intro hagree
    exact absurd hagree.mimeType (by decide +kernel)
  · intro hagree
    exact absurd hagree.mediaType (by decide +kernel)
  · intro hagree
    exact absurd hagree.mediaType (by decide +kernel)

end Imghost.Processors
