/-
  Imghost.Web.Media — `stream_media`: an original or a thumbnail, whole or in part.

  The header is read against the size in the row; the storage is asked for the range it came to,
  reads that header again against the size of the object, and cuts the range into chunks. With the
  two sizes equal, and for every object, chunk size and header,

  - a refused header is answered 416, the others with the bytes of the range, 206 and their
    `Content-Range`, or with the whole object and 200;
  - the local backend and S3 answer alike, and the second reading finds the range of the first

  exactly when `int` takes the numbers of the header (`ranged_streaming_iff`): it raises at a
  superscript digit, which is neither refused nor served (`a_superscript_digit_is_not_answered`).
-/

import Imghost.Model.Runtime
import Imghost.Service.Operations
import Imghost.Storage.Streams

namespace Imghost.Web

open Imghost.Model Imghost.Storage Imghost.Data

/-! ## Ids and media types -/

/-- `s.rsplit(".", 1)`: before the last dot, if there is one, and after it. -/
def rsplitDot (s : List Char) : List Char × List Char :=
  if '.' ∈ s then (((s.reverse.dropWhile (· != '.')).drop 1).reverse, (s.reverse.takeWhile (· != '.')).reverse) else (s, s)

/-- `extract_media_id`. -/
def extractMediaId (rt : Runtime) (rawId : String) : String := rt.lower (String.ofList (rsplitDot rawId.toList).1)

def isValidId (rt : Runtime) (value : String) (length : Nat) : Bool :=
  let normalized := rt.lower value
  normalized.length == length && normalized.toList.all (alphabet.contains ·)

/-- `not text`, of an optional string. -/
def falsy (text : Option String) : Bool := text.getD "" == ""

def thumbFormat (rt : Runtime) (item : Media) : String :=
  if item.thumbIsOrig || falsy item.thumbKey then item.format
  else rt.lower (String.ofList (rsplitDot (item.thumbKey.getD "").toList).2)

def thumbMediaType (rt : Runtime) (item : Media) : String :=
  match thumbFormat rt item with
  | "jpg" | "jpeg" => "image/jpeg"
  | "webp" => "image/webp"
  | "png" => "image/png"
  | "gif" => "image/gif"
  | "bmp" => "image/bmp"
  | _ => item.mimeType

/-! ## stream_media -/

structure MediaResponse where
  statusCode : Nat
  mediaType : Option String
  headers : List (String × String)
  body : List Bytes
  deriving DecidableEq, Repr

/-- What leaves the route: an answer of its own, or an exception of the storage. -/
inductive MediaExc where
  | http (status : Nat) (headers : List (String × String))
  | raised (e : StreamExc)
  deriving DecidableEq, Repr

/-- `total_size`: what the row says of the size of the object. -/
def totalSize (media : Media) (thumb : Bool) : Nat :=
  if !thumb || media.thumbIsOrig || media.thumbSize.getD 0 == 0 then media.fileSize else media.thumbSize.getD 0

/-- The object the route streams. -/
def streamedKey (media : Media) (thumb : Bool) : String :=
  if !thumb || media.thumbIsOrig || falsy media.thumbKey then media.storageKey else media.thumbKey.getD ""

/-- The answer with a stream. -/
def mediaResponse (rt : Runtime) (media : Media) (thumb : Bool) (stream : StorageStream) : MediaResponse where
  statusCode := stream.statusCode
  mediaType := some (if thumb then thumbMediaType rt media else media.mimeType)
  headers := [("Accept-Ranges", "bytes"), ("Cache-Control", "public, max-age=31536000, immutable"),
      ("ETag", "\"" ++ media.id ++ "\"")] ++
    if falsy stream.contentRange then [] else [("Content-Range", stream.contentRange.getD "")]
  body := stream.body

variable (rt : Runtime) (getStream : String → Option String → Except StreamExc StorageStream)

/-- The route from the byte range on. -/
def streamRange (media : Media) (thumb : Bool) (rangeHeader : Option String) : Except MediaExc MediaResponse :=
  match normalizeByteRange rangeHeader (totalSize media thumb) with
  | .error (.invalidByteRange _) => .error (.http 416 [("Content-Range", "bytes */" ++ toString (totalSize media thumb))])
  | .error .valueError => .error (.raised .valueError)
  | .ok byteRange =>
    match getStream (streamedKey media thumb) (byteRange.map headerValue) with
    | .error e => .error (.raised e)
    | .ok stream => .ok (mediaResponse rt media thumb stream)

def streamMedia (w : World) (rawId : String) (thumb : Bool) (rangeHeader : Option String) : Except MediaExc MediaResponse :=
  let mediaId := extractMediaId rt rawId
  if !isValidId rt mediaId mediaIdLength then .error (.http 404 [])
  else
    match w.media.find? mediaId with
    | none => .error (.http 404 [])
    | some media =>
      match w.albums.find? media.albumId with
      | none => .error (.http 404 [])
      | some album =>
        if isExpired w.clock album.expiresAt then .error (.http 404 [])
        else if thumb && (media.thumbStatus == .pending || media.thumbStatus == .processing) then
          .ok { statusCode := 202, mediaType := none, headers := [], body := [] }
        else if thumb && media.thumbStatus == .failed then .error (.http 404 [])
        else streamRange rt getStream media thumb rangeHeader

/-! ## What is answered -/

/-- The item is there, in an album that has not expired, and so is its thumbnail if that is what
    is asked for. -/
structure Streamable (rt : Runtime) (w : World) (rawId : String) (thumb : Bool) (media : Media) : Prop where
  id : isValidId rt (extractMediaId rt rawId) mediaIdLength = true
  row : w.media.find? (extractMediaId rt rawId) = some media
  album : ∃ album, w.albums.find? media.albumId = some album ∧ isExpired w.clock album.expiresAt = false
  ready : thumb = true → media.thumbStatus = .done

variable {rt getStream} {w : World} {rawId : String} {thumb : Bool} {media : Media}

theorem streamMedia_eq (h : Streamable rt w rawId thumb media) (rangeHeader : Option String) :
    streamMedia rt getStream w rawId thumb rangeHeader = streamRange rt getStream media thumb rangeHeader := by
  obtain ⟨album, halbum, hlive⟩ := h.album
  have hpending : (thumb && (media.thumbStatus == .pending || media.thumbStatus == .processing)) = false := by
    cases thumb with
    | false => rfl
    | true => rw [h.ready rfl]; rfl
  have hfailed : (thumb && media.thumbStatus == .failed) = false := by
    cases thumb with
    | false => rfl
    | true => rw [h.ready rfl]; rfl
  simp [streamMedia, h.id, h.row, halbum, hlive, hpending, hfailed]

/-- What the route owes a header, for an object `data`: 416 for one that is refused, and nothing
    else than the bytes asked for otherwise. -/
structure Served (data : Bytes) (rangeHeader : Option String) (result : Except MediaExc MediaResponse) : Prop where
  refused : (∃ headers, result = .error (.http 416 headers)) ↔ ∃ e, normalizeByteRange rangeHeader data.length = .error e
  served : ∀ byteRange, normalizeByteRange rangeHeader data.length = .ok byteRange → ∃ response, result = .ok response ∧
    response.statusCode = (if byteRange.isSome then 206 else 200) ∧
    response.headers.lookup "Content-Range" = byteRange.map (fun range => contentRangeOf range data.length) ∧
    response.body.flatten = (byteRange.map (slice data)).getD data

theorem contentRangeOf_ne_empty (range : ByteRange) (size : Int) : contentRangeOf range size ≠ "" := by
  intro h
  have hlist := congrArg String.toList h
  simp [contentRangeOf, contentRangeValue, String.toList_append] at hlist

theorem mediaResponse_contentRange {stream : StorageStream} {data : Bytes} {byteRange : Option ByteRange}
    (h : Delivers stream data byteRange) : (mediaResponse rt media thumb stream).headers.lookup "Content-Range" =
      byteRange.map fun range => contentRangeOf range data.length := by
  rw [mediaResponse, h.range]
  cases byteRange with
  | none => simp [falsy, List.lookup_cons]
  | some range => simp [falsy, contentRangeOf_ne_empty, List.lookup_cons]

/-- A storage that streams as it has to is enough for the route, and for nothing at a header that
    `int` does not take. -/
theorem served_iff (h : Streamable rt w rawId thumb media) {data : Bytes} (hsize : totalSize media thumb = data.length)
    (hrow : (totalSize media thumb : Int) ≤ bigintMax)
    (hstream : ∀ rangeHeader, StreamsAs (getStream (streamedKey media thumb) rangeHeader) data rangeHeader)
    (rangeHeader : Option String) :
    Served data rangeHeader (streamMedia rt getStream w rawId thumb rangeHeader) ↔
      ∀ header, rangeHeader = some header → Converts header data.length := by
  rw [streamMedia_eq h]
  unfold streamRange
  rw [hsize] at hrow ⊢
  cases hnormal : normalizeByteRange rangeHeader data.length with
  | error e =>
    cases e with
    | invalidByteRange size =>
      refine iff_of_true ⟨iff_of_true ⟨_, rfl⟩ ⟨_, hnormal⟩, fun byteRange hok => ?_⟩ ?_
      · cases hnormal.symm.trans hok
      · rintro header rfl
        by_contra hc
        cases hnormal.symm.trans ((normalize_valueError_iff header _).mpr hc)
    | valueError =>
      refine iff_of_false ?_ ?_
      · intro hserved
        obtain ⟨headers, hanswer⟩ := hserved.refused.mpr ⟨_, hnormal⟩
        cases hanswer
      · intro hconverts
        cases rangeHeader with
        | none => cases hnormal
        | some header => exact (normalize_valueError_iff header _).mp hnormal (hconverts header rfl)
  | ok byteRange =>
    refine iff_of_true ?_ ?_
    · -- the second reading finds the range of the first
      have hagain : normalizeByteRange (byteRange.map headerValue) data.length = .ok byteRange := by
        cases byteRange with
        | none => rfl
        | some range =>
          obtain ⟨hstart, horder, hstop⟩ := normalize_bounds hnormal
          exact normalize_headerValue hstart horder hstop hrow
      have hanswer := hstream (byteRange.map headerValue)
      unfold StreamsAs at hanswer
      rw [hagain] at hanswer
      obtain ⟨stream, hok, hdelivers⟩ := hanswer
      dsimp only
      rw [hok]
      constructor
      · refine iff_of_false ?_ ?_
        · rintro ⟨headers, he⟩
          cases he
        · rintro ⟨e, he⟩
          cases hnormal.symm.trans he
      · intro byteRange' hok'
        obtain rfl := Except.ok.inj (hnormal.symm.trans hok')
        exact ⟨_, rfl, hdelivers.status, mediaResponse_contentRange hdelivers, hdelivers.bytes⟩
    · rintro header rfl
      by_contra hc
      cases hnormal.symm.trans ((normalize_valueError_iff header _).mpr hc)

/-- Both backends serve the range, alike, and a canonical header is read as it was written: exactly
    when `int` takes every number it is given. -/
theorem ranged_streaming_iff (rt : Runtime) (chunkSize : Nat) (hchunk : 0 < chunkSize) (w : World) (rawId : String)
    (thumb : Bool) (media : Media) (h : Streamable rt w rawId thumb media) (data : Bytes)
    (hobject : w.objects (streamedKey media thumb) = some data) (hsize : totalSize media thumb = data.length)
    (hrow : (totalSize media thumb : Int) ≤ bigintMax) (client : S3Client)
    (hclient : Honours client (streamedKey media thumb) data) (rangeHeader : Option String) :
    (Served data rangeHeader (streamMedia rt (localGetStream chunkSize w.objects) w rawId thumb rangeHeader) ∧
      Served data rangeHeader (streamMedia rt (s3GetStream chunkSize client) w rawId thumb rangeHeader) ∧
      (∀ range, normalizeByteRange rangeHeader data.length = .ok (some range) →
        normalizeByteRange (some (headerValue range)) data.length = .ok (some range)) ∧
      ∀ header, SameStream (localGetStream chunkSize w.objects (streamedKey media thumb) header)
        (s3GetStream chunkSize client (streamedKey media thumb) header)) ↔
      ∀ header, rangeHeader = some header → Converts header data.length := by
  have hcanonical : ∀ range, normalizeByteRange rangeHeader data.length = .ok (some range) →
      normalizeByteRange (some (headerValue range)) data.length = .ok (some range) := by
    intro range hnormal
    obtain ⟨hstart, horder, hstop⟩ := normalize_bounds hnormal
    exact normalize_headerValue hstart horder hstop (hsize ▸ hrow)
  have hlocal := served_iff h hsize hrow (fun _ => local_streams hchunk hobject) rangeHeader
  have hs3 := served_iff h hsize hrow (fun _ => s3_streams hchunk hclient) rangeHeader
  constructor
  · rintro ⟨hserved, -⟩
    exact hlocal.mp hserved
  · intro hconverts
    exact ⟨hlocal.mpr hconverts, hs3.mpr hconverts, hcanonical, fun _ => backends_agree hchunk hobject hclient⟩

/-! ## Ten bytes -/

namespace Sample

def item : Media := { Service.Sample.media "abcdefghjkmn" with fileSize := 10 }

def tenBytes : Bytes := [0, 1, 2, 3, 4, 5, 6, 7, 8, 9]

def library : World :=
  { Service.Sample.world with
    albums := .single Service.Sample.album
    media := .single item
    objects := fun key => if key = item.storageKey then some tenBytes else none }

/-- An object storage that keeps one object and reads a range as this service does. -/
def bucket (data : Bytes) : S3Client where
  headObject _ := some data.length
  getObject _ range :=
    match range with
    | none => some ⟨data, some data.length, none, none⟩
    | some header =>
      match normalizeByteRange (some header) data.length with
      | .ok (some range) =>
        some ⟨slice data range, some (range.stop - range.start + 1), some (contentRangeOf range data.length), none⟩
      | _ => none

theorem bucket_honours {data : Bytes} (hsize : (data.length : Int) ≤ bigintMax) (key : String) :
    Honours (bucket data) key data := by
  refine ⟨rfl, ⟨none, rfl⟩, ?_⟩
  intro range hstart horder hstop
  refine ⟨none, ?_⟩
  simp only [bucket]
  rw [normalize_headerValue hstart horder hstop hsize]

theorem item_streamable : Streamable Service.Sample.runtime library "abcdefghjkmn.png" false item where
  id := by decide +kernel
  row := by decide +kernel
  album := ⟨Service.Sample.album, by decide +kernel, by decide +kernel⟩
  ready := nofun

end Sample

open Sample in
/-- Bytes 2 to 5, in chunks of three. -/
theorem four_bytes_are_served :
    (Served tenBytes (some "bytes=2-5")
        (streamMedia Service.Sample.runtime (localGetStream 3 library.objects) library "abcdefghjkmn.png" false
          (some "bytes=2-5")) ∧
      Served tenBytes (some "bytes=2-5")
        (streamMedia Service.Sample.runtime (s3GetStream 3 (bucket tenBytes)) library "abcdefghjkmn.png" false
          (some "bytes=2-5")) ∧
      (∀ range, normalizeByteRange (some "bytes=2-5") tenBytes.length = .ok (some range) →
        normalizeByteRange (some (headerValue range)) tenBytes.length = .ok (some range)) ∧
      ∀ header, SameStream (localGetStream 3 library.objects (streamedKey item false) header)
        (s3GetStream 3 (bucket tenBytes) (streamedKey item false) header)) ↔
      ∀ header, some "bytes=2-5" = some header → Converts header tenBytes.length :=
  ranged_streaming_iff Service.Sample.runtime 3 (by decide) library "abcdefghjkmn.png" false item item_streamable tenBytes
    (by decide +kernel) (by decide +kernel) (by decide +kernel) (bucket tenBytes) (bucket_honours (by decide +kernel) _)
    (some "bytes=2-5")

open Sample in
/-- `²` passes `isdigit` and not `int`: neither 416 nor bytes. -/
theorem a_superscript_digit_is_not_answered :
    streamMedia Service.Sample.runtime (localGetStream 3 library.objects) library "abcdefghjkmn.png" false
        (some "bytes=²-") = .error (.raised .valueError) ∧
      ¬ Served tenBytes (some "bytes=²-") (streamMedia Service.Sample.runtime (localGetStream 3 library.objects) library
        "abcdefghjkmn.png" false (some "bytes=²-")) := by
  have hraises : streamMedia Service.Sample.runtime (localGetStream 3 library.objects) library "abcdefghjkmn.png" false
      (some "bytes=²-") = .error (.raised .valueError) := by decide +kernel
  have hrefused : normalizeByteRange (some "bytes=²-") tenBytes.length = .error .valueError := by decide +kernel
  refine ⟨hraises, fun hserved => ?_⟩
  obtain ⟨headers, hanswer⟩ := hserved.refused.mpr ⟨_, hrefused⟩
  cases hraises.symm.trans hanswer

open Sample in
example : (streamMedia Service.Sample.runtime (localGetStream 3 library.objects) library "abcdefghjkmn.png" false
    (some "bytes=2-5")).toOption.map (·.body) = some [[2, 3, 4], [5]] := by
  decide +kernel

end Imghost.Web
