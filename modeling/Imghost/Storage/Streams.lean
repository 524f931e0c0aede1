/-
  Imghost.Storage.Streams — `get_stream` of the two storage backends.

  The local backend seeks and reads chunks until a counter is used up; the S3 backend looks up the
  size, asks for the range and reads until nothing comes. What S3 does is a parameter (`S3Client`,
  `Honours`): it is asked for one canonical range at most.

  - A range written back as a header is read as the same range (`normalize_headerValue`).
  - The chunks of either loop make up the range, whatever the chunk size (`readChunks_flatten`,
    `readAll_flatten`).
  - For every header the two backends answer the same (`backends_agree`).
-/

import Imghost.Model.World
import Imghost.Web.ByteRange

namespace Imghost.Storage

open Imghost.Model Imghost.Web Imghost.Data

/-! ## Streams -/

structure StorageStream where
  statusCode : Nat
  contentType : String
  contentLength : Option Int
  contentRange : Option String
  /-- The chunks the iterator yields. -/
  body : List Bytes
  deriving DecidableEq, Repr

inductive StreamExc where
  | invalidByteRange (size : Int)
  | valueError
  | missing
  deriving DecidableEq, Repr

def StreamExc.ofRange : RangeExc → StreamExc
  | .invalidByteRange size => .invalidByteRange size
  | .valueError => .valueError

/-- `ByteRange.header_value`. -/
def headerValue (range : ByteRange) : String := "bytes=" ++ toString range.start ++ "-" ++ toString range.stop

/-- `ByteRange.content_range_value`. -/
def contentRangeValue (range : ByteRange) : String := "bytes " ++ toString range.start ++ "-" ++ toString range.stop

/-- `f"{byte_range.content_range_value}/{size}"`. -/
def contentRangeOf (range : ByteRange) (size : Int) : String := contentRangeValue range ++ "/" ++ toString size

/-! ## LocalFilesystemBackend -/

/-- The loop of the iterator: `rest` is the file from the current position on. -/
def readChunks (chunkSize : Nat) (rest : Bytes) (remaining : Nat) : List Bytes :=
  if 0 < remaining then
    let chunk := rest.take (min chunkSize remaining)
    if chunk.length = 0 then [] else chunk :: readChunks chunkSize (rest.drop chunk.length) (remaining - chunk.length)
  else []
termination_by remaining
decreasing_by
  rename_i hmore
  change ¬ (rest.take (min chunkSize remaining)).length = 0 at hmore
  omega

def localGetStream (chunkSize : Nat) (objects : String → Option Bytes) (key : String) (rangeHeader : Option String) :
    Except StreamExc StorageStream :=
  match objects key with
  | none => .error .missing
  | some data =>
    match normalizeByteRange rangeHeader data.length with
    | .error e => .error (.ofRange e)
    | .ok byteRange =>
      let start := (byteRange.map (·.start)).getD 0
      let stop := (byteRange.map (·.stop)).getD (data.length - 1)
      let length := max 0 (stop - start + 1)
      .ok { statusCode := if byteRange.isSome then 206 else 200
            contentType := "application/octet-stream"
            contentLength := some length
            contentRange := byteRange.map fun range => contentRangeOf range data.length
            body := readChunks chunkSize (data.drop start.toNat) length.toNat }

/-! ## S3StorageBackend -/

structure S3Response where
  body : Bytes
  contentLength : Option Int
  contentRange : Option String
  contentType : Option String
  deriving DecidableEq, Repr

/-- The two calls `get_stream` makes; `none` when they raise. -/
structure S3Client where
  /-- `head_object(…)["ContentLength"]`. -/
  headObject : String → Option Int
  /-- `get_object`, with its `Range`. -/
  getObject : String → Option String → Option S3Response

/-- The loop of the iterator: what `body.read` gives until it gives nothing. -/
def readAll (chunkSize : Nat) (rest : Bytes) : List Bytes :=
  let chunk := rest.take chunkSize
  if chunk.length = 0 then [] else chunk :: readAll chunkSize (rest.drop chunk.length)
termination_by rest.length
decreasing_by
  rename_i hmore
  change ¬ (rest.take chunkSize).length = 0 at hmore
  have hlength := List.length_take_le' chunkSize rest
  rw [List.length_drop]
  omega

/-- The `Range` parameter of `_get_stream_sync`. -/
def s3Range (client : S3Client) (key : String) (rangeHeader : Option String) : Except StreamExc (Option String) :=
  match rangeHeader.filter (· != "") with
  | none => .ok none
  | some header =>
    match client.headObject key with
    | none => .error .missing
    | some size =>
      match normalizeByteRange (some header) size with
      | .error e => .error (.ofRange e)
      | .ok byteRange => .ok (some ((byteRange.map headerValue).getD header))

/-- The stream of a response. -/
def s3Stream (chunkSize : Nat) (rangeHeader : Option String) (response : S3Response) : StorageStream where
  statusCode := if (rangeHeader.filter (· != "")).isSome then 206 else 200
  contentType := strOr response.contentType "application/octet-stream"
  contentLength := response.contentLength
  contentRange := response.contentRange
  body := readAll chunkSize response.body

def s3GetStream (chunkSize : Nat) (client : S3Client) (key : String) (rangeHeader : Option String) :
    Except StreamExc StorageStream := do
  let range ← s3Range client key rangeHeader
  match client.getObject key range with
  | none => .error .missing
  | some response => .ok (s3Stream chunkSize rangeHeader response)

/-! ## The bytes of a range -/

/-- The bytes from `start` to `stop`, both included. -/
def slice (data : Bytes) (range : ByteRange) : Bytes :=
  (data.drop range.start.toNat).take (range.stop - range.start + 1).toNat

/-- S3 keeps the object: it knows its size, gives the whole of it, and honours a range that lies
    in it. -/
structure Honours (client : S3Client) (key : String) (data : Bytes) : Prop where
  size : client.headObject key = some (data.length : Int)
  whole : ∃ contentType, client.getObject key none = some ⟨data, some data.length, none, contentType⟩
  range : ∀ range : ByteRange, 0 ≤ range.start → range.start ≤ range.stop → range.stop < data.length →
    ∃ contentType, client.getObject key (some (headerValue range)) =
      some ⟨slice data range, some (range.stop - range.start + 1), some (contentRangeOf range data.length), contentType⟩

variable {chunkSize : Nat}

theorem readChunks_flatten (hchunk : 0 < chunkSize) (rest : Bytes) (remaining : Nat) :
    (readChunks chunkSize rest remaining).flatten = rest.take remaining := by
  induction rest, remaining using readChunks.induct chunkSize with
  | case1 rest remaining hpos chunk hempty =>
    rw [readChunks, if_pos hpos, if_pos hempty, List.flatten_nil]
    have hlength : min (min chunkSize remaining) rest.length = 0 := (List.length_take ..).symm.trans hempty
    have hnil : rest = [] := List.length_eq_zero_iff.mp (by omega)
    rw [hnil, List.take_nil]
  | case2 rest remaining hpos chunk hmore ih =>
    rw [readChunks, if_pos hpos, if_neg hmore, List.flatten_cons, ih]
    have hlength : chunk.length = min (min chunkSize remaining) rest.length := List.length_take ..
    calc chunk ++ (rest.drop chunk.length).take (remaining - chunk.length)
        = rest.take chunk.length ++ (rest.drop chunk.length).take (remaining - chunk.length) := by
          congr 1
          exact (List.take_eq_take_iff.mpr (by omega))
      _ = rest.take (chunk.length + (remaining - chunk.length)) := List.take_add.symm
      _ = rest.take remaining := by congr 1; omega
  | case3 rest remaining hzero =>
    rw [readChunks, if_neg hzero, List.flatten_nil]
    have hnone : remaining = 0 := by omega
    rw [hnone, List.take_zero]

theorem readAll_flatten (hchunk : 0 < chunkSize) (rest : Bytes) : (readAll chunkSize rest).flatten = rest := by
  induction rest using readAll.induct chunkSize with
  | case1 rest chunk hempty =>
    rw [readAll, if_pos hempty, List.flatten_nil]
    have hlength : min chunkSize rest.length = 0 := (List.length_take ..).symm.trans hempty
    exact (List.length_eq_zero_iff.mp (by omega)).symm
  | case2 rest chunk hmore ih =>
    rw [readAll, if_neg hmore, List.flatten_cons, ih]
    have hlength : chunk.length = min chunkSize rest.length := List.length_take ..
    calc chunk ++ rest.drop chunk.length = rest.take chunk.length ++ rest.drop chunk.length := by
          congr 1
          exact (List.take_eq_take_iff.mpr (by omega))
      _ = rest := List.take_append_drop ..

/-! ## Canonical headers -/

theorem rangeOfFields_bounds {start stop : List Char} {size : Int} (hsize : 0 < size) {range : ByteRange}
    (h : rangeOfFields start stop size = .ok (some range)) :
    0 ≤ range.start ∧ range.start ≤ range.stop ∧ range.stop < size := by
  unfold rangeOfFields at h
  split at h
  · split at h
    · cases h
    · split at h
      · cases h
      · split at h
        · cases h
        · rename_i a _ hlt
          split at h
          · split at h
            · cases h
            · split at h
              · cases h
              · rename_i b _
                split at h
                · cases h
                · rename_i hback
                  obtain rfl := Option.some.inj (Except.ok.inj h)
                  dsimp only
                  omega
          · obtain rfl := Option.some.inj (Except.ok.inj h)
            dsimp only
            omega
  · split at h
    · cases h
    · split at h
      · cases h
      · rename_i n _
        split at h
        · cases h
        · rename_i hpos
          obtain rfl := Option.some.inj (Except.ok.inj h)
          dsimp only
          omega

/-- A range the header is read as lies in the file. -/
theorem normalize_bounds {header : Option String} {size : Int} {range : ByteRange}
    (h : normalizeByteRange header size = .ok (some range)) :
    0 ≤ range.start ∧ range.start ≤ range.stop ∧ range.stop < size := by
  unfold normalizeByteRange at h
  split at h
  · cases h
  · split at h
    · cases h
    · split at h
      · cases h
      · rename_i hrefused
        have hsize : 0 < size := by
          by_contra hneg
          apply hrefused
          simp [Int.not_lt.mp hneg]
        dsimp only at h
        split at h
        · cases h
        · split at h
          · cases h
          · exact rangeOfFields_bounds hsize h

theorem normalize_none {header : Option String} {size : Int} (h : normalizeByteRange header size = .ok none) :
    header.filter (· != "") = none := by
  unfold normalizeByteRange at h
  split at h
  · rfl
  · split at h
    · rename_i hempty
      rw [hempty]
      rfl
    · split at h
      · cases h
      · dsimp only at h
        split at h
        · cases h
        · split at h
          · cases h
          · exact absurd h (rangeOfFields_ne_none _ _ _)

theorem digits_length {n : Nat} (h : (n : Int) ≤ bigintMax) : (Nat.toDigits 10 n).length ≤ intMaxStrDigits := by
  have hlt : n < 10 ^ 19 := by
    have hmax : bigintMax = 9223372036854775807 := by decide
    rw [hmax] at h
    omega
  have hshort : (Nat.toDigits 10 n).length ≤ 19 := (Nat.length_toDigits_le_iff (by decide) (by decide)).mpr hlt
  exact hshort.trans (by decide)

theorem digit_facts {n : Nat} {c : Char} (hc : c ∈ Nat.toDigits 10 n) : isSpace c = false ∧ c ≠ '-' ∧ c ≠ ',' := by
  have hdigit := Nat.isDigit_of_mem_toDigits (by decide) (by decide) hc
  have hrange : 48 ≤ c.toNat ∧ c.toNat ≤ 57 := by
    simpa [Char.isDigit, UInt32.le_iff_toNat_le] using hdigit
  refine ⟨?_, ?_, ?_⟩
  · simp only [isSpace, Bool.or_eq_false_iff, Bool.and_eq_false_iff, decide_eq_false_iff_not, beq_eq_false_iff_ne]
    omega
  · rintro rfl
    exact absurd hrange (by decide)
  · rintro rfl
    exact absurd hrange (by decide)

theorem trimmed_digits (n : Nat) : Trimmed isSpace (Nat.toDigits 10 n) := by
  constructor
  · intro c rest h
    exact (digit_facts (h ▸ List.mem_cons_self)).1
  · intro c rest h
    exact (digit_facts (n := n) (h ▸ List.mem_append_right rest List.mem_cons_self)).1

/-- The header of a range has the range's two numbers as its fields. -/
theorem headerValue_layout (a b : Nat) : Layout (headerValue ⟨a, b⟩) (Nat.toDigits 10 a) (Nat.toDigits 10 b) := by
  refine ⟨⟨[], [], [], [], blank_nil, blank_nil, blank_nil, blank_nil, ?_⟩, trimmed_digits a, trimmed_digits b, ?_, ?_, ?_⟩
  · have htext (n : Nat) : (toString (n : Int)).toList = Nat.toDigits 10 n := Nat.toList_repr
    simp only [headerValue, String.toList_append, htext]
    simp
  · exact fun h => (digit_facts h).2.1 rfl
  · exact fun h => (digit_facts h).2.2 rfl
  · exact fun h => (digit_facts h).2.2 rfl

/-- Reading a canonical header changes nothing. -/
theorem normalize_headerValue {range : ByteRange} {size : Int} (hstart : 0 ≤ range.start) (horder : range.start ≤ range.stop)
    (hstop : range.stop < size) (hsize : size ≤ bigintMax) :
    normalizeByteRange (some (headerValue range)) size = .ok (some range) := by
  obtain ⟨start, stop⟩ := range
  dsimp only at hstart horder hstop
  obtain ⟨a, rfl⟩ := Int.eq_ofNat_of_zero_le hstart
  obtain ⟨b, rfl⟩ := Int.eq_ofNat_of_zero_le (hstart.trans horder)
  rw [normalize_of_layout (by omega) (headerValue_layout a b)]
  have hne (n : Nat) : Nat.toDigits 10 n ≠ [] := Nat.toDigits_ne_nil
  have ha := pyInt_toDigits (digits_length (n := a) (by omega))
  have hb := pyInt_toDigits (digits_length (n := b) (by omega))
  have hlt : ¬ (a : Int) ≥ size := by omega
  have hback : ¬ b < a := by omega
  have hmin : min (b : Int) (size - 1) = b := by omega
  simp only [rangeOfFields, ne_eq, hne, not_false_eq_true, if_true, isdigit_toDigits, ha, hb, hlt, hback, hmin, if_false,
    Bool.not_true, Bool.false_eq_true]

/-! ## What is delivered -/

/-- The stream has the status, the length, the range and the bytes asked for. -/
structure Delivers (stream : StorageStream) (data : Bytes) (byteRange : Option ByteRange) : Prop where
  status : stream.statusCode = if byteRange.isSome then 206 else 200
  length : stream.contentLength =
    some ((byteRange.map fun range => range.stop - range.start + 1).getD (data.length : Int))
  range : stream.contentRange = byteRange.map fun range => contentRangeOf range data.length
  bytes : stream.body.flatten = (byteRange.map (slice data)).getD data

/-- What `get_stream` has to do with a header, for an object `data`. -/
def StreamsAs (result : Except StreamExc StorageStream) (data : Bytes) (rangeHeader : Option String) : Prop :=
  match normalizeByteRange rangeHeader data.length with
  | .error e => result = .error (.ofRange e)
  | .ok byteRange => ∃ stream, result = .ok stream ∧ Delivers stream data byteRange

variable {data : Bytes} {key : String} {rangeHeader : Option String}

theorem local_streams (hchunk : 0 < chunkSize) {objects : String → Option Bytes} (hobject : objects key = some data) :
    StreamsAs (localGetStream chunkSize objects key rangeHeader) data rangeHeader := by
  simp only [StreamsAs, localGetStream, hobject]
  cases hnormal : normalizeByteRange rangeHeader data.length with
  | error e => rfl
  | ok byteRange =>
    refine ⟨_, rfl, ?_⟩
    cases byteRange with
    | none =>
      refine ⟨rfl, ?_, rfl, ?_⟩
      · simp
      · simp [readChunks_flatten hchunk]
    | some range =>
      obtain ⟨hstart, horder, hstop⟩ := normalize_bounds hnormal
      have hlength : max 0 (range.stop - range.start + 1) = range.stop - range.start + 1 := by omega
      refine ⟨rfl, ?_, rfl, ?_⟩
      · simp [hlength]
      · simp [readChunks_flatten hchunk, hlength, slice]

theorem s3_streams (hchunk : 0 < chunkSize) {client : S3Client} (hclient : Honours client key data) :
    StreamsAs (s3GetStream chunkSize client key rangeHeader) data rangeHeader := by
  unfold StreamsAs
  cases hheader : rangeHeader.filter (· != "") with
  | none =>
    have hnormal : normalizeByteRange rangeHeader data.length = .ok none := by
      cases rangeHeader with
      | none => rfl
      | some header =>
        have hempty : header = "" := by
          by_contra hne
          simp [Option.filter, hne] at hheader
        simp [normalizeByteRange, hempty]
    obtain ⟨contentType, hwhole⟩ := hclient.whole
    rw [hnormal]
    have hrange : s3Range client key rangeHeader = .ok none := by rw [s3Range, hheader]
    refine ⟨s3Stream chunkSize rangeHeader ⟨data, some data.length, none, contentType⟩, ?_, ?_⟩
    · rw [s3GetStream, hrange]
      simp only [bind, Except.bind, hwhole]
    · exact ⟨by simp [s3Stream, hheader], rfl, rfl, readAll_flatten hchunk data⟩
  | some header =>
    have hsome : rangeHeader = some header := Option.eq_some_of_filter_eq_some hheader
    have hrange : s3Range client key rangeHeader =
        match normalizeByteRange rangeHeader data.length with
        | .error e => .error (.ofRange e)
        | .ok byteRange => .ok (some ((byteRange.map headerValue).getD header)) := by
      rw [s3Range, hheader, hsome]
      simp only [hclient.size]
    cases hnormal : normalizeByteRange rangeHeader data.length with
    | error e =>
      dsimp only
      rw [s3GetStream, hrange, hnormal]
      rfl
    | ok byteRange =>
      cases byteRange with
      | none =>
        cases (normalize_none hnormal).symm.trans hheader
      | some range =>
        obtain ⟨hstart, horder, hstop⟩ := normalize_bounds hnormal
        obtain ⟨contentType, hslice⟩ := hclient.range range hstart horder hstop
        refine ⟨s3Stream chunkSize rangeHeader ⟨slice data range, some (range.stop - range.start + 1),
          some (contentRangeOf range data.length), contentType⟩, ?_, ?_⟩
        · rw [s3GetStream, hrange, hnormal]
          simp only [bind, Except.bind, Option.map_some, Option.getD_some, hslice]
        · exact ⟨by simp [s3Stream, hheader], rfl, rfl, readAll_flatten hchunk _⟩

/-- Two results are the same, apart from how the bytes are cut and called. -/
def SameStream : Except StreamExc StorageStream → Except StreamExc StorageStream → Prop
  | .ok a, .ok b => a.statusCode = b.statusCode ∧ a.contentLength = b.contentLength ∧ a.contentRange = b.contentRange ∧
      a.body.flatten = b.body.flatten
  | .error e, .error e' => e = e'
  | _, _ => False

theorem same_of_streams {result result' : Except StreamExc StorageStream} (h : StreamsAs result data rangeHeader)
    (h' : StreamsAs result' data rangeHeader) : SameStream result result' := by
  unfold StreamsAs at h h'
  cases hnormal : normalizeByteRange rangeHeader data.length with
  | error e =>
    rw [hnormal] at h h'
    rw [h, h']
    rfl
  | ok byteRange =>
    rw [hnormal] at h h'
    obtain ⟨stream, rfl, hstream⟩ := h
    obtain ⟨stream', rfl, hstream'⟩ := h'
    exact ⟨hstream.status.trans hstream'.status.symm, hstream.length.trans hstream'.length.symm,
      hstream.range.trans hstream'.range.symm, hstream.bytes.trans hstream'.bytes.symm⟩

/-- For every header the two backends answer the same. -/
theorem backends_agree (hchunk : 0 < chunkSize) {objects : String → Option Bytes} (hobject : objects key = some data)
    {client : S3Client} (hclient : Honours client key data) :
    SameStream (localGetStream chunkSize objects key rangeHeader) (s3GetStream chunkSize client key rangeHeader) :=
  same_of_streams (local_streams hchunk hobject) (s3_streams hchunk hclient)

end Imghost.Storage
