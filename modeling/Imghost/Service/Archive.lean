/-
  Imghost.Service.Archive — the entries of `stream_album_zip` and their names.

  An entry is called like the uploaded file: the last part of its path, without the characters
  file systems refuse, with the format where it has no extension, and with a number where an
  entry before it has the name. For every list of items

  - the search for a free number ends and the names are pairwise different;
  - a name is safe to unpack: no separator, no ASCII control character, neither `.` nor `..`
    (`archive_names_unique_and_safe`).

  The control characters above ASCII pass, and what is not the file's name is taken as it is: the id
  and the format (`a_next_line_stays_in_the_name`).
-/

import Imghost.Data.Fresh
import Imghost.Data.Trim
import Imghost.Service.Albums

namespace Imghost.Service

open Imghost.Async Imghost.Data Imghost.Model Program

/-! ## pathlib -/

/-- `PurePosixPath(path).name`. -/
def pathName (path : List Char) : List Char :=
  ((path.splitOnP (· == '/')).filter fun part => part != [] && part != ['.']).getLast?.getD []

/-- `Path(path).stem`. -/
def pathStem (path : String) : String :=
  let name := pathName path.toList
  String.ofList (name.take (name.length - (splitextSuffix name).length))

/-! ## _sanitize_archive_filename -/

/-- What an item gives to the name of its entry. -/
structure ArchiveItem where
  filenameOrig : Option String
  id : String
  format : String
  deriving DecidableEq, Repr

def ArchiveItem.ofMedia (media : Media) : ArchiveItem := ⟨some media.filenameOrig, media.id, media.format⟩

/-- `f"{media_id}.{media_format}" if media_format else media_id`. -/
def archiveFallback (mediaId mediaFormat : String) : String :=
  if mediaFormat ≠ "" then mediaId ++ "." ++ mediaFormat else mediaId

def reservedChars : List Char := ['"', '*', ':', '<', '>', '?', '|']

/-- The characters that stay, the reserved ones replaced. -/
def cleanedChars (name : List Char) : List Char :=
  (name.filter fun c => 32 ≤ c.toNat && c.toNat != 0x7f).map fun c => if c ∈ reservedChars then '_' else c

/-- `s.strip().rstrip(".")`. -/
def trimmedName (name : List Char) : List Char := (trim isSpace name).rdropWhile (· == '.')

def sanitizeArchiveFilename (rawName : Option String) (mediaId mediaFormat : String) : String :=
  match rawName.filter (· != "") with
  | none => archiveFallback mediaId mediaFormat
  | some rawName =>
    let name := pathName (rawName.toList.map fun c => if c = '\\' then '/' else c)
    let candidate := trimmedName (cleanedChars name)
    if candidate = [] ∨ candidate = ['.'] ∨ candidate = ['.', '.'] then archiveFallback mediaId mediaFormat
    else String.ofList candidate

/-! ## _archive_name -/

/-- The name before it is compared with the others. -/
def archiveCandidate (media : ArchiveItem) : String :=
  let candidate := sanitizeArchiveFilename media.filenameOrig media.id media.format
  if '.' ∉ candidate.toList ∧ media.format ≠ "" then candidate ++ "." ++ media.format else candidate

/-- `f"{stem}-{index}{suffix}"`. -/
def numberedName (media : ArchiveItem) (index : Nat) : String :=
  strOr (some (pathStem (archiveCandidate media))) media.id ++ "-" ++ toString index ++ pathSuffix (archiveCandidate media)

/-- `_archive_name`, with `fuel` rounds of its loop. -/
def archiveName (fuel : Nat) (media : ArchiveItem × Nat) (seenNames : List String) : Option String :=
  if archiveCandidate media.1 ∉ seenNames then some (archiveCandidate media.1)
  else firstFresh (numberedName media.1) seenNames fuel media.2

/-- The names of all entries, in order. -/
def archiveNames (fuel : Nat) (mediaItems : List ArchiveItem) : Option (List String) :=
  assign (archiveName fuel) (mediaItems.zipIdx 1) []

/-- `stream_album_zip`: the stored objects and the names of their entries. -/
def streamAlbumZip (albumId : String) : Prog (List (String × String)) := do
  let found ← Repository.getAlbum albumId
  match found with
  | none => raise (.http 404 "Album not found.")
  | some _ => do
    let mediaItems ← Repository.listAlbumMedia albumId
    let names := archiveNames mediaItems.length (mediaItems.map .ofMedia)
    return (mediaItems.map (·.storageKey)).zip (names.getD [])

/-! ## Characters -/

/-- No separator and no ASCII control character. -/
def PlainChar (c : Char) : Prop := c ≠ '/' ∧ c ≠ '\\' ∧ 32 ≤ c.toNat ∧ c.toNat ≠ 0x7f

instance (c : Char) : Decidable (PlainChar c) := by unfold PlainChar; infer_instance

/-- All characters of a text are plain. -/
def Plain (text : String) : Prop := ∀ c ∈ text.toList, PlainChar c

theorem Plain.append {a b : String} (ha : Plain a) (hb : Plain b) : Plain (a ++ b) := by
  intro c hc
  rw [String.toList_append, List.mem_append] at hc
  rcases hc with hc | hc
  · exact ha c hc
  · exact hb c hc

/-- The parts of a path are its characters without the slashes. -/
theorem mem_part {l part : List Char} (h : part ∈ l.splitOnP (· == '/')) : ∀ c ∈ part, c ∈ l ∧ c ≠ '/' := by
  induction l generalizing part with
  | nil =>
    rw [List.splitOnP_nil, List.mem_singleton] at h
    simp [h]
  | cons d l ih =>
    intro c hc
    have later : ∀ part' ∈ l.splitOnP (· == '/'), ∀ c ∈ part', c ∈ d :: l ∧ c ≠ '/' := by
      intro part' hpart c hc
      exact ⟨List.mem_cons_of_mem d (ih hpart c hc).1, (ih hpart c hc).2⟩
    rw [List.splitOnP_cons_eq_if_modifyHead] at h
    split at h
    · rcases List.mem_cons.mp h with rfl | h
      · cases hc
      · exact later part h c hc
    · rename_i hd
      cases hl : l.splitOnP (· == '/') with
      | nil =>
        rw [hl] at h
        cases h
      | cons first rest =>
        rw [hl, List.modifyHead_cons] at h
        rcases List.mem_cons.mp h with rfl | h
        · rcases List.mem_cons.mp hc with rfl | hc
          · exact ⟨List.mem_cons_self, by simpa using hd⟩
          · exact later first (by rw [hl]; exact List.mem_cons_self) c hc
        · exact later part (by rw [hl]; exact List.mem_cons_of_mem _ h) c hc

theorem pathName_chars (path : List Char) : ∀ c ∈ pathName path, c ∈ path ∧ c ≠ '/' := by
  intro c hc
  unfold pathName at hc
  cases hlast : ((path.splitOnP (· == '/')).filter fun part => part != [] && part != ['.']).getLast? with
  | none =>
    rw [hlast] at hc
    cases hc
  | some part =>
    rw [hlast] at hc
    exact mem_part (List.mem_of_mem_filter (List.mem_of_getLast? hlast)) c hc

theorem mem_cleanedChars {name : List Char} {c : Char} (h : c ∈ cleanedChars name) :
    (c ∈ name ∨ c = '_') ∧ 32 ≤ c.toNat ∧ c.toNat ≠ 0x7f := by
  unfold cleanedChars at h
  obtain ⟨d, hd, rfl⟩ := List.mem_map.mp h
  obtain ⟨hmem, hkept⟩ := List.mem_filter.mp hd
  split
  · exact ⟨.inr rfl, by decide⟩
  · exact ⟨.inl hmem, by simpa using hkept⟩

theorem mem_trimmedName {name : List Char} {c : Char} (h : c ∈ trimmedName name) : c ∈ name :=
  mem_of_mem_trim ((List.rdropWhile_prefix _ _).subset h)

/-! ## One name -/

structure SafeName (name : String) : Prop where
  notEmpty : name ≠ ""
  plain : Plain name
  notDot : name ≠ "."
  notDotDot : name ≠ ".."

/-- The id and the format of an item make a safe name by themselves. -/
structure SafeParts (media : ArchiveItem) : Prop where
  id : Plain media.id
  format : Plain media.format
  fallback : SafeName (archiveFallback media.id media.format)

variable {media : ArchiveItem}

theorem sanitized_safe (h : SafeParts media) :
    SafeName (sanitizeArchiveFilename media.filenameOrig media.id media.format) := by
  unfold sanitizeArchiveFilename
  split
  · exact h.fallback
  · rename_i rawName _
    dsimp only
    split
    · exact h.fallback
    · rename_i hkept
      simp only [not_or] at hkept
      refine ⟨?_, ?_, ?_, ?_⟩
      · intro he
        exact hkept.1 (by simpa using congrArg String.toList he)
      · intro c hc
        rw [String.toList_ofList] at hc
        obtain ⟨hname, hlow, hdel⟩ := mem_cleanedChars (mem_trimmedName hc)
        rcases hname with hname | rfl
        · obtain ⟨hmem, hslash⟩ := pathName_chars _ c hname
          refine ⟨hslash, ?_, hlow, hdel⟩
          rintro rfl
          obtain ⟨d, -, hd⟩ := List.mem_map.mp hmem
          split at hd
          · cases hd
          · rename_i hne
            exact hne hd
        · decide
      · intro he
        exact hkept.2.1 (by simpa using congrArg String.toList he)
      · intro he
        exact hkept.2.2 (by simpa using congrArg String.toList he)

/-- Text that has no dot is neither of the two once a dot follows. -/
theorem safe_with_format {candidate format : String} (h : SafeName candidate) (hdot : '.' ∉ candidate.toList)
    (hformat : Plain format) : SafeName (candidate ++ "." ++ format) := by
  have hne : candidate.toList ≠ [] := fun he => h.notEmpty (String.toList_eq_nil_iff.mp he)
  obtain ⟨c, rest, hlist⟩ := List.exists_cons_of_ne_nil hne
  have hc : c ≠ '.' := by
    rintro rfl
    apply hdot
    rw [hlist]
    exact List.mem_cons_self
  have hwhole : (candidate ++ "." ++ format).toList = c :: (rest ++ '.' :: format.toList) := by
    simp [String.toList_append, hlist]
  have differs : ∀ other : String, (∀ l, other.toList ≠ c :: l) → candidate ++ "." ++ format ≠ other := by
    intro other hother he
    exact hother _ ((congrArg String.toList he).symm.trans hwhole)
  refine ⟨differs "" (by simp), ?_, ?_, ?_⟩
  · refine (h.plain.append ?_).append hformat
    intro d hd
    obtain rfl : d = '.' := by simpa using hd
    decide
  · refine differs "." fun l he => ?_
    exact hc (List.cons.inj he).1.symm
  · refine differs ".." fun l he => ?_
    exact hc (List.cons.inj he).1.symm

theorem candidate_safe (h : SafeParts media) : SafeName (archiveCandidate media) := by
  have hsafe := sanitized_safe h
  unfold archiveCandidate
  dsimp only
  split
  · rename_i hext
    exact safe_with_format hsafe hext.1 h.format
  · exact hsafe

theorem splitextSuffix_chars (name : List Char) : ∀ c ∈ splitextSuffix name, c ∈ name ∨ c = '.' := by
  intro c hc
  unfold splitextSuffix at hc
  dsimp only at hc
  split at hc
  · cases hc
  · split at hc
    · cases hc
    · rcases List.mem_cons.mp hc with rfl | hc
      · exact .inr rfl
      · left
        exact List.mem_reverse.mp ((List.takeWhile_prefix _).subset (List.mem_reverse.mp hc))

theorem digit_plain {c : Char} (h : c.isDigit = true) : PlainChar c := by
  have hrange : 48 ≤ c.toNat ∧ c.toNat ≤ 57 := by
    simpa [Char.isDigit, UInt32.le_iff_toNat_le] using h
  refine ⟨?_, ?_, by omega, by omega⟩
  · rintro rfl
    exact absurd hrange (by decide)
  · rintro rfl
    exact absurd hrange (by decide)

/-- The number does not make a name unsafe: it comes with a hyphen. -/
theorem numbered_safe (h : SafeParts media) (index : Nat) : SafeName (numberedName media index) := by
  have hplain := (candidate_safe h).plain
  have hpart : ∀ c ∈ pathName (archiveCandidate media).toList, PlainChar c := by
    intro c hc
    exact hplain c (pathName_chars _ c hc).1
  have hstem : Plain (pathStem (archiveCandidate media)) := by
    intro c hc
    rw [pathStem, String.toList_ofList] at hc
    exact hpart c (List.mem_of_mem_take hc)
  have hsuffix : Plain (pathSuffix (archiveCandidate media)) := by
    intro c hc
    have hc : c ∈ splitextSuffix (pathName (archiveCandidate media).toList) := by
      simpa [pathSuffix, splitSlash, pathName] using hc
    rcases splitextSuffix_chars _ c hc with hc | rfl
    · exact hpart c hc
    · decide
  have hfirst : Plain (strOr (some (pathStem (archiveCandidate media))) media.id) := by
    unfold strOr
    dsimp only
    split
    · exact h.id
    · exact hstem
  have hindex : Plain (toString index) := by
    intro c hc
    have hc : c ∈ Nat.toDigits 10 index := by simpa [Nat.toString_eq_ofList_toDigits] using hc
    exact digit_plain (Nat.isDigit_of_mem_toDigits (by decide) (by decide) hc)
  have hhyphen : '-' ∈ (numberedName media index).toList := by
    simp [numberedName, String.toList_append]
  refine ⟨?_, ?_, ?_, ?_⟩
  · intro he
    rw [he] at hhyphen
    simp at hhyphen
  · refine ((hfirst.append ?_).append hindex).append hsuffix
    intro c hc
    obtain rfl : c = '-' := by simpa using hc
    decide
  · intro he
    rw [he] at hhyphen
    simp at hhyphen
  · intro he
    rw [he] at hhyphen
    simp at hhyphen

theorem toString_injective {m n : Nat} (h : toString m = toString n) : m = n := by
  have hdigits : Nat.toDigits 10 m = Nat.toDigits 10 n := by
    rw [Nat.toString_eq_ofList_toDigits, Nat.toString_eq_ofList_toDigits] at h
    exact String.ofList_injective h
  calc m = Nat.ofDigitChars 10 (Nat.toDigits 10 m) 0 := (Nat.ofDigitChars_toDigits (by decide) (by decide)).symm
    _ = Nat.ofDigitChars 10 (Nat.toDigits 10 n) 0 := by rw [hdigits]
    _ = n := Nat.ofDigitChars_toDigits (by decide) (by decide)

theorem numberedName_injective (media : ArchiveItem) : Function.Injective (numberedName media) := by
  intro m n h
  have hlist := congrArg String.toList h
  simp only [numberedName, String.toList_append] at hlist
  exact toString_injective (String.toList_inj.mp (List.append_cancel_left (List.append_cancel_right hlist)))

/-! ## All names -/

theorem archiveName_fresh {fuel : Nat} {item : ArchiveItem × Nat} {seen : List String} {name : String}
    (h : archiveName fuel item seen = some name) : name ∉ seen := by
  unfold archiveName at h
  split at h
  · rename_i hfree
    rwa [← Option.some.inj h]
  · exact (firstFresh_eq h).1

theorem archiveName_safe {fuel : Nat} {item : ArchiveItem × Nat} {seen : List String} {name : String}
    (h : archiveName fuel item seen = some name) (hparts : SafeParts item.1) : SafeName name := by
  unfold archiveName at h
  split at h
  · rw [← Option.some.inj h]
    exact candidate_safe hparts
  · obtain ⟨-, k, -, rfl, -⟩ := firstFresh_eq h
    exact numbered_safe hparts k

theorem archiveName_finds {fuel : Nat} (item : ArchiveItem × Nat) {seen : List String} (h : seen.length < fuel) :
    ∃ name, archiveName fuel item seen = some name := by
  unfold archiveName
  split
  · exact ⟨_, rfl⟩
  · exact firstFresh_finds (numberedName_injective item.1) h item.2

theorem archiveName_fuel {fuel fuel' : Nat} {item : ArchiveItem × Nat} {seen : List String} {name : String}
    (h : archiveName fuel item seen = some name) (hle : fuel ≤ fuel') : archiveName fuel' item seen = some name := by
  unfold archiveName at h ⊢
  split
  · rename_i hfree
    rwa [if_pos hfree] at h
  · rename_i htaken
    rw [if_neg htaken] at h
    exact firstFresh_fuel h hle

/-- With as many rounds as there are items every loop ends; the names are pairwise different, and
    safe where the item's id and format are. -/
theorem archive_names_unique_and_safe (mediaItems : List ArchiveItem) :
    ∃ names, (∀ fuel, mediaItems.length ≤ fuel → archiveNames fuel mediaItems = some names) ∧ names.Nodup ∧
      List.Forall₂ (fun media name => SafeParts media → SafeName name) mediaItems names := by
  obtain ⟨names, hnames⟩ := assign_total (fun item _ hroom => archiveName_finds item hroom) (mediaItems.zipIdx 1) []
    (n := mediaItems.length) (by simp)
  have hforall := assign_forall (P := fun item name => SafeParts item.1 → SafeName name)
    (fun item _ name hname => archiveName_safe hname) hnames
  refine ⟨names, ?_, (assign_nodup (fun item _ name hname => archiveName_fresh hname) hnames).1, ?_⟩
  · intro fuel hle
    exact assign_mono (fun item _ name hname => archiveName_fuel hname hle) hnames
  · have hitems : (mediaItems.zipIdx 1).map Prod.fst = mediaItems := List.zipIdx_map_fst 1 mediaItems
    rw [← List.forall₂_map_left_iff (f := Prod.fst) (R := fun media name => SafeParts media → SafeName name), hitems] at hforall
    exact hforall

/-- The archive of an album: one entry for each item, no two of one name. -/
theorem streamAlbumZip_entries (albumId : String) :
    (streamAlbumZip albumId).Yields fun entries => (entries.map Prod.snd).Nodup := by
  refine yields_then fun found => ?_
  cases found with
  | none => trivial
  | some album =>
    refine yields_then fun mediaItems => ?_
    obtain ⟨names, hnames, hnodup, hforall⟩ := archive_names_unique_and_safe (mediaItems.map .ofMedia)
    have hlength := hforall.length_eq
    rw [List.length_map] at hlength
    show ((List.map (·.storageKey) mediaItems).zip
      ((archiveNames mediaItems.length (mediaItems.map .ofMedia)).getD [])).map Prod.snd |>.Nodup
    rw [hnames _ (by simp), Option.getD_some, List.map_snd_zip (by simp [hlength])]
    exact hnodup

/-! ## What is not safe -/

/-- A control character of Unicode: the ASCII ones, DEL, and those up to U+009F. -/
def isControl (c : Char) : Bool := c.toNat < 32 || (127 ≤ c.toNat && c.toNat < 160)

def uploadedAs (filenameOrig : String) : ArchiveItem := ⟨some filenameOrig, "m", "png"⟩

/-- A file called `a`, NEXT LINE, `b.png`. -/
theorem a_next_line_stays_in_the_name :
    archiveNames 1 [uploadedAs "a\u0085b.png"] = some ["a\u0085b.png"] ∧
      "a\u0085b.png".toList.any isControl = true ∧
      archiveNames 1 [⟨none, "", ""⟩] = some [""] := by
  refine ⟨?_, ?_, ?_⟩ <;> decide +kernel

-- one name three times, the second taken by a number already
example : archiveNames 3 [uploadedAs "x.png", uploadedAs "x-3.png", uploadedAs "x.png"] =
    some ["x.png", "x-3.png", "x-4.png"] := by
  decide +kernel

end Imghost.Service
