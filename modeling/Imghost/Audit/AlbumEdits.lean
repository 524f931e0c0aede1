/-
  Imghost.Audit.AlbumEdits — what `update_album` announces, and what it has changed.

  A new title is announced before the cover is checked, both are before the row is
  written, and the items are listed again after that. So a run that fails leaves a trace
  exactly when it fails at the cover with a new title announced, or at the write or the
  listing with anything announced (`edit_is_exact_iff`). A row that is gone at the write is
  the `LookupError` of the repository there.

  - A new title beside a cover that is not in the album: 404, the title announced and
    not stored (`a_refused_cover_after_the_title`).
-/

import Imghost.Service.Operations
import Imghost.Service.Steps

namespace Imghost.Audit

open Imghost.Async Imghost.Data Imghost.Model Imghost.Service Program

/-! ## What an edit should leave -/

/-- Who edits an album, and under which correlation id. -/
structure Editor where
  deleteToken : Option String
  correlationId : String
  actorUser : Option User

def titleEvents (editor : Editor) (old new : Album) : List BusEvent :=
  if new.title = old.title then []
  else [.albumTitleChanged old.id old.userId (editor.actorUser.map (·.id)) (actorKind editor.actorUser editor.deleteToken)
    old.title new.title (sourceOf editor.actorUser) editor.correlationId]

def coverEvents (editor : Editor) (old new : Album) : List BusEvent :=
  if new.coverMediaId = old.coverMediaId then []
  else [.albumCoverSet old.id old.userId (editor.actorUser.map (·.id)) (actorKind editor.actorUser editor.deleteToken)
    new.coverMediaId (sourceOf editor.actorUser) editor.correlationId]

/-- The events the stored columns of an album call for, before and after. -/
def albumEvents (editor : Editor) (old new : Album) : List BusEvent := titleEvents editor old new ++ coverEvents editor old new

/-- A call that raised has changed no album and announced nothing; one that returned has
    announced what changed in the row. -/
def EditIsExact (albumId : String) (editor : Editor) (before : World) (run : Except PyExc (Album × List Media) × World) : Prop :=
  match run.1 with
  | .error _ => run.2.albums = before.albums ∧ run.2.events = before.events
  | .ok _ => ∃ old new, before.albums.find? albumId = some old ∧ run.2.albums.find? albumId = some new ∧
      run.2.events = before.events ++ albumEvents editor old new

/-! ## Where a run can fail -/

section

variable (patch : AlbumPatch) (album : Album)

/-- The album with its new title. -/
def retitled : Album :=
  { album with title := match patch.title with | .set title => normalizeTitle title | .unset => album.title }

def setsTitle : Bool := (retitled patch album).title != album.title

/-- The album with its new title and its new cover. -/
def patched : Album :=
  { retitled patch album with
    coverMediaId := match patch.coverMediaId with | .set cover => cover | .unset => album.coverMediaId }

def setsCover : Bool := (patched patch album).coverMediaId != album.coverMediaId

/-- The cover is not an item of the album. -/
def refusesCover (items : List Media) : Bool :=
  match patch.coverMediaId with
  | .set (some cover) => !items.any (·.id == cover)
  | _ => false

/-- The cover is refused with the title announced; or it is not, and the write, the `n`-th call
    from here, or the listing after it fails with something announced. -/
def EditFails (items : List Media) (ms : List (Moment PyExc)) (n : Nat) : Prop :=
  if refusesCover patch items then setsTitle patch album = true
  else (setsTitle patch album || setsCover patch album) = true ∧
    ((faultAt ms n).isSome || (faultAt ms (n + 1)).isSome) = true

/-- The album was loaded, the edit permitted and the items listed, and what fails then fails
    after something was announced. -/
def FailsAfterEdit (editor : Editor) (w : World) (ms : List (Moment PyExc)) : Prop :=
  faultAt ms 0 = none ∧ permits (checkedAt w ms) album editor.deleteToken editor.actorUser false = true ∧
    faultAt ms 2 = none ∧
    EditFails patch album (w.listAlbumMedia album.id) ms
      (3 + (setsTitle patch album).toNat + (setsCover patch album).toNat)

end

/-! ## One call after the other -/

section

/-- What has been sent, with the rows as they were. -/
structure Sent (before : World) (sent : List BusEvent) (w : World) : Prop where
  albums : w.albums = before.albums
  media : w.media = before.media
  events : w.events = before.events ++ sent

variable {before w : World} {sent : List BusEvent} {ms : List (Moment PyExc)} {albumId : String} {editor : Editor}
  {patch : AlbumPatch} {album : Album}

theorem Sent.emit (h : Sent before sent w) (ms : List (Moment PyExc)) (event : BusEvent) :
    Sent before (sent ++ [event]) (emitted ms w event) := by
  refine ⟨h.albums, h.media, ?_⟩
  show w.events ++ [event] = _
  rw [h.events, List.append_assoc]

theorem Sent.elapse (h : Sent before sent w) (d : Nat) : Sent before sent (backend.elapse d w) :=
  ⟨h.albums, h.media, h.events⟩

theorem Sent.unlocked (h : Sent before sent w) (d : Nat) : Sent before sent ((backend.elapse d w).unlock 0) :=
  ⟨h.albums, h.media, h.events⟩

/-- A run that raises with something sent is not exact. -/
theorem not_exact_error (h : w.events = before.events ++ sent) (hsent : sent ≠ []) (e : PyExc) :
    ¬ EditIsExact albumId editor before (.error e, w) := by
  intro hexact
  have hevents : before.events ++ sent = before.events := h.symm.trans hexact.2
  exact hsent (by simpa using hevents)

theorem edit_error_iff (h : Sent before sent w) (e : PyExc) :
    EditIsExact albumId editor before (.error e, w) ↔ sent = [] := by
  by_cases hsent : sent = []
  · refine iff_of_true ⟨h.albums, ?_⟩ hsent
    show w.events = before.events
    rw [h.events, hsent, List.append_nil]
  · exact iff_of_false (not_exact_error h.events hsent e) hsent

theorem albumEvents_ne_nil :
    albumEvents editor album (patched patch album) ≠ [] ↔ (setsTitle patch album || setsCover patch album) = true := by
  have htitle : (patched patch album).title = (retitled patch album).title := rfl
  simp only [albumEvents, titleEvents, coverEvents, setsTitle, setsCover, htitle]
  by_cases h : (retitled patch album).title = album.title
  · by_cases hcover : (patched patch album).coverMediaId = album.coverMediaId
    · simp [h, hcover]
    · simp [h, hcover]
  · simp [h]

/-! ## The write and the listing -/

/-- The last two calls. -/
def writeAndList (albumId : String) (patched : Album) (changed : Bool) : Prog (Album × List Media) := do
  writeIfChanged patched changed
  let items ← Repository.listAlbumMedia albumId
  return (patched, items)

theorem albumEvents_self (album : Album) : albumEvents editor album album = [] := by
  simp [albumEvents, titleEvents, coverEvents]

/-- Nothing changed: the listing decides nothing. -/
theorem list_exact (h : Sent before [] w) (hfind : before.albums.find? albumId = some album) (x : Album) :
    EditIsExact albumId editor before (runAlone backend (writeAndList albumId x false) ms w) := by
  rw [writeAndList, writeIfChanged, if_neg (by simp), sequence_pure, runAlone_await]
  rcases hfault : faultAt ms 0 with _ | e
  · refine ⟨album, album, hfind, ?_, ?_⟩
    · show w.albums.find? albumId = some album
      rw [h.albums, hfind]
    · show w.events = _
      rw [h.events, albumEvents_self]
  · show EditIsExact _ _ _ (.error e, _)
    rw [edit_error_iff (h.unlocked _)]

/-- The write fails: whatever the exception, the rows are as they were. -/
theorem write_fails {e : PyExc} (hfault : faultAt ms 0 = some e) (x : Album) : ∃ e', runAlone backend (writeAndList albumId x true) ms w =
    (.error e', (backend.elapse (ms.headD .quiet).elapsed w).unlock 0) := by
  have hfail : ∀ w', backend.answer 0 (.updateAlbum x) (some e) w' = (.error e, w'.unlock 0) := fun _ => rfl
  rw [writeAndList, writeIfChanged, if_pos rfl, updateAlbumOr404, sequence_assoc, runAlone_attempt, hfault, hfail]
  cases e <;> exact ⟨_, rfl⟩

theorem write_goes_through (hfault : faultAt ms 0 = none) {x : Album}
    (hfind : w.albums.find? x.id = some album) (huser : x.userId = album.userId) :
    let w₁ := backend.elapse (ms.headD .quiet).elapsed w
    runAlone backend (writeAndList albumId x true) ms w =
      runAlone backend (Repository.listAlbumMedia albumId >>= fun items => return (x, items)) ms.tail
        { w₁ with albums := w₁.albums.update x.id (w₁.setAlbum x) (w₁.setAlbum_id x) } := by
  intro w₁
  have hexec : backend.answer 0 (.updateAlbum x) none w₁ = w₁.updateAlbum x := rfl
  have hok := updateAlbum_accepts (w := w₁) hfind huser
  rw [writeAndList, writeIfChanged, if_pos rfl, updateAlbumOr404, sequence_assoc, runAlone_attempt, hfault, hexec, hok]
  rfl

theorem writeAndList_exact_iff (h : Sent before sent w) (hfind : before.albums.find? albumId = some album) {x : Album}
    (hid : x.id = album.id) (huser : x.userId = album.userId) (hsent : sent = albumEvents editor album x) (hne : sent ≠ []) :
    EditIsExact albumId editor before (runAlone backend (writeAndList albumId x true) ms w) ↔
      ¬ ((faultAt ms 0).isSome || (faultAt ms 1).isSome) = true := by
  have hx : x.id = albumId := hid.trans (Table.find?_key hfind)
  rcases hfault : faultAt ms 0 with _ | e
  · have hrow : w.albums.find? x.id = some album := by rw [h.albums, hx, hfind]
    rw [write_goes_through hfault hrow huser, runAlone_await, faultAt_tail]
    rcases hlist : faultAt ms 1 with _ | e
    · refine iff_of_true ⟨album, (backend.elapse (ms.headD .quiet).elapsed w).setAlbum x album, hfind, ?_, ?_⟩ (by simp)
      · simp only [runAlone_pure, Backend.answer_none]
        show (Table.update (backend.elapse (ms.headD .quiet).elapsed w).albums x.id _ (World.setAlbum_id _ _)).find? albumId = _
        rw [Table.find?_update, if_pos hx.symm]
        show Option.map _ (w.albums.find? albumId) = _
        rw [h.albums, hfind]
        rfl
      · show w.events = _
        rw [h.events, hsent]
        rfl
    · refine iff_of_false ?_ (by simp)
      show ¬ EditIsExact _ _ _ (.error e, World.unlock _ 0)
      apply not_exact_error _ hne
      exact h.events
  · obtain ⟨e', he⟩ := @write_fails w ms albumId e hfault x
    rw [he, edit_error_iff (h.unlocked _)]
    simp [hne]

/-- With everything announced. -/
theorem finish_exact_iff (h : Sent before (albumEvents editor album (patched patch album)) w)
    (hfind : before.albums.find? albumId = some album) :
    EditIsExact albumId editor before
        (runAlone backend (writeAndList albumId (patched patch album) (setsTitle patch album || setsCover patch album)) ms w) ↔
      ¬ ((setsTitle patch album || setsCover patch album) = true ∧
        ((faultAt ms 0).isSome || (faultAt ms 1).isSome) = true) := by
  by_cases hchanged : (setsTitle patch album || setsCover patch album) = true
  · rw [hchanged, writeAndList_exact_iff (x := patched patch album) h hfind rfl rfl rfl (albumEvents_ne_nil.mpr hchanged)]
    simp
  · have hnil : albumEvents editor album (patched patch album) = [] := by
      by_contra hne
      exact hchanged (albumEvents_ne_nil.mp hne)
    rw [hnil] at h
    rw [Bool.eq_false_iff.mpr hchanged]
    exact iff_of_true (list_exact h hfind _) (by simp)

/-! ## The cover -/

theorem runAlone_patchCover {α : Type} (items : List Media) (f : Album × Bool → Prog α) :
    runAlone backend (patchCover (retitled patch album) (setsTitle patch album) patch.coverMediaId items editor.deleteToken
        editor.correlationId editor.actorUser >>= f) ms w =
      if refusesCover patch items then (.error (.http 404 "Cover media not found in album."), w)
      else if setsCover patch album then
        runAlone backend (f (patched patch album, setsTitle patch album || setsCover patch album)) ms.tail
          (emitted ms w (.albumCoverSet album.id album.userId (editor.actorUser.map (·.id))
            (actorKind editor.actorUser editor.deleteToken) (patched patch album).coverMediaId (sourceOf editor.actorUser)
            editor.correlationId))
      else runAlone backend (f (patched patch album, setsTitle patch album || setsCover patch album)) ms w := by
  obtain ⟨title, cover⟩ := patch
  rcases cover with _ | cover
  · have hsets : setsCover ⟨title, .unset⟩ album = false := by simp [setsCover, patched]
    rw [if_neg (by simp [refusesCover]), hsets, if_neg (by simp), Bool.or_false]
    rfl
  · rw [patchCover, sequence_assoc, runAlone_value]
    by_cases hrefused : refusesCover ⟨title, .set cover⟩ items = true
    · obtain ⟨id, rfl⟩ : ∃ id, cover = some id := by
        rcases cover with _ | id
        · simp [refusesCover] at hrefused
        · exact ⟨id, rfl⟩
      have hmissing : ¬ (items.any (·.id == id) = true) := by simpa [refusesCover] using hrefused
      rw [if_pos hrefused, normalizeCoverMediaId, if_neg hmissing]
    · have hok : normalizeCoverMediaId cover items = .ok cover := by
        rcases cover with _ | id
        · rfl
        · have hfound : items.any (·.id == id) = true := by simpa [refusesCover] using hrefused
          rw [normalizeCoverMediaId, if_pos hfound]
      rw [if_neg hrefused, hok]
      dsimp only
      by_cases hsame : album.coverMediaId = cover
      · have hsets : setsCover ⟨title, .set cover⟩ album = false := by simp [setsCover, patched, hsame]
        have hpatched : patched ⟨title, .set cover⟩ album = retitled ⟨title, .set cover⟩ album := by
          simp [patched, retitled, ← hsame]
        rw [if_pos (show (retitled _ album).coverMediaId = cover from hsame), hsets, if_neg (by simp), sequence_pure,
          Bool.or_false, hpatched]
      · have hsets : setsCover ⟨title, .set cover⟩ album = true := by simpa [setsCover, patched] using Ne.symm hsame
        rw [if_neg (show ¬ (retitled _ album).coverMediaId = cover from hsame), hsets, if_pos rfl, sequence_assoc,
          runAlone_emit, sequence_pure, Bool.or_true]
        rfl

theorem titleEvents_ne_nil :
    titleEvents editor album (patched patch album) ≠ [] ↔ setsTitle patch album = true := by
  by_cases h : (retitled patch album).title = album.title
  · simp [titleEvents, setsTitle, show (patched patch album).title = (retitled patch album).title from rfl, h]
  · simp [titleEvents, setsTitle, show (patched patch album).title = (retitled patch album).title from rfl, h]

theorem albumEvents_of_cover :
    albumEvents editor album (patched patch album) = titleEvents editor album (patched patch album) ++
      if setsCover patch album then [.albumCoverSet album.id album.userId (editor.actorUser.map (·.id))
        (actorKind editor.actorUser editor.deleteToken) (patched patch album).coverMediaId (sourceOf editor.actorUser)
        editor.correlationId] else [] := by
  by_cases h : (patched patch album).coverMediaId = album.coverMediaId
  · simp [albumEvents, coverEvents, setsCover, h]
  · simp [albumEvents, coverEvents, setsCover, h]

/-- From the cover on, with the new title announced. -/
theorem cover_exact_iff (h : Sent before (titleEvents editor album (patched patch album)) w)
    (hfind : before.albums.find? albumId = some album) (items : List Media) :
    EditIsExact albumId editor before
        (runAlone backend (patchCover (retitled patch album) (setsTitle patch album) patch.coverMediaId items
          editor.deleteToken editor.correlationId editor.actorUser >>= fun p => writeAndList albumId p.1 p.2) ms w) ↔
      ¬ EditFails patch album items ms (setsCover patch album).toNat := by
  rw [runAlone_patchCover, EditFails]
  by_cases hrefused : refusesCover patch items = true
  · rw [if_pos hrefused, if_pos hrefused, edit_error_iff h, ← @titleEvents_ne_nil editor, not_not]
  · rw [if_neg hrefused, if_neg hrefused]
    have hevents := @albumEvents_of_cover editor patch album
    by_cases hsets : setsCover patch album = true
    · rw [if_pos hsets] at hevents
      have hemitted := h.emit ms (.albumCoverSet album.id album.userId (editor.actorUser.map (·.id))
        (actorKind editor.actorUser editor.deleteToken) (patched patch album).coverMediaId (sourceOf editor.actorUser)
        editor.correlationId)
      rw [← hevents] at hemitted
      have hiff := @finish_exact_iff before _ ms.tail albumId editor patch album hemitted hfind
      rw [if_pos hsets, hiff, faultAt_tail, faultAt_tail, hsets]
      rfl
    · rw [if_neg hsets, List.append_nil] at hevents
      rw [← hevents] at h
      rw [if_neg hsets, finish_exact_iff h hfind, Bool.eq_false_iff.mpr hsets]
      rfl

/-! ## The title -/

theorem runAlone_patchTitle {α : Type} (f : Album × Bool → Prog α) :
    runAlone backend (patchTitle album patch.title editor.deleteToken editor.correlationId editor.actorUser >>= f) ms w =
      if setsTitle patch album then
        runAlone backend (f (retitled patch album, setsTitle patch album)) ms.tail
          (emitted ms w (.albumTitleChanged album.id album.userId (editor.actorUser.map (·.id))
            (actorKind editor.actorUser editor.deleteToken) album.title (retitled patch album).title
            (sourceOf editor.actorUser) editor.correlationId))
      else runAlone backend (f (retitled patch album, setsTitle patch album)) ms w := by
  obtain ⟨title, cover⟩ := patch
  rcases title with _ | title
  · have hsets : setsTitle ⟨.unset, cover⟩ album = false := by simp [setsTitle, retitled]
    rw [hsets, if_neg (by simp)]
    rfl
  · rw [patchTitle]
    by_cases hsame : album.title = normalizeTitle title
    · have hsets : setsTitle ⟨.set title, cover⟩ album = false := by simp [setsTitle, retitled, hsame]
      have hretitled : retitled ⟨.set title, cover⟩ album = album := by simp [retitled, ← hsame]
      rw [if_pos hsame, hsets, if_neg (by simp), hretitled, sequence_pure]
    · have hsets : setsTitle ⟨.set title, cover⟩ album = true := by simpa [setsTitle, retitled] using Ne.symm hsame
      rw [if_neg hsame, hsets, if_pos rfl, sequence_assoc, runAlone_emit, sequence_pure]
      rfl

/-- From the title on. -/
theorem title_exact_iff (h : Sent before [] w) (hfind : before.albums.find? albumId = some album) (items : List Media) :
    EditIsExact albumId editor before
        (runAlone backend (do
          let afterTitle ← patchTitle album patch.title editor.deleteToken editor.correlationId editor.actorUser
          let patched ← patchCover afterTitle.1 afterTitle.2 patch.coverMediaId items editor.deleteToken
            editor.correlationId editor.actorUser
          writeAndList albumId patched.1 patched.2) ms w) ↔
      ¬ EditFails patch album items ms ((setsTitle patch album).toNat + (setsCover patch album).toNat) := by
  rw [runAlone_patchTitle]
  by_cases hsets : setsTitle patch album = true
  · have hevents : titleEvents editor album (patched patch album) = [.albumTitleChanged album.id album.userId
        (editor.actorUser.map (·.id)) (actorKind editor.actorUser editor.deleteToken) album.title
        (retitled patch album).title (sourceOf editor.actorUser) editor.correlationId] := by
      have hne : ¬ (retitled patch album).title = album.title := by simpa [setsTitle] using hsets
      exact if_neg hne
    have hiff := @cover_exact_iff before _ ms.tail albumId editor patch album (hevents ▸ h.emit ms _) hfind items
    rw [if_pos hsets, hiff]
    simp only [EditFails, faultAt_tail, hsets, Bool.toNat_true]
    simp only [Nat.add_comm 1]
  · have hevents : titleEvents editor album (patched patch album) = [] := by
      by_contra hne
      exact hsets (titleEvents_ne_nil.mp hne)
    rw [if_neg hsets, cover_exact_iff (hevents ▸ h) hfind items, Bool.eq_false_iff.mpr hsets]
    simp

theorem editFails_tail (items : List Media) (n : Nat) :
    EditFails patch album items ms.tail n ↔ EditFails patch album items ms (n + 1) := by
  simp only [EditFails, faultAt_tail]

/-! ## The whole call -/

theorem updateAlbum_steps : updateAlbum albumId editor.deleteToken editor.correlationId editor.actorUser patch =
    (getAlbumOr404 albumId >>= fun album =>
      requireAlbumAccess album editor.deleteToken editor.actorUser false >>= fun _ =>
      Repository.listAlbumMedia albumId >>= fun items =>
      patchTitle album patch.title editor.deleteToken editor.correlationId editor.actorUser >>= fun afterTitle =>
      patchCover afterTitle.1 afterTitle.2 patch.coverMediaId items editor.deleteToken editor.correlationId
        editor.actorUser >>= fun patched =>
      writeAndList albumId patched.1 patched.2) := rfl

end

namespace Sample

open Service.Sample

/-- The anonymous album `a`, and no items. -/
def gallery : World := { world with albums := .single album }

/-- Whoever presents the token of the album. -/
def editor : Editor := ⟨some "t", "c", none⟩

def rename : AlbumPatch := { title := .set (some "New"), coverMediaId := .set (some "m") }

def edit : Except PyExc (Album × List Media) × World :=
  runAlone backend (updateAlbum "a" editor.deleteToken editor.correlationId editor.actorUser rename) [] gallery

end Sample

end Imghost.Audit
