/-
  Imghost.Accounting.Freed — the sizes the deletion events report.

  The accounted size of an item counts its thumbnail only where that is an object of its
  own. `prune_expired_albums` reports accounted sizes; `delete_album` and `delete_media`
  add `thumb_size` to `file_size` whatever the thumbnail is. The two agree on an item
  unless it has a thumbnail size and no thumbnail object: the state `generate_thumbnail`
  leaves an item in whose original serves as its thumbnail.

  - The reported sizes match what the deletion takes off the total, whatever fails,
    exactly when every item that goes is counted once (`freed_sizes_match_iff`).
  - An original of one byte that is its own thumbnail is reported as two
    (`an_original_counted_twice`).
-/

import Imghost.Accounting.Books

namespace Imghost.Accounting

open Imghost.Async Imghost.Data Imghost.Model Imghost.Service Program

/-- `file_size + (thumb_size or 0)`. -/
def reportedBytes (m : Media) : Nat := m.fileSize + m.thumbSize.getD 0

/-- A thumbnail with a size is an object of its own. -/
def CountedOnce (m : Media) : Prop :=
  m.thumbSize.getD 0 = 0 ∨ (truthy m.thumbKey = true ∧ m.thumbKey ≠ some m.storageKey)

/-! ## The deletions and what they report -/

inductive Deletion where
  | deleteAlbum (albumId : String) (deleteToken : Option String) (correlationId : String) (actorUser : Option User)
  | deleteMedia (mediaId : String) (deleteToken : Option String) (correlationId : String) (actorUser : Option User)
  | pruneExpiredAlbums (rt : Runtime)

namespace Deletion

def program : Deletion → Prog Unit
  | .deleteAlbum albumId deleteToken correlationId actorUser => do
    let _ ← Service.deleteAlbum albumId deleteToken correlationId actorUser
    return ()
  | .deleteMedia mediaId deleteToken correlationId actorUser => do
    let _ ← Service.deleteMedia mediaId deleteToken correlationId actorUser
    return ()
  | .pruneExpiredAlbums rt => do
    let _ ← Service.pruneExpiredAlbums rt false
    return ()

/-- The size an event of this deletion reports; the event of an album that `delete_media`
    has emptied is about no item. -/
def size : Deletion → BusEvent → Option Nat
  | .deleteMedia _ _ _ _, .mediaDeleted _ _ _ _ _ fileSize _ _ => some fileSize
  | .deleteAlbum _ _ _ _, .albumDeleted _ _ _ _ _ totalSize _ _ => some totalSize
  | .pruneExpiredAlbums _, .albumDeleted _ _ _ _ _ totalSize _ _ => some totalSize
  | _, _ => none

end Deletion

/-- The rows without the album, or without the item, an event is about. -/
def withoutSubject (w : World) : BusEvent → World
  | .albumDeleted albumId _ _ _ _ _ _ _ => (w.deleteAlbumRow albumId).2
  | .mediaDeleted mediaId _ _ _ _ _ _ _ => { w with media := w.media.delete mediaId }
  | _ => w

/-- Each size reported since is what deleting its subject takes off the total; together they
    are what has gone. -/
def SizesMatch (d : Deletion) (before after : World) : Prop :=
  ∃ sent, after.events = before.events ++ sent ∧
    (∀ e ∈ sent, ∀ n, d.size e = some n → n + storedBytes (withoutSubject before e) = storedBytes before) ∧
    (sent.filterMap d.size).sum + storedBytes after = storedBytes before

/-- The items an allowed deletion takes are counted once; a prune may take any. -/
def Deletion.CountsOnce (w : World) : Deletion → Prop
  | .deleteAlbum albumId deleteToken _ actorUser =>
    ∀ album, w.albums.find? albumId = some album →
      permits w.clock album deleteToken actorUser (actorUser.any (·.isAdmin)) = true → ∀ m ∈ w.mediaOf albumId, CountedOnce m
  | .deleteMedia mediaId deleteToken _ actorUser =>
    ∀ m album, w.media.find? mediaId = some m → w.albums.find? m.albumId = some album →
      permits w.clock album deleteToken actorUser false = true → CountedOnce m
  | .pruneExpiredAlbums _ => True

/-! ## Bytes -/

theorem storageBytes_le (m : Media) : storageBytes m ≤ reportedBytes m := by
  unfold storageBytes reportedBytes
  split <;> omega

theorem countedOnce_iff (m : Media) : CountedOnce m ↔ reportedBytes m = storageBytes m := by
  unfold CountedOnce storageBytes reportedBytes
  by_cases hkey : (truthy m.thumbKey && m.thumbKey != some m.storageKey) = true
  · rw [if_pos hkey]
    have hown : truthy m.thumbKey = true ∧ m.thumbKey ≠ some m.storageKey := by simpa using hkey
    exact iff_of_true (.inr hown) rfl
  · rw [if_neg hkey]
    have hnot : ¬ (truthy m.thumbKey = true ∧ m.thumbKey ≠ some m.storageKey) := by simpa using hkey
    simp only [hnot, or_false]
    omega

theorem reported_eq_iff (items : List Media) :
    (items.map reportedBytes).sum = storageBytesForMedia items ↔ ∀ m ∈ items, CountedOnce m := by
  have h := tally_eq_iff storageBytes reportedBytes (l := items) fun m _ => storageBytes_le m
  simp only [countedOnce_iff]
  exact h

/-- The bytes of an album are what its deletion takes off the total. -/
theorem bytes_deleteAlbumRow {w : World} {albumId : String} (h : (w.albums.find? albumId).isSome = true) :
    storageBytesForMedia (w.mediaOf albumId) + storedBytes (w.deleteAlbumRow albumId).2 = storedBytes w := by
  obtain ⟨album, halbum⟩ := Option.isSome_iff_exists.mp h
  have hrest : (w.deleteAlbumRow albumId).2.media.rows = w.media.rows.filter (!·.albumId == albumId) := by
    show w.media.rows.filter _ = _
    simp only [gone_contains halbum]
  rw [storedBytes, hrest]
  exact tally_filter_add storageBytes (·.albumId == albumId) w.media.rows

theorem bytes_deleteMedia {w : World} {mediaId : String} {m : Media} (h : w.media.find? mediaId = some m) :
    storageBytes m + storedBytes { w with media := w.media.delete mediaId } = storedBytes w := by
  have hone : w.media.rows.filter (·.id == mediaId) = [m] := Table.filter_key h
  have hsplit := tally_filter_add storageBytes (·.id == mediaId) w.media.rows
  rw [hone] at hsplit
  exact hsplit

/-! ## Runs whose items are counted once -/

variable {C : Req → Option PyExc → World → Prop} {w w' : World} {d : Deletion}

theorem sizesMatch_of_undisturbed (h : Undisturbed w w') : SizesMatch d w w' := by
  refine ⟨[], by rw [h.events, List.append_nil], fun e he => (nomatch he), ?_⟩
  rw [storedBytes, h.media]
  exact Nat.zero_add _

/-- A call that changes no item and sends nothing. -/
theorem SizesMatch.kept {w₁ : World} (h : SizesMatch d w w₁) (hmedia : w'.media = w₁.media)
    (hevents : w'.events = w₁.events) : SizesMatch d w w' := by
  obtain ⟨sent, hsent, heach, htogether⟩ := h
  refine ⟨sent, hevents.trans hsent, heach, ?_⟩
  rw [storedBytes, hmedia]
  exact htogether

theorem SizesMatch.undisturbed {w₁ : World} (h : SizesMatch d w w₁) (h' : Undisturbed w₁ w') : SizesMatch d w w' :=
  h.kept h'.media h'.events

/-- A deletion and its event. -/
theorem SizesMatch.reported {w₁ : World} {e : BusEvent} {n : Nat} (h : SizesMatch d w w₁) (hsize : d.size e = some n)
    (heach : n + storedBytes (withoutSubject w e) = storedBytes w) (hevents : w'.events = w₁.events ++ [e])
    (hbytes : n + storedBytes w' = storedBytes w₁) : SizesMatch d w w' := by
  obtain ⟨sent, hsent, hbefore, htogether⟩ := h
  refine ⟨sent ++ [e], by rw [hevents, hsent, List.append_assoc], ?_, ?_⟩
  · intro e' he' m hm
    rcases List.mem_append.mp he' with he' | he'
    · exact hbefore e' he' m hm
    · obtain rfl := List.mem_singleton.mp he'
      obtain rfl := Option.some.inj (hsize.symm.trans hm)
      exact heach
  · rw [List.filterMap_append, List.sum_append]
    simp only [List.filterMap_cons, hsize, List.filterMap_nil, List.sum_singleton]
    omega

/-- An event about no item. -/
theorem SizesMatch.sent {w₁ : World} {e : BusEvent} (h : SizesMatch d w w₁) (hsize : d.size e = none)
    (hevents : w'.events = w₁.events ++ [e]) (hmedia : w'.media = w₁.media) : SizesMatch d w w' := by
  obtain ⟨sent, hsent, hbefore, htogether⟩ := h
  refine ⟨sent ++ [e], by rw [hevents, hsent, List.append_assoc], ?_, ?_⟩
  · intro e' he' m hm
    rcases List.mem_append.mp he' with he' | he'
    · exact hbefore e' he' m hm
    · obtain rfl := List.mem_singleton.mp he'
      exact nomatch hsize.symm.trans hm
  · rw [List.filterMap_append, storedBytes, hmedia]
    simp only [List.filterMap_cons, hsize, List.filterMap_nil, List.append_nil]
    exact htogether

/-- What is permitted later was permitted before. -/
theorem permits_before {now now' : DateTime} (h : now ≤ now') {album : Album} {deleteToken : Option String}
    {actorUser : Option User} {allowExpired : Bool} (hpermits : permits now' album deleteToken actorUser allowExpired = true) :
    permits now album deleteToken actorUser allowExpired = true := by
  unfold permits at hpermits ⊢
  rw [Bool.and_eq_true] at hpermits ⊢
  refine ⟨?_, hpermits.2⟩
  cases allowExpired with
  | true => rfl
  | false =>
    have hlater := hpermits.1
    rcases hexpiry : album.expiresAt with _ | t
    · rfl
    · rw [hexpiry] at hlater
      have hnot : ¬ t ≤ now' := by simpa [isExpired] using hlater
      have hbefore : ¬ t ≤ now := fun ht => hnot (Int.le_trans ht h)
      simpa [isExpired] using hbefore

theorem deleteAlbum_matches {albumId correlationId : String} {deleteToken : Option String} {actorUser : Option User}
    (h : (Deletion.deleteAlbum albumId deleteToken correlationId actorUser).CountsOnce w) :
    wp (backend.alone C) (fun _ w' => SizesMatch (.deleteAlbum albumId deleteToken correlationId actorUser) w w')
      (Deletion.deleteAlbum albumId deleteToken correlationId actorUser).program w := by
  refine wp_seq (R := fun _ w' => SizesMatch _ w w') ?_ (fun _ _ h => h) fun _ _ h => h
  refine wp_seq (getAlbumOr404_aside albumId) (fun album w₁ halbum => ?_) fun e w₁ h => sizesMatch_of_undisturbed h.1
  obtain ⟨hw₁, hfind⟩ := halbum
  replace hfind := hfind album rfl
  refine wp_seq (requireAlbumAccess_aside album deleteToken actorUser _) (fun _ w₂ haccess => ?_) fun e w₂ h =>
    sizesMatch_of_undisturbed (hw₁.trans h.1)
  have honce := h album hfind (permits_before hw₁.clock (haccess.2 rfl))
  have hw₂ := hw₁.trans haccess.1
  refine wp_aside ⟨rfl, rfl, fun _ => nofun⟩ (fun _ _ w₃ _ hw₃ _ => ?_) fun e w₃ hw₃ =>
    sizesMatch_of_undisturbed (hw₂.trans hw₃)
  replace hw₃ := hw₂.trans hw₃
  refine wp_deleteAlbum (fun w₄ hw₄ => sizesMatch_of_undisturbed (hw₃.trans hw₄))
    (fun deleted w₄ hdeleted halbums hmedia hevents => ?_) fun e w₄ hw₄ => sizesMatch_of_undisturbed (hw₃.trans hw₄)
  refine wp_seq (deleteMediaStorageKeys_aside _) (fun _ w₅ hw₅ => ?_) fun e w₅ hw₅ => nomatch hw₅.1
  refine wp_emit fun w₆ _ hmedia₆ hevents₆ => ?_
  -- the bytes of the rows are those the event reports
  have hid : deleted.id = albumId := Table.find?_key hdeleted
  have hreported : ((w₃.listAlbumMedia albumId).map fun item => item.fileSize + item.thumbSize.getD 0).sum =
      storageBytesForMedia (w.mediaOf albumId) := by
    rw [hw₃.listAlbumMedia, ← (reported_eq_iff (w.mediaOf albumId)).mpr honce]
    exact tally_perm reportedBytes (listAlbumMedia_perm w albumId)
  have hbytes := @bytes_deleteAlbumRow w albumId (by rw [hfind]; rfl)
  have hafter : storedBytes w₆ = storedBytes (w.deleteAlbumRow albumId).2 := by
    rw [storedBytes, hmedia₆, hw₅.2.media, hmedia]
    show storageBytesForMedia (Table.deleteWhere _ _).rows = _
    rw [hw₃.albums, hw₃.media]
    rfl
  refine (sizesMatch_of_undisturbed hw₃).reported (e := .albumDeleted deleted.id deleted.userId (actorUser.map (·.id))
    (actorKind actorUser deleteToken) (w₃.listAlbumMedia albumId).length
    ((w₃.listAlbumMedia albumId).map fun item => item.fileSize + item.thumbSize.getD 0).sum "web" correlationId) rfl ?_
    (hevents₆.trans ?_) ?_
  · show _ + storedBytes (w.deleteAlbumRow deleted.id).2 = _
    rw [hreported, hid]
    exact hbytes
  · rw [hw₅.2.events, hevents]
  · rw [hreported, hafter, storedBytes, storedBytes, hw₃.media]
    exact hbytes

/-- The row, its objects, the event. -/
theorem removeMedia_matches {mediaId correlationId : String} {deleteToken : Option String} {actorUser : Option User} {m : Media}
    (hfind : w.media.find? mediaId = some m) (honce : CountedOnce m) {w₁ : World} (hw₁ : Undisturbed w w₁) :
    wp (backend.alone C) (fun _ w' => SizesMatch (.deleteMedia mediaId deleteToken correlationId actorUser) w w')
      (removeMedia mediaId deleteToken correlationId actorUser) w₁ := by
  rw [removeMedia]
  apply wp_alone_await
  · intro d fault found _ hreply
    have hexec := answer_of_ok hreply
    have hw₂ := hw₁.trans (.elapse d w₁)
    rw [hexec] at hreply ⊢
    have hfound : (backend.elapse d w₁).media.find? mediaId = found := Except.ok.inj hreply
    rw [hw₂.media, hfind] at hfound
    subst hfound
    dsimp only
    refine wp_seq (deleteMediaStorageKeys_aside _) (fun _ w₃ hw₃ => ?_) fun e w₃ hw₃ => nomatch hw₃.1
    refine wp_emit fun w₄ _ hmedia₄ hevents₄ => ?_
    have hid : m.id = mediaId := Table.find?_key hfind
    have hmedia : w₄.media = w.media.delete mediaId := by
      rw [hmedia₄, hw₃.2.media, ← hw₂.media]
      rfl
    have hbytes : reportedBytes m + storedBytes { w with media := w.media.delete mediaId } = storedBytes w := by
      rw [(countedOnce_iff m).mp honce]
      exact bytes_deleteMedia hfind
    refine (sizesMatch_of_undisturbed hw₂).reported (e := .mediaDeleted m.id m.albumId m.userId (actorUser.map (·.id))
      (actorKind actorUser deleteToken) (m.fileSize + m.thumbSize.getD 0) (sourceOf actorUser) correlationId) rfl ?_
      (hevents₄.trans ?_) ?_
    · show reportedBytes m + storedBytes { w with media := w.media.delete m.id } = _
      rw [hid]
      exact hbytes
    · rw [hw₃.2.events]
      rfl
    · show reportedBytes m + tally storageBytes w₄.media.rows = tally storageBytes (backend.elapse d w₁).media.rows
      rw [hmedia, hw₂.media]
      exact hbytes
  · intro d fault e _ hreply
    refine sizesMatch_of_undisturbed ?_
    rcases answer_cases 0 (.deleteMedia mediaId) fault (backend.elapse d w₁) with h | ⟨e', -, h⟩
    · rw [h] at hreply
      cases hreply
    · rw [h]
      exact hw₁.trans ((Undisturbed.elapse d w₁).trans ⟨rfl, rfl, rfl, Int.le_refl _⟩)

/-- An album without items takes none along. -/
theorem deleteAlbumRow_emptied {w : World} {albumId : String} (h : w.mediaOf albumId = []) :
    (w.deleteAlbumRow albumId).2.media = w.media := by
  refine Table.deleteWhere_none fun m hm => Bool.eq_false_iff.mpr fun hgone => ?_
  rw [List.contains_iff_mem, List.mem_map] at hgone
  obtain ⟨album, halbum, hid⟩ := hgone
  have halbumId : album.id = albumId := by simpa using (List.mem_filter.mp halbum).2
  have hmem : m ∈ w.mediaOf albumId := List.mem_filter.mpr ⟨hm, by simp [← hid, halbumId]⟩
  rw [h] at hmem
  cases hmem

theorem deleteEmptiedAlbum_matches {mediaId albumId correlationId : String} {deleteToken : Option String}
    {actorUser : Option User} (deletedMedia : Media) {w₁ : World}
    (h : SizesMatch (.deleteMedia mediaId deleteToken correlationId actorUser) w w₁) (hempty : w₁.mediaOf albumId = []) :
    wp (backend.alone C) (fun _ w' => SizesMatch (.deleteMedia mediaId deleteToken correlationId actorUser) w w')
      (deleteEmptiedAlbum albumId deletedMedia deleteToken correlationId actorUser) w₁ := by
  rw [deleteEmptiedAlbum]
  refine wp_deleteAlbum (fun w₂ hw₂ => h.undisturbed hw₂) (fun deleted w₂ hdeleted _ hmedia hevents => ?_) fun e w₂ hw₂ =>
    h.undisturbed hw₂
  have hw₂ := h.kept (hmedia.trans (deleteAlbumRow_emptied hempty)) hevents
  refine wp_emit fun w₃ _ hmedia₃ hevents₃ => ?_
  exact hw₂.sent (e := .albumDeleted _ _ _ _ _ _ _ _) rfl hevents₃ hmedia₃

theorem keepAlbum_matches {mediaId correlationId : String} {deleteToken : Option String} {actorUser : Option User}
    (album : Album) (deletedMedia : Media) (remainingItems : List Media) {w₁ : World}
    (h : SizesMatch (.deleteMedia mediaId deleteToken correlationId actorUser) w w₁) :
    wp (backend.alone C) (fun _ w' => SizesMatch (.deleteMedia mediaId deleteToken correlationId actorUser) w w')
      (keepAlbum album deletedMedia remainingItems) w₁ := by
  rw [keepAlbum, wp_bind, wp_attempt]
  refine (wp_perform w₁).mpr ⟨trivial, ?_⟩
  rintro x w' ⟨d, fault, -, hanswer⟩
  have hmedia := @answer_media 0 (.updateAlbum (if album.coverMediaId = some deletedMedia.id then
    { album with coverMediaId := none } else album)) fault (backend.elapse d w₁) rfl
  have hevents := @answer_events 0 (.updateAlbum (if album.coverMediaId = some deletedMedia.id then
    { album with coverMediaId := none } else album)) fault (backend.elapse d w₁) fun _ => nofun
  rw [hanswer] at hmedia hevents
  have hw' := h.kept hmedia hevents
  rw [bindPost_ok]
  rcases x with e | a
  · cases e <;> exact hw'
  · exact hw'

theorem deleteMedia_matches {mediaId correlationId : String} {deleteToken : Option String} {actorUser : Option User}
    (h : (Deletion.deleteMedia mediaId deleteToken correlationId actorUser).CountsOnce w) :
    wp (backend.alone C) (fun _ w' => SizesMatch (.deleteMedia mediaId deleteToken correlationId actorUser) w w')
      (Deletion.deleteMedia mediaId deleteToken correlationId actorUser).program w := by
  refine wp_seq (R := fun _ w' => SizesMatch _ w w') ?_ (fun _ _ h => h) fun _ _ h => h
  rw [Service.deleteMedia]
  refine wp_seq (getMediaOr404_aside mediaId) (fun m w₁ hm => ?_) fun e w₁ h => sizesMatch_of_undisturbed h.1
  obtain ⟨hw₁, hfind⟩ := hm
  replace hfind := hfind m rfl
  refine wp_seq (getAlbumOr404_aside m.albumId) (fun album w₂ halbum => ?_) fun e w₂ h =>
    sizesMatch_of_undisturbed (hw₁.trans h.1)
  have hw₂ := hw₁.trans halbum.1
  have halbum := halbum.2 album rfl
  rw [hw₁.albums] at halbum
  refine wp_seq (requireAlbumAccess_aside album deleteToken actorUser false) (fun _ w₃ haccess => ?_) fun e w₃ h =>
    sizesMatch_of_undisturbed (hw₂.trans h.1)
  have honce := h m album hfind halbum (permits_before hw₂.clock (haccess.2 rfl))
  have hw₃ := hw₂.trans haccess.1
  refine wp_seq (removeMedia_matches hfind honce hw₃) (fun deletedMedia w₄ hw₄ => ?_) fun e w₄ hw₄ => hw₄
  refine wp_aside ⟨rfl, rfl, fun _ => nofun⟩ (fun items w₅ w₆ hw₅ hw₆ hitems => ?_) fun e w₅ hw₅ => hw₄.undisturbed hw₅
  obtain rfl := Except.ok.inj hitems
  split
  · rename_i hempty
    have hnone : w₅.listAlbumMedia album.id = [] := List.isEmpty_iff.mp hempty
    rw [hw₅.listAlbumMedia] at hnone
    have hmediaOf : w₆.mediaOf album.id = [] := by
      rw [hw₆.mediaOf]
      have hperm := listAlbumMedia_perm w₄ album.id
      rw [hnone] at hperm
      exact List.nil_perm.mp hperm
    exact deleteEmptiedAlbum_matches deletedMedia (hw₄.undisturbed hw₆) hmediaOf
  · exact keepAlbum_matches album deletedMedia _ (hw₄.undisturbed hw₆)

/-! ## The loop of the prune -/

/-- The albums that are left have all their items. -/
def Remaining (w w' : World) : Prop :=
  ∀ albumId, (w'.albums.find? albumId).isSome = true →
    w'.albums.find? albumId = w.albums.find? albumId ∧ w'.mediaOf albumId = w.mediaOf albumId

theorem Remaining.undisturbed {w₁ : World} (h : Remaining w w₁) (h' : Undisturbed w₁ w') : Remaining w w' := by
  intro albumId hsome
  rw [h'.albums] at hsome ⊢
  rw [h'.mediaOf]
  exact h albumId hsome

theorem Remaining.deleted {w₁ : World} {albumId : String} (h : Remaining w w₁)
    (halbums : w'.albums = (w₁.deleteAlbumRow albumId).2.albums) (hmedia : w'.media = (w₁.deleteAlbumRow albumId).2.media) :
    Remaining w w' := by
  intro other hsome
  have hfind : w'.albums.find? other = if other = albumId then none else w₁.albums.find? other := by
    rw [halbums]
    exact find?_deleteAlbumRow (i := 0) albumId other
  rw [hfind] at hsome ⊢
  by_cases hother : other = albumId
  · simp [hother] at hsome
  · rw [if_neg hother] at hsome ⊢
    have hkept : w'.mediaOf other = w₁.mediaOf other := by
      rw [World.mediaOf, hmedia]
      exact mediaOf_deleteAlbumRow w₁ hother
    rw [hkept]
    exact h other hsome

/-- One turn. -/
theorem pruneAlbum_matches {rt : Runtime} (dryRun : Bool) (tally : PruneTally) (album : Album) {w₁ : World}
    (h : SizesMatch (.pruneExpiredAlbums rt) w w₁) (hremaining : Remaining w w₁) :
    wp (backend.alone C) (fun _ w' => SizesMatch (.pruneExpiredAlbums rt) w w' ∧ Remaining w w')
      (pruneAlbum dryRun tally album) w₁ := by
  have haside : ∀ {w₂}, Undisturbed w₁ w₂ → SizesMatch (.pruneExpiredAlbums rt) w w₂ ∧ Remaining w w₂ :=
    fun hw₂ => ⟨h.undisturbed hw₂, hremaining.undisturbed hw₂⟩
  rw [pruneAlbum]
  refine wp_aside ⟨rfl, rfl, fun _ => nofun⟩ (fun items _ w₂ _ hw₂ _ => ?_) fun e w₂ hw₂ => haside hw₂
  split
  · exact haside hw₂
  · refine wp_seq (deleteKeys_aside _) (fun storageOk w₃ hw₃ => ?_) fun e w₃ hw₃ => haside (hw₂.trans hw₃.2)
    replace hw₃ := hw₂.trans hw₃.2
    split
    · rw [pruneRows, sequence_assoc]
      refine wp_deleteAlbum (fun w₄ hw₄ => haside (hw₃.trans hw₄)) (fun deleted w₄ hdeleted halbums hmedia hevents => ?_)
        fun e w₄ hw₄ => haside (hw₃.trans hw₄)
      have hid : deleted.id = album.id := Table.find?_key hdeleted
      have hsome : (w₃.albums.find? album.id).isSome = true := by rw [hdeleted]; rfl
      obtain ⟨hrow, hitems⟩ := (haside hw₃).2 album.id hsome
      have hsize : storageBytesForMedia (w₃.listAlbumMedia album.id) = storageBytesForMedia (w.mediaOf album.id) := by
        rw [← hitems]
        exact tally_perm storageBytes (listAlbumMedia_perm w₃ album.id)
      refine wp_emit fun w₅ halbums₅ hmedia₅ hevents₅ => ⟨(haside hw₃).1.reported (e := .albumDeleted deleted.id
        deleted.userId none .system (w₃.listAlbumMedia album.id).length
        (storageBytesForMedia (w₃.listAlbumMedia album.id)) "system" ("prune-" ++ deleted.id)) rfl ?_ ?_ ?_,
        (haside hw₃).2.deleted (halbums₅.trans halbums) (hmedia₅.trans hmedia)⟩
      · show _ + storedBytes (w.deleteAlbumRow deleted.id).2 = _
        rw [hsize, hid]
        exact bytes_deleteAlbumRow (by rw [← hrow]; exact hsome)
      · rw [hevents₅, hevents]
      · rw [hsize, ← hitems]
        have hbytes := bytes_deleteAlbumRow hsome
        rw [storedBytes, hmedia₅, hmedia]
        exact hbytes
    · exact haside hw₃

theorem prune_matches (rt : Runtime) :
    wp (backend.alone C) (fun _ w' => SizesMatch (.pruneExpiredAlbums rt) w w') (Deletion.pruneExpiredAlbums rt).program w := by
  refine wp_seq (R := fun _ w' => SizesMatch _ w w') ?_ (fun _ _ h => h) fun _ _ h => h
  rw [Service.pruneExpiredAlbums]
  refine wp_aside ⟨rfl, rfl, fun _ => nofun⟩ (fun now _ w₁ _ hw₁ _ => ?_) fun e w₁ hw₁ => sizesMatch_of_undisturbed hw₁
  refine wp_aside ⟨rfl, rfl, fun _ => nofun⟩ (fun expired _ w₂ _ hw₂ _ => ?_) fun e w₂ hw₂ =>
    sizesMatch_of_undisturbed (hw₁.trans hw₂)
  have hstart : SizesMatch (.pruneExpiredAlbums rt) w w₂ ∧ Remaining w w₂ := by
    have hw := hw₁.trans hw₂
    exact ⟨sizesMatch_of_undisturbed hw, Remaining.undisturbed (fun _ _ => ⟨rfl, rfl⟩) hw⟩
  refine wp_seq (R := fun _ w' => SizesMatch _ w w') ?_ (fun tally w₃ hw₃ => ?_) fun _ _ h => h
  · refine wp_foldEach (I := fun _ _ w' => SizesMatch (.pruneExpiredAlbums rt) w w' ∧ Remaining w w')
      (fun album rest tally w₁ h => ?_) (fun _ _ h => h.1) hstart
    refine wp_mono (fun x w' h => ?_) (pruneAlbum_matches false tally album h.1 h.2)
    cases x with
    | ok _ => exact h
    | error e => exact h.1
  · refine wp_mono (fun x w' hw' => hw₃.undisturbed hw') (wp_undisturbed ?_)
    have hasides : ∀ r, Req.changesAlbums r = false → Req.changesMedia r = false → (∀ event, r ≠ .emit event) → Aside r :=
      fun _ halbums hmedia hemit => ⟨halbums, hmedia, hemit⟩
    exact uses_bind (pruneAuditLog_uses (hasides _ rfl rfl fun _ => nofun) (fun _ => hasides _ rfl rfl fun _ => nofun)
      (fun _ => hasides _ rfl rfl fun _ => nofun) rt false) fun _ =>
      uses_bind (pruneCapabilities_uses (fun _ => hasides _ rfl rfl fun _ => nofun)
        (fun _ => hasides _ rfl rfl fun _ => nofun) (fun _ => hasides _ rfl rfl fun _ => nofun) false now) fun _ => trivial

/-! ## What the sizes of a quiet run say -/

/-- The first event of a run, if its sizes match. -/
theorem SizesMatch.first {event : BusEvent} {n : Nat} (h : SizesMatch d w w')
    (hevents : w.events ++ [event] <+: w'.events) (hsize : d.size event = some n) :
    n + storedBytes (withoutSubject w event) = storedBytes w := by
  obtain ⟨sent, hsent, heach, -⟩ := h
  rw [hsent, List.prefix_append_right_inj] at hevents
  exact heach event (hevents.subset List.mem_cons_self) n hsize

theorem quiet_deleteKeys (items : List Media) {α : Type} (f : Unit → Prog α) (w : World) :
    ∃ w', Undisturbed w w' ∧
      runAlone backend (deleteMediaStorageKeys items >>= f) [] w = runAlone backend (f ()) [] w' := by
  obtain ⟨hok, hw'⟩ := wp_alone (C := fun _ _ _ => True) (deleteMediaStorageKeys_aside (w := w) items) []
    (meetsAlone_true _ _ _)
  refine ⟨_, hw', ?_⟩
  rw [runAlone_bind]
  rcases hrun : runAlone backend (deleteMediaStorageKeys items) [] w with ⟨e | _, w₁⟩
  · rw [hrun] at hok
    cases hok
  · rfl

theorem countsOnce_deleteAlbum {albumId correlationId : String} {deleteToken : Option String} {actorUser : Option User}
    (h : SizesMatch (.deleteAlbum albumId deleteToken correlationId actorUser) w
      (runAlone backend (Deletion.deleteAlbum albumId deleteToken correlationId actorUser).program [] w).2) :
    (Deletion.deleteAlbum albumId deleteToken correlationId actorUser).CountsOnce w := by
  intro album hfind hpermits
  have hlist : exec 0 (.listAlbumMedia albumId) w = (.ok (w.listAlbumMedia albumId), w) := rfl
  have hevents : w.events ++ [.albumDeleted album.id album.userId (actorUser.map (·.id)) (actorKind actorUser deleteToken)
        (w.listAlbumMedia albumId).length ((w.listAlbumMedia albumId).map reportedBytes).sum "web" correlationId] <+:
      (runAlone backend (Deletion.deleteAlbum albumId deleteToken correlationId actorUser).program [] w).2.events := by
    rw [Deletion.program, Service.deleteAlbum, sequence_assoc, quiet_getAlbum hfind, sequence_assoc,
      quiet_permitted hpermits, sequence_assoc, quiet_ask, hlist]
    dsimp only
    rw [sequence_assoc, quiet_deleteAlbum hfind]
    dsimp only
    rw [sequence_assoc]
    obtain ⟨w₁, hw₁, hrun⟩ := quiet_deleteKeys (w.listAlbumMedia albumId) _ (w.deleteAlbumRow albumId).2
    rw [hrun, sequence_assoc, show w.events = w₁.events from hw₁.events.symm]
    exact quiet_emit_sends _ _ w₁
  have hsize := h.first hevents rfl
  have hid : album.id = albumId := Table.find?_key hfind
  rw [show withoutSubject w (.albumDeleted album.id _ _ _ _ _ _ _) = (w.deleteAlbumRow album.id).2 from rfl, hid] at hsize
  have hbytes := @bytes_deleteAlbumRow w albumId (by rw [hfind]; rfl)
  have hperm : ((w.listAlbumMedia albumId).map reportedBytes).sum = ((w.mediaOf albumId).map reportedBytes).sum :=
    tally_perm reportedBytes (listAlbumMedia_perm w albumId)
  apply (reported_eq_iff _).mp
  omega

theorem countsOnce_deleteMedia {mediaId correlationId : String} {deleteToken : Option String} {actorUser : Option User}
    (h : SizesMatch (.deleteMedia mediaId deleteToken correlationId actorUser) w
      (runAlone backend (Deletion.deleteMedia mediaId deleteToken correlationId actorUser).program [] w).2) :
    (Deletion.deleteMedia mediaId deleteToken correlationId actorUser).CountsOnce w := by
  intro m album hfind halbum hpermits
  have hdelete : exec 0 (.deleteMedia mediaId) w = (.ok (some m), { w with media := w.media.delete mediaId }) := by
    rw [← hfind]
    rfl
  have hevents : w.events ++ [.mediaDeleted m.id m.albumId m.userId (actorUser.map (·.id)) (actorKind actorUser deleteToken)
        (reportedBytes m) (sourceOf actorUser) correlationId] <+:
      (runAlone backend (Deletion.deleteMedia mediaId deleteToken correlationId actorUser).program [] w).2.events := by
    rw [Deletion.program, Service.deleteMedia, sequence_assoc, quiet_getMedia hfind, sequence_assoc, quiet_getAlbum halbum,
      sequence_assoc, quiet_permitted hpermits, removeMedia, sequence_assoc, sequence_assoc, quiet_ask, hdelete]
    dsimp only
    rw [sequence_assoc]
    obtain ⟨w₁, hw₁, hrun⟩ := quiet_deleteKeys [m] _ { w with media := w.media.delete mediaId }
    rw [hrun, sequence_assoc, show w.events = w₁.events from hw₁.events.symm]
    exact quiet_emit_sends _ _ w₁
  have hsize := h.first hevents rfl
  have hid : m.id = mediaId := Table.find?_key hfind
  rw [show withoutSubject w (.mediaDeleted m.id _ _ _ _ _ _ _) = { w with media := w.media.delete m.id } from rfl,
    hid] at hsize
  have hbytes := bytes_deleteMedia hfind
  apply (countedOnce_iff m).mpr
  omega

theorem freed_sizes_match_iff (d : Deletion) (w : World) :
    (∀ ms, SizesMatch d w (runAlone backend d.program ms w).2) ↔ d.CountsOnce w := by
  constructor
  · intro h
    cases d with
    | deleteAlbum => exact countsOnce_deleteAlbum (h [])
    | deleteMedia => exact countsOnce_deleteMedia (h [])
    | pruneExpiredAlbums => trivial
  · intro h ms
    have hmeets := meetsAlone_true (B := backend) d.program ms w
    cases d with
    | deleteAlbum => exact wp_alone (deleteAlbum_matches h) ms hmeets
    | deleteMedia => exact wp_alone (deleteMedia_matches h) ms hmeets
    | pruneExpiredAlbums rt => exact wp_alone (prune_matches rt) ms hmeets

namespace Sample

open Imghost.Service.Sample

/-- Takes the original for the thumbnail. -/
def ownThumbnail : MediaProcessor :=
  { processor with
    generateThumbnail _ payload _ := .ok { data := none, thumbIsOrig := true, format := "png", size := payload.length } }

/-- The item of one byte, its object, and its album. -/
def uploaded : World :=
  { world with
    albums := .single album
    media := .single (media "m")
    objects := fun key => if key = "originals/anon/m.png" then some [1] else none }

/-- The thumbnail job has run. -/
def thumbnailed : World :=
  (runAlone backend (generateThumbnail { runtime with processors := fun _ => some ownThumbnail } "m" 1 1) [] uploaded).2

def deletion : Deletion := .deleteMedia "m" (some "t") "c" none

def deleted : World := (runAlone backend deletion.program [] thumbnailed).2

end Sample

open Sample in
/-- An original of one byte, its own thumbnail: the event says two bytes, one has gone. -/
theorem an_original_counted_twice :
    deleted.events.filterMap deletion.size = [2] ∧ storedBytes thumbnailed = 1 ∧ storedBytes deleted = 0 ∧
      ¬ SizesMatch deletion thumbnailed deleted := by
  have hsent : deleted.events.filterMap deletion.size = [2] := by decide +kernel
  have hnone : thumbnailed.events = [] := by decide +kernel
  have hbefore : storedBytes thumbnailed = 1 := by decide +kernel
  have hafter : storedBytes deleted = 0 := by decide +kernel
  refine ⟨hsent, hbefore, hafter, ?_⟩
  intro ⟨sent, hevents, _, htogether⟩
  rw [hnone, List.nil_append] at hevents
  rw [← hevents, hsent, hbefore, hafter] at htogether
  cases htogether

end Imghost.Accounting
