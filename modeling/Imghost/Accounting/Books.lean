/-
  Imghost.Accounting.Books — the calls that leave the books alone.

  The books are the album rows, the media rows and the events sent. Reads leave them
  alone, and so do the calls to the object storage, whether they fail or not.
-/

import Imghost.Data.Sums
import Imghost.Service.Alone
import Imghost.Service.Footprint
import Imghost.Service.Positions
import Imghost.Service.Steps

namespace Imghost.Accounting

open Imghost.Async Imghost.Data Imghost.Model Imghost.Service Program

/-- `_storage_bytes_for_media` over all media. -/
def storedBytes (w : World) : Nat := storageBytesForMedia w.media.rows

/-- The books are as they were. -/
structure Undisturbed (w w' : World) : Prop where
  albums : w'.albums = w.albums
  media : w'.media = w.media
  events : w'.events = w.events
  clock : w.clock ≤ w'.clock

variable {α β : Type} {C : Req → Option PyExc → World → Prop} {w w₁ w₂ w' : World}

namespace Undisturbed

theorem refl (w : World) : Undisturbed w w := ⟨rfl, rfl, rfl, Int.le_refl _⟩

theorem trans (h : Undisturbed w w₁) (h' : Undisturbed w₁ w₂) : Undisturbed w w₂ :=
  ⟨h'.albums.trans h.albums, h'.media.trans h.media, h'.events.trans h.events, Int.le_trans h.clock h'.clock⟩

theorem elapse (d : Nat) (w : World) : Undisturbed w (backend.elapse d w) :=
  ⟨rfl, rfl, rfl, Int.le_add_of_nonneg_right (Int.natCast_nonneg d)⟩

theorem mediaOf (h : Undisturbed w w') (albumId : String) : w'.mediaOf albumId = w.mediaOf albumId := by
  rw [World.mediaOf, h.media]
  rfl

theorem listAlbumMedia (h : Undisturbed w w') (albumId : String) : w'.listAlbumMedia albumId = w.listAlbumMedia albumId := by
  rw [World.listAlbumMedia, h.mediaOf]
  rfl

end Undisturbed

/-- A call that can change neither the rows nor the events. -/
def Aside (r : Req) : Prop := Req.changesAlbums r = false ∧ Req.changesMedia r = false ∧ ∀ event, r ≠ .emit event

theorem Aside.undisturbed {r : Req} {i : Nat} {fault : Option PyExc} (h : Aside r) :
    Undisturbed w (backend.answer i r fault w).2 :=
  ⟨answer_albums h.1, answer_media h.2.1, answer_events h.2.2, Int.le_of_eq answer_clock.symm⟩

/-! ## Rules -/

/-- One such call, and what follows it. -/
theorem wp_aside {Q : Except PyExc β → World → Prop} {r : Req} {f : Reply r → Prog β} (hr : Aside r)
    (hok : ∀ a w₁ w', Undisturbed w w₁ → Undisturbed w w' → (exec 0 r w₁).1 = .ok a → wp (backend.alone C) Q (f a) w')
    (herr : ∀ e w', Undisturbed w w' → Q (.error e) w') : wp (backend.alone C) Q (ask r >>= f) w := by
  apply wp_alone_await
  · intro d fault a _ hreply
    exact hok a _ _ (.elapse d w) ((Undisturbed.elapse d w).trans hr.undisturbed) (exec_of_ok hreply)
  · intro d fault e _ _
    exact herr e _ ((Undisturbed.elapse d w).trans hr.undisturbed)

/-- A program of such calls. -/
theorem wp_undisturbed {p : Prog α} (hp : p.Uses Aside) : wp (backend.alone C) (fun _ w' => Undisturbed w w') p w := by
  refine wp_of_uses (I := fun w' => Undisturbed w w') (fun r w₁ hr hw => ⟨trivial, ?_⟩) hp (.refl w) fun _ _ hw => hw
  rintro x w' ⟨d, fault, -, h⟩
  have := (hw.trans (.elapse d w₁)).trans (@Aside.undisturbed (backend.elapse d w₁) _ 0 fault hr)
  rwa [h] at this

theorem wp_emit {Q : Except PyExc β → World → Prop} {event : BusEvent} {f : Unit → Prog β}
    (h : ∀ w', w'.albums = w.albums → w'.media = w.media → w'.events = w.events ++ [event] → wp (backend.alone C) Q (f ()) w') :
    wp (backend.alone C) Q (EventBus.emit event >>= f) w := by
  apply wp_alone_await
  · intro d fault a _ _
    cases fault <;> exact h _ rfl rfl rfl
  · intro d fault e _ herr
    cases fault <;> cases herr

/-! ## Looking things up -/

theorem getAlbumOr404_aside (albumId : String) :
    wp (backend.alone C) (fun x w' => Undisturbed w w' ∧ ∀ album, x = .ok album → w.albums.find? albumId = some album)
      (getAlbumOr404 albumId) w := by
  refine wp_and (wp_undisturbed ?_) (wp_mono (fun x w' h => h.2) (getAlbumOr404_finds albumId))
  refine uses_bind (uses_perform ⟨rfl, rfl, fun _ => nofun⟩) fun found => ?_
  cases found <;> trivial

theorem getMediaOr404_aside (mediaId : String) :
    wp (backend.alone C) (fun x w' => Undisturbed w w' ∧ ∀ m, x = .ok m → w.media.find? mediaId = some m)
      (getMediaOr404 mediaId) w := by
  refine wp_and (wp_undisturbed ?_) (wp_mono (fun x w' h => h.2) (getMediaOr404_finds mediaId))
  refine uses_bind (uses_perform ⟨rfl, rfl, fun _ => nofun⟩) fun found => ?_
  cases found <;> trivial

theorem permits_of_granted {album : Album} {deleteToken : Option String} {actorUser : Option User} {allowExpired : Bool}
    {now : DateTime} (hgranted : Granted album deleteToken actorUser)
    (hlive : allowExpired = false → isExpired now album.expiresAt = false) :
    permits now album deleteToken actorUser allowExpired = true := by
  have hfresh : (allowExpired || !isExpired now album.expiresAt) = true := by
    cases allowExpired with
    | true => rfl
    | false => simp [hlive rfl]
  rw [permits, hfresh, Bool.true_and]
  rcases hgranted with hactor | ⟨hsome, htoken⟩
  · rw [hactor, Bool.true_or]
  · rcases hstored : album.deleteToken with _ | token
    · exact absurd hstored hsome
    · rw [hstored] at htoken
      by_cases htruthy : truthy (some token) = true
      · simp [htoken htruthy]
      · simp [htruthy]

theorem requireAlbumAccess_aside (album : Album) (deleteToken : Option String) (actorUser : Option User) (allowExpired : Bool) :
    wp (backend.alone C)
      (fun x w' => Undisturbed w w' ∧ (x = .ok () → permits w.clock album deleteToken actorUser allowExpired = true))
      (requireAlbumAccess album deleteToken actorUser allowExpired) w := by
  refine wp_and (wp_undisturbed ?_) (wp_mono (fun x w' h hok => ?_) (requireAlbumAccess_grants album deleteToken actorUser _))
  · refine uses_bind (uses_perform ⟨rfl, rfl, fun _ => nofun⟩) fun now => uses_bind (uses_raiseIf _ _) fun _ => ?_
    split
    · trivial
    · exact uses_bind (uses_raiseIf _ _) fun _ => uses_raiseIf _ _
  · exact permits_of_granted (h.2 hok).1 (h.2 hok).2

/-! ## The storage -/

theorem aside_storageDelete (key : String) : Aside (.storageDelete key) := ⟨rfl, rfl, fun _ => nofun⟩

theorem deleteStorageKeyBestEffort_aside (key : String) {Q : Except PyExc Unit → World → Prop}
    (h : ∀ w', Undisturbed w w' → Q (.ok ()) w') : wp (backend.alone C) Q (deleteStorageKeyBestEffort key) w := by
  rw [deleteStorageKeyBestEffort, wp_tryExcept]
  refine (wp_perform w).mpr ⟨trivial, ?_⟩
  rintro x w' ⟨d, fault, -, hanswer⟩
  have hw := (Undisturbed.elapse d w).trans (@Aside.undisturbed (backend.elapse d w) _ 0 fault (aside_storageDelete key))
  rw [hanswer] at hw
  cases x <;> exact h w' hw

theorem deleteMediaStorageKeys_aside (items : List Media) :
    wp (backend.alone C) (fun x w' => x = .ok () ∧ Undisturbed w w') (deleteMediaStorageKeys items) w := by
  refine wp_forEach (I := fun _ w' => Undisturbed w w') (fun media _ w₁ hw => ?_) (fun _ hw => ⟨rfl, hw⟩) (.refl w)
  rw [wp_bind]
  refine deleteStorageKeyBestEffort_aside media.storageKey fun w₂ hw₂ => ?_
  rw [bindPost_ok]
  split
  · split
    · exact deleteStorageKeyBestEffort_aside _ fun w₃ hw₃ => (hw.trans hw₂).trans hw₃
    · exact hw.trans hw₂
  · exact hw.trans hw₂

/-- The loop that stops at a failure does not raise either. -/
theorem deleteKeys_aside (keys : List String) :
    wp (backend.alone C) (fun x w' => (∃ storageOk, x = .ok storageOk) ∧ Undisturbed w w') (deleteKeys keys) w := by
  induction keys generalizing w with
  | nil => exact ⟨⟨true, rfl⟩, .refl w⟩
  | cons key keys ih =>
    rw [deleteKeys, wp_bind, wp_attempt]
    refine (wp_perform w).mpr ⟨trivial, ?_⟩
    rintro x w' ⟨d, fault, -, h⟩
    have hw := (Undisturbed.elapse d w).trans (@Aside.undisturbed (backend.elapse d w) _ 0 fault (aside_storageDelete key))
    rw [h] at hw
    cases x with
    | ok _ => exact wp_mono (fun x w₂ h => ⟨h.1, hw.trans h.2⟩) ih
    | error e => exact ⟨⟨false, rfl⟩, hw⟩

/-! ## The deletion of an album -/

/-- With no such album, nothing goes. -/
theorem deleteAlbumRow_missing {albumId : String} (h : w.albums.find? albumId = none) :
    (w.deleteAlbumRow albumId).2.albums = w.albums ∧ (w.deleteAlbumRow albumId).2.media = w.media := by
  have hno : ∀ a ∈ w.albums, (a.id == albumId) = false := by
    intro a ha
    simpa using Table.find?_eq_none.mp h a ha
  have hgone : (w.albums.rows.filter (·.id == albumId)).map (·.id) = [] := by
    rw [List.map_eq_nil_iff, List.filter_eq_nil_iff]
    intro a ha
    rw [hno a ha]
    simp
  refine ⟨Table.deleteWhere_none hno, Table.deleteWhere_none fun m _ => ?_⟩
  rw [hgone]
  rfl

/-- The albums that go with the row are the one. -/
theorem gone_contains {albumId : String} {album : Album} (h : w.albums.find? albumId = some album) (id : String) :
    ((w.albums.rows.filter (·.id == albumId)).map (·.id)).contains id = (id == albumId) := by
  rw [Bool.eq_iff_iff, List.contains_iff_mem, List.mem_map, beq_iff_eq]
  constructor
  · intro ⟨a, ha, hid⟩
    rw [← hid]
    simpa using (List.mem_filter.mp ha).2
  · rintro rfl
    have hkey := Table.find?_key h
    exact ⟨album, List.mem_filter.mpr ⟨Table.find?_mem h, by simpa using hkey⟩, hkey⟩

/-- The items of the other albums stay. -/
theorem mediaOf_deleteAlbumRow (w : World) {albumId other : String} (h : other ≠ albumId) :
    (w.deleteAlbumRow albumId).2.mediaOf other = w.mediaOf other := by
  show List.filter _ (Table.deleteWhere _ _).rows = _
  rw [Table.deleteWhere_rows, List.filter_filter]
  refine List.filter_congr fun m _ => ?_
  by_cases hm : m.albumId = other
  · have hkept : ((w.albums.rows.filter (·.id == albumId)).map (·.id)).contains m.albumId = false := by
      rw [Bool.eq_false_iff, ne_eq, List.contains_iff_mem, List.mem_map]
      rintro ⟨a, ha, hid⟩
      have haId : a.id = albumId := by simpa using (List.mem_filter.mp ha).2
      exact h (hm.symm.trans (hid.symm.trans haId))
    rw [hkept]
    simp
  · simp [hm]

/-- The transaction: the items as they were, and the row, which takes them along. -/
theorem wp_deleteAlbum {Q : Except PyExc β → World → Prop} {albumId : String} {f : Option Album × List Media → Prog β}
    (hgone : ∀ w', Undisturbed w w' → wp (backend.alone C) Q (f (none, [])) w')
    (hdeleted : ∀ album w', w.albums.find? albumId = some album → w'.albums = (w.deleteAlbumRow albumId).2.albums →
      w'.media = (w.deleteAlbumRow albumId).2.media → w'.events = w.events →
      wp (backend.alone C) Q (f (some album, w.listAlbumMedia albumId)) w')
    (herr : ∀ e w', Undisturbed w w' → Q (.error e) w') :
    wp (backend.alone C) Q (Repository.deleteAlbum albumId >>= f) w := by
  rw [Repository.deleteAlbum, sequence_assoc]
  refine wp_aside ⟨rfl, rfl, fun _ h => by cases h⟩ (fun items w₁ w₂ hw₁ hw₂ hitems => ?_) herr
  obtain rfl := Except.ok.inj hitems
  rw [sequence_assoc]
  apply wp_alone_await
  · intro d fault album _ hreply
    have hexec := answer_of_ok hreply
    have hw₃ := hw₂.trans (.elapse d w₂)
    rw [hexec] at hreply ⊢
    have hfind : (backend.elapse d w₂).albums.find? albumId = album := Except.ok.inj hreply
    rw [hw₃.albums] at hfind
    rcases album with _ | album
    · obtain ⟨halbums, hmedia⟩ := @deleteAlbumRow_missing (backend.elapse d w₂) albumId (hw₃.albums ▸ hfind)
      exact hgone _ ⟨halbums.trans hw₃.albums, hmedia.trans hw₃.media, hw₃.events, hw₃.clock⟩
    · rw [hw₁.listAlbumMedia]
      refine hdeleted album _ hfind ?_ ?_ hw₃.events
      · show Table.deleteWhere _ _ = Table.deleteWhere _ _
        rw [hw₃.albums]
      · show Table.deleteWhere _ _ = Table.deleteWhere _ _
        rw [hw₃.albums, hw₃.media]
  · intro d fault e _ hreply
    refine herr e _ ?_
    rcases answer_cases 0 (.deleteAlbumRow albumId) fault (backend.elapse d w₂) with h | ⟨e', -, h⟩
    · rw [h] at hreply
      cases hreply
    · rw [h]
      exact hw₂.trans ((Undisturbed.elapse d w₂).trans ⟨rfl, rfl, rfl, Int.le_refl _⟩)

end Imghost.Accounting
