/-
  Imghost.Concurrency.Ownership — whose the items of an album are.

  An item belongs to whoever uploads it, an album to whoever created it. An upload to an
  album that is there is let through for the owner, or for whoever has the token of an
  album without an owner; nobody has the token of an owned album, for it has none. An
  operation that writes an album row back writes the owner it read, and an album goes with
  its owner.

  What is proved:
    • in every state that is reached, whatever runs beside, the items of an album belong to
      whom the album belongs to;
    • so a user's deletion, by itself, removes the objects of the items in the user's albums
      and no others, and every row of the user.
-/

import Imghost.Concurrency.Appends
import Imghost.Service.Alone

namespace Imghost.Concurrency.Ownership

open Imghost.Async Imghost.Async.Program Imghost.Data Imghost.Model Imghost.Service
open Imghost.Concurrency.Appends (drawnId drawnBy OneAlbum)

variable {α β : Type}

/-! ## Rows that say whose they are -/

/-- The row of an album names its owner, and an owned one has no token. -/
structure Owned (owner : String → Option String) (album : Album) : Prop where
  userId : album.userId = owner album.id
  token : album.userId.isSome = true → album.deleteToken = none

/-- Album rows are written with their owners, items with those of their albums. -/
def Allowed (owner : String → Option String) : Req → Prop
  | .createAlbum album | .updateAlbum album => Owned owner album
  | .insertMedia m => m.userId = owner m.albumId
  | _ => True

/-- The rows that are read are such rows. -/
def Faithful (owner : String → Option String) : Call → Prop
  | ⟨.getAlbum _, .ok (some album), _⟩ => Owned owner album
  | _ => True

def guarded (owner : String → Option String) : Protocol Reply PyExc Unit where
  can _ r := Allowed owner r
  next _ _ := ()

/-- The owner of the album an upload creates. -/
def Draws.Owns (owner : String → Option String) : Op → Prop
  | .upload input draws =>
    drawnId (.upload input draws) = some (generateId draws.albumId) →
      owner (generateId draws.albumId) = input.actor.user.map (·.id)
  | _ => True

/-! ## Every operation writes such rows -/

section

variable {owner : String → Option String} {Q : Except PyExc β → Unit → Prop}

/-- A call that writes neither an album row nor a new item. -/
def Aside : Req → Prop
  | .createAlbum _ | .updateAlbum _ | .insertMedia _ => False
  | _ => True

theorem allowed_of_aside {r : Req} (h : Aside r) : Allowed owner r := by
  cases r <;> trivial

theorem aside_of_plain (r : Req) (h : Req.plain r = true) : Aside r := by
  cases r <;> trivial

theorem aside_of_itemReads (r : Req) (h : Req.itemReads r = true) : Aside r := by
  cases r <;> trivial

/-- A program whose calls are all such. -/
theorem wp_asides {p : Prog α} (hp : p.Uses Aside) : wp ((guarded owner).machine (Faithful owner)) (fun _ _ => True) p () :=
  Protocol.wp_stay (fun _ hr => allowed_of_aside hr) (fun _ _ => rfl) hp fun _ => trivial

theorem wp_aside {p : Prog α} {f : α → Prog β} (hp : p.Uses Aside)
    (hok : ∀ a, wp ((guarded owner).machine (Faithful owner)) Q (f a) ()) (herr : ∀ e, Q (.error e) ()) :
    wp ((guarded owner).machine (Faithful owner)) Q (p >>= f) () :=
  Protocol.wp_pass (fun _ hr => allowed_of_aside hr) (fun _ _ => rfl) hp hok herr

theorem getAlbumOr404_owned {f : Album → Prog β} (albumId : String)
    (hok : ∀ album, Owned owner album → wp ((guarded owner).machine (Faithful owner)) Q (f album) ())
    (herr : ∀ e, Q (.error e) ()) : wp ((guarded owner).machine (Faithful owner)) Q (getAlbumOr404 albumId >>= f) () := by
  rw [wp_bind]
  refine Protocol.wp_await trivial (fun found b h => ?_) fun e b _ => herr e
  cases found with
  | none => exact herr _
  | some album => exact hok album h

theorem updateAlbumOr404_allowed {album : Album} (h : Owned owner album) :
    wp ((guarded owner).machine (Faithful owner)) (fun _ _ => True) (updateAlbumOr404 album) () := by
  rw [updateAlbumOr404, wp_bind, wp_attempt]
  refine (wp_perform _).mpr ⟨h, fun x _ _ => ?_⟩
  rcases x with e | a
  · cases e <;> trivial
  · trivial

/-! ### Uploads -/

/-- Whoever is let through to an album is its owner, or the album has none. -/
theorem requireUploadAccess_owner {album : Album} (halbum : Owned owner album) (actor : CurrentActor) (deleteToken : Option String) :
    wp ((guarded owner).machine (Faithful owner)) (fun x _ => x = .ok () → album.userId = actor.user.map (·.id))
      (requireUploadAccess album actor deleteToken) () := by
  unfold requireUploadAccess
  rcases actor.user with _ | user
  · refine wp_aside (Program.uses_perform trivial) (fun now => ?_) fun e h => nomatch h
    refine wp_check (fun _ h => nomatch h) fun _ => ?_
    simp only [adminOrOwner, Option.any_none, Bool.false_eq_true, if_false]
    refine wp_check (fun _ h => nomatch h) fun htoken => ?_
    refine (wp_raiseIf _ _ _).mpr ⟨fun _ h => (nomatch h), fun _ _ => ?_⟩
    -- an album that has a token has no owner
    rcases howner : album.userId with _ | userId
    · rfl
    · have hnone := halbum.token (by rw [howner]; rfl)
      rw [hnone] at htoken
      cases htoken
  · refine (wp_raiseIf _ _ _).mpr ⟨fun _ h => (nomatch h), fun howner _ => ?_⟩
    simpa using howner

/-- The album of an upload, and its owner. -/
def Found (owner : String → Option String) (actor : CurrentActor) (x : Except PyExc Album) : Prop :=
  ∀ album, x = .ok album → Owned owner album ∧ actor.user.map (·.id) = owner album.id

theorem getAlbumForUpload_found (albumId : String) (actor : CurrentActor) (deleteToken : Option String) :
    wp ((guarded owner).machine (Faithful owner)) (fun x _ => Found owner actor x)
      (getAlbumForUpload albumId actor deleteToken) () := by
  refine Protocol.wp_await trivial (fun found b h => ?_) fun e b _ album h => nomatch h
  cases found with
  | none => exact fun album h => nomatch h
  | some album =>
    have halbum : Owned owner album := h
    refine wp_aside (Program.uses_perform trivial) (fun now => ?_) fun e album h => nomatch h
    refine wp_check (fun _ album h => nomatch h) fun _ => ?_
    refine wp_seq (requireUploadAccess_owner halbum actor deleteToken) (fun _ _ howner => ?_) fun e _ _ album h => nomatch h
    intro album' h
    obtain rfl := Except.ok.inj h
    exact ⟨halbum, (howner rfl).symm.trans halbum.userId⟩

theorem createAlbumForUpload_found (title : Option String) (correlationId : String) (actor : CurrentActor)
    (deleteToken : Option String) (draws : Draws) (howns : owner (generateId draws.albumId) = actor.user.map (·.id)) :
    wp ((guarded owner).machine (Faithful owner)) (fun x _ => Found owner actor x)
      (createAlbumForUpload title correlationId actor deleteToken draws) () := by
  have hnew : ∀ now expiresAt, Owned owner (newAlbum title actor.user draws now expiresAt) := by
    intro now expiresAt
    refine ⟨howns.symm, fun h => ?_⟩
    have huser : actor.user.isSome = true := by simpa [newAlbum] using h
    exact if_pos huser
  refine wp_aside (Program.uses_perform trivial) (fun now => ?_) fun e album h => nomatch h
  refine wp_aside (newAlbumExpiry_uses aside_of_plain _ _) (fun expiresAt => ?_) fun e album h => nomatch h
  refine Protocol.wp_await (hnew now expiresAt) (fun _ b _ => ?_) fun e b _ album h => nomatch h
  refine wp_aside (Program.uses_perform trivial) (fun _ album h => ?_) fun e album h => nomatch h
  obtain rfl := Except.ok.inj h
  exact ⟨hnew now expiresAt, howns.symm⟩

theorem getOrCreateAlbum_found (input : UploadInput) (draws : Draws) (howns : Draws.Owns owner (.upload input draws)) :
    wp ((guarded owner).machine (Faithful owner)) (fun x _ => Found owner input.actor x)
      (getOrCreateAlbum input.albumId input.title input.correlationId input.actor input.deleteToken draws) () := by
  unfold getOrCreateAlbum
  rcases hid : input.albumId.filter (· != "") with _ | id
  · exact createAlbumForUpload_found _ _ _ _ _ (howns (by simp only [drawnId, hid]))
  · exact getAlbumForUpload_found _ _ _

theorem insertOrRollBack_allowed {m : Media} (h : m.userId = owner m.albumId) :
    wp ((guarded owner).machine (Faithful owner)) (fun _ _ => True) (insertOrRollBack m) () := by
  rw [insertOrRollBack, wp_tryExcept]
  refine wp_mono (Q := fun _ _ => True) (fun x _ _ => ?_) ?_
  · cases x with
    | ok m => trivial
    | error e =>
      exact wp_asides (Program.uses_bind (deleteStorageKeyBestEffort_uses (fun _ => trivial) _) fun _ => trivial)
  · refine wp_aside (Program.uses_perform trivial) (fun locked => ?_) fun _ => trivial
    refine wp_aside (Program.uses_perform trivial) (fun position => ?_) fun _ => trivial
    exact (wp_perform _).mpr ⟨h, fun _ _ _ => trivial⟩

theorem createMedia_allowed (rt : Runtime) {albumId : String} (file : UploadFile) (payload : Bytes) (correlationId : String)
    {actor : CurrentActor} (draws : Draws) (howner : actor.user.map (·.id) = owner albumId) :
    wp ((guarded owner).machine (Faithful owner)) (fun _ _ => True)
      (createMedia rt albumId file payload correlationId actor draws) () := by
  refine wp_value (fun prepared _ => ?_) fun _ _ => trivial
  obtain ⟨metadata, sanitized⟩ := prepared
  refine wp_aside (Program.uses_perform trivial) (fun _ => ?_) fun _ => trivial
  refine wp_aside (Program.uses_perform trivial) (fun now => ?_) fun _ => trivial
  refine wp_seq (insertOrRollBack_allowed howner) (fun m _ _ => ?_) fun _ _ _ => trivial
  refine wp_asides (Program.uses_bind (Program.uses_perform trivial) fun _ => ?_)
  exact Program.uses_bind (Program.uses_perform trivial) fun _ => trivial

theorem titled_owned {album : Album} (h : Owned owner album) (title : Option String) : Owned owner (titled album title) := by
  unfold titled
  split
  · exact ⟨h.userId, h.token⟩
  · exact h

theorem upload_allowed (rt : Runtime) (input : UploadInput) (draws : Draws) (howns : Draws.Owns owner (.upload input draws)) :
    wp ((guarded owner).machine (Faithful owner)) (fun _ _ => True) (upload rt input draws) () := by
  refine wp_aside (readBoundedUpload_uses aside_of_plain _) (fun payload => ?_) fun _ => trivial
  refine wp_check (fun _ => trivial) fun _ => ?_
  refine wp_aside (enforceRateLimit_uses aside_of_plain _ _ _) (fun _ => ?_) fun _ => trivial
  refine wp_aside (enforceStorageQuotas_uses aside_of_plain _ _) (fun _ => ?_) fun _ => trivial
  refine wp_seq (getOrCreateAlbum_found input draws howns) (fun album _ hfound => ?_) fun _ _ _ => trivial
  obtain ⟨halbum, howner⟩ := hfound album rfl
  have hinto : wp ((guarded owner).machine (Faithful owner)) (fun _ _ => True) (uploadInto rt input payload draws album) () := by
    refine wp_aside (Program.uses_perform trivial) (fun items => ?_) fun _ => trivial
    exact wp_check (fun _ => trivial) fun _ => createMedia_allowed rt _ _ _ _ howner
  rw [wp_bind, wp_tryExcept]
  refine wp_mono (fun x _ _ => ?_) hinto
  cases x with
  | error e =>
    have hclean : (cleanUpAlbum input.albumId.isNone album).Uses Aside := cleanUpAlbum_uses aside_of_itemReads trivial _
    exact wp_seq (wp_asides hclean) (fun _ _ _ => trivial) fun _ _ _ => trivial
  | ok media => exact wp_seq (updateAlbumOr404_allowed (titled_owned halbum _)) (fun _ _ _ => trivial) fun _ _ _ => trivial

/-! ### Operations on albums and items -/

theorem updateAlbum_allowed (albumId : String) (deleteToken : Option String) (correlationId : String)
    (actorUser : Option User) (patch : AlbumPatch) :
    wp ((guarded owner).machine (Faithful owner)) (fun _ _ => True)
      (updateAlbum albumId deleteToken correlationId actorUser patch) () := by
  refine getAlbumOr404_owned albumId (fun album halbum => ?_) fun _ => trivial
  refine wp_aside (requireAlbumAccess_uses aside_of_plain _ _ _ _) (fun _ => ?_) fun _ => trivial
  refine wp_aside (Program.uses_perform trivial) (fun items => ?_) fun _ => trivial
  refine wp_seq (wp_of_yields (patchTitle_yields album patch.title deleteToken correlationId actorUser)
    (wp_asides (patchTitle_uses aside_of_plain _ _ _ _ _))) (fun afterTitle _ h => ?_) fun _ _ _ => trivial
  obtain ⟨htitle, hsame⟩ := h.2 afterTitle rfl
  refine wp_seq (wp_of_yields (patchCover_yields hsame patch.coverMediaId items deleteToken correlationId actorUser)
    (wp_asides (patchCover_uses aside_of_plain _ _ _ _ _ _ _))) (fun patched _ h => ?_) fun _ _ _ => trivial
  obtain ⟨hcover, -⟩ := h.2 patched rfl
  have hpatched : Owned owner patched.1 := by
    rw [hcover, htitle]
    exact ⟨halbum.userId, halbum.token⟩
  have hlast : ((ask (.listAlbumMedia albumId) : Prog (List Media)) >>= fun items => pure (patched.1, items)).Uses Aside :=
    Program.uses_bind (Program.uses_perform trivial) fun _ => trivial
  rw [writeIfChanged]
  split
  · exact wp_seq (updateAlbumOr404_allowed hpatched) (fun _ _ _ => wp_asides hlast) fun _ _ _ => trivial
  · exact wp_asides hlast

theorem reorderAlbum_allowed (albumId : String) (deleteToken : Option String) (order : List (String × Int))
    (correlationId : String) (actorUser : Option User) :
    wp ((guarded owner).machine (Faithful owner)) (fun _ _ => True)
      (reorderAlbum albumId deleteToken order correlationId actorUser) () := by
  refine getAlbumOr404_owned albumId (fun album halbum => ?_) fun _ => trivial
  refine wp_aside (requireAlbumAccess_uses aside_of_plain _ _ _ _) (fun _ => ?_) fun _ => trivial
  refine wp_aside (Program.uses_perform trivial) (fun items => ?_) fun _ => trivial
  refine wp_check (fun _ => trivial) fun _ => wp_value (fun positions _ => ?_) fun _ _ => trivial
  refine wp_aside (writePositions_uses (fun _ => trivial) positions) (fun reordered => ?_) fun _ => trivial
  refine wp_seq (updateAlbumOr404_allowed halbum) (fun _ _ _ => ?_) fun _ _ _ => trivial
  exact wp_asides (Program.uses_bind (Program.uses_perform trivial) fun _ => trivial)

theorem adminUpdateAlbum_allowed (albumId : String) (expiresAt : MaybeUnset (Option AwareDateTime)) (correlationId : String)
    (actorId : Option String) :
    wp ((guarded owner).machine (Faithful owner)) (fun _ _ => True)
      (adminUpdateAlbum albumId expiresAt correlationId actorId) () := by
  refine getAlbumOr404_owned albumId (fun album halbum => ?_) fun _ => trivial
  cases expiresAt with
  | unset => trivial
  | set expiresAt =>
    dsimp only
    split
    · trivial
    · refine Protocol.wp_await (show Owned owner _ from ⟨halbum.userId, halbum.token⟩) (fun _ b _ => ?_) fun _ _ _ => trivial
      exact wp_asides (Program.uses_bind (Program.uses_perform trivial) fun _ => trivial)

theorem keepAlbum_allowed {album : Album} (halbum : Owned owner album) (deletedMedia : Media) (remainingItems : List Media) :
    wp ((guarded owner).machine (Faithful owner)) (fun _ _ => True) (keepAlbum album deletedMedia remainingItems) () := by
  have hkept : Owned owner (if album.coverMediaId = some deletedMedia.id then { album with coverMediaId := none } else album) := by
    split
    · exact ⟨halbum.userId, halbum.token⟩
    · exact halbum
  simp only [keepAlbum]
  rw [wp_bind, wp_attempt]
  refine (wp_perform _).mpr ⟨hkept, fun x _ _ => ?_⟩
  rcases x with e | a
  · cases e <;> trivial
  · trivial

theorem deleteMedia_allowed (mediaId : String) (deleteToken : Option String) (correlationId : String)
    (actorUser : Option User) :
    wp ((guarded owner).machine (Faithful owner)) (fun _ _ => True)
      (deleteMedia mediaId deleteToken correlationId actorUser) () := by
  refine wp_aside (getMediaOr404_uses aside_of_itemReads _) (fun media => ?_) fun _ => trivial
  refine getAlbumOr404_owned media.albumId (fun album halbum => ?_) fun _ => trivial
  refine wp_aside (requireAlbumAccess_uses aside_of_plain _ _ _ _) (fun _ => ?_) fun _ => trivial
  refine wp_aside (removeMedia_uses aside_of_plain trivial (fun _ => trivial) _ _ _) (fun deletedMedia => ?_) fun _ => trivial
  refine wp_aside (Program.uses_perform trivial) (fun remainingItems => ?_) fun _ => trivial
  split
  · exact wp_asides (deleteEmptiedAlbum_uses aside_of_itemReads trivial _ _ _ _)
  · exact keepAlbum_allowed halbum _ _

theorem program_allowed (rt : Runtime) {op : Op} (howns : Draws.Owns owner op) :
    wp ((guarded owner).machine (Faithful owner)) (fun _ _ => True) (op.program rt) () := by
  have hrest : ∀ {α : Type} {p : Prog α} {f : α → OpResult},
      wp ((guarded owner).machine (Faithful owner)) (fun _ _ => True) p () →
        wp ((guarded owner).machine (Faithful owner)) (fun _ _ => True) (p >>= fun a => pure (f a)) () := fun h =>
    wp_seq h (fun _ _ _ => trivial) fun _ _ _ => trivial
  by_cases hwrites : ∀ r, op.writes r → Aside r
  · -- the footprint of the others
    refine wp_asides ((program_footprint rt op).mono fun r hr => ?_)
    rcases hr with hr | hr
    · cases r <;> trivial
    · exact hwrites r hr
  · cases op with
    | upload input draws => exact hrest (upload_allowed rt input draws howns)
    | updateAlbum => exact hrest (updateAlbum_allowed _ _ _ _ _)
    | reorderAlbum => exact hrest (reorderAlbum_allowed _ _ _ _ _)
    | adminUpdateAlbum => exact hrest (adminUpdateAlbum_allowed _ _ _ _)
    | deleteMedia => exact hrest (deleteMedia_allowed _ _ _ _)
    | _ => exact absurd (fun r hr => by cases r <;> trivial) hwrites

end

/-! ## The tables -/

/-- Every row says whose it is, and every item has its album. -/
structure Consistent (owner : String → Option String) (w : World) : Prop where
  albums : ∀ album ∈ w.albums, Owned owner album
  media : ∀ m ∈ w.media, m.userId = owner m.albumId ∧ ∃ album ∈ w.albums, album.id = m.albumId

section

variable {owner : String → Option String} {w : World} {i : Nat} {r : Req} {fault : Option PyExc}

theorem faithful_answer (h : Consistent owner w) : Faithful owner ⟨r, (backend.answer i r fault w).1, fault.isSome⟩ := by
  unfold Faithful
  split
  · rename_i albumId album b he
    injection he with hreq hreply
    subst hreq
    have hfind : w.albums.find? albumId = some album := Except.ok.inj (exec_of_ok (eq_of_heq hreply))
    exact h.albums album (Table.find?_mem hfind)
  · trivial

theorem albums_step (h : Consistent owner w) (hallowed : Allowed owner r) :
    ∀ album ∈ (backend.answer i r fault w).2.albums, Owned owner album := by
  by_cases hr : Req.changesAlbums r = false
  · rw [answer_albums hr]
    exact h.albums
  rcases answer_cases i r fault w with ha | ⟨e, -, ha⟩
  swap
  · rw [ha]
    exact h.albums
  rw [ha]
  intro album halbum
  cases r <;> first | exact absurd rfl hr | skip
  case createAlbum a =>
    simp only [exec, World.createAlbum] at halbum
    split at halbum
    · exact h.albums album halbum
    · split at halbum
      · rename_i t ht
        rcases (Table.mem_insert ht).mp halbum with halbum | rfl
        · exact h.albums album halbum
        · exact hallowed
      · exact h.albums album halbum
  case updateAlbum a =>
    simp only [exec, World.updateAlbum] at halbum
    split at halbum
    · exact h.albums album halbum
    · split at halbum
      · exact h.albums album halbum
      · have halbum : album ∈ w.albums.update a.id (w.setAlbum a) (w.setAlbum_id a) := halbum
        obtain ⟨row, hrow, rfl⟩ := Table.mem_update.mp halbum
        split
        · rename_i hid
          exact ⟨hallowed.userId.trans (congrArg owner hid.symm), hallowed.token⟩
        · exact h.albums row hrow
  case deleteAlbumRow id => exact h.albums album (mem_dropAlbums_albums.mp halbum).1
  case deleteUser userId =>
    simp only [exec, World.deleteUser] at halbum
    split at halbum
    · exact h.albums album halbum
    · exact h.albums album (mem_dropAlbums_albums.mp halbum).1

/-- An item that stays has its album still. -/
theorem media_dropAlbums (h : Consistent owner w) {p : Album → Bool} {m : Media} (hm : m ∈ (w.dropAlbums p).media) :
    m.userId = owner m.albumId ∧ ∃ album ∈ (w.dropAlbums p).albums, album.id = m.albumId ∧ p album = false := by
  obtain ⟨hm, hkept⟩ := mem_dropAlbums_media.mp hm
  obtain ⟨howner, album, halbum, hid⟩ := h.media m hm
  have hp : p album = false := by
    rw [← Bool.not_eq_true]
    intro hgone
    exact hkept album halbum hgone hid
  exact ⟨howner, album, mem_dropAlbums_albums.mpr ⟨halbum, hp⟩, hid, hp⟩

/-- A row is one that was there, or was inserted into an album that was. -/
theorem row_cases {m : Media} (hdeletes : Req.deletesAlbums r = false) (hm : m ∈ (backend.answer i r fault w).2.media) :
    (∃ u ∈ w.media, SameItem u m) ∨ (r = .insertMedia m ∧ ∃ album ∈ w.albums, album.id = m.albumId) := by
  by_cases hr : Req.changesMedia r = false
  · rw [answer_media hr] at hm
    exact .inl ⟨m, hm, .refl m⟩
  rcases answer_cases i r fault w with ha | ⟨e, -, ha⟩
  swap
  · rw [ha] at hm
    exact .inl ⟨m, hm, .refl m⟩
  rw [ha] at hm
  cases r <;> first | exact absurd rfl hr | (simp only [Req.deletesAlbums, Bool.true_eq_false] at hdeletes; done) | skip
  case insertMedia a =>
    simp only [exec, World.insertMedia] at hm
    split at hm
    · exact .inl ⟨m, hm, .refl m⟩
    rename_i hgood
    split at hm
    · rename_i t ht
      rcases (Table.mem_insert ht).mp hm with hm | rfl
      · exact .inl ⟨m, hm, .refl m⟩
      · -- the foreign key
        have hthere : (w.albums.find? m.albumId).isNone = false := by
          simp only [Bool.or_eq_true, not_or, Bool.not_eq_true] at hgood
          exact hgood.1
        obtain ⟨album, halbum⟩ := Option.isSome_iff_exists.mp (Option.isNone_eq_false_iff.mp hthere)
        exact .inr ⟨rfl, album, Table.find?_mem halbum, Table.find?_key halbum⟩
    · exact .inl ⟨m, hm, .refl m⟩
  case updateMediaThumbnailState k thumbKey thumbIsOrig thumbStatus thumbSize =>
    simp only [exec, World.updateMediaThumbnailState] at hm
    split at hm
    · exact .inl ⟨m, hm, .refl m⟩
    · have hm : m ∈ w.media.update k (World.setThumb thumbKey thumbIsOrig thumbStatus thumbSize)
          (World.setThumb_id thumbKey thumbIsOrig thumbStatus thumbSize) := hm
      obtain ⟨u, hu, rfl⟩ := Table.mem_update.mp hm
      refine .inl ⟨u, hu, ?_⟩
      split
      · exact ⟨rfl, rfl, rfl, rfl⟩
      · exact .refl u
  case updateMediaPositions a ps =>
    simp only [exec, World.updateMediaPositions] at hm
    split at hm
    · have hm : m ∈ w.media.modify (World.setPositions a ps) (World.setPositions_id a ps) := hm
      obtain ⟨u, hu, rfl⟩ := Table.mem_modify.mp hm
      exact .inl ⟨u, hu, sameItem_setPositions a ps u⟩
    · exact .inl ⟨m, hm, .refl m⟩
  case deleteMedia id => exact .inl ⟨m, (Table.mem_delete.mp hm).1, .refl m⟩

theorem media_step (h : Consistent owner w) (hallowed : Allowed owner r) :
    ∀ m ∈ (backend.answer i r fault w).2.media,
      m.userId = owner m.albumId ∧ ∃ album ∈ (backend.answer i r fault w).2.albums, album.id = m.albumId := by
  intro m hm
  by_cases hdeletes : Req.deletesAlbums r = false
  · have hrow : m.userId = owner m.albumId ∧ ∃ album ∈ w.albums, album.id = m.albumId := by
      rcases row_cases hdeletes hm with ⟨u, hu, hsame⟩ | ⟨rfl, hthere⟩
      · rw [hsame.userId, hsame.albumId]
        exact h.media u hu
      · exact ⟨hallowed, hthere⟩
    obtain ⟨howner, album, halbum, hid⟩ := hrow
    obtain ⟨album', halbum', hid'⟩ := album_stays hdeletes halbum
    exact ⟨howner, album', halbum', hid'.trans hid⟩
  rcases answer_cases i r fault w with ha | ⟨e, -, ha⟩
  swap
  · rw [ha] at hm ⊢
    exact h.media m hm
  rw [ha] at hm ⊢
  cases r <;> first | exact absurd rfl hdeletes | skip
  case deleteAlbumRow id =>
    obtain ⟨howner, album, halbum, hid, -⟩ := media_dropAlbums h hm
    exact ⟨howner, album, halbum, hid⟩
  case deleteUser userId =>
    rcases hfind : w.users.find? userId with _ | u
    · simp only [exec, World.deleteUser, hfind] at hm ⊢
      exact h.media m hm
    · simp only [exec, World.deleteUser, hfind] at hm ⊢
      obtain ⟨x, hx, rfl⟩ := Table.mem_modify.mp hm
      obtain ⟨howner, album, halbum, hid, hother⟩ := media_dropAlbums h hx
      -- what is left belongs to others
      have hnot : x.userId ≠ some userId := by
        rw [howner, ← hid, ← (h.albums album (mem_dropAlbums_albums.mp halbum).1).userId]
        simpa using hother
      rw [World.dropUserId, if_neg hnot]
      exact ⟨howner, album, halbum, hid⟩

theorem Consistent.step (h : Consistent owner w) (hallowed : Allowed owner r) :
    Consistent owner (backend.answer i r fault w).2 := ⟨albums_step h hallowed, media_step h hallowed⟩

end

/-! ## Runs -/

/-- The items of an album belong to whom the album belongs to. -/
structure OwnershipFollows (w : World) : Prop where
  media : ∀ m ∈ w.media, ∃ album ∈ w.albums, album.id = m.albumId ∧ m.userId = album.userId
  tokens : ∀ album ∈ w.albums, album.userId.isSome = true → album.deleteToken = none

theorem Consistent.ownershipFollows {owner : String → Option String} {w : World} (h : Consistent owner w) :
    OwnershipFollows w where
  media := by
    intro m hm
    obtain ⟨howner, album, halbum, hid⟩ := h.media m hm
    refine ⟨album, halbum, hid, ?_⟩
    rw [howner, (h.albums album halbum).userId, hid]
  tokens := fun album halbum => (h.albums album halbum).token

/-- Whoever asks for the upload. -/
def creator : Op → Option String
  | .upload input _ => input.actor.user.map (·.id)
  | _ => none

/-- The owner of an album that is there, or of one that an upload creates. -/
def ownerOf (w : World) (ops : List Op) (albumId : String) : Option String :=
  match w.albums.find? albumId with
  | some album => album.userId
  | none => (ops.find? (drawnId · == some albumId)).bind creator

section

variable {w : World} {ops : List Op}

theorem consistent_start (h : OwnershipFollows w) (ops : List Op) : Consistent (ownerOf w ops) w := by
  have hthere : ∀ album ∈ w.albums, ownerOf w ops album.id = album.userId := by
    intro album halbum
    simp only [ownerOf, Table.find?_self halbum]
  constructor
  · intro album halbum
    exact ⟨(hthere album halbum).symm, h.tokens album halbum⟩
  · intro m hm
    obtain ⟨album, halbum, hid, howner⟩ := h.media m hm
    refine ⟨?_, album, halbum, hid⟩
    rw [← hid, hthere album halbum, howner]

/-- Every drawn id is new, and drawn once. -/
theorem draws_owns (hone : ∀ albumId, OneAlbum albumId ops w) {op : Op} (hop : op ∈ ops) : Draws.Owns (ownerOf w ops) op := by
  unfold Draws.Owns
  split
  · rename_i input draws
    intro hdrawn
    obtain ⟨i, hi⟩ := List.getElem?_of_mem hop
    have hdrawnBy : drawnBy ops i = some (generateId draws.albumId) := by
      rw [drawnBy, hi]
      exact hdrawn
    have hnew : w.albums.find? (generateId draws.albumId) = none := by
      by_contra hthere
      exact (hone _).new hthere i hdrawnBy
    rcases hfirst : ops.find? (drawnId · == some (generateId draws.albumId)) with _ | op'
    · have := List.find?_eq_none.mp hfirst _ hop
      simp [hdrawn] at this
    · -- only one task draws it
      have hdrawn' : drawnId op' = some (generateId draws.albumId) := by simpa using List.find?_some hfirst
      obtain ⟨j, hj⟩ := List.getElem?_of_mem (List.mem_of_find?_eq_some hfirst)
      have hdrawnBy' : drawnBy ops j = some (generateId draws.albumId) := by
        rw [drawnBy, hj]
        exact hdrawn'
      obtain rfl := (hone _).once i j hdrawnBy hdrawnBy'
      obtain rfl := Option.some.inj (hi.symm.trans hj)
      simp only [ownerOf, hnew, hfirst, Option.bind_some, creator]
  · trivial

theorem ownership_run (rt : Runtime) (h : OwnershipFollows w) (hone : ∀ albumId, OneAlbum albumId ops w)
    (cs : List (Choice PyExc)) : OwnershipFollows ((Site.start rt w ops).run backend cs).world := by
  have hrun := Pool.run_invariant (B := backend)
    (I := fun p : Site => Consistent (ownerOf w ops) p.world ∧
      p.Follows (fun _ => guarded (ownerOf w ops)) (Faithful (ownerOf w ops)) (fun _ _ _ => True) fun _ => ())
    (fun p d h => ⟨⟨h.1.albums, h.1.media⟩, h.2⟩)
    (fun p i t r k fault h ht hr _ => by
      obtain ⟨hconsistent, hfollows⟩ := h
      have hcan : Allowed (ownerOf w ops) r := Pool.Follows.can hfollows ht hr
      exact ⟨hconsistent.step hcan, Pool.Follows.advance hfollows ht hr (faithful_answer hconsistent)⟩)
    (p := Site.start rt w ops)
    ⟨consistent_start h ops, Site.start_follows fun i op hop =>
      program_allowed rt (draws_owns hone (List.mem_of_getElem? hop))⟩
    (Pool.meets_true _ cs)
  exact hrun.1.ownershipFollows

end

/-! ## The deletion of a user, by itself -/

/-- The key of an object of an item in an album of the user's. -/
def KeyOfUser (userId : String) (w : World) (k : String) : Prop :=
  ∃ m ∈ w.media, (∃ album ∈ w.albums, album.id = m.albumId ∧ album.userId = some userId) ∧ k ∈ keysOf m

/-- The user is gone with all rows, and with the objects in the user's albums; nothing else is. -/
structure Gone (userId : String) (w w' : World) : Prop where
  objects : ∀ k, KeyOfUser userId w k → w'.objects k = none
  others : ∀ k, ¬KeyOfUser userId w k → w'.objects k = w.objects k
  users : ∀ user, user ∈ w'.users ↔ user ∈ w.users ∧ user.id ≠ userId
  albums : ∀ album, album ∈ w'.albums ↔ album ∈ w.albums ∧ album.userId ≠ some userId
  media : ∀ m, m ∈ w'.media ↔ m ∈ w.media ∧ m.userId ≠ some userId
  capabilities : ∀ c ∈ w'.sharexDeleteCapabilities, c.userId ≠ userId

section

variable {w w' : World} {userId : String}

/-- An item is the user's exactly if its album is. -/
theorem OwnershipFollows.userId_iff (h : OwnershipFollows w) {m : Media} (hm : m ∈ w.media) :
    m.userId = some userId ↔ ∃ album ∈ w.albums, album.id = m.albumId ∧ album.userId = some userId := by
  obtain ⟨album, halbum, hid, howner⟩ := h.media m hm
  constructor
  · intro huser
    exact ⟨album, halbum, hid, howner.symm.trans huser⟩
  · intro hother
    obtain ⟨album', halbum', hid', howner'⟩ := hother
    obtain rfl := Table.eq_of_key halbum halbum' (hid.trans hid'.symm)
    exact howner.trans howner'

/-- So the keys that are listed by the items' user are those of the user's albums. -/
theorem listed_keys (h : OwnershipFollows w) (k : String) :
    k ∈ storageKeysForMedia (w.listUserMedia userId) ↔ KeyOfUser userId w k := by
  have hlisted : ∀ m, m ∈ w.listUserMedia userId ↔ m ∈ w.media ∧ m.userId = some userId := by
    intro m
    simp only [World.listUserMedia, World.listAllMedia, List.mem_filter, List.mem_insertionSort, beq_iff_eq]
    exact Iff.rfl
  rw [mem_storageKeysForMedia]
  constructor
  · intro hk
    obtain ⟨m, hm, hk⟩ := hk
    obtain ⟨hm, huser⟩ := (hlisted m).mp hm
    exact ⟨m, hm, (h.userId_iff hm).mp huser, hk⟩
  · intro hk
    obtain ⟨m, hm, halbum, hk⟩ := hk
    exact ⟨m, (hlisted m).mpr ⟨hm, (h.userId_iff hm).mpr halbum⟩, hk⟩

/-- The objects of `keys` are gone but for those of `rest`; the rows are as they were. -/
structure Emptied (keys rest : List String) (w w' : World) : Prop where
  users : w'.users = w.users
  albums : w'.albums = w.albums
  media : w'.media = w.media
  gone : ∀ k ∈ keys, k ∉ rest → w'.objects k = none
  others : ∀ k, k ∉ keys → w'.objects k = w.objects k

/-- The rows that are left by the cascades and `SET NULL`. -/
theorem deleteUser_gone (h : OwnershipFollows w) {user : User} (huser : w.users.find? userId = some user)
    (hemptied : Emptied (storageKeysForMedia (w.listUserMedia userId)) [] w w') : Gone userId w (w'.deleteUser userId).2 := by
  have hfind : w'.users.find? userId = some user := by rw [hemptied.users, huser]
  simp only [World.deleteUser, hfind]
  constructor
  · intro k hk
    exact hemptied.gone k ((listed_keys h k).mpr hk) List.not_mem_nil
  · intro k hk
    apply hemptied.others
    rw [listed_keys h]
    exact hk
  · intro u
    rw [Table.mem_delete]
    exact and_congr_left' (by rw [← hemptied.users]; exact Iff.rfl)
  · intro album
    rw [mem_dropAlbums_albums, hemptied.albums]
    simp
  · intro m
    have hdropped : ∀ x, x ∈ (w'.dropAlbums (·.userId == some userId)).media ↔ x ∈ w.media ∧ x.userId ≠ some userId := by
      intro x
      rw [mem_dropAlbums_media, hemptied.albums, hemptied.media]
      refine and_congr_right fun hx => ?_
      rw [ne_eq, h.userId_iff hx]
      simp only [beq_iff_eq, not_exists, not_and, ne_eq]
      exact ⟨fun hall album halbum hid huser => hall album halbum huser hid,
        fun hall album halbum huser hid => hall album halbum hid huser⟩
    -- `SET NULL` finds no row
    have hsame : ∀ x, x.userId ≠ some userId → World.dropUserId userId x = x := fun x hx => if_neg hx
    rw [Table.mem_modify, ← hdropped]
    constructor
    · intro hm
      obtain ⟨x, hx, rfl⟩ := hm
      rw [hsame x ((hdropped x).mp hx).2]
      exact hx
    · intro hm
      exact ⟨m, hm, hsame m ((hdropped m).mp hm).2⟩
  · intro c hc
    simpa using (Table.mem_deleteWhere.mp hc).2

/-- Nothing goes wrong on the way. -/
abbrev NoFault (_ : Req) (fault : Option PyExc) (_ : World) : Prop := fault = none

theorem wp_exec {Q : Except PyExc β → World → Prop} {r : Req} {f : Reply r → Prog β}
    (h : ∀ d, ∃ a, (exec 0 r (backend.elapse d w)).1 = .ok a ∧
      wp (backend.alone NoFault) Q (f a) (exec 0 r (backend.elapse d w)).2) :
    wp (backend.alone NoFault) Q (ask r >>= f) w := by
  apply wp_alone_await
  · intro d fault a hfault ha
    subst hfault
    obtain ⟨a', hreply, hrest⟩ := h d
    obtain rfl := Except.ok.inj (ha.symm.trans hreply)
    exact hrest
  · intro d fault e hfault he
    subst hfault
    obtain ⟨a', hreply, -⟩ := h d
    cases he.symm.trans hreply

/-- The objects go one by one. -/
theorem deleteKeys_empties (keys : List String) (h : Emptied keys keys w w') :
    wp (backend.alone NoFault) (fun x w'' => x = .ok () ∧ Emptied keys [] w w'') (forEach keys Storage.delete) w' := by
  refine wp_forEach (I := fun rest w'' => Emptied keys rest w w'' ∧ ∀ k ∈ rest, k ∈ keys) (fun key rest w'' hI => ?_)
    (fun w'' hI => ⟨rfl, hI.1⟩) ⟨h, fun _ hk => hk⟩
  obtain ⟨hemptied, hrest⟩ := hI
  refine (wp_perform _).mpr ⟨trivial, fun x w₁ hx => ?_⟩
  obtain ⟨d, fault, rfl, hx⟩ := hx
  obtain ⟨rfl, rfl⟩ := Prod.mk.inj hx
  refine ⟨⟨hemptied.users, hemptied.albums, hemptied.media, fun k hk hnot => ?_, fun k hk => ?_⟩,
    fun k hk => hrest k (List.mem_cons_of_mem _ hk)⟩
  · by_cases hkey : k = key
    · exact if_pos hkey
    · refine (if_neg hkey).trans (hemptied.gone k hk ?_)
      simp [hkey, hnot]
  · have hkey : k ≠ key := by
      intro he
      subst he
      exact hk (hrest k List.mem_cons_self)
    exact (if_neg hkey).trans (hemptied.others k hk)

theorem getUserOr404_user {user : User} (huser : w.users.find? userId = some user) :
    wp (backend.alone NoFault) (fun x w' => x = .ok user ∧ Same w w') (getUserOr404 userId) w := by
  apply wp_exec
  intro d
  exact ⟨some user, congrArg Except.ok huser, rfl, .elapse d w⟩

theorem deleteUserById_gone (h : OwnershipFollows w) {user : User} (huser : w.users.find? userId = some user)
    (correlationId deletedBy : String) (actorId : Option String) :
    wp (backend.alone NoFault) (fun x w' => (∃ counts, x = .ok counts) ∧ Gone userId w w')
      (deleteUserById userId correlationId deletedBy actorId) w := by
  have hid : user.id = userId := Table.find?_key huser
  refine wp_seq (getUserOr404_user huser) (fun found w₁ hfound => ?_) fun e w₁ he => nomatch he.1
  obtain ⟨hfound, hsame₁⟩ := hfound
  obtain rfl := Except.ok.inj hfound
  rw [hid]
  refine wp_exec fun d₂ => ⟨_, rfl, ?_⟩
  refine wp_exec fun d₃ => ⟨_, rfl, ?_⟩
  refine wp_exec fun d₄ => ⟨_, rfl, ?_⟩
  have hlisted : w₁.listUserMedia userId = w.listUserMedia userId := by
    simp only [World.listUserMedia, World.listAllMedia, hsame₁.media]
  change wp _ _ (forEach (storageKeysForMedia (w₁.listUserMedia userId)) Storage.delete >>= _) _
  rw [hlisted]
  refine wp_seq (deleteKeys_empties (w := w) _ ?_) (fun _ w₂ h₂ => ?_) fun e w₂ he => nomatch he.1
  · exact ⟨hsame₁.users, hsame₁.albums, hsame₁.media, fun k hk hnot => absurd hk hnot,
      fun k _ => congrFun hsame₁.objects k⟩
  obtain ⟨-, hemptied⟩ := h₂
  refine wp_exec fun d₅ => ?_
  have hemptied' : Emptied (storageKeysForMedia (w.listUserMedia userId)) [] w (backend.elapse d₅ w₂) :=
    ⟨hemptied.users, hemptied.albums, hemptied.media, hemptied.gone, hemptied.others⟩
  have hgone := deleteUser_gone h huser hemptied'
  have hfind : (backend.elapse d₅ w₂).users.find? userId = some found := by rw [hemptied'.users, huser]
  obtain ⟨albums, items, hreply⟩ : ∃ albums items,
      ((backend.elapse d₅ w₂).deleteUser userId).1 = (some found, albums, items) := by
    simp only [World.deleteUser, hfind]
    exact ⟨_, _, rfl⟩
  refine ⟨(some found, albums, items), congrArg Except.ok hreply, ?_⟩
  refine wp_exec fun d₆ => ⟨_, rfl, ⟨_, rfl⟩, ?_⟩
  exact ⟨hgone.objects, hgone.others, hgone.users, hgone.albums, hgone.media, hgone.capabilities⟩

end

/-- Whatever runs beside, and in whatever order: the items of an album belong to whom the
    album belongs to; and a user who is deleted then, with nothing beside, is gone with all
    rows, and with the objects in the user's albums and no others. -/
theorem items_follow_their_album (rt : Runtime) (w : World) (ops : List Op) (h : OwnershipFollows w)
    (hone : ∀ albumId, OneAlbum albumId ops w) (cs : List (Choice PyExc)) :
    OwnershipFollows ((Site.start rt w ops).run backend cs).world ∧
      ∀ (user : User) (correlationId deletedBy : String) (actorId : Option String) (moments : List (Moment PyExc)),
        user ∈ ((Site.start rt w ops).run backend cs).world.users → (∀ m ∈ moments, m.fault = none) →
          let final := runAlone backend (deleteUserById user.id correlationId deletedBy actorId) moments
            ((Site.start rt w ops).run backend cs).world
          (∃ counts, final.1 = .ok counts) ∧ Gone user.id ((Site.start rt w ops).run backend cs).world final.2 := by
  have hfollows := ownership_run rt h hone cs
  refine ⟨hfollows, fun user correlationId deletedBy actorId moments huser hmoments => ?_⟩
  apply wp_alone (deleteUserById_gone hfollows (Table.find?_self huser) correlationId deletedBy actorId) moments
  exact meetsAlone_unfailing hmoments _ _

/-- The user and a visitor each upload to an album of their own. -/
def twoUploaders : List Op :=
  [.upload { Sample.uploadTo none with actor := { user := some Sample.user, source := "web" } } Sample.firstDraws,
    .upload (Sample.uploadTo none) Sample.secondDraws]

def oneUser : World := { Sample.world with users := .single Sample.user }

theorem oneAlbum_twoUploaders (albumId : String) : OneAlbum albumId twoUploaders oneUser := by
  constructor
  · intro i j hi hj
    rcases i with _ | _ | i <;> rcases j with _ | _ | j
    case zero.zero => rfl
    case succ.zero.succ.zero => rfl
    case zero.succ.zero => exact absurd (hi.trans hj.symm) (by decide)
    case succ.zero.zero => exact absurd (hi.trans hj.symm) (by decide)
    case succ.succ.zero | succ.succ.succ.zero | succ.succ.succ.succ => cases hi
    case zero.succ.succ | succ.zero.succ.succ => cases hj
  · intro hthere
    exact absurd rfl hthere

def turns : List (Choice PyExc) := Sample.calls 0 9 ++ Sample.calls 1 12 ++ Sample.calls 0 20 ++ Sample.calls 1 20

/-- The user uploads an album and a visitor another, and then the user is deleted. -/
theorem the_uploader_is_gone :
    Gone "u" ((Site.start Sample.runtime oneUser twoUploaders).run backend turns).world
      (runAlone backend (deleteUserById "u" "c" "admin" none) []
        ((Site.start Sample.runtime oneUser twoUploaders).run backend turns).world).2 := by
  have hrows : OwnershipFollows oneUser := ⟨fun m hm => absurd hm List.not_mem_nil, fun a ha => absurd ha List.not_mem_nil⟩
  have huser : Sample.user ∈ ((Site.start Sample.runtime oneUser twoUploaders).run backend turns).world.users.rows := by
    decide +kernel
  have hrun := items_follow_their_album Sample.runtime oneUser twoUploaders hrows oneAlbum_twoUploaders turns
  exact (hrun.2 Sample.user "c" "admin" none [] huser (by simp)).2

/-- Each item belongs to whom its album belongs to. -/
example : (((Site.start Sample.runtime oneUser twoUploaders).run backend turns).world.media.rows.map fun m => (m.albumId, m.userId)) =
    [("222222222", some "u"), ("333333333", none)] := by decide +kernel

end Imghost.Concurrency.Ownership
