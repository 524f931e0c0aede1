/-
  Imghost.Concurrency.Cover — the cover of an album is one of its items.

  No foreign key says so. A deletion takes the item first and writes the album without
  it afterwards: until then it owes the album a write (`debtOf`). The cover is an item
  of the album, or an item some running deletion owes the write for, as long as every
  row that is written back has such a cover too. Rows are written back from snapshots,
  so nothing makes sure of it: an upload, a reorder or a change of the title brings back
  the cover it has read, although a deletion has dropped it in between.
-/

import Imghost.Service.Footprint

namespace Imghost.Concurrency.Cover

open Imghost.Async Imghost.Data Imghost.Model Imghost.Service

variable {α β : Type}

/-! ## What a deletion owes -/

/-- The item that is deleted while the album may still have it as its cover. -/
abbrev Debt := Option String

def Debt.next (debt : Debt) : Call → Debt
  | ⟨.deleteMedia _, .ok (some m), _⟩ => some m.id
  | ⟨.updateAlbum _, _, _⟩ | ⟨.deleteAlbumRow _, .ok _, _⟩ => none
  | _ => debt

/-- All writes are to the one album, and a deletion writes it without the item. -/
def CanCall (albumId : String) (owner : Option String) (debt : Debt) : Req → Prop
  | .updateAlbum x => x.id = albumId ∧ x.userId = owner ∧ ∀ c, debt = some c → x.coverMediaId ≠ some c
  | .insertMedia m => m.albumId = albumId
  | .deleteMedia _ => debt = none
  | .deleteAlbumRow b => b = albumId
  | .createAlbum _ | .deleteUser _ => False
  | _ => True

def covering (albumId : String) (owner : Option String) : Protocol Reply PyExc Debt where
  can := CanCall albumId owner
  next := Debt.next

/-- What the rows say: who owns the album, and that the items to be deleted are its items.
    A write to the album fails only where there is none. -/
def Told (albumId : String) (owner : Option String) (doomed : List String) (e : Call) : Prop :=
  Undisturbed e ∧
    match e with
    | ⟨.getAlbum _, .ok (some a), _⟩ => a.id = albumId → a.userId = owner
    | ⟨.getMedia _, .ok (some m), _⟩ => m.id ∈ doomed → m.albumId = albumId
    | ⟨.updateAlbum x, .error e, _⟩ => x.id = albumId → x.userId = owner → ∃ msg, e = .lookupError msg
    | _ => True

/-- The operations on the album: uploads to it, changes and reorders of it, and deletions
    of its items. -/
def OnAlbum (albumId : String) (w : World) : Op → Prop
  | .upload input _ => input.albumId = some albumId ∧ albumId ≠ ""
  | .updateAlbum id _ _ _ _ | .reorderAlbum id _ _ _ _ => id = albumId
  | .deleteMedia mediaId _ _ _ => ∀ m ∈ w.media, m.id = mediaId → m.albumId = albumId
  | _ => False

/-- The items that are to be deleted. -/
def doomedBy (ops : List Op) : List String :=
  ops.filterMap fun op =>
    match op with
    | .deleteMedia mediaId _ _ _ => some mediaId
    | _ => none

variable {albumId : String} {owner : Option String} {doomed : List String}

/-- A call that changes no album and takes no item. -/
def Aside (albumId : String) : Req → Prop
  | .insertMedia m => m.albumId = albumId
  | .updateAlbum _ | .deleteMedia _ | .deleteAlbumRow _ | .createAlbum _ | .deleteUser _ => False
  | _ => True

theorem aside_of_itemReads (r : Req) (h : Req.itemReads r = true) : Aside albumId r := by
  cases r <;> trivial

theorem aside_of_plain (r : Req) (h : Req.plain r = true) : Aside albumId r := by
  cases r <;> trivial

theorem can_of_aside {debt : Debt} {r : Req} (h : Aside albumId r) : (covering albumId owner).can debt r := by
  cases r <;> first | exact h | trivial

theorem next_of_aside {debt : Debt} {e : Call} (h : Aside albumId e.req) : (covering albumId owner).next debt e = debt := by
  obtain ⟨r, x, b⟩ := e
  cases r <;> first | rfl | exact h.elim

/-! ## Operations that owe nothing -/

/-- The program owes nothing from start to end. -/
abbrev Clear (albumId : String) (owner : Option String) (doomed : List String) (p : Prog α) : Prop :=
  wp ((covering albumId owner).machine (Told albumId owner doomed)) (fun _ debt => debt = none) p none

theorem clear_of_uses {p : Prog α} (hp : p.Uses (Aside albumId)) : Clear albumId owner doomed p :=
  Protocol.wp_stay (fun _ => can_of_aside) (fun _ => next_of_aside) hp fun _ => rfl

theorem clear_bind {p : Prog α} {f : α → Prog β} (hp : Clear albumId owner doomed p)
    (hf : ∀ a, Clear albumId owner doomed (f a)) : Clear albumId owner doomed (p >>= f) :=
  wp_seq hp (fun a debt h => by subst h; exact hf a) fun _ _ h => h

theorem clear_after {p : Prog α} {f : α → Prog β} (hp : p.Uses (Aside albumId)) (hf : ∀ a, Clear albumId owner doomed (f a)) :
    Clear albumId owner doomed (p >>= f) := clear_bind (clear_of_uses hp) hf

theorem clear_yields {P : α → Prop} {p : Prog α} {f : α → Prog β} (hp : p.Uses (Aside albumId)) (hP : p.Yields P)
    (hf : ∀ a, P a → Clear albumId owner doomed (f a)) : Clear albumId owner doomed (p >>= f) := by
  refine wp_seq (wp_of_yields hP (clear_of_uses hp)) (fun a debt h => ?_) fun _ _ h => h.1
  obtain ⟨rfl, h⟩ := h
  exact hf a (h a rfl)

theorem getAlbumOr404_clear {f : Album → Prog β}
    (hf : ∀ s, s.id = albumId → s.userId = owner → Clear albumId owner doomed (f s)) :
    Clear albumId owner doomed (getAlbumOr404 albumId >>= f) := by
  rw [Clear, wp_bind]
  refine Protocol.wp_await trivial (fun found b h => ?_) fun e b _ => rfl
  cases found with
  | none => rfl
  | some s =>
    have hid := h.1.1.getAlbum_id
    exact hf s hid (h.2 hid)

theorem updateAlbumOr404_clear {x : Album} (hid : x.id = albumId) (howner : x.userId = owner) :
    Clear albumId owner doomed (updateAlbumOr404 x) := by
  rw [Clear, updateAlbumOr404, wp_bind, wp_attempt]
  refine (wp_perform _).mpr ⟨⟨hid, howner, fun c h => nomatch h⟩, ?_⟩
  rintro (e | a) _ ⟨b, -, rfl⟩
  · cases e <;> rfl
  · rfl

theorem titled_userId (album : Album) (title : Option String) : (titled album title).userId = album.userId := by
  unfold titled
  split <;> rfl

theorem getAlbumForUpload_clear {actor : CurrentActor} {deleteToken : Option String} {f : Album → Prog β}
    (hf : ∀ s, s.id = albumId → s.userId = owner → Clear albumId owner doomed (f s)) :
    Clear albumId owner doomed (getAlbumForUpload albumId actor deleteToken >>= f) := by
  rw [Clear, wp_bind]
  refine Protocol.wp_await trivial (fun found b h => ?_) fun e b _ => rfl
  cases found with
  | none => rfl
  | some s =>
    have hid := h.1.1.getAlbum_id
    refine Protocol.wp_pass (fun _ => can_of_aside) (fun _ => next_of_aside) (Program.uses_perform trivial)
      (fun now => ?_) fun e => rfl
    refine wp_check (fun _ => rfl) fun _ => ?_
    exact Protocol.wp_pass (fun _ => can_of_aside) (fun _ => next_of_aside)
      (requireUploadAccess_uses aside_of_plain _ _ _) (fun _ => hf s hid (h.2 hid)) fun e => rfl

theorem upload_clear (rt : Runtime) {input : UploadInput} (draws : Draws) (halbum : input.albumId = some albumId)
    (hne : albumId ≠ "") : Clear albumId owner doomed (upload rt input draws) := by
  have hget : getOrCreateAlbum input.albumId input.title input.correlationId input.actor input.deleteToken draws =
      getAlbumForUpload albumId input.actor input.deleteToken := by
    simp only [getOrCreateAlbum, halbum, Option.filter_some, bne_iff_ne, ne_eq, hne, not_false_eq_true, if_true]
  refine clear_after (readBoundedUpload_uses aside_of_plain _) fun payload => ?_
  refine clear_after (Program.uses_raiseIf _ _) fun _ => ?_
  refine clear_after (enforceRateLimit_uses aside_of_plain _ _ _) fun _ => ?_
  refine clear_after (enforceStorageQuotas_uses aside_of_plain _ _) fun _ => ?_
  rw [hget]
  refine getAlbumForUpload_clear fun s hid howner => ?_
  -- the album was there before: there is nothing to clean up
  have hinto : ((uploadInto rt input payload draws s).tryExcept fun e => do
      cleanUpAlbum input.albumId.isNone s
      Program.raise e).Uses (Aside albumId) := by
    rw [halbum]
    exact Program.uses_tryExcept (uploadInto_uses aside_of_itemReads (fun _ _ => trivial) (fun _ hm => hm.trans hid)
      (fun _ => trivial) _ _ _ _) fun _ => trivial
  refine clear_after hinto fun media => ?_
  exact clear_bind (updateAlbumOr404_clear ((titled_id s input.title).trans hid)
    ((titled_userId s input.title).trans howner)) fun _ => rfl

theorem updateAlbum_clear (deleteToken : Option String) (correlationId : String) (actorUser : Option User)
    (patch : AlbumPatch) :
    Clear albumId owner doomed (updateAlbum albumId deleteToken correlationId actorUser patch) := by
  refine getAlbumOr404_clear fun s hid howner => ?_
  refine clear_after (requireAlbumAccess_uses aside_of_plain _ _ _ _) fun _ => ?_
  refine clear_after (Program.uses_perform trivial) fun items => ?_
  refine clear_yields (patchTitle_uses aside_of_plain _ _ _ _ _) (patchTitle_yields s patch.title deleteToken
    correlationId actorUser) fun afterTitle htitle => ?_
  refine clear_yields (patchCover_uses aside_of_plain _ _ _ _ _ _ _) (patchCover_yields htitle.2 patch.coverMediaId items
    deleteToken correlationId actorUser) fun patched hcover => ?_
  have hpatched : patched.1.id = albumId ∧ patched.1.userId = owner := by
    rw [hcover.1, htitle.1]
    exact ⟨hid, howner⟩
  refine clear_bind ?_ fun _ => clear_of_uses (Program.uses_bind (Program.uses_perform trivial) fun _ => trivial)
  unfold writeIfChanged
  split
  · exact updateAlbumOr404_clear hpatched.1 hpatched.2
  · rfl

theorem reorderAlbum_clear (deleteToken : Option String) (order : List (String × Int)) (correlationId : String)
    (actorUser : Option User) :
    Clear albumId owner doomed (reorderAlbum albumId deleteToken order correlationId actorUser) := by
  refine getAlbumOr404_clear fun s hid howner => ?_
  refine clear_after (requireAlbumAccess_uses aside_of_plain _ _ _ _) fun _ => ?_
  refine clear_after (Program.uses_perform trivial) fun items => ?_
  refine clear_after (Program.uses_raiseIf _ _) fun _ => ?_
  refine clear_after (Program.uses_ofExcept _) fun positions => ?_
  refine clear_after (writePositions_uses (fun _ => trivial) positions) fun reordered => ?_
  refine clear_bind (updateAlbumOr404_clear hid howner) fun _ => ?_
  exact clear_after (Program.uses_perform trivial) fun _ => rfl

/-! ## A deletion pays what it owes -/

theorem deleteStorageKeyBestEffort_keeps {debt : Debt} (key : String) {Q : Except PyExc Unit → Debt → Prop}
    (h : Q (.ok ()) debt) :
    wp ((covering albumId owner).machine (Told albumId owner doomed)) Q (deleteStorageKeyBestEffort key) debt := by
  rw [deleteStorageKeyBestEffort, wp_tryExcept]
  refine (wp_perform _).mpr ⟨trivial, ?_⟩
  rintro (e | a) _ ⟨b, -, rfl⟩
  · exact h
  · exact h

theorem deleteMediaStorageKeys_keeps {debt : Debt} (items : List Media) :
    wp ((covering albumId owner).machine (Told albumId owner doomed)) (fun x debt' => x = .ok () ∧ debt' = debt)
      (deleteMediaStorageKeys items) debt := by
  refine wp_forEach (I := fun _ debt' => debt' = debt) (fun m rest debt' hI => ?_) (fun debt' hI => ⟨rfl, hI⟩) rfl
  subst hI
  rw [wp_bind]
  refine deleteStorageKeyBestEffort_keeps m.storageKey ?_
  rw [bindPost_ok]
  split
  · split
    · exact deleteStorageKeyBestEffort_keeps _ rfl
    · rfl
  · rfl

/-- Calls that cannot fail, and what follows them. -/
theorem wp_ask_aside {debt : Debt} {Q : Except PyExc β → Debt → Prop} {r : Req} {f : Reply r → Prog β}
    (hr : Aside albumId r) (htotal : total r = true)
    (hok : ∀ a, wp ((covering albumId owner).machine (Told albumId owner doomed)) Q (f a) debt) :
    wp ((covering albumId owner).machine (Told albumId owner doomed)) Q (ask r >>= f) debt := by
  refine Protocol.wp_await (can_of_aside hr) (fun a b _ => ?_) fun e b h => (h.1.not_error htotal).elim
  rw [next_of_aside hr]
  exact hok a

theorem removeMedia_owes (mediaId : String) (deleteToken : Option String) (correlationId : String)
    (actorUser : Option User) :
    wp ((covering albumId owner).machine (Told albumId owner doomed))
      (fun x debt => match x with
        | .ok m => debt = some m.id
        | .error _ => debt = none)
      (removeMedia mediaId deleteToken correlationId actorUser) none := by
  refine Protocol.wp_await rfl (fun deleted b _ => ?_) fun e b _ => rfl
  cases deleted with
  | none => rfl
  | some m =>
    refine wp_seq (deleteMediaStorageKeys_keeps [m]) (fun _ debt h => ?_) fun e debt h => nomatch h.1
    obtain ⟨-, rfl⟩ := h
    exact wp_ask_aside trivial rfl fun _ => rfl

theorem deleteEmptiedAlbum_pays {debt : Debt} (deletedMedia : Media) (deleteToken : Option String)
    (correlationId : String) (actorUser : Option User) :
    wp ((covering albumId owner).machine (Told albumId owner doomed)) (fun _ debt => debt = none)
      (deleteEmptiedAlbum albumId deletedMedia deleteToken correlationId actorUser) debt := by
  rw [deleteEmptiedAlbum, Repository.deleteAlbum, wp_bind]
  refine wp_ask_aside trivial rfl fun rows => ?_
  refine Protocol.wp_await rfl (fun row b _ => ?_) fun e b h => (h.1.not_error rfl).elim
  have hann : ∀ deleted, Clear albumId owner doomed
      (do announceEmptiedAlbum deleted deleteToken correlationId actorUser
          return { deletedMedia := deletedMedia, album := none, remainingItems := [], albumDeleted := true } :
        Prog MediaDeleteResult) := fun deleted =>
    clear_after (announceEmptiedAlbum_uses aside_of_plain _ _ _ _) fun _ => rfl
  cases row with
  | none => exact hann none
  | some album => exact hann (some album)

theorem keepAlbum_pays {s : Album} {deletedMedia : Media} (hid : s.id = albumId) (howner : s.userId = owner)
    (remainingItems : List Media) :
    wp ((covering albumId owner).machine (Told albumId owner doomed)) (fun _ debt => debt = none)
      (keepAlbum s deletedMedia remainingItems) (some deletedMedia.id) := by
  have hwritten : ∀ x : Album, x = (if s.coverMediaId = some deletedMedia.id then { s with coverMediaId := none } else s) →
      (covering albumId owner).can (some deletedMedia.id) (.updateAlbum x) := by
    rintro x rfl
    split
    · exact ⟨hid, howner, fun c _ h => nomatch h⟩
    · rename_i hother
      refine ⟨hid, howner, fun c hc hcover => hother ?_⟩
      rw [hcover, ← hc]
  simp only [keepAlbum]
  rw [wp_bind, wp_attempt]
  refine (wp_perform _).mpr ⟨hwritten _ rfl, ?_⟩
  rintro (e | a) _ ⟨b, -, rfl⟩
  · cases e <;> rfl
  · rfl

theorem deleteMedia_pays {mediaId : String} (hdoomed : mediaId ∈ doomed) (deleteToken : Option String)
    (correlationId : String) (actorUser : Option User) :
    Clear albumId owner doomed (deleteMedia mediaId deleteToken correlationId actorUser) := by
  rw [Clear, deleteMedia, getMediaOr404, wp_bind]
  refine Protocol.wp_await trivial (fun found b h => ?_) fun e b _ => rfl
  cases found with
  | none => rfl
  | some media =>
    have halbum : media.albumId = albumId := h.2 (h.1.1.getMedia_id ▸ hdoomed)
    dsimp only
    rw [wp_pure, bindPost_ok, halbum]
    refine getAlbumOr404_clear fun s hid howner => ?_
    refine clear_after (requireAlbumAccess_uses aside_of_plain _ _ _ _) fun _ => ?_
    refine wp_seq (removeMedia_owes mediaId deleteToken correlationId actorUser) (fun deletedMedia debt h => ?_)
      fun e debt h => h
    obtain rfl : debt = some deletedMedia.id := h
    refine wp_ask_aside trivial rfl fun remainingItems => ?_
    rw [hid]
    split
    · exact deleteEmptiedAlbum_pays deletedMedia deleteToken correlationId actorUser
    · exact keepAlbum_pays hid howner remainingItems

theorem program_clear (rt : Runtime) {w : World} {ops : List Op} {op : Op} (hop : op ∈ ops) (hon : OnAlbum albumId w op) :
    Clear albumId owner (doomedBy ops) (op.program rt) := by
  have hreturn : ∀ {β : Type} {p : Prog β} {f : β → OpResult}, Clear albumId owner (doomedBy ops) p →
      Clear albumId owner (doomedBy ops) (p >>= fun a => pure (f a)) := fun h => clear_bind h fun _ => rfl
  cases op with
  | upload input draws => exact hreturn (upload_clear rt draws hon.1 hon.2)
  | updateAlbum id deleteToken correlationId actorUser patch =>
    obtain rfl : id = albumId := hon
    exact hreturn (updateAlbum_clear deleteToken correlationId actorUser patch)
  | reorderAlbum id deleteToken order correlationId actorUser =>
    obtain rfl : id = albumId := hon
    exact hreturn (reorderAlbum_clear deleteToken order correlationId actorUser)
  | deleteMedia mediaId deleteToken correlationId actorUser =>
    exact hreturn (deleteMedia_pays (List.mem_filterMap.mpr ⟨_, hop, rfl⟩) deleteToken correlationId actorUser)
  | _ => cases hon

/-! ## What calls do to the rows -/

/-- The album has its owner, and the items to be deleted are its items. -/
structure Sane (albumId : String) (owner : Option String) (doomed : List String) (w : World) : Prop where
  owned : ∀ a ∈ w.albums, a.id = albumId → a.userId = owner
  items : ∀ m ∈ w.media, m.id ∈ doomed → m.albumId = albumId

section

variable {i : Nat} {r : Req} {fault : Option PyExc} {w : World} {debt : Debt}

/-- Items are inserted, or were there before. -/
theorem item_before (hr : ∀ u, r ≠ .deleteUser u) {m' : Media} (h : m' ∈ (backend.answer i r fault w).2.media) :
    (∃ m ∈ w.media, SameItem m m') ∨ r = .insertMedia m' := by
  by_cases hm : Req.changesMedia r = false
  · rw [answer_media hm] at h
    exact .inl ⟨m', h, .refl m'⟩
  rcases answer_cases i r fault w with ha | ⟨e, -, ha⟩
  swap
  · rw [ha] at h
    exact .inl ⟨m', h, .refl m'⟩
  rw [ha] at h
  cases r <;> first | exact absurd rfl hm | exact absurd rfl (hr _) | skip
  case insertMedia a =>
    simp only [exec, World.insertMedia] at h
    split at h
    · exact .inl ⟨m', h, .refl m'⟩
    split at h
    · rename_i t ht
      rcases (Table.mem_insert ht).mp h with h | rfl
      · exact .inl ⟨m', h, .refl m'⟩
      · exact .inr rfl
    · exact .inl ⟨m', h, .refl m'⟩
  case updateMediaThumbnailState =>
    simp only [exec, World.updateMediaThumbnailState] at h
    split at h
    · exact .inl ⟨m', h, .refl m'⟩
    · obtain ⟨m, hm, rfl⟩ := List.mem_map.mp h
      refine .inl ⟨m, hm, ?_⟩
      split
      · exact ⟨rfl, rfl, rfl, rfl⟩
      · exact .refl m
  case updateMediaPositions a positions =>
    simp only [exec, World.updateMediaPositions] at h
    split at h
    · obtain ⟨m, hm, rfl⟩ := List.mem_map.mp h
      exact .inl ⟨m, hm, sameItem_setPositions a positions m⟩
    · exact .inl ⟨m', h, .refl m'⟩
  case deleteMedia => exact .inl ⟨m', (Table.mem_delete.mp h).1, .refl m'⟩
  case deleteAlbumRow => exact .inl ⟨m', (mem_dropAlbums_media.mp h).1, .refl m'⟩

/-- A row of the album was there before, or has just been written. -/
theorem album_before (hcan : CanCall albumId owner debt r) {a' : Album} (h : a' ∈ (backend.answer i r fault w).2.albums)
    (hid : a'.id = albumId) :
    a' ∈ w.albums ∨ ∃ x a, r = .updateAlbum x ∧ (backend.answer i r fault w).1 = .ok a ∧ a'.userId = x.userId ∧
      a'.coverMediaId = x.coverMediaId := by
  by_cases hr : Req.changesAlbums r = false
  · rw [answer_albums hr] at h
    exact .inl h
  cases r <;> first | exact absurd rfl hr | exact hcan.elim | skip
  case updateAlbum x =>
    rcases hreply : (backend.answer i (.updateAlbum x) fault w).1 with e | a
    · rw [updateAlbum_error hreply] at h
      exact .inl h
    · obtain ⟨row, hrow, hfind⟩ := find?_updateAlbum hreply
      have hself := hfind albumId
      rw [if_pos hcan.1.symm, ← hid, Table.find?_self h] at hself
      obtain rfl := Option.some.inj hself
      exact .inr ⟨x, a, rfl, rfl, rfl, rfl⟩
  case deleteAlbumRow b =>
    rcases answer_cases i (.deleteAlbumRow b) fault w with ha | ⟨e, -, ha⟩
    · rw [ha] at h
      exact .inl (mem_dropAlbums_albums.mp h).1
    · rw [ha] at h
      exact .inl h

theorem Sane.answer (h : Sane albumId owner doomed w) (hcan : CanCall albumId owner debt r) :
    Sane albumId owner doomed (backend.answer i r fault w).2 where
  owned a' ha' hid := by
    rcases album_before hcan ha' hid with ha | ⟨x, a, rfl, -, huser, -⟩
    · exact h.owned a' ha hid
    · exact huser.trans hcan.2.1
  items m' hm' hdoomed := by
    have hr : ∀ u, r ≠ .deleteUser u := by
      rintro u rfl
      exact hcan
    rcases item_before hr hm' with ⟨m, hm, hsame⟩ | rfl
    · rw [hsame.albumId]
      exact h.items m hm (hsame.id ▸ hdoomed)
    · exact hcan

/-- A write to the album that is not made to fail raises only where the row is gone. -/
theorem updateAlbum_raises {x : Album} {e : PyExc} (hw : Sane albumId owner doomed w) (hid : x.id = albumId)
    (howner : x.userId = owner) (h : (exec i (.updateAlbum x) w).1 = .error e) :
    w.albums.find? albumId = none ∧ ∃ msg, e = .lookupError msg := by
  simp only [exec, World.updateAlbum] at h
  rcases hrow : w.albums.find? x.id with _ | row
  · rw [hrow] at h
    exact ⟨hid ▸ hrow, _, (Except.error.inj h).symm⟩
  · rw [hrow] at h
    have hsame : row.userId = x.userId := by
      rw [hw.owned row (Table.find?_mem hrow) ((Table.find?_key hrow).trans hid), howner]
    dsimp only at h
    rw [if_neg (by simp [hsame])] at h
    cases h

theorem told_answer {p : Site} (hw : Sane albumId owner doomed p.world) (hfault : NoFaults p i r fault) :
    Told albumId owner doomed ⟨r, (backend.answer i r fault p.world).1, fault.isSome⟩ := by
  refine ⟨undisturbed_answer hfault, ?_⟩
  cases r <;> first | trivial | skip
  case getAlbum b =>
    rcases hreply : (backend.answer i (.getAlbum b) fault p.world).1 with e | found
    · trivial
    · cases found with
      | none => trivial
      | some a => exact hw.owned a (Table.find?_mem (Except.ok.inj (exec_of_ok hreply)))
  case getMedia mediaId =>
    rcases hreply : (backend.answer i (.getMedia mediaId) fault p.world).1 with e | found
    · trivial
    · cases found with
      | none => trivial
      | some m => exact hw.items m (Table.find?_mem (Except.ok.inj (exec_of_ok hreply)))
  case updateAlbum x =>
    rcases hreply : (backend.answer i (.updateAlbum x) fault p.world).1 with e | a
    · obtain rfl : fault = none := hfault.resolve_right nofun
      exact fun hid howner => (updateAlbum_raises (i := i) hw hid howner hreply).2
    · trivial

end

/-! ## Runs -/

/-- What task `i` owes. -/
def debtOf (p : Site) (i : Nat) : Debt := p.seen Debt.next none i

/-- `c` is an item of the album, or some deletion has taken it and not yet written the album. -/
def ValidOrOwed (albumId : String) (p : Site) (c : String) : Prop :=
  (∃ m ∈ p.world.media.rows, m.id = c ∧ m.albumId = albumId) ∨ ∃ j < p.tasks.length, debtOf p j = some c

/-- No database or storage call fails, and the rows that are written have such a cover, or none. -/
def CoverCurrent (albumId : String) (p : Site) (i : Nat) (r : Req) (fault : Option PyExc) : Prop :=
  NoFaults p i r fault ∧
    match r with
    | .updateAlbum x => ∀ c ∈ x.coverMediaId, ValidOrOwed albumId p c
    | _ => True

instance (albumId : String) (p : Site) (c : String) : Decidable (ValidOrOwed albumId p c) := by
  unfold ValidOrOwed
  infer_instance

instance (albumId : String) (p : Site) (i : Nat) (r : Req) (fault : Option PyExc) :
    Decidable (CoverCurrent albumId p i r fault) := by
  unfold CoverCurrent
  cases r <;> infer_instance

/-- The album's cover is an item of it, or some deletion is going to drop it. -/
def CoverHeld (albumId : String) (p : Site) : Prop :=
  ∀ a ∈ p.world.albums, a.id = albumId → ∀ c, a.coverMediaId = some c → ValidOrOwed albumId p c

section

variable {p : Site} {i : Nat} {t : Task Reply PyExc OpResult} {r : Req} {k : Except PyExc (Reply r) → Prog OpResult}
  {fault : Option PyExc}

theorem debtOf_advance (ht : p.tasks[i]? = some t) : debtOf (p.advance backend i t r k fault) i =
    (debtOf p i).next ⟨r, (backend.answer i r fault p.world).1, fault.isSome⟩ := Pool.seen_advance_self ht

theorem debtOf_advance_of_ne {j : Nat} (h : j ≠ i) : debtOf (p.advance backend i t r k fault) j = debtOf p j :=
  Pool.seen_advance_of_ne h

/-- A cover that is held stays held, unless the call drops it. -/
theorem ValidOrOwed.advance {c : String} (h : ValidOrOwed albumId p c) (ht : p.tasks[i]? = some t)
    (hcan : CanCall albumId owner (debtOf p i) r) (hfault : NoFaults p i r fault)
    (hpaid : ∀ x, r = .updateAlbum x → debtOf p i ≠ some c) (hkept : r ≠ .deleteAlbumRow albumId) :
    ValidOrOwed albumId (p.advance backend i t r k fault) c := by
  rcases h with ⟨m, hm, hid, halbum⟩ | ⟨j, hj, howed⟩
  · by_cases hdelete : r = .deleteMedia c
    · -- the deletion owes for it from now on
      subst hdelete
      obtain rfl : fault = none := hfault.resolve_right nofun
      refine .inr ⟨i, ?_, ?_⟩
      · rw [Pool.tasks_length_advance]
        exact (List.getElem?_eq_some_iff.mp ht).1
      · have hfind : p.world.media.find? c = some m := Table.find?_eq_some.mpr ⟨hm, hid⟩
        rw [debtOf_advance ht]
        simp only [backend, Backend.answer_none, exec, hfind, Debt.next, hid]
    · left
      cases hdeletes : Req.deletesMedia r
      · obtain ⟨m', hm', hsame⟩ := @media_stays i r fault _ hdeletes _ hm
        exact ⟨m', hm', hsame.id.trans hid, hsame.albumId.trans halbum⟩
      · cases r <;> first | exact absurd hdeletes Bool.false_ne_true | exact hcan.elim | skip
        case deleteMedia mediaId =>
          refine ⟨m, ?_, hid, halbum⟩
          obtain rfl : fault = none := hfault.resolve_right nofun
          refine Table.mem_delete.mpr ⟨hm, ?_⟩
          rintro rfl
          exact hdelete (by rw [hid])
        case deleteAlbumRow b =>
          obtain rfl : b = albumId := hcan
          exact absurd rfl hkept
  · refine .inr ⟨j, by rw [Pool.tasks_length_advance]; exact hj, ?_⟩
    by_cases hji : j = i
    · subst hji
      have haside : Aside albumId r := by
        cases r <;> first | trivial | exact hcan | skip
        case updateAlbum x => exact absurd howed (hpaid x rfl)
        case deleteMedia => rw [howed] at hcan; cases hcan
        case deleteAlbumRow b =>
          obtain rfl : b = albumId := hcan
          exact absurd rfl hkept
      rw [debtOf_advance ht]
      exact (@next_of_aside albumId owner _ _ haside).trans howed
    · rw [debtOf_advance_of_ne hji]
      exact howed

theorem CoverHeld.advance (h : CoverHeld albumId p) (hw : Sane albumId owner doomed p.world) (ht : p.tasks[i]? = some t)
    (hcan : CanCall albumId owner (debtOf p i) r) (hcurrent : CoverCurrent albumId p i r fault) :
    CoverHeld albumId (p.advance backend i t r k fault) := by
  obtain ⟨hfault, hcover⟩ := hcurrent
  intro a ha hid c hc
  change a ∈ (backend.answer i r fault p.world).2.albums at ha
  by_cases hupdate : ∃ x, r = .updateAlbum x
  · obtain ⟨x, rfl⟩ := hupdate
    rcases hreply : (backend.answer i (.updateAlbum x) fault p.world).1 with e | b
    · -- the album is gone
      obtain rfl : fault = none := hfault.resolve_right nofun
      rw [updateAlbum_error hreply] at ha
      have hgone := (updateAlbum_raises (i := i) hw hcan.1 hcan.2.1 hreply).1
      rw [← hid, Table.find?_self ha] at hgone
      cases hgone
    · obtain ⟨row, hrow, hfind⟩ := find?_updateAlbum hreply
      have hself := hfind albumId
      rw [if_pos hcan.1.symm, ← hid, Table.find?_self ha] at hself
      obtain rfl := Option.some.inj hself
      exact (hcover c hc).advance ht hcan hfault (fun y hy howed => hcan.2.2 c howed hc) nofun
  by_cases hdelete : r = .deleteAlbumRow albumId
  · subst hdelete
    obtain rfl : fault = none := hfault.resolve_right nofun
    have hkept := (mem_dropAlbums_albums.mp ha).2
    rw [hid, beq_self_eq_true] at hkept
    cases hkept
  · have hsame : Req.changesAlbums r = false := by
      cases r <;> first | rfl | exact hcan.elim | exact absurd ⟨_, rfl⟩ hupdate | skip
      case deleteAlbumRow b =>
        obtain rfl : b = albumId := hcan
        exact absurd rfl hdelete
    rw [answer_albums hsame] at ha
    exact (h a ha hid c hc).advance ht hcan hfault (fun x hx => absurd ⟨x, hx⟩ hupdate) hdelete

end

/-- The cover of the album, if it has one, is an item of the album. -/
def CoverIsItem (albumId : String) (w : World) : Prop :=
  ∀ a ∈ w.albums.rows, a.id = albumId → ∀ c ∈ a.coverMediaId, ∃ m ∈ w.media.rows, m.id = c ∧ m.albumId = albumId

instance (albumId : String) (w : World) : Decidable (CoverIsItem albumId w) := by
  unfold CoverIsItem
  infer_instance

/-- No operation is in flight: each has yet to begin, or has ended. -/
def Quiet (p : Site) : Prop := ∀ t ∈ p.tasks, t.log.isEmpty = true ∨ t.rest.finished = true

instance (p : Site) : Decidable (Quiet p) := inferInstanceAs (Decidable (∀ t ∈ p.tasks, _ ∨ _))

theorem nothing_owed_of_quiet {p : Site}
    (hfollows : p.Follows (fun _ => covering albumId owner) (Told albumId owner doomed) (fun _ _ debt => debt = none)
      fun _ => none) (hquiet : Quiet p) (j : Nat) : debtOf p j = none := by
  rcases ht : p.tasks[j]? with _ | t
  · simp only [debtOf, Pool.seen, ht]
  rw [debtOf, Pool.seen_eq ht]
  rcases hquiet t (List.mem_of_getElem? ht) with hlog | hfinished
  · rw [List.isEmpty_iff.mp hlog]
    rfl
  · obtain ⟨x, hx⟩ := Option.isSome_iff_exists.mp hfinished
    exact hfollows.done ht hx

theorem sane_start {w : World} {ops : List Op} (hops : ∀ op ∈ ops, OnAlbum albumId w op) :
    Sane albumId ((w.albums.find? albumId).bind (·.userId)) (doomedBy ops) w where
  owned a ha hid := by rw [← hid, Table.find?_self ha, Option.bind_some]
  items m hm hdoomed := by
    obtain ⟨op, hop, hid⟩ := List.mem_filterMap.mp hdoomed
    have hon := hops op hop
    split at hid
    · exact hon m hm (Option.some.inj hid).symm
    · cases hid

/-- Any number of uploads, changes, reorders and deletions on one album: as long as what they write
    back has a current cover, or none, the cover is an item of the album whenever none is in flight. -/
theorem cover_is_an_item (rt : Runtime) (w : World) (ops : List Op) (albumId : String) (cs : List (Choice PyExc))
    (hops : ∀ op ∈ ops, OnAlbum albumId w op) (hw : CoverIsItem albumId w)
    (hcurrent : (Site.start rt w ops).Meets backend (CoverCurrent albumId) cs)
    (hquiet : Quiet ((Site.start rt w ops).run backend cs)) :
    CoverIsItem albumId ((Site.start rt w ops).run backend cs).world := by
  have hrun := Pool.run_invariant (B := backend) (I := fun p : Site =>
      Sane albumId ((w.albums.find? albumId).bind (·.userId)) (doomedBy ops) p.world ∧ CoverHeld albumId p ∧
      p.Follows (fun _ => covering albumId ((w.albums.find? albumId).bind (·.userId)))
        (Told albumId ((w.albums.find? albumId).bind (·.userId)) (doomedBy ops)) (fun _ _ debt => debt = none) fun _ => none)
    (fun p d h => ⟨⟨h.1.owned, h.1.items⟩, h.2.1, h.2.2⟩)
    (fun p i t r k fault h ht hr hcurrent => ?_) ⟨sane_start hops, ?_, ?_⟩ hcurrent
  · obtain ⟨-, hheld, hfollows⟩ := hrun
    intro a ha hid c hc
    rcases hheld a ha hid c hc with hitem | ⟨j, -, howed⟩
    · exact hitem
    · rw [nothing_owed_of_quiet hfollows hquiet] at howed
      cases howed
  · obtain ⟨hsane, hheld, hfollows⟩ := h
    have hcan : CanCall albumId ((w.albums.find? albumId).bind (·.userId)) (debtOf p i) r := by
      rw [debtOf, Pool.seen_eq ht]
      exact hfollows.can ht hr
    exact ⟨hsane.answer hcan, hheld.advance hsane ht hcan hcurrent,
      hfollows.advance ht hr (told_answer hsane hcurrent.1)⟩
  · exact fun a ha hid c hc => .inl (hw a ha hid c hc)
  · exact Site.start_follows fun i op hop =>
      program_clear rt (List.mem_of_getElem? hop) (hops op (List.mem_of_getElem? hop))

/-! ## A cover that comes back -/

/-- The sample album with the items `m` and `n`, of which `m` is the cover. -/
def coveredAlbum : World :=
  { Sample.world with
    albums := .single { Sample.album with coverMediaId := some "m" }
    media := Sample.twoItems }

def uploadAndDeletion : List Op :=
  [.upload (Sample.uploadTo (some "a")) Sample.firstDraws, .deleteMedia "m" (some "t") "c" none]

/-- The upload reads the album, the deletion runs, the upload writes the album back. -/
def deletionWithin : List (Choice PyExc) := Sample.calls 0 7 ++ Sample.calls 1 8 ++ Sample.calls 0 8

/-- The deletion has ended when the upload reads the album. -/
def deletionBefore : List (Choice PyExc) := Sample.calls 0 2 ++ Sample.calls 1 8 ++ Sample.calls 0 13

/-- The upload brings back the cover the deletion has dropped. -/
theorem an_upload_brings_back_the_cover :
    CoverIsItem "a" coveredAlbum ∧
      (Site.start Sample.runtime coveredAlbum uploadAndDeletion).Meets backend NoFaults deletionWithin ∧
      ((Site.start Sample.runtime coveredAlbum uploadAndDeletion).run backend deletionWithin).finished = true ∧
      ¬ CoverIsItem "a" ((Site.start Sample.runtime coveredAlbum uploadAndDeletion).run backend deletionWithin).world := by
  decide +kernel

/-- Begun before the deletion, but with the album read after it, the same upload does not. -/
theorem an_upload_that_reads_later_does_not :
    CoverIsItem "a" ((Site.start Sample.runtime coveredAlbum uploadAndDeletion).run backend deletionBefore).world :=
  cover_is_an_item Sample.runtime coveredAlbum uploadAndDeletion "a" deletionBefore
    (by
      intro op hop
      simp only [uploadAndDeletion, List.mem_cons, List.not_mem_nil, or_false] at hop
      rcases hop with rfl | rfl
      · exact ⟨rfl, by decide⟩
      · intro m hm _
        have hrows : ∀ m ∈ coveredAlbum.media.rows, m.albumId = "a" := by decide
        exact hrows m hm)
    (by decide +kernel) (by decide +kernel) (by decide +kernel)

end Imghost.Concurrency.Cover
