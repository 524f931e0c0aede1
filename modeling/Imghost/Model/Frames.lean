/-
  Imghost.Model.Frames — what a call leaves alone.

  `Req.changes…` name the calls that can change a table or the storage, `Req.deletes…`
  those that can take rows out of it; every other call leaves it alone, faults
  included.
-/

import Imghost.Model.World

namespace Imghost.Model

open Imghost.Async Imghost.Data

namespace Req

def changesAlbums : Req → Bool
  | .createAlbum _ | .updateAlbum _ | .deleteAlbumRow _ | .deleteUser _ => true
  | _ => false

def changesMedia : Req → Bool
  | .insertMedia _ | .updateMediaThumbnailState _ _ _ _ _ | .updateMediaPositions _ _ | .deleteMedia _ => true
  | .deleteAlbumRow _ | .deleteUser _ => true
  | _ => false

def changesObjects : Req → Bool
  | .put _ _ | .storageDelete _ => true
  | _ => false

def changesUsers : Req → Bool
  | .createUser _ | .updateUser _ | .deleteUser _ => true
  | _ => false

def deletesMedia : Req → Bool
  | .deleteMedia _ | .deleteAlbumRow _ | .deleteUser _ => true
  | _ => false

def deletesAlbums : Req → Bool
  | .deleteAlbumRow _ | .deleteUser _ => true
  | _ => false

end Req

theorem inBigint_iff {n : Int} : inBigint n = true ↔ -(2 ^ 63) ≤ n ∧ n ≤ bigintMax := by
  simp only [inBigint, Bool.and_eq_true, decide_eq_true_eq]

namespace World

variable (w : World) (i : Nat)

@[simp] theorem unlock_users : (w.unlock i).users = w.users := rfl
@[simp] theorem unlock_albums : (w.unlock i).albums = w.albums := rfl
@[simp] theorem unlock_media : (w.unlock i).media = w.media := rfl
@[simp] theorem unlock_objects : (w.unlock i).objects = w.objects := rfl
@[simp] theorem unlock_config : (w.unlock i).config = w.config := rfl

end World

theorem fail_of_fallible {i : Nat} {r : Req} {e : PyExc} {w : World} (h : fallible r = true) :
    fail i r e w = (.error e, w.unlock i) := if_pos h

/-- A call that raises either goes through all the same or only ends its transaction. -/
theorem answer_cases (i : Nat) (r : Req) (fault : Option PyExc) (w : World) :
    backend.answer i r fault w = exec i r w ∨ ∃ e, fault = some e ∧ backend.answer i r fault w = (.error e, w.unlock i) := by
  cases fault with
  | none => exact .inl rfl
  | some e =>
    by_cases h : fallible r = true
    · exact .inr ⟨e, rfl, if_pos h⟩
    · exact .inl (if_neg h)

variable {i : Nat} {r : Req} {fault : Option PyExc} {w : World}

/-- A call that was answered with a value went through. -/
theorem answer_of_ok {a : Reply r} (h : (backend.answer i r fault w).1 = .ok a) :
    backend.answer i r fault w = exec i r w := by
  rcases answer_cases i r fault w with ha | ⟨e, -, ha⟩
  · exact ha
  · rw [ha] at h; cases h

theorem exec_of_ok {a : Reply r} (h : (backend.answer i r fault w).1 = .ok a) : (exec i r w).1 = .ok a := by
  rw [← answer_of_ok h]; exact h

/-- What a call leaves alone. Only `emit` sends an event; only `elapse` moves the clock. -/
structure Frame (r : Req) (w w' : World) : Prop where
  config : w'.config = w.config
  clock : w'.clock = w.clock
  albums : Req.changesAlbums r = false → w'.albums = w.albums
  media : Req.changesMedia r = false → w'.media = w.media
  objects : Req.changesObjects r = false → w'.objects = w.objects
  users : Req.changesUsers r = false → w'.users = w.users
  events : (∀ event, r ≠ .emit event) → w'.events = w.events

theorem exec_frame (i : Nat) (r : Req) (w : World) : Frame r w (exec i r w).2 := by
  cases r <;>
    (simp only [exec, World.createAlbum, World.updateAlbum, World.dropAlbums, World.lockAlbum, World.insertMedia,
      World.updateMediaThumbnailState, World.updateMediaPositions, World.createUser, World.updateUser, World.deleteUser]
     repeat' split) <;>
    refine ⟨rfl, rfl, ?_, ?_, ?_, ?_, ?_⟩ <;> intro h <;> first
    | rfl
    | cases h
    | exact absurd rfl (h _)

theorem answer_frame (i : Nat) (r : Req) (fault : Option PyExc) (w : World) :
    Frame r w (backend.answer i r fault w).2 := by
  rcases answer_cases i r fault w with h | ⟨e, -, h⟩
  · rw [h]
    exact exec_frame i r w
  · rw [h]
    exact ⟨rfl, rfl, fun _ => rfl, fun _ => rfl, fun _ => rfl, fun _ => rfl, fun _ => rfl⟩

theorem answer_config : (backend.answer i r fault w).2.config = w.config := (answer_frame i r fault w).config

theorem answer_clock : (backend.answer i r fault w).2.clock = w.clock := (answer_frame i r fault w).clock

theorem answer_albums (h : Req.changesAlbums r = false) : (backend.answer i r fault w).2.albums = w.albums :=
  (answer_frame i r fault w).albums h

theorem answer_media (h : Req.changesMedia r = false) : (backend.answer i r fault w).2.media = w.media :=
  (answer_frame i r fault w).media h

theorem answer_objects (h : Req.changesObjects r = false) : (backend.answer i r fault w).2.objects = w.objects :=
  (answer_frame i r fault w).objects h

theorem answer_users (h : Req.changesUsers r = false) : (backend.answer i r fault w).2.users = w.users :=
  (answer_frame i r fault w).users h

theorem answer_events (h : ∀ event, r ≠ .emit event) : (backend.answer i r fault w).2.events = w.events :=
  (answer_frame i r fault w).events h

/-! ## Rows that stay -/

/-- Moving items changes nothing but their positions. -/
theorem setPositions_eq (albumId : String) (positions : List (String × Int)) (m : Media) :
    ∃ position, World.setPositions albumId positions m = { m with position := position } := by
  unfold World.setPositions
  induction positions generalizing m with
  | nil => exact ⟨m.position, rfl⟩
  | cons p ps ih =>
    obtain ⟨position, h⟩ := ih (World.setPosition albumId m p)
    rw [List.foldl_cons, h]
    simp only [World.setPosition]
    split
    · exact ⟨position, rfl⟩
    · exact ⟨position, rfl⟩

/-- What a row keeps under every statement that does not delete it: which item it is. -/
structure SameItem (m m' : Media) : Prop where
  id : m'.id = m.id
  albumId : m'.albumId = m.albumId
  userId : m'.userId = m.userId
  storageKey : m'.storageKey = m.storageKey

theorem SameItem.refl (m : Media) : SameItem m m := ⟨rfl, rfl, rfl, rfl⟩

theorem sameItem_setPositions (albumId : String) (positions : List (String × Int)) (m : Media) :
    SameItem m (World.setPositions albumId positions m) := by
  obtain ⟨position, h⟩ := setPositions_eq albumId positions m
  rw [h]
  exact ⟨rfl, rfl, rfl, rfl⟩

theorem media_stays (h : Req.deletesMedia r = false) {m : Media} (hm : m ∈ w.media) :
    ∃ m' ∈ (backend.answer i r fault w).2.media, SameItem m m' := by
  by_cases hr : Req.changesMedia r = false
  · exact ⟨m, by rw [answer_media hr]; exact hm, .refl m⟩
  rcases answer_cases i r fault w with ha | ⟨e, -, ha⟩
  swap
  · exact ⟨m, by rw [ha]; exact hm, .refl m⟩
  rw [ha]
  cases r <;> first | exact absurd rfl hr | (simp only [Req.deletesMedia, Bool.true_eq_false] at h; done) | skip
  case insertMedia a =>
    simp only [exec, World.insertMedia]
    split
    · exact ⟨m, hm, .refl m⟩
    split
    · rename_i t ht
      exact ⟨m, (Table.mem_insert ht).mpr (.inl hm), .refl m⟩
    · exact ⟨m, hm, .refl m⟩
  case updateMediaThumbnailState k _ _ _ _ =>
    simp only [exec, World.updateMediaThumbnailState]
    split
    · exact ⟨m, hm, .refl m⟩
    · refine ⟨_, Table.update_mem (World.setThumb_id _ _ _ _) hm, ?_⟩
      split
      · exact ⟨rfl, rfl, rfl, rfl⟩
      · exact .refl m
  case updateMediaPositions a ps =>
    simp only [exec, World.updateMediaPositions]
    split
    · exact ⟨_, Table.modify_mem (World.setPositions_id a ps) hm, sameItem_setPositions a ps m⟩
    · exact ⟨m, hm, .refl m⟩

theorem album_stays (h : Req.deletesAlbums r = false) {a : Album} (ha : a ∈ w.albums) :
    ∃ a' ∈ (backend.answer i r fault w).2.albums, a'.id = a.id := by
  by_cases hr : Req.changesAlbums r = false
  · exact ⟨a, by rw [answer_albums hr]; exact ha, rfl⟩
  rcases answer_cases i r fault w with he | ⟨e, -, he⟩
  swap
  · exact ⟨a, by rw [he]; exact ha, rfl⟩
  rw [he]
  cases r <;> first | exact absurd rfl hr | (simp only [Req.deletesAlbums, Bool.true_eq_false] at h; done) | skip
  case createAlbum b =>
    simp only [exec, World.createAlbum]
    split
    · exact ⟨a, ha, rfl⟩
    split
    · rename_i t ht
      exact ⟨a, (Table.mem_insert ht).mpr (.inl ha), rfl⟩
    · exact ⟨a, ha, rfl⟩
  case updateAlbum b =>
    simp only [exec, World.updateAlbum]
    split
    · exact ⟨a, ha, rfl⟩
    split
    · exact ⟨a, ha, rfl⟩
    · refine ⟨_, Table.update_mem (w.setAlbum_id b) ha, ?_⟩
      split <;> rfl

/-! ## Rows that go -/

theorem mem_dropAlbums_albums {p : Album → Bool} {a : Album} :
    a ∈ (w.dropAlbums p).albums ↔ a ∈ w.albums ∧ p a = false := Table.mem_deleteWhere

/-- The cascade takes the items of the albums that go, and no others. -/
theorem mem_dropAlbums_media {p : Album → Bool} {m : Media} :
    m ∈ (w.dropAlbums p).media ↔ m ∈ w.media ∧ ∀ a ∈ w.albums, p a = true → a.id ≠ m.albumId := by
  simp only [World.dropAlbums, Table.mem_deleteWhere, List.contains_eq_mem, List.mem_map, List.mem_filter,
    decide_eq_false_iff_not, not_exists, not_and, and_imp]
  exact Iff.rfl

/-! ## Album rows -/

/-- A row that was written holds the columns of the value it was written from. -/
theorem find?_updateAlbum {x a : Album} (h : (backend.answer i (.updateAlbum x) fault w).1 = .ok a) :
    ∃ row, w.albums.find? x.id = some row ∧ ∀ albumId, (backend.answer i (.updateAlbum x) fault w).2.albums.find? albumId =
      if albumId = x.id then some (w.setAlbum x row) else w.albums.find? albumId := by
  have hx := exec_of_ok h
  rw [answer_of_ok h]
  simp only [exec, World.updateAlbum] at hx ⊢
  rcases hrow : w.albums.find? x.id with _ | row
  · rw [hrow] at hx; cases hx
  rw [hrow] at hx
  refine ⟨row, rfl, fun albumId => ?_⟩
  dsimp only at hx ⊢
  split at hx
  · cases hx
  rename_i hok
  rw [if_neg hok, Table.find?_update]
  split
  · rename_i heq; rw [heq, hrow]; rfl
  · rfl

/-- A write that raised changed nothing. -/
theorem updateAlbum_error {x : Album} {e : PyExc} (h : (backend.answer i (.updateAlbum x) fault w).1 = .error e) :
    (backend.answer i (.updateAlbum x) fault w).2.albums = w.albums := by
  rcases answer_cases i (.updateAlbum x) fault w with ha | ⟨e, -, ha⟩
  swap
  · rw [ha]; rfl
  rw [ha] at h ⊢
  simp only [exec, World.updateAlbum] at h ⊢
  rcases hrow : w.albums.find? x.id with _ | row
  · rfl
  rw [hrow] at h
  dsimp only at h ⊢
  split at h
  · rename_i hbad
    rw [if_pos hbad]
  · cases h

/-- `LookupError` of a write that was not made to fail: there is no such row. -/
theorem updateAlbum_lookupError {x : Album} {msg : String} (h : (exec i (.updateAlbum x) w).1 = .error (.lookupError msg)) :
    w.albums.find? x.id = none := by
  simp only [exec, World.updateAlbum] at h
  split at h
  · assumption
  · split at h <;> cases h

theorem find?_deleteAlbumRow (albumId b : String) :
    (exec i (.deleteAlbumRow albumId) w).2.albums.find? b = if b = albumId then none else w.albums.find? b := by
  change (w.albums.delete albumId).find? b = _
  exact Table.find?_delete b

/-- Rows appear by `createAlbum` only. -/
theorem album_stays_away {albumId : String} (hr : ∀ a, r ≠ .createAlbum a) (h : w.albums.find? albumId = none) :
    (backend.answer i r fault w).2.albums.find? albumId = none := by
  by_cases hc : Req.changesAlbums r = false
  · rw [answer_albums hc]; exact h
  rcases answer_cases i r fault w with ha | ⟨e, -, ha⟩
  swap
  · rw [ha]; exact h
  cases r <;> first | exact absurd rfl hc | skip
  case createAlbum a => exact absurd rfl (hr a)
  case updateAlbum x =>
    rcases hx : (backend.answer i (.updateAlbum x) fault w).1 with e | a
    · rw [updateAlbum_error hx]; exact h
    · obtain ⟨row, hrow, hfind⟩ := find?_updateAlbum hx
      rw [hfind, if_neg, h]
      rintro rfl
      rw [h] at hrow
      cases hrow
  case deleteAlbumRow b =>
    rw [ha, find?_deleteAlbumRow, h]
    split <;> rfl
  case deleteUser u =>
    rw [ha]
    simp only [exec, World.deleteUser]
    split
    · exact h
    · change (w.albums.deleteWhere _).find? albumId = none
      rw [Table.find?_deleteWhere, h]
      rfl

/-! ## User rows -/

theorem find?_updateUser {x u : User} (h : (backend.answer i (.updateUser x) fault w).1 = .ok u) :
    ∃ row, w.users.find? x.id = some row ∧ ∀ userId, (backend.answer i (.updateUser x) fault w).2.users.find? userId =
      if userId = x.id then some (w.setUser x row) else w.users.find? userId := by
  have hx := exec_of_ok h
  rw [answer_of_ok h]
  simp only [exec, World.updateUser] at hx ⊢
  split at hx
  · cases hx
  rename_i hrange
  rw [if_neg hrange]
  rcases hrow : w.users.find? x.id with _ | row
  · rw [hrow] at hx
    dsimp only at hx
    split at hx <;> cases hx
  rw [hrow] at hx
  refine ⟨row, rfl, fun userId => ?_⟩
  dsimp only at hx ⊢
  split at hx
  · cases hx
  rename_i hname
  rw [if_neg hname, Table.find?_update]
  split
  · rename_i heq; rw [heq, hrow]; rfl
  · rfl

theorem updateUser_error {x : User} {e : PyExc} (h : (backend.answer i (.updateUser x) fault w).1 = .error e) :
    (backend.answer i (.updateUser x) fault w).2.users = w.users := by
  rcases answer_cases i (.updateUser x) fault w with ha | ⟨e, -, ha⟩
  swap
  · rw [ha]; rfl
  rw [ha] at h ⊢
  simp only [exec, World.updateUser] at h ⊢
  split
  · rfl
  rename_i hrange
  rw [if_neg hrange] at h
  rcases hrow : w.users.find? x.id with _ | row
  · dsimp only
    split <;> rfl
  rw [hrow] at h
  dsimp only at h ⊢
  split at h
  · rename_i hname
    rw [if_pos hname]
  · cases h

end Imghost.Model
