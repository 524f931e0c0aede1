/-
  Imghost.Concurrency.Appends — uploads to an album, and deletions from it.

  An upload locks the row of its album, reads the last position and inserts its row a
  thousand after it. Nothing else inserts rows, deletions only lower the last position,
  and an album that is gone takes no more rows: its id is not drawn a second time.

  What is proved, whatever runs beside and in whatever order, as long as nobody reorders:
    • whoever is about to insert holds the lock of the album, and its position is a
      thousand or more past those of all items there;
    • the items are listed in the order in which they were committed, less those that
      were deleted: the album is a list that is appended to.
-/

import Imghost.Concurrency.Reorder

namespace Imghost.Concurrency.Appends

open Imghost.Async Imghost.Data Imghost.Model Imghost.Service

variable {α : Type}

/-! ## What a task knows of its album -/

inductive Phase where
  /-- Not an upload. -/
  | other
  /-- The upload has seen no album yet. -/
  | unseen
  | seen (albumId : String)
  /-- It has asked for the lock. -/
  | locked (albumId : String)
  /-- It has taken the position for its item. -/
  | took (albumId : String) (position : Int)
  deriving DecidableEq

def Phase.next : Phase → Call → Phase
  | .unseen, ⟨.getAlbum _, .ok (some album), _⟩ => .seen album.id
  | .unseen, ⟨.createAlbum album, .ok _, _⟩ => .seen album.id
  | .seen albumId, ⟨.lockAlbum _, .ok _, _⟩ => .locked albumId
  | .locked albumId, ⟨.nextPosition _, .ok position, _⟩ => .took albumId position
  | .locked albumId, _ | .took albumId _, _ => .seen albumId
  | phase, _ => phase

/-- A call that neither makes rows nor moves them within the album `albumId`. -/
def Quiet (albumId : String) : Req → Prop
  | .createAlbum _ | .insertMedia _ => False
  | .updateMediaPositions id _ => id ≠ albumId
  | _ => True

/-- Albums are created by uploads that have none, under the id they drew; rows are
    inserted where a position was taken, and positions taken under the lock. -/
def CanCall (albumId : String) (drawn : Option String) : Phase → Req → Prop
  | .other, r => Quiet albumId r
  | .unseen, r => (Quiet albumId r ∧ ∀ id, r ≠ .lockAlbum id) ∨ ∃ album : Album, r = .createAlbum album ∧ drawn = some album.id
  | .seen id, r => (Quiet albumId r ∧ ∀ id, r ≠ .lockAlbum id) ∨ r = .lockAlbum id
  | .locked id, r => r = .nextPosition id
  | .took id position, r => ∃ m, r = .insertMedia m ∧ m.albumId = id ∧ m.position = position

def appending (albumId : String) (drawn : Option String) : Protocol Reply PyExc Phase where
  can := CanCall albumId drawn
  next := Phase.next

/-- The id an upload draws for an album of its own. -/
def drawnId : Op → Option String
  | .upload input draws =>
    match input.albumId.filter (· != "") with
    | some _ => none
    | none => some (generateId draws.albumId)
  | _ => none

/-- Anything but a reorder of the album. -/
def KeepsOrder (albumId : String) : Op → Prop
  | .reorderAlbum id _ _ _ _ => id ≠ albumId
  | _ => True

instance (albumId : String) (op : Op) : Decidable (KeepsOrder albumId op) := by
  unfold KeepsOrder
  split <;> infer_instance

def firstPhase : Op → Phase
  | .upload _ _ => .unseen
  | _ => .other

/-! ## Every operation follows the protocol -/

section

variable {albumId id : String} {drawn : Option String} {β : Type}

/-- A call that is nothing to the protocol. -/
def Aside : Req → Prop
  | .createAlbum _ | .insertMedia _ | .updateMediaPositions _ _ | .lockAlbum _ | .getAlbum _ => False
  | _ => True

theorem aside_of_plain (r : Req) (h : Req.plain r = true) : Aside r := by
  cases r <;> trivial

theorem quiet_of_aside {r : Req} (h : Aside r) : Quiet albumId r ∧ ∀ id, r ≠ .lockAlbum id := by
  cases r <;> first | exact h.elim | exact ⟨trivial, fun _ => Req.noConfusion⟩

/-- An upload between its calls to the album. -/
def Phase.Calm : Phase → Prop
  | .unseen | .seen _ => True
  | _ => False

theorem can_calm {phase : Phase} (hphase : phase.Calm) {r : Req} (h : Aside r) : (appending albumId drawn).can phase r := by
  cases phase with
  | unseen | seen => exact .inl (quiet_of_aside h)
  | other | locked | took => exact hphase.elim

theorem next_calm {phase : Phase} (hphase : phase.Calm) {e : Call} (h : Aside e.req) : phase.next e = phase := by
  obtain ⟨r, x, b⟩ := e
  cases phase with
  | unseen => cases r <;> first | rfl | exact h.elim
  | seen => cases r <;> first | rfl | exact h.elim
  | other | locked | took => exact hphase.elim

/-- Such calls, and what follows them. -/
theorem wp_aside {phase : Phase} {Q : Except PyExc β → Phase → Prop} {p : Prog α} {f : α → Prog β} (hphase : phase.Calm)
    (hp : p.Uses Aside) (hok : ∀ a, wp ((appending albumId drawn).machine Honest) Q (f a) phase)
    (herr : ∀ e, Q (.error e) phase) : wp ((appending albumId drawn).machine Honest) Q (p >>= f) phase :=
  Protocol.wp_pass (fun _ hr => can_calm hphase hr) (fun _ he => next_calm hphase he) hp hok herr

/-- A program that begins and ends with the album seen. -/
abbrev Stays (albumId : String) (drawn : Option String) (id : String) (p : Prog α) : Prop :=
  wp ((appending albumId drawn).machine Honest) (fun _ phase => phase = .seen id) p (.seen id)

theorem stays_of_uses {p : Prog α} (hp : p.Uses Aside) : Stays albumId drawn id p :=
  by
  have hcalm : (Phase.seen id).Calm := trivial
  exact Protocol.wp_stay (fun _ hr => can_calm hcalm hr) (fun _ he => next_calm hcalm he) hp fun _ => rfl

theorem stays_bind {p : Prog α} {f : α → Prog β} (hp : Stays albumId drawn id p) (hf : ∀ a, Stays albumId drawn id (f a)) :
    Stays albumId drawn id (p >>= f) :=
  wp_seq hp (fun a phase h => by subst h; exact hf a) fun _ _ h => h

theorem stays_tryExcept {p : Prog α} {h : PyExc → Prog α} (hp : Stays albumId drawn id p)
    (hh : ∀ e, Stays albumId drawn id (h e)) : Stays albumId drawn id (p.tryExcept h) := by
  rw [Stays, wp_tryExcept]
  apply wp_mono _ hp
  intro x phase hphase
  subst hphase
  cases x with
  | ok a => rfl
  | error e => exact hh e

/-- Lock, position, insert: one transaction. -/
theorem createMediaWithNextPosition_stays (m : Media) :
    Stays albumId drawn m.albumId (Repository.createMediaWithNextPosition m) := by
  refine Protocol.wp_await (.inr rfl) (fun locked b _ => ?_) fun _ _ _ => rfl
  refine Protocol.wp_await rfl (fun position b _ => ?_) fun _ _ _ => rfl
  refine (wp_perform _).mpr ⟨⟨_, rfl, rfl, rfl⟩, fun x phase hx => ?_⟩
  obtain ⟨b, -, hphase⟩ := hx
  exact hphase

theorem insertOrRollBack_stays (m : Media) : Stays albumId drawn m.albumId (insertOrRollBack m) := by
  apply stays_tryExcept (createMediaWithNextPosition_stays m)
  intro e
  apply stays_of_uses
  exact Program.uses_bind (deleteStorageKeyBestEffort_uses (fun _ => trivial) _) fun _ => trivial

theorem createMedia_stays (rt : Runtime) (file : UploadFile) (payload : Bytes) (correlationId : String)
    (actor : CurrentActor) (draws : Draws) :
    Stays albumId drawn id (createMedia rt id file payload correlationId actor draws) := by
  have hask : ∀ {r : Req}, Aside r → Stays albumId drawn id (ask r) := fun h => stays_of_uses (Program.uses_perform h)
  refine stays_bind (stays_of_uses (Program.uses_ofExcept _)) fun prepared => ?_
  refine stays_bind (hask trivial) fun _ => ?_
  refine stays_bind (hask trivial) fun now => ?_
  refine stays_bind (insertOrRollBack_stays _) fun m => ?_
  refine stays_bind (hask trivial) fun _ => ?_
  exact stays_bind (hask trivial) fun _ => rfl

theorem cleanUpAlbum_stays (created : Bool) (album : Album) : Stays albumId drawn id (cleanUpAlbum created album) := by
  apply stays_of_uses
  unfold cleanUpAlbum
  split
  · refine Program.uses_bind (Program.uses_perform trivial) fun items => ?_
    split
    · refine Program.uses_bind (Program.uses_bind (Program.uses_perform trivial) fun rows => ?_) fun _ => trivial
      refine Program.uses_bind (Program.uses_perform trivial) fun row => ?_
      cases row <;> trivial
    · trivial
  · trivial

/-- The rest of an upload, once it has its album. -/
theorem upload_rest_stays (rt : Runtime) (input : UploadInput) (payload : Bytes) (draws : Draws) (album : Album) :
    Stays albumId drawn album.id (do
      let media ← (uploadInto rt input payload draws album).tryExcept fun e => do
        cleanUpAlbum input.albumId.isNone album
        Program.raise e
      let album := titled album input.title
      updateAlbumOr404 album
      return ({ album := album, media := media } : UploadResult)) := by
  refine stays_bind (stays_tryExcept ?_ fun e => ?_) fun media => ?_
  · refine stays_bind (stays_of_uses (Program.uses_perform trivial)) fun items => ?_
    exact stays_bind (stays_of_uses (Program.uses_raiseIf _ _)) fun _ => createMedia_stays rt _ _ _ _ _
  · exact stays_bind (cleanUpAlbum_stays _ _) fun _ => rfl
  · exact stays_bind (stays_of_uses (updateAlbumOr404_uses trivial)) fun _ => rfl

theorem createAlbumForUpload_finds (title : Option String) (correlationId : String) (actor : CurrentActor)
    (deleteToken : Option String) (draws : Draws) :
    wp ((appending albumId (some (generateId draws.albumId))).machine Honest)
      (fun x phase => ∀ album, x = .ok album → phase = .seen album.id)
      (createAlbumForUpload title correlationId actor deleteToken draws) .unseen := by
  have hunseen : Phase.unseen.Calm := trivial
  refine wp_aside hunseen (Program.uses_perform trivial) (fun now => ?_) fun e album h => nomatch h
  refine wp_aside hunseen (newAlbumExpiry_uses aside_of_plain _ _) (fun expiresAt => ?_) fun e album h => nomatch h
  refine Protocol.wp_await (.inr ⟨_, rfl, rfl⟩) (fun album b _ => ?_) fun e b _ album h => nomatch h
  have hseen : (Phase.seen (newAlbum title actor.user draws now expiresAt).id).Calm := trivial
  refine wp_aside hseen (Program.uses_perform trivial) (fun _ album' h => ?_) fun e album h => nomatch h
  obtain rfl := Except.ok.inj h
  rfl

theorem getAlbumForUpload_finds (id : String) (actor : CurrentActor) (deleteToken : Option String) :
    wp ((appending albumId drawn).machine Honest) (fun x phase => ∀ album, x = .ok album → phase = .seen album.id)
      (getAlbumForUpload id actor deleteToken) .unseen := by
  refine Protocol.wp_await (.inl ⟨trivial, fun _ => Req.noConfusion⟩) (fun found b _ => ?_) fun e b _ album h => nomatch h
  cases found with
  | none => exact fun album h => nomatch h
  | some album =>
    have hseen : (Phase.seen album.id).Calm := trivial
    refine wp_aside hseen (Program.uses_perform trivial) (fun now => ?_) fun e album h => nomatch h
    refine wp_aside hseen (Program.uses_raiseIf _ _) (fun _ => ?_) fun e album h => nomatch h
    refine wp_aside hseen (requireUploadAccess_uses aside_of_plain _ _ _) (fun _ album' h => ?_) fun e album h => nomatch h
    obtain rfl := Except.ok.inj h
    rfl

theorem getOrCreateAlbum_finds (input : UploadInput) (draws : Draws) :
    wp ((appending albumId (drawnId (.upload input draws))).machine Honest)
      (fun x phase => ∀ album, x = .ok album → phase = .seen album.id)
      (getOrCreateAlbum input.albumId input.title input.correlationId input.actor input.deleteToken draws) .unseen := by
  unfold getOrCreateAlbum
  rcases hid : input.albumId.filter (· != "") with _ | id
  · have hdrawn : drawnId (.upload input draws) = some (generateId draws.albumId) := by simp only [drawnId, hid]
    rw [hdrawn]
    exact createAlbumForUpload_finds _ _ _ _ _
  · exact getAlbumForUpload_finds _ _ _

theorem upload_follows (rt : Runtime) (input : UploadInput) (draws : Draws) :
    wp ((appending albumId (drawnId (.upload input draws))).machine Honest) (fun _ _ => True) (upload rt input draws) .unseen := by
  have hunseen : Phase.unseen.Calm := trivial
  refine wp_aside hunseen (readBoundedUpload_uses aside_of_plain _) (fun payload => ?_) fun _ => trivial
  refine wp_check (fun _ => trivial) fun _ => ?_
  refine wp_aside hunseen (enforceRateLimit_uses aside_of_plain _ _ _) (fun _ => ?_) fun _ => trivial
  refine wp_aside hunseen (enforceStorageQuotas_uses aside_of_plain _ _) (fun _ => ?_) fun _ => trivial
  refine wp_seq (getOrCreateAlbum_finds input draws) (fun album phase hphase => ?_) fun _ _ _ => trivial
  obtain rfl := hphase album rfl
  exact wp_mono (fun _ _ _ => trivial) (upload_rest_stays rt input payload draws album)

theorem program_follows (rt : Runtime) {op : Op} (hop : KeepsOrder albumId op) :
    wp ((appending albumId (drawnId op)).machine Honest) (fun _ _ => True) (op.program rt) (firstPhase op) := by
  by_cases h : ∃ input draws, op = .upload input draws
  · obtain ⟨input, draws, rfl⟩ := h
    exact wp_seq (upload_follows rt input draws) (fun _ _ _ => trivial) fun _ _ _ => trivial
  · have hfirst : firstPhase op = .other := by
      cases op <;> first | rfl | exact absurd ⟨_, _, rfl⟩ h
    rw [hfirst]
    -- the footprint of every other operation is quiet
    refine Protocol.wp_stay (fun r hr => ?_) (fun e _ => rfl) (program_footprint rt op) fun _ => trivial
    rcases hr with hr | hr
    · cases r <;> trivial
    · cases op <;> cases r <;> first | trivial | exact absurd ⟨_, _, rfl⟩ h | exact hr.elim | exact hr.symm ▸ hop

end

/-! ## The album as a list -/

/-- The items of the album in the order they were committed, after one more call. -/
def afterCall (albumId : String) (ids : List String) : Call → List String
  | ⟨.insertMedia _, .ok m, _⟩ => if m.albumId = albumId then ids ++ [m.id] else ids
  | ⟨.deleteMedia id, .ok _, _⟩ => ids.filter (· != id)
  | ⟨.deleteAlbumRow id, .ok (some _), _⟩ => if id = albumId then [] else ids
  | ⟨.deleteUser _, .ok (_, albums, _), _⟩ => if albums.any (·.id == albumId) then [] else ids
  | _ => ids

/-- Some items go, and the others stay where they are. -/
def Thinned (albumId : String) (keep : String → Bool) (w w' : World) : Prop :=
  ∃ f : Media → Media, (∀ m, (f m).id = m.id ∧ (f m).position = m.position) ∧
    w'.mediaOf albumId = ((w.mediaOf albumId).filter (keep ·.id)).map f

section

variable {albumId : String} {w w' : World} {i : Nat} {r : Req} {fault : Option PyExc}

theorem thinned_of_eq (h : w'.mediaOf albumId = w.mediaOf albumId) : Thinned albumId (fun _ => true) w w' :=
  ⟨id, fun _ => ⟨rfl, rfl⟩, by simpa using h⟩

theorem thinned_modify {f : Media → Media} (hf : ∀ m, (f m).id = m.id) (h : w'.media = w.media.modify f hf)
    (hposition : ∀ m, (f m).position = m.position) (halbum : ∀ m, (f m).albumId = m.albumId) :
    Thinned albumId (fun _ => true) w w' := by
  refine ⟨f, fun m => ⟨hf m, hposition m⟩, ?_⟩
  simp only [World.mediaOf, h, Table.modify, List.filter_map, Function.comp_def, halbum, List.filter_true]

theorem thinned_deleteWhere {p : Media → Bool} {keep : String → Bool} (h : w'.media = w.media.deleteWhere p)
    (hkeep : ∀ m ∈ w.mediaOf albumId, (!p m) = keep m.id) : Thinned albumId keep w w' := by
  refine ⟨id, fun _ => ⟨rfl, rfl⟩, ?_⟩
  have hswap : w'.mediaOf albumId = (w.mediaOf albumId).filter (!p ·) := by
    simp only [World.mediaOf, h, Table.deleteWhere_rows, List.filter_filter, Bool.and_comm]
  rw [hswap, List.map_id]
  exact List.filter_congr hkeep

theorem Thinned.trans {keep : String → Bool} {w'' : World} (h : Thinned albumId keep w w')
    (h' : Thinned albumId (fun _ => true) w' w'') : Thinned albumId keep w w'' := by
  obtain ⟨f, hf, hrows⟩ := h
  obtain ⟨g, hg, hrows'⟩ := h'
  refine ⟨g ∘ f, fun m => ⟨((hg _).1.trans (hf m).1), ((hg _).2.trans (hf m).2)⟩, ?_⟩
  rw [hrows', hrows, List.filter_true, List.map_map]

/-- The albums that go take their items with them. -/
theorem thinned_dropAlbums {p : Album → Bool} {gone : Bool} (h : w'.media = (w.dropAlbums p).media)
    (hgone : (w.albums.rows.any fun a => p a && a.id == albumId) = gone) : Thinned albumId (fun _ => !gone) w w' := by
  refine thinned_deleteWhere h fun m hm => ?_
  obtain rfl : m.albumId = albumId := (mem_mediaOf.mp hm).2
  have hiff : ((w.albums.rows.filter p).map (·.id)).contains m.albumId = gone := by
    rw [← hgone, Bool.eq_iff_iff]
    simp [and_assoc]
  rw [hiff]

/-- No call but an insertion adds an item, and no call but a reorder moves one. -/
theorem call_thins (hinsert : ∀ m, r ≠ .insertMedia m) (hreorder : ∀ positions, r ≠ .updateMediaPositions albumId positions) :
    ∃ keep, Thinned albumId keep w (backend.answer i r fault w).2 ∧
      ∀ ids, afterCall albumId ids ⟨r, (backend.answer i r fault w).1, fault.isSome⟩ = ids.filter keep := by
  have hall : ∀ ids : List String, ids = ids.filter fun _ => true := fun ids => (List.filter_true ids).symm
  rcases answer_cases i r fault w with ha | ⟨e, -, ha⟩
  swap
  · rw [ha]
    refine ⟨fun _ => true, thinned_of_eq rfl, fun ids => ?_⟩
    rw [← hall]
    cases r <;> rfl
  by_cases hr : Req.changesMedia r = false
  · refine ⟨fun _ => true, thinned_of_eq (Reorder.mediaOf_answer hr albumId), fun ids => ?_⟩
    rw [← hall]
    cases r <;> first | rfl | cases hr
  rw [ha]
  cases r <;> first | exact absurd rfl hr | skip
  case insertMedia m => exact absurd rfl (hinsert m)
  case deleteMedia id =>
    refine ⟨fun id' => id' != id, thinned_deleteWhere rfl fun m _ => rfl, fun ids => rfl⟩
  case updateMediaThumbnailState id thumbKey thumbIsOrig thumbStatus thumbSize =>
    refine ⟨fun _ => true, ?_, fun ids => ?_⟩
    · simp only [exec, World.updateMediaThumbnailState]
      split
      · exact thinned_of_eq rfl
      · refine thinned_modify (fun m => ?_) rfl (fun m => ?_) fun m => ?_
        · split <;> rfl
        · split <;> rfl
        · split <;> rfl
    · rw [← hall]
      rfl
  case updateMediaPositions id positions =>
    refine ⟨fun _ => true, ?_, fun ids => ?_⟩
    · simp only [exec, World.updateMediaPositions]
      split
      · have hid : id ≠ albumId := fun h => hreorder positions (h ▸ rfl)
        refine thinned_of_eq ?_
        have hother : ∀ m ∈ w.mediaOf albumId, World.setPositions id positions m = m := by
          intro m hm
          apply setPositions_other
          rw [(mem_mediaOf.mp hm).2]
          exact hid.symm
        have hrows : ((w.media.modify (World.setPositions id positions) (World.setPositions_id id positions)).rows.filter
            (·.albumId == albumId)) = (w.mediaOf albumId).map (World.setPositions id positions) := by
          simp only [World.mediaOf, Table.modify, List.filter_map, Function.comp_def, (sameItem_setPositions id positions _).albumId]
        exact hrows.trans ((List.map_congr_left hother).trans (List.map_id _))
      · exact thinned_of_eq rfl
    · rw [← hall]
      rfl
  case deleteAlbumRow id =>
    rcases hfind : w.albums.find? id with _ | a
    · refine ⟨fun _ => !false, thinned_dropAlbums rfl ?_, fun ids => ?_⟩
      · have hnone := Table.find?_eq_none.mp hfind
        rw [List.any_eq_false]
        intro a ha
        have := hnone a ha
        simp [this]
      · simp only [exec, World.deleteAlbumRow, hfind]
        exact hall ids
    · refine ⟨fun _ => !decide (id = albumId), thinned_dropAlbums rfl ?_, fun ids => ?_⟩
      · obtain ⟨hmem, rfl⟩ := Table.find?_eq_some.mp hfind
        rw [Bool.eq_iff_iff]
        simp only [List.any_eq_true, Bool.and_eq_true, beq_iff_eq, decide_eq_true_eq]
        constructor
        · intro h
          obtain ⟨b, -, hb, hid⟩ := h
          exact hb.symm.trans hid
        · intro h
          exact ⟨a, hmem, rfl, h⟩
      · simp only [exec, World.deleteAlbumRow, hfind, afterCall]
        by_cases hid : id = albumId
        · simp [hid]
        · simp [hid]
  case deleteUser userId =>
    rcases hfind : w.users.find? userId with _ | u
    · refine ⟨fun _ => true, ?_, fun ids => ?_⟩
      · simp only [exec, World.deleteUser, hfind]
        exact thinned_of_eq rfl
      · simp only [exec, World.deleteUser, hfind, afterCall, List.any_nil, Bool.false_eq_true, if_false]
        exact hall ids
    · have hgone : (w.albums.rows.any fun a => a.userId == some userId && a.id == albumId) =
          (w.listUserAlbums userId).any (·.id == albumId) := by
        rw [World.listUserAlbums, Bool.eq_iff_iff]
        simp [List.mem_insertionSort, and_assoc]
      refine ⟨fun _ => !(w.listUserAlbums userId).any (·.id == albumId), ?_, fun ids => ?_⟩
      · simp only [exec, World.deleteUser, hfind]
        have hdropped : Thinned albumId (fun _ => !(w.listUserAlbums userId).any (·.id == albumId)) w
            (w.dropAlbums (·.userId == some userId)) := thinned_dropAlbums rfl hgone
        refine hdropped.trans (thinned_modify (World.dropUserId_id userId) rfl (fun m => ?_) fun m => ?_)
        · unfold World.dropUserId
          split <;> rfl
        · unfold World.dropUserId
          split <;> rfl
      · simp only [exec, World.deleteUser, hfind, afterCall]
        cases (w.listUserAlbums userId).any (·.id == albumId)
        · simp
        · simp

theorem insert_cases {m : Media} (albumId : String) :
    ((∃ e, (backend.answer i (.insertMedia m) fault w).1 = .error e) ∧
        (backend.answer i (.insertMedia m) fault w).2.mediaOf albumId = w.mediaOf albumId) ∨
      ((backend.answer i (.insertMedia m) fault w).1 = .ok m ∧ w.albums.find? m.albumId ≠ none ∧
        (backend.answer i (.insertMedia m) fault w).2.mediaOf albumId =
          w.mediaOf albumId ++ [m].filter (·.albumId == albumId)) := by
  rcases answer_cases i (.insertMedia m) fault w with ha | ⟨e, -, ha⟩
  swap
  · rw [ha]
    exact .inl ⟨⟨e, rfl⟩, rfl⟩
  rw [ha]
  simp only [exec, World.insertMedia]
  split
  · exact .inl ⟨⟨_, rfl⟩, rfl⟩
  · rename_i hthere
    split
    · rename_i t ht
      refine .inr ⟨rfl, ?_, ?_⟩
      · intro hnone
        simp [hnone] at hthere
      · simp only [World.mediaOf, Table.insert_rows ht, List.filter_append]
    · exact .inl ⟨⟨_, rfl⟩, rfl⟩

/-- The items in the order of their positions, no two of them at one, are `ids`. -/
structure Listed (albumId : String) (w : World) (ids : List String) : Prop where
  sorted : (w.listAlbumMedia albumId).Pairwise fun a b => a.position < b.position
  inOrder : (w.listAlbumMedia albumId).map (·.id) = ids

/-- There is one way to put items in order that are all at different positions. -/
theorem listAlbumMedia_eq {items : List Media} (hperm : items.Perm (w.mediaOf albumId))
    (hsorted : items.Pairwise fun a b => a.position < b.position) : w.listAlbumMedia albumId = items := by
  have hweak : items.Pairwise fun a b => a.position ≤ b.position := hsorted.imp fun h => h.le
  have hnodup : (items.map (·.position)).Nodup := by
    rw [List.nodup_iff_pairwise_ne, List.pairwise_map]
    exact hsorted.imp fun h => h.ne
  refine List.Perm.eq_of_pairwise (fun a b ha hb hab hba => ?_) (listAlbumMedia_sorted w albumId) hweak
    ((listAlbumMedia_perm w albumId).trans hperm.symm)
  have hmem : a ∈ items := hperm.mem_iff.mpr (mem_listAlbumMedia.mp ha)
  exact List.inj_on_of_nodup_map hnodup hmem hb (le_antisymm hab hba)

variable {ids : List String}

theorem Listed.thin {keep : String → Bool} (h : Listed albumId w ids) (hthin : Thinned albumId keep w w') :
    Listed albumId w' (ids.filter keep) := by
  obtain ⟨f, hf, hrows⟩ := hthin
  have hsorted : (((w.listAlbumMedia albumId).filter (keep ·.id)).map f).Pairwise fun a b => a.position < b.position := by
    rw [List.pairwise_map]
    apply (h.sorted.sublist List.filter_sublist).imp
    intro a b hab
    rw [(hf a).2, (hf b).2]
    exact hab
  have hlist : w'.listAlbumMedia albumId = ((w.listAlbumMedia albumId).filter (keep ·.id)).map f := by
    apply listAlbumMedia_eq _ hsorted
    rw [hrows]
    exact ((listAlbumMedia_perm w albumId).filter _).map f
  constructor
  · rw [hlist]
    exact hsorted
  · have hids : (Media.id ∘ f) = Media.id := funext fun m => (hf m).1
    rw [hlist, List.map_map, hids, ← h.inOrder, List.filter_map]
    rfl

theorem Listed.append {m : Media} (h : Listed albumId w ids) (hrows : w'.mediaOf albumId = w.mediaOf albumId ++ [m])
    (hlast : ∀ u ∈ w.mediaOf albumId, u.position < m.position) : Listed albumId w' (ids ++ [m.id]) := by
  have hsorted : (w.listAlbumMedia albumId ++ [m]).Pairwise fun a b => a.position < b.position := by
    rw [List.pairwise_append]
    refine ⟨h.sorted, List.pairwise_singleton _ _, fun u hu b hb => ?_⟩
    rw [List.mem_singleton.mp hb]
    exact hlast u (mem_listAlbumMedia.mp hu)
  have hlist : w'.listAlbumMedia albumId = w.listAlbumMedia albumId ++ [m] := by
    apply listAlbumMedia_eq _ hsorted
    rw [hrows]
    exact (listAlbumMedia_perm w albumId).append_right [m]
  constructor
  · rw [hlist]
    exact hsorted
  · rw [hlist, List.map_append, h.inOrder]
    rfl

end

/-! ## One step -/

/-- The task has seen the album, and may go on to lock it. -/
def Phase.Knows (albumId : String) : Phase → Prop
  | .seen id | .locked id | .took id _ => id = albumId
  | _ => False

/-- The task is between its lock and its insertion. -/
def Phase.Holds (albumId : String) : Phase → Prop
  | .locked id | .took id _ => id = albumId
  | _ => False

theorem Phase.Holds.knows {albumId : String} {phase : Phase} (h : phase.Holds albumId) : phase.Knows albumId := by
  cases phase with
  | other | unseen | seen => exact h.elim
  | locked | took => exact h

section

variable {albumId id : String} {phase : Phase} {e : Call}

theorem next_ne_unseen (h : phase ≠ .unseen) : phase.next e ≠ .unseen := by
  cases phase with
  | unseen => exact absurd rfl h
  | other => exact Phase.noConfusion
  | took => exact Phase.noConfusion
  | seen | locked =>
    unfold Phase.next
    split <;> exact Phase.noConfusion

theorem next_knows (h : (phase.next e).Knows albumId) :
    phase.Knows albumId ∨ (phase = .unseen ∧
      ((∃ c a b, e = ⟨.getAlbum c, .ok (some a), b⟩ ∧ a.id = albumId) ∨
        ∃ a x b, e = ⟨.createAlbum a, .ok x, b⟩ ∧ a.id = albumId)) := by
  unfold Phase.next at h
  split at h
  · exact .inr ⟨rfl, .inl ⟨_, _, _, rfl, h⟩⟩
  · exact .inr ⟨rfl, .inr ⟨_, _, _, rfl, h⟩⟩
  · exact .inl h
  · exact .inl h
  · exact .inl h
  · exact .inl h
  · exact .inl h

theorem next_holds (h : (phase.next e).Holds albumId) :
    (phase = .seen albumId ∧ ∃ c x b, e = ⟨.lockAlbum c, .ok x, b⟩) ∨
      (phase = .locked albumId ∧ ∃ c position b, e = ⟨.nextPosition c, .ok position, b⟩) := by
  unfold Phase.next at h
  split at h
  · exact h.elim
  · exact h.elim
  · obtain rfl : _ = albumId := h
    exact .inl ⟨rfl, _, _, _, rfl⟩
  · obtain rfl : _ = albumId := h
    exact .inr ⟨rfl, _, _, _, rfl⟩
  · exact h.elim
  · exact h.elim
  · rename_i hlocked htook _ _ _ _
    cases phase with
    | other | unseen | seen => exact h.elim
    | locked => exact (hlocked _ rfl).elim
    | took => exact (htook _ _ rfl).elim

theorem next_eq_took {position : Int} (h : phase.next e = .took id position) :
    phase = .locked id ∧ ∃ c b, e = ⟨.nextPosition c, .ok position, b⟩ := by
  unfold Phase.next at h
  split at h
  · cases h
  · cases h
  · cases h
  · cases h
    exact ⟨rfl, _, _, rfl⟩
  · cases h
  · cases h
  · rename_i htook _ _ _ _
    exact (htook _ _ h).elim

end

/-- The id of the album has not been drawn yet, or will not be drawn again; while the album
    is there, whoever is about to insert holds its lock, and the position it took is past
    those of all items. -/
structure Sound (albumId : String) (drawn : Nat → Option String) (phases : Nat → Phase) (w : World) : Prop where
  once : (∀ i, drawn i = some albumId → phases i ≠ .unseen) ∨
    (w.albums.find? albumId = none ∧ ∀ i, ¬(phases i).Knows albumId)
  held : w.albums.find? albumId ≠ none → ∀ i, (phases i).Holds albumId → w.albumLocks albumId = some i
  above : w.albums.find? albumId ≠ none → ∀ i position, phases i = .took albumId position →
    ∀ m ∈ w.mediaOf albumId, m.position + 1000 ≤ position

section

variable {albumId : String} {drawn : Nat → Option String} {phases : Nat → Phase} {w : World} {i : Nat} {r : Req}
  {fault : Option PyExc}

/-- An album is created by an upload that drew its id and has seen none. -/
theorem can_create {a : Album} {phase : Phase} {name : Option String} (h : CanCall albumId name phase (.createAlbum a)) :
    phase = .unseen ∧ name = some a.id := by
  cases phase with
  | other => exact h.elim
  | unseen =>
    rcases h with h | ⟨b, hb, hname⟩
    · exact h.1.elim
    · obtain rfl := Req.createAlbum.inj hb
      exact ⟨rfl, hname⟩
  | seen =>
    rcases h with h | h
    · exact h.1.elim
    · cases h
  | locked => cases h
  | took =>
    obtain ⟨m, hm, -⟩ := h
    cases hm

/-- An album that was not there is there now: it has been created. -/
theorem created_of_present (habsent : w.albums.find? albumId = none)
    (h : (backend.answer i r fault w).2.albums.find? albumId ≠ none) :
    ∃ a x b, (⟨r, (backend.answer i r fault w).1, fault.isSome⟩ : Call) = ⟨.createAlbum a, .ok x, b⟩ ∧ a.id = albumId := by
  by_cases hr : ∃ a, r = .createAlbum a
  · obtain ⟨a, rfl⟩ := hr
    rcases answer_cases i (.createAlbum a) fault w with ha | ⟨e, -, ha⟩
    swap
    · rw [ha] at h
      exact absurd habsent h
    rw [ha] at h ⊢
    simp only [exec, World.createAlbum] at h ⊢
    split at h
    · exact absurd habsent h
    rename_i huser
    rw [if_neg huser]
    split at h
    · rename_i t ht
      refine ⟨a, a, fault.isSome, rfl, ?_⟩
      by_contra hid
      apply h
      change t.find? albumId = none
      rw [Table.find?_insert ht, if_neg hid]
      exact habsent
    · exact absurd habsent h
  · exact absurd (album_stays_away (fun a ha => hr ⟨a, ha⟩) habsent) h

/-- An album that is created is there. -/
theorem present_of_created {a x : Album} {b : Bool}
    (h : (⟨r, (backend.answer i r fault w).1, fault.isSome⟩ : Call) = ⟨.createAlbum a, .ok x, b⟩) :
    (backend.answer i r fault w).2.albums.find? a.id ≠ none := by
  injection h with hreq hreply
  subst hreq
  have hok := eq_of_heq hreply
  have hexec := exec_of_ok hok
  rw [answer_of_ok hok]
  simp only [exec, World.createAlbum] at hexec ⊢
  split at hexec
  · cases hexec
  rename_i huser
  rw [if_neg huser]
  split at hexec
  · rename_i t ht
    have hfind : t.find? a.id = some a := by rw [Table.find?_insert ht, if_pos rfl]
    change t.find? a.id ≠ none
    rw [hfind]
    exact Option.some_ne_none a
  · cases hexec

/-- What task `i` is after the call. -/
abbrev phasesAfter (phases : Nat → Phase) (i : Nat) (r : Req) (fault : Option PyExc) (w : World) : Nat → Phase :=
  Function.update phases i ((phases i).next ⟨r, (backend.answer i r fault w).1, fault.isSome⟩)

theorem once_step (hone : ∀ i j, drawn i = some albumId → drawn j = some albumId → i = j)
    (h : Sound albumId drawn phases w) (hcan : CanCall albumId (drawn i) (phases i) r) :
    (∀ j, drawn j = some albumId → phasesAfter phases i r fault w j ≠ .unseen) ∨
      ((backend.answer i r fault w).2.albums.find? albumId = none ∧
        ∀ j, ¬(phasesAfter phases i r fault w j).Knows albumId) := by
  rcases h.once with hseen | ⟨habsent, hnobody⟩
  · refine .inl fun j hj => ?_
    by_cases hji : j = i
    · subst hji
      rw [phasesAfter, Function.update_self]
      exact next_ne_unseen (hseen j hj)
    · rw [phasesAfter, Function.update_of_ne hji]
      exact hseen j hj
  by_cases hpresent : (backend.answer i r fault w).2.albums.find? albumId = none
  · refine .inr ⟨hpresent, fun j hj => ?_⟩
    by_cases hji : j = i
    · subst hji
      rw [phasesAfter, Function.update_self] at hj
      rcases next_knows hj with hknew | ⟨-, ⟨c, a, b, he, hid⟩ | ⟨a, x, b, he, hid⟩⟩
      · exact hnobody j hknew
      · injection he with hreq hreply
        subst hreq
        have hfound : w.albums.find? c = some a := Except.ok.inj (exec_of_ok (eq_of_heq hreply))
        obtain ⟨hmem, -⟩ := Table.find?_eq_some.mp hfound
        exact Table.find?_eq_none.mp habsent a hmem hid
      · exact present_of_created he (hid.symm ▸ hpresent)
    · rw [phasesAfter, Function.update_of_ne hji] at hj
      exact hnobody j hj
  · -- the album has been created now, by the one task that drew its id
    obtain ⟨a, x, b, he, hid⟩ := created_of_present habsent hpresent
    have hreq : r = .createAlbum a := congrArg Event.req he
    obtain ⟨hunseen, hdrew⟩ := can_create (hreq ▸ hcan)
    refine .inl fun j hj => ?_
    obtain rfl := hone j i hj (hdrew.trans (congrArg some hid))
    rw [phasesAfter, Function.update_self, he, hunseen]
    exact Phase.noConfusion

/-- Whoever holds the lock of an album that is there, the album was there before. -/
theorem present_before (h : Sound albumId drawn phases w) (hcan : CanCall albumId (drawn i) (phases i) r)
    (hpresent : (backend.answer i r fault w).2.albums.find? albumId ≠ none) {j : Nat}
    (hj : (phasesAfter phases i r fault w j).Holds albumId) : w.albums.find? albumId ≠ none := by
  intro habsent
  obtain ⟨a, x, b, he, hid⟩ := created_of_present habsent hpresent
  have hreq : r = .createAlbum a := congrArg Event.req he
  obtain ⟨hunseen, hdrew⟩ := can_create (hreq ▸ hcan)
  by_cases hji : j = i
  · subst hji
    rw [phasesAfter, Function.update_self, he, hunseen] at hj
    exact hj
  · rw [phasesAfter, Function.update_of_ne hji] at hj
    rcases h.once with hseen | ⟨-, hnobody⟩
    · exact hseen i (hdrew.trans (congrArg some hid)) hunseen
    · exact hnobody j hj.knows

theorem held_step (h : Sound albumId drawn phases w) (hcan : CanCall albumId (drawn i) (phases i) r)
    (hfree : backend.blocked i r w = false) (hpresent : (backend.answer i r fault w).2.albums.find? albumId ≠ none) (j : Nat)
    (hj : (phasesAfter phases i r fault w j).Holds albumId) : (backend.answer i r fault w).2.albumLocks albumId = some j := by
  have hbefore := present_before h hcan hpresent hj
  by_cases hji : j = i
  · subst hji
    rw [phasesAfter, Function.update_self] at hj
    rcases next_holds hj with ⟨hphase, c, x, b, he⟩ | ⟨hphase, c, position, b, he⟩
    · -- it has just locked the album
      injection he with hreq hreply
      subst hreq
      obtain rfl : c = albumId := by
        rw [hphase] at hcan
        rcases hcan with hcan | hcan
        · exact absurd rfl (hcan.2 c)
        · exact Req.lockAlbum.inj hcan
      obtain ⟨a, hfind⟩ := Option.ne_none_iff_exists'.mp hbefore
      rw [answer_of_ok (eq_of_heq hreply)]
      simp only [exec, World.lockAlbum, hfind, if_true]
    · -- it held the lock already
      have hheld := h.held hbefore j (by rw [hphase]; rfl)
      injection he with hreq hreply
      subst hreq
      have hexec := exec_of_ok (eq_of_heq hreply)
      rw [answer_of_ok (eq_of_heq hreply)]
      simp only [exec] at hexec ⊢
      split
      · exact hheld
      · rename_i e herr
        rw [herr] at hexec
        cases hexec
  · rw [phasesAfter, Function.update_of_ne hji] at hj
    have hheld := h.held hbefore j hj
    refine Reorder.lock_stays hji hheld fun hr => ?_
    subst hr
    have hblocked : backend.blocked i (.lockAlbum albumId) w = true := by
      simp only [backend, blocked, hheld, Option.any_some, bne_iff_ne]
      exact hji
    rw [hblocked] at hfree
    cases hfree

/-- What a task may do to the items: insert one at the position it took, or take some out. -/
theorem can_cases {phase : Phase} {name : Option String} (h : CanCall albumId name phase r) :
    (∃ m, r = .insertMedia m ∧ phase = .took m.albumId m.position) ∨
      ((∀ m, r ≠ .insertMedia m) ∧ ∀ positions, r ≠ .updateMediaPositions albumId positions) := by
  have hquiet : Quiet albumId r → (∀ m, r ≠ .insertMedia m) ∧ ∀ positions, r ≠ .updateMediaPositions albumId positions := by
    intro hr
    constructor
    · intro m hm
      subst hm
      exact hr
    · intro positions hpositions
      subst hpositions
      exact hr rfl
  cases phase with
  | other => exact .inr (hquiet h)
  | unseen =>
    rcases h with h | ⟨a, rfl, -⟩
    · exact .inr (hquiet h.1)
    · exact .inr ⟨fun _ => Req.noConfusion, fun _ => Req.noConfusion⟩
  | seen id =>
    rcases h with h | rfl
    · exact .inr (hquiet h.1)
    · exact .inr ⟨fun _ => Req.noConfusion, fun _ => Req.noConfusion⟩
  | locked id =>
    obtain rfl : r = .nextPosition id := h
    exact .inr ⟨fun _ => Req.noConfusion, fun _ => Req.noConfusion⟩
  | took id position =>
    obtain ⟨m, rfl, rfl, rfl⟩ := h
    exact .inl ⟨m, rfl, rfl⟩

theorem above_step (h : Sound albumId drawn phases w) (hcan : CanCall albumId (drawn i) (phases i) r)
    (hpresent : (backend.answer i r fault w).2.albums.find? albumId ≠ none) (j : Nat) (position : Int)
    (hj : phasesAfter phases i r fault w j = .took albumId position) :
    ∀ m ∈ (backend.answer i r fault w).2.mediaOf albumId, m.position + 1000 ≤ position := by
  have hbefore := present_before h hcan hpresent (j := j) (by rw [hj]; rfl)
  intro m hm
  by_cases hji : j = i
  · subst hji
    rw [phasesAfter, Function.update_self] at hj
    obtain ⟨hphase, c, b, he⟩ := next_eq_took hj
    obtain rfl : r = .nextPosition albumId := by
      rw [hphase] at hcan
      exact hcan
    rw [Reorder.mediaOf_answer rfl] at hm
    rw [Reorder.position_of_reply he]
    exact add_le_computed hm
  · rw [phasesAfter, Function.update_of_ne hji] at hj
    have hold := h.above hbefore j position hj
    rcases can_cases hcan with ⟨a, rfl, htook⟩ | ⟨hinsert, hreorder⟩
    · rcases @insert_cases w i fault a albumId with ⟨-, hrows⟩ | ⟨-, -, hrows⟩
      · rw [hrows] at hm
        exact hold m hm
      · rw [hrows] at hm
        rcases List.mem_append.mp hm with hm | hm
        · exact hold m hm
        · -- two tasks cannot hold the lock
          obtain ⟨hmem, halbum⟩ := List.mem_filter.mp hm
          have hid : a.albumId = albumId := by
            rw [← List.mem_singleton.mp hmem]
            exact beq_iff_eq.mp halbum
          have h1 := h.held hbefore j (by rw [hj]; rfl)
          have h2 := h.held hbefore i (by rw [htook]; exact hid)
          exact absurd (Option.some.inj (h1.symm.trans h2)) hji
    · obtain ⟨keep, ⟨f, hf, hrows⟩, -⟩ := @call_thins albumId w i r fault hinsert hreorder
      rw [hrows] at hm
      obtain ⟨u, hu, rfl⟩ := List.mem_map.mp hm
      rw [(hf u).2]
      exact hold u (List.mem_filter.mp hu).1

theorem Sound.step (hone : ∀ i j, drawn i = some albumId → drawn j = some albumId → i = j)
    (h : Sound albumId drawn phases w) (hcan : CanCall albumId (drawn i) (phases i) r) (hfree : backend.blocked i r w = false) :
    Sound albumId drawn (phasesAfter phases i r fault w) (backend.answer i r fault w).2 where
  once := once_step hone h hcan
  held := held_step h hcan hfree
  above := above_step h hcan

/-- The list goes on as the call was answered. -/
theorem Listed.step {ids : List String} (h : Sound albumId drawn phases w) (hlisted : Listed albumId w ids)
    (hcan : CanCall albumId (drawn i) (phases i) r) :
    Listed albumId (backend.answer i r fault w).2
      (afterCall albumId ids ⟨r, (backend.answer i r fault w).1, fault.isSome⟩) := by
  rcases can_cases hcan with ⟨m, rfl, htook⟩ | ⟨hinsert, hreorder⟩
  · rcases @insert_cases w i fault m albumId with ⟨⟨e, hreply⟩, hrows⟩ | ⟨hreply, hthere, hrows⟩
    · rw [hreply]
      have hthin := hlisted.thin (thinned_of_eq hrows)
      rwa [List.filter_true] at hthin
    · rw [hreply]
      by_cases hid : m.albumId = albumId
      · subst hid
        have hlast : ∀ u ∈ w.mediaOf m.albumId, u.position < m.position := by
          intro u hu
          have := h.above hthere i m.position htook u hu
          omega
        simp only [afterCall, if_true]
        apply hlisted.append _ hlast
        rw [hrows]
        simp
      · have hsame : (backend.answer i (.insertMedia m) fault w).2.mediaOf albumId = w.mediaOf albumId := by
          rw [hrows]
          simp [hid]
        have hthin := hlisted.thin (thinned_of_eq hsame)
        simp only [afterCall, if_neg hid]
        rwa [List.filter_true] at hthin
  · obtain ⟨keep, hthin, hnext⟩ := @call_thins albumId w i r fault hinsert hreorder
    rw [hnext]
    exact hlisted.thin hthin

end

/-! ## Runs -/

section

variable {albumId : String} {ops : List Op} {p : Site} {i : Nat} {t : Task Reply PyExc OpResult} {r : Req}
  {k : Except PyExc (Reply r) → Prog OpResult} {fault : Option PyExc}

/-- The id task `i` draws. -/
def drawnBy (ops : List Op) (i : Nat) : Option String := ops[i]?.bind drawnId

def phaseOf (ops : List Op) (p : Site) (i : Nat) : Phase := p.seen Phase.next ((ops[i]?.map firstPhase).getD .other) i

/-- The id is that of one album: of the one that is there, or of one an upload creates. -/
structure OneAlbum (albumId : String) (ops : List Op) (w : World) : Prop where
  once : ∀ i j, drawnBy ops i = some albumId → drawnBy ops j = some albumId → i = j
  new : w.albums.find? albumId ≠ none → ∀ i, drawnBy ops i ≠ some albumId

/-- Every task follows the protocol. -/
def Running (albumId : String) (ops : List Op) (p : Site) : Prop :=
  p.Follows (fun i => appending albumId (drawnBy ops i)) Honest (fun _ _ _ => True)
    fun i => (ops[i]?.map firstPhase).getD .other

theorem Running.can (h : Running albumId ops p) (ht : p.tasks[i]? = some t) (hr : t.rest = .call r k) :
    CanCall albumId (drawnBy ops i) (phaseOf ops p i) r := by
  have hcan := Pool.Follows.can h ht hr
  rw [phaseOf, Pool.seen_eq ht]
  exact hcan

theorem phaseOf_advance (ht : p.tasks[i]? = some t) :
    phaseOf ops (p.advance backend i t r k fault) = phasesAfter (phaseOf ops p) i r fault p.world := by
  funext l
  by_cases hl : l = i
  · subst hl
    rw [phasesAfter, Function.update_self]
    exact Pool.seen_advance_self ht
  · rw [phasesAfter, Function.update_of_ne hl]
    exact Pool.seen_advance_of_ne hl

theorem running_start (rt : Runtime) (w : World) (hops : ∀ op ∈ ops, KeepsOrder albumId op) :
    Running albumId ops (Site.start rt w ops) :=
  Site.start_follows fun i op hop => by
    have hdrawn : drawnBy ops i = drawnId op := by
      rw [drawnBy, hop]
      rfl
    rw [hdrawn, hop]
    exact program_follows rt (hops op (List.mem_of_getElem? hop))

/-- A task that has not begun knows no album. -/
theorem firstPhase_cases (ops : List Op) (i : Nat) :
    (ops[i]?.map firstPhase).getD .other = .unseen ∨ (ops[i]?.map firstPhase).getD .other = .other := by
  rcases ops[i]? with _ | op
  · exact .inr rfl
  · cases op <;> first | exact .inl rfl | exact .inr rfl

theorem sound_start (rt : Runtime) {w : World} (hone : OneAlbum albumId ops w) :
    Sound albumId (drawnBy ops) (phaseOf ops (Site.start rt w ops)) w := by
  have hphase : ∀ i, phaseOf ops (Site.start rt w ops) i = (ops[i]?.map firstPhase).getD .other := fun i =>
    Pool.seen_start w _ i
  have hnobody : ∀ i, ¬(phaseOf ops (Site.start rt w ops) i).Knows albumId := by
    intro i h
    rw [hphase] at h
    rcases firstPhase_cases ops i with hi | hi <;> rw [hi] at h <;> exact h
  constructor
  · by_cases hthere : w.albums.find? albumId = none
    · exact .inr ⟨hthere, hnobody⟩
    · exact .inl fun i hi => absurd hi (hone.new hthere i)
  · intro _ i h
    exact absurd h.knows (hnobody i)
  · intro _ i position h
    refine absurd ?_ (hnobody i)
    rw [h]
    rfl

theorem Sound.elapse {drawn : Nat → Option String} {phases : Nat → Phase} {w : World} (h : Sound albumId drawn phases w)
    (d : Nat) : Sound albumId drawn phases (backend.elapse d w) := ⟨h.once, h.held, h.above⟩

theorem listed_start {w : World} (h : ((w.mediaOf albumId).map (·.position)).Nodup) :
    Listed albumId w ((w.listAlbumMedia albumId).map (·.id)) := by
  refine ⟨?_, rfl⟩
  have hnodup : ((w.listAlbumMedia albumId).map (·.position)).Nodup :=
    ((listAlbumMedia_perm w albumId).map _).nodup_iff.mpr h
  rw [List.nodup_iff_pairwise_ne, List.pairwise_map] at hnodup
  apply (List.pairwise_and_iff.mpr ⟨listAlbumMedia_sorted w albumId, hnodup⟩).imp
  intro a b hab
  exact lt_of_le_of_ne hab.1 hab.2

/-- The album is a list that is appended to: an insertion is made under the lock and a
    thousand or more past all items, and the items are listed as they were committed. -/
structure AppendOnly (albumId : String) (p : Site) (ids : List String) : Prop where
  behind : ∀ (i : Nat) (t : Task Reply PyExc OpResult) (m : Media) (k : Except PyExc Media → Prog OpResult),
    p.tasks[i]? = some t → t.rest = .call (.insertMedia m) k → m.albumId = albumId → p.world.albums.find? albumId ≠ none →
      p.world.albumLocks albumId = some i ∧ ∀ u ∈ p.world.mediaOf albumId, u.position + 1000 ≤ m.position
  apart : (p.world.listAlbumMedia albumId).Pairwise fun a b => a.position < b.position
  inOrder : (p.world.listAlbumMedia albumId).map (·.id) = ids

theorem appendOnly_of_sound (hrun : Running albumId ops p) (hsound : Sound albumId (drawnBy ops) (phaseOf ops p) p.world)
    {ids : List String} (hlisted : Listed albumId p.world ids) : AppendOnly albumId p ids where
  behind := by
    intro i t m k ht hr hid hthere
    rcases can_cases (hrun.can ht hr) with ⟨a, ha, htook⟩ | ⟨hinsert, -⟩
    · obtain rfl := Req.insertMedia.inj ha
      subst hid
      exact ⟨hsound.held hthere i (by rw [htook]; rfl), hsound.above hthere i m.position htook⟩
    · exact absurd rfl (hinsert m)
  apart := hlisted.sorted
  inOrder := hlisted.inOrder

/-- Whatever runs beside, and in whatever order: without a reorder the album is a list of
    its items in the order they were committed. -/
theorem uploads_append (rt : Runtime) (w : World) (ops : List Op) (albumId : String) (hops : ∀ op ∈ ops, KeepsOrder albumId op)
    (hone : OneAlbum albumId ops w) (hapart : ((w.mediaOf albumId).map (·.position)).Nodup) (cs : List (Choice PyExc)) :
    AppendOnly albumId ((Site.start rt w ops).run backend cs)
      (((Site.start rt w ops).trace backend cs).foldl (afterCall albumId) ((w.listAlbumMedia albumId).map (·.id))) := by
  let ids := (w.listAlbumMedia albumId).map (·.id)
  have hstart : Running albumId ops (Site.start rt w ops) ∧
      Sound albumId (drawnBy ops) (phaseOf ops (Site.start rt w ops)) w ∧ Listed albumId w ([].foldl (afterCall albumId) ids) :=
    ⟨running_start rt w hops, sound_start rt hone, listed_start hapart⟩
  obtain ⟨hrun, hsound, hlisted⟩ := Pool.run_trace_invariant_free (B := backend)
    (I := fun done p => Running albumId ops p ∧ Sound albumId (drawnBy ops) (phaseOf ops p) p.world ∧
      Listed albumId p.world (done.foldl (afterCall albumId) ids))
    (fun p d done h => ⟨h.1, h.2.1.elapse d, ⟨h.2.2.sorted, h.2.2.inOrder⟩⟩)
    (fun p i t r k fault done h ht hr hfree _ => by
      obtain ⟨hrun, hsound, hlisted⟩ := h
      have hcan := hrun.can ht hr
      refine ⟨Pool.Follows.advance hrun ht hr (honest_answer i r fault p.world), ?_, ?_⟩
      · rw [phaseOf_advance ht]
        exact hsound.step hone.once hcan hfree
      · rw [List.foldl_append]
        exact Listed.step hsound hlisted hcan)
    hstart (Pool.meets_true _ cs)
  exact appendOnly_of_sound hrun hsound hlisted

end

/-- Two uploads to an album of two items, one of which is deleted. -/
def twoUploads : List Op :=
  [.upload (Sample.uploadTo (some "a")) Sample.firstDraws, .upload (Sample.uploadTo (some "a")) Sample.secondDraws,
    .deleteMedia "m" (some "t") "c" none]

/-- The second upload finds the album locked, the deletion does not. -/
def lockedOut : List (Choice PyExc) :=
  Sample.calls 0 10 ++ Sample.calls 1 15 ++ Sample.calls 2 4 ++ Sample.calls 0 5 ++ Sample.calls 1 15 ++ Sample.calls 2 9

theorem oneAlbum_twoUploads : OneAlbum "a" twoUploads Reorder.twoItems := by
  have hdrawn : ∀ i, drawnBy twoUploads i = none := by
    intro i
    rcases i with _ | _ | _ | i <;> rfl
  constructor
  · intro i j hi
    rw [hdrawn] at hi
    cases hi
  · intro _ i hi
    rw [hdrawn] at hi
    cases hi

theorem two_uploads_are_listed_in_order :
    (((Site.start Sample.runtime Reorder.twoItems twoUploads).run backend lockedOut).world.listAlbumMedia "a").map (·.id) =
      ["n", "222222222222", "333333333333"] :=
  (uploads_append Sample.runtime Reorder.twoItems twoUploads "a" (by decide) oneAlbum_twoUploads (by decide)
    lockedOut).inOrder.trans (by decide +kernel)

end Imghost.Concurrency.Appends
