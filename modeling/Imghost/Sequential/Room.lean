/-
  Imghost.Sequential.Room — room for the next item.

  `position` is a `BIGINT`, and an item goes 1000 past the last one. Nothing bounds the
  positions a reorder asks for, so an album may be left without room: the position of
  the next item is computed past the column, and no upload to the album succeeds any
  more. `LeavesRoom` says when an operation that is accepted leaves room in every album; a
  history of accepted operations leaves room throughout exactly when each of them does.
-/

import Imghost.Sequential.History
import Imghost.Service.Alone
import Imghost.Service.Positions

namespace Imghost.Sequential.Room

open Imghost.Async Imghost.Data Imghost.Model Imghost.Service

/-- The position of the next item, of any album, is one the column can hold. -/
def NextInRange (w : World) : Prop := ∀ albumId, inBigint (computedPosition albumId w) = true

/-- The column holds what it can hold. -/
def InColumn (w : World) : Prop := ∀ m ∈ w.media, inBigint m.position = true

/-- There is room for one more after each item. -/
def Fits (w : World) : Prop := ∀ m ∈ w.media, m.position + 1000 ≤ bigintMax

theorem nextInRange_iff {w : World} (hw : InColumn w) : NextInRange w ↔ Fits w := by
  constructor
  · intro h m hm
    have hroom := (inBigint_iff.mp (h m.albumId)).2
    have hle := add_le_computed (mem_mediaOf.mpr ⟨hm, rfl⟩)
    omega
  · intro h albumId
    rw [inBigint_iff]
    rcases computedPosition_cases albumId w with hempty | ⟨m, hm, hnext⟩
    · rw [hempty]
      decide
    · have hm := (mem_mediaOf.mp hm).1
      have hlow := (inBigint_iff.mp (hw m hm)).1
      have hroom := h m hm
      rw [hnext]
      omega

/-! ## Operations that move nothing up -/

/-- Each position of `w'` is one of `w`. -/
def NothingMoved (w w' : World) : Prop := ∀ m' ∈ w'.media, ∃ m ∈ w.media, m'.position = m.position

/-- A call that neither inserts an item nor sets positions. -/
def MovesNothing : Req → Prop
  | .insertMedia _ | .updateMediaPositions _ _ => False
  | _ => True

section

variable {w w' w'' : World}

theorem NothingMoved.of_media (h : w'.media = w.media) : NothingMoved w w' := fun m hm => ⟨m, h ▸ hm, rfl⟩

theorem NothingMoved.trans (h : NothingMoved w w') (h' : NothingMoved w' w'') : NothingMoved w w'' := by
  intro m hm
  obtain ⟨m', hm', heq⟩ := h' m hm
  obtain ⟨m'', hm'', heq'⟩ := h m' hm'
  exact ⟨m'', hm'', heq.trans heq'⟩

theorem NothingMoved.inColumn (h : NothingMoved w w') (hw : InColumn w) : InColumn w' := by
  intro m hm
  obtain ⟨m', hm', heq⟩ := h m hm
  rw [heq]
  exact hw m' hm'

theorem NothingMoved.fits (h : NothingMoved w w') (hw : Fits w) : Fits w' := by
  intro m hm
  obtain ⟨m', hm', heq⟩ := h m hm
  rw [heq]
  exact hw m' hm'

theorem nothingMoved_answer {i : Nat} {r : Req} {fault : Option PyExc} (hr : MovesNothing r) :
    NothingMoved w (backend.answer i r fault w).2 := by
  by_cases hm : Req.changesMedia r = false
  · exact .of_media (answer_media hm)
  rcases answer_cases i r fault w with ha | ⟨e, -, ha⟩
  swap
  · rw [ha]
    exact .of_media rfl
  rw [ha]
  cases r <;> first | exact absurd rfl hm | exact absurd hr id | skip
  case updateMediaThumbnailState mediaId _ _ _ _ =>
    simp only [exec, World.updateMediaThumbnailState]
    split
    · exact .of_media rfl
    · intro m hm
      obtain ⟨m', hm', rfl⟩ := List.mem_map.mp hm
      refine ⟨m', hm', ?_⟩
      split <;> rfl
  case deleteMedia mediaId =>
    intro m hm
    exact ⟨m, (Table.mem_delete.mp hm).1, rfl⟩
  case deleteAlbumRow albumId =>
    intro m hm
    exact ⟨m, (mem_dropAlbums_media.mp hm).1, rfl⟩
  case deleteUser userId =>
    simp only [exec, World.deleteUser]
    split
    · exact .of_media rfl
    · intro m hm
      obtain ⟨m', hm', rfl⟩ := List.mem_map.mp hm
      refine ⟨m', (mem_dropAlbums_media.mp hm').1, ?_⟩
      unfold World.dropUserId
      split <;> rfl

end

/-! ## An accepted upload -/

/-- The album an upload goes to: the one it names, or a new one. -/
def uploadTarget (input : UploadInput) (draws : Draws) : String :=
  (input.albumId.filter (· != "")).getD (generateId draws.albumId)

variable {α β : Type} {w : World}

/-- A program alone that touches no item, and what follows it. -/
theorem wp_media_bind {p : Prog α} {f : α → Prog β} {Q : β → World → Prop} {w₀ : World} (hw₀ : w₀.media = w.media)
    (hp : p.Uses (Req.changesMedia · = false))
    (hok : ∀ a w', w'.media = w.media →
      wp (backend.alone fun _ _ _ => True) (fun x w' => ∀ b, x = .ok b → Q b w') (f a) w') :
    wp (backend.alone fun _ _ _ => True) (fun x w' => ∀ b, x = .ok b → Q b w') (p >>= f) w₀ := by
  have hkept : wp (backend.alone fun _ _ _ => True) (fun _ w' => w'.media = w.media) p w₀ := by
    refine wp_of_uses (I := fun w' => w'.media = w.media) (fun r w₁ hr hw₁ => ⟨trivial, ?_⟩) hp hw₀ fun _ _ h => h
    rintro x w' ⟨d, fault, -, h⟩
    have hmedia : (backend.answer 0 r fault (backend.elapse d w₁)).2.media = w₁.media := answer_media hr
    rw [h] at hmedia
    exact hmedia.trans hw₁
  exact wp_seq hkept (fun a w' h => hok a w' h) fun e w' _ b h => nomatch h

theorem touchesNothing_of_plain (r : Req) (h : Req.plain r = true) : Req.changesMedia r = false := by
  cases r <;> first | rfl | cases h

theorem computedPosition_congr {w' : World} (h : w'.media = w.media) (albumId : String) :
    computedPosition albumId w' = computedPosition albumId w := by
  rw [computedPosition, computedPosition, World.mediaOf, World.mediaOf, h]

/-- One more item, at the position computed for it. -/
def Appended (albumId : String) (w w' : World) : Prop :=
  ∃ m, w'.media.rows = w.media.rows ++ [m] ∧ m.albumId = albumId ∧ m.position = computedPosition albumId w

/-- One more item: the row asked for, at the position computed for it. -/
def Inserted (m : Media) (w w' : World) : Prop :=
  w'.media.rows = w.media.rows ++ [{ m with position := computedPosition m.albumId w }]

theorem createMediaWithNextPosition_inserts {m : Media} {w₀ : World} (hw₀ : w₀.media = w.media) :
    wp (backend.alone fun _ _ _ => True) (fun x w' => ∀ m', x = .ok m' → Inserted m w w')
      (Repository.createMediaWithNextPosition m) w₀ := by
  refine wp_media_bind hw₀ (Program.uses_perform rfl) fun _ w₁ hw₁ => ?_
  refine wp_ask (fun position fault w₂ w' hw₂ _ hreply => ?_) fun e _ _ _ _ _ _ m' h => nomatch h
  have hposition : position = computedPosition m.albumId w := by
    have hexec := exec_of_ok (a := position) (by rw [hreply])
    simp only [exec] at hexec
    split at hexec
    · rename_i p hp
      rw [← Except.ok.inj hexec, nextPosition_eq hp, computedPosition_congr (hw₂.media.trans hw₁)]
    · cases hexec
  have hw' : w'.media = w.media := by
    have hmedia : (backend.answer 0 (.nextPosition m.albumId) fault w₂).2.media = w₂.media := answer_media rfl
    rw [hreply] at hmedia
    exact hmedia.trans (hw₂.media.trans hw₁)
  refine (wp_perform _).mpr ⟨trivial, ?_⟩
  rintro x w'' ⟨d, fault, -, h⟩ m' rfl
  have hok : (backend.answer 0 (.insertMedia { m with position := position }) fault (backend.elapse d w')).1 = .ok m' := by
    rw [h]
  have hexec := answer_of_ok hok
  rw [h] at hexec
  have hinsert : exec 0 (.insertMedia { m with position := position }) (backend.elapse d w') =
      (backend.elapse d w').insertMedia 0 { m with position := position } := rfl
  rw [hinsert, World.insertMedia] at hexec
  split at hexec
  · cases hexec
  split at hexec
  · rename_i t ht
    obtain rfl := (Prod.ext_iff.mp hexec).2
    have hrows := Table.insert_rows ht
    rw [hposition] at hrows
    exact hrows.trans (by rw [← hw']; rfl)
  · cases hexec

theorem insertOrRollBack_inserts {m : Media} {w₀ : World} (hw₀ : w₀.media = w.media) :
    wp (backend.alone fun _ _ _ => True) (fun x w' => ∀ m', x = .ok m' → Inserted m w w') (insertOrRollBack m) w₀ := by
  rw [insertOrRollBack, wp_tryExcept]
  refine wp_mono (fun x w' hx => ?_) (createMediaWithNextPosition_inserts hw₀)
  cases x with
  | ok m' => exact hx
  | error e => exact wp_then_raise (wp_whatever (fun _ _ => trivial) _ _) fun _ _ _ h => nomatch h

/-- What `_read_bounded_upload` takes of a file. -/
def receivedBytes (file : UploadFile) : Bytes := (file.chunks.takeWhile fun chunk => !chunk.isEmpty).flatten

theorem readChunks_receives {maxUploadBytes : Int} {chunks read : List Bytes} {payload : Bytes}
    (h : readChunks maxUploadBytes chunks read = .ok payload) :
    payload = read.flatten ++ (chunks.takeWhile fun chunk => !chunk.isEmpty).flatten := by
  induction chunks generalizing read with
  | nil =>
    cases h
    simp
  | cons chunk chunks ih =>
    unfold readChunks at h
    split at h
    · rename_i hempty
      cases h
      simp [hempty]
    · rename_i hmore
      split at h
      · cases h
      · rw [ih h]
        simp [hmore]

theorem readBoundedUpload_receives (file : UploadFile) :
    wp (backend.alone fun _ _ _ => True) (fun x w' => ∀ payload, x = .ok payload →
      w'.media = w.media ∧ payload = receivedBytes file) (readBoundedUpload file) w := by
  refine wp_media_bind rfl (Program.uses_perform rfl) fun maxUploadBytes w₁ hw₁ => ?_
  rw [wp_ofExcept]
  intro payload h
  exact ⟨hw₁, readChunks_receives h⟩

/-- The row of an upload, at the position computed for it. -/
def Uploaded (rt : Runtime) (input : UploadInput) (draws : Draws) (w w' : World) : Prop :=
  ∃ metadata sanitized now, prepareMedia rt input.file (receivedBytes input.file) = .ok (metadata, sanitized) ∧
    Inserted (newMedia rt (uploadTarget input draws) input.file input.actor.user draws metadata sanitized now) w w'

theorem Inserted.congr {m : Media} {w₁ w₂ : World} (h : Inserted m w w₁) (hmedia : w₂.media = w₁.media) : Inserted m w w₂ := by
  unfold Inserted
  rw [hmedia]
  exact h

theorem Uploaded.congr {rt : Runtime} {input : UploadInput} {draws : Draws} {w₁ w₂ : World}
    (h : Uploaded rt input draws w w₁) (hmedia : w₂.media = w₁.media) : Uploaded rt input draws w w₂ := by
  obtain ⟨metadata, sanitized, now, hprepared, hinserted⟩ := h
  exact ⟨metadata, sanitized, now, hprepared, hinserted.congr hmedia⟩

theorem createMedia_stores (rt : Runtime) (input : UploadInput) (draws : Draws) {w₀ : World} (hw₀ : w₀.media = w.media) :
    wp (backend.alone fun _ _ _ => True) (fun x w' => ∀ m, x = .ok m → Uploaded rt input draws w w')
      (createMedia rt (uploadTarget input draws) input.file (receivedBytes input.file) input.correlationId input.actor
        draws) w₀ := by
  refine wp_value (fun prepared hprepared => ?_) fun e _ m h => nomatch h
  obtain ⟨metadata, sanitized⟩ := prepared
  refine wp_media_bind hw₀ (Program.uses_perform rfl) fun _ w₁ hw₁ => ?_
  refine wp_media_bind hw₁ (Program.uses_perform rfl) fun now w₂ hw₂ => ?_
  refine wp_seq (insertOrRollBack_inserts hw₂) (fun m w₃ hw₃ => ?_) fun e w' _ _ h => nomatch h
  have huploaded : Uploaded rt input draws w w₃ := ⟨metadata, sanitized, now, hprepared, hw₃ m rfl⟩
  refine wp_media_bind rfl (Program.uses_perform rfl) fun _ w₄ hw₄ => ?_
  refine wp_media_bind hw₄ (Program.uses_perform rfl) fun refreshed w₅ hw₅ => ?_
  exact fun _ _ => huploaded.congr hw₅

theorem getOrCreateAlbum_target (input : UploadInput) (draws : Draws) {w₀ : World} (hw₀ : w₀.media = w.media) :
    wp (backend.alone fun _ _ _ => True)
      (fun x w' => ∀ album, x = .ok album → w'.media = w.media ∧ album.id = uploadTarget input draws)
      (getOrCreateAlbum input.albumId input.title input.correlationId input.actor input.deleteToken draws) w₀ := by
  unfold getOrCreateAlbum uploadTarget
  split
  · rename_i albumId hnamed
    rw [hnamed]
    refine wp_read rfl (fun found w₁ w₂ hw₁ hw₂ h => ?_) fun e w' _ _ h => nomatch h
    obtain rfl := Except.ok.inj h
    rcases hfind : w₁.albums.find? albumId with _ | target
    · exact fun _ h => nomatch h
    refine wp_media_bind (hw₂.media.trans hw₀) (Program.uses_perform rfl) fun now w₃ hw₃ => ?_
    refine wp_media_bind hw₃ (Program.uses_raiseIf _ _) fun _ w₄ hw₄ => ?_
    refine wp_media_bind hw₄ (requireUploadAccess_uses touchesNothing_of_plain _ _ _) fun _ w₅ hw₅ => ?_
    intro album h
    obtain rfl := Except.ok.inj h
    exact ⟨hw₅, Table.find?_key hfind⟩
  · rename_i hnone
    rw [hnone]
    refine wp_media_bind hw₀ (Program.uses_perform rfl) fun now w₁ hw₁ => ?_
    refine wp_media_bind hw₁ (newAlbumExpiry_uses touchesNothing_of_plain _ _) fun expiresAt w₂ hw₂ => ?_
    refine wp_media_bind hw₂ (Program.uses_perform rfl) fun _ w₃ hw₃ => ?_
    refine wp_media_bind hw₃ (Program.uses_perform rfl) fun _ w₄ hw₄ => ?_
    intro album h
    obtain rfl := Except.ok.inj h
    exact ⟨hw₄, rfl⟩

theorem upload_stores (rt : Runtime) (input : UploadInput) (draws : Draws) :
    wp (backend.alone fun _ _ _ => True) (fun x w' => ∀ r, x = .ok r → Uploaded rt input draws w w')
      (upload rt input draws) w := by
  refine wp_seq (readBoundedUpload_receives input.file) (fun payload w₁ h => ?_) fun e w' _ _ h => nomatch h
  obtain ⟨hw₁, rfl⟩ := h payload rfl
  refine wp_media_bind hw₁ (Program.uses_raiseIf _ _) fun _ w₂ hw₂ => ?_
  refine wp_media_bind hw₂ (enforceRateLimit_uses touchesNothing_of_plain _ _ _) fun _ w₃ hw₃ => ?_
  refine wp_media_bind hw₃ (enforceStorageQuotas_uses touchesNothing_of_plain _ _) fun _ w₄ hw₄ => ?_
  refine wp_seq (getOrCreateAlbum_target input draws hw₄) (fun album w₅ h => ?_) fun e w' _ _ h => nomatch h
  obtain ⟨hw₅, htarget⟩ := h album rfl
  have hinto : wp (backend.alone fun _ _ _ => True)
      (fun x w' => ∀ m, x = .ok m → Uploaded rt input draws w w')
      ((uploadInto rt input (receivedBytes input.file) draws album).tryExcept fun e => do
        cleanUpAlbum input.albumId.isNone album
        Program.raise e) w₅ := by
    rw [wp_tryExcept]
    refine wp_mono (fun x w' hx => ?_) (wp_media_bind hw₅ (Program.uses_perform rfl) fun items w₆ hw₆ =>
      wp_media_bind hw₆ (Program.uses_raiseIf _ _) fun _ w₇ hw₇ =>
        htarget ▸ createMedia_stores rt input draws hw₇)
    cases x with
    | ok m => exact hx
    | error e => exact wp_then_raise (wp_whatever (fun _ _ => trivial) _ _) fun _ _ _ h => nomatch h
  refine wp_seq hinto (fun m w₆ hw₆ => ?_) fun e w' _ _ h => nomatch h
  refine wp_media_bind rfl (updateAlbumOr404_uses rfl) fun _ w₇ hw₇ => ?_
  exact fun _ _ => (hw₆ m rfl).congr hw₇

theorem upload_appends (rt : Runtime) (input : UploadInput) (draws : Draws) :
    wp (backend.alone fun _ _ _ => True) (fun x w' => ∀ r, x = .ok r → Appended (uploadTarget input draws) w w')
      (upload rt input draws) w := by
  refine wp_mono (fun x w' h r hr => ?_) (upload_stores rt input draws)
  obtain ⟨metadata, sanitized, now, -, hinserted⟩ := h r hr
  exact ⟨_, hinserted, rfl, rfl⟩

/-! ## An accepted reorder -/

/-- The rows after the first write of a reorder. -/
def afterFirstWrite (albumId : String) (order : List (String × Int)) (w : World) : World :=
  (w.updateMediaPositions albumId order).2

/-- The album as the first write lists it. -/
def listed (albumId : String) (order : List (String × Int)) (w : World) : List Media :=
  (afterFirstWrite albumId order w).listAlbumMedia albumId

/-- The rows of the items after positions were written. -/
structure Written (albumId : String) (positions : List (String × Int)) (w w' : World) : Prop where
  inRange : ∀ x ∈ positions, inBigint x.2 = true
  rows : w'.media.rows = w.media.rows.map (World.setPositions albumId positions)

theorem Written.congr {albumId : String} {positions : List (String × Int)} {w₁ w₂ w' w'' : World}
    (h : Written albumId positions w₁ w') (hmedia : w₁.media = w₂.media) (hmedia' : w''.media = w'.media) :
    Written albumId positions w₂ w'' := ⟨h.inRange, by rw [hmedia', h.rows, hmedia]⟩

theorem written_of_reply {albumId : String} {positions : List (String × Int)} {i : Nat} {fault : Option PyExc}
    {w w' : World} {reordered : List Media}
    (h : backend.answer i (.updateMediaPositions albumId positions) fault w = (.ok reordered, w')) :
    Written albumId positions w w' ∧ reordered = w'.listAlbumMedia albumId := by
  have hok : (backend.answer i (.updateMediaPositions albumId positions) fault w).1 = .ok reordered := by rw [h]
  have hexec := answer_of_ok hok
  rw [h] at hexec
  have hcall : exec i (.updateMediaPositions albumId positions) w = w.updateMediaPositions albumId positions := rfl
  rw [hcall, World.updateMediaPositions] at hexec
  split at hexec
  · rename_i hall
    obtain ⟨hreply, rfl⟩ := Prod.ext_iff.mp hexec
    exact ⟨⟨List.all_eq_true.mp hall, rfl⟩, Except.ok.inj hreply⟩
  · cases (Prod.ext_iff.mp hexec).1

theorem Written.listed {albumId : String} {order : List (String × Int)} {w w₁ : World} (h : Written albumId order w w₁) :
    w₁.listAlbumMedia albumId = listed albumId order w := by
  have hall : order.all (inBigint ·.2) = true := List.all_eq_true.mpr h.inRange
  rw [Room.listed, afterFirstWrite, World.updateMediaPositions, if_pos hall, World.listAlbumMedia, World.listAlbumMedia,
    World.mediaOf, World.mediaOf, h.rows]
  rfl

/-- The rows after one write or two. -/
def Rewritten (albumId : String) (order : List (String × Int)) (w w' : World) : Prop :=
  ∃ w₁, Written albumId order w w₁ ∧
    (needsRebalance (listed albumId order w) = true → Written albumId (rebalanced (listed albumId order w)) w₁ w') ∧
    (needsRebalance (listed albumId order w) = false → w'.media = w₁.media)

theorem Rewritten.congr {albumId : String} {order : List (String × Int)} {w w₁ w₂ : World}
    (h : Rewritten albumId order w w₁) (hmedia : w₂.media = w₁.media) : Rewritten albumId order w w₂ := by
  obtain ⟨w₀, hfirst, hspread, hstay⟩ := h
  exact ⟨w₀, hfirst, fun hrebalance => (hspread hrebalance).congr rfl hmedia,
    fun hrebalance => hmedia.trans (hstay hrebalance)⟩

/-- What an accepted reorder did. -/
structure Reordered (albumId : String) (order : List (String × Int)) (w w' : World) : Prop where
  named : ∀ x ∈ order, ∃ m ∈ w.mediaOf albumId, m.id = x.1
  unique : (order.map Prod.fst).Nodup
  rewritten : Rewritten albumId order w w'

theorem writePositions_writes {albumId : String} {order : List (String × Int)} {w₀ : World} (hw₀ : w₀.media = w.media) :
    wp (backend.alone fun _ _ _ => True) (fun x w' => ∀ r, x = .ok r → Rewritten albumId order w w')
      (writePositions albumId order) w₀ := by
  refine wp_ask (fun reordered fault w₁ w₂ hw₁ _ h => ?_) fun e _ _ _ _ _ _ r h => nomatch h
  obtain ⟨hfirst, rfl⟩ := written_of_reply h
  have hfirst := hfirst.congr (hw₁.media.trans hw₀) rfl
  rw [hfirst.listed]
  by_cases hrebalance : needsRebalance (listed albumId order w) = true
  · rw [if_pos hrebalance]
    refine (wp_perform _).mpr ⟨trivial, ?_⟩
    rintro x w₃ ⟨d, fault', -, h'⟩ r rfl
    exact ⟨w₂, hfirst, fun _ => (written_of_reply h').1.congr rfl rfl, fun h => by rw [hrebalance] at h; cases h⟩
  · rw [if_neg hrebalance]
    exact fun _ _ => ⟨w₂, hfirst, fun h => absurd h hrebalance, fun _ => rfl⟩

theorem reorderAlbum_reorders (albumId : String) (deleteToken : Option String) (order : List (String × Int))
    (correlationId : String) (actorUser : Option User) :
    wp (backend.alone fun _ _ _ => True) (fun x w' => ∀ r, x = .ok r → Reordered albumId order w w')
      (reorderAlbum albumId deleteToken order correlationId actorUser) w := by
  have hfind : (getAlbumOr404 albumId).Uses (Req.changesMedia · = false) := by
    refine Program.uses_bind (Program.uses_perform rfl) fun found => ?_
    cases found <;> trivial
  refine wp_media_bind rfl hfind fun album w₁ hw₁ => ?_
  refine wp_media_bind hw₁ (requireAlbumAccess_uses touchesNothing_of_plain _ _ _ _) fun _ w₂ hw₂ => ?_
  refine wp_read rfl (fun items w₃ w₄ hw₃ hw₄ h => ?_) fun e w' _ _ h => nomatch h
  obtain rfl := Except.ok.inj h
  refine wp_media_bind (hw₄.media.trans hw₂) (Program.uses_raiseIf _ _) fun _ w₅ hw₅ => ?_
  refine wp_value (fun positions hpositions => ?_) fun e _ _ h => nomatch h
  have hnamed : ∀ x ∈ order, ∃ m ∈ w.mediaOf albumId, m.id = x.1 := by
    intro x hx
    obtain ⟨m, hm, hid⟩ := collectPositions_named hpositions x hx
    refine ⟨m, ?_, hid⟩
    have hmem := mem_listAlbumMedia.mp hm
    rw [World.mediaOf, hw₃.media, hw₂] at hmem
    exact hmem
  obtain ⟨rfl, hunique⟩ := collectPositions_eq hpositions List.nodup_nil
  refine wp_seq (writePositions_writes hw₅) (fun reordered w₆ hw₆ => ?_) fun e w' _ _ h => nomatch h
  refine wp_media_bind rfl (updateAlbumOr404_uses rfl) fun _ w₇ hw₇ => ?_
  refine wp_media_bind hw₇ (Program.uses_perform rfl) fun _ w₈ hw₈ => ?_
  exact fun _ _ => ⟨hnamed, hunique, (hw₆ reordered rfl).congr hw₈⟩

/-! ## What leaves room -/

section

variable {w' w₁ : World} {albumId : String} {order : List (String × Int)}

theorem Appended.inColumn (h : Appended albumId w w') (hw : InColumn w) (hnext : NextInRange w) : InColumn w' := by
  obtain ⟨a, hrows, -, hposition⟩ := h
  intro m hm
  rw [Table.mem_def, hrows, List.mem_append, List.mem_singleton] at hm
  rcases hm with hm | rfl
  · exact hw m hm
  · rw [hposition]
    exact hnext albumId

theorem Appended.fits_iff (h : Appended albumId w w') (hw : Fits w) :
    Fits w' ↔ ∀ m ∈ w.mediaOf albumId, m.position + 2000 ≤ bigintMax := by
  obtain ⟨a, hrows, -, hposition⟩ := h
  have hfits : Fits w' ↔ a.position + 1000 ≤ bigintMax := by
    simp only [Fits, Table.mem_def, hrows, List.mem_append, List.mem_singleton]
    constructor
    · exact fun h => h a (.inr rfl)
    · rintro ha m (hm | rfl)
      · exact hw m hm
      · exact ha
  rw [hfits, hposition]
  constructor
  · intro ha m hm
    have := add_le_computed hm
    omega
  · intro hroom
    rcases computedPosition_cases albumId w with hempty | ⟨m, hm, hnext⟩
    · rw [hempty]
      decide
    · have := hroom m hm
      rw [hnext]
      omega

theorem Written.inColumn {positions : List (String × Int)} (h : Written albumId positions w w') (hw : InColumn w) :
    InColumn w' := by
  intro m hm
  rw [Table.mem_def, h.rows] at hm
  obtain ⟨m', hm', rfl⟩ := List.mem_map.mp hm
  rcases setPositions_position positions m' with heq | ⟨x, hx, heq⟩
  · rw [heq]
    exact hw m' hm'
  · rw [heq]
    exact h.inRange x hx

theorem Rewritten.inColumn (h : Rewritten albumId order w w') (hw : InColumn w) : InColumn w' := by
  obtain ⟨w₁, hfirst, hspread, hstay⟩ := h
  have hw₁ := hfirst.inColumn hw
  cases hrebalance : needsRebalance (listed albumId order w)
  · intro m hm
    rw [hstay hrebalance] at hm
    exact hw₁ m hm
  · exact (hspread hrebalance).inColumn hw₁

/-- The positions asked for are those the items got. -/
theorem fits_iff_of_written (h : Written albumId order w w') (hw : Fits w)
    (hnamed : ∀ x ∈ order, ∃ m ∈ w.mediaOf albumId, m.id = x.1) (hunique : (order.map Prod.fst).Nodup) :
    Fits w' ↔ ∀ x ∈ order, x.2 + 1000 ≤ bigintMax := by
  constructor
  · intro hfits x hx
    obtain ⟨m, hm, hid⟩ := hnamed x hx
    obtain ⟨hm, halbum⟩ := mem_mediaOf.mp hm
    have hposition := @setPositions_of_mem _ _ _ x.2 halbum hunique (by rw [hid]; exact hx)
    rw [← hposition]
    refine hfits _ ?_
    rw [Table.mem_def, h.rows]
    exact List.mem_map_of_mem hm
  · intro hroom m hm
    rw [Table.mem_def, h.rows] at hm
    obtain ⟨m', hm', rfl⟩ := List.mem_map.mp hm
    rcases setPositions_position order m' with heq | ⟨x, hx, heq⟩
    · rw [heq]
      exact hw m' hm'
    · rw [heq]
      exact hroom x hx

/-- The last of `n` items that are spread is at `n * 1000`. -/
theorem fits_iff_of_spread (hfirst : Written albumId order w w₁)
    (hspread : Written albumId (rebalanced (w₁.listAlbumMedia albumId)) w₁ w') (hw : Fits w)
    (hsome : w₁.listAlbumMedia albumId ≠ []) :
    Fits w' ↔ (((w₁.listAlbumMedia albumId).length + 1) * 1000 : Int) ≤ bigintMax := by
  have hunique : ((rebalanced (w₁.listAlbumMedia albumId)).map Prod.fst).Nodup := by
    rw [rebalanced_ids]
    exact listAlbumMedia_nodup w₁ albumId
  constructor
  · intro hfits
    have hlast : (w₁.listAlbumMedia albumId)[(w₁.listAlbumMedia albumId).length - 1]? =
        some ((w₁.listAlbumMedia albumId).getLast hsome) := by
      rw [← List.getLast?_eq_getElem?, List.getLast?_eq_some_getLast]
    have hmem := mem_mediaOf.mp (mem_listAlbumMedia.mp (List.getLast_mem hsome))
    have hposition := setPositions_of_mem hmem.2 hunique (mem_rebalanced.mpr ⟨_, _, hlast, rfl⟩)
    have hroom := hfits _ (by rw [Table.mem_def, hspread.rows]; exact List.mem_map_of_mem hmem.1)
    rw [hposition] at hroom
    have hlength := List.length_pos_iff.mpr hsome
    omega
  · intro hroom m hm
    rw [Table.mem_def, hspread.rows] at hm
    obtain ⟨m', hm', rfl⟩ := List.mem_map.mp hm
    by_cases halbum : m'.albumId = albumId
    · obtain ⟨k, hk, hkm⟩ := List.mem_iff_getElem.mp (mem_listAlbumMedia.mpr (mem_mediaOf.mpr ⟨hm', halbum⟩))
      have hplace : (w₁.listAlbumMedia albumId)[k]? = some m' := List.getElem?_eq_some_iff.mpr ⟨hk, hkm⟩
      rw [setPositions_of_mem halbum hunique (mem_rebalanced.mpr ⟨k, m', hplace, rfl⟩)]
      omega
    · -- an item of another album has not moved
      rw [setPositions_other halbum]
      rw [hfirst.rows] at hm'
      obtain ⟨m₀, hm₀, rfl⟩ := List.mem_map.mp hm'
      rw [(sameItem_setPositions albumId order m₀).albumId] at halbum
      rw [setPositions_other halbum]
      exact hw m₀ hm₀

theorem Reordered.fits_iff (h : Reordered albumId order w w') (hw : Fits w) :
    Fits w' ↔ if needsRebalance (listed albumId order w) then
      (((listed albumId order w).length + 1) * 1000 : Int) ≤ bigintMax else ∀ x ∈ order, x.2 + 1000 ≤ bigintMax := by
  obtain ⟨hnamed, hunique, w₁, hfirst, hspread, hstay⟩ := h
  cases hrebalance : needsRebalance (listed albumId order w)
  · rw [if_neg Bool.false_ne_true, ← fits_iff_of_written hfirst hw hnamed hunique, Fits, Fits, hstay hrebalance]
  · have hsome : listed albumId order w ≠ [] := by
      intro hempty
      rw [hempty] at hrebalance
      cases hrebalance
    have hspread := hspread hrebalance
    rw [← hfirst.listed] at hspread hsome ⊢
    rw [if_pos rfl]
    exact fits_iff_of_spread hfirst hspread hw hsome

end

/-! ## Histories -/

/-- The operation, accepted, leaves room for one more item in every album. An upload goes 1000
    past the last item of its album; a reorder leaves the positions asked for, or spreads the album. -/
def LeavesRoom (op : Op) (w : World) : Prop :=
  match op with
  | .upload input draws => ∀ m ∈ w.mediaOf (uploadTarget input draws), m.position + 2000 ≤ bigintMax
  | .reorderAlbum albumId _ order _ _ =>
    if needsRebalance (listed albumId order w) then (((listed albumId order w).length + 1) * 1000 : Int) ≤ bigintMax
    else ∀ x ∈ order, x.2 + 1000 ≤ bigintMax
  | _ => True

instance (op : Op) (w : World) : Decidable (LeavesRoom op w) := by
  apply @Op.casesOn _ op <;> (intros; delta LeavesRoom; dsimp only; infer_instance)

/-- An operation that neither uploads nor reorders. -/
theorem program_movesNothing (rt : Runtime) {op : Op} (hupload : ∀ input draws, op ≠ .upload input draws)
    (hreorder : ∀ a t order c u, op ≠ .reorderAlbum a t order c u) : (op.program rt).Uses MovesNothing := by
  refine (program_footprint rt op).mono fun r hr => ?_
  cases r <;> first | trivial | skip
  case insertMedia m =>
    rcases hr with hr | hr
    · cases hr
    · cases op <;> first | exact absurd rfl (hupload _ _) | cases hr
  case updateMediaPositions albumId positions =>
    rcases hr with hr | hr
    · cases hr
    · cases op <;> first | exact absurd rfl (hreorder _ _ _ _ _) | cases hr

theorem wp_nothingMoved {p : Prog α} (hp : p.Uses MovesNothing) :
    wp (backend.alone fun _ _ _ => True) (fun _ w' => NothingMoved w w') p w := by
  refine wp_of_uses (I := fun w' => NothingMoved w w') (fun r w₁ hr hw₁ => ⟨trivial, ?_⟩) hp (.of_media rfl)
    fun _ _ h => h
  rintro x w' ⟨d, fault, -, h⟩
  have hmoved := @nothingMoved_answer (backend.elapse d w₁) 0 _ fault hr
  rw [h] at hmoved
  exact hw₁.trans hmoved

theorem turn_room {rt : Runtime} {t : Turn} {w : World} (hw : InColumn w) (hnext : NextInRange w)
    (haccepted : t.accepted rt w = true) :
    InColumn (t.after rt w) ∧ (NextInRange (t.after rt w) ↔ LeavesRoom t.op w) := by
  obtain ⟨x, hx⟩ := Turn.result_of_accepted haccepted
  have hfits := (nextInRange_iff hw).mp hnext
  suffices h : InColumn (t.after rt w) ∧ (Fits (t.after rt w) ↔ LeavesRoom t.op w) from
    ⟨h.1, (nextInRange_iff h.1).trans h.2⟩
  by_cases hupload : ∃ input draws, t.op = .upload input draws
  · obtain ⟨input, draws, hop⟩ := hupload
    have happended : Appended (uploadTarget input draws) w (t.after rt w) := by
      refine Turn.after_of_wp (Q := fun x w' => ∀ r, x = .ok r → Appended (uploadTarget input draws) w w') ?_ x hx
      rw [hop]
      exact wp_seq (upload_appends rt input draws) (fun r w' h _ _ => h r rfl) fun e w' _ _ h => nomatch h
    rw [hop]
    exact ⟨happended.inColumn hw hnext, happended.fits_iff hfits⟩
  by_cases hreorder : ∃ a d order c u, t.op = .reorderAlbum a d order c u
  · obtain ⟨albumId, deleteToken, order, correlationId, actorUser, hop⟩ := hreorder
    have hreordered : Reordered albumId order w (t.after rt w) := by
      refine Turn.after_of_wp (Q := fun x w' => ∀ r, x = .ok r → Reordered albumId order w w') ?_ x hx
      rw [hop]
      exact wp_seq (reorderAlbum_reorders albumId deleteToken order correlationId actorUser)
        (fun r w' h _ _ => h r rfl) fun e w' _ _ h => nomatch h
    rw [hop]
    exact ⟨hreordered.rewritten.inColumn hw, hreordered.fits_iff hfits⟩
  · have hmoved : NothingMoved w (t.after rt w) :=
      Turn.after_of_wp (Q := fun _ w' => NothingMoved w w') (wp_nothingMoved (program_movesNothing rt
        (fun input draws h => hupload ⟨input, draws, h⟩) fun a d order c u h => hreorder ⟨a, d, order, c, u, h⟩))
    have hroom : LeavesRoom t.op w := by
      unfold LeavesRoom
      split
      · rename_i hop
        exact absurd ⟨_, _, hop⟩ hupload
      · rename_i hop
        exact absurd ⟨_, _, _, _, _, hop⟩ hreorder
      · trivial
    exact ⟨hmoved.inColumn hw, fun _ => hroom, fun _ => hmoved.fits hfits⟩

/-- Throughout a history of accepted operations, failed calls and all, the position of the next
    item is in range exactly when it is at the start and every operation leaves room. -/
theorem next_position_in_range_iff (rt : Runtime) (w : World) (turns : List Turn) (hw : InColumn w)
    (haccepted : Turn.Each rt (fun t w => t.accepted rt w = true) w turns) :
    (∀ w' ∈ Turn.worlds rt w turns, NextInRange w') ↔ NextInRange w ∧ Turn.Each rt (fun t w => LeavesRoom t.op w) w turns :=
  Turn.worlds_iff (I := InColumn) (P := NextInRange) (D := fun t w => t.accepted rt w = true)
    (C := fun t w => LeavesRoom t.op w) (fun _ _ hw hnext haccepted => (turn_room hw hnext haccepted).1)
    (fun _ _ hw hnext haccepted => (turn_room hw hnext haccepted).2) hw haccepted

/-! ## An album that is full at one item -/

/-- The sample album with the item `m`. -/
def oneItem : World :=
  { Sample.world with albums := .single Sample.album, media := .single (Sample.media "m") }

/-- Its item goes to the position asked for. -/
def moveTo (position : Int) : Turn := ⟨.reorderAlbum "a" (some "t") [("m", position)] "c" none, []⟩

def uploadOne : Turn := ⟨.upload (Sample.uploadTo (some "a")) Sample.firstDraws, []⟩

/-- The largest position there is, and no upload after it. -/
theorem reorder_to_the_last_position :
    inBigint (computedPosition "a" oneItem) = true ∧ (moveTo bigintMax).accepted Sample.runtime oneItem = true ∧
      ¬ inBigint (computedPosition "a" ((moveTo bigintMax).after Sample.runtime oneItem)) = true ∧
      uploadOne.result Sample.runtime ((moveTo bigintMax).after Sample.runtime oneItem) = .error outOfRange := by
  decide +kernel

/-- Two steps below it there is room for one upload, and another one after it. -/
theorem reorder_two_items_below :
    Turn.Each Sample.runtime (fun t w => t.accepted Sample.runtime w = true) oneItem [moveTo (bigintMax - 2000), uploadOne] ∧
      ∀ w' ∈ Turn.worlds Sample.runtime oneItem [moveTo (bigintMax - 2000), uploadOne], NextInRange w' := by
  have hcolumn : InColumn oneItem := by
    change ∀ m ∈ oneItem.media.rows, _
    decide
  have hfits : Fits oneItem := by
    change ∀ m ∈ oneItem.media.rows, _
    decide
  have haccepted : Turn.Each Sample.runtime (fun t w => t.accepted Sample.runtime w = true) oneItem
      [moveTo (bigintMax - 2000), uploadOne] := by decide +kernel
  exact ⟨haccepted, (next_position_in_range_iff Sample.runtime oneItem [moveTo (bigintMax - 2000), uploadOne] hcolumn
    haccepted).mpr ⟨(nextInRange_iff hcolumn).mpr hfits, by decide +kernel⟩⟩

end Imghost.Sequential.Room
