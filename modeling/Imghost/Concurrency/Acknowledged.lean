/-
  Imghost.Concurrency.Acknowledged — uploads that were acknowledged, beside deletions
  of other items.

  `delete_media` lists the album after it has deleted its own item and, when the list
  is empty, deletes the album, which takes every item with it. An item inserted after
  the list was read goes too. As long as an album is deleted only while it has no
  items, an acknowledged upload and its album stay.
-/

import Imghost.Service.Footprint

namespace Imghost.Concurrency.Acknowledged

open Imghost.Async Imghost.Data Imghost.Model Imghost.Service

variable {α : Type}

/-! ## What an operation has inserted -/

/-- The item an operation was asked to delete. -/
def deleted : Op → Option String
  | .deleteMedia mediaId _ _ _ => some mediaId
  | _ => none

/-- Uploads, and deletions of single items. -/
def UploadsOrDeletes : Op → Prop
  | .upload _ _ | .deleteMedia _ _ _ _ => True
  | _ => False

/-- The row a task has inserted; the only item it may delete by itself is `deletes`. -/
def inserting (deletes : Option String) : Protocol Reply PyExc (Option Media) where
  can _ r :=
    match r with
    | .deleteMedia mediaId => deletes = some mediaId
    | .deleteUser _ => False
    | _ => True
  next inserted e :=
    match e with
    | ⟨.insertMedia _, .ok m, _⟩ => some m
    | _ => inserted

variable {deletes : Option String}

theorem next_of_ne_insert {inserted : Option Media} {e : Call} (h : ∀ m, e.req ≠ .insertMedia m) :
    (inserting deletes).next inserted e = inserted := by
  obtain ⟨r, x, b⟩ := e
  cases r <;> first | rfl | exact absurd rfl (h _)

/-- Neither an insertion nor a deletion by key. -/
def Aside : Req → Prop
  | .insertMedia _ | .deleteMedia _ | .deleteUser _ => False
  | _ => True

theorem aside_of_reads (r : Req) (h : Req.reads r = true) : Aside r := by
  cases r <;> trivial

theorem can_of_aside {inserted : Option Media} {r : Req} (h : Aside r) : (inserting deletes).can inserted r := by
  cases r <;> trivial

theorem next_of_aside {inserted : Option Media} (e : Call) (h : Aside e.req) :
    (inserting deletes).next inserted e = inserted :=
  next_of_ne_insert fun m hm => by rw [hm] at h; exact h

theorem wp_aside {β : Type} {Q : Except PyExc β → Option Media → Prop} {p : Prog α} {f : α → Prog β}
    {inserted : Option Media} (hp : p.Uses Aside)
    (hok : ∀ a, wp ((inserting deletes).machine Honest) Q (f a) inserted) (herr : ∀ e, Q (.error e) inserted) :
    wp ((inserting deletes).machine Honest) Q (p >>= f) inserted :=
  Protocol.wp_pass (fun _ => can_of_aside) next_of_aside hp hok herr

theorem wp_asides {p : Prog α} {inserted : Option Media} (hp : p.Uses Aside) :
    wp ((inserting deletes).machine Honest) (fun _ _ => True) p inserted :=
  Protocol.wp_stay (fun _ => can_of_aside) next_of_aside hp fun _ => trivial

/-! ## An upload returns the row it inserted -/

theorem insertOrRollBack_inserts (m : Media) (inserted : Option Media) :
    wp ((inserting deletes).machine Honest)
      (fun x inserted => ∀ m', x = .ok m' → inserted = some m' ∧ m'.albumId = m.albumId) (insertOrRollBack m)
      inserted := by
  rw [insertOrRollBack, wp_tryExcept]
  have handler : ∀ e inserted, wp ((inserting deletes).machine Honest)
      (fun x inserted => ∀ m', x = .ok m' → inserted = some m' ∧ m'.albumId = m.albumId)
      (do deleteStorageKeyBestEffort m.storageKey; Program.raise e : Prog Media) inserted := fun e inserted =>
    wp_then_raise (wp_asides (deleteStorageKeyBestEffort_uses (fun _ => trivial) _)) fun _ _ _ h => nomatch h
  refine Protocol.wp_await trivial (fun _ _ _ => ?_) fun e _ _ => handler e _
  refine Protocol.wp_await trivial (fun _ _ _ => ?_) fun e _ _ => handler e _
  refine (wp_perform _).mpr ⟨trivial, ?_⟩
  rintro (e | m') _ ⟨b, hb, rfl⟩
  · exact handler e _
  · intro m'' h
    obtain rfl := Except.ok.inj h
    exact ⟨rfl, by rw [hb.insertMedia_eq]⟩

theorem createMedia_inserts (rt : Runtime) (albumId : String) (file : UploadFile) (payload : Bytes)
    (correlationId : String) (actor : CurrentActor) (draws : Draws) (inserted : Option Media) :
    wp ((inserting deletes).machine Honest)
      (fun x inserted => ∀ media, x = .ok media → ∃ m, inserted = some m ∧ m.id = media.id ∧ m.albumId = albumId)
      (createMedia rt albumId file payload correlationId actor draws) inserted := by
  refine wp_value (fun prepared _ => ?_) fun _ _ _ h => nomatch h
  obtain ⟨metadata, sanitized⟩ := prepared
  refine Protocol.wp_await trivial (fun _ _ _ => ?_) fun _ _ _ _ h => nomatch h
  refine Protocol.wp_await trivial (fun now _ _ => ?_) fun _ _ _ _ h => nomatch h
  refine wp_seq (insertOrRollBack_inserts _ _) (fun m inserted h => ?_) fun _ _ _ _ h => nomatch h
  obtain ⟨rfl, halbum⟩ := h m rfl
  refine Protocol.wp_await trivial (fun _ _ _ => ?_) fun _ _ _ _ h => nomatch h
  refine Protocol.wp_await trivial (fun refreshed _ hr => ?_) fun _ _ _ _ h => nomatch h
  intro media hm
  obtain rfl := Except.ok.inj hm
  refine ⟨m, rfl, ?_, halbum⟩
  cases refreshed with
  | none => rfl
  | some m' => exact hr.getMedia_id.symm

/-- The row an upload has inserted is the one it returns. -/
def Returns (result : UploadResult) (inserted : Option Media) : Prop :=
  ∃ m, inserted = some m ∧ m.id = result.media.id ∧ m.albumId = result.album.id

theorem upload_inserts (rt : Runtime) (input : UploadInput) (draws : Draws) (inserted : Option Media) :
    wp ((inserting deletes).machine Honest)
      (fun x inserted => ∀ result, x = .ok result → Returns result inserted)
      (upload rt input draws) inserted := by
  refine wp_aside (readBoundedUpload_uses (plain_of_reads aside_of_reads) _) (fun payload => ?_) fun _ _ h => nomatch h
  refine wp_check (fun _ _ h => nomatch h) fun _ => ?_
  refine wp_aside (enforceRateLimit_uses (plain_of_reads aside_of_reads) _ _ _) (fun _ => ?_) fun _ _ h => nomatch h
  refine wp_aside (enforceStorageQuotas_uses (plain_of_reads aside_of_reads) _ _) (fun _ => ?_) fun _ _ h => nomatch h
  refine wp_aside (getOrCreateAlbum_uses (plain_of_reads aside_of_reads) (fun _ => trivial) (fun _ => trivial) _ _ _ _ _ _)
    (fun album => ?_) fun _ _ h => nomatch h
  refine wp_seq (R := fun x inserted => ∀ media, x = .ok media →
      ∃ m, inserted = some m ∧ m.id = media.id ∧ m.albumId = album.id) ?_
    (fun media inserted h => ?_) fun _ _ _ _ h => nomatch h
  · rw [wp_tryExcept]
    have handler : ∀ e inserted, wp ((inserting deletes).machine Honest)
        (fun x inserted => ∀ media, x = .ok media → ∃ m, inserted = some m ∧ m.id = media.id ∧ m.albumId = album.id)
        (do cleanUpAlbum input.albumId.isNone album; Program.raise e : Prog Media) inserted := fun e inserted =>
      wp_then_raise (wp_asides (cleanUpAlbum_uses (itemReads_of_reads aside_of_reads) trivial _)) fun _ _ _ h => nomatch h
    refine Protocol.wp_await trivial (fun items _ _ => ?_) fun e _ _ => handler e _
    refine wp_check (fun _ => handler _ _) fun _ => wp_mono (fun x inserted h => ?_) (createMedia_inserts rt album.id _ _ _ _ _ _)
    cases x with
    | ok media => exact h
    | error e => exact handler e inserted
  · refine wp_aside (updateAlbumOr404_uses trivial) (fun _ => ?_) fun _ _ h => nomatch h
    intro result hr
    obtain rfl := Except.ok.inj hr
    obtain ⟨m, hm, hid, halbum⟩ := h media rfl
    exact ⟨m, hm, hid, halbum.trans (titled_id album input.title).symm⟩

/-- An upload that has ended has inserted the row it reports. -/
def Reports (x : Except PyExc OpResult) (inserted : Option Media) : Prop :=
  ∀ result, x = .ok (.uploaded result) → Returns result inserted

attribute [local irreducible] strip in
theorem program_inserts (rt : Runtime) {op : Op} (hop : UploadsOrDeletes op) :
    wp ((inserting (deleted op)).machine Honest) Reports (op.program rt) none := by
  cases op with
  | upload input draws =>
    refine wp_seq (upload_inserts rt input draws none) (fun result inserted h => ?_) fun _ _ _ _ h => nomatch h
    intro result' hr
    obtain rfl := OpResult.uploaded.inj (Except.ok.inj hr)
    exact h result rfl
  | deleteMedia mediaId deleteToken correlationId actorUser =>
    refine wp_seq (R := fun _ _ => True) (Protocol.wp_any (fun _ r hr => ?_)
      (@deleteMedia_uses (fun r => (inserting (some mediaId)).can none r) (fun r hr => ?_) mediaId rfl
        (fun _ => trivial) (fun _ => trivial) (fun _ => trivial) deleteToken correlationId actorUser) fun _ _ => trivial)
      (fun result _ _ _ h => nomatch h) fun _ _ _ _ h => nomatch h
    · exact hr
    · exact can_of_aside (aside_of_reads r hr)
  | _ => exact hop.elim

/-! ## The row and its album stay -/

/-- The item and its album are there. -/
def Kept (mediaId albumId : String) (w : World) : Prop :=
  (∃ m ∈ w.media, m.id = mediaId ∧ m.albumId = albumId) ∧ ∃ a ∈ w.albums, a.id = albumId

/-- The album whose row a call deletes. -/
def deletedAlbum : Req → Option String
  | .deleteAlbumRow albumId => some albumId
  | _ => none

/-- An album is deleted only while it has no items. -/
def EmptyWhenDeleted (p : Site) (_ : Nat) (r : Req) (_ : Option PyExc) : Prop :=
  ∀ albumId ∈ deletedAlbum r, p.world.mediaOf albumId = []

instance (p : Site) (i : Nat) (r : Req) (fault : Option PyExc) : Decidable (EmptyWhenDeleted p i r fault) :=
  Option.decidableForallMem (deletedAlbum r)

theorem kept_answer {mediaId albumId : String} {i : Nat} {r : Req} {fault : Option PyExc} {w : World}
    (hk : Kept mediaId albumId w) (hm : r ≠ .deleteMedia mediaId) (hu : ∀ u, r ≠ .deleteUser u)
    (hempty : ∀ a ∈ deletedAlbum r, w.mediaOf a = []) : Kept mediaId albumId (backend.answer i r fault w).2 := by
  obtain ⟨⟨m, hmem, hid, halbum⟩, a, ha, haid⟩ := hk
  by_cases hr : Req.deletesMedia r = false
  · have hra : Req.deletesAlbums r = false := by cases r <;> first | rfl | exact hr
    obtain ⟨m', hm', hsame⟩ : ∃ m' ∈ (backend.answer i r fault w).2.media, SameItem m m' := media_stays hr hmem
    obtain ⟨a', ha', hid'⟩ : ∃ a' ∈ (backend.answer i r fault w).2.albums, a'.id = a.id := album_stays hra ha
    exact ⟨⟨m', hm', hsame.id.trans hid, hsame.albumId.trans halbum⟩, a', ha', hid'.trans haid⟩
  rcases answer_cases i r fault w with he | ⟨e, -, he⟩
  swap
  · rw [he]; exact ⟨⟨m, hmem, hid, halbum⟩, a, ha, haid⟩
  rw [he]
  cases r <;> first | exact absurd rfl hr | skip
  case deleteMedia k =>
    have hne : m.id ≠ k := fun e => hm (by rw [← e, hid])
    exact ⟨⟨m, Table.mem_delete.mpr ⟨hmem, hne⟩, hid, halbum⟩, a, ha, haid⟩
  case deleteAlbumRow b =>
    have hne : albumId ≠ b := by
      rintro rfl
      have : m ∈ w.mediaOf albumId := List.mem_filter.mpr ⟨hmem, by rw [halbum]; exact beq_self_eq_true _⟩
      rw [hempty albumId rfl] at this
      cases this
    refine ⟨⟨m, mem_dropAlbums_media.mpr ⟨hmem, fun c _ hc => ?_⟩, hid, halbum⟩, a,
      mem_dropAlbums_albums.mpr ⟨ha, ?_⟩, haid⟩
    · rw [eq_of_beq hc, halbum]; exact Ne.symm hne
    · rw [haid]; exact beq_false_of_ne hne
  case deleteUser u => exact absurd rfl (hu u)

theorem kept_insert {i : Nat} {m m' : Media} {fault : Option PyExc} {w : World}
    (h : (backend.answer i (.insertMedia m') fault w).1 = .ok m) :
    Kept m.id m.albumId (backend.answer i (.insertMedia m') fault w).2 := by
  have he := exec_of_ok h
  rw [answer_of_ok h]
  simp only [exec, World.insertMedia] at he ⊢
  split at he
  · cases he
  rename_i hok
  rw [if_neg hok]
  rcases ht : w.media.insert m' with _ | t
  · rw [ht] at he; cases he
  rw [ht] at he
  obtain rfl := Except.ok.inj he
  refine ⟨⟨m', (Table.mem_insert ht).mpr (.inr rfl), rfl, rfl⟩, ?_⟩
  rcases ha : w.albums.find? m'.albumId with _ | a
  · rw [ha] at hok; exact absurd rfl hok
  · exact ⟨a, Table.find?_mem ha, Table.find?_key ha⟩

/-! ## Runs -/

/-- What holds of task `i` while it runs: the row it has inserted is kept. -/
def KeepsInserted (i : Nat) (mediaId : String) (p : Site) : Prop :=
  ∀ t m, p.tasks[i]? = some t → (inserting none).after none t.log = some m → m.id = mediaId →
    Kept mediaId m.albumId p.world

theorem keepsInserted_advance {i j : Nat} {mediaId : String} {p : Site} {t : Task Reply PyExc OpResult} {r : Req}
    {k : Except PyExc (Reply r) → Prog OpResult} {fault : Option PyExc} (hk : KeepsInserted i mediaId p)
    (ht : p.tasks[j]? = some t) (hm : r ≠ .deleteMedia mediaId) (hu : ∀ u, r ≠ .deleteUser u)
    (hempty : EmptyWhenDeleted p j r fault) : KeepsInserted i mediaId (p.advance backend j t r k fault) := by
  intro t' m ht' hins hid
  rcases Pool.advance_tasks ht' with ⟨rfl, rfl⟩ | ⟨-, ht'⟩
  · rw [Protocol.after_snoc] at hins
    by_cases hr : ∃ m', r = .insertMedia m'
    · obtain ⟨m', rfl⟩ := hr
      rcases hx : (backend.answer i (.insertMedia m') fault p.world).1 with e | m''
      · rw [hx] at hins
        exact kept_answer (hk t m ht hins hid) hm hu hempty
      · rw [hx] at hins
        obtain rfl := Option.some.inj hins
        rw [← hid]
        exact kept_insert hx
    · rw [next_of_ne_insert fun m' e => hr ⟨m', e⟩] at hins
      exact kept_answer (hk t m ht hins hid) hm hu hempty
  · exact kept_answer (hk t' m ht' hins hid) hm hu hempty

theorem follows_start (rt : Runtime) (w : World) {ops : List Op} (hops : ∀ op ∈ ops, UploadsOrDeletes op) :
    (Site.start rt w ops).Follows (fun i => inserting (ops[i]?.bind deleted)) Honest (fun _ => Reports) fun _ => none := by
  refine Site.start_follows fun i op hop => ?_
  rw [hop]
  exact program_inserts rt (hops op (List.mem_of_getElem? hop))

/-- In every run of uploads and deletions of single items in which albums are deleted only
    while they have no items: once an upload has returned, its item and its album are
    there as long as no operation deletes that very item. -/
theorem acknowledged_upload_stays (rt : Runtime) (w : World) (ops : List Op) (cs : List (Choice PyExc)) (i : Nat)
    (t : Task Reply PyExc OpResult) (result : UploadResult) (hops : ∀ op ∈ ops, UploadsOrDeletes op)
    (hempty : (Site.start rt w ops).Meets backend EmptyWhenDeleted cs)
    (ht : ((Site.start rt w ops).run backend cs).tasks[i]? = some t)
    (hreturned : t.rest.outcome = some (.ok (.uploaded result)))
    (hothers : ∀ op ∈ ops, deleted op ≠ some result.media.id) :
    Kept result.media.id result.album.id ((Site.start rt w ops).run backend cs).world := by
  have h := Pool.run_invariant (B := backend) (C := EmptyWhenDeleted)
    (I := fun p => KeepsInserted i result.media.id p ∧
      p.Follows (fun i => inserting (ops[i]?.bind deleted)) Honest (fun _ => Reports) fun _ => none)
    (fun p d h => h) (fun p j t r k fault h ht hr hc => ?_) ⟨fun t m ht hins => ?_, follows_start rt w hops⟩ hempty
  · obtain ⟨m, hins, hid, halbum⟩ := h.2.done ht hreturned result rfl
    rw [← halbum]
    exact h.1 t m ht hins hid
  · have hcan := h.2.can ht hr
    refine ⟨keepsInserted_advance h.1 ht ?_ ?_ hc, h.2.advance ht hr (honest_answer j r fault p.world)⟩
    · rintro rfl
      rcases hop : ops[j]? with _ | op
      · rw [hop] at hcan; cases hcan
      · rw [hop] at hcan
        exact hothers op (List.mem_of_getElem? hop) hcan
    · rintro u rfl
      exact hcan
  · -- nothing is inserted yet
    simp only [Site.start, Pool.start, List.getElem?_map, Option.map_eq_some_iff] at ht
    obtain ⟨q, -, rfl⟩ := ht
    cases hins

/-! ## The upload between the list and the deletion -/

/-- The sample album with the single item `m`. -/
def oneItem : World :=
  { Sample.world with
    albums := .single Sample.album
    media := .single (Sample.media "m") }

/-- The last item is deleted while another one is uploaded. -/
def lastItemAndUpload : List Op :=
  [.deleteMedia "m" (some "t") "c" none, .upload (Sample.uploadTo (some "a")) Sample.firstDraws]

/-- The deletion lists the album, the upload runs to its end, the deletion goes on. -/
def uploadAfterList : List (Choice PyExc) := Sample.calls 0 7 ++ Sample.calls 1 15 ++ Sample.calls 0 3

/-- The upload returns, and afterwards neither its item nor its album is there. -/
theorem an_upload_after_the_list_is_lost :
    (Site.start Sample.runtime oneItem lastItemAndUpload).Meets backend NoFaults uploadAfterList ∧
      ((Site.start Sample.runtime oneItem lastItemAndUpload).run backend uploadAfterList).finished = true ∧
      (((Site.start Sample.runtime oneItem lastItemAndUpload).run backend uploadAfterList).tasks[1]?.bind
        (·.rest.value)).isSome = true ∧
      ((Site.start Sample.runtime oneItem lastItemAndUpload).run backend uploadAfterList).world.media.rows = [] ∧
      ((Site.start Sample.runtime oneItem lastItemAndUpload).run backend uploadAfterList).world.albums.rows = [] := by
  decide +kernel

/-- The upload first, the deletion after it. -/
def uploadFirst : List (Choice PyExc) := Sample.calls 1 15 ++ Sample.calls 0 10

theorem an_upload_before_the_deletion_stays :
    ∃ t result, ((Site.start Sample.runtime oneItem lastItemAndUpload).run backend uploadFirst).tasks[1]? = some t ∧
      t.rest.outcome = some (.ok (.uploaded result)) ∧
      Kept result.media.id result.album.id
        ((Site.start Sample.runtime oneItem lastItemAndUpload).run backend uploadFirst).world := by
  refine ⟨_, _, rfl, rfl, acknowledged_upload_stays Sample.runtime oneItem lastItemAndUpload uploadFirst 1 _ _ ?_ ?_ rfl
    rfl ?_⟩
  · intro op hop
    simp only [lastItemAndUpload, List.mem_cons, List.not_mem_nil, or_false] at hop
    rcases hop with rfl | rfl <;> trivial
  · decide +kernel
  · intro op hop
    simp only [lastItemAndUpload, List.mem_cons, List.not_mem_nil, or_false] at hop
    rcases hop with rfl | rfl <;> decide +kernel

end Imghost.Concurrency.Acknowledged
