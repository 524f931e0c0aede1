/-
  Imghost.Accounting.DryRun — the prune and its rehearsal.

  A dry run goes through the same loop and counts what the real run counts, since an
  album that goes takes no item of the others along.

  - `dry_run_predicts`: the dry run leaves everything as it is, whatever fails; the real run,
    from the same moment and undisturbed, returns what the dry run has returned, and has
    removed the expired albums, their items and the objects of these, and nothing else.
-/

import Imghost.Accounting.Books

namespace Imghost.Accounting

open Imghost.Async Imghost.Data Imghost.Model Imghost.Service Program

/-! ## What is removed -/

/-- These albums are gone, with their items, and these objects; the clock, the audit log and
    the configuration are as they were. -/
structure Removed (albumIds keys : List String) (w w' : World) : Prop where
  albums : w'.albums.rows = w.albums.rows.filter (!albumIds.contains ·.id)
  media : w'.media.rows = w.media.rows.filter (!albumIds.contains ·.albumId)
  objects : ∀ key, w'.objects key = if key ∈ keys then none else w.objects key
  users : w'.users = w.users
  config : w'.config = w.config
  auditLog : w'.auditLog = w.auditLog
  clock : w'.clock = w.clock

variable {w w₁ w₂ w' : World} {albumIds albumIds' keys keys' : List String}

theorem Removed.refl (w : World) : Removed [] [] w w := by
  refine ⟨?_, ?_, fun key => by simp, rfl, rfl, rfl, rfl⟩
  · exact (List.filter_eq_self.mpr fun _ _ => rfl).symm
  · exact (List.filter_eq_self.mpr fun _ _ => rfl).symm

theorem Removed.append (h : Removed albumIds keys w w₁) (h' : Removed albumIds' keys' w₁ w₂) :
    Removed (albumIds ++ albumIds') (keys ++ keys') w w₂ := by
  refine ⟨?_, ?_, fun key => ?_, h'.users.trans h.users, h'.config.trans h.config, h'.auditLog.trans h.auditLog,
    h'.clock.trans h.clock⟩
  · rw [h'.albums, h.albums, List.filter_filter]
    refine List.filter_congr fun a _ => ?_
    simp [Bool.and_comm]
  · rw [h'.media, h.media, List.filter_filter]
    refine List.filter_congr fun m _ => ?_
    simp [Bool.and_comm]
  · rw [h'.objects, h.objects]
    by_cases hkey : key ∈ keys
    · simp [hkey]
    · simp [hkey]

/-- The other albums keep their items. -/
theorem Removed.listAlbumMedia (h : Removed albumIds keys w w') {albumId : String} (hother : albumId ∉ albumIds) :
    w'.listAlbumMedia albumId = w.listAlbumMedia albumId := by
  rw [World.listAlbumMedia, World.mediaOf, h.media, List.filter_filter]
  refine congrArg _ (List.filter_congr fun m _ => ?_)
  by_cases hm : m.albumId = albumId
  · simp [hm, hother]
  · simp [hm]

theorem Removed.find? (h : Removed albumIds keys w w') {albumId : String} (hother : albumId ∉ albumIds) :
    w'.albums.find? albumId = w.albums.find? albumId := by
  refine Option.ext fun a => ?_
  rw [Table.find?_eq_some, Table.find?_eq_some, Table.mem_def, Table.mem_def, h.albums, List.mem_filter]
  constructor
  · exact fun ha => ⟨ha.1.1, ha.2⟩
  · intro ⟨ha, hid⟩
    subst hid
    exact ⟨⟨ha, by simpa using hother⟩, rfl⟩

/-! ## One turn of each run -/

/-- The tally with the album in it. -/
def counted (w : World) (tally : PruneTally) (album : Album) : PruneTally :=
  { albumIds := tally.albumIds ++ [album.id], itemCount := tally.itemCount + (w.listAlbumMedia album.id).length,
    bytesFreed := tally.bytesFreed + storageBytesForMedia (w.listAlbumMedia album.id) }

theorem quiet_pruneAlbum_dry (w : World) (tally : PruneTally) (album : Album) :
    runAlone backend (pruneAlbum true tally album) [] w = (.ok (counted w tally album), w) := by
  have hlist : exec 0 (.listAlbumMedia album.id) w = (.ok (w.listAlbumMedia album.id), w) := rfl
  rw [pruneAlbum, quiet_ask, hlist]
  rfl

/-- All keys are deleted. -/
def eraseKeys (w : World) (keys : List String) : World := keys.foldl World.storageDelete w

theorem eraseKeys_removed (w : World) (keys : List String) : Removed [] keys w (eraseKeys w keys) := by
  induction keys generalizing w with
  | nil => exact Removed.refl w
  | cons key keys ih =>
    have hone : Removed [] [key] w (w.storageDelete key) := by
      refine ⟨(List.filter_eq_self.mpr fun _ _ => rfl).symm, (List.filter_eq_self.mpr fun _ _ => rfl).symm, fun k => ?_,
        rfl, rfl, rfl, rfl⟩
      simp [World.storageDelete]
    exact hone.append (ih _)

theorem quiet_deleteKeys_prune (w : World) (keys : List String) {α : Type} (f : Bool → Prog α) :
    runAlone backend (deleteKeys keys >>= f) [] w = runAlone backend (f true) [] (eraseKeys w keys) := by
  induction keys generalizing w with
  | nil => rfl
  | cons key keys ih =>
    have hdelete : exec 0 (.storageDelete key) w = (.ok (), w.storageDelete key) := rfl
    rw [deleteKeys, sequence_assoc, quiet_attempt, hdelete]
    exact ih _

theorem deleteAlbumRow_removed {album : Album} (h : w.albums.find? album.id = some album) :
    Removed [album.id] [] w (w.deleteAlbumRow album.id).2 := by
  refine ⟨?_, ?_, fun key => by rfl, rfl, rfl, rfl, rfl⟩
  · refine List.filter_congr fun a _ => ?_
    rw [Bool.eq_iff_iff]
    simp
  · refine List.filter_congr fun m _ => ?_
    dsimp only
    rw [gone_contains h, Bool.eq_iff_iff]
    simp

theorem quiet_pruneAlbum_real (tally : PruneTally) {album : Album} (h : w.albums.find? album.id = some album) :
    ∃ w', runAlone backend (pruneAlbum false tally album) [] w = (.ok (counted w tally album), w') ∧
      Removed [album.id] (storageKeysForMedia (w.listAlbumMedia album.id)) w w' := by
  have hlist : exec 0 (.listAlbumMedia album.id) w = (.ok (w.listAlbumMedia album.id), w) := rfl
  have hkeys := eraseKeys_removed w (storageKeysForMedia (w.listAlbumMedia album.id))
  have hfind := (hkeys.find? List.not_mem_nil).trans h
  have hremoved := hkeys.append (deleteAlbumRow_removed hfind)
  rw [List.nil_append, List.append_nil] at hremoved
  have hsent : ∀ w₁ : World, Removed [album.id] (storageKeysForMedia (w.listAlbumMedia album.id)) w w₁ → ∀ event,
      Removed [album.id] (storageKeysForMedia (w.listAlbumMedia album.id)) w { w₁ with events := w₁.events ++ [event] } :=
    fun w₁ hw₁ _ => ⟨hw₁.albums, hw₁.media, hw₁.objects, hw₁.users, hw₁.config, hw₁.auditLog, hw₁.clock⟩
  rw [pruneAlbum, quiet_ask, hlist]
  dsimp only
  rw [if_neg (by simp), quiet_deleteKeys_prune, if_pos rfl, pruneRows, sequence_assoc, quiet_deleteAlbum hfind]
  dsimp only
  rw [quiet_emit]
  exact ⟨_, rfl, hsent _ hremoved _⟩

/-! ## The loops -/

theorem quiet_loop_dry (w : World) (albums : List Album) (tally : PruneTally) :
    runAlone backend (foldEach albums tally (pruneAlbum true)) [] w = (.ok (albums.foldl (counted w) tally), w) := by
  induction albums generalizing tally with
  | nil => rfl
  | cons album albums ih =>
    show runAlone backend (pruneAlbum true tally album >>= fun tally => foldEach albums tally (pruneAlbum true)) [] w = _
    rw [runAlone_bind, quiet_pruneAlbum_dry]
    exact ih _

/-- What the loop finds of an album is what stood there before the loop. -/
theorem quiet_loop_real {albums : List Album} (tally : PruneTally) (hids : (albums.map (·.id)).Nodup)
    (hfind : ∀ album ∈ albums, w.albums.find? album.id = some album) :
    ∃ w', runAlone backend (foldEach albums tally (pruneAlbum false)) [] w = (.ok (albums.foldl (counted w) tally), w') ∧
      Removed (albums.map (·.id)) (albums.flatMap fun album => storageKeysForMedia (w.listAlbumMedia album.id)) w w' := by
  induction albums generalizing w tally with
  | nil => exact ⟨w, rfl, Removed.refl w⟩
  | cons album albums ih =>
    obtain ⟨hnot, hids⟩ := List.nodup_cons.mp hids
    obtain ⟨w₁, hrun, hremoved⟩ := quiet_pruneAlbum_real (w := w) tally (hfind album List.mem_cons_self)
    have hother : ∀ other ∈ albums, other.id ∉ [album.id] := by
      intro other hmem hid
      rw [List.mem_singleton] at hid
      exact hnot (List.mem_map.mpr ⟨other, hmem, hid⟩)
    have hrest : ∀ other ∈ albums, w₁.albums.find? other.id = some other := by
      intro other hmem
      rw [hremoved.find? (hother other hmem)]
      exact hfind other (List.mem_cons_of_mem album hmem)
    have hitems : ∀ other ∈ albums, w₁.listAlbumMedia other.id = w.listAlbumMedia other.id :=
      fun other hmem => hremoved.listAlbumMedia (hother other hmem)
    obtain ⟨w', hrun', hremoved'⟩ := ih (counted w tally album) hids hrest
    refine ⟨w', ?_, ?_⟩
    · show runAlone backend (pruneAlbum false tally album >>= fun tally => foldEach albums tally (pruneAlbum false)) [] w = _
      rw [runAlone_bind, hrun]
      refine hrun'.trans ?_
      rw [List.foldl_cons, List.foldl_ext (counted w₁) (counted w) _ fun tally other hmem => by
        rw [counted, counted, hitems other hmem]]
    · have hkeys : (albums.flatMap fun album => storageKeysForMedia (w₁.listAlbumMedia album.id)) =
          albums.flatMap fun album => storageKeysForMedia (w.listAlbumMedia album.id) := by
        rw [List.flatMap_def, List.flatMap_def]
        exact congrArg _ (List.map_congr_left fun other hmem => by rw [hitems other hmem])
      rw [hkeys] at hremoved'
      exact hremoved.append hremoved'

/-! ## What follows the loops -/

/-- The audit events that are too old, where the date can be computed. -/
def auditCount (rt : Runtime) (w : World) : Except PyExc Nat :=
  if rt.telemetry then (subDays w.clock rt.auditRetentionDays).map fun before => w.auditLog.countP (· < before)
  else .ok 0

theorem auditCount_error {rt : Runtime} {e : PyExc} (h : auditCount rt w = .error e) :
    rt.telemetry = true ∧ subDays w.clock rt.auditRetentionDays = .error e := by
  unfold auditCount at h
  split at h
  · rename_i htelemetry
    refine ⟨htelemetry, ?_⟩
    cases hdate : subDays w.clock rt.auditRetentionDays with
    | error e' =>
      rw [hdate] at h
      exact congrArg _ (Except.error.inj h)
    | ok before =>
      rw [hdate] at h
      cases h
  · cases h

theorem quiet_pruneAuditLog (rt : Runtime) (dryRun : Bool) (w : World) :
    ∃ w', runAlone backend (pruneAuditLog rt dryRun) [] w = (auditCount rt w, w') ∧ Same w w' ∧ (dryRun = true → w' = w) := by
  unfold pruneAuditLog auditCount
  by_cases htelemetry : rt.telemetry = true
  · have hnow : exec 0 .utcnow w = (.ok w.clock, w) := rfl
    rw [if_pos htelemetry, if_pos htelemetry, quiet_ask, hnow]
    dsimp only
    rw [runAlone_value]
    cases subDays w.clock rt.auditRetentionDays with
    | error e => exact ⟨w, rfl, Same.refl w, fun _ => rfl⟩
    | ok before =>
      dsimp only
      cases dryRun with
      | true =>
        rw [if_pos rfl, runAlone_perform, elapse_zero]
        exact ⟨w, rfl, Same.refl w, fun _ => rfl⟩
      | false =>
        rw [if_neg (by simp), runAlone_perform, elapse_zero]
        exact ⟨_, rfl, ⟨rfl, rfl, rfl, rfl, rfl, Int.le_refl _⟩, nofun⟩
  · rw [if_neg htelemetry, if_neg htelemetry]
    exact ⟨w, rfl, Same.refl w, fun _ => rfl⟩

theorem quiet_pruneCapabilities (now : DateTime) (w : World) :
    ∃ w', runAlone backend (pruneCapabilities false now) [] w =
        ((subDays now sharexDeleteRetentionDays).map fun _ => (), w') ∧ Same w w' := by
  have hexpired : exec 0 (.deleteExpiredSharexDeleteCapabilities now) w =
      (.ok (w.deleteCapabilities (·.expiresAt ≤ now)).1, (w.deleteCapabilities (·.expiresAt ≤ now)).2) := rfl
  have hrevoked : ∀ before w, exec 0 (.deleteRevokedSharexDeleteCapabilitiesOlderThan before) w =
      (.ok (w.deleteCapabilities (·.revokedAt.any (· ≤ before))).1,
        (w.deleteCapabilities (·.revokedAt.any (· ≤ before))).2) := fun _ _ => rfl
  have hconsumed : ∀ before w, exec 0 (.deleteConsumedSharexDeleteCapabilitiesOlderThan before) w =
      (.ok (w.deleteCapabilities (·.consumedAt.any (· ≤ before))).1,
        (w.deleteCapabilities (·.consumedAt.any (· ≤ before))).2) := fun _ _ => rfl
  rw [pruneCapabilities, if_neg (by simp), quiet_ask, hexpired]
  dsimp only
  rw [runAlone_value]
  cases hdate : subDays now sharexDeleteRetentionDays with
  | error e => exact ⟨_, rfl, ⟨rfl, rfl, rfl, rfl, rfl, Int.le_refl _⟩⟩
  | ok before =>
    dsimp only
    rw [quiet_ask, hrevoked]
    dsimp only
    rw [runAlone_value]
    dsimp only
    rw [quiet_ask, hconsumed]
    exact ⟨_, rfl, ⟨rfl, rfl, rfl, rfl, rfl, Int.le_refl _⟩⟩

/-! ## The whole -/

/-- What the loop counts of the expired albums. -/
def expiredTally (w : World) : PruneTally := (w.listExpiredAlbums w.clock).foldl (counted w) ⟨[], 0, 0⟩

theorem listExpiredAlbums_perm (w : World) (now : DateTime) :
    (w.listExpiredAlbums now).Perm (w.albums.rows.filter (isExpired now ·.expiresAt)) := List.perm_insertionSort _ _

theorem mem_listExpiredAlbums {now : DateTime} {album : Album} :
    album ∈ w.listExpiredAlbums now ↔ album ∈ w.albums ∧ isExpired now album.expiresAt = true :=
  (listExpiredAlbums_perm w now).mem_iff.trans List.mem_filter

theorem listExpiredAlbums_nodup (w : World) (now : DateTime) : ((w.listExpiredAlbums now).map (·.id)).Nodup :=
  ((listExpiredAlbums_perm w now).map _).nodup_iff.mpr (w.albums.unique.sublist (List.filter_sublist.map _))

theorem quiet_dry (rt : Runtime) (w : World) :
    runAlone backend (pruneExpiredAlbums rt true) [] w =
      ((auditCount rt w).map fun auditEventCount =>
        { dryRun := true, albumIds := (expiredTally w).albumIds, itemCount := (expiredTally w).itemCount,
          bytesFreed := (expiredTally w).bytesFreed, auditEventCount := auditEventCount }, w) := by
  have hnow : exec 0 .utcnow w = (.ok w.clock, w) := rfl
  have hexpired : exec 0 (.listExpiredAlbums w.clock) w = (.ok (w.listExpiredAlbums w.clock), w) := rfl
  obtain ⟨w', haudit, -, hsame⟩ := quiet_pruneAuditLog rt true w
  rw [pruneExpiredAlbums, quiet_ask, hnow]
  dsimp only
  rw [quiet_ask, hexpired]
  dsimp only
  rw [runAlone_bind, quiet_loop_dry]
  dsimp only
  rw [runAlone_bind, haudit, hsame rfl]
  cases auditCount rt w <;> rfl

theorem quiet_real (rt : Runtime) (w : World) :
    ∃ w' w'', runAlone backend (pruneExpiredAlbums rt false) [] w =
      ((do
        let auditEventCount ← auditCount rt w
        let _ ← subDays w.clock sharexDeleteRetentionDays
        return { dryRun := false, albumIds := (expiredTally w).albumIds, itemCount := (expiredTally w).itemCount,
                 bytesFreed := (expiredTally w).bytesFreed, auditEventCount := auditEventCount }), w'') ∧
      Removed ((w.listExpiredAlbums w.clock).map (·.id))
        ((w.listExpiredAlbums w.clock).flatMap fun album => storageKeysForMedia (w.listAlbumMedia album.id)) w w' ∧
      Same w' w'' := by
  have hnow : exec 0 .utcnow w = (.ok w.clock, w) := rfl
  have hexpired : exec 0 (.listExpiredAlbums w.clock) w = (.ok (w.listExpiredAlbums w.clock), w) := rfl
  obtain ⟨w₁, hloop, hremoved⟩ := quiet_loop_real ⟨[], 0, 0⟩ (listExpiredAlbums_nodup w w.clock) fun album hmem =>
    Table.find?_self (mem_listExpiredAlbums.mp hmem).1
  obtain ⟨w₂, haudit, hsame, -⟩ := quiet_pruneAuditLog rt false w₁
  obtain ⟨w₃, hcapabilities, hsame'⟩ := quiet_pruneCapabilities w.clock w₂
  have hcount : auditCount rt w₁ = auditCount rt w := by rw [auditCount, hremoved.clock, hremoved.auditLog]; rfl
  rw [pruneExpiredAlbums, quiet_ask, hnow]
  dsimp only
  rw [quiet_ask, hexpired]
  dsimp only
  rw [runAlone_bind, hloop]
  dsimp only
  rw [runAlone_bind, haudit, hcount]
  cases auditCount rt w with
  | error e => exact ⟨w₁, w₂, rfl, hremoved, hsame⟩
  | ok auditEventCount =>
    dsimp only
    rw [runAlone_bind, hcapabilities]
    refine ⟨w₁, w₃, ?_, hremoved, hsame.trans hsame'⟩
    cases subDays w.clock sharexDeleteRetentionDays <;> rfl

/-- The item's album has expired. -/
def ofExpired (w : World) (m : Media) : Bool := w.albums.rows.any fun a => a.id == m.albumId && isExpired w.clock a.expiresAt

/-- The expired albums are gone with their items and the objects of these; the other albums,
    items and objects are there as they were. -/
structure Pruned (w w' : World) : Prop where
  albums : w'.albums.rows = w.albums.rows.filter fun a => !isExpired w.clock a.expiresAt
  media : w'.media.rows = w.media.rows.filter fun m => !ofExpired w m
  gone : ∀ m ∈ w.media, ofExpired w m = true → ∀ key ∈ keysOf m, w'.objects key = none
  kept : ∀ key, (∀ m ∈ w.media, ofExpired w m = true → key ∉ keysOf m) → w'.objects key = w.objects key
  users : w'.users = w.users
  config : w'.config = w.config

theorem contains_listExpired {w : World} (id : String) :
    ((w.listExpiredAlbums w.clock).map (·.id)).contains id = true ↔
      ∃ a ∈ w.albums, a.id = id ∧ isExpired w.clock a.expiresAt = true := by
  rw [List.contains_iff_mem, List.mem_map]
  constructor
  · intro ⟨a, ha, hid⟩
    exact ⟨a, (mem_listExpiredAlbums.mp ha).1, hid, (mem_listExpiredAlbums.mp ha).2⟩
  · intro ⟨a, ha, hid, hexpired⟩
    exact ⟨a, mem_listExpiredAlbums.mpr ⟨ha, hexpired⟩, hid⟩

theorem contains_iff_ofExpired {w : World} (m : Media) :
    ((w.listExpiredAlbums w.clock).map (·.id)).contains m.albumId = ofExpired w m := by
  rw [Bool.eq_iff_iff, contains_listExpired, ofExpired, List.any_eq_true]
  simp [Table.mem_def]

theorem contains_iff_expired {w : World} {a : Album} (ha : a ∈ w.albums) :
    ((w.listExpiredAlbums w.clock).map (·.id)).contains a.id = isExpired w.clock a.expiresAt := by
  rw [Bool.eq_iff_iff, contains_listExpired]
  constructor
  · intro ⟨b, hb, hid, hexpired⟩
    rwa [Table.eq_of_key hb ha hid] at hexpired
  · exact fun hexpired => ⟨a, ha, rfl, hexpired⟩

/-- The keys of the loop are those of the items that go. -/
theorem mem_prunedKeys {w : World} {key : String} :
    (key ∈ (w.listExpiredAlbums w.clock).flatMap fun album => storageKeysForMedia (w.listAlbumMedia album.id)) ↔
      ∃ m ∈ w.media, ofExpired w m = true ∧ key ∈ keysOf m := by
  simp only [List.mem_flatMap, mem_storageKeysForMedia]
  constructor
  · intro ⟨album, halbum, m, hm, hkey⟩
    have hrow := List.mem_filter.mp ((listAlbumMedia_perm w album.id).mem_iff.mp hm)
    refine ⟨m, hrow.1, ?_, hkey⟩
    rw [← contains_iff_ofExpired, contains_listExpired]
    exact ⟨album, (mem_listExpiredAlbums.mp halbum).1, (by simpa using hrow.2 : m.albumId = album.id).symm,
      (mem_listExpiredAlbums.mp halbum).2⟩
  · intro ⟨m, hm, hexpired, hkey⟩
    rw [← contains_iff_ofExpired, contains_listExpired] at hexpired
    obtain ⟨album, halbum, hid, hexpired⟩ := hexpired
    refine ⟨album, mem_listExpiredAlbums.mpr ⟨halbum, hexpired⟩, m, ?_, hkey⟩
    exact (listAlbumMedia_perm w album.id).mem_iff.mpr (List.mem_filter.mpr ⟨hm, by simp [hid]⟩)

theorem Pruned.of_removed {w w' w'' : World}
    (h : Removed ((w.listExpiredAlbums w.clock).map (·.id))
      ((w.listExpiredAlbums w.clock).flatMap fun album => storageKeysForMedia (w.listAlbumMedia album.id)) w w')
    (h' : Same w' w'') : Pruned w w'' := by
  refine ⟨?_, ?_, fun m hm hexpired key hkey => ?_, fun key hkey => ?_, h'.users.trans h.users, h'.config.trans h.config⟩
  · rw [h'.albums, h.albums]
    exact List.filter_congr fun a ha => by rw [contains_iff_expired ha]
  · rw [h'.media, h.media]
    exact List.filter_congr fun m _ => by rw [contains_iff_ofExpired]
  · rw [h'.objects, h.objects, if_pos (mem_prunedKeys.mpr ⟨m, hm, hexpired, hkey⟩)]
  · have hnot : ¬ ∃ m ∈ w.media, ofExpired w m = true ∧ key ∈ keysOf m := fun ⟨m, hm, hexpired, hmem⟩ => hkey m hm hexpired hmem
    rw [h'.objects, h.objects, if_neg (mem_prunedKeys.not.mpr hnot)]

/-- A call of the dry run. -/
def Looks : Req → Prop
  | .utcnow | .listExpiredAlbums _ | .listAlbumMedia _ | .countAuditEventsOlderThan _ => True
  | _ => False

theorem Looks.unchanged {r : Req} (h : Looks r) {d : Nat} {fault : Option PyExc} (hw : Unchanged w w') :
    Unchanged w (backend.answer 0 r fault (backend.elapse d w')).2 := by
  obtain ⟨clock, albumLocks, rfl⟩ := hw
  rcases answer_cases 0 r fault (backend.elapse d { w with clock := clock, albumLocks := albumLocks }) with hanswer | ⟨e, -, hanswer⟩
  · rw [hanswer]
    cases r <;> first | exact ⟨_, _, rfl⟩ | exact h.elim
  · rw [hanswer]
    exact ⟨_, _, rfl⟩

theorem dry_unchanged (rt : Runtime) (w : World) (ms : List (Moment PyExc)) :
    Unchanged w (runAlone backend (pruneExpiredAlbums rt true) ms w).2 := by
  have hlooks : (pruneExpiredAlbums rt true).Uses Looks := by
    refine uses_bind (uses_perform trivial) fun now => uses_bind (uses_perform trivial) fun expired =>
      uses_bind (uses_foldEach (fun tally album _ => ?_) _) fun tally => uses_bind ?_ fun _ => uses_bind trivial fun _ => trivial
    · exact uses_bind (uses_perform trivial) fun items => trivial
    · unfold pruneAuditLog
      split
      · exact uses_bind (uses_perform trivial) fun _ => uses_bind (uses_ofExcept _) fun _ => uses_perform trivial
      · trivial
  refine wp_alone (C := fun _ _ _ => True) (Q := fun _ w' => Unchanged w w') ?_ ms (meetsAlone_true _ _ _)
  refine wp_of_uses (I := Unchanged w) (fun r w₁ hr hw₁ => ⟨trivial, ?_⟩) hlooks ⟨w.clock, w.albumLocks, rfl⟩ fun _ _ h => h
  rintro x w' ⟨d, fault, -, hanswer⟩
  have := @Looks.unchanged _ _ _ hr d fault hw₁
  rwa [hanswer] at this

/-- What the dry run and the real run make of a world. -/
structure DryRunPredicts (rt : Runtime) (w : World) : Prop where
  unchanged : ∀ ms, Unchanged w (runAlone backend (pruneExpiredAlbums rt true) ms w).2
  same : ∀ result, (runAlone backend (pruneExpiredAlbums rt false) [] w).1 = .ok result →
    result.dryRun = false ∧ (runAlone backend (pruneExpiredAlbums rt true) [] w).1 = .ok { result with dryRun := true }
  returns : ∀ e, (runAlone backend (pruneExpiredAlbums rt false) [] w).1 = .error e →
    (rt.telemetry = true ∧ subDays w.clock rt.auditRetentionDays = .error e) ∨
      subDays w.clock sharexDeleteRetentionDays = .error e
  pruned : Pruned w (runAlone backend (pruneExpiredAlbums rt false) [] w).2

theorem dry_run_predicts (rt : Runtime) (w : World) : DryRunPredicts rt w := by
  obtain ⟨w', w'', hreal, hremoved, hsame⟩ := quiet_real rt w
  have hdry := quiet_dry rt w
  refine ⟨dry_unchanged rt w, fun result hresult => ?_, fun e herror => ?_, ?_⟩
  · rw [hreal] at hresult
    rw [hdry]
    cases hcount : auditCount rt w with
    | error e =>
      rw [hcount] at hresult
      cases hresult
    | ok auditEventCount =>
      rw [hcount] at hresult
      cases hdate : subDays w.clock sharexDeleteRetentionDays with
      | error e =>
        rw [hdate] at hresult
        cases hresult
      | ok before =>
        rw [hdate] at hresult
        obtain rfl := Except.ok.inj hresult
        exact ⟨rfl, rfl⟩
  · rw [hreal] at herror
    cases hcount : auditCount rt w with
    | error e' =>
      rw [hcount] at herror
      obtain rfl : e' = e := Except.error.inj herror
      exact .inl (auditCount_error hcount)
    | ok auditEventCount =>
      rw [hcount] at herror
      cases hdate : subDays w.clock sharexDeleteRetentionDays with
      | error e' =>
        rw [hdate] at herror
        obtain rfl : e' = e := Except.error.inj herror
        exact .inr rfl
      | ok before =>
        rw [hdate] at herror
        cases herror
  · rw [hreal]
    exact Pruned.of_removed hremoved hsame

end Imghost.Accounting
