/-
  Imghost.Accounting.Usage — the storage used, counted four times.

  `list_users_with_usage` fills three dictionaries in two loops, `summarize_users` lets
  the database group the rows, `get_user_storage_stats_for_admin` lists one user's rows,
  the quota check filters all rows. Each is a function of the rows it reads, which are
  those of one moment.

  - All four give `usageOf`: the accounted bytes and the rows of each owner; with the
    anonymous rows they make up the total (`accounting_agrees`).
  - The query alone has a limit: it fails where a count leaves INT or a sum BIGINT
    (`summarizeUsers_ok_iff`), while the loops go on counting (`a_sum_beyond_bigint`).
-/

import Imghost.Accounting.Quotas
import Imghost.Data.Counts

namespace Imghost.Accounting

open Imghost.Data Imghost.Model Imghost.Service

/-! ## The rows -/

/-- `SELECT … FROM users … ORDER BY users.created_at`. -/
def listUsers (w : World) : List User := w.users.rows.insertionSort fun a b => a.createdAt ≤ b.createdAt

/-- `SELECT * FROM albums ORDER BY created_at`. -/
def listAlbums (w : World) : List Album := w.albums.rows.insertionSort fun a b => a.createdAt ≤ b.createdAt

/-- `album_count`, `media_count`, `storage_used_bytes`. -/
structure Usage where
  albumCount : Nat
  mediaCount : Nat
  storageUsedBytes : Nat
  deriving DecidableEq, Repr

/-! ## list_users_with_usage -/

def countAlbum (albumCountByUser : Dict String Nat) (album : Album) : Dict String Nat :=
  match album.userId with
  | none => albumCountByUser
  | some userId => albumCountByUser.add userId 1

/-- One turn of the loop over the media: `usage_by_user` … -/
def addUsage (usageByUser : Dict String Nat) (media : Media) : Dict String Nat :=
  match media.userId with
  | none => usageByUser
  | some userId =>
    let usageByUser := usageByUser.add userId media.fileSize
    if truthy media.thumbKey && media.thumbKey != some media.storageKey then
      usageByUser.add userId (media.thumbSize.getD 0)
    else usageByUser

/-- … and `count_by_user`. -/
def countMedia (countByUser : Dict String Nat) (media : Media) : Dict String Nat :=
  match media.userId with
  | none => countByUser
  | some userId => countByUser.add userId 1

/-- An item of the list; the columns it copies are those of `user`. -/
structure UserUsage where
  user : User
  quotaBytes : Int
  usage : Usage
  quota : QuotaMetrics
  deriving DecidableEq, Repr

def listUsersWithUsage (w : World) : List UserUsage :=
  let albumCountByUser := (listAlbums w).foldl countAlbum ∅
  let usageByUser := w.listAllMedia.foldl addUsage ∅
  let countByUser := w.listAllMedia.foldl countMedia ∅
  (listUsers w).map fun user =>
    let quotaBytes := effectiveQuota user (w.config .defaultUserQuotaBytes)
    let storageUsedBytes := usageByUser.count user.id
    { user := user
      quotaBytes := quotaBytes
      usage :=
        { albumCount := albumCountByUser.count user.id
          mediaCount := countByUser.count user.id
          storageUsedBytes := storageUsedBytes }
      quota := quotaMetrics storageUsedBytes (some quotaBytes) }

/-! ## summarize_users -/

/-- The owners among `user_ids` that have a row: the groups of the query. -/
def owners {α : Type} (owner : α → Option String) (userIds : List String) (rows : List α) : List String :=
  ((rows.filterMap owner).filter (userIds.contains ·)).dedup

/-- `COUNT(*)::int` of the albums of each owner. -/
def albumRows (w : World) (userIds : List String) : Except PyExc (List (String × Nat)) :=
  let rows (userId : String) := group Album.userId (some userId) w.albums.rows
  let groups := owners Album.userId userIds w.albums.rows
  if groups.all fun userId => inInt (rows userId).length then
    .ok (groups.map fun userId => (userId, (rows userId).length))
  else .error outOfRange

/-- `file_size + CASE WHEN thumb_key IS NOT NULL AND thumb_key <> storage_key
    THEN COALESCE(thumb_size, 0) ELSE 0 END`. -/
def rowBytes (media : Media) : Nat :=
  media.fileSize +
    match media.thumbKey with
    | some thumbKey => if thumbKey ≠ media.storageKey then media.thumbSize.getD 0 else 0
    | none => 0

/-- `COUNT(*)::int` and `COALESCE(SUM(…), 0)::bigint` of the media of each owner. -/
def mediaRows (w : World) (userIds : List String) : Except PyExc (List (String × Nat × Nat)) :=
  let rows (userId : String) := group Media.userId (some userId) w.media.rows
  let groups := owners Media.userId userIds w.media.rows
  if groups.all fun userId => inInt (rows userId).length && (rows userId).all (fun media => inBigint (rowBytes media)) &&
      inBigint (tally rowBytes (rows userId) : Nat) then
    .ok (groups.map fun userId => (userId, (rows userId).length, tally rowBytes (rows userId)))
  else .error outOfRange

def keyError : PyExc := .lookupError "user_id"

def summarizeUsers (w : World) (userIds : List String) : Except PyExc (Dict String Usage) :=
  if userIds.isEmpty then .ok ∅
  else do
    let summary : Dict String Usage :=
      userIds.foldl (fun d userId => d.insert userId { albumCount := 0, mediaCount := 0, storageUsedBytes := 0 }) ∅
    let albumRows ← albumRows w userIds
    let mediaRows ← mediaRows w userIds
    let summary ← Dict.fill keyError (fun usage albumCount => { usage with albumCount := albumCount }) albumRows summary
    Dict.fill keyError (fun usage row => { usage with mediaCount := row.1, storageUsedBytes := row.2 }) mediaRows summary

/-! ## get_user_storage_stats_for_admin -/

structure UserStorageStats where
  userId : String
  username : String
  quotaBytes : Int
  usage : Usage
  quota : QuotaMetrics
  deriving DecidableEq, Repr

def getUserStorageStatsForAdmin (w : World) (userId : String) : Except PyExc UserStorageStats :=
  match w.users.find? userId with
  | none => .error (.http 404 "User not found.")
  | some user =>
    let mediaItems := w.listUserMedia user.id
    let albums := w.listUserAlbums user.id
    let quotaBytes := effectiveQuota user (w.config .defaultUserQuotaBytes)
    let storageUsedBytes := storageBytesForMedia mediaItems
    .ok
      { userId := user.id
        username := user.username
        quotaBytes := quotaBytes
        usage := { albumCount := albums.length, mediaCount := mediaItems.length, storageUsedBytes := storageUsedBytes }
        quota := quotaMetrics storageUsedBytes (some quotaBytes) }

/-! ## global_storage_stats -/

structure GlobalStorageStats where
  serverQuotaBytes : Int
  totalStorageUsedBytes : Nat
  anonymousStorageUsedBytes : Nat
  userCount : Nat
  users : List UserUsage
  serverQuota : QuotaMetrics
  deriving DecidableEq, Repr

def globalStorageStats (w : World) : GlobalStorageStats :=
  let totalStorage := storageBytesForMedia w.listAllMedia
  let serverQuotaBytes := w.config .serverQuotaBytes
  { serverQuotaBytes := serverQuotaBytes
    totalStorageUsedBytes := totalStorage
    anonymousStorageUsedBytes := storageBytesForMedia (w.listAllMedia.filter (·.userId == none))
    userCount := (listUsers w).length
    users := (listUsersWithUsage w).insertionSort fun a b => b.usage.storageUsedBytes ≤ a.usage.storageUsedBytes
    serverQuota := quotaMetrics totalStorage (some serverQuotaBytes) }

/-! ## What they count -/

/-- The rows of one owner, and their accounted bytes. -/
def usageOf (w : World) (userId : String) : Usage where
  albumCount := (group Album.userId (some userId) w.albums.rows).length
  mediaCount := (group Media.userId (some userId) w.media.rows).length
  storageUsedBytes := tally storageBytes (group Media.userId (some userId) w.media.rows)

/-- The types the query casts to hold it. -/
def Usage.Fits (usage : Usage) : Prop :=
  inInt usage.albumCount = true ∧ inInt usage.mediaCount = true ∧ inBigint usage.storageUsedBytes = true

/-! ## The loops -/

variable {w : World}

theorem count_countAlbum (d : Dict String Nat) (album : Album) (userId : String) :
    (countAlbum d album).count userId = d.count userId + if album.userId = some userId then 1 else 0 := by
  rcases h : album.userId with _ | owner
  · simp [countAlbum, h]
  · simp [countAlbum, h, Dict.count_add]

theorem count_countMedia (d : Dict String Nat) (media : Media) (userId : String) :
    (countMedia d media).count userId = d.count userId + if media.userId = some userId then 1 else 0 := by
  rcases h : media.userId with _ | owner
  · simp [countMedia, h]
  · simp [countMedia, h, Dict.count_add]

theorem count_addUsage (d : Dict String Nat) (media : Media) (userId : String) :
    (addUsage d media).count userId = d.count userId + if media.userId = some userId then storageBytes media else 0 := by
  rcases h : media.userId with _ | owner
  · simp [addUsage, h]
  · by_cases hthumb : (truthy media.thumbKey && media.thumbKey != some media.storageKey) = true
    · simp only [addUsage, h, hthumb, if_true, Dict.count_add, storageBytes, Option.some.injEq]
      by_cases howner : owner = userId
      · simp only [howner, if_true]
        omega
      · simp [howner]
    · simp [addUsage, h, hthumb, Dict.count_add, storageBytes]

theorem group_perm {α : Type} {l l' : List α} (h : l.Perm l') (key : α → Option String) (k : Option String) :
    (group key k l).Perm (group key k l') := h.filter _

theorem tally_one {α : Type} (l : List α) : tally (fun _ => 1) l = l.length := by
  simp [tally]

theorem listAllMedia_perm (w : World) : w.listAllMedia.Perm w.media.rows := List.perm_insertionSort _ _

theorem listAlbums_perm (w : World) : (listAlbums w).Perm w.albums.rows := List.perm_insertionSort _ _

theorem listUsersWithUsage_usage (w : World) :
    (listUsersWithUsage w).map (fun item => (item.user, item.usage)) =
      (listUsers w).map fun user => (user, usageOf w user.id) := by
  rw [listUsersWithUsage, List.map_map]
  refine List.map_congr_left fun user _ => ?_
  have halbums := @Dict.count_foldl _ _ _ _ Album.userId (fun _ => 1) count_countAlbum (listAlbums w) ∅ user.id
  have hmedia := @Dict.count_foldl _ _ _ _ Media.userId (fun _ => 1) count_countMedia w.listAllMedia ∅ user.id
  have hbytes := @Dict.count_foldl _ _ _ _ Media.userId storageBytes count_addUsage w.listAllMedia ∅ user.id
  rw [Dict.count_empty, Nat.zero_add, tally_one, (group_perm (listAlbums_perm w) _ _).length_eq] at halbums
  rw [Dict.count_empty, Nat.zero_add, tally_one, (group_perm (listAllMedia_perm w) _ _).length_eq] at hmedia
  rw [Dict.count_empty, Nat.zero_add, tally_perm storageBytes (group_perm (listAllMedia_perm w) _ _)] at hbytes
  simp only [Function.comp_apply, halbums, hmedia, hbytes, usageOf]

/-! ## The lists of one user -/

theorem listUserMedia_perm (w : World) (userId : String) :
    (w.listUserMedia userId).Perm (group Media.userId (some userId) w.media.rows) := by
  rw [World.listUserMedia, filter_eq_group _ fun _ => beq_iff_eq]
  exact group_perm (listAllMedia_perm w) _ _

theorem listUserAlbums_perm (w : World) (userId : String) :
    (w.listUserAlbums userId).Perm (group Album.userId (some userId) w.albums.rows) := by
  rw [World.listUserAlbums, filter_eq_group _ fun _ => beq_iff_eq]
  exact List.perm_insertionSort _ _

theorem userStats_usage {user : User} (h : user ∈ w.users) :
    ∃ stats, getUserStorageStatsForAdmin w user.id = .ok stats ∧ stats.userId = user.id ∧
      stats.usage = usageOf w user.id := by
  have hfind : w.users.find? user.id = some user := Table.find?_self h
  rw [getUserStorageStatsForAdmin, hfind]
  refine ⟨_, rfl, rfl, ?_⟩
  have hbytes : storageBytesForMedia (w.listUserMedia user.id) = (usageOf w user.id).storageUsedBytes :=
    tally_perm storageBytes (listUserMedia_perm w user.id)
  simp only [usageOf] at hbytes ⊢
  rw [(listUserAlbums_perm w user.id).length_eq, (listUserMedia_perm w user.id).length_eq, hbytes]

theorem quotaCheck_usage (w : World) (user : User) : (Quota.own user).used w = (usageOf w user.id).storageUsedBytes := by
  rw [Quota.used, filter_eq_group _ fun _ => beq_iff_eq]
  exact tally_perm storageBytes (group_perm (listAllMedia_perm w) _ _)

/-! ## The query -/

section

variable {α : Type} {owner : α → Option String} {userIds : List String} {rows : List α} {userId : String}

theorem mem_owners : userId ∈ owners owner userIds rows ↔ userId ∈ userIds ∧ ∃ a ∈ rows, owner a = some userId := by
  simp only [owners, List.mem_dedup, List.mem_filter, List.mem_filterMap, List.contains_iff_mem]
  exact and_comm

theorem owners_nodup : (owners owner userIds rows).Nodup := List.nodup_dedup _

/-- Only the users with rows have a group. -/
theorem group_nil (h : userId ∈ userIds) (hnot : userId ∉ owners owner userIds rows) :
    group owner (some userId) rows = [] := by
  rw [group, List.filter_eq_nil_iff]
  intro a ha howner
  exact hnot (mem_owners.mpr ⟨h, a, ha, by simpa using howner⟩)

end

theorem rowBytes_eq {media : Media} (h : media.thumbKey ≠ some "") : rowBytes media = storageBytes media := by
  rcases hkey : media.thumbKey with _ | key
  · simp [rowBytes, storageBytes, hkey, truthy]
  · have hne : key ≠ "" := by
      rintro rfl
      exact h hkey
    by_cases hsame : key = media.storageKey
    · simp [rowBytes, storageBytes, hkey, hsame]
    · simp [rowBytes, storageBytes, hkey, hsame, truthy, hne]

theorem inBigint_of_le {m n : Nat} (h : m ≤ n) (hn : inBigint n = true) : inBigint m = true := by
  rw [inBigint_iff] at hn ⊢
  omega

theorem albumRows_eq (w : World) (userIds : List String) :
    albumRows w userIds =
      if ∀ userId ∈ userIds, inInt (usageOf w userId).albumCount = true then
        .ok ((owners Album.userId userIds w.albums.rows).map fun userId => (userId, (usageOf w userId).albumCount))
      else .error outOfRange := by
  have hall : ((owners Album.userId userIds w.albums.rows).all fun userId => inInt (usageOf w userId).albumCount) = true ↔
      ∀ userId ∈ userIds, inInt (usageOf w userId).albumCount = true := by
    rw [List.all_eq_true]
    constructor
    · intro h userId hmem
      by_cases hown : userId ∈ owners Album.userId userIds w.albums.rows
      · exact h userId hown
      · rw [usageOf, group_nil hmem hown]
        rfl
    · exact fun h userId hown => h userId (mem_owners.mp hown).1
  rw [albumRows]
  simp only [← hall]
  rfl

theorem mediaRows_eq (hkeys : ∀ media ∈ w.media, media.thumbKey ≠ some "") (userIds : List String) :
    mediaRows w userIds =
      if ∀ userId ∈ userIds, inInt (usageOf w userId).mediaCount = true ∧ inBigint (usageOf w userId).storageUsedBytes = true then
        .ok ((owners Media.userId userIds w.media.rows).map fun userId =>
          (userId, (usageOf w userId).mediaCount, (usageOf w userId).storageUsedBytes))
      else .error outOfRange := by
  have hbytes : ∀ userId, tally rowBytes (group Media.userId (some userId) w.media.rows) = (usageOf w userId).storageUsedBytes := by
    intro userId
    refine congrArg List.sum (List.map_congr_left fun media hmem => rowBytes_eq (hkeys media ?_))
    exact (List.mem_filter.mp hmem).1
  have hrows : ∀ userId, inBigint (usageOf w userId).storageUsedBytes = true →
      ((group Media.userId (some userId) w.media.rows).all fun media => inBigint (rowBytes media)) = true := by
    intro userId h
    rw [List.all_eq_true]
    intro media hmem
    exact inBigint_of_le (le_tally rowBytes hmem) (hbytes userId ▸ h)
  have htest : ∀ userId, (inInt (usageOf w userId).mediaCount &&
      (group Media.userId (some userId) w.media.rows).all (fun media => inBigint (rowBytes media)) &&
      inBigint (usageOf w userId).storageUsedBytes) = true ↔
      inInt (usageOf w userId).mediaCount = true ∧ inBigint (usageOf w userId).storageUsedBytes = true := by
    intro userId
    rw [Bool.and_eq_true, Bool.and_eq_true]
    exact ⟨fun h => ⟨h.1.1, h.2⟩, fun h => ⟨⟨h.1, hrows userId h.2⟩, h.2⟩⟩
  have hall : ((owners Media.userId userIds w.media.rows).all fun userId => inInt (usageOf w userId).mediaCount &&
      (group Media.userId (some userId) w.media.rows).all (fun media => inBigint (rowBytes media)) &&
      inBigint (usageOf w userId).storageUsedBytes) = true ↔
      ∀ userId ∈ userIds, inInt (usageOf w userId).mediaCount = true ∧ inBigint (usageOf w userId).storageUsedBytes = true := by
    simp only [List.all_eq_true, htest]
    constructor
    · intro h userId hmem
      by_cases hown : userId ∈ owners Media.userId userIds w.media.rows
      · exact h userId hown
      · rw [usageOf, group_nil hmem hown]
        exact ⟨rfl, rfl⟩
    · exact fun h userId hown => h userId (mem_owners.mp hown).1
  rw [mediaRows]
  simp only [hbytes, ← hall]
  rfl

theorem summarizeUsers_ok (hkeys : ∀ media ∈ w.media, media.thumbKey ≠ some "") {userIds : List String}
    (hfits : ∀ userId ∈ userIds, (usageOf w userId).Fits) :
    ∃ summary, summarizeUsers w userIds = .ok summary ∧
      ∀ userId ∈ userIds, summary.lookup userId = some (usageOf w userId) := by
  unfold summarizeUsers
  by_cases hempty : userIds.isEmpty = true
  · obtain rfl := List.isEmpty_iff.mp hempty
    exact ⟨∅, rfl, nofun⟩
  · rw [if_neg hempty, albumRows_eq, mediaRows_eq hkeys, if_pos fun userId h => (hfits userId h).1,
      if_pos fun userId h => (hfits userId h).2]
    have hzero := fun userId => Dict.lookup_foldl_insert (⟨0, 0, 0⟩ : Usage) userIds ∅ userId
    obtain ⟨counted, halbums, hcounted⟩ := @Dict.fill_groups _ _ _ _ _ keyError
      (fun (usage : Usage) albumCount => { usage with albumCount := albumCount })
      (fun userId => (usageOf w userId).albumCount) _ (@owners_nodup _ Album.userId userIds w.albums.rows)
      (userIds.foldl (fun d userId => d.insert userId ⟨0, 0, 0⟩) ∅)
      fun userId hown => by rw [hzero, if_pos (mem_owners.mp hown).1]; rfl
    obtain ⟨summary, hmedia, hsummary⟩ := @Dict.fill_groups _ _ _ _ _ keyError
      (fun (usage : Usage) (row : Nat × Nat) => { usage with mediaCount := row.1, storageUsedBytes := row.2 })
      (fun userId => ((usageOf w userId).mediaCount, (usageOf w userId).storageUsedBytes)) _
      (@owners_nodup _ Media.userId userIds w.media.rows) counted
      fun userId hown => by rw [hcounted, hzero, if_pos (mem_owners.mp hown).1]; rfl
    refine ⟨summary, ?_, fun userId hmem => ?_⟩
    · show (Dict.fill keyError _ _ _ >>= fun summary => Dict.fill keyError _ _ summary) = _
      rw [halbums]
      exact hmedia
    · rw [hsummary, hcounted, hzero, if_pos hmem]
      -- a user without rows keeps the zeros of the start
      have halbum : userId ∉ owners Album.userId userIds w.albums.rows → (usageOf w userId).albumCount = 0 := fun h => by
        rw [usageOf, group_nil hmem h]
        rfl
      have hrow : userId ∉ owners Media.userId userIds w.media.rows →
          (usageOf w userId).mediaCount = 0 ∧ (usageOf w userId).storageUsedBytes = 0 := fun h => by
        rw [usageOf, group_nil hmem h]
        exact ⟨rfl, rfl⟩
      have hcount : (if userId ∈ owners Album.userId userIds w.albums.rows then
          (⟨(usageOf w userId).albumCount, 0, 0⟩ : Usage) else ⟨0, 0, 0⟩) = ⟨(usageOf w userId).albumCount, 0, 0⟩ := by
        split
        · rfl
        · rw [halbum ‹_›]
      have husage : usageOf w userId =
          ⟨(usageOf w userId).albumCount, (usageOf w userId).mediaCount, (usageOf w userId).storageUsedBytes⟩ := rfl
      simp only [Option.map_some, hcount]
      split
      · rfl
      · rw [husage, (hrow ‹_›).1, (hrow ‹_›).2]

theorem summarizeUsers_fails (hkeys : ∀ media ∈ w.media, media.thumbKey ≠ some "") {userIds : List String} {userId : String}
    (hmem : userId ∈ userIds) (hnot : ¬ (usageOf w userId).Fits) : summarizeUsers w userIds = .error outOfRange := by
  unfold summarizeUsers
  have hne : ¬ userIds.isEmpty = true := by
    intro h
    rw [List.isEmpty_iff.mp h] at hmem
    cases hmem
  rw [if_neg hne, albumRows_eq, mediaRows_eq hkeys]
  by_cases halbums : ∀ userId ∈ userIds, inInt (usageOf w userId).albumCount = true
  · have hmedia : ¬ ∀ userId ∈ userIds, inInt (usageOf w userId).mediaCount = true ∧
        inBigint (usageOf w userId).storageUsedBytes = true := fun h => hnot ⟨halbums userId hmem, h userId hmem⟩
    rw [if_pos halbums, if_neg hmedia]
    rfl
  · rw [if_neg halbums]
    rfl

theorem summarizeUsers_ok_iff (hkeys : ∀ media ∈ w.media, media.thumbKey ≠ some "") (userIds : List String) :
    (∃ summary, summarizeUsers w userIds = .ok summary) ↔ ∀ userId ∈ userIds, (usageOf w userId).Fits := by
  constructor
  · intro ⟨summary, hok⟩ userId hmem
    by_contra hnot
    rw [summarizeUsers_fails hkeys hmem hnot] at hok
    cases hok
  · intro hfits
    obtain ⟨summary, hok, -⟩ := summarizeUsers_ok hkeys hfits
    exact ⟨summary, hok⟩

/-! ## The whole -/

/-- The owners and the anonymous make up the total. -/
theorem owned_add_anonymous (hfk : ∀ media ∈ w.media, ∀ userId, media.userId = some userId → ∃ user ∈ w.users, user.id = userId) :
    ((listUsers w).map fun user => (usageOf w user.id).storageUsedBytes).sum +
      tally storageBytes (group Media.userId none w.media.rows) = tally storageBytes w.media.rows := by
  have hkeys : (none :: w.users.rows.map fun user => some user.id).Nodup := by
    have hids := w.users.unique.map (Option.some_injective String)
    rw [List.map_map] at hids
    exact List.nodup_cons.mpr ⟨by simp, hids⟩
  have hmem : ∀ media ∈ w.media.rows, media.userId ∈ none :: w.users.rows.map fun user => some user.id := by
    intro media hmedia
    rcases howner : media.userId with _ | userId
    · exact List.mem_cons_self
    · obtain ⟨user, huser, rfl⟩ := hfk media hmedia userId howner
      exact List.mem_cons_of_mem _ (List.mem_map_of_mem huser)
  have hsum := sum_groups storageBytes Media.userId hkeys hmem
  rw [List.map_cons, List.sum_cons, List.map_map] at hsum
  have hperm : (listUsers w).Perm w.users.rows := List.perm_insertionSort _ _
  rw [(hperm.map _).sum_eq, Nat.add_comm]
  exact hsum

/-- What the four of them say of the rows of a world. -/
structure AccountingAgrees (w : World) : Prop where
  listed : (listUsersWithUsage w).map (fun item => (item.user, item.usage)) =
    (listUsers w).map fun user => (user, usageOf w user.id)
  summarized : ∀ userIds summary, summarizeUsers w userIds = .ok summary →
    ∀ userId ∈ userIds, summary.lookup userId = some (usageOf w userId)
  fits : ∀ userIds, (∃ summary, summarizeUsers w userIds = .ok summary) ↔ ∀ userId ∈ userIds, (usageOf w userId).Fits
  stats : ∀ user ∈ w.users, ∃ stats, getUserStorageStatsForAdmin w user.id = .ok stats ∧ stats.userId = user.id ∧
    stats.usage = usageOf w user.id
  checked : ∀ user, (Quota.own user).used w = (usageOf w user.id).storageUsedBytes
  whole : ((globalStorageStats w).users.map (·.usage.storageUsedBytes)).sum +
    (globalStorageStats w).anonymousStorageUsedBytes = (globalStorageStats w).totalStorageUsedBytes

/-- All paths count alike, and nothing is left out; the query answers where its types hold
    the numbers. -/
theorem accounting_agrees (w : World) (hkeys : ∀ media ∈ w.media, media.thumbKey ≠ some "")
    (hfk : ∀ media ∈ w.media, ∀ userId, media.userId = some userId → ∃ user ∈ w.users, user.id = userId) :
    AccountingAgrees w := by
  refine ⟨listUsersWithUsage_usage w, ?_, summarizeUsers_ok_iff hkeys, fun user huser => userStats_usage huser,
    quotaCheck_usage w, ?_⟩
  · intro userIds summary hok userId hmem
    obtain ⟨summary', hok', hlookup⟩ := summarizeUsers_ok hkeys ((summarizeUsers_ok_iff hkeys userIds).mp ⟨summary, hok⟩)
    obtain rfl := Except.ok.inj (hok.symm.trans hok')
    exact hlookup userId hmem
  · have hsorted : ((globalStorageStats w).users.map (·.usage.storageUsedBytes)).sum =
        ((listUsersWithUsage w).map (·.usage.storageUsedBytes)).sum :=
      ((List.perm_insertionSort _ _).map _).sum_eq
    have hlisted := congrArg (fun l => (l.map (·.2.storageUsedBytes)).sum) (listUsersWithUsage_usage w)
    simp only [List.map_map] at hlisted
    have hanonymous : (globalStorageStats w).anonymousStorageUsedBytes =
        tally storageBytes (group Media.userId none w.media.rows) := by
      rw [globalStorageStats, filter_eq_group _ fun _ => beq_iff_eq]
      exact tally_perm storageBytes (group_perm (listAllMedia_perm w) _ _)
    have htotal : (globalStorageStats w).totalStorageUsedBytes = tally storageBytes w.media.rows :=
      tally_perm storageBytes (listAllMedia_perm w)
    rw [hsorted, hanonymous, htotal, ← owned_add_anonymous hfk]
    exact congrArg (· + _) hlisted

namespace Sample

open Imghost.Service.Sample

/-- Two users; one of them owns an item of one byte with a thumbnail of two, one item is anonymous. -/
def shared : World :=
  { world with
    users := ⟨[user, { user with id := "v", username := "v", email := "v" }], by decide⟩
    albums := .single album
    media := ⟨[{ media "m" with userId := some "u", thumbKey := some "thumbnails/m.jpg", thumbSize := some 2 }, media "n"],
      by decide⟩ }

/-- The item has as many bytes as the column holds. -/
def vast : World :=
  { shared with
    media := ⟨[{ media "m" with userId := some "u", thumbKey := some "thumbnails/m.jpg", thumbSize := some 2,
                                fileSize := 2 ^ 63 - 1 }], by decide⟩ }

end Sample

open Sample in
theorem accounting_agrees_of_two_items : AccountingAgrees shared := accounting_agrees shared (by decide) (by decide)

open Sample in
/-- With the two bytes of the thumbnail the loops count beyond 2^63, and the query fails. -/
theorem a_sum_beyond_bigint :
    (listUsersWithUsage vast).map (·.usage) = [⟨0, 1, 2 ^ 63 + 1⟩, ⟨0, 0, 0⟩] ∧
      summarizeUsers vast ["u"] = .error outOfRange ∧ inBigint (2 ^ 63 - 1) = true := by
  refine ⟨by decide +kernel, rfl, by decide⟩

end Imghost.Accounting
