/-
  Imghost.Service.Access — the private helpers of `UploadService` that its operations
  share: who may act on an album, how inputs are normalised, which storage keys and
  bytes a set of media rows stands for.
-/

import Imghost.Model.Repository
import Imghost.Model.Runtime
import Imghost.Model.Stdlib

namespace Imghost.Service

open Imghost.Async Imghost.Model Program

/-- An argument whose default is `UNSET`. -/
inductive MaybeUnset (α : Type) where
  | unset
  | set (value : α)
  deriving DecidableEq, Repr

def maxAlbumItems : Nat := 1000

def videoFormats : List String := ["mp4", "mov", "webm"]

/-- `_actor_kind`, without `system`. -/
def actorKind (actorUser : Option User) (deleteToken : Option String) : ActorKind :=
  match actorUser with
  | some u => if u.isAdmin then .admin else .user
  | none => if truthy deleteToken then .deleteToken else .anonymous

/-! ## Access -/

def requireDeleteToken (album : Album) (deleteToken : Option String) : Prog Unit :=
  raiseIf (truthy album.deleteToken && deleteToken != album.deleteToken) (.http 403 "Invalid delete token.")

/-- `actor_user is not None and (actor_user.is_admin or album.user_id == actor_user.id)`. -/
def adminOrOwner (album : Album) (actorUser : Option User) : Bool :=
  actorUser.any fun u => u.isAdmin || album.userId == some u.id

def requireAlbumAccess (album : Album) (deleteToken : Option String) (actorUser : Option User) (allowExpired : Bool) :
    Prog Unit := do
  let now ← utcnow
  raiseIf (!allowExpired && isExpired now album.expiresAt) (.http 404 "Album not found.")
  if adminOrOwner album actorUser then pure ()
  else do
    raiseIf album.deleteToken.isNone (.http 403 "Album access denied.")
    requireDeleteToken album deleteToken

/-! ## Inputs -/

def normalizeTitle (title : Option String) : Option String :=
  match title with
  | none => none
  | some title => let normalized := strip title; if normalized = "" then none else some normalized

def normalizeCoverMediaId (coverMediaId : Option String) (items : List Media) : Except PyExc (Option String) :=
  match coverMediaId with
  | none => .ok none
  | some id =>
    if items.any (·.id == id) then .ok (some id) else .error (.http 404 "Cover media not found in album.")

def needsRebalance : List Media → Bool
  | previous :: current :: items => current.position - previous.position < 2 || needsRebalance (current :: items)
  | _ => false

/-! ## Storage keys and bytes -/

/-- The keys of one row, in the order they are visited; empty ones are skipped. -/
def keysOf (media : Media) : List String :=
  (media.storageKey :: media.thumbKey.toList).filter (· != "")

/-- Each key once, at its first place. -/
def firstOccurrences (keys : List String) : List String :=
  keys.foldl (fun kept key => if key ∈ kept then kept else kept ++ [key]) []

def storageKeysForMedia (mediaItems : List Media) : List String := firstOccurrences (mediaItems.flatMap keysOf)

def storageBytes (media : Media) : Nat :=
  media.fileSize +
    if truthy media.thumbKey && media.thumbKey != some media.storageKey then media.thumbSize.getD 0 else 0

def storageBytesForMedia (mediaItems : List Media) : Nat := (mediaItems.map storageBytes).sum

def deleteStorageKeyBestEffort (key : String) : Prog Unit := (Storage.delete key).tryExcept fun _ => pure ()

def deleteMediaStorageKeys (mediaItems : List Media) : Prog Unit :=
  forEach mediaItems fun media => do
    deleteStorageKeyBestEffort media.storageKey
    match media.thumbKey with
    | some thumbKey =>
      if thumbKey != "" && thumbKey != media.storageKey then deleteStorageKeyBestEffort thumbKey else pure ()
    | none => pure ()

theorem mem_firstOccurrences {keys : List String} {k : String} : k ∈ firstOccurrences keys ↔ k ∈ keys := by
  suffices h : ∀ kept, k ∈ keys.foldl (fun kept key => if key ∈ kept then kept else kept ++ [key]) kept ↔
      k ∈ kept ∨ k ∈ keys by
    simpa [firstOccurrences] using h []
  induction keys with
  | nil => simp
  | cons key keys ih =>
    intro kept
    rw [List.foldl_cons, ih]
    by_cases h : key ∈ kept
    · rw [if_pos h]
      constructor
      · rintro (hk | hk)
        · exact .inl hk
        · exact .inr (List.mem_cons_of_mem key hk)
      · rintro (hk | hk)
        · exact .inl hk
        · rcases List.mem_cons.mp hk with rfl | hk
          · exact .inl h
          · exact .inr hk
    · rw [if_neg h, List.mem_append, List.mem_singleton, List.mem_cons, or_assoc]

theorem mem_keysOf {m : Media} {k : String} : k ∈ keysOf m ↔ k ≠ "" ∧ (k = m.storageKey ∨ m.thumbKey = some k) := by
  simp only [keysOf, List.mem_filter, List.mem_cons, Option.mem_toList, bne_iff_ne, ne_eq]
  exact and_comm

theorem mem_storageKeysForMedia {items : List Media} {k : String} :
    k ∈ storageKeysForMedia items ↔ ∃ m ∈ items, k ∈ keysOf m := by
  rw [storageKeysForMedia, mem_firstOccurrences, List.mem_flatMap]

end Imghost.Service
