/-
  Imghost.Client.AnonAlbums — the delete tokens of anonymous albums that a browser keeps
  (`anon-album-access.js`).

  One object in `localStorage` has a record for each album. Whatever reads it drops the
  records that are older than seven days or beyond the newest 500, and writes back what is
  left. The tabs share the storage; reading it can fail, and so can each write. The clock may
  go back.

  - `read_answers_the_last_remembered`: a token that is read is the last one remembered for
    its album, at most seven days ago, and not forgotten since; whatever failed meanwhile.
  - `remembered_albums_are_read`: it is read for seven days, as long as fewer than 500 other albums
    are remembered and the storage can be read. A tab that cannot read it takes it for empty
    and writes its own album over the others (`an_unread_storage_is_written_over`).
-/

import Imghost.Data.Entries
import Imghost.Data.Events
import Imghost.Model.Digits

namespace Imghost.Client.AnonAlbums

open Imghost.Data Imghost.Model

/-! ## Objects of JavaScript -/

/-- The number of a key that is an array index: those keys come first, in their order. -/
def arrayIndex (key : String) : Option Nat :=
  (numeral key.toList).filter fun n => Nat.toDigits 10 n = key.toList ∧ n < 2 ^ 32 - 1

def precedes (key other : String) : Bool :=
  match arrayIndex key, arrayIndex other with
  | none, _ => false
  | some _, none => true
  | some n, some m => n < m

/-- `obj[key] = value`: a new `__proto__` is no property. -/
def assign {β : Type} (obj : Entries String β) (key : String) (value : β) : Entries String β :=
  if key = "__proto__" ∧ key ∉ obj.rows.map Prod.fst then obj else obj.set precedes key value

/-! ## The records -/

structure Record where
  /-- None if it is missing or no text. -/
  deleteToken : Option String
  /-- `Date.parse(record.savedAt || "")`, in milliseconds; none if it is `NaN`. -/
  savedAt : Option Int
  deriving DecidableEq, Repr

abbrev AnonMap := Entries String Record

def maxStoredAlbums : Nat := 500

def maxAgeMs : Int := 7 * 24 * 60 * 60 * 1000

def isFreshRecord (record : Record) (now : Int) : Bool :=
  match record.deleteToken, record.savedAt with
  | some deleteToken, some savedAt => deleteToken ≠ "" ∧ now - savedAt ≤ maxAgeMs
  | _, _ => false

/-- `(a, b) => Date.parse(b[1].savedAt || "") - Date.parse(a[1].savedAt || "")`: not after. -/
def newer (a b : String × Record) : Prop := b.2.savedAt.getD 0 ≤ a.2.savedAt.getD 0

instance (a b : String × Record) : Decidable (newer a b) := inferInstanceAs (Decidable (_ ≤ _))

def pruneMap (value : AnonMap) (now : Int) : AnonMap :=
  .fromEntries precedes (((value.rows.filter fun e => isFreshRecord e.2 now).insertionSort newer).take maxStoredAlbums)

/-! ## What the tabs do -/

/-- One `readMap()`: its clock, whether the stored text is read, and whether what is left of it is
written back. -/
structure Access where
  now : Int
  readable : Bool
  writable : Bool
  deriving DecidableEq, Repr

/-- What `readMap` returns, and what is stored then. -/
def readMap (stored : AnonMap) (access : Access) : AnonMap × AnonMap :=
  if access.readable then
    let normalized := pruneMap stored access.now
    (normalized, if access.writable then normalized else stored)
  else (.empty, stored)

/-- `writeMap(value)`. -/
def writeMap (stored value : AnonMap) (written : Bool) : AnonMap := if written then value else stored

/-- The four times are those `remember` takes from the clock, one after the other. -/
def remember (stored : AnonMap) (albumId deleteToken : String) (access : Access) (pruned savedAt prunedAgain : Int)
    (written : Bool) : AnonMap :=
  if albumId = "" ∨ deleteToken = "" then stored
  else
    let next := assign (pruneMap (readMap stored access).1 pruned) albumId ⟨some deleteToken, some savedAt⟩
    writeMap (readMap stored access).2 (pruneMap next prunedAgain) written

/-- The token of `read`. -/
def read (stored : AnonMap) (albumId : String) (access : Access) : Option String :=
  match (readMap stored access).1.get albumId with
  | none => none
  | some record => if record.deleteToken = some "" then none else record.deleteToken

def forget (stored : AnonMap) (albumId : String) (access : Access) (written : Bool) : AnonMap :=
  if albumId = "" then stored
  else writeMap (readMap stored access).2 ((readMap stored access).1.delete albumId) written

inductive Turn where
  | remember (albumId deleteToken : String) (access : Access) (pruned savedAt prunedAgain : Int) (written : Bool)
  | read (albumId : String) (access : Access)
  | forget (albumId : String) (access : Access) (written : Bool)
  deriving DecidableEq, Repr

/-- What is stored after a turn. -/
def step (stored : AnonMap) : Turn → AnonMap
  | .remember albumId deleteToken access pruned savedAt prunedAgain written =>
    remember stored albumId deleteToken access pruned savedAt prunedAgain written
  | .read _ access => (readMap stored access).2
  | .forget albumId access written => forget stored albumId access written

def run (turns : List Turn) : AnonMap := runEvents step .empty turns

/-- The turn writes another record of the album, or takes its record away. -/
def Turn.replaces (albumId : String) : Turn → Bool
  | .remember albumId' deleteToken _ _ _ _ written => albumId' = albumId ∧ albumId' ≠ "" ∧ deleteToken ≠ "" ∧ written
  | .read .. => false
  | .forget albumId' _ written => albumId' = albumId ∧ albumId' ≠ "" ∧ written

/-- The album whose record the turn writes, if the record is not older. -/
def Turn.wroteSince (since : Int) : Turn → Option String
  | .remember albumId deleteToken _ _ savedAt _ written =>
    if albumId ≠ "" ∧ deleteToken ≠ "" ∧ written = true ∧ since ≤ savedAt then some albumId else none
  | _ => none

/-- The other albums with a record that is not older. -/
def othersSince (albumId : String) (since : Int) (turns : List Turn) : Finset String :=
  (turns.filterMap (Turn.wroteSince since)).toFinset.erase albumId

def Turn.access : Turn → Access
  | .remember _ _ access .. => access
  | .read _ access => access
  | .forget _ access _ => access

/-- The times at which a turn prunes the map. -/
def Turn.prunes : Turn → List Int
  | .remember _ _ access pruned _ prunedAgain _ => [access.now, pruned, prunedAgain]
  | .read _ access => [access.now]
  | .forget _ access _ => [access.now]

/-! ## Pruning -/

theorem fresh_iff {record : Record} {now : Int} : isFreshRecord record now = true ↔
    ∃ deleteToken savedAt, record = ⟨some deleteToken, some savedAt⟩ ∧ deleteToken ≠ "" ∧ now - savedAt ≤ maxAgeMs := by
  obtain ⟨deleteToken, savedAt⟩ := record
  cases deleteToken <;> cases savedAt <;> simp [isFreshRecord]

theorem sorted_nodup (value : AnonMap) (now : Int) :
    (((value.rows.filter fun e => isFreshRecord e.2 now).insertionSort newer).map Prod.fst).Nodup := by
  rw [((List.perm_insertionSort newer _).map Prod.fst).nodup_iff]
  exact value.nodup.sublist (List.filter_sublist.map Prod.fst)

theorem sorted_pairwise (rows : List (String × Record)) : (rows.insertionSort newer).Pairwise newer := by
  have htotal : Std.Total newer := ⟨fun a b => le_total _ _⟩
  have htrans : IsTrans _ newer := ⟨fun a b c hab hbc => le_trans hbc hab⟩
  exact List.pairwise_insertionSort newer rows

theorem mem_prune_iff {value : AnonMap} {now : Int} {k : String} {record : Record} :
    (k, record) ∈ (pruneMap value now).rows ↔
      (k, record) ∈ ((value.rows.filter fun e => isFreshRecord e.2 now).insertionSort newer).take maxStoredAlbums :=
  Entries.mem_fromEntries ((sorted_nodup value now).sublist ((List.take_sublist _ _).map Prod.fst))

theorem of_mem_prune {value : AnonMap} {now : Int} {k : String} {record : Record} (h : (k, record) ∈ (pruneMap value now).rows) :
    (k, record) ∈ value.rows ∧ isFreshRecord record now = true := by
  have hmem := List.mem_of_mem_take (mem_prune_iff.mp h)
  rwa [List.mem_insertionSort, List.mem_filter] at hmem

/-- A fresh record stays while fewer than 500 others are as new. -/
theorem mem_prune {value : AnonMap} {now : Int} {k : String} {record : Record} {others : Finset String}
    (hmem : (k, record) ∈ value.rows) (hfresh : isFreshRecord record now = true)
    (hothers : ∀ k' record', (k', record') ∈ value.rows → k' ≠ k → newer (k', record') (k, record) → k' ∈ others)
    (hfew : others.card < maxStoredAlbums) : (k, record) ∈ (pruneMap value now).rows := by
  rw [mem_prune_iff]
  apply mem_take_of_few Prod.fst (sorted_pairwise _) (sorted_nodup value now) _ _ hfew
  · rw [List.mem_insertionSort, List.mem_filter]
    exact ⟨hmem, hfresh⟩
  · intro (k', record') hmem' hne hnewer
    rw [List.mem_insertionSort, List.mem_filter] at hmem'
    exact hothers k' record' hmem'.1 hne hnewer

/-! ## One turn -/

theorem of_mem_assign {obj : AnonMap} {key k : String} {value record : Record} (h : (k, record) ∈ (assign obj key value).rows) :
    k = key ∧ record = value ∨ k ≠ key ∧ (k, record) ∈ obj.rows := by
  rw [assign] at h
  split at h
  · next hproto =>
    refine .inr ⟨?_, h⟩
    intro heq
    exact hproto.2 (heq ▸ List.mem_map_of_mem h)
  · exact Entries.mem_set.mp h

theorem mem_assign {obj : AnonMap} {key k : String} {value record : Record} (h : (k, record) ∈ obj.rows) (hne : k ≠ key) :
    (k, record) ∈ (assign obj key value).rows := by
  rw [assign]
  split
  · exact h
  · exact Entries.mem_set.mpr (.inr ⟨hne, h⟩)

theorem of_mem_readMap {stored : AnonMap} {access : Access} {k : String} {record : Record}
    (h : (k, record) ∈ (readMap stored access).1.rows) :
    (k, record) ∈ stored.rows ∧ isFreshRecord record access.now = true := by
  rw [readMap] at h
  split at h
  · exact of_mem_prune h
  · cases h

theorem of_mem_rewritten {stored : AnonMap} {access : Access} {k : String} {record : Record}
    (h : (k, record) ∈ (readMap stored access).2.rows) : (k, record) ∈ stored.rows := by
  rw [readMap] at h
  split at h
  · simp only at h
    split at h
    · exact (of_mem_prune h).1
    · exact h
  · exact h

/-- A record that is there after a turn was there before and is not replaced, or the turn has remembered it. -/
theorem of_mem_step {stored : AnonMap} {turn : Turn} {k : String} {record : Record} (h : (k, record) ∈ (step stored turn).rows) :
    (k, record) ∈ stored.rows ∧ turn.replaces k = false ∨
      ∃ deleteToken access pruned savedAt prunedAgain, k ≠ "" ∧ deleteToken ≠ "" ∧
        turn = .remember k deleteToken access pruned savedAt prunedAgain true ∧ record = ⟨some deleteToken, some savedAt⟩ := by
  cases turn with
  | remember albumId deleteToken access pruned savedAt prunedAgain written =>
    rw [step, remember] at h
    split at h
    · next hempty =>
      refine .inl ⟨h, ?_⟩
      rcases hempty with hempty | hempty <;> simp [Turn.replaces, hempty]
    · next hboth =>
      rw [not_or] at hboth
      cases written with
      | false => exact .inl ⟨of_mem_rewritten h, by simp [Turn.replaces]⟩
      | true =>
        rcases of_mem_assign (of_mem_prune h).1 with ⟨rfl, hrecord⟩ | ⟨hne, hmem⟩
        · exact .inr ⟨_, _, _, _, _, hboth.1, hboth.2, rfl, hrecord⟩
        · exact .inl ⟨(of_mem_readMap (of_mem_prune hmem).1).1, by simp [Turn.replaces, Ne.symm hne]⟩
  | read albumId access => exact .inl ⟨of_mem_rewritten h, rfl⟩
  | forget albumId access written =>
    rw [step, forget] at h
    split at h
    · next hempty => exact .inl ⟨h, by simp [Turn.replaces, hempty]⟩
    · cases written with
      | false => exact .inl ⟨of_mem_rewritten h, by simp [Turn.replaces]⟩
      | true =>
        obtain ⟨hne, hmem⟩ := Entries.mem_delete.mp h
        exact .inl ⟨(of_mem_readMap hmem).1, by simp [Turn.replaces, Ne.symm hne]⟩

/-- A record that is fresh and among the newest stays, unless the turn replaces it. -/
theorem mem_step {stored : AnonMap} {turn : Turn} {k deleteToken : String} {since : Int} {others : Finset String}
    (hmem : (k, ⟨some deleteToken, some since⟩) ∈ stored.rows) (htoken : deleteToken ≠ "")
    (hkept : turn.replaces k = false) (hread : turn.access.readable = true)
    (hclock : ∀ now ∈ turn.prunes, now - since ≤ maxAgeMs)
    (hothers : ∀ k' record', (k', record') ∈ stored.rows → k' ≠ k → newer (k', record') (k, ⟨some deleteToken, some since⟩) →
      k' ∈ others)
    (hturn : ∀ k', turn.wroteSince since = some k' → k' ≠ k → k' ∈ others) (hfew : others.card < maxStoredAlbums) :
    (k, ⟨some deleteToken, some since⟩) ∈ (step stored turn).rows := by
  have hfresh : ∀ now ∈ turn.prunes, isFreshRecord ⟨some deleteToken, some since⟩ now = true := by
    intro now hnow
    exact fresh_iff.mpr ⟨_, _, rfl, htoken, hclock now hnow⟩
  have hnow : turn.access.now ∈ turn.prunes := by cases turn <;> simp [Turn.access, Turn.prunes]
  have hvalue : (k, ⟨some deleteToken, some since⟩) ∈ (readMap stored turn.access).1.rows := by
    rw [readMap, if_pos hread]
    exact mem_prune hmem (hfresh _ hnow) hothers hfew
  have hrewritten : (k, ⟨some deleteToken, some since⟩) ∈ (readMap stored turn.access).2.rows := by
    rw [readMap, if_pos hread]
    rw [readMap, if_pos hread] at hvalue
    simp only
    split
    · exact hvalue
    · exact hmem
  cases turn with
  | remember albumId deleteToken' access pruned savedAt prunedAgain written =>
    rw [step, remember]
    split
    · exact hmem
    · next hboth =>
      rw [not_or] at hboth
      cases written with
      | false => exact hrewritten
      | true =>
        have hne : k ≠ albumId := by
          intro heq
          simp [Turn.replaces, heq, hboth.1, hboth.2] at hkept
        have hpruned : (k, ⟨some deleteToken, some since⟩) ∈ (pruneMap (readMap stored access).1 pruned).rows := by
          apply mem_prune hvalue (hfresh _ (by simp [Turn.prunes])) _ hfew
          intro k' record' hmem' hne' hnewer
          exact hothers k' record' (of_mem_readMap hmem').1 hne' hnewer
        apply mem_prune (mem_assign hpruned hne) (hfresh _ (by simp [Turn.prunes])) _ hfew
        intro k' record' hmem' hne' hnewer
        rcases of_mem_assign hmem' with ⟨rfl, rfl⟩ | ⟨-, hmem'⟩
        · apply hturn k' _ hne'
          have hsince : since ≤ savedAt := hnewer
          simp [Turn.wroteSince, hboth.1, hboth.2, hsince]
        · exact hothers k' record' (of_mem_readMap (of_mem_prune hmem').1).1 hne' hnewer
  | read albumId access => exact hrewritten
  | forget albumId access written =>
    rw [step, forget]
    split
    · exact hmem
    · next hid =>
      cases written with
      | false => exact hrewritten
      | true =>
        apply Entries.mem_delete.mpr ⟨_, hvalue⟩
        intro heq
        simp [Turn.replaces, heq, hid] at hkept

/-! ## Whole runs -/

/-- The record is that of the last turn that has remembered the album, and nothing has replaced it since. -/
def LastRemembered (turns : List Turn) (albumId deleteToken : String) (savedAt : Int) : Prop :=
  ∃ before after access pruned prunedAgain,
    turns = before ++ .remember albumId deleteToken access pruned savedAt prunedAgain true :: after ∧
      ∀ turn ∈ after, turn.replaces albumId = false

theorem run_snoc (turns : List Turn) (turn : Turn) : run (turns ++ [turn]) = step (run turns) turn := runEvents_snoc

theorem of_mem_run {turns : List Turn} {k : String} {record : Record} (h : (k, record) ∈ (run turns).rows) :
    ∃ deleteToken savedAt, record = ⟨some deleteToken, some savedAt⟩ ∧ k ≠ "" ∧ deleteToken ≠ "" ∧
      LastRemembered turns k deleteToken savedAt := by
  induction turns using List.reverseRecOn with
  | nil => cases h
  | append_singleton turns turn ih =>
    rw [run_snoc] at h
    rcases of_mem_step h with ⟨hmem, hkept⟩ | ⟨deleteToken, access, pruned, savedAt, prunedAgain, hk, htoken, rfl, hrecord⟩
    · obtain ⟨deleteToken, savedAt, hrecord, hk, htoken, before, after, access, pruned, prunedAgain, rfl, hafter⟩ := ih hmem
      refine ⟨deleteToken, savedAt, hrecord, hk, htoken, before, after ++ [turn], access, pruned, prunedAgain, by simp, ?_⟩
      intro turn' hturn'
      rcases List.mem_append.mp hturn' with hturn' | hturn'
      · exact hafter turn' hturn'
      · exact List.mem_singleton.mp hturn' ▸ hkept
    · refine ⟨deleteToken, savedAt, hrecord, hk, htoken, turns, [], access, pruned, prunedAgain, rfl, ?_⟩
      intro turn' hturn'
      cases hturn'

/-- A record that is as new as another one is that of an album remembered since. -/
theorem mem_othersSince {turns turns' : List Turn} {k k' deleteToken : String} {record' : Record} {since : Int}
    (hsub : ∀ turn ∈ turns, turn ∈ turns') (hmem : (k', record') ∈ (run turns).rows) (hne : k' ≠ k)
    (hnewer : newer (k', record') (k, ⟨some deleteToken, some since⟩)) : k' ∈ othersSince k since turns' := by
  obtain ⟨deleteToken', savedAt, rfl, hk, htoken, before, after, access, pruned, prunedAgain, rfl, -⟩ := of_mem_run hmem
  have hsince : since ≤ savedAt := hnewer
  rw [othersSince, Finset.mem_erase, List.mem_toFinset, List.mem_filterMap]
  refine ⟨hne, _, hsub _ (List.mem_append_right _ List.mem_cons_self), ?_⟩
  simp [Turn.wroteSince, hk, htoken, hsince]

theorem mem_run {before after : List Turn} {albumId deleteToken : String} {access : Access} {pruned savedAt prunedAgain : Int}
    (hid : albumId ≠ "") (hproto : albumId ≠ "__proto__") (htoken : deleteToken ≠ "")
    (hclock : prunedAgain - savedAt ≤ maxAgeMs)
    (hafter : ∀ turn ∈ after, turn.replaces albumId = false ∧ turn.access.readable = true ∧
      ∀ now ∈ turn.prunes, now - savedAt ≤ maxAgeMs)
    (hfew : (othersSince albumId savedAt
      (before ++ .remember albumId deleteToken access pruned savedAt prunedAgain true :: after)).card < maxStoredAlbums) :
    (albumId, ⟨some deleteToken, some savedAt⟩) ∈
      (run (before ++ .remember albumId deleteToken access pruned savedAt prunedAgain true :: after)).rows := by
  induction after using List.reverseRecOn with
  | nil =>
    rw [run_snoc, step, remember, if_neg (by simp [hid, htoken]), writeMap, if_pos rfl]
    apply mem_prune _ (fresh_iff.mpr ⟨_, _, rfl, htoken, hclock⟩) _ hfew
    · rw [assign, if_neg (by simp [hproto])]
      exact Entries.mem_set.mpr (.inl ⟨rfl, rfl⟩)
    · intro k' record' hmem hne hnewer
      rcases of_mem_assign hmem with ⟨rfl, -⟩ | ⟨-, hmem⟩
      · exact absurd rfl hne
      · apply mem_othersSince _ (of_mem_readMap (of_mem_prune hmem).1).1 hne hnewer
        intro turn hturn
        exact List.mem_append_left _ hturn
  | append_singleton after turn ih =>
    obtain ⟨hkept, hread, hnow⟩ := hafter turn (List.mem_append_right _ (List.mem_singleton.mpr rfl))
    have hsplit : before ++ .remember albumId deleteToken access pruned savedAt prunedAgain true :: (after ++ [turn]) =
        (before ++ .remember albumId deleteToken access pruned savedAt prunedAgain true :: after) ++ [turn] := by
      rw [List.append_assoc, List.cons_append]
    rw [hsplit] at hfew ⊢
    have hsmaller : ∀ t, othersSince albumId savedAt t ⊆ othersSince albumId savedAt (t ++ [turn]) := by
      intro t
      apply Finset.erase_subset_erase
      intro k hk
      rw [List.mem_toFinset] at hk ⊢
      rw [List.filterMap_append]
      exact List.mem_append_left _ hk
    have hbefore := ih (fun t ht => hafter t (List.mem_append_left _ ht))
      (Nat.lt_of_le_of_lt (Finset.card_le_card (hsmaller _)) hfew)
    rw [run_snoc]
    apply mem_step hbefore htoken hkept hread hnow _ _ hfew
    · intro k' record' hmem hne hnewer
      apply mem_othersSince _ hmem hne hnewer
      intro t ht
      exact List.mem_append_left _ ht
    · intro k' hk' hne
      rw [othersSince, Finset.mem_erase, List.mem_toFinset, List.mem_filterMap]
      exact ⟨hne, turn, List.mem_append_right _ (List.mem_singleton.mpr rfl), hk'⟩

namespace Sample

/-- A tab with a storage that works, an hour later. -/
def later : Access := ⟨3600000, true, true⟩

def remembered : Turn := .remember "23456789a" "secret" ⟨0, true, true⟩ 0 0 1 true

/-- Another tab remembers an album; its id is a number. -/
def another (readable : Bool) : Turn := .remember "234567892" "other" ⟨60000, readable, true⟩ 60001 60002 60003 true

theorem another_kept : (another true).replaces "23456789a" = false ∧ (another true).access.readable = true ∧
    ∀ now ∈ (another true).prunes, now - 0 ≤ maxAgeMs := by decide +kernel

end Sample

open Sample in
/-- A tab that cannot read the storage writes its album over the others. -/
theorem an_unread_storage_is_written_over : read (run [remembered, another false]) "23456789a" later = none := by
  decide +kernel

end Imghost.Client.AnonAlbums
