/-
  Imghost.Data.Counts — dictionaries changed by a loop.

  - A loop that adds to one entry per row ends with the sum over each key's rows
    (`count_foldl`).
  - A loop that overwrites one entry per group ends with every group's row in its entry
    (`fill_groups`); an entry that is not there is a `KeyError`.
  - A loop that deletes entries ends with the others, in their order (`deleteEach_keys`).
-/

import Mathlib.Data.List.AList
import Imghost.Data.Sums

namespace Imghost.Data

abbrev Dict (κ ν : Type) := AList fun _ : κ => ν

namespace Dict

variable {α κ ν ρ ε : Type} [DecidableEq κ]

/-! ## Running sums -/

/-- `d.get(k, 0)`. -/
def count (d : Dict κ Nat) (k : κ) : Nat := (d.lookup k).getD 0

/-- `d[k] = d.get(k, 0) + n`. -/
def add (d : Dict κ Nat) (k : κ) (n : Nat) : Dict κ Nat := d.insert k (d.count k + n)

@[simp] theorem count_empty (k : κ) : count (∅ : Dict κ Nat) k = 0 := rfl

theorem count_add (d : Dict κ Nat) (k k' : κ) (n : Nat) : (d.add k n).count k' = d.count k' + if k = k' then n else 0 := by
  by_cases h : k = k'
  · subst h
    simp [count, add]
  · simp [count, add, AList.lookup_insert_ne (Ne.symm h), h]

theorem count_foldl {step : Dict κ Nat → α → Dict κ Nat} {key : α → Option κ} {f : α → Nat}
    (hstep : ∀ d a k, (step d a).count k = d.count k + if key a = some k then f a else 0) (l : List α) (d : Dict κ Nat)
    (k : κ) : (l.foldl step d).count k = d.count k + tally f (group key (some k) l) := by
  induction l generalizing d with
  | nil => simp [group]
  | cons a l ih =>
    rw [List.foldl_cons, ih, hstep, tally_group_cons]
    omega

/-! ## Entries overwritten -/

theorem lookup_foldl_insert (v : ν) (keys : List κ) (d : Dict κ ν) (k : κ) :
    (keys.foldl (fun d k => d.insert k v) d).lookup k = if k ∈ keys then some v else d.lookup k := by
  induction keys generalizing d with
  | nil => simp
  | cons key keys ih =>
    rw [List.foldl_cons, ih]
    by_cases h : k = key
    · subst h
      simp
    · simp [AList.lookup_insert_ne h, h]

/-- `for k, row in rows: d[k] = set(d[k], row)`. -/
def fill (keyError : ε) (set : ν → ρ → ν) : List (κ × ρ) → Dict κ ν → Except ε (Dict κ ν)
  | [], d => .ok d
  | (k, row) :: rows, d =>
    match d.lookup k with
    | some v => fill keyError set rows (d.insert k (set v row))
    | none => .error keyError

theorem fill_groups {keyError : ε} {set : ν → ρ → ν} (g : κ → ρ) {keys : List κ} (hkeys : keys.Nodup) {d : Dict κ ν}
    (hd : ∀ k ∈ keys, (d.lookup k).isSome = true) :
    ∃ d', fill keyError set (keys.map fun k => (k, g k)) d = .ok d' ∧
      ∀ k, d'.lookup k = (d.lookup k).map fun v => if k ∈ keys then set v (g k) else v := by
  induction keys generalizing d with
  | nil =>
    refine ⟨d, rfl, fun k => ?_⟩
    simp
  | cons key keys ih =>
    obtain ⟨hnot, hnodup⟩ := List.nodup_cons.mp hkeys
    obtain ⟨v, hv⟩ := Option.isSome_iff_exists.mp (hd key List.mem_cons_self)
    have hinsert : ∀ k, k ≠ key → (d.insert key (set v (g key))).lookup k = d.lookup k := fun k hk => AList.lookup_insert_ne hk
    have hrest : ∀ k ∈ keys, ((d.insert key (set v (g key))).lookup k).isSome = true := by
      intro k hk
      rw [hinsert k fun h => hnot (h ▸ hk)]
      exact hd k (List.mem_cons_of_mem key hk)
    obtain ⟨d', hfill, hd'⟩ := ih hnodup hrest
    refine ⟨d', ?_, fun k => ?_⟩
    · rw [List.map_cons, fill, hv]
      exact hfill
    · rw [hd']
      by_cases hk : k = key
      · subst hk
        simp [hnot, hv]
      · rw [hinsert k hk]
        simp [hk]

/-! ## Entries deleted -/

def filter (keep : κ → ν → Bool) (d : Dict κ ν) : Dict κ ν :=
  ⟨d.entries.filter fun x => keep x.1 x.2, d.nodupKeys.sublist List.filter_sublist⟩

/-- `for k in keys: if drop(k, d[k]): del d[k]`; `none` is a `KeyError`. -/
def deleteEach (drop : κ → ν → Bool) : List κ → Dict κ ν → Option (Dict κ ν)
  | [], d => some d
  | k :: keys, d =>
    match d.lookup k with
    | none => none
    | some v => deleteEach drop keys (if drop k v then d.erase k else d)

/-- What was kept so far, and what is still to be looked at. -/
theorem deleteEach_append {drop : κ → ν → Bool} {kept rest : List ((_ : κ) × ν)} {d : Dict κ ν}
    (hd : d.entries = kept ++ rest) :
    (deleteEach drop (rest.map (·.1)) d).map (·.entries) = some (kept ++ rest.filter fun x => !drop x.1 x.2) := by
  induction rest generalizing kept d with
  | nil => simp [deleteEach, hd]
  | cons x rest ih =>
    obtain ⟨k, v⟩ := x
    have hlookup : d.lookup k = some v := by
      apply AList.mem_lookup_iff.mpr
      rw [hd]
      simp
    have hfresh : k ∉ kept.keys := by
      have hnodup : (kept ++ ⟨k, v⟩ :: rest).NodupKeys := hd ▸ d.nodupKeys
      rw [List.NodupKeys, List.keys, List.map_append, List.nodup_append] at hnodup
      intro hk
      exact hnodup.2.2 k hk k (by simp) rfl
    rw [List.map_cons, deleteEach, hlookup]
    dsimp only
    by_cases hdrop : drop k v = true
    · have herase : (d.erase k).entries = kept ++ rest := by
        show List.kerase k d.entries = _
        rw [hd, List.kerase_append_right hfresh]
        simp
      rw [if_pos hdrop, ih herase]
      simp [hdrop]
    · have hnext : d.entries = (kept ++ [⟨k, v⟩]) ++ rest := by rw [hd, List.append_assoc]; rfl
      rw [if_neg hdrop, ih hnext]
      simp [hdrop]

theorem deleteEach_keys (drop : κ → ν → Bool) (d : Dict κ ν) :
    deleteEach drop d.keys d = some (d.filter fun k v => !drop k v) := by
  have hentries := @deleteEach_append _ _ _ drop [] d.entries d rfl
  obtain ⟨d', hd', heq⟩ := Option.map_eq_some_iff.mp hentries
  have hsame : d' = d.filter fun k v => !drop k v := AList.ext heq
  rw [← hsame]
  exact hd'

end Dict

end Imghost.Data
