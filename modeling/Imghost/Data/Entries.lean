/-
  Imghost.Data.Entries — objects whose keys have an order of their own, and the first of
  their entries in a sorted order.

  A key that is set anew goes before the first key it `precedes`; a key that is set again
  stays in its place. An entry is among the first `n` of a sorted list as soon as fewer than
  `n` others rank with it or before it.
-/

import Mathlib.Data.Finset.Card
import Mathlib.Data.List.Sort

namespace Imghost.Data

variable {κ β : Type} [DecidableEq κ]

/-- The entries of an object, one for each of its keys. -/
structure Entries (κ β : Type) where
  rows : List (κ × β)
  nodup : (rows.map Prod.fst).Nodup

namespace Entries

def empty : Entries κ β := ⟨[], List.nodup_nil⟩

def get (o : Entries κ β) (k : κ) : Option β := (o.rows.find? (·.1 = k)).map Prod.snd

def delete (o : Entries κ β) (k : κ) : Entries κ β where
  rows := o.rows.filter (·.1 ≠ k)
  nodup := o.nodup.sublist (List.filter_sublist.map Prod.fst)

/-- A new entry, before the first key that `k` precedes. -/
def insertRow (precedes : κ → κ → Bool) (rows : List (κ × β)) (k : κ) (v : β) : List (κ × β) :=
  rows.takeWhile (fun e => !precedes k e.1) ++ (k, v) :: rows.dropWhile (fun e => !precedes k e.1)

omit [DecidableEq κ] in
theorem insertRow_perm (precedes : κ → κ → Bool) (rows : List (κ × β)) (k : κ) (v : β) :
    (insertRow precedes rows k v).Perm ((k, v) :: rows) := by
  rw [insertRow]
  refine List.perm_middle.trans (List.Perm.cons _ ?_)
  rw [List.takeWhile_append_dropWhile]

theorem map_replace (rows : List (κ × β)) (k : κ) (v : β) :
    (rows.map fun e => if e.1 = k then (k, v) else e).map Prod.fst = rows.map Prod.fst := by
  rw [List.map_map]
  apply List.map_congr_left
  intro e _
  simp only [Function.comp]
  split
  · next h => exact h.symm
  · rfl

def set (precedes : κ → κ → Bool) (o : Entries κ β) (k : κ) (v : β) : Entries κ β :=
  if h : k ∈ o.rows.map Prod.fst then
    ⟨o.rows.map fun e => if e.1 = k then (k, v) else e, (map_replace o.rows k v).symm ▸ o.nodup⟩
  else
    ⟨insertRow precedes o.rows k v,
      (((insertRow_perm precedes o.rows k v).map Prod.fst).nodup_iff).mpr (List.nodup_cons.mpr ⟨h, o.nodup⟩)⟩

/-- The entries set one after the other. -/
def fromEntries (precedes : κ → κ → Bool) (rows : List (κ × β)) : Entries κ β :=
  rows.foldl (fun o e => o.set precedes e.1 e.2) empty

variable {precedes : κ → κ → Bool} {o : Entries κ β} {k k' : κ} {v v' : β}

theorem get_eq_some : o.get k = some v ↔ (k, v) ∈ o.rows := by
  obtain ⟨rows, hnodup⟩ := o
  induction rows with
  | nil => simp [get]
  | cons e rows ih =>
    obtain ⟨hnew, hrest⟩ := List.nodup_cons.mp hnodup
    by_cases he : e.1 = k
    · have hk : ∀ v, (k, v) ∉ rows := by
        intro v hmem
        exact hnew (he ▸ List.mem_map_of_mem hmem)
      subst he
      simp [get, hk, Prod.ext_iff, eq_comm]
    · have := ih hrest
      simp only [get] at this
      rw [get, List.find?_cons_of_neg (by simpa using he), this, List.mem_cons]
      constructor
      · exact .inr
      · rintro (rfl | h)
        · exact absurd rfl he
        · exact h

omit [DecidableEq κ] in
@[simp] theorem not_mem_empty {e : κ × β} : e ∉ (empty : Entries κ β).rows := List.not_mem_nil

theorem mem_delete : (k', v') ∈ (o.delete k).rows ↔ k' ≠ k ∧ (k', v') ∈ o.rows := by
  simp [delete, and_comm]

theorem mem_set : (k', v') ∈ (o.set precedes k v).rows ↔ k' = k ∧ v' = v ∨ k' ≠ k ∧ (k', v') ∈ o.rows := by
  rw [set]
  split
  · next h =>
    simp only [List.mem_map]
    constructor
    · intro ⟨e, he, heq⟩
      split at heq
      · exact .inl ⟨(congrArg Prod.fst heq).symm, (congrArg Prod.snd heq).symm⟩
      · next hk =>
        subst heq
        exact .inr ⟨hk, he⟩
    · intro hcases
      rcases hcases with ⟨rfl, rfl⟩ | ⟨hk, hmem⟩
      · obtain ⟨e, he, hkey⟩ := List.mem_map.mp h
        exact ⟨e, he, if_pos hkey⟩
      · exact ⟨_, hmem, if_neg hk⟩
  · next h =>
    have hother : (k', v') ∈ o.rows → k' ≠ k := by
      intro hmem heq
      exact h (heq ▸ List.mem_map_of_mem hmem)
    rw [(insertRow_perm precedes o.rows k v).mem_iff, List.mem_cons, Prod.mk.injEq]
    constructor
    · intro hcases
      exact hcases.imp_right fun hmem => ⟨hother hmem, hmem⟩
    · intro hcases
      exact hcases.imp_right And.right

theorem mem_foldl_set (rows : List (κ × β)) (hnodup : (rows.map Prod.fst).Nodup) (o : Entries κ β) :
    (k', v') ∈ (rows.foldl (fun o e => o.set precedes e.1 e.2) o).rows ↔
      (k', v') ∈ rows ∨ k' ∉ rows.map Prod.fst ∧ (k', v') ∈ o.rows := by
  induction rows generalizing o with
  | nil => simp
  | cons e rows ih =>
    obtain ⟨hnew, hrest⟩ := List.nodup_cons.mp hnodup
    rw [List.foldl_cons, ih hrest, mem_set]
    simp only [List.mem_cons, List.map_cons, not_or]
    constructor
    · intro hcases
      rcases hcases with hmem | ⟨hk, ⟨rfl, rfl⟩ | ⟨hne, hmem⟩⟩
      · exact .inl (.inr hmem)
      · exact .inl (.inl rfl)
      · exact .inr ⟨⟨hne, hk⟩, hmem⟩
    · intro hcases
      rcases hcases with (rfl | hmem) | ⟨⟨hne, hk⟩, hmem⟩
      · exact .inr ⟨hnew, .inl ⟨rfl, rfl⟩⟩
      · exact .inl hmem
      · exact .inr ⟨hk, .inr ⟨hne, hmem⟩⟩

/-- Entries with different keys are all there. -/
theorem mem_fromEntries {rows : List (κ × β)} (hnodup : (rows.map Prod.fst).Nodup) :
    (k', v') ∈ (fromEntries precedes rows).rows ↔ (k', v') ∈ rows := by
  rw [fromEntries, mem_foldl_set rows hnodup]
  simp

end Entries

/-! ## The first entries of a sorted list -/

/-- An element is among the first `n` when fewer than `n` others rank with it or before it. -/
theorem mem_take_of_few {α : Type} {r : α → α → Prop} (key : α → κ) {l : List α} {n : Nat} {x : α} {others : Finset κ}
    (hsorted : l.Pairwise r) (hnodup : (l.map key).Nodup) (hx : x ∈ l)
    (hothers : ∀ y ∈ l, key y ≠ key x → r y x → key y ∈ others) (hfew : others.card < n) : x ∈ l.take n := by
  by_contra hout
  rw [← List.take_append_drop n l] at hx hsorted hnodup
  have hdrop : x ∈ l.drop n := (List.mem_append.mp hx).resolve_left hout
  have hlength : n ≤ l.length := by
    by_contra hshort
    rw [List.drop_eq_nil_of_le (by omega)] at hdrop
    cases hdrop
  rw [List.map_append] at hnodup
  obtain ⟨htake, -, hapart⟩ := List.nodup_append.mp hnodup
  have hsub : ((l.take n).map key).toFinset ⊆ others := by
    intro k hk
    rw [List.mem_toFinset] at hk
    obtain ⟨y, hy, rfl⟩ := List.mem_map.mp hk
    apply hothers y (List.mem_of_mem_take hy)
    · exact hapart _ (List.mem_map_of_mem hy) _ (List.mem_map_of_mem hdrop)
    · exact (List.pairwise_append.mp hsorted).2.2 y hy x hdrop
  have hcard := Finset.card_le_card hsub
  rw [List.toFinset_card_of_nodup htake, List.length_map, List.length_take_of_le hlength] at hcard
  omega

end Imghost.Data
