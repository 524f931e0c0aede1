/-
  Imghost.Service.Positions — the positions of the items of an album.

  An upload takes the position after the last one. A reorder sets some positions, lists
  the album in their order and, where two neighbours are less than two apart, spreads
  the whole list: the item at place `k` gets `k * 1000`.
-/

import Imghost.Service.Albums

namespace Imghost.Service

open Imghost.Async Imghost.Data Imghost.Model

variable {albumId : String} {w : World}

/-! ## Items of an album -/

theorem mem_mediaOf {m : Media} : m ∈ w.mediaOf albumId ↔ m ∈ w.media ∧ m.albumId = albumId := by
  rw [World.mediaOf, List.mem_filter, beq_iff_eq]
  exact Iff.rfl

theorem mem_listAlbumMedia {m : Media} : m ∈ w.listAlbumMedia albumId ↔ m ∈ w.mediaOf albumId :=
  List.mem_insertionSort _

theorem listAlbumMedia_sorted (w : World) (albumId : String) :
    (w.listAlbumMedia albumId).Pairwise fun a b => a.position ≤ b.position := by
  have : Std.Total fun a b : Media => a.position ≤ b.position := ⟨fun a b => le_total _ _⟩
  have : IsTrans Media fun a b => a.position ≤ b.position := ⟨fun _ _ _ => le_trans⟩
  exact List.pairwise_insertionSort _ _

theorem listAlbumMedia_perm (w : World) (albumId : String) : (w.listAlbumMedia albumId).Perm (w.mediaOf albumId) :=
  List.perm_insertionSort _ _

theorem listAlbumMedia_nodup (w : World) (albumId : String) : ((w.listAlbumMedia albumId).map (·.id)).Nodup := by
  have hperm : ((w.listAlbumMedia albumId).map (·.id)).Perm ((w.mediaOf albumId).map (·.id)) :=
    (listAlbumMedia_perm w albumId).map _
  exact hperm.nodup_iff.mpr (w.media.unique.sublist (List.filter_sublist.map _))

/-- In a sorted list the smaller position stands first. -/
theorem place_lt {items : List Media} (hsorted : items.Pairwise fun a b => a.position ≤ b.position) {k l : Nat} {m u : Media}
    (hm : items[k]? = some m) (hu : items[l]? = some u) (hlt : m.position < u.position) : k < l := by
  by_contra hge
  obtain ⟨hk, hmk⟩ := List.getElem?_eq_some_iff.mp hm
  obtain ⟨hl, hul⟩ := List.getElem?_eq_some_iff.mp hu
  rcases Nat.lt_or_eq_of_le (Nat.le_of_not_lt hge) with hlk | rfl
  · have hle := List.pairwise_iff_getElem.mp hsorted l k hl hk hlk
    rw [hmk, hul] at hle
    omega
  · obtain rfl : m = u := Option.some.inj (hm.symm.trans hu)
    omega

/-! ## The next position -/

/-- The position of a new item, before the column bounds it: `COALESCE(MAX(position) + 1000, 1000)`. -/
def computedPosition (albumId : String) (w : World) : Int :=
  match ((w.mediaOf albumId).map (·.position)).max? with
  | some p => p + 1000
  | none => 1000

theorem nextPosition_eq {position : Int} (h : w.nextPosition albumId = .ok position) :
    position = computedPosition albumId w := by
  unfold World.nextPosition at h
  unfold computedPosition
  rcases hmax : ((w.mediaOf albumId).map (·.position)).max? with _ | p <;> rw [hmax] at h <;> rw [hmax]
  · exact (Except.ok.inj h).symm
  · dsimp only at h
    split at h
    · exact (Except.ok.inj h).symm
    · cases h

theorem add_le_computed {m : Media} (hm : m ∈ w.mediaOf albumId) : m.position + 1000 ≤ computedPosition albumId w := by
  have hmem : m.position ∈ (w.mediaOf albumId).map (·.position) := List.mem_map_of_mem hm
  unfold computedPosition
  rcases hmax : ((w.mediaOf albumId).map (·.position)).max? with _ | p
  · rw [List.max?_eq_none_iff] at hmax
    rw [hmax] at hmem
    cases hmem
  · have hle := (List.max?_eq_some_iff.mp hmax).2 _ hmem
    rw [hmax]
    dsimp only
    omega

theorem position_lt_computed {m : Media} (hm : m ∈ w.mediaOf albumId) : m.position < computedPosition albumId w := by
  have := add_le_computed hm
  omega

/-- The next position is that of an empty album, or 1000 after an item. -/
theorem computedPosition_cases (albumId : String) (w : World) : computedPosition albumId w = 1000 ∨
    ∃ m ∈ w.mediaOf albumId, computedPosition albumId w = m.position + 1000 := by
  unfold computedPosition
  rcases hmax : ((w.mediaOf albumId).map (·.position)).max? with _ | p
  · exact .inl (by rw [hmax])
  · obtain ⟨m, hm, rfl⟩ := List.mem_map.mp (List.max?_eq_some_iff.mp hmax).1
    exact .inr ⟨m, hm, by rw [hmax]⟩

/-! ## Setting positions -/

theorem setPositions_of_not_mem {positions : List (String × Int)} {m : Media} (h : m.id ∉ positions.map Prod.fst) :
    World.setPositions albumId positions m = m := by
  unfold World.setPositions
  induction positions with
  | nil => rfl
  | cons x positions ih =>
    rw [List.map_cons, List.mem_cons, not_or] at h
    have hx : World.setPosition albumId m x = m := if_neg fun e => h.1 e.1
    rw [List.foldl_cons, hx]
    exact ih h.2

theorem setPositions_of_mem {positions : List (String × Int)} {m : Media} {position : Int} (hm : m.albumId = albumId)
    (hnodup : (positions.map Prod.fst).Nodup) (h : (m.id, position) ∈ positions) :
    (World.setPositions albumId positions m).position = position := by
  induction positions generalizing m with
  | nil => cases h
  | cons x positions ih =>
    rw [List.map_cons, List.nodup_cons] at hnodup
    have hcons : World.setPositions albumId (x :: positions) m =
        World.setPositions albumId positions (World.setPosition albumId m x) := rfl
    rcases List.mem_cons.mp h with rfl | h
    · have hx : World.setPosition albumId m (m.id, position) = { m with position := position } := if_pos ⟨rfl, hm⟩
      have hrest : World.setPositions albumId positions { m with position := position } = { m with position := position } :=
        setPositions_of_not_mem hnodup.1
      rw [hcons, hx, hrest]
    · have hne : m.id ≠ x.1 := by
        intro e
        exact hnodup.1 (e ▸ List.mem_map_of_mem (f := Prod.fst) h)
      have hx : World.setPosition albumId m x = m := if_neg fun e => hne e.1
      rw [hcons, hx]
      exact ih hm hnodup.2 h

theorem setPositions_other {positions : List (String × Int)} {m : Media} (h : m.albumId ≠ albumId) :
    World.setPositions albumId positions m = m := by
  unfold World.setPositions
  induction positions with
  | nil => rfl
  | cons x positions ih =>
    have hx : World.setPosition albumId m x = m := if_neg fun e => h e.2
    rw [List.foldl_cons, hx, ih]

/-- An item keeps its position, or gets one of those written. -/
theorem setPositions_position (positions : List (String × Int)) (m : Media) :
    (World.setPositions albumId positions m).position = m.position ∨
      ∃ x ∈ positions, (World.setPositions albumId positions m).position = x.2 := by
  unfold World.setPositions
  induction positions generalizing m with
  | nil => exact .inl rfl
  | cons x positions ih =>
    rw [List.foldl_cons]
    rcases ih (World.setPosition albumId m x) with h | ⟨y, hy, h⟩
    · rw [h]
      simp only [World.setPosition]
      split
      · exact .inr ⟨x, List.mem_cons_self, rfl⟩
      · exact .inl rfl
    · exact .inr ⟨y, List.mem_cons_of_mem x hy, h⟩

/-! ## The positions asked for -/

theorem collectPositions_eq {items : List Media} {rest done positions : List (String × Int)}
    (h : collectPositions items rest done = .ok positions) (hdone : (done.map Prod.fst).Nodup) :
    positions = done ++ rest ∧ (positions.map Prod.fst).Nodup := by
  induction rest generalizing done with
  | nil =>
    obtain rfl := Except.ok.inj h
    exact ⟨(List.append_nil _).symm, hdone⟩
  | cons x rest ih =>
    obtain ⟨mediaId, position⟩ := x
    rw [collectPositions] at h
    split at h
    · cases h
    split at h
    · cases h
    rename_i hnew
    obtain ⟨heq, hnodup⟩ := ih h (by
      rw [List.map_append, List.nodup_append]
      refine ⟨hdone, List.nodup_singleton _, fun a ha b hb hab => hnew ?_⟩
      obtain ⟨y, hy, hya⟩ := List.mem_map.mp ha
      obtain rfl : b = mediaId := List.mem_singleton.mp hb
      exact List.any_eq_true.mpr ⟨y, hy, beq_iff_eq.mpr (hya.trans hab)⟩)
    exact ⟨by rw [heq, List.append_assoc]; rfl, hnodup⟩

/-- All of them are of items of the album. -/
theorem collectPositions_named {items : List Media} {rest done positions : List (String × Int)}
    (h : collectPositions items rest done = .ok positions) : ∀ x ∈ rest, ∃ m ∈ items, m.id = x.1 := by
  induction rest generalizing done with
  | nil => exact fun _ hx => nomatch hx
  | cons x rest ih =>
    obtain ⟨mediaId, position⟩ := x
    rw [collectPositions] at h
    split at h
    · cases h
    rename_i hfound
    split at h
    · cases h
    refine List.forall_mem_cons.mpr ⟨?_, ih h⟩
    simpa using hfound

/-! ## Rebalancing -/

/-- Neighbours two or more apart: so are any two. -/
theorem apart_of_not_needsRebalance {items : List Media} (h : needsRebalance items = false) :
    items.Pairwise fun a b => a.position + 2 ≤ b.position := by
  induction items with
  | nil => exact List.Pairwise.nil
  | cons a items ih =>
    cases items with
    | nil => exact List.pairwise_singleton _ _
    | cons b items =>
      have hstep : ¬b.position - a.position < 2 ∧ needsRebalance (b :: items) = false := by
        simpa [needsRebalance] using h
      have hrest := ih hstep.2
      refine List.pairwise_cons.mpr ⟨fun c hc => ?_, hrest⟩
      rcases List.mem_cons.mp hc with rfl | hc
      · omega
      · have := (List.pairwise_cons.mp hrest).1 c hc
        omega

theorem pairwise_of_not_needsRebalance {items : List Media} (h : needsRebalance items = false) :
    items.Pairwise fun a b => a.position < b.position := by
  apply (apart_of_not_needsRebalance h).imp
  intro a b hab
  omega

theorem rebalanced_ids (items : List Media) : (rebalanced items).map Prod.fst = items.map (·.id) := by
  have hmap : (rebalanced items).map Prod.fst = items.zipIdx.map fun x => x.1.id := by
    rw [rebalanced, List.map_map]
    rfl
  rw [hmap]
  exact (List.map_map (f := Prod.fst) (g := fun m : Media => m.id) (l := items.zipIdx)).symm.trans
    (by rw [List.zipIdx_map_fst])

theorem mem_rebalanced {items : List Media} {x : String × Int} :
    x ∈ rebalanced items ↔ ∃ index m, items[index]? = some m ∧ x = (m.id, (((index + 1) * 1000 : Nat) : Int)) := by
  simp only [rebalanced, List.mem_map, Prod.exists, List.mem_zipIdx_iff_getElem?]
  constructor
  · rintro ⟨m, index, h, rfl⟩
    exact ⟨index, m, h, rfl⟩
  · rintro ⟨index, m, h, rfl⟩
    exact ⟨m, index, h, rfl⟩

end Imghost.Service
