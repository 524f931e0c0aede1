/-
  Imghost.Sequential.Arrangement — what a reorder leaves, run alone.

  The items that are named take the positions asked for and the others keep theirs;
  then the album is listed. The database orders items of one position as it likes, and
  wherever two neighbours are less than two apart the whole list is spread: its order
  stays, the ties are settled, and every gap is 1000.

  - `reorder_result`: a payload that is accepted gives the album's items, two or more apart
    and in the order of the positions asked for; any other payload changes nothing.
  - A position is a `BIGINT`, and one beyond it is refused (`a_position_beyond_bigint`).
-/

import Imghost.Sequential.Room
import Imghost.Service.Steps

namespace Imghost.Sequential.Arrangement

open Imghost.Async Imghost.Data Imghost.Model Imghost.Service Imghost.Sequential.Room Program

/-! ## Positions asked for -/

/-- The position an item should have: the one the payload names, or its own. -/
def requested (order : List (String × Int)) (m : Media) : Int := (order.lookup m.id).getD m.position

def moved (place : Media → Int) (m : Media) : Media := { m with position := place m }

/-- The items at new places, two or more apart, in the order of the positions asked for. -/
structure Arranged (order : List (String × Int)) (items result : List Media) : Prop where
  placed : ∃ place : Media → Int, result.Perm (items.map (moved place)) ∧
    ∀ m ∈ items, ∀ u ∈ items, requested order m < requested order u → place m < place u
  apart : result.Pairwise fun a b => a.position + 2 ≤ b.position

section

variable {albumId : String} {order : List (String × Int)} {w w₁ w' : World}

/-- An item of the album after the write. -/
theorem setPositions_moves (hunique : (order.map Prod.fst).Nodup) {m : Media} (halbum : m.albumId = albumId) :
    World.setPositions albumId order m = moved (requested order) m := by
  induction order generalizing m with
  | nil => rfl
  | cons x order ih =>
    obtain ⟨mediaId, position⟩ := x
    rw [List.map_cons, List.nodup_cons] at hunique
    have hcons : World.setPositions albumId ((mediaId, position) :: order) m =
        World.setPositions albumId order (World.setPosition albumId m (mediaId, position)) := rfl
    rw [hcons]
    by_cases hid : m.id = mediaId
    · have hset : World.setPosition albumId m (mediaId, position) = { m with position := position } :=
        if_pos ⟨hid, halbum⟩
      have hlater : ({ m with position := position } : Media).id ∉ order.map Prod.fst := by
        show m.id ∉ _
        rw [hid]
        exact hunique.1
      rw [hset, setPositions_of_not_mem hlater]
      simp [moved, requested, hid]
    · have hset : World.setPosition albumId m (mediaId, position) = m := if_neg fun h => hid h.1
      have hother : (m.id == mediaId) = false := by simpa using hid
      rw [hset, ih hunique.2 halbum]
      simp [moved, requested, List.lookup_cons, hother]

/-- The position a payload names is the one asked for. -/
theorem requested_of_mem (hunique : (order.map Prod.fst).Nodup) {m : Media} {position : Int}
    (h : (m.id, position) ∈ order) : requested order m = position := by
  have hwritten := @setPositions_of_mem m.albumId order m position rfl hunique h
  rwa [setPositions_moves hunique rfl] at hwritten

theorem mediaOf_written {positions : List (String × Int)} (h : Written albumId positions w w') :
    w'.mediaOf albumId = (w.mediaOf albumId).map (World.setPositions albumId positions) := by
  rw [World.mediaOf, World.mediaOf, h.rows, List.filter_map]
  congr 1
  apply List.filter_congr
  intro m _
  show ((World.setPositions albumId positions m).albumId == albumId) = _
  rw [(sameItem_setPositions albumId positions m).albumId]

/-- The album after a write: each item where it was asked to be. -/
theorem written_moves (h : Written albumId order w w') (hunique : (order.map Prod.fst).Nodup) :
    w'.mediaOf albumId = (w.mediaOf albumId).map (moved (requested order)) := by
  rw [mediaOf_written h]
  apply List.map_congr_left
  intro m hm
  exact setPositions_moves hunique (mem_mediaOf.mp hm).2

/-! ## One write, or two -/

/-- Far enough apart as written. -/
theorem arranged_of_one_write (h : Written albumId order w w₁) (hunique : (order.map Prod.fst).Nodup)
    (hbalanced : needsRebalance (w₁.listAlbumMedia albumId) = false) :
    Arranged order (w.mediaOf albumId) (w₁.listAlbumMedia albumId) := by
  refine ⟨⟨requested order, ?_, fun _ _ _ _ hlt => hlt⟩, apart_of_not_needsRebalance hbalanced⟩
  rw [← written_moves h hunique]
  exact listAlbumMedia_perm w₁ albumId

/-- Where a list that is spread has an item. -/
theorem spread_place {items : List Media} (hunique : (items.map (·.id)).Nodup) {m : Media} (hm : m ∈ items) :
    ∃ k : Nat, items[k]? = some m ∧ requested (rebalanced items) m = ((k + 1) * 1000 : Nat) := by
  obtain ⟨k, hk, hget⟩ := List.mem_iff_getElem.mp hm
  have hplace : items[k]? = some m := List.getElem?_eq_some_iff.mpr ⟨hk, hget⟩
  refine ⟨k, hplace, requested_of_mem ?_ (mem_rebalanced.mpr ⟨k, m, hplace, rfl⟩)⟩
  rw [rebalanced_ids]
  exact hunique

/-- The list spread: its order stays. -/
theorem arranged_of_two_writes (h : Written albumId order w w₁) (hunique : (order.map Prod.fst).Nodup)
    (hspread : Written albumId (rebalanced (w₁.listAlbumMedia albumId)) w₁ w') :
    Arranged order (w.mediaOf albumId) (w'.listAlbumMedia albumId) := by
  have hids := listAlbumMedia_nodup w₁ albumId
  have hkeys : ((rebalanced (w₁.listAlbumMedia albumId)).map Prod.fst).Nodup := by
    rw [rebalanced_ids]
    exact hids
  have hfirst := written_moves h hunique
  have hsecond := written_moves hspread hkeys
  refine ⟨⟨fun m => requested (rebalanced (w₁.listAlbumMedia albumId)) (moved (requested order) m), ?_, ?_⟩, ?_⟩
  · apply (listAlbumMedia_perm w' albumId).trans
    rw [hsecond, hfirst, List.map_map]
    exact .refl _
  · intro m hm u hu hlt
    have hlisted : ∀ x ∈ w.mediaOf albumId, moved (requested order) x ∈ w₁.listAlbumMedia albumId := by
      intro x hx
      rw [mem_listAlbumMedia, hfirst]
      exact List.mem_map_of_mem hx
    obtain ⟨k, hk, hmk⟩ := spread_place hids (hlisted m hm)
    obtain ⟨l, hl, hul⟩ := spread_place hids (hlisted u hu)
    have hkl : k < l := place_lt (listAlbumMedia_sorted w₁ albumId) hk hl hlt
    show requested _ _ < requested _ _
    rw [hmk, hul]
    omega
  · have hdiffer : (w'.listAlbumMedia albumId).Pairwise fun a b => a.id ≠ b.id :=
      List.pairwise_map.mp (listAlbumMedia_nodup w' albumId)
    have hplace : ∀ a ∈ w'.listAlbumMedia albumId, ∃ (k : Nat) (r : Media),
        (w₁.listAlbumMedia albumId)[k]? = some r ∧ r.id = a.id ∧ a.position = ((k + 1) * 1000 : Nat) := by
      intro a ha
      rw [mem_listAlbumMedia, hsecond] at ha
      obtain ⟨r, hr, rfl⟩ := List.mem_map.mp ha
      obtain ⟨k, hk, hrk⟩ := spread_place hids (mem_listAlbumMedia.mpr hr)
      exact ⟨k, r, hk, rfl, hrk⟩
    apply ((listAlbumMedia_sorted w' albumId).and hdiffer).imp_of_mem
    intro a b ha hb ⟨hle, hne⟩
    obtain ⟨k, r, hr, hra, hak⟩ := hplace a ha
    obtain ⟨l, q, hq, hqb, hbl⟩ := hplace b hb
    have hkl : k ≠ l := by
      rintro rfl
      obtain rfl : r = q := Option.some.inj (hr.symm.trans hq)
      exact hne (hra.symm.trans hqb)
    omega

end

/-! ## What is accepted -/

/-- The album is there and may be edited, and the payload names some of its items, each once, with
    positions the column holds. -/
structure Accepted (albumId : String) (deleteToken : Option String) (actorUser : Option User) (order : List (String × Int))
    (now : DateTime) (w : World) : Prop where
  permitted : ∃ album, w.albums.find? albumId = some album ∧ permits now album deleteToken actorUser false = true
  some : order ≠ []
  known : ∀ x ∈ order, ∃ m ∈ w.mediaOf albumId, m.id = x.1
  distinct : (order.map Prod.fst).Nodup
  inColumn : ∀ x ∈ order, inBigint x.2 = true

/-- The items are returned arranged, and stored so, where the payload is accepted; it fails then only
    where a call has failed. Refused, it has changed nothing. -/
def ReorderIs (albumId : String) (order : List (String × Int)) (accepted faulty : Prop) (w : World)
    (run : Except PyExc (Album × List Media) × World) : Prop :=
  match run.1 with
  | .ok (_, reordered) =>
    accepted ∧ Arranged order (w.mediaOf albumId) reordered ∧ run.2.listAlbumMedia albumId = reordered
  | .error _ => (accepted → faulty) ∧ (¬ accepted → Unchanged w run.2)

/-- Every id is an item's, and none comes twice: those are collected. -/
theorem collectPositions_ok {items : List Media} {rest done : List (String × Int)}
    (hknown : ∀ x ∈ rest, ∃ m ∈ items, m.id = x.1) (hdistinct : ((done ++ rest).map Prod.fst).Nodup) :
    collectPositions items rest done = .ok (done ++ rest) := by
  induction rest generalizing done with
  | nil => rw [collectPositions, List.append_nil]
  | cons x rest ih =>
    obtain ⟨mediaId, position⟩ := x
    obtain ⟨m, hm, hid⟩ := hknown (mediaId, position) List.mem_cons_self
    have hfound : items.any (·.id == mediaId) = true := by
      rw [List.any_eq_true]
      exact ⟨m, hm, beq_iff_eq.mpr hid⟩
    have hnew : ¬ done.any (·.1 == mediaId) = true := by
      intro hany
      obtain ⟨y, hy, hyid⟩ := List.any_eq_true.mp hany
      rw [List.map_append, List.nodup_append] at hdistinct
      exact hdistinct.2.2 y.1 (List.mem_map_of_mem hy) mediaId (by simp) (beq_iff_eq.mp hyid)
    rw [collectPositions, if_neg (by simpa using hfound), if_neg hnew, ih]
    · rw [List.append_assoc]
      rfl
    · intro y hy
      exact hknown y (List.mem_cons_of_mem _ hy)
    · rw [List.append_assoc]
      exact hdistinct

/-! ## One call after the other -/

section

variable {albumId : String} {order : List (String × Int)} {accepted faulty : Prop} {album : Album} {reordered : List Media}
  {ms : List (Moment PyExc)} {w w₁ : World}

theorem refused (hno : ¬ accepted) (h : Unchanged w w₁) (e : PyExc) :
    ReorderIs albumId order accepted faulty w (.error e, w₁) :=
  ⟨fun hyes => absurd hyes hno, fun _ => h⟩

/-- A call failed: at that point nothing was written, or the payload was accepted. -/
theorem failed (hfaulty : faulty) (h : ¬ accepted → Unchanged w w₁) (e : PyExc) :
    ReorderIs albumId order accepted faulty w (.error e, w₁) :=
  ⟨fun _ => hfaulty, h⟩

/-- `updated_at` and the event. -/
def touch (album : Album) (reordered : List Media) (event : BusEvent) : Prog (Album × List Media) := do
  updateAlbumOr404 album
  EventBus.emit event
  return (album, reordered)

theorem touch_arranges (hfind : w₁.albums.find? album.id = some album) (haccepted : accepted)
    (harranged : Arranged order (w.mediaOf albumId) reordered) (hstored : w₁.listAlbumMedia albumId = reordered)
    (hfaulty : ∀ n, (faultAt ms n).isSome = true → faulty) (event : BusEvent) :
    ReorderIs albumId order accepted faulty w (runAlone backend (touch album reordered event) ms w₁) := by
  rw [touch, updateAlbumOr404, sequence_assoc, runAlone_attempt]
  rcases hfault : faultAt ms 0 with _ | e
  · have hexec : ∀ w₂ : World, backend.answer 0 (.updateAlbum album) none w₂ = w₂.updateAlbum album := fun _ => rfl
    have hok := updateAlbum_accepts (w := backend.elapse (ms.headD .quiet).elapsed w₁) hfind rfl
    rw [hexec, hok]
    dsimp only
    rw [sequence_pure, runAlone_emit]
    exact ⟨haccepted, harranged, hstored⟩
  · have hfail : ∀ w₂, backend.answer 0 (.updateAlbum album) (some e) w₂ = (.error e, w₂.unlock 0) := fun _ => rfl
    rw [hfail]
    have hgone : ¬ accepted → ∀ w₂, Unchanged w w₂ := fun hno => absurd haccepted hno
    cases e <;> exact failed (hfaulty 0 (by rw [hfault]; rfl)) (fun hno => hgone hno _) _

/-- The positions of a list that is spread, as long as the list is not too long for the column. -/
theorem rebalanced_inColumn (items : List Media) (hroom : (items.length * 1000 : Int) ≤ bigintMax) :
    ∀ x ∈ rebalanced items, inBigint x.2 = true := by
  intro x hx
  obtain ⟨k, m, hm, rfl⟩ := mem_rebalanced.mp hx
  have hk : k < items.length := (List.getElem?_eq_some_iff.mp hm).1
  rw [inBigint_iff]
  dsimp only
  omega

theorem answer_updateMediaPositions (albumId : String) {positions : List (String × Int)}
    (hrange : ∀ x ∈ positions, inBigint x.2 = true) (w : World) : ∃ w', backend.answer 0 (.updateMediaPositions albumId positions) none w =
        (.ok (w'.listAlbumMedia albumId), w') ∧
      Written albumId positions w w' ∧ w'.albums = w.albums := by
  refine ⟨_, if_pos (List.all_eq_true.mpr hrange), ⟨hrange, rfl⟩, rfl⟩

/-- The write or the two writes, and what follows them. -/
theorem writePositions_arranges {rest : List Media → Prog (Album × List Media)} (haccepted : accepted)
    (hunique : (order.map Prod.fst).Nodup) (hrange : ∀ x ∈ order, inBigint x.2 = true)
    (hroom : ((w.mediaOf albumId).length * 1000 : Int) ≤ bigintMax) (h : Unchanged w w₁)
    (hfaulty : ∀ n, (faultAt ms n).isSome = true → faulty)
    (hrest : ∀ reordered ms' w₂, w₂.albums = w.albums → Arranged order (w.mediaOf albumId) reordered →
      w₂.listAlbumMedia albumId = reordered → (∀ n, (faultAt ms' n).isSome = true → faulty) →
      ReorderIs albumId order accepted faulty w (runAlone backend (rest reordered) ms' w₂)) :
    ReorderIs albumId order accepted faulty w (runAlone backend (writePositions albumId order >>= rest) ms w₁) := by
  obtain ⟨clock, locks, rfl⟩ := h
  have hlater : ∀ n, (faultAt ms.tail n).isSome = true → faulty := by
    intro n hn
    rw [faultAt_tail] at hn
    exact hfaulty _ hn
  rw [writePositions, sequence_assoc, runAlone_await]
  rcases hfault : faultAt ms 0 with _ | e
  swap
  · exact failed (hfaulty 0 (by rw [hfault]; rfl)) (fun hno => absurd haccepted hno) _
  obtain ⟨w₂, hanswer, hwritten, halbums⟩ := answer_updateMediaPositions albumId hrange
    (backend.elapse (ms.headD .quiet).elapsed { w with clock := clock, albumLocks := locks })
  have hwritten : Written albumId order w w₂ := hwritten.congr rfl rfl
  rw [hanswer]
  dsimp only
  by_cases hrebalance : needsRebalance (w₂.listAlbumMedia albumId) = true
  · have hlength : (w₂.listAlbumMedia albumId).length = (w.mediaOf albumId).length := by
      rw [(listAlbumMedia_perm w₂ albumId).length_eq, mediaOf_written hwritten, List.length_map]
    have hspread := rebalanced_inColumn (w₂.listAlbumMedia albumId) (by rw [hlength]; exact hroom)
    rw [if_pos hrebalance, runAlone_await]
    rcases hfault' : faultAt ms.tail 0 with _ | e
    · obtain ⟨w₃, hanswer, hwritten', halbums'⟩ := answer_updateMediaPositions albumId hspread
        (backend.elapse (ms.tail.headD .quiet).elapsed w₂)
      rw [hanswer]
      dsimp only
      apply hrest _ _ _ (halbums'.trans halbums) (arranged_of_two_writes hwritten hunique (hwritten'.congr rfl rfl)) rfl
      intro n hn
      rw [faultAt_tail] at hn
      exact hlater _ hn
    · exact failed (hlater 0 (by rw [hfault']; rfl)) (fun hno => absurd haccepted hno) _
  · rw [if_neg hrebalance, sequence_pure]
    exact hrest _ _ _ halbums (arranged_of_one_write hwritten hunique (Bool.eq_false_iff.mpr hrebalance)) rfl hlater

/-- A position the column cannot hold: the transaction is rolled back. -/
theorem writePositions_refused {rest : List Media → Prog (Album × List Media)} (hno : ¬ accepted)
    (hrange : ¬ ∀ x ∈ order, inBigint x.2 = true) (h : Unchanged w w₁) :
    ReorderIs albumId order accepted faulty w (runAlone backend (writePositions albumId order >>= rest) ms w₁) := by
  rw [writePositions, sequence_assoc, runAlone_await]
  rcases hfault : faultAt ms 0 with _ | e
  · have hexec : ∀ w₂, backend.answer 0 (.updateMediaPositions albumId order) none w₂ = (.error outOfRange, w₂) :=
      fun _ => if_neg fun hall => hrange (List.all_eq_true.mp hall)
    rw [hexec]
    exact refused hno (h.elapse _) _
  · exact refused hno ((h.elapse _).unlock 0) e

/-! ## The whole call -/

theorem reorderAlbum_steps (deleteToken : Option String) (correlationId : String) (actorUser : Option User) :
    reorderAlbum albumId deleteToken order correlationId actorUser =
      (getAlbumOr404 albumId >>= fun album =>
        requireAlbumAccess album deleteToken actorUser false >>= fun _ =>
        Repository.listAlbumMedia albumId >>= fun items =>
        raiseIf order.isEmpty (.http 400 "At least one position update is required.") >>= fun _ =>
        ofExcept (collectPositions items order []) >>= fun positions =>
        writePositions albumId positions >>= fun reordered =>
        touch album reordered (.albumReordered album.id album.userId (actorUser.map (·.id)) (actorKind actorUser deleteToken)
          (sourceOf actorUser) correlationId)) := rfl

/-- The checks of the payload, and what follows them. -/
theorem payload_arranges {deleteToken : Option String} {actorUser : Option User} {now : DateTime} {items : List Media}
    {rest : List Media → Prog (Album × List Media)} (e : PyExc)
    (hpermitted : ∃ album, w.albums.find? albumId = some album ∧ permits now album deleteToken actorUser false = true)
    (hitems : ∀ m, m ∈ items ↔ m ∈ w.mediaOf albumId) (hroom : ((w.mediaOf albumId).length * 1000 : Int) ≤ bigintMax)
    (h : Unchanged w w₁) (hfaulty : ∀ n, (faultAt ms n).isSome = true → faulty)
    (hrest : Accepted albumId deleteToken actorUser order now w → ∀ reordered ms' w₂, w₂.albums = w.albums →
      Arranged order (w.mediaOf albumId) reordered → w₂.listAlbumMedia albumId = reordered →
      (∀ n, (faultAt ms' n).isSome = true → faulty) →
      ReorderIs albumId order (Accepted albumId deleteToken actorUser order now w) faulty w
        (runAlone backend (rest reordered) ms' w₂)) :
    ReorderIs albumId order (Accepted albumId deleteToken actorUser order now w) faulty w
      (runAlone backend (raiseIf order.isEmpty e >>= fun _ => ofExcept (collectPositions items order []) >>= fun positions =>
        writePositions albumId positions >>= rest) ms w₁) := by
  rw [runAlone_check]
  by_cases hempty : order.isEmpty = true
  · rw [if_pos hempty]
    exact refused (fun h => h.some (List.isEmpty_iff.mp hempty)) h _
  rw [if_neg hempty, runAlone_value]
  rcases hcollect : collectPositions items order [] with e | positions
  · refine refused (fun haccepted => ?_) h e
    have hknown : ∀ x ∈ order, ∃ m ∈ items, m.id = x.1 := by
      intro x hx
      obtain ⟨m, hm, hmx⟩ := haccepted.known x hx
      exact ⟨m, (hitems m).mpr hm, hmx⟩
    rw [@collectPositions_ok _ _ [] hknown haccepted.distinct] at hcollect
    cases hcollect
  · obtain ⟨hpositions, hunique⟩ := collectPositions_eq hcollect List.nodup_nil
    obtain rfl : positions = order := hpositions
    have hknown : ∀ x ∈ positions, ∃ m ∈ w.mediaOf albumId, m.id = x.1 := by
      intro x hx
      obtain ⟨m, hm, hmx⟩ := collectPositions_named hcollect x hx
      exact ⟨m, (hitems m).mp hm, hmx⟩
    dsimp only
    by_cases hrange : ∀ x ∈ positions, inBigint x.2 = true
    · have haccepted : Accepted albumId deleteToken actorUser positions now w :=
        ⟨hpermitted, fun h => hempty (List.isEmpty_iff.mpr h), hknown, hunique, hrange⟩
      exact writePositions_arranges haccepted hunique hrange hroom h hfaulty (hrest haccepted)
    · exact writePositions_refused (fun h => hrange h.inColumn) hrange h

end

/-- `reorder_album`, run alone, returns the items of the album two or more apart and in the order
    of the positions asked for, exactly where it accepts the payload and no call fails it, as long
    as the column can hold the positions of the list spread out; a payload it refuses changes nothing. -/
theorem reorder_result (albumId : String) (deleteToken : Option String) (order : List (String × Int)) (correlationId : String)
    (actorUser : Option User) (ms : List (Moment PyExc)) (w : World)
    (hroom : ((w.mediaOf albumId).length * 1000 : Int) ≤ bigintMax) :
    ReorderIs albumId order (Accepted albumId deleteToken actorUser order (checkedAt w ms) w)
      (∃ n, (faultAt ms n).isSome = true) w
      (runAlone backend (reorderAlbum albumId deleteToken order correlationId actorUser) ms w) := by
  have hsame : Unchanged w (backend.elapse (ms.headD .quiet).elapsed w) := (Unchanged.refl w).elapse _
  rw [reorderAlbum_steps, getAlbumOr404, sequence_assoc, runAlone_await]
  rcases hfault : faultAt ms 0 with _ | e
  swap
  · exact failed ⟨0, by rw [hfault]; rfl⟩ (fun _ => hsame.unlock 0) e
  have hexec : ∀ d, backend.exec 0 (.getAlbum albumId) (backend.elapse d w) =
      (.ok (w.albums.find? albumId), backend.elapse d w) := fun _ => rfl
  rw [Backend.answer_none, hexec]
  rcases hfind : w.albums.find? albumId with _ | album
  · refine refused (fun h => ?_) hsame albumNotFound
    obtain ⟨album, hfound, -⟩ := h.permitted
    rw [hfind] at hfound
    cases hfound
  dsimp only
  rw [sequence_pure]
  rcases hpermits : permits (checkedAt w ms) album deleteToken actorUser false with _ | _
  · obtain ⟨e, he⟩ := runAlone_refused (w := backend.elapse (ms.headD .quiet).elapsed w) hpermits _
    rw [he]
    refine refused (fun h => ?_) (hsame.elapse _) e
    obtain ⟨found, hfound, hpermitted⟩ := h.permitted
    obtain rfl : album = found := Option.some.inj (hfind.symm.trans hfound)
    rw [hpermits] at hpermitted
    cases hpermitted
  rw [runAlone_permitted (w := backend.elapse (ms.headD .quiet).elapsed w) hpermits, runAlone_await, faultAt_tail, faultAt_tail]
  rcases hlist : faultAt ms 2 with _ | e
  swap
  · exact failed ⟨2, by rw [hlist]; rfl⟩ (fun _ => ((hsame.elapse _).elapse _).unlock 0) e
  have hlisted : ∀ w', backend.answer 0 (.listAlbumMedia albumId) none w' = (.ok (w'.listAlbumMedia albumId), w') :=
    fun _ => rfl
  rw [hlisted]
  refine payload_arranges _ ⟨album, hfind, hpermits⟩ (fun m => mem_listAlbumMedia) hroom ((hsame.elapse _).elapse _)
    (fun n hn => ?_) fun haccepted reordered ms' w₂ halbums harranged hstored hfaulty => ?_
  · rw [faultAt_tail, faultAt_tail, faultAt_tail] at hn
    exact ⟨_, hn⟩
  · apply touch_arranges _ haccepted harranged hstored hfaulty
    rw [halbums, Table.find?_key hfind, hfind]

/-! ## Two items -/

namespace Sample

open Service.Sample

/-- The anonymous album `a` with the items `m` and `n`. -/
def pair : World := { world with albums := .single album, media := ⟨[media "m", media "n"], by decide⟩ }

def reorder (order : List (String × Int)) : Except PyExc (Album × List Media) × World :=
  runAlone backend (reorderAlbum "a" (some "t") order "c" none) [] pair

end Sample

open Sample in
/-- One apart is too close: they are spread. -/
theorem two_items_swapped :
    Accepted "a" (some "t") none [("m", 5), ("n", 4)] (checkedAt pair []) pair ∧
      (reorder [("m", 5), ("n", 4)]).1.map (fun x => x.2.map fun m => (m.id, m.position)) =
        .ok [("n", 1000), ("m", 2000)] ∧
      ReorderIs "a" [("m", 5), ("n", 4)] (Accepted "a" (some "t") none [("m", 5), ("n", 4)] (checkedAt pair []) pair)
        (∃ n, (faultAt ([] : List (Moment PyExc)) n).isSome = true) pair (reorder [("m", 5), ("n", 4)]) := by
  refine ⟨⟨⟨Service.Sample.album, by decide +kernel, by decide +kernel⟩, by simp, by decide +kernel, by decide, by decide⟩,
    by decide +kernel, ?_⟩
  exact reorder_result "a" (some "t") [("m", 5), ("n", 4)] "c" none [] pair (by decide +kernel)

open Sample in
/-- The payload is not empty, and names an item of the album once; its position is one past the
    column's last, and the reorder raises. -/
theorem a_position_beyond_bigint :
    (∀ x ∈ [("m", bigintMax + 1)], ∃ m ∈ pair.mediaOf "a", m.id = x.1) ∧ ([("m", bigintMax + 1)].map Prod.fst).Nodup ∧
      permits pair.clock Service.Sample.album (some "t") none false = true ∧
      (reorder [("m", bigintMax + 1)]).1 = .error outOfRange ∧
      (reorder [("m", bigintMax + 1)]).2.media.rows = pair.media.rows := by
  decide +kernel

end Imghost.Sequential.Arrangement
