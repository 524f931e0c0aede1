/-
  Imghost.Service.Steps — the calls the operations share, as equations of a run alone.

  An event is sent whatever the environment does; the access check reads the clock and
  then either lets the rest run or raises. Where nothing happens at any call, a run takes
  one request after the other from the world it finds (`quiet_ask`).
-/

import Imghost.Async.Moments
import Imghost.Model.Frames
import Imghost.Service.Albums

namespace Imghost.Service

open Imghost.Async Imghost.Model Program

variable {α : Type}

/-- The world after an event was sent. -/
def emitted (ms : List (Moment PyExc)) (w : World) (event : BusEvent) : World :=
  { w with clock := w.clock + (ms.headD .quiet).elapsed, events := w.events ++ [event] }

theorem runAlone_emit (event : BusEvent) (f : Unit → Prog α) (ms : List (Moment PyExc)) (w : World) :
    runAlone backend (EventBus.emit event >>= f) ms w = runAlone backend (f ()) ms.tail (emitted ms w event) := by
  rw [runAlone_await]
  cases faultAt ms 0 <;> rfl

/-- Events are sent and never taken back. -/
theorem events_grow (p : Prog α) (ms : List (Moment PyExc)) (w : World) : w.events <+: (runAlone backend p ms w).2.events := by
  induction p generalizing ms w with
  | ret a => exact List.prefix_rfl
  | raise e => exact List.prefix_rfl
  | call r k ih =>
    refine List.IsPrefix.trans ?_ (ih _ _ _)
    by_cases h : ∃ event, r = .emit event
    · obtain ⟨event, rfl⟩ := h
      have hsent : ∀ fault w', (backend.answer 0 (.emit event) fault w').2.events = w'.events ++ [event] := by
        intro fault w'
        cases fault <;> rfl
      rw [hsent]
      exact List.prefix_append _ _
    · rw [answer_events fun event hr => h ⟨event, hr⟩]
      exact List.prefix_rfl

theorem updateAlbum_accepts {w : World} {x row : Album} (hfind : w.albums.find? x.id = some row) (huser : x.userId = row.userId) :
    w.updateAlbum x =
      (.ok (w.setAlbum x row), { w with albums := w.albums.update x.id (w.setAlbum x) (w.setAlbum_id x) }) := by
  simp [World.updateAlbum, hfind, huser]

/-- Nothing but the time has changed, and the locks the run gave back. -/
def Unchanged (w w' : World) : Prop := ∃ clock albumLocks, w' = { w with clock := clock, albumLocks := albumLocks }

theorem Unchanged.refl (w : World) : Unchanged w w := ⟨w.clock, w.albumLocks, rfl⟩

theorem Unchanged.elapse {w w' : World} (h : Unchanged w w') (d : Nat) : Unchanged w (backend.elapse d w') := by
  obtain ⟨clock, locks, rfl⟩ := h
  exact ⟨clock + d, locks, rfl⟩

theorem Unchanged.unlock {w w' : World} (h : Unchanged w w') (i : Nat) : Unchanged w (w'.unlock i) := by
  obtain ⟨clock, locks, rfl⟩ := h
  exact ⟨clock, _, rfl⟩

/-- The clock at the second call, where an album is checked after it was loaded. -/
def checkedAt (w : World) (ms : List (Moment PyExc)) : DateTime :=
  w.clock + (ms.headD .quiet).elapsed + (ms.tail.headD .quiet).elapsed

/-- What the access check lets through at the time `now`. -/
def permits (now : DateTime) (album : Album) (deleteToken : Option String) (actorUser : Option User) (allowExpired : Bool) :
    Bool :=
  (allowExpired || !isExpired now album.expiresAt) &&
    (adminOrOwner album actorUser ||
      (album.deleteToken.isSome && !(truthy album.deleteToken && deleteToken != album.deleteToken)))

variable {album : Album} {deleteToken : Option String} {actorUser : Option User} {allowExpired : Bool}
  {ms : List (Moment PyExc)} {w : World}

theorem runAlone_access (f : Unit → Prog α) :
    let w' := backend.elapse (ms.headD .quiet).elapsed w
    if permits w'.clock album deleteToken actorUser allowExpired then
      runAlone backend (requireAlbumAccess album deleteToken actorUser allowExpired >>= f) ms w =
        runAlone backend (f ()) ms.tail w'
    else ∃ e, runAlone backend (requireAlbumAccess album deleteToken actorUser allowExpired >>= f) ms w = (.error e, w') := by
  intro w'
  have hclock : backend.answer 0 .utcnow (faultAt ms 0) w' = (.ok w'.clock, w') := by
    cases faultAt ms 0 <;> rfl
  rw [requireAlbumAccess, sequence_assoc, runAlone_await, hclock]
  dsimp only
  rw [sequence_assoc, runAlone_check]
  by_cases hexpired : (!allowExpired && isExpired w'.clock album.expiresAt) = true
  · have hno : permits w'.clock album deleteToken actorUser allowExpired = false := by
      obtain ⟨hallow, hexpired⟩ : allowExpired = false ∧ isExpired w'.clock album.expiresAt = true := by
        simpa using hexpired
      simp [permits, hallow, hexpired]
    rw [hno, if_neg (by simp), if_pos hexpired]
    exact ⟨_, rfl⟩
  · have hlive : (allowExpired || !isExpired w'.clock album.expiresAt) = true := by
      cases allowExpired with
      | true => rfl
      | false => simpa using hexpired
    rw [if_neg hexpired]
    by_cases hactor : adminOrOwner album actorUser = true
    · have hyes : permits w'.clock album deleteToken actorUser allowExpired = true := by
        rw [permits, hlive, hactor]
        rfl
      rw [hyes, if_pos rfl, if_pos hactor, sequence_pure]
    · rw [if_neg hactor, sequence_assoc, runAlone_check]
      rcases htoken : album.deleteToken with _ | token
      · have hno : permits w'.clock album deleteToken actorUser allowExpired = false := by simp [permits, hactor, htoken]
        rw [hno, if_neg (by simp), if_pos (by simp)]
        exact ⟨_, rfl⟩
      · rw [if_neg (c := (some token).isNone = true) (by simp), requireDeleteToken, runAlone_check, htoken]
        by_cases hequal : (truthy (some token) && deleteToken != some token) = true
        · have hno : permits w'.clock album deleteToken actorUser allowExpired = false := by
            simp only [permits, htoken, hequal]
            simp [hactor]
          rw [hno, if_neg (by simp), if_pos hequal]
          exact ⟨_, rfl⟩
        · have hyes : permits w'.clock album deleteToken actorUser allowExpired = true := by
            simp only [permits, htoken, Bool.eq_false_iff.mpr hequal, hlive]
            simp
          rw [hyes, if_pos rfl, if_neg hequal]

theorem runAlone_permitted
    (h : permits (backend.elapse (ms.headD .quiet).elapsed w).clock album deleteToken actorUser allowExpired = true)
    (f : Unit → Prog α) :
    runAlone backend (requireAlbumAccess album deleteToken actorUser allowExpired >>= f) ms w =
      runAlone backend (f ()) ms.tail (backend.elapse (ms.headD .quiet).elapsed w) := by
  have haccess := @runAlone_access _ album deleteToken actorUser allowExpired ms w f
  dsimp only at haccess
  rwa [if_pos h] at haccess

theorem runAlone_refused
    (h : permits (backend.elapse (ms.headD .quiet).elapsed w).clock album deleteToken actorUser allowExpired = false)
    (f : Unit → Prog α) :
    ∃ e, runAlone backend (requireAlbumAccess album deleteToken actorUser allowExpired >>= f) ms w =
      (.error e, backend.elapse (ms.headD .quiet).elapsed w) := by
  have haccess := @runAlone_access _ album deleteToken actorUser allowExpired ms w f
  dsimp only at haccess
  rwa [if_neg (Bool.eq_false_iff.mp h)] at haccess

/-! ## With nothing happening -/

theorem elapse_zero (w : World) : backend.elapse 0 w = w := by
  simp [backend]

theorem quiet_ask (r : Req) (f : Reply r → Prog α) (w : World) :
    runAlone backend (ask r >>= f) [] w =
      match exec 0 r w with
      | (.ok a, w') => runAlone backend (f a) [] w'
      | (.error e, w') => (.error e, w') := by
  rw [runAlone_bind, runAlone_perform, elapse_zero, show backend.exec 0 r w = exec 0 r w from rfl]
  rcases exec 0 r w with ⟨e | a, w'⟩ <;> rfl

theorem quiet_emit (event : BusEvent) (f : Unit → Prog α) (w : World) :
    runAlone backend (EventBus.emit event >>= f) [] w =
      runAlone backend (f ()) [] { w with events := w.events ++ [event] } := by
  rw [quiet_ask]
  rfl

theorem quiet_emit_sends (event : BusEvent) (f : Unit → Prog α) (w : World) :
    w.events ++ [event] <+: (runAlone backend (EventBus.emit event >>= f) [] w).2.events := by
  rw [quiet_emit]
  exact events_grow (f ()) [] { w with events := w.events ++ [event] }

theorem quiet_getAlbum {albumId : String} (h : w.albums.find? albumId = some album) (f : Album → Prog α) :
    runAlone backend (getAlbumOr404 albumId >>= f) [] w = runAlone backend (f album) [] w := by
  have hexec : exec 0 (.getAlbum albumId) w = (.ok (some album), w) := by rw [← h]; rfl
  rw [getAlbumOr404, sequence_assoc, quiet_ask, hexec]
  rfl

theorem quiet_getMedia {mediaId : String} {media : Media} (h : w.media.find? mediaId = some media) (f : Media → Prog α) :
    runAlone backend (getMediaOr404 mediaId >>= f) [] w = runAlone backend (f media) [] w := by
  have hexec : exec 0 (.getMedia mediaId) w = (.ok (some media), w) := by rw [← h]; rfl
  rw [getMediaOr404, sequence_assoc, quiet_ask, hexec]
  rfl

/-- One call whose exception is caught. -/
theorem quiet_attempt (r : Req) (f : Except PyExc (Reply r) → Prog α) (w : World) :
    runAlone backend (Program.attempt (ask r) >>= f) [] w = runAlone backend (f (exec 0 r w).1) [] (exec 0 r w).2 := by
  have hnow : backend.answer 0 r (faultAt [] 0) (backend.elapse (([] : List (Moment PyExc)).headD .quiet).elapsed w) =
      exec 0 r w := congrArg (exec 0 r) (elapse_zero w)
  rw [runAlone_attempt, hnow]
  rfl

theorem quiet_deleteAlbum {albumId : String} (hfind : w.albums.find? albumId = some album)
    (f : Option Album × List Media → Prog α) :
    runAlone backend (Repository.deleteAlbum albumId >>= f) [] w =
      runAlone backend (f (some album, w.listAlbumMedia albumId)) [] (w.deleteAlbumRow albumId).2 := by
  have hselect : exec 0 (.selectAlbumMedia albumId) w = (.ok (w.listAlbumMedia albumId), w) := rfl
  have hdelete : exec 0 (.deleteAlbumRow albumId) w = (.ok (some album), (w.deleteAlbumRow albumId).2) := by
    rw [← hfind]
    rfl
  rw [Repository.deleteAlbum, sequence_assoc, quiet_ask, hselect]
  dsimp only
  rw [sequence_assoc, quiet_ask, hdelete]
  rfl

theorem quiet_permitted (h : permits w.clock album deleteToken actorUser allowExpired = true) (f : Unit → Prog α) :
    runAlone backend (requireAlbumAccess album deleteToken actorUser allowExpired >>= f) [] w =
      runAlone backend (f ()) [] w := by
  have hnow : backend.elapse (([] : List (Moment PyExc)).headD .quiet).elapsed w = w := elapse_zero w
  have hrun := @runAlone_permitted α album deleteToken actorUser allowExpired [] w (by rw [hnow]; exact h) f
  rwa [hnow] at hrun

end Imghost.Service
