/-
  Imghost.Audit.UserEdits — what `update_user` announces, and what it has changed.

  The one write is the last call. Before it the new admin status is announced, a
  suspension swept over the user's deletion capabilities and announced, the password
  checked, the new limits announced, in this order. So a run that fails leaves a trace
  exactly when something was announced before the place it fails at
  (`update_is_exact_iff`); a run that returns has announced what the row's columns say.

  - A password of three characters beside a new admin status: 400, with the change of
    status announced (`a_refused_password_after_the_promotion`).
-/

import Imghost.Service.Operations
import Imghost.Service.Steps

namespace Imghost.Audit

open Imghost.Async Imghost.Data Imghost.Model Imghost.Service Program

/-! ## What an update should leave -/

/-- The limits two rows of a user differ in. -/
def changedLimits (old new : User) : List (String × Option Int × Option Int) :=
  limitChange "quota_bytes" old.quotaBytes new.quotaBytes ++
    limitChange "rate_limit_rpm" old.rateLimitRpm new.rateLimitRpm ++
    limitChange "rate_limit_bph" old.rateLimitBph new.rateLimitBph

def adminEvents (correlationId : String) (actorId : Option String) (old new : User) : List BusEvent :=
  if new.isAdmin = old.isAdmin then []
  else [.userAdminStatusChanged old.id actorId old.isAdmin new.isAdmin "api" correlationId]

def suspensionEvents (correlationId : String) (actorId : Option String) (old new : User) : List BusEvent :=
  if new.suspended = old.suspended then [] else [.userSuspended old.id actorId new.suspended "api" correlationId]

def limitEvents (correlationId : String) (actorId : Option String) (old new : User) : List BusEvent :=
  if (changedLimits old new).isEmpty then []
  else [.userLimitsChanged old.id actorId (changedLimits old new) "api" correlationId]

/-- The events the stored columns of a user call for, before and after. -/
def userEvents (correlationId : String) (actorId : Option String) (old new : User) : List BusEvent :=
  adminEvents correlationId actorId old new ++ suspensionEvents correlationId actorId old new ++
    limitEvents correlationId actorId old new

structure NoTrace (before after : World) : Prop where
  users : after.users = before.users
  capabilities : after.sharexDeleteCapabilities = before.sharexDeleteCapabilities
  events : after.events = before.events

/-- A call that raised has left no trace; one that returned has announced what changed in the row. -/
def UpdateIsExact (userId correlationId : String) (actorId : Option String) (before : World)
    (run : Except PyExc User × World) : Prop :=
  match run.1 with
  | .error _ => NoTrace before run.2
  | .ok _ => ∃ old new, before.users.find? userId = some old ∧ run.2.users.find? userId = some new ∧
      run.2.events = before.events ++ userEvents correlationId actorId old new

/-! ## Where a run can fail -/

section

variable (payload : UserUpdateInput) (user : User)

def setsAdmin : Bool := payload.isAdmin.getD user.isAdmin != user.isAdmin

def setsSuspended : Bool := payload.suspended.getD user.suspended != user.suspended

/-- The payload suspends a user who is not suspended. -/
def suspends : Bool := setsSuspended payload user && payload.suspended.getD user.suspended

def setsLimits : Bool := !(limitsChanges user payload).isEmpty

/-- The row to be written. -/
def edited (passwordHash : Option String) : User :=
  { user with
    isAdmin := payload.isAdmin.getD user.isAdmin
    suspended := payload.suspended.getD user.suspended
    quotaBytes := payload.quotaBytes.getD user.quotaBytes
    rateLimitRpm := payload.rateLimitRpm.getD user.rateLimitRpm
    rateLimitBph := payload.rateLimitBph.getD user.rateLimitBph
    passwordHash := passwordHash }

/-- The database takes the row: its limits fit their columns, its names are its own. -/
def accepts (w : World) : Bool :=
  World.limitsInRange (edited payload user user.passwordHash) && !w.nameTaken user

/-- The password is refused, or the `n`-th call, the write, fails; and something was announced
    before. -/
def RestFails (rt : Runtime) (salt : String) (w : World) (ms : List (Moment PyExc)) (n : Nat) : Prop :=
  match updatedPasswordHash rt salt user payload.password with
  | .error _ => (setsAdmin payload user || setsSuspended payload user) = true
  | .ok _ => ((faultAt ms n).isSome || !accepts payload user w) = true ∧
      (setsAdmin payload user || setsSuspended payload user || setsLimits payload user) = true

/-- The `n`-th call, the sweep of a suspension, fails after the admin status was announced;
    or it does not fail, and the rest does. -/
def SuspensionFails (rt : Runtime) (salt : String) (w : World) (ms : List (Moment PyExc)) (n : Nat) : Prop :=
  if suspends payload user ∧ (faultAt ms n).isSome then setsAdmin payload user = true
  else RestFails payload user rt salt w ms
    (n + (suspends payload user).toNat + (setsSuspended payload user).toNat + (setsLimits payload user).toNat)

/-- The first of the sweep, the password check and the write that fails comes after
    something was announced. The first call loads the user. -/
def FailsAfterAnnouncing (rt : Runtime) (salt : String) (w : World) (ms : List (Moment PyExc)) : Prop :=
  SuspensionFails payload user rt salt w ms (1 + (setsAdmin payload user).toNat)

end

/-! ## One call after the other -/

/-- What has been sent, and that nothing else has happened while nothing was sent. -/
structure Announced (before : World) (sent : List BusEvent) (w : World) : Prop where
  users : w.users = before.users
  events : w.events = before.events ++ sent
  capabilities : sent = [] → w.sharexDeleteCapabilities = before.sharexDeleteCapabilities

section

variable {before w : World} {sent : List BusEvent} {ms : List (Moment PyExc)} {userId correlationId salt : String}
  {actorId : Option String} {rt : Runtime} {payload : UserUpdateInput} {user : User}

theorem Announced.emit (h : Announced before sent w) (ms : List (Moment PyExc)) (event : BusEvent) :
    Announced before (sent ++ [event]) (emitted ms w event) := by
  refine ⟨h.users, ?_, fun hnil => ?_⟩
  · show w.events ++ [event] = _
    rw [h.events, List.append_assoc]
  · simp at hnil

/-- A run that raises is exact when nothing was sent. -/
theorem exact_error_iff (h : Announced before sent w) (e : PyExc) :
    UpdateIsExact userId correlationId actorId before (.error e, w) ↔ sent = [] := by
  constructor
  · intro hexact
    have hevents : before.events ++ sent = before.events := h.events.symm.trans hexact.events
    simpa using hevents
  · intro hsent
    refine ⟨h.users, h.capabilities hsent, ?_⟩
    show w.events = before.events
    rw [h.events, hsent, List.append_nil]

/-- A call that raises without an effect. -/
theorem Announced.unlocked (h : Announced before sent w) (d : Nat) :
    Announced before sent ((backend.elapse d w).unlock 0) := ⟨h.users, h.events, h.capabilities⟩

theorem Announced.elapse (h : Announced before sent w) (d : Nat) : Announced before sent (backend.elapse d w) :=
  ⟨h.users, h.events, h.capabilities⟩

/-! ## The write -/

theorem updateUser_accepts {x row : User} (hfind : w.users.find? x.id = some row) (hrange : World.limitsInRange x = true)
    (hname : w.nameTaken x = false) :
    w.updateUser x = (.ok (w.setUser x row), { w with users := w.users.update x.id (w.setUser x) (w.setUser_id x) }) := by
  simp [World.updateUser, hrange, hfind, hname]

theorem updateUser_refuses {x row : User} (hfind : w.users.find? x.id = some row)
    (h : (World.limitsInRange x && !w.nameTaken x) = false) : ∃ e, w.updateUser x = (.error e, w) := by
  unfold World.updateUser
  by_cases hrange : World.limitsInRange x = true
  · have hname : w.nameTaken x = true := by simpa [hrange] using h
    exact ⟨uniqueViolation, by simp [hrange, hfind, hname]⟩
  · exact ⟨outOfRange, by simp [hrange]⟩

/-- What the events are about is what the write sets. -/
theorem userEvents_setUser (x : User) :
    userEvents correlationId actorId user (w.setUser x user) = userEvents correlationId actorId user x := rfl

/-- The last call, of a row `x` whose changes have been announced. -/
theorem write_exact_iff {x : User} (h : Announced before sent w) (hfind : before.users.find? userId = some user)
    (hx : x.id = user.id) (hsent : sent = userEvents correlationId actorId user x) :
    UpdateIsExact userId correlationId actorId before
        (runAlone backend (do let _ ← Repository.updateUser x; return x) ms w) ↔
      ¬ (((faultAt ms 0).isSome || !(World.limitsInRange x && !before.nameTaken x)) = true ∧ sent ≠ []) := by
  have hid : user.id = userId := Table.find?_key hfind
  rw [runAlone_await]
  rcases hfault : faultAt ms 0 with _ | e
  · have hrow : (backend.elapse (ms.headD .quiet).elapsed w).users.find? x.id = some user := by
      show w.users.find? x.id = some user
      rw [h.users, hx, hid, hfind]
    have hname : (backend.elapse (ms.headD .quiet).elapsed w).nameTaken x = before.nameTaken x := by
      show w.nameTaken x = before.nameTaken x
      rw [World.nameTaken, h.users]
      rfl
    have hexec : ∀ w', backend.exec 0 (.updateUser x) w' = World.updateUser w' x := fun _ => rfl
    rw [Backend.answer_none, hexec]
    by_cases hok : (World.limitsInRange x && !before.nameTaken x) = true
    · obtain ⟨hrange, hfree⟩ : World.limitsInRange x = true ∧ before.nameTaken x = false := by simpa using hok
      rw [updateUser_accepts hrow hrange (hname.trans hfree)]
      refine iff_of_true ⟨user, (backend.elapse (ms.headD .quiet).elapsed w).setUser x user, hfind, ?_, ?_⟩ ?_
      · dsimp only
        simp only [runAlone_pure, Table.find?_update, hx, hid, if_true]
        show Option.map _ (w.users.find? userId) = _
        rw [h.users, hfind]
        rfl
      · dsimp only
        show w.events = _
        rw [h.events, hsent, userEvents_setUser]
      · simp [hok]
    · have hrefused : (World.limitsInRange x && !before.nameTaken x) = false := by simpa using hok
      obtain ⟨e, he⟩ := updateUser_refuses hrow (hname ▸ hrefused)
      rw [he]
      show UpdateIsExact _ _ _ _ (.error e, _) ↔ _
      rw [exact_error_iff (h.elapse _), hrefused]
      simp
  · show UpdateIsExact _ _ _ _ (.error e, _) ↔ _
    rw [exact_error_iff (h.unlocked _)]
    simp

/-! ## From the password check on -/

/-- What has been announced before the password is checked. -/
def announcedBefore (correlationId : String) (actorId : Option String) (payload : UserUpdateInput) (user : User) :
    List BusEvent :=
  adminEvents correlationId actorId user (edited payload user user.passwordHash) ++
    suspensionEvents correlationId actorId user (edited payload user user.passwordHash)

theorem userEvents_edited (passwordHash : Option String) :
    userEvents correlationId actorId user (edited payload user passwordHash) =
      announcedBefore correlationId actorId payload user ++
        if (limitsChanges user payload).isEmpty then []
        else [.userLimitsChanged user.id actorId (limitsChanges user payload) "api" correlationId] := rfl

theorem announcedBefore_ne_nil :
    announcedBefore correlationId actorId payload user ≠ [] ↔
      (setsAdmin payload user || setsSuspended payload user) = true := by
  simp only [announcedBefore, adminEvents, suspensionEvents, edited, setsAdmin, setsSuspended]
  by_cases hadmin : payload.isAdmin.getD user.isAdmin = user.isAdmin
  · by_cases hsuspended : payload.suspended.getD user.suspended = user.suspended
    · simp [hadmin, hsuspended]
    · simp [hadmin, hsuspended]
  · simp [hadmin]

/-- The program from the password check on. -/
def checkAndWrite (rt : Runtime) (payload : UserUpdateInput) (user : User) (correlationId : String)
    (actorId : Option String) (salt : String) : Prog User := do
  let passwordHash ← ofExcept (updatedPasswordHash rt salt user payload.password)
  announceLimits user (limitsChanges user payload) correlationId actorId
  let _ ← Repository.updateUser (edited payload user passwordHash)
  return edited payload user passwordHash

theorem check_exact_iff (h : Announced before (announcedBefore correlationId actorId payload user) w)
    (hfind : before.users.find? userId = some user) :
    UpdateIsExact userId correlationId actorId before
        (runAlone backend (checkAndWrite rt payload user correlationId actorId salt) ms w) ↔
      ¬ RestFails payload user rt salt before ms (setsLimits payload user).toNat := by
  rw [checkAndWrite, runAlone_value, RestFails]
  rcases updatedPasswordHash rt salt user payload.password with e | passwordHash
  · show UpdateIsExact _ _ _ _ (.error e, w) ↔ _
    rw [exact_error_iff h, ← announcedBefore_ne_nil, not_not]
  · dsimp only
    by_cases hempty : (limitsChanges user payload).isEmpty = true
    · have hlimits : setsLimits payload user = false := by simp [setsLimits, hempty]
      have hsent : announcedBefore correlationId actorId payload user =
          userEvents correlationId actorId user (edited payload user passwordHash) := by
        rw [userEvents_edited, if_pos hempty, List.append_nil]
      have hwrite := @write_exact_iff before w _ ms userId correlationId actorId user
        (edited payload user passwordHash) h hfind rfl hsent
      rw [announceLimits, if_pos hempty, hlimits, Bool.or_false, ← announcedBefore_ne_nil]
      exact hwrite
    · have hlimits : setsLimits payload user = true := by simpa [setsLimits] using hempty
      rw [announceLimits, if_neg hempty, runAlone_emit, hlimits]
      have hsent : announcedBefore correlationId actorId payload user ++
          [.userLimitsChanged user.id actorId (limitsChanges user payload) "api" correlationId] =
          userEvents correlationId actorId user (edited payload user passwordHash) := by
        rw [userEvents_edited, if_neg hempty]
      have hwrite := @write_exact_iff before _ _ ms.tail userId correlationId actorId user
        (edited payload user passwordHash) (h.emit ms _) hfind rfl hsent
      rw [hwrite, faultAt_tail]
      simp [accepts, edited, World.nameTaken, World.limitsInRange]

/-! ## From the suspension on -/

theorem restFails_tail (n : Nat) :
    RestFails payload user rt salt w ms.tail n ↔ RestFails payload user rt salt w ms (n + 1) := by
  simp only [RestFails, faultAt_tail]

theorem adminEvents_ne_nil :
    adminEvents correlationId actorId user (edited payload user user.passwordHash) ≠ [] ↔
      setsAdmin payload user = true := by
  by_cases h : payload.isAdmin.getD user.isAdmin = user.isAdmin
  · simp [adminEvents, edited, setsAdmin, h]
  · simp [adminEvents, edited, setsAdmin, h]

/-- The program from the suspension on. -/
def suspendAndWrite (rt : Runtime) (payload : UserUpdateInput) (user : User) (correlationId : String)
    (actorId : Option String) (salt : String) : Prog User := do
  applySuspension user (payload.suspended.getD user.suspended) correlationId actorId
  checkAndWrite rt payload user correlationId actorId salt

/-- The sweep goes through, and the suspension is announced. -/
theorem Announced.suspended (h : Announced before sent w) (user : User) (ms ms' : List (Moment PyExc))
    (event : BusEvent) :
    Announced before (sent ++ [event])
      (emitted ms' ((backend.elapse (ms.headD .quiet).elapsed w).revokeSharexDeleteCapabilitiesForUser user.id).2
        event) := by
  refine ⟨h.users, ?_, fun hnil => ?_⟩
  · show w.events ++ [event] = _
    rw [h.events, List.append_assoc]
  · simp at hnil

theorem suspension_exact_iff
    (h : Announced before (adminEvents correlationId actorId user (edited payload user user.passwordHash)) w)
    (hfind : before.users.find? userId = some user) :
    UpdateIsExact userId correlationId actorId before
        (runAlone backend (suspendAndWrite rt payload user correlationId actorId salt) ms w) ↔
      ¬ SuspensionFails payload user rt salt before ms 0 := by
  rw [suspendAndWrite, applySuspension, SuspensionFails]
  by_cases hsame : payload.suspended.getD user.suspended = user.suspended
  · have hsets : setsSuspended payload user = false := by simp [setsSuspended, hsame]
    have hsuspends : suspends payload user = false := by simp [suspends, hsets]
    have hbefore : announcedBefore correlationId actorId payload user =
        adminEvents correlationId actorId user (edited payload user user.passwordHash) := by
      simp [announcedBefore, suspensionEvents, edited, hsame]
    rw [← hbefore] at h
    rw [if_pos hsame, sequence_pure, hsuspends, hsets, if_neg (by simp)]
    simpa using check_exact_iff h hfind
  · have hsets : setsSuspended payload user = true := by simpa [setsSuspended] using hsame
    have hbefore : announcedBefore correlationId actorId payload user =
        adminEvents correlationId actorId user (edited payload user user.passwordHash) ++
          [.userSuspended user.id actorId (payload.suspended.getD user.suspended) "api" correlationId] := by
      simp [announcedBefore, suspensionEvents, edited, hsame]
    rw [if_neg hsame]
    rcases hsuspended : payload.suspended.getD user.suspended with _ | _
    · -- the suspension is lifted: nothing to sweep
      have hsuspends : suspends payload user = false := by simp [suspends, hsuspended]
      have hrest := h.emit ms (.userSuspended user.id actorId false "api" correlationId)
      rw [hsuspended] at hbefore
      rw [← hbefore] at hrest
      have hiff := @check_exact_iff _ _ ms.tail _ _ salt _ rt _ _ hrest hfind
      rw [restFails_tail] at hiff
      rw [hsuspends, hsets, if_neg (by simp)]
      show UpdateIsExact _ _ _ _ (runAlone backend (EventBus.emit _ >>= fun _ => checkAndWrite _ _ _ _ _ _) ms w) ↔ _
      rw [runAlone_emit, hiff]
      simp [Nat.add_comm]
    · have hsuspends : suspends payload user = true := by simp [suspends, hsuspended, hsets]
      rw [revokeOnSuspension, if_pos rfl, sequence_assoc, sequence_assoc, runAlone_await]
      rcases hfault : faultAt ms 0 with _ | e
      · have hrest := h.suspended user ms ms.tail (.userSuspended user.id actorId true "api" correlationId)
        rw [hsuspended] at hbefore
        rw [← hbefore] at hrest
        have hiff := @check_exact_iff _ _ ms.tail.tail _ _ salt _ rt _ _ hrest hfind
        have hcount : (setsLimits payload user).toNat + 1 + 1 =
            0 + true.toNat + true.toNat + (setsLimits payload user).toNat := by
          simp only [Bool.toNat_true]
          omega
        rw [restFails_tail, restFails_tail, hcount] at hiff
        rw [hsuspends, hsets, if_neg (by simp)]
        show UpdateIsExact _ _ _ _ (runAlone backend (EventBus.emit _ >>= fun _ => checkAndWrite _ _ _ _ _ _) _ _) ↔ _
        rw [runAlone_emit, hiff]
      · show UpdateIsExact _ _ _ _ (.error e, _) ↔ _
        rw [exact_error_iff (h.unlocked _), if_pos (by simp [hsuspends]), ← adminEvents_ne_nil, not_not]

theorem suspensionFails_tail (n : Nat) :
    SuspensionFails payload user rt salt w ms.tail n ↔ SuspensionFails payload user rt salt w ms (n + 1) := by
  simp only [SuspensionFails, RestFails, faultAt_tail]
  simp only [Nat.add_right_comm _ _ 1]

/-! ## The whole call -/

/-- The program once the user is loaded. -/
theorem updateUser_loaded : updateUser rt userId payload correlationId actorId salt =
    (getUserOr404 userId >>= fun user =>
      announceAdminStatus user (payload.isAdmin.getD user.isAdmin) "api" correlationId actorId >>= fun _ =>
      suspendAndWrite rt payload user correlationId actorId salt) := rfl

/-- The user is stored and was loaded: what follows is exact unless it fails too late. -/
theorem loaded_exact_iff (h : Announced before [] w) (hfind : before.users.find? userId = some user) :
    UpdateIsExact userId correlationId actorId before
        (runAlone backend (do
          announceAdminStatus user (payload.isAdmin.getD user.isAdmin) "api" correlationId actorId
          suspendAndWrite rt payload user correlationId actorId salt) ms w) ↔
      ¬ SuspensionFails payload user rt salt before ms (setsAdmin payload user).toNat := by
  rw [announceAdminStatus]
  by_cases hsame : payload.isAdmin.getD user.isAdmin = user.isAdmin
  · have hsets : setsAdmin payload user = false := by simp [setsAdmin, hsame]
    have hadmin : adminEvents correlationId actorId user (edited payload user user.passwordHash) = [] := by
      simp [adminEvents, edited, hsame]
    rw [if_pos hsame, sequence_pure, hsets]
    exact suspension_exact_iff (hadmin ▸ h) hfind
  · have hsets : setsAdmin payload user = true := by simpa [setsAdmin] using hsame
    have hadmin : adminEvents correlationId actorId user (edited payload user user.passwordHash) =
        [.userAdminStatusChanged user.id actorId user.isAdmin (payload.isAdmin.getD user.isAdmin) "api"
          correlationId] := by
      simp [adminEvents, edited, hsame]
    have hiff := @suspension_exact_iff before _ ms.tail userId correlationId salt actorId rt payload user
      (hadmin ▸ h.emit ms _) hfind
    rw [suspensionFails_tail] at hiff
    rw [if_neg hsame, runAlone_emit, hsets, hiff]
    rfl

/-- `update_user` leaves no trace where it raises and announces what it changed where it
    returns, unless it fails after it has announced something. -/
theorem update_is_exact_iff (rt : Runtime) (userId : String) (payload : UserUpdateInput) (correlationId : String)
    (actorId : Option String) (salt : String) (ms : List (Moment PyExc)) (w : World) :
    UpdateIsExact userId correlationId actorId w
        (runAlone backend (updateUser rt userId payload correlationId actorId salt) ms w) ↔
      ∀ user, w.users.find? userId = some user → faultAt ms 0 = none →
        ¬ FailsAfterAnnouncing payload user rt salt w ms := by
  have hnothing : Announced w [] w := ⟨rfl, (List.append_nil _).symm, fun _ => rfl⟩
  rw [updateUser_loaded, getUserOr404, sequence_assoc, runAlone_await]
  rcases hfault : faultAt ms 0 with _ | e
  · have hexec : ∀ d, backend.exec 0 (.getUser userId) (backend.elapse d w) =
        (.ok (w.users.find? userId), backend.elapse d w) := fun _ => rfl
    rw [Backend.answer_none, hexec]
    rcases hfind : w.users.find? userId with _ | user
    · show UpdateIsExact _ _ _ _ (.error userNotFound, _) ↔ _
      rw [exact_error_iff (hnothing.elapse _)]
      simp
    · have hiff := @loaded_exact_iff w _ ms.tail userId correlationId salt actorId rt payload user
        (hnothing.elapse (ms.headD .quiet).elapsed) hfind
      rw [suspensionFails_tail, Nat.add_comm] at hiff
      dsimp only
      rw [sequence_pure, hiff]
      simp [FailsAfterAnnouncing]
  · show UpdateIsExact _ _ _ _ (.error e, _) ↔ _
    rw [exact_error_iff (hnothing.unlocked _)]
    simp

end

/-! ## A refused password -/

namespace Sample

open Service.Sample

/-- A user `u` who is neither an administrator nor suspended. -/
def site : World := { world with users := .single user }

/-- Makes the user an administrator, with a password of three characters. -/
def promotion : UserUpdateInput :=
  { isAdmin := .set true, suspended := none, quotaBytes := .unset, rateLimitRpm := .unset, rateLimitBph := .unset,
    password := some "abc" }

def promote : Except PyExc User × World :=
  runAlone backend (updateUser runtime "u" promotion "c" (some "root") "salt") [] site

end Sample

open Sample in
/-- The update is refused, and the change of status it has not made is announced. -/
theorem a_refused_password_after_the_promotion :
    promote.1 = .error (.http 400 "Password must be at least 8 characters.") ∧
      promote.2.users.rows = site.users.rows ∧
      promote.2.events = [.userAdminStatusChanged "u" (some "root") false true "api" "c"] ∧
      ¬ UpdateIsExact "u" "c" (some "root") site promote := by
  have hresult : promote.1 = .error (.http 400 "Password must be at least 8 characters.") := by decide +kernel
  have hevents : promote.2.events = [.userAdminStatusChanged "u" (some "root") false true "api" "c"] := by decide +kernel
  refine ⟨hresult, by decide +kernel, hevents, fun h => ?_⟩
  rw [UpdateIsExact, hresult] at h
  have hnone : promote.2.events = [] := h.events
  rw [hevents] at hnone
  cases hnone

end Imghost.Audit
