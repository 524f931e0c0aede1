/-
  Imghost.Concurrency.UserColumns — concurrent changes of one user row.

  `change_password` works on the user object that was loaded when its request was
  authenticated; `update_user`, `set_user_admin_status` and `reset_user_password` load
  their own. All four write the whole row back, so a column an operation does not
  change goes back to what it was when the operation loaded the user: a suspension or
  a demotion that happened in between is undone.
-/

import Imghost.Async.WriteBack
import Imghost.Service.Footprint

namespace Imghost.Concurrency.UserColumns

open Imghost.Async Imghost.Data Imghost.Model Imghost.Service

variable {α : Type} {rt : Runtime}

/-! ## What an operation changes -/

inductive Column where
  | isAdmin
  | suspended
  | quotaBytes
  | passwordHash

def Column.Value : Column → Type
  | .isAdmin | .suspended => Bool
  | .quotaBytes => Option Int
  | .passwordHash => Option String

def Column.get : (c : Column) → User → c.Value
  | .isAdmin, user => user.isAdmin
  | .suspended, user => user.suspended
  | .quotaBytes, user => user.quotaBytes
  | .passwordHash, user => user.passwordHash

instance (c : Column) : DecidableEq c.Value :=
  match c with
  | .isAdmin | .suspended => inferInstanceAs (DecidableEq Bool)
  | .quotaBytes => inferInstanceAs (DecidableEq (Option Int))
  | .passwordHash => inferInstanceAs (DecidableEq (Option String))

/-- The hash of a password that is accepted. -/
def newHash (rt : Runtime) (salt password label : String) (old : Option String) : Option String :=
  match acceptPassword rt salt password label with
  | .ok hash => some hash
  | .error _ => old

/-- `update_user` takes a password only where one is given. -/
def patchedHash (rt : Runtime) (salt : String) (user : User) : Option String → Option String
  | none => user.passwordHash
  | some password => newHash rt salt password "Password" user.passwordHash

/-- The row an operation writes back, of the row it loaded. -/
def edited (rt : Runtime) : Op → User → User
  | .updateUser _ payload _ _ salt, user =>
    { user with
      isAdmin := payload.isAdmin.getD user.isAdmin
      suspended := payload.suspended.getD user.suspended
      quotaBytes := payload.quotaBytes.getD user.quotaBytes
      rateLimitRpm := payload.rateLimitRpm.getD user.rateLimitRpm
      rateLimitBph := payload.rateLimitBph.getD user.rateLimitBph
      passwordHash := patchedHash rt salt user payload.password }
  | .setUserAdminStatus _ isAdmin _ _ _, user => { user with isAdmin := isAdmin }
  | .resetUserPassword _ newPassword _ _ salt, user =>
    { user with passwordHash := newHash rt salt newPassword "New password" user.passwordHash }
  | .changePassword _ payload _ _ salt, user =>
    { user with passwordHash := newHash rt salt payload.newPassword "New password" user.passwordHash }
  | _, user => user

theorem edited_id (op : Op) (user : User) : (edited rt op user).id = user.id := by cases op <;> rfl

/-- The operations on the row of the user `userId`. -/
def OnUser (userId : String) : Op → Prop
  | .updateUser id _ _ _ _ | .setUserAdminStatus id _ _ _ _ => id = userId
  | .resetUserPassword id _ _ _ _ | .changePassword id _ _ _ _ => id = userId
  | _ => False

/-! ## What an operation has read and written -/

def nothing : Draft User := { read := none, written := none }

def Held.next (g : Draft User) : Call → Draft User
  | ⟨.getUser _, .ok (some s), _⟩ => { g with read := some s }
  | ⟨.updateUser x, .ok _, _⟩ => { g with written := some x }
  | _ => g

/-- One snapshot, and at most one write-back, of the edited snapshot. -/
def writeBack (edit : User → User) : Protocol Reply PyExc (Draft User) where
  can g r :=
    match r with
    | .getUser _ => g = nothing
    | .updateUser x => g.written = none ∧ ∃ s, g.read = some s ∧ x = edit s
    | .createUser _ | .deleteUser _ => False
    | _ => True
  next := Held.next

/-- An operation that returned has written the edited row, or had nothing to change. -/
def Ended (edit : User → User) : Except PyExc α → Draft User → Prop
  | .ok _, g => ∃ s, g.read = some s ∧ (g.written = some (edit s) ∨ edit s = s ∧ g.written = none)
  | .error _, _ => True

variable {edit : User → User}

/-- A call that has nothing to do with user rows. -/
def Aside : Req → Prop
  | .getUser _ | .updateUser _ | .createUser _ | .deleteUser _ => False
  | _ => True

theorem aside_of_plain (r : Req) (h : Req.plain r = true) : Aside r := by cases r <;> trivial

theorem can_of_aside {g : Draft User} {r : Req} (h : Aside r) : (writeBack edit).can g r := by cases r <;> trivial

theorem next_of_aside {g : Draft User} (e : Call) (h : Aside e.req) : (writeBack edit).next g e = g := by
  obtain ⟨r, x, b⟩ := e
  cases r <;> first | rfl | exact h.elim

theorem wp_aside {β : Type} {p : Prog α} {f : α → Prog β} {g : Draft User} (hp : p.Uses Aside)
    (hok : ∀ a, wp ((writeBack edit).machine Honest) (Ended edit) (f a) g) :
    wp ((writeBack edit).machine Honest) (Ended edit) (p >>= f) g :=
  Protocol.wp_pass (fun _ => can_of_aside) next_of_aside hp hok fun _ => trivial

/-! ## Every operation keeps to it -/

/-- Having loaded `s`. -/
def holding (s : User) : Draft User := { read := some s, written := none }

theorem getUserOr404_loads {β : Type} {f : User → Prog β} (userId : String)
    (hok : ∀ s, wp ((writeBack edit).machine Honest) (Ended edit) (f s) (holding s)) :
    wp ((writeBack edit).machine Honest) (Ended edit) (getUserOr404 userId >>= f) nothing := by
  rw [wp_bind]
  refine Protocol.wp_await rfl (fun found b _ => ?_) fun _ _ _ => trivial
  cases found with
  | none => exact trivial
  | some s => exact hok s

/-- The row is written; whatever comes after it is about other things. -/
theorem updateUser_writes {β : Type} {f : User → Prog β} {s x : User} (hx : x = edit s) (hf : ∀ u, (f u).Uses Aside) :
    wp ((writeBack edit).machine Honest) (Ended edit) (Repository.updateUser x >>= f) (holding s) := by
  subst hx
  refine Protocol.wp_await ⟨rfl, s, rfl, rfl⟩ (fun u b _ => ?_) fun _ _ _ => trivial
  refine Protocol.wp_stay (fun _ => can_of_aside) next_of_aside (hf u) fun y => ?_
  cases y with
  | ok _ => exact ⟨s, rfl, .inl rfl⟩
  | error _ => trivial

theorem newHash_of_ok {salt password label hash : String} {old : Option String}
    (h : acceptPassword rt salt password label = .ok hash) : newHash rt salt password label old = some hash := by
  rw [newHash, h]

theorem updatedPasswordHash_eq {salt : String} {user : User} {password hash : Option String}
    (h : updatedPasswordHash rt salt user password = .ok hash) :
    hash = patchedHash rt salt user password := by
  cases password with
  | none => exact (Except.ok.inj h).symm
  | some password =>
    simp only [updatedPasswordHash] at h
    rcases ha : acceptPassword rt salt password "Password" with e | hash'
    · rw [ha] at h; cases h
    · rw [ha] at h
      rw [← Except.ok.inj h]
      exact (newHash_of_ok ha).symm

theorem updateUser_writesBack (userId : String) (payload : UserUpdateInput) (correlationId : String)
    (actorId : Option String) (salt : String) :
    wp ((writeBack (edited rt (.updateUser userId payload correlationId actorId salt))).machine Honest)
      (Ended (edited rt (.updateUser userId payload correlationId actorId salt)))
      (updateUser rt userId payload correlationId actorId salt) nothing := by
  refine getUserOr404_loads userId fun s => ?_
  refine wp_aside (announceAdminStatus_uses aside_of_plain _ _ _ _ _) fun _ => ?_
  refine wp_aside (applySuspension_uses aside_of_plain (fun _ => trivial) _ _ _ _) fun _ => ?_
  refine wp_value (fun hash hhash => ?_) fun _ _ => trivial
  refine wp_aside (announceLimits_uses aside_of_plain _ _ _ _) fun _ => ?_
  refine updateUser_writes ?_ fun _ => trivial
  rw [updatedPasswordHash_eq hhash]
  rfl

theorem setUserAdminStatus_writesBack (userId : String) (isAdmin : Bool) (correlationId : String)
    (actorId : Option String) (source : String) :
    wp ((writeBack (edited rt (.setUserAdminStatus userId isAdmin correlationId actorId source))).machine Honest)
      (Ended (edited rt (.setUserAdminStatus userId isAdmin correlationId actorId source)))
      (setUserAdminStatus userId isAdmin correlationId actorId source) nothing := by
  refine getUserOr404_loads userId fun s => ?_
  split
  · rename_i hsame
    exact ⟨s, rfl, .inr ⟨by rw [edited, ← hsame], rfl⟩⟩
  · exact updateUser_writes rfl fun _ => Program.uses_bind (Program.uses_perform trivial) fun _ => trivial

attribute [local irreducible] strip in
theorem resetUserPassword_writesBack (userId newPassword correlationId : String) (actorId : Option String)
    (salt : String) :
    wp ((writeBack (edited rt (.resetUserPassword userId newPassword correlationId actorId salt))).machine Honest)
      (Ended (edited rt (.resetUserPassword userId newPassword correlationId actorId salt)))
      (resetUserPassword rt userId newPassword correlationId actorId salt) nothing := by
  refine getUserOr404_loads userId fun s => ?_
  refine wp_value (fun hash hhash => ?_) fun _ _ => trivial
  refine updateUser_writes ?_ fun _ => Program.uses_bind (Program.uses_perform trivial) fun _ => trivial
  rw [edited, newHash_of_ok hhash]

attribute [local irreducible] strip in
theorem changePassword_writesBack (userId : String) (payload : PasswordChangeInput) (correlationId : Option String)
    (source salt : String) :
    wp ((writeBack (edited rt (.changePassword userId payload correlationId source salt))).machine Honest)
      (Ended (edited rt (.changePassword userId payload correlationId source salt)))
      (changeCurrentUserPassword rt userId payload correlationId source salt) nothing := by
  rw [changeCurrentUserPassword, wp_bind]
  refine Protocol.wp_await rfl (fun found b _ => ?_) fun _ _ _ => trivial
  cases found with
  | none => exact trivial
  | some s =>
    dsimp only
    split
    · trivial
    refine wp_check (fun _ => trivial) fun _ => ?_
    refine wp_value (fun hash hhash => ?_) fun _ _ => trivial
    refine updateUser_writes ?_ fun _ =>
      Program.uses_bind (announcePasswordChange_uses aside_of_plain _ _ _) fun _ => trivial
    rw [edited, newHash_of_ok hhash]

theorem ended_return {p : Prog α} {f : α → OpResult} {g : Draft User}
    (h : wp ((writeBack edit).machine Honest) (Ended edit) p g) :
    wp ((writeBack edit).machine Honest) (Ended edit) (p >>= fun a => pure (f a)) g :=
  wp_seq h (fun _ _ h => h) fun _ _ h => h

attribute [local irreducible] strip in
theorem program_writesBack {userId : String} {op : Op} (hop : OnUser userId op) :
    wp ((writeBack (edited rt op)).machine Honest) (Ended (edited rt op)) (op.program rt) nothing := by
  cases op with
  | updateUser => exact ended_return (updateUser_writesBack _ _ _ _ _)
  | setUserAdminStatus => exact ended_return (setUserAdminStatus_writesBack _ _ _ _ _)
  | resetUserPassword => exact ended_return (resetUserPassword_writesBack _ _ _ _ _)
  | changePassword => exact ended_return (changePassword_writesBack _ _ _ _ _)
  | _ => exact hop.elim

/-! ## The user and the drafts of it -/

/-- What task `i` has read and written so far. -/
def heldOf (p : Site) (i : Nat) : Draft User := p.seen Held.next nothing i

def shared (userId : String) (p : Site) : Shared User :=
  WriteBack.shared (·.id) (fun w => w.users.find?) Held.next nothing id userId p

def writtenUser : Req → Option User
  | .updateUser user => some user
  | _ => none

/-- A row that is written back with a column as it was loaded replaces a row that still
    holds that value. -/
def Fresh (c : Column) (p : Site) (i : Nat) (r : Req) (_ : Option PyExc) : Prop :=
  ∀ x ∈ writtenUser r, ∀ s ∈ (heldOf p i).read, ∀ row ∈ p.world.users.find? x.id,
    c.get x = c.get s → c.get row = c.get s

instance (c : Column) (p : Site) (i : Nat) (r : Req) (fault : Option PyExc) : Decidable (Fresh c p i r fault) := by
  unfold Fresh; infer_instance

section

variable {p : Site} {i : Nat} {t : Task Reply PyExc OpResult} {r : Req} {k : Except PyExc (Reply r) → Prog OpResult}
  {fault : Option PyExc} {userId : String} {c : Column}

theorem heldOf_eq (ht : p.tasks[i]? = some t) : heldOf p i = (writeBack edit).after nothing t.log := Pool.seen_eq ht

/-- One call of an operation that follows `writeBack`, seen from one column of one user. -/
theorem step_shared (hedit : ∀ s, (edit s).id = s.id) (ht : p.tasks[i]? = some t)
    (hcan : (writeBack edit).can (heldOf p i) r) (hfresh : Fresh c p i r fault) :
    Shared.Step c.get (shared userId p) (shared userId (p.advance backend i t r k fault)) := by
  cases r
  case getUser u =>
    have hnothing : p.seen Held.next nothing i = nothing := hcan
    refine WriteBack.step_read ht (by rw [answer_users rfl]) (by rw [hnothing]; rfl) ?_
    rw [hnothing]
    rcases (backend.answer i (.getUser u) fault p.world).1 with e | s | s <;> rfl
  case updateUser x =>
    obtain ⟨hwritten, s, hs, rfl⟩ := hcan
    have hbefore : heldOf p i = { read := some s, written := none } := by rw [← hs, ← hwritten]
    rcases hx : (backend.answer i (.updateUser (edit s)) fault p.world).1 with e | u
    · refine WriteBack.step_quiet ht (.inl (by rw [updateUser_error hx])) ?_
      rw [hx]
      rfl
    obtain ⟨row, hrow, hfind⟩ := find?_updateUser hx
    rw [hedit s] at hrow hfind
    refine WriteBack.step_write ht (x := edit s) hbefore ?_ hrow (hfind userId) ?_ fun h => ?_
    · rw [hx]
      exact congrArg (fun read => ({ read := read, written := some (edit s) } : Draft User)) hs
    · cases c <;> rfl
    · exact hfresh _ rfl s hs row (by rw [hedit s]; exact hrow) h
  case createUser u => exact hcan.elim
  case deleteUser u => exact hcan.elim
  all_goals exact WriteBack.step_quiet ht (.inl (by rw [answer_users rfl])) rfl

end

/-! ## Runs -/

/-- What operation `i` of `ops` writes back. -/
def editOf (rt : Runtime) (ops : List Op) (i : Nat) : User → User :=
  match ops[i]? with
  | some op => edited rt op
  | none => id

theorem editOf_id (ops : List Op) (i : Nat) (s : User) : (editOf rt ops i s).id = s.id := by
  unfold editOf
  cases ops[i]? with
  | some op => exact edited_id op s
  | none => rfl

/-- Every operation has returned. -/
def returned (p : Site) : Bool := p.tasks.all (·.rest.value.isSome)

/-- The row operation `i` means to write differs in the column from the user it loaded:
    there it has the value `v`. -/
def SetsOut (rt : Runtime) (ops : List Op) (userId : String) (c : Column) (p : Site) (i : Nat) (v : c.Value) : Prop :=
  ∃ t s, p.tasks[i]? = some t ∧ (heldOf p i).read = some s ∧ s.id = userId ∧
    c.get (editOf rt ops i s) ≠ c.get s ∧ v = c.get (editOf rt ops i s)

/-- No update of the column is lost: it holds what the only operation that set out to
    change it wrote, and what it held at first when there is no such operation. -/
def NothingLost (rt : Runtime) (ops : List Op) (userId : String) (c : Column) (w : World) (p : Site) : Prop :=
  ∀ first now, w.users.find? userId = some first → p.world.users.find? userId = some now →
    (∀ i v, SetsOut rt ops userId c p i v → (∀ j u, SetsOut rt ops userId c p j u → j = i) → c.get now = v) ∧
      ((∀ i v, ¬ SetsOut rt ops userId c p i v) → c.get now = c.get first)

/-- Once every operation has returned, the drafts that move the column are those of the
    operations that set out to change it. -/
theorem moves_iff_setsOut {ops : List Op} {p : Site} (userId : String) (c : Column) (i : Nat) (v : c.Value)
    (hreturned : returned p = true)
    (hfollows : p.Follows (fun i => writeBack (editOf rt ops i)) Honest (fun i => Ended (editOf rt ops i)) fun _ => nothing) :
    ((shared userId p).drafts i).Moves c.get v ↔ SetsOut rt ops userId c p i v := by
  have hended : ∀ t, p.tasks[i]? = some t → ∃ s, (heldOf p i).read = some s ∧
      ((heldOf p i).written = some (editOf rt ops i s) ∨ editOf rt ops i s = s ∧ (heldOf p i).written = none) := by
    intro t ht
    have hval := List.all_eq_true.mp hreturned t (List.mem_of_getElem? ht)
    obtain ⟨x, hx⟩ := Program.outcome_of_value hval
    have hdone := hfollows.done ht hx
    rw [← heldOf_eq ht] at hdone
    exact hdone
  constructor
  · rintro ⟨s, x, hs, hx, hne, rfl⟩
    obtain ⟨hdraft, hid⟩ := WriteBack.of_drafts_read hs
    rw [shared, hdraft] at hs hx
    change (heldOf p i).read = some s at hs
    change (heldOf p i).written = some x at hx
    rcases ht : p.tasks[i]? with _ | t
    · rw [heldOf, Pool.seen, ht] at hs; cases hs
    obtain ⟨s', hs', h⟩ := hended t ht
    obtain rfl := Option.some.inj (hs'.symm.trans hs)
    rcases h with h | ⟨-, h⟩
    · obtain rfl := Option.some.inj (h.symm.trans hx)
      exact ⟨t, s', ht, hs', hid, hne, rfl⟩
    · rw [h] at hx; cases hx
  · rintro ⟨t, s, ht, hs, hid, hne, rfl⟩
    obtain ⟨s', hs', h⟩ := hended t ht
    obtain rfl := Option.some.inj (hs'.symm.trans hs)
    rcases h with h | ⟨h, -⟩
    · have hdraft : (shared userId p).drafts i = id (heldOf p i) := WriteBack.drafts_eq hs' hid
      exact ⟨s', editOf rt ops i s', by rw [hdraft]; exact hs', by rw [hdraft]; exact h, hne, rfl⟩
    · rw [h] at hne; exact absurd rfl hne

/-- In every run of these operations in which a row that is written back is fresh in every
    column its writer leaves alone, no update is lost once all have returned. -/
theorem no_user_update_is_lost (rt : Runtime) (w : World) (ops : List Op) (userId : String) (c : Column)
    (cs : List (Choice PyExc)) (hops : ∀ op ∈ ops, OnUser userId op)
    (hfresh : (Site.start rt w ops).Meets backend (Fresh c) cs)
    (hreturned : returned ((Site.start rt w ops).run backend cs) = true) :
    NothingLost rt ops userId c w ((Site.start rt w ops).run backend cs) := by
  intro first now hfirst hnow
  have h := Pool.run_invariant (B := backend) (C := Fresh c)
    (I := fun p => Shared.Settled c.get (c.get first) (shared userId p) ∧
      p.Follows (fun i => writeBack (editOf rt ops i)) Honest (fun i => Ended (editOf rt ops i)) fun _ => nothing)
    (fun p d h => h) (fun p i t r k fault h ht hr hc => ?_) ?_ hfresh
  · obtain ⟨hsettled, hfollows⟩ := h
    have hmoves := fun i v => moves_iff_setsOut userId c i v hreturned hfollows
    refine ⟨fun i v hi honly => ?_, fun hnone => ?_⟩
    · exact hsettled.value_of_only hnow ((hmoves i v).mpr hi) fun j u hj => honly j u ((hmoves j u).mp hj)
    · exact hsettled.unmoved now hnow fun i v hm => hnone i v ((hmoves i v).mp hm)
  · obtain ⟨hsettled, hfollows⟩ := h
    have hcan := hfollows.can ht hr
    rw [← heldOf_eq ht] at hcan
    exact ⟨hsettled.step (step_shared (editOf_id ops i) ht hcan hc),
      hfollows.advance ht hr (honest_answer i r fault p.world)⟩
  · refine ⟨Shared.settled_start (fun row hrow => ?_) fun i => ?_, Site.start_follows fun i op hop => ?_⟩
    · rw [Option.some.inj (hfirst.symm.trans hrow)]
    · rw [shared, WriteBack.shared]
      simp only [show (Site.start rt w ops).seen Held.next nothing i = nothing from Pool.seen_start w _ i]
      rfl
    · rw [show editOf rt ops i = edited rt op by rw [editOf, hop]]
      exact program_writesBack (hops op (List.mem_of_getElem? hop))

/-! ## A password change undoes a suspension -/

def oneUser : World := { Sample.world with users := .single Sample.user }

/-- The user changes the password while an administrator suspends the user. -/
def passwordAndSuspension : List Op :=
  [.changePassword "u" { currentPassword := "old password", newPassword := "new password" } (some "c") "api" "salt",
    .updateUser "u" { isAdmin := .unset, suspended := some true, quotaBytes := .unset, rateLimitRpm := .unset,
                      rateLimitBph := .unset, password := none } "c" none "salt"]

/-- The request is authenticated, the suspension goes through, the password is changed. -/
def suspendAfterAuthentication : List (Choice PyExc) := Sample.calls 0 1 ++ Sample.calls 1 4 ++ Sample.calls 0 2

/-- Only `update_user` set out to change the suspension; the password change lifts it. -/
theorem a_password_change_lifts_the_suspension :
    (∀ op ∈ passwordAndSuspension, OnUser "u" op) ∧
      (Site.start Sample.runtime oneUser passwordAndSuspension).Meets backend NoFaults suspendAfterAuthentication ∧
      returned ((Site.start Sample.runtime oneUser passwordAndSuspension).run backend suspendAfterAuthentication) = true ∧
      ¬ NothingLost Sample.runtime passwordAndSuspension "u" .suspended oneUser
        ((Site.start Sample.runtime oneUser passwordAndSuspension).run backend suspendAfterAuthentication) := by
  refine ⟨fun op hop => ?_, by decide +kernel, by decide +kernel, fun h => ?_⟩
  · simp only [passwordAndSuspension, List.mem_cons, List.not_mem_nil, or_false] at hop
    rcases hop with rfl | rfl <;> rfl
  · have hupdate : SetsOut Sample.runtime passwordAndSuspension "u" .suspended
        ((Site.start Sample.runtime oneUser passwordAndSuspension).run backend suspendAfterAuthentication) 1 true := by
      obtain ⟨t, ht⟩ := Option.isSome_iff_exists.mp (by decide +kernel : ((Site.start Sample.runtime oneUser
        passwordAndSuspension).run backend suspendAfterAuthentication).tasks[1]?.isSome = true)
      exact ⟨t, Sample.user, ht, by decide +kernel, rfl, by decide +kernel, rfl⟩
    have honly : ∀ j u, SetsOut Sample.runtime passwordAndSuspension "u" .suspended
        ((Site.start Sample.runtime oneUser passwordAndSuspension).run backend suspendAfterAuthentication) j u → j = 1 := by
      rintro (_ | _ | j) u ⟨t, s, ht, hs, -, hne, -⟩
      · exact absurd rfl hne
      · rfl
      · exact absurd rfl hne
    have hsuspended := (h Sample.user { Sample.user with passwordHash := some "salt" } rfl (by decide +kernel)).1 1 _
      hupdate honly
    cases hsuspended

/-- The same operations, one after the other. -/
def suspendAfterwards : List (Choice PyExc) := Sample.calls 0 3 ++ Sample.calls 1 4

theorem a_suspension_after_the_password_change_stays :
    NothingLost Sample.runtime passwordAndSuspension "u" .suspended oneUser
      ((Site.start Sample.runtime oneUser passwordAndSuspension).run backend suspendAfterwards) := by
  refine no_user_update_is_lost Sample.runtime oneUser passwordAndSuspension "u" .suspended suspendAfterwards (fun op hop => ?_)
    (by decide +kernel) (by decide +kernel)
  simp only [passwordAndSuspension, List.mem_cons, List.not_mem_nil, or_false] at hop
  rcases hop with rfl | rfl <;> rfl

end Imghost.Concurrency.UserColumns
