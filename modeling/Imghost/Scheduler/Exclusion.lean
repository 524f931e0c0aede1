/-
  Imghost.Scheduler.Exclusion — the lease of the scheduler is exclusive.

  Any number of schedulers tick over one Redis, in any interleaving. Redis grants the lease
  only while the key is free, and a key that is not free belongs to the newest grant: it
  carries that scheduler's token and expires with it. A scheduler that releases after its
  lease has been taken over finds another token and deletes nothing.

  Proved (`lease_exclusion`): no two schedulers hold the lease at one time; what a release
  deletes is the newest lease, granted to the scheduler that releases it; and a scheduler
  enqueues at most once for each lease it was granted.
-/

import Imghost.Data.Events
import Imghost.Scheduler.Service

namespace Imghost.Scheduler.Exclusion

open Imghost.Async Imghost.Data Imghost.Limits Program

/-! ## What the history says -/

/-- How long a lease lasts, in the unit of the clock. -/
def leaseTime (settings : SchedulerSettings) : Int := settings.effectiveLeaseSeconds * second

/-- Scheduler `i` holds the lease at time `t`: one granted to it has neither expired nor been
    released by it. -/
def Holds (settings : SchedulerSettings) (history : List Happening) (i : Nat) (t : Int) : Prop :=
  ∃ before start after, history = before ++ .granted i start :: after ∧ start ≤ t ∧ t < start + leaseTime settings ∧
    ∀ r, .released i r ∈ after → t < r

/-- What happens to the key. -/
def touchesKey : Happening → Bool
  | .granted _ _ | .released _ _ => true
  | .enqueued _ => false

/-- Everything that happened satisfies `P`, with what happened before it. -/
def Each (P : List Happening → Happening → Prop) (history : List Happening) : Prop :=
  ∀ before e after, history = before ++ e :: after → P before e

/-- Every release deletes the newest lease, which was granted to the scheduler that releases
    it and has not expired. -/
def ReleasesOwn (settings : SchedulerSettings) : List Happening → Prop :=
  Each fun before e => ∀ i t, e = .released i t → ∃ first start mid,
    before = first ++ .granted i start :: mid ∧ t < start + leaseTime settings ∧ ∀ e ∈ mid, touchesKey e = false

/-- Granted to scheduler `i`. -/
def isGrantTo (i : Nat) : Happening → Bool
  | .granted j _ => j == i
  | _ => false

/-- From a grant to the scheduler's next one, it enqueues at most once. -/
def OneEnqueueEach (history : List Happening) : Prop :=
  ∀ before i start after, history = before ++ .granted i start :: after →
    (after.takeWhile fun e => !isGrantTo i e).count (.enqueued i) ≤ 1

/-! ## What a scheduler asks -/

/-- A scheduler asks Redis with its own token, and enqueues only while it owes a cleanup: it
    was granted the lease and has not enqueued since. -/
def protocol (settings : SchedulerSettings) (token : String) : Protocol SchedulerReply SchedulerExc Bool where
  can owes r :=
    match r with
    | .setNxEx key value seconds => settings.leaseEnabled = true ∧ key = settings.cleanupLeaseKey ∧ value = token ∧
        seconds = settings.effectiveLeaseSeconds
    | .evalRelease key value => key = settings.cleanupLeaseKey ∧ value = token
    | .enqueue _ => settings.leaseEnabled = true → owes = true
    | _ => True
  next owes e :=
    match e with
    | ⟨.setNxEx _ _ _, .ok granted, _⟩ => owes || granted
    | ⟨.enqueue _, _, _⟩ => false
    | _ => owes

section

variable {settings : SchedulerSettings} {token : String} {self : SchedulerService} {owes : Bool}

/-- Any reply may come. -/
abbrev asks (settings : SchedulerSettings) (token : String) : Machine SchedulerReply SchedulerExc Bool :=
  (protocol settings token).machine fun _ => True

/-- The scheduler that a step returns still has its token. -/
def keepsToken {α : Type} (token : String) (x : Except SchedulerExc (α × SchedulerService)) : Prop :=
  ∀ a, x = .ok a → a.2.leaseToken = token

theorem acquire_asks (h : self.leaseToken = token) :
    wp (asks settings token) (fun x owes' => keepsToken token x ∧
      ∀ a, x = .ok a → a.1 = true → settings.leaseEnabled = true → owes' = true)
      (self.acquireCleanupLease settings) owes := by
  unfold SchedulerService.acquireCleanupLease
  split
  · rename_i henabled
    simp only [wp_bind, wp_attempt, wp_perform]
    refine ⟨⟨henabled, rfl, h, rfl⟩, ?_⟩
    rintro x owes' ⟨b, -, rfl⟩
    rcases x with (msg | msg) | acquired
    · refine ⟨fun a ha => ?_, fun a ha htrue => ?_⟩ <;> cases ha
      · exact h
      · cases htrue
    · exact ⟨fun a ha => (by cases ha), fun a ha => (by cases ha)⟩
    · cases acquired with
      | false =>
        refine ⟨fun a ha => ?_, fun a ha htrue => ?_⟩ <;> cases ha
        · exact h
        · cases htrue
      | true =>
        simp only [bindPost_ok, if_true, wp_bind, wp_perform]
        refine ⟨trivial, ?_⟩
        rintro (e | now) owes'' ⟨b', -, rfl⟩
        · exact ⟨fun a ha => (by cases ha), fun a ha => (by cases ha)⟩
        · refine ⟨fun a ha => ?_, fun a ha _ _ => ?_⟩ <;> cases ha
          · exact h
          · exact Bool.or_true owes
  · rename_i hdisabled
    refine ⟨fun a ha => ?_, fun a ha _ henabled => ?_⟩ <;> cases ha
    · exact h
    · exact absurd henabled hdisabled

theorem release_asks (h : self.leaseToken = token) :
    wp (asks settings token) (fun x _ => ∀ a, x = .ok a → a.leaseToken = token)
      (self.releaseCleanupLease settings) owes := by
  unfold SchedulerService.releaseCleanupLease
  split
  · simp only [wp_bind, wp_attempt, wp_perform]
    refine ⟨⟨rfl, h⟩, ?_⟩
    rintro x owes' ⟨b, -, rfl⟩
    rcases x with (msg | msg) | n
    · intro a ha
      cases ha
      exact h
    · intro a ha
      cases ha
    · intro a ha
      cases ha
      exact h
  · intro a ha
    cases ha
    exact h

theorem cleanup_asks (h : self.leaseToken = token) (nowMono : Int) :
    wp (asks settings token) (fun x _ => keepsToken token x) (self.cleanup settings nowMono) owes := by
  unfold SchedulerService.cleanup
  refine wp_seq (acquire_asks h) (fun acquired owes' hacquired => ?_) fun e owes' _ a ha => by cases ha
  obtain ⟨leaseAcquired, self'⟩ := acquired
  have htoken : self'.leaseToken = token := hacquired.1 _ rfl
  cases leaseAcquired with
  | false =>
    intro a ha
    cases ha
    exact htoken
  | true =>
    simp only [if_true, wp_bind, wp_attempt, wp_perform]
    refine ⟨hacquired.2 _ rfl rfl, ?_⟩
    rintro x owes'' ⟨b, -, rfl⟩
    rcases x with exc | _
    · simp only [bindPost_ok]
      refine wp_seq (release_asks htoken) (fun self'' _ hself => ?_) fun e _ _ a ha => by cases ha
      intro a ha
      cases ha
      exact hself self'' rfl
    · simp only [bindPost_ok, wp_bind, wp_perform]
      refine ⟨trivial, ?_⟩
      rintro (e | now) _ ⟨b', -, rfl⟩
      · intro a ha
        cases ha
      · intro a ha
        cases ha
        exact htoken

theorem tick_asks (h : self.leaseToken = token) (nowMonotonic : Option Int) :
    wp (asks settings token) (fun x _ => keepsToken token x) (self.tick settings nowMonotonic) owes := by
  unfold SchedulerService.tick
  have hclock : wp (asks settings token) (fun _ _ => True) (SchedulerService.clockOr nowMonotonic) owes := by
    cases nowMonotonic with
    | some now => trivial
    | none => exact (wp_perform _).mpr ⟨trivial, fun _ _ _ => trivial⟩
  refine wp_seq hclock (fun nowMono owes' _ => ?_) fun e _ _ a ha => by cases ha
  simp only [wp_bind, wp_perform]
  refine ⟨trivial, ?_⟩
  rintro (e | now) owes'' ⟨b, -, rfl⟩
  · intro a ha
    cases ha
  · have htoken : SchedulerService.leaseToken { self with lastTickAt := some now } = token := h
    simp only [bindPost_ok, wp_ite]
    refine ⟨fun _ a ha => ?_, fun _ => cleanup_asks htoken nowMono⟩
    cases ha
    exact h

/-- A scheduler keeps to the protocol, tick after tick. -/
theorem runTicks_asks (nows : List (Option Int)) (h : self.leaseToken = token) :
    wp (asks settings token) (fun _ _ => True) (SchedulerService.runTicks settings nows self) owes := by
  induction nows generalizing self owes with
  | nil => trivial
  | cons now nows ih =>
    refine wp_seq (tick_asks h now) (fun ticked owes' hticked => ?_) fun e _ _ => trivial
    obtain ⟨done, self'⟩ := ticked
    refine (wp_bind _ _ _).mpr ((wp_perform _).mpr ⟨trivial, ?_⟩)
    rintro (e | _) owes'' ⟨b, -, rfl⟩
    · trivial
    · exact ih (hticked _ rfl)

end

/-! ## Histories that grow -/

section

variable {settings : SchedulerSettings} {history : List Happening} {x : Happening} {i j : Nat} {t : Int}

theorem each_snoc {P : List Happening → Happening → Prop} (h : Each P history) (hx : P history x) :
    Each P (history ++ [x]) := by
  intro before e after hsplit
  rcases split_snoc hsplit with ⟨rfl, rfl, -⟩ | ⟨after', -, hbefore⟩
  · exact hx
  · exact h before e after' hbefore

/-- Who holds the lease held it before, or has just been granted it. -/
theorem holds_snoc (h : Holds settings (history ++ [x]) i t) :
    Holds settings history i t ∨ ∃ start, x = .granted i start ∧ start ≤ t ∧ t < start + leaseTime settings := by
  obtain ⟨before, start, after, hsplit, hstart, hend, hkept⟩ := h
  rcases split_snoc hsplit with ⟨-, hx, -⟩ | ⟨after', rfl, hbefore⟩
  · exact .inr ⟨start, hx.symm, hstart, hend⟩
  · exact .inl ⟨before, start, after', hbefore, hstart, hend, fun r hr => hkept r (List.mem_append_left _ hr)⟩

/-- Every enqueueing comes after a lease granted to the scheduler, and is its first since. -/
def EnqueuesOwed : List Happening → Prop :=
  Each fun before e => ∀ i, e = .enqueued i → ∃ first start mid,
    before = first ++ .granted i start :: mid ∧ .enqueued i ∉ mid

theorem oneEnqueueEach_of_owed (h : EnqueuesOwed history) : OneEnqueueEach history := by
  intro before i start after hsplit
  by_contra hcount
  have hafter := (List.takeWhile_append_dropWhile (p := fun e => !isGrantTo i e) (l := after)).symm
  have hgrants : ∀ e ∈ after.takeWhile (fun e => !isGrantTo i e), isGrantTo i e = false := by
    intro e he
    simpa using List.all_eq_true.mp List.all_takeWhile e he
  generalize after.takeWhile (fun e => !isGrantTo i e) = seg at hcount hafter hgrants
  generalize after.dropWhile (fun e => !isGrantTo i e) = tail at hafter
  -- Two enqueueings in one segment: the second owes nothing to the grant before the first.
  have htwo : (List.replicate 2 (Happening.enqueued i)).Sublist seg := List.replicate_sublist_iff.mpr (by omega)
  obtain ⟨one, two, rfl, hone, htwo⟩ := List.cons_sublist_iff.mp htwo
  obtain ⟨mid, rest, rfl⟩ := List.append_of_mem (List.singleton_sublist.mp htwo)
  obtain ⟨first, start', mid', hbefore, hnone⟩ := h (before ++ .granted i start :: (one ++ mid)) (.enqueued i)
    (rest ++ tail) (by rw [hsplit, hafter]; simp) i rfl
  rcases List.append_eq_append_iff.mp hbefore with ⟨as, -, has⟩ | ⟨as, -, has⟩
  · cases as with
    | nil =>
      obtain ⟨-, hmid⟩ := List.cons.inj has
      exact hnone (hmid ▸ List.mem_append_left _ hone)
    | cons a as =>
      obtain ⟨-, hmid⟩ := List.cons.inj has
      have hgrant : Happening.granted i start' ∈ one ++ mid := hmid ▸ List.mem_append_right _ List.mem_cons_self
      have := hgrants (.granted i start') (by
        rcases List.mem_append.mp hgrant with h | h
        · exact List.mem_append_left _ h
        · exact List.mem_append_right _ (List.mem_append_left _ h))
      simp [isGrantTo] at this
  · cases as with
    | nil =>
      obtain ⟨-, hmid⟩ := List.cons.inj has
      exact hnone (hmid ▸ List.mem_append_left _ hone)
    | cons a as =>
      obtain ⟨-, hmid⟩ := List.cons.inj has
      refine hnone ?_
      rw [hmid]
      exact List.mem_append_right _ (List.mem_cons_of_mem _ (List.mem_append_left _ hone))

end

/-! ## What Redis keeps -/

/-- Scheduler `i` has a lease that started at `start`, and nothing has touched the key since. -/
def Newest (history : List Happening) (i : Nat) (start : Int) : Prop :=
  ∃ before after, history = before ++ .granted i start :: after ∧ ∀ e ∈ after, touchesKey e = false

/-- The key is what the newest lease left there, every other lease is over, and who owes a
    cleanup has not enqueued since its lease. -/
structure Kept (settings : SchedulerSettings) (n : Nat) (token : Nat → String) (owes : Nat → Bool) (w : SchedulerWorld) :
    Prop where
  known : ∀ i start, .granted i start ∈ w.history → i < n ∧ settings.leaseEnabled = true
  released : ∀ i t, .released i t ∈ w.history → t ≤ w.clock
  lapsed : ∀ before i start after, w.history = before ++ .granted i start :: after →
    start + leaseTime settings ≤ w.clock ∨ (∃ t, .released i t ∈ after) ∨
      w.keys settings.cleanupLeaseKey = some ⟨token i, start + leaseTime settings⟩
  key : ∀ e, w.keys settings.cleanupLeaseKey = some e → ∃ i start, Newest w.history i start ∧
    e = ⟨token i, start + leaseTime settings⟩
  exclusive : ∀ i j t, Holds settings w.history i t → Holds settings w.history j t → i = j
  releases : ReleasesOwn settings w.history
  enqueues : settings.leaseEnabled = true → EnqueuesOwed w.history
  owed : settings.leaseEnabled = true → ∀ i, owes i = true → ∃ before start after,
    w.history = before ++ .granted i start :: after ∧ .enqueued i ∉ after

section

variable {settings : SchedulerSettings} {n : Nat} {token : Nat → String} {owes owes' : Nat → Bool} {w : SchedulerWorld}
  {i : Nat}

theorem kept_fresh (clock : Int) (ahead : Nat → Int) : Kept settings n token (fun _ => false) (.fresh clock ahead) where
  known _ _ h := nomatch h
  released _ _ h := nomatch h
  lapsed before _ _ _ h := by cases before <;> cases h
  key _ h := nomatch h
  exclusive _ _ _ h := by
    obtain ⟨before, _, _, hsplit, -⟩ := h
    cases before <;> cases hsplit
  releases before _ _ h := by cases before <;> cases h
  enqueues _ before _ _ h := by cases before <;> cases h
  owed _ _ h := nomatch h

theorem Kept.elapse (h : Kept settings n token owes w) (d : Nat) :
    Kept settings n token owes { w with clock := w.clock + d } where
  known := h.known
  released i t ht := (h.released i t ht).trans (by dsimp only; omega)
  lapsed before i start after hsplit := by
    refine (h.lapsed before i start after hsplit).imp_left fun hover => ?_
    dsimp only
    omega
  key := h.key
  exclusive := h.exclusive
  releases := h.releases
  enqueues := h.enqueues
  owed := h.owed

/-- Who owes less keeps the invariant. -/
theorem Kept.settle (h : Kept settings n token owes w) (howes : ∀ j, owes' j = true → owes j = true) :
    Kept settings n token owes' w where
  known := h.known
  released := h.released
  lapsed := h.lapsed
  key := h.key
  exclusive := h.exclusive
  releases := h.releases
  enqueues := h.enqueues
  owed henabled j hj := h.owed henabled j (howes j hj)

/-- While the key is free, every lease is over: no scheduler holds one from now on. -/
theorem Kept.not_holds_of_free (h : Kept settings n token owes w) (hfree : w.find? settings.cleanupLeaseKey = none)
    {t : Int} (ht : w.clock ≤ t) : ¬Holds settings w.history i t := by
  intro hholds
  obtain ⟨before, start, after, hsplit, -, hend, hkept⟩ := hholds
  rcases h.lapsed before i start after hsplit with hover | ⟨r, hr⟩ | hkey
  · omega
  · have hpast := h.released i r (by rw [hsplit]; exact List.mem_append_right _ (List.mem_cons_of_mem _ hr))
    have := hkept r hr
    omega
  · rw [SchedulerWorld.find?, hkey, Option.filter_eq_none_iff] at hfree
    have := hfree _ rfl
    simp only [decide_eq_true_eq, not_lt] at this
    omega

theorem Newest.append_quiet {history : List Happening} {start : Int} {x : Happening} (h : Newest history i start)
    (hx : touchesKey x = false) : Newest (history ++ [x]) i start := by
  obtain ⟨before, after, rfl, hquiet⟩ := h
  refine ⟨before, after ++ [x], by rw [List.append_assoc, List.cons_append], fun e he => ?_⟩
  rcases List.mem_append.mp he with he | he
  · exact hquiet e he
  · rw [List.mem_singleton.mp he]
    exact hx

/-- What is owed stays owed past what is not one's own enqueueing. -/
theorem owed_append {history : List Happening} {x : Happening} (hx : x ≠ .enqueued i)
    (h : ∃ before start after, history = before ++ .granted i start :: after ∧ .enqueued i ∉ after) :
    ∃ before start after, history ++ [x] = before ++ .granted i start :: after ∧ .enqueued i ∉ after := by
  obtain ⟨before, start, after, rfl, hnone⟩ := h
  refine ⟨before, start, after ++ [x], by rw [List.append_assoc, List.cons_append], fun hmem => ?_⟩
  rcases List.mem_append.mp hmem with hmem | hmem
  · exact hnone hmem
  · exact hx (List.mem_singleton.mp hmem).symm

/-- The world after a lease is granted. -/
def grantedWorld (settings : SchedulerSettings) (token : Nat → String) (i : Nat) (w : SchedulerWorld) : SchedulerWorld :=
  { w with keys := put w.keys settings.cleanupLeaseKey (some ⟨token i, w.clock + leaseTime settings⟩) }.log
    (.granted i w.clock)

theorem Kept.granted (h : Kept settings n token owes w) (hi : i < n) (henabled : settings.leaseEnabled = true)
    (hfree : w.find? settings.cleanupLeaseKey = none) (howes : ∀ j, j ≠ i → owes' j = true → owes j = true) :
    Kept settings n token owes' (grantedWorld settings token i w) where
  known j start hj := by
    rcases List.mem_append.mp hj with hj | hj
    · exact h.known j start hj
    · obtain ⟨rfl, -⟩ := Happening.granted.inj (List.mem_singleton.mp hj)
      exact ⟨hi, henabled⟩
  released j t hj := by
    rcases List.mem_append.mp hj with hj | hj
    · exact h.released j t hj
    · cases List.mem_singleton.mp hj
  lapsed before j start after hsplit := by
    rcases split_snoc hsplit with ⟨-, hx, -⟩ | ⟨after', rfl, hbefore⟩
    · obtain ⟨rfl, rfl⟩ := Happening.granted.inj hx
      exact .inr (.inr (put_self _ _ _))
    · rcases h.lapsed before j start after' hbefore with hover | ⟨t, ht⟩ | hkey
      · exact .inl hover
      · exact .inr (.inl ⟨t, List.mem_append_left _ ht⟩)
      · -- the key was free, so this lease has expired
        left
        show start + leaseTime settings ≤ w.clock
        rw [SchedulerWorld.find?, hkey, Option.filter_eq_none_iff] at hfree
        simpa using hfree _ rfl
  key e he := by
    have hput : put w.keys settings.cleanupLeaseKey (some ⟨token i, w.clock + leaseTime settings⟩)
        settings.cleanupLeaseKey = some e := he
    rw [put_self] at hput
    exact ⟨i, w.clock, ⟨w.history, [], rfl, fun e he => nomatch he⟩, (Option.some.inj hput).symm⟩
  exclusive j k t hj hk := by
    rcases holds_snoc hj with hj | ⟨start, hx, hstart, -⟩ <;> rcases holds_snoc hk with hk | ⟨start', hx', hstart', -⟩
    · exact h.exclusive j k t hj hk
    · obtain ⟨-, rfl⟩ := Happening.granted.inj hx'
      exact absurd hj (h.not_holds_of_free hfree hstart')
    · obtain ⟨-, rfl⟩ := Happening.granted.inj hx
      exact absurd hk (h.not_holds_of_free hfree hstart)
    · obtain ⟨rfl, -⟩ := Happening.granted.inj hx
      obtain ⟨rfl, -⟩ := Happening.granted.inj hx'
      rfl
  releases := each_snoc h.releases fun j t hx => nomatch hx
  enqueues _ := each_snoc (h.enqueues henabled) fun j hx => nomatch hx
  owed _ j hj := by
    by_cases e : j = i
    · subst e
      exact ⟨w.history, w.clock, [], rfl, fun h => nomatch h⟩
    · exact owed_append (fun hx => nomatch hx) (h.owed henabled j (howes j e hj))

theorem Kept.enqueued (h : Kept settings n token owes w) (howed : settings.leaseEnabled = true → owes i = true)
    (howes : ∀ j, owes' j = true → owes j = true ∧ j ≠ i) : Kept settings n token owes' (w.log (.enqueued i)) where
  known j start hj := by
    rcases List.mem_append.mp hj with hj | hj
    · exact h.known j start hj
    · cases List.mem_singleton.mp hj
  released j t hj := by
    rcases List.mem_append.mp hj with hj | hj
    · exact h.released j t hj
    · cases List.mem_singleton.mp hj
  lapsed before j start after hsplit := by
    rcases split_snoc hsplit with ⟨-, hx, -⟩ | ⟨after', rfl, hbefore⟩
    · cases hx
    · exact (h.lapsed before j start after' hbefore).imp_right (.imp_left fun ⟨t, ht⟩ => ⟨t, List.mem_append_left _ ht⟩)
  key e he := by
    obtain ⟨j, start, hnewest, heq⟩ := h.key e he
    exact ⟨j, start, hnewest.append_quiet rfl, heq⟩
  exclusive j k t hj hk := by
    rcases holds_snoc hj with hj | ⟨start, hx, -⟩
    · rcases holds_snoc hk with hk | ⟨start, hx, -⟩
      · exact h.exclusive j k t hj hk
      · cases hx
    · cases hx
  releases := each_snoc h.releases fun j t hx => nomatch hx
  enqueues henabled := each_snoc (h.enqueues henabled) fun j hx => by
    obtain rfl := Happening.enqueued.inj hx
    exact h.owed henabled i (howed henabled)
  owed henabled j hj := by
    obtain ⟨howes, hne⟩ := howes j hj
    exact owed_append (fun hx => hne (Happening.enqueued.inj hx).symm) (h.owed henabled j howes)

/-- The world after the key is deleted. -/
def releasedWorld (settings : SchedulerSettings) (i : Nat) (w : SchedulerWorld) : SchedulerWorld :=
  { w with keys := put w.keys settings.cleanupLeaseKey none }.log (.released i w.clock)

theorem Kept.release (h : Kept settings n token owes w) (hi : i < n)
    (hdistinct : ∀ i j, i < n → j < n → token i = token j → i = j) {e : LeaseEntry}
    (hfound : w.find? settings.cleanupLeaseKey = some e) (hown : e.token = token i)
    (howes : ∀ j, owes' j = true → owes j = true) : Kept settings n token owes' (releasedWorld settings i w) := by
  rw [SchedulerWorld.find?, Option.filter_eq_some_iff] at hfound
  obtain ⟨hkey, hlive⟩ := hfound
  obtain ⟨j, start, hnewest, heq⟩ := h.key e hkey
  obtain ⟨before, after, hsplit, hquiet⟩ := hnewest
  have hknown := h.known j start (by rw [hsplit]; exact List.mem_append_right _ List.mem_cons_self)
  -- only the scheduler the lease was granted to has its token
  have hij : i = j := hdistinct i j hi hknown.1 (by rw [← hown, heq])
  subst hij
  constructor
  case known =>
    intro k t hk
    rcases List.mem_append.mp hk with hk | hk
    · exact h.known k t hk
    · cases List.mem_singleton.mp hk
  case released =>
    intro k t hk
    rcases List.mem_append.mp hk with hk | hk
    · exact h.released k t hk
    · obtain ⟨-, rfl⟩ := Happening.released.inj (List.mem_singleton.mp hk)
      exact le_rfl
  case lapsed =>
    intro before' k start' after' hsplit'
    rcases split_snoc hsplit' with ⟨-, hx, -⟩ | ⟨after'', rfl, hbefore⟩
    · cases hx
    · rcases h.lapsed before' k start' after'' hbefore with hover | ⟨t, ht⟩ | hkey'
      · exact .inl hover
      · exact .inr (.inl ⟨t, List.mem_append_left _ ht⟩)
      · -- the lease that is deleted
        have hk := h.known k start' (by rw [hbefore]; exact List.mem_append_right _ List.mem_cons_self)
        have hentry : e = ⟨token k, start' + leaseTime settings⟩ := Option.some.inj (hkey.symm.trans hkey')
        obtain rfl : i = k := hdistinct i k hi hk.1 (by rw [← hown, hentry])
        exact .inr (.inl ⟨w.clock, List.mem_append_right _ List.mem_cons_self⟩)
  case key =>
    intro e' he'
    have hput : put w.keys settings.cleanupLeaseKey none settings.cleanupLeaseKey = some e' := he'
    rw [put_self] at hput
    cases hput
  case exclusive =>
    intro k l t hk hl
    rcases holds_snoc hk with hk | ⟨_, hx, -⟩
    · rcases holds_snoc hl with hl | ⟨_, hx, -⟩
      · exact h.exclusive k l t hk hl
      · cases hx
    · cases hx
  case releases =>
    refine each_snoc h.releases fun k t hx => ?_
    obtain ⟨rfl, rfl⟩ := Happening.released.inj hx
    refine ⟨before, start, after, hsplit, ?_, hquiet⟩
    rw [heq] at hlive
    simpa using hlive
  case enqueues => exact fun henabled => each_snoc (h.enqueues henabled) fun k hx => nomatch hx
  case owed => exact fun henabled k hk => owed_append (fun hx => nomatch hx) (h.owed henabled k (howes k hk))

end

/-! ## What a call does -/

/-- A call leaves the world alone, grants the lease, deletes it, or enqueues. -/
theorem answer_cases (settings : SchedulerSettings) (token : String) (i : Nat) (r : SchedulerReq)
    (fault : Option SchedulerExc) (w : SchedulerWorld) :
    let a := schedulerBackend.answer i r fault w
    let next := fun owes => (protocol settings token).next owes ⟨r, a.1, fault.isSome⟩
    (a.2 = w ∧ ∀ owes, next owes = true → owes = true) ∨
    (∃ key value seconds, r = .setNxEx key value seconds ∧ w.find? key = none ∧
      a.2 = { w with keys := put w.keys key (some ⟨value, w.clock + seconds * second⟩) }.log (.granted i w.clock)) ∨
    (∃ key value e, r = .evalRelease key value ∧ w.find? key = some e ∧ e.token = value ∧
      a.2 = { w with keys := put w.keys key none }.log (.released i w.clock) ∧ ∀ owes, next owes = owes) ∨
    ∃ name, r = .enqueue name ∧ a.2 = w.log (.enqueued i) ∧ ∀ owes, next owes = false := by
  -- a fault of Redis is no answer, and one of enqueueing enqueues nothing
  have hexec : schedulerBackend.answer i r fault w = schedulerExec i r w ∨
      (schedulerBackend.answer i r fault w).2 = w ∧ ∃ e, (schedulerBackend.answer i r fault w).1 = .error e := by
    rcases fault with _ | ⟨msg | msg⟩
    · exact .inl rfl
    · cases r <;> first | exact .inl rfl | exact .inr ⟨rfl, _, rfl⟩
    · cases r <;> first | exact .inl rfl | exact .inr ⟨rfl, _, rfl⟩
  intro a next
  rcases hexec with ha | ⟨hw, e, he⟩
  swap
  · refine .inl ⟨hw, fun owes hnext => ?_⟩
    simp only [next, a, he] at hnext
    cases r <;> first | exact hnext | cases hnext
  simp only [next, a, ha]
  cases r with
  | monotonic => exact .inl ⟨rfl, fun _ h => h⟩
  | time => exact .inl ⟨rfl, fun _ h => h⟩
  | sleep seconds => exact .inl ⟨rfl, fun _ h => h⟩
  | enqueue name => exact .inr (.inr (.inr ⟨name, rfl, rfl, fun _ => rfl⟩))
  | evalRelease key value =>
    rcases hfind : w.find? key with _ | e
    · refine .inl ⟨?_, fun _ h => ?_⟩
      · simp only [schedulerExec, SchedulerWorld.evalRelease, hfind]
      · simpa only [schedulerExec, SchedulerWorld.evalRelease, hfind, protocol] using h
    · by_cases hvalue : e.token = value
      · refine .inr (.inr (.inl ⟨key, value, e, rfl, hfind, hvalue, ?_, fun _ => ?_⟩))
        · simp only [schedulerExec, SchedulerWorld.evalRelease, hfind, hvalue, if_true]
        · rfl
      · refine .inl ⟨?_, fun _ h => h⟩
        simp only [schedulerExec, SchedulerWorld.evalRelease, hfind, if_neg hvalue]
  | setNxEx key value seconds =>
    by_cases hseconds : seconds ≤ 0
    · refine .inl ⟨?_, fun owes h => ?_⟩
      · simp only [schedulerExec, SchedulerWorld.setNxEx, if_pos hseconds]
      · simpa only [schedulerExec, SchedulerWorld.setNxEx, if_pos hseconds, protocol] using h
    · rcases hfind : w.find? key with _ | e
      · refine .inr (.inl ⟨key, value, seconds, rfl, hfind, ?_⟩)
        simp only [schedulerExec, SchedulerWorld.setNxEx, if_neg hseconds, hfind]
      · refine .inl ⟨?_, fun owes h => ?_⟩
        · simp only [schedulerExec, SchedulerWorld.setNxEx, if_neg hseconds, hfind]
        · simpa only [schedulerExec, SchedulerWorld.setNxEx, if_neg hseconds, hfind, protocol, Bool.or_false] using h

/-! ## Every interleaving -/

section

variable {settings : SchedulerSettings} {token : Nat → String}

/-- Who owes a cleanup, by its own log. -/
def owing (settings : SchedulerSettings) (token : Nat → String)
    (p : Pool SchedulerReply SchedulerExc SchedulerWorld Unit) (i : Nat) : Bool :=
  p.seen (protocol settings (token i)).next false i

structure Inv (settings : SchedulerSettings) (token : Nat → String) (n : Nat)
    (p : Pool SchedulerReply SchedulerExc SchedulerWorld Unit) : Prop where
  size : p.tasks.length = n
  asks : p.Follows (fun i => protocol settings (token i)) (fun _ => True) (fun _ _ _ => True) fun _ => false
  kept : Kept settings n token (owing settings token p) p.world

/-- One call of one scheduler keeps the invariant. -/
theorem inv_advance {n : Nat} (hdistinct : ∀ i j, i < n → j < n → token i = token j → i = j)
    {p : Pool SchedulerReply SchedulerExc SchedulerWorld Unit} {i : Nat} {t : Task SchedulerReply SchedulerExc Unit}
    {r : SchedulerReq} {k : Except SchedulerExc (SchedulerReply r) → SchedulerProg Unit} {fault : Option SchedulerExc}
    (h : Inv settings token n p) (ht : p.tasks[i]? = some t) (hr : t.rest = .call r k) :
    Inv settings token n (p.advance schedulerBackend i t r k fault) := by
  have hi : i < n := h.size ▸ (List.getElem?_eq_some_iff.mp ht).1
  have hcan := h.asks.can ht hr
  have hlog : owing settings token p i = (protocol settings (token i)).after false t.log := Pool.seen_eq ht
  have hself : owing settings token (p.advance schedulerBackend i t r k fault) i = _ := Pool.seen_advance_self ht
  have hothers : ∀ j, j ≠ i → owing settings token (p.advance schedulerBackend i t r k fault) j = owing settings token p j :=
    fun j hj => Pool.seen_advance_of_ne hj
  refine ⟨h.size ▸ Pool.tasks_length_advance, h.asks.advance ht hr trivial, ?_⟩
  show Kept settings n token _ (schedulerBackend.answer i r fault p.world).2
  rcases answer_cases settings (token i) i r fault p.world with
    ⟨hw, hnext⟩ | ⟨key, value, seconds, rfl, hfree, hw⟩ | ⟨key, value, e, rfl, hfound, hown, hw, hnext⟩ |
      ⟨name, rfl, hw, hnext⟩
  · rw [hw]
    refine h.kept.settle fun j hj => ?_
    by_cases e : j = i
    · subst e
      rw [hself] at hj
      exact hnext _ hj
    · rwa [hothers j e] at hj
  · obtain ⟨henabled, rfl, rfl, rfl⟩ := hcan
    rw [hw]
    exact h.kept.granted hi henabled hfree fun j e hj => by rwa [hothers j e] at hj
  · obtain ⟨rfl, rfl⟩ := hcan
    rw [hw]
    refine h.kept.release hi hdistinct hfound hown fun j hj => ?_
    by_cases e : j = i
    · subst e
      rw [hself] at hj
      exact (hnext _).symm.trans hj
    · rwa [hothers j e] at hj
  · rw [hw]
    refine h.kept.enqueued (fun henabled => hlog ▸ hcan henabled) fun j hj => ?_
    by_cases e : j = i
    · subst e
      rw [hself] at hj
      exact absurd ((hnext _).symm.trans hj) Bool.false_ne_true
    · exact ⟨by rwa [hothers j e] at hj, e⟩

end

/-- The token of each scheduler. -/
def tokenOf (processes : List (SchedulerService × List (Option Int))) (i : Nat) : String :=
  (processes.map fun p => p.1.leaseToken)[i]?.getD ""

theorem tokenOf_inj {processes : List (SchedulerService × List (Option Int))}
    (h : (processes.map fun p => p.1.leaseToken).Nodup) (i j : Nat) (hi : i < processes.length) (hj : j < processes.length)
    (heq : tokenOf processes i = tokenOf processes j) : i = j := by
  rw [← List.length_map (fun p : SchedulerService × List (Option Int) => p.1.leaseToken)] at hi hj
  simp only [tokenOf, List.getElem?_eq_getElem hi, List.getElem?_eq_getElem hj, Option.getD_some] at heq
  exact (List.Nodup.getElem_inj_iff h).mp heq

theorem inv_start (settings : SchedulerSettings) (processes : List (SchedulerService × List (Option Int))) (clock : Int)
    (ahead : Nat → Int) : Inv settings (tokenOf processes) processes.length
      (Pool.start (.fresh clock ahead) (processes.map fun p => SchedulerService.runTicks settings p.2 p.1)) where
  size := by simp only [Pool.start, List.length_map]
  asks := Pool.follows_start fun i q hq => by
    rw [List.getElem?_map, Option.map_eq_some_iff] at hq
    obtain ⟨process, hprocess, rfl⟩ := hq
    refine runTicks_asks process.2 ?_
    simp only [tokenOf, List.getElem?_map, hprocess, Option.map_some, Option.getD_some]
  kept := (kept_fresh clock ahead).settle fun i hi => (Pool.seen_start _ _ i).symm.trans hi

/-- For any number of schedulers with tokens of their own, any ticks and any interleaving with
    expiries and failures: no two hold the lease at one time, a release deletes no lease of
    another, and each lease yields at most one enqueueing. -/
theorem lease_exclusion (settings : SchedulerSettings) (processes : List (SchedulerService × List (Option Int)))
    (hdistinct : (processes.map fun p => p.1.leaseToken).Nodup) (clock : Int) (ahead : Nat → Int)
    (cs : List (Choice SchedulerExc)) :
    let history := ((Pool.start (.fresh clock ahead) (processes.map fun p =>
      SchedulerService.runTicks settings p.2 p.1)).run schedulerBackend cs).world.history
    (∀ i j t, Holds settings history i t → Holds settings history j t → i = j) ∧
      ReleasesOwn settings history ∧ OneEnqueueEach history := by
  intro history
  have hinv : Inv settings (tokenOf processes) processes.length _ :=
    Pool.run_invariant (fun p d h => ⟨h.size, h.asks, h.kept.elapse d⟩)
      (fun p i t r k fault h ht hr _ => inv_advance (tokenOf_inj hdistinct) h ht hr)
      (inv_start settings processes clock ahead) (Pool.meets_true _ cs)
  refine ⟨hinv.kept.exclusive, hinv.kept.releases, ?_⟩
  by_cases henabled : settings.leaseEnabled = true
  · exact oneEnqueueEach_of_owed (hinv.kept.enqueues henabled)
  · intro before i start after hsplit
    have hgranted : .granted i start ∈ history := by
      rw [hsplit]
      exact List.mem_append_right _ List.mem_cons_self
    exact absurd (hinv.kept.known i start hgranted).2 henabled

/-- Two schedulers that tick once. -/
def twoSchedulers : List (SchedulerService × List (Option Int)) :=
  [(⟨"first", none, none, none, none, none, none⟩, [some 0]), (⟨"second", none, none, none, none, none, none⟩, [none])]

/-- The first enqueues only when its lease has expired and the second has taken it over; that
    fails, and its release comes too late. -/
def lateRelease : List (Choice SchedulerExc) :=
  [.call 0 none, .call 0 none, .call 0 none, .elapse 900000000, .call 1 none, .call 1 none, .call 1 none,
    .call 1 none, .call 1 none, .call 0 (some (.other "queue is down")), .call 0 none, .call 0 none]

theorem a_late_release_deletes_nothing :
    let settings : SchedulerSettings := ⟨30, 600, 900, some ⟨"imghost"⟩, true⟩
    let history := ((Pool.start (.fresh 0 fun _ => 0) (twoSchedulers.map fun p =>
      SchedulerService.runTicks settings p.2 p.1)).run schedulerBackend lateRelease).world.history
    history = [.granted 0 0, .granted 1 900000000, .enqueued 1] ∧
      ((∀ i j t, Holds settings history i t → Holds settings history j t → i = j) ∧
        ReleasesOwn settings history ∧ OneEnqueueEach history) :=
  ⟨by decide +kernel, lease_exclusion _ twoSchedulers (by decide) 0 (fun _ => 0) lateRelease⟩

end Imghost.Scheduler.Exclusion
