/-
  Imghost.Concurrency.ThumbnailRuns — several runs of `generate_thumbnail` for one item.

  All of them store the thumbnail under one key, and a run that fails after that takes
  the object back. Nothing tells it whether another run has stored the same key since,
  or has recorded it in the row already. Where no run takes back what the row names, or
  what another run is about to record, a row that says `done` names a stored object, in
  every state; any call may fail, and a processor may fail in one run and not in another.
-/

import Imghost.Service.Footprint

namespace Imghost.Concurrency.ThumbnailRuns

open Imghost.Async Imghost.Data Imghost.Model Imghost.Service

variable {α β : Type}

/-! ## What a run has stored -/

/-- The key a run has stored and not yet recorded in the row. -/
abbrev Stored := Option String

def Stored.next (stored : Stored) : Call → Stored
  | ⟨.put key _, .ok _, _⟩ => some key
  | ⟨.updateMediaThumbnailState _ _ _ _ _, _, _⟩ => none
  | _ => stored

/-- A run records `done` with the key it has stored, or with no thumbnail of its own. -/
def CanCall (mediaId : String) (stored : Stored) : Req → Prop
  | .updateMediaThumbnailState id thumbKey thumbIsOrig thumbStatus _ =>
    id = mediaId ∧ (thumbStatus = .done → thumbIsOrig = false → ∃ key, stored = some key ∧ thumbKey = some key)
  | .put _ _ | .storageDelete _ => True
  | r => Req.reads r = true

def storing (mediaId : String) : Protocol Reply PyExc Stored where
  can := CanCall mediaId
  next := Stored.next

variable {mediaId : String} {stored : Stored}

theorem can_of_reads {r : Req} (h : Req.reads r = true) : (storing mediaId).can stored r := by
  cases r <;> first | exact h | cases h

theorem next_of_reads {e : Call} (h : Req.reads e.req = true) : (storing mediaId).next stored e = stored := by
  obtain ⟨r, x, b⟩ := e
  cases r <;> first | rfl | cases h

theorem plain_reads (r : Req) (h : Req.plain r = true) : Req.reads r = true := plain_of_reads (fun _ h => h) r h

/-! ## A run keeps to it -/

/-- A failed run takes back what it has stored, and records that it failed. -/
theorem thumbnailFailed_uses (rt : Runtime) {media : Media} (hid : media.id = mediaId) (attempt maxAttempts : Nat)
    (written : Option String) (exc : PyExc) :
    (thumbnailFailed rt media attempt maxAttempts written exc).Uses fun r => ∀ stored, CanCall mediaId stored r := by
  have htake : (takeBack written).Uses fun r => ∀ stored, CanCall mediaId stored r := by
    unfold takeBack
    split
    · exact deleteStorageKeyBestEffort_uses (fun _ _ => trivial) _
    · trivial
  unfold thumbnailFailed
  dsimp only
  split
  · exact Program.uses_bind htake fun _ =>
      Program.uses_bind (Program.uses_perform fun _ => ⟨hid, fun h => nomatch h⟩) fun _ => trivial
  · exact Program.uses_bind htake fun _ =>
      Program.uses_bind (Program.uses_attempt (Program.uses_perform fun _ => ⟨hid, fun h => nomatch h⟩)) fun _ => trivial

theorem thumbnailFailed_records (rt : Runtime) {media : Media} (hid : media.id = mediaId) (attempt maxAttempts : Nat)
    (written : Option String) (exc : PyExc) :
    wp ((storing mediaId).machine Honest) (fun _ _ => True) (thumbnailFailed rt media attempt maxAttempts written exc)
      stored :=
  Protocol.wp_any (fun g _ hr => hr g) (thumbnailFailed_uses rt hid attempt maxAttempts written exc) fun _ _ => trivial

/-- A thumbnail of its own that was made is stored under its key. -/
def IsStored (made : MadeThumbnail) (stored : Stored) : Prop :=
  made.thumbIsOrig = false → ∃ key, stored = some key ∧ made.thumbKey = some key

theorem makeThumbnail_stores (rt : Runtime) (media : Media) :
    wp ((storing mediaId).machine Honest) (fun x stored => ∀ made, x = .ok made → IsStored made stored)
      (makeThumbnail rt media) stored := by
  unfold makeThumbnail
  split
  · exact fun _ h => nomatch h
  refine Protocol.wp_pass (fun _ => can_of_reads) (fun _ => next_of_reads) (thumbFrames_uses plain_reads _)
    (fun frames => ?_) fun e made h => nomatch h
  refine Protocol.wp_pass (fun _ => can_of_reads) (fun _ => next_of_reads) (Program.uses_perform rfl)
    (fun payload => ?_) fun e made h => nomatch h
  refine wp_value (fun metadata _ => ?_) fun e _ made h => nomatch h
  refine wp_value (fun thumbnail _ => ?_) fun e _ made h => nomatch h
  unfold storeThumbnail
  split
  · intro made h
    obtain rfl := Except.ok.inj h
    exact fun h => nomatch h
  · refine Protocol.wp_await trivial (fun _ b _ => ?_) fun e b _ made h => nomatch h
    intro made h
    obtain rfl := Except.ok.inj h
    exact fun _ => ⟨_, rfl, rfl⟩

theorem runThumbnail_records (rt : Runtime) {media : Media} (hid : media.id = mediaId) (attempt maxAttempts : Nat) :
    wp ((storing mediaId).machine Honest) (fun _ _ => True) (runThumbnail rt media attempt maxAttempts) stored := by
  refine Protocol.wp_await ⟨hid, fun h => nomatch h⟩ (fun _ b _ => ?_) fun _ _ _ => trivial
  rw [wp_bind, wp_attempt]
  refine wp_mono (fun made stored hmade => ?_) (makeThumbnail_stores rt media)
  cases made with
  | error exc => exact thumbnailFailed_records rt hid _ _ _ _
  | ok made =>
    rw [bindPost_ok]
    dsimp only
    rw [wp_bind, wp_attempt]
    refine (wp_perform _).mpr ⟨⟨hid, fun _ => hmade made rfl⟩, ?_⟩
    rintro (exc | m) _ ⟨b, -, rfl⟩
    · exact thumbnailFailed_records rt hid _ _ _ _
    · trivial

theorem generateThumbnail_records (rt : Runtime) (mediaId : String) (attempt maxAttempts : Nat) :
    wp ((storing mediaId).machine Honest) (fun _ _ => True) (generateThumbnail rt mediaId attempt maxAttempts) none := by
  refine Protocol.wp_await rfl (fun found b h => ?_) fun _ _ _ => trivial
  cases found with
  | none => trivial
  | some media =>
    dsimp only
    split
    · trivial
    · exact runThumbnail_records rt h.getMedia_id attempt maxAttempts

/-! ## Runs -/

/-- One execution, with what its processors do, and its place among the retries. -/
structure Run where
  rt : Runtime
  attempt : Nat
  maxAttempts : Nat

abbrev Runs := Pool Reply PyExc World TaskRunResult

/-- The runs for one item, all about to start. -/
def Runs.start (w : World) (mediaId : String) (runs : List Run) : Runs :=
  Pool.start w (runs.map fun run => generateThumbnail run.rt mediaId run.attempt run.maxAttempts)

/-- A row that says `done`, with a thumbnail of its own, names a stored object. -/
def Present (w : World) (m : Media) : Prop :=
  m.thumbStatus = .done → m.thumbIsOrig = false → ∃ key ∈ m.thumbKey, (w.objects key).isSome = true

def DoneIsStored (mediaId : String) (w : World) : Prop := ∀ m ∈ w.media.rows, m.id = mediaId → Present w m

/-- What run `i` has stored and not yet recorded. -/
def storedBy (p : Runs) (i : Nat) : Stored := p.seen Stored.next none i

/-- What is taken back (and the call does not fail) is neither named by the row, where it says
    `done`, nor about to be recorded by a run. -/
def TakesBackUnused (mediaId : String) (p : Runs) (_ : Nat) (r : Req) (fault : Option PyExc) : Prop :=
  match r with
  | .storageDelete key =>
    fault = none →
      (∀ m ∈ p.world.media.rows, m.id = mediaId → m.thumbStatus = .done → m.thumbIsOrig = false → m.thumbKey ≠ some key) ∧
        ∀ j < p.tasks.length, storedBy p j ≠ some key
  | _ => True

instance (w : World) (m : Media) : Decidable (Present w m) := by
  unfold Present
  infer_instance

instance (mediaId : String) (w : World) : Decidable (DoneIsStored mediaId w) := by
  unfold DoneIsStored
  infer_instance

instance (mediaId : String) (p : Runs) (i : Nat) (r : Req) (fault : Option PyExc) :
    Decidable (TakesBackUnused mediaId p i r fault) := by
  apply @Req.casesOn _ r <;> (intros; delta TakesBackUnused; dsimp only; infer_instance)

/-- What a run is about to record is stored. -/
def StoredIsPresent (p : Runs) : Prop := ∀ j key, storedBy p j = some key → (p.world.objects key).isSome = true

section

variable {p : Runs} {i : Nat} {t : Task Reply PyExc TaskRunResult} {r : Req}
  {k : Except PyExc (Reply r) → Prog TaskRunResult} {fault : Option PyExc}

theorem storedBy_advance (ht : p.tasks[i]? = some t) : storedBy (p.advance backend i t r k fault) i =
    (storedBy p i).next ⟨r, (backend.answer i r fault p.world).1, fault.isSome⟩ := Pool.seen_advance_self ht

theorem storedBy_advance_of_ne {j : Nat} (h : j ≠ i) : storedBy (p.advance backend i t r k fault) j = storedBy p j :=
  Pool.seen_advance_of_ne h

/-- An object stays, unless this is the call that takes it back. -/
theorem object_stays {key : String} (h : (p.world.objects key).isSome = true)
    (hkeep : r = .storageDelete key → fault ≠ none) : ((backend.answer i r fault p.world).2.objects key).isSome = true := by
  by_cases hr : Req.changesObjects r = false
  · rw [answer_objects hr]
    exact h
  rcases answer_cases i r fault p.world with ha | ⟨e, hfault, ha⟩
  swap
  · rw [ha]
    exact h
  cases r <;> first | exact absurd rfl hr | skip
  case put key' data =>
    rw [ha]
    simp only [exec, World.put]
    split
    · rfl
    · exact h
  case storageDelete key' =>
    cases hf : fault with
    | none =>
      have hne : key ≠ key' := by
        rintro rfl
        exact hkeep rfl hf
      simp only [backend, Backend.answer_none, exec, World.storageDelete, if_neg hne]
      exact h
    | some e => exact h

theorem StoredIsPresent.advance (h : StoredIsPresent p) (ht : p.tasks[i]? = some t)
    (hunused : TakesBackUnused mediaId p i r fault) : StoredIsPresent (p.advance backend i t r k fault) := by
  intro j key hj
  change ((backend.answer i r fault p.world).2.objects key).isSome = true
  have hbefore : storedBy p j = some key → ((backend.answer i r fault p.world).2.objects key).isSome = true := by
    intro hstored
    refine object_stays (h j key hstored) fun hr hfault => ?_
    subst hr
    refine (hunused hfault).2 j ?_ hstored
    by_contra hge
    have hnone : p.tasks[j]? = none := List.getElem?_eq_none (Nat.le_of_not_lt hge)
    simp only [storedBy, Pool.seen, hnone] at hstored
    cases hstored
  by_cases hji : j = i
  · subst hji
    rw [storedBy_advance ht] at hj
    by_cases hput : ∃ key' data, r = .put key' data
    · obtain ⟨key', data, rfl⟩ := hput
      rcases answer_cases j (.put key' data) fault p.world with ha | ⟨e, -, ha⟩
      · rw [ha] at hj ⊢
        obtain rfl := Option.some.inj hj
        simp [exec, World.put]
      · rw [ha] at hj
        exact hbefore hj
    · refine hbefore ?_
      cases r <;> first | exact hj | exact absurd ⟨_, _, rfl⟩ hput | cases hj
  · rw [storedBy_advance_of_ne hji] at hj
    exact hbefore hj

/-- A row is as it was, or has just been recorded. -/
theorem row_before (hcan : CanCall mediaId stored r) {w : World} {m' : Media}
    (h : m' ∈ (backend.answer i r fault w).2.media.rows) :
    m' ∈ w.media.rows ∨ ∃ thumbKey thumbIsOrig thumbStatus thumbSize m,
      r = .updateMediaThumbnailState mediaId thumbKey thumbIsOrig thumbStatus thumbSize ∧
      m' = World.setThumb thumbKey thumbIsOrig thumbStatus thumbSize m := by
  by_cases hr : Req.changesMedia r = false
  · rw [answer_media hr] at h
    exact .inl h
  rcases answer_cases i r fault w with ha | ⟨e, -, ha⟩
  swap
  · rw [ha] at h
    exact .inl h
  rw [ha] at h
  cases r <;> first | exact absurd rfl hr | exact absurd hcan Bool.false_ne_true | skip
  case updateMediaThumbnailState id thumbKey thumbIsOrig thumbStatus thumbSize =>
    obtain rfl : id = mediaId := hcan.1
    simp only [exec, World.updateMediaThumbnailState] at h
    split at h
    · exact .inl h
    · obtain ⟨m, hm, rfl⟩ := List.mem_map.mp h
      by_cases hm' : m.id = id
      · rw [if_pos hm']
        exact .inr ⟨_, _, _, _, m, rfl, rfl⟩
      · rw [if_neg hm']
        exact .inl hm

theorem doneIsStored_advance (h : DoneIsStored mediaId p.world) (hstored : StoredIsPresent p)
    (hcan : CanCall mediaId (storedBy p i) r) (hunused : TakesBackUnused mediaId p i r fault) :
    DoneIsStored mediaId (p.advance backend i t r k fault).world := by
  intro m' hm' hid hdone horig
  change ∃ key ∈ m'.thumbKey, ((backend.answer i r fault p.world).2.objects key).isSome = true
  rcases row_before hcan hm' with hm | ⟨thumbKey, thumbIsOrig, thumbStatus, thumbSize, m, rfl, rfl⟩
  · obtain ⟨key, hkey, hpresent⟩ := h m' hm hid hdone horig
    refine ⟨key, hkey, object_stays hpresent fun hr hfault => ?_⟩
    subst hr
    exact (hunused hfault).1 m' hm hid hdone horig hkey
  · obtain ⟨key, hheld, hkey⟩ := hcan.2 hdone horig
    exact ⟨key, hkey, object_stays (hstored i key hheld) nofun⟩

end

/-- Any number of runs for one item, in any order, with any calls failing: as long as nothing that is
    used is taken back, a row that says `done` names a stored object in every state reached. -/
theorem done_is_stored (w : World) (mediaId : String) (runs : List Run) (cs : List (Choice PyExc))
    (hw : DoneIsStored mediaId w) (hunused : (Runs.start w mediaId runs).Meets backend (TakesBackUnused mediaId) cs) :
    DoneIsStored mediaId ((Runs.start w mediaId runs).run backend cs).world := by
  refine (Pool.run_invariant (B := backend) (I := fun p : Runs => DoneIsStored mediaId p.world ∧ StoredIsPresent p ∧
      p.Follows (fun _ => storing mediaId) Honest (fun _ _ _ => True) fun _ => none)
    (fun p d h => h) (fun p i t r k fault h ht hr hunused => ?_) ⟨hw, ?_, ?_⟩ hunused).1
  · obtain ⟨hdone, hstored, hfollows⟩ := h
    have hcan : CanCall mediaId (storedBy p i) r := by
      rw [storedBy, Pool.seen_eq ht]
      exact hfollows.can ht hr
    exact ⟨doneIsStored_advance hdone hstored hcan hunused, hstored.advance ht hunused,
      hfollows.advance ht hr (honest_answer i r fault p.world)⟩
  · intro j key hj
    rw [storedBy, Runs.start, Pool.seen_start] at hj
    cases hj
  · refine Pool.follows_start fun i q hq => ?_
    rw [List.getElem?_map] at hq
    obtain ⟨run, -, rfl⟩ := Option.map_eq_some_iff.mp hq
    exact generateThumbnail_records run.rt mediaId run.attempt run.maxAttempts

/-! ## A thumbnail taken back from under another run -/

/-- The sample item, with its object. -/
def oneOriginal : World :=
  { Sample.world with
    albums := .single Sample.album
    media := .single (Sample.media "m")
    objects := fun key => if key = "originals/anon/m.png" then some [1] else none }

/-- The same run twice, each of them its last attempt. -/
def twoRuns : List Run := [⟨Sample.runtime, 1, 1⟩, ⟨Sample.runtime, 1, 1⟩]

/-- The second run stores its thumbnail and fails to record it. -/
def secondFails : List (Choice PyExc) :=
  (List.replicate 4 (.call 1 none)) ++ [.call 1 (some (.exception "update media"))]

/-- The first stores the thumbnail before the second takes it back, and records it after. -/
def takenBackBetween : List (Choice PyExc) :=
  secondFails ++ List.replicate 4 (.call 0 none) ++ List.replicate 2 (.call 1 none) ++ [.call 0 none]

/-- The first stores it after the second has taken it back. -/
def takenBackBefore : List (Choice PyExc) :=
  List.replicate 3 (.call 0 none) ++ secondFails ++ List.replicate 2 (.call 1 none) ++ List.replicate 2 (.call 0 none)

/-- One call fails, both runs end, and the row says `done` with no object for its thumbnail. -/
theorem done_without_a_thumbnail :
    DoneIsStored "m" oneOriginal ∧ ((Runs.start oneOriginal "m" twoRuns).run backend takenBackBetween).finished = true ∧
      ¬ DoneIsStored "m" ((Runs.start oneOriginal "m" twoRuns).run backend takenBackBetween).world := by
  decide +kernel

theorem a_thumbnail_taken_back_in_time :
    DoneIsStored "m" ((Runs.start oneOriginal "m" twoRuns).run backend takenBackBefore).world :=
  done_is_stored oneOriginal "m" twoRuns takenBackBefore (by decide +kernel) (by decide +kernel)

end Imghost.Concurrency.ThumbnailRuns
