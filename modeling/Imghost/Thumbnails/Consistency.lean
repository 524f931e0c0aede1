/-
  Imghost.Thumbnails.Consistency — what one thumbnail job leaves of its item.

  The job writes the row up to three times and the object once, and any of its calls can
  raise. It keeps the row it has read in memory and changes it as it goes; the stored row
  follows only where an update goes through.

  - Whatever raises, as long as objects can be deleted, the stored row is consistent with the
    objects (`a_run_leaves_it_consistent`): done with a thumbnail, or not done and without
    anything the run has put there.
-/

import Imghost.Async.Moments
import Imghost.Model.Frames
import Imghost.Service.Operations

namespace Imghost.Thumbnails

open Imghost.Async Imghost.Data Imghost.Model Imghost.Service Program

/-! ## What a run leaves -/

/-- The object a call has put. -/
def putKey : Call → Option String
  | ⟨.put key _, .ok _, _⟩ => some key
  | _ => none

/-- The objects the calls of a run have put. -/
def putKeys (log : List Call) : List String := log.filterMap putKey

/-- Every deletion of an object goes through. -/
def DeletesGoThrough (r : Req) (fault : Option PyExc) (_ : World) : Prop := ∀ key, r = .storageDelete key → fault = none

/-- The item `m` is stored as `row` after a run that returned or raised `x` and put `puts`. -/
structure Consistent (m row : Media) (attempt maxAttempts : Nat) (x : Except PyExc TaskRunResult)
    (objects : String → Option Bytes) (puts : List String) : Prop where
  done : row.thumbStatus = .done →
    (row.thumbIsOrig = true ∧ row.thumbKey = none ∧ row.thumbSize = some row.fileSize) ∨
      (row.thumbIsOrig = false ∧ ∃ key, row.thumbKey = some key ∧ (objects key).isSome = true)
  notDone : row.thumbStatus ≠ .done →
    (∀ key ∈ puts, objects key = none) ∧ (row.thumbKey = none ∨ row.thumbKey = m.thumbKey)
  retry : ∀ result, x = .ok result → result.state = .retryScheduled → attempt < maxAttempts ∧ row.thumbStatus = .pending

/-! ## One call -/

/-- The row is stored as `row`, and the run has put `puts` so far. -/
structure At (m row : Media) (puts : List String) (s : World × List Call) : Prop where
  row : s.1.media.find? m.id = some row
  puts : putKeys s.2 = puts

variable {α : Type} {m row : Media} {puts : List String} {s : World × List Call}

theorem putKeys_snoc (log : List Call) (e : Call) : putKeys (log ++ [e]) = putKeys log ++ (putKey e).toList := by
  rw [putKeys, List.filterMap_append]
  cases h : putKey e <;> simp [h, putKeys]

/-- Calls that change no item and put nothing. -/
def Aside (r : Req) : Prop := Req.changesMedia r = false ∧ ∀ key data, r ≠ .put key data

theorem putKey_aside {r : Req} (h : ∀ key data, r ≠ .put key data) (x : Except PyExc (Reply r)) (b : Bool) :
    putKey ⟨r, x, b⟩ = none := by
  cases r <;> first | rfl | exact absurd rfl (h _ _)

theorem At.aside {r : Req} (hr : Aside r) (h : At m row puts s) {d : Nat} {fault : Option PyExc} {x : Except PyExc (Reply r)}
    {b : Bool} : At m row puts ((backend.answer 0 r fault (backend.elapse d s.1)).2, s.2 ++ [⟨r, x, b⟩]) := by
  refine ⟨?_, ?_⟩
  · rw [answer_media hr.1]
    exact h.row
  · rw [putKeys_snoc, putKey_aside hr.2, h.puts]
    exact List.append_nil _

/-- A program of such calls. -/
theorem wp_aside {p : Prog α} (hp : p.Uses Aside) (h : At m row puts s) :
    wp (backend.traced DeletesGoThrough) (fun _ s' => At m row puts s') p s := by
  refine wp_of_uses (I := At m row puts) (fun r s' hr hs' => ⟨trivial, ?_⟩) hp h fun _ _ h => h
  rintro x s'' ⟨d, fault, -, hanswer, hlog⟩
  have hnow := @At.aside _ _ _ _ _ hr hs' d fault x fault.isSome
  rw [hanswer, ← hlog] at hnow
  exact hnow

/-- An update goes through, or leaves the row as it was. -/
theorem wp_update {thumbKey : Option String} {thumbIsOrig : Bool} {thumbStatus : ThumbStatus} {thumbSize : Option Nat}
    {Q : Except PyExc Media → World × List Call → Prop} (h : At m row puts s)
    (hok : ∀ a s', s'.1.objects = s.1.objects →
      At m (World.setThumb thumbKey thumbIsOrig thumbStatus thumbSize row) puts s' → Q (.ok a) s')
    (herr : ∀ e s', s'.1.objects = s.1.objects → At m row puts s' → Q (.error e) s') :
    wp (backend.traced DeletesGoThrough) Q
      (Repository.updateMediaThumbnailState m.id thumbKey thumbIsOrig thumbStatus thumbSize) s := by
  refine wp_traced_perform fun d fault _ => ?_
  have hputs : ∀ x b, putKeys (s.2 ++ [⟨.updateMediaThumbnailState m.id thumbKey thumbIsOrig thumbStatus thumbSize, x, b⟩]) =
      puts := by
    intro x b
    rw [putKeys_snoc, h.puts]
    exact List.append_nil _
  cases fault with
  | some e => exact herr e _ rfl ⟨h.row, hputs _ _⟩
  | none =>
    have hrow : (backend.elapse d s.1).media.find? m.id = some row := h.row
    have hexec : exec 0 (.updateMediaThumbnailState m.id thumbKey thumbIsOrig thumbStatus thumbSize) (backend.elapse d s.1) =
        (.ok (World.setThumb thumbKey thumbIsOrig thumbStatus thumbSize row), { backend.elapse d s.1 with
          media := (backend.elapse d s.1).media.update m.id (World.setThumb thumbKey thumbIsOrig thumbStatus thumbSize)
            (World.setThumb_id thumbKey thumbIsOrig thumbStatus thumbSize) }) := by
      rw [exec, World.updateMediaThumbnailState, hrow]
    rw [Backend.answer_none, show backend.exec = exec from rfl, hexec]
    refine hok _ _ rfl ⟨?_, hputs _ _⟩
    rw [Table.find?_update, if_pos rfl, hrow]
    rfl

/-! ## The thumbnail -/

/-- The thumbnail is the original, or an object that the run has put. -/
def Made (m : Media) (made : MadeThumbnail) (objects : String → Option Bytes) (puts : List String) : Prop :=
  (made.thumbIsOrig = true ∧ made.thumbKey = none ∧ made.thumbSize = some m.fileSize ∧ puts = []) ∨
    (made.thumbIsOrig = false ∧ ∃ key, made.thumbKey = some key ∧ (objects key).isSome = true ∧ puts = [key])

theorem storeThumbnail_at (thumbnail : ThumbnailResult) (h : At m row [] s) :
    wp (backend.traced DeletesGoThrough)
      (fun x s' => match x with
        | .ok made => ∃ puts, At m row puts s' ∧ Made m made s'.1.objects puts
        | .error _ => At m row [] s')
      (storeThumbnail m thumbnail) s := by
  unfold storeThumbnail
  split
  · exact ⟨[], h, .inl ⟨rfl, rfl, rfl, rfl⟩⟩
  · rw [wp_bind]
    refine wp_traced_perform fun d fault _ => ?_
    have hputs : ∀ x b, putKeys (s.2 ++ [⟨.put (thumbKeyFor m.id thumbnail.format) (thumbnail.data.getD []), x, b⟩]) =
        (putKey ⟨.put (thumbKeyFor m.id thumbnail.format) (thumbnail.data.getD []), x, b⟩).toList := by
      intro x b
      rw [putKeys_snoc, h.puts, List.nil_append]
    cases fault with
    | some e => exact ⟨h.row, hputs _ _⟩
    | none =>
      refine ⟨[thumbKeyFor m.id thumbnail.format], ⟨h.row, hputs _ _⟩, .inr ⟨rfl, _, rfl, ?_, rfl⟩⟩
      show (World.put _ _ _).objects _ |>.isSome
      simp [World.put]

theorem makeThumbnail_at (rt : Runtime) (h : At m row [] s) :
    wp (backend.traced DeletesGoThrough)
      (fun x s' => match x with
        | .ok made => ∃ puts, At m row puts s' ∧ Made m made s'.1.objects puts
        | .error _ => At m row [] s')
      (makeThumbnail rt m) s := by
  have haside : ∀ r, Req.changesMedia r = false → (∀ key data, r ≠ .put key data) → Aside r := fun _ h h' => ⟨h, h'⟩
  unfold makeThumbnail
  split
  · exact h
  · rename_i processor _
    refine wp_seq (wp_aside ?_ h) (fun frames s₁ h₁ => ?_) fun e s₁ h₁ => h₁
    · unfold thumbFrames
      split
      · exact uses_bind (uses_perform ⟨rfl, fun _ _ => nofun⟩) fun _ => trivial
      · trivial
    refine wp_seq (wp_aside (uses_perform ⟨rfl, fun _ _ => nofun⟩) h₁) (fun payload s₂ h₂ => ?_) fun e s₂ h₂ => h₂
    refine wp_value (fun metadata _ => ?_) fun e _ => h₂
    exact wp_value (fun thumbnail _ => storeThumbnail_at thumbnail h₂) fun e _ => h₂

/-! ## The handler -/

/-- What was put is taken back. -/
theorem takeBack_at {written : Option String} (h : At m row written.toList s) :
    wp (backend.traced DeletesGoThrough)
      (fun x s' => x = .ok () ∧ At m row written.toList s' ∧ ∀ key ∈ written.toList, s'.1.objects key = none)
      (takeBack written) s := by
  cases written with
  | none => exact ⟨rfl, h, by simp⟩
  | some key =>
    rw [takeBack, deleteStorageKeyBestEffort, wp_tryExcept]
    refine wp_traced_perform fun d fault hC => ?_
    obtain rfl : fault = none := hC key rfl
    refine ⟨rfl, h.aside (r := .storageDelete key) ⟨rfl, fun _ _ => nofun⟩, fun key' hkey' => ?_⟩
    obtain rfl := List.mem_singleton.mp hkey'
    show (World.storageDelete _ _).objects _ = none
    simp [World.storageDelete]

theorem thumbnailFailed_consistent (rt : Runtime) {attempt maxAttempts : Nat} {written : Option String} (exc : PyExc)
    (h : At m row written.toList s) (hstatus : row.thumbStatus = .processing) (hkey : row.thumbKey = m.thumbKey) :
    wp (backend.traced DeletesGoThrough)
      (fun x s' => ∃ row', At m row' written.toList s' ∧
        Consistent m row' attempt maxAttempts x s'.1.objects written.toList)
      (thumbnailFailed rt m attempt maxAttempts written exc) s := by
  unfold thumbnailFailed
  dsimp only
  -- the row is not done, with the key it had or none
  have hkept : ∀ (x : Except PyExc TaskRunResult) (s' : World × List Call), (∀ key ∈ written.toList, s'.1.objects key = none) →
      At m row written.toList s' → (∀ result, x = .ok result → result.state ≠ .retryScheduled) →
      ∃ row', At m row' written.toList s' ∧ Consistent m row' attempt maxAttempts x s'.1.objects written.toList := by
    intro x s' hgone hs' hstate
    refine ⟨row, hs', ⟨fun hdone => ?_, fun _ => ⟨hgone, .inr hkey⟩, fun result hx hretry => absurd hretry (hstate result hx)⟩⟩
    rw [hstatus] at hdone
    cases hdone
  split
  · rename_i hretry
    have hattempt : attempt < maxAttempts := by
      rw [Bool.and_eq_true, decide_eq_true_iff] at hretry
      exact hretry.2
    refine wp_seq (takeBack_at h) (fun _ s₁ hs₁ => ?_) fun e s₁ hs₁ => nomatch hs₁.1
    obtain ⟨-, h₁, hgone⟩ := hs₁
    rw [wp_bind]
    refine wp_update h₁ (fun a s₂ hobjects h₂ => ⟨_, h₂, ?_⟩) fun e s₂ hobjects h₂ => ?_
    · refine ⟨nofun, fun _ => ⟨?_, .inl rfl⟩, fun result _ _ => ⟨hattempt, rfl⟩⟩
      rw [hobjects]
      exact hgone
    · exact hkept _ s₂ (by rw [hobjects]; exact hgone) h₂ nofun
  · refine wp_seq (takeBack_at h) (fun _ s₁ hs₁ => ?_) fun e s₁ hs₁ => nomatch hs₁.1
    obtain ⟨-, h₁, hgone⟩ := hs₁
    have hstate : ∀ (reason : String) (retryable : Bool) (result : TaskRunResult),
        (.ok { state := if retryable then .failedExhausted else .failedPermanent, reason := some reason, retryable := false } :
          Except PyExc TaskRunResult) = .ok result → result.state ≠ .retryScheduled := by
      intro reason retryable result hresult
      obtain rfl := Except.ok.inj hresult
      cases retryable <;> nofun
    rw [wp_bind, wp_attempt]
    refine wp_update h₁ (fun a s₂ hobjects h₂ => ⟨_, h₂, ?_⟩) fun e s₂ hobjects h₂ => ?_
    · refine ⟨nofun, fun _ => ⟨?_, .inl rfl⟩, fun result hresult hretry => absurd hretry (hstate _ _ result hresult)⟩
      rw [hobjects]
      exact hgone
    · exact hkept _ s₂ (by rw [hobjects]; exact hgone) h₂ (hstate _ _)

/-! ## The run -/

theorem runThumbnail_consistent (rt : Runtime) {attempt maxAttempts : Nat} (h : At m m [] s) (hstatus : m.thumbStatus ≠ .done) :
    wp (backend.traced DeletesGoThrough)
      (fun x s' => ∃ row puts, At m row puts s' ∧ Consistent m row attempt maxAttempts x s'.1.objects puts)
      (runThumbnail rt m attempt maxAttempts) s := by
  unfold runThumbnail
  rw [wp_bind]
  refine wp_update h (fun _ s₁ hobjects h₁ => ?_) fun e s₁ hobjects h₁ => ?_
  · rw [bindPost_ok, wp_bind, wp_attempt]
    refine wp_mono (fun x s₂ hs₂ => ?_) (makeThumbnail_at rt h₁)
    rw [bindPost_ok]
    cases x with
    | error exc =>
      refine wp_mono (fun x s₃ hs₃ => ?_) (@thumbnailFailed_consistent m _ _ rt attempt maxAttempts none exc hs₂ rfl rfl)
      obtain ⟨row, h₃, hconsistent⟩ := hs₃
      exact ⟨row, [], h₃, hconsistent⟩
    | ok made =>
      obtain ⟨puts, h₂, hmade⟩ := hs₂
      have hputs : puts = made.thumbKey.toList := by
        rcases hmade with ⟨-, hkey, -, hputs⟩ | ⟨-, key, hkey, -, hputs⟩
        · rw [hputs, hkey]
          rfl
        · rw [hputs, hkey]
          rfl
      dsimp only
      rw [wp_bind, wp_attempt]
      refine wp_update h₂ (fun _ s₃ hobjects₃ h₃ => ⟨_, puts, h₃, ?_⟩) fun exc s₃ _ h₃ => ?_
      · refine ⟨fun _ => ?_, fun hnot => absurd rfl hnot, fun result hresult hretry => ?_⟩
        · rcases hmade with ⟨horig, hkey, hsize, -⟩ | ⟨horig, key, hkey, hsome, -⟩
          · exact .inl ⟨horig, hkey, hsize⟩
          · refine .inr ⟨horig, key, hkey, ?_⟩
            rw [hobjects₃]
            exact hsome
        · obtain rfl := Except.ok.inj hresult
          cases hretry
      · rw [bindPost_ok]
        rw [hputs] at h₃
        refine wp_mono (fun x s₄ hs₄ => ?_) (thumbnailFailed_consistent rt exc h₃ rfl rfl)
        obtain ⟨row, h₄, hconsistent⟩ := hs₄
        exact ⟨row, _, h₄, hconsistent⟩
  · refine ⟨m, [], h₁, ⟨fun hdone => absurd hdone hstatus, fun _ => ⟨nofun, .inr rfl⟩, nofun⟩⟩

/-- One job on an item that is not done yet, by itself: whatever else raises, the row that is
    stored afterwards is consistent. -/
theorem a_run_leaves_it_consistent (rt : Runtime) (w : World) (m : Media) (attempt maxAttempts : Nat)
    (ms : List (Moment PyExc)) (hm : m ∈ w.media) (hstatus : m.thumbStatus ≠ .done)
    (hdeletes : MeetsAlone backend DeletesGoThrough (generateThumbnail rt m.id attempt maxAttempts) ms w) :
    ∃ row, (runAlone backend (generateThumbnail rt m.id attempt maxAttempts) ms w).2.media.find? m.id = some row ∧
      Consistent m row attempt maxAttempts (runAlone backend (generateThumbnail rt m.id attempt maxAttempts) ms w).1
        (runAlone backend (generateThumbnail rt m.id attempt maxAttempts) ms w).2.objects
        (putKeys (traceAlone backend (generateThumbnail rt m.id attempt maxAttempts) ms w)) := by
  have hstart : At m m [] (w, []) := ⟨Table.find?_self hm, rfl⟩
  have hrun : wp (backend.traced DeletesGoThrough)
      (fun x s' => ∃ row puts, At m row puts s' ∧ Consistent m row attempt maxAttempts x s'.1.objects puts)
      (generateThumbnail rt m.id attempt maxAttempts) (w, []) := by
    unfold generateThumbnail
    rw [wp_bind]
    refine wp_traced_perform fun d fault _ => ?_
    have haside : ∀ x b, At m m [] ((backend.answer 0 (.getMedia m.id) fault (backend.elapse d w)).2,
        ([] : List Call) ++ [⟨.getMedia m.id, x, b⟩]) := fun x b =>
      hstart.aside (r := .getMedia m.id) ⟨rfl, fun _ _ => nofun⟩
    cases fault with
    | some e => exact ⟨m, [], haside _ _, ⟨fun hdone => absurd hdone hstatus, fun _ => ⟨nofun, .inr rfl⟩, nofun⟩⟩
    | none =>
      have hfound : exec 0 (.getMedia m.id) (backend.elapse d w) = (.ok (some m), backend.elapse d w) := by
        rw [← Table.find?_self hm]
        rfl
      have hnow := haside (exec 0 (.getMedia m.id) (backend.elapse d w)).1 false
      rw [Backend.answer_none, show backend.exec = exec from rfl, hfound] at hnow ⊢
      rw [bindPost_ok]
      dsimp only
      rw [if_neg hstatus]
      exact runThumbnail_consistent rt hnow hstatus
  obtain ⟨row, puts, hat, hconsistent⟩ := wp_traced hrun ms hdeletes
  refine ⟨row, hat.row, ?_⟩
  rw [show putKeys (traceAlone backend _ ms w) = puts from hat.puts]
  exact hconsistent

namespace Sample

open Imghost.Service.Sample

/-- An item to make a thumbnail for, and its object. -/
def uploaded : World :=
  { world with
    albums := .single album
    media := .single (media "m")
    objects := fun key => if key = "originals/anon/m.png" then some [1] else none }

end Sample

open Sample Imghost.Service.Sample in
/-- With nothing failing. -/
theorem a_first_run_leaves_it_consistent :
    ∃ row, (runAlone backend (generateThumbnail runtime "m" 1 3) [] uploaded).2.media.find? "m" = some row ∧
      Consistent (media "m") row 1 3 (runAlone backend (generateThumbnail runtime "m" 1 3) [] uploaded).1
        (runAlone backend (generateThumbnail runtime "m" 1 3) [] uploaded).2.objects
        (putKeys (traceAlone backend (generateThumbnail runtime "m" 1 3) [] uploaded)) :=
  a_run_leaves_it_consistent runtime uploaded (media "m") 1 3 [] List.mem_cons_self nofun
    (meetsAlone_quiet (fun _ _ _ _ => rfl) _ _)

end Imghost.Thumbnails
