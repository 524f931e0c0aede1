/-
  Imghost.Concurrency.StaleRows — background work on thumbnails beside reorders.

  Two writes come from a row read earlier. `recover_thumbnails` writes every column of
  the row it has listed, the position among them, and a run of `generate_thumbnail`
  first writes the thumbnail's columns as it has read them. Where each such write finds
  the row as current as its own copy, in position and in not being done, every item is
  where the reorders put it, keeps the thumbnail that was recorded last, and is
  otherwise unchanged: in every state, with any jobs in any order and any calls failing.
-/

import Imghost.Service.Positions
import Imghost.Service.Recovery

namespace Imghost.Concurrency.StaleRows

open Imghost.Async Imghost.Data Imghost.Model Imghost.Service

/-! ## What was written -/

/-- An item after the positions a reorder wrote. -/
def positioned (m : Media) : AppCall → Media
  | ⟨.inl (.updateMediaPositions albumId positions), .ok _, _⟩ => World.setPositions albumId positions m
  | _ => m

/-- The last position a reorder wrote, or else the one the item had. -/
def lastPosition (m : Media) (es : List AppCall) : Int := (es.foldl positioned m).position

/-- The thumbnail a run recorded last; a run that fails records that there is none. -/
def recorded (mediaId : String) (made : Option MadeThumbnail) : AppCall → Option MadeThumbnail
  | ⟨.inl (.updateMediaThumbnailState id thumbKey thumbIsOrig thumbStatus thumbSize), .ok _, _⟩ =>
    if id = mediaId then
      match thumbStatus with
      | .done => some ⟨thumbKey, thumbIsOrig, thumbSize⟩
      | .processing => made
      | .pending | .failed => none
    else made
  | _ => made

def lastOutcome (mediaId : String) (es : List AppCall) : Option MadeThumbnail := es.foldl (recorded mediaId) none

/-- Equal but for the position and the thumbnail. -/
def Fixed (m m' : Media) : Prop :=
  { m' with position := m.position, thumbKey := m.thumbKey, thumbIsOrig := m.thumbIsOrig,
            thumbStatus := m.thumbStatus, thumbSize := m.thumbSize } = m

/-- The row `m'` that an item `m` has become. -/
structure Kept (es : List AppCall) (m m' : Media) : Prop where
  fixed : Fixed m m'
  position : m'.position = lastPosition m es
  outcome : ∀ made, lastOutcome m.id es = some made →
    m'.thumbStatus = .done ∧ m'.thumbKey = made.thumbKey ∧ m'.thumbIsOrig = made.thumbIsOrig ∧
      m'.thumbSize = made.thumbSize

instance (m m' : Media) : Decidable (Fixed m m') := by
  unfold Fixed
  infer_instance

instance (es : List AppCall) (m m' : Media) : Decidable (Kept es m m') :=
  decidable_of_iff (Fixed m m' ∧ m'.position = lastPosition m es ∧ ∀ made ∈ lastOutcome m.id es,
      m'.thumbStatus = .done ∧ m'.thumbKey = made.thumbKey ∧ m'.thumbIsOrig = made.thumbIsOrig ∧
        m'.thumbSize = made.thumbSize)
    ⟨fun h => ⟨h.1, h.2.1, h.2.2⟩, fun h => ⟨h.fixed, h.position, h.outcome⟩⟩

/-! ## Runs -/

abbrev Jobs := Pool AppReply PyExc World JobResult

/-- The jobs, all about to start. -/
def Jobs.start (w : World) (jobs : List Job) : Jobs := Pool.start w (jobs.map Job.program)

/-- A write from a row read earlier finds the row as it was read: where it was, and not done. -/
def WritesCurrent (p : Jobs) (_ : Nat) (r : AppReq) (fault : Option PyExc) : Prop :=
  match r with
  | .inr (.updateMedia m) =>
    fault = none → ∀ row ∈ p.world.media.rows, row.id = m.id → row.position = m.position ∧ row.thumbStatus ≠ .done
  | .inl (.updateMediaThumbnailState mediaId _ _ .processing _) =>
    fault = none → ∀ row ∈ p.world.media.rows, row.id = mediaId → row.thumbStatus ≠ .done
  | _ => True

instance (p : Jobs) (i : Nat) (r : AppReq) (fault : Option PyExc) : Decidable (WritesCurrent p i r fault) := by
  unfold WritesCurrent
  split <;> infer_instance

/-! ## What a job has listed -/

/-- The rows a recovery has listed. -/
abbrev Listed := List Media

def Listed.next (listed : Listed) : AppCall → Listed
  | ⟨.inr (.listMediaByThumbStatus _), .ok items, _⟩ => List.append listed items
  | _ => listed

/-- No job adds or removes a row, and the rows written whole are those listed. -/
def CanCall (listed : Listed) : AppReq → Prop
  | .inr (.updateMedia m) => ∃ s ∈ listed, m = { s with thumbStatus := .pending }
  | .inl (.insertMedia _) | .inl (.deleteMedia _) | .inl (.deleteAlbumRow _) | .inl (.deleteUser _) => False
  | _ => True

def listing : Protocol AppReply PyExc Listed where
  can := CanCall
  next := Listed.next

variable {listed : Listed}

section

variable {α : Type} {Honest : AppCall → Prop}

/-- The service's calls are allowed, apart from four. -/
theorem widen_lists {p : Prog α} (h : p.Uses fun r => ∀ listed, CanCall listed (.inl r)) :
    wp (listing.machine Honest) (fun _ _ => True) p.widen listed := by
  have hwiden : (p.widen : AppProg α).Uses fun r => ∀ listed, CanCall listed r := Program.uses_widen h
  exact Protocol.wp_any (fun g _ hr => hr g) hwiden fun _ _ => trivial

theorem can_of_reads (r : Req) (h : Req.reads r = true) : ∀ listed, CanCall listed (.inl r) := by
  cases r <;> first | exact fun _ => trivial | cases h

theorem generateThumbnail_lists (rt : Runtime) (mediaId : String) (attempt maxAttempts : Nat) :
    wp (listing.machine Honest) (fun _ _ => True) (generateThumbnail rt mediaId attempt maxAttempts).widen listed :=
  widen_lists (generateThumbnail_uses can_of_reads (fun _ _ _ => trivial) (fun _ _ => trivial) (fun _ _ _ _ _ _ => trivial)
    rt mediaId attempt maxAttempts)

theorem reorderAlbum_lists (albumId : String) (deleteToken : Option String) (order : List (String × Int))
    (correlationId : String) (actorUser : Option User) :
    wp (listing.machine Honest) (fun _ _ => True)
      (reorderAlbum albumId deleteToken order correlationId actorUser).widen listed :=
  widen_lists (reorderAlbum_uses can_of_reads (fun _ _ => trivial) albumId (fun _ _ => trivial) deleteToken order
    correlationId actorUser)

/-- The recovery's own writes. -/
def Recovers (listed : Listed) (r : AppReq) : Prop :=
  (∃ s ∈ listed, r = .inr (.updateMedia { s with thumbStatus := .pending })) ∨
    ∃ mediaId correlationId, r = .inr (.enqueue mediaId correlationId)

theorem recoverThumbnail_uses (includeFailed : Bool) {m : Media} (hm : m ∈ listed) :
    (recoverThumbnail includeFailed m).Uses (Recovers listed) := by
  have hqueue : (Tasks.enqueue m.id ("recovery-" ++ m.id)).Uses (Recovers listed) :=
    Program.uses_perform (.inr ⟨_, _, rfl⟩)
  unfold recoverThumbnail
  split
  · exact Program.uses_bind (Program.uses_perform (.inl ⟨m, hm, rfl⟩)) fun _ => hqueue
  · exact hqueue

theorem recoverEach_uses (includeFailed : Bool) {items : List Media} (hitems : ∀ m ∈ items, m ∈ listed)
    (seen : List String) (enqueued : Nat) :
    (recoverEach includeFailed items seen enqueued).Uses (Recovers listed) := by
  induction items generalizing seen enqueued with
  | nil => trivial
  | cons m items ih =>
    have hrest : ∀ m ∈ items, m ∈ listed := fun m hm => hitems m (List.mem_cons_of_mem _ hm)
    unfold recoverEach
    split
    · exact ih hrest seen enqueued
    · exact Program.uses_bind (recoverThumbnail_uses includeFailed (hitems m List.mem_cons_self)) fun _ =>
        ih hrest (m.id :: seen) (enqueued + 1)

theorem recoverEach_lists (includeFailed : Bool) {items : List Media} (hitems : ∀ m ∈ items, m ∈ listed) :
    wp (listing.machine Honest) (fun _ _ => True) (recoverEach includeFailed items [] 0) listed := by
  refine Protocol.wp_stay (fun r hr => ?_) (fun e he => ?_) (recoverEach_uses includeFailed hitems [] 0) fun _ => trivial
  · rcases hr with ⟨s, hs, rfl⟩ | ⟨_, _, rfl⟩
    · exact ⟨s, hs, rfl⟩
    · trivial
  · obtain ⟨r, x, b⟩ := e
    rcases he with ⟨s, hs, h⟩ | ⟨_, _, h⟩ <;> (dsimp only at h; subst h; rfl)

theorem alsoFailed_lists (includeFailed : Bool) {items : List Media} (hitems : ∀ m ∈ items, m ∈ listed) :
    wp (listing.machine Honest) (fun x listed' => ∀ found, x = .ok found → ∀ m ∈ found, m ∈ listed')
      (alsoFailed includeFailed items) listed := by
  unfold alsoFailed
  split
  · refine Protocol.wp_await trivial (fun failed b _ => ?_) fun _ _ _ _ h => nomatch h
    rintro found hfound m hm
    obtain rfl := Except.ok.inj hfound
    rcases List.mem_append.mp hm with hm | hm
    · exact List.mem_append_left _ (hitems m hm)
    · exact List.mem_append_right _ hm
  · intro found hfound
    obtain rfl := Except.ok.inj hfound
    exact hitems

theorem recoverThumbnails_lists (includeFailed : Bool) :
    wp (listing.machine Honest) (fun _ _ => True) (recoverThumbnails includeFailed) listed := by
  refine Protocol.wp_await trivial (fun (pending : List Media) b _ => ?_) fun _ _ _ => trivial
  have hpending : ∀ m ∈ pending, m ∈ listed ++ pending := fun m hm => List.mem_append_right _ hm
  refine (wp_bind _ _ _).mpr (wp_mono (fun found listed' hfound => ?_) (alsoFailed_lists includeFailed hpending))
  cases found with
  | ok found => exact recoverEach_lists includeFailed (hfound found rfl)
  | error e => trivial

theorem program_lists (job : Job) : wp (listing.machine Honest) (fun _ _ => True) job.program listed := by
  have hreturn : ∀ {β : Type} {p : AppProg β} {f : β → JobResult},
      wp (listing.machine Honest) (fun _ _ => True) p listed →
      wp (listing.machine Honest) (fun _ _ => True) (p >>= fun a => pure (f a)) listed := by
    intro β p f h
    rw [wp_bind]
    refine wp_mono (fun x _ _ => ?_) h
    cases x <;> trivial
  cases job with
  | recoverThumbnails includeFailed => exact hreturn (recoverThumbnails_lists includeFailed)
  | generateThumbnail rt mediaId attempt maxAttempts =>
    exact hreturn (generateThumbnail_lists rt mediaId attempt maxAttempts)
  | reorderAlbum albumId deleteToken order correlationId actorUser =>
    exact hreturn (reorderAlbum_lists albumId deleteToken order correlationId actorUser)

end

/-! ## What a write makes of a row -/

section

variable {m m' : Media} {es : List AppCall} {e : AppCall}

theorem Fixed.id (h : Fixed m m') : m'.id = m.id := by
  unfold Fixed at h
  rw [← h]

theorem Fixed.albumId (h : Fixed m m') : m'.albumId = m.albumId := by
  unfold Fixed at h
  rw [← h]

/-- Only the position is written. -/
theorem setPositions_eq (albumId : String) (positions : List (String × Int)) (m : Media) :
    ∃ position, World.setPositions albumId positions m = { m with position := position } := by
  unfold World.setPositions
  induction positions generalizing m with
  | nil => exact ⟨m.position, rfl⟩
  | cons x positions ih =>
    rw [List.foldl_cons]
    obtain ⟨position, h⟩ := ih (World.setPosition albumId m x)
    refine ⟨position, h.trans ?_⟩
    simp only [World.setPosition]
    split <;> rfl

/-- Which position it is depends on the id, the album and the position before. -/
theorem setPositions_congr (albumId : String) (positions : List (String × Int)) {u : Media} (hid : m.id = u.id)
    (halbum : m.albumId = u.albumId) (hposition : m.position = u.position) :
    (World.setPositions albumId positions m).position = (World.setPositions albumId positions u).position := by
  unfold World.setPositions
  induction positions generalizing m u with
  | nil => exact hposition
  | cons x positions ih =>
    rw [List.foldl_cons, List.foldl_cons]
    by_cases hx : m.id = x.1 ∧ m.albumId = albumId
    · have hm : World.setPosition albumId m x = { m with position := x.2 } := if_pos hx
      have hu : World.setPosition albumId u x = { u with position := x.2 } := if_pos (by rwa [← hid, ← halbum])
      rw [hm, hu]
      exact ih hid halbum rfl
    · have hm : World.setPosition albumId m x = m := if_neg hx
      have hu : World.setPosition albumId u x = u := if_neg (by rwa [← hid, ← halbum])
      rw [hm, hu]
      exact ih hid halbum hposition

theorem positioned_eq (m : Media) (e : AppCall) : ∃ position, positioned m e = { m with position := position } := by
  unfold positioned
  split
  · exact setPositions_eq _ _ m
  · exact ⟨m.position, rfl⟩

theorem foldl_positioned (m : Media) (es : List AppCall) :
    es.foldl positioned m = { m with position := lastPosition m es } := by
  unfold lastPosition
  induction es generalizing m with
  | nil => rfl
  | cons e es ih =>
    obtain ⟨position, h⟩ := positioned_eq m e
    rw [List.foldl_cons, ih, h]

theorem lastPosition_snoc :
    lastPosition m (es ++ [e]) = (positioned { m with position := lastPosition m es } e).position := by
  show ((es ++ [e]).foldl positioned m).position = _
  rw [List.foldl_append, List.foldl_cons, List.foldl_nil, foldl_positioned]

theorem lastOutcome_snoc (mediaId : String) :
    lastOutcome mediaId (es ++ [e]) = recorded mediaId (lastOutcome mediaId es) e := by
  rw [lastOutcome, List.foldl_append]
  rfl

/-- A call that writes neither a position nor an outcome. -/
def Silent (e : AppCall) : Prop := (∀ m, positioned m e = m) ∧ ∀ mediaId made, recorded mediaId made e = made

theorem silent_of_error {r : AppReq} {exc : PyExc} {b : Bool} : Silent ⟨r, .error exc, b⟩ := by
  rcases r with r | r <;> cases r <;> exact ⟨fun _ => rfl, fun _ _ => rfl⟩

theorem silent_of_unchanged {r : Req} {x : Except PyExc (Reply r)} {b : Bool} (h : Req.changesMedia r = false) :
    Silent ⟨.inl r, x, b⟩ := by
  cases r <;> first | exact ⟨fun _ => rfl, fun _ _ => rfl⟩ | cases h

theorem silent_of_task {r : TaskReq} {x : Except PyExc (TaskReply r)} {b : Bool} : Silent ⟨.inr r, x, b⟩ :=
  ⟨fun _ => rfl, fun _ _ => rfl⟩

theorem Kept.silent (h : Kept es m m') (he : Silent e) : Kept (es ++ [e]) m m' where
  fixed := h.fixed
  position := by rw [lastPosition_snoc, he.1]; exact h.position
  outcome := by rw [lastOutcome_snoc, he.2]; exact h.outcome

theorem Kept.positions (h : Kept es m m') (albumId : String) (positions : List (String × Int)) (items : List Media)
    (b : Bool) : Kept (es ++ [⟨.inl (.updateMediaPositions albumId positions), .ok items, b⟩]) m
      (World.setPositions albumId positions m') := by
  obtain ⟨position, heq⟩ := setPositions_eq albumId positions m'
  refine ⟨?_, ?_, ?_⟩
  · rw [heq]
    exact h.fixed
  · rw [lastPosition_snoc]
    exact setPositions_congr albumId positions h.fixed.id h.fixed.albumId h.position
  · rw [lastOutcome_snoc, heq]
    exact h.outcome

theorem Kept.thumbnail (h : Kept es m m') (thumbKey : Option String) (thumbIsOrig : Bool) (thumbStatus : ThumbStatus)
    (thumbSize : Option Nat) (row : Media) (b : Bool) (hnow : thumbStatus = .processing → m'.thumbStatus ≠ .done) :
    Kept (es ++ [⟨.inl (.updateMediaThumbnailState m.id thumbKey thumbIsOrig thumbStatus thumbSize), .ok row, b⟩]) m
      (World.setThumb thumbKey thumbIsOrig thumbStatus thumbSize m') := by
  refine ⟨h.fixed, ?_, ?_⟩
  · rw [lastPosition_snoc]
    exact h.position
  · rw [lastOutcome_snoc]
    intro made hmade
    simp only [recorded, if_true] at hmade
    cases thumbStatus with
    | done =>
      obtain rfl := Option.some.inj hmade
      exact ⟨rfl, rfl, rfl, rfl⟩
    | processing => exact absurd (h.outcome made hmade).1 (hnow rfl)
    | pending => cases hmade
    | failed => cases hmade

theorem Kept.other_thumbnail (h : Kept es m m') {mediaId : String} (hne : mediaId ≠ m.id) (thumbKey : Option String)
    (thumbIsOrig : Bool) (thumbStatus : ThumbStatus) (thumbSize : Option Nat) (row : Media) (b : Bool) :
    Kept (es ++ [⟨.inl (.updateMediaThumbnailState mediaId thumbKey thumbIsOrig thumbStatus thumbSize), .ok row, b⟩]) m
      m' := by
  refine ⟨h.fixed, ?_, ?_⟩
  · rw [lastPosition_snoc]
    exact h.position
  · rw [lastOutcome_snoc]
    simp only [recorded, if_neg hne]
    exact h.outcome

/-- A row written whole, from a copy that is as current. -/
theorem Kept.whole (h : Kept es m m') {x : Media} (hx : Fixed m x) (hposition : m'.position = x.position)
    (hnow : m'.thumbStatus ≠ .done) (row : Media) (b : Bool) :
    Kept (es ++ [⟨.inr (.updateMedia x), .ok row, b⟩]) m (World.setMedia x m') := by
  refine ⟨?_, ?_, ?_⟩
  · have hid : m'.id = x.id := h.fixed.id.trans hx.id.symm
    unfold World.setMedia
    rw [hid]
    exact hx
  · rw [lastPosition_snoc]
    exact hposition.symm.trans h.position
  · rw [lastOutcome_snoc]
    exact fun made hmade => absurd (h.outcome made hmade).1 hnow

end

/-! ## One call -/

/-- Every item is still there. -/
def AllKept (w : World) (es : List AppCall) (w' : World) : Prop :=
  ∃ f : Media → Media, w'.media.rows = w.media.rows.map f ∧ ∀ m ∈ w.media.rows, Kept es m (f m)

section

variable {w v v' : World} {es es' : List AppCall} {e : AppCall}

theorem AllKept.map (h : AllKept w es v) {g : Media → Media} (hrows : v'.media.rows = v.media.rows.map g)
    (hg : ∀ m ∈ w.media.rows, ∀ m' ∈ v.media.rows, Kept es m m' → Kept es' m (g m')) : AllKept w es' v' := by
  obtain ⟨f, hf, hkept⟩ := h
  refine ⟨g ∘ f, by rw [hrows, hf, List.map_map], fun m hm => hg m hm (f m) ?_ (hkept m hm)⟩
  rw [hf]
  exact List.mem_map_of_mem hm

theorem AllKept.silent (h : AllKept w es v) (hrows : v'.media = v.media) (he : Silent e) : AllKept w (es ++ [e]) v' := by
  refine h.map (g := id) ?_ fun m _ m' _ hkept => hkept.silent he
  rw [hrows, List.map_id]

/-- A row is what one item has become. -/
theorem AllKept.origin (h : AllKept w es v) {m' : Media} (hm' : m' ∈ v.media.rows) : ∃ m ∈ w.media.rows, Kept es m m' := by
  obtain ⟨f, hf, hkept⟩ := h
  rw [hf] at hm'
  obtain ⟨m, hm, rfl⟩ := List.mem_map.mp hm'
  exact ⟨m, hm, hkept m hm⟩

theorem AllKept.answer_thumbnail (h : AllKept w es v) (i : Nat) {mediaId : String} {thumbKey : Option String}
    {thumbIsOrig : Bool} {thumbStatus : ThumbStatus} {thumbSize : Option Nat} {b : Bool}
    (hnow : thumbStatus = .processing → ∀ row ∈ v.media.rows, row.id = mediaId → row.thumbStatus ≠ .done) :
    let r : Req := .updateMediaThumbnailState mediaId thumbKey thumbIsOrig thumbStatus thumbSize
    AllKept w (es ++ [⟨.inl r, (exec i r v).1, b⟩]) (exec i r v).2 := by
  simp only [exec, World.updateMediaThumbnailState]
  split
  · exact h.silent rfl silent_of_error
  · refine h.map rfl fun m hm m' hm' hkept => ?_
    by_cases hid : m'.id = mediaId
    · rw [if_pos hid]
      obtain rfl : mediaId = m.id := hid.symm.trans hkept.fixed.id
      exact hkept.thumbnail _ _ _ _ _ b fun hprocessing => hnow hprocessing m' hm' hid
    · rw [if_neg hid]
      exact hkept.other_thumbnail (fun e => hid (hkept.fixed.id.trans e.symm)) _ _ _ _ _ b

theorem AllKept.answer_positions (h : AllKept w es v) (i : Nat) {albumId : String} {positions : List (String × Int)}
    {b : Bool} :
    let r : Req := .updateMediaPositions albumId positions
    AllKept w (es ++ [⟨.inl r, (exec i r v).1, b⟩]) (exec i r v).2 := by
  simp only [exec, World.updateMediaPositions]
  split
  · exact h.map rfl fun m _ m' _ hkept => hkept.positions albumId positions _ b
  · exact h.silent rfl silent_of_error

theorem AllKept.answer_whole (h : AllKept w es v) {x : Media} {b : Bool} (hx : ∃ m ∈ w.media.rows, Fixed m x)
    (hnow : ∀ row ∈ v.media.rows, row.id = x.id → row.position = x.position ∧ row.thumbStatus ≠ .done) :
    AllKept w (es ++ [⟨.inr (.updateMedia x), (v.updateMedia x).1, b⟩]) (v.updateMedia x).2 := by
  unfold World.updateMedia
  split
  · exact h.silent rfl silent_of_error
  split
  · exact h.silent rfl silent_of_error
  split
  · refine h.map rfl fun m hm m' hm' hkept => ?_
    by_cases hid : m'.id = x.id
    · rw [if_pos hid]
      obtain ⟨m₀, hm₀, hfixed⟩ := hx
      obtain rfl : m₀ = m := Table.eq_of_key hm₀ hm (hfixed.id.symm.trans (hid.symm.trans hkept.fixed.id))
      obtain ⟨hposition, hdone⟩ := hnow m' hm' hid
      exact hkept.whole hfixed hposition hdone _ b
    · rw [if_neg hid]
      exact hkept.silent silent_of_task
  · exact h.silent rfl silent_of_error

end

section

variable {w : World} {es : List AppCall} {p : Jobs} {i : Nat} {t : Task AppReply PyExc JobResult} {r : AppReq}
  {k : Except PyExc (AppReply r) → AppProg JobResult} {fault : Option PyExc} {listed : Listed}

/-- What was listed are the items, as they were at some time. -/
def FromItems (w : World) (listed : Listed) : Prop := ∀ s ∈ listed, ∃ m ∈ w.media.rows, Fixed m s

theorem AllKept.answer (h : AllKept w es p.world) (hlisted : FromItems w listed) (hcan : CanCall listed r)
    (hcurrent : WritesCurrent p i r fault) :
    AllKept w (es ++ [⟨r, (app.answer i r fault p.world).1, fault.isSome⟩]) (app.answer i r fault p.world).2 := by
  cases r with
  | inl r =>
    rw [app, Backend.answer_extend_inl]
    by_cases hr : Req.changesMedia r = false
    · exact h.silent (answer_media hr) (silent_of_unchanged hr)
    cases fault with
    | some e =>
      have hfallible : fallible r = true := by cases r <;> first | rfl | exact absurd rfl hr
      rw [Backend.answer_some, show backend.fail i r e p.world = _ from fail_of_fallible hfallible]
      exact h.silent rfl silent_of_error
    | none =>
      cases r <;> first | exact absurd rfl hr | exact hcan.elim | skip
      case updateMediaThumbnailState mediaId thumbKey thumbIsOrig thumbStatus thumbSize =>
        refine h.answer_thumbnail i fun hprocessing => ?_
        subst hprocessing
        exact hcurrent rfl
      case updateMediaPositions albumId positions => exact h.answer_positions i
  | inr r =>
    cases fault with
    | some e => exact h.silent rfl silent_of_error
    | none =>
      cases r with
      | listMediaByThumbStatus statuses => exact h.silent rfl silent_of_task
      | enqueue mediaId correlationId => exact h.silent rfl silent_of_task
      | updateMedia x =>
        obtain ⟨s, hs, rfl⟩ := hcan
        exact h.answer_whole (hlisted s hs) (hcurrent rfl)

/-- What job `i` has listed. -/
def listedBy (p : Jobs) (i : Nat) : Listed := p.seen Listed.next [] i

theorem FromItems.next (h : FromItems w listed) (hkept : AllKept w es p.world) :
    FromItems w (listed.next ⟨r, (app.answer i r fault p.world).1, fault.isSome⟩) := by
  rcases r with r | r
  · exact h
  cases r with
  | updateMedia x => exact h
  | enqueue mediaId correlationId => exact h
  | listMediaByThumbStatus statuses =>
    cases fault with
    | some e => exact h
    | none =>
      intro s hs
      rcases List.mem_append.mp hs with hs | hs
      · exact h s hs
      · have hrow : s ∈ p.world.media.rows := (List.mem_insertionSort _).mp (List.mem_filter.mp hs).1
        obtain ⟨m, hm, hs⟩ := hkept.origin hrow
        exact ⟨m, hm, hs.fixed⟩

/-- What holds in every state reached. -/
structure Inv (w : World) (es : List AppCall) (p : Jobs) : Prop where
  kept : AllKept w es p.world
  listed : ∀ i, FromItems w (listedBy p i)
  follows : p.Follows (fun _ => listing) (fun _ => True) (fun _ _ _ => True) fun _ => []

theorem Inv.start (w : World) (jobs : List Job) : Inv w [] (Jobs.start w jobs) where
  kept := ⟨id, (List.map_id _).symm, fun _ _ => ⟨rfl, rfl, fun _ h => nomatch h⟩⟩
  listed i := by
    rw [listedBy, Jobs.start, Pool.seen_start]
    exact fun _ h => nomatch h
  follows := by
    refine Pool.follows_start fun i q hq => ?_
    rw [List.getElem?_map] at hq
    obtain ⟨job, -, rfl⟩ := Option.map_eq_some_iff.mp hq
    exact program_lists job

theorem Inv.advance (h : Inv w es p) (ht : p.tasks[i]? = some t) (hr : t.rest = .call r k)
    (hcurrent : WritesCurrent p i r fault) :
    Inv w (es ++ [⟨r, (app.answer i r fault p.world).1, fault.isSome⟩]) (p.advance app i t r k fault) where
  kept := by
    refine h.kept.answer (h.listed i) ?_ hcurrent
    rw [listedBy, Pool.seen_eq ht]
    exact h.follows.can ht hr
  listed j := by
    by_cases hji : j = i
    · subst hji
      rw [listedBy, Pool.seen_advance_self ht]
      exact (h.listed j).next h.kept
    · rw [listedBy, Pool.seen_advance_of_ne hji]
      exact h.listed j
  follows := h.follows.advance ht hr trivial

end

/-- Any recoveries, thumbnail runs and reorders, in any order, with any calls failing: as long as what is
    written from a row read earlier is current, every item stays, at the position a reorder wrote last,
    with the thumbnail a run recorded last, and is otherwise unchanged. -/
theorem background_work_keeps_items (w : World) (jobs : List Job) (cs : List (Choice PyExc))
    (hcurrent : (Jobs.start w jobs).Meets app WritesCurrent cs) :
    ∀ m ∈ w.media.rows, ∃ m' ∈ ((Jobs.start w jobs).run app cs).world.media.rows,
      Kept ((Jobs.start w jobs).trace app cs) m m' := by
  have hinv : Inv w ([] ++ (Jobs.start w jobs).trace app cs) ((Jobs.start w jobs).run app cs) :=
    Pool.run_trace_invariant (fun p d es h => ⟨h.kept, h.listed, h.follows⟩)
      (fun p i t r k fault es h ht hr hcurrent => h.advance ht hr hcurrent) (Inv.start w jobs) hcurrent
  obtain ⟨f, hf, hkept⟩ := hinv.kept
  intro m hm
  exact ⟨f m, hf ▸ List.mem_map_of_mem hm, hkept m hm⟩

/-! ## A recovery that lists too early -/

/-- The sample item, whose thumbnail has failed. -/
def oneFailed : World :=
  { Sample.world with
    albums := .single Sample.album
    media := .single { Sample.media "m" with thumbStatus := .failed }
    objects := fun key => if key = "originals/anon/m.png" then some [1] else none }

def recovery : Job := .recoverThumbnails true
def reorder : Job := .reorderAlbum "a" (some "t") [("m", 5000)] "c" none
def thumbnailRun : Job := .generateThumbnail Sample.runtime "m" 1 1

/-- The recovery lists, the other job runs to its end, the recovery goes on. -/
def listedBefore : List (Choice PyExc) :=
  List.replicate 2 (.call 0 none) ++ List.replicate 9 (.call 1 none) ++ List.replicate 2 (.call 0 none)

def listedAfter : List (Choice PyExc) := List.replicate 9 (.call 1 none) ++ List.replicate 4 (.call 0 none)

/-- The item is back where it was before the reorder, and the thumbnail recorded meanwhile is lost. -/
theorem a_recovery_writes_old_rows_back :
    (((Jobs.start oneFailed [recovery, reorder]).run app listedBefore).finished = true ∧
      ¬ ∀ m ∈ oneFailed.media.rows, ∃ m' ∈ ((Jobs.start oneFailed [recovery, reorder]).run app listedBefore).world.media.rows,
        Kept ((Jobs.start oneFailed [recovery, reorder]).trace app listedBefore) m m') ∧
    ((Jobs.start oneFailed [recovery, thumbnailRun]).run app listedBefore).finished = true ∧
      ¬ ∀ m ∈ oneFailed.media.rows,
        ∃ m' ∈ ((Jobs.start oneFailed [recovery, thumbnailRun]).run app listedBefore).world.media.rows,
          Kept ((Jobs.start oneFailed [recovery, thumbnailRun]).trace app listedBefore) m m' := by
  decide +kernel

theorem a_recovery_that_lists_later :
    ((Jobs.start oneFailed [recovery, reorder]).run app listedAfter).finished = true ∧
      ∀ m ∈ oneFailed.media.rows, ∃ m' ∈ ((Jobs.start oneFailed [recovery, reorder]).run app listedAfter).world.media.rows,
        Kept ((Jobs.start oneFailed [recovery, reorder]).trace app listedAfter) m m' :=
  ⟨by decide +kernel, background_work_keeps_items oneFailed [recovery, reorder] listedAfter (by decide +kernel)⟩

end Imghost.Concurrency.StaleRows
