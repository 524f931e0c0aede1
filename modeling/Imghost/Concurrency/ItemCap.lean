/-
  Imghost.Concurrency.ItemCap — how many items an album can hold.

  `upload` counts the items of the album in one call and inserts the row in a later
  one. Between the two the upload is in flight: it has been admitted and has not
  inserted yet. The rows of an album and the uploads in flight to it together stay
  within `MAX_ALBUM_ITEMS` as long as every upload that passes its count still finds
  room for itself beside those already in flight; nothing in the code makes sure of
  that, and two uploads that both count 999 items end in an album of 1001.
-/

import Mathlib.Data.Finset.Card
import Mathlib.Data.List.Range
import Imghost.Model.Frames
import Imghost.Service.Footprint

namespace Imghost.Concurrency.ItemCap

open Imghost.Async Imghost.Data Imghost.Model Imghost.Service

variable {α : Type}

/-! ## What an upload has seen of its album -/

inductive Phase where
  /-- The items have not been counted yet. -/
  | unseen
  /-- There was room in the album; the row is not inserted yet. -/
  | admitted (albumId : String)
  | closed
  deriving DecidableEq

def Phase.next : Phase → Call → Phase
  | .unseen, ⟨.listAlbumMedia albumId, .ok items, _⟩ =>
    if items.length < maxAlbumItems then .admitted albumId else .closed
  | .unseen, _ => .unseen
  | .admitted _, ⟨.insertMedia _, _, _⟩ => .closed
  | .admitted albumId, ⟨_, .ok _, _⟩ => .admitted albumId
  | .admitted _, ⟨_, .error _, _⟩ => .closed
  | .closed, _ => .closed

/-- An upload is in flight because it was so already, or because it has just counted. -/
theorem next_eq_admitted {phase : Phase} {e : Call} {albumId : String} (h : phase.next e = .admitted albumId) :
    (phase = .admitted albumId ∧ ∀ m, e.req ≠ .insertMedia m) ∨
      (phase = .unseen ∧ ∃ items b, e = ⟨.listAlbumMedia albumId, .ok items, b⟩ ∧ items.length < maxAlbumItems) := by
  unfold Phase.next at h
  split at h
  · split at h
    · rename_i hlt
      obtain rfl := Phase.admitted.inj h
      exact .inr ⟨rfl, _, _, rfl, hlt⟩
    · cases h
  · cases h
  · cases h
  · rename_i r _ _ hne
    obtain rfl := Phase.admitted.inj h
    refine .inl ⟨rfl, fun m hm => ?_⟩
    change r = _ at hm
    subst hm
    exact hne m _ rfl HEq.rfl
  · cases h
  · cases h

/-- A row is inserted by uploads that have been admitted to its album, and by no others. -/
def itemCap : Protocol Reply PyExc Phase where
  can phase r :=
    match r with
    | .insertMedia m => phase = .admitted m.albumId
    | _ => True
  next := Phase.next

def firstPhase : Op → Phase
  | .upload _ _ => .unseen
  | _ => .closed

theorem firstPhase_ne_admitted (op : Op) (albumId : String) : firstPhase op ≠ .admitted albumId := by
  cases op <;> exact Phase.noConfusion

/-- A call that neither counts the items of an album nor inserts one. -/
def Aside : Req → Prop
  | .listAlbumMedia _ | .insertMedia _ => False
  | _ => True

theorem aside_of_plain (r : Req) (h : Req.plain r = true) : Aside r := by
  cases r <;> trivial

theorem can_of_ne_insert {phase : Phase} {r : Req} (h : ∀ m, r ≠ .insertMedia m) : itemCap.can phase r := by
  cases r <;> first | trivial | exact absurd rfl (h _)

/-- What comes before the count. -/
theorem wp_aside {β : Type} {Q : Except PyExc β → Phase → Prop} {p : Prog α} {f : α → Prog β} (hp : p.Uses Aside)
    (hok : ∀ a, wp (itemCap.machine Honest) Q (f a) .unseen) (herr : ∀ e, Q (.error e) .unseen) :
    wp (itemCap.machine Honest) Q (p >>= f) .unseen := by
  refine Protocol.wp_pass (fun r hr => ?_) (fun e he => ?_) hp hok herr
  · cases r <;> trivial
  · obtain ⟨r, x, b⟩ := e
    cases r <;> first | rfl | exact he.elim

/-! ## Every operation keeps to it -/

theorem wp_closed {Q : Except PyExc α → Phase → Prop} {phase : Phase} {p : Prog α}
    (hp : p.Uses fun r => ∀ m, r ≠ .insertMedia m) (hQ : ∀ x phase, Q x phase) :
    wp (itemCap.machine Honest) Q p phase :=
  Protocol.wp_any (fun _ _ hr => can_of_ne_insert hr) hp hQ

theorem noInsert_of_reads (r : Req) (h : Req.reads r = true) (m : Media) : r ≠ .insertMedia m := by
  rintro rfl
  cases h

/-- Lock, position, insert: the upload is still admitted when it inserts. -/
theorem createMediaWithNextPosition_phase (m : Media) :
    wp (itemCap.machine Honest) (fun _ _ => True) (Repository.createMediaWithNextPosition m) (.admitted m.albumId) := by
  refine Protocol.wp_await trivial (fun locked b _ => ?_) fun _ _ _ => trivial
  refine Protocol.wp_await trivial (fun position b _ => ?_) fun _ _ _ => trivial
  exact (wp_perform _).mpr ⟨rfl, fun _ _ _ => trivial⟩

theorem insertOrRollBack_phase (m : Media) :
    wp (itemCap.machine Honest) (fun _ _ => True) (insertOrRollBack m) (.admitted m.albumId) := by
  rw [insertOrRollBack, wp_tryExcept]
  refine wp_mono (fun x phase _ => ?_) (createMediaWithNextPosition_phase m)
  cases x with
  | ok m => trivial
  | error e =>
    refine wp_closed (Program.uses_bind (deleteStorageKeyBestEffort_uses (fun _ => ?_) _) fun _ => trivial) fun _ _ => trivial
    exact fun m => Req.noConfusion

theorem createMedia_phase (rt : Runtime) (albumId : String) (file : UploadFile) (payload : Bytes)
    (correlationId : String) (actor : CurrentActor) (draws : Draws) :
    wp (itemCap.machine Honest) (fun _ _ => True) (createMedia rt albumId file payload correlationId actor draws)
      (.admitted albumId) := by
  refine wp_value (fun prepared _ => ?_) fun _ _ => trivial
  obtain ⟨metadata, sanitized⟩ := prepared
  refine Protocol.wp_await trivial (fun _ b _ => ?_) fun _ _ _ => trivial
  refine Protocol.wp_await trivial (fun now b _ => ?_) fun _ _ _ => trivial
  refine wp_seq (insertOrRollBack_phase _) (fun m phase _ => ?_) fun _ _ _ => trivial
  exact wp_closed (Program.uses_bind (uses_ask noInsert_of_reads rfl) fun _ =>
    Program.uses_bind (uses_ask noInsert_of_reads rfl) fun _ => trivial) fun _ _ => trivial

theorem uploadInto_phase (rt : Runtime) (input : UploadInput) (payload : Bytes) (draws : Draws) (album : Album) :
    wp (itemCap.machine Honest) (fun _ _ => True) (uploadInto rt input payload draws album) .unseen := by
  refine Protocol.wp_await trivial (fun items b _ => ?_) fun _ _ _ => trivial
  refine wp_check (fun _ => trivial) fun hroom => ?_
  have hroom : items.length < maxAlbumItems := by simpa using hroom
  simp only [itemCap, Phase.next, if_pos hroom]
  exact createMedia_phase rt album.id _ _ _ _ _

theorem upload_phase (rt : Runtime) (input : UploadInput) (draws : Draws) :
    wp (itemCap.machine Honest) (fun _ _ => True) (upload rt input draws) .unseen := by
  refine wp_aside (readBoundedUpload_uses aside_of_plain _) (fun payload => ?_) fun _ => trivial
  refine wp_check (fun _ => trivial) fun _ => ?_
  refine wp_aside (enforceRateLimit_uses aside_of_plain _ _ _) (fun _ => ?_) fun _ => trivial
  refine wp_aside (enforceStorageQuotas_uses aside_of_plain _ _) (fun _ => ?_) fun _ => trivial
  refine wp_aside (getOrCreateAlbum_uses aside_of_plain (fun _ => trivial) (fun _ => trivial) _ _ _ _ _ _)
    (fun album => ?_) fun _ => trivial
  rw [wp_bind, wp_tryExcept]
  refine wp_mono (fun x phase _ => ?_) (uploadInto_phase rt input payload draws album)
  cases x with
  | error e =>
    exact wp_seq (R := fun _ _ => True)
      (wp_closed (cleanUpAlbum_uses (itemReads_of_reads noInsert_of_reads) (fun _ => Req.noConfusion) _) fun _ _ => trivial)
      (fun _ _ _ => trivial) fun _ _ _ => trivial
  | ok media =>
    exact wp_closed (Program.uses_bind (updateAlbumOr404_uses fun _ => Req.noConfusion) fun _ => trivial)
      fun _ _ => trivial

theorem program_phase (rt : Runtime) (op : Op) :
    wp (itemCap.machine Honest) (fun _ _ => True) (op.program rt) (firstPhase op) := by
  by_cases h : ∃ input draws, op = .upload input draws
  · obtain ⟨input, draws, rfl⟩ := h
    exact wp_seq (upload_phase rt input draws) (fun _ _ _ => trivial) fun _ _ _ => trivial
  · refine wp_closed ((program_footprint rt op).mono fun r hr m hm => ?_) fun _ _ => trivial
    subst hm
    rcases hr with hr | hr
    · cases hr
    · cases op <;> first | exact h ⟨_, _, rfl⟩ | exact hr

/-! ## Rows and uploads in flight -/

def itemCount (albumId : String) (w : World) : Nat := w.media.rows.countP (·.albumId == albumId)

/-- The phase task `i` has reached. -/
def phaseOf (ops : List Op) (p : Site) (i : Nat) : Phase :=
  match ops[i]?, p.tasks[i]? with
  | some op, some t => itemCap.after (firstPhase op) t.log
  | _, _ => .closed

def running (p : Site) (i : Nat) : Bool := p.tasks[i]?.any (!·.rest.finished)

/-- The uploads admitted to the album that have neither inserted nor ended. -/
def inFlight (ops : List Op) (albumId : String) (p : Site) : Finset Nat :=
  (Finset.range ops.length).filter fun i => running p i ∧ phaseOf ops p i = .admitted albumId

/-- An upload whose count passes finds room beside those in flight. -/
def RoomBeside (ops : List Op) (albumId : String) (p : Site) (i : Nat) (r : Req) (_ : Option PyExc) : Prop :=
  r = .listAlbumMedia albumId → phaseOf ops p i = .unseen → itemCount albumId p.world < maxAlbumItems →
    itemCount albumId p.world + (inFlight ops albumId p).card < maxAlbumItems

instance (ops : List Op) (albumId : String) (p : Site) (i : Nat) (r : Req) (fault : Option PyExc) :
    Decidable (RoomBeside ops albumId p i r fault) := by
  unfold RoomBeside; infer_instance

theorem length_listAlbumMedia (w : World) (albumId : String) :
    (w.listAlbumMedia albumId).length = itemCount albumId w := by
  rw [World.listAlbumMedia, List.length_insertionSort, World.mediaOf, itemCount, List.countP_eq_length_filter]

theorem countP_modify {t : Table Media.id} {f : Media → Media} (hf : ∀ m, (f m).id = m.id) (albumId : String)
    (h : ∀ m, (f m).albumId = m.albumId) :
    (t.modify f hf).rows.countP (·.albumId == albumId) = t.rows.countP (·.albumId == albumId) := by
  simp only [Table.modify, List.countP_map, Function.comp_def, h]

theorem countP_update {t : Table Media.id} {k : String} {f : Media → Media} (hf : ∀ m, (f m).id = m.id)
    (albumId : String) (h : ∀ m, (f m).albumId = m.albumId) :
    (t.update k f hf).rows.countP (·.albumId == albumId) = t.rows.countP (·.albumId == albumId) :=
  countP_modify _ albumId fun m => by split; exact h m; rfl

theorem countP_deleteWhere_le {t : Table Media.id} {p : Media → Bool} (albumId : String) :
    (t.deleteWhere p).rows.countP (·.albumId == albumId) ≤ t.rows.countP (·.albumId == albumId) :=
  List.Sublist.countP_le List.filter_sublist

/-- Only an insertion adds an item to an album. -/
theorem itemCount_answer_le {i : Nat} {r : Req} {fault : Option PyExc} {w : World} (albumId : String)
    (h : ∀ m, r ≠ .insertMedia m) : itemCount albumId (backend.answer i r fault w).2 ≤ itemCount albumId w := by
  by_cases hr : Req.changesMedia r = false
  · rw [itemCount, answer_media hr]; exact Nat.le_refl _
  rcases answer_cases i r fault w with ha | ⟨e, -, ha⟩
  swap
  · rw [ha]; exact Nat.le_refl _
  rw [ha]
  cases r <;> first | exact absurd rfl hr | skip
  case insertMedia m => exact absurd rfl (h m)
  case deleteAlbumRow a => exact countP_deleteWhere_le albumId
  case deleteMedia m => exact countP_deleteWhere_le albumId
  case updateMediaThumbnailState =>
    simp only [exec, World.updateMediaThumbnailState]
    split
    · exact Nat.le_refl _
    · exact le_of_eq (countP_update (World.setThumb_id _ _ _ _) albumId fun _ => rfl)
  case updateMediaPositions =>
    simp only [exec, World.updateMediaPositions]
    split
    · exact le_of_eq (countP_modify (World.setPositions_id _ _) albumId fun m => (sameItem_setPositions _ _ m).albumId)
    · exact Nat.le_refl _
  case deleteUser u =>
    simp only [exec, World.deleteUser]
    split
    · exact Nat.le_refl _
    · refine le_trans (le_of_eq (countP_modify (World.dropUserId_id u) albumId fun m => ?_))
        (countP_deleteWhere_le albumId)
      unfold World.dropUserId; split <;> rfl

/-- An insertion adds one item, to its own album. -/
theorem itemCount_insert_le {i : Nat} {m : Media} {fault : Option PyExc} {w : World} (albumId : String) :
    itemCount albumId (backend.answer i (.insertMedia m) fault w).2 ≤
      itemCount albumId w + if m.albumId = albumId then 1 else 0 := by
  rcases answer_cases i (.insertMedia m) fault w with ha | ⟨e, -, ha⟩
  swap
  · rw [ha]; exact Nat.le_add_right _ _
  rw [ha]
  simp only [exec, World.insertMedia]
  split
  · exact Nat.le_add_right _ _
  split
  · rename_i t ht
    simp only [itemCount, Table.insert_rows ht, List.countP_append, List.countP_singleton, beq_iff_eq]
    exact Nat.le_refl _
  · exact Nat.le_add_right _ _

/-! ## Runs -/

section

variable {ops : List Op} {albumId : String} {p : Site} {i : Nat} {t : Task Reply PyExc OpResult} {r : Req}
  {k : Except PyExc (Reply r) → Prog OpResult} {fault : Option PyExc}

theorem mem_inFlight {j : Nat} : j ∈ inFlight ops albumId p ↔
    j < ops.length ∧ running p j = true ∧ phaseOf ops p j = .admitted albumId := by
  rw [inFlight, Finset.mem_filter, Finset.mem_range]

/-- A task that is about to call is running. -/
theorem running_of_call (ht : p.tasks[i]? = some t) (hr : t.rest = .call r k) : running p i = true := by
  rw [running, ht, Option.any_some, hr]
  rfl

/-- Only the task that is answered changes its phase. -/
theorem phaseOf_advance_of_ne {j : Nat} (h : j ≠ i) : phaseOf ops (p.advance backend i t r k fault) j = phaseOf ops p j := by
  simp only [phaseOf, Pool.advance, List.getElem?_set_ne (Ne.symm h)]

theorem running_advance_of_ne {j : Nat} (h : j ≠ i) : running (p.advance backend i t r k fault) j = running p j := by
  simp only [running, Pool.advance, List.getElem?_set_ne (Ne.symm h)]

theorem phaseOf_advance (ht : p.tasks[i]? = some t) (hi : i < ops.length) :
    phaseOf ops (p.advance backend i t r k fault) i =
      (phaseOf ops p i).next ⟨r, (backend.answer i r fault p.world).1, fault.isSome⟩ := by
  have hlt : i < p.tasks.length := (List.getElem?_eq_some_iff.mp ht).1
  simp only [phaseOf, Pool.advance, List.getElem?_set_self hlt, ht, List.getElem?_eq_getElem hi, Protocol.after_snoc]
  rfl

/-- Whoever is in flight after a call was so before, unless it has just been admitted. -/
theorem inFlight_advance (ht : p.tasks[i]? = some t) (hr : t.rest = .call r k)
    (hi : ¬ (r = .listAlbumMedia albumId ∧ phaseOf ops p i = .unseen ∧ itemCount albumId p.world < maxAlbumItems)) :
    inFlight ops albumId (p.advance backend i t r k fault) ⊆ inFlight ops albumId p := by
  intro j hj
  rw [mem_inFlight] at hj ⊢
  obtain ⟨hlt, hrun, hphase⟩ := hj
  by_cases e : j = i
  · subst e
    refine ⟨hlt, running_of_call ht hr, ?_⟩
    rw [phaseOf_advance ht hlt] at hphase
    rcases next_eq_admitted hphase with ⟨h, -⟩ | ⟨h, items, b, he, hroom⟩
    · exact h
    · injection he with hreq hreply
      subst hreq
      have hitems : p.world.listAlbumMedia albumId = items := Except.ok.inj (exec_of_ok (eq_of_heq hreply))
      rw [← hitems, length_listAlbumMedia] at hroom
      exact absurd ⟨rfl, h, hroom⟩ hi
  · rw [phaseOf_advance_of_ne e] at hphase
    rw [running_advance_of_ne e] at hrun
    exact ⟨hlt, hrun, hphase⟩

/-- The rows of the album and the uploads in flight to it. -/
def Bounded (ops : List Op) (albumId : String) (p : Site) : Prop :=
  itemCount albumId p.world + (inFlight ops albumId p).card ≤ maxAlbumItems

theorem bounded_insert {m : Media} {k : Except PyExc Media → Prog OpResult} (hb : Bounded ops albumId p)
    (ht : p.tasks[i]? = some t) (hr : t.rest = .call (.insertMedia m) k) (hi : i < ops.length)
    (hphase : phaseOf ops p i = .admitted m.albumId) :
    Bounded ops albumId (p.advance backend i t (.insertMedia m) k fault) := by
  have hsub : inFlight ops albumId (p.advance backend i t (.insertMedia m) k fault) ⊆ inFlight ops albumId p :=
    inFlight_advance ht hr fun h => Req.noConfusion h.1
  have hrows : itemCount albumId (backend.answer i (.insertMedia m) fault p.world).2 ≤
      itemCount albumId p.world + if m.albumId = albumId then 1 else 0 := itemCount_insert_le albumId
  by_cases hm : m.albumId = albumId
  · rw [hm] at hphase
    have hin : i ∈ inFlight ops albumId p := mem_inFlight.mpr ⟨hi, running_of_call ht hr, hphase⟩
    -- having inserted, the upload is no longer in flight
    have hout : i ∉ inFlight ops albumId (p.advance backend i t (.insertMedia m) k fault) := by
      rw [mem_inFlight, phaseOf_advance ht hi, hphase]
      exact fun h => Phase.noConfusion h.2.2
    have hlt := Finset.card_lt_card (Finset.ssubset_iff_of_subset hsub |>.mpr ⟨i, hin, hout⟩)
    rw [if_pos hm] at hrows
    unfold Bounded at hb ⊢
    change itemCount albumId (backend.answer i (.insertMedia m) fault p.world).2 + _ ≤ _
    omega
  · have hle := Finset.card_le_card hsub
    rw [if_neg hm] at hrows
    unfold Bounded at hb ⊢
    change itemCount albumId (backend.answer i (.insertMedia m) fault p.world).2 + _ ≤ _
    omega

theorem bounded_advance (hb : Bounded ops albumId p) (hlen : p.tasks.length = ops.length)
    (hfollows : p.Follows (fun _ => itemCap) Honest (fun _ _ _ => True) fun i => (ops[i]?.map firstPhase).getD .closed)
    (ht : p.tasks[i]? = some t) (hr : t.rest = .call r k) (hroom : RoomBeside ops albumId p i r fault) :
    Bounded ops albumId (p.advance backend i t r k fault) := by
  have hi : i < ops.length := hlen ▸ (List.getElem?_eq_some_iff.mp ht).1
  by_cases hins : ∃ m, r = .insertMedia m
  · obtain ⟨m, rfl⟩ := hins
    refine bounded_insert hb ht hr hi ?_
    have hcan := hfollows.can ht hr
    simp only [List.getElem?_eq_getElem hi, Option.map_some, Option.getD_some] at hcan
    simp only [phaseOf, ht, List.getElem?_eq_getElem hi]
    exact hcan
  have hrows : itemCount albumId (backend.answer i r fault p.world).2 ≤ itemCount albumId p.world :=
    itemCount_answer_le albumId fun m hm => hins ⟨m, hm⟩
  unfold Bounded at hb ⊢
  change itemCount albumId (backend.answer i r fault p.world).2 + _ ≤ _
  by_cases hc : r = .listAlbumMedia albumId ∧ phaseOf ops p i = .unseen ∧ itemCount albumId p.world < maxAlbumItems
  · -- the count passes: the upload joins those in flight, for whom there is room
    have hlt := hroom hc.1 hc.2.1 hc.2.2
    have hle : (inFlight ops albumId (p.advance backend i t r k fault)).card ≤ (insert i (inFlight ops albumId p)).card := by
      refine Finset.card_le_card fun j hj => ?_
      rw [Finset.mem_insert]
      by_cases e : j = i
      · exact .inl e
      · refine .inr ?_
        rw [mem_inFlight, phaseOf_advance_of_ne e, running_advance_of_ne e] at hj
        exact mem_inFlight.mpr hj
    have := Finset.card_insert_le i (inFlight ops albumId p)
    omega
  · have hsub : inFlight ops albumId (p.advance backend i t r k fault) ⊆ inFlight ops albumId p := inFlight_advance ht hr hc
    have := Finset.card_le_card hsub
    omega

end

theorem inFlight_start (rt : Runtime) (w : World) (ops : List Op) (albumId : String) :
    inFlight ops albumId (Site.start rt w ops) = ∅ := by
  refine Finset.eq_empty_of_forall_notMem fun i hi => ?_
  obtain ⟨hlt, -, hphase⟩ := mem_inFlight.mp hi
  simp only [phaseOf, Site.start, Pool.start, List.getElem?_eq_getElem hlt, List.getElem?_map, Option.map_some,
    Protocol.after_nil] at hphase
  exact firstPhase_ne_admitted _ _ hphase

/-- In every run in which each upload that passes its count finds room beside those in
    flight, the album holds at most `MAX_ALBUM_ITEMS` items. -/
theorem album_within_cap (rt : Runtime) (w : World) (ops : List Op) (albumId : String) (cs : List (Choice PyExc))
    (hw : itemCount albumId w ≤ maxAlbumItems)
    (hroom : (Site.start rt w ops).Meets backend (RoomBeside ops albumId) cs) :
    itemCount albumId ((Site.start rt w ops).run backend cs).world ≤ maxAlbumItems := by
  suffices h : Bounded ops albumId ((Site.start rt w ops).run backend cs) from
    le_trans (Nat.le_add_right _ _) h
  refine (Pool.run_invariant (I := fun p => Bounded ops albumId p ∧ p.tasks.length = ops.length ∧
    p.Follows (fun _ => itemCap) Honest (fun _ _ _ => True) fun i => (ops[i]?.map firstPhase).getD .closed)
    (fun p d h => h) (fun p i t r k fault h ht hr hc => ?_) ?_ hroom).1
  · obtain ⟨hb, hlen, hf⟩ := h
    exact ⟨bounded_advance hb hlen hf ht hr hc, Pool.tasks_length_advance.trans hlen,
      hf.advance ht hr (honest_answer i r fault p.world)⟩
  · refine ⟨?_, Site.tasks_length_start, Site.start_follows fun i op hop => ?_⟩
    · rw [Bounded, inFlight_start, Finset.card_empty, Nat.add_zero]
      exact hw
    · rw [hop]
      exact program_phase rt op

/-! ## A run past the bound -/

/-- One character for each of the first thousand numbers. -/
def shortId (n : Nat) : String := String.ofList [Char.ofNat (256 + n)]

theorem toNat_ofNat {n : Nat} (h : n < 0xd800) : (Char.ofNat n).toNat = n := by
  rw [Char.ofNat, dif_pos (Or.inl h)]
  rfl

theorem shortId_inj {m n : Nat} (hm : m < 1000) (hn : n < 1000) (h : shortId m = shortId n) : m = n := by
  have hc : Char.ofNat (256 + m) = Char.ofNat (256 + n) := by simpa [shortId] using h
  have ht := congrArg Char.toNat hc
  rw [toNat_ofNat (by omega), toNat_ofNat (by omega)] at ht
  omega

/-- `count` items of the sample album. -/
def items (count : Nat) (h : count ≤ 1000) : Table Media.id where
  rows := (List.range count).map fun n => Sample.media (shortId n)
  unique := by
    rw [List.map_map]
    refine List.Nodup.map_on (fun m hm n hn he => ?_) List.nodup_range
    exact shortId_inj (Nat.lt_of_lt_of_le (List.mem_range.mp hm) h) (Nat.lt_of_lt_of_le (List.mem_range.mp hn) h) he

def albumOf (count : Nat) (h : count ≤ 1000) : World :=
  { Sample.world with albums := .single Sample.album, media := items count h }

def twoUploads : List Op := [.upload (Sample.uploadTo (some "a")) Sample.firstDraws,
  .upload (Sample.uploadTo (some "a")) Sample.secondDraws]

/-- Both uploads count, then both insert. -/
def bothCount : List (Choice PyExc) := Sample.calls 0 7 ++ Sample.calls 1 7 ++ Sample.calls 0 8 ++ Sample.calls 1 8

/-- Two uploads to an album of 999 items both pass the count, and it ends with 1001. -/
theorem two_uploads_pass_the_cap_together :
    itemCount "a" (albumOf 999 (by decide)) ≤ maxAlbumItems ∧
      (Site.start Sample.runtime (albumOf 999 (by decide)) twoUploads).Meets backend NoFaults bothCount ∧
      ¬ itemCount "a" ((Site.start Sample.runtime (albumOf 999 (by decide)) twoUploads).run backend bothCount).world ≤
        maxAlbumItems := by
  decide +kernel

/-- The same two uploads in an album with room for both. -/
theorem two_uploads_with_room :
    itemCount "a" ((Site.start Sample.runtime (albumOf 3 (by decide)) twoUploads).run backend bothCount).world ≤
      maxAlbumItems :=
  album_within_cap Sample.runtime (albumOf 3 (by decide)) twoUploads "a" bothCount (by decide +kernel)
    (by decide +kernel)

end Imghost.Concurrency.ItemCap
