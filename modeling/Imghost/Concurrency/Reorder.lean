/-
  Imghost.Concurrency.Reorder — one reorder of an album, beside uploads to it.

  An upload appends: holding the lock of the album it takes the position after the last
  item and inserts its row there. `reorder_album` takes no lock. It writes the positions
  it was asked for, lists the album, and may write positions to the whole list once more.
  As long as everything it writes stays below the positions uploads have taken since it
  began, the items end in the order asked for, the new ones behind them. Nothing in the
  code makes sure of it: a list that was read before an upload is spread out past the
  item the upload has appended.
-/

import Imghost.Model.Frames
import Imghost.Service.Footprint
import Imghost.Service.Positions

namespace Imghost.Concurrency.Reorder

open Imghost.Async Imghost.Data Imghost.Model Imghost.Service

/-! ## Arrangements -/

section

variable {old : List String} {order : List (String × Int)} {rows R : List Media} {albumId : String}

/-- The items `old` names stand before all others. -/
def Apart (old : List String) (rows : List Media) : Prop :=
  ∀ m ∈ rows, ∀ u ∈ rows, m.id ∈ old → u.id ∉ old → m.position < u.position

def Distinct (rows : List Media) : Prop := ∀ m ∈ rows, ∀ u ∈ rows, m.id ≠ u.id → m.position ≠ u.position

/-- The items stand in the order of the positions asked for. -/
def InOrder (order : List (String × Int)) (rows : List Media) : Prop :=
  ∀ x ∈ order, ∀ y ∈ order, x.2 < y.2 → ∀ m ∈ rows, ∀ u ∈ rows, m.id = x.1 → u.id = y.1 → m.position < u.position

/-- The list `R` waits to be spread: what the reply to the first write says of the rows. -/
structure Awaits (old : List String) (order : List (String × Int)) (R rows : List Media) : Prop where
  sorted : R.Pairwise fun a b => a.position ≤ b.position
  unique : (R.map (·.id)).Nodup
  covers : ∀ m ∈ rows, m.id ∈ old → ∃ r ∈ R, r.id = m.id
  asked : ∀ x ∈ order, ∀ r ∈ R, r.id = x.1 → r.position = x.2
  apart : Apart old R
  newer : ∀ m ∈ rows, ∀ u ∈ rows, m.id ∉ R.map (·.id) → u.id ∉ R.map (·.id) → m.id ≠ u.id → m.position ≠ u.position

/-- A new item behind all others. -/
structure Appended (old : List String) (rows : List Media) (a : Media) : Prop where
  last : ∀ m ∈ rows, m.position < a.position
  fresh : ∀ m ∈ rows, m.id ≠ a.id
  new : a.id ∉ old

theorem Apart.append {a : Media} (h : Apart old rows) (ha : Appended old rows a) : Apart old (rows ++ [a]) := by
  intro m hm u hu hold hnew
  simp only [List.mem_append, List.mem_singleton] at hm hu
  rcases hm with hm | rfl
  · rcases hu with hu | rfl
    · exact h m hm u hu hold hnew
    · exact ha.last m hm
  · exact absurd hold ha.new

theorem Distinct.append {a : Media} (h : Distinct rows) (ha : Appended old rows a) : Distinct (rows ++ [a]) := by
  intro m hm u hu hne
  simp only [List.mem_append, List.mem_singleton] at hm hu
  rcases hm with hm | rfl <;> rcases hu with hu | rfl
  · exact h m hm u hu hne
  · exact (ha.last m hm).ne
  · exact (ha.last u hu).ne'
  · exact absurd rfl hne

theorem InOrder.append {a : Media} (h : InOrder order rows) (ha : Appended old rows a)
    (hnamed : ∀ x ∈ order, x.1 ∈ old) : InOrder order (rows ++ [a]) := by
  intro x hx y hy hlt m hm u hu hmx huy
  simp only [List.mem_append, List.mem_singleton] at hm hu
  rcases hm with hm | rfl
  · rcases hu with hu | rfl
    · exact h x hx y hy hlt m hm u hu hmx huy
    · exact absurd (huy ▸ hnamed y hy) ha.new
  · exact absurd (hmx ▸ hnamed x hx) ha.new

theorem Awaits.append {a : Media} (h : Awaits old order R rows) (ha : Appended old rows a) :
    Awaits old order R (rows ++ [a]) := by
  refine { h with covers := fun m hm hold => ?_, newer := fun m hm u hu hmR huR hne => ?_ }
  · simp only [List.mem_append, List.mem_singleton] at hm
    rcases hm with hm | rfl
    · exact h.covers m hm hold
    · exact absurd hold ha.new
  · simp only [List.mem_append, List.mem_singleton] at hm hu
    rcases hm with hm | rfl <;> rcases hu with hu | rfl
    · exact h.newer m hm u hu hmR huR hne
    · exact (ha.last m hm).ne
    · exact (ha.last u hu).ne'
    · exact absurd rfl hne

/-! ## Writing positions -/

/-- The positions stay below those of the new items they say nothing of. -/
def Below (old : List String) (positions : List (String × Int)) (rows : List Media) : Prop :=
  ∀ x ∈ positions, ∀ u ∈ rows, u.id ∉ old → u.id ∉ positions.map Prod.fst → x.2 < u.position

instance : Decidable (Below old order rows) :=
  inferInstanceAs (Decidable (∀ x ∈ order, ∀ u ∈ rows, u.id ∉ old → u.id ∉ order.map Prod.fst → x.2 < u.position))

/-- The row of an item after the write, and what it was before. -/
theorem mem_written {positions : List (String × Int)} {m : Media}
    (hm : m ∈ rows.map (World.setPositions albumId positions)) (halbum : ∀ m ∈ rows, m.albumId = albumId)
    (hnodup : (positions.map Prod.fst).Nodup) :
    ∃ m' ∈ rows, m'.id = m.id ∧
      ((m.id, m.position) ∈ positions ∨ (m.id ∉ positions.map Prod.fst ∧ m = m')) := by
  obtain ⟨m', hm', rfl⟩ := List.mem_map.mp hm
  have hid := World.setPositions_id albumId positions m'
  refine ⟨m', hm', hid.symm, ?_⟩
  by_cases hlisted : m'.id ∈ positions.map Prod.fst
  · obtain ⟨x, hx, hxid⟩ := List.mem_map.mp hlisted
    have hx' : (m'.id, x.2) ∈ positions := hxid ▸ hx
    exact .inl (by rw [hid, setPositions_of_mem (halbum m' hm') hnodup hx']; exact hx')
  · exact .inr ⟨by rwa [hid], setPositions_of_not_mem hlisted⟩

theorem Apart.first_write (h : Apart old rows) (halbum : ∀ m ∈ rows, m.albumId = albumId)
    (hnodup : (order.map Prod.fst).Nodup) (hnamed : ∀ x ∈ order, x.1 ∈ old) (hbelow : Below old order rows) :
    Apart old (rows.map (World.setPositions albumId order)) := by
  intro m hm u hu hold hnew
  obtain ⟨m', hm', hmid, hm⟩ := mem_written hm halbum hnodup
  obtain ⟨u', hu', huid, hu⟩ := mem_written hu halbum hnodup
  have hunnamed : u.id ∉ order.map Prod.fst := by
    intro hmem
    obtain ⟨x, hx, hxu⟩ := List.mem_map.mp hmem
    exact hnew (hxu ▸ hnamed x hx)
  obtain rfl : u = u' := by
    rcases hu with hu | hu
    · exact absurd (List.mem_map_of_mem hu) hunnamed
    · exact hu.2
  rcases hm with hm | ⟨-, rfl⟩
  · exact hbelow _ hm u hu' hnew hunnamed
  · exact h m hm' u hu' hold hnew

/-- After the first write the items asked for are where they were asked to be. -/
theorem asked_of_write (halbum : ∀ m ∈ rows, m.albumId = albumId) (hnodup : (order.map Prod.fst).Nodup) {m : Media}
    (hm : m ∈ rows.map (World.setPositions albumId order)) {x : String × Int} (hx : x ∈ order) (hid : m.id = x.1) :
    m.position = x.2 := by
  obtain ⟨m', hm', rfl⟩ := List.mem_map.mp hm
  rw [World.setPositions_id] at hid
  exact setPositions_of_mem (halbum m' hm') hnodup (by rw [hid]; exact hx)

theorem InOrder.first_write (halbum : ∀ m ∈ rows, m.albumId = albumId) (hnodup : (order.map Prod.fst).Nodup) :
    InOrder order (rows.map (World.setPositions albumId order)) := by
  intro x hx y hy hlt m hm u hu hmx huy
  rw [asked_of_write halbum hnodup hm hx hmx, asked_of_write halbum hnodup hu hy huy]
  exact hlt

theorem Awaits.first_write (halbum : ∀ m ∈ rows, m.albumId = albumId) (hnodup : (order.map Prod.fst).Nodup)
    (hR : ∀ m, m ∈ R ↔ m ∈ rows.map (World.setPositions albumId order))
    (hsorted : R.Pairwise fun a b => a.position ≤ b.position) (hunique : (R.map (·.id)).Nodup)
    (hapart : Apart old (rows.map (World.setPositions albumId order))) :
    Awaits old order R (rows.map (World.setPositions albumId order)) where
  sorted := hsorted
  unique := hunique
  apart m hm u hu := hapart m ((hR m).mp hm) u ((hR u).mp hu)
  covers m hm _ := ⟨m, (hR m).mpr hm, rfl⟩
  asked _ hx r hr hid := asked_of_write halbum hnodup ((hR r).mp hr) hx hid
  newer m hm _ _ hmR := absurd (List.mem_map_of_mem ((hR m).mpr hm)) hmR

theorem Distinct.of_sorted (hR : ∀ m ∈ rows, m ∈ R) (hbalanced : needsRebalance R = false) : Distinct rows := by
  intro m hm u hu hne hposition
  have hsorted := pairwise_of_not_needsRebalance hbalanced
  obtain ⟨i, hi, hmi⟩ := List.mem_iff_getElem.mp (hR m hm)
  obtain ⟨j, hj, huj⟩ := List.mem_iff_getElem.mp (hR u hu)
  rcases Nat.lt_trichotomy i j with hij | rfl | hij
  · have := List.pairwise_iff_getElem.mp hsorted i j hi hj hij
    rw [hmi, huj] at this
    omega
  · exact hne (by rw [← hmi, ← huj])
  · have := List.pairwise_iff_getElem.mp hsorted j i hj hi hij
    rw [hmi, huj] at this
    omega

section

variable (h : Awaits old order R rows) (halbum : ∀ m ∈ rows, m.albumId = albumId) (hbelow : Below old (rebalanced R) rows)

include h halbum

/-- An item of the list that was spread stands where its place in the list says. -/
theorem place_of_spread {m : Media} (hm : m ∈ rows.map (World.setPositions albumId (rebalanced R))) :
    (∃ (k : Nat) (r : Media), R[k]? = some r ∧ r.id = m.id ∧ m.position = (((k + 1) * 1000 : Nat) : Int)) ∨
      (m.id ∉ R.map (·.id) ∧ m ∈ rows) := by
  have hnodup : ((rebalanced R).map Prod.fst).Nodup := by rw [rebalanced_ids]; exact h.unique
  obtain ⟨m', hm', -, hlisted | ⟨hunlisted, rfl⟩⟩ := mem_written hm halbum hnodup
  · obtain ⟨k, r, hr, hx⟩ := mem_rebalanced.mp hlisted
    exact .inl ⟨k, r, hr, (congrArg Prod.fst hx).symm, congrArg Prod.snd hx⟩
  · rw [rebalanced_ids] at hunlisted
    exact .inr ⟨hunlisted, hm'⟩

theorem InOrder.spread (hnamed : ∀ x ∈ order, x.1 ∈ old) :
    InOrder order (rows.map (World.setPositions albumId (rebalanced R))) := by
  intro x hx y hy hlt m hm u hu hmx huy
  have hplaced : ∀ {z : String × Int} {m : Media}, z ∈ order → m.id = z.1 →
      m ∈ rows.map (World.setPositions albumId (rebalanced R)) →
      ∃ (k : Nat) (r : Media), R[k]? = some r ∧ r.position = z.2 ∧ m.position = (((k + 1) * 1000 : Nat) : Int) := by
    intro z m hz hid hm
    rcases place_of_spread h halbum hm with ⟨k, r, hr, hrm, hmk⟩ | ⟨hmR, hm⟩
    · exact ⟨k, r, hr, h.asked z hz r (List.mem_of_getElem? hr) (hrm.trans hid), hmk⟩
    · obtain ⟨r, hr, hrid⟩ := h.covers m hm (hid ▸ hnamed z hz)
      exact absurd (hrid ▸ List.mem_map_of_mem hr) hmR
  obtain ⟨k, r, hr, hrx, hmk⟩ := hplaced hx hmx hm
  obtain ⟨l, q, hq, hqy, hul⟩ := hplaced hy huy hu
  have hkl : k < l := place_lt h.sorted hr hq (by rw [hrx, hqy]; exact hlt)
  rw [hmk, hul]
  omega

include hbelow

omit halbum in
/-- An item outside the list is behind all that were spread. -/
theorem behind_spread {k : Nat} {r u : Media} (hr : R[k]? = some r) (hu : u.id ∉ R.map (·.id)) (hmem : u ∈ rows) :
    (((k + 1) * 1000 : Nat) : Int) < u.position := by
  refine hbelow _ (mem_rebalanced.mpr ⟨k, r, hr, rfl⟩) u hmem (fun hold => ?_) (by rwa [rebalanced_ids])
  obtain ⟨r', hr', hid⟩ := h.covers u hmem hold
  exact hu (hid ▸ List.mem_map_of_mem hr')

theorem Apart.spread : Apart old (rows.map (World.setPositions albumId (rebalanced R))) := by
  intro m hm u hu hold hnew
  rcases place_of_spread h halbum hm with ⟨k, r, hr, hrm, hmk⟩ | ⟨hmR, hm⟩
  · rcases place_of_spread h halbum hu with ⟨l, q, hq, hqu, hul⟩ | ⟨huR, hu⟩
    · have hlt : r.position < q.position :=
        h.apart r (List.mem_of_getElem? hr) q (List.mem_of_getElem? hq) (hrm ▸ hold) (hqu ▸ hnew)
      have hkl := place_lt h.sorted hr hq hlt
      rw [hmk, hul]
      omega
    · rw [hmk]
      exact behind_spread h hbelow hr huR hu
  · obtain ⟨r, hr, hrid⟩ := h.covers m hm hold
    exact absurd (hrid ▸ List.mem_map_of_mem hr) hmR

theorem Distinct.spread : Distinct (rows.map (World.setPositions albumId (rebalanced R))) := by
  intro m hm u hu hne
  rcases place_of_spread h halbum hm with ⟨k, r, hr, hrm, hmk⟩ | ⟨hmR, hm⟩ <;>
    rcases place_of_spread h halbum hu with ⟨l, q, hq, hqu, hul⟩ | ⟨huR, hu⟩
  · intro hposition
    obtain rfl : k = l := by omega
    obtain rfl : r = q := Option.some.inj (hr.symm.trans hq)
    exact hne (hrm.symm.trans hqu)
  · have := behind_spread h hbelow hr huR hu
    omega
  · have := behind_spread h hbelow hq hmR hm
    omega
  · exact h.newer m hm u hu hmR huR hne

end

end

/-! ## What a task is about to do -/

inductive Phase where
  | idle
  /-- An upload has locked the album. -/
  | locked (albumId : String)
  /-- It has taken the position for its item. -/
  | took (albumId : String) (position : Int)
  /-- The reorder has written nothing yet. -/
  | before
  /-- It is going to spread the list. -/
  | again (reordered : List Media)
  | settled
  deriving DecidableEq

def Phase.next : Phase → Call → Phase
  | .idle, ⟨.lockAlbum albumId, .ok _, _⟩ => .locked albumId
  | .locked albumId, ⟨.nextPosition _, .ok position, _⟩ => .took albumId position
  | .locked _, _ | .took _ _, _ => .idle
  | .before, ⟨.updateMediaPositions _ _, .ok reordered, _⟩ =>
    if needsRebalance reordered then .again reordered else .settled
  | .again _, ⟨.updateMediaPositions _ _, .ok _, _⟩ => .settled
  | phase, _ => phase

/-- Rows are inserted where a position was taken, and positions written as the request and
    the list say. -/
def CanCall (albumId : String) (order : List (String × Int)) : Phase → Req → Prop
  | .locked albumId', r => r = .nextPosition albumId'
  | .took albumId' position, r => ∃ m, r = .insertMedia m ∧ m.albumId = albumId' ∧ m.position = position
  | .before, .updateMediaPositions albumId' positions =>
    albumId' = albumId ∧ positions = order ∧ (order.map Prod.fst).Nodup
  | .again reordered, .updateMediaPositions albumId' positions => albumId' = albumId ∧ positions = rebalanced reordered
  | _, r => Req.changesMedia r = false

def reordering (albumId : String) (order : List (String × Int)) : Protocol Reply PyExc Phase where
  can := CanCall albumId order
  next := Phase.next

variable {α : Type} {albumId : String} {order : List (String × Int)}

/-- An upload to the album. -/
def UploadsTo (albumId : String) : Op → Prop
  | .upload input _ => input.albumId = some albumId
  | _ => False

/-- A call that leaves the rows of media alone, and does not lock an album. -/
def Aside (r : Req) : Prop := Req.changesMedia r = false ∧ ∀ albumId, r ≠ .lockAlbum albumId

theorem aside_of_plain (r : Req) (h : Req.plain r = true) : Aside r := by
  cases r <;> first | exact ⟨rfl, fun _ => Req.noConfusion⟩ | cases h

/-- Between its transactions a task makes such calls and stays where it is. -/
def Phase.Calm (phase : Phase) : Prop := phase = .idle ∨ phase = .before ∨ phase = .settled

theorem can_calm {phase : Phase} (hphase : phase.Calm) {r : Req} (h : Req.changesMedia r = false) :
    (reordering albumId order).can phase r := by
  rcases hphase with rfl | rfl | rfl <;> cases r <;> first | exact h | cases h

theorem next_calm {phase : Phase} (hphase : phase.Calm) {e : Call} (h : Aside e.req) :
    (reordering albumId order).next phase e = phase := by
  obtain ⟨r, x, b⟩ := e
  rcases hphase with rfl | rfl | rfl <;> cases r <;> first | rfl | exact absurd rfl (h.2 _) | cases h.1

section

variable {β : Type} {phase : Phase} {Q : Except PyExc β → Phase → Prop} {p : Prog α} {f : α → Prog β}

theorem wp_calm (hphase : phase.Calm) (hp : p.Uses Aside)
    (hok : ∀ a, wp ((reordering albumId order).machine Honest) Q (f a) phase) (herr : ∀ e, Q (.error e) phase) :
    wp ((reordering albumId order).machine Honest) Q (p >>= f) phase :=
  Protocol.wp_pass (fun _ hr => can_calm hphase hr.1) (fun _ he => next_calm hphase he) hp hok herr

/-- A program that begins and ends between transactions. -/
abbrev Idles (albumId : String) (order : List (String × Int)) (p : Prog α) : Prop :=
  wp ((reordering albumId order).machine Honest) (fun _ phase => phase = .idle) p .idle

theorem idles_of_uses (hp : p.Uses Aside) : Idles albumId order p :=
  Protocol.wp_stay (fun _ hr => can_calm (.inl rfl) hr.1) (fun _ he => next_calm (.inl rfl) he) hp fun _ => rfl

theorem idles_bind (hp : Idles albumId order p) (hf : ∀ a, Idles albumId order (f a)) : Idles albumId order (p >>= f) :=
  wp_seq hp (fun a phase h => by subst h; exact hf a) fun _ _ h => h

theorem idles_tryExcept {h : PyExc → Prog α} (hp : Idles albumId order p) (hh : ∀ e, Idles albumId order (h e)) :
    Idles albumId order (p.tryExcept h) := by
  rw [Idles, wp_tryExcept]
  refine wp_mono (fun x phase hx => ?_) hp
  subst hx
  cases x with
  | ok a => rfl
  | error e => exact hh e

end

/-! ## Uploads follow the protocol -/

/-- Lock, position, insert: one transaction. -/
theorem createMediaWithNextPosition_idles (m : Media) : Idles albumId order (Repository.createMediaWithNextPosition m) := by
  refine Protocol.wp_await (can_calm (.inl rfl) rfl) (fun locked b _ => ?_) fun _ _ _ => rfl
  refine Protocol.wp_await rfl (fun position b _ => ?_) fun _ _ _ => rfl
  exact (wp_perform _).mpr ⟨⟨_, rfl, rfl, rfl⟩, fun x g ⟨b, _, hg⟩ => hg⟩

theorem insertOrRollBack_idles (m : Media) : Idles albumId order (insertOrRollBack m) := by
  refine idles_tryExcept (createMediaWithNextPosition_idles m) fun e => idles_of_uses ?_
  exact Program.uses_bind (deleteStorageKeyBestEffort_uses (fun _ => ⟨rfl, fun _ => Req.noConfusion⟩) _) fun _ => trivial

theorem createMedia_idles (rt : Runtime) (albumId' : String) (file : UploadFile) (payload : Bytes) (correlationId : String)
    (actor : CurrentActor) (draws : Draws) :
    Idles albumId order (createMedia rt albumId' file payload correlationId actor draws) := by
  have hask : ∀ {r : Req}, Aside r → Idles albumId order (ask r) := fun h => idles_of_uses (Program.uses_perform h)
  refine idles_bind (idles_of_uses (Program.uses_ofExcept _)) fun prepared => ?_
  refine idles_bind (hask ⟨rfl, fun _ => Req.noConfusion⟩) fun _ => ?_
  refine idles_bind (hask ⟨rfl, fun _ => Req.noConfusion⟩) fun now => ?_
  refine idles_bind (insertOrRollBack_idles _) fun m => ?_
  refine idles_bind (hask ⟨rfl, fun _ => Req.noConfusion⟩) fun _ => ?_
  exact idles_bind (hask ⟨rfl, fun _ => Req.noConfusion⟩) fun refreshed => rfl

theorem upload_idles (rt : Runtime) {input : UploadInput} (draws : Draws) (hinput : input.albumId = some albumId) :
    Idles albumId order (upload rt input draws) := by
  refine idles_bind (idles_of_uses (readBoundedUpload_uses aside_of_plain _)) fun payload => ?_
  refine idles_bind (idles_of_uses (Program.uses_raiseIf _ _)) fun _ => ?_
  refine idles_bind (idles_of_uses (enforceRateLimit_uses aside_of_plain _ _ _)) fun _ => ?_
  refine idles_bind (idles_of_uses (enforceStorageQuotas_uses aside_of_plain _ _)) fun _ => ?_
  refine idles_bind (idles_of_uses (getOrCreateAlbum_uses aside_of_plain (fun _ => ⟨rfl, fun _ => Req.noConfusion⟩)
    (fun _ => ⟨rfl, fun _ => Req.noConfusion⟩) _ _ _ _ _ _)) fun album => ?_
  refine idles_bind (idles_tryExcept ?_ fun e => ?_) fun media => ?_
  · refine idles_bind (idles_of_uses (Program.uses_perform ⟨rfl, fun _ => Req.noConfusion⟩)) fun items => ?_
    exact idles_bind (idles_of_uses (Program.uses_raiseIf _ _)) fun _ => createMedia_idles rt _ _ _ _ _ _
  · -- the album was there before: there is nothing to clean up
    rw [hinput]
    rfl
  · exact idles_bind (idles_of_uses (updateAlbumOr404_uses ⟨rfl, fun _ => Req.noConfusion⟩)) fun _ => rfl

/-! ## So does the reorder -/

theorem writePositions_settles (hnodup : (order.map Prod.fst).Nodup) :
    wp ((reordering albumId order).machine Honest) (fun x phase => (∃ a, x = .ok a) → phase = .settled)
      (writePositions albumId order) .before := by
  refine Protocol.wp_await ⟨rfl, rfl, hnodup⟩ (fun reordered b _ => ?_) fun e b _ => fun h => nomatch h
  by_cases hrebalance : needsRebalance reordered = true
  · have hnext : (reordering albumId order).next .before ⟨.updateMediaPositions albumId order, .ok reordered, b⟩ =
        .again reordered := if_pos hrebalance
    rw [if_pos hrebalance, hnext]
    refine (wp_perform _).mpr ⟨⟨rfl, rfl⟩, ?_⟩
    rintro (e | a) _ ⟨b, _, rfl⟩ h
    · cases h.choose_spec
    · rfl
  · have hnext : (reordering albumId order).next .before ⟨.updateMediaPositions albumId order, .ok reordered, b⟩ =
        .settled := if_neg hrebalance
    rw [if_neg hrebalance, hnext]
    exact fun _ => rfl

theorem reorderAlbum_settles (albumId : String) (deleteToken : Option String) (order : List (String × Int))
    (correlationId : String) (actorUser : Option User) :
    wp ((reordering albumId order).machine Honest) (fun x phase => (∃ a, x = .ok a) → phase = .settled)
      (reorderAlbum albumId deleteToken order correlationId actorUser) .before := by
  have hbefore : Phase.before.Calm := .inr (.inl rfl)
  have hsettled : Phase.settled.Calm := .inr (.inr rfl)
  refine wp_calm hbefore (Program.uses_bind (Program.uses_perform ⟨rfl, fun _ => Req.noConfusion⟩) fun found => ?_)
    (fun album => ?_) fun e h => nomatch h
  · split <;> trivial
  refine wp_calm hbefore (requireAlbumAccess_uses aside_of_plain _ _ _ _) (fun _ => ?_) fun e h => nomatch h
  refine wp_calm hbefore (Program.uses_perform ⟨rfl, fun _ => Req.noConfusion⟩) (fun items => ?_) fun e h => nomatch h
  refine wp_check (fun _ h => nomatch h) fun _ => wp_value (fun positions hpositions => ?_) fun e _ h => nomatch h
  obtain ⟨rfl, hnodup⟩ := collectPositions_eq hpositions List.nodup_nil
  refine wp_seq (writePositions_settles hnodup) (fun reordered phase hphase => ?_) fun e _ _ h => nomatch h
  obtain rfl := hphase ⟨_, rfl⟩
  refine wp_calm hsettled (updateAlbumOr404_uses ⟨rfl, fun _ => Req.noConfusion⟩) (fun _ => ?_) fun e h => nomatch h
  exact wp_calm hsettled (Program.uses_perform ⟨rfl, fun _ => Req.noConfusion⟩) (fun _ _ => rfl) fun e h => nomatch h

/-! ## What calls do to the album -/

section

variable {i k : Nat} {r : Req} {fault : Option PyExc} {w : World}

theorem mediaOf_answer (h : Req.changesMedia r = false) (albumId : String) :
    (backend.answer i r fault w).2.mediaOf albumId = w.mediaOf albumId := by
  rw [World.mediaOf, answer_media h]
  rfl

/-- The lock of another task stays, unless the call locks the same album. -/
theorem lock_stays (hne : k ≠ i) (h : w.albumLocks albumId = some k) (hr : r ≠ .lockAlbum albumId) :
    (backend.answer i r fault w).2.albumLocks albumId = some k := by
  have hunlock : (w.unlock i).albumLocks albumId = some k := by
    simp only [World.unlock, h, Option.some.injEq, hne, if_false]
  rcases answer_cases i r fault w with ha | ⟨e, -, ha⟩
  swap
  · rw [ha]
    exact hunlock
  rw [ha]
  cases r <;> first
    | exact h
    | (simp only [exec, World.createAlbum, World.updateAlbum, World.updateMediaThumbnailState, World.updateMediaPositions,
        World.createUser, World.updateUser, World.deleteUser, World.insertMedia]
       repeat' split
       all_goals first | exact h | exact hunlock)
    | skip
  case lockAlbum b =>
    have hb : albumId ≠ b := fun e => hr (e ▸ rfl)
    simp only [exec, World.lockAlbum]
    split
    · exact (if_neg hb).trans h
    · exact h

/-- A row that was inserted comes after those of its album. -/
theorem mediaOf_insert {m : Media} (albumId : String) :
    (backend.answer i (.insertMedia m) fault w).2.mediaOf albumId = w.mediaOf albumId ∨
      (m.albumId = albumId ∧ (∀ u ∈ w.media, u.id ≠ m.id) ∧
        (backend.answer i (.insertMedia m) fault w).2.mediaOf albumId = w.mediaOf albumId ++ [m]) := by
  rcases answer_cases i (.insertMedia m) fault w with ha | ⟨e, -, ha⟩
  swap
  · exact .inl (by rw [ha]; rfl)
  rw [ha]
  simp only [exec, World.insertMedia]
  split
  · exact .inl rfl
  split
  · rename_i t ht
    have hrows : ({ w.unlock i with media := t } : World).mediaOf albumId =
        w.mediaOf albumId ++ [m].filter (·.albumId == albumId) := by
      rw [World.mediaOf, Table.insert_rows ht, List.filter_append]
      rfl
    rw [hrows]
    by_cases hm : m.albumId = albumId
    · refine .inr ⟨hm, fun u hu hid => ?_, by simp [hm]⟩
      have hnone : w.media.insert m = none := Table.insert_eq_none.mpr ⟨u, hu, hid⟩
      rw [hnone] at ht
      cases ht
    · exact .inl (by simp [hm])
  · exact .inl rfl

/-- Positions are written to all rows of the album, which then is listed, or to none. -/
theorem mediaOf_write {positions : List (String × Int)} :
    ((backend.answer i (.updateMediaPositions albumId positions) fault w).2.mediaOf albumId = w.mediaOf albumId ∧
        ∃ e, (backend.answer i (.updateMediaPositions albumId positions) fault w).1 = .error e) ∨
      ((backend.answer i (.updateMediaPositions albumId positions) fault w).2.mediaOf albumId =
          (w.mediaOf albumId).map (World.setPositions albumId positions) ∧
        (backend.answer i (.updateMediaPositions albumId positions) fault w).1 =
          .ok ((backend.answer i (.updateMediaPositions albumId positions) fault w).2.listAlbumMedia albumId)) := by
  rcases answer_cases i (.updateMediaPositions albumId positions) fault w with ha | ⟨e, -, ha⟩
  swap
  · exact .inl (by rw [ha]; exact ⟨rfl, e, rfl⟩)
  rw [ha]
  simp only [exec, World.updateMediaPositions]
  split
  · refine .inr ⟨?_, rfl⟩
    simp only [World.mediaOf, Table.modify, List.filter_map]
    congr 1
    refine List.filter_congr fun m _ => ?_
    simp only [Function.comp_apply, (sameItem_setPositions albumId positions m).albumId]
  · exact .inl ⟨rfl, _, rfl⟩

end

/-! ## One step -/

theorem next_eq_locked {phase : Phase} {e : Call} {b : String} (h : phase.next e = .locked b) :
    phase = .idle ∧ ∃ x injected, e = ⟨.lockAlbum b, .ok x, injected⟩ := by
  unfold Phase.next at h
  split at h
  · cases h
    exact ⟨rfl, _, _, rfl⟩
  · cases h
  · cases h
  · cases h
  · split at h <;> cases h
  · cases h
  · rename_i hlocked _ _ _ _ _
    exact (hlocked b h).elim

theorem next_eq_took {phase : Phase} {e : Call} {b : String} {position : Int} (h : phase.next e = .took b position) :
    phase = .locked b ∧ ∃ c injected, e = ⟨.nextPosition c, .ok position, injected⟩ := by
  unfold Phase.next at h
  split at h
  · cases h
  · cases h
    exact ⟨rfl, _, _, rfl⟩
  · cases h
  · cases h
  · split at h <;> cases h
  · cases h
  · rename_i htook _ _ _ _
    exact (htook b position h).elim

/-- The calls that change rows of media, and the phases they are made in. -/
theorem changes_cases {phase : Phase} {r : Req} (h : CanCall albumId order phase r) (hr : Req.changesMedia r = true) :
    (∃ m, r = .insertMedia m ∧ phase = .took m.albumId m.position) ∨
      ∃ positions, r = .updateMediaPositions albumId positions ∧
        ((phase = .before ∧ positions = order ∧ (order.map Prod.fst).Nodup) ∨
          ∃ R, phase = .again R ∧ positions = rebalanced R) := by
  unfold CanCall at h
  split at h
  · subst h
    cases hr
  · obtain ⟨m, rfl, rfl, rfl⟩ := h
    exact .inl ⟨m, rfl, rfl⟩
  · obtain ⟨rfl, rfl, hnodup⟩ := h
    exact .inr ⟨_, rfl, .inl ⟨rfl, rfl, hnodup⟩⟩
  · obtain ⟨rfl, rfl⟩ := h
    exact .inr ⟨_, rfl, .inr ⟨_, rfl, rfl⟩⟩
  · rw [h] at hr
    cases hr

/-- The album is there, whoever is inserting into it holds its lock, and the position it
    took is past those of all items. -/
structure Sound (albumId : String) (phases : Nat → Phase) (w : World) : Prop where
  album : ∃ a ∈ w.albums, a.id = albumId
  held : ∀ i, phases i = .locked albumId ∨ (∃ position, phases i = .took albumId position) → w.albumLocks albumId = some i
  above : ∀ i position, phases i = .took albumId position → ∀ m ∈ w.mediaOf albumId, m.position < position

/-- What is written stays below the positions taken. -/
def BelowTaken (albumId : String) (phases : Nat → Phase) (r : Req) : Prop :=
  ∀ positions, r = .updateMediaPositions albumId positions → ∀ x ∈ positions, ∀ i position,
    phases i = .took albumId position → x.2 < position

section

variable {phases : Nat → Phase} {w : World} {i : Nat} {r : Req} {fault : Option PyExc}

theorem deletesAlbums_of_can {phase : Phase} (h : CanCall albumId order phase r) : Req.deletesAlbums r = false := by
  cases hr : Req.changesMedia r
  · cases r <;> first | rfl | cases hr
  · rcases changes_cases h hr with ⟨m, rfl, -⟩ | ⟨positions, rfl, -⟩ <;> rfl

theorem Sound.held_step (h : Sound albumId phases w) (hcan : CanCall albumId order (phases i) r)
    (hfree : backend.blocked i r w = false) (k : Nat)
    (hk : Function.update phases i ((phases i).next ⟨r, (backend.answer i r fault w).1, fault.isSome⟩) k = .locked albumId ∨
      ∃ position, Function.update phases i ((phases i).next ⟨r, (backend.answer i r fault w).1, fault.isSome⟩) k =
        .took albumId position) :
    (backend.answer i r fault w).2.albumLocks albumId = some k := by
  by_cases hki : k = i
  · subst hki
    rw [Function.update_self] at hk
    rcases hk with hk | ⟨position, hk⟩
    · -- it has just locked the album
      obtain ⟨-, x, injected, he⟩ := next_eq_locked hk
      injection he with hreq hreply
      subst hreq
      obtain ⟨a, ha, hid⟩ := h.album
      rw [answer_of_ok (eq_of_heq hreply)]
      have hfind : w.albums.find? albumId = some a := hid ▸ Table.find?_self ha
      simp only [exec, World.lockAlbum, hfind, if_true]
    · -- it held the lock already
      obtain ⟨hlocked, b, injected, he⟩ := next_eq_took hk
      have hbefore := h.held k (.inl hlocked)
      injection he with hreq hreply
      subst hreq
      rw [answer_of_ok (eq_of_heq hreply)]
      have hexec := exec_of_ok (eq_of_heq hreply)
      simp only [exec] at hexec ⊢
      split
      · exact hbefore
      · rename_i e herr
        rw [herr] at hexec
        cases hexec
  · rw [Function.update_of_ne hki] at hk
    have hbefore := h.held k hk
    refine lock_stays hki hbefore fun hr => ?_
    subst hr
    have hblocked : backend.blocked i (.lockAlbum albumId) w = true := by
      simp only [backend, blocked, hbefore, Option.any_some, bne_iff_ne]
      exact hki
    rw [hblocked] at hfree
    cases hfree

theorem position_of_reply {c : String} {position : Int} {injected : Bool}
    (he : (⟨.nextPosition albumId, (backend.answer i (.nextPosition albumId) fault w).1, fault.isSome⟩ : Call) =
      ⟨.nextPosition c, .ok position, injected⟩) : position = computedPosition albumId w := by
  obtain rfl : albumId = c := by
    injection he with hreq
    injection hreq
  have hreply : (backend.answer i (.nextPosition albumId) fault w).1 = .ok position := by
    injection he
  have hexec := exec_of_ok hreply
  simp only [exec] at hexec
  split at hexec
  · rename_i p hp
    rw [← Except.ok.inj hexec]
    exact nextPosition_eq hp
  · cases hexec

theorem Sound.step (h : Sound albumId phases w) (hcan : CanCall albumId order (phases i) r)
    (hfree : backend.blocked i r w = false) (hbelow : BelowTaken albumId phases r) :
    Sound albumId (Function.update phases i ((phases i).next ⟨r, (backend.answer i r fault w).1, fault.isSome⟩))
      (backend.answer i r fault w).2 where
  album := by
    obtain ⟨a, ha, hid⟩ := h.album
    obtain ⟨a', ha', hid'⟩ := @album_stays i _ fault _ (deletesAlbums_of_can hcan) _ ha
    exact ⟨a', ha', hid'.trans hid⟩
  held := h.held_step hcan hfree
  above := by
    intro k position hk m hm
    by_cases hki : k = i
    · subst hki
      rw [Function.update_self] at hk
      obtain ⟨hlocked, b, injected, he⟩ := next_eq_took hk
      have hb : r = .nextPosition albumId := by rw [hlocked] at hcan; exact hcan
      subst hb
      rw [mediaOf_answer rfl] at hm
      obtain rfl := position_of_reply he
      exact position_lt_computed hm
    · rw [Function.update_of_ne hki] at hk
      have hold := h.above k position hk
      cases hr : Req.changesMedia r
      · rw [mediaOf_answer hr] at hm
        exact hold m hm
      rcases changes_cases hcan hr with ⟨a, rfl, htook⟩ | ⟨positions, rfl, -⟩
      · rcases @mediaOf_insert i fault w a albumId with heq | ⟨ha, -, -⟩
        · rw [heq] at hm
          exact hold m hm
        · -- two tasks cannot hold the lock
          have h1 := h.held k (.inr ⟨position, hk⟩)
          have h2 := h.held i (.inr ⟨a.position, ha ▸ htook⟩)
          exact absurd (Option.some.inj (h1.symm.trans h2)) hki
      · rcases @mediaOf_write albumId i fault w positions with
          ⟨heq, -⟩ | ⟨heq, -⟩
        · rw [heq] at hm
          exact hold m hm
        · rw [heq] at hm
          obtain ⟨m', hm', rfl⟩ := List.mem_map.mp hm
          rcases setPositions_position positions m' with hp | ⟨x, hx, hp⟩
          · rw [hp]
            exact hold m' hm'
          · rw [hp]
            exact hbelow positions rfl x hx k position hk

end

/-- What the reorder has made sure of. -/
def Phase.Stands (old : List String) (order : List (String × Int)) (rows : List Media) : Phase → Prop
  | .again R => Awaits old order R rows
  | .settled => Distinct rows ∧ InOrder order rows
  | _ => True

/-- The items that were there still are, before all new ones. -/
structure Arranged (old : List String) (order : List (String × Int)) (phase : Phase) (rows : List Media) : Prop where
  stay : ∀ id ∈ old, ∃ m ∈ rows, m.id = id
  apart : Apart old rows
  stands : phase.Stands old order rows

section

variable {old : List String} {phase : Phase} {rows : List Media} {e : Call}

theorem Phase.Stands.next (h : phase.Stands old order rows) (he : ∀ albumId positions, e.req ≠ .updateMediaPositions albumId positions) :
    (phase.next e).Stands old order rows := by
  unfold Phase.next
  split
  · trivial
  · trivial
  · trivial
  · trivial
  · exact absurd rfl (he _ _)
  · exact absurd rfl (he _ _)
  · exact h

theorem Phase.Stands.append {a : Media} (h : phase.Stands old order rows) (ha : Appended old rows a)
    (hnamed : ∀ x ∈ order, x.1 ∈ old) : phase.Stands old order (rows ++ [a]) := by
  cases phase with
  | idle | locked | took | before => trivial
  | again R => exact Awaits.append h ha
  | settled => exact ⟨h.1.append ha, h.2.append ha hnamed⟩

theorem Arranged.next (h : Arranged old order phase rows)
    (he : ∀ albumId positions, e.req ≠ .updateMediaPositions albumId positions) :
    Arranged old order (phase.next e) rows := { h with stands := h.stands.next he }

theorem Arranged.append {a : Media} (h : Arranged old order phase rows) (hlast : ∀ m ∈ rows, m.position < a.position)
    (hfresh : ∀ m ∈ rows, m.id ≠ a.id) (hnamed : ∀ x ∈ order, x.1 ∈ old) : Arranged old order phase (rows ++ [a]) := by
  have ha : Appended old rows a := by
    refine ⟨hlast, hfresh, fun hold => ?_⟩
    obtain ⟨m, hm, hid⟩ := h.stay _ hold
    exact hfresh m hm hid
  refine ⟨fun id hid => ?_, h.apart.append ha, h.stands.append ha hnamed⟩
  obtain ⟨m, hm, hmid⟩ := h.stay id hid
  exact ⟨m, List.mem_append_left _ hm, hmid⟩

/-- The first write: the list it replies is in order, or is going to be spread. -/
theorem Arranged.first_write {w : World} {i : Nat} {fault : Option PyExc}
    (h : Arranged old order .before (w.mediaOf albumId)) (hnodup : (order.map Prod.fst).Nodup)
    (hnamed : ∀ x ∈ order, x.1 ∈ old) (hbelow : Below old order (w.mediaOf albumId)) :
    Arranged old order
      (Phase.next .before ⟨.updateMediaPositions albumId order,
        (backend.answer i (.updateMediaPositions albumId order) fault w).1, fault.isSome⟩)
      ((backend.answer i (.updateMediaPositions albumId order) fault w).2.mediaOf albumId) := by
  rcases @mediaOf_write albumId i fault w order with
    ⟨hrows, e, hreply⟩ | ⟨hrows, hreply⟩
  · rw [hrows, hreply]
    exact { h with stands := trivial }
  · have halbum : ∀ m ∈ w.mediaOf albumId, m.albumId = albumId := fun m hm => (mem_mediaOf.mp hm).2
    have hlisted : ∀ m, m ∈ (backend.answer i (.updateMediaPositions albumId order) fault w).2.listAlbumMedia albumId ↔
        m ∈ (w.mediaOf albumId).map (World.setPositions albumId order) := fun m => by rw [mem_listAlbumMedia, hrows]
    have hapart := h.apart.first_write halbum hnodup hnamed hbelow
    rw [hrows, hreply]
    refine ⟨fun id hid => ?_, hapart, ?_⟩
    · obtain ⟨m, hm, hmid⟩ := h.stay id hid
      exact ⟨_, List.mem_map_of_mem hm, (World.setPositions_id albumId order m).trans hmid⟩
    · unfold Phase.next
      dsimp only
      split
      · exact Awaits.first_write halbum hnodup hlisted (listAlbumMedia_sorted _ _) (listAlbumMedia_nodup _ _) hapart
      · rename_i hbalanced
        exact ⟨Distinct.of_sorted (fun m hm => (hlisted m).mpr hm) (Bool.eq_false_iff.mpr hbalanced),
          InOrder.first_write halbum hnodup⟩

/-- The second write spreads the list the first one replied. -/
theorem Arranged.second_write {w : World} {i : Nat} {fault : Option PyExc} {R : List Media}
    (h : Arranged old order (.again R) (w.mediaOf albumId)) (hnamed : ∀ x ∈ order, x.1 ∈ old)
    (hbelow : Below old (rebalanced R) (w.mediaOf albumId)) :
    Arranged old order
      (Phase.next (.again R) ⟨.updateMediaPositions albumId (rebalanced R),
        (backend.answer i (.updateMediaPositions albumId (rebalanced R)) fault w).1, fault.isSome⟩)
      ((backend.answer i (.updateMediaPositions albumId (rebalanced R)) fault w).2.mediaOf albumId) := by
  rcases @mediaOf_write albumId i fault w (rebalanced R) with
    ⟨hrows, e, hreply⟩ | ⟨hrows, hreply⟩
  · rw [hrows, hreply]
    exact { h with stands := h.stands }
  · have halbum : ∀ m ∈ w.mediaOf albumId, m.albumId = albumId := fun m hm => (mem_mediaOf.mp hm).2
    have hawaits : Awaits old order R (w.mediaOf albumId) := h.stands
    rw [hrows, hreply]
    refine ⟨fun id hid => ?_, Apart.spread hawaits halbum hbelow,
      Distinct.spread hawaits halbum hbelow, InOrder.spread hawaits halbum hnamed⟩
    obtain ⟨m, hm, hmid⟩ := h.stay id hid
    exact ⟨_, List.mem_map_of_mem hm, (World.setPositions_id albumId _ m).trans hmid⟩

end

/-! ## Runs -/

/-- Where task `i` is; task `j` is the reorder. -/
def phaseOf (j : Nat) (p : Site) (i : Nat) : Phase := p.seen Phase.next (if i = j then .before else .idle) i

/-- The positions that are taken and not yet inserted. -/
def taken (albumId : String) (j : Nat) (p : Site) : List Int :=
  (List.range p.tasks.length).filterMap fun i =>
    match phaseOf j p i with
    | .took b position => if b = albumId then some position else none
    | _ => none

/-- What a call writes stays below the new items it says nothing of, inserted or about to be. -/
def StaysBelow (albumId : String) (old : List String) (j : Nat) (p : Site) (_ : Nat) (r : Req) (_ : Option PyExc) :
    Prop :=
  match r with
  | .updateMediaPositions _ positions =>
    Below old positions (p.world.mediaOf albumId) ∧ ∀ x ∈ positions, ∀ position ∈ taken albumId j p, x.2 < position
  | _ => True

instance (albumId : String) (old : List String) (j : Nat) (p : Site) (i : Nat) (r : Req) (fault : Option PyExc) :
    Decidable (StaysBelow albumId old j p i r fault) := by
  apply @Req.casesOn _ r <;> (intros; delta StaysBelow; dsimp only; infer_instance)

/-- The task has made no call. -/
def NotBegun (j : Nat) (p : Site) : Prop := ∀ t ∈ p.tasks[j]?, t.log.isEmpty = true

/-- The task has returned. -/
def Returned (j : Nat) (p : Site) : Prop := (p.tasks[j]?.bind (·.rest.value)).isSome = true

instance (j : Nat) (p : Site) : Decidable (NotBegun j p) := Option.decidableForallMem _
instance (j : Nat) (p : Site) : Decidable (Returned j p) := inferInstanceAs (Decidable (_ = true))

/-- An upload stays what it is. -/
def Phase.Uploading : Phase → Prop
  | .idle | .locked _ | .took _ _ => True
  | _ => False

theorem Phase.Uploading.next {phase : Phase} (h : phase.Uploading) (e : Call) : (phase.next e).Uploading := by
  cases phase with
  | before | again | settled => cases h
  | idle => unfold Phase.next; split <;> trivial
  | locked => unfold Phase.next; split <;> trivial
  | took => trivial

section

variable {j i : Nat} {p : Site} {t : Task Reply PyExc OpResult} {r : Req} {k : Except PyExc (Reply r) → Prog OpResult}
  {fault : Option PyExc}

theorem phaseOf_advance (ht : p.tasks[i]? = some t) : phaseOf j (p.advance backend i t r k fault) =
    Function.update (phaseOf j p) i ((phaseOf j p i).next ⟨r, (backend.answer i r fault p.world).1, fault.isSome⟩) := by
  funext l
  by_cases hl : l = i
  · subst hl
    rw [Function.update_self]
    exact Pool.seen_advance_self ht
  · rw [Function.update_of_ne hl]
    exact Pool.seen_advance_of_ne hl

theorem mem_taken {albumId : String} {position : Int} (h : phaseOf j p i = .took albumId position) :
    position ∈ taken albumId j p := by
  have hlt : i < p.tasks.length := by
    by_contra hge
    have hnone : p.tasks[i]? = none := List.getElem?_eq_none (Nat.le_of_not_lt hge)
    simp only [phaseOf, Pool.seen, hnone] at h
    split at h <;> cases h
  exact List.mem_filterMap.mpr ⟨i, List.mem_range.mpr hlt, by rw [h]; exact if_pos rfl⟩

end

/-- What the tasks are, and where they are. -/
structure Running (albumId : String) (order : List (String × Int)) (j : Nat) (p : Site) : Prop where
  follows : p.Follows (fun _ => reordering albumId order) Honest
    (fun i x phase => i = j → (∃ a, x = .ok a) → phase = .settled) fun i => if i = j then .before else .idle
  uploading : ∀ i, i ≠ j → (phaseOf j p i).Uploading

section

variable {j i : Nat} {p : Site} {t : Task Reply PyExc OpResult} {r : Req} {k : Except PyExc (Reply r) → Prog OpResult}
  {fault : Option PyExc} {old : List String}

theorem Running.can (h : Running albumId order j p) (ht : p.tasks[i]? = some t) (hr : t.rest = .call r k) :
    CanCall albumId order (phaseOf j p i) r := by
  have hcan := h.follows.can ht hr
  rw [phaseOf, Pool.seen_eq ht]
  exact hcan

theorem Running.advance (h : Running albumId order j p) (ht : p.tasks[i]? = some t) (hr : t.rest = .call r k) :
    Running albumId order j (p.advance backend i t r k fault) where
  follows := h.follows.advance ht hr (honest_answer i r fault p.world)
  uploading l hl := by
    rw [phaseOf_advance ht]
    by_cases hli : l = i
    · subst hli
      rw [Function.update_self]
      exact (h.uploading l hl).next _
    · rw [Function.update_of_ne hli]
      exact h.uploading l hl

/-- Only the reorder writes positions. -/
theorem Running.writer (h : Running albumId order j p) {b : String} {positions : List (String × Int)}
    (hcan : CanCall albumId order (phaseOf j p i) (.updateMediaPositions b positions)) : i = j := by
  by_contra hne
  have hup := h.uploading i hne
  rcases changes_cases hcan rfl with ⟨m, hr, -⟩ | ⟨positions', -, ⟨hphase, -⟩ | ⟨R, hphase, -⟩⟩
  · cases hr
  · rw [hphase] at hup
    exact hup
  · rw [hphase] at hup
    exact hup

/-- As long as the reorder has not begun nothing is written that could pass a position taken. -/
theorem sound_advance_before (h : Running albumId order j p) (hs : Sound albumId (phaseOf j p) p.world)
    (ht : p.tasks[i]? = some t) (hr : t.rest = .call r k) (hfree : backend.blocked i r p.world = false) (hij : i ≠ j) :
    Sound albumId (phaseOf j (p.advance backend i t r k fault)) (p.advance backend i t r k fault).world := by
  rw [phaseOf_advance ht]
  refine hs.step (h.can ht hr) hfree fun positions hpositions => ?_
  subst hpositions
  exact absurd (h.writer (h.can ht hr)) hij

theorem sound_advance (h : Running albumId order j p) (hs : Sound albumId (phaseOf j p) p.world)
    (ht : p.tasks[i]? = some t) (hr : t.rest = .call r k) (hfree : backend.blocked i r p.world = false)
    (hbelow : StaysBelow albumId old j p i r fault) :
    Sound albumId (phaseOf j (p.advance backend i t r k fault)) (p.advance backend i t r k fault).world := by
  rw [phaseOf_advance ht]
  refine hs.step (h.can ht hr) hfree fun positions hpositions x hx l position hl => ?_
  subst hpositions
  exact hbelow.2 x hx position (mem_taken hl)

theorem arranged_advance (h : Running albumId order j p) (hs : Sound albumId (phaseOf j p) p.world)
    (ha : Arranged old order (phaseOf j p j) (p.world.mediaOf albumId)) (hnamed : ∀ x ∈ order, x.1 ∈ old)
    (ht : p.tasks[i]? = some t) (hr : t.rest = .call r k) (hbelow : StaysBelow albumId old j p i r fault) :
    Arranged old order (phaseOf j (p.advance backend i t r k fault) j)
      ((p.advance backend i t r k fault).world.mediaOf albumId) := by
  have hcan := h.can ht hr
  rw [phaseOf_advance ht]
  change Arranged old order _ ((backend.answer i r fault p.world).2.mediaOf albumId)
  -- a call that writes no positions leaves the reorder's phase what it stands for
  have hphase : ∀ {rows : List Media}, Arranged old order (phaseOf j p j) rows → (∀ b positions, r ≠ .updateMediaPositions b positions) →
      Arranged old order (Function.update (phaseOf j p) i
        ((phaseOf j p i).next ⟨r, (backend.answer i r fault p.world).1, fault.isSome⟩) j) rows := by
    intro rows hrows hne
    by_cases hji : j = i
    · subst hji
      rw [Function.update_self]
      exact hrows.next hne
    · rw [Function.update_of_ne hji]
      exact hrows
  cases hm : Req.changesMedia r
  · rw [mediaOf_answer hm]
    exact hphase ha fun b positions e => by rw [e] at hm; cases hm
  rcases changes_cases hcan hm with ⟨m, rfl, htook⟩ | ⟨positions, rfl, hwrite⟩
  · refine hphase ?_ fun _ _ => Req.noConfusion
    rcases @mediaOf_insert i fault p.world m albumId with hrows | ⟨halbum, hfresh, hrows⟩
    · rw [hrows]
      exact ha
    · rw [hrows]
      exact ha.append (hs.above i m.position (halbum ▸ htook)) (fun u hu => hfresh u (mem_mediaOf.mp hu).1) hnamed
  · obtain rfl := h.writer hcan
    rw [Function.update_self]
    rcases hwrite with ⟨hbefore, rfl, hnodup⟩ | ⟨R, hagain, rfl⟩
    · rw [hbefore] at ha ⊢
      exact ha.first_write hnodup hnamed hbelow.1
    · rw [hagain] at ha ⊢
      exact ha.second_write hnamed hbelow.1

end

theorem Sound.elapse {phases : Nat → Phase} {w : World} (h : Sound albumId phases w) (d : Nat) :
    Sound albumId phases (backend.elapse d w) := ⟨h.album, h.held, h.above⟩

theorem program_settles (rt : Runtime) (albumId : String) (deleteToken : Option String) (order : List (String × Int))
    (correlationId : String) (actorUser : Option User) :
    wp ((reordering albumId order).machine Honest) (fun x phase => (∃ a, x = .ok a) → phase = .settled)
      ((Op.reorderAlbum albumId deleteToken order correlationId actorUser).program rt) .before := by
  refine wp_seq (reorderAlbum_settles albumId deleteToken order correlationId actorUser)
    (fun result phase hphase => ?_) fun e phase _ h => ?_
  · rw [wp_pure]
    exact fun _ => hphase ⟨result, rfl⟩
  · obtain ⟨a, ha⟩ := h
    cases ha

theorem program_idles (rt : Runtime) {op : Op} (h : UploadsTo albumId op) : Idles albumId order (op.program rt) := by
  cases op with
  | upload input draws =>
    unfold Op.program
    exact idles_bind (upload_idles rt draws h) fun _ => rfl
  | _ => cases h

theorem running_start (rt : Runtime) (w : World) {ops : List Op} {j : Nat} {deleteToken : Option String}
    {correlationId : String} {actorUser : Option User}
    (hreorder : ops[j]? = some (.reorderAlbum albumId deleteToken order correlationId actorUser))
    (huploads : ∀ i op, ops[i]? = some op → i ≠ j → UploadsTo albumId op) :
    Running albumId order j (Site.start rt w ops) where
  uploading i hi := by
    have hphase : phaseOf j (Site.start rt w ops) i = .idle := by
      rw [phaseOf, if_neg hi]
      exact Pool.seen_start w _ i
    rw [hphase]
    trivial
  follows := Site.start_follows fun i op hop => by
    by_cases hi : i = j
    · subst hi
      obtain rfl := Option.some.inj (hreorder.symm.trans hop)
      rw [if_pos rfl]
      exact wp_mono (fun _ _ h _ => h) (program_settles rt albumId deleteToken order correlationId actorUser)
    · rw [if_neg hi]
      exact wp_mono (fun _ _ _ h => absurd h hi) (program_idles rt (huploads i op hop hi))

theorem sound_start (rt : Runtime) {w : World} (ops : List Op) (j : Nat) (halbum : ∃ a ∈ w.albums, a.id = albumId) :
    Sound albumId (phaseOf j (Site.start rt w ops)) w := by
  have hphase : ∀ i, phaseOf j (Site.start rt w ops) i = if i = j then .before else .idle := fun i =>
    Pool.seen_start w _ i
  refine ⟨halbum, fun i h => ?_, fun i position h => ?_⟩
  · rw [hphase] at h
    split at h <;> rcases h with h | ⟨_, h⟩ <;> cases h
  · rw [hphase] at h
    split at h <;> cases h

/-- The reorder had not begun when task `i` made its call, if it has not after it. -/
theorem NotBegun.of_advance {i j : Nat} {p : Site} {t : Task Reply PyExc OpResult} {r : Req}
    {k : Except PyExc (Reply r) → Prog OpResult} {fault : Option PyExc} (ht : p.tasks[i]? = some t)
    (h : NotBegun j (p.advance backend i t r k fault)) : i ≠ j ∧ NotBegun j p := by
  have hij : i ≠ j := by
    rintro rfl
    have hlt := (List.getElem?_eq_some_iff.mp ht).1
    have hlog := h _ (List.getElem?_set_self hlt)
    simp at hlog
  refine ⟨hij, fun u hu => h u ?_⟩
  exact (List.getElem?_set_ne hij).trans hu

theorem sound_of_notBegun {rt : Runtime} {w : World} {ops : List Op} {j : Nat} (hrun : Running albumId order j (Site.start rt w ops))
    (halbum : ∃ a ∈ w.albums, a.id = albumId) (cs : List (Choice PyExc)) :
    Running albumId order j ((Site.start rt w ops).run backend cs) ∧
      (NotBegun j ((Site.start rt w ops).run backend cs) →
        Sound albumId (phaseOf j ((Site.start rt w ops).run backend cs)) ((Site.start rt w ops).run backend cs).world) := by
  refine Pool.run_invariant_free
    (I := fun p => Running albumId order j p ∧ (NotBegun j p → Sound albumId (phaseOf j p) p.world))
    (fun p d h => ⟨⟨h.1.follows, h.1.uploading⟩, fun hbegun => (h.2 hbegun).elapse d⟩)
    (fun p i t r k fault h ht hr hfree _ => ⟨h.1.advance ht hr, fun hbegun => ?_⟩)
    ⟨hrun, fun _ => sound_start rt ops j halbum⟩ (Pool.meets_true _ cs)
  obtain ⟨hij, hbefore⟩ := hbegun.of_advance ht
  exact sound_advance_before h.1 (h.2 hbefore) ht hr hfree hij

theorem Returned.outcome {j : Nat} {p : Site} (h : Returned j p) :
    ∃ t, p.tasks[j]? = some t ∧ ∃ x, t.rest.outcome = some (.ok x) := by
  unfold Returned at h
  rcases ht : p.tasks[j]? with _ | t
  · rw [ht] at h
    cases h
  · rw [ht] at h
    exact ⟨t, rfl, Program.outcome_of_value h⟩

/-- Where the reorder begins, all items are old. -/
theorem arranged_at_start {j : Nat} {p : Site} {old : List String} (hbegun : NotBegun j p)
    (hold : old = (p.world.mediaOf albumId).map (·.id)) :
    Arranged old order (phaseOf j p j) (p.world.mediaOf albumId) := by
  have hphase : phaseOf j p j = .before := by
    rw [phaseOf, if_pos rfl, Pool.seen]
    split
    · rename_i t ht
      rw [List.isEmpty_iff.mp (hbegun t ht)]
      rfl
    · rfl
  subst hold
  rw [hphase]
  refine ⟨fun id hid => ?_, fun m _ u hu _ hnew => absurd (List.mem_map_of_mem hu) hnew, trivial⟩
  obtain ⟨m, hm, rfl⟩ := List.mem_map.mp hid
  exact ⟨m, hm, rfl⟩

/-- What a reorder of `order` leaves: no two items at one position, those of the request in
    its order, and all new ones after the old. -/
structure Kept (old : List String) (order : List (String × Int)) (rows : List Media) : Prop where
  distinct : Distinct rows
  inOrder : InOrder order rows
  apart : Apart old rows

instance (old : List String) (order : List (String × Int)) (rows : List Media) : Decidable (Kept old order rows) :=
  have : Decidable (Distinct rows) :=
    inferInstanceAs (Decidable (∀ m ∈ rows, ∀ u ∈ rows, m.id ≠ u.id → m.position ≠ u.position))
  have : Decidable (InOrder order rows) :=
    inferInstanceAs (Decidable (∀ x ∈ order, ∀ y ∈ order, x.2 < y.2 → ∀ m ∈ rows, ∀ u ∈ rows,
      m.id = x.1 → u.id = y.1 → m.position < u.position))
  have : Decidable (Apart old rows) :=
    inferInstanceAs (Decidable (∀ m ∈ rows, ∀ u ∈ rows, m.id ∈ old → u.id ∉ old → m.position < u.position))
  decidable_of_iff (Distinct rows ∧ InOrder order rows ∧ Apart old rows)
    ⟨fun h => ⟨h.1, h.2.1, h.2.2⟩, fun h => ⟨h.1, h.2, h.3⟩⟩

/-- A reorder among uploads: begun at any moment (`first` has run), whatever happens then, as long as
    what it writes stays below the positions of the items that were uploaded since. -/
theorem reorder_among_uploads (rt : Runtime) (w : World) (ops : List Op) {j : Nat} {deleteToken : Option String}
    {correlationId : String} {actorUser : Option User}
    (hreorder : ops[j]? = some (.reorderAlbum albumId deleteToken order correlationId actorUser))
    (huploads : ∀ i op, ops[i]? = some op → i ≠ j → UploadsTo albumId op) (halbum : ∃ a ∈ w.albums, a.id = albumId)
    (first rest : List (Choice PyExc)) (hbegun : NotBegun j ((Site.start rt w ops).run backend first)) {old : List String}
    (hold : old = (((Site.start rt w ops).run backend first).world.mediaOf albumId).map (·.id))
    (hnamed : ∀ x ∈ order, x.1 ∈ old)
    (hbelow : ((Site.start rt w ops).run backend first).Meets backend (StaysBelow albumId old j) rest)
    (hdone : Returned j (((Site.start rt w ops).run backend first).run backend rest)) :
    Kept old order ((((Site.start rt w ops).run backend first).run backend rest).world.mediaOf albumId) := by
  obtain ⟨hrun, hsound⟩ := sound_of_notBegun (running_start rt w hreorder huploads) halbum first
  have hsound := hsound hbegun
  generalize (Site.start rt w ops).run backend first = p at *
  obtain ⟨hrun, -, harranged⟩ := Pool.run_invariant_free
    (I := fun p => Running albumId order j p ∧ Sound albumId (phaseOf j p) p.world ∧
      Arranged old order (phaseOf j p j) (p.world.mediaOf albumId))
    (fun p d h => ⟨⟨h.1.follows, h.1.uploading⟩, h.2.1.elapse d, h.2.2⟩)
    (fun p i t r k fault h ht hr hfree hbelow => ⟨h.1.advance ht hr, sound_advance h.1 h.2.1 ht hr hfree hbelow,
      arranged_advance h.1 h.2.1 h.2.2 hnamed ht hr hbelow⟩)
    ⟨hrun, hsound, arranged_at_start hbegun hold⟩ hbelow
  obtain ⟨t, ht, x, hx⟩ := hdone.outcome
  have hsettled := hrun.follows.done ht hx rfl ⟨x, rfl⟩
  have hphase : phaseOf j (p.run backend rest) j = .settled := by
    rw [phaseOf, Pool.seen_eq ht]
    exact hsettled
  have hstands := harranged.stands
  rw [hphase] at hstands
  exact ⟨hstands.1, hstands.2, harranged.apart⟩

/-! ## A list that is spread too late -/

/-- The sample album with the items `m` and `n`. -/
def twoItems : World :=
  { Sample.world with
    albums := .single Sample.album
    media := Sample.twoItems }

/-- A reorder that puts the two items next to each other, and an upload. -/
def reorderAndUpload (order : List (String × Int)) : List Op :=
  [.reorderAlbum "a" (some "t") order "c" none, .upload (Sample.uploadTo (some "a")) Sample.firstDraws]

/-- The upload runs between the two writes of the reorder. -/
def uploadBetween : List (Choice PyExc) := Sample.calls 0 4 ++ Sample.calls 1 15 ++ Sample.calls 0 3

/-- The upload runs before the first. -/
def uploadBefore : List (Choice PyExc) := Sample.calls 0 2 ++ Sample.calls 1 15 ++ Sample.calls 0 5

/-- The uploaded item gets the position the last old one is spread to. -/
theorem new_item_collides_with_the_spread :
    (Site.start Sample.runtime twoItems (reorderAndUpload [("m", 999), ("n", 1000)])).Meets backend NoFaults uploadBetween ∧
      (∀ j < 2, Returned j ((Site.start Sample.runtime twoItems (reorderAndUpload [("m", 999), ("n", 1000)])).run backend
        uploadBetween)) ∧
      ¬ Kept ["m", "n"] [("m", 999), ("n", 1000)]
        (((Site.start Sample.runtime twoItems (reorderAndUpload [("m", 999), ("n", 1000)])).run backend
          uploadBetween).world.mediaOf "a") := by
  decide +kernel

/-- An item that is in the list when it is spread goes with it. -/
theorem new_item_is_spread_with_the_others :
    Kept ["m", "n"] [("n", 999), ("m", 1000)]
      (((Site.start Sample.runtime twoItems (reorderAndUpload [("n", 999), ("m", 1000)])).run backend
        uploadBefore).world.mediaOf "a") :=
  reorder_among_uploads Sample.runtime twoItems (reorderAndUpload [("n", 999), ("m", 1000)]) rfl
    (fun i op hop hi => by
      rcases i with _ | _ | i
      · exact absurd rfl hi
      · obtain rfl := Option.some.inj hop
        rfl
      · cases hop)
    ⟨Sample.album, List.mem_cons_self, rfl⟩ [] uploadBefore (by decide +kernel) (by decide +kernel) (by decide) (by decide +kernel)
    (by decide +kernel)

end Imghost.Concurrency.Reorder
