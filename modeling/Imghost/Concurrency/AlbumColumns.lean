/-
  Imghost.Concurrency.AlbumColumns — concurrent changes of one album row.

  Five operations read an album, await other calls, and write the whole row back.
  What an operation sets out to change is a function of the row it read (`edited`);
  the columns it leaves as it read them are written back all the same. As long as
  every such column still holds the value that was read when the row is written back
  (`Fresh`), no change is lost; `update_media_thumbnail_state` avoids the matter for
  media rows by writing its own columns only, `update_album` does not.
-/

import Imghost.Async.WriteBack
import Imghost.Service.Footprint

namespace Imghost.Concurrency.AlbumColumns

open Imghost.Async Imghost.Data Imghost.Model Imghost.Service

variable {α : Type}

/-! ## What an operation changes -/

inductive Column where
  | title
  | coverMediaId
  | expiresAt

def Column.Value : Column → Type
  | .title | .coverMediaId => Option String
  | .expiresAt => Option DateTime

def Column.get : (c : Column) → Album → c.Value
  | .title, album => album.title
  | .coverMediaId, album => album.coverMediaId
  | .expiresAt, album => album.expiresAt

/-- The row an operation writes back, of the row it read. -/
def edited : Op → Album → Album
  | .upload input _, album => titled album input.title
  | .updateAlbum _ _ _ _ patch, album =>
    { album with
      title := match patch.title with
        | .set title => normalizeTitle title
        | .unset => album.title
      coverMediaId := match patch.coverMediaId with
        | .set cover => cover
        | .unset => album.coverMediaId }
  | .deleteMedia mediaId _ _ _, album =>
    if album.coverMediaId = some mediaId then { album with coverMediaId := none } else album
  | .adminUpdateAlbum _ expiresAt _ _, album =>
    match expiresAt with
    | .set expiresAt => { album with expiresAt := expiresAt.map (·.instant) }
    | .unset => album
  | _, album => album

theorem edited_id (op : Op) (album : Album) : (edited op album).id = album.id := by
  cases op with
  | upload input draws => exact titled_id album input.title
  | deleteMedia => simp only [edited]; split <;> rfl
  | adminUpdateAlbum => simp only [edited]; split <;> rfl
  | _ => rfl

/-- The operations that change or rewrite the row of the album `albumId`; a deletion of an
    item rewrites the row of the item's album, whichever that is. -/
def OnAlbum (albumId : String) : Op → Prop
  | .upload input _ => input.albumId = some albumId ∧ albumId ≠ ""
  | .updateAlbum id _ _ _ _ | .reorderAlbum id _ _ _ _ | .adminUpdateAlbum id _ _ _ => id = albumId
  | .deleteMedia _ _ _ _ => True
  | _ => False

/-! ## What an operation has read and written -/

structure Held where
  read : Option Album
  written : Option Album
  /-- The album was found deleted, or was deleted by the operation itself. -/
  gone : Bool
  deriving DecidableEq

def Held.nothing : Held := { read := none, written := none, gone := false }

def Held.draft (g : Held) : Draft Album := { read := g.read, written := g.written }

def Held.next (g : Held) : Call → Held
  | ⟨.getAlbum _, .ok (some s), _⟩ => { g with read := some s }
  | ⟨.updateAlbum x, .ok _, _⟩ => { g with written := some x }
  | ⟨.updateAlbum _, .error (.lookupError _), _⟩ => { g with gone := true }
  | ⟨.deleteAlbumRow _, .ok _, _⟩ => { g with gone := true }
  | _ => g

/-- One snapshot, and at most one write-back, of the edited snapshot. -/
def writeBack (edit : Album → Album) : Protocol Reply PyExc Held where
  can g r :=
    match r with
    | .getAlbum _ => g = .nothing
    | .updateAlbum x => g.written = none ∧ ∃ s, g.read = some s ∧ x = edit s
    | .deleteAlbumRow albumId => ∃ s, g.read = some s ∧ albumId = s.id
    | .createAlbum _ | .deleteUser _ => False
    | _ => True
  next := Held.next

/-- What an operation that has ended knows of its album: it returned after writing the
    edited row, or with nothing to change, or with the album gone; or it raised, having
    written nothing. -/
def Ended (edit : Album → Album) : Except PyExc α → Held → Prop
  | .ok _, g => ∃ s, g.read = some s ∧ (g.gone = true ∨ g.written = some (edit s) ∨ edit s = s ∧ g.written = none)
  | .error _, g => g.written = none

variable {edit : Album → Album}

/-- A call that has nothing to do with album rows. -/
def Aside : Req → Prop
  | .getAlbum _ | .updateAlbum _ | .deleteAlbumRow _ | .createAlbum _ | .deleteUser _ => False
  | _ => True

theorem aside_of_plain (r : Req) (h : Req.plain r = true) : Aside r := by cases r <;> trivial

theorem can_of_aside {g : Held} {r : Req} (h : Aside r) : (writeBack edit).can g r := by cases r <;> trivial

theorem next_of_aside {g : Held} (e : Call) (h : Aside e.req) : (writeBack edit).next g e = g := by
  obtain ⟨r, x, b⟩ := e
  cases r <;> first | rfl | exact h.elim

theorem wp_aside {β : Type} {Q : Except PyExc β → Held → Prop} {p : Prog α} {f : α → Prog β} {g : Held}
    (hp : p.Uses Aside) (hok : ∀ a, wp ((writeBack edit).machine Undisturbed) Q (f a) g) (herr : ∀ e, Q (.error e) g) :
    wp ((writeBack edit).machine Undisturbed) Q (p >>= f) g :=
  Protocol.wp_pass (fun _ => can_of_aside) next_of_aside hp hok herr

theorem wp_asides {p : Prog α} {g : Held} (hp : p.Uses Aside) :
    wp ((writeBack edit).machine Undisturbed) (fun _ g' => g' = g) p g :=
  Protocol.wp_stay (fun _ => can_of_aside) next_of_aside hp fun _ => rfl

/-! ## Every operation keeps to it -/

/-- Having read `s`. -/
def Held.holding (s : Album) : Held := { read := some s, written := none, gone := false }

theorem getAlbumOr404_reads {β : Type} {Q : Except PyExc β → Held → Prop} {f : Album → Prog β} (albumId : String)
    (hok : ∀ s, s.id = albumId → wp ((writeBack edit).machine Undisturbed) Q (f s) (.holding s))
    (herr : ∀ e, Q (.error e) .nothing) :
    wp ((writeBack edit).machine Undisturbed) Q (getAlbumOr404 albumId >>= f) .nothing := by
  rw [wp_bind]
  refine Protocol.wp_await rfl (fun found b h => ?_) fun e b _ => herr e
  cases found with
  | none => exact herr _
  | some s => exact hok s h.1.getAlbum_id

theorem updateAlbumOr404_writes {β : Type} {Q : Except PyExc β → Held → Prop} {f : Unit → Prog β} {s x : Album}
    (hx : x = edit s)
    (hok : wp ((writeBack edit).machine Undisturbed) Q (f ()) { Held.holding s with written := some (edit s) })
    (herr : ∀ e g, g.written = none → Q (.error e) g) :
    wp ((writeBack edit).machine Undisturbed) Q (updateAlbumOr404 x >>= f) (.holding s) := by
  subst hx
  rw [wp_bind, updateAlbumOr404, wp_bind, wp_attempt]
  refine (wp_perform _).mpr ⟨⟨rfl, s, rfl, rfl⟩, ?_⟩
  rintro (e | a) _ ⟨b, -, rfl⟩
  · cases e <;> exact herr _ _ rfl
  · exact hok

theorem getAlbumForUpload_reads {β : Type} {Q : Except PyExc β → Held → Prop} {f : Album → Prog β} (albumId : String)
    (actor : CurrentActor) (deleteToken : Option String)
    (hok : ∀ s, wp ((writeBack edit).machine Undisturbed) Q (f s) (.holding s))
    (herr : ∀ e g, g.written = none → Q (.error e) g) :
    wp ((writeBack edit).machine Undisturbed) Q (getAlbumForUpload albumId actor deleteToken >>= f) .nothing := by
  rw [wp_bind]
  refine Protocol.wp_await rfl (fun found b h => ?_) fun e b _ => herr e _ rfl
  cases found with
  | none => exact herr _ _ rfl
  | some s =>
    refine wp_aside (Program.uses_perform trivial) (fun now => ?_) fun e => herr e _ rfl
    refine wp_check (fun _ => herr _ _ rfl) fun _ => ?_
    exact wp_aside (requireUploadAccess_uses aside_of_plain _ _ _) (fun _ => hok s) fun e => herr e _ rfl

theorem aside_of_itemReads (r : Req) (h : Req.itemReads r = true) : Aside r := by
  cases r <;> trivial

theorem upload_writesBack (rt : Runtime) (input : UploadInput) (draws : Draws) {albumId : String}
    (halbum : input.albumId = some albumId) (hne : albumId ≠ "") :
    wp ((writeBack (edited (.upload input draws))).machine Undisturbed) (Ended (edited (.upload input draws)))
      (upload rt input draws) .nothing := by
  have hget : getOrCreateAlbum input.albumId input.title input.correlationId input.actor input.deleteToken draws =
      getAlbumForUpload albumId input.actor input.deleteToken := by
    simp only [getOrCreateAlbum, halbum, Option.filter_some, bne_iff_ne, ne_eq, hne, not_false_eq_true, if_true]
  refine wp_aside (readBoundedUpload_uses aside_of_plain _) (fun payload => ?_) fun _ => rfl
  refine wp_check (fun _ => rfl) fun _ => ?_
  refine wp_aside (enforceRateLimit_uses aside_of_plain _ _ _) (fun _ => ?_) fun _ => rfl
  refine wp_aside (enforceStorageQuotas_uses aside_of_plain _ _) (fun _ => ?_) fun _ => rfl
  rw [hget]
  refine getAlbumForUpload_reads _ _ _ (fun s => ?_) fun _ _ h => h
  -- the album was not created here, so nothing cleans it up
  have hinto : ((uploadInto rt input payload draws s).tryExcept fun e => do
      cleanUpAlbum input.albumId.isNone s
      Program.raise e).Uses Aside := by
    rw [halbum]
    exact Program.uses_tryExcept (uploadInto_uses aside_of_itemReads (fun _ _ => trivial) (fun _ _ => trivial)
      (fun _ => trivial) _ _ _ _) fun _ => trivial
  refine wp_aside hinto (fun media => ?_) fun _ => rfl
  refine updateAlbumOr404_writes rfl ?_ fun _ _ h => h
  exact ⟨s, rfl, .inr (.inl rfl)⟩

theorem updateAlbum_writesBack (albumId : String) (deleteToken : Option String) (correlationId : String)
    (actorUser : Option User) (patch : AlbumPatch) :
    wp ((writeBack (edited (.updateAlbum albumId deleteToken correlationId actorUser patch))).machine Undisturbed)
      (Ended (edited (.updateAlbum albumId deleteToken correlationId actorUser patch)))
      (updateAlbum albumId deleteToken correlationId actorUser patch) .nothing := by
  refine getAlbumOr404_reads albumId (fun s _ => ?_) fun _ => rfl
  refine wp_aside (requireAlbumAccess_uses aside_of_plain _ _ _ _) (fun _ => ?_) fun _ => rfl
  refine wp_aside (Program.uses_perform trivial) (fun items => ?_) fun _ => rfl
  refine wp_seq (wp_of_yields (patchTitle_yields s patch.title deleteToken correlationId actorUser)
    (wp_asides (patchTitle_uses aside_of_plain _ _ _ _ _))) (fun afterTitle g h => ?_) fun e g h => h.1 ▸ rfl
  obtain ⟨rfl, h⟩ := h
  obtain ⟨htitle, hsame⟩ := h afterTitle rfl
  refine wp_seq (wp_of_yields (patchCover_yields hsame patch.coverMediaId items deleteToken correlationId actorUser)
    (wp_asides (patchCover_uses aside_of_plain _ _ _ _ _ _ _))) (fun patched g h => ?_) fun e g h => h.1 ▸ rfl
  obtain ⟨rfl, h⟩ := h
  obtain ⟨hcover, hsame⟩ := h patched rfl
  have hedited : patched.1 = edited (.updateAlbum albumId deleteToken correlationId actorUser patch) s := by
    rw [hcover, htitle]; rfl
  rw [writeIfChanged]
  split
  · refine updateAlbumOr404_writes hedited ?_ fun _ _ h => h
    refine Protocol.wp_await trivial (fun items b h => ?_) fun e b h => (h.not_error rfl).elim
    exact ⟨s, rfl, .inr (.inl rfl)⟩
  · rename_i hno
    refine wp_aside trivial (fun _ => ?_) fun _ => rfl
    refine wp_aside (Program.uses_perform trivial) (fun items => ?_) fun _ => rfl
    exact ⟨s, rfl, .inr (.inr ⟨hedited.symm.trans (hsame (Bool.eq_false_iff.mpr hno)), rfl⟩)⟩

theorem reorderAlbum_writesBack (albumId : String) (deleteToken : Option String) (order : List (String × Int))
    (correlationId : String) (actorUser : Option User) :
    wp ((writeBack (edited (.reorderAlbum albumId deleteToken order correlationId actorUser))).machine Undisturbed)
      (Ended (edited (.reorderAlbum albumId deleteToken order correlationId actorUser)))
      (reorderAlbum albumId deleteToken order correlationId actorUser) .nothing := by
  refine getAlbumOr404_reads albumId (fun s _ => ?_) fun _ => rfl
  refine wp_aside (requireAlbumAccess_uses aside_of_plain _ _ _ _) (fun _ => ?_) fun _ => rfl
  refine wp_aside (Program.uses_perform trivial) (fun items => ?_) fun _ => rfl
  refine wp_check (fun _ => rfl) fun _ => ?_
  refine wp_value (fun positions _ => ?_) fun _ _ => rfl
  refine wp_aside (writePositions_uses (fun _ => trivial) positions) (fun reordered => ?_) fun _ => rfl
  refine updateAlbumOr404_writes rfl ?_ fun _ _ h => h
  refine Protocol.wp_await trivial (fun _ b h => ?_) fun e b h => (h.not_error rfl).elim
  exact ⟨s, rfl, .inr (.inl rfl)⟩

theorem sameExpiry_eq {stored : Option DateTime} {given : Option AwareDateTime} (h : sameExpiry stored given = true) :
    given.map (·.instant) = stored := by
  rw [← eq_of_beq h]
  cases stored <;> rfl

theorem adminUpdateAlbum_writesBack (albumId : String) (expiresAt : MaybeUnset (Option AwareDateTime))
    (correlationId : String) (actorId : Option String) :
    wp ((writeBack (edited (.adminUpdateAlbum albumId expiresAt correlationId actorId))).machine Undisturbed)
      (Ended (edited (.adminUpdateAlbum albumId expiresAt correlationId actorId)))
      (adminUpdateAlbum albumId expiresAt correlationId actorId) .nothing := by
  refine getAlbumOr404_reads albumId (fun s _ => ?_) fun _ => rfl
  cases expiresAt with
  | unset => exact ⟨s, rfl, .inr (.inr ⟨rfl, rfl⟩)⟩
  | set expiresAt =>
    dsimp only
    split
    · rename_i hsame
      refine ⟨s, rfl, .inr (.inr ⟨?_, rfl⟩)⟩
      simp only [edited, sameExpiry_eq hsame]
    · refine Protocol.wp_await ⟨rfl, s, rfl, rfl⟩ (fun _ b _ => ?_) fun e b _ => by cases e <;> rfl
      refine Protocol.wp_await trivial (fun _ b _ => ?_) fun e b h => (h.not_error rfl).elim
      exact ⟨s, rfl, .inr (.inl rfl)⟩

/-- The row that was removed is the one that was asked for. -/
theorem removeMedia_removes (mediaId : String) (deleteToken : Option String) (correlationId : String)
    (actorUser : Option User) (g : Held) :
    wp ((writeBack edit).machine Undisturbed) (fun x g' => g' = g ∧ ∀ m, x = .ok m → m.id = mediaId)
      (removeMedia mediaId deleteToken correlationId actorUser) g := by
  refine Protocol.wp_await trivial (fun deleted b h => ?_) fun e b _ => ⟨rfl, fun m h => nomatch h⟩
  cases deleted with
  | none => exact ⟨rfl, fun m h => nomatch h⟩
  | some deletedMedia =>
    refine wp_aside (deleteMediaStorageKeys_uses (fun _ => trivial) _) (fun _ => ?_) fun _ => ⟨rfl, fun m h => nomatch h⟩
    refine wp_aside (Program.uses_perform trivial) (fun _ => ⟨rfl, fun m hm => ?_⟩) fun _ => ⟨rfl, fun m h => nomatch h⟩
    obtain rfl := Except.ok.inj hm
    exact h.1.deleteMedia_id

theorem deleteMedia_writesBack (mediaId : String) (deleteToken : Option String) (correlationId : String)
    (actorUser : Option User) :
    wp ((writeBack (edited (.deleteMedia mediaId deleteToken correlationId actorUser))).machine Undisturbed)
      (Ended (edited (.deleteMedia mediaId deleteToken correlationId actorUser)))
      (deleteMedia mediaId deleteToken correlationId actorUser) .nothing := by
  refine wp_aside (getMediaOr404_uses aside_of_itemReads _) (fun media => ?_) fun _ => rfl
  refine getAlbumOr404_reads media.albumId (fun s _ => ?_) fun _ => rfl
  refine wp_aside (requireAlbumAccess_uses aside_of_plain _ _ _ _) (fun _ => ?_) fun _ => rfl
  refine wp_seq (removeMedia_removes mediaId deleteToken correlationId actorUser _) (fun deletedMedia g h => ?_)
    fun e g h => h.1 ▸ rfl
  obtain ⟨rfl, h⟩ := h
  have hid : deletedMedia.id = mediaId := h deletedMedia rfl
  refine wp_aside (Program.uses_perform trivial) (fun remainingItems => ?_) fun _ => rfl
  split
  · -- the album goes with its last item
    rw [deleteEmptiedAlbum, Repository.deleteAlbum, wp_bind]
    refine wp_aside (Program.uses_perform trivial) (fun rows => ?_) fun _ => rfl
    refine Protocol.wp_await ⟨s, rfl, rfl⟩ (fun row b _ => ?_) fun e b h => (h.not_error rfl).elim
    have hann : ∀ deleted, wp ((writeBack (edited (.deleteMedia mediaId deleteToken correlationId actorUser))).machine
        Undisturbed) (Ended (edited (.deleteMedia mediaId deleteToken correlationId actorUser)))
        (do announceEmptiedAlbum deleted deleteToken correlationId actorUser
            return { deletedMedia := deletedMedia, album := none, remainingItems := [], albumDeleted := true } :
          Prog MediaDeleteResult) { Held.holding s with gone := true } := fun deleted =>
      wp_aside (announceEmptiedAlbum_uses aside_of_plain _ _ _ _) (fun _ => ⟨s, rfl, .inl rfl⟩) fun _ => rfl
    cases row with
    | none => exact hann none
    | some album => exact hann (some album)
  · have hedited : (if s.coverMediaId = some deletedMedia.id then { s with coverMediaId := none } else s) =
        edited (.deleteMedia mediaId deleteToken correlationId actorUser) s := by rw [hid]; rfl
    simp only [keepAlbum]
    rw [hedited, wp_bind, wp_attempt]
    refine (wp_perform _).mpr ⟨⟨rfl, s, rfl, rfl⟩, ?_⟩
    rintro (e | a) _ ⟨b, -, rfl⟩
    · cases e with
      | lookupError => exact ⟨s, rfl, .inl rfl⟩
      | _ => rfl
    · exact ⟨s, rfl, .inr (.inl rfl)⟩

theorem ended_return {p : Prog α} {f : α → OpResult} {g : Held}
    (h : wp ((writeBack edit).machine Undisturbed) (Ended edit) p g) :
    wp ((writeBack edit).machine Undisturbed) (Ended edit) (p >>= fun a => pure (f a)) g :=
  wp_seq h (fun _ _ h => h) fun _ _ h => h

attribute [local irreducible] strip in
theorem program_writesBack (rt : Runtime) {albumId : String} {op : Op} (hop : OnAlbum albumId op) :
    wp ((writeBack (edited op)).machine Undisturbed) (Ended (edited op)) (op.program rt) .nothing := by
  cases op with
  | upload input draws => exact ended_return (upload_writesBack rt input draws hop.1 hop.2)
  | updateAlbum => exact ended_return (updateAlbum_writesBack _ _ _ _ _)
  | reorderAlbum => exact ended_return (reorderAlbum_writesBack _ _ _ _ _)
  | deleteMedia => exact ended_return (deleteMedia_writesBack _ _ _ _)
  | adminUpdateAlbum => exact ended_return (adminUpdateAlbum_writesBack _ _ _ _)
  | _ => exact hop.elim

/-! ## The album and the drafts of it -/

/-- What task `i` has read and written so far. -/
def heldOf (p : Site) (i : Nat) : Held := p.seen Held.next .nothing i

def shared (albumId : String) (p : Site) : Shared Album :=
  WriteBack.shared (·.id) (fun w => w.albums.find?) Held.next .nothing Held.draft albumId p

def writtenAlbum : Req → Option Album
  | .updateAlbum album => some album
  | _ => none

instance (c : Column) : DecidableEq c.Value :=
  match c with
  | .title => inferInstanceAs (DecidableEq (Option String))
  | .coverMediaId => inferInstanceAs (DecidableEq (Option String))
  | .expiresAt => inferInstanceAs (DecidableEq (Option DateTime))

/-- No database or storage call fails, and a row that is written back with a column as it
    was read replaces a row that still holds that value. -/
def Fresh (c : Column) (p : Site) (i : Nat) (r : Req) (fault : Option PyExc) : Prop :=
  NoFaults p i r fault ∧ ∀ x ∈ writtenAlbum r, ∀ s ∈ (heldOf p i).read, ∀ row ∈ p.world.albums.find? x.id,
    c.get x = c.get s → c.get row = c.get s

instance (c : Column) (p : Site) (i : Nat) (r : Req) (fault : Option PyExc) : Decidable (Fresh c p i r fault) := by
  unfold Fresh; infer_instance

section

variable {p : Site} {i : Nat} {t : Task Reply PyExc OpResult} {r : Req} {k : Except PyExc (Reply r) → Prog OpResult}
  {fault : Option PyExc} {albumId : String} {c : Column}

theorem heldOf_eq (ht : p.tasks[i]? = some t) : heldOf p i = (writeBack edit).after .nothing t.log :=
  Pool.seen_eq ht

/-- One call of an operation that follows `writeBack`, seen from one column of one album. -/
theorem step_shared (hedit : ∀ s, (edit s).id = s.id) (ht : p.tasks[i]? = some t)
    (hcan : (writeBack edit).can (heldOf p i) r) (hfresh : Fresh c p i r fault) :
    Shared.Step c.get (shared albumId p) (shared albumId (p.advance backend i t r k fault)) := by
  cases r
  case getAlbum a =>
    have hnothing : p.seen Held.next .nothing i = .nothing := hcan
    refine WriteBack.step_read ht (by rw [answer_albums rfl]) (by rw [hnothing]; rfl) ?_
    rw [hnothing]
    rcases (backend.answer i (.getAlbum a) fault p.world).1 with e | s | s <;> rfl
  case updateAlbum x =>
    obtain ⟨hwritten, s, hs, rfl⟩ := hcan
    have hbefore : (heldOf p i).draft = { read := some s, written := none } := by rw [Held.draft, hs, hwritten]
    rcases hx : (backend.answer i (.updateAlbum (edit s)) fault p.world).1 with e | a
    · refine WriteBack.step_quiet ht (.inl (by rw [updateAlbum_error hx])) ?_
      rw [hx]
      cases e <;> rfl
    obtain ⟨row, hrow, hfind⟩ := find?_updateAlbum hx
    rw [hedit s] at hrow hfind
    refine WriteBack.step_write ht (x := edit s) hbefore ?_ hrow (hfind albumId) ?_ fun h => ?_
    · rw [hx]
      exact congrArg (fun read => ({ read := read, written := some (edit s) } : Draft Album)) hs
    · cases c <;> rfl
    · exact hfresh.2 _ rfl s hs row (by rw [hedit s]; exact hrow) h
  case deleteAlbumRow a =>
    refine WriteBack.step_quiet ht ?_ ?_
    · rcases answer_cases i (.deleteAlbumRow a) fault p.world with ha | ⟨e, -, ha⟩
      · rw [ha, find?_deleteAlbumRow]
        split
        · exact .inr rfl
        · exact .inl rfl
      · exact .inl (by rw [ha]; rfl)
    · rcases (backend.answer i (.deleteAlbumRow a) fault p.world).1 with e | d <;> rfl
  case createAlbum a => exact hcan.elim
  case deleteUser u => exact hcan.elim
  all_goals exact WriteBack.step_quiet ht (.inl (by rw [answer_albums rfl])) rfl

/-- An album an operation knows to be gone stays away. -/
def GoneStays (p : Site) : Prop :=
  ∀ i s, (heldOf p i).gone = true → (heldOf p i).read = some s → p.world.albums.find? s.id = none

theorem goneStays_advance (hedit : ∀ s, (edit s).id = s.id) (hgone : GoneStays p) (ht : p.tasks[i]? = some t)
    (hcan : (writeBack edit).can (heldOf p i) r) (hquiet : NoFaults p i r fault) :
    GoneStays (p.advance backend i t r k fault) := by
  have hcreate : ∀ a, r ≠ .createAlbum a := fun a e => by subst e; exact hcan
  intro j s hg hs
  change (backend.answer i r fault p.world).2.albums.find? s.id = none
  by_cases h : j = i
  swap
  · rw [heldOf, Pool.seen_advance_of_ne h] at hg hs
    exact album_stays_away hcreate (hgone j s hg hs)
  subst h
  rw [heldOf, Pool.seen_advance_self ht] at hg hs
  cases r
  case getAlbum a =>
    rw [show p.seen Held.next .nothing j = .nothing from hcan] at hg
    rcases hx : (backend.answer j (.getAlbum a) fault p.world).1 with e | a' | a' <;> rw [hx] at hg <;> cases hg
  case updateAlbum x =>
    obtain ⟨-, s', hs', rfl⟩ := hcan
    rcases hx : (backend.answer j (.updateAlbum (edit s')) fault p.world).1 with e | a
    · rw [updateAlbum_error hx]
      rw [hx] at hg hs
      cases e with
      | lookupError msg =>
        -- found missing by this very write
        obtain rfl : s' = s := Option.some.inj (hs'.symm.trans hs)
        have hmissing : (exec j (.updateAlbum (edit s')) p.world).1 = .error (.lookupError msg) := by
          rcases hquiet with rfl | h
          · exact hx
          · cases h
        rw [← hedit s']
        exact updateAlbum_lookupError hmissing
      | _ => exact hgone j s hg hs
    · rw [hx] at hg hs
      exact album_stays_away hcreate (hgone j s hg hs)
  case deleteAlbumRow a =>
    obtain ⟨s', hs', rfl⟩ := hcan
    rcases hx : (backend.answer j (.deleteAlbumRow s'.id) fault p.world).1 with e | d
    · rw [hx] at hg hs
      exact album_stays_away hcreate (hgone j s hg hs)
    · rw [hx] at hs
      obtain rfl : s' = s := Option.some.inj (hs'.symm.trans hs)
      rw [answer_of_ok hx, find?_deleteAlbumRow, if_pos rfl]
  all_goals exact album_stays_away hcreate (hgone j s hg hs)

end

/-! ## Runs -/

/-- What operation `i` of `ops` writes back. -/
def editOf (ops : List Op) (i : Nat) : Album → Album :=
  match ops[i]? with
  | some op => edited op
  | none => id

theorem editOf_id (ops : List Op) (i : Nat) (s : Album) : (editOf ops i s).id = s.id := by
  unfold editOf
  cases ops[i]? with
  | some op => exact edited_id op s
  | none => rfl

/-- Operation `i` returned, and the row it meant to write differs in the column from the
    row of the album it had read: there it has the value `v`. -/
def SetsOut (ops : List Op) (albumId : String) (c : Column) (p : Site) (i : Nat) (v : c.Value) : Prop :=
  ∃ t x s, p.tasks[i]? = some t ∧ t.rest.outcome = some (.ok x) ∧ (heldOf p i).read = some s ∧ s.id = albumId ∧
    c.get (editOf ops i s) ≠ c.get s ∧ v = c.get (editOf ops i s)

/-- No update of the column is lost: it holds what the only operation that set out to
    change it wrote, and what it held at first when there is no such operation. -/
def NothingLost (ops : List Op) (albumId : String) (c : Column) (w : World) (p : Site) : Prop :=
  ∀ first now, w.albums.find? albumId = some first → p.world.albums.find? albumId = some now →
    (∀ i v, SetsOut ops albumId c p i v → (∀ j u, SetsOut ops albumId c p j u → j = i) → c.get now = v) ∧
      ((∀ i v, ¬ SetsOut ops albumId c p i v) → c.get now = c.get first)

/-- In a finished run, the drafts that move the column are those of the operations that
    set out to change it. -/
theorem moves_iff_setsOut {ops : List Op} {albumId : String} {c : Column} {p : Site} {now : Album} {i : Nat}
    {v : c.Value} (hfinished : p.finished = true) (hnow : p.world.albums.find? albumId = some now)
    (hgone : GoneStays p)
    (hfollows : p.Follows (fun i => writeBack (editOf ops i)) Undisturbed (fun i => Ended (editOf ops i)) fun _ => .nothing) :
    ((shared albumId p).drafts i).Moves c.get v ↔ SetsOut ops albumId c p i v := by
  constructor
  · rintro ⟨s, x, hs, hx, hne, rfl⟩
    obtain ⟨hdraft, hid⟩ := WriteBack.of_drafts_read hs
    rw [shared, hdraft] at hs hx
    change (heldOf p i).read = some s at hs
    change (heldOf p i).written = some x at hx
    rcases ht : p.tasks[i]? with _ | t
    · rw [heldOf, Pool.seen, ht] at hs; cases hs
    have hdone : t.rest.finished = true := List.all_eq_true.mp hfinished t (List.mem_of_getElem? ht)
    obtain ⟨y, hy⟩ := Option.isSome_iff_exists.mp hdone
    have hended := hfollows.done ht hy
    rw [← heldOf_eq ht] at hended
    cases y with
    | error e => rw [show (heldOf p i).written = none from hended] at hx; cases hx
    | ok y =>
      obtain ⟨s', hs', h⟩ := hended
      obtain rfl := Option.some.inj (hs'.symm.trans hs)
      rcases h with h | h | ⟨-, h⟩
      · have := hgone i s' h hs'
        rw [hid, hnow] at this
        cases this
      · obtain rfl := Option.some.inj (h.symm.trans hx)
        exact ⟨t, y, s', ht, hy, hs', hid, hne, rfl⟩
      · rw [h] at hx; cases hx
  · rintro ⟨t, x, s, ht, hx, hs, hid, hne, rfl⟩
    have hended := hfollows.done ht hx
    rw [← heldOf_eq ht] at hended
    obtain ⟨s', hs', h⟩ := hended
    obtain rfl := Option.some.inj (hs'.symm.trans hs)
    rcases h with h | h | ⟨h, -⟩
    · have := hgone i s' h hs'
      rw [hid, hnow] at this
      cases this
    · have hdraft : (shared albumId p).drafts i = (heldOf p i).draft := WriteBack.drafts_eq hs' hid
      exact ⟨s', editOf ops i s', by rw [hdraft]; exact hs', by rw [hdraft]; exact h, hne, rfl⟩
    · rw [h] at hne; exact absurd rfl hne

/-- In every run of these operations in which a row that is written back is fresh in every
    column its writer leaves alone, no update is lost. -/
theorem no_album_update_is_lost (rt : Runtime) (w : World) (ops : List Op) (albumId : String) (c : Column)
    (cs : List (Choice PyExc)) (hops : ∀ op ∈ ops, OnAlbum albumId op)
    (hfresh : (Site.start rt w ops).Meets backend (Fresh c) cs)
    (hfinished : ((Site.start rt w ops).run backend cs).finished = true) :
    NothingLost ops albumId c w ((Site.start rt w ops).run backend cs) := by
  intro first now hfirst hnow
  have h := Pool.run_invariant (B := backend) (C := Fresh c)
    (I := fun p => Shared.Settled c.get (c.get first) (shared albumId p) ∧ GoneStays p ∧
      p.Follows (fun i => writeBack (editOf ops i)) Undisturbed (fun i => Ended (editOf ops i)) fun _ => .nothing)
    (fun p d h => h) (fun p i t r k fault h ht hr hc => ?_) ?_ hfresh
  · obtain ⟨hsettled, hgone, hfollows⟩ := h
    have hmoves := fun i v => moves_iff_setsOut (c := c) (i := i) (v := v) hfinished hnow hgone hfollows
    refine ⟨fun i v hi honly => ?_, fun hnone => ?_⟩
    · exact hsettled.value_of_only hnow ((hmoves i v).mpr hi) fun j u hj => honly j u ((hmoves j u).mp hj)
    · exact hsettled.unmoved now hnow fun i v hm => hnone i v ((hmoves i v).mp hm)
  · obtain ⟨hsettled, hgone, hfollows⟩ := h
    have hcan := hfollows.can ht hr
    rw [← heldOf_eq ht] at hcan
    exact ⟨hsettled.step (step_shared (editOf_id ops i) ht hcan hc),
      goneStays_advance (editOf_id ops i) hgone ht hcan hc.1, hfollows.advance ht hr (undisturbed_answer hc.1)⟩
  · have hnothing : ∀ i, heldOf (Site.start rt w ops) i = .nothing := Pool.seen_start w _
    refine ⟨Shared.settled_start (fun row hrow => ?_) fun i => ?_, fun i s hg _ => ?_, Site.start_follows fun i op hop => ?_⟩
    · rw [Option.some.inj (hfirst.symm.trans hrow)]
    · rw [shared, WriteBack.shared]
      simp only [show (Site.start rt w ops).seen Held.next .nothing i = .nothing from hnothing i]
      rfl
    · rw [hnothing] at hg; cases hg
    · rw [show editOf ops i = edited op by rw [editOf, hop]]
      exact program_writesBack rt (hops op (List.mem_of_getElem? hop))

/-! ## An upload writes back an old title -/

def oneAlbum : World := { Sample.world with albums := .single Sample.album }

/-- An item is appended while the album gets a title. -/
def uploadAndRetitle : List Op :=
  [.upload (Sample.uploadTo (some "a")) Sample.firstDraws,
    .updateAlbum "a" (some "t") "c" none { title := .set (some "new"), coverMediaId := .unset }]

/-- The upload reads the album, the title is changed, the upload goes on. -/
def retitleDuringUpload : List (Choice PyExc) := Sample.calls 0 4 ++ Sample.calls 1 6 ++ Sample.calls 0 11

/-- Only `update_album` set out to change the title, and returned; the upload puts the old
    one back. -/
theorem an_upload_writes_back_the_old_title :
    (∀ op ∈ uploadAndRetitle, OnAlbum "a" op) ∧
      (Site.start Sample.runtime oneAlbum uploadAndRetitle).Meets backend NoFaults retitleDuringUpload ∧
      ((Site.start Sample.runtime oneAlbum uploadAndRetitle).run backend retitleDuringUpload).finished = true ∧
      ¬ NothingLost uploadAndRetitle "a" .title oneAlbum
        ((Site.start Sample.runtime oneAlbum uploadAndRetitle).run backend retitleDuringUpload) := by
  refine ⟨fun op hop => ?_, by decide +kernel, by decide +kernel, fun h => ?_⟩
  · simp only [uploadAndRetitle, List.mem_cons, List.not_mem_nil, or_false] at hop
    rcases hop with rfl | rfl
    · exact ⟨rfl, by decide⟩
    · rfl
  · have hupdate : SetsOut uploadAndRetitle "a" .title
        ((Site.start Sample.runtime oneAlbum uploadAndRetitle).run backend retitleDuringUpload) 1 (some "new") :=
      ⟨_, _, Sample.album, rfl, rfl, rfl, rfl, by decide +kernel,
        (by decide +kernel : some "new" = (editOf uploadAndRetitle 1 Sample.album).title)⟩
    have honly : ∀ j u, SetsOut uploadAndRetitle "a" .title
        ((Site.start Sample.runtime oneAlbum uploadAndRetitle).run backend retitleDuringUpload) j u → j = 1 := by
      rintro (_ | _ | j) u ⟨t, x, s, ht, -, hs, -, hne, -⟩
      · -- the upload was given no title
        refine absurd ?_ hne
        simp only [uploadAndRetitle, editOf, List.getElem?_cons_zero, edited, titled, Sample.uploadTo, truthy,
          Bool.and_false, Bool.false_eq_true, if_false]
      · rfl
      · cases ht
    have htitle := (h Sample.album Sample.album rfl (by decide +kernel)).1 1 _ hupdate honly
    cases htitle

/-- The same operations, one after the other. -/
def retitleAfterUpload : List (Choice PyExc) := Sample.calls 0 15 ++ Sample.calls 1 6

theorem a_title_changed_after_the_upload_stays :
    NothingLost uploadAndRetitle "a" .title oneAlbum
      ((Site.start Sample.runtime oneAlbum uploadAndRetitle).run backend retitleAfterUpload) := by
  refine no_album_update_is_lost Sample.runtime oneAlbum uploadAndRetitle "a" .title retitleAfterUpload (fun op hop => ?_)
    (by decide +kernel) (by decide +kernel)
  simp only [uploadAndRetitle, List.mem_cons, List.not_mem_nil, or_false] at hop
  rcases hop with rfl | rfl
  · exact ⟨rfl, by decide⟩
  · rfl

end Imghost.Concurrency.AlbumColumns
