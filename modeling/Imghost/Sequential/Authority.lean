/-
  Imghost.Sequential.Authority — who can change an album.

  An album is guarded by its owner or, if it has none, by its delete token. Every row
  an operation writes is guarded, because every row it reads is (`reachable_guarded`,
  over every interleaving). The check of `_require_album_access` looks at the token only
  where the row has one, so this is what makes the check mean anything: an operation
  that runs alone and changes an album was let through by it (`Permitted`).
-/

import Imghost.Service.Alone
import Imghost.Service.Positions

namespace Imghost.Sequential.Authority

open Imghost.Async Imghost.Data Imghost.Model Imghost.Service

variable {α : Type}

/-! ## Owned albums have no token, the others have one -/

def Guarded (album : Album) : Prop :=
  match album.userId with
  | some _ => album.deleteToken = none
  | none => ∃ token, album.deleteToken = some token ∧ token ≠ ""

/-- Every album of the database is guarded. -/
def TokensMatchOwners (w : World) : Prop := ∀ album ∈ w.albums, Guarded album

theorem guarded_congr {a b : Album} (hu : b.userId = a.userId) (ht : b.deleteToken = a.deleteToken) (h : Guarded a) :
    Guarded b := by
  rw [Guarded, hu, ht]
  exact h

theorem newAlbum_guarded (title : Option String) (user : Option User) (draws : Draws) (now : DateTime)
    (expiresAt : Option DateTime) : Guarded (newAlbum title user draws now expiresAt) := by
  cases user with
  | none => exact ⟨_, rfl, tokenUrlsafe_ne_empty _⟩
  | some user => rfl

theorem titled_guarded {album : Album} (title : Option String) (h : Guarded album) : Guarded (titled album title) := by
  apply guarded_congr _ _ h <;> (unfold titled; split <;> rfl)

/-! ## Operations write guarded rows -/

def guarding : Protocol Reply PyExc Unit where
  can _ r :=
    match r with
    | .createAlbum album | .updateAlbum album => Guarded album
    | _ => True
  next _ _ := ()

/-- A row that was read is guarded. -/
def Told : Call → Prop
  | ⟨.getAlbum _, .ok (some album), _⟩ => Guarded album
  | _ => True

abbrev Guards (p : Prog α) : Prop := wp (guarding.machine Told) (fun _ _ => True) p ()

/-- A call that writes no album row. -/
def Unguarded : Req → Prop
  | .createAlbum _ | .updateAlbum _ => False
  | _ => True

theorem can_of_unguarded {g : Unit} {r : Req} (h : Unguarded r) : guarding.can g r := by
  cases r <;> trivial

theorem unguarded_of_reads (r : Req) (h : Req.reads r = true) : Unguarded r := by cases r <;> trivial

theorem guards_of_uses {p : Prog α} (hp : p.Uses Unguarded) : Guards p :=
  Protocol.wp_any (fun _ _ => can_of_unguarded) hp fun _ _ => trivial

/-- What comes first writes no album row. -/
theorem guards_after {β : Type} {p : Prog α} {f : α → Prog β} (hp : p.Uses Unguarded) (hf : ∀ a, Guards (f a)) :
    Guards (p >>= f) :=
  wp_seq (guards_of_uses hp) (fun a _ _ => hf a) fun _ _ _ => trivial

theorem guards_bind {β : Type} {p : Prog α} {f : α → Prog β} {P : α → Prop}
    (hp : wp (guarding.machine Told) (fun x _ => ∀ a, x = .ok a → P a) p ()) (hf : ∀ a, P a → Guards (f a)) :
    Guards (p >>= f) :=
  wp_seq hp (fun a _ h => hf a (h a rfl)) fun _ _ _ => trivial

theorem getAlbumOr404_told (albumId : String) :
    wp (guarding.machine Told) (fun x _ => ∀ album, x = .ok album → Guarded album) (getAlbumOr404 albumId) () := by
  refine Protocol.wp_await trivial (fun found b h => ?_) fun e b _ album ha => nomatch ha
  cases found with
  | none => exact fun album ha => nomatch ha
  | some found =>
    intro album ha
    rw [← Except.ok.inj ha]
    exact h

theorem updateAlbumOr404_guards {album : Album} (h : Guarded album) : Guards (updateAlbumOr404 album) := by
  refine wp_seq (R := fun _ _ => True) ?_ (fun result _ _ => ?_) fun _ _ _ => trivial
  · rw [wp_attempt]
    exact (wp_perform _).mpr ⟨h, fun _ _ _ => trivial⟩
  · split <;> trivial

theorem getOrCreateAlbum_told (albumId title : Option String) (correlationId : String) (actor : CurrentActor)
    (deleteToken : Option String) (draws : Draws) :
    wp (guarding.machine Told) (fun x _ => ∀ album, x = .ok album → Guarded album)
      (getOrCreateAlbum albumId title correlationId actor deleteToken draws) () := by
  have hplain := plain_of_reads unguarded_of_reads
  have other : ∀ {β : Type} {p : Prog β} {f : β → Prog Album}, p.Uses Unguarded →
      (∀ b, wp (guarding.machine Told) (fun x _ => ∀ album, x = .ok album → Guarded album) (f b) ()) →
      wp (guarding.machine Told) (fun x _ => ∀ album, x = .ok album → Guarded album) (p >>= f) () :=
    fun hp hf => wp_seq (guards_of_uses hp) (fun b _ _ => hf b) fun _ _ _ _ ha => nomatch ha
  unfold getOrCreateAlbum
  split
  · refine Protocol.wp_await trivial (fun found b h => ?_) fun e b _ album ha => nomatch ha
    cases found with
    | none => exact fun album ha => nomatch ha
    | some found =>
      refine other (uses_plain hplain rfl) fun now => wp_check (fun _ album ha => nomatch ha) fun _ => ?_
      refine other (requireUploadAccess_uses hplain _ _ _) fun _ album ha => ?_
      rw [← Except.ok.inj ha]
      exact h
  · refine other (uses_plain hplain rfl) fun now => other (newAlbumExpiry_uses hplain _ _) fun expiresAt => ?_
    have hnew := newAlbum_guarded title actor.user draws now expiresAt
    refine Protocol.wp_await hnew (fun _ b _ => ?_) fun e b _ album ha => nomatch ha
    refine other (uses_plain hplain rfl) fun _ album ha => ?_
    rw [← Except.ok.inj ha]
    exact hnew

theorem upload_guards (rt : Runtime) (input : UploadInput) (draws : Draws) : Guards (upload rt input draws) := by
  have hplain := plain_of_reads unguarded_of_reads
  have hitems := itemReads_of_reads unguarded_of_reads
  refine guards_after (readBoundedUpload_uses hplain _) fun payload => guards_after (Program.uses_raiseIf _ _) fun _ => ?_
  refine guards_after (enforceRateLimit_uses hplain _ _ _) fun _ => ?_
  refine guards_after (enforceStorageQuotas_uses hplain _ _) fun _ => ?_
  refine guards_bind (getOrCreateAlbum_told _ _ _ _ _ _) fun album halbum => ?_
  refine guards_after ?_ fun media => ?_
  · exact Program.uses_tryExcept
      (uploadInto_uses hitems (fun _ _ => trivial) (fun _ _ => trivial) (fun _ => trivial) _ _ _ _)
      fun e => Program.uses_bind (cleanUpAlbum_uses hitems trivial _) fun _ => trivial
  · exact wp_seq (updateAlbumOr404_guards (titled_guarded input.title halbum)) (fun _ _ _ => trivial) fun _ _ _ => trivial

theorem updateAlbum_guards (albumId : String) (deleteToken : Option String) (correlationId : String)
    (actorUser : Option User) (patch : AlbumPatch) :
    Guards (updateAlbum albumId deleteToken correlationId actorUser patch) := by
  have hplain := plain_of_reads unguarded_of_reads
  refine guards_bind (getAlbumOr404_told albumId) fun album halbum => ?_
  refine guards_after (requireAlbumAccess_uses hplain _ _ _ _) fun _ => ?_
  refine guards_after (uses_ask unguarded_of_reads rfl) fun items => ?_
  refine wp_seq (wp_of_yields (patchTitle_yields album patch.title deleteToken correlationId actorUser)
    (guards_of_uses (patchTitle_uses hplain _ _ _ _ _))) (fun afterTitle _ h => ?_) fun _ _ _ => trivial
  obtain ⟨-, h⟩ := h
  obtain ⟨htitle, hsame⟩ := h afterTitle rfl
  refine wp_seq (wp_of_yields (patchCover_yields hsame patch.coverMediaId items deleteToken correlationId actorUser)
    (guards_of_uses (patchCover_uses hplain _ _ _ _ _ _ _))) (fun patched _ h => ?_) fun _ _ _ => trivial
  obtain ⟨-, h⟩ := h
  have hpatched : Guarded patched.1 := by
    rw [(h patched rfl).1, htitle]
    exact halbum
  refine wp_seq (R := fun _ _ => True) ?_ (fun _ _ _ => ?_) fun _ _ _ => trivial
  · unfold writeIfChanged
    split
    · exact updateAlbumOr404_guards hpatched
    · trivial
  · exact guards_after (uses_ask unguarded_of_reads rfl) fun _ => trivial

theorem reorderAlbum_guards (albumId : String) (deleteToken : Option String) (order : List (String × Int))
    (correlationId : String) (actorUser : Option User) :
    Guards (reorderAlbum albumId deleteToken order correlationId actorUser) := by
  refine guards_bind (getAlbumOr404_told albumId) fun album halbum => ?_
  refine guards_after (requireAlbumAccess_uses (plain_of_reads unguarded_of_reads) _ _ _ _) fun _ => ?_
  refine guards_after (uses_ask unguarded_of_reads rfl) fun items => guards_after (Program.uses_raiseIf _ _) fun _ => ?_
  refine guards_after (Program.uses_ofExcept _) fun positions => ?_
  refine guards_after (writePositions_uses (fun _ => trivial) positions) fun reordered => ?_
  refine wp_seq (updateAlbumOr404_guards halbum) (fun _ _ _ => ?_) fun _ _ _ => trivial
  exact guards_after (uses_ask unguarded_of_reads rfl) fun _ => trivial

theorem deleteMedia_guards (mediaId : String) (deleteToken : Option String) (correlationId : String)
    (actorUser : Option User) : Guards (deleteMedia mediaId deleteToken correlationId actorUser) := by
  have hplain := plain_of_reads unguarded_of_reads
  have hitems := itemReads_of_reads unguarded_of_reads
  refine guards_after (getMediaOr404_uses hitems _) fun media => ?_
  refine guards_bind (getAlbumOr404_told media.albumId) fun album halbum => ?_
  refine guards_after (requireAlbumAccess_uses hplain _ _ _ _) fun _ => ?_
  refine guards_after (removeMedia_uses hplain trivial (fun _ => trivial) _ _ _) fun deletedMedia => ?_
  refine guards_after (uses_ask unguarded_of_reads rfl) fun remainingItems => ?_
  split
  · exact guards_of_uses (deleteEmptiedAlbum_uses hitems trivial _ _ _ _)
  · have hkept : Guarded (if album.coverMediaId = some deletedMedia.id then { album with coverMediaId := none }
        else album) := by
      split
      · exact halbum
      · exact halbum
    refine wp_seq (R := fun _ _ => True) ?_ (fun result _ _ => ?_) fun _ _ _ => trivial
    · rw [wp_attempt]
      exact (wp_perform _).mpr ⟨hkept, fun _ _ _ => trivial⟩
    · split <;> trivial

theorem adminUpdateAlbum_guards (albumId : String) (expiresAt : MaybeUnset (Option AwareDateTime))
    (correlationId : String) (actorId : Option String) :
    Guards (adminUpdateAlbum albumId expiresAt correlationId actorId) := by
  refine guards_bind (getAlbumOr404_told albumId) fun album halbum => ?_
  cases expiresAt with
  | unset => trivial
  | set expiresAt =>
    dsimp only
    split
    · trivial
    · refine Protocol.wp_await (Q := fun _ _ => True) halbum (fun _ b _ => ?_) fun _ _ _ => trivial
      exact guards_after (uses_ask unguarded_of_reads rfl) fun _ => trivial

attribute [local irreducible] strip validateUserInput updatedPasswordHash in
theorem program_guards (rt : Runtime) (op : Op) : Guards (op.program rt) := by
  have hreturn : ∀ {β : Type} {p : Prog β} {f : β → OpResult}, Guards p → Guards (p >>= fun a => pure (f a)) :=
    fun h => wp_seq h (fun _ _ _ => trivial) fun _ _ _ => trivial
  have hother : (∀ a, ¬ op.writes (.createAlbum a)) → (∀ a, ¬ op.writes (.updateAlbum a)) → Guards (op.program rt) := by
    intro hcreate hupdate
    refine guards_of_uses ((program_footprint rt op).mono fun r hr => ?_)
    rcases hr with hr | hr
    · exact unguarded_of_reads r hr
    · cases r <;> first | trivial | exact hcreate _ hr | exact hupdate _ hr
  cases op with
  | upload input draws => exact hreturn (upload_guards rt input draws)
  | updateAlbum => exact hreturn (updateAlbum_guards _ _ _ _ _)
  | reorderAlbum => exact hreturn (reorderAlbum_guards _ _ _ _ _)
  | deleteMedia => exact hreturn (deleteMedia_guards _ _ _ _)
  | adminUpdateAlbum => exact hreturn (adminUpdateAlbum_guards _ _ _ _)
  | _ => exact hother (fun _ h => h) fun _ h => h

/-! ## Every reachable row is guarded -/

theorem guarded_answer {w : World} {i : Nat} {r : Req} {fault : Option PyExc} (hw : TokensMatchOwners w)
    (hcan : guarding.can () r) : TokensMatchOwners (backend.answer i r fault w).2 := by
  by_cases hr : Req.changesAlbums r = false
  · rw [TokensMatchOwners, answer_albums hr]; exact hw
  rcases answer_cases i r fault w with ha | ⟨e, -, ha⟩
  swap
  · rw [ha]; exact hw
  have hdrop : ∀ p, ∀ album ∈ (w.dropAlbums p).albums, Guarded album := fun p album h =>
    hw album (mem_dropAlbums_albums.mp h).1
  cases r <;> first | exact absurd rfl hr | skip
  case createAlbum a =>
    rw [ha]
    simp only [exec, World.createAlbum]
    split
    · exact hw
    split
    · rename_i t ht
      intro album hmem
      rcases (Table.mem_insert ht).mp hmem with hmem | rfl
      · exact hw album hmem
      · exact hcan
    · exact hw
  case updateAlbum a =>
    rw [ha]
    simp only [exec, World.updateAlbum]
    split
    · exact hw
    split
    · exact hw
    · intro album hmem
      obtain ⟨row, hrow, rfl⟩ := (@Table.mem_update _ _ _ _ _ _ _ (w.setAlbum_id a) _).mp hmem
      split
      · exact hcan
      · exact hw row hrow
  case deleteAlbumRow b => rw [ha]; exact hdrop _
  case deleteUser u =>
    rw [ha]
    simp only [exec, World.deleteUser]
    split
    · exact hw
    · exact hdrop _

theorem told_answer {w : World} {i : Nat} {r : Req} {fault : Option PyExc} (hw : TokensMatchOwners w) :
    Told ⟨r, (backend.answer i r fault w).1, fault.isSome⟩ := by
  cases r <;> first | trivial | skip
  case getAlbum albumId =>
    rcases hx : (backend.answer i (.getAlbum albumId) fault w).1 with e | found
    · trivial
    · cases found with
      | none => trivial
      | some album => exact hw album (Table.find?_mem (Except.ok.inj (exec_of_ok hx)))

/-- Operations leave every album guarded, however they interleave and whatever fails. -/
theorem reachable_guarded (rt : Runtime) (w : World) (ops : List Op) (cs : List (Choice PyExc))
    (hw : TokensMatchOwners w) : TokensMatchOwners ((Site.start rt w ops).run backend cs).world := by
  have h := Pool.run_invariant (B := backend) (C := fun _ _ _ _ => True)
    (I := fun p : Site => TokensMatchOwners p.world ∧ p.Follows (fun _ => guarding) Told (fun _ _ _ => True) fun _ => ())
    (fun p d h => h) (fun p i t r k fault h ht hr _ => ?_) ⟨hw, ?_⟩ (Pool.meets_true (Site.start rt w ops) cs)
  · exact h.1
  · have hcan : guarding.can () r := h.2.can ht hr
    exact ⟨guarded_answer h.1 hcan, h.2.advance ht hr (told_answer h.1)⟩
  · exact Site.start_follows fun i op _ => program_guards rt op

/-! ## Calls about another album -/

/-- The row of the album `albumId` and those of its items are as they were. -/
structure Spared (albumId : String) (w w' : World) : Prop where
  album : w'.albums.find? albumId = w.albums.find? albumId
  media : w'.mediaOf albumId = w.mediaOf albumId

variable {albumId : String} {w w₀ w₁ w₂ : World}

theorem Spared.trans (h : Spared albumId w₀ w₁) (h' : Spared albumId w₁ w₂) : Spared albumId w₀ w₂ :=
  ⟨h'.album.trans h.album, h'.media.trans h.media⟩

theorem spared_of_same (h : Same w w₁) : Spared albumId w w₁ := ⟨by rw [h.albums], h.mediaOf albumId⟩

/-- A call that changes no other album than `b`, nor items of another one. -/
def OnlyAlbum (b : String) : Req → Prop
  | .createAlbum a | .updateAlbum a => a.id = b
  | .deleteAlbumRow id | .updateMediaPositions id _ => id = b
  | .insertMedia m => m.albumId = b
  | .deleteMedia _ | .updateMediaThumbnailState _ _ _ _ _ | .deleteUser _ => False
  | _ => True

theorem onlyAlbum_of_reads {b : String} (r : Req) (h : Req.reads r = true) : OnlyAlbum b r := by
  cases r <;> trivial

/-- Moving the items of another album moves none of this one. -/
theorem mediaOf_setPositions {b : String} (hne : b ≠ albumId) (ps : List (String × Int)) (rows : List Media) :
    (rows.map (World.setPositions b ps)).filter (·.albumId == albumId) = rows.filter (·.albumId == albumId) := by
  induction rows with
  | nil => rfl
  | cons m rows ih =>
    have halbum : (World.setPositions b ps m).albumId = m.albumId := (sameItem_setPositions b ps m).albumId
    by_cases hm : m.albumId = albumId
    · have hother : World.setPositions b ps m = m := setPositions_other (by rw [hm]; exact Ne.symm hne)
      simp only [List.map_cons, hother, List.filter_cons, hm, beq_self_eq_true, if_true, ih]
    · simp only [List.map_cons, List.filter_cons, halbum, beq_eq_false_iff_ne.mpr hm, Bool.false_eq_true, if_false, ih]

theorem spared_dropAlbum {b : String} (hne : b ≠ albumId) : Spared albumId w (w.dropAlbums (·.id == b)) := by
  constructor
  · change (w.albums.delete b).find? albumId = _
    rw [Table.find?_delete, if_neg (Ne.symm hne)]
  · simp only [World.mediaOf, World.dropAlbums, Table.deleteWhere, List.filter_filter]
    refine List.filter_congr fun m _ => ?_
    by_cases hm : m.albumId = albumId
    · have hgone : m.albumId ∉ ((w.albums.rows.filter (·.id == b)).map (·.id)) := by
        simp only [List.mem_map, List.mem_filter, beq_iff_eq]
        rintro ⟨a, ⟨-, rfl⟩, ha⟩
        exact hne (ha.trans hm)
      rw [hm] at hgone
      simp [hm, hgone]
    · simp [hm]

theorem spared_answer {b : String} {i : Nat} {r : Req} {fault : Option PyExc} (hr : OnlyAlbum b r) (hne : b ≠ albumId) :
    Spared albumId w (backend.answer i r fault w).2 := by
  by_cases hchanges : Req.changesAlbums r = false ∧ Req.changesMedia r = false
  · exact ⟨by rw [answer_albums hchanges.1], by rw [World.mediaOf, answer_media hchanges.2]; rfl⟩
  rcases answer_cases i r fault w with ha | ⟨e, -, ha⟩
  swap
  · rw [ha]; exact ⟨rfl, rfl⟩
  rw [ha]
  cases r <;> first | exact absurd ⟨rfl, rfl⟩ hchanges | exact hr.elim | skip
  case createAlbum a =>
    simp only [exec, World.createAlbum]
    split
    · exact ⟨rfl, rfl⟩
    split
    · rename_i t ht
      refine ⟨?_, rfl⟩
      rw [Table.find?_insert ht, if_neg]
      intro heq
      exact hne (hr.symm.trans heq)
    · exact ⟨rfl, rfl⟩
  case updateAlbum a =>
    simp only [exec, World.updateAlbum]
    split
    · exact ⟨rfl, rfl⟩
    split
    · exact ⟨rfl, rfl⟩
    · refine ⟨?_, rfl⟩
      rw [Table.find?_update, if_neg]
      intro heq
      exact hne (hr.symm.trans heq.symm)
  case deleteAlbumRow b' =>
    obtain rfl : b' = b := hr
    exact spared_dropAlbum hne
  case insertMedia m =>
    simp only [exec, World.insertMedia]
    split
    · exact ⟨rfl, rfl⟩
    split
    · rename_i t ht
      refine ⟨rfl, ?_⟩
      have hm : m.albumId ≠ albumId := by
        intro heq
        exact hne (hr.symm.trans heq)
      simp only [World.mediaOf, Table.insert_rows ht, List.filter_append, List.filter_cons, beq_eq_false_iff_ne.mpr hm,
        Bool.false_eq_true, if_false, List.filter_nil, List.append_nil]
    · exact ⟨rfl, rfl⟩
  case updateMediaPositions b' ps =>
    obtain rfl : b' = b := hr
    simp only [exec, World.updateMediaPositions]
    split
    · exact ⟨rfl, mediaOf_setPositions hne ps w.media.rows⟩
    · exact ⟨rfl, rfl⟩

variable {C : Req → Option PyExc → World → Prop}

/-- A program all of whose calls are about another album. -/
theorem wp_spares {b : String} {p : Prog α} (hne : b ≠ albumId) (hp : p.Uses (OnlyAlbum b)) (hw : Spared albumId w w₁) :
    wp (backend.alone C) (fun _ w' => Spared albumId w w') p w₁ := by
  refine wp_of_uses (I := fun w' => Spared albumId w w') (fun r w₂ hr hw => ⟨trivial, ?_⟩) hp hw fun _ _ hw => hw
  rintro x w' ⟨d, fault, -, h⟩
  have := (hw.trans (spared_of_same (.elapse d w₂))).trans (@spared_answer _ _ _ 0 _ fault hr hne)
  rwa [h] at this

/-! ## Who may -/

structure Caller where
  user : Option User
  deleteToken : Option String

/-- The caller of an operation on an album or an item, in somebody's name. -/
def callerOf : Op → Option Caller
  | .upload input _ => some { user := input.actor.user, deleteToken := input.deleteToken }
  | .deleteAlbum _ deleteToken _ actorUser | .updateAlbum _ deleteToken _ actorUser _ =>
    some { user := actorUser, deleteToken := deleteToken }
  | .reorderAlbum _ deleteToken _ _ actorUser | .deleteMedia _ deleteToken _ actorUser =>
    some { user := actorUser, deleteToken := deleteToken }
  | _ => none

def isUpload : Op → Bool
  | .upload _ _ => true
  | _ => false

def isAlbumDeletion : Op → Bool
  | .deleteAlbum _ _ _ _ => true
  | _ => false

namespace Caller

def owns (caller : Caller) (album : Album) : Prop := ∃ u, caller.user = some u ∧ album.userId = some u.id

def isAdmin (caller : Caller) : Bool := caller.user.any (·.isAdmin)

/-- The album has no owner, and the caller has its token. -/
def presentsToken (caller : Caller) (album : Album) : Prop :=
  album.userId = none ∧ album.deleteToken.isSome = true ∧ caller.deleteToken = album.deleteToken

end Caller

/-- The caller may change the album by this operation, at the time `now`. -/
structure Permitted (op : Op) (caller : Caller) (now : DateTime) (album : Album) : Prop where
  authority : caller.owns album ∨ (caller.isAdmin = true ∧ isUpload op = false) ∨ caller.presentsToken album
  current : isExpired now album.expiresAt = false ∨ (isAlbumDeletion op = true ∧ caller.isAdmin = true)

/-- What the check grants, on a guarded row, is authority. -/
theorem authority_of_granted {album : Album} {deleteToken : Option String} {actorUser : Option User}
    (hguarded : Guarded album) (h : Granted album deleteToken actorUser) :
    Caller.owns ⟨actorUser, deleteToken⟩ album ∨ Caller.isAdmin ⟨actorUser, deleteToken⟩ = true ∨
      Caller.presentsToken ⟨actorUser, deleteToken⟩ album := by
  rcases h with h | ⟨htoken, hequal⟩
  · cases actorUser with
    | none => cases h
    | some u =>
      simp only [adminOrOwner, Option.any_some, Bool.or_eq_true, beq_iff_eq] at h
      rcases h with hadmin | howner
      · exact .inr (.inl hadmin)
      · exact .inl ⟨u, rfl, howner⟩
  · right; right
    unfold Guarded at hguarded
    split at hguarded
    · exact absurd hguarded htoken
    · rename_i hnone
      obtain ⟨token, hsome, hne⟩ := hguarded
      have htruthy : truthy album.deleteToken = true := by simp [hsome, hne]
      exact ⟨hnone, by rw [hsome]; rfl, hequal htruthy⟩

/-- The operations other than uploads let pass whom `_require_album_access` lets pass. -/
theorem permitted_of_granted {op : Op} {now : DateTime} {album : Album} {deleteToken : Option String}
    {actorUser : Option User} (hop : isUpload op = false) (hguarded : Guarded album)
    (h : Granted album deleteToken actorUser) (hcurrent : isExpired now album.expiresAt = false) :
    Permitted op ⟨actorUser, deleteToken⟩ now album := by
  refine ⟨?_, .inl hcurrent⟩
  rcases authority_of_granted hguarded h with howner | hadmin | htoken
  · exact .inl howner
  · exact .inr (.inl ⟨hadmin, hop⟩)
  · exact .inr (.inr htoken)

/-! ## Every operation asks -/

variable {album : Album}

/-- The album is spared, or the caller may change it. -/
abbrev SparedOrPermitted (op : Op) (caller : Caller) (album : Album) (w w' : World) : Prop :=
  Spared album.id w w' ∨ Permitted op caller w.clock album

/-- The rest of an operation that has been let at the album `target`. -/
theorem wp_after_check {op : Op} {caller : Caller} {target : Album} {p : Prog α} (hfound : album ∈ w.albums)
    (htarget : target ∈ w.albums) (hpermitted : target = album → Permitted op caller w.clock album)
    (hp : p.Uses (OnlyAlbum target.id)) (hw : Same w w₁) :
    wp (backend.alone C) (fun _ w' => SparedOrPermitted op caller album w w') p w₁ := by
  by_cases hid : target.id = album.id
  · have hmay := hpermitted (Table.eq_of_key htarget hfound hid)
    exact wp_whatever (fun _ _ => .inr hmay) p w₁
  · exact wp_mono (fun _ _ h => .inl h) (wp_spares hid hp (spared_of_same hw))

/-- The album an operation is about, looked up and its caller checked: `target`, which the
    caller may change if it is the album in question. -/
theorem wp_checked {op : Op} (hop : isUpload op = false) (hfound : album ∈ w.albums) (hguarded : Guarded album)
    {albumId : String} {deleteToken : Option String} {actorUser : Option User} {allowExpired : Bool}
    (hallow : allowExpired = true → isAlbumDeletion op = true ∧ Caller.isAdmin ⟨actorUser, deleteToken⟩ = true)
    {f : Album → Prog α} (hw₀ : Same w w₀)
    (hrest : ∀ target w₁, Same w w₁ → w.albums.find? albumId = some target →
      (target = album → Permitted op ⟨actorUser, deleteToken⟩ w.clock album) →
      wp (backend.alone C) (fun _ w' => SparedOrPermitted op ⟨actorUser, deleteToken⟩ album w w') (f target) w₁) :
    wp (backend.alone C) (fun _ w' => SparedOrPermitted op ⟨actorUser, deleteToken⟩ album w w')
      (do let target ← getAlbumOr404 albumId
          requireAlbumAccess target deleteToken actorUser allowExpired
          f target) w₀ := by
  refine wp_seq (getAlbumOr404_finds albumId) (fun target w₁ h => ?_) fun _ _ h => .inl (spared_of_same (hw₀.trans h.1))
  obtain ⟨hw₁, hfind⟩ := h
  refine wp_seq (requireAlbumAccess_grants target deleteToken actorUser _) (fun _ w₂ h => ?_) fun _ _ h =>
    .inl (spared_of_same ((hw₀.trans hw₁).trans h.1))
  obtain ⟨hw₂, h⟩ := h
  obtain ⟨hgranted, hcurrent⟩ := h rfl
  refine hrest target w₂ ((hw₀.trans hw₁).trans hw₂) (by rw [← hw₀.albums]; exact hfind target rfl) fun heq => ?_
  subst heq
  cases allowExpired with
  | true =>
    obtain ⟨hdeletion, hadmin⟩ := hallow rfl
    exact ⟨.inr (.inl ⟨hadmin, hop⟩), .inr ⟨hdeletion, hadmin⟩⟩
  | false => exact permitted_of_granted hop hguarded hgranted ((hw₀.trans hw₁).notExpired (hcurrent rfl))

theorem deleteAlbum_asks (hfound : album ∈ w.albums) (hguarded : Guarded album) (albumId : String)
    (deleteToken : Option String) (correlationId : String) (actorUser : Option User) :
    wp (backend.alone C) (fun _ w' => SparedOrPermitted (.deleteAlbum albumId deleteToken correlationId actorUser)
      ⟨actorUser, deleteToken⟩ album w w') (deleteAlbum albumId deleteToken correlationId actorUser) w := by
  refine wp_checked (by rfl) hfound hguarded (fun hadmin => ⟨by rfl, hadmin⟩) (.refl w) fun target w₁ hw₁ hfind hmay => ?_
  have htarget := Table.find?_eq_some.mp hfind
  refine wp_after_check hfound htarget.1 hmay ?_ hw₁
  refine Program.uses_bind (uses_ask onlyAlbum_of_reads rfl) fun _ =>
    Program.uses_bind (deleteAlbumRows_uses (itemReads_of_reads onlyAlbum_of_reads) htarget.2.symm) fun deleted => ?_
  split
  · trivial
  · exact Program.uses_bind (deleteMediaStorageKeys_uses (fun _ => trivial) _) fun _ =>
      Program.uses_bind (uses_ask onlyAlbum_of_reads rfl) fun _ => trivial

theorem updateAlbum_asks (hfound : album ∈ w.albums) (hguarded : Guarded album) (albumId : String)
    (deleteToken : Option String) (correlationId : String) (actorUser : Option User) (patch : AlbumPatch) :
    wp (backend.alone C) (fun _ w' => SparedOrPermitted (.updateAlbum albumId deleteToken correlationId actorUser patch)
      ⟨actorUser, deleteToken⟩ album w w') (updateAlbum albumId deleteToken correlationId actorUser patch) w := by
  refine wp_checked (by rfl) hfound hguarded (by intro h; cases h) (.refl w) fun target w₁ hw₁ hfind hmay => ?_
  have spared : ∀ {w'}, Same w₁ w' →
      SparedOrPermitted (.updateAlbum albumId deleteToken correlationId actorUser patch) ⟨actorUser, deleteToken⟩ album w
        w' := fun hw' => .inl (spared_of_same (hw₁.trans hw'))
  refine wp_same_bind (uses_ask (fun _ h => h) rfl) (fun items w₂ hw₂ => ?_) fun _ _ hw' => spared hw'
  refine wp_seq (wp_of_yields (patchTitle_yields target patch.title deleteToken correlationId actorUser)
    (wp_same (patchTitle_uses plain_read _ _ _ _ _))) (fun afterTitle w₃ h => ?_) fun _ _ h => spared (hw₂.trans h.1)
  obtain ⟨hw₃, h⟩ := h
  obtain ⟨htitle, hsame⟩ := h afterTitle rfl
  refine wp_seq (wp_of_yields (patchCover_yields hsame patch.coverMediaId items deleteToken correlationId actorUser)
    (wp_same (patchCover_uses plain_read _ _ _ _ _ _ _))) (fun patched w₄ h => ?_) fun _ _ h =>
    spared ((hw₂.trans hw₃).trans h.1)
  obtain ⟨hw₄, h⟩ := h
  have hid : patched.1.id = target.id := by rw [(h patched rfl).1, htitle]
  refine wp_after_check hfound (Table.find?_mem hfind) hmay ?_ (hw₁.trans ((hw₂.trans hw₃).trans hw₄))
  refine Program.uses_bind ?_ fun _ => Program.uses_bind (uses_ask onlyAlbum_of_reads rfl) fun _ => trivial
  unfold writeIfChanged
  split
  · exact updateAlbumOr404_uses hid
  · trivial

theorem reorderAlbum_asks (hfound : album ∈ w.albums) (hguarded : Guarded album) (albumId : String)
    (deleteToken : Option String) (order : List (String × Int)) (correlationId : String) (actorUser : Option User) :
    wp (backend.alone C) (fun _ w' => SparedOrPermitted (.reorderAlbum albumId deleteToken order correlationId actorUser)
      ⟨actorUser, deleteToken⟩ album w w') (reorderAlbum albumId deleteToken order correlationId actorUser) w := by
  refine wp_checked (by rfl) hfound hguarded (by intro h; cases h) (.refl w) fun target w₁ hw₁ hfind hmay => ?_
  have htarget := Table.find?_eq_some.mp hfind
  refine wp_after_check hfound htarget.1 hmay ?_ hw₁
  exact Program.uses_bind (uses_ask onlyAlbum_of_reads rfl) fun _ => Program.uses_bind (Program.uses_raiseIf _ _) fun _ =>
    Program.uses_bind (Program.uses_ofExcept _) fun _ =>
    Program.uses_bind (writePositions_uses (fun _ => htarget.2.symm) _) fun _ =>
    Program.uses_bind (updateAlbumOr404_uses rfl) fun _ =>
    Program.uses_bind (uses_ask onlyAlbum_of_reads rfl) fun _ => trivial

/-- Deleting an item of another album spares the items of this one. -/
theorem spared_deleteMedia {albumId mediaId : String} {m : Media} {i : Nat} {fault : Option PyExc}
    (hfind : w.media.find? mediaId = some m) (hne : m.albumId ≠ albumId) :
    Spared albumId w (backend.answer i (.deleteMedia mediaId) fault w).2 := by
  rcases answer_cases i (.deleteMedia mediaId) fault w with ha | ⟨e, -, ha⟩
  swap
  · rw [ha]; exact ⟨rfl, rfl⟩
  rw [ha]
  refine ⟨rfl, ?_⟩
  simp only [exec, World.mediaOf, Table.delete, Table.deleteWhere, List.filter_filter]
  refine List.filter_congr fun n hn => ?_
  by_cases hid : n.id = mediaId
  · have hnm : n = m := by
      have := Table.find?_eq_some.mpr (⟨hn, hid⟩ : n ∈ w.media ∧ n.id = mediaId)
      rw [hfind] at this
      exact (Option.some.inj this).symm
    have halbum : (n.albumId == albumId) = false := by
      rw [hnm]
      exact beq_eq_false_iff_ne.mpr hne
    rw [halbum]
    rfl
  · simp [hid]

theorem deleteMedia_asks (hfound : album ∈ w.albums) (hguarded : Guarded album) (mediaId : String)
    (deleteToken : Option String) (correlationId : String) (actorUser : Option User) :
    wp (backend.alone C) (fun _ w' => SparedOrPermitted (.deleteMedia mediaId deleteToken correlationId actorUser)
      ⟨actorUser, deleteToken⟩ album w w') (deleteMedia mediaId deleteToken correlationId actorUser) w := by
  refine wp_seq (getMediaOr404_finds mediaId) (fun m w₀ h => ?_) fun _ _ h => .inl (spared_of_same h.1)
  obtain ⟨hw₀, hm⟩ := h
  replace hm := hm m rfl
  refine wp_checked (by rfl) hfound hguarded (by intro h; cases h) hw₀ fun target w₁ hw₁ hfind hmay => ?_
  have htarget := Table.find?_eq_some.mp hfind
  by_cases hid : target.id = album.id
  · have := hmay (Table.eq_of_key htarget.1 hfound hid)
    exact wp_whatever (fun _ _ => .inr this) _ w₁
  -- the item is another album's
  have hother : m.albumId ≠ album.id := by rw [← htarget.2]; exact hid
  have hspares : ∀ {β : Type} {p : Prog β} {w₂ : World}, p.Uses (OnlyAlbum target.id) → Spared album.id w w₂ →
      wp (backend.alone C) (fun _ w' => SparedOrPermitted (.deleteMedia mediaId deleteToken correlationId actorUser)
        ⟨actorUser, deleteToken⟩ album w w') p w₂ :=
    fun hp hw => wp_mono (fun _ _ h => .inl h) (wp_spares hid hp hw)
  have hremove : wp (backend.alone C) (fun _ w' => Spared album.id w w')
      (removeMedia mediaId deleteToken correlationId actorUser) w₁ := by
    have hspared : ∀ {x fault w₂ w'}, Same w₁ w₂ → backend.answer 0 (.deleteMedia mediaId) fault w₂ = (x, w') →
        Spared album.id w w' := by
      intro x fault w₂ w' hw₂ h
      have hm₂ : w₂.media.find? mediaId = some m := by rw [(hw₁.trans hw₂).media]; exact hm
      have := (spared_of_same (hw₁.trans hw₂)).trans (@spared_deleteMedia _ _ _ _ 0 fault hm₂ hother)
      rwa [h] at this
    refine wp_ask (fun deleted fault w₂ w' hw₂ _ h => ?_) fun e fault w₂ w' hw₂ _ h => hspared hw₂ h
    cases deleted with
    | none => exact hspared hw₂ h
    | some deletedMedia =>
      refine wp_spares hid ?_ (hspared hw₂ h)
      exact Program.uses_bind (deleteMediaStorageKeys_uses (fun _ => trivial) _) fun _ =>
        Program.uses_bind (uses_ask onlyAlbum_of_reads rfl) fun _ => trivial
  refine wp_seq hremove (fun deletedMedia w₂ hw₂ => ?_) fun _ _ h => .inl h
  refine hspares ?_ hw₂
  refine Program.uses_bind (uses_ask onlyAlbum_of_reads rfl) fun remainingItems => ?_
  split
  · exact deleteEmptiedAlbum_uses (itemReads_of_reads onlyAlbum_of_reads) rfl _ _ _ _
  · exact keepAlbum_uses fun _ hid => hid

/-! An upload appends for the owner, or for whoever presents the token; a new album is another one. -/

theorem requireUploadAccess_grants (target : Album) (actor : CurrentActor) (deleteToken : Option String) :
    wp (backend.alone C) (fun x w' => Same w w' ∧ (x = .ok () →
      Caller.owns ⟨actor.user, deleteToken⟩ target ∨ actor.user = none ∧ Granted target deleteToken none))
      (requireUploadAccess target actor deleteToken) w := by
  unfold requireUploadAccess
  split
  · rename_i user huser
    rw [wp_raiseIf]
    refine ⟨fun _ => ⟨.refl w, fun h => nomatch h⟩, fun howner => ⟨.refl w, fun _ => .inl ⟨user, huser, ?_⟩⟩⟩
    simpa using howner
  · rename_i huser
    exact wp_mono (fun _ _ h => ⟨h.1, fun hx => .inr ⟨huser, (h.2 hx).1⟩⟩)
      (requireAlbumAccess_grants target deleteToken none false)

/-- A row that was created had a free key. -/
theorem createAlbum_fresh {a created : Album} {i : Nat} {fault : Option PyExc}
    (h : (backend.answer i (.createAlbum a) fault w).1 = .ok created) : ∀ b ∈ w.albums, b.id ≠ a.id := by
  have hx := exec_of_ok h
  simp only [exec, World.createAlbum] at hx
  split at hx
  · cases hx
  split at hx
  · rename_i t ht
    intro b hb heq
    have hnone := Table.insert_eq_none.mpr ⟨b, hb, heq⟩
    rw [ht] at hnone
    cases hnone
  · cases hx

theorem createAlbum_error {a : Album} {i : Nat} {fault : Option PyExc} {e : PyExc}
    (h : (backend.answer i (.createAlbum a) fault w).1 = .error e) :
    (backend.answer i (.createAlbum a) fault w).2.albums = w.albums := by
  rcases answer_cases i (.createAlbum a) fault w with ha | ⟨e, -, ha⟩
  swap
  · rw [ha]; rfl
  rw [ha] at h ⊢
  simp only [exec, World.createAlbum] at h ⊢
  split
  · rfl
  rename_i huser
  rw [if_neg huser] at h
  split at h
  · cases h
  · rfl

theorem getOrCreateAlbum_asks (hfound : album ∈ w.albums) (hguarded : Guarded album) (input : UploadInput)
    (draws : Draws) (hw : Same w w₀) :
    wp (backend.alone C) (fun x w' => Spared album.id w w' ∧ ∀ target, x = .ok target → target.id = album.id →
      Permitted (.upload input draws) ⟨input.actor.user, input.deleteToken⟩ w.clock album)
      (getOrCreateAlbum input.albumId input.title input.correlationId input.actor input.deleteToken draws) w₀ := by
  unfold getOrCreateAlbum
  split
  · -- an existing album
    rename_i albumId _
    refine wp_read rfl (fun found w₁ w₂ hw₁ hw₂ h => ?_) fun e w' hw' => ⟨spared_of_same (hw.trans hw'), fun _ h => nomatch h⟩
    obtain rfl := Except.ok.inj h
    rw [(hw.trans hw₁).albums]
    rcases hfind : w.albums.find? albumId with _ | target
    · exact ⟨spared_of_same (hw.trans hw₂), fun _ h => nomatch h⟩
    replace hw₂ := hw.trans hw₂
    refine wp_read rfl (fun now w₃ w₄ hw₃ hw₄ h => ?_) fun e w' hw' =>
      ⟨spared_of_same (hw₂.trans hw'), fun _ h => nomatch h⟩
    obtain rfl := Except.ok.inj h
    refine wp_check (fun _ => ⟨spared_of_same (hw₂.trans hw₄), fun _ h => nomatch h⟩) fun hcurrent => ?_
    refine wp_seq (requireUploadAccess_grants target input.actor input.deleteToken) (fun _ w₅ h => ?_) fun _ _ h =>
      ⟨spared_of_same ((hw₂.trans hw₄).trans h.1), fun _ h => nomatch h⟩
    refine ⟨spared_of_same ((hw₂.trans hw₄).trans h.1), fun target' htarget hid => ?_⟩
    obtain rfl := Except.ok.inj htarget
    obtain rfl : target = album := Table.eq_of_key (Table.find?_mem hfind) hfound hid
    refine ⟨?_, .inl ((hw₂.trans hw₃).notExpired hcurrent)⟩
    rcases h.2 rfl with howner | ⟨hanonymous, hgranted⟩
    · exact .inl howner
    · rcases authority_of_granted hguarded hgranted with ⟨u, hu, -⟩ | hadmin | htoken
      · cases hu
      · cases hadmin
      · exact .inr (.inr htoken)
  · -- a new album, whose id is free
    refine wp_same_bind (uses_plain plain_read rfl) (fun now w₁ hw₁ => ?_) fun e w' hw' =>
      ⟨spared_of_same (hw.trans hw'), fun _ h => nomatch h⟩
    refine wp_same_bind (newAlbumExpiry_uses plain_read _ _) (fun expiresAt w₂ hw₂ => ?_) fun e w' hw' =>
      ⟨spared_of_same ((hw.trans hw₁).trans hw'), fun _ h => nomatch h⟩
    replace hw₂ := (hw.trans hw₁).trans hw₂
    refine wp_ask (fun created fault w₃ w' hw₃ _ h => ?_) fun e fault w₃ w' hw₃ _ h => ?_
    · have hx : (backend.answer 0 (.createAlbum (newAlbum input.title input.actor.user draws now expiresAt)) fault w₃).1 =
          .ok created := by rw [h]
      have hid := createAlbum_fresh hx
      rw [(hw₂.trans hw₃).albums] at hid
      have hne : generateId draws.albumId ≠ album.id := fun heq => hid album hfound heq.symm
      have hspared : Spared album.id w w' := by
        have := (spared_of_same (hw₂.trans hw₃)).trans (@spared_answer album.id _ _ 0
          (.createAlbum (newAlbum input.title input.actor.user draws now expiresAt)) fault rfl hne)
        rwa [h] at this
      refine wp_same_bind (uses_plain plain_read rfl) (fun _ w₄ hw₄ => ?_) fun e w₄ hw₄ =>
        ⟨hspared.trans (spared_of_same hw₄), fun _ h => nomatch h⟩
      refine ⟨hspared.trans (spared_of_same hw₄), fun target htarget hid => ?_⟩
      rw [← Except.ok.inj htarget] at hid
      exact absurd hid hne
    · refine ⟨?_, fun _ h => nomatch h⟩
      have hx : (backend.answer 0 (.createAlbum (newAlbum input.title input.actor.user draws now expiresAt)) fault w₃).1 =
          .error e := by rw [h]
      have halbums := createAlbum_error hx
      have hmedia : (backend.answer 0 (.createAlbum (newAlbum input.title input.actor.user draws now expiresAt)) fault
          w₃).2.media = w₃.media := answer_media rfl
      rw [h] at halbums hmedia
      refine (spared_of_same (hw₂.trans hw₃)).trans ⟨by rw [halbums], ?_⟩
      rw [World.mediaOf, hmedia]
      rfl

theorem upload_asks (hfound : album ∈ w.albums) (hguarded : Guarded album) (rt : Runtime) (input : UploadInput)
    (draws : Draws) :
    wp (backend.alone C) (fun _ w' => SparedOrPermitted (.upload input draws) ⟨input.actor.user, input.deleteToken⟩ album
      w w') (upload rt input draws) w := by
  refine wp_same_bind (readBoundedUpload_uses plain_read _) (fun payload w₁ hw₁ => ?_) fun _ _ hw => .inl (spared_of_same hw)
  refine wp_check (fun _ => .inl (spared_of_same hw₁)) fun _ => ?_
  refine wp_same_bind (enforceRateLimit_uses plain_read _ _ _) (fun _ w₂ hw₂ => ?_) fun _ _ hw =>
    .inl (spared_of_same (hw₁.trans hw))
  refine wp_same_bind (enforceStorageQuotas_uses plain_read _ _) (fun _ w₃ hw₃ => ?_) fun _ _ hw =>
    .inl (spared_of_same ((hw₁.trans hw₂).trans hw))
  have hw := (hw₁.trans hw₂).trans hw₃
  refine wp_seq (getOrCreateAlbum_asks hfound hguarded input draws hw) (fun target w₄ h => ?_) fun _ _ h => .inl h.1
  obtain ⟨hspared, hmay⟩ := h
  by_cases hid : target.id = album.id
  · have := hmay target rfl hid
    exact wp_whatever (fun _ _ => .inr this) _ w₄
  · have hitems := itemReads_of_reads (onlyAlbum_of_reads (b := target.id))
    refine wp_mono (fun _ _ h => .inl h) (wp_spares hid ?_ hspared)
    refine Program.uses_bind ?_ fun media =>
      Program.uses_bind (updateAlbumOr404_uses (titled_id target input.title)) fun _ => trivial
    exact Program.uses_tryExcept
      (uploadInto_uses hitems (fun _ _ => trivial) (fun _ hm => hm) (fun _ => trivial) _ _ _ _)
      fun e => Program.uses_bind (cleanUpAlbum_uses hitems rfl _) fun _ => trivial

/-- Whatever an operation does to an album, its caller may. -/
theorem program_asks (rt : Runtime) {op : Op} {caller : Caller} (hop : callerOf op = some caller)
    (hfound : album ∈ w.albums) (hguarded : Guarded album) :
    wp (backend.alone C) (fun _ w' => SparedOrPermitted op caller album w w') (op.program rt) w := by
  have hreturn : ∀ {β : Type} {p : Prog β} {f : β → OpResult} {caller},
      wp (backend.alone C) (fun _ w' => SparedOrPermitted op caller album w w') p w →
      wp (backend.alone C) (fun _ w' => SparedOrPermitted op caller album w w') (p >>= fun a => pure (f a)) w :=
    fun h => wp_seq h (fun _ _ h => h) fun _ _ h => h
  cases op with
  | upload input draws =>
    obtain rfl := Option.some.inj hop
    exact hreturn (upload_asks hfound hguarded rt input draws)
  | deleteAlbum =>
    obtain rfl := Option.some.inj hop
    exact hreturn (deleteAlbum_asks hfound hguarded _ _ _ _)
  | updateAlbum =>
    obtain rfl := Option.some.inj hop
    exact hreturn (updateAlbum_asks hfound hguarded _ _ _ _ _)
  | reorderAlbum =>
    obtain rfl := Option.some.inj hop
    exact hreturn (reorderAlbum_asks hfound hguarded _ _ _ _ _)
  | deleteMedia =>
    obtain rfl := Option.some.inj hop
    exact hreturn (deleteMedia_asks hfound hguarded _ _ _ _)
  | _ => cases hop

/-- In every state the operations can reach, from a database whose albums are guarded (an
    empty one, say), all albums are guarded, and an operation that changes one of them, or
    its items, is the owner's, an admin's (but for uploads) or of whoever has the token of
    an album without owner; and the album is not expired, unless an admin deletes it. -/
theorem mutation_requires_authority (rt : Runtime) (w₀ : World) (ops : List Op) (cs : List (Choice PyExc))
    (hw₀ : TokensMatchOwners w₀) (op : Op) (caller : Caller) (hop : callerOf op = some caller)
    (ms : List (Moment PyExc)) (album : Album)
    (hfound : album ∈ ((Site.start rt w₀ ops).run backend cs).world.albums) :
    TokensMatchOwners ((Site.start rt w₀ ops).run backend cs).world ∧
      (¬ Spared album.id ((Site.start rt w₀ ops).run backend cs).world
          (runAlone backend (op.program rt) ms ((Site.start rt w₀ ops).run backend cs).world).2 →
        Permitted op caller ((Site.start rt w₀ ops).run backend cs).world.clock album) := by
  have hguarded := reachable_guarded rt w₀ ops cs hw₀
  refine ⟨hguarded, fun hchanged => ?_⟩
  have h := wp_alone (C := fun _ _ _ => True) (program_asks rt hop hfound (hguarded album hfound)) ms
    (meetsAlone_true (B := backend) _ _ _)
  exact h.resolve_left hchanged

/-- A new anonymous album, renamed by whoever has its token. -/
theorem the_token_renames_its_album :
    Permitted (.updateAlbum "222222222" (some "AAAAAAAAAAAAAAAAAAAAAAAAAAAAAAAA") "c" none
        { title := .set (some "new"), coverMediaId := .unset })
      { user := none, deleteToken := some "AAAAAAAAAAAAAAAAAAAAAAAAAAAAAAAA" } 0
      { id := "222222222", title := none, userId := none, coverMediaId := none,
        deleteToken := some "AAAAAAAAAAAAAAAAAAAAAAAAAAAAAAAA", createdAt := 0, updatedAt := 0,
        expiresAt := some 86400000000 } := by
  have hempty : TokensMatchOwners Sample.world := fun album h => absurd h (Table.not_mem_empty album)
  refine (mutation_requires_authority Sample.runtime Sample.world
    [.upload (Sample.uploadTo none) (Sample.draws 0)] (Sample.calls 0 16) hempty _ _ rfl [] _ ?_).2 fun h => ?_
  · exact Table.find?_mem (k := "222222222") (by decide +kernel)
  · exact absurd h.album (by decide +kernel)

end Imghost.Sequential.Authority
