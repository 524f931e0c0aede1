/-
  Imghost.Concurrency.Orphans — objects no media row names.

  Every operation that stores an object, or deletes a row, goes on to attach the object
  to a row or to delete it: in between it owes the key (`Debt.owed`). While no call
  fails, an object is always named by a row or owed by a running operation, as long as
  two steps lose nothing: a cascade (`DELETE` of an album or a user) takes no row whose
  objects nobody is going to delete, and a thumbnail state is not written over a row
  whose old thumbnail is still stored. The code guarantees neither: the keys to delete
  are listed before the cascade runs, and a row or a thumbnail that appears in between
  is missed.
-/

import Imghost.Service.Footprint

namespace Imghost.Concurrency.Orphans

open Imghost.Async Imghost.Data Imghost.Model Imghost.Service

variable {α : Type}

/-! ## What an operation owes -/

structure Debt where
  /-- The operation deletes the objects of the rows it selected before the cascade. -/
  cleans : Bool
  owed : List String
  selected : List Media
  deriving DecidableEq

/-- The row `m` now names its keys. -/
def Debt.settle (g : Debt) (m : Media) : Debt := { g with owed := g.owed.filter (!(keysOf m).contains ·) }

def Debt.next (g : Debt) : Call → Debt
  | ⟨.put key _, .ok _, _⟩ => { g with owed := key :: g.owed }
  | ⟨.storageDelete key, .ok _, _⟩ => { g with owed := g.owed.filter (· != key) }
  | ⟨.insertMedia _, .ok m, _⟩ => g.settle m
  | ⟨.updateMediaThumbnailState _ _ _ _ _, .ok m, _⟩ => g.settle m
  | ⟨.deleteMedia _, .ok (some m), _⟩ => { g with owed := keysOf m ++ g.owed }
  | ⟨.selectAlbumMedia _, .ok rows, _⟩ => { g with selected := rows }
  | ⟨.deleteAlbumRow _, .ok (some _), _⟩ =>
    if g.cleans then { g with owed := g.selected.flatMap keysOf ++ g.owed } else g
  | _ => g

section

variable {b : Bool}

theorem Debt.next_put (g : Debt) (key : String) (data : Bytes) (a : Unit) :
    g.next ⟨.put key data, (.ok a : Except PyExc Unit), b⟩ = { g with owed := key :: g.owed } := rfl

theorem Debt.next_storageDelete (g : Debt) (key : String) (a : Unit) :
    g.next ⟨.storageDelete key, (.ok a : Except PyExc Unit), b⟩ = { g with owed := g.owed.filter (· != key) } := rfl

theorem Debt.next_deleteMedia (g : Debt) (mediaId : String) (m : Media) :
    g.next ⟨.deleteMedia mediaId, (.ok (some m) : Except PyExc (Option Media)), b⟩ =
      { g with owed := keysOf m ++ g.owed } := rfl

theorem Debt.next_selectAlbumMedia (g : Debt) (albumId : String) (rows : List Media) :
    g.next ⟨.selectAlbumMedia albumId, (.ok rows : Except PyExc (List Media)), b⟩ = { g with selected := rows } := rfl

theorem Debt.next_deleteAlbumRow (g : Debt) (albumId : String) (album : Album) :
    g.next ⟨.deleteAlbumRow albumId, (.ok (some album) : Except PyExc (Option Album)), b⟩ =
      if g.cleans then { g with owed := g.selected.flatMap keysOf ++ g.owed } else g := rfl

end

def debts : Protocol Reply PyExc Debt where
  can _ _ := True
  next := Debt.next

/-- `delete_album` is the operation that deletes what it selected. -/
def cleansUp : Op → Bool
  | .deleteAlbum _ _ _ _ => true
  | _ => false

def firstDebt (op : Op) : Debt := { cleans := cleansUp op, owed := [], selected := [] }

/-- The operations that store objects or delete rows. -/
def StoresOrDeletes : Op → Prop
  | .upload _ _ | .generateThumbnail _ _ _ | .deleteMedia _ _ _ _ => True
  | .deleteAlbum _ _ _ _ | .pruneExpiredAlbums _ | .deleteUserById _ _ _ _ => True
  | _ => False

/-! ## Calls that incur no debt -/

/-- Neither a `put` nor the deletion of a single row. -/
def Idle : Req → Prop
  | .put _ _ | .deleteMedia _ => False
  | _ => True

/-- Nothing is owed, by an operation that does not delete what it selects. -/
def Clear (g : Debt) : Prop := g.owed = [] ∧ g.cleans = false

theorem settle_clear {g : Debt} (h : Clear g) (m : Media) : Clear (g.settle m) := by
  simp only [Clear, Debt.settle, h.1, List.filter_nil, true_and]
  exact h.2

theorem clear_next {g : Debt} {e : Call} (hr : Idle e.req) (h : Clear g) : Clear (g.next e) := by
  obtain ⟨r, x, b⟩ := e
  cases r <;> first | exact h | exact hr.elim | skip
  case storageDelete key =>
    cases x with
    | error e => exact h
    | ok a => simp only [Clear, Debt.next_storageDelete, h.1, List.filter_nil, h.2, and_self]
  case selectAlbumMedia a => cases x <;> exact h
  case insertMedia m =>
    cases x with
    | error e => exact h
    | ok m => exact settle_clear h m
  case updateMediaThumbnailState =>
    cases x with
    | error e => exact h
    | ok m => exact settle_clear h m
  case deleteAlbumRow a =>
    rcases x with e | album | album
    · exact h
    · exact h
    · simp only [Debt.next_deleteAlbumRow, h.2, Bool.false_eq_true, if_false]; exact h

/-- A program of such calls keeps the debt clear. -/
theorem wp_idle {p : Prog α} {g : Debt} (hp : p.Uses Idle) (h : Clear g) :
    wp (debts.machine Undisturbed) (fun _ g => Clear g) p g := by
  refine wp_of_uses (I := Clear) (fun r g hr hg => ⟨trivial, ?_⟩) hp h fun _ _ hg => hg
  rintro x _ ⟨b, -, rfl⟩
  exact clear_next (e := ⟨r, x, b⟩) hr hg

theorem wp_idle_bind {β : Type} {p : Prog α} {f : α → Prog β} {g : Debt} (hp : p.Uses Idle) (h : Clear g)
    (hf : ∀ a g, Clear g → wp (debts.machine Undisturbed) (fun _ g => Clear g) (f a) g) :
    wp (debts.machine Undisturbed) (fun _ g => Clear g) (p >>= f) g :=
  wp_seq (wp_idle hp h) (fun a g hg => hf a g hg) fun _ _ hg => hg

theorem idle_of_reads (r : Req) (h : Req.reads r = true) : Idle r := by
  cases r <;> trivial

/-! ## Deleting the objects of rows -/

/-- Whatever is owed is a key of one of the rows. -/
def OwesOnly (items : List Media) (g : Debt) : Prop := ∀ k ∈ g.owed, ∃ m ∈ items, k ∈ keysOf m

theorem owesOnly_nil {g : Debt} : OwesOnly [] g ↔ g.owed = [] := by
  simp only [OwesOnly, List.not_mem_nil, false_and, exists_false]
  exact List.eq_nil_iff_forall_not_mem.symm

/-- One object deleted, best effort: no call fails here. -/
theorem deleteStorageKeyBestEffort_settles {g : Debt} (key : String) {Q : Except PyExc Unit → Debt → Prop}
    (h : Q (.ok ()) { g with owed := g.owed.filter (· != key) }) :
    wp (debts.machine Undisturbed) Q (deleteStorageKeyBestEffort key) g := by
  rw [deleteStorageKeyBestEffort, wp_tryExcept]
  refine (wp_perform _).mpr ⟨trivial, ?_⟩
  rintro (e | a) _ ⟨b, hb, rfl⟩
  · exact (hb.not_error rfl).elim
  · exact h

/-- The loop over the rows deletes every key that was owed. -/
theorem deleteMediaStorageKeys_settles {items : List Media} {g : Debt} (h : OwesOnly items g) :
    wp (debts.machine Undisturbed) (fun x g' => x = .ok () ∧ g'.owed = [] ∧ g'.cleans = g.cleans)
      (deleteMediaStorageKeys items) g := by
  refine wp_forEach (I := fun rest g' => OwesOnly rest g' ∧ g'.cleans = g.cleans) (fun m rest g' hI => ?_) (fun g' hI => ?_)
    ⟨h, rfl⟩
  · obtain ⟨howed, hcleans⟩ := hI
    rw [wp_bind]
    refine deleteStorageKeyBestEffort_settles m.storageKey ?_
    have hrest : ∀ k ∈ g'.owed, k ≠ m.storageKey → (∀ t, m.thumbKey = some t → k ≠ t) → ∃ n ∈ rest, k ∈ keysOf n := by
      intro k hk hs ht
      obtain ⟨n, hn, hkn⟩ := howed k hk
      rcases List.mem_cons.mp hn with rfl | hn
      · rcases (mem_keysOf.mp hkn).2 with h | h
        · exact absurd h hs
        · exact absurd rfl (ht k h)
      · exact ⟨n, hn, hkn⟩
    have hkey : ∀ k ∈ g'.owed, k ≠ "" := by
      intro k hk
      obtain ⟨n, -, hkn⟩ := howed k hk
      exact (mem_keysOf.mp hkn).1
    rw [bindPost_ok]
    rcases hthumb : m.thumbKey with _ | t
    · refine ⟨fun k hk => ?_, hcleans⟩
      simp only [List.mem_filter, bne_iff_ne] at hk
      exact hrest k hk.1 hk.2 (by simp [hthumb])
    · dsimp only
      split
      · refine deleteStorageKeyBestEffort_settles t ⟨fun k hk => ?_, hcleans⟩
        simp only [List.mem_filter, bne_iff_ne] at hk
        exact hrest k hk.1.1 hk.1.2 (by simp [hthumb, hk.2])
      · -- the thumbnail is the original, or has no key
        rename_i hsame
        refine ⟨fun k hk => ?_, hcleans⟩
        simp only [List.mem_filter, bne_iff_ne] at hk
        refine hrest k hk.1 hk.2 fun t' ht' => ?_
        obtain rfl : t = t' := Option.some.inj (hthumb.symm.trans ht')
        rintro rfl
        have := hkey k hk.1
        simp_all
  · exact ⟨rfl, owesOnly_nil.mp hI.1, hI.2⟩

/-! ## Every operation ends owing nothing -/

/-- Nothing is owed once `m` names its key. -/
theorem clear_settle {g : Debt} {m : Media} {key : String} (howed : g.owed = [key]) (hcleans : g.cleans = false)
    (hm : m.storageKey = key) (hkey : key ≠ "") : Clear (g.settle m) := by
  have hmem : key ∈ keysOf m := mem_keysOf.mpr ⟨hkey, .inl hm.symm⟩
  refine ⟨?_, hcleans⟩
  simp [Debt.settle, howed, hmem]

theorem insertOrRollBack_settles {g : Debt} {m : Media} (howed : g.owed = [m.storageKey]) (hcleans : g.cleans = false)
    (hkey : m.storageKey ≠ "") :
    wp (debts.machine Undisturbed) (fun _ g => Clear g) (insertOrRollBack m) g := by
  rw [insertOrRollBack, wp_tryExcept]
  have handler : ∀ e g, g.owed = [m.storageKey] → g.cleans = false →
      wp (debts.machine Undisturbed) (fun _ g => Clear g)
        (do deleteStorageKeyBestEffort m.storageKey; Program.raise e : Prog Media) g := by
    intro e g howed hcleans
    rw [wp_bind]
    refine deleteStorageKeyBestEffort_settles _ ⟨?_, hcleans⟩
    simp [howed]
  refine Protocol.wp_await trivial (fun locked b _ => ?_) fun e b h => (h.not_error rfl).elim
  refine Protocol.wp_await trivial (fun position b _ => ?_) fun e b _ => handler e _ howed hcleans
  refine (wp_perform _).mpr ⟨trivial, ?_⟩
  rintro (e | m') _ ⟨b, h, rfl⟩
  · exact handler e _ howed hcleans
  · obtain rfl := h.1.insertMedia_eq
    exact clear_settle howed hcleans rfl hkey

theorem createMedia_settles (rt : Runtime) (albumId : String) (file : UploadFile) (payload : Bytes)
    (correlationId : String) (actor : CurrentActor) (draws : Draws) {g : Debt} (hg : Clear g) :
    wp (debts.machine Undisturbed) (fun _ g => Clear g) (createMedia rt albumId file payload correlationId actor draws)
      g := by
  refine wp_value (fun prepared _ => ?_) fun _ _ => hg
  obtain ⟨metadata, sanitized⟩ := prepared
  refine Protocol.wp_await trivial (fun _ b _ => ?_) fun e b h => (h.not_error rfl).elim
  refine Protocol.wp_await trivial (fun now b _ => ?_) fun e b h => (h.not_error rfl).elim
  have howed : (g.next ⟨.put (storageKeyFor actor.user (generateId draws.mediaId) sanitized.format) sanitized.data,
      .ok (), b⟩).owed = [storageKeyFor actor.user (generateId draws.mediaId) sanitized.format] := by
    rw [Debt.next_put, hg.1]
  refine wp_seq (insertOrRollBack_settles howed hg.2 (storageKeyFor_ne_empty _ _ _)) (fun m g hg => ?_) fun _ _ hg => hg
  refine wp_idle_bind (Program.uses_perform trivial) hg fun _ g hg => ?_
  exact wp_idle_bind (Program.uses_perform trivial) hg fun _ g hg => hg

theorem upload_settles (rt : Runtime) (input : UploadInput) (draws : Draws) {g : Debt} (hg : Clear g) :
    wp (debts.machine Undisturbed) (fun _ g => Clear g) (upload rt input draws) g := by
  have hplain := plain_of_reads idle_of_reads
  refine wp_idle_bind (readBoundedUpload_uses hplain _) hg fun payload g hg => ?_
  refine wp_check (fun _ => hg) fun _ => ?_
  refine wp_idle_bind (enforceRateLimit_uses hplain _ _ _) hg fun _ g hg => ?_
  refine wp_idle_bind (enforceStorageQuotas_uses hplain _ _) hg fun _ g hg => ?_
  refine wp_idle_bind (getOrCreateAlbum_uses hplain (fun _ => trivial) (fun _ => trivial) _ _ _ _ _ _) hg
    fun album g hg => ?_
  have hinto : wp (debts.machine Undisturbed) (fun _ g => Clear g) (uploadInto rt input payload draws album) g := by
    refine wp_idle_bind (Program.uses_perform trivial) hg fun items g hg => ?_
    exact wp_check (fun _ => hg) fun _ => createMedia_settles rt _ _ _ _ _ _ hg
  rw [wp_bind, wp_tryExcept]
  refine wp_mono (fun x g hg => ?_) hinto
  cases x with
  | ok media => exact wp_idle_bind (updateAlbumOr404_uses trivial) hg fun _ g hg => hg
  | error e =>
    exact wp_seq (wp_idle (cleanUpAlbum_uses (itemReads_of_reads idle_of_reads) trivial _) hg)
      (fun _ _ hg => hg) fun _ _ hg => hg

/-! A thumbnail is owed from the moment it is stored until the row names it, or it is taken back. -/

theorem takeBack_settles {g : Debt} {written : Option String} (howed : ∀ k ∈ g.owed, written = some k)
    (hcleans : g.cleans = false) :
    wp (debts.machine Undisturbed) (fun x g => x = .ok () ∧ Clear g) (takeBack written) g := by
  cases written with
  | none =>
    have hnil : g.owed = [] := List.eq_nil_iff_forall_not_mem.mpr fun k hk => nomatch howed k hk
    exact ⟨rfl, hnil, hcleans⟩
  | some key =>
    refine deleteStorageKeyBestEffort_settles key ⟨rfl, ?_, hcleans⟩
    refine List.eq_nil_iff_forall_not_mem.mpr fun k hk => ?_
    simp only [List.mem_filter, bne_iff_ne] at hk
    exact hk.2 (Option.some.inj (howed k hk.1)).symm

theorem thumbnailFailed_settles (rt : Runtime) (media : Media) (attempt maxAttempts : Nat) {written : Option String}
    (exc : PyExc) {g : Debt} (howed : ∀ k ∈ g.owed, written = some k) (hcleans : g.cleans = false) :
    wp (debts.machine Undisturbed) (fun _ g => Clear g) (thumbnailFailed rt media attempt maxAttempts written exc) g := by
  unfold thumbnailFailed
  dsimp only
  split
  · refine wp_seq (takeBack_settles howed hcleans) (fun _ g hg => ?_) fun _ _ hg => hg.2
    exact wp_idle_bind (Program.uses_perform trivial) hg.2 fun _ g hg => hg
  · refine wp_seq (takeBack_settles howed hcleans) (fun _ g hg => ?_) fun _ _ hg => hg.2
    exact wp_idle_bind (Program.uses_attempt (Program.uses_perform trivial)) hg.2 fun _ g hg => hg

/-- The thumbnail that was made is the only object owed for it. -/
theorem makeThumbnail_owes (rt : Runtime) (media : Media) {g : Debt} (hg : Clear g) :
    wp (debts.machine Undisturbed) (fun x g => g.cleans = false ∧ match x with
      | .ok made => (∀ k ∈ g.owed, made.thumbKey = some k ∧ k ≠ "")
      | .error _ => g.owed = []) (makeThumbnail rt media) g := by
  have hplain := plain_of_reads idle_of_reads
  unfold makeThumbnail
  split
  · exact ⟨hg.2, hg.1⟩
  refine wp_seq (wp_idle (thumbFrames_uses hplain _) hg) (fun frames g hg => ?_) fun _ _ hg => ⟨hg.2, hg.1⟩
  refine wp_seq (wp_idle (Program.uses_perform trivial) hg) (fun payload g hg => ?_) fun _ _ hg => ⟨hg.2, hg.1⟩
  refine wp_value (fun metadata _ => ?_) fun _ _ => ⟨hg.2, hg.1⟩
  refine wp_value (fun thumbnail _ => ?_) fun _ _ => ⟨hg.2, hg.1⟩
  unfold storeThumbnail
  split
  · refine ⟨hg.2, fun k hk => ?_⟩
    rw [hg.1] at hk
    cases hk
  · refine Protocol.wp_await trivial (fun _ b _ => ?_) fun e b h => (h.not_error rfl).elim
    refine ⟨hg.2, fun k hk => ?_⟩
    simp only [debts, Debt.next_put, hg.1, List.mem_singleton] at hk
    subst hk
    exact ⟨rfl, thumbKeyFor_ne_empty _ _⟩

theorem generateThumbnail_settles (rt : Runtime) (mediaId : String) (attempt maxAttempts : Nat) {g : Debt}
    (hg : Clear g) :
    wp (debts.machine Undisturbed) (fun _ g => Clear g) (generateThumbnail rt mediaId attempt maxAttempts) g := by
  refine wp_idle_bind (Program.uses_perform trivial) hg fun found g hg => ?_
  cases found with
  | none => exact hg
  | some media =>
    dsimp only
    split
    · exact hg
    refine wp_idle_bind (Program.uses_perform trivial) hg fun _ g hg => ?_
    rw [wp_bind, wp_attempt]
    refine wp_mono (fun made g hmade => ?_) (makeThumbnail_owes rt media hg)
    obtain ⟨hcleans, hmade⟩ := hmade
    cases made with
    | error exc => exact thumbnailFailed_settles rt media _ _ exc (by simp [hmade]) hcleans
    | ok made =>
      rw [bindPost_ok, wp_bind, wp_attempt]
      refine (wp_perform _).mpr ⟨trivial, ?_⟩
      rintro (exc | m) _ ⟨b, h, rfl⟩
      · exact thumbnailFailed_settles rt media _ _ exc (fun k hk => (hmade k hk).1) hcleans
      · -- the row names the thumbnail
        have hm : m.thumbKey = made.thumbKey := h.1.updateMediaThumbnailState_thumbKey
        refine ⟨List.eq_nil_iff_forall_not_mem.mpr fun k hk => ?_, hcleans⟩
        replace hk : k ∈ (g.settle m).owed := hk
        simp only [Debt.settle, List.mem_filter] at hk
        obtain ⟨hthumb, hne⟩ := hmade k hk.1
        have hkey : k ∈ keysOf m := mem_keysOf.mpr ⟨hne, .inr (hm.trans hthumb)⟩
        simp [hkey] at hk

theorem deleteMedia_settles (mediaId : String) (deleteToken : Option String) (correlationId : String)
    (actorUser : Option User) {g : Debt} (hg : Clear g) :
    wp (debts.machine Undisturbed) (fun _ g => Clear g) (deleteMedia mediaId deleteToken correlationId actorUser) g := by
  have hitems := itemReads_of_reads idle_of_reads
  have hplain := plain_of_reads idle_of_reads
  refine wp_idle_bind (getMediaOr404_uses hitems _) hg fun media g hg => ?_
  refine wp_idle_bind (getAlbumOr404_uses idle_of_reads _) hg fun album g hg => ?_
  refine wp_idle_bind (requireAlbumAccess_uses hplain _ _ _ _) hg fun _ g hg => ?_
  have hremove : wp (debts.machine Undisturbed) (fun _ g => Clear g)
      (removeMedia mediaId deleteToken correlationId actorUser) g := by
    refine Protocol.wp_await trivial (fun deleted b _ => ?_) fun e b h => (h.not_error rfl).elim
    cases deleted with
    | none => exact hg
    | some m =>
      have howes : OwesOnly [m] (g.next ⟨.deleteMedia mediaId, .ok (some m), b⟩) := by
        intro k hk
        simp only [Debt.next_deleteMedia, hg.1, List.append_nil] at hk
        exact ⟨m, List.mem_singleton.mpr rfl, hk⟩
      refine wp_seq (deleteMediaStorageKeys_settles howes) (fun _ g' h => ?_) fun _ _ h => ⟨h.2.1, h.2.2.trans hg.2⟩
      exact wp_idle_bind (Program.uses_perform trivial) ⟨h.2.1, h.2.2.trans hg.2⟩ fun _ g hg => hg
  refine wp_seq hremove (fun deletedMedia g hg => ?_) fun _ _ hg => hg
  refine wp_idle_bind (Program.uses_perform trivial) hg fun remainingItems g hg => ?_
  split
  · refine wp_idle_bind (deleteAlbumRows_uses hitems trivial) hg fun deleted g hg => ?_
    exact wp_idle_bind (announceEmptiedAlbum_uses hplain _ _ _ _) hg fun _ g hg => hg
  · refine wp_idle_bind (Program.uses_attempt (Program.uses_perform trivial)) hg fun result g hg => ?_
    split <;> exact hg

/-- Reading neither incurs nor settles a debt. -/
theorem next_of_reads {g : Debt} {e : Call} (hr : Req.reads e.req = true) :
    (g.next e).owed = g.owed ∧ (g.next e).cleans = g.cleans := by
  obtain ⟨r, x, b⟩ := e
  cases r <;> first | exact ⟨rfl, rfl⟩ | (cases x <;> exact ⟨rfl, rfl⟩) | cases hr

/-- `delete_album` deletes the objects of the rows it selected. -/
theorem deleteAlbum_settles (albumId : String) (deleteToken : Option String) (correlationId : String)
    (actorUser : Option User) {g : Debt} (howed : g.owed = []) (hcleans : g.cleans = true) :
    wp (debts.machine Undisturbed) (fun _ g => g.owed = []) (deleteAlbum albumId deleteToken correlationId actorUser)
      g := by
  have pass : ∀ {β γ : Type} {p : Prog β} {f : β → Prog γ} {g : Debt}, p.Uses (fun r => Req.reads r = true) →
      g.owed = [] ∧ g.cleans = true →
      (∀ a g, g.owed = [] ∧ g.cleans = true → wp (debts.machine Undisturbed) (fun _ g => g.owed = []) (f a) g) →
      wp (debts.machine Undisturbed) (fun _ g => g.owed = []) (p >>= f) g := by
    intro β γ p f g hp hg hf
    rw [wp_bind]
    refine wp_of_uses (I := fun g => g.owed = [] ∧ g.cleans = true) (fun r g hr hg => ⟨trivial, ?_⟩) hp hg ?_
    · rintro x _ ⟨b, -, rfl⟩
      have hnext := next_of_reads (g := g) (e := ⟨r, x, b⟩) hr
      exact ⟨hnext.1.trans hg.1, hnext.2.trans hg.2⟩
    · rintro (e | a) g hg
      · exact hg.1
      · exact hf a g hg
  have hplain : ∀ r, Req.plain r = true → Req.reads r = true := plain_of_reads fun _ h => h
  refine pass (getAlbumOr404_uses (fun _ h => h) _) ⟨howed, hcleans⟩ fun album g hg => ?_
  refine pass (requireAlbumAccess_uses hplain _ _ _ _) hg fun _ g hg => ?_
  refine pass (Program.uses_perform rfl) hg fun _ g hg => ?_
  rw [Repository.deleteAlbum, wp_bind]
  refine Protocol.wp_await trivial (fun rows b _ => ?_) fun e b h => (h.not_error rfl).elim
  refine Protocol.wp_await trivial (fun row b' _ => ?_) fun e b h => (h.not_error rfl).elim
  cases row with
  | none => exact hg.1
  | some album =>
    refine wp_seq (@deleteMediaStorageKeys_settles rows _ fun k hk => ?_) (fun _ g h => ?_) fun _ _ h => h.2.1
    · simp only [debts, Debt.next_selectAlbumMedia, Debt.next_deleteAlbumRow, hg.1, hg.2, if_true, List.append_nil,
        List.mem_flatMap] at hk
      exact hk
    · refine Protocol.wp_await trivial (fun _ b _ => ?_) fun e b h => (h.not_error rfl).elim
      exact h.2.1

/-- The other two only make calls that incur nothing: `prune_expired_albums` and
    `delete_user_by_id` delete objects first and rows afterwards. -/
theorem program_settles (rt : Runtime) {op : Op} (hop : StoresOrDeletes op) :
    wp (debts.machine Undisturbed) (fun _ g => g.owed = []) (op.program rt) (firstDebt op) := by
  have hreturn : ∀ {β : Type} {p : Prog β} {f : β → OpResult} {g : Debt},
      wp (debts.machine Undisturbed) (fun _ g => Clear g) p g →
      wp (debts.machine Undisturbed) (fun _ g => g.owed = []) (p >>= fun a => pure (f a)) g := fun h =>
    wp_seq h (fun _ _ hg => hg.1) fun _ _ hg => hg.1
  cases op with
  | upload input draws => exact hreturn (upload_settles rt input draws ⟨rfl, rfl⟩)
  | generateThumbnail => exact hreturn (generateThumbnail_settles rt _ _ _ ⟨rfl, rfl⟩)
  | deleteMedia => exact hreturn (deleteMedia_settles _ _ _ _ ⟨rfl, rfl⟩)
  | deleteAlbum => exact wp_seq (deleteAlbum_settles _ _ _ _ rfl rfl) (fun _ _ hg => hg) fun _ _ hg => hg
  | pruneExpiredAlbums dryRun =>
    exact hreturn (wp_idle (pruneExpiredAlbums_uses idle_of_reads (fun _ => trivial) (fun _ => trivial)
      (fun _ => trivial) (fun _ => trivial) (fun _ => trivial) (fun _ => trivial) rt dryRun) ⟨rfl, rfl⟩)
  | deleteUserById userId correlationId deletedBy actorId =>
    exact hreturn (wp_idle (deleteUserById_uses idle_of_reads (fun _ => trivial) (fun _ => trivial) (fun _ => trivial)
      userId correlationId deletedBy actorId) ⟨rfl, rfl⟩)
  | _ => exact hop.elim

/-! ## Rows and the objects they name -/

/-- Some row names the key. -/
def Named (w : World) (k : String) : Prop := ∃ m ∈ w.media.rows, k ∈ keysOf m

/-- Every stored object is named by a row. -/
def NoOrphans (w : World) : Prop := ∀ k, (w.objects k).isSome = true → Named w k

/-- The rows a cascade takes. -/
def rowsTaken (w : World) : Req → List Media
  | .deleteAlbumRow albumId => if (w.albums.find? albumId).isSome then w.mediaOf albumId else []
  | .deleteUser userId =>
    if (w.users.find? userId).isSome then
      w.media.rows.filter fun m => (w.albums.find? m.albumId).any (·.userId == some userId)
    else []
  | _ => []

/-- The keys a call takes out of the rows, `deleteMedia` aside. -/
def keysDropped (w : World) : Req → List String
  | .updateMediaThumbnailState mediaId thumbKey _ _ _ =>
    match w.media.find? mediaId with
    | some m => m.thumbKey.toList.filter fun k => some k != thumbKey && k != m.storageKey && k != ""
    | none => []
  | r => (rowsTaken w r).flatMap keysOf

/-- The rows a call neither takes nor changes the keys of. -/
def rowsStaying (w : World) : Req → List Media
  | .updateMediaThumbnailState mediaId _ _ _ _ => w.media.rows.filter (·.id != mediaId)
  | r => w.media.rows.filter (!(rowsTaken w r).contains ·)

theorem keysOf_eq {m n : Media} (hs : m.storageKey = n.storageKey) (ht : m.thumbKey = n.thumbKey) :
    keysOf m = keysOf n := by rw [keysOf, keysOf, hs, ht]

section

variable {i : Nat} {r : Req} {fault : Option PyExc} {w : World}

/-- A row that is neither deleted nor given another thumbnail keeps its keys. -/
theorem row_stays {m : Media} (hm : m ∈ w.media) (htaken : m ∉ rowsTaken w r) (hdelete : r ≠ .deleteMedia m.id)
    (hthumb : ∀ k o st n, r ≠ .updateMediaThumbnailState m.id k o st n) :
    ∃ m' ∈ (backend.answer i r fault w).2.media, keysOf m' = keysOf m := by
  by_cases hr : Req.changesMedia r = false
  · exact ⟨m, by rw [answer_media hr]; exact hm, rfl⟩
  rcases answer_cases i r fault w with ha | ⟨e, -, ha⟩
  swap
  · exact ⟨m, by rw [ha]; exact hm, rfl⟩
  rw [ha]
  cases r <;> first | exact absurd rfl hr | skip
  case insertMedia a =>
    simp only [exec, World.insertMedia]
    split
    · exact ⟨m, hm, rfl⟩
    split
    · rename_i t ht
      exact ⟨m, (Table.mem_insert ht).mpr (.inl hm), rfl⟩
    · exact ⟨m, hm, rfl⟩
  case updateMediaThumbnailState mediaId k o st n =>
    have hne : m.id ≠ mediaId := by
      intro e
      subst e
      exact hthumb k o st n rfl
    simp only [exec, World.updateMediaThumbnailState]
    split
    · exact ⟨m, hm, rfl⟩
    · refine ⟨m, ?_, rfl⟩
      have := Table.update_mem (k := mediaId) (World.setThumb_id k o st n) hm
      rw [if_neg hne] at this
      exact this
  case updateMediaPositions a ps =>
    simp only [exec, World.updateMediaPositions]
    split
    · refine ⟨_, Table.modify_mem (World.setPositions_id a ps) hm, ?_⟩
      obtain ⟨position, h⟩ := setPositions_eq a ps m
      rw [h]
      rfl
    · exact ⟨m, hm, rfl⟩
  case deleteMedia mediaId =>
    exact ⟨m, Table.mem_delete.mpr ⟨hm, fun e => hdelete (by rw [e])⟩, rfl⟩
  case deleteAlbumRow albumId =>
    refine ⟨m, mem_dropAlbums_media.mpr ⟨hm, fun a ha hid hm' => htaken ?_⟩, rfl⟩
    have hida : a.id = albumId := eq_of_beq hid
    have hfind : w.albums.find? albumId = some a := Table.find?_eq_some.mpr ⟨ha, hida⟩
    simp only [rowsTaken, hfind, Option.isSome_some, if_true]
    exact List.mem_filter.mpr ⟨hm, by rw [← hm', hida]; exact beq_self_eq_true _⟩
  case deleteUser userId =>
    simp only [exec, World.deleteUser]
    split
    · exact ⟨m, hm, rfl⟩
    rename_i u hu
    refine ⟨_, Table.modify_mem (World.dropUserId_id userId) (mem_dropAlbums_media.mpr ⟨hm, fun a ha hid hm' => ?_⟩), ?_⟩
    · have hfind : w.albums.find? m.albumId = some a := Table.find?_eq_some.mpr ⟨ha, hm'⟩
      apply htaken
      simp only [rowsTaken, hu, Option.isSome_some, if_true]
      exact List.mem_filter.mpr ⟨hm, by rw [hfind]; exact hid⟩
    · apply keysOf_eq <;> (unfold World.dropUserId; split <;> rfl)

/-- What is stored after a call was stored before, or has just been put. -/
theorem present_before {k : String} (h : ((backend.answer i r fault w).2.objects k).isSome = true) :
    (w.objects k).isSome = true ∨ ∃ data, r = .put k data ∧ (backend.answer i r fault w).1.isOk = true := by
  by_cases hr : Req.changesObjects r = false
  · rw [answer_objects hr] at h
    exact .inl h
  rcases answer_cases i r fault w with ha | ⟨e, -, ha⟩
  swap
  · rw [ha] at h; exact .inl h
  rw [ha] at h ⊢
  cases r <;> first | exact absurd rfl hr | skip
  case put key data =>
    simp only [exec, World.put] at h
    split at h
    · rename_i hk
      exact .inr ⟨data, by rw [hk], rfl⟩
    · exact .inl h
  case storageDelete key =>
    simp only [exec, World.storageDelete] at h
    split at h
    · cases h
    · exact .inl h

/-- Where calls go through, a single deleted row is handed to the operation that deleted it. -/
theorem deleteMedia_returns {m : Media} (hm : m ∈ w.media) :
    (exec i (.deleteMedia m.id) w).1 = .ok (some m) := by
  simp only [exec, Table.find?_self hm]

theorem updateMediaThumbnailState_returns {m : Media} (hm : m ∈ w.media) (k : Option String) (o : Bool)
    (st : ThumbStatus) (n : Option Nat) :
    (exec i (.updateMediaThumbnailState m.id k o st n) w).1 = .ok (World.setThumb k o st n m) := by
  simp only [exec, World.updateMediaThumbnailState, Table.find?_self hm]

/-- A row that was written is there. -/
theorem insertMedia_row {m m' : Media} (h : (backend.answer i (.insertMedia m') fault w).1 = .ok m) :
    m ∈ (backend.answer i (.insertMedia m') fault w).2.media := by
  have hx := exec_of_ok h
  rw [answer_of_ok h]
  simp only [exec, World.insertMedia] at hx ⊢
  split at hx
  · cases hx
  rename_i hok
  rw [if_neg hok]
  rcases ht : w.media.insert m' with _ | t
  · rw [ht] at hx; cases hx
  rw [ht] at hx
  obtain rfl := Except.ok.inj hx
  exact (Table.mem_insert ht).mpr (.inr rfl)

theorem updateMediaThumbnailState_row {a : String} {k : Option String} {o : Bool} {st : ThumbStatus} {n : Option Nat}
    {m : Media} (h : (backend.answer i (.updateMediaThumbnailState a k o st n) fault w).1 = .ok m) :
    m ∈ (backend.answer i (.updateMediaThumbnailState a k o st n) fault w).2.media := by
  have hx := exec_of_ok h
  rw [answer_of_ok h]
  simp only [exec, World.updateMediaThumbnailState] at hx ⊢
  rcases hf : w.media.find? a with _ | row
  · rw [hf] at hx; cases hx
  rw [hf] at hx
  obtain rfl := Except.ok.inj hx
  have hmem := Table.update_mem (k := a) (World.setThumb_id k o st n) (Table.find?_mem hf)
  rw [if_pos (Table.find?_key hf)] at hmem
  exact hmem

end

/-! ## Runs -/

def startDebt (ops : List Op) (i : Nat) : Debt := { cleans := ops[i]?.any cleansUp, owed := [], selected := [] }

/-- What task `i` owes now. -/
def debtOf (ops : List Op) (p : Site) (i : Nat) : Debt := p.seen Debt.next (startDebt ops i) i

def OwedBySome (ops : List Op) (p : Site) (k : String) : Prop := ∃ j < p.tasks.length, k ∈ (debtOf ops p j).owed

/-- The keys an operation goes on to delete after the cascade it is about to run. -/
def aboutToDelete (g : Debt) : Req → List String
  | .deleteAlbumRow _ => if g.cleans then g.selected.flatMap keysOf else []
  | _ => []

/-- No database or storage call fails, and a key that a call takes out of the rows while
    its object is stored is named by a row that stays, owed by a running operation, or
    among those the caller goes on to delete. -/
def LosesNothing (ops : List Op) (p : Site) (i : Nat) (r : Req) (fault : Option PyExc) : Prop :=
  NoFaults p i r fault ∧ ∀ k ∈ keysDropped p.world r, (p.world.objects k).isSome = true →
    (∃ m ∈ rowsStaying p.world r, k ∈ keysOf m) ∨ OwedBySome ops p k ∨ k ∈ aboutToDelete (debtOf ops p i) r

instance (ops : List Op) (p : Site) (k : String) : Decidable (OwedBySome ops p k) := by
  unfold OwedBySome; infer_instance

instance (ops : List Op) (p : Site) (i : Nat) (r : Req) (fault : Option PyExc) :
    Decidable (LosesNothing ops p i r fault) := by
  unfold LosesNothing; infer_instance

/-- Every stored object is named by a row or owed by a running operation. -/
def Accounted (ops : List Op) (p : Site) : Prop :=
  ∀ k, (p.world.objects k).isSome = true → Named p.world k ∨ OwedBySome ops p k

section

variable {ops : List Op} {p : Site} {i : Nat} {t : Task Reply PyExc OpResult} {r : Req}
  {f : Except PyExc (Reply r) → Prog OpResult} {fault : Option PyExc} {k : String}

theorem debtOf_advance_self (ht : p.tasks[i]? = some t) : debtOf ops (p.advance backend i t r f fault) i =
    (debtOf ops p i).next ⟨r, (backend.answer i r fault p.world).1, fault.isSome⟩ := Pool.seen_advance_self ht

/-- What the caller owes after the call is owed by someone. -/
theorem owedBySome_self (ht : p.tasks[i]? = some t)
    (h : k ∈ ((debtOf ops p i).next ⟨r, (backend.answer i r fault p.world).1, fault.isSome⟩).owed) :
    OwedBySome ops (p.advance backend i t r f fault) k := by
  refine ⟨i, ?_, by rw [debtOf_advance_self ht]; exact h⟩
  rw [Pool.tasks_length_advance]
  exact (List.getElem?_eq_some_iff.mp ht).1

/-- A key that was owed before a call is owed still, or named, or its object is gone. -/
theorem owed_after (ht : p.tasks[i]? = some t) (h : OwedBySome ops p k)
    (hstored : ((backend.answer i r fault p.world).2.objects k).isSome = true) :
    Named (backend.answer i r fault p.world).2 k ∨ OwedBySome ops (p.advance backend i t r f fault) k := by
  obtain ⟨j, hj, hk⟩ := h
  by_cases hji : j = i
  swap
  · refine .inr ⟨j, by rw [Pool.tasks_length_advance]; exact hj, ?_⟩
    rw [debtOf, Pool.seen_advance_of_ne hji]
    exact hk
  subst hji
  -- what the caller itself owed
  have settled : ∀ m, m ∈ (backend.answer j r fault p.world).2.media →
      ((debtOf ops p j).next ⟨r, (backend.answer j r fault p.world).1, fault.isSome⟩) = (debtOf ops p j).settle m →
      Named (backend.answer j r fault p.world).2 k ∨ OwedBySome ops (p.advance backend j t r f fault) k := by
    intro m hm hnext
    by_cases hkm : k ∈ keysOf m
    · exact .inl ⟨m, hm, hkm⟩
    · refine .inr (owedBySome_self ht ?_)
      rw [hnext]
      simp [Debt.settle, hk, hkm]
  have keeps : k ∈ ((debtOf ops p j).next ⟨r, (backend.answer j r fault p.world).1, fault.isSome⟩).owed →
      Named (backend.answer j r fault p.world).2 k ∨ OwedBySome ops (p.advance backend j t r f fault) k :=
    fun h => .inr (owedBySome_self ht h)
  cases r
  case put key data =>
    apply keeps
    rcases (backend.answer j (.put key data) fault p.world).1 with e | a
    · exact hk
    · exact List.mem_cons_of_mem key hk
  case storageDelete key =>
    rcases hx : (backend.answer j (.storageDelete key) fault p.world).1 with e | a
    · rw [hx] at keeps
      exact keeps hk
    · have hne : k ≠ key := by
        rintro rfl
        rw [answer_of_ok hx] at hstored
        simp [exec, World.storageDelete] at hstored
      rw [hx] at keeps
      exact keeps (by simp [Debt.next_storageDelete, hk, hne])
  case insertMedia m =>
    rcases hx : (backend.answer j (.insertMedia m) fault p.world).1 with e | m'
    · rw [hx] at keeps
      exact keeps hk
    · rw [hx] at settled
      exact settled m' (insertMedia_row hx) rfl
  case updateMediaThumbnailState a key o st n =>
    rcases hx : (backend.answer j (.updateMediaThumbnailState a key o st n) fault p.world).1 with e | m'
    · rw [hx] at keeps
      exact keeps hk
    · rw [hx] at settled
      exact settled m' (updateMediaThumbnailState_row hx) rfl
  case deleteMedia a =>
    apply keeps
    rcases (backend.answer j (.deleteMedia a) fault p.world).1 with e | m | m
    · exact hk
    · exact hk
    · exact List.mem_append_right _ hk
  case deleteAlbumRow a =>
    apply keeps
    rcases (backend.answer j (.deleteAlbumRow a) fault p.world).1 with e | d | d
    · exact hk
    · exact hk
    · rw [Debt.next_deleteAlbumRow]
      split
      · exact List.mem_append_right _ hk
      · exact hk
  case selectAlbumMedia a =>
    apply keeps
    rcases (backend.answer j (.selectAlbumMedia a) fault p.world).1 with e | rows <;> exact hk
  all_goals exact keeps hk

/-- A call that goes through is answered with what it came to. -/
theorem answer_of_noFaults (h : NoFaults p i r fault) (hr : isRateLimit r = false) :
    backend.answer i r fault p.world = exec i r p.world := by
  rcases h with rfl | h
  · rfl
  · rw [hr] at h; cases h

/-- A key some row names before a call is named or owed after it, or its object is gone. -/
theorem named_after (ht : p.tasks[i]? = some t) (hkeep : LosesNothing ops p i r fault) (h : Named p.world k)
    (hstored : (p.world.objects k).isSome = true)
    (hstored' : ((backend.answer i r fault p.world).2.objects k).isSome = true) :
    Named (backend.answer i r fault p.world).2 k ∨ OwedBySome ops (p.advance backend i t r f fault) k := by
  obtain ⟨hquiet, hkeep⟩ := hkeep
  obtain ⟨m, hm, hk⟩ := h
  -- the row is the one that is deleted
  by_cases hdelete : r = .deleteMedia m.id
  · subst hdelete
    refine .inr (owedBySome_self ht ?_)
    rw [answer_of_noFaults hquiet rfl, deleteMedia_returns hm]
    exact List.mem_append_left _ hk
  -- a cascade takes the row
  by_cases htaken : m ∈ rowsTaken p.world r
  · have hdropped : k ∈ keysDropped p.world r := by
      cases r <;> first | (simp only [rowsTaken, List.not_mem_nil] at htaken; done) | exact List.mem_flatMap.mpr ⟨m, htaken, hk⟩
    rcases hkeep k hdropped hstored with ⟨n, hn, hkn⟩ | howed | hdeletes
    · have hn : n ∈ p.world.media ∧ n ∉ rowsTaken p.world r := by
        cases r <;> first | (simp only [rowsTaken, List.not_mem_nil] at htaken; done) | simpa [rowsStaying, Table.mem_def] using hn
      obtain ⟨n', hn', hkeys⟩ : ∃ n' ∈ (backend.answer i r fault p.world).2.media, keysOf n' = keysOf n := by
        refine row_stays hn.1 hn.2 ?_ ?_ <;> intros <;> rintro rfl <;> exact (List.not_mem_nil htaken).elim
      exact .inl ⟨n', hn', by rw [hkeys]; exact hkn⟩
    · exact owed_after ht howed hstored'
    · refine .inr (owedBySome_self ht ?_)
      cases r <;> first | (simp only [aboutToDelete, List.not_mem_nil] at hdeletes; done) | skip
      case deleteAlbumRow a =>
        rcases ha : p.world.albums.find? a with _ | album
        · simp [rowsTaken, ha] at htaken
        have hx : (backend.answer i (.deleteAlbumRow a) fault p.world).1 = .ok (some album) := by
          rw [answer_of_noFaults hquiet rfl]
          simp only [exec, World.deleteAlbumRow, ha]
        rw [hx]
        simp only [aboutToDelete] at hdeletes
        split at hdeletes
        · rename_i hcleans
          simp only [Debt.next_deleteAlbumRow, hcleans, if_true]
          exact List.mem_append_left _ hdeletes
        · cases hdeletes
  -- the row gets another thumbnail
  by_cases hthumb : ∃ key o st n, r = .updateMediaThumbnailState m.id key o st n
  · obtain ⟨key, o, st, n, rfl⟩ := hthumb
    have hx : (backend.answer i (.updateMediaThumbnailState m.id key o st n) fault p.world).1 =
        .ok (World.setThumb key o st n m) := by
      rw [answer_of_noFaults hquiet rfl]
      exact updateMediaThumbnailState_returns hm key o st n
    have hrow := updateMediaThumbnailState_row hx
    obtain ⟨hne, hkey⟩ := mem_keysOf.mp hk
    by_cases hkept : k = m.storageKey ∨ key = some k
    · exact .inl ⟨_, hrow, mem_keysOf.mpr ⟨hne, hkept⟩⟩
    · have hdropped : k ∈ keysDropped p.world (.updateMediaThumbnailState m.id key o st n) := by
        simp only [not_or] at hkept
        simp only [keysDropped, Table.find?_self hm, List.mem_filter, Option.mem_toList]
        refine ⟨hkey.resolve_left hkept.1, ?_⟩
        simp [hkept.1, hne, Ne.symm hkept.2]
      rcases hkeep k hdropped hstored with ⟨m', hm', hkm'⟩ | howed | hdeletes
      · simp only [rowsStaying, List.mem_filter, bne_iff_ne, ne_eq] at hm'
        have hother : ∀ key' o' st' n', Req.updateMediaThumbnailState m.id key o st n ≠
            .updateMediaThumbnailState m'.id key' o' st' n' := by
          rintro key' o' st' n' e
          exact hm'.2 (Req.updateMediaThumbnailState.inj e).1.symm
        obtain ⟨m'', hm'', hkeys⟩ : ∃ m'' ∈ (backend.answer i (.updateMediaThumbnailState m.id key o st n) fault
            p.world).2.media, keysOf m'' = keysOf m' := row_stays hm'.1 List.not_mem_nil Req.noConfusion hother
        exact .inl ⟨m'', hm'', by rw [hkeys]; exact hkm'⟩
      · exact owed_after ht howed hstored'
      · cases hdeletes
  obtain ⟨m', hm', hkeys⟩ : ∃ m' ∈ (backend.answer i r fault p.world).2.media, keysOf m' = keysOf m :=
    row_stays hm htaken hdelete fun key o st n e => hthumb ⟨key, o, st, n, e⟩
  exact .inl ⟨m', hm', by rw [hkeys]; exact hk⟩

theorem accounted_advance (h : Accounted ops p) (ht : p.tasks[i]? = some t) (hkeep : LosesNothing ops p i r fault) :
    Accounted ops (p.advance backend i t r f fault) := by
  intro k hk
  change ((backend.answer i r fault p.world).2.objects k).isSome = true at hk
  change Named (backend.answer i r fault p.world).2 k ∨ _
  rcases present_before hk with hbefore | ⟨data, rfl, hok⟩
  · rcases h k hbefore with hnamed | howed
    · exact named_after ht hkeep hnamed hbefore hk
    · exact owed_after ht howed hk
  · refine .inr (owedBySome_self ht ?_)
    rcases hx : (backend.answer i (.put k data) fault p.world).1 with e | a
    · rw [hx] at hok; cases hok
    · exact List.mem_cons_self

end

/-- In every run of these operations in which no call fails and none loses track of a
    stored object, every stored object is named by a media row once all have finished. -/
theorem no_orphans_at_the_end (rt : Runtime) (w : World) (ops : List Op) (cs : List (Choice PyExc))
    (hops : ∀ op ∈ ops, StoresOrDeletes op) (hw : NoOrphans w)
    (hkeep : (Site.start rt w ops).Meets backend (LosesNothing ops) cs)
    (hfinished : ((Site.start rt w ops).run backend cs).finished = true) :
    NoOrphans ((Site.start rt w ops).run backend cs).world := by
  have h := Pool.run_invariant (B := backend) (C := LosesNothing ops)
    (I := fun p => Accounted ops p ∧ p.Follows (fun _ => debts) Undisturbed (fun _ _ g => g.owed = []) (startDebt ops))
    (fun p d h => h) (fun p i t r k fault h ht hr hc => ?_) ⟨fun k hk => .inl (hw k hk), ?_⟩ hkeep
  · intro k hk
    rcases h.1 k hk with hnamed | ⟨j, hj, howed⟩
    · exact hnamed
    · -- a finished operation owes nothing
      have ht := List.getElem?_eq_getElem hj
      have hdone := List.all_eq_true.mp hfinished _ (List.mem_of_getElem? ht)
      obtain ⟨x, hx⟩ := Option.isSome_iff_exists.mp hdone
      have hclear : (debtOf ops ((Site.start rt w ops).run backend cs) j).owed = [] := by
        rw [debtOf, Pool.seen_eq ht]
        exact h.2.done ht hx
      rw [hclear] at howed
      cases howed
  · exact ⟨accounted_advance h.1 ht hc, h.2.advance ht hr (undisturbed_answer hc.1)⟩
  · refine Site.start_follows fun i op hop => ?_
    have hstart : startDebt ops i = firstDebt op := by
      rw [startDebt, hop]
      rfl
    rw [hstart]
    exact program_settles rt (hops op (List.mem_of_getElem? hop))

/-! ## An upload between the list and the cascade -/

def oneAlbum : World := { Sample.world with albums := .single Sample.album }

theorem oneAlbum_noOrphans : NoOrphans oneAlbum := fun _ h => nomatch h

/-- The album is deleted while an item is uploaded to it. -/
def deletionAndUpload : List Op :=
  [.deleteAlbum "a" (some "t") "c" none, .upload (Sample.uploadTo (some "a")) Sample.firstDraws]

/-- The deletion lists the album's items, the upload runs to its end, the deletion goes on. -/
def uploadAfterList : List (Choice PyExc) := Sample.calls 0 4 ++ Sample.calls 1 15 ++ Sample.calls 0 2

/-- The cascade takes the new row, and its object stays. -/
theorem an_upload_before_the_cascade_is_orphaned :
    (∀ op ∈ deletionAndUpload, StoresOrDeletes op) ∧ NoOrphans oneAlbum ∧
      (Site.start Sample.runtime oneAlbum deletionAndUpload).Meets backend NoFaults uploadAfterList ∧
      ((Site.start Sample.runtime oneAlbum deletionAndUpload).run backend uploadAfterList).finished = true ∧
      ¬ NoOrphans ((Site.start Sample.runtime oneAlbum deletionAndUpload).run backend uploadAfterList).world := by
  refine ⟨fun op hop => ?_, oneAlbum_noOrphans, by decide +kernel, by decide +kernel, fun h => ?_⟩
  · simp only [deletionAndUpload, List.mem_cons, List.not_mem_nil, or_false] at hop
    rcases hop with rfl | rfl <;> trivial
  · obtain ⟨m, hm, -⟩ := h "originals/anon/222222222222.png" (by decide +kernel)
    have hrows : ((Site.start Sample.runtime oneAlbum deletionAndUpload).run backend uploadAfterList).world.media.rows = [] := by
      decide +kernel
    rw [hrows] at hm
    cases hm

/-- The upload first, the deletion after it. -/
def uploadFirst : List (Choice PyExc) := Sample.calls 1 15 ++ Sample.calls 0 7

theorem an_upload_before_the_deletion_leaves_no_orphan :
    NoOrphans ((Site.start Sample.runtime oneAlbum deletionAndUpload).run backend uploadFirst).world := by
  refine no_orphans_at_the_end Sample.runtime oneAlbum deletionAndUpload uploadFirst (fun op hop => ?_)
    oneAlbum_noOrphans (by decide +kernel) (by decide +kernel)
  simp only [deletionAndUpload, List.mem_cons, List.not_mem_nil, or_false] at hop
  rcases hop with rfl | rfl <;> trivial

end Imghost.Concurrency.Orphans
