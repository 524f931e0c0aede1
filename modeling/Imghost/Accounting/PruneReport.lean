/-
  Imghost.Accounting.PruneReport — what a prune says it has deleted, while others delete.

  A turn of the loop counts an album before its work is done, and takes that back where an
  object cannot be deleted. It takes nothing back where the album is gone by then.

  - While every album is there, with the items counted, when its row is deleted, the report
    is what the run has deleted, whatever the others do and whatever fails
    (`prune_report_exact`).
  - An album its owner deletes in between is in the report (`an_album_of_another_deletion`).
-/

import Imghost.Accounting.Books
import Imghost.Service.Operations

namespace Imghost.Accounting

open Imghost.Async Imghost.Data Imghost.Model Imghost.Service Program

/-! ## What a run deletes -/

/-- The album whose row task `i` deletes with this choice, and its items then. -/
def takenNow (i : Nat) (p : Site) (c : Choice PyExc) : List (Album × List Media) :=
  match p.calling backend c with
  | some (j, .deleteAlbumRow albumId, none) =>
    if j = i then (p.world.albums.find? albumId).toList.map fun album => (album, p.world.mediaOf albumId) else []
  | _ => []

/-- The albums task `i` deletes in a schedule, with their items at deletion. -/
def taken (i : Nat) : Site → List (Choice PyExc) → List (Album × List Media)
  | _, [] => []
  | p, c :: cs => takenNow i p c ++ taken i (p.step backend c) cs

/-- The report is about these albums. -/
def ReportExact (result : PruneResult) (deleted : List (Album × List Media)) : Prop :=
  result.dryRun = false ∧ result.albumIds = deleted.map (·.1.id) ∧ result.itemCount = tally (·.2.length) deleted ∧
    result.bytesFreed = tally (fun d => storageBytesForMedia d.2) deleted

/-! ## What a run has counted -/

/-- What a prune has seen: the items it listed last, and what it has counted of each album
    it deleted: the id, the number of items, their bytes. -/
structure Progress where
  listed : List Media
  counted : List (String × Nat × Nat)

def Progress.next (g : Progress) : Call → Progress
  | ⟨.listAlbumMedia _, .ok items, _⟩ => { g with listed := items }
  | ⟨.deleteAlbumRow albumId, .ok (some _), _⟩ =>
    { g with counted := g.counted ++ [(albumId, g.listed.length, storageBytesForMedia g.listed)] }
  | _ => g

def pruning : Protocol Reply PyExc Progress where
  can _ _ := True
  next := Progress.next

/-- What task `i` has seen so far. -/
def progress (p : Site) (i : Nat) : Progress := p.seen Progress.next ⟨[], []⟩ i

/-- The album whose row a call deletes. -/
def rowToDelete : Req → Option PyExc → Option String
  | .deleteAlbumRow albumId, none => some albumId
  | _, _ => none

/-- The album whose row task `i` is about to delete is there, with the items it has counted. -/
def AsCounted (i : Nat) (p : Site) (j : Nat) (r : Req) (fault : Option PyExc) : Prop :=
  ∀ albumId ∈ rowToDelete r fault, j = i →
    (p.world.albums.find? albumId).isSome = true ∧ (progress p i).listed.length = (p.world.mediaOf albumId).length ∧
      storageBytesForMedia (progress p i).listed = storageBytesForMedia (p.world.mediaOf albumId)

instance (i : Nat) (p : Site) (j : Nat) (r : Req) (fault : Option PyExc) : Decidable (AsCounted i p j r fault) :=
  Option.decidableForallMem _

/-- The row to delete was there. -/
def Found : Call → Prop
  | ⟨.deleteAlbumRow _, .ok none, _⟩ => False
  | _ => True

/-! ## The program counts what it deletes -/

/-- The tally of what was counted. -/
def tallyOf (counted : List (String × Nat × Nat)) : PruneTally where
  albumIds := counted.map (·.1)
  itemCount := tally (·.2.1) counted
  bytesFreed := tally (·.2.2) counted

theorem tallyOf_snoc (counted : List (String × Nat × Nat)) (id : String) (n bytes : Nat) :
    tallyOf (counted ++ [(id, n, bytes)]) =
      ⟨(tallyOf counted).albumIds ++ [id], (tallyOf counted).itemCount + n, (tallyOf counted).bytesFreed + bytes⟩ := by
  simp [tallyOf]

/-- A call that counts nothing. -/
def Uncounted : Req → Prop
  | .listAlbumMedia _ | .deleteAlbumRow _ => False
  | _ => True

theorem next_of_uncounted (g : Progress) (e : Call) (h : Uncounted e.req) : pruning.next g e = g := by
  obtain ⟨r, x, b⟩ := e
  cases r <;> first | rfl | exact h.elim

section

variable {α β : Type} {g : Progress} {Q : Except PyExc β → Progress → Prop}

/-- Calls that count nothing, and what follows them. -/
theorem pass {p : Prog α} {f : α → Prog β} (hp : p.Uses Uncounted) (hok : ∀ a, wp (pruning.machine Found) Q (f a) g)
    (herr : ∀ e, Q (.error e) g) : wp (pruning.machine Found) Q (p >>= f) g :=
  Protocol.wp_pass (fun _ _ => trivial) (fun e he => next_of_uncounted g e he) hp hok herr

end

/-- The tally a program returns is that of what was deleted. -/
def Counts (x : Except PyExc PruneTally) (g : Progress) : Prop := ∀ tally, x = .ok tally → tally = tallyOf g.counted

theorem counts_error (e : PyExc) (g : Progress) : Counts (.error e) g := nofun

theorem counts_ok {tally : PruneTally} {g : Progress} (h : tally = tallyOf g.counted) : Counts (.ok tally) g := by
  intro tally' htally
  rw [← Except.ok.inj htally, h]

theorem pruneRows_counts {albumId : String} {counted : PruneTally} {g : Progress}
    (h : counted = ⟨(tallyOf g.counted).albumIds ++ [albumId], (tallyOf g.counted).itemCount + g.listed.length,
      (tallyOf g.counted).bytesFreed + storageBytesForMedia g.listed⟩) :
    wp (pruning.machine Found) Counts (do pruneRows albumId; return counted) g := by
  rw [pruneRows, sequence_assoc, Repository.deleteAlbum, sequence_assoc]
  refine pass (uses_perform trivial) (fun items => ?_) fun e => counts_error e g
  rw [sequence_assoc]
  refine Protocol.wp_await trivial (fun deleted b hfound => ?_) fun e b _ => counts_error e _
  cases deleted with
  | none => exact hfound.elim
  | some album =>
    change wp (pruning.machine Found) Counts (EventBus.emit _ >>= fun _ => pure counted) _
    refine pass (uses_perform trivial) (fun _ => counts_ok ?_) fun e => counts_error e _
    rw [h]
    exact (tallyOf_snoc g.counted albumId g.listed.length (storageBytesForMedia g.listed)).symm

/-- One turn: an album that is counted is deleted. -/
theorem pruneAlbum_counts (album : Album) (g : Progress) :
    wp (pruning.machine Found) Counts (pruneAlbum false (tallyOf g.counted) album) g := by
  rw [pruneAlbum]
  refine Protocol.wp_await trivial (fun items b _ => ?_) fun e b _ => counts_error e _
  rw [if_neg (by simp)]
  refine pass (deleteKeys_uses (fun _ => trivial) _) (fun storageOk => ?_) fun e => counts_error e _
  cases storageOk with
  | true => exact pruneRows_counts rfl
  | false => exact counts_ok rfl

theorem pruneExpiredAlbums_counts (rt : Runtime) :
    wp (pruning.machine Found)
      (fun x g => ∀ result, x = .ok result → result.dryRun = false ∧
        (⟨result.albumIds, result.itemCount, result.bytesFreed⟩ : PruneTally) = tallyOf g.counted)
      (pruneExpiredAlbums rt false) ⟨[], []⟩ := by
  rw [pruneExpiredAlbums]
  refine pass (uses_perform trivial) (fun now => ?_) fun e => nofun
  refine pass (uses_perform trivial) (fun expired => ?_) fun e => nofun
  refine wp_seq (R := Counts) ?_ (fun tally g htally => ?_) fun e g _ => nofun
  · refine wp_foldEach (I := fun _ tally g => tally = tallyOf g.counted) (fun album rest tally g htally => ?_)
      (fun tally g htally => counts_ok htally) rfl
    rw [htally]
    refine wp_mono (fun x g' hx => ?_) (pruneAlbum_counts album g)
    cases x with
    | ok tally' => exact hx tally' rfl
    | error e => exact counts_error e g'
  · have hcounted := htally tally rfl
    refine pass (pruneAuditLog_uses trivial (fun _ => trivial) (fun _ => trivial) rt false) (fun audit => ?_) fun e => nofun
    refine pass (pruneCapabilities_uses (fun _ => trivial) (fun _ => trivial) (fun _ => trivial) false now) (fun _ => ?_)
      fun e => nofun
    intro result hresult
    obtain rfl := Except.ok.inj hresult
    exact ⟨rfl, hcounted⟩

/-! ## A run among others -/

/-- What is counted of an album and its items. -/
def countOf (d : Album × List Media) : String × Nat × Nat := (d.1.id, d.2.length, storageBytesForMedia d.2)

/-- Task `i` is a prune on its way. -/
def Prunes (i : Nat) (p : Site) : Prop :=
  ∃ t, p.tasks[i]? = some t ∧
    wp (pruning.machine Found)
      (fun x g => ∀ result, x = .ok (.pruned result) → result.dryRun = false ∧
        (⟨result.albumIds, result.itemCount, result.bytesFreed⟩ : PruneTally) = tallyOf g.counted)
      t.rest (t.log.foldl Progress.next ⟨[], []⟩)

theorem exec_deleteAlbumRow (i : Nat) (albumId : String) (w : World) :
    (exec i (.deleteAlbumRow albumId) w).1 = .ok (w.albums.find? albumId) := rfl

section

variable {i : Nat} {p : Site} {r : Req} {fault : Option PyExc}

/-- The answer to a call of the prune. -/
theorem found_of_asCounted (h : AsCounted i p i r fault) : Found ⟨r, (backend.answer i r fault p.world).1, fault.isSome⟩ := by
  cases r with
  | deleteAlbumRow albumId =>
    cases fault with
    | none =>
      obtain ⟨hsome, -⟩ := h albumId rfl rfl
      obtain ⟨album, halbum⟩ := Option.isSome_iff_exists.mp hsome
      rw [Backend.answer_none, show backend.exec = exec from rfl, exec_deleteAlbumRow, halbum]
      trivial
    | some e => trivial
  | _ => trivial

/-- What the prune counts of a call is what the call takes. -/
theorem counted_next {c : Choice PyExc} (hc : p.calling backend c = some (i, r, fault)) (h : AsCounted i p i r fault) :
    ((progress p i).next ⟨r, (backend.answer i r fault p.world).1, fault.isSome⟩).counted =
      (progress p i).counted ++ (takenNow i p c).map countOf := by
  rw [takenNow, hc]
  cases r with
  | deleteAlbumRow albumId =>
    cases fault with
    | none =>
      obtain ⟨hsome, hlength, hbytes⟩ := h albumId rfl rfl
      obtain ⟨album, halbum⟩ := Option.isSome_iff_exists.mp hsome
      have hid : album.id = albumId := Table.find?_key halbum
      rw [Backend.answer_none, show backend.exec = exec from rfl, exec_deleteAlbumRow]
      dsimp only
      rw [if_pos rfl, halbum]
      show (progress p i).counted ++ [_] = (progress p i).counted ++ [countOf (album, p.world.mediaOf albumId)]
      rw [countOf, hid, hlength, hbytes]
    | some e => simp [Progress.next, backend, fail, fallible]
  | listAlbumMedia albumId =>
    cases fault with
    | none => exact (List.append_nil _).symm
    | some e => exact (List.append_nil _).symm
  | _ => exact (List.append_nil _).symm

end

/-- One choice: what is deleted is counted, if it is as it was counted. -/
theorem prunes_step {i : Nat} {p : Site} {c : Choice PyExc} (h : Prunes i p)
    (hC : ∀ x ∈ p.calling backend c, AsCounted i p x.1 x.2.1 x.2.2) :
    Prunes i (p.step backend c) ∧
      (progress (p.step backend c) i).counted = (progress p i).counted ++ (takenNow i p c).map countOf := by
  rcases hc : p.calling backend c with _ | ⟨j, r, fault⟩
  · have hnothing : takenNow i p c = [] := by rw [takenNow, hc]
    rw [hnothing, List.map_nil, List.append_nil]
    rcases Pool.step_cases (B := backend) p c with hstep | ⟨d, hstep⟩ | ⟨j, t, r, k, fault, -, -, hc', -⟩
    · rw [hstep]
      exact ⟨h, rfl⟩
    · rw [hstep]
      exact ⟨h, rfl⟩
    · rw [hc] at hc'
      cases hc'
  · obtain ⟨t, k, ht, hr, hstep⟩ := Pool.step_of_calling hc
    have hnow := hC _ hc
    rw [hstep]
    by_cases hji : j = i
    · subst hji
      obtain ⟨t', ht', hwp⟩ := h
      obtain rfl : t' = t := Option.some.inj (ht'.symm.trans ht)
      have hlt : j < p.tasks.length := (List.getElem?_eq_some_iff.mp ht).1
      rw [hr] at hwp
      refine ⟨⟨_, List.getElem?_set_self hlt, ?_⟩, ?_⟩
      · rw [List.foldl_append]
        exact hwp.2 _ _ ⟨fault.isSome, found_of_asCounted hnow, rfl⟩
      · rw [progress, Pool.seen_advance_self ht]
        exact counted_next hc hnow
    · obtain ⟨t', ht', hwp⟩ := h
      have hnothing : takenNow i p c = [] := by
        rw [takenNow, hc]
        split
        · rename_i hcall
          obtain ⟨rfl, -⟩ : j = _ ∧ _ := by simpa using hcall
          exact if_neg hji
        · rfl
      refine ⟨⟨t', ?_, hwp⟩, ?_⟩
      · exact (List.getElem?_set_ne hji).trans ht'
      · rw [hnothing, progress, Pool.seen_advance_of_ne (Ne.symm hji)]
        exact (List.append_nil _).symm

theorem prunes_run {i : Nat} {p : Site} {cs : List (Choice PyExc)} (h : Prunes i p) (hC : p.Meets backend (AsCounted i) cs) :
    Prunes i (p.run backend cs) ∧
      (progress (p.run backend cs) i).counted = (progress p i).counted ++ (taken i p cs).map countOf := by
  induction cs generalizing p with
  | nil => exact ⟨h, by simp [taken]⟩
  | cons c cs ih =>
    obtain ⟨hnow, hrest⟩ := hC
    obtain ⟨hstep, hcounted⟩ := prunes_step h hnow
    obtain ⟨hrun, hcounted'⟩ := ih hstep hrest
    refine ⟨hrun, hcounted'.trans ?_⟩
    rw [hcounted, taken, List.map_append, List.append_assoc]

/-- The report of a prune that runs among other operations, with calls that fail: where no
    album it has counted is gone or changed before it deletes the row, the report is about the
    albums it has deleted and the items they had. -/
theorem prune_report_exact (rt : Runtime) (w : World) (ops : List Op) (i : Nat) (cs : List (Choice PyExc))
    (hop : ops[i]? = some (.pruneExpiredAlbums false)) (hsteady : (Site.start rt w ops).Meets backend (AsCounted i) cs)
    (t : Task Reply PyExc OpResult) (ht : ((Site.start rt w ops).run backend cs).tasks[i]? = some t) (result : PruneResult)
    (hdone : t.rest.outcome = some (.ok (.pruned result))) : ReportExact result (taken i (Site.start rt w ops) cs) := by
  have hstart : Prunes i (Site.start rt w ops) := by
    refine ⟨⟨[], (Op.pruneExpiredAlbums false).program rt⟩, ?_, ?_⟩
    · simp [Site.start, Pool.start, hop]
    · refine wp_seq (pruneExpiredAlbums_counts rt) (fun result g hresult => ?_) fun e g _ _ h => by cases h
      intro result' heq
      obtain rfl := OpResult.pruned.inj (Except.ok.inj heq)
      exact hresult result rfl
  obtain ⟨⟨t', ht', hwp⟩, hcounted⟩ := prunes_run hstart hsteady
  obtain rfl : t' = t := Option.some.inj (ht'.symm.trans ht)
  obtain ⟨hreal, htally⟩ : result.dryRun = false ∧ _ := by
    rcases hrest : t'.rest with a | e | ⟨r, k⟩
    · rw [hrest] at hwp hdone
      exact hwp result (Option.some.inj hdone)
    · rw [hrest] at hdone
      cases hdone
    · rw [hrest] at hdone
      cases hdone
  have hbegin : (progress (Site.start rt w ops) i).counted = [] := by
    rw [progress, Site.start, Pool.seen_start]
  rw [hbegin, List.nil_append, progress, Pool.seen_eq ht] at hcounted
  rw [hcounted] at htally
  obtain ⟨hids, hitems, hbytes⟩ := PruneTally.mk.inj htally
  refine ⟨hreal, ?_, ?_, ?_⟩
  · rw [hids, List.map_map]
    rfl
  · rw [hitems, tally, List.map_map]
    rfl
  · rw [hbytes, tally, List.map_map]
    rfl

namespace Sample

open Imghost.Service.Sample

/-- An album with one item, about to expire. -/
def expiring : World :=
  { world with
    clock := 10 ^ 13
    albums := .single { album with expiresAt := some (10 ^ 13 + 5) }
    media := .single (media "m") }

def prunedAndDeleted : Site :=
  Site.start runtime expiring [.pruneExpiredAlbums false, .deleteAlbum "a" (some "t") "c" none]

/-- Its holder begins to delete the album before it expires, and has the row when the prune has
    counted it. -/
def deletedInBetween : List (Choice PyExc) :=
  calls 1 2 ++ [.elapse 5] ++ calls 0 3 ++ calls 1 3 ++ calls 0 6

/-- The same prune with nobody else at work. -/
def undisturbed : List (Choice PyExc) := .elapse 5 :: calls 0 10

def taskAfter (i : Nat) (cs : List (Choice PyExc)) : Task Reply PyExc OpResult :=
  (prunedAndDeleted.run backend cs).tasks[i]?.getD ⟨[], .raise (.exception "")⟩

end Sample

open Sample in
/-- One album, one item of one byte. -/
theorem prune_report_exact_alone : ReportExact ⟨false, ["a"], 1, 1, 0⟩ (taken 0 prunedAndDeleted undisturbed) :=
  prune_report_exact Service.Sample.runtime expiring [.pruneExpiredAlbums false, .deleteAlbum "a" (some "t") "c" none] 0
    undisturbed rfl (by decide +kernel) (taskAfter 0 undisturbed) (by rfl) ⟨false, ["a"], 1, 1, 0⟩ (by decide +kernel)

open Sample in
/-- The album its holder deletes is in the report, although the prune has deleted none. -/
theorem an_album_of_another_deletion :
    (taskAfter 0 deletedInBetween).rest.outcome = some (.ok (.pruned ⟨false, ["a"], 1, 1, 0⟩)) ∧
      taken 0 prunedAndDeleted deletedInBetween = [] ∧
      (taken 1 prunedAndDeleted deletedInBetween).map (·.1.id) = ["a"] ∧
      ¬ ReportExact ⟨false, ["a"], 1, 1, 0⟩ (taken 0 prunedAndDeleted deletedInBetween) := by
  have hnone : taken 0 prunedAndDeleted deletedInBetween = [] := by decide +kernel
  refine ⟨by decide +kernel, hnone, by decide +kernel, ?_⟩
  rw [hnone]
  intro ⟨_, hids, _⟩
  cases hids

end Imghost.Accounting
