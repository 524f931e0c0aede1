/-
  Imghost.ShareX.Replay — a confirmation sent twice.

  Both handlers have a branch for a link that is consumed and whose album is gone. No state
  has such a link: `sharex_delete_capabilities.album_id` is `ON DELETE CASCADE`, so the album
  takes its links with it. After a submit that deleted an album, and whatever else ran before,
  at the same time and since, the row is not there (`Used`), and the same cookie is refused by
  both handlers, whatever happens during the call (`a_replay_is_refused`).
-/

import Imghost.ShareX.Submit

namespace Imghost.ShareX

open Imghost.Async Imghost.Data Imghost.Model Imghost.Service Program

/-! ## After the deletion -/

/-- No selector is drawn again that the submit `i` has consumed. -/
def DrawsAnew (i : Nat) (p : ShareXPool) (_ : Nat) (r : ShareXReq) (_ : Option PyExc) : Prop :=
  match r with
  | .inr (.createSharexDeleteCapability c) => ∀ used ∈ (spent p i).capability, c.selector ≠ used.selector
  | _ => True

instance (i : Nat) (p : ShareXPool) (j : Nat) (r : ShareXReq) (fault : Option PyExc) : Decidable (DrawsAnew i p j r fault) := by
  unfold DrawsAnew
  split
  · exact Option.decidableForallMem _
  · exact inferInstanceAs (Decidable True)

/-- The protocol of the submit `i`; the other tasks do what they like. -/
def submitting (load : DateTime → Except PyExc Tokens.ShareXDeleteConfirmationPayload) (albumId : String) (i j : Nat) :
    Protocol ShareXReply PyExc Spent :=
  if j = i then spending load albumId else ⟨fun _ _ => True, Spent.next⟩

/-- The link a submit has consumed is one of its album; after the deletion it is no more. `Q` holds where
    the submit ends. -/
structure Used (load : DateTime → Except PyExc Tokens.ShareXDeleteConfirmationPayload) (albumId : String)
    (Q : Except PyExc ShareXResult → Spent → Prop) (i : Nat) (p : ShareXPool) : Prop where
  own : ∀ c, (spent p i).capability = some c → ∀ row, p.world.sharexDeleteCapabilities.find? c.selector = some row →
    row.albumId = albumId
  gone : ∀ c, (spent p i).capability = some c → (spent p i).deleted ≠ none →
    p.world.sharexDeleteCapabilities.find? c.selector = none
  paired : (spent p i).deleted ≠ none → (spent p i).capability ≠ none
  follows : p.Follows (submitting load albumId i) HonestReply (fun j x g => j = i → Q x g) fun _ => Spent.nothing

section

variable {load : DateTime → Except PyExc Tokens.ShareXDeleteConfirmationPayload} {albumId : String}
  {Q : Except PyExc ShareXResult → Spent → Prop} {i j : Nat} {p : ShareXPool}
  {t : Task ShareXReply PyExc ShareXResult} {r : ShareXReq} {k : Except PyExc (ShareXReply r) → ShareXProg ShareXResult}
  {fault : Option PyExc}

/-- A selector that no row has stays free, but for a new row. -/
theorem absent_stays {w : World} {s : String} (hnone : w.sharexDeleteCapabilities.find? s = none)
    (hcreate : ∀ c, r = .inr (.createSharexDeleteCapability c) → c.selector ≠ s) :
    (shareXBackend.answer j r fault w).2.sharexDeleteCapabilities.find? s = none := by
  cases hrow : (shareXBackend.answer j r fault w).2.sharexDeleteCapabilities.find? s with
  | none => rfl
  | some row =>
    rcases row_before hrow with ⟨c, hc, _⟩ | hcreated
    · rw [hnone] at hc
      cases hc
    · exact absurd (Table.find?_key hrow) (hcreate row hcreated)

theorem album_stays_of_row {w : World} {s : String} (hown : ∀ row, w.sharexDeleteCapabilities.find? s = some row → row.albumId = albumId)
    (hcreate : ∀ c, r = .inr (.createSharexDeleteCapability c) → c.selector ≠ s) (row : ShareXDeleteCapability)
    (hrow : (shareXBackend.answer j r fault w).2.sharexDeleteCapabilities.find? s = some row) : row.albumId = albumId := by
  rcases row_before hrow with ⟨c, hc, hsame, _⟩ | hcreated
  · rw [hsame.albumId]
    exact hown c hc
  · exact absurd (Table.find?_key hrow) (hcreate row hcreated)

theorem used_advance (h : Used load albumId Q i p) (ht : p.tasks[j]? = some t) (hr : t.rest = .call r k)
    (hdraws : DrawsAnew i p j r fault) : Used load albumId Q i (p.advance shareXBackend j t r k fault) := by
  have hfollows := h.follows.advance ht hr (honest_reply j r fault p.world)
  have hcreate : ∀ used, (spent p i).capability = some used → ∀ c, r = .inr (.createSharexDeleteCapability c) →
      c.selector ≠ used.selector := by
    intro used hused c hc
    subst hc
    exact hdraws used hused
  -- whatever changes nothing of what the submit has done
  have hkept : (spent (p.advance shareXBackend j t r k fault) i).capability = (spent p i).capability →
      (spent (p.advance shareXBackend j t r k fault) i).deleted = (spent p i).deleted →
      Used load albumId Q i (p.advance shareXBackend j t r k fault) := by
    intro hcapability hdeleted
    refine ⟨fun c hc row hrow => ?_, fun c hc hdone => ?_, ?_, hfollows⟩
    · rw [hcapability] at hc
      exact album_stays_of_row (h.own c hc) (hcreate c hc) row hrow
    · rw [hcapability] at hc
      rw [hdeleted] at hdone
      exact absent_stays (h.gone c hc hdone) (hcreate c hc)
    · rw [hcapability, hdeleted]
      exact h.paired
  by_cases hij : j = i
  swap
  · have hsame : spent (p.advance shareXBackend j t r k fault) i = spent p i := Pool.seen_advance_of_ne (Ne.symm hij)
    exact hkept (by rw [hsame]) (by rw [hsame])
  subst hij
  have hself : spent (p.advance shareXBackend j t r k fault) j =
      (spent p j).next ⟨r, (shareXBackend.answer j r fault p.world).1, fault.isSome⟩ := Pool.seen_advance_self ht
  have hcan : CanSpend load albumId (spent p j) r := by
    have := h.follows.can ht hr
    rw [submitting, if_pos rfl] at this
    rw [spent, Pool.seen_eq ht]
    exact this
  by_cases hconsume : ∃ s a, r = .inr (.consumeSharexDeleteCapability s a)
  · obtain ⟨s, a, rfl⟩ := hconsume
    obtain ⟨hnone, hundeleted, rfl, _⟩ := hcan
    cases hx : (shareXBackend.answer j (.inr (.consumeSharexDeleteCapability s a)) fault p.world).1 with
    | error e =>
      rw [hx] at hself
      exact hkept (by rw [hself]; rfl) (by rw [hself]; rfl)
    | ok found =>
      rw [hx] at hself
      cases found with
      | none => exact hkept (by rw [hself, hnone]; rfl) (by rw [hself]; rfl)
      | some c =>
        obtain ⟨before, hbefore, hbeforeAlbum, _, rfl, hafter⟩ := consume_ok hx
        have hselector : before.selector = s := Table.find?_key hbefore
        refine ⟨fun c hc row hrow => ?_, fun c hc hdone => ?_, fun _ => ?_, hfollows⟩
        · rw [hself] at hc
          obtain rfl := Option.some.inj hc
          have hrow : (shareXBackend.answer j (.inr (.consumeSharexDeleteCapability s a)) fault p.world).2.sharexDeleteCapabilities.find?
              before.selector = some row := hrow
          rw [hselector, hafter] at hrow
          obtain rfl := Option.some.inj hrow
          exact hbeforeAlbum
        · rw [hself] at hdone
          exact absurd hundeleted hdone
        · rw [hself]
          exact Option.some_ne_none _
  by_cases hdelete : ∃ a, r = .inl (.deleteAlbumRow a)
  · obtain ⟨a, rfl⟩ := hdelete
    obtain ⟨rfl, hundeleted, c, _, _, hcapability, _⟩ := hcan
    have hx : (shareXBackend.answer j (.inl (.deleteAlbumRow a)) fault p.world).1 = (backend.answer j (.deleteAlbumRow a) fault p.world).1 := by
      rw [answer_inl]
    cases hreply : (backend.answer j (.deleteAlbumRow a) fault p.world).1 with
    | error e =>
      rw [hx, hreply] at hself
      exact hkept (by rw [hself]; rfl) (by rw [hself]; rfl)
    | ok found =>
      rw [hx, hreply] at hself
      cases found with
      | none => exact hkept (by rw [hself]; rfl) (by rw [hself, hundeleted]; rfl)
      | some album =>
        obtain ⟨_, hleft⟩ := deleteAlbumRow_ok hreply
        have hrows : ∀ c, (spent p j).capability = some c → ∀ row,
            (p.advance shareXBackend j t (.inl (.deleteAlbumRow a)) k fault).world.sharexDeleteCapabilities.find? c.selector = some row →
            row.albumId = a :=
          fun c hc row hrow => album_stays_of_row (h.own c hc) (hcreate c hc) row hrow
        refine ⟨fun c hc row hrow => ?_, fun c hc _ => ?_, fun _ => ?_, hfollows⟩
        · rw [hself] at hc
          exact hrows c hc row hrow
        · rw [hself] at hc
          cases hrow : (p.advance shareXBackend j t (.inl (.deleteAlbumRow a)) k fault).world.sharexDeleteCapabilities.find? c.selector with
          | none => rfl
          | some row =>
            have hmem : row ∈ (backend.answer j (.deleteAlbumRow a) fault p.world).2.sharexDeleteCapabilities := by
              rw [← answer_inl]
              exact Table.find?_mem hrow
            exact absurd (hrows c hc row hrow) (hleft row hmem)
        · rw [hself]
          show (spent p j).capability ≠ none
          rw [hcapability]
          exact Option.some_ne_none _
  · refine hkept ?_ ?_
    · rw [hself, next_capability fun s a h => hconsume ⟨s, a, h⟩]
    · rw [hself, next_deleted fun a h => hdelete ⟨a, h⟩]

theorem used_run {w : World} {progs : List (ShareXProg ShareXResult)} {cs : List (Choice PyExc)}
    (hsubmit : ∀ prog, progs[i]? = some prog → wp ((spending load albumId).machine HonestReply) Q prog Spent.nothing)
    (hdraws : (Pool.start w progs : ShareXPool).Meets shareXBackend (DrawsAnew i) cs) :
    Used load albumId Q i ((Pool.start w progs : ShareXPool).run shareXBackend cs) := by
  refine Pool.run_invariant (fun p d h => ?_) (fun p j t r k fault h ht hr hdraw => used_advance h ht hr hdraw) ?_ hdraws
  · exact ⟨h.own, h.gone, h.paired, h.follows⟩
  · have hnothing : spent (Pool.start w progs : ShareXPool) i = Spent.nothing := Pool.seen_start w progs i
    refine ⟨fun c hc => ?_, fun c hc => ?_, fun hdone => ?_, Pool.follows_start fun j prog hprog => ?_⟩
    · rw [hnothing] at hc
      cases hc
    · rw [hnothing] at hc
      cases hc
    · rw [hnothing] at hdone
      exact absurd rfl hdone
    · by_cases hji : j = i
      · subst hji
        rw [submitting, if_pos rfl]
        exact wp_mono (fun _ _ h _ => h) (hsubmit prog hprog)
      · rw [submitting, if_neg hji]
        exact wp_mono (fun _ _ _ h => absurd h hji) (Protocol.wp_free (fun _ _ => trivial) prog Spent.nothing)

end

/-! ## The same cookie again -/

/-- One of the handlers, running by itself in the world `w`, with what happens at each of its calls. -/
abbrev answers (w : World) (prog : ShareXProg Response) (moments : List (Moment PyExc)) : Except PyExc Response :=
  (runAlone shareXBackend prog moments w).1

section

variable {load : DateTime → Except PyExc Tokens.ShareXDeleteConfirmationPayload} {albumId : String} {w : World}

/-- The cookie names a link that is not there. -/
def Dead (load : DateTime → Except PyExc Tokens.ShareXDeleteConfirmationPayload) (w : World) : Prop :=
  ∀ now payload, load now = .ok payload → w.sharexDeleteCapabilities.find? payload.selector = none

/-- The answer is an exception. -/
def Raises {α : Type} (x : Except PyExc α) (_ : World) : Prop := ∀ a, x ≠ .ok a

theorem raises_error {α : Type} (e : PyExc) (w : World) : Raises (.error e : Except PyExc α) w := by
  intro _ h
  cases h

/-- Calls that create no link. -/
def NoLink : ShareXReq → Prop
  | .inr (.createSharexDeleteCapability _) => False
  | _ => True

theorem dead_stays (r : ShareXReq) (fault : Option PyExc) (d : Nat) (hr : NoLink r) (h : Dead load w) :
    Dead load (shareXBackend.answer 0 r fault (shareXBackend.elapse d w)).2 := by
  intro now payload hload
  have hnone : (shareXBackend.elapse d w).sharexDeleteCapabilities.find? payload.selector = none := h now payload hload
  refine absent_stays hnone fun c hc => ?_
  subst hc
  exact hr.elim

abbrev anyhow : Machine ShareXReply PyExc World := shareXBackend.alone fun _ _ _ => True

theorem dead_reply {now : DateTime} {payload : Tokens.ShareXDeleteConfirmationPayload} {fault : Option PyExc} {d : Nat}
    {found : Option ShareXDeleteCapability} (h : Dead load w) (hload : load now = .ok payload)
    (hreply : (shareXBackend.answer 0 (.inr (.getSharexDeleteCapability payload.selector)) fault (shareXBackend.elapse d w)).1 = .ok found) :
    found = none := by
  rw [answer_capability] at hreply
  cases fault with
  | some e => cases hreply
  | none => exact (Except.ok.inj hreply).symm.trans (h now payload hload)

theorem dead_consume {now : DateTime} {payload : Tokens.ShareXDeleteConfirmationPayload} {fault : Option PyExc} {d : Nat}
    {found : Option ShareXDeleteCapability} (h : Dead load w) (hload : load now = .ok payload)
    (hreply : (shareXBackend.answer 0 (.inr (.consumeSharexDeleteCapability payload.selector albumId)) fault
      (shareXBackend.elapse d w)).1 = .ok found) : found = none := by
  cases found with
  | none => rfl
  | some c =>
    obtain ⟨before, hbefore, _⟩ := consume_ok hreply
    have hnone : (shareXBackend.elapse d w).sharexDeleteCapabilities.find? payload.selector = none := h now payload hload
    rw [hnone] at hbefore
    cases hbefore

theorem confirmSubmit_raises {correlationId : String} (h : Dead load w) :
    wp anyhow Raises (confirmSubmit load albumId correlationId) w := by
  refine wp_alone_await (fun d fault now _ _ => ?_) fun _ _ e _ _ => raises_error e _
  have h := dead_stays (.inl .utcnow) fault d trivial h
  refine wp_value (fun confirmation hload => ?_) fun e _ => raises_error e _
  refine wp_alone_await (fun d fault found _ hreply => ?_) fun _ _ e _ _ => raises_error e _
  obtain rfl := dead_consume h hload hreply
  have h := dead_stays (.inr (.consumeSharexDeleteCapability confirmation.selector albumId)) fault d trivial h
  refine wp_alone_await (fun d fault current _ hreply => ?_) fun _ _ e _ _ => raises_error e _
  obtain rfl := dead_reply h hload hreply
  refine wp_alone_await (fun d fault album _ _ => ?_) fun _ _ e _ _ => raises_error e _
  exact raises_error _ _

theorem confirmPage_raises (h : Dead load w) : wp anyhow Raises (confirmPage load albumId) w := by
  refine wp_alone_await (fun d fault now _ _ => ?_) fun _ _ e _ _ => raises_error e _
  have h := dead_stays (.inl .utcnow) fault d trivial h
  refine wp_value (fun confirmation hload => ?_) fun e _ => raises_error e _
  refine wp_alone_await (fun d fault found _ hreply => ?_) fun _ _ e _ _ => raises_error e _
  obtain rfl := dead_reply h hload hreply
  exact wp_alone_await (fun d fault album _ _ => raises_error _ _) fun _ _ e _ _ => raises_error e _

theorem elapse_zero (w : World) : shareXBackend.elapse 0 w = w := by
  show { w with clock := w.clock + ((0 : Nat) : Int) } = w
  simp

theorem answers_perform {r : ShareXReq} {f : ShareXReply r → ShareXProg Response} {a : ShareXReply r}
    (h : shareXBackend.exec 0 r w = (.ok a, w)) : answers w (Program.perform r >>= f) [] = answers w (f a) [] := by
  rw [answers, runAlone_bind, runAlone_perform, elapse_zero, h]

theorem exec_consume_dead {now : DateTime} {payload : Tokens.ShareXDeleteConfirmationPayload} (h : Dead load w)
    (hload : load now = .ok payload) :
    shareXBackend.exec 0 (.inr (.consumeSharexDeleteCapability payload.selector albumId)) w = (.ok none, w) := by
  show ((Except.ok (consumeCapability w payload.selector albumId).1 : Except PyExc _), (consumeCapability w payload.selector albumId).2) = _
  have hnone : consumeCapability w payload.selector albumId = (none, w) := by
    unfold consumeCapability updateCapability
    rw [h now payload hload]
    rfl
  rw [hnone]
  rfl

theorem exec_get_dead {now : DateTime} {payload : Tokens.ShareXDeleteConfirmationPayload} (h : Dead load w)
    (hload : load now = .ok payload) :
    shareXBackend.exec 0 (.inr (.getSharexDeleteCapability payload.selector)) w = (.ok none, w) := by
  show ((Except.ok (w.sharexDeleteCapabilities.find? payload.selector) : Except PyExc _), w) = _
  rw [h now payload hload]
  rfl

/-- With nothing going wrong, a 403. -/
theorem confirmSubmit_403 {correlationId : String} {payload : Tokens.ShareXDeleteConfirmationPayload} (h : Dead load w)
    (hload : load w.clock = .ok payload) : answers w (confirmSubmit load albumId correlationId) [] = .error invalidConfirmation := by
  refine (answers_perform (r := .inl .utcnow) (a := w.clock) rfl).trans ?_
  rw [hload]
  refine (answers_perform (exec_consume_dead h hload)).trans ?_
  refine (answers_perform (exec_get_dead h hload)).trans ?_
  exact answers_perform (r := .inl (.getAlbum albumId)) (a := w.albums.find? albumId) rfl

theorem confirmPage_403 {payload : Tokens.ShareXDeleteConfirmationPayload} (h : Dead load w) (hload : load w.clock = .ok payload) :
    answers w (confirmPage load albumId) [] = .error invalidUrl := by
  refine (answers_perform (r := .inl .utcnow) (a := w.clock) rfl).trans ?_
  rw [hload]
  refine (answers_perform (exec_get_dead h hload)).trans ?_
  exact answers_perform (r := .inl (.getAlbum albumId)) (a := w.albums.find? albumId) rfl

end

/-! ## Replays -/

/-- Both handlers refuse the cookie in the world `w`: with an exception whatever happens during the
    call, and with a 403 where nothing goes wrong and the confirmation is still valid. -/
structure Refused (config : ShareXConfig) (albumId cookie : String) (w : World) : Prop where
  post : ∀ correlationId moments response,
    answers w (sharexDeleteConfirmSubmit config.lib config.secretKey albumId cookie correlationId) moments ≠ .ok response
  get : ∀ moments response, answers w (sharexDeleteConfirmPage config.lib config.secretKey albumId cookie) moments ≠ .ok response
  post_403 : ∀ correlationId payload, loadSharexConfirmation config.lib config.secretKey albumId cookie w.clock = .ok payload →
    answers w (sharexDeleteConfirmSubmit config.lib config.secretKey albumId cookie correlationId) [] = .error invalidConfirmation
  get_403 : ∀ payload, loadSharexConfirmation config.lib config.secretKey albumId cookie w.clock = .ok payload →
    answers w (sharexDeleteConfirmPage config.lib config.secretKey albumId cookie) [] = .error invalidUrl

theorem refused_of_dead {config : ShareXConfig} {albumId cookie : String} {w : World}
    (hvalid : isValidAlbumId config.lib albumId = true)
    (h : Dead (loadSharexConfirmation config.lib config.secretKey albumId cookie) w) : Refused config albumId cookie w := by
  have hraises : ∀ {α : Type} {prog : ShareXProg α}, wp anyhow Raises prog w → ∀ moments response,
      (runAlone shareXBackend prog moments w).1 ≠ .ok response :=
    fun hprog moments => wp_alone hprog moments (meetsAlone_true _ moments _)
  have hpass : (!isValidAlbumId config.lib albumId) = false := by rw [hvalid]; rfl
  refine ⟨fun correlationId => hraises (wp_check (fun _ => raises_error _ _) fun _ => confirmSubmit_raises h),
    hraises (wp_check (fun _ => raises_error _ _) fun _ => confirmPage_raises h), fun correlationId payload hload => ?_,
    fun payload hload => ?_⟩
  · unfold sharexDeleteConfirmSubmit
    rw [hpass]
    exact confirmSubmit_403 h hload
  · unfold sharexDeleteConfirmPage
    rw [hpass]
    exact confirmPage_403 h hload

/-- The submit `i` has deleted an album and answered. -/
def Deleted (p : ShareXPool) (i : Nat) : Prop :=
  (spent p i).deleted ≠ none ∧ ∃ t response, p.tasks[i]? = some t ∧ t.rest.outcome = some (.ok (.response response))

/-- After a submit that deleted its album, in every state reached, the same cookie is refused. -/
theorem a_replay_is_refused (config : ShareXConfig) (w : World) (progs : List (ShareXProg ShareXResult)) (i : Nat)
    (albumId cookie : String) (correlationId : Option String)
    (hsubmit : progs[i]? = some ((ShareXOp.confirmSubmit albumId cookie correlationId).prog config)) (cs : List (Choice PyExc))
    (hdraws : (Pool.start w progs : ShareXPool).Meets shareXBackend (DrawsAnew i) cs)
    (hdeleted : Deleted ((Pool.start w progs : ShareXPool).run shareXBackend cs) i) :
    Refused config albumId cookie ((Pool.start w progs : ShareXPool).run shareXBackend cs).world := by
  let load := loadSharexConfirmation config.lib config.secretKey albumId cookie
  let Q : Except PyExc ShareXResult → Spent → Prop := fun x g => Ended load x g ∧
    ∀ a, x = .ok a → isValidAlbumId config.lib albumId = true
  have hspends : ∀ prog, progs[i]? = some prog → wp ((spending load albumId).machine HonestReply) Q prog Spent.nothing := by
    intro prog hprog
    obtain rfl := Option.some.inj (hsubmit.symm.trans hprog)
    have hvalid : wp ((spending load albumId).machine HonestReply)
        (fun x g => Ended load x g ∧ ∀ a, x = .ok a → isValidAlbumId config.lib albumId = true)
        (sharexDeleteConfirmSubmit config.lib config.secretKey albumId cookie correlationId) Spent.nothing := by
      refine wp_check (fun _ => ⟨ended_of_error fun _ h => (nomatch h), fun _ h => nomatch h⟩) fun hpass => ?_
      exact wp_mono (fun _ _ h => ⟨h, fun _ _ => by simpa using hpass⟩) confirmSubmit_spends
    refine wp_seq hvalid (fun response g h => ?_) fun e g h => ⟨ended_of_error h.1.confirmed, fun _ h' => nomatch h'⟩
    exact ⟨⟨h.1.confirmed, fun _ _ => h.1.deleted response rfl⟩, fun _ _ => h.2 response rfl⟩
  have h := used_run hspends hdraws
  obtain ⟨hdone, t, response, ht, hout⟩ := hdeleted
  obtain ⟨hended, hvalid⟩ : Q (.ok (.response response)) (spent ((Pool.start w progs : ShareXPool).run shareXBackend cs) i) := by
    have := h.follows.done ht hout rfl
    rw [spent, Pool.seen_eq ht]
    rwa [submitting, if_pos rfl] at this
  obtain ⟨c, hc⟩ := Option.ne_none_iff_exists'.mp (h.paired hdone)
  obtain ⟨readAt, read, hread, hselector⟩ := hended.confirmed c hc
  refine refused_of_dead (hvalid _ rfl) fun now payload hload => ?_
  rw [← load_same hread hload, hselector]
  exact h.gone c hc hdone

/-- The confirmation, still valid, is answered as deleted, sent either way. -/
def AnsweredAsDeleted (config : ShareXConfig) (albumId cookie : String) (w : World) : Prop :=
  ∀ payload, loadSharexConfirmation config.lib config.secretKey albumId cookie w.clock = .ok payload →
    (∀ correlationId, answers w (sharexDeleteConfirmSubmit config.lib config.secretKey albumId cookie correlationId) [] =
      .ok (.page (albumDeleted albumId none 0))) ∧
    answers w (sharexDeleteConfirmPage config.lib config.secretKey albumId cookie) [] = .ok (.page (albumDeleted albumId none 0))

namespace Sample

/-- The submit from its first call to its last. -/
def submitted : ShareXPool := (Pool.start site [submit]).run shareXBackend (List.replicate 12 (.call 0 none))

theorem submitted_deleted : Deleted submitted 0 := by
  refine ⟨by decide +kernel, ?_⟩
  have hout : (submitted.tasks[0]?).bind (·.rest.outcome) = some (.ok (.response (.page (albumDeleted "222222222" none 0)))) := by
    decide +kernel
  obtain ⟨t, ht, ht'⟩ := Option.bind_eq_some_iff.mp hout
  exact ⟨t, _, ht, ht'⟩

theorem still_valid : loadSharexConfirmation shareXLib "secret" "222222222" signedCookie submitted.world.clock = .ok payload := by
  rw [load_signedCookie]
  decide +kernel

end Sample

open Sample in
/-- The owner deletes the album and sends the confirmation again within the five minutes. -/
theorem the_second_confirmation_is_a_403 : ∃ cs,
    Deleted ((ShareXPool.start config site [.confirmSubmit "222222222" signedCookie none]).run shareXBackend cs) 0 ∧
    ¬ AnsweredAsDeleted config "222222222" signedCookie
      ((ShareXPool.start config site [.confirmSubmit "222222222" signedCookie none]).run shareXBackend cs).world := by
  have hstart : ShareXPool.start config site [.confirmSubmit "222222222" signedCookie none] = Pool.start site [submit] := by
    rw [← submit_prog]
    rfl
  rw [hstart]
  refine ⟨List.replicate 12 (.call 0 none), submitted_deleted, fun h => ?_⟩
  have hpage := (h payload still_valid).2
  change answers submitted.world (do
      raiseIf (!isValidAlbumId shareXLib "222222222") notFound
      confirmPage (loadSharexConfirmation shareXLib "secret" "222222222" signedCookie) "222222222") [] = _ at hpage
  have hrefused : answers submitted.world (do
      raiseIf (!isValidAlbumId shareXLib "222222222") notFound
      confirmPage readsCookie "222222222") [] = .error invalidUrl := by decide +kernel
  rw [load_signedCookie, hrefused] at hpage
  cases hpage

open Sample in
theorem a_replay_is_refused_here : Refused config "222222222" signedCookie submitted.world :=
  a_replay_is_refused config site [submit] 0 "222222222" signedCookie none (by rw [submit_prog]; rfl) _
    (by decide +kernel) submitted_deleted

end Imghost.ShareX
