/-
  Imghost.ShareX.Refusals — a link is spent before its album is deleted.

  `consume_sharex_delete_capability` commits first. What comes after it can still refuse (the
  user is gone, the album has expired, it is another user's now) or fail, and nothing gives
  the link back. A submit that leaves its album there has raised, and either it has left the
  links alone or it has spent just the one it was given, for one of these reasons
  (`a_kept_album_costs_the_link_at_most`).
-/

import Imghost.Service.Alone
import Imghost.ShareX.Submit

namespace Imghost.ShareX

open Imghost.Async Imghost.Data Imghost.Model Imghost.Service Imghost.Tokens Program

/-! ## Why an album stays -/

/-- `_require_album_access` without a token, for a user who gave none. -/
def Rejects (albumId : String) (user : User) (w : World) (e : PyExc) : Prop :=
  ∃ album, w.albums.find? albumId = some album ∧
    ((user.isAdmin = false ∧ isExpired w.clock album.expiresAt = true ∧ e = albumNotFound) ∨
      (adminOrOwner album (some user) = false ∧ ∃ detail, e = .http 403 detail))

/-- Why the album of a consumed link is still there, with nothing going wrong. -/
def Refuses (albumId : String) (c : ShareXDeleteCapability) (w : World) (e : PyExc) : Prop :=
  (w.users.find? c.userId = none ∧ e = invalidConfirmation) ∨
    ∃ user, w.users.find? c.userId = some user ∧ Rejects albumId user w e

/-- The link `c` of the album has been consumed, and nothing else. -/
structure OnlySpent (albumId : String) (w w' : World) (c : ShareXDeleteCapability) : Prop where
  before : w.sharexDeleteCapabilities.find? c.selector = some c
  albumId : c.albumId = albumId
  after : ∃ now, live now c = true ∧ w'.sharexDeleteCapabilities.find? c.selector = some (consumed now c)
  others : ∀ s, s ≠ c.selector → w'.sharexDeleteCapabilities.find? s = w.sharexDeleteCapabilities.find? s

/-! ## One call after the other -/

/-- What a submit looks at has not changed. -/
structure Untouched (w w' : World) : Prop extends Same w w' where
  links : w'.sharexDeleteCapabilities = w.sharexDeleteCapabilities

variable {w w₀ w₁ w₂ : World} {albumId : String} {F : Prop} {α β : Type}

theorem Untouched.refl (w : World) : Untouched w w := ⟨.refl w, rfl⟩

theorem Untouched.trans (h : Untouched w₀ w₁) (h' : Untouched w₁ w₂) : Untouched w₀ w₂ :=
  ⟨h.toSame.trans h'.toSame, h'.links.trans h.links⟩

theorem Untouched.elapse (d : Nat) (w : World) : Untouched w (backend.elapse d w) := ⟨.elapse d w, rfl⟩

/-- A call fails only if `F`. -/
abbrev baseAlone (F : Prop) : Machine Reply PyExc World := backend.alone fun _ fault _ => fault.isSome = true → F

abbrev submitAlone (F : Prop) : Machine ShareXReply PyExc World := shareXBackend.alone fun _ fault _ => fault.isSome = true → F

/-- Calls that read and that the database always answers. -/
def Looks (r : Req) : Prop := Req.reads r = true ∧ total r = true ∧ changesCapabilities r = false

theorem Looks.untouched {r : Req} {fault : Option PyExc} (h : Looks r) : Untouched w (backend.answer 0 r fault w).2 :=
  ⟨.answer h.1, answer_capabilities h.2.2⟩

theorem fault_of_error {r : Req} {fault : Option PyExc} {e : PyExc} (hr : total r = true)
    (h : (backend.answer 0 r fault w).1 = .error e) : fault.isSome = true := by
  cases fault with
  | some e => rfl
  | none =>
    have hx : (exec 0 r w).1 = .error e := h
    cases r <;> first | cases hx | cases hr

theorem wp_looks {Q : Except PyExc β → World → Prop} {r : Req} {f : Reply r → Prog β} (hr : Looks r)
    (hok : ∀ a w₁ w', Untouched w w₁ → Untouched w w' → w'.clock = w₁.clock → (exec 0 r w₁).1 = .ok a →
      wp (baseAlone F) Q (f a) w')
    (herr : F → ∀ e w', Untouched w w' → Q (.error e) w') : wp (baseAlone F) Q (ask r >>= f) w := by
  refine wp_alone_await (fun d fault a _ hreply => ?_) fun d fault e hfault hreply => ?_
  · exact hok a _ _ (.elapse d w) ((Untouched.elapse d w).trans hr.untouched) answer_clock (exec_of_ok hreply)
  · exact herr (hfault (fault_of_error hr.2.1 hreply)) e _ ((Untouched.elapse d w).trans hr.untouched)

/-- An album that is not there does not come back. -/
theorem wp_gone {Q : Except PyExc α → World → Prop} {p : Prog α} (hp : p.Uses fun r => ∀ a, r ≠ .createAlbum a)
    (h : w.albums.find? albumId = none) (hQ : ∀ x w', w'.albums.find? albumId = none → Q x w') :
    wp (baseAlone F) Q p w := by
  refine wp_of_uses (I := fun w' => w'.albums.find? albumId = none) (fun r w₁ hr hnone => ⟨trivial, ?_⟩) hp h hQ
  intro x w' hstep
  obtain ⟨d, fault, _, hanswer⟩ := hstep
  have hstays : (backend.answer 0 r fault (backend.elapse d w₁)).2.albums.find? albumId = none :=
    album_stays_away hr (show (backend.elapse d w₁).albums.find? albumId = none from hnone)
  rwa [hanswer] at hstays

/-! ## The deletion -/

/-- The album is gone, or nothing has happened and the call has raised. -/
def GoneOrRaised (albumId : String) (user : User) (F : Prop) (w : World) (x : Except PyExc α) (w' : World) : Prop :=
  w'.albums.find? albumId = none ∨ (Untouched w w' ∧ ∃ e, x = .error e ∧ (F ∨ Rejects albumId user w' e))

theorem getAlbumOr404_or_raises {user : User} :
    wp (baseAlone F) (fun x w' => (∀ album, x = .ok album → Untouched w w' ∧ w'.albums.find? albumId = some album) ∧
      ∀ e, x = .error e → GoneOrRaised (α := β) albumId user F w (.error e) w') (getAlbumOr404 albumId) w := by
  refine wp_looks ⟨rfl, rfl, rfl⟩ (fun found w₁ w' hw hw' _ hfound => ?_) fun hF e w' hw' => ?_
  · obtain rfl := Except.ok.inj hfound
    have hsame : w₁.albums.find? albumId = w'.albums.find? albumId := by rw [hw.albums, hw'.albums]
    cases hfind : w₁.albums.find? albumId with
    | none =>
      refine ⟨fun _ h => (nomatch h), fun _ _ => Or.inl ?_⟩
      rw [← hsame, hfind]
    | some album =>
      refine ⟨fun _ h => ⟨hw', ?_⟩, fun _ h => nomatch h⟩
      rw [← hsame, hfind, Except.ok.inj h]
  · exact ⟨fun _ h => (nomatch h), fun e' h => Or.inr ⟨hw', e', rfl, Or.inl hF⟩⟩

theorem requireAlbumAccess_or_raises {album : Album} {user : User} (halbum : w.albums.find? albumId = some album) :
    wp (baseAlone F) (fun x w' => Untouched w w' ∧ ∀ e, x = .error e → F ∨ Rejects albumId user w' e)
      (requireAlbumAccess album none (some user) user.isAdmin) w := by
  refine wp_looks ⟨rfl, rfl, rfl⟩ (fun now w₁ w' hw hw' hclock hnow => ?_) fun hF e w' hw' => ⟨hw', fun _ _ => Or.inl hF⟩
  obtain rfl := Except.ok.inj hnow
  have halbum' : w'.albums.find? albumId = some album := by rw [hw'.albums, halbum]
  refine wp_check (fun hexpired => ⟨hw', fun e he => Or.inr ⟨album, halbum', Or.inl ?_⟩⟩) fun _ => ?_
  · rw [Bool.and_eq_true, Bool.not_eq_true'] at hexpired
    exact ⟨hexpired.1, hclock ▸ hexpired.2, (Except.error.inj he).symm⟩
  by_cases howner : adminOrOwner album (some user) = true
  · rw [if_pos howner]
    exact ⟨hw', fun _ h => nomatch h⟩
  · rw [if_neg howner]
    have hdenied : ∀ detail e, Except.error (PyExc.http 403 detail) = (Except.error e : Except PyExc Unit) →
        F ∨ Rejects albumId user w' e := by
      intro detail e he
      exact Or.inr ⟨album, halbum', Or.inr ⟨by simpa using howner, detail, (Except.error.inj he).symm⟩⟩
    refine wp_check (fun _ => ⟨hw', hdenied _⟩) fun _ => ?_
    rw [requireDeleteToken, wp_raiseIf]
    exact ⟨fun _ => ⟨hw', hdenied _⟩, fun _ => ⟨hw', fun _ h => nomatch h⟩⟩

theorem storage_creates_nothing (items : List Media) :
    (deleteMediaStorageKeys items).Uses fun r => ∀ a, r ≠ .createAlbum a :=
  deleteMediaStorageKeys_uses (fun _ => nofun) items

theorem deleteAlbum_or_raises {user : User} {correlationId : String} :
    wp (baseAlone F) (GoneOrRaised albumId user F w) (deleteAlbum albumId none correlationId (some user)) w := by
  refine wp_seq getAlbumOr404_or_raises (fun album w₁ h => ?_) fun e w₁ h => h.2 e rfl
  obtain ⟨hw₁, halbum⟩ := h.1 album rfl
  refine wp_seq (requireAlbumAccess_or_raises halbum) (fun _ w₂ h => ?_) fun e w₂ h =>
    Or.inr ⟨hw₁.trans h.1, e, rfl, h.2 e rfl⟩
  have hw₂ := hw₁.trans h.1
  refine wp_looks ⟨rfl, rfl, rfl⟩ (fun _ _ w₃ _ hw₃ _ _ => ?_) fun hF e w₃ hw₃ => Or.inr ⟨hw₂.trans hw₃, e, rfl, Or.inl hF⟩
  replace hw₃ := hw₂.trans hw₃
  -- the transaction: a failure leaves it undone
  refine wp_seq (R := fun x w' => w'.albums.find? albumId = none ∨ (Untouched w w' ∧ F ∧ ∃ e, x = .error e)) ?_
    (fun deleted w' h => ?_) fun e w' h => ?_
  · refine wp_looks ⟨rfl, rfl, rfl⟩ (fun mediaRows _ w₄ _ hw₄ _ _ => ?_) fun hF e w₄ hw₄ => Or.inr ⟨hw₃.trans hw₄, hF, e, rfl⟩
    replace hw₄ := hw₃.trans hw₄
    refine wp_alone_await (fun d fault row _ hreply => ?_) fun d fault e hfault hreply => ?_
    · have hgone : (backend.answer 0 (.deleteAlbumRow albumId) fault (backend.elapse d w₄)).2.albums.find? albumId = none := by
        rw [answer_of_ok hreply, find?_deleteAlbumRow, if_pos rfl]
      cases row with
      | none => exact Or.inl hgone
      | some row => exact Or.inl hgone
    · have hF := hfault (fault_of_error rfl hreply)
      rcases answer_cases 0 (.deleteAlbumRow albumId) fault (backend.elapse d w₄) with hexec | ⟨e', _, hfail⟩
      · rw [hexec] at hreply
        cases hreply
      · rw [hfail]
        exact Or.inr ⟨(hw₄.trans (.elapse d w₄)).trans ⟨⟨rfl, rfl, rfl, rfl, rfl, Int.le_refl _⟩, rfl⟩, hF, e, rfl⟩
  · rcases h with hgone | ⟨_, _, e, he⟩
    · obtain ⟨row, deletedMedia⟩ := deleted
      cases row with
      | none => exact Or.inl hgone
      | some row =>
        refine wp_gone ?_ hgone fun _ _ h => Or.inl h
        exact uses_bind (storage_creates_nothing deletedMedia) fun _ => uses_bind (uses_perform nofun) fun _ => trivial
    · cases he
  · rcases h with hgone | ⟨hw', hF, _⟩
    · exact Or.inl hgone
    · exact Or.inr ⟨hw', e, rfl, Or.inl hF⟩

/-! ## The submit -/

/-- The calls of a submit that only read. -/
def Views : ShareXReq → Prop
  | .inl r => Looks r
  | .inr (.getSharexDeleteCapability _) | .inr (.renderTemplatePage _) => True
  | .inr _ => False

theorem Views.untouched {r : ShareXReq} {fault : Option PyExc} (h : Views r) : Untouched w (shareXBackend.answer 0 r fault w).2 := by
  rcases r with r | r
  · rw [answer_inl]
    exact Looks.untouched h
  · rw [answer_capability]
    cases r with
    | getSharexDeleteCapability | renderTemplatePage => cases fault <;> exact .refl w
    | createSharexDeleteCapability | touchSharexDeleteCapability | consumeSharexDeleteCapability => exact h.elim

theorem Views.fault_of_error {r : ShareXReq} {fault : Option PyExc} {e : PyExc} (h : Views r)
    (he : (shareXBackend.answer 0 r fault w).1 = .error e) : fault.isSome = true := by
  rcases r with r | r
  · rw [answer_inl] at he
    exact ShareX.fault_of_error h.2.1 he
  · cases fault with
    | some e => rfl
    | none =>
      rw [answer_capability] at he
      cases r <;> first | exact h.elim | cases he

theorem wp_views {Q : Except PyExc β → World → Prop} {r : ShareXReq} {f : ShareXReply r → ShareXProg β} (hr : Views r)
    (hok : ∀ a w₁ w', Untouched w w₁ → Untouched w w' → (shareXBackend.exec 0 r w₁).1 = .ok a → wp (submitAlone F) Q (f a) w')
    (herr : F → ∀ e w', Untouched w w' → Q (.error e) w') : wp (submitAlone F) Q (Program.perform r >>= f) w := by
  have hkept : ∀ d fault, Untouched w (shareXBackend.answer 0 r fault (shareXBackend.elapse d w)).2 :=
    fun d _ => (Untouched.elapse d w).trans hr.untouched
  refine wp_alone_await (fun d fault a _ hreply => ?_) fun d fault e hfault hreply => ?_
  · refine hok a _ _ (.elapse d w) (hkept d fault) ?_
    rcases r with r | r
    · rw [answer_inl] at hreply
      exact exec_of_ok hreply
    · rw [answer_capability] at hreply
      cases fault with
      | none => exact hreply
      | some e => cases hreply
  · exact herr (hfault (hr.fault_of_error hreply)) e _ (hkept d fault)

/-- The consuming `UPDATE` takes one link of the album or none. -/
theorem consume_alone {selector : String} {fault : Option PyExc} :
    ((shareXBackend.answer 0 (.inr (.consumeSharexDeleteCapability selector albumId)) fault w).2 = w ∧
        ∀ c, (shareXBackend.answer 0 (.inr (.consumeSharexDeleteCapability selector albumId)) fault w).1 ≠ .ok (some c)) ∨
      ∃ c, OnlySpent albumId w (shareXBackend.answer 0 (.inr (.consumeSharexDeleteCapability selector albumId)) fault w).2 c ∧
        (shareXBackend.answer 0 (.inr (.consumeSharexDeleteCapability selector albumId)) fault w).1 = .ok (some (consumed w.clock c)) := by
  rw [answer_capability]
  cases fault with
  | some e => exact Or.inl ⟨rfl, fun _ => nofun⟩
  | none =>
    show ((consumeCapability w selector albumId).2 = w ∧
        ∀ c, (Except.ok (consumeCapability w selector albumId).1 : Except PyExc _) ≠ .ok (some c)) ∨
      ∃ c, OnlySpent albumId w (consumeCapability w selector albumId).2 c ∧
        (Except.ok (consumeCapability w selector albumId).1 : Except PyExc _) = .ok (some (consumed w.clock c))
    rcases updateCapability_cases w selector (fun c => c.albumId == albumId && live w.clock c) (consumed w.clock) fun _ => rfl with
      hnone | ⟨c, hc, hp, hsome⟩
    · rw [show consumeCapability w selector albumId = _ from hnone]
      exact Or.inl ⟨rfl, fun _ => nofun⟩
    · rw [show consumeCapability w selector albumId = _ from hsome]
      rw [Bool.and_eq_true, beq_iff_eq] at hp
      obtain rfl : c.selector = selector := Table.find?_key hc
      have hfind := @Table.find?_update _ _ _ _ w.sharexDeleteCapabilities c.selector (consumed w.clock) (fun _ => rfl)
      refine Or.inr ⟨c, ⟨hc, hp.1, ⟨w.clock, hp.2, ?_⟩, fun s hs => ?_⟩, rfl⟩
      · exact (hfind c.selector).trans (by rw [if_pos rfl, hc]; rfl)
      · exact (hfind s).trans (if_neg hs)

theorem OnlySpent.stays {c : ShareXDeleteCapability} (h : OnlySpent albumId w₀ w c) (hw : Untouched w w₁) :
    OnlySpent albumId w₀ w₁ c := by
  obtain ⟨now, hlive, hrow⟩ := h.after
  refine ⟨h.before, h.albumId, ⟨now, hlive, ?_⟩, fun s hs => ?_⟩
  · rw [hw.links, hrow]
  · rw [hw.links, h.others s hs]

/-- How a submit ends, begun in the world `w`. -/
def Together (albumId : String) (F : Prop) (w : World) (x : Except PyExc α) (w' : World) : Prop :=
  w'.albums.find? albumId = none ∨ ∃ e, x = .error e ∧
    (w'.sharexDeleteCapabilities = w.sharexDeleteCapabilities ∨
      ∃ c, OnlySpent albumId w w' c ∧ (F ∨ Refuses albumId c w' e))

theorem together_of_untouched {e : PyExc} (h : Untouched w w₁) : Together (α := α) albumId F w (.error e) w₁ :=
  Or.inr ⟨e, rfl, Or.inl h.links⟩

theorem renderTemplatePage_together {page : Page} {f : Page → ShareXProg Response} (hgone : w.albums.find? albumId = none)
    (hf : ∀ shown, f shown = pure (.page shown)) :
    wp (submitAlone F) (Together albumId F w₀) (renderTemplatePage page >>= f) w := by
  have hpage : wp (submitAlone F) (fun (_ : Except PyExc Page) w' => w'.albums.find? albumId = none) (renderTemplatePage page) w := by
    refine wp_views trivial (fun _ _ w' _ hw' _ => ?_) fun _ _ w' hw' => ?_
    · show w'.albums.find? albumId = none
      rw [hw'.albums, hgone]
    · rw [hw'.albums, hgone]
  refine wp_seq hpage (fun shown w' h => ?_) fun _ _ h => Or.inl h
  rw [hf]
  exact Or.inl h

theorem alreadyConsumed_together {confirmation : ShareXDeleteConfirmationPayload} (hw : Untouched w₀ w) :
    wp (submitAlone F) (Together albumId F w₀) (alreadyConsumed confirmation albumId) w := by
  refine wp_views trivial (fun current _ w₁ _ hw₁ _ => ?_) fun _ _ _ hw₁ => together_of_untouched (hw.trans hw₁)
  replace hw₁ := hw.trans hw₁
  refine wp_views (r := .inl (.getAlbum albumId)) ⟨rfl, rfl, rfl⟩ (fun album w₂ w₃ hw₂ hw₃ halbum => ?_)
    fun _ _ _ hw₃ => together_of_untouched (hw₁.trans hw₃)
  refine wp_check (fun _ => together_of_untouched (hw₁.trans hw₃)) fun hpass => ?_
  refine renderTemplatePage_together ?_ fun _ => rfl
  obtain rfl : w₂.albums.find? albumId = album := Except.ok.inj halbum
  rw [Bool.or_eq_false_iff] at hpass
  rw [hw₃.albums, ← hw₂.albums]
  simpa using hpass.2

theorem deleteConsumed_together {c : ShareXDeleteCapability} {now : DateTime} {correlationId : String}
    (hspent : OnlySpent albumId w₀ w c) :
    wp (submitAlone F) (Together albumId F w₀) (deleteConsumed (consumed now c) albumId correlationId) w := by
  refine wp_views (r := .inl (.getUser c.userId)) ⟨rfl, rfl, rfl⟩ (fun found w₁ w₂ hw₁ hw₂ hfound => ?_)
    fun hF e w₂ hw₂ => Or.inr ⟨e, rfl, Or.inr ⟨c, hspent.stays hw₂, Or.inl hF⟩⟩
  obtain rfl : w₁.users.find? c.userId = found := Except.ok.inj hfound
  have husers : w₂.users.find? c.userId = w₁.users.find? c.userId := by rw [hw₂.users, hw₁.users]
  cases huser : w₁.users.find? c.userId with
  | none => exact Or.inr ⟨_, rfl, Or.inr ⟨c, hspent.stays hw₂, Or.inr (Or.inl ⟨husers.trans huser, rfl⟩)⟩⟩
  | some user =>
    refine wp_seq (wp_alone_widen deleteAlbum_or_raises) (fun deleted w₃ h => ?_) fun e w₃ h => ?_
    · rcases h with hgone | ⟨_, e, he, _⟩
      · exact renderTemplatePage_together hgone fun _ => rfl
      · cases he
    · rcases h with hgone | ⟨hw₃, e', he, hwhy⟩
      · exact Or.inl hgone
      · obtain rfl := Except.error.inj he
        refine Or.inr ⟨e, rfl, Or.inr ⟨c, hspent.stays (hw₂.trans hw₃), hwhy.imp id fun hrejects => Or.inr ⟨user, ?_, hrejects⟩⟩⟩
        rw [hw₃.users, husers, huser]

theorem confirmSubmit_together {load : DateTime → Except PyExc ShareXDeleteConfirmationPayload} {correlationId : String} :
    wp (submitAlone F) (Together albumId F w) (confirmSubmit load albumId correlationId) w := by
  refine wp_views (r := .inl .utcnow) ⟨rfl, rfl, rfl⟩ (fun now _ w₁ _ hw₁ _ => ?_) fun _ _ _ hw₁ => together_of_untouched hw₁
  refine wp_value (fun confirmation _ => ?_) fun _ _ => together_of_untouched hw₁
  refine wp_alone_await (fun d fault found _ hreply => ?_) fun d fault e _ hreply => ?_
  · have hw₂ := hw₁.trans (.elapse d w₁)
    rcases @consume_alone (backend.elapse d w₁) albumId confirmation.selector fault with ⟨hsame, hnone⟩ | ⟨c, hspent, hconsumed⟩
    · cases found with
      | some c => exact absurd hreply (hnone c)
      | none =>
        refine alreadyConsumed_together ?_
        rw [show shareXBackend.elapse d w₁ = backend.elapse d w₁ from rfl, hsame]
        exact hw₂
    · obtain rfl := Except.ok.inj (hconsumed.symm.trans hreply)
      refine deleteConsumed_together ⟨?_, hspent.albumId, hspent.after, fun s hs => ?_⟩
      · rw [← hw₂.links, hspent.before]
      · rw [show shareXBackend.elapse d w₁ = backend.elapse d w₁ from rfl, hspent.others s hs, hw₂.links]
  · rcases @consume_alone (backend.elapse d w₁) albumId confirmation.selector fault with ⟨hsame, _⟩ | ⟨c, _, hconsumed⟩
    · rw [show shareXBackend.elapse d w₁ = backend.elapse d w₁ from rfl, hsame]
      exact together_of_untouched (hw₁.trans (.elapse d w₁))
    · have herror := hconsumed.symm.trans hreply
      cases herror

namespace Sample

/-- The album has expired in the meantime; its owner is no admin. -/
def expiredSite : World := { site with albums := .single { aliceAlbum with expiresAt := some FamiliesSample.firstOf2026 } }

/-- The submit of the cookie, by itself. -/
def soloSubmit : ShareXProg Response := do
  raiseIf (!isValidAlbumId shareXLib "222222222") notFound
  confirmSubmit readsCookie "222222222" "sharex-delete"

theorem soloSubmit_prog : sharexDeleteConfirmSubmit config.lib config.secretKey "222222222" signedCookie none = soloSubmit := by
  show (do
    raiseIf (!isValidAlbumId shareXLib "222222222") notFound
    confirmSubmit (loadSharexConfirmation shareXLib "secret" "222222222" signedCookie) "222222222" "sharex-delete" : ShareXProg _) = _
  rw [load_signedCookie]
  rfl

end Sample

end Imghost.ShareX
