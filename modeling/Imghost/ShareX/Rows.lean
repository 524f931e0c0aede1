/-
  Imghost.ShareX.Rows — what a call does to the rows of `sharex_delete_capabilities`.

  A row comes from `create_sharex_delete_capability` and goes with its album, its user or
  a cleanup. In between its columns stay, but for the time of its consumption, which only the
  consuming `UPDATE` sets, its revocation, which is never taken back, and the time it was seen.
-/

import Imghost.ShareX.Capabilities

namespace Imghost.ShareX

open Imghost.Async Imghost.Data Imghost.Model Imghost.Service Program

/-! ## Rows that stay -/

/-- What a call leaves of a row, be it consumed or not. -/
structure SameLink (c c' : ShareXDeleteCapability) : Prop where
  selector : c'.selector = c.selector
  purpose : c'.purpose = c.purpose
  albumId : c'.albumId = c.albumId
  userId : c'.userId = c.userId
  expiresAt : c'.expiresAt = c.expiresAt
  revoked : c.revokedAt.isSome = true → c'.revokedAt.isSome = true

theorem SameLink.refl (c : ShareXDeleteCapability) : SameLink c c := ⟨rfl, rfl, rfl, rfl, rfl, id⟩

/-- The calls of the service that change the table. -/
def changesCapabilities : Req → Bool
  | .deleteAlbumRow _ | .deleteUser _ | .revokeSharexDeleteCapabilitiesForUser _ => true
  | .deleteExpiredSharexDeleteCapabilities _ | .deleteRevokedSharexDeleteCapabilitiesOlderThan _ => true
  | .deleteConsumedSharexDeleteCapabilitiesOlderThan _ => true
  | _ => false

variable {i : Nat} {fault : Option PyExc} {w : World} {selector : String}

theorem answer_capabilities {r : Req} (h : changesCapabilities r = false) :
    (backend.answer i r fault w).2.sharexDeleteCapabilities = w.sharexDeleteCapabilities := by
  rcases answer_cases i r fault w with ha | ⟨e, -, ha⟩
  swap
  · rw [ha]
    rfl
  rw [ha]
  cases r <;> first
    | rfl
    | (simp only [changesCapabilities, Bool.true_eq_false] at h; done)
    | (simp only [exec, World.createAlbum, World.updateAlbum, World.lockAlbum, World.insertMedia,
        World.updateMediaThumbnailState, World.updateMediaPositions, World.createUser, World.updateUser]; repeat' split) <;> rfl

theorem find?_of_deleteWhere {t : Table ShareXDeleteCapability.selector} {p : ShareXDeleteCapability → Bool}
    {c : ShareXDeleteCapability} (h : (t.deleteWhere p).find? selector = some c) : t.find? selector = some c ∧ p c = false := by
  rw [Table.find?_deleteWhere, Option.filter_eq_some_iff] at h
  exact ⟨h.1, by simpa using h.2⟩

/-- A sweep of a user's links. -/
theorem sameLink_revoke {userId : String} {now : DateTime} {c : ShareXDeleteCapability} :
    SameLink c (if (c.userId == userId && c.consumedAt.isNone && c.revokedAt.isNone) = true then World.revoke now c else c) ∧
      (if (c.userId == userId && c.consumedAt.isNone && c.revokedAt.isNone) = true then World.revoke now c else c).consumedAt =
        c.consumedAt := by
  split
  · exact ⟨⟨rfl, rfl, rfl, rfl, rfl, fun _ => rfl⟩, rfl⟩
  · exact ⟨SameLink.refl c, rfl⟩

/-- A row after a call of the service was there before, consumed or not. -/
theorem row_before_base {r : Req} {c' : ShareXDeleteCapability}
    (h : (backend.answer i r fault w).2.sharexDeleteCapabilities.find? selector = some c') :
    ∃ c, w.sharexDeleteCapabilities.find? selector = some c ∧ SameLink c c' ∧ c'.consumedAt = c.consumedAt := by
  by_cases hsame : changesCapabilities r = false
  · rw [answer_capabilities hsame] at h
    exact ⟨c', h, SameLink.refl c', rfl⟩
  rcases answer_cases i r fault w with ha | ⟨e, -, ha⟩
  swap
  · rw [ha] at h
    exact ⟨c', h, SameLink.refl c', rfl⟩
  rw [ha] at h
  cases r <;> first | exact absurd rfl hsame | skip
  case deleteAlbumRow albumId => exact ⟨c', (find?_of_deleteWhere h).1, SameLink.refl c', rfl⟩
  case deleteUser userId =>
    simp only [exec, World.deleteUser] at h
    split at h
    · exact ⟨c', h, SameLink.refl c', rfl⟩
    · exact ⟨c', (find?_of_deleteWhere (find?_of_deleteWhere h).1).1, SameLink.refl c', rfl⟩
  case revokeSharexDeleteCapabilitiesForUser userId =>
    simp only [exec, World.revokeSharexDeleteCapabilitiesForUser, Table.find?_modify, Option.map_eq_some_iff] at h
    obtain ⟨c, hc, rfl⟩ := h
    exact ⟨c, hc, sameLink_revoke⟩
  all_goals exact ⟨c', (find?_of_deleteWhere h).1, SameLink.refl c', rfl⟩

theorem updateCapability_cases (w : World) (selector : String) (p : ShareXDeleteCapability → Bool)
    (f : ShareXDeleteCapability → ShareXDeleteCapability) (hf : ∀ c, (f c).selector = c.selector) :
    updateCapability w selector p f hf = (none, w) ∨
      ∃ c, w.sharexDeleteCapabilities.find? selector = some c ∧ p c = true ∧ updateCapability w selector p f hf =
        (some (f c), { w with sharexDeleteCapabilities := w.sharexDeleteCapabilities.update selector f hf }) := by
  unfold updateCapability
  cases h : (w.sharexDeleteCapabilities.find? selector).filter p with
  | none => exact Or.inl rfl
  | some c =>
    obtain ⟨hc, hp⟩ := Option.filter_eq_some_iff.mp h
    exact Or.inr ⟨c, hc, hp, rfl⟩

theorem find?_updateCapability {w : World} {s : String} {p : ShareXDeleteCapability → Bool}
    {f : ShareXDeleteCapability → ShareXDeleteCapability} {hf : ∀ c, (f c).selector = c.selector} {c' : ShareXDeleteCapability}
    (h : (updateCapability w s p f hf).2.sharexDeleteCapabilities.find? selector = some c') :
    ∃ c, w.sharexDeleteCapabilities.find? selector = some c ∧ (c' = c ∨ s = selector ∧ p c = true ∧ c' = f c) := by
  rcases updateCapability_cases w s p f hf with hnone | ⟨c, hc, hp, hsome⟩
  · rw [hnone] at h
    exact ⟨c', h, Or.inl rfl⟩
  · rw [hsome] at h
    simp only [Table.find?_update] at h
    split at h
    · rename_i hs
      subst hs
      rw [hc, Option.map_some] at h
      exact ⟨c, hc, Or.inr ⟨rfl, hp, (Option.some.inj h).symm⟩⟩
    · exact ⟨c', h, Or.inl rfl⟩

theorem answer_capability (r : CapabilityReq) (w : World) : shareXBackend.answer i (.inr r) fault w =
    match fault with
    | none => execCapability r w
    | some e => (.error e, w) := by
  cases fault <;> rfl

theorem answer_inl (r : Req) (w : World) : shareXBackend.answer i (.inl r) fault w = backend.answer i r fault w :=
  Backend.answer_extend_inl ..

theorem createCapability_rows {c : ShareXDeleteCapability} :
    (createCapability w c).2 = w ∨
      ∃ t, w.sharexDeleteCapabilities.insert c = some t ∧ createCapability w c = (.ok c, { w with sharexDeleteCapabilities := t }) := by
  unfold createCapability
  split
  · exact Or.inl rfl
  · rename_i t ht
    split
    · exact Or.inl rfl
    · exact Or.inr ⟨t, ht, rfl⟩

/-- The calls about links change nothing but the links. -/
theorem capability_frame (r : CapabilityReq) (w : World) :
    ∃ t, (shareXBackend.answer i (.inr r) fault w).2 = { w with sharexDeleteCapabilities := t } := by
  rw [answer_capability]
  cases fault with
  | some e => exact ⟨w.sharexDeleteCapabilities, rfl⟩
  | none =>
    have hupdate : ∀ s p f hf, ∃ t, (updateCapability w s p f hf).2 = { w with sharexDeleteCapabilities := t } := by
      intro s p f hf
      rcases updateCapability_cases w s p f hf with h | ⟨c, _, _, h⟩
      · exact ⟨w.sharexDeleteCapabilities, by rw [h]⟩
      · exact ⟨_, by rw [h]⟩
    cases r with
    | createSharexDeleteCapability c =>
      rcases createCapability_rows (w := w) (c := c) with h | ⟨t, _, h⟩
      · exact ⟨w.sharexDeleteCapabilities, h⟩
      · exact ⟨t, congrArg Prod.snd h⟩
    | getSharexDeleteCapability | renderTemplatePage => exact ⟨w.sharexDeleteCapabilities, rfl⟩
    | touchSharexDeleteCapability s => exact hupdate s _ _ _
    | consumeSharexDeleteCapability s a => exact hupdate s _ _ _

/-- Only `elapse` moves the clock. -/
theorem shareX_answer_clock (r : ShareXReq) (w : World) : (shareXBackend.answer i r fault w).2.clock = w.clock := by
  rcases r with r | r
  · rw [answer_inl]
    exact answer_clock
  · obtain ⟨t, ht⟩ := @capability_frame i fault r w
    rw [ht]

theorem live_fields {now : DateTime} {c : ShareXDeleteCapability} (h : live now c = true) :
    c.revokedAt = none ∧ c.consumedAt = none ∧ now < c.expiresAt := by
  simp only [live, Bool.and_eq_true, decide_eq_true_eq] at h
  exact ⟨Option.isNone_iff_eq_none.mp h.1.1, Option.isNone_iff_eq_none.mp h.1.2, h.2⟩

/-- A row after a call was there before or has just been created; it is consumed as it was, or by
    this call. -/
theorem row_before {r : ShareXReq} {c' : ShareXDeleteCapability}
    (h : (shareXBackend.answer i r fault w).2.sharexDeleteCapabilities.find? selector = some c') :
    (∃ c, w.sharexDeleteCapabilities.find? selector = some c ∧ SameLink c c' ∧
      (c'.consumedAt = c.consumedAt ∨ ∃ albumId, r = .inr (.consumeSharexDeleteCapability selector albumId) ∧
        c.albumId = albumId ∧ live w.clock c = true ∧ c' = consumed w.clock c)) ∨
      r = .inr (.createSharexDeleteCapability c') := by
  rcases r with r | r
  · rw [answer_inl] at h
    obtain ⟨c, hc, hsame, hconsumed⟩ := row_before_base h
    exact Or.inl ⟨c, hc, hsame, Or.inl hconsumed⟩
  rw [answer_capability] at h
  cases fault with
  | some e => exact Or.inl ⟨c', h, SameLink.refl c', Or.inl rfl⟩
  | none =>
    cases r with
    | getSharexDeleteCapability s => exact Or.inl ⟨c', h, SameLink.refl c', Or.inl rfl⟩
    | renderTemplatePage page => exact Or.inl ⟨c', h, SameLink.refl c', Or.inl rfl⟩
    | createSharexDeleteCapability c =>
      rcases createCapability_rows (w := w) (c := c) with hw | ⟨t, ht, hw⟩
      · rw [show (execCapability (.createSharexDeleteCapability c) w).2 = w from hw] at h
        exact Or.inl ⟨c', h, SameLink.refl c', Or.inl rfl⟩
      · change (createCapability w c).2.sharexDeleteCapabilities.find? selector = some c' at h
        rw [hw, Table.find?_insert ht] at h
        split at h
        · exact Or.inr (by rw [Option.some.inj h])
        · exact Or.inl ⟨c', h, SameLink.refl c', Or.inl rfl⟩
    | touchSharexDeleteCapability s =>
      obtain ⟨c, hc, hc' | ⟨_, _, hc'⟩⟩ := find?_updateCapability h
      · exact Or.inl ⟨c, hc, hc' ▸ SameLink.refl c', Or.inl (by rw [hc'])⟩
      · exact Or.inl ⟨c, hc, hc' ▸ ⟨rfl, rfl, rfl, rfl, rfl, id⟩, Or.inl (by rw [hc']; rfl)⟩
    | consumeSharexDeleteCapability s albumId =>
      obtain ⟨c, hc, hc' | ⟨hs, hp, hc'⟩⟩ := find?_updateCapability h
      · exact Or.inl ⟨c, hc, hc' ▸ SameLink.refl c', Or.inl (by rw [hc'])⟩
      · rw [Bool.and_eq_true, beq_iff_eq] at hp
        exact Or.inl ⟨c, hc, hc' ▸ ⟨rfl, rfl, rfl, rfl, rfl, id⟩, Or.inr ⟨albumId, by rw [hs], hp.1, hp.2, hc'⟩⟩

/-! ## Consumption and deletion -/

/-- A call that consumes a row finds it live, for its own album, and leaves it consumed. -/
theorem consume_ok {albumId : String} {c' : ShareXDeleteCapability}
    (h : (shareXBackend.answer i (.inr (.consumeSharexDeleteCapability selector albumId)) fault w).1 = .ok (some c')) :
    ∃ c, w.sharexDeleteCapabilities.find? selector = some c ∧ c.albumId = albumId ∧ live w.clock c = true ∧
      c' = consumed w.clock c ∧
      (shareXBackend.answer i (.inr (.consumeSharexDeleteCapability selector albumId)) fault w).2.sharexDeleteCapabilities.find?
        selector = some c' := by
  rw [answer_capability] at h ⊢
  cases fault with
  | some e => cases h
  | none =>
    rcases updateCapability_cases w selector (fun c => c.albumId == albumId && live w.clock c) (consumed w.clock) fun _ => rfl with
      hnone | ⟨c, hc, hp, hsome⟩
    · have h : (Except.ok (consumeCapability w selector albumId).1 : Except PyExc _) = .ok (some c') := h
      rw [show consumeCapability w selector albumId = (none, w) from hnone] at h
      cases h
    · have h : (Except.ok (consumeCapability w selector albumId).1 : Except PyExc _) = .ok (some c') := h
      rw [show consumeCapability w selector albumId = _ from hsome] at h
      rw [Bool.and_eq_true, beq_iff_eq] at hp
      obtain rfl := Option.some.inj (Except.ok.inj h)
      refine ⟨c, hc, hp.1, hp.2, rfl, ?_⟩
      show (consumeCapability w selector albumId).2.sharexDeleteCapabilities.find? selector = _
      rw [show consumeCapability w selector albumId = _ from hsome]
      have hfind := @Table.find?_update _ _ _ _ w.sharexDeleteCapabilities selector (consumed w.clock) (fun _ => rfl) selector
      rw [if_pos rfl, hc] at hfind
      exact hfind

/-- An album takes its links with it. -/
theorem deleteAlbumRow_ok {albumId : String} {album : Album}
    (h : (backend.answer i (.deleteAlbumRow albumId) fault w).1 = .ok (some album)) :
    w.albums.find? albumId = some album ∧
      ∀ c ∈ (backend.answer i (.deleteAlbumRow albumId) fault w).2.sharexDeleteCapabilities, c.albumId ≠ albumId := by
  have hexec := exec_of_ok h
  have halbum : w.albums.find? albumId = some album := Except.ok.inj hexec
  refine ⟨halbum, fun c hc => ?_⟩
  rw [answer_of_ok h] at hc
  simp only [exec, World.deleteAlbumRow, World.dropAlbums, Table.mem_deleteWhere] at hc
  intro hcAlbum
  have hgone : ((w.albums.rows.filter (·.id == albumId)).map (·.id)).contains c.albumId = true := by
    rw [List.contains_eq_mem, decide_eq_true_eq, hcAlbum]
    refine List.mem_map.mpr ⟨album, List.mem_filter.mpr ⟨Table.find?_mem halbum, ?_⟩, Table.find?_key halbum⟩
    simpa using Table.find?_key halbum
  rw [hgone] at hc
  cases hc.2

end Imghost.ShareX
