/-
  Imghost.Service.Alone — rules for an operation that runs with nothing beside it.

  The state is the world itself. A call that reads leaves it the `Same` as far as any
  operation can tell, apart from the clock, so what an operation was told is what holds
  when it acts on it. `C` restricts the calls the environment makes fail.
-/

import Imghost.Service.Footprint

namespace Imghost.Service

open Imghost.Async Imghost.Data Imghost.Model Program

/-- What an operation reads has not changed; time may have passed. -/
structure Same (w w' : World) : Prop where
  users : w'.users = w.users
  albums : w'.albums = w.albums
  media : w'.media = w.media
  objects : w'.objects = w.objects
  config : w'.config = w.config
  clock : w.clock ≤ w'.clock

variable {α β : Type} {C : Req → Option PyExc → World → Prop} {w w₀ w₁ w₂ : World}

namespace Same

theorem refl (w : World) : Same w w := ⟨rfl, rfl, rfl, rfl, rfl, Int.le_refl _⟩

theorem trans (h : Same w₀ w₁) (h' : Same w₁ w₂) : Same w₀ w₂ :=
  ⟨h'.users.trans h.users, h'.albums.trans h.albums, h'.media.trans h.media, h'.objects.trans h.objects,
    h'.config.trans h.config, Int.le_trans h.clock h'.clock⟩

theorem elapse (d : Nat) (w : World) : Same w (backend.elapse d w) :=
  ⟨rfl, rfl, rfl, rfl, rfl, Int.le_add_of_nonneg_right (Int.natCast_nonneg d)⟩

theorem answer {i : Nat} {r : Req} {fault : Option PyExc} (hr : Req.reads r = true) :
    Same w (backend.answer i r fault w).2 := by
  have hchanges : Req.changesUsers r = false ∧ Req.changesAlbums r = false ∧ Req.changesMedia r = false ∧
      Req.changesObjects r = false := by
    cases r <;> first | exact ⟨rfl, rfl, rfl, rfl⟩ | cases hr
  obtain ⟨hu, ha, hm, ho⟩ := hchanges
  exact ⟨answer_users hu, answer_albums ha, answer_media hm, answer_objects ho, answer_config,
    Int.le_of_eq answer_clock.symm⟩

theorem mediaOf (h : Same w w₁) (albumId : String) : w₁.mediaOf albumId = w.mediaOf albumId := by
  rw [World.mediaOf, h.media]; rfl

theorem listAlbumMedia (h : Same w w₁) (albumId : String) : w₁.listAlbumMedia albumId = w.listAlbumMedia albumId := by
  rw [World.listAlbumMedia, h.mediaOf]; rfl

/-- What has not expired yet had not expired before. -/
theorem notExpired (h : Same w w₁) {t : Option DateTime} (ht : isExpired w₁.clock t = false) :
    isExpired w.clock t = false := by
  cases t with
  | none => rfl
  | some t =>
    simp only [isExpired, decide_eq_false_iff_not] at ht ⊢
    exact fun hle => ht (Int.le_trans hle h.clock)

end Same

/-! ## One call -/

/-- One call and what follows it. -/
theorem wp_ask {Q : Except PyExc β → World → Prop} {r : Req} {f : Reply r → Prog β}
    (hok : ∀ a fault w₁ w', Same w w₁ → C r fault w₁ → backend.answer 0 r fault w₁ = (.ok a, w') →
      wp (backend.alone C) Q (f a) w')
    (herr : ∀ e fault w₁ w', Same w w₁ → C r fault w₁ → backend.answer 0 r fault w₁ = (.error e, w') →
      Q (.error e) w') :
    wp (backend.alone C) Q (ask r >>= f) w := by
  rw [wp_bind, wp_perform]
  refine ⟨trivial, ?_⟩
  rintro (e | a) w' ⟨d, fault, hC, h⟩
  · exact herr e fault _ w' (.elapse d w) hC h
  · exact hok a fault _ w' (.elapse d w) hC h

/-- A read: the reply is what the unchanged world holds. -/
theorem wp_read {Q : Except PyExc β → World → Prop} {r : Req} {f : Reply r → Prog β} (hr : Req.reads r = true)
    (hok : ∀ a w₁ w', Same w w₁ → Same w w' → (exec 0 r w₁).1 = .ok a → wp (backend.alone C) Q (f a) w')
    (herr : ∀ e w', Same w w' → Q (.error e) w') : wp (backend.alone C) Q (ask r >>= f) w := by
  have same : ∀ {x fault w₁ w'}, Same w w₁ → backend.answer 0 r fault w₁ = (x, w') → Same w w' := by
    intro x fault w₁ w' hw h
    have := hw.trans (@Same.answer _ 0 _ fault hr)
    rwa [h] at this
  refine wp_ask (fun a fault w₁ w' hw _ h => ?_) fun e fault w₁ w' hw _ h => herr e w' (same hw h)
  exact hok a w₁ w' hw (same hw h) (exec_of_ok (by rw [h]))

/-- What holds whatever happens. -/
theorem wp_whatever {Q : Except PyExc α → World → Prop} (hQ : ∀ x w', Q x w') (p : Prog α) (w : World) :
    wp (backend.alone C) Q p w := by
  induction p generalizing w with
  | ret a => exact hQ _ _
  | raise e => exact hQ _ _
  | call r k ih => exact ⟨trivial, fun x w' _ => ih x w'⟩

/-! ## Programs that only read -/

theorem wp_same {p : Prog α} (hp : p.Uses (Req.reads · = true)) :
    wp (backend.alone C) (fun _ w' => Same w w') p w := by
  refine wp_of_uses (I := fun w' => Same w w') (fun r w₁ hr hw => ⟨trivial, ?_⟩) hp (.refl w) fun _ _ hw => hw
  rintro x w' ⟨d, fault, -, h⟩
  have := (hw.trans (.elapse d w₁)).trans (@Same.answer _ 0 _ fault hr)
  rwa [h] at this

theorem wp_same_bind {Q : Except PyExc β → World → Prop} {p : Prog α} {f : α → Prog β}
    (hp : p.Uses (Req.reads · = true)) (hok : ∀ a w', Same w w' → wp (backend.alone C) Q (f a) w')
    (herr : ∀ e w', Same w w' → Q (.error e) w') : wp (backend.alone C) Q (p >>= f) w :=
  wp_seq (wp_same hp) hok herr

theorem plain_read (r : Req) (h : Req.plain r = true) : Req.reads r = true := plain_of_reads (fun _ h => h) r h

/-! ## Looking things up -/

theorem getAlbumOr404_finds (albumId : String) :
    wp (backend.alone C) (fun x w' => Same w w' ∧ ∀ album, x = .ok album → w.albums.find? albumId = some album)
      (getAlbumOr404 albumId) w := by
  refine wp_read rfl (fun found w₁ w' hw hw' h => ?_) fun e w' hw' => ⟨hw', fun a ha => nomatch ha⟩
  obtain rfl := Except.ok.inj h
  rw [hw.albums]
  cases hfound : w.albums.find? albumId with
  | none => exact ⟨hw', fun a ha => nomatch ha⟩
  | some album =>
    refine ⟨hw', fun a ha => ?_⟩
    rw [Except.ok.inj ha]

theorem getMediaOr404_finds (mediaId : String) :
    wp (backend.alone C) (fun x w' => Same w w' ∧ ∀ m, x = .ok m → w.media.find? mediaId = some m)
      (getMediaOr404 mediaId) w := by
  refine wp_read rfl (fun found w₁ w' hw hw' h => ?_) fun e w' hw' => ⟨hw', fun a ha => nomatch ha⟩
  obtain rfl := Except.ok.inj h
  rw [hw.media]
  cases hfound : w.media.find? mediaId with
  | none => exact ⟨hw', fun a ha => nomatch ha⟩
  | some m =>
    refine ⟨hw', fun a ha => ?_⟩
    rw [Except.ok.inj ha]

/-! ## Access -/

/-- What the check lets through. -/
def Granted (album : Album) (deleteToken : Option String) (actorUser : Option User) : Prop :=
  adminOrOwner album actorUser = true ∨
    (album.deleteToken ≠ none ∧ (truthy album.deleteToken = true → deleteToken = album.deleteToken))

theorem requireAlbumAccess_grants (album : Album) (deleteToken : Option String) (actorUser : Option User)
    (allowExpired : Bool) :
    wp (backend.alone C) (fun x w' => Same w w' ∧ (x = .ok () → Granted album deleteToken actorUser ∧
      (allowExpired = false → isExpired w.clock album.expiresAt = false)))
      (requireAlbumAccess album deleteToken actorUser allowExpired) w := by
  refine wp_read rfl (fun now w₁ w' hw hw' h => ?_) fun e w' hw' => ⟨hw', fun h => nomatch h⟩
  obtain rfl := Except.ok.inj h
  refine wp_check (fun _ => ⟨hw', fun h => nomatch h⟩) fun hfresh => ?_
  have hexpiry : allowExpired = false → isExpired w.clock album.expiresAt = false := by
    intro hallow
    apply hw.notExpired
    simpa [hallow] using hfresh
  by_cases hactor : adminOrOwner album actorUser = true
  · rw [if_pos hactor]
    exact ⟨hw', fun _ => ⟨.inl hactor, hexpiry⟩⟩
  · rw [if_neg hactor]
    refine wp_check (fun _ => ⟨hw', fun h => nomatch h⟩) fun htoken => ?_
    rw [requireDeleteToken, wp_raiseIf]
    refine ⟨fun _ => ⟨hw', fun h => nomatch h⟩, fun hequal => ⟨hw', fun _ => ⟨.inr ⟨?_, fun ht => ?_⟩, hexpiry⟩⟩⟩
    · intro hnone
      rw [hnone] at htoken
      cases htoken
    · simpa [ht] using hequal

end Imghost.Service
