/-
  Imghost.Client.AlbumOrder — putting the items of an album in order, on its page
  (`album-detail.js`, `album-detail-actions.js`) and on the server.

  The cards of the page are dragged: `dragover` moves the dragged card at once, `dragend` sends
  the order if it is no longer that of the album last rendered. The buttons send the order
  with one card moved, and move no card themselves. A request that fails is followed by a
  reload; `reorderInFlight` keeps a second request from being sent meanwhile. Answers to other
  requests render the album whenever they arrive, also during a drag.

  - `page_coherent`: whatever is dragged, pressed and answered, in any order: at most one order
    request is on its way, the cards are those of the album last rendered, each once, and when
    nothing is dragged or awaited they stand in its order, unless a reorder and its reload have
    both failed (`a_lost_reload_leaves_the_drop`).
  - `sent_order_is_stored`: a request the server answers leaves the items it names in the order
    in which the cards stood, whatever other items the album has got.
-/

import Imghost.Sequential.Arrangement

namespace Imghost.Client.AlbumOrder

open Imghost.Async Imghost.Data Imghost.Model Imghost.Service Program
open Imghost.Sequential.Room Imghost.Sequential.Arrangement

/-! ## The page -/

/-- What a running `persistOrder` awaits. -/
inductive Awaited where
  | order (mediaIds : List String)
  | reload
  deriving DecidableEq, Repr

/-- The page of one album, and what it has sent. -/
structure Page where
  /-- The ids of `state.album.items`; none before the first load. -/
  items : List String
  /-- The ids of the cards, from the top. -/
  cards : List String
  draggedMediaId : Option String
  reorderInFlight : Bool
  /-- The calls of `persistOrder` that have not returned. -/
  pending : List Awaited
  /-- The `mediaIds` of the order requests so far. -/
  sent : List (List String)
  /-- The reload after a failed reorder has failed too, and nothing was rendered since. -/
  lost : Bool
  deriving DecidableEq, Repr

inductive Act where
  | dragstart (mediaId : String)
  | dragover (target : String) (insertAfter : Bool)
  | dragend
  | moveButton (mediaId : String) (direction : Int)
  /-- An album arrives for another request. -/
  | rendered (items : List String)
  /-- The call at this place of `pending` is answered: with an album, or it fails. -/
  | answered (n : Nat) (album : Option (List String))
  deriving DecidableEq, Repr

/-- `mediaIds.join(",")`. -/
def join (mediaIds : List String) : String := ",".intercalate mediaIds

/-- `targetCard.after(draggedCard)`, `targetCard.before(draggedCard)`: the card is taken out first. -/
def place (cards : List String) (dragged target : String) (insertAfter : Bool) : List String :=
  let rest := cards.erase dragged
  rest.insertIdx (rest.idxOf target + if insertAfter then 1 else 0) dragged

namespace Page

def renderAlbum (page : Page) (items : List String) : Page := { page with items := items, cards := items, lost := false }

def persistOrder (page : Page) (mediaIds : List String) : Page :=
  if mediaIds = [] ∨ page.reorderInFlight = true then page
  else
    { page with
      reorderInFlight := true, pending := page.pending ++ [.order mediaIds], sent := page.sent ++ [mediaIds] }

def dragover (page : Page) (target : String) (insertAfter : Bool) : Page :=
  match page.draggedMediaId with
  | none => page
  | some dragged =>
    if page.reorderInFlight = true ∨ target = dragged ∨ target ∉ page.cards ∨ dragged ∉ page.cards then page
    else { page with cards := place page.cards dragged target insertAfter }

def dragend (page : Page) : Page :=
  let ended := { page with draggedMediaId := none }
  if page.draggedMediaId = none ∨ page.reorderInFlight = true then ended
  else if join page.cards = join page.items then ended
  else ended.persistOrder page.cards

/-- `[moved] = reordered.splice(index, 1); reordered.splice(nextIndex, 0, moved)`. -/
def moveItemByOffset (page : Page) (mediaId : String) (offset : Int) : Page :=
  if mediaId ∉ page.cards then page
  else
    let nextIndex : Int := page.cards.idxOf mediaId + offset
    if nextIndex < 0 ∨ (page.cards.length : Int) ≤ nextIndex then page
    else page.persistOrder ((page.cards.eraseIdx (page.cards.idxOf mediaId)).insertIdx nextIndex.toNat mediaId)

/-- `finally`: the call has returned. -/
def returned (page : Page) (n : Nat) : Page :=
  { page with reorderInFlight := false, pending := page.pending.eraseIdx n }

def answered (page : Page) (n : Nat) (album : Option (List String)) : Page :=
  match page.pending[n]?, album with
  | none, _ => page
  | some _, some items => (page.renderAlbum items).returned n
  | some (.order _), none => { page with pending := page.pending.set n .reload }
  | some .reload, none => { page.returned n with lost := true }

def act (page : Page) : Act → Page
  | .dragstart mediaId =>
    if page.reorderInFlight = true ∨ mediaId ∉ page.cards then page else { page with draggedMediaId := some mediaId }
  | .dragover target insertAfter => page.dragover target insertAfter
  | .dragend => page.dragend
  | .moveButton mediaId direction => if page.reorderInFlight then page else page.moveItemByOffset mediaId direction
  | .rendered items => page.renderAlbum items
  | .answered n album => page.answered n album

/-- Before the first load. -/
def start : Page := ⟨[], [], none, false, [], [], false⟩

def run (page : Page) (acts : List Act) : Page := acts.foldl act page

end Page

/-- The ids of an album's items: a key of the table, made of the letters of `generate_id`. -/
structure Ids (items : List String) : Prop where
  unique : items.Nodup
  noComma : ∀ id ∈ items, ',' ∉ id.toList

/-- The albums an action brings. -/
def Act.Fair : Act → Prop
  | .rendered items => Ids items
  | .answered _ album => ∀ items, album = some items → Ids items
  | _ => True

/-! ## Cards -/

theorem place_perm {cards : List String} {dragged target : String} {insertAfter : Bool} (hd : dragged ∈ cards)
    (ht : target ∈ cards) (hne : target ≠ dragged) : (place cards dragged target insertAfter).Perm cards := by
  have htarget : target ∈ cards.erase dragged := (List.mem_erase_of_ne hne).mpr ht
  have hidx := List.idxOf_lt_length_of_mem htarget
  unfold place
  refine (List.perm_insertIdx _ _ ?_).trans (List.perm_cons_erase hd).symm
  split <;> omega

theorem moved_perm {cards : List String} {mediaId : String} {n : Nat} (h : mediaId ∈ cards) (hn : n < cards.length) :
    ((cards.eraseIdx (cards.idxOf mediaId)).insertIdx n mediaId).Perm cards := by
  have hidx := List.idxOf_lt_length_of_mem h
  have hlength := List.length_eraseIdx_of_lt hidx
  refine (List.perm_insertIdx _ _ (by omega)).trans ?_
  rw [← List.erase_eq_eraseIdx_of_idxOf rfl]
  exact (List.perm_cons_erase h).symm

/-- Joined, two orders of the same ids can be told apart. -/
theorem join_inj {cards items : List String} (hperm : cards.Perm items) (hids : ∀ id ∈ items, ',' ∉ id.toList)
    (h : join cards = join items) : cards = items := by
  rcases items with _ | ⟨item, items⟩
  · exact hperm.eq_nil
  have hcards : cards ≠ [] := by
    rintro rfl
    cases hperm.symm.eq_nil
  have hsplit : ∀ l : List String, l ≠ [] → (∀ id ∈ l, ',' ∉ id.toList) →
      (join l).toList.splitOn ',' = l.map String.toList := by
    intro l hl hfree
    rw [join, String.toList_intercalate]
    refine List.splitOn_intercalate ',' ?_ (by simpa using hl)
    intro part hpart
    obtain ⟨id, hid, rfl⟩ := List.mem_map.mp hpart
    exact hfree id hid
  have hsame : cards.map String.toList = (item :: items).map String.toList := by
    rw [← hsplit cards hcards fun id hid => hids id (hperm.mem_iff.mp hid), ← hsplit _ (List.cons_ne_nil _ _) hids, h]
  exact List.map_injective_iff.mpr (fun a b => String.toList_inj.mp) hsame

/-! ## What holds of a page -/

structure Coherent (page : Page) : Prop where
  one : page.pending.length ≤ 1
  flagged : page.reorderInFlight = true ↔ page.pending ≠ []
  ids : Ids page.items
  cards : page.cards.Perm page.items
  rest : page.draggedMediaId = none → page.pending = [] → page.lost = false → page.cards = page.items
  sent : ∀ mediaIds ∈ page.sent, mediaIds ≠ [] ∧ mediaIds.Nodup

variable {page : Page}

theorem coherent_start : Coherent Page.start :=
  ⟨Nat.zero_le 1, by decide, ⟨List.nodup_nil, by intro id h; cases h⟩, .refl _, fun _ _ _ => rfl, by intro l h; cases h⟩

namespace Coherent

theorem idle (h : Coherent page) (hflag : ¬ page.reorderInFlight = true) : page.pending = [] := by
  by_contra hne
  exact hflag (h.flagged.mpr hne)

theorem renderAlbum (h : Coherent page) {items : List String} (hids : Ids items) : Coherent (page.renderAlbum items) :=
  ⟨h.one, h.flagged, hids, .refl _, fun _ _ _ => rfl, h.sent⟩

/-- A request is sent while none is on its way. -/
theorem send (h : Coherent page) (hflag : ¬ page.reorderInFlight = true) {mediaIds : List String}
    (hmedia : mediaIds.Perm page.items) (hne : mediaIds ≠ []) (dragged : Option String) :
    Coherent { page with
      draggedMediaId := dragged, reorderInFlight := true, pending := page.pending ++ [.order mediaIds],
      sent := page.sent ++ [mediaIds] } := by
  have hidle := h.idle hflag
  refine ⟨by simp [hidle], by simp, h.ids, h.cards, fun _ hpending => ?_, ?_⟩
  · simp at hpending
  · intro other hother
    rcases List.mem_append.mp hother with hother | hother
    · exact h.sent other hother
    · obtain rfl := List.mem_singleton.mp hother
      exact ⟨hne, hmedia.nodup_iff.mpr h.ids.unique⟩

theorem persistOrder (h : Coherent page) {mediaIds : List String} (hmedia : mediaIds.Perm page.items) :
    Coherent (page.persistOrder mediaIds) := by
  unfold Page.persistOrder
  split
  · exact h
  · rename_i hguard
    rw [not_or] at hguard
    exact h.send hguard.2 hmedia hguard.1 page.draggedMediaId

theorem dragover (h : Coherent page) (target : String) (insertAfter : Bool) :
    Coherent (page.dragover target insertAfter) := by
  unfold Page.dragover
  rcases hdragged : page.draggedMediaId with _ | dragged
  · exact h
  dsimp only
  split
  · exact h
  · rename_i hguard
    simp only [not_or, not_not] at hguard
    obtain ⟨_, hne, ht, hd⟩ := hguard
    refine ⟨h.one, h.flagged, h.ids, (place_perm hd ht hne).trans h.cards, fun hnone => ?_, h.sent⟩
    cases hnone

/-- At the end of a drag nothing is dragged; where the cards stand otherwise than the album, a request
    is on its way or sent. -/
theorem dragend (h : Coherent page) : Coherent page.dragend := by
  unfold Page.dragend
  dsimp only
  split
  · rename_i hguard
    refine ⟨h.one, h.flagged, h.ids, h.cards, fun _ hpending hlost => ?_, h.sent⟩
    rcases hguard with hnone | hflag
    · exact h.rest hnone hpending hlost
    · exact absurd hpending (h.flagged.mp hflag)
  rename_i hguard
  rw [not_or] at hguard
  split
  · rename_i hsame
    exact ⟨h.one, h.flagged, h.ids, h.cards, fun _ _ _ => join_inj h.cards h.ids.noComma hsame, h.sent⟩
  · rename_i hdiffers
    have hne : page.cards ≠ [] := by
      intro hempty
      apply hdiffers
      have hitems := h.cards.symm
      rw [hempty] at hitems
      rw [hempty, hitems.eq_nil]
    unfold Page.persistOrder
    rw [if_neg (by simp only [not_or]; exact ⟨hne, hguard.2⟩)]
    exact h.send hguard.2 h.cards hne none

theorem moveItemByOffset (h : Coherent page) (mediaId : String) (offset : Int) :
    Coherent (page.moveItemByOffset mediaId offset) := by
  unfold Page.moveItemByOffset
  split
  · exact h
  rename_i hmem
  rw [not_not] at hmem
  dsimp only
  split
  · exact h
  · rename_i hrange
    refine h.persistOrder ((moved_perm hmem ?_).trans h.cards)
    omega

theorem returned (h : Coherent page) {n : Nat} (hn : n < page.pending.length) {lost : Bool}
    (hrest : page.draggedMediaId = none → lost = false → page.cards = page.items) :
    Coherent { page.returned n with lost := lost } := by
  have hlength := List.length_eraseIdx_of_lt hn
  have hempty : page.pending.eraseIdx n = [] := by
    apply List.eq_nil_of_length_eq_zero
    have := h.one
    omega
  exact ⟨by simp [Page.returned, hempty], by simp [Page.returned, hempty], h.ids, h.cards,
    fun hnone _ hlost => hrest hnone hlost, h.sent⟩

theorem answered (h : Coherent page) (n : Nat) {album : Option (List String)}
    (halbum : ∀ items, album = some items → Ids items) : Coherent (page.answered n album) := by
  unfold Page.answered
  rcases hcall : page.pending[n]? with _ | call
  · exact h
  have hn : n < page.pending.length := (List.getElem?_eq_some_iff.mp hcall).1
  rcases album with _ | items
  · cases call with
    | order mediaIds =>
      have hset : page.pending.set n .reload ≠ [] := by
        intro hnil
        have := congrArg List.length hnil
        rw [List.length_set, List.length_nil] at this
        omega
      refine ⟨by rw [List.length_set]; exact h.one, ?_, h.ids, h.cards, fun _ hpending => absurd hpending hset, h.sent⟩
      rw [h.flagged]
      exact ⟨fun _ => hset, fun _ hnil => by rw [hnil] at hn; cases hn⟩
    | reload => exact h.returned hn fun _ hlost => by cases hlost
  · exact (h.renderAlbum (halbum items rfl)).returned hn fun _ _ => rfl

/-- Whatever happens on the page, it stays coherent. -/
theorem act (h : Coherent page) {a : Act} (ha : a.Fair) : Coherent (page.act a) := by
  cases a with
  | dragstart mediaId =>
    unfold Page.act
    dsimp only
    split
    · exact h
    · exact ⟨h.one, h.flagged, h.ids, h.cards, fun hnone => (by cases hnone), h.sent⟩
  | dragover target insertAfter => exact h.dragover target insertAfter
  | dragend => exact h.dragend
  | moveButton mediaId direction =>
    unfold Page.act
    dsimp only
    split
    · exact h
    · exact h.moveItemByOffset mediaId direction
  | rendered items => exact h.renderAlbum ha
  | answered n album => exact h.answered n ha

end Coherent

/-- `mediaIds.map((mediaId, index) => ({ media_id: mediaId, position: (index + 1) * 1000 }))`. -/
def orderBody (mediaIds : List String) : List (String × Int) :=
  mediaIds.zipIdx.map fun (mediaId, index) => (mediaId, ((index + 1) * 1000 : Nat))

theorem mem_orderBody {mediaIds : List String} {x : String × Int} :
    x ∈ orderBody mediaIds ↔ ∃ index, mediaIds[index]? = some x.1 ∧ x.2 = (((index + 1) * 1000 : Nat) : Int) := by
  obtain ⟨mediaId, position⟩ := x
  simp only [orderBody, List.mem_map, Prod.exists, List.mem_zipIdx_iff_getElem?, Prod.mk.injEq]
  constructor
  · rintro ⟨_, index, h, rfl, rfl⟩
    exact ⟨index, h, rfl⟩
  · rintro ⟨index, h, rfl⟩
    exact ⟨mediaId, index, h, rfl, rfl⟩

theorem orderBody_ids (mediaIds : List String) : (orderBody mediaIds).map Prod.fst = mediaIds := by
  have hmap : (orderBody mediaIds).map Prod.fst = mediaIds.zipIdx.map Prod.fst := by
    rw [orderBody, List.map_map]
    rfl
  rw [hmap, List.zipIdx_map_fst]

section

variable {albumId : String} {order : List (String × Int)} {mediaIds : List String} {w w' : World}

/-- An accepted reorder leaves the album arranged. -/
theorem arranged_of_reordered (h : Reordered albumId order w w') :
    Arranged order (w.mediaOf albumId) (w'.listAlbumMedia albumId) := by
  obtain ⟨w₁, hwritten, hspread, hstay⟩ := h.rewritten
  rw [← hwritten.listed] at hspread hstay
  rcases hrebalance : needsRebalance (w₁.listAlbumMedia albumId) with _ | _
  · have hlist : w'.listAlbumMedia albumId = w₁.listAlbumMedia albumId := by
      rw [World.listAlbumMedia, World.listAlbumMedia, World.mediaOf, World.mediaOf, hstay hrebalance]
    rw [hlist]
    exact arranged_of_one_write hwritten h.unique hrebalance
  · exact arranged_of_two_writes hwritten h.unique (hspread hrebalance)

/-- One item of a list stands before another. -/
def Before (items : List Media) (a b : String) : Prop :=
  ∃ m ∈ items, ∃ u ∈ items, m.id = a ∧ u.id = b ∧ m.position < u.position

theorem before_asymm {items : List Media} (hunique : (items.map (·.id)).Nodup) {a b : String} (h : Before items a b)
    (h' : Before items b a) : False := by
  obtain ⟨m, hm, u, hu, hma, hub, hlt⟩ := h
  obtain ⟨m', hm', u', hu', hmb, hua, hlt'⟩ := h'
  have h₁ := List.inj_on_of_nodup_map hunique hm hu' (hma.trans hua.symm)
  have h₂ := List.inj_on_of_nodup_map hunique hu hm' (hub.trans hmb.symm)
  rw [h₁, h₂] at hlt
  omega

/-- The named items of an arranged album stand as they were sent. -/
theorem arranged_order (hids : ((w'.listAlbumMedia albumId).map (·.id)).Nodup) (hsent : mediaIds.Nodup)
    (hnamed : ∀ id ∈ mediaIds, ∃ m ∈ w.mediaOf albumId, m.id = id)
    (h : Arranged (orderBody mediaIds) (w.mediaOf albumId) (w'.listAlbumMedia albumId)) :
    ((w'.listAlbumMedia albumId).map (·.id)).filter (· ∈ mediaIds) = mediaIds := by
  obtain ⟨place, hperm, hplace⟩ := h.placed
  have hkey : ((orderBody mediaIds).map Prod.fst).Nodup := by rwa [orderBody_ids]
  have hstored : ∀ m ∈ w.mediaOf albumId, moved place m ∈ w'.listAlbumMedia albumId := fun m hm =>
    hperm.mem_iff.mpr (List.mem_map_of_mem hm)
  have hanti : ∀ a b, a ∈ ((w'.listAlbumMedia albumId).map (·.id)).filter (· ∈ mediaIds) → b ∈ mediaIds →
      Before (w'.listAlbumMedia albumId) a b → Before (w'.listAlbumMedia albumId) b a → a = b :=
    fun a b _ _ hab hba => (before_asymm hids hab hba).elim
  refine List.Perm.eq_of_pairwise hanti ?_ ?_ ?_
  · -- the stored list is in the order of its positions
    apply List.Pairwise.filter
    refine List.pairwise_map.mpr (h.apart.imp_of_mem ?_)
    intro m u hm hu happart
    exact ⟨m, hm, u, hu, rfl, rfl, by omega⟩
  · -- and so are the ids that were sent: their positions grow with the place
    rw [List.pairwise_iff_getElem]
    intro i j hi hj hij
    obtain ⟨m, hm, hmi⟩ := hnamed _ (List.getElem_mem hi)
    obtain ⟨u, hu, huj⟩ := hnamed _ (List.getElem_mem hj)
    have hrequested : ∀ (k : Nat) (hk : k < mediaIds.length) (x : Media), x.id = mediaIds[k] →
        requested (orderBody mediaIds) x = ((k + 1) * 1000 : Nat) := by
      intro k hk x hx
      refine requested_of_mem hkey (mem_orderBody.mpr ⟨k, ?_, rfl⟩)
      exact List.getElem?_eq_some_iff.mpr ⟨hk, hx.symm⟩
    refine ⟨_, hstored m hm, _, hstored u hu, hmi, huj, hplace m hm u hu ?_⟩
    rw [hrequested i hi m hmi, hrequested j hj u huj]
    omega
  · refine (List.perm_ext_iff_of_nodup (hids.filter _) hsent).mpr fun id => ?_
    rw [List.mem_filter, decide_eq_true_eq]
    refine ⟨fun hid => hid.2, fun hid => ⟨?_, hid⟩⟩
    obtain ⟨m, hm, rfl⟩ := hnamed id hid
    exact List.mem_map.mpr ⟨_, hstored m hm, rfl⟩

/-- The order request of a page, answered: the items it names stand in the order of the cards,
    among whatever others the album has. -/
theorem sent_order_is_stored (albumId : String) (deleteToken : Option String) (mediaIds : List String)
    (correlationId : String) (actorUser : Option User) (ms : List (Moment PyExc)) (w : World) (r : Album × List Media)
    (answered :
      (runAlone backend (reorderAlbum albumId deleteToken (orderBody mediaIds) correlationId actorUser) ms w).1 = .ok r) :
    (((runAlone backend (reorderAlbum albumId deleteToken (orderBody mediaIds) correlationId actorUser) ms
      w).2.listAlbumMedia albumId).map (·.id)).filter (· ∈ mediaIds) = mediaIds := by
  have hreordered := wp_alone (reorderAlbum_reorders albumId deleteToken (orderBody mediaIds) correlationId actorUser) ms
    (meetsAlone_true _ _ _) r answered
  have hunique := hreordered.unique
  rw [orderBody_ids] at hunique
  refine arranged_order (listAlbumMedia_nodup _ _) hunique (fun id hid => ?_) (arranged_of_reordered hreordered)
  obtain ⟨k, hk, hget⟩ := List.mem_iff_getElem.mp hid
  exact hreordered.named (id, ((k + 1) * 1000 : Nat))
    (mem_orderBody.mpr ⟨k, List.getElem?_eq_some_iff.mpr ⟨hk, hget⟩, rfl⟩)

end

namespace Sample

/-- Two cards, the second dropped before the first. -/
def dropped : List Act := [.rendered ["m", "n"], .dragstart "n", .dragover "m" false, .dragend]

/-- The order request fails, and so does the reload after it. -/
def offline : List Act := dropped ++ [.answered 0 none, .answered 0 none]

/-- The album of these items on the server. -/
def stored : World :=
  { Service.Sample.world with albums := .single Service.Sample.album, media := Service.Sample.twoItems }

end Sample

open Sample in
/-- Nothing is awaited, and the page shows an order the server does not have. -/
theorem a_lost_reload_leaves_the_drop : (Page.start.run offline).pending = [] ∧
    (Page.start.run offline).cards = ["n", "m"] ∧ (Page.start.run offline).items = ["m", "n"] := by
  decide +kernel

open Sample in
/-- The album of two items, in the order the page has sent. -/
theorem the_drop_is_stored :
    (((runAlone backend (reorderAlbum "a" (some "t") (orderBody ["n", "m"]) "c" none) [] stored).2.listAlbumMedia
      "a").map (·.id)).filter (· ∈ ["n", "m"]) = ["n", "m"] := by
  have answered :
      (runAlone backend (reorderAlbum "a" (some "t") (orderBody ["n", "m"]) "c" none) [] stored).1.isOk = true := by
    decide +kernel
  rcases hresult : (runAlone backend (reorderAlbum "a" (some "t") (orderBody ["n", "m"]) "c" none) [] stored).1 with e | r
  · rw [hresult] at answered
    cases answered
  · exact sent_order_is_stored "a" (some "t") ["n", "m"] "c" none [] stored r hresult

end Imghost.Client.AlbumOrder
