/-
  Imghost.Config.Expiry — the hours an anonymous album lives, from the setting to the album.

  `update_values` takes every integer that is not negative. `_get_or_create_album` adds that many
  hours to the time, and a `datetime` ends with year 9999: what is accepted is usable exactly as
  long as the sum stays there (`accepted_expiry_usable_iff`). A hundred million hours are
  accepted like any other value and every anonymous upload fails from then on
  (`a_far_expiry_stops_anonymous_uploads`).
-/

import Imghost.Config.Updates
import Imghost.Service.Operations
import Imghost.Service.Steps

namespace Imghost.Config

open Imghost.Async Imghost.Data Imghost.Model Imghost.Service
open Imghost.Tokens (Json)

/-- After a call that returns, `get_value` gives what was set. -/
theorem getValue_of_updated {lib : ConfigLib} (hjson : ReadsBack lib) {env : Environ} {moment : Config.Moment}
    {updates : Updates} {t : ConfigTable} {changes : List ConfigChange}
    (h : (updateValues lib env moment updates t).1 = .ok changes) {item : String × Json} (hitem : item ∈ updates) :
    ∃ value, getValue lib env (updateValues lib env moment updates t).2 item.1 = .ok value ∧ value.toJson = item.2 ∧
      0 ≤ value.num := by
  rcases @updateValues_cases lib env moment updates t with ⟨e, he⟩ | ⟨before, t', changes', hrows, hbefore, hitems, he⟩
  · rw [he] at h
    cases h
  · obtain ⟨new, hran⟩ := updateItems_ok updates.unique hitems
    obtain ⟨after, hafter⟩ := listEffective_after hjson hbefore hran
    obtain ⟨spec, value, current, new', haccepted, hnew, hvalue, -⟩ :=
      settled_resolves hjson hbefore (hran.settled item hitem)
    have hknown := haccepted.known
    have hmem : new' ∈ after := (mem_listEffective hafter).mpr ⟨spec, Table.find?_mem hknown, hnew⟩
    have hfind : after.find? item.1 = some new' := by
      apply Table.find?_eq_some.mpr
      exact ⟨hmem, (resolveValue_key lib env t'.find? spec new' hnew).trans (Table.find?_key hknown)⟩
    have hcoerced := coerceValue_ok haccepted.fits
    refine ⟨value, ?_, hcoerced.1, hcoerced.2.1⟩
    rw [he, getValue, hknown, hafter]
    simp [bind, Except.bind, hfind, hvalue]

/-! ## The sum -/

/-- A sum within year 9999 has hours that a `timedelta` takes. -/
theorem hours_of_sum {n h : Int} (hn : 0 ≤ n) (hh : 0 ≤ h) (hsum : n + h * 3600000000 ≤ 315537897599999999) :
    ¬ n + h * 3600000000 < 0 ∧ ¬ (h / 24 < -999999999 ∨ 999999999 < h / 24) := by
  constructor
  · omega
  · omega

/-- The sum, or nothing. -/
theorem addHours_cases {now : DateTime} {hours : Int} (hnow : 0 ≤ now) (hhours : 0 ≤ hours) :
    (now + hours * microsPerHour ≤ datetimeMax ∧ addHours now hours = .ok (now + hours * microsPerHour)) ∨
      (¬ now + hours * microsPerHour ≤ datetimeMax ∧ ∃ e, addHours now hours = .error e) := by
  unfold addHours shift
  by_cases hfits : now + hours * microsPerHour ≤ datetimeMax
  · left
    obtain ⟨hlow, hsmall⟩ := hours_of_sum hnow hhours hfits
    have hdays : ¬ (hours / 24 < -timedeltaMaxDays ∨ timedeltaMaxDays < hours / 24) := hsmall
    have hdate : ¬ (now + hours * microsPerHour < 0 ∨ datetimeMax < now + hours * microsPerHour) := by
      rintro (h | h)
      · exact hlow h
      · exact absurd hfits (Int.not_le.mpr h)
    exact ⟨hfits, by rw [if_neg hdays, if_neg hdate]⟩
  · right
    refine ⟨hfits, ?_⟩
    rw [if_pos (c := now + hours * microsPerHour < 0 ∨ datetimeMax < now + hours * microsPerHour)
      (.inr (Int.not_le.mp hfits))]
    split
    · exact ⟨_, rfl⟩
    · exact ⟨_, rfl⟩

/-! ## The album -/

def anonymous (source : String) : CurrentActor := ⟨none, source⟩

/-- Creating an anonymous album by itself: it raises, or the album has the expiry of the sum. -/
theorem anonymousAlbum_expiry (title : Option String) (correlationId source : String) (deleteToken : Option String)
    (draws : Draws) {albumId : Option String} (hnew : albumId.filter (· != "") = none) (w : World) {hours : Int}
    (hhours : 0 ≤ hours) (hclock : 0 ≤ w.clock) (hconfig : w.config .anonExpiryHours = hours)
    (hfree : w.albums.find? (generateId draws.albumId) = none) :
    (∃ album, (runAlone backend (getOrCreateAlbum albumId title correlationId (anonymous source) deleteToken draws) [] w).1 =
        .ok album ∧ album.expiresAt = some (w.clock + hours * microsPerHour)) ↔
      w.clock + hours * microsPerHour ≤ datetimeMax := by
  have hnow : exec 0 .utcnow w = (.ok w.clock, w) := rfl
  have hvalue : exec 0 (.getValue .anonExpiryHours) w = (.ok hours, w) := by rw [← hconfig]; rfl
  have hrun : runAlone backend (getOrCreateAlbum albumId title correlationId (anonymous source) deleteToken draws) [] w =
      match addHours w.clock hours with
      | .error e => (.error e, w)
      | .ok t => runAlone backend (do
          let album := newAlbum title none draws w.clock (some t)
          let _ ← Repository.createAlbum album
          EventBus.emit (.albumCreated album.id none 0 (actorKind none deleteToken) source correlationId)
          return album) [] w := by
    simp only [getOrCreateAlbum, hnew, createAlbumForUpload]
    rw [quiet_ask, hnow]
    dsimp only
    simp only [anonymous, newAlbumExpiry]
    rw [sequence_assoc, quiet_ask, hvalue]
    dsimp only
    rw [sequence_assoc, runAlone_value]
    cases addHours w.clock hours with
    | error e => rfl
    | ok t => rfl
  rw [hrun]
  rcases addHours_cases hclock hhours with ⟨hfits, hsum⟩ | ⟨htoo, e, hsum⟩
  · refine iff_of_true ⟨newAlbum title none draws w.clock (some (w.clock + hours * microsPerHour)), ?_, rfl⟩ hfits
    rw [hsum]
    dsimp only
    have hinsert : ∃ albums, w.albums.insert
        (newAlbum title none draws w.clock (some (w.clock + hours * microsPerHour))) = some albums := by
      apply Option.ne_none_iff_exists'.mp
      intro hnone
      obtain ⟨row, hrow, hkey⟩ := Table.insert_eq_none.mp hnone
      exact Table.find?_eq_none.mp hfree row hrow hkey
    obtain ⟨albums, halbums⟩ := hinsert
    have hcreate : exec 0 (.createAlbum (newAlbum title none draws w.clock (some (w.clock + hours * microsPerHour)))) w =
        (.ok (newAlbum title none draws w.clock (some (w.clock + hours * microsPerHour))), { w with albums := albums }) := by
      show w.createAlbum _ = _
      rw [World.createAlbum, halbums]
      rfl
    rw [quiet_ask, hcreate]
    dsimp only
    rw [quiet_emit]
    rfl
  · rw [hsum]
    refine iff_of_false ?_ htoo
    rintro ⟨album, halbum, -⟩
    cases halbum

/-- The hours that were accepted make an anonymous album, exactly when the sum is a date. -/
theorem accepted_expiry_usable_iff (lib : ConfigLib) (hjson : ReadsBack lib) (env : Environ) (moment : Config.Moment)
    (updates : Updates) (t : ConfigTable) (hours : Int) (hitem : ("anon_expiry_hours", .int hours) ∈ updates)
    (changes : List ConfigChange) (haccepted : (updateValues lib env moment updates t).1 = .ok changes) (w : World)
    (hconfig : getValue lib env (updateValues lib env moment updates t).2 "anon_expiry_hours" =
      .ok (.int (w.config .anonExpiryHours)))
    (hclock : 0 ≤ w.clock) (albumId title : Option String) (hnew : albumId.filter (· != "") = none)
    (correlationId source : String) (deleteToken : Option String) (draws : Draws)
    (hfree : w.albums.find? (generateId draws.albumId) = none) :
    (∃ album, (runAlone backend (getOrCreateAlbum albumId title correlationId (anonymous source) deleteToken draws) [] w).1 =
        .ok album ∧ album.expiresAt = some (w.clock + hours * microsPerHour)) ↔
      w.clock + hours * microsPerHour ≤ datetimeMax := by
  obtain ⟨value, hvalue, hjsonValue, hnonneg⟩ := getValue_of_updated hjson haccepted hitem
  obtain rfl : value = .int hours := by
    cases value with
    | bool b => cases hjsonValue
    | int n =>
      have hn : Json.int n = Json.int hours := hjsonValue
      rw [Json.int.inj hn]
  have hhours : w.config .anonExpiryHours = hours := by
    have hsame := Except.ok.inj (hconfig.symm.trans hvalue)
    exact ConfigValue.int.inj hsame
  exact anonymousAlbum_expiry title correlationId source deleteToken draws hnew w hnonneg hclock hhours hfree

namespace Sample

def hoursOnly (hours : Int) : Updates := ⟨[("anon_expiry_hours", .int hours)], by simp⟩

/-- 18 July 2026, with the hours in the configuration. -/
def site (hours : Int) : World :=
  { Service.Sample.world with
    clock := 63919929600000000
    config := fun key => if key = .anonExpiryHours then hours else Service.Sample.world.config key }

end Sample

open Sample in
theorem two_days_are_usable :
    (∃ album, (runAlone backend (getOrCreateAlbum none none "c" (anonymous "web") none Service.Sample.firstDraws) []
        (site 48)).1 = .ok album ∧ album.expiresAt = some ((site 48).clock + 48 * microsPerHour)) ↔
      (site 48).clock + 48 * microsPerHour ≤ datetimeMax :=
  accepted_expiry_usable_iff plainLib plainLib_readsBack bare quiet (hoursOnly 48) .empty 48 List.mem_cons_self
    [⟨"anon_expiry_hours", .int 24, .int 48⟩] (by decide +kernel) (site 48) (by decide +kernel) (by decide +kernel) none none rfl
    "c" "web" none Service.Sample.firstDraws rfl

open Sample in
/-- A hundred million hours are accepted, and reported back. The next anonymous upload raises. -/
theorem a_far_expiry_stops_anonymous_uploads :
    (updateValues plainLib bare quiet (hoursOnly 100000000) .empty).1 =
        .ok [⟨"anon_expiry_hours", .int 24, .int 100000000⟩] ∧
      getValue plainLib bare (updateValues plainLib bare quiet (hoursOnly 100000000) .empty).2 "anon_expiry_hours" =
        .ok (.int 100000000) ∧
      (runAlone backend (getOrCreateAlbum none none "c" (anonymous "web") none Service.Sample.firstDraws) []
        (site 100000000)).1 = .error (.overflowError "date value out of range") := by
  refine ⟨?_, ?_, ?_⟩ <;> decide +kernel

end Imghost.Config
