/-
  Imghost.Accounting.UploadQuotas — the quotas after an upload.

  `_enforce_storage_quotas` tests the bytes received; the row records the bytes the processor
  made of them, and those are what the next upload is tested against.

  - A returned upload has added the processor's result to what is used of every quota of the
    uploader (`upload_uses`).
  - The quotas are kept after it exactly when that result fits in what they leave
    (`quotas_kept_iff`).
  - A file that grows goes past them (`a_grown_file_exceeds_the_quota`).
-/

import Imghost.Accounting.Quotas
import Imghost.Accounting.Usage
import Imghost.Sequential.Room

namespace Imghost.Accounting

open Imghost.Async Imghost.Data Imghost.Model Imghost.Service Imghost.Sequential.Room Program

/-! ## The quotas of an uploader -/

/-- Every quota the uploader is tested against is kept, with so many bytes to spare. -/
def KeepsQuotas (uploader : Option User) (bytes : Nat) (w : World) : Prop :=
  ∀ quota : Quota, quota.uploader = uploader → 0 < quota.bytes w → (quota.used w : Int) + bytes ≤ quota.bytes w

/-- The rows that count towards a quota. -/
def Quota.counts : Quota → Media → Bool
  | .server _, _ => true
  | .own uploader, m => m.userId == some uploader.id

theorem Quota.used_eq (quota : Quota) (w : World) : quota.used w = tally storageBytes (w.media.rows.filter quota.counts) := by
  cases quota with
  | server uploader =>
    have hall : w.media.rows.filter (Quota.server uploader).counts = w.media.rows := List.filter_true _
    rw [hall]
    exact tally_perm storageBytes (listAllMedia_perm w)
  | own uploader => exact tally_perm storageBytes ((listAllMedia_perm w).filter _)

theorem Quota.counts_own {quota : Quota} {m : Media} (h : m.userId = quota.uploader.map (·.id)) : quota.counts m = true := by
  cases quota with
  | server uploader => rfl
  | own uploader => simp [counts, h, Quota.uploader]

/-- One more row of the uploader's. -/
theorem Quota.used_append {quota : Quota} {m : Media} {w w' : World} (h : m.userId = quota.uploader.map (·.id))
    (hrows : w'.media.rows = w.media.rows ++ [m]) : quota.used w' = quota.used w + storageBytes m := by
  rw [Quota.used_eq, Quota.used_eq, hrows, List.filter_append, tally_append, List.filter_singleton, counts_own h]
  simp

theorem Quota.bytes_congr {w w' : World} (h : w'.config = w.config) (quota : Quota) : quota.bytes w' = quota.bytes w := by
  cases quota <;> simp only [Quota.bytes, h]

/-! ## What an upload adds -/

/-- How long the processor's result is, where the processor accepts the file. -/
def reencodedLength (rt : Runtime) (file : UploadFile) : Option Nat :=
  match prepareMedia rt file (receivedBytes file) with
  | .ok (_, sanitized) => some sanitized.data.length
  | .error _ => none

theorem reencodedLength_of_prepared {rt : Runtime} {file : UploadFile} {metadata : MediaMetadata}
    {sanitized : SanitizedFile} (h : prepareMedia rt file (receivedBytes file) = .ok (metadata, sanitized)) :
    reencodedLength rt file = some sanitized.data.length := by
  rw [reencodedLength, h]

/-- A new row takes up what the processor's result does: it has no thumbnail yet. -/
theorem storageBytes_new {rt : Runtime} {albumId : String} {file : UploadFile} {user : Option User} {draws : Draws}
    {metadata : MediaMetadata} {sanitized : SanitizedFile} {now : DateTime} {position : Int} :
    storageBytes { newMedia rt albumId file user draws metadata sanitized now with position := position } =
      sanitized.data.length := by
  simp [storageBytes, newMedia, truthy]

theorem config_stays {α : Type} (p : Prog α) (ms : List (Moment PyExc)) (w : World) :
    (runAlone backend p ms w).2.config = w.config := by
  induction p generalizing ms w with
  | ret a => rfl
  | raise e => rfl
  | call r k ih => exact (ih _ _ _).trans answer_config

/-- Where an upload returns, what is used of a quota has grown by the processor's result. -/
theorem upload_uses {rt : Runtime} {input : UploadInput} {draws : Draws} {ms : List (Moment PyExc)} {w : World}
    {r : UploadResult} (returned : (runAlone backend (upload rt input draws) ms w).1 = .ok r) :
    ∃ bytes, reencodedLength rt input.file = some bytes ∧ ∀ quota : Quota, quota.uploader = input.actor.user →
      quota.used (runAlone backend (upload rt input draws) ms w).2 = quota.used w + bytes := by
  obtain ⟨metadata, sanitized, now, hprepared, hinserted⟩ :=
    wp_alone (upload_stores rt input draws) ms (meetsAlone_true _ _ _) r returned
  refine ⟨sanitized.data.length, reencodedLength_of_prepared hprepared, ?_⟩
  intro quota huploader
  rw [Quota.used_append (by rw [huploader]; rfl) hinserted, storageBytes_new]

/-- After an upload the quotas are kept exactly when the processor's result fits in what they
    leave. -/
theorem quotas_kept_iff (rt : Runtime) (input : UploadInput) (draws : Draws) (ms : List (Moment PyExc)) (w : World)
    (r : UploadResult) (returned : (runAlone backend (upload rt input draws) ms w).1 = .ok r) :
    KeepsQuotas input.actor.user 0 (runAlone backend (upload rt input draws) ms w).2 ↔
      ∀ bytes, reencodedLength rt input.file = some bytes → KeepsQuotas input.actor.user bytes w := by
  obtain ⟨bytes, hlength, hused⟩ := upload_uses returned
  have hconfig := config_stays (upload rt input draws) ms w
  rw [hlength]
  constructor
  · intro kept bytes' h quota huploader hpositive
    cases h
    have := kept quota huploader (by rwa [Quota.bytes_congr hconfig])
    rw [hused quota huploader, Quota.bytes_congr hconfig] at this
    omega
  · intro room quota huploader hpositive
    rw [Quota.bytes_congr hconfig] at hpositive ⊢
    have := room bytes rfl quota huploader hpositive
    rw [hused quota huploader]
    omega

namespace Sample

open Imghost.Service.Sample

/-- The small site with a server quota of two bytes. -/
def twoBytes : World :=
  { world with config := fun key => match key with
      | .serverQuotaBytes => 2
      | key => world.config key }

/-- Stores every file twice over and once more. -/
def growingProcessor : MediaProcessor :=
  { processor with
    sanitize := fun payload _ => .ok { data := payload ++ payload ++ payload, mimeType := "image/png", format := "png" } }

def growing : Runtime := { runtime with processors := fun _ => some growingProcessor }

def uploadedUnder (rt : Runtime) : Except PyExc UploadResult × World :=
  runAlone backend (upload rt (uploadTo none) secondDraws) [] twoBytes

end Sample

open Sample in
/-- One byte, stored as it is, under a quota of two. -/
theorem one_byte_keeps_the_quota : (uploadedUnder Service.Sample.runtime).1.isOk = true ∧
    (KeepsQuotas none 0 (uploadedUnder Service.Sample.runtime).2 ↔
      ∀ bytes, reencodedLength Service.Sample.runtime (Service.Sample.uploadTo none).file = some bytes →
        KeepsQuotas none bytes twoBytes) := by
  have returned : (uploadedUnder Service.Sample.runtime).1.isOk = true := by decide +kernel
  rcases result : (uploadedUnder Service.Sample.runtime).1 with e | r
  · rw [result] at returned
    cases returned
  · exact ⟨rfl, quotas_kept_iff Service.Sample.runtime (Service.Sample.uploadTo none) Service.Sample.secondDraws []
      twoBytes r result⟩

open Sample in
/-- One byte received passes the test for two; the three bytes stored do not fit. -/
theorem a_grown_file_exceeds_the_quota :
    ¬ ∀ rt input draws ms w r, KeepsQuotas input.actor.user 0 w →
      (runAlone backend (upload rt input draws) ms w).1 = .ok r →
      KeepsQuotas input.actor.user 0 (runAlone backend (upload rt input draws) ms w).2 := by
  intro kept
  have returned : (uploadedUnder growing).1.isOk = true := by decide +kernel
  have before : KeepsQuotas none 0 twoBytes := by
    intro quota huploader _
    cases quota with
    | server uploader => exact of_decide_eq_true rfl
    | own uploader => cases huploader
  rcases result : (uploadedUnder growing).1 with e | r
  · rw [result] at returned
    cases returned
  · have after := kept growing (Service.Sample.uploadTo none) Service.Sample.secondDraws [] twoBytes r before result
      (.server none) rfl
    revert after
    decide +kernel

end Imghost.Accounting
