/-
  Imghost.Accounting.Quotas — what the quota display says, and what an upload meets.

  `_quota_metrics` takes a quota for a limit whatever its value; the checks of an upload
  take one of zero or less for none, as the help text of the server's quota says.

  - The display admits the uploads the check lets through exactly when the quota is
    positive (`display_agrees_iff`).
  - A quota of zero is shown as used up and lets everything through
    (`an_upload_into_no_quota`).
-/

import Imghost.Accounting.Books

namespace Imghost.Accounting

open Imghost.Async Imghost.Model Imghost.Service Program

/-! ## The display -/

/-- The result of `_quota_metrics`; the percentage before it is rounded to a float. -/
structure QuotaMetrics where
  quotaUnlimited : Bool
  quotaPercent : Option Rat
  quotaRemainingBytes : Option Int
  deriving DecidableEq, Repr

def quotaMetrics (usedBytes : Nat) (quotaBytes : Option Int) : QuotaMetrics :=
  match quotaBytes with
  | none => { quotaUnlimited := true, quotaPercent := none, quotaRemainingBytes := none }
  | some quotaBytes =>
    { quotaUnlimited := false
      quotaPercent := some (if 0 < quotaBytes then (usedBytes : Rat) / quotaBytes * 100 else 100)
      quotaRemainingBytes := some (max (quotaBytes - usedBytes) 0) }

/-- No quota is shown, or one with so many bytes left. -/
def QuotaMetrics.Admits (metrics : QuotaMetrics) (bytes : Nat) : Prop :=
  metrics.quotaUnlimited = true ∨ ∃ remaining, metrics.quotaRemainingBytes = some remaining ∧ bytes ≤ remaining

theorem admits_some {usedBytes bytes : Nat} {quotaBytes : Int} :
    (quotaMetrics usedBytes (some quotaBytes)).Admits bytes ↔ (bytes : Int) ≤ max (quotaBytes - usedBytes) 0 := by
  simp [QuotaMetrics.Admits, quotaMetrics]

/-! ## The check -/

/-- A quota an upload is tested against. -/
inductive Quota where
  /-- The server's, for whoever uploads. -/
  | server (uploader : Option User)
  /-- The uploader's own: the override, or the default. -/
  | own (uploader : User)

namespace Quota

variable (w : World)

def uploader : Quota → Option User
  | .server uploader => uploader
  | .own uploader => some uploader

def bytes : Quota → Int
  | .server _ => w.config .serverQuotaBytes
  | .own uploader => effectiveQuota uploader (w.config .defaultUserQuotaBytes)

def used : Quota → Nat
  | .server _ => storageBytesForMedia w.listAllMedia
  | .own uploader => storageBytesForMedia (w.listAllMedia.filter (·.userId == some uploader.id))

/-- The other quota tests nothing. -/
def Alone : Quota → Prop
  | .server uploader => ∀ user, uploader = some user → effectiveQuota user (w.config .defaultUserQuotaBytes) ≤ 0
  | .own _ => w.config .serverQuotaBytes ≤ 0

end Quota

/-- `0 < quota and used + incoming > quota`. -/
def refuses (quotaBytes : Int) (usedBytes incomingBytes : Nat) : Bool := 0 < quotaBytes && quotaBytes < usedBytes + incomingBytes

theorem refuses_none {quotaBytes : Int} {usedBytes incomingBytes : Nat} (h : quotaBytes ≤ 0) :
    refuses quotaBytes usedBytes incomingBytes = false := by
  have hnot : ¬ 0 < quotaBytes := by omega
  simp [refuses, hnot]

variable {ms : List (Moment PyExc)} {w : World}

/-- Where no call fails, the check is the test against the one quota and then the other. -/
theorem enforceStorageQuotas_outcome (hcalm : ∀ n, faultAt ms n = none) (user : Option User) (incomingBytes : Nat) :
    (runAlone backend (enforceStorageQuotas user incomingBytes) ms w).1 =
      if refuses (w.config .serverQuotaBytes) (storageBytesForMedia w.listAllMedia) incomingBytes then
        .error (.http 507 "Server storage quota reached.")
      else match user with
        | none => .ok ()
        | some user =>
          if refuses (effectiveQuota user (w.config .defaultUserQuotaBytes))
              (storageBytesForMedia (w.listAllMedia.filter (·.userId == some user.id))) incomingBytes then
            .error (.http 413 "User storage quota reached.")
          else .ok () := by
  have hlist : ∀ d, backend.exec 0 .listAllMedia (backend.elapse d w) = (.ok w.listAllMedia, backend.elapse d w) :=
    fun _ => rfl
  have hserver : ∀ d d', backend.exec 0 (.getValue .serverQuotaBytes) (backend.elapse d (backend.elapse d' w)) =
      (.ok (w.config .serverQuotaBytes), backend.elapse d (backend.elapse d' w)) := fun _ _ => rfl
  have hdefault : ∀ d d' d'', backend.exec 0 (.getValue .defaultUserQuotaBytes)
      (backend.elapse d (backend.elapse d' (backend.elapse d'' w))) =
        (.ok (w.config .defaultUserQuotaBytes), backend.elapse d (backend.elapse d' (backend.elapse d'' w))) :=
    fun _ _ _ => rfl
  rw [enforceStorageQuotas, runAlone_await, hcalm, Backend.answer_none, hlist]
  dsimp only
  rw [runAlone_await, faultAt_tail, hcalm, Backend.answer_none, hserver]
  dsimp only
  rw [runAlone_check]
  show Prod.fst (if refuses _ _ _ then _ else _) = _
  split
  · rfl
  · cases user with
    | none => rfl
    | some user =>
      dsimp only
      rw [runAlone_await, faultAt_tail, faultAt_tail, hcalm, Backend.answer_none, hdefault]
      show Prod.fst (runAlone backend (raiseIf (refuses _ _ _) _) _ _) = _
      cases refuses (effectiveQuota user (w.config .defaultUserQuotaBytes))
        (storageBytesForMedia (w.listAllMedia.filter (·.userId == some user.id))) incomingBytes <;> rfl

/-- The display of a quota and the check against it agree exactly when there is one. -/
theorem display_agrees_iff (quota : Quota) (w : World) (ms : List (Moment PyExc)) (bytes : Nat)
    (hcalm : ∀ n, faultAt ms n = none) (halone : quota.Alone w) (hbytes : 1 ≤ bytes) :
    ((runAlone backend (enforceStorageQuotas quota.uploader bytes) ms w).1 = .ok () ↔
      (quotaMetrics (quota.used w) (some (quota.bytes w))).Admits bytes) ↔ 0 < quota.bytes w := by
  have hdecides : (runAlone backend (enforceStorageQuotas quota.uploader bytes) ms w).1 = .ok () ↔
      refuses (quota.bytes w) (quota.used w) bytes = false := by
    rw [enforceStorageQuotas_outcome hcalm]
    cases quota with
    | server uploader =>
      have hown : ∀ user, uploader = some user → refuses (effectiveQuota user (w.config .defaultUserQuotaBytes))
          (storageBytesForMedia (w.listAllMedia.filter (·.userId == some user.id))) bytes = false :=
        fun user huser => refuses_none (halone user huser)
      cases uploader with
      | none => simp [Quota.bytes, Quota.used, Quota.uploader]
      | some user => simp [Quota.bytes, Quota.used, Quota.uploader, hown user rfl]
    | own user =>
      have hserver := @refuses_none _ (storageBytesForMedia w.listAllMedia) bytes halone
      simp [Quota.bytes, Quota.used, Quota.uploader, hserver]
  rw [hdecides, admits_some]
  simp only [refuses, Bool.and_eq_false_iff, decide_eq_false_iff_not]
  omega

namespace Sample

open Imghost.Service.Sample

/-- A user of the site whose override is `quotaBytes`. -/
def withOverride (quotaBytes : Int) : User := { user with quotaBytes := some quotaBytes }

end Sample

open Sample in
/-- A quota of one byte, shown and enforced. -/
theorem display_agrees_of_one_byte :
    0 < (Quota.own (withOverride 1)).bytes Service.Sample.world ∧
      ((runAlone backend (enforceStorageQuotas (some (withOverride 1)) 1) [] Service.Sample.world).1 = .ok () ↔
        (quotaMetrics 0 (some 1)).Admits 1) :=
  ⟨by decide, (display_agrees_iff (.own (withOverride 1)) Service.Sample.world [] 1 (fun _ => faultAt_nil _)
    (Int.le_refl 0) (by decide)).mpr (by decide)⟩

open Sample in
/-- With a quota of zero no byte is left on the display, and the upload goes through. -/
theorem an_upload_into_no_quota :
    (Quota.own (withOverride 0)).bytes Service.Sample.world = 0 ∧ (Quota.own (withOverride 0)).used Service.Sample.world = 0 ∧
      (runAlone backend (enforceStorageQuotas (some (withOverride 0)) 1) [] Service.Sample.world).1 = .ok () ∧
      (quotaMetrics 0 (some 0)).quotaUnlimited = false ∧ ¬ (quotaMetrics 0 (some 0)).Admits 1 := by
  refine ⟨by decide, by decide, rfl, rfl, ?_⟩
  rw [admits_some]
  decide

end Imghost.Accounting
