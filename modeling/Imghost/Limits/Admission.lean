/-
  Imghost.Limits.Admission — what the limiters in Redis admit in one minute.

  A method reads the counter of its minute with `GET`, the bytes of the last sixty
  buckets with `HGETALL`, and raises both with later commands. Between the two it has
  been let through and is not counted yet. The limits hold as long as every method that
  is let through still finds room beside those; nothing in the code makes sure of that,
  and two uploads that read a counter of 0 both pass a limit of 1.
-/

import Imghost.Async.Gate
import Imghost.Limits.RedisLimiters

namespace Imghost.Limits.Admission

open Imghost.Async Imghost.Data Imghost.Model

variable {α β : Type} {redis : RedisHandle} {config : LimitConfig} {minuteBucket : Int}

/-! ## Keys -/

theorem requestsKey_inj {scope scope' : String} (h : requestsKey redis scope minuteBucket = requestsKey redis scope' minuteBucket) :
    scope = scope' := by
  rw [requestsKey, requestsKey, prefixed_inj, String.append_left_inj, String.append_left_inj, String.append_right_inj] at h
  exact h

theorem bytesKey_inj {scope scope' : String} (h : bytesKey redis scope = bytesKey redis scope') : scope = scope' := by
  rw [bytesKey, bytesKey, prefixed_inj, String.append_right_inj] at h
  exact h

theorem requestsKey_ne_bytesKey (scope scope' : String) : requestsKey redis scope minuteBucket ≠ bytesKey redis scope' := by
  intro h
  rw [requestsKey, bytesKey, prefixed_inj] at h
  have hchars := congrArg String.toList h
  simp at hchars

/-! ## The minute -/

def minuteEnd (minuteBucket : Int) : Int := (minuteBucket + 1) * minuteSeconds

theorem clock_lt_minuteEnd {clock : Int} (h : bucketOf clock = minuteBucket) : clock < minuteEnd minuteBucket := by
  unfold bucketOf second at h
  unfold minuteEnd minuteSeconds second
  omega

theorem minuteEnd_le_expiry {clock : Int} (h : bucketOf clock = minuteBucket) :
    minuteEnd minuteBucket ≤ clock + 120 * second := by
  unfold bucketOf second at h
  unfold minuteEnd minuteSeconds second
  omega

/-! ## The request counter -/

def rawCount (key : String) (w : LimiterWorld) : Int :=
  match w.keys key with
  | some ⟨.string n, _⟩ => n
  | _ => 0

/-- The counter is a number, and lasts to the end of the minute. -/
def CountKey (minuteBucket : Int) (key : String) (w : LimiterWorld) : Prop :=
  ∀ e, w.keys key = some e → (∃ n, e.value = .string n) ∧ ∀ x, e.expiresAt = some x → minuteEnd minuteBucket ≤ x

def requestGate (key : String) (limit : Int) : Gate LimitReply LimiterExc where
  weight _ := 1
  passes _ e :=
    match e with
    | ⟨.get k, .ok v, _⟩ => k = key ∧ v.getD 0 < limit
    | _ => false
  counts r := r = .incr key

/-- The counter is written by `INCR` and by the `EXPIRE` after it. -/
def countsOnly (key : String) (_ : Nat) (r : LimitReq) : Prop := r.writes = some key → r = .incr key ∨ r = .expire key 120

section

variable {w : LimiterWorld} {key : String}

theorem find?_of_countKey (h : CountKey minuteBucket key w) (hclock : bucketOf w.clock = minuteBucket) :
    w.find? key = w.keys key := by
  rcases he : w.keys key with _ | e
  · simp only [LimiterWorld.find?, he, Option.filter_none]
  have hlasts : e.expiresAt.all (w.clock < ·) = true := by
    refine Option.all_eq_true_iff_get _ _ |>.mpr fun hx => ?_
    have hend := (h e he).2 _ (Option.some_get hx).symm
    have hnow := clock_lt_minuteEnd hclock
    simp only [decide_eq_true_eq]
    omega
  simp only [LimiterWorld.find?, he, Option.filter_some, hlasts, if_true]

/-- What `GET` answers. -/
theorem get_eq_rawCount {v : Option Int} (h : CountKey minuteBucket key w) (hclock : bucketOf w.clock = minuteBucket)
    (hv : (limitExec (.get key) w).1 = .ok v) : v.getD 0 = rawCount key w := by
  simp only [limitExec, LimiterWorld.get, find?_of_countKey h hclock] at hv
  rcases he : w.keys key with _ | ⟨value, expiresAt⟩
  · rw [he] at hv
    simp only [rawCount, he, ← Except.ok.inj hv, Option.getD_none]
  · obtain ⟨n, rfl⟩ := (h _ he).1
    rw [he] at hv
    simp only [rawCount, he, ← Except.ok.inj hv, Option.getD_some]

theorem rawCount_congr {w' : LimiterWorld} (h : w'.keys key = w.keys key) : rawCount key w' = rawCount key w := by
  simp only [rawCount, h]

/-- An allowed command raises the counter by one if it is its `INCR`, and else not at all. -/
theorem countKey_exec {i : Nat} {r : LimitReq} (h : CountKey minuteBucket key w)
    (hclock : bucketOf w.clock = minuteBucket) (hr : countsOnly key i r) :
    CountKey minuteBucket key (limitExec r w).2 ∧
      rawCount key (limitExec r w).2 = rawCount key w + if r = .incr key then 1 else 0 := by
  by_cases hw : r.writes = some key
  swap
  · have hkeys := limitExec_keys (w := w) hw
    have hne : r ≠ .incr key := by
      rintro rfl
      exact hw rfl
    rw [if_neg hne, Int.add_zero]
    refine ⟨fun e he => h e (by rw [← hkeys]; exact he), rawCount_congr hkeys⟩
  rcases hr hw with rfl | rfl
  · rw [if_pos rfl]
    simp only [limitExec, LimiterWorld.incr, find?_of_countKey h hclock]
    rcases he : w.keys key with _ | ⟨value, expiresAt⟩
    · simp only [rawCount, he, setKey_keys, put_self]
      refine ⟨fun e he => ?_, by omega⟩
      simp only [setKey_keys, put_self, Option.some.injEq] at he
      subst he
      exact ⟨⟨1, rfl⟩, fun _ hx => by cases hx⟩
    · obtain ⟨⟨n, rfl⟩, hlasts⟩ := h _ he
      simp only [rawCount, he, setKey_keys, put_self, and_true]
      intro e he
      simp only [setKey_keys, put_self, Option.some.injEq] at he
      subst he
      exact ⟨⟨n + 1, rfl⟩, hlasts⟩
  · rw [if_neg (by intro hcontra; cases hcontra), Int.add_zero]
    simp only [limitExec, LimiterWorld.expire, find?_of_countKey h hclock]
    rcases he : w.keys key with _ | ⟨value, expiresAt⟩
    · exact ⟨h, rfl⟩
    · obtain ⟨⟨n, rfl⟩, -⟩ := h _ he
      simp only [rawCount, he, show ¬(120 : Int) ≤ 0 by decide, if_false, setKey_keys, put_self, and_true]
      intro e he
      simp only [setKey_keys, put_self, Option.some.injEq] at he
      subst he
      refine ⟨⟨n, rfl⟩, fun x hx => ?_⟩
      rw [← Option.some.inj hx]
      exact minuteEnd_le_expiry hclock

end

/-! ## The bytes of the last sixty buckets -/

def byteLevel (minuteBucket : Int) (key : String) (w : LimiterWorld) : Int :=
  match w.find? key with
  | some ⟨.hash fields, _⟩ => totalBytes minuteBucket fields.rows
  | _ => 0

/-- The key holds byte counts. -/
def BytesKey (key : String) (w : LimiterWorld) : Prop :=
  ∀ e, w.keys key = some e → ∃ fields, e.value = .hash fields ∧ ∀ f ∈ fields.rows, 0 ≤ f.2

def bytesGate (minuteBucket : Int) (key : String) (limit : Int) (sizes : List Nat) : Gate LimitReply LimiterExc where
  weight i := sizes[i]?.getD 0
  passes i e :=
    match e with
    | ⟨.hgetall k, .ok fields, _⟩ => k = key ∧ totalBytes minuteBucket fields + (sizes[i]?.getD 0 : Nat) ≤ limit
    | _ => false
  counts r :=
    match r with
    | .hincrby k _ _ => k = key
    | _ => false

/-- The key is written by the `HDEL` of stale fields, the `HINCRBY` of the task's own bytes,
    and the `EXPIRE` after it. -/
def bytesOnly (minuteBucket : Int) (key : String) (sizes : List Nat) (i : Nat) (r : LimitReq) : Prop :=
  r.writes = some key →
    (∃ names, (∀ f ∈ names, f < minuteBucket - 59) ∧ r = .hdel key names) ∨
      r = .hincrby key minuteBucket (sizes[i]?.getD 0 : Nat) ∨ r = .expire key 3720

section

variable {fields : List (Int × Int)}

theorem totalBytes_nonneg (h : ∀ f ∈ fields, 0 ≤ f.2) : 0 ≤ totalBytes minuteBucket fields := by
  refine List.sum_nonneg fun n hn => ?_
  obtain ⟨f, hf, rfl⟩ := List.mem_map.mp hn
  exact h f (List.mem_of_mem_filter hf)

theorem totalBytes_cons (f : Int × Int) (fields : List (Int × Int)) : totalBytes minuteBucket (f :: fields) =
    (if f.1 < minuteBucket - 59 then 0 else f.2) + totalBytes minuteBucket fields := by
  by_cases h : f.1 < minuteBucket - 59 <;> simp [totalBytes, recentFields, h]

theorem totalBytes_append (fields fields' : List (Int × Int)) : totalBytes minuteBucket (fields ++ fields') =
    totalBytes minuteBucket fields + totalBytes minuteBucket fields' := by
  simp [totalBytes, recentFields]

/-- Stale fields do not count. -/
theorem totalBytes_delete {names : List Int} (h : ∀ f ∈ names, f < minuteBucket - 59) :
    totalBytes minuteBucket (fields.filter fun f => !names.contains f.1) = totalBytes minuteBucket fields := by
  induction fields with
  | nil => rfl
  | cons f fields ih =>
    simp only [List.contains_eq_mem] at ih
    by_cases hf : f.1 ∈ names
    · have hstale := h f.1 hf
      simp [totalBytes_cons, hf, hstale, ih]
    · simp [totalBytes_cons, hf, ih]

/-- One field raised, which counts unless it is stale. -/
theorem totalBytes_update {field n : Int} (hnodup : (fields.map Prod.fst).Nodup) (hmem : field ∈ fields.map Prod.fst) :
    totalBytes minuteBucket (fields.map fun f => if f.1 = field then (f.1, f.2 + n) else f) =
      totalBytes minuteBucket fields + if field < minuteBucket - 59 then 0 else n := by
  induction fields with
  | nil => cases hmem
  | cons f fields ih =>
    obtain ⟨hfresh, hnodup⟩ := List.nodup_cons.mp hnodup
    rw [List.map_cons, totalBytes_cons, totalBytes_cons]
    by_cases hf : f.1 = field
    · have hrest : (fields.map fun f => if f.1 = field then (f.1, f.2 + n) else f) = fields := by
        refine (List.map_congr_left fun a ha => if_neg fun ha' => hfresh ?_).trans (List.map_id _)
        rw [hf, ← ha']
        exact List.mem_map_of_mem ha
      simp only [hf, if_true, hrest]
      split <;> omega
    · have hmem' : field ∈ fields.map Prod.fst := by
        rcases List.mem_cons.mp hmem with h | h
        · exact (hf h.symm).elim
        · exact h
      simp only [hf, if_false, ih hnodup hmem']
      omega

theorem totalBytes_addToField {fields : HashFields} {field n : Int} :
    totalBytes minuteBucket (LimiterWorld.addToField fields field n).rows =
      totalBytes minuteBucket fields.rows + if field < minuteBucket - 59 then 0 else n := by
  unfold LimiterWorld.addToField
  split
  · rename_i inserted hinsert
    rw [Table.insert_rows hinsert, totalBytes_append, totalBytes_cons]
    simp only [totalBytes, recentFields, List.filter_nil, List.map_nil, List.sum_nil, Int.add_zero]
  · rename_i hnone
    obtain ⟨f, hf, hkey⟩ := Table.insert_eq_none.mp hnone
    refine totalBytes_update fields.unique ?_
    rw [← show f.1 = field from hkey]
    exact List.mem_map_of_mem hf

theorem addToField_nonneg {fields : HashFields} {field n : Int} (h : ∀ f ∈ fields.rows, 0 ≤ f.2) (hn : 0 ≤ n) :
    ∀ f ∈ (LimiterWorld.addToField fields field n).rows, 0 ≤ f.2 := by
  intro f hf
  unfold LimiterWorld.addToField at hf
  split at hf
  · rename_i inserted hinsert
    rw [Table.insert_rows hinsert] at hf
    rcases List.mem_append.mp hf with hf | hf
    · exact h f hf
    · rw [List.mem_singleton.mp hf]
      exact hn
  · obtain ⟨f', hf', rfl⟩ := List.mem_map.mp hf
    have hpos := h f' hf'
    split
    · show 0 ≤ f'.2 + n
      omega
    · exact hpos

end

section

variable {w : LimiterWorld} {key : String} {sizes : List Nat} {i : Nat}

theorem byteLevel_nonneg (h : BytesKey key w) : 0 ≤ byteLevel minuteBucket key w := by
  unfold byteLevel
  split
  · rename_i fields _ hfind
    obtain ⟨fields', hvalue, hpos⟩ := h _ (Option.filter_eq_some_iff.mp hfind).1
    obtain rfl := RedisValue.hash.inj hvalue
    exact totalBytes_nonneg hpos
  · exact le_rfl

theorem byteLevel_congr {w' : LimiterWorld} (h : w'.find? key = w.find? key) :
    byteLevel minuteBucket key w' = byteLevel minuteBucket key w := by
  simp only [byteLevel, h]

/-- Time can only take the key away. -/
theorem byteLevel_elapse (d : Nat) (h : BytesKey key w) :
    byteLevel minuteBucket key (limitBackend.elapse d w) ≤ byteLevel minuteBucket key w := by
  rcases hlater : (limitBackend.elapse d w).find? key with _ | e
  · simp only [byteLevel, hlater]
    exact byteLevel_nonneg h
  · obtain ⟨he, hlasts⟩ := Option.filter_eq_some_iff.mp hlater
    have hnow : w.find? key = some e := by
      refine Option.filter_eq_some_iff.mpr ⟨he, ?_⟩
      rcases hx : e.expiresAt with _ | x
      · rfl
      · rw [hx] at hlasts
        have hlasts : w.clock + d < x := of_decide_eq_true hlasts
        simp only [Option.all_some, decide_eq_true_eq]
        omega
    rw [byteLevel_congr (hlater.trans hnow.symm)]

/-- What `HGETALL` answers. -/
theorem hgetall_eq_byteLevel {fields : List (Int × Int)} (h : (limitExec (.hgetall key) w).1 = .ok fields) :
    totalBytes minuteBucket fields = byteLevel minuteBucket key w := by
  simp only [limitExec, LimiterWorld.hgetall] at h
  unfold byteLevel
  split at h
  · rename_i hfind
    rw [hfind, ← Except.ok.inj h]
    rfl
  · rename_i hfind
    rw [hfind, ← Except.ok.inj h]
  · cases h

theorem bytesKey_setKey {e : Option Entry} (h : ∀ e', e = some e' →
    ∃ fields, e'.value = .hash fields ∧ ∀ f ∈ fields.rows, 0 ≤ f.2) : BytesKey key (w.setKey key e) := by
  intro e' he
  simp only [setKey_keys, put_self] at he
  exact h e' he

theorem not_stale (minuteBucket : Int) : ¬minuteBucket < minuteBucket - 59 := by omega

/-- An allowed command adds the task's bytes if it is its `HINCRBY`, and else nothing. -/
theorem bytesKey_exec {r : LimitReq} (h : BytesKey key w) (hr : bytesOnly minuteBucket key sizes i r) :
    BytesKey key (limitExec r w).2 ∧ byteLevel minuteBucket key (limitExec r w).2 = byteLevel minuteBucket key w +
      if (bytesGate minuteBucket key 0 sizes).counts r then ((sizes[i]?.getD 0 : Nat) : Int) else 0 := by
  by_cases hw : r.writes = some key
  swap
  · have hkeys := limitExec_keys (w := w) hw
    have hfind : (limitExec r w).2.find? key = w.find? key := by
      simp only [LimiterWorld.find?, hkeys, limitExec_clock]
    have hne : (bytesGate minuteBucket key 0 sizes).counts r = false := by
      cases r <;> first | rfl | exact decide_eq_false fun e => hw (congrArg some e)
    simp only [hne, Bool.false_eq_true, if_false, Int.add_zero]
    exact ⟨fun e he => h e (by rw [← hkeys]; exact he), byteLevel_congr hfind⟩
  rcases hfind : w.find? key with _ | e
  · have hzero : byteLevel minuteBucket key w = 0 := by simp only [byteLevel, hfind]
    rcases hr hw with ⟨names, -, rfl⟩ | rfl | rfl
    · simp only [limitExec, LimiterWorld.hdel, hfind]
      exact ⟨h, (Int.add_zero _).symm⟩
    · simp only [limitExec, LimiterWorld.hincrby, hfind, bytesGate, decide_true, if_true]
      refine ⟨bytesKey_setKey fun e he => ?_, ?_⟩
      · obtain rfl := Option.some.inj he
        exact ⟨_, rfl, addToField_nonneg (fun f hf => by cases hf) (Int.natCast_nonneg _)⟩
      · rw [hzero]
        simp only [byteLevel, find?_setKey_self, Option.filter_some, Option.all_none, if_true, totalBytes_addToField,
          not_stale, if_false]
        rfl
    · simp only [limitExec, LimiterWorld.expire, hfind]
      exact ⟨h, (Int.add_zero _).symm⟩
  · obtain ⟨he, hlasts⟩ := Option.filter_eq_some_iff.mp hfind
    obtain ⟨value, expiresAt⟩ := e
    obtain ⟨fields, rfl, hpos⟩ := h _ he
    have hlevel : byteLevel minuteBucket key w = totalBytes minuteBucket fields.rows := by simp only [byteLevel, hfind]
    rw [hlevel]
    rcases hr hw with ⟨names, hstale, rfl⟩ | rfl | rfl
    · simp only [limitExec, LimiterWorld.hdel, hfind, bytesGate, Bool.false_eq_true, if_false, Int.add_zero]
      have htotal := @totalBytes_delete _ fields.rows _ hstale
      split
      · rename_i hempty
        refine ⟨bytesKey_setKey (fun e he => by cases he), ?_⟩
        rw [← htotal]
        simp only [byteLevel, find?_setKey_self, Option.filter_none]
        have hnil : (fields.rows.filter fun f => !names.contains f.1) = [] := List.isEmpty_iff.mp hempty
        rw [hnil]
        rfl
      · refine ⟨bytesKey_setKey fun e he => ?_, ?_⟩
        · obtain rfl := Option.some.inj he
          exact ⟨_, rfl, fun f hf => hpos f (List.mem_of_mem_filter hf)⟩
        · simp only [byteLevel, find?_setKey_self, Option.filter_some, hlasts, if_true]
          exact htotal
    · simp only [limitExec, LimiterWorld.hincrby, hfind, bytesGate, decide_true, if_true]
      refine ⟨bytesKey_setKey fun e he => ?_, ?_⟩
      · obtain rfl := Option.some.inj he
        exact ⟨_, rfl, addToField_nonneg hpos (Int.natCast_nonneg _)⟩
      · simp only [byteLevel, find?_setKey_self, Option.filter_some, hlasts, if_true, totalBytes_addToField, not_stale, if_false]
    · simp only [limitExec, LimiterWorld.expire, hfind, show ¬(3720 : Int) ≤ 0 by decide, if_false, bytesGate,
        Bool.false_eq_true, Int.add_zero]
      refine ⟨bytesKey_setKey fun e he => ?_, ?_⟩
      · obtain rfl := Option.some.inj he
        exact ⟨_, rfl, hpos⟩
      · have hlater : w.clock < w.clock + 3720 * second := by unfold second; omega
        simp only [byteLevel, find?_setKey_self, Option.filter_some, Option.all_some, hlater, decide_true, if_true]

end

/-! ## What a method does at its gates -/

/-- An answer given in the minute, to a method that does not fall back. -/
def Answered (config : LimitConfig) (minuteBucket : Int) (e : LimitCall) : Prop :=
  e.req.fallsBack = false ∧
    match e with
    | ⟨.time, .ok now, _⟩ => bucketOf now = minuteBucket
    | ⟨.getValue key, .ok value, _⟩ => value = config key
    | ⟨_, .ok _, _⟩ => True
    | ⟨_, .error _, _⟩ => False

/-- A method that returns has been counted. -/
def CountedAtReturn (x : Except LimiterExc α) (phase : Gate.Phase) : Prop := ∀ a, x = .ok a → phase = .counted

theorem countedAtReturn_error (e : LimiterExc) (phase : Gate.Phase) : CountedAtReturn (.error e : Except LimiterExc α) phase :=
  fun _ h => by cases h

section

variable {G : Gate LimitReply LimiterExc} {allowed : Nat → LimitReq → Prop} {i : Nat}

theorem not_answered_error {r : LimitReq} {e : LimiterExc} {b : Bool} :
    ¬Answered config minuteBucket ⟨r, .error e, b⟩ := by
  intro h
  cases r <;> exact h.2

theorem wp_request {r : LimitReq} {f : LimitReply r → LimitProg β} {Q : Except LimiterExc β → Gate.Phase → Prop}
    {phase : Gate.Phase} (hcan : (G.protocol allowed i).can phase r)
    (hok : ∀ a b, Answered config minuteBucket ⟨r, .ok a, b⟩ →
      wp ((G.protocol allowed i).machine (Answered config minuteBucket)) Q (f a) (G.next i phase ⟨r, .ok a, b⟩)) :
    wp ((G.protocol allowed i).machine (Answered config minuteBucket)) Q (request r >>= f) phase :=
  Protocol.wp_await hcan hok fun _ _ h => (not_answered_error h).elim

theorem wp_request_quiet {r : LimitReq} {f : LimitReply r → LimitProg β} {Q : Except LimiterExc β → Gate.Phase → Prop}
    {phase : Gate.Phase} (hquiet : G.Quiet allowed i r)
    (hok : ∀ a b, Answered config minuteBucket ⟨r, .ok a, b⟩ →
      wp ((G.protocol allowed i).machine (Answered config minuteBucket)) Q (f a) phase) :
    wp ((G.protocol allowed i).machine (Answered config minuteBucket)) Q (request r >>= f) phase := by
  refine wp_request (Gate.can_of_quiet hquiet) fun a b h => ?_
  have hstay : G.next i phase ⟨r, .ok a, b⟩ = phase :=
    Gate.next_of_quiet (e := ⟨r, .ok a, b⟩) hquiet
  rw [hstay]
  exact hok a b h

theorem wp_request_last {r : LimitReq} {Q : Except LimiterExc (LimitReply r) → Gate.Phase → Prop} {phase : Gate.Phase}
    (hquiet : G.Quiet allowed i r) (hok : ∀ a, Q (.ok a) phase) :
    wp ((G.protocol allowed i).machine (Answered config minuteBucket)) Q (request r) phase := by
  refine (wp_perform phase).mpr ⟨Gate.can_of_quiet hquiet, ?_⟩
  rintro (e | a) _ ⟨b, h, rfl⟩
  · exact (not_answered_error h).elim
  · rw [Gate.next_of_quiet hquiet]
    exact hok a

/-- A method that falls back gets no answer. -/
theorem wp_fallsBack {r : LimitReq} {Q : Except LimiterExc (LimitReply r) → Gate.Phase → Prop} {phase : Gate.Phase}
    (hr : r.fallsBack = true) (hquiet : G.Quiet allowed i r) :
    wp ((G.protocol allowed i).machine (Answered config minuteBucket)) Q (request r) phase := by
  refine (wp_perform phase).mpr ⟨Gate.can_of_quiet hquiet, ?_⟩
  rintro x _ ⟨b, h, -⟩
  have hnot : r.fallsBack = false := h.1
  rw [hr] at hnot
  cases hnot

theorem withRedisFallback_counts {operation : String} {fallback callback : LimitProg Unit}
    (hquiet : ∀ r : LimitReq, r.key = none → G.Quiet allowed i r)
    (hfallback : ∀ phase, wp ((G.protocol allowed i).machine (Answered config minuteBucket)) CountedAtReturn fallback phase)
    (hcallback : wp ((G.protocol allowed i).machine (Answered config minuteBucket)) CountedAtReturn callback .outside) :
    wp ((G.protocol allowed i).machine (Answered config minuteBucket)) CountedAtReturn
      (withRedisFallback operation fallback callback) .outside := by
  rw [withRedisFallback, wp_tryExcept]
  refine wp_request_quiet (hquiet _ rfl) fun _ b _ => ?_
  rw [wp_bind, wp_tryExcept]
  refine wp_mono (fun x phase hx => ?_) hcallback
  cases x with
  | ok a =>
    exact wp_request_last (hquiet _ rfl) fun _ _ _ => hx a rfl
  | error e =>
    simp only [tryPost_error]
    split
    · rw [wp_bind]
      exact wp_fallsBack rfl (hquiet _ rfl)
    · cases e with
      | redisUnavailable msg => exact hfallback phase
      | redis | timeout | py => exact countedAtReturn_error _ _

end

theorem requestGate_quiet {key : String} {limit : Int} {i : Nat} {r : LimitReq} (h : r.key ≠ some key) :
    (requestGate key limit).Quiet (countsOnly key) i r := by
  refine ⟨fun hw => ?_, ?_, fun x b => ?_⟩
  · refine (h ?_).elim
    cases r <;> first | exact hw | cases hw
  · refine decide_eq_false fun hr => h ?_
    rw [hr]
    rfl
  · cases r with
    | get k =>
      cases x with
      | ok v => exact decide_eq_false fun hp => h (congrArg some hp.1)
      | error e => rfl
    | _ => rfl

theorem bytesGate_quiet {key : String} {limit : Int} {sizes : List Nat} {i : Nat} {r : LimitReq} (h : r.key ≠ some key) :
    (bytesGate minuteBucket key limit sizes).Quiet (bytesOnly minuteBucket key sizes) i r := by
  refine ⟨fun hw => ?_, ?_, fun x b => ?_⟩
  · refine (h ?_).elim
    cases r <;> first | exact hw | cases hw
  · cases r with
    | hincrby k _ _ => exact decide_eq_false fun hp => h (congrArg some hp)
    | _ => rfl
  · cases r with
    | hgetall k =>
      cases x with
      | ok fields => exact decide_eq_false fun hp => h (congrArg some hp.1)
      | error e => rfl
    | _ => rfl

/-! ## The counters a request goes through -/

theorem checkRequests_key (key : String) (rpm : Int) : (checkRequests key rpm).Uses fun r => r.key = some key := by
  unfold checkRequests
  split
  · exact Program.uses_bind (Program.uses_perform rfl) fun _ => Program.uses_raiseIf _ _
  · trivial

theorem checkBytes_key (key : String) (bph minuteBucket : Int) (byteCount : Nat) :
    (checkBytes key bph minuteBucket byteCount).Uses fun r => r.key = some key := by
  unfold checkBytes
  split
  swap
  · trivial
  refine Program.uses_bind (Program.uses_perform rfl) fun fields => Program.uses_bind ?_ fun _ => Program.uses_raiseIf _ _
  unfold dropStale
  split
  · trivial
  · exact Program.uses_perform rfl

theorem enforceCounter_key (scope : String) (limits : UploadLimits) (byteCount : Nat) :
    (RedisRateLimiter.enforceCounter redis scope minuteBucket limits byteCount).Uses fun r =>
      r.key = some (requestsKey redis scope minuteBucket) ∨ r.key = some (bytesKey redis scope) := by
  refine Program.uses_bind ((checkRequests_key _ _).mono fun _ h => .inl h) fun _ =>
    Program.uses_bind ((checkBytes_key _ _ _ _).mono fun _ h => .inr h) fun _ => ?_
  exact Program.uses_bind (Program.uses_perform (.inl rfl)) fun _ => Program.uses_bind (Program.uses_perform (.inl rfl))
    fun _ => Program.uses_bind (Program.uses_perform (.inr rfl)) fun _ => Program.uses_perform (.inr rfl)

section

variable {key requests bytes : String} {limit : Int} {sizes : List Nat} {i : Nat}

theorem checkRequests_waits (hlimit : 0 < limit) :
    wp (((requestGate key limit).protocol (countsOnly key) i).machine (Answered config minuteBucket))
      (fun x phase => ∀ a, x = .ok a → phase = .waiting) (checkRequests key limit) .outside := by
  rw [checkRequests, if_pos hlimit]
  refine wp_request ⟨(fun hw => by cases hw), (fun hc => by cases hc)⟩ fun current b _ => ?_
  rw [wp_raiseIf]
  refine ⟨fun _ _ h => (by cases h), fun hroom _ _ => ?_⟩
  have hlt : current.getD 0 < limit := by simpa using hroom
  simp only [Gate.next, requestGate, true_and, decide_eq_true hlt, if_true]

theorem record_counts_request (hne : bytes ≠ requests) (byteCount : Nat) :
    wp (((requestGate requests limit).protocol (countsOnly requests) i).machine (Answered config minuteBucket))
      CountedAtReturn (record requests bytes minuteBucket byteCount) .waiting := by
  have hquiet : ∀ r : LimitReq, r.key = some bytes → (requestGate requests limit).Quiet (countsOnly requests) i r := by
    intro r hr
    refine requestGate_quiet ?_
    rw [hr]
    exact fun h => hne (Option.some.inj h)
  refine wp_request ⟨fun _ => .inl rfl, fun _ => rfl⟩ fun updated b _ => ?_
  have hcounted : (requestGate requests limit).next i .waiting ⟨.incr requests, .ok updated, b⟩ = .counted := by
    simp only [Gate.next, requestGate, decide_true, if_true]
  rw [hcounted]
  refine wp_request ⟨fun _ => .inr rfl, (fun hc => by cases hc)⟩ fun _ b _ => ?_
  refine wp_request_quiet (hquiet _ rfl) fun _ b _ => ?_
  exact wp_request_last (hquiet _ rfl) fun _ _ _ => rfl

theorem checkBytes_waits (hlimit : 0 < limit) :
    wp (((bytesGate minuteBucket key limit sizes).protocol (bytesOnly minuteBucket key sizes) i).machine
        (Answered config minuteBucket))
      (fun x phase => ∀ a, x = .ok a → phase = .waiting)
      (checkBytes key limit minuteBucket (sizes[i]?.getD 0)) .outside := by
  rw [checkBytes, if_pos hlimit]
  refine wp_request ⟨(fun hw => by cases hw), (fun hc => by cases hc)⟩ fun fields b _ => ?_
  have hstale : ∀ f ∈ staleFields minuteBucket fields, f < minuteBucket - 59 := by
    intro f hf
    obtain ⟨entry, hentry, rfl⟩ := List.mem_map.mp hf
    exact of_decide_eq_true (List.mem_filter.mp hentry).2
  have hdrop : (dropStale key minuteBucket fields).Uses
      ((bytesGate minuteBucket key limit sizes).Quiet (bytesOnly minuteBucket key sizes) i) := by
    unfold dropStale
    split
    · trivial
    · exact Program.uses_perform ⟨fun _ => .inl ⟨_, hstale, rfl⟩, rfl, fun _ _ => rfl⟩
  refine Gate.wp_quiet hdrop (fun _ => ?_) fun _ _ h => (by cases h)
  rw [wp_raiseIf]
  refine ⟨fun _ _ h => (by cases h), fun hroom _ _ => ?_⟩
  have hle : totalBytes minuteBucket fields + (sizes[i]?.getD 0 : Nat) ≤ limit := by simpa using hroom
  simp only [Gate.next, bytesGate, true_and, decide_eq_true hle, if_true]

theorem record_counts_bytes (hne : requests ≠ bytes) :
    wp (((bytesGate minuteBucket bytes limit sizes).protocol (bytesOnly minuteBucket bytes sizes) i).machine
        (Answered config minuteBucket))
      CountedAtReturn (record requests bytes minuteBucket (sizes[i]?.getD 0)) .waiting := by
  have hquiet : ∀ r : LimitReq, r.key = some requests →
      (bytesGate minuteBucket bytes limit sizes).Quiet (bytesOnly minuteBucket bytes sizes) i r := by
    intro r hr
    refine bytesGate_quiet ?_
    rw [hr]
    exact fun h => hne (Option.some.inj h)
  refine wp_request_quiet (hquiet _ rfl) fun _ b _ => ?_
  refine wp_request_quiet (hquiet _ rfl) fun _ b _ => ?_
  refine wp_request ⟨fun _ => .inr (.inl rfl), fun _ => rfl⟩ fun total b _ => ?_
  have hcounted : (bytesGate minuteBucket bytes limit sizes).next i .waiting
      ⟨.hincrby bytes minuteBucket (sizes[i]?.getD 0 : Nat), .ok total, b⟩ = .counted := by
    simp only [Gate.next, bytesGate, decide_true, if_true]
  rw [hcounted]
  exact wp_request_last ⟨fun _ => .inr (.inr rfl), rfl, fun _ _ => rfl⟩ fun _ _ _ => rfl

end

section

variable {scope : String} {limits : UploadLimits} {sizes : List Nat} {i : Nat}

/-- A request is let through by the counter of its minute, and counted. -/
theorem enforceCounter_requests (byteCount : Nat) (hlimit : 0 < limits.rpm) :
    wp (((requestGate (requestsKey redis scope minuteBucket) limits.rpm).protocol
        (countsOnly (requestsKey redis scope minuteBucket)) i).machine (Answered config minuteBucket))
      CountedAtReturn (RedisRateLimiter.enforceCounter redis scope minuteBucket limits byteCount) .outside := by
  refine wp_seq (checkRequests_waits hlimit) (fun _ phase hwaits => ?_) fun _ _ _ => countedAtReturn_error _ _
  obtain rfl := hwaits () rfl
  have hquiet : (checkBytes (bytesKey redis scope) limits.bph minuteBucket byteCount).Uses
      ((requestGate (requestsKey redis scope minuteBucket) limits.rpm).Quiet
        (countsOnly (requestsKey redis scope minuteBucket)) i) := by
    refine (checkBytes_key _ _ _ _).mono fun r hr => requestGate_quiet ?_
    rw [hr]
    exact fun h => requestsKey_ne_bytesKey scope scope (Option.some.inj h).symm
  refine Gate.wp_quiet hquiet (fun _ => ?_) fun _ => countedAtReturn_error _ _
  exact record_counts_request (requestsKey_ne_bytesKey scope scope).symm byteCount

/-- Its bytes are let through beside those of the last sixty buckets, and counted. -/
theorem enforceCounter_bytes (hlimit : 0 < limits.bph) :
    wp (((bytesGate minuteBucket (bytesKey redis scope) limits.bph sizes).protocol
        (bytesOnly minuteBucket (bytesKey redis scope) sizes) i).machine (Answered config minuteBucket))
      CountedAtReturn (RedisRateLimiter.enforceCounter redis scope minuteBucket limits (sizes[i]?.getD 0)) .outside := by
  have hquiet : (checkRequests (requestsKey redis scope minuteBucket) limits.rpm).Uses
      ((bytesGate minuteBucket (bytesKey redis scope) limits.bph sizes).Quiet
        (bytesOnly minuteBucket (bytesKey redis scope) sizes) i) := by
    refine (checkRequests_key _ _).mono fun r hr => bytesGate_quiet ?_
    rw [hr]
    exact fun h => requestsKey_ne_bytesKey scope scope (Option.some.inj h)
  refine Gate.wp_quiet hquiet (fun _ => ?_) fun _ => countedAtReturn_error _ _
  refine wp_seq (checkBytes_waits hlimit) (fun _ phase hwaits => ?_) fun _ _ _ => countedAtReturn_error _ _
  obtain rfl := hwaits () rfl
  exact record_counts_bytes (requestsKey_ne_bytesKey scope scope)

end

/-! ## Upload requests -/

/-- The counter that is an actor's own. -/
def scopeOf (user : Option User) (actorKey : String) : String :=
  match user with
  | some _ => "user:" ++ actorKey
  | none => "anon:" ++ actorKey

def limitsOf (config : LimitConfig) (user : Option User) : UploadLimits :=
  match user with
  | some user => userLimits config user
  | none => anonLimits config

section

variable {G : Gate LimitReply LimiterExc} {allowed : Nat → LimitReq → Prop} {i : Nat}

theorem wp_overrideOr {value : Option Int} {key : LimitKey} {f : Int → LimitProg β}
    {Q : Except LimiterExc β → Gate.Phase → Prop} {phase : Gate.Phase} (hquiet : G.Quiet allowed i (.getValue key))
    (hok : wp ((G.protocol allowed i).machine (Answered config minuteBucket)) Q (f (value.getD (config key))) phase) :
    wp ((G.protocol allowed i).machine (Answered config minuteBucket)) Q
      (RedisRateLimiter.overrideOr value key >>= f) phase := by
  cases value with
  | some value => exact hok
  | none =>
    refine wp_request_quiet hquiet fun v b h => ?_
    have hv : v = config key := h.2
    rw [hv]
    exact hok

theorem wp_getValue {key : LimitKey} {f : Int → LimitProg β} {Q : Except LimiterExc β → Gate.Phase → Prop}
    {phase : Gate.Phase} (hquiet : G.Quiet allowed i (.getValue key))
    (hok : wp ((G.protocol allowed i).machine (Answered config minuteBucket)) Q (f (config key)) phase) :
    wp ((G.protocol allowed i).machine (Answered config minuteBucket)) Q (request (.getValue key) >>= f) phase :=
  @wp_overrideOr _ _ _ _ _ _ none _ _ _ _ hquiet hok

theorem enforceWithRedis_counts {actorKey : String} {byteCount : Nat} {user : Option User}
    (hquiet : ∀ r : LimitReq, r.key = none → G.Quiet allowed i r)
    (hown : wp ((G.protocol allowed i).machine (Answered config minuteBucket)) CountedAtReturn
      (RedisRateLimiter.enforceCounter redis (scopeOf user actorKey) minuteBucket (limitsOf config user) byteCount) .outside)
    (hglobal : user = none → ∀ limits,
      (RedisRateLimiter.enforceCounter redis "anon:global" minuteBucket limits byteCount).Uses (G.Quiet allowed i)) :
    wp ((G.protocol allowed i).machine (Answered config minuteBucket)) CountedAtReturn
      (RedisRateLimiter.enforceWithRedis redis ⟨actorKey, byteCount, user⟩) .outside := by
  refine wp_request_quiet (hquiet _ rfl) fun now b h => ?_
  obtain rfl : bucketOf now = minuteBucket := h.2
  cases user with
  | some user =>
    exact wp_overrideOr (hquiet _ rfl) (wp_overrideOr (hquiet _ rfl) hown)
  | none =>
    refine wp_getValue (hquiet _ rfl) (wp_getValue (hquiet _ rfl) (wp_getValue (hquiet _ rfl) (wp_getValue (hquiet _ rfl) ?_)))
    refine wp_seq hown (fun _ phase hphase => ?_) fun _ _ _ => countedAtReturn_error _ _
    obtain rfl := hphase () rfl
    refine Protocol.wp_stay (fun _ hr => Gate.can_of_quiet hr) (fun _ hr => Gate.next_of_quiet hr)
      (hglobal rfl _) fun _ _ _ => rfl

theorem enforceUploadLimits_counts {actorKey : String} {byteCount : Nat} {user : Option User}
    (hquiet : ∀ r : LimitReq, r.key = none → G.Quiet allowed i r)
    (hown : wp ((G.protocol allowed i).machine (Answered config minuteBucket)) CountedAtReturn
      (RedisRateLimiter.enforceCounter redis (scopeOf user actorKey) minuteBucket (limitsOf config user) byteCount) .outside)
    (hglobal : user = none → ∀ limits,
      (RedisRateLimiter.enforceCounter redis "anon:global" minuteBucket limits byteCount).Uses (G.Quiet allowed i)) :
    wp ((G.protocol allowed i).machine (Answered config minuteBucket)) CountedAtReturn
      (RedisRateLimiter.enforceUploadLimits redis ⟨actorKey, byteCount, user⟩) .outside :=
  withRedisFallback_counts hquiet (fun _ => wp_fallsBack rfl (hquiet _ rfl)) (enforceWithRedis_counts hquiet hown hglobal)

end

section

variable {actorKey : String} {user : Option User} {sizes : List Nat} {i : Nat}

/-- The counter of all anonymous actors is not an actor's own. -/
theorem scopeOf_ne_global (hactor : user = none → actorKey ≠ "global") (huser : user = none) :
    scopeOf user actorKey ≠ "anon:global" := by
  subst huser
  intro h
  exact hactor rfl ((String.append_right_inj "anon:").mp h)

theorem upload_requests (byteCount : Nat) (hlimit : 0 < (limitsOf config user).rpm)
    (hactor : user = none → actorKey ≠ "global") :
    wp (((requestGate (requestsKey redis (scopeOf user actorKey) minuteBucket) (limitsOf config user).rpm).protocol
        (countsOnly (requestsKey redis (scopeOf user actorKey) minuteBucket)) i).machine (Answered config minuteBucket))
      CountedAtReturn (RedisRateLimiter.enforceUploadLimits redis ⟨actorKey, byteCount, user⟩) .outside := by
  refine enforceUploadLimits_counts (fun r hr => requestGate_quiet ?_) (enforceCounter_requests byteCount hlimit)
    fun huser limits => (enforceCounter_key _ _ _).mono fun r hr => requestGate_quiet ?_
  · rw [hr]
    exact nofun
  · intro hkey
    rw [hkey] at hr
    rcases hr with hr | hr
    · exact scopeOf_ne_global hactor huser (requestsKey_inj (Option.some.inj hr))
    · exact requestsKey_ne_bytesKey _ _ (Option.some.inj hr)

theorem upload_bytes (hlimit : 0 < (limitsOf config user).bph) (hactor : user = none → actorKey ≠ "global") :
    wp (((bytesGate minuteBucket (bytesKey redis (scopeOf user actorKey)) (limitsOf config user).bph sizes).protocol
        (bytesOnly minuteBucket (bytesKey redis (scopeOf user actorKey)) sizes) i).machine (Answered config minuteBucket))
      CountedAtReturn (RedisRateLimiter.enforceUploadLimits redis ⟨actorKey, sizes[i]?.getD 0, user⟩) .outside := by
  refine enforceUploadLimits_counts (fun r hr => bytesGate_quiet ?_) (enforceCounter_bytes hlimit)
    fun huser limits => (enforceCounter_key _ _ _).mono fun r hr => bytesGate_quiet ?_
  · rw [hr]
    exact nofun
  · intro hkey
    rw [hkey] at hr
    rcases hr with hr | hr
    · exact requestsKey_ne_bytesKey _ _ (Option.some.inj hr).symm
    · exact scopeOf_ne_global hactor huser (bytesKey_inj (Option.some.inj hr))

end

/-! ## Every run -/

/-- A call in the minute that Redis answers; no method falls back to the limiter in memory. -/
def Served (minuteBucket : Int) (p : LimiterSite) (r : LimitReq) (fault : Option LimiterExc) : Prop :=
  fault = none ∧ r.fallsBack = false ∧ (limitExec r p.world).1.isOk = true ∧ bucketOf p.world.clock = minuteBucket

/-- A `GET` that finds the counter below the limit finds room beside those it has let through. -/
def RequestsInTurn (key : String) (limit : Int) (p : LimiterSite) (i : Nat) (r : LimitReq) : Prop :=
  r = .get key → (requestGate key limit).RoomBeside (rawCount key) limit p i

/-- An `HGETALL` that finds room for the bytes finds it beside those it has let through. -/
def BytesInTurn (minuteBucket : Int) (key : String) (limit : Int) (sizes : List Nat) (p : LimiterSite) (i : Nat)
    (r : LimitReq) : Prop :=
  r = .hgetall key → (bytesGate minuteBucket key limit sizes).RoomBeside (byteLevel minuteBucket key) limit p i

/-- The counter, which began at `first`, and what was let through by it. -/
structure RequestInv (config : LimitConfig) (minuteBucket : Int) (key : String) (limit first : Int) (p : LimiterSite) :
    Prop where
  sameConfig : p.world.config = config
  follows : p.Follows ((requestGate key limit).protocol (countsOnly key)) (Answered config minuteBucket)
    (fun _ => CountedAtReturn) fun _ => .outside
  countKey : CountKey minuteBucket key p.world
  bounded : rawCount key p.world + (requestGate key limit).total .waiting p ≤ max limit first
  counted : ((requestGate key limit).total .counted p : Int) ≤ rawCount key p.world - first

/-- The bytes, of which there were `first`, and what was let through beside them. -/
structure BytesInv (config : LimitConfig) (minuteBucket : Int) (key : String) (limit first : Int) (sizes : List Nat)
    (p : LimiterSite) : Prop where
  sameConfig : p.world.config = config
  follows : p.Follows ((bytesGate minuteBucket key limit sizes).protocol (bytesOnly minuteBucket key sizes))
    (Answered config minuteBucket) (fun _ => CountedAtReturn) fun _ => .outside
  bytesKey : BytesKey key p.world
  bounded : byteLevel minuteBucket key p.world + (bytesGate minuteBucket key limit sizes).total .waiting p ≤
    max limit first

section

variable {p : LimiterSite} {i : Nat} {t : Task LimitReply LimiterExc Unit} {r : LimitReq}
  {k : Except LimiterExc (LimitReply r) → LimitProg Unit} {fault : Option LimiterExc} {key : String}
  {limit first : Int} {sizes : List Nat}

theorem answered_of_served (hconfig : p.world.config = config) (h : Served minuteBucket p r fault) :
    Answered config minuteBucket ⟨r, (limitBackend.answer i r fault p.world).1, fault.isSome⟩ := by
  obtain ⟨rfl, hfalls, hok, hclock⟩ := h
  refine ⟨hfalls, ?_⟩
  simp only [Backend.answer_none, limitBackend]
  rcases hx : (limitExec r p.world).1 with e | a
  · rw [hx] at hok
    cases hok
  cases r with
  | time =>
    obtain rfl : p.world.clock = a := Except.ok.inj hx
    exact hclock
  | getValue key =>
    obtain rfl : p.world.config key = a := Except.ok.inj hx
    exact congrFun hconfig key
  | _ => trivial

theorem served_answer (h : Served minuteBucket p r fault) :
    limitBackend.answer i r fault p.world = limitExec r p.world := by
  rw [h.1]
  rfl

theorem requestInv_call (h : RequestInv config minuteBucket key limit first p) (ht : p.tasks[i]? = some t)
    (hr : t.rest = .call r k) (hserved : Served minuteBucket p r fault) (hturn : RequestsInTurn key limit p i r) :
    RequestInv config minuteBucket key limit first (p.advance limitBackend i t r k fault) := by
  obtain ⟨hcan, hcounts⟩ := h.follows.can ht hr
  have hworld : (p.advance limitBackend i t r k fault).world = (limitExec r p.world).2 :=
    congrArg Prod.snd (served_answer hserved)
  obtain ⟨hkey, hcount⟩ := countKey_exec h.countKey hserved.2.2.2 hcan
  have hlevel : rawCount key (p.advance limitBackend i t r k fault).world =
      rawCount key p.world + if (requestGate key limit).counts r then ((requestGate key limit).weight i : Int) else 0 := by
    rw [hworld, hcount]
    simp only [requestGate, decide_eq_true_eq]
    rfl
  refine ⟨?_, h.follows.advance ht hr (answered_of_served h.sameConfig hserved), ?_, ?_, ?_⟩
  · rw [hworld, limitExec_config]
    exact h.sameConfig
  · rw [hworld]
    exact hkey
  · refine Gate.bounded_advance ht (fun hc => ?_) (fun hpass => ?_) hlevel.le h.bounded
    · rw [Gate.phaseOf, Pool.seen_eq ht]
      exact hcounts hc
    · rw [served_answer hserved] at hpass
      cases r with
      | get read =>
        rcases hx : (limitExec (.get read) p.world).1 with e | v
        · rw [hx] at hpass
          cases hpass
        · rw [hx] at hpass
          obtain ⟨rfl, hlt⟩ := of_decide_eq_true hpass
          rw [get_eq_rawCount h.countKey hserved.2.2.2 hx] at hlt
          exact le_max_of_le_left (hturn rfl hlt)
      | _ => cases hpass
  · refine @Gate.counted_advance _ _ _ _ _ _ _ _ _ _ _ _ _ (fun w => rawCount key w - first) ht ?_ h.counted
    omega

theorem bytesInv_call (h : BytesInv config minuteBucket key limit first sizes p) (ht : p.tasks[i]? = some t)
    (hr : t.rest = .call r k) (hserved : Served minuteBucket p r fault)
    (hturn : BytesInTurn minuteBucket key limit sizes p i r) :
    BytesInv config minuteBucket key limit first sizes (p.advance limitBackend i t r k fault) := by
  obtain ⟨hcan, hcounts⟩ := h.follows.can ht hr
  have hworld : (p.advance limitBackend i t r k fault).world = (limitExec r p.world).2 :=
    congrArg Prod.snd (served_answer hserved)
  obtain ⟨hkey, htotal⟩ := bytesKey_exec h.bytesKey hcan
  have hlevel : byteLevel minuteBucket key (p.advance limitBackend i t r k fault).world =
      byteLevel minuteBucket key p.world + if (bytesGate minuteBucket key limit sizes).counts r then
        ((bytesGate minuteBucket key limit sizes).weight i : Int) else 0 := by
    rw [hworld]
    exact htotal
  refine ⟨?_, h.follows.advance ht hr (answered_of_served h.sameConfig hserved), ?_, ?_⟩
  · rw [hworld, limitExec_config]
    exact h.sameConfig
  · rw [hworld]
    exact hkey
  · refine Gate.bounded_advance ht (fun hc => ?_) (fun hpass => ?_) hlevel.le h.bounded
    · rw [Gate.phaseOf, Pool.seen_eq ht]
      exact hcounts hc
    · rw [served_answer hserved] at hpass
      cases r with
      | hgetall read =>
        rcases hx : (limitExec (.hgetall read) p.world).1 with e | fields
        · rw [hx] at hpass
          cases hpass
        · rw [hx] at hpass
          obtain ⟨rfl, hle⟩ := of_decide_eq_true hpass
          rw [hgetall_eq_byteLevel hx] at hle
          exact le_max_of_le_left (hturn rfl hle)
      | _ => cases hpass

theorem requestInv_elapse (d : Nat) (h : RequestInv config minuteBucket key limit first p) :
    RequestInv config minuteBucket key limit first { p with world := limitBackend.elapse d p.world } :=
  ⟨h.sameConfig, h.follows, h.countKey, h.bounded, h.counted⟩

theorem bytesInv_elapse (d : Nat) (h : BytesInv config minuteBucket key limit first sizes p) :
    BytesInv config minuteBucket key limit first sizes { p with world := limitBackend.elapse d p.world } := by
  refine ⟨h.sameConfig, h.follows, h.bytesKey, ?_⟩
  have hless := @byteLevel_elapse minuteBucket _ _ d h.bytesKey
  have hbounded := h.bounded
  show byteLevel minuteBucket key (limitBackend.elapse d p.world) + _ ≤ max limit first
  exact le_trans (Int.add_le_add_right hless _) hbounded

/-- The counter bounds those who returned. -/
theorem card_returned_le_limit (h : RequestInv config minuteBucket key limit first p) (hlimit : 0 ≤ limit)
    (hfirst : 0 ≤ first) : ((Gate.returned p).card : Int) ≤ limit := by
  have hcard := Gate.card_returned_le (G := requestGate key limit) (fun _ => le_rfl) h.follows fun _ a _ hQ => hQ a rfl
  have hcounted := h.counted
  have hbounded := h.bounded
  omega

theorem bytes_le (h : BytesInv config minuteBucket key limit first sizes p) :
    byteLevel minuteBucket key p.world ≤ max limit first := by
  have hbounded := h.bounded
  omega

end

section

variable {w : LimiterWorld} {key : String} {limit : Int} {sizes : List Nat} {ps : List (LimitProg Unit)}

theorem requestInv_start (hkey : CountKey minuteBucket key w)
    (hps : ∀ i q, ps[i]? = some q → wp (((requestGate key limit).protocol (countsOnly key) i).machine
      (Answered w.config minuteBucket)) CountedAtReturn q .outside) :
    RequestInv w.config minuteBucket key limit (rawCount key w) (Pool.start w ps) := by
  refine ⟨rfl, Pool.follows_start hps, hkey, ?_, ?_⟩
  · rw [Gate.total_start _ Gate.Phase.noConfusion]
    exact le_max_of_le_right (Int.add_zero _).le
  · rw [Gate.total_start _ Gate.Phase.noConfusion]
    exact (sub_self (rawCount key w)).ge

theorem bytesInv_start (hkey : BytesKey key w)
    (hps : ∀ i q, ps[i]? = some q → wp (((bytesGate minuteBucket key limit sizes).protocol
      (bytesOnly minuteBucket key sizes) i).machine (Answered w.config minuteBucket)) CountedAtReturn q .outside) :
    BytesInv w.config minuteBucket key limit (byteLevel minuteBucket key w) sizes (Pool.start w ps) := by
  refine ⟨rfl, Pool.follows_start hps, hkey, ?_⟩
  rw [Gate.total_start _ Gate.Phase.noConfusion]
  exact le_max_of_le_right (Int.add_zero _).le

end

/-- Requests of one actor, with their sizes. -/
def uploads (actorKey : String) (user : Option User) (sizes : List Nat) : List LimitOp :=
  sizes.map fun byteCount => .enforceUploadLimits ⟨actorKey, byteCount, user⟩

theorem uploads_program {actorKey : String} {user : Option User} {sizes : List Nat} {i : Nat} {q : LimitProg Unit}
    (h : ((uploads actorKey user sizes).map (LimitOp.program redis))[i]? = some q) :
    q = RedisRateLimiter.enforceUploadLimits redis ⟨actorKey, sizes[i]?.getD 0, user⟩ := by
  simp only [uploads, List.map_map, List.getElem?_map, Option.map_eq_some_iff] at h
  obtain ⟨byteCount, hsize, rfl⟩ := h
  rw [hsize]
  rfl

/-- A call of an upload request that Redis answers, and that is let through only beside
    those who are not counted yet. -/
def UploadInTurn (redis : RedisHandle) (minuteBucket : Int) (actorKey : String) (user : Option User)
    (limits : UploadLimits) (sizes : List Nat) (p : LimiterSite) (i : Nat) (r : LimitReq)
    (fault : Option LimiterExc) : Prop :=
  Served minuteBucket p r fault ∧
    RequestsInTurn (requestsKey redis (scopeOf user actorKey) minuteBucket) limits.rpm p i r ∧
    BytesInTurn minuteBucket (bytesKey redis (scopeOf user actorKey)) limits.bph sizes p i r

/-- The same for an attempt counted by `_enforce_rpm_counter`. -/
def AttemptInTurn (redis : RedisHandle) (minuteBucket : Int) (keyStart : String) (limit : Int) (p : LimiterSite) (i : Nat)
    (r : LimitReq) (fault : Option LimiterExc) : Prop :=
  Served minuteBucket p r fault ∧
    RequestsInTurn (redis.prefixed (keyStart ++ ":" ++ toString minuteBucket)) limit p i r

instance (redis : RedisHandle) (minuteBucket : Int) (actorKey : String) (user : Option User) (limits : UploadLimits)
    (sizes : List Nat) (p : LimiterSite) (i : Nat) (r : LimitReq) (fault : Option LimiterExc) :
    Decidable (UploadInTurn redis minuteBucket actorKey user limits sizes p i r fault) := by
  unfold UploadInTurn Served RequestsInTurn BytesInTurn Gate.RoomBeside
  infer_instance

instance (redis : RedisHandle) (minuteBucket : Int) (keyStart : String) (limit : Int) (p : LimiterSite) (i : Nat)
    (r : LimitReq) (fault : Option LimiterExc) :
    Decidable (AttemptInTurn redis minuteBucket keyStart limit p i r fault) := by
  unfold AttemptInTurn Served RequestsInTurn Gate.RoomBeside
  infer_instance

/-- An attempt is let through by the counter of its minute, and counted. -/
theorem enforceRpmCounter_requests {keyStart : String} {limit : Int} {i : Nat} (hlimit : 0 < limit) :
    wp (((requestGate (redis.prefixed (keyStart ++ ":" ++ toString minuteBucket)) limit).protocol
        (countsOnly (redis.prefixed (keyStart ++ ":" ++ toString minuteBucket))) i).machine (Answered config minuteBucket))
      CountedAtReturn (RedisAuthRateLimiter.enforceRpmCounter redis keyStart limit) .outside := by
  unfold RedisAuthRateLimiter.enforceRpmCounter
  rw [if_neg (not_le.mpr hlimit)]
  refine wp_request_quiet (requestGate_quiet nofun) fun now b h => ?_
  obtain rfl : bucketOf now = minuteBucket := h.2
  generalize redis.prefixed (keyStart ++ ":" ++ toString (bucketOf now)) = key
  refine wp_request ⟨(fun hw => by cases hw), (fun hc => by cases hc)⟩ fun current b _ => ?_
  refine wp_check (fun _ => countedAtReturn_error _ _) fun hroom => ?_
  have hpasses : (requestGate key limit).next i .outside ⟨.get key, .ok current, b⟩ = .waiting := by
    have hlt : current.getD 0 < limit := by simpa using hroom
    simp only [Gate.next, requestGate, true_and, decide_eq_true hlt, if_true]
  rw [hpasses]
  refine wp_request ⟨fun _ => .inl rfl, fun _ => rfl⟩ fun updated b _ => ?_
  have hcounted : (requestGate key limit).next i .waiting ⟨.incr key, .ok updated, b⟩ = .counted := by
    simp only [Gate.next, requestGate, decide_true, if_true]
  rw [hcounted]
  split
  · exact wp_request_last ⟨fun _ => .inr rfl, rfl, fun _ _ => rfl⟩ fun _ _ _ => rfl
  · exact fun _ _ => rfl

/-- However the calls of one minute interleave, if whoever is let through finds room beside
    those who are not counted yet, then no more than the limit return, and the bytes they
    add stay within theirs. -/
theorem admits_within_the_limits (redis : RedisHandle) (minuteBucket : Int) (w : LimiterWorld)
    (cs : List (Choice LimiterExc)) :
    (∀ (actorKey : String) (user : Option User) (sizes : List Nat),
      0 < (limitsOf w.config user).rpm → 0 < (limitsOf w.config user).bph → (user = none → actorKey ≠ "global") →
      CountKey minuteBucket (requestsKey redis (scopeOf user actorKey) minuteBucket) w →
      0 ≤ rawCount (requestsKey redis (scopeOf user actorKey) minuteBucket) w →
      BytesKey (bytesKey redis (scopeOf user actorKey)) w →
      (LimiterSite.start redis w (uploads actorKey user sizes)).Meets limitBackend
        (UploadInTurn redis minuteBucket actorKey user (limitsOf w.config user) sizes) cs →
      ((Gate.returned ((LimiterSite.start redis w (uploads actorKey user sizes)).run limitBackend cs)).card : Int) ≤
          (limitsOf w.config user).rpm ∧
        byteLevel minuteBucket (bytesKey redis (scopeOf user actorKey))
            ((LimiterSite.start redis w (uploads actorKey user sizes)).run limitBackend cs).world ≤
          max (limitsOf w.config user).bph (byteLevel minuteBucket (bytesKey redis (scopeOf user actorKey)) w)) ∧
    ∀ (keyStart : String) (limit : Int) (n : Nat), 0 < limit →
      CountKey minuteBucket (redis.prefixed (keyStart ++ ":" ++ toString minuteBucket)) w →
      0 ≤ rawCount (redis.prefixed (keyStart ++ ":" ++ toString minuteBucket)) w →
      Pool.Meets limitBackend (AttemptInTurn redis minuteBucket keyStart limit)
        (Pool.start w (List.replicate n (RedisAuthRateLimiter.enforceRpmCounter redis keyStart limit))) cs →
      ((Gate.returned ((Pool.start w
        (List.replicate n (RedisAuthRateLimiter.enforceRpmCounter redis keyStart limit))).run limitBackend cs)).card :
          Int) ≤ limit := by
  constructor
  · intro actorKey user sizes hrpm hbph hactor hcountKey hcount hbytesKey hC
    have hrequests := Pool.run_invariant (B := limitBackend) (fun p d h => requestInv_elapse d h)
      (fun p i t r k fault h ht hr hC => requestInv_call h ht hr hC.1 hC.2.1)
      (requestInv_start hcountKey fun i q hq => by
        rw [uploads_program hq]
        exact upload_requests _ hrpm hactor) hC
    have hbytes := Pool.run_invariant (B := limitBackend) (fun p d h => bytesInv_elapse d h)
      (fun p i t r k fault h ht hr hC => bytesInv_call h ht hr hC.1 hC.2.2)
      (bytesInv_start hbytesKey fun i q hq => by
        rw [uploads_program hq]
        exact upload_bytes hbph hactor) hC
    exact ⟨card_returned_le_limit hrequests hrpm.le hcount, bytes_le hbytes⟩
  · intro keyStart limit n hlimit hcountKey hcount hC
    have hrequests := Pool.run_invariant (B := limitBackend) (fun p d h => requestInv_elapse d h)
      (fun p i t r k fault h ht hr hC => requestInv_call h ht hr hC.1 hC.2)
      (requestInv_start hcountKey fun i q hq => by
        rw [List.eq_of_mem_replicate (List.mem_of_getElem? hq)]
        exact enforceRpmCounter_requests hlimit) hC
    exact card_returned_le_limit hrequests hlimit.le hcount

/-- Two uploads that overlap, and two attempts one after the other. -/
theorem two_uploads_within_two :
    ((Gate.returned ((LimiterSite.start ⟨""⟩ (.fresh fun _ => 2) (uploads "ip" none [1, 1])).run limitBackend
        (List.replicate 7 (.call 0 none) ++ List.replicate 8 (.call 1 none) ++ List.replicate 12 (.call 0 none) ++
          List.replicate 11 (.call 1 none)))).card : Int) ≤ 2 ∧
      ((Gate.returned ((Pool.start (.fresh fun _ => 2)
        (List.replicate 2 (RedisAuthRateLimiter.enforceRpmCounter ⟨""⟩ "arl:req:login:ip:ip" 2))).run limitBackend
        (List.replicate 4 (.call 0 none) ++ List.replicate 3 (.call 1 none)))).card : Int) ≤ 2 :=
  ⟨((admits_within_the_limits ⟨""⟩ 0 (.fresh fun _ => 2) _).1 "ip" none [1, 1] (by decide) (by decide) (by decide)
      (fun _ h => by cases h) (by decide) (fun _ h => by cases h) (by decide +kernel)).1,
    (admits_within_the_limits ⟨""⟩ 0 (.fresh fun _ => 2) _).2 "arl:req:login:ip:ip" 2 2 (by decide)
      (fun _ h => by cases h) (by decide) (by decide +kernel)⟩

/-- Two uploads at once, and two attempts at once, all read a counter of 0. -/
theorem two_at_once_pass_a_limit_of_one :
    let uploaded := (LimiterSite.start ⟨""⟩ (.fresh fun _ => 1) (uploads "ip" none [1, 1])).run limitBackend
      (List.replicate 19 [.call 0 none, .call 1 none]).flatten
    let attempted := (Pool.start (.fresh fun _ => 1)
      (List.replicate 2 (RedisAuthRateLimiter.enforceRpmCounter ⟨""⟩ "arl:req:login:ip:ip" 1))).run limitBackend
      (List.replicate 4 [.call 0 none, .call 1 none]).flatten
    (Gate.returned uploaded).card = 2 ∧ byteLevel 0 "rl:bytes:anon:ip" uploaded.world = 2 ∧
      (Gate.returned attempted).card = 2 := by
  decide +kernel

end Imghost.Limits.Admission
