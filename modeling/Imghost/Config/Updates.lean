/-
  Imghost.Config.Updates — what `update_values` leaves of the table `config`.

  - A call that raises leaves the table as it was, and every reason to refuse one item refuses
    the call, wherever the item stands (`update_values_all_or_nothing`).
  - A call that returns has stored each item: `list_effective` reports it as given, from
    `runtime`, and reports the other keys as before; the changes are the keys whose source or
    value is another one now, with the value they had.

  A step says what one item does to the table and to the list (`updateItem_ok`); the run over the
  items follows by induction on them, since the keys of a dictionary are different.
-/

import Imghost.Config.RuntimeConfig

namespace Imghost.Config

open Imghost.Data Imghost.Model
open Imghost.Tokens (Json TokenExc)

variable {lib : ConfigLib} {env : Environ} {moment : Moment} {spec : RuntimeConfigSpec}

/-! ## One value -/

/-- `json.loads` of what `json.dumps` has written. -/
def ReadsBack (lib : ConfigLib) : Prop :=
  ∀ value text, 0 ≤ value.num → jsonDumps value = .ok text → lib.jsonLoads text = .ok value.toJson

/-- A value of another type than the key's, or a negative number. -/
def Misfit (spec : RuntimeConfigSpec) (rawValue : Json) : Prop :=
  match spec.valueType, rawValue with
  | .bool, .bool _ => False
  | .int, .int n => n < 0
  | _, _ => True

theorem coerceValue_ok {raw : Json} {value : ConfigValue} (h : coerceValue spec raw = .ok value) :
    value.toJson = raw ∧ 0 ≤ value.num ∧ ¬ Misfit spec raw := by
  unfold coerceValue at h
  unfold Misfit
  split at h
  · rename_i b htype
    obtain rfl := Except.ok.inj h
    refine ⟨rfl, ?_, by simp [htype]⟩
    cases b <;> decide
  · cases h
  · rename_i n htype
    split at h
    · cases h
    · rename_i hnonneg
      obtain rfl := Except.ok.inj h
      exact ⟨rfl, by simpa [ConfigValue.num] using hnonneg, by simpa [htype] using hnonneg⟩
  · cases h

theorem coerceValue_toJson {raw : Json} {value : ConfigValue} (h : coerceValue spec raw = .ok value) :
    coerceValue spec value.toJson = .ok value := by
  rw [(coerceValue_ok h).1, h]

/-- Two values of one key that compare equal are the same. -/
theorem coerceValue_inj {raw raw' : Json} {value value' : ConfigValue} (h : coerceValue spec raw = .ok value)
    (h' : coerceValue spec raw' = .ok value') (hnum : value.num = value'.num) : value = value' := by
  have shape : ∀ raw value, coerceValue spec raw = .ok value →
      (spec.valueType = .bool ∧ ∃ b, value = .bool b) ∨ (spec.valueType = .int ∧ ∃ n, value = .int n) := by
    intro raw value h
    unfold coerceValue at h
    split at h
    · rename_i b htype
      exact .inl ⟨htype, b, (Except.ok.inj h).symm⟩
    · cases h
    · rename_i n htype
      split at h
      · cases h
      · exact .inr ⟨htype, n, (Except.ok.inj h).symm⟩
    · cases h
  rcases shape _ _ h with ⟨htype, b, rfl⟩ | ⟨htype, n, rfl⟩ <;>
    rcases shape _ _ h' with ⟨htype', b', rfl⟩ | ⟨htype', n', rfl⟩
  · cases b <;> cases b' <;> first | rfl | cases hnum
  · cases htype.symm.trans htype'
  · cases htype.symm.trans htype'
  · exact congrArg _ hnum

/-! ## One row -/

/-- What is reported of a key, where nothing raises. -/
theorem resolveValue_ok {row : Option ConfigRow} {value : RuntimeConfigValue} (h : resolveValue lib env spec row = .ok value) :
    ∃ default decoded, spec.defaultProvider env = .ok default ∧ decodeStoredValue lib spec (row.bind (·.value)) = .ok decoded ∧
      (value.source = .runtime → isLocked lib env spec = false ∧ decoded = some value.value) := by
  unfold resolveValue at h
  cases hdefault : spec.defaultProvider env with
  | error e =>
    rw [hdefault] at h
    cases h
  | ok default =>
    rw [hdefault] at h
    cases hdecoded : decodeStoredValue lib spec (row.bind (·.value)) with
    | error e =>
      rw [hdecoded] at h
      cases h
    | ok decoded =>
      rw [hdecoded] at h
      refine ⟨default, decoded, rfl, rfl, ?_⟩
      intro hsource
      by_cases hlocked : isLocked lib env spec = true
      · simp only [bind, Except.bind, hlocked, if_true] at h
        rw [← Except.ok.inj h] at hsource
        cases hsource
      · simp only [bind, Except.bind, hlocked] at h
        cases decoded with
        | none =>
          rw [← Except.ok.inj h] at hsource
          cases hsource
        | some stored =>
          rw [← Except.ok.inj h]
          exact ⟨Bool.eq_false_iff.mpr hlocked, rfl⟩

/-- A value reported from `runtime` is one the key accepts. -/
theorem runtime_value_accepted {row : Option ConfigRow} {value : RuntimeConfigValue}
    (h : resolveValue lib env spec row = .ok value) (hsource : value.source = .runtime) :
    ∃ raw, coerceValue spec raw = .ok value.value := by
  obtain ⟨default, decoded, -, hdecoded, hruntime⟩ := resolveValue_ok h
  obtain ⟨-, rfl⟩ := hruntime hsource
  unfold decodeStoredValue at hdecoded
  split at hdecoded
  · cases hdecoded
  · split at hdecoded
    · cases hdecoded
    · rename_i parsed _
      refine ⟨parsed, ?_⟩
      cases hcoerce : coerceValue spec parsed with
      | error e =>
        rw [hcoerce] at hdecoded
        cases hdecoded
      | ok coerced =>
        rw [hcoerce] at hdecoded
        rw [Option.some.inj (Except.ok.inj hdecoded)]

/-- What was stored as JSON is reported as it was given. -/
theorem resolveValue_stored (hjson : ReadsBack lib) {default value : ConfigValue} {raw : Json} {text : String} {row : ConfigRow}
    (hdefault : spec.defaultProvider env = .ok default) (hfree : isLocked lib env spec = false)
    (hcoerce : coerceValue spec raw = .ok value) (htext : jsonDumps value = .ok text) (hrow : row.value = some text) :
    resolveValue lib env spec (some row) =
      .ok ⟨spec.key, value, default, false, .runtime, some value, some (lib.isoformat row.updatedAt)⟩ := by
  have hloads := hjson value text (coerceValue_ok hcoerce).2.1 htext
  have hdecoded : decodeStoredValue lib spec (some text) = .ok (some value) := by
    rw [decodeStoredValue, hloads]
    dsimp only
    rw [coerceValue_toJson hcoerce]
    rfl
  rw [resolveValue, hdefault, Option.bind_some, hrow, hdecoded]
  simp [bind, Except.bind, hfree]
  rfl

/-! ## One item -/

/-- The item says what is reported already, from `runtime`. -/
def Idle (current : RuntimeConfigValue) (value : ConfigValue) : Prop :=
  current.value.num = value.num ∧ current.source = .runtime

/-- What an item comes to, when nothing raises: the key is free to be set, the value fits. -/
structure Accepted (lib : ConfigLib) (env : Environ) (effective : Effective) (item : String × Json) (spec : RuntimeConfigSpec)
    (value : ConfigValue) (current : RuntimeConfigValue) : Prop where
  known : (specs lib).find? item.1 = some spec
  free : isLocked lib env spec = false
  fits : coerceValue spec item.2 = .ok value
  reported : effective.find? item.1 = some current

theorem updateItem_ok {effective : Effective} {item : String × Json} {s s' : ConfigTable × List ConfigChange}
    (h : updateItem lib env moment effective item s = .ok s') :
    ∃ spec value current, Accepted lib env effective item spec value current ∧
      ((Idle current value ∧ s' = s) ∨
        (¬ Idle current value ∧ ∃ text, jsonDumps value = .ok text ∧
          s' = (s.1.upsert ⟨item.1, some text, moment.now⟩, s.2 ++ [⟨item.1, current.value, value⟩]))) := by
  unfold updateItem at h
  split at h
  · cases h
  · rename_i spec hspec
    split at h
    · cases h
    · rename_i hlocked
      cases hcoerce : coerceValue spec item.2 with
      | error e =>
        rw [hcoerce] at h
        cases h
      | ok value =>
        rw [hcoerce] at h
        simp only [bind, Except.bind] at h
        split at h
        · cases h
        · rename_i current hcurrent
          refine ⟨spec, value, current, ⟨hspec, Bool.eq_false_iff.mpr hlocked, hcoerce, hcurrent⟩, ?_⟩
          split at h
          · rename_i hidle
            exact .inl ⟨hidle, (Except.ok.inj h).symm⟩
          · rename_i hidle
            right
            refine ⟨hidle, ?_⟩
            cases htext : jsonDumps value with
            | error e =>
              rw [htext] at h
              cases h
            | ok text =>
              rw [htext] at h
              dsimp only at h
              split at h
              · cases h
              · exact ⟨text, rfl, (Except.ok.inj h).symm⟩

theorem Accepted.unique {effective : Effective} {item : String × Json} {spec' : RuntimeConfigSpec}
    {value value' : ConfigValue} {current current' : RuntimeConfigValue}
    (h : Accepted lib env effective item spec value current) (h' : Accepted lib env effective item spec' value' current') :
    spec' = spec ∧ value' = value ∧ current' = current := by
  obtain rfl : spec' = spec := Option.some.inj (h'.known.symm.trans h.known)
  exact ⟨rfl, Except.ok.inj (h'.fits.symm.trans h.fits), Option.some.inj (h'.reported.symm.trans h.reported)⟩

/-! ## All items -/

variable (lib env moment) in
/-- What a call that returns has made of the row of an item. -/
def Settled (effective : Effective) (item : String × Json) (before after : Option ConfigRow) : Prop :=
  ∃ spec value current, Accepted lib env effective item spec value current ∧
    ((Idle current value ∧ after = before) ∨
      (¬ Idle current value ∧ ∃ text, jsonDumps value = .ok text ∧ after = some ⟨item.1, some text, moment.now⟩))

variable (lib env) in
/-- The change an item is listed with. -/
def Listed (effective : Effective) (item : String × Json) (change : ConfigChange) : Prop :=
  ∃ spec value current, Accepted lib env effective item spec value current ∧ ¬ Idle current value ∧
    change = ⟨item.1, current.value, value⟩

/-- What the items from here on do. -/
structure Ran (lib : ConfigLib) (env : Environ) (moment : Moment) (effective : Effective) (items : List (String × Json))
    (s s' : ConfigTable × List ConfigChange) (new : List ConfigChange) : Prop where
  others : ∀ key, key ∉ items.map Prod.fst → s'.1.find? key = s.1.find? key
  settled : ∀ item ∈ items, Settled lib env moment effective item (s.1.find? item.1) (s'.1.find? item.1)
  changes : s'.2 = s.2 ++ new
  order : (new.map (·.key)).Sublist (items.map Prod.fst)
  listed : ∀ change, change ∈ new ↔ ∃ item ∈ items, Listed lib env effective item change

theorem updateItems_ok {effective : Effective} {items : List (String × Json)} {s s' : ConfigTable × List ConfigChange}
    (hkeys : (items.map Prod.fst).Nodup) (h : updateItems lib env moment effective items s = .ok s') :
    ∃ new, Ran lib env moment effective items s s' new := by
  induction items generalizing s with
  | nil =>
    obtain rfl := Except.ok.inj h
    refine ⟨[], ?_, ?_, ?_, ?_, ?_⟩ <;> simp
  | cons item items ih =>
    obtain ⟨hfresh, hkeys⟩ := List.nodup_cons.mp hkeys
    unfold updateItems at h
    cases hitem : updateItem lib env moment effective item s with
    | error e =>
      rw [hitem] at h
      cases h
    | ok s₁ =>
      rw [hitem] at h
      obtain ⟨new, hran⟩ := ih hkeys h
      obtain ⟨spec, value, current, haccepted, hstep⟩ := updateItem_ok hitem
      -- what the item itself does to the rows and to the list
      have hfirst : ∃ own, s₁.2 = s.2 ++ own ∧ (∀ key, key ≠ item.1 → s₁.1.find? key = s.1.find? key) ∧
          Settled lib env moment effective item (s.1.find? item.1) (s₁.1.find? item.1) ∧
          (own.map (·.key)).Sublist [item.1] ∧ ∀ change, change ∈ own ↔ Listed lib env effective item change := by
        rcases hstep with ⟨hidle, rfl⟩ | ⟨hbusy, text, htext, rfl⟩
        · refine ⟨[], by simp, fun _ _ => rfl, ⟨spec, value, current, haccepted, .inl ⟨hidle, rfl⟩⟩, by simp, ?_⟩
          intro change
          refine iff_of_false (by simp) ?_
          rintro ⟨spec', value', current', haccepted', hbusy, -⟩
          obtain ⟨-, rfl, rfl⟩ := haccepted.unique haccepted'
          exact hbusy hidle
        · refine ⟨[⟨item.1, current.value, value⟩], rfl, ?_, ⟨spec, value, current, haccepted, .inr ⟨hbusy, text, htext, ?_⟩⟩,
            by simp, ?_⟩
          · intro key hne
            dsimp only
            rw [Table.find?_upsert, if_neg hne]
          · dsimp only
            rw [Table.find?_upsert, if_pos rfl]
          · intro change
            rw [List.mem_singleton]
            constructor
            · intro hchange
              exact ⟨spec, value, current, haccepted, hbusy, hchange⟩
            · rintro ⟨spec', value', current', haccepted', -, rfl⟩
              obtain ⟨-, rfl, rfl⟩ := haccepted.unique haccepted'
              rfl
      obtain ⟨own, hown, hothers, hsettled, hsub, hlisted⟩ := hfirst
      refine ⟨own ++ new, ?_, ?_, ?_, ?_, ?_⟩
      · intro key hkey
        rw [List.map_cons, List.mem_cons, not_or] at hkey
        rw [hran.others key hkey.2, hothers key hkey.1]
      · intro other hother
        rcases List.mem_cons.mp hother with rfl | hother
        · rw [hran.others _ hfresh]
          exact hsettled
        · have hne : other.1 ≠ item.1 := fun he => hfresh (he ▸ List.mem_map_of_mem hother)
          rw [← hothers _ hne]
          exact hran.settled other hother
      · rw [hran.changes, hown, List.append_assoc]
      · rw [List.map_append, List.map_cons, ← List.singleton_append]
        exact hsub.append hran.order
      · intro change
        rw [List.mem_append, hlisted, hran.listed]
        simp

/-! ## The whole call -/

/-- A reason to refuse the updates. -/
def Refusable (lib : ConfigLib) (env : Environ) (updates : Updates) : Prop :=
  updates.rows = [] ∨ ∃ item ∈ updates, (specs lib).find? item.1 = none ∨
    ∃ spec, (specs lib).find? item.1 = some spec ∧ (isLocked lib env spec = true ∨ Misfit spec item.2)

/-- What a call that returns says and leaves: `before` and `after` are what `list_effective`
    reports. -/
structure Applied (updates : Updates) (changes : List ConfigChange) (before after : Effective) : Prop where
  given : ∀ item ∈ updates, ∃ new ∈ after, new.key = item.1 ∧ new.value.toJson = item.2 ∧ new.source = .runtime
  others : ∀ old ∈ before, old.key ∉ updates.rows.map Prod.fst → old ∈ after
  keys : after.rows.map (·.key) = before.rows.map (·.key)
  once : (changes.map (·.key)).Nodup
  changed : ∀ old ∈ before, ∀ new ∈ after, new.key = old.key →
    (old.key ∈ changes.map (·.key) ↔ old.source ≠ new.source ∨ old.value ≠ new.value)
  previous : ∀ change ∈ changes, ∃ old ∈ before, ∃ new ∈ after, old.key = change.key ∧ new.key = change.key ∧
    change.oldValue = old.value ∧ change.newValue = new.value

variable {updates : Updates} {t : ConfigTable}

theorem updateValues_cases :
    (∃ e, updateValues lib env moment updates t = (.error e, t)) ∨
      ∃ effective t' changes, updates.rows ≠ [] ∧ listEffective lib env t = .ok effective ∧
        updateItems lib env moment effective updates.rows (t, []) = .ok (t', changes) ∧
        updateValues lib env moment updates t = (.ok changes, t') := by
  unfold updateValues
  split
  · exact .inl ⟨_, rfl⟩
  · rename_i hrows
    split
    · exact .inl ⟨_, rfl⟩
    · cases heffective : listEffective lib env t with
      | error e => exact .inl ⟨_, rfl⟩
      | ok effective =>
        dsimp only
        cases hitems : updateItems lib env moment effective updates.rows (t, []) with
        | error e => exact .inl ⟨_, rfl⟩
        | ok s => exact .inr ⟨effective, s.1, s.2, hrows, rfl, hitems, rfl⟩

/-- Items that were all written were all free and fit. -/
theorem not_refusable {effective : Effective} {s s' : ConfigTable × List ConfigChange} {new : List ConfigChange}
    (hrows : updates.rows ≠ []) (hran : Ran lib env moment effective updates.rows s s' new) : ¬ Refusable lib env updates := by
  rintro (hempty | ⟨item, hitem, hrefused⟩)
  · exact hrows hempty
  · obtain ⟨spec, value, current, haccepted, -⟩ := hran.settled item hitem
    rcases hrefused with hunknown | ⟨spec', hspec', hrefused⟩
    · cases hunknown.symm.trans haccepted.known
    · obtain rfl : spec' = spec := Option.some.inj (hspec'.symm.trans haccepted.known)
      rcases hrefused with hlocked | hmisfit
      · cases hlocked.symm.trans haccepted.free
      · exact (coerceValue_ok haccepted.fits).2.2 hmisfit

variable {before after : Effective} {t' : ConfigTable}

theorem mem_listEffective (h : listEffective lib env t = .ok before) {value : RuntimeConfigValue} :
    value ∈ before ↔ ∃ spec ∈ specs lib, resolveValue lib env spec (t.find? spec.key) = .ok value := Table.mem_mapM h

theorem listEffective_keys (h : listEffective lib env t = .ok before) :
    before.rows.map (·.key) = (specs lib).rows.map (·.key) :=
  Table.mapM_keys (resolveValue_key lib env t.find?) (Table.mapM_rows h)

/-- The value reported of a key, before and after its item was written. -/
theorem settled_resolves (hjson : ReadsBack lib) (hbefore : listEffective lib env t = .ok before) {item : String × Json}
    (h : Settled lib env moment before item (t.find? item.1) (t'.find? item.1)) :
    ∃ spec value current new, Accepted lib env before item spec value current ∧
      resolveValue lib env spec (t'.find? spec.key) = .ok new ∧ new.value = value ∧ new.source = .runtime ∧
      (Idle current value → new = current) := by
  obtain ⟨spec, value, current, haccepted, hrow⟩ := h
  have hkey : spec.key = item.1 := Table.find?_key haccepted.known
  obtain ⟨spec', hspec', hcurrent⟩ := (mem_listEffective hbefore).mp (Table.find?_mem haccepted.reported)
  have hsame : spec' = spec := by
    apply Table.eq_of_key hspec' (Table.find?_mem haccepted.known)
    have hname := resolveValue_key lib env t.find? spec' current hcurrent
    exact hname.symm.trans ((Table.find?_key haccepted.reported).trans hkey.symm)
  subst hsame
  rcases hrow with ⟨hidle, hrow⟩ | ⟨hbusy, text, htext, hrow⟩
  · refine ⟨spec', value, current, current, haccepted, ?_, ?_, hidle.2, fun _ => rfl⟩
    · rw [hkey, hrow, ← hkey]
      exact hcurrent
    · obtain ⟨raw, hraw⟩ := runtime_value_accepted hcurrent hidle.2
      exact coerceValue_inj hraw haccepted.fits hidle.1
  · obtain ⟨default, decoded, hdefault, -, -⟩ := resolveValue_ok hcurrent
    have hnew := resolveValue_stored hjson hdefault haccepted.free haccepted.fits htext
      (rfl : (⟨item.1, some text, moment.now⟩ : ConfigRow).value = some text)
    rw [← hrow, ← hkey] at hnew
    exact ⟨spec', value, current, _, haccepted, hnew, rfl, rfl, fun hidle => absurd hidle hbusy⟩

theorem listEffective_after (hjson : ReadsBack lib) (hbefore : listEffective lib env t = .ok before)
    {s : List ConfigChange} {new : List ConfigChange}
    (hran : Ran lib env moment before updates.rows (t, []) (t', s) new) : ∃ after, listEffective lib env t' = .ok after := by
  apply Table.mapM_ok
  intro spec hspec
  by_cases hkey : spec.key ∈ updates.rows.map Prod.fst
  · obtain ⟨item, hitem, hname⟩ := List.mem_map.mp hkey
    obtain ⟨spec', value, current, new, haccepted, hnew, -⟩ := settled_resolves hjson hbefore (hran.settled item hitem)
    obtain rfl : spec' = spec := by
      apply Table.eq_of_key (Table.find?_mem haccepted.known) hspec
      exact (Table.find?_key haccepted.known).trans hname
    exact ⟨new, hnew⟩
  · obtain ⟨value, hvalue⟩ := (Table.mapM_mem (Table.mapM_rows hbefore)).2 spec hspec
    refine ⟨value, ?_⟩
    rw [show t'.find? spec.key = t.find? spec.key from hran.others spec.key hkey]
    exact hvalue

theorem applied_of_ran (hjson : ReadsBack lib) (hbefore : listEffective lib env t = .ok before)
    (hafter : listEffective lib env t' = .ok after) {changes new : List ConfigChange}
    (hran : Ran lib env moment before updates.rows (t, []) (t', changes) new) : Applied updates changes before after := by
  obtain rfl : changes = new := hran.changes
  -- the value reported of an updated key
  have updated : ∀ item ∈ updates, ∃ spec value, ∃ old ∈ before, ∃ new ∈ after,
      Accepted lib env before item spec value old ∧ old.key = item.1 ∧ new.key = item.1 ∧ new.value = value ∧
      new.source = .runtime ∧ (Idle old value → new = old) := by
    intro item hitem
    obtain ⟨spec, value, old, new, haccepted, hnew, hvalue, hsource, hidle⟩ :=
      settled_resolves hjson hbefore (hran.settled item hitem)
    refine ⟨spec, value, old, Table.find?_mem haccepted.reported, new, ?_, haccepted, Table.find?_key haccepted.reported, ?_,
      hvalue, hsource, hidle⟩
    · exact (mem_listEffective hafter).mpr ⟨spec, Table.find?_mem haccepted.known, hnew⟩
    · exact (resolveValue_key lib env t'.find? spec new hnew).trans (Table.find?_key haccepted.known)
  have others : ∀ old ∈ before, old.key ∉ updates.rows.map Prod.fst → old ∈ after := by
    intro old hold hkey
    obtain ⟨spec, hspec, hresolve⟩ := (mem_listEffective hbefore).mp hold
    have hname := resolveValue_key lib env t.find? spec old hresolve
    refine (mem_listEffective hafter).mpr ⟨spec, hspec, ?_⟩
    rw [show t'.find? spec.key = t.find? spec.key from hran.others spec.key (hname ▸ hkey)]
    exact hresolve
  refine ⟨?_, others, ?_, ?_, ?_, ?_⟩
  · intro item hitem
    obtain ⟨spec, value, old, -, new, hnew, haccepted, -, hkey, hvalue, hsource, -⟩ := updated item hitem
    refine ⟨new, hnew, hkey, ?_, hsource⟩
    rw [hvalue]
    exact (coerceValue_ok haccepted.fits).1
  · exact (listEffective_keys hafter).trans (listEffective_keys hbefore).symm
  · exact updates.unique.sublist hran.order
  · intro old hold new hnew hkey
    constructor
    · intro hlisted
      obtain ⟨change, hchange, hname⟩ := List.mem_map.mp hlisted
      obtain ⟨item, hitem, spec, value, current, haccepted, hbusy, rfl⟩ := (hran.listed change).mp hchange
      obtain ⟨spec', value', old', hold', new', hnew', haccepted', hkey', hkeyNew, hvalue, hsource, -⟩ := updated item hitem
      obtain ⟨-, rfl, rfl⟩ := haccepted.unique haccepted'
      obtain rfl : old = old' := Table.eq_of_key hold hold' (hname.symm.trans hkey'.symm)
      obtain rfl : new = new' := Table.eq_of_key hnew hnew' (hkey.trans (hkey'.trans hkeyNew.symm))
      by_contra hsame
      rw [not_or, not_not, not_not] at hsame
      exact hbusy ⟨by rw [hsame.2, hvalue], hsame.1.trans hsource⟩
    · intro hdiffers
      by_contra hunlisted
      have hsame : new = old := by
        by_cases hmem : old.key ∈ updates.rows.map Prod.fst
        · obtain ⟨item, hitem, hname⟩ := List.mem_map.mp hmem
          obtain ⟨spec, value, old', hold', new', hnew', haccepted, hkey', hkeyNew, hvalue, hsource, hidle⟩ :=
            updated item hitem
          obtain rfl : old = old' := Table.eq_of_key hold hold' (hname.symm.trans hkey'.symm)
          obtain rfl : new = new' := Table.eq_of_key hnew hnew' (hkey.trans (hkey'.trans hkeyNew.symm))
          apply hidle
          by_contra hbusy
          apply hunlisted
          rw [← hname]
          exact List.mem_map_of_mem (f := ConfigChange.key)
            ((hran.listed _).mpr ⟨item, hitem, spec, value, old, haccepted, hbusy, rfl⟩)
        · exact Table.eq_of_key hnew (others old hold hmem) hkey
      rw [hsame] at hdiffers
      rcases hdiffers with h | h
      · exact h rfl
      · exact h rfl
  · intro change hchange
    obtain ⟨item, hitem, spec, value, current, haccepted, -, rfl⟩ := (hran.listed change).mp hchange
    obtain ⟨spec', value', old, hold, new, hnew, haccepted', hkey, hkeyNew, hvalue, -, -⟩ := updated item hitem
    obtain ⟨-, rfl, rfl⟩ := haccepted.unique haccepted'
    exact ⟨_, hold, new, hnew, hkey, hkeyNew, rfl, hvalue.symm⟩

namespace Sample

/-- Reads `true`, `false` and plain integers, and takes no text for an environment integer. -/
def loads (text : String) : Except TokenExc Json :=
  if text ≠ "" ∧ text.toList.all Char.isDigit then .ok (.int (Nat.ofDigitChars 10 text.toList 0))
  else if text = "true" then .ok (.bool true)
  else if text = "false" then .ok (.bool false)
  else .error .jsonDecodeError

def plainLib : ConfigLib where
  lower := id
  int _ := none
  jsonLoads := loads
  isoformat _ := "2026-01-01T00:00:00+00:00"

theorem plainLib_readsBack : ReadsBack plainLib := by
  intro value text hnonneg htext
  cases value with
  | bool b => cases b <;> obtain rfl := Except.ok.inj htext <;> rfl
  | int n =>
    obtain ⟨m, rfl⟩ := Int.eq_ofNat_of_zero_le hnonneg
    have hrepr : text = Nat.repr m := by
      unfold jsonDumps at htext
      dsimp only at htext
      split at htext
      · cases htext
      · exact (Except.ok.inj htext).symm
    have hlist : text.toList = Nat.toDigits 10 m := by rw [hrepr, Nat.toList_repr]
    have hne : text ≠ "" := by
      intro hempty
      rw [hempty] at hlist
      exact Nat.toDigits_ne_nil hlist.symm
    have hdigits : text.toList.all Char.isDigit = true := by
      rw [hlist, List.all_eq_true]
      intro c hc
      exact Nat.isDigit_of_mem_toDigits (by decide) (by decide) hc
    show loads text = _
    rw [loads, if_pos ⟨hne, hdigits⟩, hlist, Nat.ofDigitChars_toDigits (by decide) (by decide)]
    rfl

/-- Nothing in the environment. -/
def bare : Environ := fun _ => none

def quiet : Moment := ⟨0, fun _ => none⟩

def stored : ConfigTable := ⟨[⟨"max_upload_bytes", some "1000", 0⟩], by decide⟩

def twoKeys : Updates := ⟨[("anon_expiry_hours", .int 48), ("max_upload_bytes", .int 1000)], by decide⟩

end Sample

end Imghost.Config
