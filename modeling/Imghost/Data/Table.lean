/-
  Imghost.Data.Table — relational tables with a primary key.

  A table is a list of rows with pairwise different keys; the list order is the order
  in which a scan meets the rows. `insert` is refused when the key is taken, `modify`
  is an `UPDATE` that leaves keys alone, `deleteWhere` a `DELETE`. What each does to
  membership and to `find?` is all a client needs; the uniqueness of keys is carried
  by the table itself.
-/

import Mathlib.Data.List.Nodup

namespace Imghost.Data

structure Table {κ α : Type} (key : α → κ) where
  rows : List α
  unique : (rows.map key).Nodup

namespace Table

variable {κ α : Type} {key : α → κ}

instance : Membership α (Table key) := ⟨fun t a => a ∈ t.rows⟩

theorem mem_def {t : Table key} {a : α} : a ∈ t ↔ a ∈ t.rows := Iff.rfl

@[ext] theorem ext {t t' : Table key} (h : t.rows = t'.rows) : t = t' := by
  cases t
  cases t'
  obtain rfl := h
  rfl

def empty : Table key := ⟨[], List.nodup_nil⟩

/-- The table of one row. -/
def single (a : α) : Table key := ⟨[a], List.nodup_singleton (key a)⟩

@[simp] theorem not_mem_empty (a : α) : a ∉ (empty : Table key) := List.not_mem_nil

theorem eq_of_key {t : Table key} {a b : α} (ha : a ∈ t) (hb : b ∈ t) (h : key a = key b) : a = b :=
  List.inj_on_of_nodup_map t.unique ha hb h

/-! ## UPDATE and DELETE -/

def modify (t : Table key) (f : α → α) (hf : ∀ a, key (f a) = key a) : Table key where
  rows := t.rows.map f
  unique := by
    rw [List.map_map, show key ∘ f = key from funext hf]
    exact t.unique

@[simp] theorem mem_modify {t : Table key} {f : α → α} {hf : ∀ a, key (f a) = key a} {b : α} :
    b ∈ t.modify f hf ↔ ∃ a ∈ t, f a = b := List.mem_map

theorem modify_mem {t : Table key} {f : α → α} (hf : ∀ a, key (f a) = key a) {a : α} (h : a ∈ t) :
    f a ∈ t.modify f hf := mem_modify.mpr ⟨a, h, rfl⟩

def deleteWhere (t : Table key) (p : α → Bool) : Table key where
  rows := t.rows.filter (!p ·)
  unique := t.unique.sublist (List.filter_sublist.map key)

theorem deleteWhere_rows (t : Table key) (p : α → Bool) : (t.deleteWhere p).rows = t.rows.filter (!p ·) := rfl

@[simp] theorem mem_deleteWhere {t : Table key} {p : α → Bool} {a : α} :
    a ∈ t.deleteWhere p ↔ a ∈ t ∧ p a = false := by
  simp only [mem_def, deleteWhere, List.mem_filter, Bool.not_eq_true']

theorem deleteWhere_none {t : Table key} {p : α → Bool} (h : ∀ a ∈ t, p a = false) : t.deleteWhere p = t := by
  apply Table.ext
  apply List.filter_eq_self.mpr
  intro a ha
  rw [h a ha]
  rfl

/-! ## A table computed row by row -/

section

variable {β ε : Type} {key' : β → κ} {f : α → Except ε β}

theorem mapM_keys (hf : ∀ a b, f a = .ok b → key' b = key a) {l : List α} {l' : List β} (h : l.mapM f = .ok l') :
    l'.map key' = l.map key := by
  induction l generalizing l' with
  | nil =>
    obtain rfl := Except.ok.inj h
    rfl
  | cons a l ih =>
    rw [List.mapM_cons] at h
    cases ha : f a with
    | error e =>
      rw [ha] at h
      cases h
    | ok b =>
      rw [ha] at h
      cases hl : l.mapM f with
      | error e =>
        rw [hl] at h
        cases h
      | ok bs =>
        rw [hl] at h
        obtain rfl := Except.ok.inj h
        rw [List.map_cons, List.map_cons, ih hl, hf a b ha]

theorem mapM_mem {l : List α} {l' : List β} (h : l.mapM f = .ok l') :
    (∀ b, b ∈ l' ↔ ∃ a ∈ l, f a = .ok b) ∧ ∀ a ∈ l, ∃ b, f a = .ok b := by
  induction l generalizing l' with
  | nil =>
    obtain rfl := Except.ok.inj h
    simp
  | cons a l ih =>
    rw [List.mapM_cons] at h
    cases ha : f a with
    | error e =>
      rw [ha] at h
      cases h
    | ok b =>
      rw [ha] at h
      cases hl : l.mapM f with
      | error e =>
        rw [hl] at h
        cases h
      | ok bs =>
        rw [hl] at h
        obtain rfl := Except.ok.inj h
        obtain ⟨hmem, hall⟩ := ih hl
        constructor
        · intro c
          simp [hmem, ha, eq_comm]
        · intro c hc
          rcases List.mem_cons.mp hc with rfl | hc
          · exact ⟨b, ha⟩
          · exact hall c hc

/-- The table of the values of `f`, where it raises on no row. -/
def mapM (t : Table key) (f : α → Except ε β) (hf : ∀ a b, f a = .ok b → key' b = key a) : Except ε (Table key') :=
  match h : t.rows.mapM f with
  | .error e => .error e
  | .ok rows => .ok ⟨rows, by rw [mapM_keys hf h]; exact t.unique⟩

theorem mapM_rows {t : Table key} {hf : ∀ a b, f a = .ok b → key' b = key a} {t' : Table key'}
    (h : t.mapM f hf = .ok t') : t.rows.mapM f = .ok t'.rows := by
  unfold mapM at h
  split at h
  · cases h
  · rename_i rows hrows
    obtain rfl := Except.ok.inj h
    exact hrows

theorem mem_mapM {t : Table key} {hf : ∀ a b, f a = .ok b → key' b = key a} {t' : Table key'}
    (h : t.mapM f hf = .ok t') {b : β} : b ∈ t' ↔ ∃ a ∈ t, f a = .ok b :=
  (mapM_mem (mapM_rows h)).1 b

theorem mapM_ok {t : Table key} {hf : ∀ a b, f a = .ok b → key' b = key a} (h : ∀ a ∈ t, ∃ b, f a = .ok b) :
    ∃ t', t.mapM f hf = .ok t' := by
  have hrows : ∀ l : List α, (∀ a ∈ l, ∃ b, f a = .ok b) → ∃ l', l.mapM f = .ok l' := by
    intro l
    induction l with
    | nil => exact fun _ => ⟨[], rfl⟩
    | cons a l ih =>
      intro hall
      obtain ⟨b, hb⟩ := hall a List.mem_cons_self
      obtain ⟨bs, hbs⟩ := ih fun c hc => hall c (List.mem_cons_of_mem a hc)
      refine ⟨b :: bs, ?_⟩
      rw [List.mapM_cons, hb, hbs]
      rfl
  obtain ⟨rows, hall⟩ := hrows t.rows h
  unfold mapM
  split
  · rename_i e he
    rw [hall] at he
    cases he
  · exact ⟨_, rfl⟩

end

/-! ## Lookup and INSERT -/

variable [DecidableEq κ]

def find? (t : Table key) (k : κ) : Option α := t.rows.find? (key · == k)

theorem find?_eq_some {t : Table key} {k : κ} {a : α} : t.find? k = some a ↔ a ∈ t ∧ key a = k := by
  constructor
  · intro h
    exact ⟨List.mem_of_find?_eq_some h, by simpa using List.find?_some h⟩
  · rintro ⟨ha, rfl⟩
    rcases h : t.find? (key a) with _ | b
    · have := List.find?_eq_none.mp h a ha
      simp at this
    · have hb : b ∈ t := List.mem_of_find?_eq_some h
      have hk : key b = key a := by simpa using List.find?_some h
      rw [eq_of_key hb ha hk]

theorem find?_eq_none {t : Table key} {k : κ} : t.find? k = none ↔ ∀ a ∈ t, key a ≠ k := by
  simp only [find?, List.find?_eq_none, beq_iff_eq]
  exact Iff.rfl

theorem find?_key {t : Table key} {k : κ} {a : α} (h : t.find? k = some a) : key a = k := (find?_eq_some.mp h).2
theorem find?_mem {t : Table key} {k : κ} {a : α} (h : t.find? k = some a) : a ∈ t := (find?_eq_some.mp h).1

theorem find?_self {t : Table key} {a : α} (h : a ∈ t) : t.find? (key a) = some a := find?_eq_some.mpr ⟨h, rfl⟩

/-- A key picks one row. -/
theorem filter_key {t : Table key} {k : κ} {a : α} (h : t.find? k = some a) : t.rows.filter (key · == k) = [a] := by
  obtain ⟨ha, rfl⟩ := find?_eq_some.mp h
  have hnodup : (t.rows.filter (key · == key a)).Nodup := t.unique.of_map.filter _
  have hall : ∀ b ∈ t.rows.filter (key · == key a), b = a := by
    intro b hb
    obtain ⟨hb, hkey⟩ := List.mem_filter.mp hb
    exact eq_of_key hb ha (by simpa using hkey)
  have hmem : a ∈ t.rows.filter (key · == key a) := List.mem_filter.mpr ⟨ha, by simp⟩
  revert hnodup hall hmem
  cases t.rows.filter (key · == key a) with
  | nil => intro _ _ hmem; cases hmem
  | cons b l =>
    intro hnodup hall _
    obtain rfl := hall b List.mem_cons_self
    cases l with
    | nil => rfl
    | cons c l =>
      obtain rfl := hall c (List.mem_cons_of_mem b List.mem_cons_self)
      exact absurd List.mem_cons_self (List.nodup_cons.mp hnodup).1

def insert (t : Table key) (a : α) : Option (Table key) :=
  if h : key a ∈ t.rows.map key then none
  else some ⟨t.rows ++ [a], by
    rw [List.map_append, List.nodup_append]
    exact ⟨t.unique, by simp, fun x hx y hy e => h (by
      simp only [List.map_cons, List.map_nil, List.mem_singleton] at hy
      rw [← hy, ← e]; exact hx)⟩⟩

theorem insert_rows {t t' : Table key} {a : α} (h : t.insert a = some t') : t'.rows = t.rows ++ [a] := by
  unfold insert at h
  split at h
  · cases h
  · rw [← Option.some.inj h]

theorem mem_insert {t t' : Table key} {a b : α} (h : t.insert a = some t') : b ∈ t' ↔ b ∈ t ∨ b = a := by
  rw [mem_def, mem_def, insert_rows h, List.mem_append, List.mem_singleton]

/-- A row is refused exactly when its key is taken. -/
theorem insert_eq_none {t : Table key} {a : α} : t.insert a = none ↔ ∃ b ∈ t, key b = key a := by
  unfold insert
  split
  · rename_i h
    exact iff_of_true rfl (List.mem_map.mp h)
  · rename_i h
    exact iff_of_false (by simp) (fun h' => h (List.mem_map.mpr h'))

theorem find?_insert {t t' : Table key} {a : α} (h : t.insert a = some t') (k : κ) :
    t'.find? k = if key a = k then some a else t.find? k := by
  have ha : a ∈ t' := (mem_insert h).mpr (.inr rfl)
  split
  · rename_i e; subst e; exact find?_self ha
  · rename_i hne
    rcases ht : t.find? k with _ | b
    · refine find?_eq_none.mpr fun c hc => ?_
      rcases (mem_insert h).mp hc with hc | rfl
      · exact find?_eq_none.mp ht c hc
      · exact hne
    · exact find?_eq_some.mpr ⟨(mem_insert h).mpr (.inl (find?_mem ht)), find?_key ht⟩

theorem find?_modify {t : Table key} {f : α → α} {hf : ∀ a, key (f a) = key a} (k : κ) :
    (t.modify f hf).find? k = (t.find? k).map f := by
  rcases h : t.find? k with _ | a
  · refine find?_eq_none.mpr fun b hb => ?_
    obtain ⟨a, ha, rfl⟩ := mem_modify.mp hb
    rw [hf]; exact find?_eq_none.mp h a ha
  · exact find?_eq_some.mpr ⟨mem_modify.mpr ⟨a, find?_mem h, rfl⟩, (hf a).trans (find?_key h)⟩

theorem find?_deleteWhere {t : Table key} {p : α → Bool} (k : κ) :
    (t.deleteWhere p).find? k = (t.find? k).filter (!p ·) := by
  rcases h : t.find? k with _ | a
  · exact find?_eq_none.mpr fun b hb => find?_eq_none.mp h b (mem_deleteWhere.mp hb).1
  · rcases hp : p a with _ | _
    · simp only [Option.filter_some, hp, Bool.not_false, if_true]
      exact find?_eq_some.mpr ⟨mem_deleteWhere.mpr ⟨find?_mem h, hp⟩, find?_key h⟩
    · simp only [Option.filter_some, hp, Bool.not_true, Bool.false_eq_true, if_false]
      refine find?_eq_none.mpr fun b hb hk => ?_
      obtain ⟨hb, hpb⟩ := mem_deleteWhere.mp hb
      rw [eq_of_key hb (find?_mem h) (hk.trans (find?_key h).symm), hp] at hpb
      cases hpb

/-- `UPDATE … WHERE key = k`. -/
def update (t : Table key) (k : κ) (f : α → α) (hf : ∀ a, key (f a) = key a) : Table key :=
  t.modify (fun a => if key a = k then f a else a) fun a => by split; exact hf a; rfl

theorem mem_update {t : Table key} {k : κ} {f : α → α} {hf : ∀ a, key (f a) = key a} {b : α} :
    b ∈ t.update k f hf ↔ ∃ a ∈ t, (if key a = k then f a else a) = b := mem_modify

theorem update_mem {t : Table key} {k : κ} {f : α → α} (hf : ∀ a, key (f a) = key a) {a : α} (h : a ∈ t) :
    (if key a = k then f a else a) ∈ t.update k f hf := mem_update.mpr ⟨a, h, rfl⟩

theorem find?_update {t : Table key} {k : κ} {f : α → α} {hf : ∀ a, key (f a) = key a} (k' : κ) :
    (t.update k f hf).find? k' = if k' = k then (t.find? k').map f else t.find? k' := by
  rw [update, find?_modify]
  rcases h : t.find? k' with _ | a
  · simp
  · simp only [Option.map_some, find?_key h]
    split <;> rfl

/-- `DELETE … WHERE key = k`. -/
def delete (t : Table key) (k : κ) : Table key := t.deleteWhere (key · == k)

@[simp] theorem mem_delete {t : Table key} {k : κ} {a : α} : a ∈ t.delete k ↔ a ∈ t ∧ key a ≠ k := by
  simp [delete]

theorem find?_delete {t : Table key} {k : κ} (k' : κ) :
    (t.delete k).find? k' = if k' = k then none else t.find? k' := by
  rw [delete, find?_deleteWhere]
  rcases h : t.find? k' with _ | a
  · simp
  · simp only [Option.filter_some, find?_key h]
    by_cases e : k' = k <;> simp [e]

/-- `INSERT … ON CONFLICT (key) DO UPDATE`. -/
def upsert (t : Table key) (a : α) : Table key :=
  match t.insert a with
  | some t' => t'
  | none => t.modify (fun b => if key b = key a then a else b) fun b => by split <;> simp_all

theorem find?_upsert {t : Table key} {a : α} (k : κ) :
    (t.upsert a).find? k = if k = key a then some a else t.find? k := by
  unfold upsert
  cases h : t.insert a with
  | some t' =>
    dsimp only
    rw [find?_insert h]
    simp only [eq_comm]
  | none =>
    obtain ⟨b, hb, hkey⟩ := insert_eq_none.mp h
    dsimp only
    rw [find?_modify]
    by_cases e : k = key a
    · have hfind : t.find? k = some b := find?_eq_some.mpr ⟨hb, hkey.trans e.symm⟩
      rw [hfind, Option.map_some, if_pos hkey, if_pos e]
    · rcases hfind : t.find? k with _ | c
      · simp [e]
      · have hne : key c ≠ key a := fun hc => e ((find?_key hfind).symm.trans hc)
        simp [hne, e]

end Table

end Imghost.Data
