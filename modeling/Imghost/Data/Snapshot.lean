/-
  Imghost.Data.Snapshot — clients that write back a whole row from a snapshot.

  Each client reads the row once, changes some columns of its copy, and writes the
  copy back. Seen from one column (`col`), a write-back that leaves the column as it
  was read is harmless only while the row still holds that value. Under that
  condition (`Shared.Step`) the column moves only by the clients that change it: with
  none of them it keeps its value, with one it ends with that client's value.
-/

namespace Imghost.Data

/-- What a client has read and what it has written back. -/
structure Draft (ρ : Type) where
  read : Option ρ
  written : Option ρ

/-- The draft, if it is a draft of the row with the key `k`. -/
def Draft.about {ρ κ : Type} [DecidableEq κ] (key : ρ → κ) (k : κ) (d : Draft ρ) : Draft ρ :=
  if d.read.any (key · == k) then d else { read := none, written := none }

/-- A row and its clients. -/
structure Shared (ρ : Type) where
  row : Option ρ
  drafts : Nat → Draft ρ

section

variable {ρ κ : Type} [DecidableEq κ] {key : ρ → κ} {k : κ} {d : Draft ρ}

theorem Draft.about_of_read {s : ρ} (h : d.read = some s) :
    d.about key k = if key s = k then d else { read := none, written := none } := by
  simp only [about, h, Option.any_some, beq_iff_eq]

theorem Draft.about_of_unwritten (key : ρ → κ) (k : κ) (h : d.written = none) : ∃ s, d.about key k = { read := s, written := none } := by
  unfold about
  split
  · exact ⟨d.read, by rw [← h]⟩
  · exact ⟨none, rfl⟩

/-- A draft of the row is one about it. -/
theorem Draft.of_about_read {s : ρ} (h : (d.about key k).read = some s) : d.about key k = d ∧ key s = k := by
  unfold about at h ⊢
  split at h
  · rename_i hany
    rw [h] at hany
    exact ⟨if_pos (by rw [h]; exact hany), eq_of_beq hany⟩
  · cases h

end

variable {ρ β : Type} (col : ρ → β)

/-- The client has written another value into the column than it had read. -/
def Draft.Moves (d : Draft ρ) (v : β) : Prop :=
  ∃ s x, d.read = some s ∧ d.written = some x ∧ col x ≠ col s ∧ v = col x

def Shared.setDraft (r : Shared ρ) (i : Nat) (d : Draft ρ) : Nat → Draft ρ := fun j => if j = i then d else r.drafts j

theorem Shared.setDraft_self (r : Shared ρ) (i : Nat) (d : Draft ρ) : r.setDraft i d i = d := if_pos rfl

theorem Shared.setDraft_of_ne (r : Shared ρ) {i j : Nat} (d : Draft ρ) (h : j ≠ i) : r.setDraft i d j = r.drafts j :=
  if_neg h

inductive Shared.Step : Shared ρ → Shared ρ → Prop where
  /-- Nothing that concerns the row. -/
  | idle (r : Shared ρ) : Step r r
  /-- The row is deleted. -/
  | drop (r : Shared ρ) : Step r { r with row := none }
  /-- A client that has written nothing takes a snapshot. -/
  | read (r : Shared ρ) (i : Nat) (s : Option ρ) (h : (r.drafts i).written = none) :
      Step r { r with drafts := r.setDraft i { read := s, written := none } }
  /-- A client writes its copy back; where it leaves the column as it read it, the row
      still holds that value. -/
  | write (r : Shared ρ) (i : Nat) (s x now new : ρ) (hread : (r.drafts i).read = some s)
      (hwritten : (r.drafts i).written = none) (hnow : r.row = some now) (hnew : col new = col x)
      (hfresh : col x = col s → col now = col s) :
      Step r { row := some new, drafts := r.setDraft i { read := some s, written := some x } }

/-- The column holds what it held at first, or what one of the clients that move it wrote. -/
structure Shared.Settled (first : β) (r : Shared ρ) : Prop where
  unmoved : ∀ now, r.row = some now → (∀ i v, ¬ (r.drafts i).Moves col v) → col now = first
  moved : ∀ now, r.row = some now → (∃ i v, (r.drafts i).Moves col v) → ∃ i, (r.drafts i).Moves col (col now)

namespace Shared

variable {col} {first : β} {r r' : Shared ρ}

theorem not_moves_of_unwritten {d : Draft ρ} (h : d.written = none) (v : β) : ¬ d.Moves col v := by
  rintro ⟨s, x, -, hx, -⟩
  rw [h] at hx
  cases hx

theorem settled_start (h : ∀ now, r.row = some now → col now = first) (hw : ∀ i, (r.drafts i).written = none) :
    Settled col first r where
  unmoved now hnow _ := h now hnow
  moved _ _ hm := by
    obtain ⟨i, v, hm⟩ := hm
    exact absurd hm (not_moves_of_unwritten (hw i) v)

/-- Changing the draft of a client that moves nothing, neither before nor after. -/
theorem moves_setDraft {i j : Nat} {d : Draft ρ} {v : β} (hi : ∀ v, ¬ (r.drafts i).Moves col v) (hd : ∀ v, ¬ d.Moves col v) :
    (r.setDraft i d j).Moves col v ↔ (r.drafts j).Moves col v := by
  by_cases h : j = i
  · subst h
    rw [setDraft_self]
    exact iff_of_false (hd v) (hi v)
  · rw [setDraft_of_ne r d h]

theorem Settled.step (h : Settled col first r) (hs : Step col r r') : Settled col first r' := by
  cases hs with
  | idle => exact h
  | drop => exact ⟨fun _ hnow => (nomatch hnow), fun _ hnow => (nomatch hnow)⟩
  | read i s hw =>
    have heq : ∀ j v, (r.setDraft i ⟨s, none⟩ j).Moves col v ↔ (r.drafts j).Moves col v := fun j v =>
      moves_setDraft (not_moves_of_unwritten hw) (not_moves_of_unwritten rfl)
    refine ⟨fun now hnow hn => h.unmoved now hnow fun j v hm => hn j v ((heq j v).mpr hm), fun now hnow hm => ?_⟩
    obtain ⟨j, v, hm⟩ := hm
    obtain ⟨j', hj'⟩ := h.moved now hnow ⟨j, v, (heq j v).mp hm⟩
    exact ⟨j', (heq j' _).mpr hj'⟩
  | write i s x now new hread hwritten hnow hnew hfresh =>
    by_cases hx : col x = col s
    · -- the column is left alone, by a client that has not moved it before
      have hd : ∀ v, ¬ (⟨some s, some x⟩ : Draft ρ).Moves col v := by
        rintro v ⟨s', x', hs', hx', hne, -⟩
        obtain rfl := Option.some.inj hs'
        obtain rfl := Option.some.inj hx'
        exact hne hx
      have heq : ∀ j v, (r.setDraft i ⟨some s, some x⟩ j).Moves col v ↔ (r.drafts j).Moves col v := fun j v =>
        moves_setDraft (not_moves_of_unwritten hwritten) hd
      have hsame : col new = col now := by rw [hnew, hx, hfresh hx]
      refine ⟨fun n hn hno => ?_, fun n hn hm => ?_⟩
      · obtain rfl := Option.some.inj hn
        rw [hsame]
        exact h.unmoved now hnow fun j v hm => hno j v ((heq j v).mpr hm)
      · obtain rfl := Option.some.inj hn
        obtain ⟨j, v, hm⟩ := hm
        obtain ⟨j', hj'⟩ := h.moved now hnow ⟨j, v, (heq j v).mp hm⟩
        exact ⟨j', (heq j' _).mpr (hsame ▸ hj')⟩
    · -- this client moves the column, to the value the row now holds
      have hmoves : (r.setDraft i ⟨some s, some x⟩ i).Moves col (col x) := by
        rw [setDraft_self]
        exact ⟨s, x, rfl, rfl, hx, rfl⟩
      refine ⟨fun n hn hno => absurd hmoves (hno i _), fun n hn _ => ⟨i, ?_⟩⟩
      obtain rfl := Option.some.inj hn
      rw [hnew]
      exact hmoves

/-- A single client that moves the column decides its value. -/
theorem Settled.value_of_only (h : Settled col first r) {now : ρ} (hnow : r.row = some now) {i : Nat} {v : β}
    (hi : (r.drafts i).Moves col v) (honly : ∀ j v, (r.drafts j).Moves col v → j = i) : col now = v := by
  obtain ⟨j, hj⟩ := h.moved now hnow ⟨i, v, hi⟩
  obtain rfl := honly j _ hj
  obtain ⟨s, x, hs, hx, -, hv⟩ := hj
  obtain ⟨s', x', hs', hx', -, hv'⟩ := hi
  rw [hs] at hs'
  rw [hx] at hx'
  obtain rfl := Option.some.inj hx'
  rw [hv, hv']

end Shared

end Imghost.Data
