/-
  Imghost.Data.Trim — what is left of a list without the marks at its ends, and the list
  cut at the first separator.

  `trim p l` is the part of `l` that neither starts nor ends with a `p` and differs from
  `l` by `p`s on both sides; there is one such part (`trim_append`). `cut a l` is the list
  before the first `a`, whether there is one, and the list after it.
-/

import Mathlib.Data.List.DropRight

namespace Imghost.Data

variable {α : Type}

/-! ## Trimming -/

section
variable (p : α → Bool)

def trim (l : List α) : List α := (l.dropWhile p).rdropWhile p

def Blank (l : List α) : Prop := ∀ a ∈ l, p a = true

structure Trimmed (l : List α) : Prop where
  first : ∀ a rest, l = a :: rest → p a = false
  last : ∀ a rest, l = rest ++ [a] → p a = false

variable {p}

theorem Blank.append {u v : List α} (hu : Blank p u) (hv : Blank p v) : Blank p (u ++ v) := by
  intro a ha
  rcases List.mem_append.mp ha with h | h
  · exact hu a h
  · exact hv a h

theorem blank_nil : Blank p [] := by
  intro a ha
  simp at ha

theorem rdropWhile_blank (l : List α) : ∃ v, Blank p v ∧ l = l.rdropWhile p ++ v := by
  refine ⟨l.rtakeWhile p, ?_, List.rdropWhile_append_rtakeWhile.symm⟩
  intro a ha
  exact List.mem_rtakeWhile_imp ha

theorem trim_parts (l : List α) : ∃ u v, Blank p u ∧ Blank p v ∧ l = u ++ trim p l ++ v := by
  obtain ⟨v, hv, he⟩ := rdropWhile_blank (p := p) (l.dropWhile p)
  refine ⟨l.takeWhile p, v, ?_, hv, ?_⟩
  · intro a ha
    exact List.mem_takeWhile_imp ha
  · calc l = l.takeWhile p ++ l.dropWhile p := List.takeWhile_append_dropWhile.symm
      _ = l.takeWhile p ++ (trim p l ++ v) := congrArg _ he
      _ = l.takeWhile p ++ trim p l ++ v := (List.append_assoc ..).symm

theorem dropWhile_head {l rest : List α} {a : α} (h : l.dropWhile p = a :: rest) : p a = false := by
  have := List.head?_dropWhile_not p l
  simpa [h] using this

theorem trimmed_trim (l : List α) : Trimmed p (trim p l) := by
  constructor
  · intro a rest h
    obtain ⟨v, _, he⟩ := rdropWhile_blank (p := p) (l.dropWhile p)
    have he' : l.dropWhile p = a :: (rest ++ v) := by
      rw [he]
      change trim p l ++ v = _
      rw [h]
      rfl
    exact dropWhile_head he'
  · intro a rest h
    have hne : (l.dropWhile p).rdropWhile p ≠ [] := by
      change trim p l ≠ []
      simp [h]
    have hlast := List.rdropWhile_last_not p _ hne
    have ha : ((l.dropWhile p).rdropWhile p).getLast hne = a := by
      have : (trim p l).getLast hne = a := by simp [h]
      exact this
    rw [ha] at hlast
    simpa using hlast

theorem rdropWhile_append_blank {t v : List α} (hv : Blank p v) (ht : ∀ a rest, t = rest ++ [a] → p a = false) :
    (t ++ v).rdropWhile p = t := by
  induction v using List.reverseRecOn with
  | nil =>
    rw [List.append_nil]
    refine List.rdropWhile_eq_self_iff.mpr ?_
    intro hne
    simp [ht (t.getLast hne) t.dropLast (List.dropLast_append_getLast hne).symm]
  | append_singleton v a ih =>
    rw [← List.append_assoc, List.rdropWhile_concat_pos p _ a (hv a (by simp))]
    exact ih fun b hb => hv b (by simp [hb])

theorem trim_append {u t v : List α} (hu : Blank p u) (hv : Blank p v) (ht : Trimmed p t) : trim p (u ++ t ++ v) = t := by
  have hdrop : (u ++ t ++ v).dropWhile p = (t ++ v).dropWhile p := by
    rw [List.append_assoc, List.dropWhile_append_of_pos hu]
  unfold trim
  rw [hdrop]
  cases t with
  | nil =>
    have hnil : v.dropWhile p = [] := List.dropWhile_eq_nil_iff.mpr hv
    simp [hnil]
  | cons a rest =>
    rw [List.cons_append, List.dropWhile_cons_of_neg (by simp [ht.first a rest rfl]), ← List.cons_append]
    exact rdropWhile_append_blank hv ht.last

theorem trim_trimmed {t : List α} (ht : Trimmed p t) : trim p t = t := by
  have := trim_append blank_nil blank_nil ht
  simpa using this

theorem mem_of_mem_trim {l : List α} {a : α} (h : a ∈ trim p l) : a ∈ l := by
  obtain ⟨u, v, _, _, he⟩ := trim_parts (p := p) l
  rw [he]
  simp [h]

/-- What trimming drops is blank. -/
theorem mem_trim_of_mem {l : List α} {a : α} (ha : p a = false) (h : a ∈ l) : a ∈ trim p l := by
  obtain ⟨u, v, hu, hv, he⟩ := trim_parts (p := p) l
  rw [he] at h
  rcases List.mem_append.mp h with h | h
  · rcases List.mem_append.mp h with h | h
    · simp [hu a h] at ha
    · exact h
  · simp [hv a h] at ha

/-- A list ends as its end does. -/
theorem ends_as {l xs rest : List α} {a b : α} (hne : l ≠ []) (h : xs ++ a :: l = rest ++ [b]) : ∃ l', l = l' ++ [b] := by
  rcases List.eq_nil_or_concat l with hnil | ⟨l', c, hconcat⟩
  · exact absurd hnil hne
  · rw [List.concat_eq_append] at hconcat
    have happend : (xs ++ a :: l') ++ [c] = rest ++ [b] := by simpa [hconcat] using h
    obtain ⟨-, hlast⟩ := List.append_inj' happend rfl
    exact ⟨l', by rw [hconcat, hlast]⟩

/-- Nothing is dropped behind what stays. -/
theorem dropWhile_stop {a : α} (ha : p a = false) (xs ys : List α) :
    (xs ++ a :: ys).dropWhile p = xs.dropWhile p ++ a :: ys := by
  induction xs with
  | nil => simp [ha]
  | cons x xs ih =>
    rw [List.cons_append, List.dropWhile_cons, List.dropWhile_cons]
    split
    · exact ih
    · rfl

theorem rdropWhile_stop {a : α} (ha : p a = false) (xs ys : List α) :
    (xs ++ a :: ys).rdropWhile p = xs ++ a :: ys.rdropWhile p := by
  have hreverse : (xs ++ a :: ys).reverse = ys.reverse ++ a :: xs.reverse := by simp
  rw [List.rdropWhile, hreverse, dropWhile_stop ha]
  simp [List.rdropWhile]

end

/-! ## The first cut -/

section
variable [DecidableEq α]

def cut (a : α) (l : List α) : List α × Bool × List α :=
  (l.takeWhile (· != a), l.contains a, (l.dropWhile (· != a)).drop 1)

theorem cut_append {a : α} {xs ys : List α} (h : a ∉ xs) : cut a (xs ++ a :: ys) = (xs, true, ys) := by
  have hx : ∀ b ∈ xs, (b != a) = true := by
    intro b hb
    simp only [bne_iff_ne, ne_eq]
    intro e
    exact h (e ▸ hb)
  simp [cut, List.takeWhile_append_of_pos hx, List.dropWhile_append_of_pos hx]

theorem cut_of_not_mem {a : α} {l : List α} (h : a ∉ l) : cut a l = (l, false, []) := by
  have hl : ∀ b ∈ l, (b != a) = true := by
    intro b hb
    simp only [bne_iff_ne, ne_eq]
    intro e
    exact h (e ▸ hb)
  have htake : l.takeWhile (· != a) = l := List.takeWhile_eq_self_iff.mpr hl
  have hdrop : l.dropWhile (· != a) = [] := List.dropWhile_eq_nil_iff.mpr hl
  simp [cut, htake, hdrop, h]

/-- A list with an `a` in it is one without, the `a`, and a rest. -/
theorem cut_cases {a : α} {l : List α} (h : a ∈ l) : ∃ xs ys, a ∉ xs ∧ l = xs ++ a :: ys ∧ cut a l = (xs, true, ys) := by
  obtain ⟨xs, ys, he, hx⟩ := List.eq_append_cons_of_mem h
  exact ⟨xs, ys, hx, he, he ▸ cut_append hx⟩

/-- The parts of a list that is split have its elements, but for the separator. -/
theorem mem_splitOn {a : α} {l part : List α} (h : part ∈ l.splitOn a) : ∀ b ∈ part, b ∈ l ∧ b ≠ a := by
  by_cases ha : a ∈ l
  · obtain ⟨xs, ys, hxs, rfl, -⟩ := cut_cases ha
    rw [List.splitOn_append_cons_self_of_not_mem hxs] at h
    intro b hb
    rcases List.mem_cons.mp h with rfl | h
    · refine ⟨List.mem_append_left _ hb, ?_⟩
      intro e
      exact hxs (e ▸ hb)
    · obtain ⟨hmem, hne⟩ := mem_splitOn h b hb
      exact ⟨List.mem_append_right _ (List.mem_cons_of_mem _ hmem), hne⟩
  · rw [List.splitOn_eq_singleton ha, List.mem_singleton] at h
    subst h
    intro b hb
    refine ⟨hb, ?_⟩
    intro e
    exact ha (e ▸ hb)
termination_by l.length
decreasing_by
  subst_vars
  simp only [List.length_append, List.length_cons]
  omega

theorem mem_intercalate {a b : α} {parts : List (List α)} (h : b ∈ [a].intercalate parts) : b = a ∨ ∃ part ∈ parts, b ∈ part := by
  induction parts with
  | nil => cases h
  | cons part parts ih =>
    by_cases hparts : parts = []
    · subst hparts
      rw [List.intercalate_singleton] at h
      exact .inr ⟨part, List.mem_cons_self, h⟩
    · rw [List.intercalate_cons_of_ne_nil hparts, List.mem_append, List.mem_append] at h
      rcases h with (h | h) | h
      · exact .inr ⟨part, List.mem_cons_self, h⟩
      · exact .inl (List.mem_singleton.mp h)
      · rcases ih h with h | ⟨part', hpart, hb⟩
        · exact .inl h
        · exact .inr ⟨part', List.mem_cons_of_mem _ hpart, hb⟩

end

end Imghost.Data
