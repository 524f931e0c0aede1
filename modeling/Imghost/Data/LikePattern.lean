/-
  Imghost.Data.LikePattern — the patterns of SQL's LIKE.

  A pattern is read into pieces: `%` stands for any text, `_` for any one character, and a
  backslash takes the meaning from the character after it. Text put between two `%` is
  meant to find the texts that contain it.

  - `like_around_of_plain`: it does where the text has no `%`, no `_` and no backslash.
  - `shortest_fits`, `not_infix_shortest`: where it has one of them, some text fits the pattern and
    does not contain it.
-/

import Mathlib.Data.List.Infix

namespace Imghost.Data

inductive Piece where
  | char (c : Char)
  | one
  | many
  deriving DecidableEq, Repr

/-- The pieces of a pattern. `none` is the error of a pattern that ends with its escape character. -/
def pieces : List Char → Option (List Piece)
  | [] => some []
  | '%' :: rest => (pieces rest).map (.many :: ·)
  | '_' :: rest => (pieces rest).map (.one :: ·)
  | ['\\'] => none
  | '\\' :: c :: rest => (pieces rest).map (.char c :: ·)
  | c :: rest => (pieces rest).map (.char c :: ·)

def fits : List Piece → List Char → Bool
  | [], text => text.isEmpty
  | .char _ :: _, [] => false
  | .char c :: ps, x :: text => c == x && fits ps text
  | .one :: _, [] => false
  | .one :: ps, _ :: text => fits ps text
  | .many :: ps, text => text.tails.any (fits ps)

/-- `text LIKE pattern`. -/
def like (text pattern : List Char) : Option Bool := (pieces pattern).map (fits · text)

/-- The pattern `%text%`. -/
def around (text : List Char) : List Char := '%' :: (text ++ ['%'])

def isMeta (c : Char) : Bool := c == '%' || c == '_' || c == '\\'

/-- No character of the text has a meaning in a pattern. -/
def Plain (text : List Char) : Prop := ∀ c ∈ text, isMeta c = false

instance (text : List Char) : Decidable (Plain text) := decidable_of_iff (text.all (!isMeta ·) = true) (by simp [Plain])

/-! ## Pieces -/

theorem pieces_char {c : Char} (hc : isMeta c = false) (rest : List Char) :
    pieces (c :: rest) = (pieces rest).map (.char c :: ·) := by
  rw [pieces.eq_def]
  split <;> simp_all [isMeta]

theorem pieces_plain {text : List Char} (hplain : Plain text) :
    pieces (text ++ ['%']) = some (text.map .char ++ [.many]) := by
  induction text with
  | nil => rfl
  | cons c text ih =>
    rw [List.cons_append, pieces_char (hplain c List.mem_cons_self), ih fun d hd => hplain d (List.mem_cons_of_mem c hd)]
    rfl

/-! ## What fits -/

variable {ps : List Piece} {text : List Char}

theorem fits_many : fits (.many :: ps) text = true ↔ ∃ rest, rest <:+ text ∧ fits ps rest = true := by
  simp [fits, List.mem_tails]

theorem fits_last_many : fits [.many] text = true := fits_many.mpr ⟨[], List.nil_suffix, rfl⟩

theorem fits_chars (l : List Char) :
    fits (l.map .char ++ ps) text = true ↔ ∃ rest, text = l ++ rest ∧ fits ps rest = true := by
  induction l generalizing text with
  | nil => simp
  | cons c l ih =>
    cases text with
    | nil => simp [fits]
    | cons x text =>
      rw [List.map_cons, List.cons_append, fits, Bool.and_eq_true, ih, beq_iff_eq]
      constructor
      · intro h
        obtain ⟨rfl, rest, rfl, hrest⟩ := h
        exact ⟨rest, rfl, hrest⟩
      · intro h
        obtain ⟨rest, htext, hrest⟩ := h
        obtain ⟨rfl, rfl⟩ := List.cons_eq_cons.mp htext
        exact ⟨rfl, rest, rfl, hrest⟩

/-- Characters between two `%` fit the texts they are in. -/
theorem fits_around (l : List Char) : fits (.many :: (l.map .char ++ [.many])) text = true ↔ l <:+: text := by
  rw [fits_many]
  constructor
  · intro h
    obtain ⟨rest, ⟨before, rfl⟩, hrest⟩ := h
    obtain ⟨after, rfl, -⟩ := (fits_chars l).mp hrest
    exact ⟨before, after, List.append_assoc _ _ _⟩
  · intro h
    obtain ⟨before, after, rfl⟩ := h
    refine ⟨l ++ after, ⟨before, (List.append_assoc _ _ _).symm⟩, ?_⟩
    exact (fits_chars l).mpr ⟨after, rfl, fits_last_many⟩

theorem like_around_of_plain {l : List Char} (hplain : Plain l) (text : List Char) :
    like text (around l) = some (decide (l <:+: text)) := by
  have hpieces : pieces (around l) = some (.many :: (l.map .char ++ [.many])) := by
    rw [around, pieces, pieces_plain hplain]
    rfl
  rw [like, hpieces, Option.map_some, Option.some.injEq, Bool.eq_iff_iff, decide_eq_true_iff]
  exact fits_around l

/-! ## Where a character has a meaning -/

/-- The shortest text for a pattern that goes on with `%`: nothing for a `%`, an `x` for a `_`. -/
def shortest : List Char → List Char
  | [] => []
  | '%' :: rest => shortest rest
  | '_' :: rest => 'x' :: shortest rest
  | ['\\'] => ['%']
  | '\\' :: c :: rest => c :: shortest rest
  | c :: rest => c :: shortest rest

/-- The last case of `shortest` is a character without a meaning. -/
theorem isMeta_other {c : Char} {rest : List Char} (hpercent : c ≠ '%') (hunder : c ≠ '_')
    (hlast : c = '\\' → rest ≠ []) (hescape : ∀ d rest', c = '\\' → rest ≠ d :: rest') : isMeta c = false := by
  have hbackslash : c ≠ '\\' := by
    intro h
    cases rest with
    | nil => exact hlast h rfl
    | cons d rest => exact hescape d rest h rfl
  simp [isMeta, hpercent, hunder, hbackslash]

/-- The pattern can be read, and the shortest text fits it. -/
theorem shortest_fits (l : List Char) : ∃ ps, pieces (l ++ ['%']) = some ps ∧ fits ps (shortest l) = true := by
  fun_induction shortest l with
  | case1 => exact ⟨[.many], rfl, fits_last_many⟩
  | case2 rest ih =>
    obtain ⟨ps, hps, hfits⟩ := ih
    refine ⟨.many :: ps, ?_, fits_many.mpr ⟨_, List.suffix_rfl, hfits⟩⟩
    rw [List.cons_append, pieces, hps]
    rfl
  | case3 rest ih =>
    obtain ⟨ps, hps, hfits⟩ := ih
    refine ⟨.one :: ps, ?_, hfits⟩
    rw [List.cons_append, pieces, hps]
    rfl
  | case4 => exact ⟨[.char '%'], rfl, rfl⟩
  | case5 c rest ih =>
    obtain ⟨ps, hps, hfits⟩ := ih
    refine ⟨.char c :: ps, ?_, by simp [fits, hfits]⟩
    rw [List.cons_append, List.cons_append, pieces, hps]
    rfl
  | case6 c rest hpercent hunder hlast hescape ih =>
    obtain ⟨ps, hps, hfits⟩ := ih
    have hc := isMeta_other hpercent hunder hlast hescape
    refine ⟨.char c :: ps, ?_, by simp [fits, hfits]⟩
    rw [List.cons_append, pieces_char hc, hps]
    rfl

/-- It is no longer than the text, and of its length another one, unless the text is plain. -/
theorem shortest_shorter (l : List Char) : (shortest l).length ≤ l.length ∧ (shortest l = l → Plain l) := by
  fun_induction shortest l with
  | case1 => exact ⟨le_refl _, fun _ c hc => absurd hc List.not_mem_nil⟩
  | case2 rest ih =>
    refine ⟨by simpa using Nat.le_succ_of_le ih.1, fun h => ?_⟩
    have hlength := congrArg List.length h
    rw [List.length_cons] at hlength
    omega
  | case3 rest ih =>
    refine ⟨by simpa using ih.1, fun h => ?_⟩
    exact absurd (List.cons_eq_cons.mp h).1 (by decide)
  | case4 => exact ⟨le_refl _, fun h => absurd h (by decide)⟩
  | case5 c rest ih =>
    refine ⟨by simpa using Nat.le_succ_of_le ih.1, fun h => ?_⟩
    have hlength := congrArg List.length h
    simp only [List.length_cons] at hlength
    omega
  | case6 c rest hpercent hunder hlast hescape ih =>
    refine ⟨by simpa using ih.1, fun h => ?_⟩
    have hrest := ih.2 (List.cons_eq_cons.mp h).2
    intro d hd
    rcases List.mem_cons.mp hd with rfl | hd
    · exact isMeta_other hpercent hunder hlast hescape
    · exact hrest d hd

theorem not_infix_shortest {l : List Char} (hmeta : ¬ Plain l) : ¬ l <:+: shortest l := by
  intro h
  obtain ⟨hlength, hplain⟩ := shortest_shorter l
  exact hmeta (hplain (h.eq_of_length_le hlength).symm)

/-- The pattern around any text can be read, and what is not plain finds a text it is not in. -/
theorem like_around_shortest (l : List Char) : like (shortest l) (around l) = some true := by
  obtain ⟨ps, hps, hfits⟩ := shortest_fits l
  rw [like, around, pieces, hps]
  simp only [Option.map_some]
  rw [fits_many.mpr ⟨_, List.suffix_rfl, hfits⟩]

end Imghost.Data
