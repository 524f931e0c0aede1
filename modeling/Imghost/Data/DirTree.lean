/-
  Imghost.Data.DirTree — a tree of directories and files, and the calls on it.

  A path is walked from the root, through directories only. A tree carries that as an
  invariant, so what is found by walking is what is there (`resolve_eq_ok`). Links,
  permissions, limits on names and a full disk are left out.

  The calls are those of POSIX and of `pathlib`, with their errors. Each has a lemma that says
  every entry of the tree it makes: `makeParents_spec`, `writeFile_spec`, `unlink_spec`.
-/

import Mathlib.Data.List.Basic

namespace Imghost.Data

/-! ## Paths -/

inductive DirPath (ν : Type) where
  | root
  | child (parent : DirPath ν) (name : ν)
  deriving DecidableEq, Repr

namespace DirPath

variable {ν : Type} {p q : DirPath ν}

def parent : DirPath ν → DirPath ν
  | .root => .root
  | .child parent _ => parent

/-- The path itself and every path above it. -/
def ancestors : DirPath ν → List (DirPath ν)
  | .root => [.root]
  | .child parent name => .child parent name :: parent.ancestors

def depth : DirPath ν → Nat
  | .root => 0
  | .child parent _ => parent.depth + 1

theorem self_mem_ancestors (p : DirPath ν) : p ∈ p.ancestors := by
  cases p <;> exact List.mem_cons_self

theorem depth_le_of_mem (h : q ∈ p.ancestors) : q.depth ≤ p.depth := by
  induction p with
  | root =>
    obtain rfl := List.mem_singleton.mp h
    exact Nat.le_refl _
  | child parent name ih =>
    rcases List.mem_cons.mp h with rfl | h
    · exact Nat.le_refl _
    · exact Nat.le_succ_of_le (ih h)

/-- A path does not stand above its own directory. -/
theorem child_not_mem (p : DirPath ν) (name : ν) : DirPath.child p name ∉ p.ancestors := by
  intro h
  have hdepth : p.depth + 1 ≤ p.depth := depth_le_of_mem h
  omega

theorem child_ne (p : DirPath ν) (name : ν) : p ≠ .child p name := by
  intro h
  have hdepth : p.depth = p.depth + 1 := congrArg DirPath.depth h
  omega

end DirPath

/-! ## Trees -/

variable {ν β : Type}

inductive DirEntry (β : Type) where
  | dir
  | file (data : β)
  deriving DecidableEq, Repr

instance decidableIsDir (e : Option (DirEntry β)) : Decidable (e = some .dir) :=
  match e with
  | none => isFalse (by simp)
  | some .dir => isTrue rfl
  | some (.file _) => isFalse (by simp)

inductive OsError where
  | fileNotFound
  | notADirectory
  | isADirectory
  | fileExists
  deriving DecidableEq, Repr

/-- The directory of every entry is there. -/
structure DirTree (ν β : Type) where
  entry : DirPath ν → Option (DirEntry β)
  root : entry .root = some .dir
  closed : ∀ parent name, entry (.child parent name) ≠ none → entry parent = some .dir

namespace DirTree

variable [DecidableEq ν] {t : DirTree ν β} {p q parent : DirPath ν} {name : ν} {e : DirEntry β} {data : β}

def emptyEntry : DirPath ν → Option (DirEntry β)
  | .root => some .dir
  | .child _ _ => none

def empty : DirTree ν β where
  entry := emptyEntry
  root := rfl
  closed _ _ h := absurd rfl h

/-- One more entry in a directory. No file takes the place of a directory. -/
def insert (t : DirTree ν β) (parent : DirPath ν) (name : ν) (e : DirEntry β) (hparent : t.entry parent = some .dir)
    (hdir : t.entry (.child parent name) = some .dir → e = .dir) : DirTree ν β where
  entry q := if q = .child parent name then some e else t.entry q
  root := by
    rw [if_neg, t.root]
    intro h
    cases h
  closed q n h := by
    split at h
    · next heq =>
      obtain ⟨rfl, -⟩ := DirPath.child.inj heq
      rw [if_neg (DirPath.child_ne _ _), hparent]
    · have hq := t.closed q n h
      split
      · next heq =>
        rw [heq] at hq
        rw [hdir hq]
      · exact hq

/-- The tree without one file. -/
def remove (t : DirTree ν β) (parent : DirPath ν) (name : ν) (hfile : t.entry (.child parent name) ≠ some .dir) :
    DirTree ν β where
  entry q := if q = .child parent name then none else t.entry q
  root := by
    rw [if_neg, t.root]
    intro h
    cases h
  closed q n h := by
    split at h
    · exact absurd rfl h
    · have hq := t.closed q n h
      split
      · next heq => exact absurd (heq ▸ hq) hfile
      · exact hq

/-! ## Walking -/

/-- The entry at the end of a walk. -/
def resolve (t : DirTree ν β) : DirPath ν → Except OsError (DirEntry β)
  | .root => .ok .dir
  | .child parent name =>
    match t.resolve parent with
    | .error e => .error e
    | .ok (.file _) => .error .notADirectory
    | .ok .dir =>
      match t.entry (.child parent name) with
      | none => .error .fileNotFound
      | some e => .ok e

omit [DecidableEq ν] in
theorem resolve_of_entry (h : t.entry p = some e) : t.resolve p = .ok e := by
  induction p generalizing e with
  | root => rw [resolve, Option.some.inj (t.root.symm.trans h)]
  | child parent name ih =>
    have hparent : t.resolve parent = .ok .dir := ih (t.closed parent name (by simp [h]))
    simp only [resolve, hparent, h]

omit [DecidableEq ν] in
/-- What is found by walking is what is there. -/
theorem resolve_eq_ok : t.resolve p = .ok e ↔ t.entry p = some e := by
  constructor
  · intro h
    cases p with
    | root =>
      obtain rfl := Except.ok.inj h
      exact t.root
    | child parent name =>
      rw [resolve] at h
      split at h
      · cases h
      · cases h
      · split at h
        · cases h
        · next hentry =>
          rw [hentry, Except.ok.inj h]
  · exact resolve_of_entry

/-- No file stands in the way. -/
def NoFile (t : DirTree ν β) (p : DirPath ν) : Prop := ∀ q ∈ p.ancestors, ∀ data, t.entry q ≠ some (.file data)

omit [DecidableEq ν] in
theorem NoFile.above (h : t.NoFile (.child parent name)) : t.NoFile parent := fun q hq => h q (List.mem_cons_of_mem _ hq)

omit [DecidableEq ν] in
theorem NoFile.entry (h : t.NoFile p) : t.entry p = none ∨ t.entry p = some .dir := by
  cases hentry : t.entry p with
  | none => exact .inl rfl
  | some e =>
    cases e with
    | dir => exact .inr rfl
    | file data => exact absurd hentry (h p p.self_mem_ancestors data)

omit [DecidableEq ν] in
theorem resolve_missing (hfile : t.NoFile parent) (h : t.entry (.child parent name) = none) :
    t.resolve (.child parent name) = .error .fileNotFound := by
  induction parent generalizing name with
  | root => simp only [resolve, h]
  | child above name' ih =>
    rcases hfile.entry with hnone | hdir
    · rw [resolve, ih hfile.above hnone]
    · have hresolve : t.resolve (.child above name') = .ok .dir := resolve_of_entry hdir
      rw [resolve, hresolve]
      simp only [h]

omit [DecidableEq ν] in
/-- Above a directory there are directories. -/
theorem dir_above (h : t.entry p = some .dir) (hq : q ∈ p.ancestors) : t.entry q = some .dir := by
  induction p with
  | root =>
    obtain rfl := List.mem_singleton.mp hq
    exact h
  | child parent name ih =>
    rcases List.mem_cons.mp hq with rfl | hq
    · exact h
    · exact ih (t.closed parent name (by simp [h])) hq

/-- Every entry of the tree once the path and all above it are directories. -/
theorem entry_dirs (h : t.entry p = some .dir) (q : DirPath ν) :
    t.entry q = if q ∈ p.ancestors then some .dir else t.entry q := by
  split
  · next hq => exact dir_above h hq
  · rfl

/-! ## The calls -/

/-- `mkdir(2)`. -/
def makeDir (t : DirTree ν β) : DirPath ν → Except OsError (DirTree ν β)
  | .root => .error .fileExists
  | .child parent name =>
    match h : t.resolve parent with
    | .error e => .error e
    | .ok (.file _) => .error .notADirectory
    | .ok .dir =>
      match t.entry (.child parent name) with
      | some _ => .error .fileExists
      | none => .ok (t.insert parent name .dir (resolve_eq_ok.mp h) fun _ => rfl)

/-- A file is created, or its contents are replaced. -/
def writeFile (t : DirTree ν β) (p : DirPath ν) (data : β) : Except OsError (DirTree ν β) :=
  match p with
  | .root => .error .isADirectory
  | .child parent name =>
    match h : t.resolve parent with
    | .error e => .error e
    | .ok (.file _) => .error .notADirectory
    | .ok .dir =>
      if hdir : t.entry (.child parent name) = some .dir then .error .isADirectory
      else .ok (t.insert parent name (.file data) (resolve_eq_ok.mp h) fun h => absurd h hdir)

def readFile (t : DirTree ν β) (p : DirPath ν) : Except OsError β :=
  match t.resolve p with
  | .error e => .error e
  | .ok .dir => .error .isADirectory
  | .ok (.file data) => .ok data

def unlink (t : DirTree ν β) : DirPath ν → Except OsError (DirTree ν β)
  | .root => .error .isADirectory
  | .child parent name =>
    match t.resolve (.child parent name) with
    | .error e => .error e
    | .ok _ =>
      if hdir : t.entry (.child parent name) = some .dir then .error .isADirectory else .ok (t.remove parent name hdir)

/-- `Path.exists`. -/
def isThere (t : DirTree ν β) (p : DirPath ν) : Bool :=
  match t.resolve p with
  | .ok _ => true
  | .error _ => false

/-- `Path.is_dir`. -/
def isDir (t : DirTree ν β) (p : DirPath ν) : Bool :=
  match t.resolve p with
  | .ok .dir => true
  | _ => false

/-- `path.mkdir(exist_ok=True)`. -/
def makeDirIfMissing (t : DirTree ν β) (p : DirPath ν) : Except OsError (DirTree ν β) :=
  match t.makeDir p with
  | .ok t' => .ok t'
  | .error .fileNotFound => .error .fileNotFound
  | .error e => if t.isDir p then .ok t else .error e

/-- `path.mkdir(parents=True, exist_ok=True)`. -/
def makeParents (t : DirTree ν β) : DirPath ν → Except OsError (DirTree ν β)
  | .root => t.makeDirIfMissing .root
  | .child parent name =>
    match t.makeDir (.child parent name) with
    | .ok t' => .ok t'
    | .error .fileNotFound =>
      match t.makeParents parent with
      | .error e => .error e
      | .ok t' => t'.makeDirIfMissing (.child parent name)
    | .error e => if t.isDir (.child parent name) then .ok t else .error e

theorem makeDir_new (hparent : t.entry parent = some .dir) (hnew : t.entry (.child parent name) = none) :
    ∃ t', t.makeDir (.child parent name) = .ok t' ∧
      ∀ q, t'.entry q = if q = .child parent name then some .dir else t.entry q := by
  have hresolve := resolve_of_entry hparent
  rw [makeDir]
  split
  · next h => cases h.symm.trans hresolve
  · next h => cases h.symm.trans hresolve
  · split
    · next h => cases h.symm.trans hnew
    · exact ⟨_, rfl, fun _ => rfl⟩

theorem makeDir_missing (h : t.resolve parent = .error .fileNotFound) :
    t.makeDir (.child parent name) = .error .fileNotFound := by
  rw [makeDir]
  split
  · next h' => rw [Except.error.inj (h'.symm.trans h)]
  · next h' => cases h'.symm.trans h
  · next h' => cases h'.symm.trans h

theorem makeDir_there (hdir : t.entry (.child parent name) = some .dir) :
    t.makeDir (.child parent name) = .error .fileExists := by
  have hresolve : t.resolve parent = .ok .dir := resolve_of_entry (t.closed parent name (by simp [hdir]))
  rw [makeDir]
  split
  · next h => cases h.symm.trans hresolve
  · next h => cases h.symm.trans hresolve
  · split
    · rfl
    · next h => cases h.symm.trans hdir

/-- One directory more, below those that have just been made. -/
theorem makeDir_dirs {t₁ : DirTree ν β}
    (hentries : ∀ q, t₁.entry q = if q ∈ parent.ancestors then some .dir else t.entry q)
    (hnew : t.entry (.child parent name) = none) :
    ∃ t', t₁.makeDir (.child parent name) = .ok t' ∧
      ∀ q, t'.entry q = if q ∈ (DirPath.child parent name).ancestors then some .dir else t.entry q := by
  have hparent : t₁.entry parent = some .dir := by rw [hentries, if_pos parent.self_mem_ancestors]
  have hnew₁ : t₁.entry (.child parent name) = none := by
    rw [hentries, if_neg (DirPath.child_not_mem parent name), hnew]
  obtain ⟨t', ht', hentries'⟩ := makeDir_new hparent hnew₁
  refine ⟨t', ht', ?_⟩
  intro q
  rw [hentries', hentries, DirPath.ancestors]
  by_cases hq : q = .child parent name
  · simp [hq]
  · simp [hq]

/-- Where no file is in the way the path and all above it become directories. -/
theorem makeParents_spec (h : t.NoFile p) :
    ∃ t', t.makeParents p = .ok t' ∧ ∀ q, t'.entry q = if q ∈ p.ancestors then some .dir else t.entry q := by
  induction p with
  | root => exact ⟨t, rfl, entry_dirs t.root⟩
  | child parent name ih =>
    rcases h.entry with hnew | hdir
    · rcases h.above.entry with hmissing | hparent
      · -- the directories above are made first
        have hresolve : t.resolve parent = .error .fileNotFound := by
          cases parent with
          | root => cases t.root.symm.trans hmissing
          | child above name' => exact resolve_missing h.above.above hmissing
        obtain ⟨t₁, ht₁, hentries⟩ := ih h.above
        obtain ⟨t', ht', hentries'⟩ := makeDir_dirs hentries hnew
        refine ⟨t', ?_, hentries'⟩
        rw [makeParents, makeDir_missing hresolve]
        simp only [ht₁, makeDirIfMissing, ht']
      · obtain ⟨t', ht', hentries⟩ := makeDir_dirs (entry_dirs hparent) hnew
        refine ⟨t', ?_, hentries⟩
        rw [makeParents, ht']
    · refine ⟨t, ?_, entry_dirs hdir⟩
      have hisDir : t.isDir (.child parent name) = true := by
        rw [isDir, resolve_of_entry hdir]
      rw [makeParents, makeDir_there hdir]
      simp only [hisDir, if_true]

theorem writeFile_spec (hparent : t.entry parent = some .dir) (hdir : t.entry (.child parent name) ≠ some .dir) (data : β) :
    ∃ t', t.writeFile (.child parent name) data = .ok t' ∧
      ∀ q, t'.entry q = if q = .child parent name then some (.file data) else t.entry q := by
  have hresolve := resolve_of_entry hparent
  rw [writeFile]
  split
  · next h => cases h.symm.trans hresolve
  · next h => cases h.symm.trans hresolve
  · rw [dif_neg hdir]
    exact ⟨_, rfl, fun _ => rfl⟩

theorem unlink_spec (hfile : t.entry (.child parent name) = some (.file data)) :
    ∃ t', t.unlink (.child parent name) = .ok t' ∧ ∀ q, t'.entry q = if q = .child parent name then none else t.entry q := by
  have hdir : t.entry (.child parent name) ≠ some .dir := by
    intro h
    cases h.symm.trans hfile
  rw [unlink, resolve_of_entry hfile]
  simp only [dif_neg hdir]
  exact ⟨_, rfl, fun _ => rfl⟩

end DirTree

end Imghost.Data
