/-
  Imghost.Storage.Filesystem — `LocalFilesystemBackend`, on a tree of directories.

  A key is a path under the root of the backend; its directories are made when an object is
  put. Streams are those of files: `get_stream` of a directory is left out. To whoever uses
  keys of which none stands above another, the tree is the map from keys to bytes that the
  rest of the model has for its storage.

  - `filesystem_stores_objects`: whatever is put, deleted and read under the keys of the
    service, in any order, is answered as the map answers it; putting never fails, and no
    other file of the tree is touched.
  - `a_key_below_an_object_cannot_be_put`: where one key is above another it is no such map.
-/

import Imghost.Data.DirTree
import Imghost.Service.Thumbnails
import Imghost.Service.Upload
import Imghost.Storage.Streams

namespace Imghost.Storage

open Imghost.Data Imghost.Model Imghost.Service

/-! ## Keys as paths -/

def isKept (part : List Char) : Bool := part ≠ [] ∧ part ≠ ['.']

/-- The components of a path that `pathlib` keeps. -/
def keyParts (key : String) : List String := ((key.toList.splitOn '/').filter isKept).map String.ofList

/-- `_path_for`, from the root of the backend; none for a key that leads out of it. -/
def pathFor (key : String) : Option (DirPath String) :=
  if key.toList.head? = some '/' ∨ ".." ∈ keyParts key then none
  else some ((keyParts key).foldl .child .root)

/-! ## LocalFilesystemBackend -/

abbrev DataDir := DirTree String Bytes

abbrev Objects := String → Option Bytes

inductive StorageExc where
  | os (e : OsError)
  /-- The path leads out of the root: what is there is not modelled. -/
  | outside
  deriving DecidableEq, Repr

inductive StorageOp where
  | put (key : String) (data : Bytes)
  | delete (key : String)
  | exists (key : String)
  | getSize (key : String)
  | getBytes (key : String)
  | getStream (key : String) (rangeHeader : Option String)
  deriving DecidableEq, Repr

inductive StorageReply where
  | done
  | there (found : Bool)
  | size (n : Nat)
  | bytes (data : Bytes)
  | stream (answer : Except StreamExc StorageStream)
  | raised (e : StorageExc)

def StorageOp.key : StorageOp → String
  | .put key _ | .delete key | .exists key | .getSize key | .getBytes key | .getStream key _ => key

/-- The files of a tree by their keys. -/
def filesOf (t : DataDir) : Objects := fun key =>
  match (pathFor key).bind t.entry with
  | some (.file data) => some data
  | _ => none

namespace LocalFilesystemBackend

variable (t : DataDir) (path : DirPath String)

def put (data : Bytes) : StorageReply × DataDir :=
  match t.makeParents path.parent with
  | .error e => (.raised (.os e), t)
  | .ok t' =>
    match t'.writeFile path data with
    | .error e => (.raised (.os e), t')
    | .ok t'' => (.done, t'')

def delete : StorageReply × DataDir :=
  if t.isThere path then
    match t.unlink path with
    | .error e => (.raised (.os e), t)
    | .ok t' => (.done, t')
  else (.done, t)

/-- `path.stat().st_size`; the file system has a size for directories. -/
def getSize (dirSize : Nat) : StorageReply :=
  match t.resolve path with
  | .error e => .raised (.os e)
  | .ok .dir => .size dirSize
  | .ok (.file data) => .size data.length

def getBytes : StorageReply :=
  match t.readFile path with
  | .error e => .raised (.os e)
  | .ok data => .bytes data

/-- An operation on the path of its key. -/
def run (dirSize chunkSize : Nat) : StorageOp → StorageReply × DataDir
  | .put _ data => put t path data
  | .delete _ => delete t path
  | .exists _ => (.there (t.isThere path), t)
  | .getSize _ => (getSize t path dirSize, t)
  | .getBytes _ => (getBytes t path, t)
  | .getStream key rangeHeader => (.stream (localGetStream chunkSize (filesOf t) key rangeHeader), t)

end LocalFilesystemBackend

def StorageOp.onFiles (dirSize chunkSize : Nat) (op : StorageOp) (t : DataDir) : StorageReply × DataDir :=
  match pathFor op.key with
  | none => (.raised .outside, t)
  | some path => LocalFilesystemBackend.run t path dirSize chunkSize op

/-! ## The store of objects -/

def missing : StorageReply := .raised (.os .fileNotFound)

/-- What the storage is for: bytes under keys. -/
def StorageOp.onObjects (chunkSize : Nat) : StorageOp → Objects → StorageReply × Objects
  | .put key data, objects => (.done, fun k => if k = key then some data else objects k)
  | .delete key, objects => (.done, fun k => if k = key then none else objects k)
  | .exists key, objects => (.there (objects key).isSome, objects)
  | .getSize key, objects => (((objects key).map fun data => .size data.length).getD missing, objects)
  | .getBytes key, objects => (((objects key).map .bytes).getD missing, objects)
  | .getStream key rangeHeader, objects => (.stream (localGetStream chunkSize objects key rangeHeader), objects)

/-- The storage of the world is this store. -/
theorem world_objects (w : World) (key : String) (data : Bytes) (chunkSize : Nat) :
    (w.put key data).objects = (StorageOp.onObjects chunkSize (.put key data) w.objects).2 ∧
      (w.storageDelete key).objects = (StorageOp.onObjects chunkSize (.delete key) w.objects).2 := ⟨rfl, rfl⟩

/-- One operation after the other, and their answers. -/
def runOps {σ : Type} (step : StorageOp → σ → StorageReply × σ) : List StorageOp → σ → List StorageReply × σ
  | [], s => ([], s)
  | op :: ops, s => ((step op s).1 :: (runOps step ops (step op s).2).1, (runOps step ops (step op s).2).2)

/-! ## Trees that hold objects -/

/-- Keys that can all be stored: each is a path below the root, and none is above another. -/
structure Flat (K : String → Prop) : Prop where
  below : ∀ key, K key → ∃ parent name, pathFor key = some (.child parent name)
  apart : ∀ key key' path path', K key → K key' → pathFor key = some path → pathFor key' = some path' →
    path ∈ path'.ancestors → key = key'

/-- The files under the keys are the objects, and no file is in the way of a key. -/
structure Holds (K : String → Prop) (t : DataDir) (objects : Objects) : Prop where
  file : ∀ key path, K key → pathFor key = some path → t.entry path = (objects key).map .file
  clear : ∀ key parent name, K key → pathFor key = some (.child parent name) → t.NoFile parent

/-- The files that are under none of the keys are the same. -/
def SameElsewhere (K : String → Prop) (t t' : DataDir) : Prop :=
  ∀ path data, (∀ key, K key → pathFor key ≠ some path) →
    (t'.entry path = some (.file data) ↔ t.entry path = some (.file data))

variable {K : String → Prop} {t t' : DataDir} {objects : Objects} {key : String} {data : Bytes} {parent : DirPath String}
  {name : String} {dirSize chunkSize : Nat}

theorem SameElsewhere.refl (t : DataDir) : SameElsewhere K t t := fun _ _ _ => Iff.rfl

theorem SameElsewhere.trans {t'' : DataDir} (h : SameElsewhere K t t') (h' : SameElsewhere K t' t'') : SameElsewhere K t t'' :=
  fun path data hpath => (h' path data hpath).trans (h path data hpath)

theorem files_hold (h : Holds K t objects) (hkey : K key) {path : DirPath String} (hpath : pathFor key = some path) :
    filesOf t key = objects key := by
  rw [filesOf, hpath, Option.bind_some, h.file key path hkey hpath]
  cases objects key <;> rfl

/-- A tree in which the file of one key has changed, and some of its directories are new. -/
theorem Holds.change (hflat : Flat K) (h : Holds K t objects) (hkey : K key) (hpath : pathFor key = some (.child parent name))
    (value : Option Bytes) (hself : t'.entry (.child parent name) = value.map .file)
    (hother : ∀ q, q ≠ .child parent name → t'.entry q = t.entry q ∨ q ∈ parent.ancestors ∧ t'.entry q = some .dir) :
    Holds K t' (fun k => if k = key then value else objects k) ∧ SameElsewhere K t t' := by
  refine ⟨⟨?_, ?_⟩, ?_⟩
  · intro k path hk hpath'
    by_cases heq : k = key
    · subst heq
      obtain rfl := Option.some.inj (hpath.symm.trans hpath')
      rw [if_pos rfl, hself]
    · have hne : path ≠ .child parent name := by
        rintro rfl
        exact heq (hflat.apart k key _ _ hk hkey hpath' hpath (DirPath.self_mem_ancestors _))
      rw [if_neg heq, ← h.file k path hk hpath']
      rcases hother path hne with hsame | ⟨habove, -⟩
      · exact hsame
      · exact absurd (hflat.apart k key _ _ hk hkey hpath' hpath (List.mem_cons_of_mem _ habove)) heq
  · intro k parent' name' hk hpath' q hq data
    have hne : q ≠ .child parent name := by
      rintro rfl
      obtain rfl := hflat.apart key k _ _ hkey hk hpath hpath' (List.mem_cons_of_mem _ hq)
      obtain ⟨rfl, rfl⟩ := DirPath.child.inj (Option.some.inj (hpath.symm.trans hpath'))
      exact DirPath.child_not_mem _ _ hq
    rcases hother q hne with hsame | ⟨-, hdir⟩
    · rw [hsame]
      exact h.clear k parent' name' hk hpath' q hq data
    · rw [hdir]
      intro hfile
      cases hfile
  · intro path data helse
    have hne : path ≠ .child parent name := by
      rintro rfl
      exact helse key hkey hpath
    rcases hother path hne with hsame | ⟨habove, hdir⟩
    · rw [hsame]
    · rw [hdir]
      constructor
      · intro hfile
        cases hfile
      · intro hfile
        exact absurd hfile (h.clear key parent name hkey hpath path habove data)

/-- What is answered, and what is stored then. -/
structure Agrees (K : String → Prop) (t : DataDir) (files : StorageReply × DataDir) (store : StorageReply × Objects) :
    Prop where
  reply : files.1 = store.1
  holds : Holds K files.2 store.2
  elsewhere : SameElsewhere K t files.2

theorem put_agrees (hflat : Flat K) (h : Holds K t objects) (hkey : K key)
    (hpath : pathFor key = some (.child parent name)) (data : Bytes) :
    Agrees K t (LocalFilesystemBackend.put t (.child parent name) data)
      (StorageOp.onObjects chunkSize (.put key data) objects) := by
  obtain ⟨t₁, hparents, hentries⟩ := DirTree.makeParents_spec (h.clear key parent name hkey hpath)
  have hparent : t₁.entry parent = some .dir := by rw [hentries, if_pos parent.self_mem_ancestors]
  have hdir : t₁.entry (.child parent name) ≠ some .dir := by
    rw [hentries, if_neg (DirPath.child_not_mem parent name), h.file key _ hkey hpath]
    cases objects key <;> intro hd <;> cases hd
  obtain ⟨t₂, hwrite, hwritten⟩ := DirTree.writeFile_spec hparent hdir data
  have hput : LocalFilesystemBackend.put t (.child parent name) data = (.done, t₂) := by
    rw [LocalFilesystemBackend.put, DirPath.parent, hparents]
    simp only [hwrite]
  have hchange := Holds.change hflat h hkey hpath (some data)
    (by rw [hwritten, if_pos rfl]; rfl)
    (by
      intro q hq
      rw [hwritten, if_neg hq, hentries]
      split
      · next habove => exact .inr ⟨habove, rfl⟩
      · exact .inl rfl)
  rw [hput]
  exact ⟨rfl, hchange.1, hchange.2⟩

theorem resolve_key (h : Holds K t objects) (hkey : K key) (hpath : pathFor key = some (.child parent name)) :
    t.resolve (.child parent name) = ((objects key).map fun data => Except.ok (.file data)).getD (.error .fileNotFound) := by
  have hfile := h.file key _ hkey hpath
  cases hobject : objects key with
  | none =>
    rw [hobject] at hfile
    exact DirTree.resolve_missing (h.clear key parent name hkey hpath) hfile
  | some data =>
    rw [hobject] at hfile
    exact DirTree.resolve_of_entry hfile

theorem delete_agrees (hflat : Flat K) (h : Holds K t objects) (hkey : K key)
    (hpath : pathFor key = some (.child parent name)) :
    Agrees K t (LocalFilesystemBackend.delete t (.child parent name))
      (StorageOp.onObjects chunkSize (.delete key) objects) := by
  have hresolve := resolve_key h hkey hpath
  have hfile := h.file key _ hkey hpath
  rw [LocalFilesystemBackend.delete, DirTree.isThere, hresolve]
  cases hobject : objects key with
  | none =>
    have hsame : (fun k => if k = key then none else objects k) = objects := by
      funext k
      split
      · next heq => rw [heq, hobject]
      · rfl
    refine ⟨rfl, ?_, SameElsewhere.refl t⟩
    show Holds K t fun k => if k = key then none else objects k
    rw [hsame]
    exact h
  | some data =>
    rw [hobject] at hfile
    obtain ⟨t₁, hunlink, hentries⟩ := DirTree.unlink_spec hfile
    have hchange := Holds.change hflat h hkey hpath none
      (by rw [hentries, if_pos rfl]; rfl)
      (by
        intro q hq
        rw [hentries, if_neg hq]
        exact .inl rfl)
    simp only [Option.map_some, Option.getD_some, if_true, hunlink]
    exact ⟨rfl, hchange.1, hchange.2⟩

/-- One operation, on the tree and on the store. -/
theorem op_agrees (hflat : Flat K) (h : Holds K t objects) (op : StorageOp) (hkey : K op.key) :
    Agrees K t (op.onFiles dirSize chunkSize t) (op.onObjects chunkSize objects) := by
  obtain ⟨parent, name, hpath⟩ := hflat.below op.key hkey
  have hresolve := resolve_key h hkey hpath
  have hlooks : ∀ reply reply', reply = reply' → Agrees K t (reply, t) (reply', objects) :=
    fun _ _ heq => ⟨heq, h, SameElsewhere.refl t⟩
  rw [StorageOp.onFiles, hpath]
  cases op with
  | put key data => exact put_agrees hflat h hkey hpath data
  | delete key => exact delete_agrees hflat h hkey hpath
  | «exists» key =>
    apply hlooks
    rw [DirTree.isThere, hresolve]
    show _ = StorageReply.there (objects key).isSome
    cases hobject : objects key <;> simp [StorageOp.key, hobject]
  | getSize key =>
    apply hlooks
    rw [LocalFilesystemBackend.getSize, hresolve]
    cases hobject : objects key <;> simp [StorageOp.key, hobject, missing]
  | getBytes key =>
    apply hlooks
    rw [LocalFilesystemBackend.getBytes, DirTree.readFile, hresolve]
    cases hobject : objects key <;> simp [StorageOp.key, hobject, missing]
  | getStream key rangeHeader =>
    apply hlooks
    have hfiles : filesOf t key = objects key := files_hold h hkey hpath
    simp only [localGetStream, hfiles]

theorem run_agrees (hflat : Flat K) (ops : List StorageOp) (hops : ∀ op ∈ ops, K op.key) {t : DataDir} {objects : Objects}
    (h : Holds K t objects) :
    (runOps (StorageOp.onFiles dirSize chunkSize) ops t).1 = (runOps (StorageOp.onObjects chunkSize) ops objects).1 ∧
      Holds K (runOps (StorageOp.onFiles dirSize chunkSize) ops t).2 (runOps (StorageOp.onObjects chunkSize) ops objects).2 ∧
      SameElsewhere K t (runOps (StorageOp.onFiles dirSize chunkSize) ops t).2 := by
  induction ops generalizing t objects with
  | nil => exact ⟨rfl, h, SameElsewhere.refl t⟩
  | cons op ops ih =>
    have hstep : Agrees K t (op.onFiles dirSize chunkSize t) (op.onObjects chunkSize objects) :=
      op_agrees hflat h op (hops op List.mem_cons_self)
    obtain ⟨hreplies, hholds, helsewhere⟩ := ih (fun op' hop' => hops op' (List.mem_cons_of_mem op hop')) hstep.holds
    refine ⟨?_, hholds, hstep.elsewhere.trans helsewhere⟩
    simp only [runOps, hstep.reply, hreplies]

/-! ## The keys of the service -/

/-- One component of a path, and not that of a directory's own or its parent. -/
structure Segment (s : String) : Prop where
  nonempty : s ≠ ""
  dot : s ≠ "."
  dots : s ≠ ".."
  slash : '/' ∉ s.toList

inductive ServiceKey : String → Prop where
  | original (owner name : String) (howner : Segment owner) (hname : Segment name) :
    ServiceKey ("originals/" ++ owner ++ "/" ++ name)
  | thumbnail (name : String) (hname : Segment name) : ServiceKey ("thumbnails/" ++ name)

theorem Segment.kept {s : String} (h : Segment s) : isKept s.toList = true := by
  rw [isKept, decide_eq_true_eq]
  constructor
  · intro heq
    exact h.nonempty (String.toList_inj.mp heq)
  · intro heq
    exact h.dot (String.toList_inj.mp heq)

theorem keyParts_thumbnail {name : String} (h : Segment name) : keyParts ("thumbnails/" ++ name) = ["thumbnails", name] := by
  have hsplit : ("thumbnails/" ++ name).toList.splitOn '/' = ["thumbnails".toList, name.toList] := by
    have htext : ("thumbnails/" ++ name).toList = "thumbnails".toList ++ '/' :: name.toList := by simp
    rw [htext, List.splitOn_append_cons_self_of_not_mem (by decide), List.splitOn_eq_singleton h.slash]
  rw [keyParts, hsplit, List.filter_cons_of_pos (by decide), List.filter_cons_of_pos h.kept]
  simp

theorem keyParts_original {owner name : String} (howner : Segment owner) (hname : Segment name) :
    keyParts ("originals/" ++ owner ++ "/" ++ name) = ["originals", owner, name] := by
  have hsplit : ("originals/" ++ owner ++ "/" ++ name).toList.splitOn '/' =
      ["originals".toList, owner.toList, name.toList] := by
    have htext : ("originals/" ++ owner ++ "/" ++ name).toList =
        "originals".toList ++ '/' :: (owner.toList ++ '/' :: name.toList) := by
      simp
    rw [htext, List.splitOn_append_cons_self_of_not_mem (by decide), List.splitOn_append_cons_self_of_not_mem howner.slash,
      List.splitOn_eq_singleton hname.slash]
  rw [keyParts, hsplit, List.filter_cons_of_pos (by decide), List.filter_cons_of_pos howner.kept,
    List.filter_cons_of_pos hname.kept]
  simp

def thumbnailPath (name : String) : DirPath String := .child (.child .root "thumbnails") name

def originalPath (owner name : String) : DirPath String := .child (.child (.child .root "originals") owner) name

theorem pathFor_thumbnail {name : String} (h : Segment name) : pathFor ("thumbnails/" ++ name) = some (thumbnailPath name) := by
  have hinside : ¬(("thumbnails/" ++ name).toList.head? = some '/' ∨ ".." ∈ keyParts ("thumbnails/" ++ name)) := by
    rw [keyParts_thumbnail h]
    simp [h.dots.symm]
  rw [pathFor, if_neg hinside, keyParts_thumbnail h]
  rfl

theorem pathFor_original {owner name : String} (howner : Segment owner) (hname : Segment name) :
    pathFor ("originals/" ++ owner ++ "/" ++ name) = some (originalPath owner name) := by
  have hinside : ¬(("originals/" ++ owner ++ "/" ++ name).toList.head? = some '/' ∨
      ".." ∈ keyParts ("originals/" ++ owner ++ "/" ++ name)) := by
    rw [keyParts_original howner hname]
    simp [howner.dots.symm, hname.dots.symm]
  rw [pathFor, if_neg hinside, keyParts_original howner hname]
  rfl

/-- Originals are three components deep and thumbnails two, in directories of their own. -/
theorem serviceKeys_flat : Flat ServiceKey where
  below key h := by
    cases h with
    | original owner name howner hname => exact ⟨_, _, pathFor_original howner hname⟩
    | thumbnail name hname => exact ⟨_, _, pathFor_thumbnail hname⟩
  apart key key' path path' h h' hpath hpath' habove := by
    cases h with
    | original owner name howner hname =>
      obtain rfl := Option.some.inj ((pathFor_original howner hname).symm.trans hpath)
      cases h' with
      | original owner' name' howner' hname' =>
        obtain rfl := Option.some.inj ((pathFor_original howner' hname').symm.trans hpath')
        simp only [originalPath, DirPath.ancestors, List.mem_cons, DirPath.child.injEq, reduceCtorEq, false_and, or_false,
          List.not_mem_nil] at habove
        obtain ⟨⟨-, rfl⟩, rfl⟩ := habove
        rfl
      | thumbnail name' hname' =>
        obtain rfl := Option.some.inj ((pathFor_thumbnail hname').symm.trans hpath')
        simp [originalPath, thumbnailPath, DirPath.ancestors] at habove
    | thumbnail name hname =>
      obtain rfl := Option.some.inj ((pathFor_thumbnail hname).symm.trans hpath)
      cases h' with
      | original owner' name' howner' hname' =>
        obtain rfl := Option.some.inj ((pathFor_original howner' hname').symm.trans hpath')
        simp [originalPath, thumbnailPath, DirPath.ancestors] at habove
      | thumbnail name' hname' =>
        obtain rfl := Option.some.inj ((pathFor_thumbnail hname').symm.trans hpath')
        simp [thumbnailPath, DirPath.ancestors] at habove
        rw [habove]

theorem mem_generateId {length : Nat} {draw : Fin length → Fin 31} {c : Char} (h : c ∈ (generateId draw).toList) :
    c ∈ alphabet := by
  rw [generateId, String.toList_ofList, List.mem_ofFn] at h
  obtain ⟨i, rfl⟩ := h
  have hlength : (draw i : Nat) < alphabet.length := (draw i).isLt
  rw [List.getD_eq_getElem?_getD, List.getElem?_eq_getElem hlength, Option.getD_some]
  exact List.getElem_mem hlength

/-- An id and an extension make up a component. -/
theorem segment_named {length : Nat} (draw : Fin (length + 1) → Fin 31) {ext : String} (hext : '/' ∉ ext.toList) :
    Segment (generateId draw ++ "." ++ ext) := by
  have hplain : ∀ c ∈ (generateId draw).toList, c ≠ '.' ∧ c ≠ '/' := by
    intro c hc
    have hall : (alphabet.all fun c => c != '.' && c != '/') = true := by decide +kernel
    have hc := List.all_eq_true.mp hall c (mem_generateId hc)
    simpa using hc
  obtain ⟨c, rest, hid⟩ : ∃ c rest, (generateId draw).toList = c :: rest := by
    rw [generateId, String.toList_ofList, List.ofFn_succ]
    exact ⟨_, _, rfl⟩
  have htext : (generateId draw ++ "." ++ ext).toList = c :: (rest ++ '.' :: ext.toList) := by
    simp [hid]
  have hne : ∀ s : String, s.toList.head? ≠ some c → generateId draw ++ "." ++ ext ≠ s := by
    rintro s hs rfl
    rw [htext] at hs
    exact hs rfl
  have hfirst : c ≠ '.' := (hplain c (hid ▸ List.mem_cons_self)).1
  refine ⟨hne "" ?_, hne "." ?_, hne ".." ?_, ?_⟩
  · simp
  · intro h
    exact hfirst (Option.some.inj h).symm
  · intro h
    exact hfirst (Option.some.inj h).symm
  · intro hslash
    have hslash : '/' ∈ (generateId draw).toList ++ '.' :: ext.toList := by
      rw [htext] at hslash
      rw [hid]
      exact hslash
    rcases List.mem_append.mp hslash with h | h
    · exact (hplain _ h).2 rfl
    · rcases List.mem_cons.mp h with h | h
      · cases h
      · exact hext h

theorem extension_plain {fmt : String} (hfmt : '/' ∉ fmt.toList) : '/' ∉ (if fmt = "jpeg" then "jpg" else fmt).toList := by
  split
  · decide
  · exact hfmt

theorem original_key {owner mediaId ext : String} (howner : Segment owner) (hname : Segment (mediaId ++ "." ++ ext)) :
    ServiceKey ("originals/" ++ owner ++ "/" ++ mediaId ++ ("." ++ ext)) := by
  have hkey : ServiceKey ("originals/" ++ owner ++ "/" ++ (mediaId ++ "." ++ ext)) := .original owner _ howner hname
  simp only [String.append_assoc] at hkey ⊢
  exact hkey

theorem thumbnail_key {mediaId ext : String} (hname : Segment (mediaId ++ "." ++ ext)) :
    ServiceKey ("thumbnails/" ++ mediaId ++ "." ++ ext) := by
  have hkey : ServiceKey ("thumbnails/" ++ (mediaId ++ "." ++ ext)) := .thumbnail _ hname
  simp only [String.append_assoc] at hkey ⊢
  exact hkey

theorem segment_anon : Segment "anon" := by
  constructor <;> decide

/-- The keys that uploads and thumbnails are stored under. -/
theorem written_keys (user : Option User) (draws : Draws) (fmt : String) (huser : ∀ u ∈ user, Segment u.id)
    (hfmt : '/' ∉ fmt.toList) : ServiceKey (storageKeyFor user (generateId draws.mediaId) fmt) ∧
      ServiceKey (thumbKeyFor (generateId draws.mediaId) fmt) := by
  have hname : Segment (generateId draws.mediaId ++ "." ++ if fmt = "jpeg" then "jpg" else fmt) :=
    segment_named draws.mediaId (extension_plain hfmt)
  refine ⟨?_, thumbnail_key hname⟩
  cases user with
  | none => exact original_key segment_anon hname
  | some user => exact original_key (huser user rfl) hname

/-- The tree of a new backend holds nothing. -/
theorem empty_holds : Holds ServiceKey DirTree.empty fun _ => none where
  file key path h hpath := by
    obtain ⟨parent, name, hbelow⟩ := serviceKeys_flat.below key h
    obtain rfl := Option.some.inj (hbelow.symm.trans hpath)
    rfl
  clear key parent name _ _ q _ data := by
    cases q <;> intro hfile <;> cases hfile

/-- The filesystem backend is the store of objects that the service takes it for. -/
theorem filesystem_stores_objects (dirSize chunkSize : Nat) (t : DataDir) (objects : Objects) (h : Holds ServiceKey t objects)
    (ops : List StorageOp) (hops : ∀ op ∈ ops, ServiceKey op.key) :
    (runOps (StorageOp.onFiles dirSize chunkSize) ops t).1 = (runOps (StorageOp.onObjects chunkSize) ops objects).1 ∧
      Holds ServiceKey (runOps (StorageOp.onFiles dirSize chunkSize) ops t).2
        (runOps (StorageOp.onObjects chunkSize) ops objects).2 ∧
      SameElsewhere ServiceKey t (runOps (StorageOp.onFiles dirSize chunkSize) ops t).2 :=
  run_agrees serviceKeys_flat ops hops h

namespace FilesystemSample

def original : String := "originals/anon/b.png"

def ops : List StorageOp :=
  [.getBytes original, .put original [1, 2], .put "thumbnails/b.webp" [3], .getSize original, .delete original,
    .exists original]

theorem ops_of_service : ∀ op ∈ ops, ServiceKey op.key := by
  have horiginal : ServiceKey original := .original "anon" "b.png" segment_anon (by constructor <;> decide)
  have hthumbnail : ServiceKey "thumbnails/b.webp" := .thumbnail "b.webp" (by constructor <;> decide)
  simp [ops, StorageOp.key, horiginal, hthumbnail]

end FilesystemSample

open FilesystemSample in
theorem an_object_is_stored_and_deleted :
    (runOps (StorageOp.onObjects 65536) ops fun _ => none).1 =
        [missing, .done, .done, .size 2, .done, .there false] ∧
      (runOps (StorageOp.onFiles 4096 65536) ops DirTree.empty).1 = (runOps (StorageOp.onObjects 65536) ops fun _ => none).1 :=
  ⟨rfl, (filesystem_stores_objects 4096 65536 DirTree.empty (fun _ => none) empty_holds ops ops_of_service).1⟩

/-- Where one key is above another, the tree is no such store. -/
theorem a_key_below_an_object_cannot_be_put :
    (runOps (StorageOp.onFiles 4096 65536) [.put "a" [1], .put "a/b" [2]] DirTree.empty).1 =
      [.done, .raised (.os .fileExists)] := by
  rfl

end Imghost.Storage
