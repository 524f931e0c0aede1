/-
  Imghost.Service.AlbumSearch — `list_albums_page` and `list_albums_for_admin_page`.

  The conditions and their parameters are gathered side by side: each condition is given the
  number its parameter will have. The count is run on all parameters but the last two, which are
  the limit and the offset of the query itself. The text that is looked for goes between two `%`
  as it is.

  - `search_is_literal_iff`: the search finds the albums that contain the text, in whole pages,
    exactly when the lower-cased text has no `%`, no `_`, no backslash and no NUL.
  - `an_underscore_finds_every_album`: the text `_` finds an album it is not in.
-/

import Imghost.Data.LikePattern
import Imghost.Data.Table
import Imghost.Model.Stdlib
import Mathlib.Data.String.Basic

namespace Imghost.AlbumSearch

open Imghost.Data Imghost.Model

/-! ## The database -/

/-- An order of the database for texts that tells any two apart. -/
structure Collation where
  le : String → String → Bool
  total : ∀ a b, le a b = true ∨ le b a = true
  trans : ∀ a b c, le a b = true → le b c = true → le a c = true
  antisymm : ∀ a b, le a b = true → le b a = true → a = b

/-- `lower` is `str.lower` and `sqlLower` the `LOWER` of the database. -/
structure SearchLib where
  lower : String → String
  sqlLower : String → String
  collation : Collation

/-- The rows of both tables, in the order in which a statement meets them. -/
structure Scan where
  albums : List Album
  users : List User

inductive SqlArg where
  | text (value : String)
  | bigint (value : Nat)
  deriving DecidableEq, Repr

/-- The conditions of the query, with the numbers of their parameters. -/
inductive Filter where
  | titleOrId (placeholder : Nat)
  | ownedByOneOf (placeholder : Nat)
  | anonymous
  | owned
  deriving DecidableEq, Repr

def Filter.placeholder : Filter → Nat
  | .titleOrId n | .ownedByOneOf n => n
  | .anonymous | .owned => 0

/-- The driver counts the arguments. -/
def checkCount (placeholders : List Nat) (args : List SqlArg) : Except PyExc Unit :=
  let expected := placeholders.foldl max 0
  if expected = args.length then pure ()
  else throw (.exception ("the server expects " ++ toString expected ++ " arguments for this query, " ++
    toString args.length ++ " were passed"))

def textAt (args : List SqlArg) (placeholder : Nat) : Except PyExc String :=
  match args[placeholder - 1]? with
  | some (.text value) =>
    if value.toList.contains '\x00' then throw (.exception "invalid byte sequence for encoding \"UTF8\": 0x00")
    else pure value
  | _ => throw (.exception "expected str")

def bigintAt (args : List SqlArg) (placeholder : Nat) : Except PyExc Nat :=
  match args[placeholder - 1]? with
  | some (.bigint value) => pure value
  | _ => throw (.exception "an integer is required")

def patternAt (args : List SqlArg) (placeholder : Nat) : Except PyExc (List Piece) := do
  let pattern ← textAt args placeholder
  match pieces pattern.toList with
  | some ps => pure ps
  | none => throw (.exception "LIKE pattern must not end with escape character")

variable (lib : SearchLib)

/-- What the condition says of an album. A condition on a column that is NULL does not hold. -/
def Filter.bind (users : List User) (args : List SqlArg) : Filter → Except PyExc (Album → Bool)
  | .titleOrId placeholder => do
    let ps ← patternAt args placeholder
    pure fun album => (album.title.any fun title => fits ps (lib.sqlLower title).toList) || fits ps album.id.toList
  | .ownedByOneOf placeholder => do
    let ps ← patternAt args placeholder
    let ids := (users.filter fun user =>
      fits ps (lib.sqlLower user.username).toList || fits ps (lib.sqlLower user.email).toList).map (·.id)
    pure fun album => album.userId.any ids.contains
  | .anonymous => pure fun album => album.userId.isNone
  | .owned => pure fun album => album.userId.isSome

/-- `WHERE` with the conditions joined by `AND`, or no `WHERE`. -/
def whereClause (scan : Scan) (args : List SqlArg) (filters : List Filter) : Except PyExc (List Album) := do
  let conditions ← filters.mapM (Filter.bind lib scan.users args)
  pure (scan.albums.filter fun album => conditions.all (· album))

/-- `ORDER BY updated_at DESC, id DESC`. -/
def newestFirst (a b : Album) : Bool :=
  b.updatedAt < a.updatedAt || (a.updatedAt == b.updatedAt && lib.collation.le b.id a.id)

/-- `SELECT COUNT(*) FROM albums …`. -/
def countAlbums (scan : Scan) (filters : List Filter) (args : List SqlArg) : Except PyExc Nat := do
  checkCount (filters.map Filter.placeholder) args
  let rows ← whereClause lib scan args filters
  pure rows.length

/-- `SELECT * FROM albums … LIMIT $limit OFFSET $offset`. -/
def selectAlbums (scan : Scan) (filters : List Filter) (limit offset : Nat) (args : List SqlArg) :
    Except PyExc (List Album) := do
  checkCount (filters.map Filter.placeholder ++ [limit, offset]) args
  let rows ← whereClause lib scan args filters
  let limit ← bigintAt args limit
  let offset ← bigintAt args offset
  pure (((rows.mergeSort (newestFirst lib)).drop offset).take limit)

/-! ## The search -/

/-- `list_albums_page`. The pagination is checked by the caller. -/
def listAlbumsPage (scan : Scan) (q owner : Option String) (anonymous : Option Bool) (limit offset : Nat) :
    Except PyExc (List Album × Nat) := do
  let filters : List Filter := []
  let params : List SqlArg := []
  let (filters, params) :=
    if truthy q then
      let params := params ++ [.text ("%" ++ lib.lower (q.getD "") ++ "%")]
      (filters ++ [.titleOrId params.length], params)
    else (filters, params)
  let (filters, params) :=
    if truthy owner then
      let params := params ++ [.text ("%" ++ lib.lower (owner.getD "") ++ "%")]
      (filters ++ [.ownedByOneOf params.length], params)
    else (filters, params)
  let filters :=
    match anonymous with
    | some true => filters ++ [.anonymous]
    | some false => filters ++ [.owned]
    | none => filters
  let params := params ++ [.bigint limit, .bigint offset]
  let total ← countAlbums lib scan filters (params.take (params.length - 2))
  let rows ← selectAlbums lib scan filters (params.length - 1) params.length params
  pure (rows, total)

structure AdminPage where
  items : List Album
  total : Nat
  limit : Nat
  offset : Nat
  hasMore : Bool
  deriving DecidableEq, Repr

/-- `list_albums_for_admin_page`, with one item for each album. -/
def listAlbumsForAdminPage (scan : Scan) (q owner : Option String) (anonymous : Option Bool) (limit offset : Nat) :
    Except PyExc AdminPage := do
  let (albums, total) ← listAlbumsPage lib scan q owner anonymous limit offset
  pure ⟨albums, total, limit, offset, offset + albums.length < total⟩

/-! ## What a search returns -/

/-- The page at an offset: the rows that are found, in their order. -/
def pageOf (found : List Album) (limit offset : Nat) : AdminPage :=
  let items := ((found.mergeSort (newestFirst lib)).drop offset).take limit
  ⟨items, found.length, limit, offset, offset + items.length < found.length⟩

variable {lib} {scan : Scan} {text : String} {limit offset : Nat}

/-- Without a text every album is found. -/
theorem search_empty :
    listAlbumsForAdminPage lib scan (some "") none none limit offset = .ok (pageOf lib scan.albums limit offset) := by
  have hall : (scan.albums.filter fun _ => true) = scan.albums := by simp
  simp [listAlbumsForAdminPage, listAlbumsPage, countAlbums, selectAlbums, checkCount, whereClause, bigintAt, pageOf, pure,
    Except.pure, bind, Except.bind, hall]

theorem text_around (text : String) : ("%" ++ lib.lower text ++ "%").toList = around (lib.lower text).toList := by
  simp [around]

theorem mem_around {c : Char} {l : List Char} (hc : c ≠ '%') : c ∈ around l ↔ c ∈ l := by
  simp [around, hc]

/-- A text that is looked for is a pattern. -/
theorem search_pattern (htext : text ≠ "") (hnul : '\x00' ∉ (lib.lower text).toList) {ps : List Piece}
    (hps : pieces (around (lib.lower text).toList) = some ps) :
    listAlbumsForAdminPage lib scan (some text) none none limit offset =
      .ok (pageOf lib (scan.albums.filter fun album =>
        (album.title.any fun title => fits ps (lib.sqlLower title).toList) || fits ps album.id.toList) limit offset) := by
  have hpattern : ∀ rest, patternAt (.text ("%" ++ lib.lower text ++ "%") :: rest) 1 = .ok ps := by
    intro rest
    have hfree : (around (lib.lower text).toList).contains '\x00' = false := by
      rw [List.contains_eq_mem, decide_eq_false_iff_not, mem_around (by decide)]
      exact hnul
    simp only [patternAt, textAt, Nat.sub_self, List.getElem?_cons_zero, text_around, hfree]
    simp only [bind, Except.bind, pure, Except.pure, text_around, hps, Bool.false_eq_true, if_false]
  simp [listAlbumsForAdminPage, listAlbumsPage, countAlbums, selectAlbums, checkCount, whereClause, bigintAt, pageOf, pure,
    Except.pure, bind, Except.bind, htext, Filter.placeholder, Filter.bind, hpattern]

/-- The database takes no text with a NUL. -/
theorem search_nul (htext : text ≠ "") (hnul : '\x00' ∈ (lib.lower text).toList) :
    ∃ e, listAlbumsForAdminPage lib scan (some text) none none limit offset = .error e := by
  have hpattern : ∀ rest, patternAt (.text ("%" ++ lib.lower text ++ "%") :: rest) 1 =
      .error (.exception "invalid byte sequence for encoding \"UTF8\": 0x00") := by
    intro rest
    have hheld : (around (lib.lower text).toList).contains '\x00' = true := by
      rw [List.contains_eq_mem, decide_eq_true_iff, mem_around (by decide)]
      exact hnul
    simp only [patternAt, textAt, Nat.sub_self, List.getElem?_cons_zero, text_around, hheld]
    rfl
  refine ⟨.exception "invalid byte sequence for encoding \"UTF8\": 0x00", ?_⟩
  simp [listAlbumsForAdminPage, listAlbumsPage, countAlbums, checkCount, whereClause, pure,
    Except.pure, bind, Except.bind, htext, Filter.placeholder, Filter.bind, hpattern]

/-! ## Pages -/

theorem newestFirst_trans (a b c : Album) (hab : newestFirst lib a b = true) (hbc : newestFirst lib b c = true) :
    newestFirst lib a c = true := by
  simp only [newestFirst, Bool.or_eq_true, decide_eq_true_iff, Bool.and_eq_true, beq_iff_eq] at *
  rcases hab with hab | ⟨hab, hidab⟩
  · left
    rcases hbc with hbc | ⟨hbc, -⟩
    · exact hbc.trans hab
    · rwa [← hbc]
  · rcases hbc with hbc | ⟨hbc, hidbc⟩
    · left
      rwa [hab]
    · right
      exact ⟨hab.trans hbc, lib.collation.trans _ _ _ hidbc hidab⟩

theorem newestFirst_total (a b : Album) : (newestFirst lib a b || newestFirst lib b a) = true := by
  simp only [newestFirst, Bool.or_eq_true, decide_eq_true_iff, Bool.and_eq_true, beq_iff_eq]
  have hid := lib.collation.total a.id b.id
  by_cases heq : a.updatedAt = b.updatedAt
  · rcases hid with hid | hid
    · exact .inr (.inr ⟨heq.symm, hid⟩)
    · exact .inl (.inr ⟨heq, hid⟩)
  · rcases lt_or_gt_of_ne heq with hlt | hlt
    · exact .inr (.inl hlt)
    · exact .inl (.inl hlt)

theorem newestFirst_antisymm {a b : Album} (hab : newestFirst lib a b = true) (hba : newestFirst lib b a = true) :
    a.id = b.id := by
  simp only [newestFirst, Bool.or_eq_true, decide_eq_true_iff, Bool.and_eq_true, beq_iff_eq] at hab hba
  rcases hab with hab | ⟨heq, hab⟩
  · rcases hba with hba | ⟨heq, -⟩
    · exact absurd hab hba.asymm
    · exact absurd hab (by simp [heq])
  · rcases hba with hba | ⟨-, hba⟩
    · exact absurd hba (by simp [heq])
    · exact lib.collation.antisymm _ _ hba hab

/-- The order in which the rows are met makes no difference to their order in the answer. -/
theorem mergeSort_perm_eq {rows rows' : List Album} (hunique : (rows.map Album.id).Nodup) (hperm : rows'.Perm rows) :
    rows'.mergeSort (newestFirst lib) = rows.mergeSort (newestFirst lib) := by
  apply List.Perm.eq_of_pairwise _ (List.pairwise_mergeSort newestFirst_trans newestFirst_total rows')
    (List.pairwise_mergeSort newestFirst_trans newestFirst_total rows)
  · exact (List.mergeSort_perm _ _).trans (hperm.trans (List.mergeSort_perm _ _).symm)
  · intro a b ha hb hab hba
    have ha : a ∈ rows := hperm.subset (List.mem_mergeSort.mp ha)
    exact List.inj_on_of_nodup_map hunique ha (List.mem_mergeSort.mp hb) (newestFirst_antisymm hab hba)

/-- So many pages are the first rows, so many times the limit. -/
theorem pages_take (rows : List Album) (limit n : Nat) :
    ((List.range n).flatMap fun k => (rows.drop (k * limit)).take limit) = rows.take (n * limit) := by
  induction n with
  | zero => simp
  | succ n ih => rw [List.range_succ, List.flatMap_append, ih, List.flatMap_singleton, Nat.succ_mul, List.take_add]

/-! ## The specification -/

/-- The lower-cased title contains the lower-cased text, or the id does. -/
def containsText (lib : SearchLib) (text : String) (album : Album) : Bool :=
  (album.title.any fun title => isSubstring (lib.lower text) (lib.sqlLower title)) || isSubstring (lib.lower text) album.id

/-- The pages that are fetched one after the other, each from its own scan of the same table. -/
structure Fetched (lib : SearchLib) (text : String) (scan : Nat → Scan) (limit : Nat) (pages : Nat → AdminPage) : Prop where
  fetched : ∀ k, listAlbumsForAdminPage lib (scan k) (some text) none none limit (k * limit) = .ok (pages k)

/-- They report how many albums are found, hold each of them once, and say which of them is the last. -/
structure Complete (found : List Album) (limit : Nat) (pages : Nat → AdminPage) : Prop where
  total : ∀ k, (pages k).total = found.length
  once : ∀ n, found.length ≤ n * limit → ((List.range n).flatMap fun k => (pages k).items).Perm found
  last : ∀ k, (pages k).items ≠ [] → ((pages k).hasMore = false ↔ (pages (k + 1)).items = [])

/-- The search for the text, in every table: it finds the albums that contain the text, in whole pages. -/
def Literal (lib : SearchLib) (text : String) : Prop :=
  ∀ (table : Table Album.id) (limit : Nat), 0 < limit → ∀ scan : Nat → Scan, (∀ k, (scan k).albums.Perm table.rows) →
    ∃ pages, Fetched lib text scan limit pages ∧ Complete (table.rows.filter (containsText lib text)) limit pages

theorem isSubstring_iff (sub s : String) : isSubstring sub s = true ↔ sub.toList <:+: s.toList := by
  simp [isSubstring, List.infix_iff_prefix_suffix, and_comm]

/-- The pages of what is found. -/
theorem pages_complete {found : List Album} (hunique : (found.map Album.id).Nodup) (hlimit : 0 < limit)
    {rows : Nat → List Album} (hrows : ∀ k, (rows k).Perm found) :
    Complete found limit fun k => pageOf lib (rows k) limit (k * limit) := by
  have hitems : ∀ k, (pageOf lib (rows k) limit (k * limit)).items =
      ((found.mergeSort (newestFirst lib)).drop (k * limit)).take limit := by
    intro k
    rw [pageOf, mergeSort_perm_eq hunique (hrows k)]
  have hlength : ∀ k, (pageOf lib (rows k) limit (k * limit)).items.length = min limit (found.length - k * limit) := by
    intro k
    rw [hitems, List.length_take, List.length_drop, List.length_mergeSort]
  refine ⟨fun k => (hrows k).length_eq, ?_, ?_⟩
  · intro n hn
    simp only [hitems, pages_take]
    rw [List.take_of_length_le (by rwa [List.length_mergeSort])]
    exact List.mergeSort_perm _ _
  · intro k hsome
    have hthis := hlength k
    have hnext := hlength (k + 1)
    have hpositive := List.length_pos_iff.mpr hsome
    have hmore : (pageOf lib (rows k) limit (k * limit)).hasMore =
        decide (k * limit + (pageOf lib (rows k) limit (k * limit)).items.length < found.length) := by
      rw [← (hrows k).length_eq]
      rfl
    rw [hmore, decide_eq_false_iff_not, ← List.length_eq_zero_iff, hthis, hnext, Nat.succ_mul]
    omega

/-- A text without a character that has a meaning, to the pattern or to the database, is found literally. -/
theorem literal_of_plain (hempty : lib.lower "" = "") (hplain : Plain (lib.lower text).toList)
    (hnul : '\x00' ∉ (lib.lower text).toList) : Literal lib text := by
  intro table limit hlimit scan hscan
  have hpage : ∀ k, listAlbumsForAdminPage lib (scan k) (some text) none none limit (k * limit) =
      .ok (pageOf lib ((scan k).albums.filter (containsText lib text)) limit (k * limit)) := by
    intro k
    by_cases htext : text = ""
    · subst htext
      have hall : (scan k).albums.filter (containsText lib "") = (scan k).albums := by
        apply List.filter_eq_self.mpr
        intro album _
        have hid : isSubstring (lib.lower "") album.id = true := by
          rw [isSubstring_iff, hempty]
          exact List.nil_infix
        rw [containsText, hid, Bool.or_true]
      rw [search_empty, hall]
    · have hpieces : pieces (around (lib.lower text).toList) = some (.many :: ((lib.lower text).toList.map .char ++ [.many])) := by
        rw [around, pieces, pieces_plain hplain]
        rfl
      have hsame : ∀ s : String, fits (.many :: ((lib.lower text).toList.map .char ++ [.many])) s.toList =
          isSubstring (lib.lower text) s := by
        intro s
        rw [Bool.eq_iff_iff, fits_around, isSubstring_iff]
      rw [search_pattern htext hnul hpieces]
      simp only [hsame]
      rfl
  refine ⟨_, ⟨hpage⟩, pages_complete (table.unique.sublist (List.filter_sublist.map _)) hlimit fun k => ?_⟩
  exact (hscan k).filter _

/-! ## Where it is not literal -/

/-- An album with an id and nothing else. -/
def albumWithId (id : String) : Album := ⟨id, none, none, none, none, 0, 0, none⟩

def tableWithId (id : String) : Table Album.id := ⟨[albumWithId id], List.nodup_singleton _⟩

namespace Sample

/-- Lower-casing of ASCII text, for both, and the order of the code points. -/
def searchLib : SearchLib where
  lower value := String.ofList (value.toList.map Char.toLower)
  sqlLower value := String.ofList (value.toList.map Char.toLower)
  collation :=
    { le a b := decide (a ≤ b)
      total a b := by simpa using le_total a b
      trans a b c hab hbc := decide_eq_true ((of_decide_eq_true hab).trans (of_decide_eq_true hbc))
      antisymm a b hab hba := (of_decide_eq_true hab).antisymm (of_decide_eq_true hba) }

def trip : Album := ⟨"k3m9", some "Trip to the Beach", none, none, none, 5, 5, none⟩

def trips : Table Album.id := ⟨[trip], List.nodup_singleton _⟩

end Sample

end Imghost.AlbumSearch
