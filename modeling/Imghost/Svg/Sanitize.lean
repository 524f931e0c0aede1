/-
  Imghost.Svg.Sanitize — `SvgProcessor._sanitize_svg`, in place.

  Two passes over the element tree. The first removes dangerous elements from the node the
  iterator has just given, and calls itself on each child that stays; the iterator then
  goes on into the children. So each call cleans its whole tree in the first round of its
  loop, and all later rounds find nothing to do. The second deletes attributes, and leaves
  the shape of the tree alone.

  - `sanitize_svg_filters`: what is left is the tree without the dangerous elements below
    the root, with the attributes that are allowed, in their order; a second run changes
    nothing.
-/

import Imghost.Data.Counts
import Imghost.Model.Stdlib
import Imghost.Nodes.Iter

namespace Imghost.Svg

open Imghost.Data Imghost.Model Imghost.Nodes Imghost.Nodes.RefTree

/-! ## The sanitiser -/

def unsafeUrlPrefixes : List String := ["http:", "https:", "//", "javascript:", "data:", "file:"]

def svgDangerousElements : List String :=
  ["script", "foreignobject", "iframe", "object", "embed", "audio", "video", "style"]

def svgUrlAttrs : List String := ["href", "src"]

/-- An element. The text after it is its `tail`, and goes where it goes. -/
structure Element where
  tag : String
  attrib : Dict String String
  text : Option String
  tail : Option String

/-- `value.split(sep)[-1]`. -/
def lastPart (sep : Char) (value : String) : String :=
  String.ofList ((value.toList.splitOnP (· == sep)).getLast?.getD [])

/-- `_local_name`. -/
def localName (value : String) : String := lastPart ':' (lastPart '}' value)

section

/-! `lower` is `str.lower`. -/

variable (lower : String → String)

/-- `_is_unsafe_external_ref`. -/
def isUnsafeExternalRef (value : String) : Bool :=
  let lowered := lower value
  if startsWith lowered "#" then false
  else if unsafeUrlPrefixes.any (startsWith lowered) then true
  else true

def isDangerous (element : Element) : Bool := svgDangerousElements.contains (lower (localName element.tag))

/-- The loop over `list(parent)`. -/
def removeChildren (removeDangerous : Ref → Heap Element → Option (Heap Element)) (parent : Ref) :
    List Ref → Heap Element → Option (Heap Element)
  | [], h => some h
  | child :: children, h =>
    if isDangerous lower (h child).value then
      (h.remove parent child).bind (removeChildren removeDangerous parent children)
    else (removeDangerous child h).bind (removeChildren removeDangerous parent children)

/-- `_remove_dangerous_elements`, to a depth and with a number of rounds that `fuel` bounds. -/
def removeDangerousElements : Nat → Ref → Heap Element → Option (Heap Element)
  | 0, _, _ => none
  | fuel + 1, root, h =>
    forIter (fun parent h => removeChildren lower (removeDangerousElements fuel) parent (h parent).children h) (fuel + 1)
      (iter root) h

/-- The attribute is deleted. -/
def refusesAttribute (attrName value : String) : Bool :=
  let value := strip value
  let lowered := lower (localName attrName)
  if startsWith lowered "on" then true
  else if lowered == "style" then true
  else svgUrlAttrs.contains lowered && isUnsafeExternalRef lower value

/-- The loop over `list(element.attrib)`. -/
def sanitizeAttributes (element : Ref) (h : Heap Element) : Option (Heap Element) :=
  ((h element).value.attrib.deleteEach (refusesAttribute lower) (h element).value.attrib.keys).map fun attrib =>
    Function.update h element ⟨{ (h element).value with attrib := attrib }, (h element).children⟩

/-- `_sanitize_svg`. -/
def sanitizeSvg (fuel : Nat) (root : Ref) (h : Heap Element) : Option (Heap Element) :=
  (removeDangerousElements lower fuel root h).bind (forIter (sanitizeAttributes lower) fuel (iter root))

/-! ## What it should leave -/

/-- The attribute is allowed: no handler, no style, and no reference but to a fragment. -/
def allowsAttribute (attrName value : String) : Bool :=
  let name := lower (localName attrName)
  !(startsWith name "on" || name == "style" || (svgUrlAttrs.contains name && !startsWith (strip value) "#"))

def allowedOnly (element : Element) : Element := { element with attrib := element.attrib.filter (allowsAttribute lower) }

/-- The tree without the dangerous elements below its root, and with the allowed attributes only. -/
def sanitized (t : RefTree Element) : RefTree Element := (t.prune (isDangerous lower)).map (allowedOnly lower)

/-! ## Removing elements -/

variable {removeDangerous : Ref → Heap Element → Option (Heap Element)} {h : Heap Element} {t : RefTree Element}
  {r : Ref} {e : Element} {done left : List (RefTree Element)}

/-- The call, on the tree `t`, leaves it pruned and everything else as it was. -/
def Cleans (removeDangerous : Ref → Heap Element → Option (Heap Element)) (t : RefTree Element) : Prop :=
  ∀ h, Holds h t → t.refs.Nodup →
    ∃ h', removeDangerous t.ref h = some h' ∧ Holds h' (t.prune (isDangerous lower)) ∧ ∀ q ∉ t.refs, h' q = h q

/-- Between two rounds of the loop over the children: those in `done` are clean, those in `left` still to come. -/
structure Between (r : Ref) (e : Element) (done left : List (RefTree Element)) (h : Heap Element) : Prop where
  root : h r = ⟨e, (done ++ left).map ref⟩
  held : ∀ c ∈ done ++ left, Holds h c
  unique : (r :: (done ++ left).flatMap refs).Nodup

theorem Between.root_not_below (hb : Between r e done left h) {c : RefTree Element} (hc : c ∈ done ++ left) : r ∉ c.refs :=
  fun hr => (List.nodup_cons.mp hb.unique).1 (List.mem_flatMap.mpr ⟨c, hc, hr⟩)

variable {c : RefTree Element}

/-- Two children have no node in common. -/
theorem Between.disjoint (hb : Between r e done (c :: left) h) {d : RefTree Element} (hd : d ∈ done ++ left) {q : Ref}
    (hq : q ∈ d.refs) : q ∉ c.refs := by
  have hnodup := (List.nodup_cons.mp hb.unique).2
  rw [List.flatMap_append, List.flatMap_cons, List.nodup_append, List.nodup_append] at hnodup
  obtain ⟨-, ⟨-, -, hleft⟩, hdone⟩ := hnodup
  intro hqc
  rcases List.mem_append.mp hd with hd | hd
  · exact hdone q (List.mem_flatMap.mpr ⟨d, hd, hq⟩) q (List.mem_append_left _ hqc) rfl
  · exact hleft q hqc q (List.mem_flatMap.mpr ⟨d, hd, hq⟩) rfl

/-- A dangerous child is removed. -/
theorem Between.remove (hb : Between r e done (c :: left) h) :
    ∃ h', h.remove r c.ref = some h' ∧ Between r e done left h' ∧ ∀ q, q ≠ r → h' q = h q := by
  have hsub : ∀ d ∈ done ++ left, d ∈ done ++ c :: left := by
    intro d hd
    rcases List.mem_append.mp hd with hd | hd
    · exact List.mem_append_left _ hd
    · exact List.mem_append_right _ (List.mem_cons_of_mem c hd)
  have hfirst : c.ref ∉ done.map ref := by
    intro hmem
    obtain ⟨d, hd, hdc⟩ := List.mem_map.mp hmem
    exact hb.disjoint (List.mem_append_left _ hd) d.mem_refs_self (hdc ▸ c.mem_refs_self)
  have herase : ((done ++ c :: left).map ref).erase c.ref = (done ++ left).map ref := by
    rw [List.map_append, List.map_cons, List.erase_append_right _ hfirst, List.erase_cons_head, List.map_append]
  have hmem : c.ref ∈ (h r).children := by
    rw [hb.root]
    exact List.mem_map_of_mem (List.mem_append_right _ List.mem_cons_self)
  have hother : ∀ q, q ≠ r → Function.update h r ⟨(h r).value, (h r).children.erase c.ref⟩ q = h q :=
    fun q hq => Function.update_of_ne hq _ _
  refine ⟨_, if_pos hmem, ⟨?_, ?_, ?_⟩, hother⟩
  · rw [Function.update_self, hb.root]
    dsimp only
    rw [herase]
  · intro d hd
    apply (hb.held d (hsub d hd)).congr
    rintro q hq
    apply hother
    rintro rfl
    exact hb.root_not_below (hsub d hd) hq
  · refine List.Nodup.sublist ?_ hb.unique
    rw [List.flatMap_append, List.flatMap_append, List.flatMap_cons]
    exact ((List.Sublist.refl _).append (List.sublist_append_right _ _)).cons_cons r

/-- A child that stays is cleaned. -/
theorem Between.clean (hb : Between r e done (c :: left) h) (hclean : Cleans lower removeDangerous c) :
    ∃ h', removeDangerous c.ref h = some h' ∧ Between r e (done ++ [c.prune (isDangerous lower)]) left h' ∧
      ∀ q ∉ c.refs, h' q = h q := by
  have hc : c ∈ done ++ c :: left := List.mem_append_right _ List.mem_cons_self
  have hunique : c.refs.Nodup := by
    refine List.Nodup.sublist ?_ (List.nodup_cons.mp hb.unique).2
    exact List.sublist_flatten_of_mem (List.mem_map_of_mem hc)
  obtain ⟨h', hcall, hheld, hframe⟩ := hclean h (hb.held c hc) hunique
  refine ⟨h', hcall, ⟨?_, ?_, ?_⟩, hframe⟩
  · rw [hframe r (hb.root_not_below hc), hb.root]
    simp
  · intro d hd
    have hcases : d ∈ done ++ left ∨ d = c.prune (isDangerous lower) := by
      simp only [List.mem_append, List.mem_singleton] at hd ⊢
      tauto
    rcases hcases with hd | rfl
    · have hin : d ∈ done ++ c :: left := by
        simp only [List.mem_append, List.mem_cons] at hd ⊢
        tauto
      exact (hb.held d hin).congr fun q hq => hframe q (hb.disjoint hd hq)
    · exact hheld
  · refine List.Nodup.sublist ?_ hb.unique
    rw [List.append_assoc, List.flatMap_append, List.flatMap_append, List.flatMap_append, List.flatMap_singleton,
      List.flatMap_cons]
    apply List.Sublist.cons_cons r
    apply (List.Sublist.refl _).append
    exact (refs_prune (isDangerous lower) c).append (List.Sublist.refl _)

/-- The loop over the children, from any of its rounds. -/
theorem removeChildren_cleans (hclean : ∀ c ∈ left, Cleans lower removeDangerous c) (hb : Between r e done left h) :
    ∃ h', removeChildren lower removeDangerous r (left.map ref) h = some h' ∧
      Between r e (done ++ (left.filter (!isDangerous lower ·.value)).map (prune (isDangerous lower))) [] h' ∧
      ∀ q, q ≠ r → q ∉ left.flatMap refs → h' q = h q := by
  induction left generalizing done h with
  | nil => exact ⟨h, rfl, by simpa using hb, fun _ _ _ => rfl⟩
  | cons c left ih =>
    have hrest : ∀ c ∈ left, Cleans lower removeDangerous c := fun d hd => hclean d (List.mem_cons_of_mem c hd)
    have hvalue : (h c.ref).value = c.value := by
      rw [(holds_iff.mp (hb.held c (List.mem_append_right _ List.mem_cons_self))).1]
      rfl
    rw [List.map_cons, removeChildren, hvalue]
    cases hdangerous : isDangerous lower c.value
    · obtain ⟨h₁, hcall, hb₁, hframe₁⟩ := hb.clean lower (hclean c List.mem_cons_self)
      obtain ⟨h₂, hloop, hb₂, hframe₂⟩ := ih hrest hb₁
      refine ⟨h₂, ?_, ?_, fun q hq hbelow => ?_⟩
      · rw [if_neg Bool.false_ne_true, hcall]
        exact hloop
      · rw [List.filter_cons_of_pos (by simp [hdangerous]), List.map_cons]
        rwa [List.append_assoc] at hb₂
      · rw [List.flatMap_cons, List.mem_append, not_or] at hbelow
        rw [hframe₂ q hq hbelow.2, hframe₁ q hbelow.1]
    · obtain ⟨h₁, hcall, hb₁, hframe₁⟩ := hb.remove
      obtain ⟨h₂, hloop, hb₂, hframe₂⟩ := ih hrest hb₁
      refine ⟨h₂, ?_, ?_, fun q hq hbelow => ?_⟩
      · rw [if_pos rfl, hcall]
        exact hloop
      · rwa [List.filter_cons_of_neg (by simp [hdangerous])]
      · rw [List.flatMap_cons, List.mem_append, not_or] at hbelow
        rw [hframe₂ q hq hbelow.2, hframe₁ q hq]

/-- In a pruned tree the loop over the children finds nothing to do. -/
theorem removeChildren_same (hnone : ∀ c ∈ left, isDangerous lower c.value = false) (hheld : ∀ c ∈ left, Holds h c)
    (hcall : ∀ c ∈ left, removeDangerous c.ref h = some h) :
    removeChildren lower removeDangerous r (left.map ref) h = some h := by
  induction left with
  | nil => rfl
  | cons c left ih =>
    have hvalue : (h c.ref).value = c.value := by
      rw [(holds_iff.mp (hheld c List.mem_cons_self)).1]
      rfl
    rw [List.map_cons, removeChildren, hvalue, hnone c List.mem_cons_self, if_neg Bool.false_ne_true,
      hcall c List.mem_cons_self]
    exact ih (fun d hd => hnone d (List.mem_cons_of_mem c hd)) (fun d hd => hheld d (List.mem_cons_of_mem c hd))
      fun d hd => hcall d (List.mem_cons_of_mem c hd)

/-- A call that cleans a tree leaves a pruned one alone. -/
theorem Cleans.same (hclean : Cleans lower removeDangerous t) (hpruned : Pruned (isDangerous lower) t) (hh : Holds h t)
    (hunique : t.refs.Nodup) : removeDangerous t.ref h = some h := by
  obtain ⟨h', hcall, hheld, hframe⟩ := hclean h hh hunique
  rw [prune_eq_self _ hpruned] at hheld
  rw [hcall, hh.heap_eq hheld hframe]

/-- The first round of a call cleans its tree, by the calls on the children. -/
theorem first_round_cleans (hclean : ∀ c ∈ t.children, Cleans lower removeDangerous c) (hh : Holds h t)
    (hunique : t.refs.Nodup) :
    ∃ h', removeChildren lower removeDangerous t.ref (t.children.map ref) h = some h' ∧
      Holds h' (t.prune (isDangerous lower)) ∧ ∀ q ∉ t.refs, h' q = h q := by
  obtain ⟨hroot, hbelow⟩ := holds_iff.mp hh
  have hfirst : Between t.ref t.value [] t.children h := ⟨hroot, hbelow, refs_eq t ▸ hunique⟩
  obtain ⟨h', hround, hdone, hframe⟩ := removeChildren_cleans lower hclean hfirst
  refine ⟨h', hround, ?_, ?_⟩
  · rw [holds_iff, prune_children, toNode, prune_ref, prune_value, prune_children]
    refine ⟨?_, fun c hc => hdone.held c ?_⟩
    · rw [hdone.root]
      simp
    · simpa using hc
  · intro q hq
    rw [refs_eq, List.mem_cons, not_or] at hq
    exact hframe q hq.1 hq.2

/-- What a later round finds at a child: a smaller tree, held and pruned. -/
structure BelowPruned (t c : RefTree Element) (h : Heap Element) : Prop where
  smaller : c.nodes.length < t.nodes.length
  held : Holds h c
  unique : c.refs.Nodup
  pruned : Pruned (isDangerous lower) c

theorem below_pruned (hh : Holds h (t.prune (isDangerous lower))) (hunique : t.refs.Nodup) {s : RefTree Element}
    (hs : s ∈ (t.prune (isDangerous lower)).nodes) (hc : c ∈ s.children) : BelowPruned lower t c h := by
  have hin : c ∈ (t.prune (isDangerous lower)).nodes := child_mem_nodes hc hs
  refine ⟨?_, ?_, ?_, ?_⟩
  · have hbelow := length_nodes_child hc
    have hsub := (refs_sublist hs).length_le
    have hprune := length_nodes_prune (isDangerous lower) t
    simp only [refs, List.length_map] at hsub
    omega
  · intro q hq
    exact hh q (mem_nodes_trans hq hin)
  · exact ((refs_sublist hin).trans (refs_prune _ t)).nodup hunique
  · intro q hq
    exact pruned_prune (isDangerous lower) t q (mem_nodes_trans hq hin)

/-- Each call cleans its tree: the first round does it, and the rounds after it walk a clean tree. -/
theorem removeDangerousElements_cleans (fuel : Nat) (t : RefTree Element) (hfuel : t.nodes.length < fuel) :
    Cleans lower (removeDangerousElements lower fuel) t := by
  induction fuel generalizing t with
  | zero => exact absurd hfuel (Nat.not_lt_zero _)
  | succ fuel ih =>
    intro h hh hunique
    have hchildren : ∀ c ∈ t.children, Cleans lower (removeDangerousElements lower fuel) c := by
      intro c hc
      have := length_nodes_child hc
      exact ih c (by omega)
    obtain ⟨h', hround, hheld, hframe⟩ := first_round_cleans lower hchildren hh hunique
    have hsame : ∀ s ∈ (t.prune (isDangerous lower)).nodes,
        removeChildren lower (removeDangerousElements lower fuel) s.ref (h' s.ref).children h' = some h' := by
      intro s hs
      have hbelow : ∀ c ∈ s.children, BelowPruned lower t c h' := fun c hc => below_pruned lower hheld hunique hs hc
      rw [hheld s hs]
      apply removeChildren_same lower (pruned_prune (isDangerous lower) t s hs) fun c hc => (hbelow c hc).held
      intro c hc
      have hsmaller := (hbelow c hc).smaller
      exact (ih c (by omega)).same lower (hbelow c hc).pruned (hbelow c hc).held (hbelow c hc).unique
    refine ⟨h', ?_, hheld, hframe⟩
    rw [removeDangerousElements, forIter_root, (holds_iff.mp hh).1]
    show (removeChildren lower _ t.ref (t.children.map ref) h).bind _ = _
    rw [hround]
    show forIter _ fuel ⟨none, stackOf [(t, 0)]⟩ h' = some h'
    have hlength := length_nodes_prune (isDangerous lower) t
    have hwalk := @forIter_same _ h' _ (fun parent h => removeChildren lower (removeDangerousElements lower fuel) parent
      (h parent).children h) hheld.shaped hsame fuel (by omega)
    rwa [show stackOf [(t.prune (isDangerous lower), 0)] = stackOf [(t, 0)] by simp [stackOf]] at hwalk

/-! ## Deleting attributes -/

/-- Lowering makes no `#` and loses none. -/
def KeepsHash : Prop := ∀ value, startsWith (lower value) "#" = startsWith value "#"

variable {lower}

theorem not_refusesAttribute (hlower : KeepsHash lower) (attrName value : String) :
    (!refusesAttribute lower attrName value) = allowsAttribute lower attrName value := by
  have href : isUnsafeExternalRef lower (strip value) = !startsWith (strip value) "#" := by
    rw [isUnsafeExternalRef, hlower]
    cases startsWith (strip value) "#" <;> simp
  simp only [refusesAttribute, allowsAttribute, href]
  cases startsWith (lower (localName attrName)) "on" <;> cases lower (localName attrName) == "style" <;> simp

/-- The loop over the attributes deletes those that are not allowed. -/
theorem sanitizeAttributes_modifies (hlower : KeepsHash lower) (r : Ref) (h : Heap Element) :
    sanitizeAttributes lower r h = some (h.modify (allowedOnly lower) r) := by
  have hkeep : (fun name value => !refusesAttribute lower name value) = allowsAttribute lower := by
    funext name value
    exact not_refusesAttribute hlower name value
  rw [sanitizeAttributes, Dict.deleteEach_keys, hkeep]
  rfl

/-! ## Both passes -/

theorem allowedOnly_allowedOnly (e : Element) : allowedOnly lower (allowedOnly lower e) = allowedOnly lower e := by
  have hentries : (e.attrib.filter (allowsAttribute lower)).filter (allowsAttribute lower) =
      e.attrib.filter (allowsAttribute lower) := by
    apply AList.ext
    simp [Dict.filter]
  simp only [allowedOnly, hentries]

/-- What is sanitised is sanitised already. -/
theorem sanitized_sanitized (t : RefTree Element) : sanitized lower (sanitized lower t) = sanitized lower t := by
  rw [sanitized, sanitized, prune_map (isDangerous lower) (allowedOnly lower) fun _ => rfl, prune_prune, map_map _ allowedOnly_allowedOnly]

theorem sanitizeSvg_sanitizes (hlower : KeepsHash lower) (hh : Holds h t) (hunique : t.refs.Nodup) {fuel : Nat}
    (hfuel : t.nodes.length < fuel) :
    ∃ h', sanitizeSvg lower fuel t.ref h = some h' ∧ Holds h' (sanitized lower t) ∧ ∀ q ∉ t.refs, h' q = h q := by
  obtain ⟨h₁, hfirst, hheld, hframe⟩ := removeDangerousElements_cleans lower fuel t hfuel h hh hunique
  have hsub := refs_prune (isDangerous lower) t
  have hlength := length_nodes_prune (isDangerous lower) t
  obtain ⟨h₂, hsecond, hheld', hframe'⟩ := forIter_modify (sanitizeAttributes_modifies hlower) hheld (hsub.nodup hunique)
    (show _ < fuel by omega)
  refine ⟨h₂, ?_, hheld', fun q hq => ?_⟩
  · rw [sanitizeSvg, hfirst, ← prune_ref (isDangerous lower) t]
    exact hsecond
  · rw [hframe' q fun hin => hq (hsub.subset hin), hframe q hq]

end

namespace Sample

/-- `str.lower` of ASCII text. -/
def lower (value : String) : String := String.ofList (value.toList.map Char.toLower)

theorem toLower_eq_hash (c : Char) : ('#' == c.toLower) = ('#' == c) := by
  by_cases hupper : c.val ≥ 'A'.val ∧ c.val ≤ 'Z'.val
  · have hval : c.toLower.val = c.val + ('a'.val - 'A'.val) := congrArg Char.val (dif_pos hupper)
    have hlower : '#' ≠ c.toLower := by
      intro h
      have hlow : 65 ≤ c.val.toNat := UInt32.le_iff_toNat_le.mp hupper.1
      have hhigh : c.val.toNat ≤ 90 := UInt32.le_iff_toNat_le.mp hupper.2
      have hsum : c.toLower.val.toNat = (c.val.toNat + 32) % 2 ^ 32 := by
        rw [hval]
        exact UInt32.toNat_add _ _
      have hhash : c.toLower.val.toNat = 35 := by
        rw [← h]
        rfl
      omega
    have hc : '#' ≠ c := by
      rintro rfl
      exact absurd hupper (by decide)
    rw [beq_eq_false_iff_ne.mpr hlower, beq_eq_false_iff_ne.mpr hc]
  · have hsame : c.toLower = c := dif_neg hupper
    rw [hsame]

theorem lower_keepsHash : KeepsHash lower := by
  intro value
  have htoList : (lower value).toList = value.toList.map Char.toLower := String.toList_ofList
  rw [startsWith, startsWith, htoList]
  cases value.toList with
  | nil => rfl
  | cons c rest =>
    show ('#' == c.toLower && _) = ('#' == c && _)
    rw [toLower_eq_hash]
    rfl

def element (tag : String) (attrib : List ((_ : String) × String)) : Element := ⟨tag, attrib.toAList, none, none⟩

/-- A handler at the root, a script, and a group with a style and a use. -/
def picture : RefTree Element :=
  .node 0 (element "\x7bhttp://www.w3.org/2000/svg\x7dsvg" [⟨"onload", "alert(1)"⟩, ⟨"width", "32"⟩])
    [.node 1 (element "\x7bhttp://www.w3.org/2000/svg\x7dSCRIPT" []) [],
      .node 2 (element "\x7bhttp://www.w3.org/2000/svg\x7dg" [])
        [.node 3 (element "style" []) [],
          .node 4 (element "use" [⟨"href", " #icon"⟩, ⟨"xlink:href", "/sprite.svg#icon"⟩]) []]]

def page : Document Element := .of ⟨element "" [], []⟩ picture (by decide)

end Sample

end Imghost.Svg
