/-
  Imghost.Svg.Revisits — the calls of `_remove_dangerous_elements` that one call makes.

  A call walks all elements below the one it was given, and at each of them calls itself on
  every child that stays. The call on a child has by then walked that child's elements
  already, and the iterator goes on into the child and walks them once more. So an element
  that stays, one level further down, is the argument twice as often.

  - `removeDangerousCalls_visits`: the calls, in their order, as a function of the tree that is left.
  - `count_visits_level`: the argument `2 ^ d` times, `d` levels below a child of the root.
  - `calls_distinct_iff`: no element is the argument twice exactly when no child of the root
    that stays has a child that stays.
  - `a_shape_in_two_groups_is_visited_four_times`: a shape in a group in a group in the picture.
-/

import Imghost.Svg.Sanitize

namespace Imghost.Svg

open Imghost.Nodes Imghost.Nodes.RefTree

/-! ## The calls -/

section

variable (lower : String → String)

/-- The loop over `list(parent)`, and the calls it makes. -/
def removeChildrenCalls (removeDangerous : Ref → Heap Element → Option (Heap Element × List Ref)) (parent : Ref) :
    List Ref → Heap Element → Option (Heap Element × List Ref)
  | [], h => some (h, [])
  | child :: children, h =>
    if isDangerous lower (h child).value then
      (h.remove parent child).bind (removeChildrenCalls removeDangerous parent children)
    else (removeDangerous child h).bind fun call =>
      (removeChildrenCalls removeDangerous parent children call.1).map fun rest => (rest.1, call.2 ++ rest.2)

/-- `_remove_dangerous_elements`, and the arguments of its calls: its own, then those of the calls it makes. -/
def removeDangerousCalls : Nat → Ref → Heap Element → Option (Heap Element × List Ref)
  | 0, _, _ => none
  | fuel + 1, root, h =>
    (forIterTraced (fun parent h => removeChildrenCalls lower (removeDangerousCalls fuel) parent (h parent).children h)
      (fuel + 1) (iter root) h).map fun rounds => (rounds.1, root :: rounds.2)

end

/-! ## The calls on a tree nothing is removed from -/

section

variable {α : Type}

mutual

/-- The calls: those of the first round, on the children, then those of the rounds below each child. -/
def visits : RefTree α → List Ref
  | .node r _ cs => r :: (firstVisits cs ++ laterVisits cs)

def firstVisits : List (RefTree α) → List Ref
  | [] => []
  | t :: ts => visits t ++ firstVisits ts

/-- The rounds below a child make the calls again that the call on the child made. -/
def laterVisits : List (RefTree α) → List Ref
  | [] => []
  | t :: ts => (visits t).tail ++ laterVisits ts

end

theorem firstVisits_eq (ts : List (RefTree α)) : firstVisits ts = ts.flatMap visits := by
  induction ts with
  | nil => rfl
  | cons t ts ih => rw [firstVisits, ih, List.flatMap_cons]

theorem laterVisits_eq (ts : List (RefTree α)) : laterVisits ts = ts.flatMap fun c => (visits c).tail := by
  induction ts with
  | nil => rfl
  | cons t ts ih => rw [laterVisits, ih, List.flatMap_cons]

theorem visits_eq (t : RefTree α) :
    visits t = t.ref :: (t.children.flatMap visits ++ t.children.flatMap fun c => (visits c).tail) := by
  cases t with
  | node r a cs =>
    rw [visits, firstVisits_eq, laterVisits_eq]
    rfl

/-- One call for each child, in the round of each node. -/
theorem tail_visits (t : RefTree α) : (visits t).tail = t.nodes.flatMap fun s => s.children.flatMap visits := by
  induction t with
  | node r a cs ih =>
    have hlater : (cs.flatMap fun c => (visits c).tail) = (cs.flatMap nodes).flatMap fun s => s.children.flatMap visits := by
      rw [List.flatMap_assoc]
      exact List.flatMap_congr ih
    rw [visits_eq, List.tail_cons, nodes_eq, List.flatMap_cons, children, hlater]

theorem visits_subset (t : RefTree α) : visits t ⊆ t.refs := by
  induction t with
  | node r a cs ih =>
    intro q hq
    rw [visits_eq, List.mem_cons, List.mem_append, List.mem_flatMap, List.mem_flatMap] at hq
    rcases hq with rfl | ⟨c, hc, hq⟩ | ⟨c, hc, hq⟩
    · exact mem_refs_self _
    · exact refs_subset_of_child hc (ih c hc hq)
    · exact refs_subset_of_child hc (ih c hc (List.mem_of_mem_tail hq))

/-- A node is counted in the part of its own tree only. -/
theorem count_flatMap_refs {ts : List (RefTree α)} {f : RefTree α → List Ref} (hsub : ∀ c, f c ⊆ c.refs)
    (hunique : (ts.flatMap refs).Nodup) {c : RefTree α} (hc : c ∈ ts) {q : Ref} (hq : q ∈ c.refs) :
    (ts.flatMap f).count q = (f c).count q := by
  induction ts with
  | nil => cases hc
  | cons d ts ih =>
    rw [List.flatMap_cons, List.nodup_append] at hunique
    obtain ⟨-, hrest, hdisjoint⟩ := hunique
    rw [List.flatMap_cons, List.count_append]
    rcases List.mem_cons.mp hc with rfl | hc
    · have hnot : q ∉ ts.flatMap f := by
        intro hin
        obtain ⟨d, hd, hqd⟩ := List.mem_flatMap.mp hin
        exact hdisjoint q hq q (List.mem_flatMap.mpr ⟨d, hd, hsub d hqd⟩) rfl
      rw [List.count_eq_zero_of_not_mem hnot, Nat.add_zero]
    · have hnot : q ∉ f d := by
        intro hin
        exact hdisjoint q (hsub d hin) q (List.mem_flatMap.mpr ⟨c, hc, hq⟩) rfl
      rw [List.count_eq_zero_of_not_mem hnot, Nat.zero_add, ih hrest hc]

/-- The trees so many levels down. -/
def level : Nat → RefTree α → List (RefTree α)
  | 0, t => [t]
  | d + 1, t => t.children.flatMap (level d)

theorem mem_nodes_of_level {d : Nat} {s t : RefTree α} (hs : s ∈ level d t) : s ∈ t.nodes := by
  induction d generalizing t with
  | zero =>
    obtain rfl := List.mem_singleton.mp hs
    exact s.mem_nodes_self
  | succ d ih =>
    obtain ⟨c, hc, hs⟩ := List.mem_flatMap.mp hs
    exact mem_nodes.mpr (.inr ⟨c, hc, ih hs⟩)

/-- The root is visited once. -/
theorem count_visits_root {t : RefTree α} (hunique : t.refs.Nodup) : (visits t).count t.ref = 1 := by
  rw [refs_eq, List.nodup_cons] at hunique
  have hnot : t.ref ∉ t.children.flatMap visits ++ t.children.flatMap fun c => (visits c).tail := by
    intro hin
    apply hunique.1
    rcases List.mem_append.mp hin with hin | hin
    · obtain ⟨c, hc, hr⟩ := List.mem_flatMap.mp hin
      exact List.mem_flatMap.mpr ⟨c, hc, visits_subset c hr⟩
    · obtain ⟨c, hc, hr⟩ := List.mem_flatMap.mp hin
      exact List.mem_flatMap.mpr ⟨c, hc, visits_subset c (List.mem_of_mem_tail hr)⟩
  rw [visits_eq, List.count_cons_self, List.count_eq_zero_of_not_mem hnot]

/-- A node below a child is visited by the call on the child, and again by the rounds below the child. -/
theorem count_visits_child {c t : RefTree α} (hunique : t.refs.Nodup) (hc : c ∈ t.children) {q : Ref} (hq : q ∈ c.refs) :
    (visits t).count q = (visits c).count q + (visits c).tail.count q := by
  rw [refs_eq, List.nodup_cons] at hunique
  have hne : t.ref ≠ q := by
    intro h
    exact hunique.1 (h ▸ List.mem_flatMap.mpr ⟨c, hc, hq⟩)
  have htail : ∀ c : RefTree α, (visits c).tail ⊆ c.refs := fun c _ hr => visits_subset c (List.mem_of_mem_tail hr)
  rw [visits_eq, List.count_cons_of_ne hne, List.count_append, count_flatMap_refs visits_subset hunique.2 hc hq,
    count_flatMap_refs htail hunique.2 hc hq]

/-- Each level down doubles the number of visits. -/
theorem count_visits_level {d : Nat} {s t : RefTree α} (hunique : t.refs.Nodup) (hs : s ∈ level (d + 1) t) :
    (visits t).count s.ref = 2 ^ d := by
  induction d generalizing t with
  | zero =>
    obtain ⟨c, hc, hs⟩ := List.mem_flatMap.mp hs
    obtain rfl := List.mem_singleton.mp hs
    have hchild : s.refs.Nodup := (refs_sublist (child_mem_nodes hc t.mem_nodes_self)).nodup hunique
    have hroot := count_visits_root hchild
    rw [visits_eq, List.count_cons_self] at hroot
    rw [count_visits_child hunique hc s.mem_refs_self, count_visits_root hchild, visits_eq s, List.tail_cons]
    omega
  | succ d ih =>
    obtain ⟨c, hc, hs⟩ := List.mem_flatMap.mp hs
    have hchild : c.refs.Nodup := (refs_sublist (child_mem_nodes hc t.mem_nodes_self)).nodup hunique
    have hcount := ih hchild hs
    have hne : c.ref ≠ s.ref := by
      intro h
      have hlow := hchild
      rw [refs_eq, List.nodup_cons] at hlow
      obtain ⟨b, hb, hs⟩ := List.mem_flatMap.mp hs
      exact hlow.1 (List.mem_flatMap.mpr ⟨b, hb, h ▸ List.mem_map_of_mem (mem_nodes_of_level hs)⟩)
    have htail : (visits c).tail.count s.ref = 2 ^ d := by
      rw [visits_eq, List.count_cons_of_ne hne] at hcount
      rwa [visits_eq, List.tail_cons]
    have hin : s.ref ∈ c.refs := List.mem_map_of_mem (mem_nodes_of_level hs)
    rw [count_visits_child hunique hc hin, hcount, htail, Nat.pow_succ]
    omega

end

/-! ## The calls on a document -/

section

variable {lower : String → String}
  {removeDangerous : Ref → Heap Element → Option (Heap Element)}
  {removeDangerousTraced : Ref → Heap Element → Option (Heap Element × List Ref)}
  {h : Heap Element} {t : RefTree Element} {r : Ref} {e : Element} {done left : List (RefTree Element)}

/-- What is written down is no business of the loop. -/
theorem removeChildrenCalls_erase (herase : ∀ r h, (removeDangerousTraced r h).map Prod.fst = removeDangerous r h) (r : Ref)
    (children : List Ref) (h : Heap Element) :
    (removeChildrenCalls lower removeDangerousTraced r children h).map Prod.fst =
      removeChildren lower removeDangerous r children h := by
  induction children generalizing h with
  | nil => rfl
  | cons child children ih =>
    rw [removeChildrenCalls, removeChildren]
    cases isDangerous lower (h child).value
    · have hcall := herase child h
      rw [if_neg Bool.false_ne_true, if_neg Bool.false_ne_true, ← hcall]
      rcases removeDangerousTraced child h with _ | ⟨h', calls⟩
      · rfl
      · simp [← ih, Function.comp_def]
    · rw [if_pos rfl, if_pos rfl]
      rcases h.remove r child with _ | h'
      · rfl
      · exact ih h'

/-- The traced function is the function. -/
theorem removeDangerousCalls_erase (fuel : Nat) (r : Ref) (h : Heap Element) :
    (removeDangerousCalls lower fuel r h).map Prod.fst = removeDangerousElements lower fuel r h := by
  induction fuel generalizing r h with
  | zero => rfl
  | succ fuel ih =>
    have hround : ∀ parent h, (removeChildrenCalls lower (removeDangerousCalls lower fuel) parent (h parent).children h).map Prod.fst =
        removeChildren lower (removeDangerousElements lower fuel) parent (h parent).children h :=
      fun parent h => removeChildrenCalls_erase ih parent (h parent).children h
    have hbody := forIterTraced_erase hround (fuel + 1) (iter r) h
    rw [removeDangerousCalls, removeDangerousElements, ← hbody, Option.map_map]
    rfl

/-- The call makes the calls on what is left of the tree `t`. -/
def Visits (lower : String → String) (removeDangerousTraced : Ref → Heap Element → Option (Heap Element × List Ref))
    (t : RefTree Element) : Prop :=
  ∀ h h', Holds h t → t.refs.Nodup → (removeDangerousTraced t.ref h).map Prod.fst = some h' →
    removeDangerousTraced t.ref h = some (h', visits (t.prune (isDangerous lower)))

/-- The loop over the children calls on each child that stays. -/
theorem removeChildrenCalls_visits (herase : ∀ r h, (removeDangerousTraced r h).map Prod.fst = removeDangerous r h)
    (hclean : ∀ c ∈ left, Cleans lower removeDangerous c) (hvisit : ∀ c ∈ left, Visits lower removeDangerousTraced c)
    (hb : Between r e done left h) :
    removeChildrenCalls lower removeDangerousTraced r (left.map ref) h =
      (removeChildren lower removeDangerous r (left.map ref) h).map fun h' =>
        (h', ((left.filter (!isDangerous lower ·.value)).map (prune (isDangerous lower))).flatMap visits) := by
  induction left generalizing done h with
  | nil => rfl
  | cons c left ih =>
    have hcleanRest : ∀ c ∈ left, Cleans lower removeDangerous c := fun d hd => hclean d (List.mem_cons_of_mem c hd)
    have hvisitRest : ∀ c ∈ left, Visits lower removeDangerousTraced c := fun d hd => hvisit d (List.mem_cons_of_mem c hd)
    have hheld : Holds h c := hb.held c (List.mem_append_right _ List.mem_cons_self)
    have hvalue : (h c.ref).value = c.value := by
      rw [(holds_iff.mp hheld).1]
      rfl
    rw [List.map_cons, removeChildrenCalls, removeChildren, hvalue]
    cases hdangerous : isDangerous lower c.value
    · obtain ⟨h₁, hcall, hb₁, -⟩ := hb.clean lower (hclean c List.mem_cons_self)
      have hunique : c.refs.Nodup := by
        refine List.Nodup.sublist ?_ (List.nodup_cons.mp hb.unique).2
        exact List.sublist_flatten_of_mem (List.mem_map_of_mem (List.mem_append_right _ List.mem_cons_self))
      have htraced := hvisit c List.mem_cons_self h h₁ hheld hunique ((herase c.ref h).trans hcall)
      rw [if_neg Bool.false_ne_true, if_neg Bool.false_ne_true, htraced, hcall,
        List.filter_cons_of_pos (by simp [hdangerous]), List.map_cons, List.flatMap_cons]
      simp only [Option.bind_some, ih hcleanRest hvisitRest hb₁, Option.map_map]
      rfl
    · obtain ⟨h₁, hcall, hb₁, -⟩ := hb.remove
      rw [if_pos rfl, if_pos rfl, hcall, List.filter_cons_of_neg (by simp [hdangerous])]
      exact ih hcleanRest hvisitRest hb₁

/-- In a pruned tree the loop calls on every child. -/
theorem removeChildrenCalls_same (hnone : ∀ c ∈ left, isDangerous lower c.value = false) (hheld : ∀ c ∈ left, Holds h c)
    (hcall : ∀ c ∈ left, removeDangerousTraced c.ref h = some (h, visits c)) :
    removeChildrenCalls lower removeDangerousTraced r (left.map ref) h = some (h, left.flatMap visits) := by
  induction left with
  | nil => rfl
  | cons c left ih =>
    have hvalue : (h c.ref).value = c.value := by
      rw [(holds_iff.mp (hheld c List.mem_cons_self)).1]
      rfl
    have hrest := ih (fun d hd => hnone d (List.mem_cons_of_mem c hd)) (fun d hd => hheld d (List.mem_cons_of_mem c hd))
      fun d hd => hcall d (List.mem_cons_of_mem c hd)
    rw [List.map_cons, removeChildrenCalls, hvalue, hnone c List.mem_cons_self, if_neg Bool.false_ne_true,
      hcall c List.mem_cons_self, Option.bind_some, hrest]
    rfl

/-- The first round makes the calls on the children, the later rounds those below each child. -/
theorem removeDangerousCalls_visits (fuel : Nat) (t : RefTree Element) (hfuel : t.nodes.length < fuel) :
    Visits lower (removeDangerousCalls lower fuel) t := by
  induction fuel generalizing t with
  | zero => exact absurd hfuel (Nat.not_lt_zero _)
  | succ fuel ih =>
    intro h hend hh hunique herased
    have hsmaller : ∀ c ∈ t.children, c.nodes.length < fuel := by
      intro c hc
      have := length_nodes_child hc
      omega
    have hclean : ∀ c ∈ t.children, Cleans lower (removeDangerousElements lower fuel) c :=
      fun c hc => removeDangerousElements_cleans lower fuel c (hsmaller c hc)
    obtain ⟨hroot, hbelow⟩ := holds_iff.mp hh
    have hfirst : Between t.ref t.value [] t.children h := ⟨hroot, hbelow, refs_eq t ▸ hunique⟩
    obtain ⟨h', hround, hheld, hframe⟩ := first_round_cleans lower hclean hh hunique
    have hcalls := removeChildrenCalls_visits (removeDangerousCalls_erase fuel) hclean (fun c hc => ih c (hsmaller c hc)) hfirst
    rw [hround, ← prune_children] at hcalls
    -- The rounds below the root find a pruned tree, and call on every child in it.
    have hlater : ∀ s ∈ (t.prune (isDangerous lower)).nodes,
        removeChildrenCalls lower (removeDangerousCalls lower fuel) s.ref (h' s.ref).children h' =
          some (h', s.children.flatMap visits) := by
      intro s hs
      have hin : ∀ c ∈ s.children, BelowPruned lower t c h' := fun c hc => below_pruned lower hheld hunique hs hc
      rw [hheld s hs]
      apply removeChildrenCalls_same (pruned_prune (isDangerous lower) t s hs) fun c hc => (hin c hc).held
      intro c hc
      obtain ⟨hlength, hheldc, huniquec, hprunedc⟩ := hin c hc
      have hsame := (removeDangerousElements_cleans lower fuel c (by omega)).same lower hprunedc hheldc huniquec
      have hvisit := ih c (by omega) h' h' hheldc huniquec ((removeDangerousCalls_erase fuel _ _).trans hsame)
      rwa [prune_eq_self _ hprunedc] at hvisit
    have hlength := length_nodes_prune (isDangerous lower) t
    have hwalk := @forIterTraced_same _ h' _ _
      (fun parent h => removeChildrenCalls lower (removeDangerousCalls lower fuel) parent (h parent).children h) _
      hheld.shaped hlater fuel (by omega)
    rw [show stackOf [(t.prune (isDangerous lower), 0)] = stackOf [(t, 0)] by simp [stackOf]] at hwalk
    have hrun : removeDangerousCalls lower (fuel + 1) t.ref h = some (h', visits (t.prune (isDangerous lower))) := by
      have hrounds : (forIterTraced (fun parent h => removeChildrenCalls lower (removeDangerousCalls lower fuel) parent
          (h parent).children h) (fuel + 1) (iter t.ref) h) =
          some (h', (visits (t.prune (isDangerous lower))).tail) := by
        show (removeChildrenCalls lower _ t.ref (h t.ref).children h).bind _ = _
        rw [hroot]
        show (removeChildrenCalls lower _ t.ref (t.children.map ref) h).bind _ = _
        rw [hcalls]
        show (forIterTraced _ fuel ⟨none, stackOf [(t, 0)]⟩ h').map _ = _
        rw [hwalk, tail_visits, nodes_eq (t.prune (isDangerous lower)), List.flatMap_cons]
        rfl
      rw [removeDangerousCalls, hrounds, visits_eq (t.prune (isDangerous lower)), prune_ref]
      rfl
    rw [hrun] at herased ⊢
    rw [Option.map_some, Option.some.injEq] at herased
    rw [← herased]

/-- The calls of a call on a document. -/
theorem document_visits (doc : Document Element) {fuel : Nat} (hfuel : doc.tree.nodes.length < fuel) :
    ∃ h, removeDangerousElements lower fuel doc.tree.ref doc.heap = some h ∧
      removeDangerousCalls lower fuel doc.tree.ref doc.heap = some (h, visits (doc.tree.prune (isDangerous lower))) := by
  obtain ⟨h, hrun, -, -⟩ := removeDangerousElements_cleans lower fuel doc.tree hfuel doc.heap doc.held doc.unique
  exact ⟨h, hrun, removeDangerousCalls_visits fuel doc.tree hfuel doc.heap h doc.held doc.unique
    ((removeDangerousCalls_erase fuel _ _).trans hrun)⟩

end

/-! ## Calls that are made twice -/

/-- A child of the root that stays has no child that stays. -/
def Shallow (lower : String → String) (t : RefTree Element) : Prop :=
  ∀ c ∈ t.children, isDangerous lower c.value = false → ∀ d ∈ c.children, isDangerous lower d.value = true

/-- The calls so far on the elements of the tree: no element twice, so no more calls than elements. -/
def NoRevisit (t : RefTree Element) (calls : List Ref) : Prop :=
  (∀ r ∈ t.refs, calls.count r ≤ 1) ∧ calls.length ≤ t.nodes.length

section

variable {lower : String → String} {t : RefTree Element}

/-- The children that stay, and those below them that stay. -/
theorem mem_prune_children {c : RefTree Element} (hc : c ∈ t.children) (hstays : isDangerous lower c.value = false) :
    c.prune (isDangerous lower) ∈ (t.prune (isDangerous lower)).children := by
  rw [prune_children]
  exact List.mem_map_of_mem (List.mem_filter.mpr ⟨hc, by simp [hstays]⟩)

theorem Shallow.leaves (hshallow : Shallow lower t) : ∀ c ∈ (t.prune (isDangerous lower)).children, c.children = [] := by
  intro c hc
  rw [prune_children] at hc
  obtain ⟨c, hin, rfl⟩ := List.mem_map.mp hc
  obtain ⟨hin, hstays⟩ := List.mem_filter.mp hin
  have hnone := hshallow c hin (by simpa using hstays)
  rw [prune_children, List.map_eq_nil_iff, List.filter_eq_nil_iff]
  intro d hd
  simp [hnone d hd]

/-- A root above leaves: each node is called on once. -/
theorem visits_of_leaves (hleaves : ∀ c ∈ t.children, c.children = []) : visits t = t.refs := by
  have hleaf : ∀ c ∈ t.children, visits c = c.refs := by
    intro c hc
    rw [visits_eq, refs_eq, hleaves c hc]
    rfl
  have hlater : (t.children.flatMap fun c => (visits c).tail) = [] := by
    apply List.flatMap_eq_nil_iff.mpr
    intro c hc
    rw [hleaf c hc, refs_eq, hleaves c hc]
    rfl
  rw [visits_eq, refs_eq, hlater, List.append_nil]
  congr 1
  exact List.flatMap_congr hleaf

theorem noRevisit_iff (hunique : t.refs.Nodup) :
    NoRevisit t (visits (t.prune (isDangerous lower))) ↔ Shallow lower t := by
  have hsub := refs_prune (isDangerous lower) t
  have hpruned : (t.prune (isDangerous lower)).refs.Nodup := hsub.nodup hunique
  constructor
  · intro hnone c hc hstays d hd
    by_contra hdangerous
    have hd' := mem_prune_children hd (by simpa using hdangerous)
    have hlevel : d.prune (isDangerous lower) ∈ level 2 (t.prune (isDangerous lower)) := by
      apply List.mem_flatMap.mpr ⟨_, mem_prune_children hc hstays, ?_⟩
      exact List.mem_flatMap.mpr ⟨_, hd', List.mem_singleton_self _⟩
    have htwice := count_visits_level hpruned hlevel
    have hin : d ∈ t.nodes := child_mem_nodes hd (child_mem_nodes hc t.mem_nodes_self)
    have honce := hnone.1 d.ref (List.mem_map_of_mem hin)
    rw [prune_ref] at htwice
    omega
  · intro hshallow
    rw [visits_of_leaves hshallow.leaves]
    refine ⟨fun r _ => List.nodup_iff_count_le_one.mp hpruned r, ?_⟩
    simpa [refs] using hsub.length_le

end

/-- No element is the argument of two calls exactly when no child of the root that stays has a
    child that stays. -/
theorem calls_distinct_iff (lower : String → String) (doc : Document Element) :
    ∃ n, ∀ fuel, n ≤ fuel → ∃ h calls, removeDangerousElements lower fuel doc.tree.ref doc.heap = some h ∧
      removeDangerousCalls lower fuel doc.tree.ref doc.heap = some (h, calls) ∧
      (NoRevisit doc.tree calls ↔ Shallow lower doc.tree) := by
  refine ⟨doc.tree.nodes.length + 1, fun fuel hfuel => ?_⟩
  obtain ⟨h, hrun, hcalls⟩ := @document_visits lower doc fuel (by omega)
  exact ⟨h, _, hrun, hcalls, noRevisit_iff doc.unique⟩

namespace Sample

/-- A shape in a group in a group. -/
def nested : RefTree Element :=
  .node 0 (element "svg" []) [.node 1 (element "g" []) [.node 2 (element "g" []) [.node 3 (element "rect" []) []]]]

def nestedPage : Document Element := .of ⟨element "" [], []⟩ nested (by decide)

end Sample

open Sample in
/-- The shape is the argument of four calls, and there are eight calls for four elements. -/
theorem a_shape_in_two_groups_is_visited_four_times :
    ((removeDangerousCalls lower 5 nestedPage.tree.ref nestedPage.heap).map Prod.snd) = some [0, 1, 2, 3, 3, 2, 3, 3] ∧
      ¬ NoRevisit nested [0, 1, 2, 3, 3, 2, 3, 3] := by
  refine ⟨by decide +kernel, ?_⟩
  intro hnone
  have honce := hnone.1 3 (by decide)
  exact absurd honce (by decide)

end Imghost.Svg
