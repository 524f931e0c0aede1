/-
  Imghost.Nodes.Iter — `Element.remove` and `Element.iter()`, over a tree that the loop may change.

  The iterator keeps the nodes it is below of, each with the place of its next child, and
  looks at a node's children only when it asks for that child. So a loop may change what
  is below the node it was given: the iterator goes on in what it finds there.

  - `forIter_eq_foldlM`: a loop that leaves the children of every node as they are is a fold
    over the nodes of the tree.
  - `forIter_same`: a loop that changes nothing ends with the heap it began with.
  - `forIter_modify`: a loop that changes each value ends with `map`.
  - `forIterTraced`: the loop, with what its rounds write down; `forIterTraced_same` says what
    that is where nothing changes.
-/

import Imghost.Nodes.Heap

namespace Imghost.Nodes

open RefTree

variable {α : Type}

/-- `parent.remove(child)`; `none` is its `ValueError`. -/
def Heap.remove (parent child : Ref) (h : Heap α) : Option (Heap α) :=
  if child ∈ (h parent).children then
    some (Function.update h parent ⟨(h parent).value, (h parent).children.erase child⟩)
  else none

/-- What `iter()` keeps between two elements. -/
structure Iter where
  rootElement : Option Ref
  parentStack : List (Ref × Nat)

def iter (root : Ref) : Iter := ⟨some root, []⟩

/-- The next child, of the innermost parent that has one left. -/
def nextChild (h : Heap α) : List (Ref × Nat) → Option (Ref × List (Ref × Nat))
  | [] => none
  | (parent, childIndex) :: stack =>
    match (h parent).children[childIndex]? with
    | some child => some (child, (child, 0) :: (parent, childIndex + 1) :: stack)
    | none => nextChild h stack

/-- `next(it)`; `none` is `StopIteration`. -/
def Iter.next (h : Heap α) (it : Iter) : Option (Ref × Iter) :=
  match nextChild h it.parentStack with
  | some (child, stack) => some (child, ⟨it.rootElement, stack⟩)
  | none => it.rootElement.map fun root => (root, ⟨none, [(root, 0)]⟩)

/-- `for element in it: body(element)`, at most `fuel` rounds. A body that is `none` ends it. -/
def forIter (body : Ref → Heap α → Option (Heap α)) : Nat → Iter → Heap α → Option (Heap α)
  | 0, _, _ => none
  | fuel + 1, it, h =>
    match it.next h with
    | none => some h
    | some (element, it) => (body element h).bind (forIter body fuel it)

/-! ## What is still to come -/

/-- The iterator is below these nodes, at these places. -/
abbrev Frames (α : Type) := List (RefTree α × Nat)

def stackOf (frames : Frames α) : List (Ref × Nat) := frames.map fun f => (f.1.ref, f.2)

/-- The nodes still to come, in their order. -/
def pending (frames : Frames α) : List (RefTree α) := frames.flatMap fun f => (f.1.children.drop f.2).flatMap nodes

/-- The heap has the children of the tree. -/
def Shaped (h : Heap α) (t : RefTree α) : Prop := ∀ s ∈ t.nodes, (h s.ref).children = s.children.map ref

theorem Holds.shaped {h : Heap α} {t : RefTree α} (hh : Holds h t) : Shaped h t := by
  intro s hs
  rw [hh s hs]
  rfl

variable {h h' : Heap α} {t : RefTree α} {frames : Frames α} {body : Ref → Heap α → Option (Heap α)}

/-- The frames are of nodes of the tree. -/
def Within (t : RefTree α) (frames : Frames α) : Prop := ∀ f ∈ frames, f.1 ∈ t.nodes

/-- The next node is the first of those to come. -/
theorem nextChild_pending (hshape : Shaped h t) (hwithin : Within t frames) :
    match pending frames with
    | [] => nextChild h (stackOf frames) = none
    | s :: rest => s ∈ t.nodes ∧ ∃ frames', Within t frames' ∧ pending frames' = rest ∧
        nextChild h (stackOf frames) = some (s.ref, stackOf frames') := by
  induction frames with
  | nil => rfl
  | cons f frames ih =>
    obtain ⟨parent, place⟩ := f
    have hparent : parent ∈ t.nodes := hwithin (parent, place) List.mem_cons_self
    have hrest : Within t frames := fun f hf => hwithin f (List.mem_cons_of_mem _ hf)
    have hpending : pending ((parent, place) :: frames) =
        (parent.children.drop place).flatMap nodes ++ pending frames := rfl
    have hstack : stackOf ((parent, place) :: frames) = (parent.ref, place) :: stackOf frames := rfl
    rw [hpending, hstack, nextChild, hshape parent hparent, List.getElem?_map]
    rcases hchild : parent.children[place]? with _ | c
    · have hover : parent.children.drop place = [] := List.drop_eq_nil_iff.mpr (List.getElem?_eq_none_iff.mp hchild)
      rw [hover]
      exact ih hrest
    · obtain ⟨hplace, hget⟩ := List.getElem?_eq_some_iff.mp hchild
      have hdrop : parent.children.drop place = c :: parent.children.drop (place + 1) := by
        rw [List.drop_eq_getElem_cons hplace, hget]
      have hc : c ∈ t.nodes := child_mem_nodes (List.mem_of_getElem? hchild) hparent
      rw [hdrop, List.flatMap_cons, nodes_eq c]
      refine ⟨hc, (c, 0) :: (parent, place + 1) :: frames, ?_, ?_, rfl⟩
      · intro f hf
        rcases List.mem_cons.mp hf with rfl | hf
        · exact hc
        rcases List.mem_cons.mp hf with rfl | hf
        · exact hparent
        · exact hrest f hf
      · show c.children.flatMap nodes ++ ((parent.children.drop (place + 1)).flatMap nodes ++ pending frames) = _
        exact (List.append_assoc _ _ _).symm

/-- The rest of a loop that keeps the children of every node. -/
theorem forIter_pending {P : Heap α → Prop} (hshape : ∀ h, P h → Shaped h t)
    (hbody : ∀ s ∈ t.nodes, ∀ h h', P h → body s.ref h = some h' → P h') {fuel : Nat} (hwithin : Within t frames)
    (hfuel : (pending frames).length < fuel) (hP : P h) :
    forIter body fuel ⟨none, stackOf frames⟩ h = (pending frames).foldlM (fun h s => body s.ref h) h := by
  induction fuel generalizing frames h with
  | zero => exact absurd hfuel (Nat.not_lt_zero _)
  | succ fuel ih =>
    have hnext := nextChild_pending (hshape h hP) hwithin
    rcases hpending : pending frames with _ | ⟨s, rest⟩
    · rw [hpending] at hnext
      dsimp only at hnext
      simp [forIter, Iter.next, hnext]
    · rw [hpending] at hnext hfuel
      obtain ⟨hs, frames', hwithin', hrest, hnext⟩ := hnext
      rw [List.foldlM_cons]
      simp only [forIter, Iter.next, hnext]
      rcases hstep : body s.ref h with _ | h'
      · rfl
      · rw [List.length_cons] at hfuel
        have hfuel' : (pending frames').length < fuel := by
          rw [hrest]
          omega
        have hgo := ih hwithin' hfuel' (hbody s hs h h' hP hstep)
        rw [hrest] at hgo
        exact hgo

theorem pending_root (t : RefTree α) : t.nodes = t :: pending [(t, 0)] := by
  rw [nodes_eq, pending, List.flatMap_singleton]
  rfl

/-- The first round is about the root. -/
theorem forIter_root (fuel : Nat) (t : RefTree α) (h : Heap α) :
    forIter body (fuel + 1) (iter t.ref) h = (body t.ref h).bind (forIter body fuel ⟨none, stackOf [(t, 0)]⟩) := rfl

theorem within_root (t : RefTree α) : Within t [(t, 0)] := by
  intro f hf
  obtain rfl := List.mem_singleton.mp hf
  exact t.mem_nodes_self

/-- A loop that keeps the children of every node is a fold over the nodes. -/
theorem forIter_eq_foldlM {P : Heap α → Prop} (hshape : ∀ h, P h → Shaped h t)
    (hbody : ∀ s ∈ t.nodes, ∀ h h', P h → body s.ref h = some h' → P h') {fuel : Nat} (hfuel : t.nodes.length < fuel)
    (hP : P h) : forIter body fuel (iter t.ref) h = t.nodes.foldlM (fun h s => body s.ref h) h := by
  rw [pending_root] at hfuel ⊢
  rw [List.length_cons] at hfuel
  rw [List.foldlM_cons]
  cases fuel with
  | zero => exact absurd hfuel (Nat.not_lt_zero _)
  | succ fuel =>
    rw [forIter_root]
    rcases hstep : body t.ref h with _ | h'
    · rfl
    · exact forIter_pending hshape hbody (within_root t) (by omega) (hbody t t.mem_nodes_self h h' hP hstep)

/-- The rounds after the first, where the body changes nothing. -/
theorem forIter_same (hshape : Shaped h t) (hbody : ∀ s ∈ t.nodes, body s.ref h = some h) {fuel : Nat}
    (hfuel : t.nodes.length ≤ fuel) : forIter body fuel ⟨none, stackOf [(t, 0)]⟩ h = some h := by
  rw [pending_root, List.length_cons] at hfuel
  have hP : ∀ h', h' = h → Shaped h' t := by
    rintro _ rfl
    exact hshape
  have hkeep : ∀ s ∈ t.nodes, ∀ h₁ h₂, h₁ = h → body s.ref h₁ = some h₂ → h₂ = h := by
    rintro s hs _ h₂ rfl hstep
    rw [hbody s hs] at hstep
    exact (Option.some.inj hstep).symm
  rw [forIter_pending hP hkeep (within_root t) (by omega) rfl]
  have hin : ∀ s ∈ pending [(t, 0)], body s.ref h = some h := by
    intro s hs
    apply hbody
    rw [pending_root]
    exact List.mem_cons_of_mem _ hs
  clear hfuel hkeep
  generalize pending [(t, 0)] = rounds at hin
  induction rounds with
  | nil => rfl
  | cons s rest ih =>
    rw [List.foldlM_cons, hin s List.mem_cons_self]
    exact ih fun s hs => hin s (List.mem_cons_of_mem _ hs)

/-! ## What the rounds write down -/

section

variable {β : Type}

/-- The loop, of a body that also writes something down. -/
def forIterTraced (body : Ref → Heap α → Option (Heap α × List β)) : Nat → Iter → Heap α → Option (Heap α × List β)
  | 0, _, _ => none
  | fuel + 1, it, h =>
    match it.next h with
    | none => some (h, [])
    | some (element, it) =>
      (body element h).bind fun round => (forIterTraced body fuel it round.1).map fun rest => (rest.1, round.2 ++ rest.2)

variable {traced : Ref → Heap α → Option (Heap α × List β)}

/-- What is written down is the loop's own affair. -/
theorem forIterTraced_erase (hbody : ∀ r h, (traced r h).map Prod.fst = body r h) (fuel : Nat) (it : Iter) (h : Heap α) :
    (forIterTraced traced fuel it h).map Prod.fst = forIter body fuel it h := by
  induction fuel generalizing it h with
  | zero => rfl
  | succ fuel ih =>
    rcases hnext : it.next h with _ | ⟨element, it'⟩
    · simp [forIterTraced, forIter, hnext]
    · have hround := hbody element h
      simp only [forIterTraced, forIter, hnext, ← hround]
      rcases traced element h with _ | ⟨h', written⟩
      · rfl
      · simp [← ih, Function.comp_def]

/-- The rounds still to come, where none of them changes anything. -/
theorem forIterTraced_pending {written : RefTree α → List β} (hshape : Shaped h t)
    (hbody : ∀ s ∈ t.nodes, traced s.ref h = some (h, written s)) {fuel : Nat} (hwithin : Within t frames)
    (hfuel : (pending frames).length < fuel) :
    forIterTraced traced fuel ⟨none, stackOf frames⟩ h = some (h, (pending frames).flatMap written) := by
  induction fuel generalizing frames with
  | zero => exact absurd hfuel (Nat.not_lt_zero _)
  | succ fuel ih =>
    have hnext := nextChild_pending hshape hwithin
    rcases hpending : pending frames with _ | ⟨s, rest⟩
    · rw [hpending] at hnext
      dsimp only at hnext
      simp [forIterTraced, Iter.next, hnext]
    · rw [hpending] at hnext hfuel
      obtain ⟨hs, frames', hwithin', hrest, hnext⟩ := hnext
      rw [List.length_cons] at hfuel
      have hgo := ih hwithin' (by rw [hrest]; omega)
      simp only [forIterTraced, Iter.next, hnext, hbody s hs]
      show (forIterTraced traced fuel ⟨none, stackOf frames'⟩ h).map _ = _
      rw [hgo, hrest]
      rfl

/-- The rounds after the first, where none of them changes anything. -/
theorem forIterTraced_same {written : RefTree α → List β} (hshape : Shaped h t)
    (hbody : ∀ s ∈ t.nodes, traced s.ref h = some (h, written s)) {fuel : Nat} (hfuel : t.nodes.length ≤ fuel) :
    forIterTraced traced fuel ⟨none, stackOf [(t, 0)]⟩ h = some (h, (t.children.flatMap nodes).flatMap written) := by
  rw [nodes_eq, List.length_cons] at hfuel
  have hpending : pending [(t, 0)] = t.children.flatMap nodes := List.flatMap_singleton _ _
  rw [← hpending] at hfuel ⊢
  exact forIterTraced_pending hshape hbody (within_root t) (by omega)

end

/-! ## Changing each value -/

/-- The value of one node changed. -/
def Heap.modify (f : α → α) (r : Ref) (h : Heap α) : Heap α := Function.update h r ⟨f (h r).value, (h r).children⟩

variable {f : α → α}

theorem modify_of_ne {r q : Ref} (hne : q ≠ r) : h.modify f r q = h q := Function.update_of_ne hne _ _

theorem modify_self (r : Ref) : h.modify f r r = ⟨f (h r).value, (h r).children⟩ := Function.update_self ..

theorem modify_children (r q : Ref) : (h.modify f r q).children = (h q).children := by
  by_cases hq : q = r
  · subst hq
    rw [modify_self]
  · rw [modify_of_ne hq]

/-- Each of the nodes changed once. -/
theorem foldl_modify (l : List (RefTree α)) (hunique : (l.map ref).Nodup) (h : Heap α) (q : Ref) :
    l.foldl (fun h s => h.modify f s.ref) h q = if q ∈ l.map ref then ⟨f (h q).value, (h q).children⟩ else h q := by
  induction l generalizing h with
  | nil => simp
  | cons s l ih =>
    rw [List.map_cons, List.nodup_cons] at hunique
    rw [List.foldl_cons, ih hunique.2]
    by_cases hq : q = s.ref
    · subst hq
      rw [if_neg hunique.1, modify_self, if_pos (by simp)]
    · rw [modify_of_ne hq]
      simp [hq]

theorem foldlM_modify (l : List (RefTree α)) (hbody : ∀ r h, body r h = some (h.modify f r)) (h : Heap α) :
    l.foldlM (fun h s => body s.ref h) h = some (l.foldl (fun h s => h.modify f s.ref) h) := by
  induction l generalizing h with
  | nil => rfl
  | cons s l ih =>
    rw [List.foldlM_cons, hbody]
    exact ih _

/-- A loop that changes each value changes those of the tree, and nothing else. -/
theorem forIter_modify (hbody : ∀ r h, body r h = some (h.modify f r)) (hh : Holds h t) (hunique : t.refs.Nodup) {fuel : Nat}
    (hfuel : t.nodes.length < fuel) :
    ∃ h', forIter body fuel (iter t.ref) h = some h' ∧ Holds h' (t.map f) ∧ ∀ r ∉ t.refs, h' r = h r := by
  have hkeep : ∀ s ∈ t.nodes, ∀ h h', Shaped h t → body s.ref h = some h' → Shaped h' t := by
    intro s _ h₁ h₂ hshape hstep u hu
    rw [hbody] at hstep
    obtain rfl := Option.some.inj hstep
    rw [modify_children]
    exact hshape u hu
  refine ⟨_, (forIter_eq_foldlM (fun _ h => h) hkeep hfuel hh.shaped).trans (foldlM_modify t.nodes hbody h), ?_, ?_⟩
  · have hvalues : ∀ q ∈ t.refs, t.nodes.foldl (fun h s => h.modify f s.ref) h q = ⟨f (h q).value, (h q).children⟩ := by
      intro q hq
      rw [foldl_modify _ hunique]
      exact if_pos hq
    clear hfuel hunique hkeep
    generalize t.nodes.foldl (fun h s => h.modify f s.ref) h = h' at hvalues
    induction t with
    | node r a cs ih =>
      rw [holds_iff] at hh ⊢
      refine ⟨?_, ?_⟩
      · rw [map_ref, hvalues _ (mem_refs_self _), hh.1]
        simp [toNode, map_children]
      · intro c hc
        rw [map_children] at hc
        obtain ⟨c, hin, rfl⟩ := List.mem_map.mp hc
        exact ih c hin (hh.2 c hin) fun q hq => hvalues q (refs_subset_of_child hin hq)
  · intro r hr
    rw [foldl_modify _ hunique]
    exact if_neg hr

end Imghost.Nodes
