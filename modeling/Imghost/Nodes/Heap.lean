/-
  Imghost.Nodes.Heap — trees whose nodes are changed in place.

  A node is known by its reference: the heap says what it holds and which nodes are its
  children, in order. A heap holds a tree when it says of each of its nodes what the
  tree does; what happens at other references does not matter to it (`Holds.congr`), and
  a heap that holds a tree again is the heap it was (`Holds.heap_eq`).

  - `prune`: the tree without the subtrees a predicate picks, the root apart.
  - `map`: a change of the value at every node.
-/

import Mathlib.Data.List.Nodup
import Mathlib.Logic.Function.Basic

namespace Imghost.Nodes

abbrev Ref := Nat

structure Node (α : Type) where
  value : α
  children : List Ref

abbrev Heap (α : Type) := Ref → Node α

/-- A tree with the reference of each of its nodes. -/
inductive RefTree (α : Type) where
  | node (ref : Ref) (value : α) (children : List (RefTree α))

namespace RefTree

variable {α : Type}

def ref : RefTree α → Ref
  | .node r _ _ => r

def value : RefTree α → α
  | .node _ a _ => a

def children : RefTree α → List (RefTree α)
  | .node _ _ cs => cs

mutual

/-- A tree and the trees below it, each before those below it. -/
def nodes : RefTree α → List (RefTree α)
  | .node r a cs => .node r a cs :: nodesOf cs

def nodesOf : List (RefTree α) → List (RefTree α)
  | [] => []
  | t :: ts => nodes t ++ nodesOf ts

end

def refs (t : RefTree α) : List Ref := t.nodes.map ref

/-- What a heap says of the root. -/
def toNode (t : RefTree α) : Node α := ⟨t.value, t.children.map ref⟩

theorem nodesOf_eq (ts : List (RefTree α)) : nodesOf ts = ts.flatMap nodes := by
  induction ts with
  | nil => rfl
  | cons t ts ih => rw [nodesOf, ih, List.flatMap_cons]

theorem nodes_eq (t : RefTree α) : t.nodes = t :: t.children.flatMap nodes := by
  cases t with
  | node r a cs =>
    rw [nodes, nodesOf_eq]
    rfl

theorem refs_eq (t : RefTree α) : t.refs = t.ref :: t.children.flatMap refs := by
  rw [refs, nodes_eq, List.map_cons, List.map_flatMap]
  rfl

theorem mem_nodes_self (t : RefTree α) : t ∈ t.nodes := by
  rw [nodes_eq]
  exact List.mem_cons_self

theorem mem_nodes {s t : RefTree α} : s ∈ t.nodes ↔ s = t ∨ ∃ c ∈ t.children, s ∈ c.nodes := by
  rw [nodes_eq, List.mem_cons, List.mem_flatMap]

theorem mem_refs_self (t : RefTree α) : t.ref ∈ t.refs := List.mem_map_of_mem t.mem_nodes_self

theorem refs_subset_of_child {c t : RefTree α} (hc : c ∈ t.children) : c.refs ⊆ t.refs := by
  intro r hr
  rw [refs_eq]
  exact List.mem_cons_of_mem _ (List.mem_flatMap.mpr ⟨c, hc, hr⟩)

/-- A tree is smaller than the one it is a child in. -/
theorem length_nodes_child {c t : RefTree α} (hc : c ∈ t.children) : c.nodes.length < t.nodes.length := by
  have hsub : List.Sublist c.nodes (t.children.flatMap nodes) := List.sublist_flatten_of_mem (List.mem_map_of_mem hc)
  rw [nodes_eq t, List.length_cons]
  exact Nat.lt_succ_of_le hsub.length_le

/-- A property of a tree that its children hand up holds of every tree. -/
@[elab_as_elim, induction_eliminator]
theorem induct {motive : RefTree α → Prop}
    (node : ∀ r a cs, (∀ c ∈ cs, motive c) → motive (.node r a cs)) (t : RefTree α) : motive t := by
  suffices h : ∀ n, ∀ t : RefTree α, t.nodes.length < n → motive t from h _ t (Nat.lt_succ_self _)
  intro n
  induction n with
  | zero =>
    intro t ht
    exact absurd ht (Nat.not_lt_zero _)
  | succ n ih =>
    intro t ht
    cases t with
    | node r a cs =>
      apply node
      intro c hc
      have hsmall : c.nodes.length < (RefTree.node r a cs).nodes.length := length_nodes_child hc
      exact ih c (by omega)

/-- A tree below one below. -/
theorem mem_nodes_trans {s t u : RefTree α} (hst : s ∈ t.nodes) (htu : t ∈ u.nodes) : s ∈ u.nodes := by
  induction u with
  | node r a cs ih =>
    rcases mem_nodes.mp htu with rfl | ⟨c, hc, htc⟩
    · exact hst
    · exact mem_nodes.mpr (.inr ⟨c, hc, ih c hc htc⟩)

theorem refs_sublist {s t : RefTree α} (hs : s ∈ t.nodes) : List.Sublist s.refs t.refs := by
  induction t with
  | node r a cs ih =>
    rcases mem_nodes.mp hs with rfl | ⟨c, hc, hsc⟩
    · exact List.Sublist.refl _
    · rw [refs_eq (.node r a cs)]
      exact ((ih c hc hsc).trans (List.sublist_flatten_of_mem (List.mem_map_of_mem hc))).cons _

theorem child_mem_nodes {c s t : RefTree α} (hc : c ∈ s.children) (hs : s ∈ t.nodes) : c ∈ t.nodes :=
  mem_nodes_trans (mem_nodes.mpr (.inr ⟨c, hc, c.mem_nodes_self⟩)) hs

end RefTree

open RefTree

variable {α : Type} {h h' : Heap α} {t : RefTree α}

/-! ## Heaps that hold a tree -/

def Holds (h : Heap α) (t : RefTree α) : Prop := ∀ s ∈ t.nodes, h s.ref = s.toNode

theorem holds_iff : Holds h t ↔ h t.ref = t.toNode ∧ ∀ c ∈ t.children, Holds h c := by
  constructor
  · intro hh
    exact ⟨hh t t.mem_nodes_self, fun c hc s hs => hh s (mem_nodes.mpr (.inr ⟨c, hc, hs⟩))⟩
  · rintro ⟨hroot, hbelow⟩ s hs
    rcases mem_nodes.mp hs with rfl | ⟨c, hc, hsc⟩
    · exact hroot
    · exact hbelow c hc s hsc

/-- A change at other references. -/
theorem Holds.congr (hh : Holds h t) (heq : ∀ r ∈ t.refs, h' r = h r) : Holds h' t := by
  intro s hs
  rw [heq s.ref (List.mem_map_of_mem hs)]
  exact hh s hs

/-- Two heaps that hold a tree, and agree elsewhere, are one. -/
theorem Holds.heap_eq (hh : Holds h t) (hh' : Holds h' t) (helse : ∀ r ∉ t.refs, h' r = h r) : h' = h := by
  funext r
  by_cases hr : r ∈ t.refs
  · obtain ⟨s, hs, rfl⟩ := List.mem_map.mp hr
    rw [hh s hs, hh' s hs]
  · exact helse r hr

/-- A tree of distinct nodes in a heap that holds it. -/
structure Document (α : Type) where
  heap : Heap α
  tree : RefTree α
  held : Holds heap tree
  unique : tree.refs.Nodup

/-- The heap of a tree alone. -/
def load (nothing : Node α) (t : RefTree α) : Heap α := fun r => ((t.nodes.find? (·.ref == r)).map toNode).getD nothing

theorem holds_load (nothing : Node α) (hunique : t.refs.Nodup) : Holds (load nothing t) t := by
  intro s hs
  have hfind : t.nodes.find? (·.ref == s.ref) = some s := by
    rw [refs] at hunique
    generalize t.nodes = ts at hs hunique
    induction ts with
    | nil => cases hs
    | cons u ts ih =>
      rw [List.map_cons, List.nodup_cons] at hunique
      rcases List.mem_cons.mp hs with rfl | hs
      · simp
      · have hne : u.ref ≠ s.ref := fun h => hunique.1 (h ▸ List.mem_map_of_mem hs)
        rw [List.find?_cons_of_neg (by simpa using hne)]
        exact ih hs hunique.2
  rw [load, hfind]
  rfl

/-- Every tree of distinct nodes is in a document. -/
def Document.of (nothing : Node α) (t : RefTree α) (hunique : t.refs.Nodup) : Document α :=
  ⟨load nothing t, t, holds_load nothing hunique, hunique⟩

/-! ## Changes to a tree -/

namespace RefTree

variable (p : α → Bool) (f : α → α)

mutual

/-- Without the subtrees below the root whose value `p` picks. -/
def prune : RefTree α → RefTree α
  | .node r a cs => .node r a (pruneAll cs)

def pruneAll : List (RefTree α) → List (RefTree α)
  | [] => []
  | t :: ts => if p t.value then pruneAll ts else prune t :: pruneAll ts

end

mutual

def map : RefTree α → RefTree α
  | .node r a cs => .node r (f a) (mapAll cs)

def mapAll : List (RefTree α) → List (RefTree α)
  | [] => []
  | t :: ts => map t :: mapAll ts

end

theorem pruneAll_eq (ts : List (RefTree α)) : pruneAll p ts = (ts.filter (!p ·.value)).map (prune p) := by
  induction ts with
  | nil => rfl
  | cons t ts ih =>
    rw [pruneAll, ih]
    cases hp : p t.value <;> simp [hp]

theorem mapAll_eq (ts : List (RefTree α)) : mapAll f ts = ts.map (map f) := by
  induction ts with
  | nil => rfl
  | cons t ts ih => rw [mapAll, ih, List.map_cons]

theorem prune_node (r : Ref) (a : α) (cs : List (RefTree α)) :
    prune p (.node r a cs) = .node r a ((cs.filter (!p ·.value)).map (prune p)) := by
  rw [prune, pruneAll_eq]

theorem map_node (r : Ref) (a : α) (cs : List (RefTree α)) : map f (.node r a cs) = .node r (f a) (cs.map (map f)) := by
  rw [map, mapAll_eq]

@[simp] theorem prune_ref (t : RefTree α) : (prune p t).ref = t.ref := by
  cases t
  rfl

@[simp] theorem prune_value (t : RefTree α) : (prune p t).value = t.value := by
  cases t
  rfl

@[simp] theorem map_ref (t : RefTree α) : (map f t).ref = t.ref := by
  cases t
  rfl

@[simp] theorem map_value (t : RefTree α) : (map f t).value = f t.value := by
  cases t
  rfl

theorem prune_children (t : RefTree α) : (prune p t).children = (t.children.filter (!p ·.value)).map (prune p) := by
  cases t with
  | node r a cs =>
    rw [prune_node]
    rfl

theorem map_children (t : RefTree α) : (map f t).children = t.children.map (map f) := by
  cases t with
  | node r a cs =>
    rw [map_node]
    rfl

/-- The nodes that stay, in their order. -/
theorem refs_prune (t : RefTree α) : List.Sublist (prune p t).refs t.refs := by
  induction t with
  | node r a cs ih =>
    rw [refs_eq, refs_eq (.node r a cs), prune_ref, prune_children]
    apply List.Sublist.cons_cons
    show List.Sublist (List.flatMap refs ((cs.filter (!p ·.value)).map (prune p))) (cs.flatMap refs)
    clear r a
    induction cs with
    | nil => exact List.Sublist.slnil
    | cons c cs ihs =>
      have hrest := ihs fun c hc => ih c (List.mem_cons_of_mem _ hc)
      rw [List.flatMap_cons]
      cases hp : p c.value
      · rw [List.filter_cons_of_pos (by simp [hp]), List.map_cons, List.flatMap_cons]
        exact (ih c List.mem_cons_self).append hrest
      · rw [List.filter_cons_of_neg (by simp [hp])]
        exact hrest.trans (List.sublist_append_right _ _)

@[simp] theorem refs_map (t : RefTree α) : (map f t).refs = t.refs := by
  induction t with
  | node r a cs ih =>
    rw [refs_eq, refs_eq (.node r a cs), map_ref, map_children]
    show r :: List.flatMap refs (cs.map (map f)) = r :: cs.flatMap refs
    rw [List.flatMap_map]
    congr 1
    exact List.flatMap_congr ih

/-- No value below the root is one `p` picks. -/
def Pruned (t : RefTree α) : Prop := ∀ s ∈ t.nodes, ∀ c ∈ s.children, p c.value = false

theorem pruned_prune (t : RefTree α) : Pruned p (prune p t) := by
  induction t with
  | node r a cs ih =>
    intro s hs c hc
    rcases mem_nodes.mp hs with rfl | ⟨d, hd, hsd⟩
    · rw [prune_children] at hc
      obtain ⟨c, hin, rfl⟩ := List.mem_map.mp hc
      simpa using (List.mem_filter.mp hin).2
    · rw [prune_children] at hd
      obtain ⟨d, hin, rfl⟩ := List.mem_map.mp hd
      exact ih d (List.mem_filter.mp hin).1 s hsd c hc

theorem prune_eq_self {t : RefTree α} (h : Pruned p t) : prune p t = t := by
  induction t with
  | node r a cs ih =>
    have hall : cs.filter (!p ·.value) = cs := by
      apply List.filter_eq_self.mpr
      intro c hc
      rw [h _ (mem_nodes_self _) c hc]
      rfl
    have hbelow : cs.map (prune p) = cs.map id := by
      apply List.map_congr_left
      intro c hc
      exact ih c hc fun s hs => h s (mem_nodes.mpr (.inr ⟨c, hc, hs⟩))
    rw [prune_node, hall, hbelow, List.map_id]

theorem prune_prune (t : RefTree α) : prune p (prune p t) = prune p t := prune_eq_self p (pruned_prune p t)

theorem length_nodes_prune (t : RefTree α) : (prune p t).nodes.length ≤ t.nodes.length := by
  simpa [refs] using (refs_prune p t).length_le

/-- A change that `p` does not see. -/
theorem prune_map (hp : ∀ a, p (f a) = p a) (t : RefTree α) : prune p (map f t) = map f (prune p t) := by
  induction t with
  | node r a cs ih =>
    rw [map_node, prune_node, prune_node, map_node, List.filter_map, List.map_map, List.map_map]
    have hsame : (fun c : RefTree α => !p c.value) ∘ map f = fun c => !p c.value := by
      funext c
      show (!p (map f c).value) = _
      rw [map_value, hp]
    rw [hsame]
    congr 1
    apply List.map_congr_left
    intro c hc
    exact ih c (List.mem_filter.mp hc).1

theorem map_map (hf : ∀ a, f (f a) = f a) (t : RefTree α) : map f (map f t) = map f t := by
  induction t with
  | node r a cs ih =>
    rw [map_node, map_node, hf, List.map_map]
    congr 1
    exact List.map_congr_left ih

end RefTree

end Imghost.Nodes
