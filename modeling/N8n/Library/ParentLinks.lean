import Mathlib.Data.List.Nodup
import Mathlib.Data.List.Perm.Subperm
import Mathlib.Logic.Relation

/-!
# Parent links

Each node of a store has a parent or is a root.  A node is rooted if its parent
links end at a root; then the path from it has no node twice, so it is found
within as many rounds as there are nodes.
-/

universe u

namespace ParentLinks

open List Nat Relation

variable {κ : Type u}

/-- `parentOf` maps a node to its parent, a root to `some none`, and what is no
node to `none`. -/
def Link (parentOf : κ → Option (Option κ)) (child parent : κ) : Prop :=
  parentOf child = some (some parent)

inductive Rooted (parentOf : κ → Option (Option κ)) : κ → Prop where
  | root {node : κ} : parentOf node = some none → Rooted parentOf node
  | child {node parent : κ} : Link parentOf node parent →
      Rooted parentOf parent → Rooted parentOf node

/-- The nodes that the links lead to within a number of rounds. -/
def pathToRoot (parentOf : κ → Option (Option κ)) : Nat → κ → List κ
  | 0, _ => []
  | rounds + 1, node =>
    match parentOf node with
    | none => []
    | some none => [node]
    | some (some parent) => node :: pathToRoot parentOf rounds parent

/-- The links come to an end within a number of rounds. -/
def endsWithin (parentOf : κ → Option (Option κ)) : Nat → κ → Bool
  | 0, _ => false
  | rounds + 1, node =>
    match parentOf node with
    | some (some parent) => endsWithin parentOf rounds parent
    | _ => true

variable {parentOf changed : κ → Option (Option κ)} {node target : κ} {rounds more : Nat}

theorem Link.unique {parent other : κ} (link : Link parentOf node parent)
    (otherLink : Link parentOf node other) : parent = other := by
  rw [Link, link] at otherLink
  cases otherLink
  rfl

theorem Rooted.irrefl (rooted : Rooted parentOf node) : ¬ TransGen (Link parentOf) node node := by
  induction rooted with
  | root isRoot =>
    intro cycle
    obtain ⟨parent, link, _⟩ := TransGen.head'_iff.mp cycle
    rw [Link, isRoot] at link
    cases link
  | child link _ ih =>
    intro cycle
    obtain ⟨parent, first, rest⟩ := TransGen.head'_iff.mp cycle
    obtain rfl := link.unique first
    exact ih (TransGen.tail' rest link)

theorem Rooted.of_path (rooted : Rooted parentOf node)
    (same : ∀ target, ReflTransGen (Link parentOf) node target →
      changed target = parentOf target) : Rooted changed node := by
  induction rooted with
  | root isRoot => exact .root ((same _ .refl).trans isRoot)
  | child link _ ih =>
    refine .child ((same _ .refl).trans link) (ih fun target path => ?_)
    exact same target (.head link path)

theorem transGen_of_path (path : TransGen (Link parentOf) node target)
    (same : ∀ target, ReflTransGen (Link parentOf) node target → changed target = parentOf target) :
    TransGen (Link changed) node target := by
  induction path with
  | single link => exact .single ((same _ .refl).trans link)
  | tail path link ih =>
    exact ih.tail ((same _ path.to_reflTransGen).trans link)

theorem Rooted.relink (rooted : Rooted parentOf node)
    (each : ∀ node link, parentOf node = some link →
      Rooted changed node ∨ changed node = some link) :
    Rooted changed node := by
  induction rooted with
  | root isRoot =>
    rcases each _ _ isRoot with done | same
    · exact done
    · exact .root same
  | child link _ ih =>
    rcases each _ _ link with done | same
    · exact done
    · exact .child same ih

theorem Rooted.move (rooted : Rooted parentOf node) (moved : κ → Prop) (newLink : Option κ)
    (same : ∀ node, ¬ moved node → changed node = parentOf node)
    (new : ∀ node, moved node → changed node = some newLink)
    (away : ∀ parent, newLink = some parent → Rooted parentOf parent ∧
      ∀ above, ReflTransGen (Link parentOf) parent above →
        ¬ moved above) : Rooted changed node := by
  refine rooted.relink fun node link isNode => ?_
  by_cases isMoved : moved node
  · left
    cases newLink with
    | none => exact .root (new node isMoved)
    | some parent =>
      obtain ⟨rootedParent, unmoved⟩ := away parent rfl
      refine .child (new node isMoved) (rootedParent.of_path ?_)
      intro target path
      exact same target (unmoved target path)
  · right
    rw [same node isMoved]
    exact isNode

theorem cycle_of_move {moved : κ → Prop} {parent : κ}
    (same : ∀ node, ¬ moved node → changed node = parentOf node)
    (new : ∀ node, moved node → changed node = some (some parent))
    (isMoved : moved target)
    (path : ReflTransGen (Link parentOf) parent target) :
    TransGen (Link changed) parent parent := by
  have upwards : ∃ first, moved first ∧ ReflTransGen (Link changed) parent first := by
    clear new
    induction path using ReflTransGen.head_induction_on with
    | refl => exact ⟨target, isMoved, .refl⟩
    | @head node next link _ ih =>
      by_cases movesHere : moved node
      · exact ⟨node, movesHere, .refl⟩
      · obtain ⟨first, moves, rest⟩ := ih
        exact ⟨first, moves, .head ((same node movesHere).trans link) rest⟩
  obtain ⟨first, moves, rest⟩ := upwards
  exact TransGen.tail' rest (new first moves)

theorem Rooted.exists_node (rooted : Rooted parentOf node) : ∃ link, parentOf node = some link := by
  cases rooted with
  | root isRoot => exact ⟨_, isRoot⟩
  | child link _ => exact ⟨_, link⟩

theorem Rooted.above (rooted : Rooted parentOf node)
    (path : ReflTransGen (Link parentOf) node target) :
    Rooted parentOf target := by
  induction path with
  | refl => exact rooted
  | tail _ link ih =>
    cases ih with
    | root isRoot =>
      rw [Link, isRoot] at link
      cases link
    | child other rootedParent =>
      rwa [other.unique link] at rootedParent

theorem endsWithin_succ (ends : endsWithin parentOf rounds node = true) :
    endsWithin parentOf (rounds + 1) node = true ∧
      pathToRoot parentOf (rounds + 1) node = pathToRoot parentOf rounds node := by
  induction rounds generalizing node with
  | zero => cases ends
  | succ rounds ih =>
    rw [endsWithin] at ends
    rw [endsWithin, pathToRoot, pathToRoot]
    cases found : parentOf node with
    | none => exact ⟨rfl, rfl⟩
    | some link =>
      cases link with
      | none => exact ⟨rfl, rfl⟩
      | some parent =>
        rw [found] at ends
        obtain ⟨endsLater, same⟩ := ih ends
        exact ⟨endsLater, congrArg (List.cons node) same⟩

theorem endsWithin_mono (ends : endsWithin parentOf rounds node = true)
    (atLeast : rounds ≤ more) : endsWithin parentOf more node = true ∧
      pathToRoot parentOf more node = pathToRoot parentOf rounds node := by
  induction atLeast with
  | refl => exact ⟨ends, rfl⟩
  | step _ ih =>
    obtain ⟨endsNext, same⟩ := endsWithin_succ ih.1
    exact ⟨endsNext, same.trans ih.2⟩

theorem pathToRoot_unique (ends : endsWithin parentOf rounds node = true)
    (endsMore : endsWithin parentOf more node = true) :
    pathToRoot parentOf rounds node = pathToRoot parentOf more node := by
  rcases Nat.le_total rounds more with atLeast | atMost
  · exact (endsWithin_mono ends atLeast).2.symm
  · exact (endsWithin_mono endsMore atMost).2

theorem Rooted.endsWithin (rooted : Rooted parentOf node) :
    ∃ rounds, endsWithin parentOf rounds node = true := by
  induction rooted with
  | root isRoot => exact ⟨1, by simp [ParentLinks.endsWithin, isRoot]⟩
  | @child node parent link _ ih =>
    obtain ⟨rounds, ends⟩ := ih
    refine ⟨rounds + 1, ?_⟩
    rw [ParentLinks.endsWithin, link]
    exact ends

theorem exists_node_of_mem (mem : target ∈ pathToRoot parentOf rounds node) :
    ∃ link, parentOf target = some link := by
  induction rounds generalizing node with
  | zero => cases mem
  | succ rounds ih =>
    rw [pathToRoot] at mem
    split at mem
    · cases mem
    next isRoot =>
      obtain rfl := mem_singleton.mp mem
      exact ⟨_, isRoot⟩
    next parent link =>
      rcases mem_cons.mp mem with rfl | later
      · exact ⟨_, link⟩
      · exact ih later

theorem reaches_of_mem (mem : target ∈ pathToRoot parentOf rounds node) :
    ReflTransGen (Link parentOf) node target := by
  induction rounds generalizing node with
  | zero => cases mem
  | succ rounds ih =>
    rw [pathToRoot] at mem
    split at mem
    · cases mem
    · obtain rfl := mem_singleton.mp mem
      exact .refl
    next parent link =>
      rcases mem_cons.mp mem with rfl | later
      · exact .refl
      · exact .head link (ih later)

theorem mem_of_reaches (ends : endsWithin parentOf rounds node = true)
    (path : ReflTransGen (Link parentOf) node target)
    {link : Option κ} (isNode : parentOf target = some link) :
    target ∈ pathToRoot parentOf rounds node := by
  induction rounds generalizing node with
  | zero => cases ends
  | succ rounds ih =>
    rcases ReflTransGen.cases_head path with rfl | ⟨next, first, rest⟩
    · rw [pathToRoot, isNode]
      cases link with
      | none => exact mem_singleton_self _
      | some parent => exact mem_cons_self
    · rw [endsWithin, first] at ends
      rw [pathToRoot, first]
      exact mem_cons_of_mem _ (ih ends rest)

theorem mem_pathToRoot_iff (ends : endsWithin parentOf rounds node = true) :
    target ∈ pathToRoot parentOf rounds node ↔ (∃ link, parentOf target = some link) ∧
        ReflTransGen (Link parentOf) node target := by
  constructor
  · intro mem
    exact ⟨exists_node_of_mem mem, reaches_of_mem mem⟩
  · rintro ⟨⟨link, isNode⟩, path⟩
    exact mem_of_reaches ends path isNode

theorem endsWithin_of_mem (ends : endsWithin parentOf rounds node = true)
    (mem : target ∈ pathToRoot parentOf rounds node) :
    ∃ fewer, endsWithin parentOf fewer target = true ∧ (pathToRoot parentOf fewer target).length ≤
        (pathToRoot parentOf rounds node).length := by
  induction rounds generalizing node with
  | zero => cases ends
  | succ rounds ih =>
    have whole := ends
    rw [endsWithin] at ends
    rw [pathToRoot] at mem
    split at mem
    · cases mem
    · obtain rfl := mem_singleton.mp mem
      exact ⟨rounds + 1, whole, Nat.le_refl _⟩
    next parent link =>
      rcases mem_cons.mp mem with rfl | later
      · exact ⟨rounds + 1, whole, Nat.le_refl _⟩
      · rw [link] at ends
        obtain ⟨fewer, endsFewer, shorter⟩ := ih ends later
        refine ⟨fewer, endsFewer, ?_⟩
        rw [pathToRoot, link]
        exact Nat.le_trans shorter (le_succ _)

theorem pathToRoot_nodup (ends : endsWithin parentOf rounds node = true) :
    (pathToRoot parentOf rounds node).Nodup := by
  induction rounds generalizing node with
  | zero => cases ends
  | succ rounds ih =>
    have whole := ends
    rw [endsWithin] at ends
    cases found : parentOf node with
    | none => simp [pathToRoot, found]
    | some link =>
      cases link with
      | none => simp [pathToRoot, found]
      | some parent =>
        rw [found] at ends
        have path : pathToRoot parentOf (rounds + 1) node =
            node :: pathToRoot parentOf rounds parent := by
          rw [pathToRoot, found]
        rw [path]
        refine nodup_cons.mpr ⟨fun again => ?_, ih ends⟩
        obtain ⟨fewer, endsFewer, shorter⟩ := endsWithin_of_mem ends again
        rw [pathToRoot_unique endsFewer whole, path] at shorter
        exact not_succ_le_self _ shorter

theorem endsWithin_length (ends : endsWithin parentOf rounds node = true) :
    endsWithin parentOf ((pathToRoot parentOf rounds node).length + 1) node =
      true := by
  induction rounds generalizing node with
  | zero => cases ends
  | succ rounds ih =>
    rw [endsWithin] at ends
    rw [pathToRoot, endsWithin]
    cases found : parentOf node with
    | none => rfl
    | some link =>
      cases link with
      | none => rfl
      | some parent =>
        rw [found] at ends
        exact ih ends

theorem Rooted.endsWithin_length (rooted : Rooted parentOf node) {nodes : List κ}
    (complete : ∀ node link, parentOf node = some link → node ∈ nodes) :
    ParentLinks.endsWithin parentOf (nodes.length + 1) node = true := by
  obtain ⟨rounds, ends⟩ := rooted.endsWithin
  have subset : pathToRoot parentOf rounds node ⊆ nodes := by
    intro target mem
    obtain ⟨link, isNode⟩ := exists_node_of_mem mem
    exact complete target link isNode
  have atMost := ((pathToRoot_nodup ends).subperm subset).length_le
  exact (endsWithin_mono (ParentLinks.endsWithin_length ends) (Nat.succ_le_succ atMost)).1

end ParentLinks
