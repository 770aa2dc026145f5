import N8n.Library.Collect
import N8n.Library.OrderedSet

/-!
# Searching every branch

`search stops edges follow` walks a graph along all branches that visit no
vertex twice.  A vertex at which the search stops ends its branch and is
collected; `follow` tells where an edge leads, if it is to be followed.  Since
a path can be shortened to one that visits no vertex twice, the search
collects the stopping vertices to which some path without an earlier stop
leads.  The tests and the edges may fail.
-/

namespace BranchSearch

open List Collect Relation

variable {α γ ε : Type}

/-- Visit the vertices to which the edges lead, one after the other. -/
def followEach (follow : γ → Except ε (Option α))
    (visit : α → List α → Except ε (List α)) (listed : List γ)
    (found : List α) : Except ε (List α) :=
  listed.foldlM (fun found edge => do
    match ← follow edge with
    | none => return found
    | some next => visit next found) found

def search [DecidableEq α] (stops : α → Except ε Bool) (edges : α → Except ε (List γ))
    (follow : γ → Except ε (Option α)) :
    Nat → α → List α → List α → Except ε (List α)
  | 0, _, found, _ => .ok found
  | fuel + 1, vertex, found, seen => do
    if ← stops vertex then
      return OrderedSet.add found vertex
    else if vertex ∈ seen then
      return found
    else
      followEach follow (fun next found =>
          search stops edges follow fuel next found (seen ++ [vertex]))
        (← edges vertex) found

variable {stops : α → Except ε Bool} {edges : α → Except ε (List γ)}
  {follow : γ → Except ε (Option α)} {seen : List α} {vertex other : α}

section

variable (stops : α → Except ε Bool)

variable (edges : α → Except ε (List γ))

variable (follow : γ → Except ε (Option α))

/-- The search goes on behind the first vertex and follows an edge to the
other one. -/
def Step (vertex other : α) : Prop :=
  stops vertex = .ok false ∧ ∃ listed, edges vertex = .ok listed ∧
    ∃ edge ∈ listed, follow edge = .ok (some other)

/-- A step behind a vertex that the branch has not met yet. -/
def FreshStep (seen : List α) (vertex other : α) : Prop :=
  vertex ∉ seen ∧ Step stops edges follow vertex other

/-- The test and the edges of the vertex do not fail. -/
def Sound (vertex : α) : Prop :=
  stops vertex = .ok true ∨ stops vertex = .ok false ∧ ∃ listed, edges vertex = .ok listed ∧
      ∀ edge ∈ listed, ∃ next, follow edge = .ok next

end

/-- The steps from vertices of a finite list stay in the list. -/
def Closed (edges : α → Except ε (List γ)) (follow : γ → Except ε (Option α))
    (universe' : List α) : Prop :=
  ∀ vertex ∈ universe', ∀ listed, edges vertex = .ok listed →
    ∀ edge ∈ listed, ∀ next, follow edge = .ok (some next) → next ∈ universe'

section Paths

theorem exists_last_visit (path : ReflTransGen (FreshStep stops edges follow seen) vertex
      other) (start : α) :
    ReflTransGen (FreshStep stops edges follow (seen ++ [start])) vertex other ∨
      ∃ next, FreshStep stops edges follow seen start next ∧
        ReflTransGen (FreshStep stops edges follow (seen ++ [start]))
          next other := by
  induction path using ReflTransGen.head_induction_on with
  | refl => exact .inl .refl
  | @head first next step _ ih =>
    rcases ih with without | visited
    · by_cases same : first = start
      · subst same
        exact .inr ⟨next, step, without⟩
      · refine .inl (.head ⟨?_, step.2⟩ without)
        rw [mem_append, mem_singleton, not_or]
        exact ⟨step.1, same⟩
    · exact .inr visited

theorem exists_next_of_ne (ne : vertex ≠ other)
    (path : ReflTransGen (FreshStep stops edges follow seen) vertex other) :
    ∃ next, FreshStep stops edges follow seen vertex next ∧
      ReflTransGen (FreshStep stops edges follow (seen ++ [vertex]))
        next other := by
  rcases exists_last_visit path vertex with without | visited
  · rcases without.cases_head with same | ⟨next, ⟨fresh, _⟩, _⟩
    · exact absurd same ne
    · exact absurd (mem_append_right _ (mem_singleton_self _)) fresh
  · exact visited

theorem fresh_of_next {next : α} (step : FreshStep stops edges follow seen vertex next)
    (path : ReflTransGen (FreshStep stops edges follow (seen ++ [vertex])) next other) :
    ReflTransGen (FreshStep stops edges follow seen) vertex other := by
  refine .head step (ReflTransGen.mono ?_ _ _ path)
  rintro first second ⟨fresh, follows⟩
  exact ⟨fun mem => fresh (mem_append_left _ mem), follows⟩

end Paths

section Result

def Collects (stops : α → Except ε Bool) (edges : α → Except ε (List γ))
    (follow : γ → Except ε (Option α)) (seen : List α) (vertex other : α) :
    Prop :=
  stops other = .ok true ∧ ReflTransGen (FreshStep stops edges follow seen) vertex other

theorem collects_of_stops (stopped : stops vertex = .ok true) :
    Collects stops edges follow seen vertex other ↔ other = vertex := by
  constructor
  · rintro ⟨_, path⟩
    rcases path.cases_head with same | ⟨_, ⟨_, goesOn, _⟩, _⟩
    · exact same.symm
    · rw [stopped] at goesOn
      cases goesOn
  · rintro rfl
    exact ⟨stopped, .refl⟩

theorem not_collects_of_seen (goesOn : stops vertex = .ok false) (mem : vertex ∈ seen) :
    ¬ Collects stops edges follow seen vertex other := by
  rintro ⟨stopped, path⟩
  rcases path.cases_head with rfl | ⟨_, ⟨fresh, _⟩, _⟩
  · rw [goesOn] at stopped
    cases stopped
  · exact fresh mem

variable {listed : List γ}

theorem collects_iff_next (goesOn : stops vertex = .ok false)
    (fresh : vertex ∉ seen) (isListed : edges vertex = .ok listed) :
    Collects stops edges follow seen vertex other ↔
      ∃ edge ∈ listed, ∃ next, follow edge = .ok (some next) ∧
        Collects stops edges follow (seen ++ [vertex]) next other := by
  constructor
  · rintro ⟨stopped, path⟩
    have ne : vertex ≠ other := by
      rintro rfl
      rw [goesOn] at stopped
      cases stopped
    obtain ⟨next, ⟨_, _, sameListed, isSame, edge, mem, follows⟩, rest⟩ := exists_next_of_ne ne path
    cases isListed.symm.trans isSame
    exact ⟨edge, mem, next, follows, stopped, rest⟩
  · rintro ⟨edge, mem, next, follows, stopped, rest⟩
    exact ⟨stopped, fresh_of_next ⟨fresh, goesOn, listed, isListed, edge, mem, follows⟩ rest⟩

variable {universe' : List α} {found : List α} {fuel : Nat} {visit : α → List α → Except ε (List α)}

theorem followEach_eq_ok {collects : α → α → Prop}
    (followed : ∀ edge ∈ listed, ∃ next, follow edge = .ok next)
    (visited : ∀ edge ∈ listed, ∀ next, follow edge = .ok (some next) →
      ∀ found, ∃ result, visit next found = .ok result ∧
        ∀ other, other ∈ result ↔ other ∈ found ∨ collects next other)
    (found : List α) :
    ∃ result, followEach follow visit listed found = .ok result ∧
      ∀ other, other ∈ result ↔ other ∈ found ∨
        ∃ edge ∈ listed, ∃ next, follow edge = .ok (some next) ∧ collects next other := by
  induction listed generalizing found with
  | nil => exact ⟨found, rfl, by simp⟩
  | cons edge rest ih =>
    have restIh := ih (fun later mem => followed later (mem_cons_of_mem _ mem))
      (fun later mem => visited later (mem_cons_of_mem _ mem))
    obtain ⟨target, follows⟩ := followed edge mem_cons_self
    rw [followEach, foldlM_cons, follows]
    cases target with
    | none =>
      obtain ⟨result, folded, exactly⟩ := restIh found
      refine ⟨result, folded, fun other => ?_⟩
      rw [exactly]
      simp [follows]
    | some next =>
      obtain ⟨middle, isVisited, first⟩ := visited edge mem_cons_self next follows found
      obtain ⟨result, folded, exactly⟩ := restIh middle
      refine ⟨result, (congrArg (· >>= _) isVisited).trans folded, fun other => ?_⟩
      rw [exactly, first]
      simp [follows, or_assoc]

theorem followed_of_followEach_eq_ok
    {result : List α} (ok : followEach follow visit listed found = .ok result) :
    ∀ edge ∈ listed, ∃ target, follow edge = .ok target ∧ ∀ next, target = some next →
        ∃ before after, visit next before = .ok after := by
  induction listed generalizing found with
  | nil => simp
  | cons edge rest ih =>
    obtain ⟨middle, first, folded⟩ := Except.bind_eq_ok_iff.mp ok
    obtain ⟨target, follows, visited⟩ := Except.bind_eq_ok_iff.mp first
    intro other mem
    rcases mem_cons.mp mem with rfl | later
    · refine ⟨target, follows, ?_⟩
      rintro next rfl
      exact ⟨found, middle, visited⟩
    · exact ih folded other later

theorem followEach_congr {visit other : α → List α → Except ε (List α)}
    (same : ∀ edge ∈ listed, ∀ next, follow edge = .ok (some next) →
      ∀ found, visit next found = other next found) (found : List α) :
    followEach follow visit listed found = followEach follow other listed found := by
  induction listed generalizing found with
  | nil => rfl
  | cons edge rest ih =>
    have restSame := ih fun later mem =>
      same later (mem_cons_of_mem _ mem)
    rw [followEach, followEach, foldlM_cons, foldlM_cons]
    cases follows : follow edge with
    | error error => rfl
    | ok target =>
      cases target with
      | none => exact restSame found
      | some next =>
        change (visit next found >>= _) = (other next found >>= _)
        rw [same edge mem_cons_self next follows found]
        congr 1
        funext middle
        exact restSame middle

variable [DecidableEq α]

theorem search_of_stops (stopped : stops vertex = .ok true) :
    search stops edges follow (fuel + 1) vertex found seen = .ok (OrderedSet.add found vertex) := by
  rw [search, stopped]
  rfl

theorem search_of_seen (goesOn : stops vertex = .ok false) (met : vertex ∈ seen) :
    search stops edges follow (fuel + 1) vertex found seen = .ok found := by
  rw [search, goesOn]
  change (if vertex ∈ seen then _ else _) = _
  rw [if_pos met]
  rfl

theorem search_of_fresh (goesOn : stops vertex = .ok false) (fresh : vertex ∉ seen) :
    search stops edges follow (fuel + 1) vertex found seen =
      edges vertex >>= fun listed => followEach follow (fun next found =>
          search stops edges follow fuel next found (seen ++ [vertex]))
        listed found := by
  rw [search, goesOn]
  change (if vertex ∈ seen then _ else _) = _
  rw [if_neg fresh]

/-- If nothing that the search can meet fails, it collects the stopping
vertices to which a path leads. -/
theorem search_eq_ok (closed : Closed edges follow universe') (listed : vertex ∈ universe')
    (sound : ∀ other, ReflTransGen (Step stops edges follow) vertex
      other → Sound stops edges follow other)
    (enough : missing universe' seen < fuel) :
    ∃ result, search stops edges follow fuel vertex found seen = .ok result ∧
      ∀ other, other ∈ result ↔ other ∈ found ∨ Collects stops edges follow seen vertex other := by
  induction fuel generalizing vertex found seen with
  | zero => exact absurd enough (Nat.not_lt_zero _)
  | succ fuel ih =>
    rcases sound vertex .refl with stopped | ⟨goesOn, listedEdges, isListed, followed⟩
    · refine ⟨_, search_of_stops stopped, fun other => ?_⟩
      rw [OrderedSet.mem_add, collects_of_stops stopped]
    · by_cases met : vertex ∈ seen
      · refine ⟨found, search_of_seen goesOn met, fun other => ?_⟩
        simp [not_collects_of_seen goesOn met]
      · have visited : ∀ edge ∈ listedEdges, ∀ next,
            follow edge = .ok (some next) → ∀ found, ∃ result,
              search stops edges follow fuel next found (seen ++ [vertex]) = .ok result ∧
              ∀ other, other ∈ result ↔ other ∈ found ∨
                Collects stops edges follow (seen ++ [vertex]) next
                  other := by
          intro edge mem next follows found
          apply ih (closed vertex listed listedEdges isListed edge mem
            next follows)
          · intro other path
            exact sound other (.head ⟨goesOn, listedEdges, isListed, edge, mem, follows⟩ path)
          · have fewer := missing_append listed met
            omega
        obtain ⟨result, folded, exactly⟩ := followEach_eq_ok followed visited found
        refine ⟨result, ?_, fun other => ?_⟩
        · rw [search_of_fresh goesOn met, isListed]
          exact folded
        · rw [exactly, collects_iff_next goesOn met isListed]

theorem sound_of_search_eq_ok (closed : Closed edges follow universe') (listed : vertex ∈ universe')
    (enough : missing universe' seen < fuel) {result : List α}
    (success : search stops edges follow fuel vertex found seen =
      .ok result) (unseen : other ∉ seen)
    (path : ReflTransGen (FreshStep stops edges follow seen) vertex
      other) : Sound stops edges follow other := by
  induction fuel generalizing vertex found seen result with
  | zero => exact absurd enough (Nat.not_lt_zero _)
  | succ fuel ih =>
    cases stopped : stops vertex with
    | error error =>
      rw [search, stopped] at success
      cases success
    | ok stop =>
      cases stop with
      | true =>
        rcases path.cases_head with rfl | ⟨_, ⟨_, goesOn, _⟩, _⟩
        · exact .inl stopped
        · rw [stopped] at goesOn
          cases goesOn
      | false =>
        by_cases met : vertex ∈ seen
        · rcases path.cases_head with rfl | ⟨_, ⟨fresh, _⟩, _⟩
          · exact absurd met unseen
          · exact absurd met fresh
        · rw [search_of_fresh stopped met] at success
          obtain ⟨listedEdges, isListed, folded⟩ := Except.bind_eq_ok_iff.mp success
          have followed := followed_of_followEach_eq_ok folded
          by_cases same : vertex = other
          · subst same
            refine .inr ⟨stopped, listedEdges, isListed, ?_⟩
            intro edge mem
            obtain ⟨target, follows, _⟩ := followed edge mem
            exact ⟨target, follows⟩
          · obtain ⟨next, ⟨_, _, sameEdges, isSame, edge, mem,
              follows⟩, rest⟩ := exists_next_of_ne same path
            cases isListed.symm.trans isSame
            obtain ⟨target, isTarget, visited⟩ := followed edge mem
            cases follows.symm.trans isTarget
            obtain ⟨before, after, searched⟩ := visited next rfl
            refine ih (closed vertex listed listedEdges isListed edge
              mem next follows) ?_ searched ?_ rest
            · have fewer := missing_append listed met
              omega
            · rw [mem_append, mem_singleton, not_or]
              exact ⟨unseen, Ne.symm same⟩

theorem search_eq_search (closed : Closed edges follow universe')
    (listed : vertex ∈ universe') {more : Nat}
    (enough : missing universe' seen < fuel)
    (alsoEnough : missing universe' seen < more) :
    search stops edges follow fuel vertex found seen =
      search stops edges follow more vertex found seen := by
  induction fuel generalizing vertex found seen more with
  | zero => exact absurd enough (Nat.not_lt_zero _)
  | succ fuel ih =>
    cases more with
    | zero => exact absurd alsoEnough (Nat.not_lt_zero _)
    | succ more =>
      cases stopped : stops vertex with
      | error error =>
        rw [search, search, stopped]
        rfl
      | ok stop =>
        cases stop with
        | true => rw [search_of_stops stopped, search_of_stops stopped]
        | false =>
          by_cases met : vertex ∈ seen
          · rw [search_of_seen stopped met, search_of_seen stopped met]
          · rw [search_of_fresh stopped met, search_of_fresh stopped met]
            cases isListed : edges vertex with
            | error error => rfl
            | ok listedEdges =>
              refine followEach_congr ?_ found
              intro edge mem next follows found
              have fewer := missing_append listed met
              exact ih (closed vertex listed listedEdges isListed
                edge mem next follows) (by omega) (by omega)

end Result

end BranchSearch
