import Mathlib.Data.List.Forall2

/-!
# Searches whose branches have to agree

A search follows every branch of a vertex, takes a branch that fails for one
without a result, and answers what the other branches answer when they agree.
It fails with an error of its own when they do not, and with the error of the
first branch when all of them fail.

`combine` cannot tell a branch that leads nowhere from one that fails since it
is ambiguous.  The search answers the result to which the paths lead, if it is
the only one, unless an ambiguity is hidden in this way.
-/

namespace AgreeingSearch

open List

variable {γ ρ ε : Type}

/-- What is found at a vertex.  A vertex with branches has an error for the case
that there are none, and one for results that differ. -/
inductive Place (γ ρ ε : Type) where
  | failed (error : ε)
  | arrived (result : ρ)
  | branching (next : List γ) (nothing ambiguous : ε)

def found (results : List (Except ε ρ)) : List ρ :=
  results.filterMap Except.toOption

section Search

variable [DecidableEq ρ]

def combine (nothing ambiguous : ε) (results : List (Except ε ρ)) : Except ε ρ :=
  match found results with
  | first :: rest =>
    if rest.any (· ≠ first) then .error ambiguous else .ok first
  | [] =>
    match results.head? with
    | some (.error error) => .error error
    | _ => .error nothing

def search (place : γ → Place γ ρ ε) : Nat → γ → Option (Except ε ρ)
  | 0, _ => none
  | fuel + 1, vertex =>
    match place vertex with
    | .failed error => some (.error error)
    | .arrived result => some (.ok result)
    | .branching next nothing ambiguous =>
      (next.mapM (search place fuel)).map (combine nothing ambiguous)

def Answers (place : γ → Place γ ρ ε) (vertex : γ) (answer : Except ε ρ) : Prop :=
  ∃ fuel, search place fuel vertex = some answer

end Search

section

variable (place : γ → Place γ ρ ε)

def Follows (next vertex : γ) : Prop :=
  ∃ listed nothing ambiguous, place vertex = .branching listed nothing ambiguous ∧ next ∈ listed

/-- Some path of branches leads to the result. -/
inductive Reaches (place : γ → Place γ ρ ε) : γ → ρ → Prop where
  | arrived {vertex : γ} {result : ρ} : place vertex = .arrived result → Reaches place vertex result
  | follow {vertex next : γ} {result : ρ} : Follows place next vertex → Reaches place next result →
      Reaches place vertex result

def ReachesOne (vertex : γ) (result : ρ) : Prop :=
  ∀ other, Reaches place vertex other ↔ other = result

def ReachesSeveral (vertex : γ) : Prop :=
  ∃ result other, Reaches place vertex result ∧ Reaches place vertex other ∧ result ≠ other

/-- One of the branches is ambiguous, and the branches that are not agree. -/
def HidesAmbiguity (next : List γ) : Prop :=
  (∃ branch ∈ next, ReachesSeveral place branch) ∧
    ∃ result, (∃ branch ∈ next, ReachesOne place branch result) ∧
      ∀ branch ∈ next, ∀ other, ReachesOne place branch other → other = result

end

/-! ## The end of a search -/

section Search

variable [DecidableEq ρ] {place : γ → Place γ ρ ε}

theorem mapM_eq_some_iff {α β : Type} {change : α → Option β} {items : List α} {results : List β} :
    items.mapM change = some results ↔
      List.Forall₂ (fun item result => change item = some result) items
        results := by
  induction items generalizing results with
  | nil => simp [eq_comm]
  | cons item items ih =>
    rw [mapM_cons, forall₂_cons_left_iff]
    constructor
    · intro changed
      obtain ⟨result, first, others⟩ := Option.bind_eq_some_iff.mp changed
      obtain ⟨rest, later, equal⟩ := Option.bind_eq_some_iff.mp others
      exact ⟨result, rest, first, ih.mp later, (Option.some.inj equal).symm⟩
    · intro pairs
      obtain ⟨result, rest, first, later, equal⟩ := pairs
      simp [first, ih.mpr later, equal]

theorem exists_of_mem {α β : Type} {related : α → β → Prop} {items : List α}
    {others : List β} (pairs : List.Forall₂ related items others) {item : α}
    (mem : item ∈ items) : ∃ other ∈ others, related item other := by
  induction pairs with
  | nil => cases mem
  | cons first _ ih =>
    rcases mem_cons.mp mem with rfl | later
    · exact ⟨_, mem_cons_self, first⟩
    · obtain ⟨other, isOther, pair⟩ := ih later
      exact ⟨other, .tail _ isOther, pair⟩

theorem search_succ (fuel : Nat) (vertex : γ) : search place (fuel + 1) vertex =
      match place vertex with
      | .failed error => some (.error error)
      | .arrived result => some (.ok result)
      | .branching next nothing ambiguous =>
        (next.mapM (search place fuel)).map (combine nothing ambiguous) :=
  rfl

variable {vertex : γ}

theorem search_mono {fuel more : Nat} {answer : Except ε ρ}
    (ended : search place fuel vertex = some answer) (enough : fuel ≤ more) :
    search place more vertex = some answer := by
  induction fuel generalizing more vertex answer with
  | zero => cases ended
  | succ fuel ih =>
    obtain ⟨more, rfl⟩ : ∃ rest, more = rest + 1 := ⟨more - 1, by omega⟩
    rw [search_succ] at ended ⊢
    cases here : place vertex with
    | failed error | arrived result => simpa [here] using ended
    | branching next nothing ambiguous =>
      simp only [here, Option.map_eq_some_iff] at ended ⊢
      obtain ⟨answers, searched, combined⟩ := ended
      refine ⟨answers, mapM_eq_some_iff.mpr ?_, combined⟩
      exact (mapM_eq_some_iff.mp searched).imp fun branch answer ended =>
        ih ended (by omega)

theorem Answers.unique {answer other : Except ε ρ} (first : Answers place vertex answer)
    (second : Answers place vertex other) : answer = other := by
  obtain ⟨fuel, ended⟩ := first
  obtain ⟨more, endedToo⟩ := second
  exact Option.some.inj ((search_mono ended (Nat.le_max_left fuel more)).symm.trans
      (search_mono endedToo (Nat.le_max_right fuel more)))

theorem answers_of_failed {error : ε} (here : place vertex = .failed error) :
    Answers place vertex (.error error) :=
  ⟨1, by rw [search_succ, here]⟩

theorem answers_of_arrived {result : ρ} (here : place vertex = .arrived result) :
    Answers place vertex (.ok result) :=
  ⟨1, by rw [search_succ, here]⟩

variable {answers : List (Except ε ρ)}

theorem exists_common_fuel {next : List γ} (answered : List.Forall₂ (Answers place) next answers) :
    ∃ fuel, List.Forall₂ (fun branch answer => search place fuel branch = some answer) next
      answers := by
  induction answered with
  | nil => exact ⟨0, .nil⟩
  | cons first _ ih =>
    obtain ⟨fuel, ended⟩ := first
    obtain ⟨more, others⟩ := ih
    refine ⟨max fuel more, .cons (search_mono ended (by omega)) ?_⟩
    exact others.imp fun branch answer ended =>
      search_mono ended (by omega)

theorem answers_of_branching {next : List γ} {nothing ambiguous : ε}
    (here : place vertex = .branching next nothing ambiguous)
    (answered : List.Forall₂ (Answers place) next answers) :
    Answers place vertex (combine nothing ambiguous answers) := by
  obtain ⟨fuel, ended⟩ := exists_common_fuel answered
  refine ⟨fuel + 1, ?_⟩
  rw [search_succ, here]
  simp only [mapM_eq_some_iff.mpr ended, Option.map_some]

theorem acc_of_answers {answer : Except ε ρ} (answered : Answers place vertex answer) :
    Acc (Follows place) vertex := by
  obtain ⟨fuel, ended⟩ := answered
  induction fuel generalizing vertex answer with
  | zero => cases ended
  | succ fuel ih =>
    refine ⟨vertex, ?_⟩
    intro branch follows
    obtain ⟨next, nothing, ambiguous, here, mem⟩ := follows
    rw [search_succ, here] at ended
    obtain ⟨answers, searched, -⟩ := Option.map_eq_some_iff.mp ended
    obtain ⟨_, _, ended⟩ := exists_of_mem (mapM_eq_some_iff.mp searched) mem
    exact ih ended

theorem exists_answers {next : List γ} (each : ∀ branch ∈ next, ∃ answer, Answers place branch answer) :
    ∃ answers, List.Forall₂ (Answers place) next answers := by
  induction next with
  | nil => exact ⟨[], .nil⟩
  | cons branch next ih =>
    obtain ⟨answer, answered⟩ := each branch mem_cons_self
    obtain ⟨answers, others⟩ := ih fun later mem => each later (mem_cons_of_mem branch mem)
    exact ⟨answer :: answers, .cons answered others⟩

/-- Where no path is endless, the search ends. -/
theorem answers_of_acc (ends : Acc (Follows place) vertex) :
    ∃ answer, Answers place vertex answer := by
  induction ends with
  | intro vertex _ ih =>
    cases here : place vertex with
    | failed error => exact ⟨_, answers_of_failed here⟩
    | arrived result => exact ⟨_, answers_of_arrived here⟩
    | branching next nothing ambiguous =>
      obtain ⟨answers, answered⟩ := exists_answers fun branch mem =>
        ih branch ⟨next, nothing, ambiguous, here, mem⟩
      exact ⟨_, answers_of_branching here answered⟩

end Search

/-! ## What the answer says -/

section Reached

variable {place : γ → Place γ ρ ε}

/-- An answer is the only result that is reached, and an error says that there
is no such result. -/
def Fits (place : γ → Place γ ρ ε) (proper : ε → Prop) (vertex : γ) : Except ε ρ → Prop
  | .ok result => ReachesOne place vertex result
  | .error error => proper error ∧ ¬ ∃ result, ReachesOne place vertex result

variable {vertex : γ}

theorem reaches_iff {result : ρ} : Reaches place vertex result ↔ place vertex = .arrived result ∨
      ∃ next, Follows place next vertex ∧ Reaches place next result := by
  constructor
  · intro reaches
    cases reaches with
    | arrived here => exact .inl here
    | follow follows later => exact .inr ⟨_, follows, later⟩
  · rintro (here | ⟨next, follows, later⟩)
    · exact .arrived here
    · exact .follow follows later

theorem reaches_arrived_iff {result other : ρ} (here : place vertex = .arrived result) :
    Reaches place vertex other ↔ other = result := by
  rw [reaches_iff]
  simp [Follows, here, eq_comm]

theorem not_reaches_failed {error : ε} {result : ρ} (here : place vertex = .failed error) :
    ¬ Reaches place vertex result := by
  rw [reaches_iff]
  simp [Follows, here]

section Branching

variable {next : List γ} {nothing ambiguous : ε} {result : ρ}

theorem reaches_branching_iff (here : place vertex = .branching next nothing ambiguous) :
    Reaches place vertex result ↔ ∃ branch ∈ next, Reaches place branch result := by
  rw [reaches_iff]
  simp [Follows, here]

variable {branch : γ}

theorem ReachesOne.of_branch {result other : ρ}
    (here : place vertex = .branching next nothing ambiguous)
    (one : ReachesOne place vertex result) (mem : branch ∈ next)
    (reaches : Reaches place branch other) :
    ReachesOne place branch result := by
  have only : ∀ other, Reaches place branch other → other = result :=
    fun other later =>
      (one other).mp ((reaches_branching_iff here).mpr ⟨branch, mem, later⟩)
  intro another
  constructor
  · exact only another
  · intro equal
    rw [equal, ← only other reaches]
    exact reaches

theorem reachesSeveral_of_not_one (reaches : Reaches place vertex result)
    (notOne : ¬ ∃ result, ReachesOne place vertex result) :
    ReachesSeveral place vertex := by
  by_contra notSeveral
  apply notOne
  refine ⟨result, fun other => ⟨fun later => ?_, fun equal => equal ▸ reaches⟩⟩
  by_contra ne
  exact notSeveral ⟨other, result, later, reaches, ne⟩

variable {answers : List (Except ε ρ)} {proper : ε → Prop}

theorem mem_found_iff : result ∈ found answers ↔ (.ok result) ∈ answers := by
  have converts (answer : Except ε ρ) : answer.toOption = some result ↔ answer = .ok result := by
    cases answer <;> simp [Except.toOption]
  simp [found, mem_filterMap, converts]

theorem mem_found_iff_reachesOne (pairs : List.Forall₂ (Fits place proper) next answers) :
    result ∈ found answers ↔ ∃ branch ∈ next, ReachesOne place branch result := by
  rw [mem_found_iff]
  constructor
  · intro mem
    exact exists_of_mem pairs.flip mem
  · intro reached
    obtain ⟨branch, mem, one⟩ := reached
    obtain ⟨answer, answered, fits⟩ := exists_of_mem pairs mem
    cases answer with
    | error error => exact absurd ⟨result, one⟩ fits.2
    | ok other =>
      rw [(fits result).mp ((one result).mpr rfl)]
      exact answered

/-- What a branch reaches that has no single result, is one of several. -/
theorem hidesAmbiguity_of_found {first other : ρ}
    (pairs : List.Forall₂ (Fits place proper) next answers)
    (taken : first ∈ found answers)
    (agree : ∀ result ∈ found answers, result = first)
    (mem : branch ∈ next) (reaches : Reaches place branch other)
    (ne : other ≠ first) : HidesAmbiguity place next := by
  obtain ⟨one, oneMem, reachesOne⟩ := (mem_found_iff_reachesOne pairs).mp taken
  refine ⟨⟨branch, mem, ?_⟩, first, ⟨one, oneMem, reachesOne⟩, ?_⟩
  · apply reachesSeveral_of_not_one reaches
    intro single
    obtain ⟨result, reachesResult⟩ := single
    have same := agree result ((mem_found_iff_reachesOne pairs).mpr ⟨branch, mem, reachesResult⟩)
    exact ne (((reachesResult other).mp reaches).trans same)
  · intro branch mem result reachesResult
    exact agree result ((mem_found_iff_reachesOne pairs).mpr ⟨branch, mem, reachesResult⟩)

end Branching

end Reached

section Meets

variable {place : γ → Place γ ρ ε} {vertex : γ} {next : List γ}
  {nothing ambiguous : ε} {answers : List (Except ε ρ)} {proper : ε → Prop}
  {result : ρ}

theorem reaches_of_found (here : place vertex = .branching next nothing ambiguous)
    (pairs : List.Forall₂ (Fits place proper) next answers)
    (taken : result ∈ found answers) : Reaches place vertex result := by
  obtain ⟨branch, mem, one⟩ := (mem_found_iff_reachesOne pairs).mp taken
  exact (reaches_branching_iff here).mpr ⟨branch, mem, (one result).mpr rfl⟩

theorem found_of_reachesOne (here : place vertex = .branching next nothing ambiguous)
    (pairs : List.Forall₂ (Fits place proper) next answers)
    (one : ReachesOne place vertex result) : result ∈ found answers := by
  obtain ⟨branch, mem, reaches⟩ := (reaches_branching_iff here).mp ((one result).mpr rfl)
  exact (mem_found_iff_reachesOne pairs).mpr ⟨branch, mem, one.of_branch here mem reaches⟩

theorem reachesOne_of_agree {first : ρ} (here : place vertex = .branching next nothing ambiguous)
    (pairs : List.Forall₂ (Fits place proper) next answers)
    (shown : ¬ HidesAmbiguity place next) (taken : first ∈ found answers)
    (agree : ∀ result ∈ found answers, result = first) :
    ReachesOne place vertex first := by
  intro other
  constructor
  · intro reaches
    by_contra ne
    obtain ⟨branch, mem, later⟩ := (reaches_branching_iff here).mp reaches
    exact shown (hidesAmbiguity_of_found pairs taken agree mem later ne)
  · intro equal
    rw [equal]
    exact reaches_of_found here pairs taken

variable [DecidableEq ρ]

theorem combine_of_found_eq_nil (none : found answers = []) :
    combine nothing ambiguous answers = .error nothing ∧ answers = [] ∨
      ∃ error, .error error ∈ answers ∧ combine nothing ambiguous answers = .error error := by
  unfold combine
  rw [none]
  cases answers with
  | nil => exact .inl ⟨rfl, rfl⟩
  | cons answer answers =>
    cases answer with
    | ok result =>
      have inFound := mem_found_iff.mpr (mem_cons_self (a := Except.ok result) (l := answers))
      rw [none] at inFound
      cases inFound
    | error error => exact .inr ⟨error, mem_cons_self, rfl⟩

theorem combine_of_agree {first : ρ} (taken : first ∈ found answers)
    (agree : ∀ result ∈ found answers, result = first) :
    combine nothing ambiguous answers = .ok first := by
  unfold combine
  cases listed : found answers with
  | nil =>
    rw [listed] at taken
    cases taken
  | cons head rest =>
    rw [listed] at agree
    have headSame := agree head mem_cons_self
    subst headSame
    have restSame : rest.any (· ≠ head) = false := by
      rw [any_eq_false]
      intro other inRest
      rw [agree other (mem_cons_of_mem head inRest)]
      simp
    simp only [restSame, Bool.false_eq_true, if_false]

theorem combine_of_differ {first other : ρ} (taken : first ∈ found answers)
    (takenToo : other ∈ found answers) (ne : other ≠ first) :
    combine nothing ambiguous answers = .error ambiguous := by
  unfold combine
  cases listed : found answers with
  | nil =>
    rw [listed] at taken
    cases taken
  | cons head rest =>
    apply if_pos
    rw [any_eq_true]
    rw [listed] at taken takenToo
    by_cases same : first = head
    · refine ⟨other, ?_, decide_eq_true (same ▸ ne)⟩
      exact (mem_cons.mp takenToo).resolve_left (same ▸ ne)
    · refine ⟨first, ?_, decide_eq_true same⟩
      exact (mem_cons.mp taken).resolve_left same

theorem fits_combine (here : place vertex = .branching next nothing ambiguous)
    (pairs : List.Forall₂ (Fits place proper) next answers)
    (nothingProper : next = [] → proper nothing)
    (ambiguousProper : proper ambiguous) (shown : ¬ HidesAmbiguity place next) :
    Fits place proper vertex (combine nothing ambiguous answers) := by
  cases listed : found answers with
  | nil =>
    have notOne : ¬ ∃ result, ReachesOne place vertex result := by
      intro single
      obtain ⟨result, one⟩ := single
      have taken := found_of_reachesOne here pairs one
      rw [listed] at taken
      cases taken
    rcases combine_of_found_eq_nil listed with ⟨combined, noAnswers⟩ | failed
    · have noBranch : next = [] :=
        eq_nil_of_length_eq_zero (by rw [pairs.length_eq, noAnswers]; rfl)
      rw [combined]
      exact ⟨nothingProper noBranch, notOne⟩
    · obtain ⟨error, mem, combined⟩ := failed
      obtain ⟨branch, _, fits⟩ := exists_of_mem pairs.flip mem
      rw [combined]
      exact ⟨fits.1, notOne⟩
  | cons first rest =>
    have taken : first ∈ found answers := by
      rw [listed]
      exact mem_cons_self
    by_cases agree : ∀ result ∈ found answers, result = first
    · rw [combine_of_agree taken agree]
      exact reachesOne_of_agree here pairs shown taken agree
    · obtain ⟨other, takenToo, ne⟩ : ∃ other ∈ found answers, other ≠ first := by simpa using agree
      rw [combine_of_differ taken takenToo ne]
      refine ⟨ambiguousProper, ?_⟩
      intro single
      obtain ⟨result, one⟩ := single
      have same := (one first).mp (reaches_of_found here pairs taken)
      have sameToo := (one other).mp (reaches_of_found here pairs takenToo)
      exact ne (sameToo.trans same.symm)

theorem combine_of_hidesAmbiguity (nothing ambiguous : ε)
    (pairs : List.Forall₂ (Fits place proper) next answers)
    (hidden : HidesAmbiguity place next) :
    ∃ result, combine nothing ambiguous answers = .ok result := by
  obtain ⟨-, result, one, agree⟩ := hidden
  have taken := (mem_found_iff_reachesOne pairs).mpr one
  refine ⟨result, combine_of_agree taken ?_⟩
  intro other inFound
  obtain ⟨branch, mem, reaches⟩ := (mem_found_iff_reachesOne pairs).mp inFound
  exact agree branch mem other reaches

/-! ## When the search does what it should -/

/-- The search ends with a valid result that is reached, and the only one, or
with a proper error. -/
def Meets (place : γ → Place γ ρ ε) (valid : ρ → Prop) (proper : ε → Prop) (vertex : γ) : Prop :=
  ∃ answer, Answers place vertex answer ∧
    match answer with
    | .ok result =>
      valid result ∧ Reaches place vertex result ∧
        ∀ other, valid other → Reaches place vertex other → other = result
    | .error error => proper error

def Sound (place : γ → Place γ ρ ε) (valid : ρ → Prop) (proper : ε → Prop) (vertex : γ) : Prop :=
  match place vertex with
  | .failed error => proper error
  | .arrived result => valid result
  | .branching next nothing _ =>
    (next = [] → proper nothing) ∧ ¬ HidesAmbiguity place next

variable {valid : ρ → Prop} {scope : γ → Prop}

omit [DecidableEq ρ] in
theorem valid_of_reaches
    (closed : ∀ vertex, scope vertex → ∀ next, Follows place next vertex → scope next)
    (arrived : ∀ vertex, scope vertex → ∀ result, place vertex = .arrived result → valid result)
    (inScope : scope vertex) (reaches : Reaches place vertex result) :
    valid result := by
  induction reaches with
  | arrived here => exact arrived _ inScope _ here
  | follow follows _ ih => exact ih (closed _ inScope _ follows)

theorem exists_fitting_answers (each : ∀ branch ∈ next, ∃ answer, Answers place branch answer ∧
      Fits place proper branch answer) :
    ∃ answers, List.Forall₂ (Answers place) next answers ∧
      List.Forall₂ (Fits place proper) next answers := by
  induction next with
  | nil => exact ⟨[], .nil, .nil⟩
  | cons branch next ih =>
    obtain ⟨answer, answered, fits⟩ := each branch mem_cons_self
    obtain ⟨answers, others, otherFits⟩ := ih fun later mem =>
      each later (mem_cons_of_mem branch mem)
    exact ⟨answer :: answers, .cons answered others, .cons fits otherFits⟩

theorem exists_fitting_answer (ambiguousProper : ∀ next nothing ambiguous,
      place vertex = .branching next nothing ambiguous → proper ambiguous)
    (sound : Sound place valid proper vertex)
    (each : ∀ next, Follows place next vertex → ∃ answer,
      Answers place next answer ∧ Fits place proper next answer) :
    ∃ answer, Answers place vertex answer ∧ Fits place proper vertex answer := by
  unfold Sound at sound
  cases here : place vertex with
  | failed error =>
    rw [here] at sound
    refine ⟨.error error, answers_of_failed here, sound, ?_⟩
    intro single
    obtain ⟨result, one⟩ := single
    exact not_reaches_failed here ((one result).mpr rfl)
  | arrived result =>
    exact ⟨.ok result, answers_of_arrived here, fun other => reaches_arrived_iff here⟩
  | branching next nothing ambiguous =>
    rw [here] at sound
    obtain ⟨answers, answered, fits⟩ := exists_fitting_answers
      fun branch mem => each branch ⟨next, nothing, ambiguous, here, mem⟩
    exact ⟨_, answers_of_branching here answered, fits_combine here fits sound.1
        (ambiguousProper next nothing ambiguous here) sound.2⟩

theorem meets_of_fits {answer : Except ε ρ}
    (validReached : ∀ result, Reaches place vertex result → valid result)
    (answered : Answers place vertex answer)
    (fits : Fits place proper vertex answer) :
    Meets place valid proper vertex := by
  refine ⟨answer, answered, ?_⟩
  cases answer with
  | error error => exact fits.1
  | ok result =>
    have reached := (fits result).mpr rfl
    exact ⟨validReached result reached, reached, fun other _ reaches => (fits other).mp reaches⟩

theorem sound_of_meets (validReached : ∀ result, Reaches place vertex result → valid result)
    (arrived : ∀ result, place vertex = .arrived result → valid result)
    (meets : Meets place valid proper vertex)
    (each : ∀ next, Follows place next vertex → ∃ answer,
      Answers place next answer ∧ Fits place proper next answer) :
    Sound place valid proper vertex := by
  obtain ⟨answer, answered, meets⟩ := meets
  unfold Sound
  cases here : place vertex with
  | failed error =>
    cases answered.unique (answers_of_failed here)
    exact meets
  | arrived result => exact arrived result here
  | branching next nothing ambiguous =>
    obtain ⟨answers, answeredEach, fits⟩ := exists_fitting_answers
      fun branch mem => each branch ⟨next, nothing, ambiguous, here, mem⟩
    have combined := answers_of_branching here answeredEach
    constructor
    · intro noBranch
      subst noBranch
      cases answeredEach
      cases answered.unique combined
      exact meets
    · intro hidden
      obtain ⟨result, agreed⟩ := combine_of_hidesAmbiguity nothing ambiguous fits hidden
      rw [agreed] at combined
      cases answered.unique combined
      obtain ⟨-, -, only⟩ := meets
      obtain ⟨⟨branch, mem, left, right, reachesLeft, reachesRight, ne⟩, -⟩ := hidden
      have reached : ∀ other, Reaches place branch other → other = result := by
        intro other later
        have reaches := (reaches_branching_iff here).mpr ⟨branch, mem, later⟩
        exact only other (validReached other reaches) reaches
      exact ne ((reached left reachesLeft).trans (reached right reachesRight).symm)

/-- The search does what it should at each of the vertices from which no branch
leads away, if and only if no path from them is endless and they are sound. -/
theorem forall_meets_iff
    (closed : ∀ vertex, scope vertex → ∀ next, Follows place next vertex → scope next)
    (ambiguousProper : ∀ vertex next nothing ambiguous,
      place vertex = .branching next nothing ambiguous → proper ambiguous) :
    (∀ vertex, scope vertex → Meets place valid proper vertex) ↔ ∀ vertex, scope vertex →
        Acc (Follows place) vertex ∧ Sound place valid proper vertex := by
  constructor
  · intro meets
    have arrived : ∀ vertex, scope vertex → ∀ result,
        place vertex = .arrived result → valid result := by
      intro vertex inScope result here
      obtain ⟨answer, answered, meets⟩ := meets vertex inScope
      cases answered.unique (answers_of_arrived here)
      exact meets.1
    have ends : ∀ vertex, scope vertex → Acc (Follows place) vertex := by
      intro vertex inScope
      obtain ⟨answer, answered, _⟩ := meets vertex inScope
      exact acc_of_answers answered
    -- The answers of the branches fit before the vertex is known to be sound.
    have both : ∀ vertex, Acc (Follows place) vertex → scope vertex →
        Sound place valid proper vertex ∧ ∃ answer,
          Answers place vertex answer ∧ Fits place proper vertex answer := by
      intro vertex acc
      induction acc with
      | intro vertex _ ih =>
        intro inScope
        have each := fun next follows =>
          (ih next follows (closed vertex inScope next follows)).2
        have sound := sound_of_meets (fun result => valid_of_reaches closed arrived inScope)
          (arrived vertex inScope) (meets vertex inScope) each
        exact ⟨sound, exists_fitting_answer (ambiguousProper vertex) sound each⟩
    intro vertex inScope
    exact ⟨ends vertex inScope, (both vertex (ends vertex inScope) inScope).1⟩
  · intro asked vertex inScope
    have arrived : ∀ vertex, scope vertex → ∀ result,
        place vertex = .arrived result → valid result := by
      intro vertex inScope result here
      have sound := (asked vertex inScope).2
      unfold Sound at sound
      rw [here] at sound
      exact sound
    have fitting : ∃ answer, Answers place vertex answer ∧ Fits place proper vertex answer := by
      have acc := (asked vertex inScope).1
      induction acc with
      | intro vertex _ ih =>
        exact exists_fitting_answer (ambiguousProper vertex)
          (asked vertex inScope).2 fun next follows =>
            ih next follows (closed vertex inScope next follows)
    obtain ⟨answer, answered, fits⟩ := fitting
    exact meets_of_fits (fun result => valid_of_reaches closed arrived inScope) answered fits

end Meets

end AgreeingSearch
