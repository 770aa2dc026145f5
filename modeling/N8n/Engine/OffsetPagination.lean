import Mathlib.Data.List.TakeDrop

/-!
# Offset pagination

The offset grows by the page size after every request, and the limit is lowered
when fewer results are missing.  A page that is not full is the last one.
-/

namespace N8n

namespace RoutingNode

/-- The parameters of a request under the names of the description. -/
structure PageRequest where
  limit : Nat
  offset : Nat

inductive RoutingError where
  | typeError
  | rootPropertyMissing (rootProperty : String)

structure OffsetProperties where
  pageSize : Nat
  rootProperty : Option String := none

/-- What a request gets.  `get` reads the value at a path of a body, which is a
list if there is one. -/
structure Api (Item : Type) where
  request : PageRequest → List Item
  get : Item → String → Option (List Item)

variable {Item : Type} (api : Api Item) (properties : OffsetProperties) (maxResults : Option Nat)

/-- The items of a page, which are below the root property if there is one. -/
def pageItems (page : PageRequest) : Except RoutingError (List Item) :=
  match properties.rootProperty with
  | none => .ok (api.request page)
  | some rootProperty =>
    match api.request page with
    | [] => .error .typeError
    | first :: _ =>
      match api.get first rootProperty with
      | none => .error (.rootPropertyMissing rootProperty)
      | some items => .ok items

/-- The loop of `makeRequest`.  A maximum of 0 counts as none. -/
def requestPages : Nat → PageRequest → List Item → Option (Except RoutingError (List Item))
  | 0, _, _ => none
  | fuel + 1, page, responseData =>
    let maximum := maxResults.getD 0
    let resultsMissing : Int := maximum - responseData.length
    if maximum ≠ 0 ∧ resultsMissing < 1 then some (.ok responseData)
    else
      let limit :=
        if maximum ≠ 0 then min properties.pageSize resultsMissing.toNat
        else page.limit
      match pageItems api properties { page with limit } with
      | .error error => some (.error error)
      | .ok items =>
        if items.length ≠ 0 ∧ items.length = properties.pageSize then
          requestPages fuel { limit, offset := page.offset + properties.pageSize }
            (responseData ++ items)
        else some (.ok (responseData ++ items))

def makeRequest (fuel : Nat) : Option (Except RoutingError (List Item)) :=
  requestPages api properties maxResults fuel { limit := properties.pageSize, offset := 0 } []

/-- The API has a list, and answers a request with the part that it asks for. -/
def Serves (items : List Item) : Prop :=
  ∀ page, pageItems api properties page = .ok ((items.drop page.offset).take page.limit)

def wanted (items : List Item) : List Item :=
  if maxResults.getD 0 = 0 then items else items.take (maxResults.getD 0)

variable {api properties maxResults} {items : List Item}

theorem requestPages_eq (serves : Serves api properties items)
    (positive : 0 < properties.pageSize) {fuel limit offset : Nat}
    (full : maxResults.getD 0 = 0 → limit = properties.pageSize)
    (inside : offset ≤ items.length)
    (needed : maxResults.getD 0 ≠ 0 → offset ≤ maxResults.getD 0)
    (enough : items.length < fuel + offset) :
    requestPages api properties maxResults fuel { limit, offset } (items.take offset) =
      some (.ok (wanted maxResults items)) := by
  induction fuel generalizing limit offset with
  | zero => omega
  | succ fuel ih =>
    have length : (items.take offset).length = offset := by simp [inside]
    have isWanted : wanted maxResults items = if maxResults.getD 0 = 0 then items
      else items.take (maxResults.getD 0) := rfl
    simp only [requestPages, serves _, length]
    generalize maxResults.getD 0 = maximum at *
    by_cases complete : maximum ≠ 0 ∧ (maximum : Int) - offset < 1
    · have last : maximum = offset := by omega
      rw [if_pos complete, isWanted, if_neg complete.1, last]
    · rw [if_neg complete]
      generalize isLimit : (if maximum ≠ 0 then
        min properties.pageSize ((maximum : Int) - offset).toNat
          else limit) = lowered
      have size : ((items.drop offset).take lowered).length =
          min lowered (items.length - offset) := by simp
      rw [size, ← List.take_add]
      by_cases isFull : min lowered (items.length - offset) ≠ 0 ∧
          min lowered (items.length - offset) = properties.pageSize
      · have isPage : lowered = properties.pageSize := by
          split at isLimit <;> omega
        have next : items.length < fuel + (offset + properties.pageSize) := by
          omega
        rw [if_pos isFull, isPage]
        refine ih (fun _ => rfl) (by omega) (fun given => ?_) next
        rw [if_pos given] at isLimit
        omega
      · -- the last page
        rw [if_neg isFull, isWanted]
        by_cases unlimited : maximum = 0
        · have isPage : lowered = properties.pageSize := by
            rw [if_neg (not_not.mpr unlimited)] at isLimit
            exact isLimit.symm.trans (full unlimited)
          rw [if_pos unlimited, List.take_of_length_le (by omega)]
        · rw [if_pos unlimited] at isLimit
          rw [if_neg unlimited]
          by_cases ends : items.length ≤ offset + lowered
          · rw [List.take_of_length_le ends, List.take_of_length_le (by omega)]
          · have reached : offset + lowered = maximum := by omega
            rw [reached]

/-- Enough turns of the loop fetch the items that are wanted. -/
theorem makeRequest_fetchesWanted (serves : Serves api properties items)
    (positive : 0 < properties.pageSize) (fuel : Nat)
    (enough : items.length < fuel) :
    makeRequest api properties maxResults fuel = some (.ok (wanted maxResults items)) :=
  requestPages_eq serves positive (fun _ => rfl) (Nat.zero_le _) (fun _ => Nat.zero_le _) enough

theorem makeRequest_fetchesWanted_three : let api : Api Nat :=
      { request := fun page => ([4, 5, 6].drop page.offset).take page.limit
        get := fun _ _ => none }
    makeRequest api { pageSize := 2 } none 4 = some (.ok (wanted none [4, 5, 6])) :=
  makeRequest_fetchesWanted (fun _ => rfl) (by decide) 4 (by decide)

end RoutingNode

end N8n
