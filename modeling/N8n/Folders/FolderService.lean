import Mathlib.Data.Finset.Basic
import N8n.Library.Machine
import N8n.Library.OrderedMap
import N8n.Library.ParentLinks

/-!
# Folders

A request on folders is a sequence of accesses to the database with checks in
between.  The check that a new parent is no descendant is made before the
parent is written, the target of a transfer is not checked at all, and a name
is written before the parent is checked.
-/

namespace N8n

open OrderedMap

/-- A folder with its tags, which are the rows of the mapping table. -/
structure FolderRow where
  name : String
  projectId : String
  parentFolderId : Option String
  tags : Finset String := ∅
deriving DecidableEq

abbrev FolderTable := OrderedMap String FolderRow

structure FolderUpdate where
  folderId : String
  projectId : String
  name : Option String := none
  tagIds : Option (List String) := none
  parentFolderId : Option String := none
deriving DecidableEq

inductive FolderError where
  | folderNotFound (folderId : String)
  | ownParent
  | descendantParent
  | ownTransfer
  | database

inductive FolderAccess where
  | findParent (id projectId name parentFolderId : String)
  | save (id projectId name : String) (parentFolderId : Option String)
  | findFolder (update : FolderUpdate)
  | updateName (update : FolderUpdate) (name : String)
  | overwriteTags (update : FolderUpdate) (tagIds : List String)
  | findNewParent (update : FolderUpdate) (parentFolderId : String)
  | findTreeFolder (update : FolderUpdate) (parentFolderId : String)
  | readTree (update : FolderUpdate) (parentFolderId : String)
  | updateParent (update : FolderUpdate) (parentFolderId : Option String)
  | findDeleted (folderId projectId : String) (transferToFolderId : Option String)
  | flattenAndArchive (folderId : String)
  | delete (folderId : String)
  | findTarget (folderId projectId transferToFolderId : String)
  | transfer (folderId : String) (transferToFolderId : Option String)
deriving DecidableEq

/-- What a request does when its access has taken effect. -/
inductive FolderOutcome where
  | goesOn (access : FolderAccess)
  | returns
  | throws (error : FolderError)

def FolderOutcome.isThrow : FolderOutcome → Bool
  | .throws _ => true
  | _ => false

/-- A request that is in progress. `changed` says that it has changed a
folder. -/
structure FolderRequest where
  access : FolderAccess
  changed : Bool := false
deriving DecidableEq

structure FolderState where
  folders : FolderTable := .empty
  requests : List FolderRequest := []
  threwAfterChange : Bool := false

/-- A request is made with the identifier that a new folder gets, or an access
takes effect or fails. -/
inductive FolderEvent where
  | createFolder (id projectId name : String) (parentFolderId : Option String)
  | updateFolder (update : FolderUpdate)
  | deleteFolder (folderId projectId : String) (transferToFolderId : Option String)
  | access (request : FolderRequest) (succeeds : Bool)

def projectRoot : String := "0"

def truthy (text : Option String) : Option String := text.filter (· ≠ "")

inductive SimpleFolderNode where
  | node (id name : String) (children : List SimpleFolderNode)

mutual

def SimpleFolderNode.hasDescendant (folderId : String) : SimpleFolderNode → Bool
  | .node id _ children => id = folderId || isDescendant folderId children

def isDescendant (folderId : String) : List SimpleFolderNode → Bool
  | [] => false
  | node :: tree =>
    node.hasDescendant folderId || isDescendant folderId tree

end

/-- The rows lead from a folder to the root, and each becomes the only child of
the next one. -/
def transformFolderPathToTree (flatPath : List (String × String)) : List SimpleFolderNode :=
  flatPath.foldl (fun children row => [.node row.1 row.2 children]) []

namespace FolderTable

section

variable (folders : FolderTable)

def parentOf (id : String) : Option (Option String) :=
  (folders.get? id).map FolderRow.parentFolderId

def path (id : String) : List String :=
  ParentLinks.pathToRoot folders.parentOf (folders.keys.length + 1) id

def isInProject (id projectId : String) : Bool :=
  (folders.get? id).any fun row => row.projectId = projectId

/-- A row that is not there is not updated. -/
def update (id : String) (change : FolderRow → FolderRow) : FolderTable :=
  match folders.get? id with
  | none => folders
  | some row => folders.set id (change row)

def isParent (parentFolderId : Option String) : Bool :=
  parentFolderId.all folders.has

/-- `none` if the recursive query does not come to an end. -/
def getFolderTree (folderId : String) : Option (List SimpleFolderNode) :=
  if ParentLinks.endsWithin folders.parentOf (folders.keys.length + 1) folderId then
    some (transformFolderPathToTree ((folders.path folderId).map fun id =>
      (id, ((folders.get? id).map FolderRow.name).getD "")))
  else none

def moveAllToFolder (fromFolderId : String) (toFolderId : Option String) : FolderTable :=
  folders.mapValues fun row =>
    if row.parentFolderId = some fromFolderId then
      { row with parentFolderId := toFolderId }
    else row

/-- Deleting a folder deletes what is in it. -/
def delete (folderId : String) : FolderTable :=
  folders.filter fun entry => folderId ∉ folders.path entry.1

end

end FolderTable

namespace FolderUpdate

section

variable (update : FolderUpdate)

/-- What `updateFolder` does behind the tags. -/
def checkOwnParent : FolderOutcome :=
  match truthy update.parentFolderId with
  | none => .returns
  | some parentFolderId =>
    if update.folderId = parentFolderId then .throws .ownParent
    else if parentFolderId = projectRoot then
      .goesOn (.updateParent update none)
    else .goesOn (.findNewParent update parentFolderId)

def checkTags : FolderOutcome :=
  match update.tagIds with
  | some tagIds => .goesOn (.overwriteTags update tagIds)
  | none => update.checkOwnParent

def checkName : FolderOutcome :=
  match truthy update.name with
  | some name => .goesOn (.updateName update name)
  | none => update.checkTags

end

end FolderUpdate

namespace FolderAccess

/-- What `deleteFolder` does behind its first access. -/
def checkTransfer (folderId projectId : String)
    (transferToFolderId : Option String) : FolderOutcome :=
  match truthy transferToFolderId with
  | none => .goesOn (.flattenAndArchive folderId)
  | some target =>
    if folderId = target then .throws .ownTransfer
    else if target ≠ projectRoot then
      .goesOn (.findTarget folderId projectId target)
    else .goesOn (.transfer folderId none)

/-- The access takes effect, and the request goes on, returns or throws.
Foreign keys are checked by the database. -/
def perform (folders : FolderTable) : FolderAccess → FolderTable × FolderOutcome
  | .findParent id projectId name parentFolderId =>
    if folders.isInProject parentFolderId projectId then
      (folders, .goesOn (.save id projectId name (some parentFolderId)))
    else (folders, .throws (.folderNotFound parentFolderId))
  | .save id projectId name parentFolderId =>
    if folders.has id || !folders.isParent parentFolderId then
      (folders, .throws .database)
    else (folders.set id { name, projectId, parentFolderId }, .returns)
  | .findFolder update =>
    if folders.isInProject update.folderId update.projectId then
      (folders, update.checkName)
    else (folders, .throws (.folderNotFound update.folderId))
  | .updateName update name =>
    (folders.update update.folderId fun row => { row with name }, update.checkTags)
  | .overwriteTags update tagIds =>
    if tagIds.Nodup ∧ (tagIds = [] ∨ folders.has update.folderId) then
      (folders.update update.folderId fun row =>
        { row with tags := tagIds.toFinset }, update.checkOwnParent)
    else (folders, .throws .database)
  | .findNewParent update parentFolderId =>
    if folders.isInProject parentFolderId update.projectId then
      (folders, .goesOn (.findTreeFolder update parentFolderId))
    else (folders, .throws (.folderNotFound parentFolderId))
  | .findTreeFolder update parentFolderId =>
    if folders.isInProject parentFolderId update.projectId then
      (folders, .goesOn (.readTree update parentFolderId))
    else (folders, .throws (.folderNotFound parentFolderId))
  | .readTree update parentFolderId =>
    match folders.getFolderTree parentFolderId with
    | none => (folders, .goesOn (.readTree update parentFolderId))
    | some parentFolderPath =>
      if isDescendant update.folderId parentFolderPath then
        (folders, .throws .descendantParent)
      else (folders, .goesOn (.updateParent update (some parentFolderId)))
  | .updateParent update parentFolderId =>
    if folders.has update.folderId && !folders.isParent parentFolderId then
      (folders, .throws .database)
    else
      (folders.update update.folderId fun row =>
        { row with parentFolderId }, .returns)
  | .findDeleted folderId projectId transferToFolderId =>
    if folders.isInProject folderId projectId then
      (folders, checkTransfer folderId projectId transferToFolderId)
    else (folders, .throws (.folderNotFound folderId))
  | .flattenAndArchive folderId => (folders, .goesOn (.delete folderId))
  | .delete folderId => (folders.delete folderId, .returns)
  | .findTarget folderId projectId transferToFolderId =>
    if folders.isInProject transferToFolderId projectId then
      (folders, .goesOn (.transfer folderId (some transferToFolderId)))
    else (folders, .throws (.folderNotFound transferToFolderId))
  | .transfer folderId transferToFolderId =>
    if (folders.values.any fun row => row.parentFolderId = some folderId) &&
        !folders.isParent transferToFolderId then
      (folders, .throws .database)
    else
      ((folders.moveAllToFolder folderId transferToFolderId).delete folderId, .returns)

def soughtFolder : FolderAccess → Option String
  | .findParent _ _ _ parentFolderId => some parentFolderId
  | .findFolder update => some update.folderId
  | .findNewParent _ parentFolderId => some parentFolderId
  | .findTreeFolder _ parentFolderId => some parentFolderId
  | .findDeleted folderId _ _ => some folderId
  | .findTarget _ _ transferToFolderId => some transferToFolderId
  | _ => none

/-- A folder for which the look-up fails counts as not found. -/
def failure (access : FolderAccess) : FolderError :=
  match access.soughtFolder with
  | some folderId => .folderNotFound folderId
  | none => .database

def performOrFail (folders : FolderTable) (access : FolderAccess)
    (succeeds : Bool) : FolderTable × FolderOutcome :=
  if succeeds then access.perform folders
  else (folders, .throws access.failure)

end FolderAccess

namespace FolderState

section

variable (state : FolderState)

def start (access : FolderAccess) : FolderState :=
  { state with requests := state.requests ++ [{ access }] }

/-- The request goes on behind its access, or it is over. -/
def continueRequest (request : FolderRequest) (succeeds : Bool) : FolderState :=
  let (folders, outcome) := request.access.performOrFail state.folders succeeds
  let changed := request.changed || folders ≠ state.folders
  let others := state.requests.erase request
  match outcome with
  | .goesOn access =>
    { state with folders, requests := others ++ [{ access, changed }] }
  | .returns => { state with folders, requests := others }
  | .throws _ =>
    { folders
      requests := others
      threwAfterChange := state.threwAfterChange || changed }

def step : Machine FolderState FolderEvent
  | state, .createFolder id projectId name parentFolderId =>
    match truthy parentFolderId with
    | some parentFolderId =>
      some (state.start (.findParent id projectId name parentFolderId))
    | none => some (state.start (.save id projectId name none))
  | state, .updateFolder update => some (state.start (.findFolder update))
  | state, .deleteFolder folderId projectId transferToFolderId =>
    some (state.start (.findDeleted folderId projectId transferToFolderId))
  | state, .access request succeeds =>
    if request ∈ state.requests then
      some (state.continueRequest request succeeds)
    else none

/-- The parent links of each folder lead to a root. -/
def Forest (folders : FolderTable) : Prop :=
  ∀ id, folders.has id = true → ParentLinks.Rooted folders.parentOf id

/-- The folders are a forest, and no request has thrown that had changed
one. -/
def RemainsForest : Prop :=
  Forest state.folders ∧ state.threwAfterChange = false

end

end FolderState

namespace FolderUpdate

def isOwnParent (update : FolderUpdate) : Bool :=
  truthy update.parentFolderId = some update.folderId

end FolderUpdate

namespace FolderAccess

section

variable (folders : FolderTable)

/-- The database and the checks behind an access of `updateFolder` have nothing
against the update. -/
def passes : FolderAccess → Bool
  | .updateName update _ => update.tagIds.isSome || !update.isOwnParent
  | .overwriteTags update tagIds =>
    tagIds.Nodup && (tagIds = [] || folders.has update.folderId) && !update.isOwnParent
  | .findNewParent update parentFolderId
  | .findTreeFolder update parentFolderId =>
    folders.isInProject parentFolderId update.projectId
  | .readTree update parentFolderId =>
    update.folderId ∉ folders.path parentFolderId
  | .updateParent update parentFolderId =>
    !folders.has update.folderId || folders.isParent parentFolderId
  | _ => true

/-- A folder gets a parent outside of it, and what is in a folder is
transferred to a place outside of it. -/
def staysOutside : FolderAccess → Bool
  | .updateParent update (some parentFolderId) =>
    update.folderId ∉ folders.path parentFolderId
  | .transfer folderId (some transferToFolderId) =>
    folderId ∉ folders.path transferToFolderId
  | _ => true

/-- The name and the tags that the access writes are those of the folder. -/
def keepsContent : FolderAccess → Bool
  | .updateName update name =>
    (folders.get? update.folderId).all fun row => row.name = name
  | .overwriteTags update tagIds =>
    !(tagIds.Nodup && (tagIds = [] || folders.has update.folderId)) ||
      (folders.get? update.folderId).all fun row =>
        row.tags = tagIds.toFinset
  | _ => true

end

/-- The access follows the first change of an update. -/
def isUpdating : FolderAccess → Bool
  | .updateName _ _ | .overwriteTags _ _ | .findNewParent _ _
  | .findTreeFolder _ _ | .readTree _ _ | .updateParent _ _ => true
  | _ => false

/-- What is transferred goes to another folder. -/
def hasOtherTarget : FolderAccess → Bool
  | .findTarget folderId _ transferToFolderId => folderId ≠ transferToFolderId
  | .transfer folderId transferToFolderId =>
    transferToFolderId ≠ some folderId
  | _ => true

end FolderAccess

namespace FolderState

/-- No folder moves into itself, and a request that has changed a folder meets
neither a failing access nor a check that refuses the rest of it. -/
def keepsForest (state : FolderState) : FolderEvent → Bool
  | .access request succeeds =>
    (!succeeds || request.access.staysOutside state.folders) &&
      (succeeds && request.access.passes state.folders || !request.changed &&
          (!succeeds || request.access.keepsContent state.folders))
  | _ => true

def KeepsForest (state : FolderState) (event : FolderEvent) : Prop :=
  keepsForest state event = true

instance (state : FolderState) (event : FolderEvent) : Decidable (KeepsForest state event) :=
  inferInstanceAs (Decidable (_ = _))

end FolderState

open ParentLinks

namespace FolderTable

variable {folders : FolderTable} {id other : String}

theorem has_iff_parentOf : folders.has id = true ↔ ∃ link, folders.parentOf id = some link := by
  rw [OrderedMap.has, parentOf]
  cases folders.get? id with
  | none => simp
  | some row => simp

section

variable (folders : FolderTable) (id other : String)

theorem parentOf_update (change : FolderRow → FolderRow) :
    (folders.update id change).parentOf other =
      if id = other then
        (folders.get? id).map fun row => (change row).parentFolderId
      else folders.parentOf other := by
  unfold FolderTable.update
  cases found : folders.get? id with
  | none =>
    by_cases same : id = other
    · subst same
      simp [parentOf, found]
    · simp [same]
  | some row =>
    by_cases same : id = other
    · subst same
      simp [parentOf]
    · simp [parentOf, same, get?_set]

theorem parentOf_moveAllToFolder (target : Option String) :
    (folders.moveAllToFolder id target).parentOf other =
      if folders.parentOf other = some (some id) then some target
      else folders.parentOf other := by
  rw [parentOf, moveAllToFolder, get?_mapValues, parentOf]
  cases folders.get? other with
  | none => simp
  | some row =>
    simp only [Option.map_some, Option.some.injEq]
    split
    · rfl
    · rfl

theorem parentOf_delete : (folders.delete id).parentOf other =
      if id ∈ folders.path other then none else folders.parentOf other := by
  have kept := get?_filter_keys folders (fun key => id ∉ folders.path key) other
  rw [parentOf, FolderTable.delete, kept, parentOf]
  by_cases mem : id ∈ folders.path other
  · simp [mem]
  · simp [mem]

theorem parentOf_set (row : FolderRow) : FolderTable.parentOf (folders.set id row) other =
      if id = other then some row.parentFolderId
      else folders.parentOf other := by
  rw [parentOf, get?_set]
  split <;> rfl

end

theorem mem_keys_of_parentOf {link : Option String}
    (found : folders.parentOf id = some link) : id ∈ folders.keys :=
  has_iff.mp (has_iff_parentOf.mpr ⟨link, found⟩)

end FolderTable

namespace FolderState

open FolderTable

variable {folders next : FolderTable} {id target : String} {parentFolderId : Option String}

theorem forest_iff : Forest folders ↔ ∀ id link, folders.parentOf id = some link →
      Rooted folders.parentOf id := by
  constructor
  · intro forest id link found
    exact forest id (has_iff_parentOf.mpr ⟨link, found⟩)
  · intro rooted id present
    obtain ⟨link, found⟩ := has_iff_parentOf.mp present
    exact rooted id link found

theorem Forest.ends (forest : Forest folders) (id : String) :
    endsWithin folders.parentOf (folders.keys.length + 1) id = true := by
  cases found : folders.parentOf id with
  | none => rw [endsWithin, found]
  | some link =>
    exact (forest_iff.mp forest id link found).endsWithin_length
      fun node link => mem_keys_of_parentOf

theorem Forest.mem_path_iff (forest : Forest folders) :
    target ∈ folders.path id ↔ folders.has target = true ∧
      Relation.ReflTransGen (Link folders.parentOf) id target := by
  rw [has_iff_parentOf]
  exact mem_pathToRoot_iff (forest.ends id)

theorem isDescendant_foldl (id : String) (flatPath : List (String × String))
    (children : List SimpleFolderNode) :
    isDescendant id (flatPath.foldl
        (fun children row => [.node row.1 row.2 children]) children) = true ↔
      id ∈ flatPath.map Prod.fst ∨ isDescendant id children = true := by
  induction flatPath generalizing children with
  | nil => simp
  | cons row flatPath ih =>
    rw [List.foldl_cons, ih, List.map_cons, List.mem_cons]
    simp only [isDescendant, SimpleFolderNode.hasDescendant,
      Bool.or_eq_true, decide_eq_true_eq, Bool.false_eq_true, or_false]
    rw [eq_comm, or_left_comm, or_assoc]

theorem Forest.isDescendant_tree (forest : Forest folders) (id parentFolderId : String) :
    ∃ tree, folders.getFolderTree parentFolderId = some tree ∧
      (isDescendant id tree = true ↔ id ∈ folders.path parentFolderId) := by
  refine ⟨_, if_pos (forest.ends parentFolderId), ?_⟩
  rw [transformFolderPathToTree, isDescendant_foldl, List.map_map]
  simp [Function.comp_def, isDescendant]

theorem Forest.of_sameParents (forest : Forest folders)
    (same : ∀ id, next.parentOf id = folders.parentOf id) : Forest next := by
  rw [forest_iff] at forest ⊢
  intro id link found
  rw [same] at found
  exact (forest id link found).of_path fun target _ => same target

theorem Forest.save (forest : Forest folders) {row : FolderRow} (isNew : folders.has id = false)
    (isParent : folders.isParent row.parentFolderId = true) :
    Forest (folders.set id row) := by
  have absent : folders.parentOf id = none := by
    cases found : folders.parentOf id with
    | none => rfl
    | some link =>
      rw [has_iff_parentOf.mpr ⟨link, found⟩] at isNew
      cases isNew
  have kept (other : String) (rooted : Rooted folders.parentOf other) :
      Rooted (FolderTable.parentOf (folders.set id row)) other := by
    apply rooted.of_path
    intro target path
    obtain ⟨link, isNode⟩ := (rooted.above path).exists_node
    rw [parentOf_set, if_neg]
    rintro rfl
    rw [absent] at isNode
    cases isNode
  rw [forest_iff]
  intro other link found
  by_cases own : id = other
  · subst own
    have links : FolderTable.parentOf (folders.set id row) id =
        some row.parentFolderId := by rw [parentOf_set, if_pos rfl]
    cases parent : row.parentFolderId with
    | none => exact .root (links.trans (congrArg some parent))
    | some parentId =>
      rw [parent] at isParent
      exact .child (links.trans (congrArg some parent)) (kept parentId (forest parentId isParent))
  · rw [parentOf_set, if_neg own] at found
    exact kept other (forest_iff.mp forest other link found)

theorem Forest.move (forest : Forest folders) (moved : String → Prop)
    (same : ∀ id, ¬ moved id → next.parentOf id = folders.parentOf id)
    (new : ∀ id, moved id → folders.has id = true ∧
      next.parentOf id = some parentFolderId)
    (isParent : (∃ id, moved id) → folders.isParent parentFolderId = true)
    (outside : ∀ parent, parentFolderId = some parent → ∀ id, moved id → id ∉ folders.path parent) :
    Forest next := by
  rw [forest_iff]
  intro id link found
  have present : folders.has id = true := by
    by_cases isMoved : moved id
    · exact (new id isMoved).1
    · rw [same id isMoved] at found
      exact has_iff_parentOf.mpr ⟨link, found⟩
  by_cases any : ∃ id, moved id
  · apply (forest id present).move moved parentFolderId same fun id isMoved => (new id isMoved).2
    rintro parent rfl
    refine ⟨forest parent (isParent any), fun above path isMoved => ?_⟩
    apply outside parent rfl above isMoved
    exact forest.mem_path_iff.mpr ⟨(new above isMoved).1, path⟩
  · apply (forest id present).of_path
    intro target _
    exact same target fun isMoved => any ⟨target, isMoved⟩

theorem Forest.delete (forest : Forest folders) (id : String) : Forest (folders.delete id) := by
  rw [forest_iff]
  intro other link found
  rw [parentOf_delete] at found
  split at found
  · cases found
  next kept =>
    have rooted := forest_iff.mp forest other link found
    apply rooted.of_path
    intro above path
    rw [parentOf_delete, if_neg]
    intro mem
    rw [forest.mem_path_iff] at mem kept
    exact kept ⟨mem.1, path.trans mem.2⟩

theorem parentOf_updateParent (folders : FolderTable) (id other : String)
    (parentFolderId : Option String) :
    (folders.update id fun row => { row with parentFolderId }).parentOf other =
      if id = other ∧ folders.has id = true then some parentFolderId
      else folders.parentOf other := by
  rw [parentOf_update]
  by_cases same : id = other
  · subst same
    rw [OrderedMap.has, parentOf]
    cases folders.get? id with
    | none => simp
    | some row => simp
  · simp [same]

theorem Forest.updateParent (forest : Forest folders)
    (isParent : folders.has id = true → folders.isParent parentFolderId = true)
    (outside : ∀ parent, parentFolderId = some parent → id ∉ folders.path parent) :
    Forest (folders.update id fun row => { row with parentFolderId }) := by
  apply forest.move (fun other => id = other ∧ folders.has id = true)
  · intro other unmoved
    rw [parentOf_updateParent, if_neg unmoved]
  · intro other moved
    refine ⟨moved.1 ▸ moved.2, ?_⟩
    rw [parentOf_updateParent, if_pos moved]
  · rintro ⟨other, _, present⟩
    exact isParent present
  · rintro parent isTarget other ⟨rfl, _⟩
    exact outside parent isTarget

theorem Forest.moveAllToFolder (forest : Forest folders)
    (isParent : (∃ row ∈ folders.values, row.parentFolderId = some id) →
      folders.isParent parentFolderId = true)
    (outside : ∀ parent, parentFolderId = some parent → id ∉ folders.path parent) :
    Forest (folders.moveAllToFolder id parentFolderId) := by
  apply forest.move fun other => folders.parentOf other = some (some id)
  · intro other unmoved
    rw [parentOf_moveAllToFolder, if_neg unmoved]
  · intro other moved
    refine ⟨has_iff_parentOf.mpr ⟨_, moved⟩, ?_⟩
    rw [parentOf_moveAllToFolder, if_pos moved]
  · rintro ⟨other, moved⟩
    obtain ⟨row, found, inside⟩ := Option.map_eq_some_iff.mp moved
    apply isParent
    refine ⟨row, ?_, inside⟩
    exact List.mem_map.mpr ⟨_, get?_eq_some_iff.mp found, rfl⟩
  · intro parent isTarget other moved mem
    apply outside parent isTarget
    have inside := forest.mem_path_iff.mp mem
    have rooted := forest_iff.mp forest other _ moved
    obtain ⟨link, isFolder⟩ := (rooted.above (.single moved)).exists_node
    exact forest.mem_path_iff.mpr ⟨has_iff_parentOf.mpr ⟨link, isFolder⟩, inside.2.tail moved⟩

variable {change : FolderRow → FolderRow}

theorem Forest.update (forest : Forest folders)
    (same : ∀ row, (change row).parentFolderId = row.parentFolderId) :
    Forest (folders.update id change) := by
  apply forest.of_sameParents
  intro other
  rw [parentOf_update]
  simp only [same]
  split
  next own =>
    rw [own, parentOf]
  · rfl

variable {access : FolderAccess}

theorem perform_of_soughtFolder (sought : access.soughtFolder.isSome = true) :
    (access.perform folders).1 = folders := by
  cases access with
  | findParent | findFolder | findNewParent | findTreeFolder | findDeleted
  | findTarget =>
    simp only [FolderAccess.perform]
    split
    · rfl
    · rfl
  | _ => cases sought

theorem Forest.perform (forest : Forest folders) (outside : access.staysOutside folders = true) :
    Forest (access.perform folders).1 := by
  cases access with
  | save id projectId name parentFolderId =>
    simp only [FolderAccess.perform]
    split
    · exact forest
    next passes =>
      simp only [Bool.or_eq_true, Bool.not_eq_true', not_or,
        Bool.not_eq_true, Bool.not_eq_false] at passes
      exact forest.save passes.1 passes.2
  | updateName update name => exact forest.update fun _ => rfl
  | overwriteTags update tagIds =>
    simp only [FolderAccess.perform]
    split
    · exact forest.update fun _ => rfl
    · exact forest
  | updateParent update parentFolderId =>
    simp only [FolderAccess.perform]
    split
    · exact forest
    next passes =>
      apply forest.updateParent
      · intro present
        simpa [present] using passes
      · rintro parent rfl
        simpa [FolderAccess.staysOutside] using outside
  | delete folderId => exact forest.delete folderId
  | transfer folderId transferToFolderId =>
    simp only [FolderAccess.perform]
    split
    · exact forest
    next passes =>
      apply Forest.delete
      apply forest.moveAllToFolder
      · rintro ⟨row, mem, inside⟩
        by_contra missing
        apply passes
        rw [Bool.and_eq_true, List.any_eq_true]
        exact ⟨⟨row, mem, by simpa using inside⟩, by simpa using missing⟩
      · rintro parent rfl
        simpa [FolderAccess.staysOutside] using outside
  | readTree update parentFolderId =>
    simp only [FolderAccess.perform]
    split
    · exact forest
    · split
      · exact forest
      · exact forest
  | flattenAndArchive folderId => exact forest
  | findParent | findFolder | findNewParent | findTreeFolder | findDeleted
  | findTarget =>
    rw [perform_of_soughtFolder rfl]
    exact forest

theorem has_of_mem_path (mem : target ∈ folders.path id) : folders.has id = true := by
  rw [has_iff_parentOf]
  cases found : folders.parentOf id with
  | none =>
    rw [path, pathToRoot, found] at mem
    cases mem
  | some link => exact ⟨link, rfl⟩

theorem not_forest_of_cycle (present : folders.has id = true)
    (cycle : Relation.TransGen (Link folders.parentOf) id id) :
    ¬ Forest folders :=
  fun forest => (forest id present).irrefl cycle

theorem has_update (folders : FolderTable) (id other : String) (change : FolderRow → FolderRow) :
    (folders.update id change).has other = folders.has other := by
  rw [Bool.eq_iff_iff, has_iff_parentOf, has_iff_parentOf, parentOf_update]
  by_cases same : id = other
  · subst same
    rw [parentOf]
    cases folders.get? id with
    | none => simp
    | some row => simp
  · simp [same]

theorem Forest.not_updateParent (forest : Forest folders) (inside : id ∈ folders.path target) :
    ¬ Forest (folders.update id fun row =>
      { row with parentFolderId := some target }) := by
  obtain ⟨present, path⟩ := forest.mem_path_iff.mp inside
  apply not_forest_of_cycle
  · rw [has_update]
    exact has_of_mem_path inside
  · apply cycle_of_move _ _ _ path
    · exact fun other => id = other ∧ folders.has id = true
    · intro other unmoved
      rw [parentOf_updateParent, if_neg unmoved]
    · intro other moved
      rw [parentOf_updateParent, if_pos moved]
    · exact ⟨rfl, present⟩

/-- Folders that are transferred into one of them are on a cycle, which stays
when the folder they were in is deleted. -/
theorem Forest.not_transfer (forest : Forest folders)
    (ne : target ≠ id) (inside : id ∈ folders.path target) :
    ¬ Forest ((folders.moveAllToFolder id (some target)).delete id) := by
  obtain ⟨_, path⟩ := forest.mem_path_iff.mp inside
  obtain ⟨child, toChild, last⟩ := (Relation.ReflTransGen.cases_tail path).resolve_left (Ne.symm ne)
  have links := parentOf_moveAllToFolder folders id
  have cycle : Relation.TransGen (Link (folders.moveAllToFolder id (some target)).parentOf) target
        target := by
    apply cycle_of_move _ _ _ toChild
    · exact fun other => folders.parentOf other = some (some id)
    · intro other unmoved
      rw [links, if_neg unmoved]
    · intro other moved
      rw [links, if_pos moved]
    · exact last
  have notAbove (above : String) (path : Relation.ReflTransGen
      (Link (folders.moveAllToFolder id (some target)).parentOf) target above) : above ≠ id := by
    rintro rfl
    obtain ⟨before, _, link⟩ := (Relation.ReflTransGen.cases_tail path).resolve_left (Ne.symm ne)
    rw [Link, links] at link
    split at link
    · cases link
      exact ne rfl
    next unmoved =>
      exact unmoved link
  have kept (above : String) (path : Relation.ReflTransGen
      (Link (folders.moveAllToFolder id (some target)).parentOf) target above) :
      ((folders.moveAllToFolder id (some target)).delete id).parentOf above =
        (folders.moveAllToFolder id (some target)).parentOf above := by
    rw [parentOf_delete, if_neg]
    intro mem
    exact notAbove id (path.trans (reaches_of_mem mem)) rfl
  obtain ⟨next, first, _⟩ := Relation.TransGen.head'_iff.mp cycle
  apply not_forest_of_cycle _ (transGen_of_path cycle kept)
  exact has_iff_parentOf.mpr ⟨_, (kept target .refl).trans first⟩

theorem isThrow_checkOwnParent (update : FolderUpdate) :
    update.checkOwnParent.isThrow = update.isOwnParent := by
  rw [FolderUpdate.checkOwnParent, FolderUpdate.isOwnParent]
  cases truthy update.parentFolderId with
  | none => rfl
  | some parentFolderId =>
    dsimp only
    split
    next own =>
      simp [own, FolderOutcome.isThrow]
    next other =>
      split <;> simp [FolderOutcome.isThrow, Ne.symm other]

theorem isThrow_checkTags (update : FolderUpdate) : update.checkTags.isThrow =
      (!update.tagIds.isSome && update.isOwnParent) := by
  rw [FolderUpdate.checkTags]
  cases update.tagIds with
  | none => simp [isThrow_checkOwnParent]
  | some tagIds => rfl

theorem isThrow_find {error : FolderError}
    (found : Bool) : (if found then (folders, FolderOutcome.goesOn access)
      else (folders, .throws error)).2.isThrow = !found := by
  cases found <;> rfl

/-- An update throws behind an access exactly if something is against it. -/
theorem Forest.isThrow_perform (forest : Forest folders) (updating : access.isUpdating = true) :
    (access.perform folders).2.isThrow = !access.passes folders := by
  cases access with
  | updateName update name =>
    rw [FolderAccess.perform, isThrow_checkTags, FolderAccess.passes]
    simp
  | overwriteTags update tagIds =>
    rw [FolderAccess.perform, FolderAccess.passes]
    have written : (decide tagIds.Nodup &&
        (decide (tagIds = []) || folders.has update.folderId)) = true ↔
          tagIds.Nodup ∧ (tagIds = [] ∨ folders.has update.folderId) := by
      simp
    split
    next accepted =>
      rw [written.mpr accepted, isThrow_checkOwnParent]
      simp
    next refused =>
      rw [Bool.eq_false_iff.mpr (refused ∘ written.mp)]
      rfl
  | findNewParent update parentFolderId
  | findTreeFolder update parentFolderId =>
    rw [FolderAccess.perform, isThrow_find, FolderAccess.passes]
  | readTree update parentFolderId =>
    obtain ⟨tree, read, members⟩ := forest.isDescendant_tree update.folderId parentFolderId
    rw [FolderAccess.perform, read, FolderAccess.passes]
    dsimp only
    by_cases inside : update.folderId ∈ folders.path parentFolderId
    · rw [if_pos (members.mpr inside)]
      simp [inside, FolderOutcome.isThrow]
    · rw [if_neg (inside ∘ members.mp)]
      simp [inside, FolderOutcome.isThrow]
  | updateParent update parentFolderId =>
    rw [FolderAccess.perform, FolderAccess.passes]
    split
    next refused =>
      simp [refused, FolderOutcome.isThrow]
    next accepted =>
      have passed : (!folders.has update.folderId || folders.isParent parentFolderId) = true := by
        simpa [← Bool.not_eq_true, imp_iff_not_or] using accepted
      rw [passed]
      rfl
  | findParent | save | findFolder | findDeleted | flattenAndArchive
  | delete | findTarget | transfer => cases updating

theorem update_eq_self_iff : folders.update id change = folders ↔
      ∀ row, folders.get? id = some row → change row = row := by
  rw [FolderTable.update]
  cases found : folders.get? id with
  | none => simp
  | some row =>
    constructor
    · intro same other isRow
      cases isRow
      have changed := congrArg (OrderedMap.get? · id) same
      simpa [found] using changed
    · intro same
      exact set_eq_self (by rw [same row rfl, found])

/-- An access of an update that is refused has changed a folder exactly if it
has written another name or other tags. -/
theorem perform_eq_self_iff (updating : access.isUpdating = true)
    (refused : access.passes folders = false) :
    (access.perform folders).1 = folders ↔ access.keepsContent folders = true := by
  cases access with
  | updateName update name =>
    rw [FolderAccess.perform, update_eq_self_iff, FolderAccess.keepsContent]
    cases folders.get? update.folderId with
    | none => simp
    | some row =>
      obtain ⟨old, projectId, parentFolderId, tags⟩ := row
      simp [eq_comm]
  | overwriteTags update tagIds =>
    rw [FolderAccess.perform, FolderAccess.keepsContent]
    by_cases accepted : tagIds.Nodup ∧ (tagIds = [] ∨ folders.has update.folderId = true)
    · have written : (decide tagIds.Nodup && (decide (tagIds = []) ||
          folders.has update.folderId)) = true := by simpa using accepted
      rw [if_pos accepted, update_eq_self_iff, written]
      cases folders.get? update.folderId with
      | none => simp
      | some row =>
        obtain ⟨name, projectId, parentFolderId, tags⟩ := row
        simp [eq_comm]
    · have written : (decide tagIds.Nodup && (decide (tagIds = []) ||
          folders.has update.folderId)) = false := by simpa using accepted
      rw [if_neg accepted, written]
      simp
  | findNewParent | findTreeFolder =>
    rw [perform_of_soughtFolder rfl]
    exact iff_of_true rfl rfl
  | readTree update parentFolderId =>
    refine iff_of_true ?_ rfl
    simp only [FolderAccess.perform]
    split
    · rfl
    · split
      · rfl
      · rfl
  | updateParent update parentFolderId =>
    refine iff_of_true ?_ rfl
    rw [FolderAccess.perform, if_pos]
    simpa [FolderAccess.passes] using refused
  | findParent | save | findFolder | findDeleted | flattenAndArchive
  | delete | findTarget | transfer => cases updating

theorem unchanged_of_isThrow (updating : access.isUpdating = false)
    (throws : (access.perform folders).2.isThrow = true) :
    (access.perform folders).1 = folders := by
  cases access with
  | updateName | overwriteTags | findNewParent | findTreeFolder | readTree
  | updateParent => cases updating
  | flattenAndArchive => rfl
  | delete => cases throws
  | save | transfer =>
    simp only [FolderAccess.perform] at throws ⊢
    split at throws
    next refused =>
      rw [if_pos refused]
    · cases throws
  | findParent | findFolder | findDeleted | findTarget =>
    exact perform_of_soughtFolder rfl

theorem keepsContent_of_not_isUpdating (updating : access.isUpdating = false) :
    access.keepsContent folders = true := by
  cases access with
  | updateName | overwriteTags | findNewParent | findTreeFolder | readTree
  | updateParent => cases updating
  | findParent | save | findFolder | findDeleted | flattenAndArchive
  | delete | findTarget | transfer => rfl

variable {succeeds : Bool}

theorem Forest.performOrFail_eq_self_iff (forest : Forest folders)
    (throws : (access.performOrFail folders succeeds).2.isThrow = true) :
    (access.performOrFail folders succeeds).1 = folders ↔
      succeeds = false ∨ access.keepsContent folders = true := by
  cases succeeds with
  | false => exact iff_of_true rfl (.inl rfl)
  | true =>
    rw [FolderAccess.performOrFail, if_pos rfl] at throws ⊢
    rw [or_iff_right (show ¬ true = false from nofun)]
    cases updating : access.isUpdating with
    | false =>
      exact iff_of_true (unchanged_of_isThrow updating throws)
        (keepsContent_of_not_isUpdating updating)
    | true =>
      rw [forest.isThrow_perform updating, Bool.not_eq_true'] at throws
      exact perform_eq_self_iff updating throws

/-- What holds while no folder moves into itself and no request throws that has
changed something. -/
structure Sound (state : FolderState) : Prop where
  forest : Forest state.folders
  threwAfterChange : state.threwAfterChange = false
  updating : ∀ request ∈ state.requests, request.changed = true → request.access.isUpdating = true
  otherTarget : ∀ request ∈ state.requests, request.access.hasOtherTarget = true

theorem start_sound : Sound {} := by
  constructor
  · intro id present
    cases present
  · rfl
  · simp
  · simp

variable {state after : FolderState}

theorem Sound.start (sound : Sound state) (otherTarget : access.hasOtherTarget = true) :
    Sound (state.start access) := by
  constructor
  · exact sound.forest
  · exact sound.threwAfterChange
  · intro request mem changed
    rcases List.mem_append.mp mem with old | new
    · exact sound.updating request old changed
    · obtain rfl := List.mem_singleton.mp new
      cases changed
  · intro request mem
    rcases List.mem_append.mp mem with old | new
    · exact sound.otherTarget request old
    · obtain rfl := List.mem_singleton.mp new
      exact otherTarget

variable {update : FolderUpdate} {next : FolderAccess}

theorem goesOn_checkOwnParent (goesOn : update.checkOwnParent = .goesOn next) :
    next.hasOtherTarget = true ∧ next.isUpdating = true := by
  rw [FolderUpdate.checkOwnParent] at goesOn
  split at goesOn
  · cases goesOn
  · split at goesOn
    · cases goesOn
    · split at goesOn
      · cases goesOn
        exact ⟨rfl, rfl⟩
      · cases goesOn
        exact ⟨rfl, rfl⟩

theorem goesOn_checkTags (goesOn : update.checkTags = .goesOn next) :
    next.hasOtherTarget = true ∧ next.isUpdating = true := by
  rw [FolderUpdate.checkTags] at goesOn
  split at goesOn
  · cases goesOn
    exact ⟨rfl, rfl⟩
  · exact goesOn_checkOwnParent goesOn

theorem goesOn_checkName (goesOn : update.checkName = .goesOn next) :
    next.hasOtherTarget = true := by
  rw [FolderUpdate.checkName] at goesOn
  split at goesOn
  · cases goesOn
    rfl
  · exact (goesOn_checkTags goesOn).1

theorem goesOn_checkTransfer {folderId projectId : String} {transferToFolderId : Option String}
    (goesOn : FolderAccess.checkTransfer folderId projectId
      transferToFolderId = .goesOn next) : next.hasOtherTarget = true := by
  rw [FolderAccess.checkTransfer] at goesOn
  split at goesOn
  · cases goesOn
    rfl
  · split at goesOn
    · cases goesOn
    next ne =>
      split at goesOn
      · cases goesOn
        simpa [FolderAccess.hasOtherTarget] using ne
      · cases goesOn
        rfl

variable {access next : FolderAccess}

theorem goesOn_find {found : Bool} {error : FolderError}
    (goesOn : (if found then (folders, FolderOutcome.goesOn access)
      else (folders, .throws error)).2 = .goesOn next) : access = next := by
  cases found with
  | false => cases goesOn
  | true =>
    cases goesOn
    rfl

theorem goesOn_of_isUpdating (updating : access.isUpdating = true)
    (goesOn : (access.perform folders).2 = .goesOn next) :
    next.hasOtherTarget = true ∧ next.isUpdating = true := by
  cases access with
  | updateName update name => exact goesOn_checkTags goesOn
  | overwriteTags update tagIds =>
    simp only [FolderAccess.perform] at goesOn
    split at goesOn
    · exact goesOn_checkOwnParent goesOn
    · cases goesOn
  | findNewParent update parentFolderId
  | findTreeFolder update parentFolderId =>
    obtain rfl := goesOn_find goesOn
    exact ⟨rfl, rfl⟩
  | readTree update parentFolderId =>
    simp only [FolderAccess.perform] at goesOn
    split at goesOn
    · cases goesOn
      exact ⟨rfl, rfl⟩
    · split at goesOn
      · cases goesOn
      · cases goesOn
        exact ⟨rfl, rfl⟩
  | updateParent update parentFolderId =>
    simp only [FolderAccess.perform] at goesOn
    split at goesOn <;> cases goesOn
  | findParent | save | findFolder | findDeleted | flattenAndArchive
  | delete | findTarget | transfer => cases updating

theorem goesOn_of_not_isUpdating (updating : access.isUpdating = false)
    (otherTarget : access.hasOtherTarget = true)
    (goesOn : (access.perform folders).2 = .goesOn next) :
    next.hasOtherTarget = true ∧ (access.perform folders).1 = folders := by
  cases access with
  | findParent id projectId name parentFolderId =>
    obtain rfl := goesOn_find goesOn
    refine ⟨rfl, ?_⟩
    rw [FolderAccess.perform]
    split <;> rfl
  | save id projectId name parentFolderId
  | transfer folderId transferToFolderId =>
    simp only [FolderAccess.perform] at goesOn
    split at goesOn <;> cases goesOn
  | findFolder update =>
    simp only [FolderAccess.perform] at goesOn ⊢
    split at goesOn
    · exact ⟨goesOn_checkName goesOn, by split <;> rfl⟩
    · cases goesOn
  | findDeleted folderId projectId transferToFolderId =>
    simp only [FolderAccess.perform] at goesOn ⊢
    split at goesOn
    · exact ⟨goesOn_checkTransfer goesOn, by split <;> rfl⟩
    · cases goesOn
  | flattenAndArchive folderId =>
    cases goesOn
    exact ⟨rfl, rfl⟩
  | delete folderId => cases goesOn
  | findTarget folderId projectId transferToFolderId =>
    obtain rfl := goesOn_find goesOn
    have ne : folderId ≠ transferToFolderId := by
      simpa [FolderAccess.hasOtherTarget] using otherTarget
    constructor
    · simpa [FolderAccess.hasOtherTarget] using Ne.symm ne
    · rw [FolderAccess.perform]
      split <;> rfl
  | updateName | overwriteTags | findNewParent | findTreeFolder | readTree
  | updateParent => cases updating

variable {request : FolderRequest}

theorem Sound.unchanged_of_isThrow (sound : Sound state) (mem : request ∈ state.requests)
    (keeps : KeepsForest state (.access request succeeds))
    (throws : (request.access.performOrFail state.folders succeeds).2.isThrow = true) :
    request.changed = false ∧ (request.access.performOrFail state.folders succeeds).1 =
        state.folders := by
  simp only [KeepsForest, keepsForest, Bool.and_eq_true, Bool.or_eq_true,
    Bool.not_eq_true'] at keeps
  rcases keeps.2 with ⟨rfl, passes⟩ | ⟨notChanged, kept⟩
  · rw [FolderAccess.performOrFail, if_pos rfl] at throws ⊢
    cases updating : request.access.isUpdating with
    | false =>
      refine ⟨?_, FolderState.unchanged_of_isThrow updating throws⟩
      by_contra changed
      have isUpdating := sound.updating request mem (by simpa using changed)
      rw [updating] at isUpdating
      cases isUpdating
    | true =>
      rw [sound.forest.isThrow_perform updating, passes] at throws
      cases throws
  · exact ⟨notChanged, (sound.forest.performOrFail_eq_self_iff throws).mpr kept⟩

theorem Sound.goesOn (sound : Sound state) (mem : request ∈ state.requests)
    (goesOn : (request.access.performOrFail state.folders succeeds).2 = .goesOn access) :
    access.hasOtherTarget = true ∧
      ((request.changed || decide ((request.access.performOrFail state.folders
        succeeds).1 ≠ state.folders)) = true → access.isUpdating = true) := by
  cases succeeds with
  | false => cases goesOn
  | true =>
    rw [FolderAccess.performOrFail, if_pos rfl] at goesOn ⊢
    cases updating : request.access.isUpdating with
    | true =>
      obtain ⟨otherTarget, isUpdating⟩ := goesOn_of_isUpdating updating goesOn
      exact ⟨otherTarget, fun _ => isUpdating⟩
    | false =>
      obtain ⟨otherTarget, same⟩ := goesOn_of_not_isUpdating updating
        (sound.otherTarget request mem) goesOn
      refine ⟨otherTarget, fun changed => ?_⟩
      have changedBefore : request.changed = true := by
        simpa [same] using changed
      have isUpdating := sound.updating request mem changedBefore
      rw [updating] at isUpdating
      cases isUpdating

theorem Sound.forest_performOrFail (sound : Sound state)
    (keeps : KeepsForest state (.access request succeeds)) :
    Forest (request.access.performOrFail state.folders succeeds).1 := by
  simp only [KeepsForest, keepsForest, Bool.and_eq_true] at keeps
  cases succeeds with
  | false => exact sound.forest
  | true => exact sound.forest.perform keeps.1

theorem Sound.continueRequest (sound : Sound state) (mem : request ∈ state.requests)
    (keeps : KeepsForest state (.access request succeeds)) :
    Sound (state.continueRequest request succeeds) := by
  have forest := sound.forest_performOrFail keeps
  have unchanged := sound.unchanged_of_isThrow mem keeps
  have others (other : FolderRequest) (among : other ∈ state.requests.erase request) :
      other ∈ state.requests := List.mem_of_mem_erase among
  unfold FolderState.continueRequest
  dsimp only
  split
  next access goesOn =>
    obtain ⟨otherTarget, updating⟩ := sound.goesOn mem goesOn
    refine ⟨forest, sound.threwAfterChange, ?_, ?_⟩
    · intro other among changed
      rcases List.mem_append.mp among with old | new
      · exact sound.updating other (others other old) changed
      · obtain rfl := List.mem_singleton.mp new
        exact updating changed
    · intro other among
      rcases List.mem_append.mp among with old | new
      · exact sound.otherTarget other (others other old)
      · obtain rfl := List.mem_singleton.mp new
        exact otherTarget
  · refine ⟨forest, sound.threwAfterChange, ?_, ?_⟩
    · intro other among
      exact sound.updating other (others other among)
    · intro other among
      exact sound.otherTarget other (others other among)
  next error throws =>
    obtain ⟨notChanged, same⟩ := unchanged (by rw [throws]; rfl)
    refine ⟨forest, ?_, ?_, ?_⟩
    · simp [sound.threwAfterChange, notChanged, same]
    · intro other among
      exact sound.updating other (others other among)
    · intro other among
      exact sound.otherTarget other (others other among)

theorem Sound.step (sound : Sound state) {event : FolderEvent} (keeps : KeepsForest state event)
    (moved : step state event = some after) : Sound after := by
  cases event with
  | createFolder id projectId name parentFolderId =>
    simp only [FolderState.step] at moved
    split at moved
    · cases moved
      exact sound.start rfl
    · cases moved
      exact sound.start rfl
  | updateFolder update | deleteFolder folderId projectId transferToFolderId =>
    cases moved
    exact sound.start rfl
  | access request succeeds =>
    obtain ⟨mem, rfl⟩ := Machine.of_guarded moved
    exact sound.continueRequest mem keeps

theorem Forest.not_perform (forest : Forest folders) (otherTarget : access.hasOtherTarget = true)
    (inside : access.staysOutside folders = false) :
    ¬ Forest (access.perform folders).1 := by
  cases access with
  | updateParent update parentFolderId =>
    cases parentFolderId with
    | none => cases inside
    | some parent =>
      have mem : update.folderId ∈ folders.path parent := by
        simpa [FolderAccess.staysOutside] using inside
      have isParent : folders.isParent (some parent) = true := has_of_mem_path mem
      rw [FolderAccess.perform, isParent, if_neg (by simp)]
      exact forest.not_updateParent mem
  | transfer folderId transferToFolderId =>
    cases transferToFolderId with
    | none => cases inside
    | some target =>
      have mem : folderId ∈ folders.path target := by
        simpa [FolderAccess.staysOutside] using inside
      have isParent : folders.isParent (some target) = true := has_of_mem_path mem
      have ne : target ≠ folderId := by
        simpa [FolderAccess.hasOtherTarget] using otherTarget
      rw [FolderAccess.perform, isParent, if_neg (by simp)]
      exact forest.not_transfer ne mem
  | findParent | save | findFolder | updateName | overwriteTags
  | findNewParent | findTreeFolder | readTree | findDeleted
  | flattenAndArchive | delete | findTarget => cases inside

theorem passes_of_not_isUpdating (updating : access.isUpdating = false) :
    access.passes folders = true := by
  cases access with
  | updateName | overwriteTags | findNewParent | findTreeFolder | readTree
  | updateParent => cases updating
  | findParent | save | findFolder | findDeleted | flattenAndArchive
  | delete | findTarget | transfer => rfl

theorem continueRequest_folders (state : FolderState) (request : FolderRequest) (succeeds : Bool) :
    (state.continueRequest request succeeds).folders =
      (request.access.performOrFail state.folders succeeds).1 := by
  unfold continueRequest
  dsimp only
  split <;> rfl

theorem threwAfterChange_of_isThrow
    (throws : (request.access.performOrFail state.folders succeeds).2.isThrow = true) :
    (state.continueRequest request succeeds).threwAfterChange =
      (state.threwAfterChange || (request.changed ||
        decide ((request.access.performOrFail state.folders succeeds).1 ≠ state.folders))) := by
  unfold continueRequest
  dsimp only
  split
  next goesOn =>
    rw [goesOn] at throws
    cases throws
  next returns =>
    rw [returns] at throws
    cases throws
  · rfl

/-- A step that does not meet the condition makes a cycle or throws behind a
change. -/
theorem keepsForest_of_remainsForest (sound : Sound state)
    {event : FolderEvent} (moved : step state event = some after)
    (remains : RemainsForest after) : KeepsForest state event := by
  cases event with
  | createFolder | updateFolder | deleteFolder => rfl
  | access request succeeds =>
    obtain ⟨mem, rfl⟩ := Machine.of_guarded moved
    obtain ⟨forest, quiet⟩ := remains
    rw [continueRequest_folders] at forest
    simp only [KeepsForest, keepsForest, Bool.and_eq_true, Bool.or_eq_true, Bool.not_eq_true']
    constructor
    · cases succeeds with
      | false => exact .inl rfl
      | true =>
        right
        by_contra inside
        rw [Bool.not_eq_true] at inside
        exact sound.forest.not_perform (sound.otherTarget request mem) inside forest
    · cases throws : (request.access.performOrFail state.folders succeeds).2.isThrow with
      | true =>
        rw [threwAfterChange_of_isThrow throws] at quiet
        simp only [Bool.or_eq_false_iff, decide_eq_false_iff_not, not_not] at quiet
        exact .inr ⟨quiet.2.1, (sound.forest.performOrFail_eq_self_iff throws).mp quiet.2.2⟩
      | false =>
        left
        cases succeeds with
        | false => cases throws
        | true =>
          refine ⟨rfl, ?_⟩
          cases updating : request.access.isUpdating with
          | false => exact passes_of_not_isUpdating updating
          | true =>
            rw [FolderAccess.performOrFail, if_pos rfl,
              sound.forest.isThrow_perform updating] at throws
            simpa using throws

/-- Throughout a run the folders are a forest and no request throws that has
changed a folder, exactly if no folder moves into itself when its parent is
written or its content is transferred, and requests that have changed a folder
meet neither a failing access nor a check that refuses the rest. -/
theorem remainsForest_iff_keepsForest {events : List FolderEvent}
    (possible : (step.run {} events).isSome = true) :
    step.Always RemainsForest {} events ↔ step.Meets KeepsForest {} events := by
  obtain ⟨last, reached⟩ := Option.isSome_iff_exists.mp possible
  refine Machine.always_iff_meets ?_ ?_ ?_ start_sound reached
  · intro state event next sound keeps stepped
    exact sound.step keeps stepped
  · intro state sound
    exact ⟨sound.forest, sound.threwAfterChange⟩
  · intro state event next sound stepped remains
    exact keepsForest_of_remainsForest sound stepped remains

/-- The subfolder of a folder gets a name and moves to the root, while the
folder is deleted. -/
theorem remainsForest_of_move_and_delete : let update : FolderUpdate :=
      { folderId := "b"
        projectId := "p"
        name := some "C"
        parentFolderId := some "0" }
    step.Always RemainsForest {}
      [.createFolder "a" "p" "A" none, .access ⟨.save "a" "p" "A" none, false⟩ true,
        .createFolder "b" "p" "B" (some "a"),
        .access ⟨.findParent "b" "p" "B" "a", false⟩ true,
        .access ⟨.save "b" "p" "B" (some "a"), false⟩ true,
        .updateFolder update, .access ⟨.findFolder update, false⟩ true,
        .access ⟨.updateName update "C", false⟩ true,
        .deleteFolder "a" "p" none,
        .access ⟨.findDeleted "a" "p" none, false⟩ true,
        .access ⟨.updateParent update none, true⟩ true,
        .access ⟨.flattenAndArchive "a", false⟩ true,
        .access ⟨.delete "a", false⟩ true] :=
  (remainsForest_iff_keepsForest (by decide +kernel)).mpr (by decide +kernel)

/-- The content of a folder is transferred to its only subfolder, which then
is its own parent. -/
theorem not_remainsForest_of_transfer : ¬ step.Always RemainsForest {}
      [.createFolder "a" "p" "A" none, .access ⟨.save "a" "p" "A" none, false⟩ true,
        .createFolder "b" "p" "B" (some "a"),
        .access ⟨.findParent "b" "p" "B" "a", false⟩ true,
        .access ⟨.save "b" "p" "B" (some "a"), false⟩ true,
        .deleteFolder "a" "p" (some "b"),
        .access ⟨.findDeleted "a" "p" (some "b"), false⟩ true,
        .access ⟨.findTarget "a" "p" "b", false⟩ true,
        .access ⟨.transfer "a" (some "b"), false⟩ true] := by
  intro always
  have forest := (always _ (List.prefix_refl _) _ rfl).1
  refine (forest "b" (by decide +kernel)).irrefl (.single ?_)
  rw [Link]
  decide +kernel

end FolderState

end N8n
