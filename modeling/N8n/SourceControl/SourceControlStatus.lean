import Mathlib.Data.List.Sort
import N8n.Library.TwoSides

/-!
# The status of source control

`getStatus` compares the items in the database with those in the work folder
of the git repository, kind by kind.  What the import service and the
repositories return for a request is a `Snapshot`.
-/

namespace N8n.SourceControl

open TwoSides (missingIn changed)

inductive OwnerType where
  | personal
  | team
deriving DecidableEq

structure StatusResourceOwner where
  type : OwnerType
  projectId : String
  projectName : String

/-- A parent folder may be `undefined` as well as `null`. -/
structure SourceControlWorkflowVersionId where
  id : String
  versionId : String
  filename : String
  name : Option String := none
  localId : Option String := none
  remoteId : Option String := none
  parentFolderId : Option (Option String) := none
  updatedAt : Option String := none
  owner : Option StatusResourceOwner := none

structure StatusExportableCredential where
  id : String
  name : String
  type : String
  filename : String
  ownedBy : Option StatusResourceOwner := none
  isGlobal : Option Bool := none

structure ExportableVariable where
  id : String
  key : String
  type : String := "string"
  value : String := ""

structure TagEntity where
  id : String
  name : String

structure WorkflowTagMapping where
  tagId : String
  workflowId : String

structure ExportableFolder where
  id : String
  name : String
  parentFolderId : Option String := none
  homeProjectId : String

inductive IconType where
  | emoji
  | icon
deriving DecidableEq

structure ProjectIcon where
  type : IconType
  value : String

structure TeamResourceOwner where
  type : OwnerType := .team
  teamId : String
  teamName : String

structure ExportableProjectWithFileName where
  id : String
  name : String
  icon : Option ProjectIcon := none
  description : Option String := none
  type : OwnerType := .team
  owner : TeamResourceOwner
  variableStubs : Option (List ExportableVariable) := none
  filename : String

inductive FileType where
  | credential
  | workflow
  | tags
  | variables
  | folders
  | project
deriving DecidableEq

inductive FileStatus where
  | modified
  | deleted
  | created

inductive FileLocation where
  | «local»
  | remote

structure SourceControlledFile where
  file : String
  id : String
  name : String
  type : FileType
  status : FileStatus
  location : FileLocation
  conflict : Bool
  updatedAt : String
  owner : Option StatusResourceOwner := none

inductive Direction where
  | push
  | pull
deriving DecidableEq

structure SourceControlGetStatus where
  direction : Direction
  preferLocalVersion : Bool
  verbose : Bool

structure User where
  globalScopes : List String

def hasGlobalScope (user : User) (scope : String) : Bool :=
  scope ∈ user.globalScopes

def User.hasAccessToAllProjects (user : User) : Bool :=
  hasGlobalScope user "project:update"

structure Items where
  workflows : List SourceControlWorkflowVersionId := []
  credentials : List StatusExportableCredential := []
  globalVariables : List ExportableVariable := []
  tags : List TagEntity := []
  mappings : List WorkflowTagMapping := []
  folders : List ExportableFolder := []
  projects : List ExportableProjectWithFileName := []

/-- What a request reads.  The workflows and projects outside its context are
in the last two lists only. -/
structure Snapshot where
  localItems : Items
  remoteItems : Items
  allLocalWorkflows : List SourceControlWorkflowVersionId := []
  allTeamProjects : List ExportableProjectWithFileName := []
  lastUpdatedTag : Option String := none
  lastUpdatedFolder : Option String := none
  now : String
  gitFolder : String

variable (gitFolder : String)

def getVariablesPath : String :=
  gitFolder ++ "/variable_stubs.json"

def getTagsPath : String := gitFolder ++ "/tags.json"

def getFoldersPath : String := gitFolder ++ "/folders.json"

/-! ## What is compared -/

/-- Personal projects are not synced, so that two personal owners do not
differ. -/
def hasOwnerChanged (owner1 owner2 : Option StatusResourceOwner) : Bool :=
  if owner1.map (·.type) ≠ some .team ∧ owner2.map (·.type) ≠ some .team then
    false
  else owner1.map (·.projectId) ≠ owner2.map (·.projectId)

def isWorkflowModified (localWorkflow remote : SourceControlWorkflowVersionId) : Bool :=
  let hasVersionIdChanged := decide (remote.versionId ≠ localWorkflow.versionId)
  let hasParentFolderIdChanged := decide (remote.parentFolderId ≠ none ∧
    remote.parentFolderId ≠ localWorkflow.parentFolderId)
  let ownerChanged := hasOwnerChanged remote.owner localWorkflow.owner
  hasVersionIdChanged || hasParentFolderIdChanged || ownerChanged

section

variable (localeCompare : String → String → Int)

/-- `sort` by the keys; `localeCompare` is the comparison of the host's
locale. -/
def sortByKey (stubs : List ExportableVariable) : List ExportableVariable :=
  stubs.insertionSort fun a b => localeCompare a.key b.key ≤ 0

def areVariablesEqual (localVariables remoteVariables : Option (List ExportableVariable)) : Bool :=
  if localVariables.isSome ≠ remoteVariables.isSome then false
  else if localVariables.map (·.length) ≠ remoteVariables.map (·.length) then
    false
  else
    let sortedLocalVars := sortByKey localeCompare (localVariables.getD [])
    let sortedRemoteVars := sortByKey localeCompare (remoteVariables.getD [])
    (sortedLocalVars.zip sortedRemoteVars).all fun (localVar, remoteVar) =>
      localVar.key = remoteVar.key && localVar.type = remoteVar.type

def isProjectIconModified (localIcon remoteIcon : Option ProjectIcon) : Bool :=
  match localIcon, remoteIcon with
  | some _, none => true
  | none, some _ => true
  | some localIcon, some remoteIcon =>
    remoteIcon.type ≠ localIcon.type || remoteIcon.value ≠ localIcon.value
  | none, none => false

def isProjectModified (localProject remote : ExportableProjectWithFileName) : Bool :=
  isProjectIconModified localProject.icon remote.icon || remote.type ≠ localProject.type ||
    remote.name ≠ localProject.name ||
    remote.description ≠ localProject.description ||
    !areVariablesEqual localeCompare localProject.variableStubs remote.variableStubs

end

/-- The owner of a folder whose home is a team project. -/
def teamOwner (allTeamProjects : List ExportableProjectWithFileName)
    (homeProjectId : String) : Option StatusResourceOwner :=
  (allTeamProjects.find? (·.id = homeProjectId)).map fun project =>
    { type := .team
      projectId := project.id
      projectName := project.name }

/-! ## The files -/

structure StatusLists (α : Type) where
  missingInLocal : List α
  missingInRemote : List α
  modifiedInEither : List α

section Files

variable (direction : Direction)

def locationOf : Direction → FileLocation
  | .push => .local
  | .pull => .remote

def statusOfMissingInLocal : Direction → FileStatus
  | .push => .deleted
  | .pull => .created

def statusOfMissingInRemote : Direction → FileStatus
  | .push => .created
  | .pull => .deleted

/-- The three loops that push the files of a kind.  A pull deletes what is
missing in the remote, which is marked as a conflict. -/
def filesOf {α : Type} (toFile : α → FileStatus → Bool → SourceControlledFile)
    (lists : StatusLists α) : List SourceControlledFile :=
  lists.missingInLocal.map (toFile · (statusOfMissingInLocal direction) false) ++
    (lists.missingInRemote.map (toFile · (statusOfMissingInRemote direction) (direction = .pull)) ++
      lists.modifiedInEither.map (toFile · .modified true))

end Files

/-! ## The kinds of items -/

section Kinds

variable (localeCompare : String → String → Int)
  (options : SourceControlGetStatus) (user : User) (snapshot : Snapshot)

/-- The name of a workflow or a project with two names. -/
def bothNames (localName remoteName : String) : String :=
  if options.preferLocalVersion then
    localName ++ " (Remote: " ++ remoteName ++ ")"
  else remoteName ++ " (Local: " ++ localName ++ ")"

def modifiedWorkflow (localWorkflow remote : SourceControlWorkflowVersionId) :
    Option SourceControlWorkflowVersionId :=
  if isWorkflowModified localWorkflow remote then
    let preferred := if options.preferLocalVersion then localWorkflow else remote
    let name := match localWorkflow.name, remote.name with
      | some localName, some remoteName =>
        if localName ≠ "" ∧ remoteName ≠ "" ∧ localName ≠ remoteName then
          bothNames options localName remoteName
        else preferred.name.getD "Workflow"
      | _, _ => preferred.name.getD "Workflow"
    some { localWorkflow with
      name := some name
      versionId := preferred.versionId
      localId := some localWorkflow.versionId
      remoteId := some remote.versionId }
  else none

def workflowFile (item : SourceControlWorkflowVersionId) (status : FileStatus)
    (conflict : Bool) : SourceControlledFile :=
  { id := item.id
    name := item.name.getD "Workflow"
    type := .workflow
    status
    location := locationOf options.direction
    conflict
    file := item.filename
    updatedAt := item.updatedAt.getD snapshot.now
    owner := item.owner }

/-- Workflows which the user cannot see locally are not offered again. -/
def getStatusWorkflows : StatusLists SourceControlWorkflowVersionId :=
  let wfRemoteVersionIds := snapshot.remoteItems.workflows
  let wfLocalVersionIds := snapshot.localItems.workflows
  let outOfScopeWF :=
    if user.hasAccessToAllProjects then []
    else missingIn (·.id) wfLocalVersionIds snapshot.allLocalWorkflows
  { missingInLocal := missingIn (·.id) outOfScopeWF
      (missingIn (·.id) wfLocalVersionIds wfRemoteVersionIds)
    missingInRemote := missingIn (·.id) wfRemoteVersionIds wfLocalVersionIds
    modifiedInEither := changed (fun localWorkflow remote => remote.id = localWorkflow.id)
        (modifiedWorkflow options) wfLocalVersionIds wfRemoteVersionIds }

def mismatchingCredential (localCredential remote : StatusExportableCredential) : Bool :=
  remote.id = localCredential.id && (remote.name ≠ localCredential.name ||
      remote.type ≠ localCredential.type ||
      hasOwnerChanged remote.ownedBy localCredential.ownedBy ||
      remote.isGlobal.getD false ≠ localCredential.isGlobal.getD false)

def credentialFile (item : StatusExportableCredential) (status : FileStatus)
    (conflict : Bool) : SourceControlledFile :=
  { id := item.id
    name := item.name
    type := .credential
    status
    location := locationOf options.direction
    conflict
    file := item.filename
    updatedAt := snapshot.now
    owner := item.ownedBy }

def getStatusCredentials : StatusLists StatusExportableCredential :=
  let credRemoteIds := snapshot.remoteItems.credentials
  let credLocalIds := snapshot.localItems.credentials
  { missingInLocal := missingIn (·.id) credLocalIds credRemoteIds
    missingInRemote := missingIn (·.id) credRemoteIds credLocalIds
    modifiedInEither := changed mismatchingCredential
        (fun localCredential remote => some { localCredential with
          name := if options.preferLocalVersion then localCredential.name
            else remote.name })
        credLocalIds credRemoteIds }

/-- A variable with the key of another one is a mismatch as well. -/
def mismatchingVariable (localVariable remote : ExportableVariable) : Bool :=
  (remote.id = localVariable.id && remote.key ≠ localVariable.key) ||
    (remote.id ≠ localVariable.id && remote.key = localVariable.key)

def variableFile (item : ExportableVariable) (status : FileStatus)
    (conflict : Bool) : SourceControlledFile :=
  { id := item.id
    name := item.key
    type := .variables
    status
    location := locationOf options.direction
    conflict
    file := getVariablesPath snapshot.gitFolder
    updatedAt := snapshot.now }

def preferred {α : Type} (localItem remote : α) : α :=
  if options.preferLocalVersion then localItem else remote

def getStatusVariables : StatusLists ExportableVariable :=
  let varRemoteIds := snapshot.remoteItems.globalVariables
  let varLocalIds := snapshot.localItems.globalVariables
  { missingInLocal := missingIn (·.id) varLocalIds varRemoteIds
    missingInRemote := missingIn (·.id) varRemoteIds varLocalIds
    modifiedInEither := changed mismatchingVariable (fun localVariable remote =>
          some (preferred options localVariable remote))
        varLocalIds varRemoteIds }

def mismatchingTag (localTag remote : TagEntity) : Bool :=
  remote.id = localTag.id && remote.name ≠ localTag.name

def tagFile (item : TagEntity) (status : FileStatus) (conflict : Bool) : SourceControlledFile :=
  { id := item.id
    name := item.name
    type := .tags
    status
    location := locationOf options.direction
    conflict
    file := getTagsPath snapshot.gitFolder
    updatedAt := snapshot.lastUpdatedTag.getD snapshot.now }

def getStatusTags : StatusLists TagEntity :=
  let tagsRemote := snapshot.remoteItems.tags
  let tagsLocal := snapshot.localItems.tags
  { missingInLocal := missingIn (·.id) tagsLocal tagsRemote
    missingInRemote := missingIn (·.id) tagsRemote tagsLocal
    modifiedInEither := changed mismatchingTag
        (fun localTag remote => some (preferred options localTag remote))
        tagsLocal tagsRemote }

def WorkflowTagMapping.key (mapping : WorkflowTagMapping) : String × String :=
  (mapping.tagId, mapping.workflowId)

/-- Mappings are missing on a side, but never modified. -/
def getStatusMappings : StatusLists WorkflowTagMapping :=
  let mappingsRemote := snapshot.remoteItems.mappings
  let mappingsLocal := snapshot.localItems.mappings
  { missingInLocal := missingIn (·.key) mappingsLocal mappingsRemote
    missingInRemote := missingIn (·.key) mappingsRemote mappingsLocal
    modifiedInEither := [] }

def mismatchingFolder (localFolder remote : ExportableFolder) : Bool :=
  let localOwner := teamOwner snapshot.allTeamProjects localFolder.homeProjectId
  let remoteOwner := teamOwner snapshot.allTeamProjects remote.homeProjectId
  remote.id = localFolder.id && (remote.name ≠ localFolder.name ||
      remote.parentFolderId ≠ localFolder.parentFolderId ||
      hasOwnerChanged localOwner remoteOwner)

def folderFile (item : ExportableFolder) (status : FileStatus)
    (conflict : Bool) : SourceControlledFile :=
  { id := item.id
    name := item.name
    type := .folders
    status
    location := locationOf options.direction
    conflict
    file := getFoldersPath snapshot.gitFolder
    updatedAt := snapshot.lastUpdatedFolder.getD snapshot.now }

def getStatusFolders : StatusLists ExportableFolder :=
  let foldersRemote := snapshot.remoteItems.folders
  let foldersLocal := snapshot.localItems.folders
  { missingInLocal := missingIn (·.id) foldersLocal foldersRemote
    missingInRemote := missingIn (·.id) foldersRemote foldersLocal
    modifiedInEither := changed (mismatchingFolder snapshot)
        (fun localFolder remote => some (preferred options localFolder remote))
        foldersLocal foldersRemote }

def modifiedProject (localProject remote : ExportableProjectWithFileName) :
    Option ExportableProjectWithFileName :=
  if isProjectModified localeCompare localProject remote then
    let chosen := preferred options localProject remote
    let name :=
      if localProject.name ≠ "" ∧ remote.name ≠ "" ∧ localProject.name ≠ remote.name then
        bothNames options localProject.name remote.name
      else chosen.name
    some { localProject with
      name
      description := chosen.description
      icon := chosen.icon
      variableStubs := chosen.variableStubs }
  else none

def projectFile (item : ExportableProjectWithFileName) (status : FileStatus)
    (conflict : Bool) : SourceControlledFile :=
  { id := item.id
    name := item.name
    type := .project
    status
    location := locationOf options.direction
    conflict
    file := item.filename
    updatedAt := snapshot.now
    owner := some
      { type := item.owner.type
        projectId := item.owner.teamId
        projectName := item.owner.teamName } }

/-- Without remote projects a pull deletes no local one. -/
def getStatusProjects : StatusLists ExportableProjectWithFileName :=
  let projectsRemote := snapshot.remoteItems.projects
  let projectsLocal := snapshot.localItems.projects
  let outOfScopeProjects :=
    if user.hasAccessToAllProjects then []
    else missingIn (·.id) projectsLocal snapshot.allTeamProjects
  let areRemoteProjectsEmpty := projectsRemote.length = 0
  { missingInLocal := missingIn (·.id) outOfScopeProjects
      (missingIn (·.id) projectsLocal projectsRemote)
    missingInRemote :=
      if options.direction = .pull ∧ areRemoteProjectsEmpty then []
      else missingIn (·.id) projectsRemote projectsLocal
    modifiedInEither := changed (fun localProject remote => remote.id = localProject.id)
        (modifiedProject localeCompare options) projectsLocal projectsRemote }

end Kinds

/-! ## The request -/

inductive StatusError where
  | forbidden (message : String)

structure VerboseStatus where
  wfRemoteVersionIds : List SourceControlWorkflowVersionId
  wfLocalVersionIds : List SourceControlWorkflowVersionId
  wf : StatusLists SourceControlWorkflowVersionId
  cred : StatusLists StatusExportableCredential
  var : StatusLists ExportableVariable
  tags : StatusLists TagEntity
  mappings : StatusLists WorkflowTagMapping
  folders : StatusLists ExportableFolder
  projectsRemote : List ExportableProjectWithFileName
  projectsLocal : List ExportableProjectWithFileName
  projects : StatusLists ExportableProjectWithFileName
  sourceControlledFiles : List SourceControlledFile

inductive StatusResult where
  | verbose (status : VerboseStatus)
  | files (sourceControlledFiles : List SourceControlledFile)

section Request

variable (localeCompare : String → String → Int) (user : User)
  (options : SourceControlGetStatus) (snapshot : Snapshot)

def sourceControlledFiles : List SourceControlledFile :=
  filesOf options.direction (workflowFile options snapshot)
      (getStatusWorkflows options user snapshot) ++
    (filesOf options.direction (credentialFile options snapshot)
        (getStatusCredentials options snapshot) ++
      (filesOf options.direction (variableFile options snapshot)
          (getStatusVariables options snapshot) ++
        (filesOf options.direction (tagFile options snapshot) (getStatusTags options snapshot) ++
          (filesOf options.direction (folderFile options snapshot)
              (getStatusFolders options snapshot) ++
            filesOf options.direction (projectFile options snapshot)
              (getStatusProjects localeCompare options user snapshot)))))

def verboseStatus : VerboseStatus :=
  { wfRemoteVersionIds := snapshot.remoteItems.workflows
    wfLocalVersionIds := snapshot.localItems.workflows
    wf := getStatusWorkflows options user snapshot
    cred := getStatusCredentials options snapshot
    var := getStatusVariables options snapshot
    tags := getStatusTags options snapshot
    mappings := getStatusMappings snapshot
    folders := getStatusFolders options snapshot
    projectsRemote := snapshot.remoteItems.projects
    projectsLocal := snapshot.localItems.projects
    projects := getStatusProjects localeCompare options user snapshot
    sourceControlledFiles := sourceControlledFiles localeCompare user options snapshot }

def getStatus : Except StatusError StatusResult :=
  if options.direction = .pull ∧ hasGlobalScope user "sourceControl:pull" = false then
    .error (.forbidden "You do not have permission to pull from source control")
  else if options.verbose then
    .ok (.verbose (verboseStatus localeCompare user options snapshot))
  else
    .ok (.files (sourceControlledFiles localeCompare user options snapshot))

end Request

end N8n.SourceControl
