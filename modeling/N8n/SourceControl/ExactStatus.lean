import N8n.SourceControl.SourceControlStatus

/-!
# The status is exact

For a user who sees all projects the status lists exactly the items that are
missing on a side and the items on both sides that differ, and a pull shows
what a push shows with created and deleted exchanged.  Variables are matched
by their keys as well as by their ids, so that a variable can be listed as
missing and as modified.
-/

namespace N8n.SourceControl

open List

open TwoSides (missingIn changed MissingExactly ChangedExactly KeepsKey)

/-! ## What differs -/

section Differences

/-- Two owners differ if one of them is a team and they have different
projects. -/
def OwnersDiffer (owner1 owner2 : Option StatusResourceOwner) : Prop :=
  (owner1.map (·.type) = some .team ∨ owner2.map (·.type) = some .team) ∧
    owner1.map (·.projectId) ≠ owner2.map (·.projectId)

def WorkflowsDiffer (localWorkflow remote : SourceControlWorkflowVersionId) : Prop :=
  remote.versionId ≠ localWorkflow.versionId ∨ (remote.parentFolderId ≠ none ∧
      remote.parentFolderId ≠ localWorkflow.parentFolderId) ∨
    OwnersDiffer remote.owner localWorkflow.owner

def CredentialsDiffer (localCredential remote : StatusExportableCredential) : Prop :=
  remote.name ≠ localCredential.name ∨ remote.type ≠ localCredential.type ∨
    OwnersDiffer remote.ownedBy localCredential.ownedBy ∨
    remote.isGlobal.getD false ≠ localCredential.isGlobal.getD false

def FoldersDiffer (allTeamProjects : List ExportableProjectWithFileName)
    (localFolder remote : ExportableFolder) : Prop :=
  remote.name ≠ localFolder.name ∨ remote.parentFolderId ≠ localFolder.parentFolderId ∨
    OwnersDiffer (teamOwner allTeamProjects localFolder.homeProjectId)
      (teamOwner allTeamProjects remote.homeProjectId)

section

variable (localeCompare : String → String → Int)

/-- Both or none of the projects have variables, and in the order of the keys
these have the same keys and types. -/
def SameVariables (localVariables remoteVariables : Option (List ExportableVariable)) : Prop :=
  localVariables.map (fun stubs =>
      (sortByKey localeCompare stubs).map fun stub => (stub.key, stub.type)) =
    remoteVariables.map fun stubs =>
      (sortByKey localeCompare stubs).map fun stub => (stub.key, stub.type)

def ProjectsDiffer (localProject remote : ExportableProjectWithFileName) : Prop :=
  remote.icon ≠ localProject.icon ∨ remote.type ≠ localProject.type ∨
    remote.name ≠ localProject.name ∨
    remote.description ≠ localProject.description ∨
    ¬ SameVariables localeCompare localProject.variableStubs remote.variableStubs

end

/-- The same id with two keys, or the same key with two ids. -/
def VariablesClash (localVariable remote : ExportableVariable) : Prop :=
  (remote.id = localVariable.id ∧ remote.key ≠ localVariable.key) ∨
    (remote.id ≠ localVariable.id ∧ remote.key = localVariable.key)

end Differences

/-! ## The exact status -/

section Spec

structure UniqueIds (items : Items) : Prop where
  workflows : (items.workflows.map (·.id)).Nodup
  credentials : (items.credentials.map (·.id)).Nodup
  globalVariables : (items.globalVariables.map (·.id)).Nodup
  tags : (items.tags.map (·.id)).Nodup
  mappings : (items.mappings.map (·.key)).Nodup
  folders : (items.folders.map (·.id)).Nodup
  projects : (items.projects.map (·.id)).Nodup

structure ExactLists {α κ : Type} (key : α → κ) (Differs : α → α → Prop)
    (localItems remoteItems : List α) (lists : StatusLists α) : Prop where
  missingInLocal : MissingExactly key localItems remoteItems lists.missingInLocal
  missingInRemote : MissingExactly key remoteItems localItems lists.missingInRemote
  modifiedInEither : ChangedExactly key Differs localItems remoteItems lists.modifiedInEither

/-- What a pull makes of a file that a push shows. -/
def exchanged (file : SourceControlledFile) : SourceControlledFile :=
  match file.status with
  | .created => { file with
      status := .deleted
      location := .remote
      conflict := true }
  | .deleted => { file with
      status := .created
      location := .remote
      conflict := false }
  | .modified => { file with location := .remote }

def filesOfType (type : FileType) (files : List SourceControlledFile) : List SourceControlledFile :=
  files.filter fun file => file.type = type

/-- No two variables of the two sides have one key and different ids. -/
def KeysIdentify (localVariables remoteVariables : List ExportableVariable) : Prop :=
  ∀ localVariable ∈ localVariables, ∀ remote ∈ remoteVariables,
    remote.key = localVariable.key → remote.id = localVariable.id

/-- The variables that clash with one of the other side: the local one, or
the first remote one. -/
def ClashesExactly (preferLocalVersion : Bool)
    (localVariables remoteVariables modified : List ExportableVariable) :
    Prop :=
  ∀ variable', variable' ∈ modified ↔
    if preferLocalVersion then
      variable' ∈ localVariables ∧ ∃ remote ∈ remoteVariables, VariablesClash variable' remote
    else ∃ localVariable ∈ localVariables, ∃ before after,
      remoteVariables = before ++ variable' :: after ∧ VariablesClash localVariable variable' ∧
        ∀ earlier ∈ before, ¬ VariablesClash localVariable earlier

structure ExactStatus (localeCompare : String → String → Int)
    (options : SourceControlGetStatus) (snapshot : Snapshot)
    (status : VerboseStatus) : Prop where
  workflows : ExactLists (·.id) WorkflowsDiffer
    snapshot.localItems.workflows snapshot.remoteItems.workflows status.wf
  credentials : ExactLists (·.id) CredentialsDiffer
    snapshot.localItems.credentials snapshot.remoteItems.credentials
    status.cred
  variablesMissingInLocal : MissingExactly (·.id)
    snapshot.localItems.globalVariables snapshot.remoteItems.globalVariables
    status.var.missingInLocal
  variablesMissingInRemote : MissingExactly (·.id)
    snapshot.remoteItems.globalVariables snapshot.localItems.globalVariables
    status.var.missingInRemote
  variablesModified : ClashesExactly options.preferLocalVersion
    snapshot.localItems.globalVariables snapshot.remoteItems.globalVariables
    status.var.modifiedInEither
  tags : ExactLists (·.id) (fun localTag remote => remote.name ≠ localTag.name)
    snapshot.localItems.tags snapshot.remoteItems.tags status.tags
  mappings : ExactLists (·.key) (fun _ _ => False)
    snapshot.localItems.mappings snapshot.remoteItems.mappings status.mappings
  folders : ExactLists (·.id) (FoldersDiffer snapshot.allTeamProjects)
    snapshot.localItems.folders snapshot.remoteItems.folders status.folders
  projectsMissingInLocal : MissingExactly (·.id)
    snapshot.localItems.projects snapshot.remoteItems.projects
    status.projects.missingInLocal
  projectsMissingInRemote :
    if options.direction = .pull ∧ snapshot.remoteItems.projects = [] then
      status.projects.missingInRemote = []
    else MissingExactly (·.id) snapshot.remoteItems.projects
      snapshot.localItems.projects status.projects.missingInRemote
  projectsModified : ChangedExactly (·.id) (ProjectsDiffer localeCompare)
    snapshot.localItems.projects snapshot.remoteItems.projects
    status.projects.modifiedInEither
  once : ∀ type ≠ .variables, ((filesOfType type status.sourceControlledFiles).map (·.id)).Nodup
  variablesOnce : KeysIdentify snapshot.localItems.globalVariables
      snapshot.remoteItems.globalVariables →
    ((filesOfType .variables status.sourceControlledFiles).map (·.id)).Nodup

def StatusResult.exchanged : StatusResult → StatusResult
  | .verbose status => .verbose { status with
      sourceControlledFiles := status.sourceControlledFiles.map SourceControl.exchanged }
  | .files sourceControlledFiles =>
    .files (sourceControlledFiles.map SourceControl.exchanged)

/-- If there are remote projects, a pull shows what a push shows with created
and deleted exchanged. -/
def PullExchangesPush (localeCompare : String → String → Int) (user : User)
    (snapshot : Snapshot) : Prop :=
  snapshot.remoteItems.projects ≠ [] → ∀ preferLocalVersion verbose, ∃ result,
    getStatus localeCompare user
      { direction := .push, preferLocalVersion, verbose } snapshot = .ok result ∧
    getStatus localeCompare user
      { direction := .pull, preferLocalVersion, verbose } snapshot = .ok result.exchanged

end Spec

/-! ## The comparisons -/

section Comparisons

theorem hasOwnerChanged_iff {owner1 owner2 : Option StatusResourceOwner} :
    hasOwnerChanged owner1 owner2 = true ↔ OwnersDiffer owner1 owner2 := by
  rw [hasOwnerChanged, OwnersDiffer]
  split
  next noTeam => simp [noTeam]
  next someTeam =>
    rw [not_and_or, not_not, not_not] at someTeam
    rw [decide_eq_true_eq]
    exact ⟨fun changed => ⟨someTeam, changed⟩, fun differ => differ.2⟩

theorem isWorkflowModified_iff {localWorkflow remote : SourceControlWorkflowVersionId} :
    isWorkflowModified localWorkflow remote = true ↔ WorkflowsDiffer localWorkflow remote := by
  simp [isWorkflowModified, WorkflowsDiffer, hasOwnerChanged_iff, or_assoc]

theorem mismatchingCredential_iff {localCredential remote : StatusExportableCredential} :
    mismatchingCredential localCredential remote = true ↔
      remote.id = localCredential.id ∧ CredentialsDiffer localCredential remote := by
  simp [mismatchingCredential, CredentialsDiffer, hasOwnerChanged_iff, or_assoc]

theorem mismatchingVariable_iff {localVariable remote : ExportableVariable} :
    mismatchingVariable localVariable remote = true ↔ VariablesClash localVariable remote := by
  simp [mismatchingVariable, VariablesClash]

theorem mismatchingTag_iff {localTag remote : TagEntity} : mismatchingTag localTag remote = true ↔
      remote.id = localTag.id ∧ remote.name ≠ localTag.name := by
  simp [mismatchingTag]

theorem mismatchingFolder_iff {snapshot : Snapshot} {localFolder remote : ExportableFolder} :
    mismatchingFolder snapshot localFolder remote = true ↔ remote.id = localFolder.id ∧
        FoldersDiffer snapshot.allTeamProjects localFolder remote := by
  simp [mismatchingFolder, FoldersDiffer, hasOwnerChanged_iff, or_assoc]

theorem isProjectIconModified_iff {localIcon remoteIcon : Option ProjectIcon} :
    isProjectIconModified localIcon remoteIcon = true ↔ remoteIcon ≠ localIcon := by
  match localIcon, remoteIcon with
  | none, none => simp [isProjectIconModified]
  | none, some _ => simp [isProjectIconModified]
  | some _, none => simp [isProjectIconModified]
  | some localIcon, some remoteIcon =>
    cases localIcon
    cases remoteIcon
    simp [isProjectIconModified, imp_iff_not_or]

theorem all_zip_iff {stubs others : List ExportableVariable}
    (sameLength : stubs.length = others.length) :
    ((stubs.zip others).all fun (localVar, remoteVar) =>
      localVar.key = remoteVar.key && localVar.type = remoteVar.type) = true ↔
      stubs.map (fun stub => (stub.key, stub.type)) =
        others.map fun stub => (stub.key, stub.type) := by
  induction stubs generalizing others with
  | nil =>
    cases others with
    | nil => simp
    | cons other others => cases sameLength
  | cons stub stubs ih =>
    cases others with
    | nil => cases sameLength
    | cons other others =>
      rw [zip_cons_cons, all_cons, Bool.and_eq_true,
        ih (Nat.succ.inj sameLength), map_cons, map_cons,
        List.cons.injEq, Prod.mk.injEq]
      simp

theorem areVariablesEqual_iff {localeCompare : String → String → Int}
    {localVariables remoteVariables : Option (List ExportableVariable)} :
    areVariablesEqual localeCompare localVariables remoteVariables = true ↔
      SameVariables localeCompare localVariables remoteVariables := by
  rw [areVariablesEqual, SameVariables]
  match localVariables, remoteVariables with
  | none, none => simp [sortByKey]
  | none, some others => simp
  | some stubs, none => simp
  | some stubs, some others =>
    simp only [Option.isSome_some, ne_eq, not_true_eq_false, ↓reduceIte,
      Option.map_some, Option.some.injEq, Option.getD_some]
    by_cases sameLength : stubs.length = others.length
    · rw [if_neg (not_not.mpr sameLength)]
      apply all_zip_iff
      rw [sortByKey, sortByKey, length_insertionSort, length_insertionSort, sameLength]
    · rw [if_pos sameLength]
      refine iff_of_false Bool.false_ne_true fun same => sameLength ?_
      have lengths := congrArg List.length same
      simpa [sortByKey] using lengths

theorem isProjectModified_iff {localeCompare : String → String → Int}
    {localProject remote : ExportableProjectWithFileName} :
    isProjectModified localeCompare localProject remote = true ↔
      ProjectsDiffer localeCompare localProject remote := by
  simp only [isProjectModified, ProjectsDiffer, Bool.or_eq_true,
    isProjectIconModified_iff, decide_eq_true_eq, Bool.not_eq_true',
    ← areVariablesEqual_iff, Bool.not_eq_true, or_assoc]

end Comparisons

/-! ## The lists -/

section Lists

variable {localeCompare : String → String → Int}
  {options : SourceControlGetStatus} {user : User} {snapshot : Snapshot}

theorem keepsKey_modifiedWorkflow : KeepsKey (·.id)
    (fun localWorkflow remote : SourceControlWorkflowVersionId =>
      decide (remote.id = localWorkflow.id)) (modifiedWorkflow options) := by
  intro localWorkflow remote same
  refine ⟨of_decide_eq_true same, fun result isResult => ?_⟩
  rw [Option.mem_def, modifiedWorkflow] at isResult
  split at isResult
  · cases isResult
    rfl
  · cases isResult

theorem isSome_modifiedWorkflow {localWorkflow remote : SourceControlWorkflowVersionId} :
    (modifiedWorkflow options localWorkflow remote).isSome = true ↔
      WorkflowsDiffer localWorkflow remote := by
  rw [← isWorkflowModified_iff, modifiedWorkflow]
  split <;> simp [*]

theorem keepsKey_modifiedProject : KeepsKey (·.id)
    (fun localProject remote : ExportableProjectWithFileName =>
      decide (remote.id = localProject.id))
    (modifiedProject localeCompare options) := by
  intro localProject remote same
  refine ⟨of_decide_eq_true same, fun result isResult => ?_⟩
  rw [Option.mem_def, modifiedProject] at isResult
  split at isResult
  · cases isResult
    rfl
  · cases isResult

theorem isSome_modifiedProject {localProject remote : ExportableProjectWithFileName} :
    (modifiedProject localeCompare options localProject remote).isSome =
        true ↔ ProjectsDiffer localeCompare localProject remote := by
  rw [← isProjectModified_iff, modifiedProject]
  split <;> simp [*]

theorem keepsKey_preferred {α κ : Type} {key : α → κ} {mismatching : α → α → Bool}
    (sameKey : ∀ item other, mismatching item other = true → key other = key item) :
    KeepsKey key mismatching (fun item other => some (preferred options item other)) := by
  intro item other isMismatch
  have same := sameKey item other isMismatch
  refine ⟨same, fun result isResult => ?_⟩
  cases isResult
  rw [preferred]
  split
  · rfl
  · exact same

theorem keepsKey_credential : KeepsKey (·.id) mismatchingCredential
    (fun localCredential remote => some { localCredential with
      name := if options.preferLocalVersion then localCredential.name
        else remote.name }) := by
  intro localCredential remote isMismatch
  refine ⟨(mismatchingCredential_iff.mp isMismatch).1, ?_⟩
  intro result isResult
  cases isResult
  rfl

theorem exactLists {α κ : Type} [DecidableEq κ] {key : α → κ}
    {Differs : α → α → Prop} {localItems remoteItems : List α}
    {sought : α → α → Bool} {listed : α → α → Option α}
    (nodup : (remoteItems.map key).Nodup) (keeps : KeepsKey key sought listed)
    (differs : ∀ item other, key other = key item →
      ((sought item other = true ∧ (listed item other).isSome = true) ↔ Differs item other)) :
    ExactLists key Differs localItems remoteItems
      { missingInLocal := missingIn key localItems remoteItems
        missingInRemote := missingIn key remoteItems localItems
        modifiedInEither := changed sought listed localItems remoteItems } where
  missingInLocal := TwoSides.missingIn_exactly localItems remoteItems
  missingInRemote := TwoSides.missingIn_exactly remoteItems localItems
  modifiedInEither := TwoSides.changed_exactly nodup keeps differs

theorem getStatusWorkflows_of_hasAccess (hasAccess : user.hasAccessToAllProjects = true) :
    getStatusWorkflows options user snapshot =
      { missingInLocal := missingIn (·.id) snapshot.localItems.workflows
          snapshot.remoteItems.workflows
        missingInRemote := missingIn (·.id) snapshot.remoteItems.workflows
          snapshot.localItems.workflows
        modifiedInEither := changed (fun localWorkflow remote => remote.id = localWorkflow.id)
            (modifiedWorkflow options) snapshot.localItems.workflows
            snapshot.remoteItems.workflows } := by
  rw [getStatusWorkflows]
  simp only [hasAccess, ↓reduceIte, TwoSides.missingIn_nil]

theorem getStatusProjects_of_hasAccess (hasAccess : user.hasAccessToAllProjects = true) :
    getStatusProjects localeCompare options user snapshot =
      { missingInLocal := missingIn (·.id) snapshot.localItems.projects
          snapshot.remoteItems.projects
        missingInRemote :=
          if options.direction = .pull ∧ snapshot.remoteItems.projects = []
          then []
          else missingIn (·.id) snapshot.remoteItems.projects snapshot.localItems.projects
        modifiedInEither := changed (fun localProject remote => remote.id = localProject.id)
            (modifiedProject localeCompare options)
            snapshot.localItems.projects snapshot.remoteItems.projects } := by
  rw [getStatusProjects]
  simp only [hasAccess, ↓reduceIte, TwoSides.missingIn_nil, length_eq_zero_iff]

theorem exactLists_workflows (unique : UniqueIds snapshot.remoteItems)
    (hasAccess : user.hasAccessToAllProjects = true) :
    ExactLists (·.id) WorkflowsDiffer snapshot.localItems.workflows snapshot.remoteItems.workflows
      (getStatusWorkflows options user snapshot) := by
  rw [getStatusWorkflows_of_hasAccess hasAccess]
  apply exactLists unique.workflows keepsKey_modifiedWorkflow
  intro localWorkflow remote same
  rw [isSome_modifiedWorkflow, decide_eq_true_eq, and_iff_right same]

theorem exactLists_credentials (unique : UniqueIds snapshot.remoteItems) :
    ExactLists (·.id) CredentialsDiffer snapshot.localItems.credentials
      snapshot.remoteItems.credentials
      (getStatusCredentials options snapshot) := by
  apply exactLists unique.credentials keepsKey_credential
  intro localCredential remote same
  rw [mismatchingCredential_iff, and_iff_right same]
  simp

theorem exactLists_tags (unique : UniqueIds snapshot.remoteItems) :
    ExactLists (·.id) (fun localTag remote => remote.name ≠ localTag.name)
      snapshot.localItems.tags snapshot.remoteItems.tags
      (getStatusTags options snapshot) := by
  apply exactLists unique.tags (keepsKey_preferred fun localTag remote
    isMismatch => (mismatchingTag_iff.mp isMismatch).1)
  intro localTag remote same
  rw [mismatchingTag_iff, and_iff_right same]
  simp

theorem exactLists_folders (unique : UniqueIds snapshot.remoteItems) :
    ExactLists (·.id) (FoldersDiffer snapshot.allTeamProjects)
      snapshot.localItems.folders snapshot.remoteItems.folders
      (getStatusFolders options snapshot) := by
  apply exactLists unique.folders (keepsKey_preferred fun localFolder remote
    isMismatch => (mismatchingFolder_iff.mp isMismatch).1)
  intro localFolder remote same
  rw [mismatchingFolder_iff, and_iff_right same]
  simp

theorem exactLists_mappings : ExactLists (·.key) (fun _ _ => False) snapshot.localItems.mappings
      snapshot.remoteItems.mappings (getStatusMappings snapshot) where
  missingInLocal := TwoSides.missingIn_exactly _ _
  missingInRemote := TwoSides.missingIn_exactly _ _
  modifiedInEither := by
    intro value
    simp [getStatusMappings]

theorem projectsModified (unique : UniqueIds snapshot.remoteItems)
    (hasAccess : user.hasAccessToAllProjects = true) :
    ChangedExactly (·.id) (ProjectsDiffer localeCompare)
      snapshot.localItems.projects snapshot.remoteItems.projects
      (getStatusProjects localeCompare options user snapshot).modifiedInEither := by
  apply TwoSides.changed_exactly unique.projects keepsKey_modifiedProject
  intro localProject remote same
  rw [isSome_modifiedProject, decide_eq_true_eq, and_iff_right same]

theorem clashesExactly_variables : ClashesExactly options.preferLocalVersion
      snapshot.localItems.globalVariables snapshot.remoteItems.globalVariables
      (getStatusVariables options snapshot).modifiedInEither := by
  intro variable'
  simp only [getStatusVariables, changed, mem_filterMap, Option.bind_eq_some_iff, Option.some.injEq]
  cases prefers : options.preferLocalVersion with
  | true =>
    simp only [preferred, prefers, ↓reduceIte]
    constructor
    · rintro ⟨localVariable, mem, remote, found, rfl⟩
      exact ⟨mem, remote, mem_of_find?_eq_some found, mismatchingVariable_iff.mp (find?_some found)⟩
    · rintro ⟨mem, remote, remoteMem, clash⟩
      obtain ⟨first, found⟩ := Option.isSome_iff_exists.mp (find?_isSome.mpr
          ⟨remote, remoteMem, mismatchingVariable_iff.mpr clash⟩)
      exact ⟨variable', mem, first, found, rfl⟩
  | false =>
    simp only [preferred, prefers, Bool.false_eq_true, ↓reduceIte]
    apply exists_congr
    intro localVariable
    apply and_congr_right
    intro _
    constructor
    · rintro ⟨remote, found, rfl⟩
      obtain ⟨clash, before, after, split, earlier⟩ := find?_eq_some_iff_append.mp found
      refine ⟨before, after, split, mismatchingVariable_iff.mp clash, ?_⟩
      intro other mem isClash
      rw [← mismatchingVariable_iff] at isClash
      simpa [isClash] using earlier other mem
    · rintro ⟨before, after, split, clash, earlier⟩
      refine ⟨variable', find?_eq_some_iff_append.mpr
        ⟨mismatchingVariable_iff.mpr clash, before, after, split, ?_⟩, rfl⟩
      intro other mem
      rw [Bool.not_eq_true', Bool.eq_false_iff, ne_eq, mismatchingVariable_iff]
      exact earlier other mem

end Lists

/-! ## The files of a kind -/

section Files

variable {localeCompare : String → String → Int} {direction : Direction}
  {options : SourceControlGetStatus} {user : User} {snapshot : Snapshot}

theorem filesOfType_append (type : FileType) (first second : List SourceControlledFile) :
    filesOfType type (first ++ second) = filesOfType type first ++ filesOfType type second :=
  filter_append ..

theorem filesOfType_filesOf {α : Type} {type : FileType}
    {toFile : α → FileStatus → Bool → SourceControlledFile}
    (types : ∀ item status conflict, (toFile item status conflict).type = type)
    (lists : StatusLists α) (wanted : FileType) :
    filesOfType wanted (filesOf direction toFile lists) =
      if type = wanted then filesOf direction toFile lists else [] := by
  have same : ∀ file ∈ filesOf direction toFile lists, file.type = type := by
    intro file mem
    simp only [filesOf, mem_append, mem_map] at mem
    rcases mem with ⟨item, _, rfl⟩ | ⟨item, _, rfl⟩ | ⟨item, _, rfl⟩ <;> exact types ..
  split
  next isWanted =>
    rw [filesOfType, filter_eq_self]
    intro file mem
    exact decide_eq_true ((same file mem).trans isWanted)
  next notWanted =>
    rw [filesOfType, filter_eq_nil_iff]
    intro file mem isWanted
    exact notWanted ((same file mem).symm.trans (of_decide_eq_true isWanted))

theorem nodup_filesOf {α : Type} (key : α → String)
    {toFile : α → FileStatus → Bool → SourceControlledFile}
    (ids : ∀ item status conflict, (toFile item status conflict).id = key item)
    {lists : StatusLists α}
    (nodup : ((lists.missingInLocal ++ (lists.missingInRemote ++
      lists.modifiedInEither)).map key).Nodup) :
    ((filesOf direction toFile lists).map (·.id)).Nodup := by
  have keys : (filesOf direction toFile lists).map (·.id) =
      (lists.missingInLocal ++ (lists.missingInRemote ++ lists.modifiedInEither)).map key := by
    simp [filesOf, ids, Function.comp_def]
  rw [keys]
  exact nodup

theorem filesOfType_sourceControlledFiles (type : FileType) : filesOfType type
        (sourceControlledFiles localeCompare user options snapshot) =
      match type with
      | .workflow => filesOf options.direction (workflowFile options snapshot)
          (getStatusWorkflows options user snapshot)
      | .credential =>
        filesOf options.direction (credentialFile options snapshot)
          (getStatusCredentials options snapshot)
      | .variables => filesOf options.direction (variableFile options snapshot)
          (getStatusVariables options snapshot)
      | .tags => filesOf options.direction (tagFile options snapshot)
          (getStatusTags options snapshot)
      | .folders => filesOf options.direction (folderFile options snapshot)
          (getStatusFolders options snapshot)
      | .project => filesOf options.direction (projectFile options snapshot)
          (getStatusProjects localeCompare options user snapshot) := by
  have workflows := @filesOfType_filesOf options.direction _ .workflow
    (workflowFile options snapshot) (fun _ _ _ => rfl)
  have credentials := @filesOfType_filesOf options.direction _ .credential
    (credentialFile options snapshot) (fun _ _ _ => rfl)
  have globalVariables := @filesOfType_filesOf options.direction _ .variables
    (variableFile options snapshot) (fun _ _ _ => rfl)
  have tags := @filesOfType_filesOf options.direction _ .tags
    (tagFile options snapshot) (fun _ _ _ => rfl)
  have folders := @filesOfType_filesOf options.direction _ .folders
    (folderFile options snapshot) (fun _ _ _ => rfl)
  have projects := @filesOfType_filesOf options.direction _ .project
    (projectFile options snapshot) (fun _ _ _ => rfl)
  simp only [sourceControlledFiles, filesOfType_append, workflows, credentials,
    globalVariables, tags, folders, projects]
  cases type <;> simp

theorem once (localUnique : UniqueIds snapshot.localItems)
    (remoteUnique : UniqueIds snapshot.remoteItems)
    (hasAccess : user.hasAccessToAllProjects = true) {type : FileType}
    (notVariables : type ≠ .variables) :
    ((filesOfType type (sourceControlledFiles localeCompare user options
      snapshot)).map (·.id)).Nodup := by
  rw [filesOfType_sourceControlledFiles]
  cases type with
  | workflow =>
    refine nodup_filesOf (·.id) (fun _ _ _ => rfl) ?_
    rw [getStatusWorkflows_of_hasAccess hasAccess]
    exact TwoSides.nodup_listed localUnique.workflows remoteUnique.workflows
      keepsKey_modifiedWorkflow
  | credential =>
    refine nodup_filesOf (·.id) (fun _ _ _ => rfl) ?_
    exact TwoSides.nodup_listed localUnique.credentials remoteUnique.credentials keepsKey_credential
  | «variables» => exact absurd rfl notVariables
  | tags =>
    refine nodup_filesOf (·.id) (fun _ _ _ => rfl) ?_
    exact TwoSides.nodup_listed localUnique.tags remoteUnique.tags
      (keepsKey_preferred fun localTag remote isMismatch =>
        (mismatchingTag_iff.mp isMismatch).1)
  | folders =>
    refine nodup_filesOf (·.id) (fun _ _ _ => rfl) ?_
    exact TwoSides.nodup_listed localUnique.folders remoteUnique.folders
      (keepsKey_preferred fun localFolder remote isMismatch =>
        (mismatchingFolder_iff.mp isMismatch).1)
  | project =>
    refine nodup_filesOf (·.id) (fun _ _ _ => rfl) ?_
    rw [getStatusProjects_of_hasAccess hasAccess]
    have all := TwoSides.nodup_listed localUnique.projects remoteUnique.projects
      (@keepsKey_modifiedProject localeCompare options)
    refine all.sublist (List.Sublist.map _
      ((List.Sublist.refl _).append (List.Sublist.append ?_ (.refl _))))
    split
    · exact nil_sublist _
    · exact .refl _

theorem variablesOnce (localUnique : UniqueIds snapshot.localItems)
    (remoteUnique : UniqueIds snapshot.remoteItems)
    (identify : KeysIdentify snapshot.localItems.globalVariables
      snapshot.remoteItems.globalVariables) :
    ((filesOfType .variables (sourceControlledFiles localeCompare user options
      snapshot)).map (·.id)).Nodup := by
  rw [filesOfType_sourceControlledFiles]
  refine nodup_filesOf (·.id) (fun _ _ _ => rfl) ?_
  have sought : changed mismatchingVariable (fun localVariable remote =>
        some (preferred options localVariable remote))
      snapshot.localItems.globalVariables
      snapshot.remoteItems.globalVariables =
    changed (fun localVariable remote =>
        remote.id = localVariable.id && remote.key ≠ localVariable.key)
      (fun localVariable remote =>
        some (preferred options localVariable remote))
      snapshot.localItems.globalVariables
      snapshot.remoteItems.globalVariables := by
    apply TwoSides.changed_congr
    intro localVariable mem remote remoteMem
    rw [mismatchingVariable]
    have identified := identify localVariable mem remote remoteMem
    by_cases sameKey : remote.key = localVariable.key
    · simp [sameKey, identified sameKey]
    · simp [sameKey]
  have all := @TwoSides.nodup_listed _ _ ExportableVariable.id
    snapshot.localItems.globalVariables snapshot.remoteItems.globalVariables
    (fun localVariable remote =>
      remote.id = localVariable.id && remote.key ≠ localVariable.key)
    (fun localVariable remote =>
      some (preferred options localVariable remote)) _
    localUnique.globalVariables remoteUnique.globalVariables
    (keepsKey_preferred fun localVariable remote isMismatch => by
      simp only [Bool.and_eq_true, decide_eq_true_eq] at isMismatch
      exact isMismatch.1)
  rw [← sought] at all
  exact all

theorem filesOf_pull {α : Type} {pushFile pullFile : α → FileStatus → Bool → SourceControlledFile}
    (deleted : ∀ item, exchanged (pushFile item .deleted false) = pullFile item .created false)
    (created : ∀ item, exchanged (pushFile item .created false) = pullFile item .deleted true)
    (modified : ∀ item, exchanged (pushFile item .modified true) =
      pullFile item .modified true) (lists : StatusLists α) :
    filesOf .pull pullFile lists = (filesOf .push pushFile lists).map exchanged := by
  simp [filesOf, statusOfMissingInLocal, statusOfMissingInRemote, deleted,
    created, modified, Function.comp_def]

variable {preferLocalVersion : Bool}

theorem getStatusProjects_pull {verbose : Bool} (someRemote : snapshot.remoteItems.projects ≠ []) :
    getStatusProjects localeCompare
        { direction := .pull, preferLocalVersion, verbose } user snapshot =
      getStatusProjects localeCompare { direction := .push, preferLocalVersion, verbose } user
        snapshot := by
  simp only [getStatusProjects, length_eq_zero_iff, someRemote]
  rfl

theorem sourceControlledFiles_pull {verbose : Bool}
    (someRemote : snapshot.remoteItems.projects ≠ []) :
    sourceControlledFiles localeCompare user
        { direction := .pull, preferLocalVersion, verbose } snapshot =
      (sourceControlledFiles localeCompare user { direction := .push, preferLocalVersion, verbose }
        snapshot).map exchanged := by
  simp only [sourceControlledFiles, map_append, getStatusProjects_pull someRemote]
  iterate 5
    congr 1
    · exact filesOf_pull (fun _ => rfl) (fun _ => rfl) (fun _ => rfl) _
  exact filesOf_pull (fun _ => rfl) (fun _ => rfl) (fun _ => rfl) _

end Files

/-! ## The status -/

section Status

variable {localeCompare : String → String → Int} {user : User} {snapshot : Snapshot}
  {options : SourceControlGetStatus}

theorem getStatus_of_mayRequest (mayRequest : options.direction = .pull →
      hasGlobalScope user "sourceControl:pull" = true) :
    getStatus localeCompare user options snapshot =
      if options.verbose then
        .ok (.verbose (verboseStatus localeCompare user options snapshot))
      else
        .ok (.files (sourceControlledFiles localeCompare user options snapshot)) := by
  rw [getStatus, if_neg]
  rintro ⟨isPull, refused⟩
  rw [mayRequest isPull] at refused
  cases refused

theorem exactStatus_verboseStatus (localUnique : UniqueIds snapshot.localItems)
    (remoteUnique : UniqueIds snapshot.remoteItems)
    (hasAccess : user.hasAccessToAllProjects = true) :
    ExactStatus localeCompare options snapshot
      (verboseStatus localeCompare user options snapshot) := by
  exact {
    workflows := exactLists_workflows remoteUnique hasAccess
    credentials := exactLists_credentials remoteUnique
    variablesMissingInLocal := TwoSides.missingIn_exactly _ _
    variablesMissingInRemote := TwoSides.missingIn_exactly _ _
    variablesModified := clashesExactly_variables
    tags := exactLists_tags remoteUnique
    mappings := exactLists_mappings
    folders := exactLists_folders remoteUnique
    projectsMissingInLocal := by
      rw [verboseStatus, getStatusProjects_of_hasAccess hasAccess]
      exact TwoSides.missingIn_exactly _ _
    projectsMissingInRemote := by
      rw [verboseStatus, getStatusProjects_of_hasAccess hasAccess]
      split
      · rfl
      · exact TwoSides.missingIn_exactly _ _
    projectsModified := projectsModified remoteUnique hasAccess
    once := fun _ notVariables =>
      once localUnique remoteUnique hasAccess notVariables
    variablesOnce := variablesOnce localUnique remoteUnique }

theorem pullExchangesPush_of_mayPull (mayPull : hasGlobalScope user "sourceControl:pull" = true) :
    PullExchangesPush localeCompare user snapshot := by
  intro someRemote preferLocalVersion verbose
  rw [getStatus_of_mayRequest (fun _ => mayPull), getStatus_of_mayRequest (fun _ => mayPull)]
  cases verbose with
  | true =>
    refine ⟨_, rfl, ?_⟩
    simp only [↓reduceIte, StatusResult.exchanged, verboseStatus, getStatusProjects_pull someRemote,
      sourceControlledFiles_pull someRemote]
    rfl
  | false =>
    refine ⟨_, rfl, ?_⟩
    simp only [Bool.false_eq_true, ↓reduceIte, StatusResult.exchanged,
      sourceControlledFiles_pull someRemote]

/-- The status of a user who sees all projects is exact and, for a user who
may pull, symmetric. -/
theorem getStatus_exact_and_symmetric (localUnique : UniqueIds snapshot.localItems)
    (remoteUnique : UniqueIds snapshot.remoteItems)
    (hasAccess : user.hasAccessToAllProjects = true) :
    (∀ options : SourceControlGetStatus, options.verbose = true →
      (options.direction = .pull → hasGlobalScope user "sourceControl:pull" = true) →
      ∃ status, getStatus localeCompare user options snapshot = .ok (.verbose status) ∧
        ExactStatus localeCompare options snapshot status) ∧
      (hasGlobalScope user "sourceControl:pull" = true →
        PullExchangesPush localeCompare user snapshot) :=
  ⟨fun _ verbose mayRequest =>
    ⟨_, (getStatus_of_mayRequest mayRequest).trans (if_pos verbose),
      exactStatus_verboseStatus localUnique remoteUnique hasAccess⟩,
    pullExchangesPush_of_mayPull⟩

end Status

namespace StatusExample

def localeCompare (left right : String) : Int :=
  if left < right then -1 else if right < left then 1 else 0

def admin : User := { globalScopes := ["project:update", "sourceControl:pull"] }

def editor : User := { globalScopes := ["project:update"] }

def localVariable : ExportableVariable := { id := "1", key := "URL" }

def remoteVariable : ExportableVariable := { id := "2", key := "URL" }

def project : ExportableProjectWithFileName :=
  { id := "team"
    name := "Team"
    owner := { teamId := "team", teamName := "Team" }
    filename := "/git/projects/team.json" }

def snapshot : Snapshot :=
  { localItems :=
      { globalVariables := [localVariable]
        projects := [project] }
    remoteItems := { globalVariables := [remoteVariable] }
    now := "2025-01-01T00:00:00.000Z"
    gitFolder := "/git" }

theorem uniqueIds_localItems : UniqueIds snapshot.localItems := by
  constructor <;> decide

theorem uniqueIds_remoteItems : UniqueIds snapshot.remoteItems := by
  constructor <;> decide

def pull : SourceControlGetStatus :=
  { direction := .pull
    preferLocalVersion := false
    verbose := true }

theorem getStatus_exact_and_symmetric_admin :
    (∃ status, getStatus localeCompare admin pull snapshot = .ok (.verbose status) ∧
      ExactStatus localeCompare pull snapshot status) ∧
      PullExchangesPush localeCompare admin snapshot := by
  obtain ⟨exact', symmetric⟩ := @getStatus_exact_and_symmetric localeCompare
    admin snapshot uniqueIds_localItems uniqueIds_remoteItems (by decide)
  exact ⟨exact' pull rfl fun _ => by decide, symmetric (by decide)⟩

/-- The variables are listed as missing on both sides and as modified, the
remote one in two files.  The local project is not listed, and a user who
sees all projects but may not pull gets no status. -/
theorem not_exact_sameKey :
    (∃ status, getStatus localeCompare admin pull snapshot = .ok (.verbose status) ∧
      ¬ ExactLists (·.id) (fun localVariable remote => remote.key ≠ localVariable.key)
        snapshot.localItems.globalVariables
        snapshot.remoteItems.globalVariables status.var ∧
      ¬ ((filesOfType .variables status.sourceControlledFiles).map (·.id)).Nodup ∧
      ¬ MissingExactly (·.id) snapshot.remoteItems.projects
        snapshot.localItems.projects status.projects.missingInRemote) ∧
      editor.hasAccessToAllProjects = true ∧
      getStatus localeCompare editor pull snapshot = .error (.forbidden
        "You do not have permission to pull from source control") := by
  refine ⟨⟨_, rfl, ?_, ?_, ?_⟩, by decide, rfl⟩
  · intro exactLists
    have listed := (exactLists.modifiedInEither "2").mp (by decide +kernel)
    obtain ⟨item, mem, _, _, isKey, _⟩ := listed
    cases mem_singleton.mp mem
    exact absurd isKey (by decide)
  · decide +kernel
  · intro missing
    have listed := (missing project).mpr ⟨mem_singleton_self _, by
      intro other mem
      cases mem⟩
    cases listed

end StatusExample

end N8n.SourceControl
