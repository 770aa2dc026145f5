import Mathlib.Data.List.Dedup

/-!
# The static check of Python code

The visitor checks imports, names, attributes, calls and subscripts and goes on
to the children of every node.  What it does not look at are the names that a
from-import takes out of a module and the keywords of a class pattern, which
read attributes as well.
-/

namespace N8n

/-- The allowlists of a runner; `stdlibModuleNames` is the list of the running
interpreter. -/
structure SecurityConfig where
  stdlibAllow : List String
  externalAllow : List String
  stdlibModuleNames : List String

structure PyAlias where
  name : String
  asname : Option String := none

/-- What a from-import imports from: without dots there is a module. -/
structure ImportSource where
  module : Option String
  level : Nat
  named : level = 0 → ∃ name, module = some name ∧ name ≠ ""

/-- The syntax trees of Python.  The kinds of nodes that the visitor has no
handler for are `other`, with their children in the order of the fields, and
the class pattern, whose keywords name attributes. -/
inductive PyNode where
  | «import» (lineno : Nat) (names : List PyAlias)
  | importFrom (lineno : Nat) (source : ImportSource) (names : List PyAlias)
  | name (lineno : Nat) (id : String)
  | «attribute» (lineno : Nat) (value : PyNode) (attr : String)
  | call (lineno : Nat) (func : PyNode) (args keywords : List PyNode)
  | subscript (lineno : Nat) (value slice : PyNode)
  | constant (value : Option String)
  | matchClass (cls : PyNode) (patterns : List PyNode)
      (kwdAttrs : List String) (kwdPatterns : List PyNode)
  | other (kind : String) (children : List PyNode)

def blockedNames : List String :=
  ["__loader__", "__builtins__", "__globals__", "__spec__", "__name__"]

def blockedAttributes : List String :=
  ["__subclasses__", "__globals__", "__builtins__", "__traceback__",
    "tb_frame", "tb_next", "f_back", "f_globals", "f_locals", "f_code",
    "f_builtins", "__getattribute__", "__qualname__", "__module__",
    "gi_frame", "gi_code", "gi_yieldfrom", "cr_frame", "cr_code", "ag_frame",
    "ag_code", "__thisclass__", "__self_class__", "__base__", "__class__",
    "__bases__", "__code__", "__closure__", "__loader__", "__cached__",
    "__dict__", "__import__", "__mro__", "__init_subclass__", "__getattr__",
    "__setattr__", "__delattr__", "__self__", "__func__", "__wrapped__",
    "__annotations__", "__spec__"]

def errorRelativeImport : String := "Relative imports are disallowed."

def errorDangerousName (name : String) : String :=
  "Access to name '" ++ name ++ "' is disallowed, because it can be used to " ++
    "bypass security restrictions."

def errorDangerousAttribute (attr : String) : String :=
  "Access to attribute '" ++ attr ++ "' is disallowed, because it can be " ++
    "used to bypass security restrictions."

def errorNameMangledAttribute : String :=
  "Access to name-mangled attributes (pattern: _ClassName__attr) is " ++
    "disallowed for security reasons."

def errorDynamicImport : String :=
  "Dynamic __import__() calls are not allowed for security reasons."

variable (module allowed : String)

def errorStdlibDisallowed : String :=
  "Import of standard library module '" ++ module ++ "' is disallowed. " ++
    "Allowed stdlib modules: " ++ allowed

def errorExternalDisallowed : String :=
  "Import of external package '" ++ module ++ "' is disallowed. " ++
    "Allowed external packages: " ++ allowed

/-- `text.split(".")[0]` -/
def topLevelModule (modulePath : String) : String :=
  .ofList (modulePath.toList.takeWhile (· ≠ '.'))

/-- The members of a set, sorted and separated by commas. -/
def allowedText (allow : List String) : String :=
  if allow = [] then "none"
  else ", ".intercalate (allow.dedup.mergeSort (decide <| · ≤ ·))

def SecurityConfig.allows (config : SecurityConfig) (moduleName : String) : Bool :=
  if moduleName ∈ config.stdlibModuleNames then
    "*" ∈ config.stdlibAllow || moduleName ∈ config.stdlibAllow
  else "*" ∈ config.externalAllow || moduleName ∈ config.externalAllow

/-- `none` for a module that is allowed, otherwise the error. -/
def validateModuleImport (modulePath : String) (config : SecurityConfig) : Option String :=
  let moduleName := topLevelModule modulePath
  let isStdlib : Bool := moduleName ∈ config.stdlibModuleNames
  if isStdlib && ("*" ∈ config.stdlibAllow || moduleName ∈ config.stdlibAllow) then none
  else if !isStdlib && ("*" ∈ config.externalAllow || moduleName ∈ config.externalAllow) then none
  else if isStdlib then
    some (errorStdlibDisallowed modulePath (allowedText config.stdlibAllow))
  else
    some (errorExternalDisallowed modulePath (allowedText config.externalAllow))

/-- What is before the first double underscore. -/
def beforeDunder : List Char → Option (List Char)
  | [] => none
  | [_] => none
  | first :: second :: rest =>
    if first = '_' && second = '_' then some []
    else (beforeDunder (second :: rest)).map (first :: ·)

def startsWithChar (char : Char) (text : List Char) : Bool := text.head? = some char

/-- A name like `_ClassName__attr`. -/
def isNameMangled (attr : String) : Bool :=
  startsWithChar '_' attr.toList && (beforeDunder attr.toList).any (startsWithChar '_')

structure SecurityValidator where
  checkedModules : List String := []
  violations : List String := []

namespace SecurityValidator

section

variable (validator : SecurityValidator)

def addViolation (lineno : Nat) (message : String) : SecurityValidator :=
  { validator with
    violations := validator.violations ++ ["Line " ++ toString lineno ++ ": " ++ message] }

section

variable (config : SecurityConfig) (validator : SecurityValidator)

def validateImport (modulePath : String) (lineno : Nat) : SecurityValidator :=
  if startsWithChar '.' modulePath.toList then
    validator.addViolation lineno errorRelativeImport
  else
    let moduleName := topLevelModule modulePath
    if moduleName ∈ validator.checkedModules then validator
    else
      let checked := { validator with
        checkedModules := moduleName :: validator.checkedModules }
      match validateModuleImport modulePath config with
      | none => checked
      | some errorMsg => checked.addViolation lineno errorMsg

section

variable (lineno : Nat)

def visitImport (names : List PyAlias) : SecurityValidator :=
  names.foldl (fun validator imported =>
    validator.validateImport config imported.name lineno) validator

def visitImportFrom (source : ImportSource) : SecurityValidator :=
  if 0 < source.level then validator.addViolation lineno errorRelativeImport
  else
    match source.module with
    | none => validator
    | some module =>
      if module = "" then validator
      else validator.validateImport config module lineno

def visitName (id : String) : SecurityValidator :=
  if id ∈ blockedNames then
    validator.addViolation lineno (errorDangerousName id)
  else validator

def visitAttribute (attr : String) : SecurityValidator :=
  let checked :=
    if attr ∈ blockedAttributes then
      validator.addViolation lineno (errorDangerousAttribute attr)
    else validator
  if isNameMangled attr then
    checked.addViolation lineno errorNameMangledAttribute
  else checked

def isImportCall : PyNode → Bool
  | .name _ id => id = "__import__"
  | .«attribute» _ (.name _ id) attr =>
    attr = "__import__" && (id = "builtins" || id = "__builtins__")
  | _ => false

def visitCall (func : PyNode) (args : List PyNode) : SecurityValidator :=
  if isImportCall func then
    match args with
    | .constant (some moduleName) :: _ =>
      validator.validateImport config moduleName lineno
    | _ => validator.addViolation lineno errorDynamicImport
  else validator

end

end

def isBuiltinsAccess : PyNode → Bool
  | .name _ id => id = "__builtins__" || id = "builtins"
  | .«attribute» _ _ attr => attr = "__builtins__" || attr = "builtins"
  | _ => false

def visitSubscript (lineno : Nat) (value slice : PyNode) : SecurityValidator :=
  match slice with
  | .constant (some key) =>
    if isBuiltinsAccess value && key ∈ blockedAttributes then
      validator.addViolation lineno (errorDangerousAttribute key)
    else validator
  | _ => validator

end

mutual

/-- The handler of the node's kind, if there is one, and then its children. -/
def visit (config : SecurityConfig) (validator : SecurityValidator) : PyNode → SecurityValidator
  | .«import» lineno names => validator.visitImport config lineno names
  | .importFrom lineno source _ =>
    validator.visitImportFrom config lineno source
  | .name lineno id => validator.visitName lineno id
  | .«attribute» lineno value attr =>
    visit config (validator.visitAttribute lineno attr) value
  | .call lineno func args keywords =>
    genericVisit config (genericVisit config
      (visit config (validator.visitCall config lineno func args) func)
      args) keywords
  | .subscript lineno value slice =>
    visit config (visit config (validator.visitSubscript lineno value slice) value) slice
  | .constant _ => validator
  | .matchClass cls patterns _ kwdPatterns =>
    genericVisit config (genericVisit config (visit config validator cls) patterns) kwdPatterns
  | .other _ children => genericVisit config validator children

def genericVisit (config : SecurityConfig) (validator : SecurityValidator) :
    List PyNode → SecurityValidator
  | [] => validator
  | child :: children =>
    genericVisit config (visit config validator child) children

end

end SecurityValidator

mutual

/-- All nodes of a tree, each before its children. -/
def PyNode.nodes : PyNode → List PyNode
  | .«import» lineno names => [.«import» lineno names]
  | .importFrom lineno source names => [.importFrom lineno source names]
  | .name lineno id => [.name lineno id]
  | .«attribute» lineno value attr =>
    .«attribute» lineno value attr :: value.nodes
  | .call lineno func args keywords =>
    .call lineno func args keywords ::
      (func.nodes ++ PyNode.nodesOf args ++ PyNode.nodesOf keywords)
  | .subscript lineno value slice =>
    .subscript lineno value slice :: (value.nodes ++ slice.nodes)
  | .constant value => [.constant value]
  | .matchClass cls patterns kwdAttrs kwdPatterns =>
    .matchClass cls patterns kwdAttrs kwdPatterns ::
      (cls.nodes ++ PyNode.nodesOf patterns ++ PyNode.nodesOf kwdPatterns)
  | .other kind children => .other kind children :: PyNode.nodesOf children

def PyNode.nodesOf : List PyNode → List PyNode
  | [] => []
  | child :: children => child.nodes ++ PyNode.nodesOf children

end

namespace PyNode

def importedModules : PyNode → List String
  | .«import» _ names => names.map (·.name)
  | .importFrom _ source _ => source.module.toList
  | _ => []

def isRelativeImport : PyNode → Bool
  | .importFrom _ source _ => 0 < source.level
  | _ => false

/-- The names under which a from-import or a class pattern reads attributes. -/
def takenAttributes : PyNode → List String
  | .importFrom _ _ names => names.map (·.name)
  | .matchClass _ _ kwdAttrs _ => kwdAttrs
  | _ => []

/-- The names fixed in the source under which a node reads attributes. -/
def attributeReads : PyNode → List String
  | .«attribute» _ _ attr => [attr]
  | node => node.takenAttributes

def variableReference : PyNode → Option String
  | .name _ id => some id
  | _ => none

/-- What the check promises of a tree. -/
structure NoBlindSpot (config : SecurityConfig) (tree : PyNode) : Prop where
  «absolute» : ∀ node ∈ tree.nodes, node.isRelativeImport = false ∧
    ∀ path ∈ node.importedModules, startsWithChar '.' path.toList = false
  allowed : ∀ node ∈ tree.nodes, ∀ path ∈ node.importedModules,
    config.allows (topLevelModule path) = true
  attributes : ∀ node ∈ tree.nodes, ∀ attr ∈ node.attributeReads, attr ∉ blockedAttributes
  names : ∀ node ∈ tree.nodes, ∀ id ∈ node.variableReference, id ∉ blockedNames

/-- No from-import takes a blocked attribute out of a module, and no class
pattern has one as a keyword. -/
def TakesNoBlocked (tree : PyNode) : Prop :=
  ∀ node ∈ tree.nodes, ∀ attr ∈ node.takenAttributes, attr ∉ blockedAttributes

end PyNode

namespace SecurityValidator

open PyNode

variable {config : SecurityConfig} {validator : SecurityValidator}
  {lineno : Nat} {node tree : PyNode}

/-- The handler of a node's kind. -/
def handle (config : SecurityConfig) (validator : SecurityValidator) : PyNode → SecurityValidator
  | .«import» lineno names => validator.visitImport config lineno names
  | .importFrom lineno source _ =>
    validator.visitImportFrom config lineno source
  | .name lineno id => validator.visitName lineno id
  | .«attribute» lineno _ attr => validator.visitAttribute lineno attr
  | .call lineno func args _ => validator.visitCall config lineno func args
  | .subscript lineno value slice =>
    validator.visitSubscript lineno value slice
  | .constant _ => validator
  | .matchClass _ _ _ _ => validator
  | .other _ _ => validator

mutual

theorem visit_eq_foldl (config : SecurityConfig) (validator : SecurityValidator) (node : PyNode) :
    visit config validator node = node.nodes.foldl (handle config) validator := by
  cases node with
  | «import» lineno names => rfl
  | importFrom lineno source names => rfl
  | name lineno id => rfl
  | «attribute» lineno value attr =>
    rw [visit, visit_eq_foldl, PyNode.nodes]
    rfl
  | call lineno func args keywords
  | matchClass cls patterns kwdAttrs kwdPatterns =>
    rw [visit, visit_eq_foldl, genericVisit_eq_foldl, genericVisit_eq_foldl,
      PyNode.nodes, List.foldl_cons, List.foldl_append, List.foldl_append]
    rfl
  | subscript lineno value slice =>
    rw [visit, visit_eq_foldl, visit_eq_foldl, PyNode.nodes, List.foldl_cons, List.foldl_append]
    rfl
  | constant value => rfl
  | other kind children =>
    rw [visit, genericVisit_eq_foldl, PyNode.nodes]
    rfl

theorem genericVisit_eq_foldl (config : SecurityConfig)
    (validator : SecurityValidator) (children : List PyNode) :
    genericVisit config validator children =
      (PyNode.nodesOf children).foldl (handle config) validator := by
  cases children with
  | nil => rfl
  | cons child children =>
    rw [genericVisit, visit_eq_foldl, genericVisit_eq_foldl, PyNode.nodesOf, List.foldl_append]

end

/-- The modules that were checked without a violation are allowed. -/
def Sound (config : SecurityConfig) (validator : SecurityValidator) : Prop :=
  ∀ moduleName ∈ validator.checkedModules, config.allows moduleName = true

/-- A silent step is one that adds no violation. -/
structure Passes (config : SecurityConfig) (holds : Prop)
    (validator next : SecurityValidator) : Prop where
  grows : validator.violations <+: next.violations
  silent : Sound config validator → next.violations = [] → holds ∧ Sound config next

variable {holds : Prop}

theorem Passes.refl (trivially : holds) : Passes config holds validator validator := by
  constructor
  · exact List.prefix_refl _
  · intro sound _
    exact ⟨trivially, sound⟩

variable {next : SecurityValidator}

theorem Passes.mono {holds other : Prop}
    (passes : Passes config holds validator next) (implies : holds → other) :
    Passes config other validator next := by
  constructor
  · exact passes.grows
  · intro sound none
    exact ⟨implies (passes.silent sound none).1, (passes.silent sound none).2⟩

theorem grows_addViolation (message : String) : validator.violations <+:
      (validator.addViolation lineno message).violations :=
  List.prefix_append _ _

theorem passes_of_reported {message : String} (grows : validator.violations <+: next.violations) :
    Passes config holds validator (next.addViolation lineno message) := by
  constructor
  · exact grows.trans (grows_addViolation message)
  · intro _ none
    simp [addViolation] at none

theorem passes_addViolation {message : String} :
    Passes config holds validator (validator.addViolation lineno message) :=
  passes_of_reported (List.prefix_refl _)

theorem passes_foldl {α : Type*} {holds : α → Prop}
    {step : SecurityValidator → α → SecurityValidator} (passes : ∀ validator item,
      Passes config (holds item) validator (step validator item))
    (items : List α) (validator : SecurityValidator) :
    Passes config (∀ item ∈ items, holds item) validator (items.foldl step validator) := by
  induction items generalizing validator with
  | nil => exact Passes.refl (by simp)
  | cons item items ih =>
    have first := passes validator item
    have rest := ih (step validator item)
    constructor
    · exact first.grows.trans rest.grows
    · intro sound none
      have silent : (step validator item).violations = [] := by
        have grows := rest.grows
        rw [← List.foldl_cons, none] at grows
        exact List.prefix_nil.mp grows
      obtain ⟨holdsFirst, soundNext⟩ := first.silent sound silent
      obtain ⟨holdsRest, soundLast⟩ := rest.silent soundNext none
      exact ⟨List.forall_mem_cons.mpr ⟨holdsFirst, holdsRest⟩, soundLast⟩

theorem validateModuleImport_eq_none {modulePath : String} :
    validateModuleImport modulePath config = none ↔
      config.allows (topLevelModule modulePath) = true := by
  rw [validateModuleImport, SecurityConfig.allows]
  by_cases isStdlib : topLevelModule modulePath ∈ config.stdlibModuleNames
  · simp [isStdlib, Decidable.or_iff_not_imp_left]
  · simp [isStdlib, Decidable.or_iff_not_imp_left]

def AllowedPath (config : SecurityConfig) (path : String) : Prop :=
  startsWithChar '.' path.toList = false ∧ config.allows (topLevelModule path) = true

theorem passes_validateImport (modulePath : String) :
    Passes config (AllowedPath config modulePath) validator
      (validator.validateImport config modulePath lineno) := by
  rw [validateImport]
  by_cases relative : startsWithChar '.' modulePath.toList
  · rw [if_pos relative]
    exact passes_addViolation
  · have isAbsolute : startsWithChar '.' modulePath.toList = false := by
      simpa using relative
    rw [if_neg relative]
    by_cases checked : topLevelModule modulePath ∈ validator.checkedModules
    · rw [if_pos checked]
      constructor
      · exact List.prefix_refl _
      · intro sound _
        exact ⟨⟨isAbsolute, sound _ checked⟩, sound⟩
    · rw [if_neg checked]
      cases result : validateModuleImport modulePath config with
      | none =>
        have allowed := validateModuleImport_eq_none.mp result
        constructor
        · exact List.prefix_refl _
        · intro sound _
          refine ⟨⟨isAbsolute, allowed⟩, ?_⟩
          exact List.forall_mem_cons.mpr ⟨allowed, sound⟩
      | some errorMsg =>
        exact passes_of_reported (List.prefix_refl _)

/-- What a handler that is silent has checked. -/
def Checked (config : SecurityConfig) (node : PyNode) : Prop :=
  node.isRelativeImport = false ∧ (∀ path ∈ node.importedModules, AllowedPath config path) ∧
    (∀ attr ∈ node.attributeReads, attr ∈ node.takenAttributes ∨ attr ∉ blockedAttributes) ∧
    ∀ id ∈ node.variableReference, id ∉ blockedNames

/-- A node that neither imports nor refers to a variable, and reads attributes
only where the visitor does not look. -/
theorem checked_of_unchecked (notRelative : node.isRelativeImport = false)
    (imports : node.importedModules = [])
    (reads : node.attributeReads = node.takenAttributes)
    (reference : node.variableReference = none) : Checked config node := by
  refine ⟨notRelative, ?_, ?_, ?_⟩
  · simp [imports]
  · intro attr read
    exact .inl (reads ▸ read)
  · simp [reference]

theorem passes_handle (config : SecurityConfig) (validator : SecurityValidator) (node : PyNode) :
    Passes config (Checked config node) validator (handle config validator node) := by
  cases node with
  | «import» lineno names =>
    apply (passes_foldl (fun _ imported =>
      passes_validateImport (PyAlias.name imported)) names validator).mono
    intro allowed
    refine ⟨rfl, ?_, ?_, ?_⟩
    · simpa [importedModules] using allowed
    · simp [attributeReads, takenAttributes]
    · simp [variableReference]
  | importFrom lineno source names =>
    change Passes config _ validator (validator.visitImportFrom config lineno source)
    rw [visitImportFrom]
    by_cases relative : 0 < source.level
    · rw [if_pos relative]
      exact passes_addViolation
    · rw [if_neg relative]
      obtain ⟨module, found, nonempty⟩ := source.named (Nat.eq_zero_of_not_pos relative)
      simp only [found, if_neg nonempty]
      apply (passes_validateImport module).mono
      intro allowed
      refine ⟨by simpa [isRelativeImport] using relative, ?_, ?_, ?_⟩
      · simpa [importedModules, found] using allowed
      · intro attr taken
        exact .inl taken
      · simp [variableReference]
  | name lineno id =>
    change Passes config _ validator (validator.visitName lineno id)
    rw [visitName]
    by_cases blocked : id ∈ blockedNames
    · rw [if_pos blocked]
      exact passes_addViolation
    · rw [if_neg blocked]
      apply Passes.refl
      simpa [Checked, isRelativeImport, importedModules, attributeReads,
        takenAttributes, variableReference] using blocked
  | «attribute» lineno value attr =>
    change Passes config _ validator (validator.visitAttribute lineno attr)
    rw [visitAttribute]
    by_cases blocked : attr ∈ blockedAttributes
    · simp only [if_pos blocked]
      by_cases mangled : isNameMangled attr
      · rw [if_pos mangled]
        exact passes_of_reported (grows_addViolation _)
      · rw [if_neg mangled]
        exact passes_addViolation
    · simp only [if_neg blocked]
      have checked : Checked config (.«attribute» lineno value attr) := by
        simpa [Checked, isRelativeImport, importedModules, attributeReads,
          takenAttributes, variableReference] using blocked
      by_cases mangled : isNameMangled attr
      · rw [if_pos mangled]
        exact passes_addViolation
      · rw [if_neg mangled]
        exact Passes.refl checked
  | call lineno func args keywords =>
    have checked : Checked config (.call lineno func args keywords) :=
      checked_of_unchecked rfl rfl rfl rfl
    change Passes config _ validator (validator.visitCall config lineno func args)
    unfold visitCall
    by_cases isCall : isImportCall func
    · rw [if_pos isCall]
      split
      · exact (passes_validateImport _).mono fun _ => checked
      · exact passes_addViolation
    · rw [if_neg isCall]
      exact Passes.refl checked
  | subscript lineno value slice =>
    have checked : Checked config (.subscript lineno value slice) :=
      checked_of_unchecked rfl rfl rfl rfl
    change Passes config _ validator (validator.visitSubscript lineno value slice)
    unfold visitSubscript
    split
    · split
      · exact passes_addViolation
      · exact Passes.refl checked
    · exact Passes.refl checked
  | constant value => exact Passes.refl (checked_of_unchecked rfl rfl rfl rfl)
  | matchClass cls patterns kwdAttrs kwdPatterns | other kind children =>
    exact Passes.refl (checked_of_unchecked rfl rfl rfl rfl)

/-- A tree that the visitor has nothing against has no blind spot exactly if no
from-import and no class pattern in it takes a blocked attribute. -/
theorem noBlindSpot_iff_takesNoBlocked (config : SecurityConfig)
    (tree : PyNode) (silent : (visit config {} tree).violations = []) :
    NoBlindSpot config tree ↔ TakesNoBlocked tree := by
  have passes := passes_foldl (passes_handle config) tree.nodes {}
  rw [← visit_eq_foldl] at passes
  have start : Sound config {} := by simp [Sound]
  obtain ⟨checked, _⟩ := passes.silent start silent
  constructor
  · intro noBlindSpot node mem attr taken
    apply noBlindSpot.attributes node mem
    cases node with
    | importFrom lineno source names => exact taken
    | matchClass cls patterns kwdAttrs kwdPatterns => exact taken
    | _ => simp [takenAttributes] at taken
  · intro takesNone
    constructor
    · intro node mem
      obtain ⟨notRelative, allowed, _, _⟩ := checked node mem
      exact ⟨notRelative, fun path imported => (allowed path imported).1⟩
    · intro node mem path imported
      exact ((checked node mem).2.1 path imported).2
    · intro node mem attr read
      rcases (checked node mem).2.2.1 attr read with taken | free
      · exact takesNone node mem attr taken
      · exact free
    · intro node mem id reference
      exact (checked node mem).2.2.2 id reference

private def jsonOnly : SecurityConfig :=
  { stdlibAllow := ["json"]
    externalAllow := []
    stdlibModuleNames := ["json", "os"] }

private def fromJson (names : List PyAlias) : PyNode :=
  .other "Module" [.importFrom 1 ⟨some "json", 0, fun _ => ⟨"json", rfl, by decide⟩⟩ names]

/-- `from json import loads` -/
theorem noBlindSpot_loads : NoBlindSpot jsonOnly (fromJson [⟨"loads", none⟩]) :=
  (noBlindSpot_iff_takesNoBlocked _ _ (by decide +kernel)).mpr (by
    simp [TakesNoBlocked, fromJson, nodes, nodesOf, takenAttributes, blockedAttributes])

private def pointPattern : PyNode :=
  .matchClass (.name 2 "Point") [] ["__globals__"] [.other "MatchAs" []]

/-- `from json import __builtins__` passes the check, and so does the class
pattern. -/
theorem not_noBlindSpot_unchecked :
    ((visit jsonOnly {} (fromJson [⟨"__builtins__", none⟩])).violations = [] ∧
        ¬ NoBlindSpot jsonOnly (fromJson [⟨"__builtins__", none⟩])) ∧
      (visit jsonOnly {} pointPattern).violations = [] ∧ ¬ NoBlindSpot jsonOnly pointPattern := by
  refine ⟨⟨by decide +kernel, ?_⟩, by decide +kernel, ?_⟩
  · intro noBlindSpot
    have free := noBlindSpot.attributes (.importFrom 1 ⟨some "json", 0,
      fun _ => ⟨"json", rfl, by decide⟩⟩ [⟨"__builtins__", none⟩])
      (by simp [fromJson, nodes, nodesOf]) "__builtins__"
      (by simp [attributeReads, takenAttributes])
    exact free (by simp [blockedAttributes])
  · intro noBlindSpot
    have free := noBlindSpot.attributes _ List.mem_cons_self "__globals__"
      (by simp [attributeReads, takenAttributes])
    exact free (by simp [blockedAttributes])

end SecurityValidator

end N8n
