import N8n.Workflow.AccessPatterns
import N8n.Workflow.Connections

/-!
# Renaming a node

`renameNode` moves a node to its new name, rewrites the references to it in
the parameters of all nodes, and changes the connection table by source node
at both ends.  Pinned data and the inverted connection table keep the old name.
-/

namespace N8n

open OrderedMap

structure NodeWithParameters extends INode where
  parameters : IDataObject := []
deriving DecidableEq

def INode.withName (node : INode) (newName : String) : INode :=
  { node with name := newName }

def NodeWithParameters.withName (node : NodeWithParameters)
    (newName : String) : NodeWithParameters :=
  { node with name := newName }

/-- The fields of a `Workflow` object that hold names of nodes. -/
structure MutableWorkflow where
  nodes : OrderedMap String NodeWithParameters
  connectionsBySourceNode : IConnections
  connectionsByDestinationNode : IConnections
  pinData : Option IPinData := none

structure UserError where
  message : String
  description : String

namespace RenameNode

def restrictedKeys : List String :=
  ["hasOwnProperty", "isPrototypeOf", "propertyIsEnumerable",
    "toLocaleString", "toString", "valueOf", "constructor", "prototype",
    "__proto__", "__defineGetter__", "__defineSetter__", "__lookupGetter__",
    "__lookupSetter__"]

/-- `toLowerCase`, as far as ASCII letters come out of it.  The Kelvin sign is
the only other letter with an ASCII lower case. -/
def toLowerCase (name : String) : String :=
  String.ofList (name.toList.map fun char =>
    if char = '\u212a' then 'k' else char.toLower)

def isRestricted (name : String) : Bool :=
  (restrictedKeys.map toLowerCase).contains (toLowerCase name)

def restrictedError (newName : String) : UserError :=
  { message := "Node name \"" ++ newName ++ "\" is a restricted name."
    description := "Node names cannot be any of the following: " ++
      String.intercalate ", " restrictedKeys }

section Parameters

variable (currentName newName : String)

/-- Strings are rewritten when they are expressions, or anyway when the content
is renamable. -/
def renameInText (hasRenamableContent : Bool) (text : String) : String :=
  if text.toList.head? = some '=' ∨ hasRenamableContent = true then
    String.ofList (applyAccessPatterns text.toList currentName.toList newName.toList)
  else text

mutual

/-- `null` counts as an object without properties.  The items of an array are
never treated as renamable content. -/
def renameNodeInParameterValue (hasRenamableContent : Bool) : JsonValue → JsonValue
  | .null => .object []
  | .bool value => .bool value
  | .number value => .number value
  | .string text =>
    .string (renameInText currentName newName hasRenamableContent text)
  | .array items => .array (renameInItems items)
  | .object fields => .object (renameInFields hasRenamableContent fields)

def renameInItems : List JsonValue → List JsonValue
  | [] => []
  | item :: items =>
    renameNodeInParameterValue false item :: renameInItems items

def renameInFields (hasRenamableContent : Bool) :
    List (String × JsonValue) → List (String × JsonValue)
  | [] => []
  | (parameterName, value) :: fields =>
    (parameterName, renameNodeInParameterValue hasRenamableContent value) ::
      renameInFields hasRenamableContent fields

end

/-- Rewrite a property with renamable content, when it is there. -/
def renameContent (property : String) (fields : IDataObject) : IDataObject :=
  fields.map fun (name, value) =>
    if name = property then
      (name, renameNodeInParameterValue currentName newName true value)
    else (name, value)

def renameFormField : JsonValue → JsonValue
  | .object fields =>
    if fields.lookup "fieldType" = some (.string "html") then
      .object (renameContent currentName newName "html" fields)
    else .object fields
  | value => value

def renameFormFields (parameters : IDataObject) : IDataObject :=
  parameters.map fun (name, value) =>
    match name, value with
    | "formFields", .object formFields =>
      (name, .object (formFields.map fun (inner, values) =>
        match inner, values with
        | "values", .array fields =>
          (inner, .array (fields.map (renameFormField currentName newName)))
        | inner, values => (inner, values)))
    | name, value => (name, value)

def nodesWithRenamableContent : List String :=
  ["n8n-nodes-base.code", "n8n-nodes-base.function",
    "n8n-nodes-base.functionItem", "n8n-nodes-base.aiTransform"]

def nodesWithRenamableFormHtmlContent : List String := ["n8n-nodes-base.form"]

def nodesWithRenameableToplevelHtmlContent : List String :=
  ["n8n-nodes-base.mailgun", "n8n-nodes-base.html"]

def renameInParameters (type : String) (parameters : IDataObject) : IDataObject :=
  let renamed := renameInFields currentName newName false parameters
  let withCode :=
    if nodesWithRenamableContent.contains type then
      renameContent currentName newName "jsCode" renamed
    else renamed
  let withHtml :=
    if nodesWithRenameableToplevelHtmlContent.contains type then
      renameContent currentName newName "html" withCode
    else withCode
  if nodesWithRenamableFormHtmlContent.contains type then
    renameFormFields currentName newName withHtml
  else withHtml

def renameInNode (node : NodeWithParameters) : NodeWithParameters :=
  { node with
    parameters := renameInParameters currentName newName node.type node.parameters }

def renameTarget (connection : IConnection) : IConnection :=
  if connection.node = currentName then { connection with node := newName }
  else connection

/-- The connections of a source node with the name replaced, each at its
place. -/
def renameTargets (byType : INodeConnections) : INodeConnections :=
  byType.mapValues fun outputs => outputs.map fun connections =>
    connections.map fun connections =>
      connections.map (renameTarget currentName newName)

end Parameters

end RenameNode

open RenameNode

def MutableWorkflow.renameNode (workflow : MutableWorkflow)
    (currentName newName : String) : Except UserError MutableWorkflow :=
  if isRestricted newName then .error (restrictedError newName)
  else
    let nodes :=
      match workflow.nodes.get? currentName with
      | some node =>
        (workflow.nodes.set newName (node.withName newName)).delete currentName
      | none => workflow.nodes
    let connectionsBySourceNode :=
      match workflow.connectionsBySourceNode.get? currentName with
      | some byType =>
        (workflow.connectionsBySourceNode.set newName byType).delete currentName
      | none => workflow.connectionsBySourceNode
    .ok { workflow with
      nodes := nodes.mapValues (renameInNode currentName newName)
      connectionsBySourceNode := connectionsBySourceNode.mapValues
        (renameTargets currentName newName) }

/-- The nodes and the connections by source node are the old ones with the name
replaced, those connections at both ends and each at its place. -/
structure RenamesGraph (before after : MutableWorkflow)
    (currentName newName : String) : Prop where
  nodes : (after.nodes.entries.map fun entry => (entry.1, entry.2.toINode)).Perm
    (renameIn currentName newName (INode.withName · newName)
      (before.nodes.entries.map fun entry => (entry.1, entry.2.toINode)))
  connections : after.connectionsBySourceNode.entries.Perm ((renameIn currentName newName id
      before.connectionsBySourceNode.entries).map fun entry =>
        (entry.1, renameTargets currentName newName entry.2))

/-- Pinned data and the inverted connection table follow the name, too. -/
structure RenamesWholly (before after : MutableWorkflow)
    (currentName newName : String) : Prop
    extends RenamesGraph before after currentName newName where
  pinData : (after.pinData.getD empty).entries.Perm (renameIn currentName newName id
      (before.pinData.getD empty).entries)
  inverted : after.connectionsByDestinationNode =
    mapConnectionsByDestination after.connectionsBySourceNode

/-- The rename succeeds, and what it does has the given property. -/
def RenamesBy (renamed : MutableWorkflow → MutableWorkflow → String → String → Prop)
    (workflow : MutableWorkflow) (currentName newName : String) : Prop :=
  ∃ after, workflow.renameNode currentName newName = .ok after ∧
    renamed workflow after currentName newName

section Entries

variable {workflow : MutableWorkflow} {currentName newName : String}

theorem entries_renamedNodes {node : NodeWithParameters}
    (found : workflow.nodes.get? currentName = some node)
    (free : newName ∉ workflow.nodes.keys) :
    ((((workflow.nodes.set newName (node.withName newName)).delete
      currentName).mapValues (renameInNode currentName newName)).entries.map
        fun entry => (entry.1, entry.2.toINode)).Perm
      (renameIn currentName newName (INode.withName · newName)
        (workflow.nodes.entries.map fun entry =>
          (entry.1, entry.2.toINode))) := by
  have commutes : ∀ node : NodeWithParameters,
      (node.withName newName).toINode = node.toINode.withName newName :=
    fun _ => rfl
  have renamed := rename_entries_perm (NodeWithParameters.withName · newName) found free
  rw [← map_renameIn commutes]
  apply List.Perm.trans _ (renamed.map fun entry => (entry.1, entry.2.toINode))
  rw [mapValues, List.map_map]
  exact List.Perm.refl _

/-- The connections by source node after the rename. -/
def renamedConnections (connections : IConnections) (currentName newName : String) : IConnections :=
  match connections.get? currentName with
  | some byType => (connections.set newName byType).delete currentName
  | none => connections

theorem entries_renamedConnections {connections : IConnections}
    (currentName : String) (unconnected : newName ∉ connections.keys) :
    (renamedConnections connections currentName newName).entries.Perm
      (renameIn currentName newName id connections.entries) := by
  rw [renamedConnections]
  cases found : connections.get? currentName with
  | some byType => exact rename_entries_perm id found unconnected
  | none =>
    have absent := get?_eq_none_iff.mp found
    rw [renameIn_of_not_mem newName id absent]

end Entries

private def pinnedTarget : MutableWorkflow :=
  let nodes : List NodeWithParameters := [{ name := "trigger" }, { name := "target" }]
  let connections : IConnections := empty.set "trigger"
    (empty.set .main [some [⟨"target", .main, 0⟩]])
  { nodes := nodes.foldl (fun stored node => stored.set node.name node) empty
    connectionsBySourceNode := connections
    connectionsByDestinationNode := mapConnectionsByDestination connections
    pinData := some (empty.set "target" []) }

private def danglingSource : MutableWorkflow :=
  let outgoing : INodeConnections := empty.set .main [some [⟨"trigger", .main, 0⟩]]
  { nodes := empty.set "trigger" { name := "trigger" }
    connectionsBySourceNode := (empty.set "trigger" outgoing).set "gone" outgoing
    connectionsByDestinationNode := empty }

end N8n
