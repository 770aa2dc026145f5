import N8n.Workflow.Interfaces

/-!
# Chunks of input data

The main process strips the input items of a task down to the requested chunk,
and the runner rebuilds a list of items in which the chunk stands at its old
place.
-/

namespace N8n

open List

structure InputDataChunkDefinition where
  startIndex : Nat
  count : Nat

structure InputDataRequestParams where
  included : Bool
  chunk : Option InputDataChunkDefinition := none

/-- `inputData.main?.[0]` -/
def ITaskDataConnections.mainItems (inputData : ITaskDataConnections) :
    Option (List INodeExecutionData) :=
  (inputData.get? .main).bind fun slots => (slots.at' 0).value?

namespace DataRequestResponseStripper

def stripChunkedInputData (chunk : InputDataChunkDefinition)
    (inputData : ITaskDataConnections) : ITaskDataConnections :=
  match inputData.mainItems with
  | none => inputData
  | some inputItems =>
    let chunkInputItems := inputItems.extract chunk.startIndex (chunk.startIndex + chunk.count)
    inputData.set .main [.value chunkInputItems]

def stripInputData (input : InputDataRequestParams)
    (inputData : ITaskDataConnections) : ITaskDataConnections :=
  if input.included then
    match input.chunk with
    | some chunk => stripChunkedInputData chunk inputData
    | none => inputData
  else OrderedMap.empty

end DataRequestResponseStripper

namespace DataRequestResponseReconstruct

/-- `Array.from({ length })`, where a negative length counts as zero. -/
def undefinedItems (length : Int) : List (Option INodeExecutionData) :=
  List.replicate length.toNat none

def reconstructConnectionInputItems (inputData : ITaskDataConnections)
    (chunk : Option InputDataChunkDefinition) :
    List (Option INodeExecutionData) :=
  let inputItems := inputData.mainItems.getD []
  match chunk with
  | none => inputItems.map some
  | some chunk =>
    undefinedItems chunk.startIndex ++ inputItems.map some ++ undefinedItems
        ((inputItems.length : Int) - chunk.startIndex - chunk.count)

end DataRequestResponseReconstruct

open DataRequestResponseStripper DataRequestResponseReconstruct

variable {inputData : ITaskDataConnections} {items : List INodeExecutionData}
  (input : InputDataRequestParams)

/-- Without a chunk all items are asked for. -/
def InputDataRequestParams.Asks (index : Nat) : Prop :=
  ∀ chunk, input.chunk = some chunk →
    chunk.startIndex ≤ index ∧ index < chunk.startIndex + chunk.count

def InputDataRequestParams.Within (length : Nat) : Prop :=
  ∀ chunk, input.chunk = some chunk → chunk.startIndex + chunk.count ≤ length

/-- The chunk, if there is one, reaches the end of a list of this length. -/
def InputDataRequestParams.ReachesEnd (length : Nat) : Prop :=
  ∀ chunk, input.chunk = some chunk → chunk.startIndex + chunk.count = length

/-- The list is as long as the original one; the items asked for stand at their
places, and all other places are undefined. -/
structure RebuiltFrom (items : List INodeExecutionData)
    (input : InputDataRequestParams)
    (rebuilt : List (Option INodeExecutionData)) : Prop where
  length : rebuilt.length = items.length
  asked : ∀ index, input.Asks index → rebuilt[index]? = items[index]?.map some
  unasked : ∀ index, index < items.length → ¬ input.Asks index → rebuilt[index]? = some none

/-- What the runner works on after a request for input data. -/
def transferredItems (inputData : ITaskDataConnections) : List (Option INodeExecutionData) :=
  reconstructConnectionInputItems (stripInputData input inputData) input.chunk

theorem mainItems_stripChunkedInputData (chunk : InputDataChunkDefinition)
    (given : inputData.mainItems = some items) :
    (stripChunkedInputData chunk inputData).mainItems =
      some ((items.drop chunk.startIndex).take chunk.count) := by
  simp only [stripChunkedInputData, given]
  simp [ITaskDataConnections.mainItems, SlotArray.at', extract_eq_take_drop]

theorem transferredItems_unchunked (given : inputData.mainItems = some items) :
    transferredItems ⟨true, none⟩ inputData = items.map some := by
  simp [transferredItems, stripInputData, reconstructConnectionInputItems, given]

variable {chunk : InputDataChunkDefinition}

/-- The padding behind the chunk is computed from the length of the chunk, not
from that of the original list, and is never there. -/
theorem transferredItems_chunked (given : inputData.mainItems = some items) :
    transferredItems ⟨true, some chunk⟩ inputData = List.replicate chunk.startIndex none ++
        ((items.drop chunk.startIndex).take chunk.count).map some := by
  have kept := mainItems_stripChunkedInputData chunk given
  have padding : ((((items.drop chunk.startIndex).take chunk.count).length : Int) -
        chunk.startIndex - chunk.count).toNat = 0 := by
    simp only [length_take, length_drop]
    omega
  simp only [transferredItems, stripInputData,
    reconstructConnectionInputItems, if_true, kept, Option.getD_some,
    undefinedItems, padding, Int.toNat_natCast, replicate_zero,
    append_nil]

theorem length_transferredItems_chunked (given : inputData.mainItems = some items)
    (within : chunk.startIndex + chunk.count ≤ items.length) :
    (transferredItems ⟨true, some chunk⟩ inputData).length = chunk.startIndex + chunk.count := by
  rw [transferredItems_chunked given]
  simp only [length_append, length_replicate, length_map, length_take, length_drop]
  omega

theorem getElem?_transferredItems_chunked (given : inputData.mainItems = some items) {index : Nat}
    (start : chunk.startIndex ≤ index)
    (stop : index < chunk.startIndex + chunk.count) :
    (transferredItems ⟨true, some chunk⟩ inputData)[index]? = items[index]?.map some := by
  have offset : index - chunk.startIndex < chunk.count := by omega
  have position : chunk.startIndex + (index - chunk.startIndex) = index := by
    omega
  rw [transferredItems_chunked given, getElem?_append_right (by simpa using start)]
  simp [getElem?_take_of_lt offset, position]

theorem getElem?_transferredItems_before (given : inputData.mainItems = some items) {index : Nat}
    (before : index < chunk.startIndex) :
    (transferredItems ⟨true, some chunk⟩ inputData)[index]? = some none := by
  rw [transferredItems_chunked given, getElem?_append_left (by simpa using before)]
  simp [before]

theorem transferredItems_rebuiltFrom_iff {chunk : Option InputDataChunkDefinition}
    (given : inputData.mainItems = some items)
    (within : InputDataRequestParams.Within ⟨true, chunk⟩ items.length) :
    RebuiltFrom items ⟨true, chunk⟩ (transferredItems ⟨true, chunk⟩ inputData) ↔
      InputDataRequestParams.ReachesEnd ⟨true, chunk⟩ items.length := by
  cases chunk with
  | none =>
    rw [transferredItems_unchunked given]
    constructor
    · intro _ chunk asked
      simp at asked
    · intro _
      constructor
      · simp
      · intro index _
        simp
      · intro index _ unasked
        exact absurd (fun chunk asked => by simp at asked) unasked
  | some chunk =>
    have fits := within chunk rfl
    have length := length_transferredItems_chunked given fits
    constructor
    · intro rebuilt other asked
      cases asked
      rw [← length]
      exact rebuilt.length
    · intro reaches
      have reached := reaches chunk rfl
      constructor
      · rw [length]
        exact reached
      · intro index asked
        have inside := asked chunk rfl
        exact getElem?_transferredItems_chunked given inside.1 inside.2
      · intro index below unasked
        apply getElem?_transferredItems_before given
        apply Nat.lt_of_not_le
        intro start
        apply unasked
        intro other asked
        cases asked
        constructor
        · exact start
        · omega

private def numbered (number : Rat) : INodeExecutionData :=
  { json := [("number", .number number)] }

private def threeItems : ITaskDataConnections :=
  .ofMain [.value [numbered 0, numbered 1, numbered 2]]

/-- The second of three items arrives without the undefined third one. -/
theorem transferredItems_middle_not_rebuiltFrom :
    ¬ RebuiltFrom [numbered 0, numbered 1, numbered 2] ⟨true, some ⟨1, 1⟩⟩
      (transferredItems ⟨true, some ⟨1, 1⟩⟩ threeItems) := by
  intro rebuilt
  exact absurd rebuilt.length (by decide)

theorem transferredItems_end_rebuiltFrom :
    RebuiltFrom [numbered 0, numbered 1, numbered 2] ⟨true, some ⟨1, 2⟩⟩
        (transferredItems ⟨true, some ⟨1, 2⟩⟩ threeItems) ↔
      InputDataRequestParams.ReachesEnd ⟨true, some ⟨1, 2⟩⟩ 3 :=
  transferredItems_rebuiltFrom_iff (by decide) (fun _ asked => by cases asked; decide)

end N8n
