import Mathlib.Algebra.Ring.Nat
import Mathlib.Data.List.TakeDrop
import N8n.Library.Machine

/-!
# Messages through a pipe

The runner process writes the length of a message and the message; the reader
thread reads both.  How much a call of `os.write` or `os.read` transfers is part
of the event.
-/

namespace N8n

open List

namespace PipeFraming

def PIPE_MSG_PREFIX_LENGTH : Nat := 4

inductive PipeError where
  | overflowError
  | eofError
  | invalidPipeMsgLengthError (length : Nat)

/-- The big-endian bytes of a number, without those that do not fit. -/
def bytesOf : Nat → Nat → List UInt8
  | 0, _ => []
  | length + 1, number => bytesOf length (number / 256) ++ [UInt8.ofNat number]

def toBytes (number length : Nat) : Except PipeError (List UInt8) :=
  if number < 256 ^ length then .ok (bytesOf length number)
  else .error .overflowError

def fromBytes (bytes : List UInt8) : Nat :=
  bytes.foldl (fun number byte => 256 * number + byte.toNat) 0

/-- `size` is the `message_size`, which is set when the body is read. -/
inductive Reader where
  | reading (size : Option Nat) (result : List UInt8) (offset : Nat)
  | received (data : List UInt8)
  | failed (error : PipeError)

/-- The writer has closed its end when nothing is outgoing. -/
structure Pipe where
  /-- The arguments of `_write_bytes`, from the one that is being written. -/
  outgoing : List (List UInt8)
  totalWritten : Nat := 0
  buffer : List UInt8 := []
  /-- All that was written. -/
  sent : List UInt8 := []
  reader : Reader := .reading none (List.replicate PIPE_MSG_PREFIX_LENGTH 0) 0

inductive Event where
  | write (written : Nat)
  /-- The writer fails or its process ends. -/
  | close
  | read (length : Nat)
  | readEnd

section

variable (data : List UInt8)

/-- What `_put_result` writes, and `run` reads. -/
def start : Except PipeError Pipe := do
  let lengthBytes ← toBytes data.length PIPE_MSG_PREFIX_LENGTH
  return { outgoing := [lengthBytes, data] }

/-- Behind `_read_exact_bytes`. -/
def haveRead (bytes : List UInt8) : Option Nat → Reader
  | none =>
    let length := fromBytes bytes
    if length ≤ 0 then .failed (.invalidPipeMsgLengthError length)
    else .reading (some length) (List.replicate length 0) 0
  | some _ => .received bytes

def pipe : Machine Pipe Event
  | state, .write written =>
    match state.outgoing with
    | [] => none
    | data :: rest =>
      let totalWritten := state.totalWritten + written
      let bytes := (data.drop state.totalWritten).take written
      let state := { state with buffer := state.buffer ++ bytes, sent := state.sent ++ bytes }
      if 0 < written ∧ totalWritten ≤ data.length then
        if totalWritten < data.length then some { state with totalWritten }
        else some { state with outgoing := rest, totalWritten := 0 }
      else none
  | state, .close =>
    if state.outgoing ≠ [] then some { state with outgoing := [], totalWritten := 0 }
    else none
  | state, .read length =>
    match state.reader with
    | .reading size result offset =>
      let chunk := state.buffer.take length
      if 0 < length ∧ length ≤ state.buffer.length ∧ offset + length ≤ result.length then
        let result := result.take offset ++ chunk ++ result.drop (offset + length)
        some { state with
            buffer := state.buffer.drop length
            reader := if offset + length < result.length then
              .reading size result (offset + length)
              else haveRead result size }
      else none
    | _ => none
  | state, .readEnd =>
    match state.reader with
    | .reading _ _ _ =>
      if state.outgoing = [] ∧ state.buffer = [] then
        some { state with reader := .failed .eofError }
      else none
    | _ => none

def Pipe.unsent (state : Pipe) : List UInt8 :=
  state.outgoing.flatten.drop state.totalWritten

/-- What was read before, and what is read now. -/
def parts : Option Nat → List UInt8 × List UInt8
  | none => ([], bytesOf PIPE_MSG_PREFIX_LENGTH data.length)
  | some _ => (bytesOf PIPE_MSG_PREFIX_LENGTH data.length, data)

def frame : List UInt8 :=
  bytesOf PIPE_MSG_PREFIX_LENGTH data.length ++ data

/-- The reader has what was sent, up to the buffer. -/
def ReaderFits (state : Pipe) : Prop :=
  match state.reader with
  | .reading size result offset =>
    offset < result.length ∧ result.length = (parts data size).2.length ∧
      (parts data size).1 ++ result.take offset ++ state.buffer = state.sent
  | .received bytes => bytes = data ∧ state.sent = frame data
  | .failed error => error = .eofError ∧ state.sent ≠ frame data ∧ state.outgoing = []

/-- What was sent is the beginning of the frame, and is continued by the rest. -/
structure Fits (data : List UInt8) (state : Pipe) : Prop where
  sent : state.sent <+: frame data
  unsent : state.outgoing ≠ [] → state.sent ++ state.unsent = frame data
  inside : ∀ current ∈ state.outgoing.head?, state.totalWritten < current.length
  later : ∀ current ∈ state.outgoing.tail, current ≠ []
  reader : ReaderFits data state

/-- At every point of a run of a pipe. -/
structure Delivers (data : List UInt8) (events : List Event) (state : Pipe) : Prop where
  /-- The reader never has anything else than the message. -/
  received : ∀ bytes, state.reader = .received bytes → bytes = data ∧ state.sent = frame data
  /-- It fails only if the writer closed the pipe before the last byte. -/
  failed : ∀ error, state.reader = .failed error →
    error = .eofError ∧ state.outgoing = [] ∧ state.sent ≠ frame data
  /-- Until then it can go on, or the writer can. -/
  goesOn : ∀ size result offset, state.reader = .reading size result offset →
    ∃ event next, event ≠ .close ∧ pipe state event = some next
  stops : events.length ≤ 2 * (frame data).length + 2

theorem length_bytesOf (length number : Nat) : (bytesOf length number).length = length := by
  induction length generalizing number with
  | zero => rfl
  | succ length ih => simp [bytesOf, ih]

theorem fromBytes_bytesOf {length number : Nat} (fits : number < 256 ^ length) :
    fromBytes (bytesOf length number) = number := by
  induction length generalizing number with
  | zero =>
    have none : number = 0 := by simpa using fits
    rw [none]
    rfl
  | succ length ih =>
    have smaller : number / 256 < 256 ^ length := by
      rw [Nat.div_lt_iff_lt_mul (by decide)]
      exact fits
    have before := ih smaller
    unfold fromBytes at before ⊢
    rw [bytesOf, foldl_append, before]
    simp only [foldl_cons, foldl_nil, UInt8.toNat_ofNat']
    omega

theorem parts_prefix_frame (size : Option Nat) :
    (parts data size).1 ++ (parts data size).2 <+: frame data := by
  cases size with
  | none => exact prefix_append _ _
  | some _ => exact prefix_rfl

end

/-- Every step lowers it, so that runs come to an end. -/
def Pipe.measure (state : Pipe) : Nat :=
  2 * state.unsent.length + state.buffer.length + (if state.outgoing = [] then 0 else 1) +
      match state.reader with
      | .reading _ _ _ => 1
      | _ => 0

theorem take_append_drop_add {current : List UInt8} {total written : Nat}
    (inside : total + written ≤ current.length) (rest : List UInt8) :
    (current.drop total).take written ++ (current ++ rest).drop (total + written) =
      (current ++ rest).drop total := by
  rw [drop_append_of_le_length inside,
    drop_append_of_le_length (Nat.le_of_add_right_le inside), ← drop_drop,
    ← append_assoc, take_append_drop]

variable {data : List UInt8} {state next : Pipe}

theorem write_cases {written : Nat} (fits : Fits data state)
    (stepped : pipe state (.write written) = some next) :
    ∃ bytes, bytes ≠ [] ∧ state.outgoing ≠ [] ∧ state.unsent = bytes ++ next.unsent ∧
      next.buffer = state.buffer ++ bytes ∧ next.sent = state.sent ++ bytes ∧
      next.reader = state.reader ∧
      (∀ current ∈ next.outgoing.head?, next.totalWritten < current.length) ∧
      (∀ current ∈ next.outgoing.tail, current ≠ []) := by
  obtain ⟨sent, unsent, inside, later, reader⟩ := fits
  simp only [pipe] at stepped
  cases outgoing : state.outgoing with
  | nil => simp [outgoing] at stepped
  | cons current rest =>
    simp only [outgoing, head?_cons, Option.mem_some_iff, forall_eq',
      tail_cons] at inside later stepped
    split at stepped
    next bounds =>
      have moved := take_append_drop_add bounds.2 rest.flatten
      refine ⟨(current.drop state.totalWritten).take written, ?_, by simp, ?_⟩
      · simp only [ne_eq, take_eq_nil_iff, drop_eq_nil_iff]
        omega
      · split at stepped
        next more =>
          cases stepped
          simp only [Pipe.unsent, outgoing, flatten_cons]
          exact ⟨moved.symm, trivial, trivial, trivial, by simpa using more, later⟩
        · have all : state.totalWritten + written = current.length := by omega
          cases stepped
          simp only [Pipe.unsent, outgoing, flatten_cons, drop_zero]
          rw [← moved, all, drop_left]
          refine ⟨rfl, trivial, trivial, trivial, fun first isFirst => ?_, fun other mem => ?_⟩
          · exact length_pos_iff.mpr (later first (mem_of_mem_head? isFirst))
          · exact later other (mem_of_mem_tail mem)
    · cases stepped

theorem fits_write {written : Nat} (fits : Fits data state)
    (stepped : pipe state (.write written) = some next) :
    Fits data next ∧ next.measure < state.measure := by
  obtain ⟨bytes, nonempty, isOpen, moved, buffer, sent, reader, inside, later⟩ :=
    write_cases fits stepped
  have whole : next.sent ++ next.unsent = frame data := by
    rw [sent, append_assoc, ← moved, fits.unsent isOpen]
  refine ⟨⟨⟨_, whole⟩, fun _ => whole, inside, later, ?_⟩, ?_⟩
  · have before := fits.reader
    unfold ReaderFits at before ⊢
    rw [reader]
    cases isReader : state.reader with
    | reading size result offset =>
      rw [isReader] at before
      obtain ⟨below, length, taken⟩ := before
      refine ⟨below, length, ?_⟩
      rw [buffer, sent, ← taken, ← append_assoc]
    | received bytes' =>
      rw [isReader] at before
      have none := fits.unsent isOpen
      rw [before.2, moved] at none
      simp [nonempty] at none
    | failed error =>
      rw [isReader] at before
      exact absurd before.2.2 isOpen
  · have positive := length_pos_iff.mpr nonempty
    simp only [Pipe.measure, moved, buffer, reader, length_append, if_neg isOpen]
    split <;> omega

variable {size : Option Nat}

theorem eq_part (fits : Fits data state) {result buffer : List UInt8}
    (length : result.length = (parts data size).2.length)
    (taken : (parts data size).1 ++ result ++ buffer = state.sent) :
    result = (parts data size).2 := by
  have isPrefix : (parts data size).1 ++ result <+: frame data :=
    (taken ▸ prefix_append _ buffer).trans fits.sent
  have same := prefix_of_prefix_length_le isPrefix (parts_prefix_frame data size) (by simp [length])
  exact append_cancel_left (same.eq_of_length (by simp [length]))

theorem readerFits_haveRead (nonempty : data ≠ [])
    (small : data.length < 256 ^ PIPE_MSG_PREFIX_LENGTH) (fits : Fits data state) {result : List UInt8}
    (length : result.length = (parts data size).2.length)
    (taken : (parts data size).1 ++ result ++ next.buffer = state.sent)
    (sent : next.sent = state.sent) (reader : next.reader = haveRead result size) :
    ReaderFits data next := by
  have complete := eq_part fits length taken
  unfold ReaderFits
  rw [reader, sent, ← taken, complete]
  cases size with
  | none =>
    have positive := length_pos_iff.mpr nonempty
    simp only [haveRead, parts, fromBytes_bytesOf small, if_neg (Nat.not_le.mpr positive)]
    simp [positive]
  | some size =>
    refine ⟨rfl, ?_⟩
    have isPrefix := fits.sent
    rw [← taken, complete] at isPrefix
    exact isPrefix.eq_of_length_le (by simp [parts, frame])

theorem fits_read (nonempty : data ≠ [])
    (small : data.length < 256 ^ PIPE_MSG_PREFIX_LENGTH) {length : Nat}
    (fits : Fits data state) (moved : pipe state (.read length) = some next) :
    Fits data next ∧ next.measure < state.measure := by
  have before := fits.reader
  simp only [pipe] at moved
  split at moved
  next size result offset isReading =>
    obtain ⟨⟨positive, enough, inside⟩, rfl⟩ := Machine.of_guarded moved
    unfold ReaderFits at before
    rw [isReading] at before
    obtain ⟨-, sameLength, taken⟩ := before
    generalize isResult : result.take offset ++ state.buffer.take length ++
      result.drop (offset + length) = result'
    have sized : result'.length = result.length := by
      simp only [← isResult, length_append, length_take, length_drop]
      omega
    have got : result'.take (offset + length) = result.take offset ++ state.buffer.take length := by
      rw [← isResult]
      refine take_left' ?_
      simp only [length_append, length_take]
      omega
    have taken' : (parts data size).1 ++ result'.take (offset + length) ++
        state.buffer.drop length = state.sent := by
      rw [got, ← taken]
      simp
    refine ⟨⟨fits.sent, fits.unsent, fits.inside, fits.later, ?_⟩, ?_⟩
    · by_cases more : offset + length < result'.length
      · rw [if_pos more]
        exact ⟨more, sized.trans sameLength, taken'⟩
      · rw [if_neg more]
        rw [take_of_length_le (by omega)] at taken'
        exact readerFits_haveRead nonempty small fits (sized.trans sameLength) taken' rfl rfl
    · simp only [Pipe.measure, Pipe.unsent, isReading, length_drop]
      split <;> split <;> omega
  · cases moved

theorem fits_readEnd (fits : Fits data state) (moved : pipe state .readEnd = some next) :
    Fits data next ∧ next.measure < state.measure := by
  have before := fits.reader
  simp only [pipe] at moved
  split at moved
  next size result offset isReading =>
    obtain ⟨⟨closed, empty⟩, rfl⟩ := Machine.of_guarded moved
    unfold ReaderFits at before
    rw [isReading] at before
    obtain ⟨more, sameLength, taken⟩ := before
    refine ⟨⟨fits.sent, fits.unsent, fits.inside, fits.later, rfl, fun all => ?_, closed⟩, ?_⟩
    · -- a part of the frame is missing
      have shorter := congrArg List.length (taken.trans all)
      have whole := (parts_prefix_frame data size).length_le
      simp only [empty, append_nil, length_append, length_take] at shorter whole
      omega
    · simp [Pipe.measure, Pipe.unsent, isReading]
  · cases moved

theorem fits_step (nonempty : data ≠ [])
    (small : data.length < 256 ^ PIPE_MSG_PREFIX_LENGTH) {event : Event}
    (fits : Fits data state) (moved : pipe state event = some next) :
    Fits data next ∧ next.measure < state.measure := by
  cases event with
  | write written => exact fits_write fits moved
  | read length => exact fits_read nonempty small fits moved
  | readEnd => exact fits_readEnd fits moved
  | close =>
    obtain ⟨isOpen, rfl⟩ := Machine.of_guarded moved
    refine ⟨⟨fits.sent, by simp, by simp, by simp, ?_⟩, ?_⟩
    · have before := fits.reader
      unfold ReaderFits at before ⊢
      cases isReader : state.reader with
      | reading size result offset => simpa [isReader] using before
      | received bytes => simpa [isReader] using before
      | failed error =>
        rw [isReader] at before
        exact absurd before.2.2 isOpen
    · simp only [Pipe.measure, Pipe.unsent, if_neg isOpen, flatten_nil,
        drop_nil, length_nil, if_pos]
      omega

theorem fits_run (nonempty : data ≠ [])
    (small : data.length < 256 ^ PIPE_MSG_PREFIX_LENGTH) {events : List Event}
    (fits : Fits data state) (reached : pipe.run state events = some next) :
    Fits data next ∧ events.length + next.measure ≤ state.measure := by
  induction events generalizing state with
  | nil =>
    cases reached
    exact ⟨fits, by simp⟩
  | cons event events ih =>
    obtain ⟨following, moved, rest⟩ := Machine.run_cons_eq_some.mp reached
    obtain ⟨fits', lower⟩ := fits_step nonempty small fits moved
    obtain ⟨fitsLast, bound⟩ := ih fits' rest
    refine ⟨fitsLast, ?_⟩
    simp only [length_cons]
    omega

theorem exists_step (fits : Fits data state) {result : List UInt8}
    {offset : Nat} (isReading : state.reader = .reading size result offset) :
    ∃ event next, event ≠ .close ∧ pipe state event = some next := by
  have before := fits.reader
  unfold ReaderFits at before
  rw [isReading] at before
  cases buffer : state.buffer with
  | cons byte bytes =>
    have possible : offset + 1 ≤ result.length := before.1
    exact ⟨.read 1, by simp [pipe, isReading, buffer, possible]⟩
  | nil =>
    cases outgoing : state.outgoing with
    | nil => exact ⟨.readEnd, by simp [pipe, isReading, outgoing, buffer]⟩
    | cons current rest =>
      have inside := fits.inside current (by simp [outgoing])
      refine ⟨.write (current.length - state.totalWritten), ?_⟩
      have whole : state.totalWritten + (current.length - state.totalWritten) =
          current.length := by omega
      simpa [pipe, outgoing, whole] using Nat.sub_pos_of_lt inside

theorem start_eq_ok {initial : Pipe} (started : start data = .ok initial) :
    data.length < 256 ^ PIPE_MSG_PREFIX_LENGTH ∧ initial =
        { outgoing := [bytesOf PIPE_MSG_PREFIX_LENGTH data.length, data] } := by
  simp only [start, toBytes] at started
  split at started
  next small =>
    exact ⟨small, (Except.ok.inj started).symm⟩
  · cases started

theorem fits_start (nonempty : data ≠ []) :
    Fits data { outgoing := [bytesOf PIPE_MSG_PREFIX_LENGTH data.length, data] } where
  sent := nil_prefix
  unsent _ := by simp [Pipe.unsent, frame]
  inside := by simp [length_bytesOf, PIPE_MSG_PREFIX_LENGTH]
  later := by simp [nonempty]
  reader := by simp [ReaderFits, parts, length_bytesOf, PIPE_MSG_PREFIX_LENGTH]

/-- The reader gets exactly the message, or an error if the pipe is closed before
its last byte.  The text of a message is not empty. -/
theorem putResult_delivers {initial : Pipe} (nonempty : data ≠ [])
    (started : start data = .ok initial) {events : List Event}
    (reached : pipe.run initial events = some state) :
    Delivers data events state := by
  obtain ⟨small, rfl⟩ := start_eq_ok started
  obtain ⟨fits, bound⟩ := fits_run nonempty small (fits_start nonempty) reached
  have before := fits.reader
  unfold ReaderFits at before
  refine ⟨fun bytes isReader => ?_, fun error isReader => ?_,
    fun size result offset isReading => exists_step fits isReading, ?_⟩
  · simpa [isReader] using before
  · rw [isReader] at before
    exact ⟨before.1, before.2.2, before.2.1⟩
  · have initially : Pipe.measure
        { outgoing := [bytesOf PIPE_MSG_PREFIX_LENGTH data.length, data] } =
          2 * (frame data).length + 2 := by
      simp [Pipe.measure, Pipe.unsent, frame]
    omega

theorem putResult_delivers_three :
    Delivers [7] [.write 3, .read 2, .write 1, .read 2, .write 1, .read 1]
      { outgoing := [], sent := [0, 0, 0, 1, 7], reader := .received [7] } := by
  have started : start [7] = .ok { outgoing := [[0, 0, 0, 1], [7]] } := rfl
  exact putResult_delivers (by decide) started rfl

end PipeFraming

end N8n
