import VllmDcu.ByteBuffers
import Mathlib.Algebra.Order.BigOperators.Group.List

/-! The shared-memory message queue: one writer, the local readers, and the chunks with
their flags. Every access to a flag is a step of its own; a chunk's bytes are read and
written in one step. -/
namespace VllmDcu.BroadcastQueue
open ByteBuffers List Function

/-- A pickled object: the main buffer and the buffers that are out of band. -/
structure Message where
  main : Bytes
  oob : List Bytes
  deriving DecidableEq, Repr

structure Config where
  nReader : Nat
  maxChunkBytes : Nat
  maxChunks : Nat

structure Chunk where
  data : Bytes
  written : Bool
  readFlags : Nat → Bool

/-- What a reader takes from a chunk: the note that the message is on the socket, or the
main buffer, unpickled, and the places of the other buffers, which the object still
refers to. -/
inductive Received where
  | overflow
  | views (main : Bytes) (oob : List (Nat × Nat))
  deriving DecidableEq, Repr

inductive WriterPc where
  | idle
  | counting (message : Message) (next count : Nat)
  | found (message : Message)
  | writing (message : Message)
  | resetting (message : Message) (next : Nat)
  | sending (message : Message)
  deriving DecidableEq, Repr

inductive ReaderPc where
  | idle
  | polling
  | polled (readFlag : Bool)
  | reading
  | marking (received : Received)
  | returning (chunk : Nat) (received : Received)
  deriving DecidableEq, Repr

/-- A local reader, with the messages on its socket and those that `dequeue` returned. -/
structure Reader where
  pc : ReaderPc
  currentIdx : Nat
  socket : List Message
  returned : List Message

structure Queue where
  chunks : Nat → Chunk
  writer : WriterPc
  currentIdx : Nat
  readers : Nat → Reader
  enqueued : List Message

inductive Step where
  | enqueue (message : Message)
  | writer
  | dequeue (reader : Nat)
  | reader (reader : Nat)

def init (config : Config) : Queue where
  chunks := fun _ => ⟨List.replicate config.maxChunkBytes 0, false, fun _ => false⟩
  writer := .idle
  currentIdx := 0
  readers := fun _ => ⟨.idle, 0, [], []⟩
  enqueued := []

def allBuffers (message : Message) : List Bytes := message.main :: message.oob

def totalBytes (message : Message) : Nat := 6 + (message.oob.map fun buffer => buffer.length + 4).sum

def overflows (config : Config) (message : Message) : Bool :=
  decide (config.maxChunkBytes ≤ totalBytes message + message.main.length)

/-- Each buffer after its length in four bytes. False when an assignment raises, with
the bytes that are written by then. -/
def writeBuffers (data : Bytes) (offset : Nat) : List Bytes → Bytes × Bool
  | [] => (data, true)
  | buffer :: rest =>
    if buffer.length < 2 ^ 32 then
      match writeAt data offset (toBytesBig 4 buffer.length) with
      | none => (data, false)
      | some sized =>
        match writeAt sized (offset + 4) buffer with
        | none => (sized, false)
        | some next => writeBuffers next (offset + 4 + buffer.length) rest
    else (data, false)

/-- What `enqueue` writes to its chunk. -/
def writeMessage (config : Config) (data : Bytes) (message : Message) : Bytes × Bool :=
  if overflows config message then
    match writeAt data 0 [1] with
    | none => (data, false)
    | some next => (next, true)
  else
    match writeAt data 0 [0] with
    | none => (data, false)
    | some flagged =>
      if (allBuffers message).length < 2 ^ 16 then
        match writeAt flagged 1 (toBytesBig 2 (allBuffers message).length) with
        | none => (flagged, false)
        | some counted => writeBuffers counted 3 (allBuffers message)
      else (flagged, false)

/-- Where the buffers lie. -/
def readViews (data : Bytes) : Nat → Nat → List (Nat × Nat)
  | _, 0 => []
  | offset, count + 1 =>
    let length := fromBytesBig (slice data offset 4)
    (offset + 4, length) :: readViews data (offset + 4 + length) count

def view (data : Bytes) (place : Nat × Nat) : Bytes := slice data place.1 place.2

/-- What `dequeue` reads from its chunk; none when it raises. -/
def readMessage (data : Bytes) : Option Received :=
  match data with
  | [] => none
  | flag :: _ =>
    if flag = 1 then some .overflow
    else
      match readViews data 3 (fromBytesBig (slice data 1 2)) with
      | [] => none
      | main :: oob => some (.views (view data main) oob)

def Queue.setChunk (self : Queue) (idx : Nat) (chunk : Chunk) : Queue :=
  { self with chunks := Function.update self.chunks idx chunk }

def Queue.setReader (self : Queue) (rank : Nat) (reader : Reader) : Queue :=
  { self with readers := Function.update self.readers rank reader }

variable (self : Queue)

@[simp] theorem Queue.setChunk_self (idx : Nat) (chunk : Chunk) :
    (self.setChunk idx chunk).chunks idx = chunk := update_self ..

theorem Queue.setChunk_ne {idx other : Nat} (different : other ≠ idx) (chunk : Chunk) :
    (self.setChunk idx chunk).chunks other = self.chunks other :=
  update_of_ne different ..

@[simp] theorem Queue.setReader_self (rank : Nat) (reader : Reader) :
    (self.setReader rank reader).readers rank = reader := update_self ..

theorem Queue.setReader_ne {rank other : Nat} (different : other ≠ rank) (reader : Reader) :
    (self.setReader rank reader).readers other = self.readers other :=
  update_of_ne different ..

/-- The next step of `enqueue`. -/
def Queue.writerStep (self : Queue) (config : Config) : Option Queue :=
  let chunk := self.chunks self.currentIdx
  match self.writer with
  | .idle => none
  | .counting message next count =>
    if next < config.nReader then
      some { self with
        writer := .counting message (next + 1) (count + (chunk.readFlags next).toNat) }
    else if chunk.written && decide (count ≠ config.nReader) then
      some { self with writer := .counting message 0 0 }
    else some { self with writer := .found message }
  | .found message =>
    some { self.setChunk self.currentIdx { chunk with written := false } with
      writer := .writing message }
  | .writing message =>
    let data := writeMessage config chunk.data message
    -- an exception leaves the chunk marked as not written
    some { self.setChunk self.currentIdx { chunk with data := data.1 } with
      writer := if data.2 then .resetting message 0 else .idle }
  | .resetting message next =>
    if next < config.nReader then
      some { self.setChunk self.currentIdx
          { chunk with readFlags := Function.update chunk.readFlags next false } with
        writer := .resetting message (next + 1) }
    else
      some { self.setChunk self.currentIdx { chunk with written := true } with
        currentIdx := (self.currentIdx + 1) % config.maxChunks
        enqueued := self.enqueued ++ [message]
        writer := if overflows config message then .sending message else .idle }
  | .sending message =>
    some { self with
      readers := fun rank =>
        { self.readers rank with socket := (self.readers rank).socket ++ [message] }
      writer := .idle }

/-- The object that `dequeue` returns, and the socket after it. -/
def receive (data : Bytes) (socket : List Message) : Received → Option (Message × List Message)
  | .overflow =>
    match socket with
    | [] => none
    | message :: rest => some (message, rest)
  | .views main oob => some (⟨main, oob.map (view data)⟩, socket)

/-- The next step of `dequeue`. -/
def Queue.readerStep (self : Queue) (config : Config) (rank : Nat) : Option Queue :=
  let reader := self.readers rank
  let chunk := self.chunks reader.currentIdx
  match reader.pc with
  | .idle => none
  | .polling => some (self.setReader rank { reader with pc := .polled (chunk.readFlags rank) })
  | .polled readFlag =>
    some (self.setReader rank { reader with
      pc := if !chunk.written || readFlag then .polling else .reading })
  | .reading =>
    some (self.setReader rank { reader with
      pc := match readMessage chunk.data with
        | some received => .marking received
        | none => .idle })
  | .marking received =>
    some ((self.setChunk reader.currentIdx
        { chunk with readFlags := Function.update chunk.readFlags rank true }).setReader rank
      { reader with
        pc := .returning reader.currentIdx received
        currentIdx := (reader.currentIdx + 1) % config.maxChunks })
  | .returning idx received =>
    (receive (self.chunks idx).data reader.socket received).map fun taken =>
      self.setReader rank { reader with
        pc := .idle
        socket := taken.2
        returned := reader.returned ++ [taken.1] }

def step (config : Config) (queue : Queue) : Step → Option Queue
  | .enqueue message =>
    if queue.writer = .idle then
      -- without a local reader nothing is written
      if config.nReader = 0 then some { queue with enqueued := queue.enqueued ++ [message] }
      else some { queue with writer := .counting message 0 0 }
    else none
  | .writer => queue.writerStep config
  | .dequeue rank =>
    if rank < config.nReader ∧ (queue.readers rank).pc = .idle then
      some (queue.setReader rank { queue.readers rank with pc := .polling })
    else none
  | .reader rank => if rank < config.nReader then queue.readerStep config rank else none

def run (config : Config) (queue : Queue) : List Step → Option Queue
  | [] => some queue
  | first :: rest => (step config queue first).bind fun next => run config next rest

/-- The bytes of a message in a chunk: three, then four and the length of each buffer. -/
def encodingLength (message : Message) : Nat :=
  3 + ((allBuffers message).map fun buffer => 4 + buffer.length).sum

theorem encodingLength_eq (message : Message) :
    encodingLength message = totalBytes message + message.main.length + 1 := by
  have swapped : (message.oob.map fun buffer => 4 + buffer.length) =
      message.oob.map fun buffer => buffer.length + 4 :=
    map_congr_left fun buffer _ => Nat.add_comm 4 buffer.length
  rw [encodingLength, allBuffers, map_cons, sum_cons, swapped, totalBytes]
  omega

variable {config : Config}

/-- The size test of `enqueue` is one byte stricter than the encoding needs. -/
theorem encoding_fits {message : Message} (inBand : overflows config message = false) :
    encodingLength message ≤ config.maxChunkBytes := by
  rw [overflows, decide_eq_false_iff_not] at inBand
  rw [encodingLength_eq]
  omega

theorem writeBuffers_length (data : Bytes) (offset : Nat) (buffers : List Bytes) :
    (writeBuffers data offset buffers).1.length = data.length := by
  induction buffers generalizing data offset with
  | nil => rfl
  | cons buffer rest ih =>
    rw [writeBuffers]
    split
    · split
      · rfl
      · rename_i sized sizing
        split
        · exact writeAt_length sizing
        · rename_i next filling
          rw [ih, writeAt_length filling, writeAt_length sizing]
    · rfl

theorem writeMessage_length (config : Config) (data : Bytes) (message : Message) :
    (writeMessage config data message).1.length = data.length := by
  rw [writeMessage]
  split
  · split
    · rfl
    · rename_i next noted
      exact writeAt_length noted
  · split
    · rfl
    · rename_i flagged noted
      split
      · split
        · exact writeAt_length noted
        · rename_i counted counting
          rw [writeBuffers_length, writeAt_length counting, writeAt_length noted]
      · exact writeAt_length noted

/-- Where the buffers are written. -/
def places (offset : Nat) : List Bytes → List (Nat × Nat)
  | [] => []
  | buffer :: rest => (offset + 4, buffer.length) :: places (offset + 4 + buffer.length) rest

theorem places_behind (offset : Nat) (buffers : List Bytes) :
    ∀ place ∈ places offset buffers, offset ≤ place.1 := by
  induction buffers generalizing offset with
  | nil => exact fun _ member => absurd member not_mem_nil
  | cons buffer rest ih =>
    intro place member
    cases mem_cons.mp member with
    | inl first =>
      rw [first]
      exact Nat.le_add_right _ _
    | inr later =>
      have behind := ih _ place later
      omega

variable {data next : Bytes}

/-- What the loop wrote is read back at the same offset, and nothing before it changed. -/
theorem readViews_writeBuffers {offset : Nat} {buffers : List Bytes}
    (done : writeBuffers data offset buffers = (next, true)) :
    next.take offset = data.take offset ∧
      readViews next offset buffers.length = places offset buffers ∧
      (places offset buffers).map (view next) = buffers := by
  induction buffers generalizing data offset with
  | nil =>
    cases done
    exact ⟨rfl, rfl, rfl⟩
  | cons buffer rest ih =>
    rw [writeBuffers] at done
    split at done
    · rename_i short
      split at done
      · cases done
      · rename_i sized sizing
        split at done
        · cases done
        · rename_i filled filling
          obtain ⟨kept, where_, views⟩ := ih done
          -- the loop goes on behind the bytes of this buffer
          have sizeKept : slice next offset 4 = toBytesBig 4 buffer.length := by
            rw [slice_congr kept (by omega), slice_congr (writeAt_take filling) (by omega)]
            have written := slice_writeAt sizing
            rwa [toBytesBig_length] at written
          have length : fromBytesBig (slice next offset 4) = buffer.length := by
            rw [sizeKept]
            exact fromBytesBig_toBytesBig 4 buffer.length (by
              exact short)
          have held : view next (offset + 4, buffer.length) = buffer := by
            rw [view, slice_congr kept (by omega)]
            exact slice_writeAt filling
          have cut (bytes : Bytes) {more : Nat} (longer : offset ≤ more) :
              bytes.take offset = (bytes.take more).take offset := by
            rw [take_take, Nat.min_eq_left longer]
          have before : next.take offset = data.take offset := by
            rw [cut next (Nat.le_add_right_of_le (Nat.le_add_right offset 4)), kept,
              ← cut filled (Nat.le_add_right_of_le (Nat.le_add_right offset 4)),
              cut filled (Nat.le_add_right offset 4), writeAt_take filling,
              ← cut sized (Nat.le_add_right offset 4), writeAt_take sizing]
          refine ⟨before, ?_, ?_⟩
          · rw [length_cons, readViews, length]
            exact congrArg _ where_
          · rw [places, map_cons, held, views]
    · cases done

/-- What a chunk gives to a reader of `message`, with buffers that lie behind the flag. -/
def Carries (config : Config) (data : Bytes) (message : Message) : Received → Prop
  | .overflow => overflows config message = true
  | .views main oob => overflows config message = false ∧ main = message.main ∧
      oob.map (view data) = message.oob ∧ ∀ place ∈ oob, 1 ≤ place.1

theorem head_of_slice {bytes : Bytes} {flag : UInt8} (first : slice bytes 0 1 = [flag]) :
    ∃ rest, bytes = flag :: rest := by
  cases bytes with
  | nil => cases first
  | cons head rest =>
    cases first
    exact ⟨rest, rfl⟩

/-- The buffers of an in-band message, at their places. -/
theorem readMessage_inBand {message : Message} (small : overflows config message = false)
    (done : writeMessage config data message = (next, true)) :
    readMessage next = some (.views message.main (places (7 + message.main.length) message.oob)) ∧
      (places (7 + message.main.length) message.oob).map (view next) = message.oob := by
  rw [writeMessage, small, if_neg Bool.false_ne_true] at done
  split at done
  · cases done
  · rename_i flagged flagging
    split at done
    · rename_i few
      split at done
      · cases done
      · rename_i counted counting
        obtain ⟨kept, where_, views⟩ := readViews_writeBuffers done
        have flagKept : slice next 0 1 = [0] := by
          rw [slice_congr kept (by omega), slice_congr (writeAt_take counting) (by omega)]
          exact slice_writeAt flagging
        have count : fromBytesBig (slice next 1 2) = (allBuffers message).length := by
          have written := slice_writeAt counting
          rw [toBytesBig_length] at written
          rw [slice_congr kept (by omega), written]
          exact fromBytesBig_toBytesBig 2 _ (by
            exact few)
        obtain ⟨rest, shape⟩ := head_of_slice flagKept
        rw [allBuffers, places, map_cons, cons.injEq] at views
        rw [← count, allBuffers, places] at where_
        refine ⟨?_, views.2⟩
        subst shape
        rw [readMessage, if_neg (by decide), where_]
        simp only
        rw [views.1]
    · cases done

theorem readMessage_writeMessage {message : Message}
    (done : writeMessage config data message = (next, true)) :
    ∃ received, readMessage next = some received ∧ Carries config next message received := by
  cases small : overflows config message with
  | false =>
    obtain ⟨read, views⟩ := readMessage_inBand small done
    refine ⟨_, read, small, rfl, views, fun place member => ?_⟩
    have behind := places_behind _ _ place member
    omega
  | true =>
    rw [writeMessage, if_pos small] at done
    split at done
    · cases done
    · rename_i noted noting
      cases done
      obtain ⟨rest, shape⟩ := head_of_slice (slice_writeAt noting)
      refine ⟨.overflow, ?_, small⟩
      rw [shape]
      rfl

theorem writeBuffers_done {offset : Nat} {buffers : List Bytes}
    (short : ∀ buffer ∈ buffers, buffer.length < 2 ^ 32)
    (fits : offset + (buffers.map fun buffer => 4 + buffer.length).sum ≤ data.length) :
    ∃ next, writeBuffers data offset buffers = (next, true) := by
  induction buffers generalizing data offset with
  | nil => exact ⟨data, rfl⟩
  | cons buffer rest ih =>
    rw [map_cons, sum_cons] at fits
    have sizing : ∃ sized, writeAt data offset (toBytesBig 4 buffer.length) = some sized := by
      rw [writeAt, if_pos (by rw [toBytesBig_length]; omega)]
      exact ⟨_, rfl⟩
    obtain ⟨sized, sizing⟩ := sizing
    have filling : ∃ filled, writeAt sized (offset + 4) buffer = some filled := by
      rw [writeAt, if_pos (by rw [writeAt_length sizing]; omega)]
      exact ⟨_, rfl⟩
    obtain ⟨filled, filling⟩ := filling
    rw [writeBuffers, if_pos (short buffer mem_cons_self), sizing]
    simp only
    rw [filling]
    apply ih fun other member => short other (mem_cons_of_mem _ member)
    rw [writeAt_length filling, writeAt_length sizing]
    omega

/-- In a chunk of full size an in-band message is written without an exception, unless a
count or a length does not fit its bytes. -/
theorem writeMessage_done {message : Message} (sized : data.length = config.maxChunkBytes)
    (inBand : overflows config message = false) (few : (allBuffers message).length < 2 ^ 16)
    (short : ∀ buffer ∈ allBuffers message, buffer.length < 2 ^ 32) :
    ∃ next, writeMessage config data message = (next, true) := by
  have fits := encoding_fits inBand
  rw [← sized, encodingLength] at fits
  have flagging : ∃ flagged, writeAt data 0 [0] = some flagged := by
    rw [writeAt, if_pos (by rw [length_singleton]; omega)]
    exact ⟨_, rfl⟩
  obtain ⟨flagged, flagging⟩ := flagging
  have counting : ∃ counted, writeAt flagged 1 (toBytesBig 2 (allBuffers message).length) =
      some counted := by
    rw [writeAt, if_pos (by rw [toBytesBig_length, writeAt_length flagging]; omega)]
    exact ⟨_, rfl⟩
  obtain ⟨counted, counting⟩ := counting
  rw [writeMessage, inBand, flagging]
  simp only
  rw [if_pos few, counting]
  apply writeBuffers_done short
  rw [writeAt_length counting, writeAt_length flagging]
  exact fits

/-- The note of a large message leaves the buffers of the last one. -/
theorem view_overflow {message : Message} (large : overflows config message = true) (data : Bytes)
    (place : Nat × Nat) (behind : 1 ≤ place.1) :
    view (writeMessage config data message).1 place = view data place := by
  rw [writeMessage, if_pos large]
  split
  · rfl
  · rename_i next noting
    exact slice_writeAt_after noting behind _

end VllmDcu.BroadcastQueue
