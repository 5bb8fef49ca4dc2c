import VllmDcu.Dict
import VllmDcu.ByteBuffers

/-! The ring buffer in shared memory: chunks with a header of id and size, at offsets that grow past
the end of the buffer and are taken modulo its size. -/
namespace VllmDcu
open ByteBuffers

structure SingleWriterShmRingBuffer where
  dataBufferSize : Nat
  monotonicIdEnd : Nat
  monotonicIdStart : Nat
  dataBufferStart : Int
  dataBufferEnd : Int
  metadata : Dict Nat Int
  buf : Nat → UInt8

inductive RingError where
  | assertionError (message : String)
  | memoryError (message : String)
  | overflowError
  | valueError
deriving DecidableEq, Repr

namespace SingleWriterShmRingBuffer

def idNbytes : Nat := 4
def sizeNbytes : Nat := 4
def mdSize : Nat := idNbytes + sizeNbytes
def idMax : Nat := 2 ^ 31

/-- A new buffer over memory with any content. -/
def init (dataBufferSize : Nat) (buf : Nat → UInt8) : SingleWriterShmRingBuffer :=
  ⟨dataBufferSize, 0, 0, 0, 0, .empty, buf⟩

def clear (self : SingleWriterShmRingBuffer) : SingleWriterShmRingBuffer :=
  { self with
    metadata := .empty, monotonicIdEnd := 0, monotonicIdStart := 0
    dataBufferStart := 0, dataBufferEnd := 0 }

/-- Four signed bytes, the low one first; none is the OverflowError. -/
def int2byte : Int → Option Bytes
  | .ofNat value => if value < 2 ^ 31 then some (toBytesBig idNbytes value).reverse else none
  | .negSucc value =>
    if value < 2 ^ 31 then some (toBytesBig idNbytes (2 ^ 32 - 1 - value)).reverse else none

def byte2int (byteData : Bytes) : Int :=
  let value := fromBytesBig byteData.reverse
  if value < 2 ^ 31 then value else (value : Int) - 2 ^ 32

/-- `self.shared_memory.buf[start:stop]` -/
def readBytes (self : SingleWriterShmRingBuffer) (start stop : Nat) : Bytes :=
  (List.range' start (min stop self.dataBufferSize - start)).map self.buf

def setBytes (buf : Nat → UInt8) (start : Nat) (data : Bytes) (place : Nat) : UInt8 :=
  if start ≤ place ∧ place < start + data.length then data.getD (place - start) 0 else buf place

/-- `self.shared_memory.buf[start : start + len(data)] = data`; none is the ValueError of a slice that
the end of the buffer cuts. -/
def writeBytes (self : SingleWriterShmRingBuffer) (start : Nat) (data : Bytes) :
    Option SingleWriterShmRingBuffer :=
  if start + data.length ≤ self.dataBufferSize then
    some { self with buf := setBytes self.buf start data }
  else none

/-- Four bytes of the header. -/
def writeInt (self : SingleWriterShmRingBuffer) (start : Nat) (integer : Int) :
    Except RingError SingleWriterShmRingBuffer :=
  match int2byte integer with
  | none => .error .overflowError
  | some data =>
    match self.writeBytes start data with
    | none => .error .valueError
    | some written => .ok written

/-- The id and then the size; the id stays when the size does not fit. -/
def writeHeader (self : SingleWriterShmRingBuffer) (bufIdx : Nat) (size : Int) :
    SingleWriterShmRingBuffer × Except RingError Unit :=
  match self.writeInt bufIdx self.monotonicIdEnd with
  | .error error => (self, .error error)
  | .ok numbered =>
    match numbered.writeInt (bufIdx + idNbytes) size with
    | .error error => (numbered, .error error)
    | .ok written => (written, .ok ())

/-- Where the next chunk of a size begins: at the end, or at the next start of the buffer. -/
def bufferEndReset (self : SingleWriterShmRingBuffer) (size : Int) : Int :=
  if self.dataBufferEnd % self.dataBufferSize + size > self.dataBufferSize then
    (self.dataBufferEnd / self.dataBufferSize + 1) * self.dataBufferSize
  else self.dataBufferEnd

def allocateBuf (self : SingleWriterShmRingBuffer) (size : Int) :
    SingleWriterShmRingBuffer × Except RingError (Int × Nat) :=
  if size ≤ 0 then (self, .error (.assertionError "Size must be greater than 0"))
  else
    let size := size + mdSize
    let bufferEndReset := self.bufferEndReset size
    if bufferEndReset + size - self.dataBufferStart > self.dataBufferSize then
      (self, .error (.memoryError
        "Not enough space in the data buffer, try calling free_buf() to free up space"))
    else
      let self := { self with dataBufferEnd := bufferEndReset }
      match self.writeHeader (bufferEndReset % self.dataBufferSize).toNat size with
      | (self, .error error) => (self, .error error)
      | (self, .ok ()) =>
        ({ self with
          metadata := self.metadata.set (self.monotonicIdEnd % idMax) self.dataBufferEnd
          dataBufferEnd := self.dataBufferEnd + size
          monotonicIdEnd := (self.monotonicIdEnd + 1) % idMax },
          .ok (self.dataBufferEnd, self.monotonicIdEnd))

/-- The data, and the id and size of the header. -/
def accessBuf (self : SingleWriterShmRingBuffer) (address : Int) : Bytes × Int × Int :=
  let bufIdx := (address % self.dataBufferSize).toNat
  let metadataBuff := self.readBytes bufIdx (bufIdx + mdSize)
  let id := byte2int (metadataBuff.take idNbytes)
  let size := byte2int (metadataBuff.drop idNbytes)
  (self.readBytes (bufIdx + mdSize) (bufIdx + size).toNat, id, size)

/-- Start and end after a chunk was freed: from the next one on, or zero without one. -/
def endsAfter (self : SingleWriterShmRingBuffer) (metadata : Dict Nat Int)
    (monotonicIdStart : Nat) : Int × Int :=
  match metadata.get? monotonicIdStart with
  | some next => (self.dataBufferStart + (next - self.dataBufferStart) % self.dataBufferSize,
      self.dataBufferEnd)
  | none => (0, 0)

/-- The loop of `free_buf`. The function sees the data too; what it answers is left open. -/
def freeLoop (isFreeFn : Nat → Bytes → Bool) (nbytes : Int) (self : SingleWriterShmRingBuffer)
    (freedBytes : Int) : SingleWriterShmRingBuffer :=
  match _found : self.metadata.get? self.monotonicIdStart with
  | none => self
  | some address =>
    if freedBytes < nbytes then
      let accessed := self.accessBuf address
      if isFreeFn self.monotonicIdStart accessed.1 then
        let metadata := self.metadata.erase self.monotonicIdStart
        let monotonicIdStart := (self.monotonicIdStart + 1) % idMax
        let ends := self.endsAfter metadata monotonicIdStart
        freeLoop isFreeFn nbytes { self with
          metadata := metadata, monotonicIdStart := monotonicIdStart
          dataBufferStart := ends.1, dataBufferEnd := ends.2 }
          (freedBytes + accessed.2.2)
      else self
    else self
termination_by self.metadata.entries.length
decreasing_by exact Dict.length_erase_lt _found

/-- Both offsets come back when the start has passed the end of the buffer. -/
def wrapAround (self : SingleWriterShmRingBuffer) : SingleWriterShmRingBuffer :=
  if self.dataBufferStart ≥ self.dataBufferSize then
    { self with
      dataBufferStart := self.dataBufferStart - self.dataBufferSize
      dataBufferEnd := self.dataBufferEnd - self.dataBufferSize }
  else self

/-- The ids from one to before the other, past the largest one if need be. -/
def idRange (before after : Nat) : List Nat :=
  if after ≥ before then List.range' before (after - before)
  else List.range' before (idMax - before) ++ List.range after

def freeBuf (self : SingleWriterShmRingBuffer) (isFreeFn : Nat → Bytes → Bool)
    (nbytes : Option Int) : SingleWriterShmRingBuffer × List Nat :=
  let freed := freeLoop isFreeFn (nbytes.getD self.dataBufferSize) self 0
  (wrapAround freed, idRange self.monotonicIdStart freed.monotonicIdStart)

/-- A byte of the data of a live chunk, written through its view. -/
def fill (self : SingleWriterShmRingBuffer) (id offset : Nat) (byte : UInt8) :
    SingleWriterShmRingBuffer :=
  match self.metadata.get? id with
  | none => self
  | some address =>
    if offset < (self.accessBuf address).1.length then
      let place := (address % self.dataBufferSize).toNat + mdSize + offset
      { self with buf := Function.update self.buf place byte }
    else self

/-! Runs. -/

inductive Call where
  | allocate (size : Int)
  | free (isFreeFn : Nat → Bytes → Bool) (nbytes : Option Int)
  | fill (id offset : Nat) (byte : UInt8)
  | clear

/-- A buffer, and for each id the size of the chunk that got it last, with its header. -/
structure Session where
  buffer : SingleWriterShmRingBuffer
  sizes : Nat → Int

def Session.step (session : Session) : Call → Session
  | .allocate size => match session.buffer.allocateBuf size with
    | (next, .ok (_, id)) => ⟨next, Function.update session.sizes id (size + mdSize)⟩
    | (next, .error _) => { session with buffer := next }
  | .free isFreeFn nbytes => { session with buffer := (session.buffer.freeBuf isFreeFn nbytes).1 }
  | .fill id offset byte => { session with buffer := session.buffer.fill id offset byte }
  | .clear => { session with buffer := session.buffer.clear }

def Session.run (session : Session) (calls : List Call) : Session := calls.foldl step session

def Session.init (dataBufferSize : Nat) (buf : Nat → UInt8) : Session :=
  ⟨.init dataBufferSize buf, fun _ => 0⟩

/-- `monotonic_id_start` to `monotonic_id_end - 1`, modulo `ID_MAX`. -/
def liveIds (self : SingleWriterShmRingBuffer) : List Nat :=
  (List.range ((self.monotonicIdEnd + idMax - self.monotonicIdStart) % idMax)).map fun k =>
    (self.monotonicIdStart + k) % idMax

end SingleWriterShmRingBuffer
end VllmDcu
