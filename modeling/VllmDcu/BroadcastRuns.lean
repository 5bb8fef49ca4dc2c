import VllmDcu.BroadcastQueue

/-! Runs of the message queue: where the cursors stand, what the flags say and what lies
in the chunks and on the sockets, in any interleaving of the writer and the readers. -/
namespace VllmDcu.BroadcastQueue
open ByteBuffers List Option Function

/-- The messages that a reader is through with in the chunks. -/
def Reader.taken (self : Reader) : Nat :=
  match self.pc with
  | .returning _ _ => self.returned.length + 1
  | _ => self.returned.length

/-- The messages that are on the sockets when they are large. -/
def Queue.sent (self : Queue) : List Message :=
  match self.writer with
  | .sending _ => self.enqueued.dropLast
  | _ => self.enqueued

/-- A chunk that holds a message, with the flags of the readers that took it. -/
structure Live (config : Config) (queue : Queue) (index : Nat) (message : Message) : Prop where
  written : (queue.chunks (index % config.maxChunks)).written = true
  flags : ∀ rank < config.nReader, (queue.chunks (index % config.maxChunks)).readFlags rank =
    decide (index < (queue.readers rank).taken)
  holds : ∃ received, readMessage (queue.chunks (index % config.maxChunks)).data = some received ∧
    Carries config (queue.chunks (index % config.maxChunks)).data message received

/-- Every reader is less than a lap behind, so that the next chunk is free. -/
def Cleared (config : Config) (queue : Queue) : Prop :=
  ∀ rank < config.nReader, queue.enqueued.length < (queue.readers rank).taken + config.maxChunks

def WriterReady (config : Config) (queue : Queue) : WriterPc → Prop
  | .idle => True
  | .counting _ next count => next ≤ config.nReader ∧ count ≤ next ∧
      (count = next → ∀ rank < next, (queue.chunks queue.currentIdx).readFlags rank = true)
  | .found _ => Cleared config queue
  | .writing _ => (queue.chunks queue.currentIdx).written = false
  | .resetting message next => next ≤ config.nReader ∧
      (queue.chunks queue.currentIdx).written = false ∧
      (∀ rank < next, (queue.chunks queue.currentIdx).readFlags rank = false) ∧
      ∃ received, readMessage (queue.chunks queue.currentIdx).data = some received ∧
        Carries config (queue.chunks queue.currentIdx).data message received
  | .sending message => overflows config message = true ∧
      (∃ before, queue.enqueued = before ++ [message]) ∧
      ∀ rank < config.nReader, (queue.readers rank).returned.length < queue.enqueued.length

def ReaderReady (config : Config) (queue : Queue) (rank : Nat) (reader : Reader) : Prop :=
  match reader.pc with
  | .idle => True
  | .polling => True
  | .polled readFlag => readFlag = false →
      (queue.chunks reader.currentIdx).readFlags rank = false
  | .reading => reader.returned.length < queue.enqueued.length
  | .marking received => ∃ message, queue.enqueued[reader.returned.length]? = some message ∧
      Carries config (queue.chunks reader.currentIdx).data message received
  | .returning idx received => ∃ message,
      queue.enqueued[reader.returned.length]? = some message ∧
        Carries config (queue.chunks idx).data message received

/-- The cursors, flags, chunks and sockets agree with what is enqueued and returned. -/
structure Sound (config : Config) (queue : Queue) : Prop where
  writerIdx : queue.currentIdx = queue.enqueued.length % config.maxChunks
  readerIdx : ∀ rank < config.nReader, (queue.readers rank).currentIdx =
    (queue.readers rank).taken % config.maxChunks
  behind : ∀ rank < config.nReader, (queue.readers rank).taken ≤ queue.enqueued.length
  near : ∀ rank < config.nReader,
    queue.enqueued.length ≤ (queue.readers rank).taken + config.maxChunks
  sized : ∀ idx, (queue.chunks idx).data.length = config.maxChunkBytes
  live : ∀ index message, queue.enqueued[index]? = some message →
    queue.enqueued.length < index + config.maxChunks → Live config queue index message
  next : ((queue.chunks (queue.enqueued.length % config.maxChunks)).written = false ∧
      Cleared config queue) ∨
    ∃ index message, index + config.maxChunks = queue.enqueued.length ∧
      queue.enqueued[index]? = some message ∧ Live config queue index message
  fresh : ∀ idx, queue.enqueued.length < idx → idx < config.maxChunks →
    (queue.chunks idx).written = false
  writer : WriterReady config queue queue.writer
  socket : ∀ rank < config.nReader, (queue.readers rank).socket =
    (queue.sent.drop (queue.readers rank).returned.length).filter (overflows config)
  ordered : ∀ rank < config.nReader, (queue.readers rank).returned =
    queue.enqueued.take (queue.readers rank).returned.length
  reader : ∀ rank < config.nReader, ReaderReady config queue rank (queue.readers rank)

theorem mod_ne_of_lt {first second size : Nat} (less : first < second)
    (near : second < first + size) : first % size ≠ second % size := by
  intro same
  have divides : size ∣ second - first :=
    Nat.dvd_of_mod_eq_zero (Nat.sub_mod_eq_zero_of_mod_eq same.symm)
  have atLeast := Nat.le_of_dvd (by omega) divides
  omega

theorem mod_succ (index size : Nat) : (index % size + 1) % size = (index + 1) % size :=
  Nat.mod_add_mod index size 1

theorem Reader.returned_le_taken (reader : Reader) : reader.returned.length ≤ reader.taken := by
  rw [Reader.taken]
  split <;> omega

theorem getElem?_lt {values : List Message} {index : Nat} {value : Message}
    (found : values[index]? = some value) : index < values.length :=
  (List.getElem?_eq_some_iff.mp found).1

section Steps

variable {config : Config} {queue : Queue}

section
variable (sound : Sound config queue)
include sound

/-- A chunk that is marked as written has been taken by a reader that has taken all. -/
theorem Sound.lagging (some_chunk : 0 < config.maxChunks)
    {rank : Nat} (inRange : rank < config.nReader)
    (written : (queue.chunks (queue.readers rank).currentIdx).written = true)
    (unread : (queue.chunks (queue.readers rank).currentIdx).readFlags rank = false) :
    (queue.readers rank).taken < queue.enqueued.length := by
  rcases Nat.lt_or_ge (queue.readers rank).taken queue.enqueued.length with less | all
  · exact less
  · have same : (queue.readers rank).taken = queue.enqueued.length :=
      Nat.le_antisymm (sound.behind rank inRange) all
    rw [sound.readerIdx rank inRange, same] at written unread
    cases sound.next with
    | inl empty =>
      rw [empty.1] at written
      cases written
    | inr lap =>
      obtain ⟨index, message, lap, _, live⟩ := lap
      have place : index % config.maxChunks = queue.enqueued.length % config.maxChunks := by
        rw [← lap, Nat.add_mod_right]
      have flag := live.flags rank inRange
      rw [place, unread, same] at flag
      have passed : index < queue.enqueued.length := by omega
      rw [decide_eq_true passed] at flag
      cases flag

/-- A message that a reader has not taken lies in the reader's chunk. -/
theorem Sound.waiting {rank : Nat} (inRange : rank < config.nReader)
    {message : Message} (untaken : queue.enqueued[(queue.readers rank).taken]? = some message) :
    Live config queue (queue.readers rank).taken message := by
  rcases Nat.lt_or_ge queue.enqueued.length ((queue.readers rank).taken + config.maxChunks)
    with less | lap
  · exact sound.live _ message untaken less
  · cases sound.next with
    | inl empty => exact absurd (empty.2 rank inRange) (Nat.not_lt.mpr lap)
    | inr last =>
      obtain ⟨index, other, lapped, found, live⟩ := last
      have close := sound.near rank inRange
      have same : index = (queue.readers rank).taken := by omega
      rw [same] at found live
      rw [untaken] at found
      cases found
      exact live

/-- While the writer is at its chunk, no reader has the chunk still to take. -/
theorem Sound.apart (cleared : Cleared config queue)
    {rank : Nat} (inRange : rank < config.nReader)
    (less : (queue.readers rank).taken < queue.enqueued.length) :
    (queue.readers rank).currentIdx ≠ queue.currentIdx := by
  rw [sound.readerIdx rank inRange, sound.writerIdx]
  exact mod_ne_of_lt less (cleared rank inRange)

theorem Sound.cleared_of_empty
    (empty : (queue.chunks queue.currentIdx).written = false) : Cleared config queue := by
  cases sound.next with
  | inl left => exact left.2
  | inr lap =>
    obtain ⟨index, message, lap, _, live⟩ := lap
    have written := live.written
    have place : index % config.maxChunks = queue.enqueued.length % config.maxChunks := by
      rw [← lap, Nat.add_mod_right]
    rw [place, ← sound.writerIdx, empty] at written
    cases written

end

/-- A chunk that the writer is not at keeps what it holds. -/
theorem Live.frame {index : Nat} {message : Message} (live : Live config queue index message)
    {next : Queue} (chunk : next.chunks (index % config.maxChunks) =
      queue.chunks (index % config.maxChunks))
    (taken : ∀ rank < config.nReader,
      (next.readers rank).taken = (queue.readers rank).taken) : Live config next index message := by
  constructor
  · rw [chunk]
    exact live.written
  · intro rank inRange
    rw [chunk, taken rank inRange]
    exact live.flags rank inRange
  · rw [chunk]
    exact live.holds

/-- Where the writer stands does not depend on other chunks than its own. -/
theorem WriterReady.frame {pc : WriterPc} (ready : WriterReady config queue pc) {next : Queue}
    (chunk : next.chunks next.currentIdx = queue.chunks queue.currentIdx)
    (cleared : Cleared config queue → Cleared config next) (enqueued : next.enqueued = queue.enqueued)
    (returned : ∀ message, pc = .sending message → ∀ rank < config.nReader,
      (next.readers rank).returned.length < queue.enqueued.length) : WriterReady config next pc := by
  cases pc with
  | idle => trivial
  | counting message position count =>
    rw [WriterReady, chunk]
    exact ready
  | found message => exact cleared ready
  | writing message =>
    rw [WriterReady, chunk]
    exact ready
  | resetting message position =>
    rw [WriterReady, chunk]
    exact ready
  | sending message =>
    rw [WriterReady, enqueued]
    exact ⟨ready.1, ready.2.1, returned message rfl⟩

/-- A step that enqueues nothing and keeps the written flags. -/
theorem Sound.frame (sound : Sound config queue) {next : Queue}
    (enqueued : next.enqueued = queue.enqueued) (currentIdx : next.currentIdx = queue.currentIdx)
    (chunks : ∀ idx, (next.chunks idx).written = (queue.chunks idx).written ∧
      (next.chunks idx).data.length = (queue.chunks idx).data.length)
    (taken : ∀ rank < config.nReader, (queue.readers rank).taken ≤ (next.readers rank).taken ∧
      (next.readers rank).taken ≤ queue.enqueued.length ∧
      (next.readers rank).currentIdx = (next.readers rank).taken % config.maxChunks)
    (kept : ∀ index message, index < queue.enqueued.length →
      queue.enqueued.length ≤ index + config.maxChunks → Live config queue index message →
      Live config next index message)
    (writer : WriterReady config next next.writer)
    (readers : ∀ rank < config.nReader,
      (next.readers rank).socket =
        (next.sent.drop (next.readers rank).returned.length).filter (overflows config) ∧
      (next.readers rank).returned = queue.enqueued.take (next.readers rank).returned.length ∧
      ReaderReady config next rank (next.readers rank)) : Sound config next := by
  have cleared (before : Cleared config queue) : Cleared config next := fun rank inRange => by
    have old := before rank inRange
    have more := (taken rank inRange).1
    rw [enqueued]
    omega
  constructor
  case writerIdx =>
    rw [enqueued, currentIdx]
    exact sound.writerIdx
  case readerIdx => exact fun rank inRange => (taken rank inRange).2.2
  case behind =>
    rw [enqueued]
    exact fun rank inRange => (taken rank inRange).2.1
  case near =>
    intro rank inRange
    have old := sound.near rank inRange
    have more := (taken rank inRange).1
    rw [enqueued]
    omega
  case sized => exact fun idx => (chunks idx).2.trans (sound.sized idx)
  case live =>
    rw [enqueued]
    intro index message found near
    exact kept index message (getElem?_lt found) near.le (sound.live index message found near)
  case next =>
    rw [enqueued, (chunks _).1]
    cases sound.next with
    | inl empty => exact Or.inl ⟨empty.1, cleared empty.2⟩
    | inr lap =>
      obtain ⟨index, message, lap, found, live⟩ := lap
      exact Or.inr ⟨index, message, lap, found, kept index message (getElem?_lt found) lap.ge live⟩
  case fresh =>
    rw [enqueued]
    intro idx above below
    rw [(chunks idx).1]
    exact sound.fresh idx above below
  case writer => exact writer
  case socket => exact fun rank inRange => (readers rank inRange).1
  case ordered =>
    rw [enqueued]
    exact fun rank inRange => (readers rank inRange).2.1
  case reader => exact fun rank inRange => (readers rank inRange).2.2

/-- A reader's own step that takes nothing and sets no flag. -/
theorem Sound.setPc (sound : Sound config queue) {rank : Nat} {pc : ReaderPc}
    (same : ({ queue.readers rank with pc := pc } : Reader).taken = (queue.readers rank).taken)
    (ready : ReaderReady config queue rank { queue.readers rank with pc := pc }) :
    Sound config (queue.setReader rank { queue.readers rank with pc := pc }) := by
  have readers (other : Nat) :
      ((queue.setReader rank { queue.readers rank with pc := pc }).readers other).taken =
          (queue.readers other).taken ∧
        ((queue.setReader rank { queue.readers rank with pc := pc }).readers other).currentIdx =
          (queue.readers other).currentIdx ∧
        ((queue.setReader rank { queue.readers rank with pc := pc }).readers other).socket =
          (queue.readers other).socket ∧
        ((queue.setReader rank { queue.readers rank with pc := pc }).readers other).returned =
          (queue.readers other).returned := by
    by_cases own : other = rank
    · subst own
      rw [Queue.setReader_self]
      exact ⟨same, rfl, rfl, rfl⟩
    · rw [queue.setReader_ne own]
      exact ⟨rfl, rfl, rfl, rfl⟩
  refine sound.frame rfl rfl (fun _ => ⟨rfl, rfl⟩) ?_ ?_ ?_ ?_
  · intro other inRange
    rw [(readers other).1, (readers other).2.1]
    exact ⟨Nat.le_refl _, sound.behind other inRange, sound.readerIdx other inRange⟩
  · exact fun index message _ _ live => live.frame rfl fun other _ => (readers other).1
  · refine sound.writer.frame rfl ?_ rfl ?_
    · intro before other inRange
      rw [(readers other).1]
      exact before other inRange
    · intro message at_pc other inRange
      have before := sound.writer
      rw [at_pc] at before
      rw [(readers other).2.2.2]
      exact before.2.2 other inRange
  · intro other inRange
    rw [(readers other).2.2.1, (readers other).2.2.2]
    refine ⟨sound.socket other inRange, sound.ordered other inRange, ?_⟩
    by_cases own : other = rank
    · subst own
      rw [Queue.setReader_self]
      exact ready
    · rw [queue.setReader_ne own]
      exact sound.reader other inRange

/-- A step of the writer before it is at a chunk. -/
theorem Sound.setWriter (sound : Sound config queue) {pc : WriterPc}
    (same : ({ queue with writer := pc } : Queue).sent = queue.sent)
    (ready : WriterReady config queue pc) : Sound config { queue with writer := pc } := by
  refine sound.frame rfl rfl (fun _ => ⟨rfl, rfl⟩) ?_ ?_ ?_ ?_
  · exact fun rank inRange => ⟨Nat.le_refl _, sound.behind rank inRange, sound.readerIdx rank inRange⟩
  · exact fun index message _ _ live => live.frame rfl fun _ _ => rfl
  · refine ready.frame rfl id rfl ?_
    rintro message rfl
    exact ready.2.2
  · intro rank inRange
    rw [same]
    exact ⟨sound.socket rank inRange, sound.ordered rank inRange, sound.reader rank inRange⟩

/-- What a reader has in hand is not touched by a change of a chunk that keeps its
buffers and sets no flag. -/
theorem ReaderReady.frame {rank : Nat} {reader : Reader} {next : Queue}
    (ready : ReaderReady config queue rank reader)
    (enqueued : next.enqueued = queue.enqueued)
    (flags : (queue.chunks reader.currentIdx).readFlags rank = false →
      (next.chunks reader.currentIdx).readFlags rank = false)
    (marking : ∀ received, reader.pc = .marking received →
      (next.chunks reader.currentIdx).data = (queue.chunks reader.currentIdx).data)
    (returning : ∀ idx received message, reader.pc = .returning idx received →
      Carries config (queue.chunks idx).data message received →
      Carries config (next.chunks idx).data message received) :
    ReaderReady config next rank reader := by
  rw [ReaderReady] at ready ⊢
  cases at_pc : reader.pc with
  | idle => trivial
  | polling => trivial
  | polled readFlag =>
    rw [at_pc] at ready
    exact fun unread => flags (ready unread)
  | reading =>
    rw [at_pc] at ready
    rw [enqueued]
    exact ready
  | marking received =>
    rw [at_pc] at ready
    obtain ⟨message, found, carries⟩ := ready
    refine ⟨message, by rw [enqueued]; exact found, ?_⟩
    rw [marking received at_pc]
    exact carries
  | returning idx received =>
    rw [at_pc] at ready
    obtain ⟨message, found, carries⟩ := ready
    exact ⟨message, by rw [enqueued]; exact found, returning idx received message at_pc carries⟩

theorem taken_of_not_returning {reader : Reader}
    (inside : ∀ idx received, reader.pc ≠ .returning idx received) :
    reader.taken = reader.returned.length := by
  rw [Reader.taken]
  split
  · rename_i idx received at_pc
    exact absurd at_pc (inside idx received)
  · rfl

section
variable (sound : Sound config queue)
include sound

theorem Sound.marking_less {rank : Nat} (inRange : rank < config.nReader) {received : Received}
    (at_pc : (queue.readers rank).pc = .marking received) :
    (queue.readers rank).taken < queue.enqueued.length := by
  have ready := sound.reader rank inRange
  rw [ReaderReady, at_pc] at ready
  obtain ⟨message, found, _⟩ := ready
  rw [taken_of_not_returning (fun idx other same => by rw [at_pc] at same; cases same)]
  exact getElem?_lt found

/-- A step of the writer at its chunk: the chunk is not marked as written, no flag is set
and the buffers that a reader still refers to are kept. -/
theorem Sound.setChunk {chunk : Chunk} {pc : WriterPc}
    (cleared : Cleared config queue) (written : chunk.written = false)
    (size : chunk.data.length = config.maxChunkBytes)
    (flags : ∀ rank < config.nReader,
      (queue.chunks queue.currentIdx).readFlags rank = false → chunk.readFlags rank = false)
    (views : ∀ rank < config.nReader, ∀ received message,
      (queue.readers rank).pc = .returning queue.currentIdx received →
      Carries config (queue.chunks queue.currentIdx).data message received →
      Carries config chunk.data message received)
    (same : ({ queue with writer := pc } : Queue).sent = queue.sent)
    (ready : WriterReady config
      { queue.setChunk queue.currentIdx chunk with writer := pc } pc) :
    Sound config { queue.setChunk queue.currentIdx chunk with writer := pc } := by
  have others {index : Nat} (less : index < queue.enqueued.length)
      (near : queue.enqueued.length < index + config.maxChunks) :
      (queue.setChunk queue.currentIdx chunk).chunks (index % config.maxChunks) =
        queue.chunks (index % config.maxChunks) := by
    apply queue.setChunk_ne
    rw [sound.writerIdx]
    exact mod_ne_of_lt less near
  constructor
  case writerIdx => exact sound.writerIdx
  case readerIdx => exact sound.readerIdx
  case behind => exact sound.behind
  case near => exact sound.near
  case sized =>
    intro idx
    by_cases own : idx = queue.currentIdx
    · subst own
      rw [Queue.setChunk_self]
      exact size
    · rw [queue.setChunk_ne own]
      exact sound.sized idx
  case live =>
    intro index message found less
    exact (sound.live index message found less).frame (others (getElem?_lt found) less)
      fun _ _ => rfl
  case next =>
    refine Or.inl ⟨?_, cleared⟩
    change ((queue.setChunk queue.currentIdx chunk).chunks
      (queue.enqueued.length % config.maxChunks)).written = false
    rw [← sound.writerIdx, Queue.setChunk_self]
    exact written
  case fresh =>
    intro idx above below
    change queue.enqueued.length < idx at above
    rw [queue.setChunk_ne]
    · exact sound.fresh idx above below
    · rw [sound.writerIdx, Nat.mod_eq_of_lt (by omega)]
      omega
  case writer => exact ready
  case socket =>
    intro rank inRange
    change (queue.readers rank).socket =
      (({ queue with writer := pc } : Queue).sent.drop _).filter _
    rw [same]
    exact sound.socket rank inRange
  case ordered => exact sound.ordered
  case reader =>
    intro rank inRange
    apply (sound.reader rank inRange).frame
    · rfl
    · intro unread
      by_cases own : (queue.readers rank).currentIdx = queue.currentIdx
      · rw [own] at unread
        rw [own, Queue.setChunk_self]
        exact flags rank inRange unread
      · rw [queue.setChunk_ne own]
        exact unread
    · intro received at_pc
      rw [queue.setChunk_ne (sound.apart cleared inRange (sound.marking_less inRange at_pc))]
    · intro idx received message at_pc carries
      by_cases own : idx = queue.currentIdx
      · rw [own] at at_pc carries
        rw [own, Queue.setChunk_self]
        exact views rank inRange received message at_pc carries
      · rw [queue.setChunk_ne own]
        exact carries

/-- The written flag goes up: the message is enqueued. -/
theorem Sound.publish (some_chunk : 0 < config.maxChunks)
    {message : Message} (at_pc : queue.writer = .resetting message config.nReader) :
    Sound config { queue.setChunk queue.currentIdx
        { queue.chunks queue.currentIdx with written := true } with
      currentIdx := (queue.currentIdx + 1) % config.maxChunks
      enqueued := queue.enqueued ++ [message]
      writer := if overflows config message then .sending message else .idle } := by
  have ready := sound.writer
  rw [at_pc] at ready
  obtain ⟨_, empty, reset, holds⟩ := ready
  have cleared := sound.cleared_of_empty empty
  generalize nextWriter : (if overflows config message then WriterPc.sending message
    else WriterPc.idle) = pc
  -- the new message lies in the chunk of the old cursor, all others where they were
  have own : (queue.setChunk queue.currentIdx
      { queue.chunks queue.currentIdx with written := true }).chunks
        (queue.enqueued.length % config.maxChunks) =
      { queue.chunks queue.currentIdx with written := true } := by
    rw [← sound.writerIdx, Queue.setChunk_self]
  have newest : Live config { queue.setChunk queue.currentIdx
        { queue.chunks queue.currentIdx with written := true } with
      currentIdx := (queue.currentIdx + 1) % config.maxChunks
      enqueued := queue.enqueued ++ [message]
      writer := pc } queue.enqueued.length message := by
    constructor
    · rw [own]
    · intro rank inRange
      change ((queue.setChunk _ _).chunks _).readFlags rank = decide (_ < (queue.readers rank).taken)
      rw [own, decide_eq_false (Nat.not_lt.mpr (sound.behind rank inRange))]
      exact reset rank inRange
    · rw [own]
      exact holds
  have older {index : Nat} {other : Message} (found : queue.enqueued[index]? = some other)
      (near : queue.enqueued.length < index + config.maxChunks) :
      Live config { queue.setChunk queue.currentIdx
          { queue.chunks queue.currentIdx with written := true } with
        currentIdx := (queue.currentIdx + 1) % config.maxChunks
        enqueued := queue.enqueued ++ [message]
        writer := pc } index other := by
    apply (sound.live index other found near).frame
    · rw [queue.setChunk_ne]
      rw [sound.writerIdx]
      exact mod_ne_of_lt (getElem?_lt found) near
    · exact fun _ _ => rfl
  have longer : (queue.enqueued ++ [message]).length = queue.enqueued.length + 1 := by
    rw [length_append, length_singleton]
  constructor
  case writerIdx =>
    rw [longer, sound.writerIdx, mod_succ]
  case readerIdx => exact sound.readerIdx
  case behind =>
    intro rank inRange
    have before := sound.behind rank inRange
    change (queue.readers rank).taken ≤ (queue.enqueued ++ [message]).length
    omega
  case near =>
    intro rank inRange
    have before := cleared rank inRange
    change (queue.enqueued ++ [message]).length ≤ (queue.readers rank).taken + config.maxChunks
    omega
  case sized =>
    intro idx
    by_cases same : idx = queue.currentIdx
    · subst same
      rw [Queue.setChunk_self]
      exact sound.sized _
    · rw [queue.setChunk_ne same]
      exact sound.sized idx
  case live =>
    intro index other found near
    change (queue.enqueued ++ [message])[index]? = some other at found
    change (queue.enqueued ++ [message]).length < index + config.maxChunks at near
    rcases Nat.lt_or_ge index queue.enqueued.length with less | last
    · rw [getElem?_append_left less] at found
      exact older found (by omega)
    · have bound := getElem?_lt found
      have same : index = queue.enqueued.length := by omega
      subst same
      rw [getElem?_concat_length] at found
      cases found
      exact newest
  case next =>
    change ((queue.setChunk queue.currentIdx _).chunks
        ((queue.enqueued ++ [message]).length % _)).written = false ∧
      (∀ rank < config.nReader, (queue.enqueued ++ [message]).length <
        (queue.readers rank).taken + config.maxChunks) ∨
      ∃ index other, index + config.maxChunks = (queue.enqueued ++ [message]).length ∧
        (queue.enqueued ++ [message])[index]? = some other ∧ Live config _ index other
    rw [longer]
    rcases Nat.lt_or_ge (queue.enqueued.length + 1) config.maxChunks with first | laps
    · -- the first lap: the next chunk was never written
      refine Or.inl ⟨?_, fun rank _ => by omega⟩
      rw [Nat.mod_eq_of_lt first, queue.setChunk_ne]
      · exact sound.fresh _ (Nat.lt_succ_self _) first
      · rw [sound.writerIdx, Nat.mod_eq_of_lt (by omega)]
        omega
    · right
      rcases Nat.lt_or_ge (queue.enqueued.length + 1 - config.maxChunks) queue.enqueued.length
        with less | single
      · obtain ⟨other, found⟩ : ∃ other,
            queue.enqueued[queue.enqueued.length + 1 - config.maxChunks]? = some other :=
          ⟨_, getElem?_eq_getElem less⟩
        refine ⟨_, other, by omega, ?_, older found (by omega)⟩
        rw [getElem?_append_left less]
        exact found
      · refine ⟨queue.enqueued.length, message, by omega, ?_, newest⟩
        rw [getElem?_concat_length]
  case fresh =>
    intro idx above below
    change (queue.enqueued ++ [message]).length < idx at above
    rw [queue.setChunk_ne]
    · exact sound.fresh idx (by omega) below
    · rw [sound.writerIdx, Nat.mod_eq_of_lt (by omega)]
      omega
  case writer =>
    rw [← nextWriter]
    split
    · rename_i large
      refine ⟨large, ⟨queue.enqueued, rfl⟩, fun rank inRange => ?_⟩
      have before := sound.behind rank inRange
      have returned := (queue.readers rank).returned_le_taken
      change (queue.readers rank).returned.length < (queue.enqueued ++ [message]).length
      omega
    · trivial
  case socket =>
    intro rank inRange
    have before := sound.socket rank inRange
    have taken := sound.behind rank inRange
    have returned := (queue.readers rank).returned_le_taken
    have sentBefore : queue.sent = queue.enqueued := by
      rw [Queue.sent, at_pc]
    rw [sentBefore] at before
    change (queue.readers rank).socket =
      (Queue.sent { queue with enqueued := queue.enqueued ++ [message], writer := pc }
        |>.drop (queue.readers rank).returned.length).filter _
    rw [before, ← nextWriter]
    cases large : overflows config message with
    | true =>
      rw [if_pos rfl, Queue.sent]
      rw [dropLast_concat]
    | false =>
      rw [if_neg Bool.false_ne_true, Queue.sent]
      rw [drop_append_of_le_length (by omega), filter_append,
        filter_cons_of_neg (by rw [large]; exact Bool.false_ne_true), filter_nil,
        append_nil]
  case ordered =>
    intro rank inRange
    have taken := sound.behind rank inRange
    have returned := (queue.readers rank).returned_le_taken
    change (queue.readers rank).returned =
      (queue.enqueued ++ [message]).take (queue.readers rank).returned.length
    rw [take_append_of_le_length (by omega)]
    exact sound.ordered rank inRange
  case reader =>
    intro rank inRange
    have chunks (idx : Nat) : ((queue.setChunk queue.currentIdx
        { queue.chunks queue.currentIdx with written := true }).chunks idx).data =
          (queue.chunks idx).data ∧
        ((queue.setChunk queue.currentIdx
          { queue.chunks queue.currentIdx with written := true }).chunks idx).readFlags =
          (queue.chunks idx).readFlags := by
      by_cases same : idx = queue.currentIdx
      · subst same
        rw [Queue.setChunk_self]
        exact ⟨rfl, rfl⟩
      · rw [queue.setChunk_ne same]
        exact ⟨rfl, rfl⟩
    have before := sound.reader rank inRange
    have still {index : Nat} {other : Message} (found : queue.enqueued[index]? = some other) :
        (queue.enqueued ++ [message])[index]? = some other := by
      rw [getElem?_append_left (getElem?_lt found)]
      exact found
    change ReaderReady config _ rank (queue.readers rank)
    rw [ReaderReady] at before ⊢
    cases reader_pc : (queue.readers rank).pc with
    | idle => trivial
    | polling => trivial
    | polled readFlag =>
      rw [reader_pc] at before
      rw [(chunks _).2]
      exact before
    | reading =>
      rw [reader_pc] at before
      rw [longer]
      exact Nat.lt_succ_of_lt before
    | marking received =>
      rw [reader_pc] at before
      obtain ⟨other, found, carries⟩ := before
      refine ⟨other, still found, ?_⟩
      rw [(chunks _).1]
      exact carries
    | returning idx received =>
      rw [reader_pc] at before
      obtain ⟨other, found, carries⟩ := before
      refine ⟨other, still found, ?_⟩
      rw [(chunks _).1]
      exact carries

/-- The send after a large message: it is on every socket then. -/
theorem Sound.send {message : Message} (at_pc : queue.writer = .sending message) :
    Sound config { queue with
      readers := fun rank =>
        { queue.readers rank with socket := (queue.readers rank).socket ++ [message] }
      writer := .idle } := by
  have ready := sound.writer
  rw [at_pc] at ready
  obtain ⟨large, ⟨before, ends⟩, unreturned⟩ := ready
  refine sound.frame rfl rfl (fun _ => ⟨rfl, rfl⟩) ?_ ?_ ?_ ?_
  · exact fun rank inRange => ⟨Nat.le_refl _, sound.behind rank inRange, sound.readerIdx rank inRange⟩
  · exact fun index other _ _ live => live.frame rfl fun _ _ => rfl
  · trivial
  · intro rank inRange
    refine ⟨?_, sound.ordered rank inRange, sound.reader rank inRange⟩
    have waiting := sound.socket rank inRange
    have sentBefore : queue.sent = before := by
      rw [Queue.sent, at_pc, ends]
      exact dropLast_concat
    have bound := unreturned rank inRange
    rw [ends, length_append, length_singleton] at bound
    change (queue.readers rank).socket ++ [message] =
      (queue.enqueued.drop (queue.readers rank).returned.length).filter _
    rw [waiting, sentBefore, ends, drop_append_of_le_length (by omega), filter_append,
      filter_cons_of_pos large, filter_nil]

/-- A reader sets its flag: it is through with the chunk. -/
theorem Sound.mark {rank : Nat} (inRange : rank < config.nReader)
    {received : Received} (at_pc : (queue.readers rank).pc = .marking received) :
    Sound config ((queue.setChunk (queue.readers rank).currentIdx
        { queue.chunks (queue.readers rank).currentIdx with
          readFlags := Function.update
            (queue.chunks (queue.readers rank).currentIdx).readFlags rank true }).setReader rank
      { queue.readers rank with
        pc := .returning (queue.readers rank).currentIdx received
        currentIdx := ((queue.readers rank).currentIdx + 1) % config.maxChunks }) := by
  have less := sound.marking_less inRange at_pc
  have close := sound.near rank inRange
  have place := sound.readerIdx rank inRange
  have untaken : (queue.readers rank).taken = (queue.readers rank).returned.length :=
    taken_of_not_returning fun idx other same => by
      rw [at_pc] at same
      cases same
  have ready := sound.reader rank inRange
  rw [ReaderReady, at_pc] at ready
  obtain ⟨message, found, carries⟩ := ready
  rw [← untaken] at found
  generalize marked : (queue.setChunk (queue.readers rank).currentIdx
      { queue.chunks (queue.readers rank).currentIdx with
        readFlags := update
          (queue.chunks (queue.readers rank).currentIdx).readFlags rank true }).setReader rank
      { queue.readers rank with
        pc := .returning (queue.readers rank).currentIdx received
        currentIdx := ((queue.readers rank).currentIdx + 1) % config.maxChunks } = next
  have self : next.readers rank = { queue.readers rank with
      pc := .returning (queue.readers rank).currentIdx received
      currentIdx := ((queue.readers rank).currentIdx + 1) % config.maxChunks } := by
    rw [← marked, Queue.setReader_self]
  have others {other : Nat} (different : other ≠ rank) :
      next.readers other = queue.readers other := by
    rw [← marked, Queue.setReader_ne _ different]
    rfl
  have rest : next.enqueued = queue.enqueued ∧ next.writer = queue.writer ∧
      next.currentIdx = queue.currentIdx := by
    rw [← marked]
    exact ⟨rfl, rfl, rfl⟩
  have chunks (idx : Nat) : (next.chunks idx).data = (queue.chunks idx).data ∧
      (next.chunks idx).written = (queue.chunks idx).written ∧
      (∀ other ≠ rank, (next.chunks idx).readFlags other = (queue.chunks idx).readFlags other) ∧
      (idx ≠ (queue.readers rank).currentIdx → next.chunks idx = queue.chunks idx) := by
    rw [← marked]
    change ((queue.setChunk _ _).chunks idx).data = _ ∧ ((queue.setChunk _ _).chunks idx).written = _ ∧
      (∀ other ≠ rank, ((queue.setChunk _ _).chunks idx).readFlags other = _) ∧
      (_ → (queue.setChunk _ _).chunks idx = _)
    by_cases same : idx = (queue.readers rank).currentIdx
    · subst same
      rw [Queue.setChunk_self]
      exact ⟨rfl, rfl, fun other different => update_of_ne different .., fun no => absurd rfl no⟩
    · rw [queue.setChunk_ne same]
      exact ⟨rfl, rfl, fun _ _ => rfl, fun _ => rfl⟩
  have ownFlag : (next.chunks (queue.readers rank).currentIdx).readFlags rank = true := by
    rw [← marked]
    change ((queue.setChunk _ _).chunks _).readFlags rank = true
    rw [Queue.setChunk_self]
    exact update_self ..
  have takenSelf : (next.readers rank).taken = (queue.readers rank).taken + 1 := by
    rw [self, untaken]
    rfl
  have taken (other : Nat) : (queue.readers other).taken ≤ (next.readers other).taken := by
    by_cases own : other = rank
    · rw [own, takenSelf]
      omega
    · rw [others own]
  have returned (other : Nat) : (next.readers other).returned = (queue.readers other).returned ∧
      (next.readers other).socket = (queue.readers other).socket := by
    by_cases own : other = rank
    · rw [own, self]
      exact ⟨rfl, rfl⟩
    · rw [others own]
      exact ⟨rfl, rfl⟩
  have kept {index : Nat} {other : Message} (bound : index < queue.enqueued.length)
      (near : queue.enqueued.length ≤ index + config.maxChunks)
      (live : Live config queue index other) : Live config next index other := by
    constructor
    · rw [(chunks _).2.1]
      exact live.written
    · intro reader here
      by_cases own : reader = rank
      · subst own
        rw [takenSelf]
        by_cases same : index = (queue.readers reader).taken
        · -- the message that is taken now
          rw [same, ← place, ownFlag]
          exact (decide_eq_true (Nat.lt_succ_self _)).symm
        · have away : index % config.maxChunks ≠ (queue.readers reader).currentIdx := by
            rw [place]
            rcases Nat.lt_or_ge index (queue.readers reader).taken with before | after
            · exact mod_ne_of_lt before (by omega)
            · exact (mod_ne_of_lt (by omega) (by omega)).symm
          rw [(chunks _).2.2.2 away, live.flags reader here]
          exact decide_eq_decide.mpr (by omega)
      · rw [(chunks _).2.2.1 reader own, others own]
        exact live.flags reader here
    · rw [(chunks _).1]
      exact live.holds
  apply sound.frame rest.1 rest.2.2
  · intro idx
    rw [(chunks idx).1, (chunks idx).2.1]
    exact ⟨rfl, rfl⟩
  · intro other here
    refine ⟨taken other, ?_⟩
    by_cases own : other = rank
    · subst own
      rw [takenSelf, self]
      refine ⟨less, ?_⟩
      change ((queue.readers other).currentIdx + 1) % _ = _
      rw [place, mod_succ]
    · rw [others own]
      exact ⟨sound.behind other here, sound.readerIdx other here⟩
  · exact fun index other bound near live => kept bound near live
  · have before := sound.writer
    rw [rest.2.1]
    -- the writer's own chunk is another one, unless it still counts
    have away (empty : (queue.chunks queue.currentIdx).written = false) :
        next.chunks next.currentIdx = queue.chunks queue.currentIdx := by
      rw [rest.2.2]
      exact (chunks _).2.2.2 (sound.apart (sound.cleared_of_empty empty) inRange less).symm
    cases writer_pc : queue.writer with
    | idle => trivial
    | counting text position count =>
      rw [writer_pc] at before
      refine ⟨before.1, before.2.1, fun all reader earlier => ?_⟩
      rw [rest.2.2]
      by_cases own : reader = rank
      · subst own
        by_cases here : queue.currentIdx = (queue.readers reader).currentIdx
        · rw [here]
          exact ownFlag
        · rw [(chunks _).2.2.2 here]
          exact before.2.2 all reader earlier
      · rw [(chunks _).2.2.1 reader own]
        exact before.2.2 all reader earlier
    | found text =>
      rw [writer_pc] at before
      intro other here
      have old := before other here
      have more := taken other
      rw [rest.1]
      omega
    | writing text =>
      rw [writer_pc] at before
      change (next.chunks next.currentIdx).written = false
      rw [away before]
      exact before
    | resetting text position =>
      rw [writer_pc] at before
      rw [WriterReady, away before.2.1]
      exact before
    | sending text =>
      rw [writer_pc] at before
      rw [WriterReady, rest.1]
      refine ⟨before.1, before.2.1, fun other here => ?_⟩
      rw [(returned other).1]
      exact before.2.2 other here
  · intro other here
    have sent : next.sent = queue.sent := by
      rw [Queue.sent, Queue.sent, rest.1, rest.2.1]
    rw [(returned other).1, (returned other).2, sent]
    refine ⟨sound.socket other here, sound.ordered other here, ?_⟩
    by_cases own : other = rank
    · subst own
      rw [self]
      change ∃ text, next.enqueued[(queue.readers other).returned.length]? = some text ∧
        Carries config (next.chunks (queue.readers other).currentIdx).data text received
      rw [rest.1, (chunks _).1, ← untaken]
      exact ⟨message, found, carries⟩
    · rw [others own]
      apply (sound.reader other here).frame rest.1
      · rw [(chunks _).2.2.1 other own]
        exact id
      · exact fun _ _ => (chunks _).1
      · intro idx held text _ holding
        rw [(chunks _).1]
        exact holding

/-- The call returns the next message of the queue. -/
theorem Sound.giveBack {rank : Nat} (inRange : rank < config.nReader)
    {idx : Nat} {received : Received} (at_pc : (queue.readers rank).pc = .returning idx received)
    {message : Message} {socket : List Message}
    (given : receive (queue.chunks idx).data (queue.readers rank).socket received =
      some (message, socket)) :
    Sound config (queue.setReader rank { queue.readers rank with
      pc := .idle
      socket := socket
      returned := (queue.readers rank).returned ++ [message] }) := by
  have ready := sound.reader rank inRange
  rw [ReaderReady, at_pc] at ready
  obtain ⟨expected, found, carries⟩ := ready
  have position := getElem?_lt found
  have waiting := sound.socket rank inRange
  -- what stands on the socket behind this message
  have answer : message = expected ∧
      socket = (queue.sent.drop ((queue.readers rank).returned.length + 1)).filter
        (overflows config) ∧
      ∀ text, queue.writer = .sending text →
        (queue.readers rank).returned.length + 1 < queue.enqueued.length := by
    have sentShape : (∃ text, queue.writer = .sending text ∧ overflows config text = true ∧
        queue.enqueued = queue.sent ++ [text]) ∨
        (queue.sent = queue.enqueued ∧ ∀ text, queue.writer ≠ .sending text) := by
      have writer := sound.writer
      cases writer_pc : queue.writer with
      | sending text =>
        rw [writer_pc] at writer
        obtain ⟨large, ⟨before, ends⟩, _⟩ := writer
        refine Or.inl ⟨text, rfl, large, ?_⟩
        rw [Queue.sent, writer_pc, ends]
        simp only
        rw [dropLast_concat]
      | idle => exact Or.inr ⟨by rw [Queue.sent, writer_pc], fun _ same => by cases same⟩
      | counting text at_flag count =>
        exact Or.inr ⟨by rw [Queue.sent, writer_pc], fun _ same => by cases same⟩
      | found text => exact Or.inr ⟨by rw [Queue.sent, writer_pc], fun _ same => by cases same⟩
      | writing text => exact Or.inr ⟨by rw [Queue.sent, writer_pc], fun _ same => by cases same⟩
      | resetting text at_flag =>
        exact Or.inr ⟨by rw [Queue.sent, writer_pc], fun _ same => by cases same⟩
    have shape : (queue.sent[(queue.readers rank).returned.length]? = some expected ∧
          ∀ text, queue.writer = .sending text →
            (queue.readers rank).returned.length + 1 < queue.enqueued.length) ∨
        (overflows config expected = true ∧
          queue.sent.drop (queue.readers rank).returned.length = []) := by
      rcases sentShape with ⟨text, _, large, ends⟩ | ⟨same, never⟩
      · rw [ends] at found position ⊢
        rw [length_append, length_singleton] at position ⊢
        rcases Nat.lt_or_ge (queue.readers rank).returned.length queue.sent.length with inside | last
        · rw [getElem?_append_left inside] at found
          exact Or.inl ⟨found, fun _ _ => by omega⟩
        · have same : (queue.readers rank).returned.length = queue.sent.length := by omega
          rw [same, getElem?_concat_length] at found
          cases found
          exact Or.inr ⟨large, drop_eq_nil_of_le last⟩
      · rw [same]
        exact Or.inl ⟨found, fun text sending => absurd sending (never text)⟩
    have split (there : queue.sent[(queue.readers rank).returned.length]? = some expected) :
        queue.sent.drop (queue.readers rank).returned.length =
          expected :: queue.sent.drop ((queue.readers rank).returned.length + 1) := by
      obtain ⟨bound, value⟩ := List.getElem?_eq_some_iff.mp there
      rw [drop_eq_getElem_cons bound, value]
    cases received with
    | overflow =>
      change overflows config expected = true at carries
      rcases shape with ⟨there, later⟩ | ⟨_, none_sent⟩
      · rw [waiting, split there, filter_cons_of_pos carries, receive] at given
        cases given
        exact ⟨rfl, rfl, later⟩
      · rw [waiting, none_sent, filter_nil, receive] at given
        cases given
    | views main oob =>
      obtain ⟨small, sameMain, views, _⟩ := carries
      rw [receive, views, sameMain] at given
      cases given
      rcases shape with ⟨there, later⟩ | ⟨large, _⟩
      · refine ⟨rfl, ?_, later⟩
        rw [waiting, split there, filter_cons_of_neg (by rw [small]; exact Bool.false_ne_true)]
      · rw [large] at small
        cases small
  obtain ⟨same, behindIt, later⟩ := answer
  subst same
  generalize taken_back : queue.setReader rank { queue.readers rank with
      pc := .idle
      socket := socket
      returned := (queue.readers rank).returned ++ [message] } = next
  have self : next.readers rank = { queue.readers rank with
      pc := .idle
      socket := socket
      returned := (queue.readers rank).returned ++ [message] } := by
    rw [← taken_back, Queue.setReader_self]
  have others {other : Nat} (different : other ≠ rank) :
      next.readers other = queue.readers other := by
    rw [← taken_back, Queue.setReader_ne _ different]
  have rest : next.enqueued = queue.enqueued ∧ next.writer = queue.writer ∧
      next.currentIdx = queue.currentIdx ∧ next.chunks = queue.chunks := by
    rw [← taken_back]
    exact ⟨rfl, rfl, rfl, rfl⟩
  have taken (other : Nat) : (next.readers other).taken = (queue.readers other).taken ∧
      (next.readers other).currentIdx = (queue.readers other).currentIdx := by
    by_cases own : other = rank
    · subst own
      refine ⟨?_, by rw [self]⟩
      rw [self, Reader.taken, Reader.taken, at_pc]
      exact length_append
    · rw [others own]
      exact ⟨rfl, rfl⟩
  apply sound.frame rest.1 rest.2.2.1
  · rw [rest.2.2.2]
    exact fun _ => ⟨rfl, rfl⟩
  · intro other here
    rw [(taken other).1, (taken other).2]
    exact ⟨Nat.le_refl _, sound.behind other here, sound.readerIdx other here⟩
  · intro index other _ _ live
    exact live.frame (by rw [rest.2.2.2]) fun other _ => (taken other).1
  · rw [rest.2.1]
    apply sound.writer.frame _ _ rest.1
    · intro text writer_pc other here
      by_cases own : other = rank
      · rw [own, self]
        change ((queue.readers rank).returned ++ [message]).length < _
        rw [length_append, length_singleton]
        exact later text writer_pc
      · have before := sound.writer
        rw [writer_pc] at before
        rw [others own]
        exact before.2.2 other here
    · rw [rest.2.2.1, rest.2.2.2]
    · intro before other here
      rw [rest.1, (taken other).1]
      exact before other here
  · intro other here
    have sent : next.sent = queue.sent := by
      rw [Queue.sent, Queue.sent, rest.1, rest.2.1]
    rw [sent]
    by_cases own : other = rank
    · rw [own, self]
      refine ⟨?_, ?_, trivial⟩
      · change socket = (queue.sent.drop ((queue.readers rank).returned ++ [message]).length).filter _
        rw [length_append, length_singleton]
        exact behindIt
      · change (queue.readers rank).returned ++ [message] =
          queue.enqueued.take ((queue.readers rank).returned ++ [message]).length
        rw [length_append, length_singleton, take_add_one, found, ← sound.ordered rank inRange]
        rfl
    · rw [others own]
      refine ⟨sound.socket other here, sound.ordered other here, ?_⟩
      apply (sound.reader other here).frame rest.1
      · rw [rest.2.2.2]
        exact id
      · exact fun _ _ => by rw [rest.2.2.2]
      · intro place held text _ holding
        rw [rest.2.2.2]
        exact holding

end

end Steps

/-- A `dequeue` call that is about to return an object whose out-of-band buffers lie in
this chunk. -/
def Reader.holdsBuffers (self : Reader) (idx : Nat) : Bool :=
  match self.pc with
  | .returning held (.views _ oob) => decide (held = idx) && !oob.isEmpty
  | _ => false

/-- A step that writes an in-band message does so after every `dequeue` call that refers to
buffers in this chunk has returned. -/
def InTime (config : Config) (queue : Queue) (taken : Step) : Prop :=
  match taken, queue.writer with
  | .writer, .writing message => overflows config message = true ∨
      ∀ rank < config.nReader, (queue.readers rank).holdsBuffers queue.currentIdx = false
  | _, _ => True

instance decideInTime (config : Config) (queue : Queue) (taken : Step) :
    Decidable (InTime config queue taken) := by
  cases taken with
  | writer =>
    cases at_pc : queue.writer with
    | writing message =>
      exact decidable_of_iff (overflows config message = true ∨ ∀ rank < config.nReader,
        (queue.readers rank).holdsBuffers queue.currentIdx = false) (by simp only [InTime, at_pc])
    | idle => exact .isTrue (by simp only [InTime, at_pc])
    | counting message next count => exact .isTrue (by simp only [InTime, at_pc])
    | found message => exact .isTrue (by simp only [InTime, at_pc])
    | resetting message next => exact .isTrue (by simp only [InTime, at_pc])
    | sending message => exact .isTrue (by simp only [InTime, at_pc])
  | enqueue message => exact .isTrue trivial
  | dequeue rank => exact .isTrue trivial
  | reader rank => exact .isTrue trivial

def InTimeRun (config : Config) (queue : Queue) : List Step → Prop
  | [] => True
  | first :: rest => InTime config queue first ∧
      ∀ next ∈ step config queue first, InTimeRun config next rest

instance decideInTimeRun (config : Config) (queue : Queue) :
    (steps : List Step) → Decidable (InTimeRun config queue steps)
  | [] => .isTrue trivial
  | first :: rest =>
    have _ (next : Queue) := decideInTimeRun config next rest
    inferInstanceAs (Decidable (InTime config queue first ∧
      ∀ next ∈ step config queue first, InTimeRun config next rest))

section Steps

variable {config : Config} {queue next : Queue}

theorem Sound.init (some_chunk : 0 < config.maxChunks) : Sound config (init config) := by
  have nothing {index : Nat} {message : Message} (found : ([] : List Message)[index]? = some message) :
      False := by
    cases found
  constructor
  case writerIdx => exact (Nat.zero_mod _).symm
  case readerIdx => exact fun _ _ => (Nat.zero_mod _).symm
  case behind => exact fun _ _ => Nat.le_refl 0
  case near => exact fun _ _ => Nat.zero_le _
  case sized => exact fun _ => length_replicate
  case live => exact fun _ _ found _ => (nothing found).elim
  case next =>
    refine Or.inl ⟨rfl, fun _ _ => ?_⟩
    change 0 < 0 + config.maxChunks
    omega
  case fresh => exact fun _ _ _ => rfl
  case writer => trivial
  case socket => exact fun _ _ => rfl
  case ordered => exact fun _ _ => rfl
  case reader => exact fun _ _ => trivial

section
variable (sound : Sound config queue)
include sound

theorem Sound.writerStep (some_chunk : 0 < config.maxChunks)
    (inTime : InTime config queue .writer) (stepped : queue.writerStep config = some next) :
    Sound config next := by
  have ready := sound.writer
  cases at_pc : queue.writer with
  | idle =>
    rw [Queue.writerStep, at_pc] at stepped
    cases stepped
  | counting message position count =>
    rw [at_pc] at ready
    obtain ⟨inside, counted, all⟩ := ready
    have sent (pc : WriterPc) (other : ∀ text, pc ≠ .sending text) :
        ({ queue with writer := pc } : Queue).sent = queue.sent := by
      rw [Queue.sent, Queue.sent, at_pc]
      cases pc with
      | sending text => exact absurd rfl (other text)
      | idle => rfl
      | counting text position count => rfl
      | found text => rfl
      | writing text => rfl
      | resetting text position => rfl
    rw [Queue.writerStep, at_pc] at stepped
    simp only at stepped
    split at stepped
    · rename_i more
      cases stepped
      apply sound.setWriter (sent _ fun text same => by cases same)
      refine ⟨more, ?_, ?_⟩
      · have bit := Bool.toNat_le ((queue.chunks queue.currentIdx).readFlags position)
        omega
      · intro same rank earlier
        have bit := Bool.toNat_le ((queue.chunks queue.currentIdx).readFlags position)
        rcases Nat.lt_succ_iff_lt_or_eq.mp earlier with before | last
        · exact all (by omega) rank before
        · rw [last]
          cases flag : (queue.chunks queue.currentIdx).readFlags position with
          | true => rfl
          | false =>
            rw [flag] at same
            change count + 0 = position + 1 at same
            omega
    · split at stepped
      · cases stepped
        apply sound.setWriter (sent _ fun text same => by cases same)
        exact ⟨Nat.zero_le _, Nat.le_refl 0, fun _ rank earlier => absurd earlier (Nat.not_lt_zero rank)⟩
      · rename_i found
        cases stepped
        apply sound.setWriter (sent _ fun text same => by cases same)
        cases written : (queue.chunks queue.currentIdx).written with
        | false => exact sound.cleared_of_empty written
        | true =>
          -- every flag is set, so every reader has taken the message of the last lap
          have every : count = config.nReader := by
            rw [written, Bool.true_and, decide_eq_true_iff] at found
            exact not_not.mp found
          cases sound.next with
          | inl empty => exact empty.2
          | inr lap =>
            obtain ⟨index, text, lap, _, live⟩ := lap
            intro rank inRange
            have flag := live.flags rank inRange
            have place : index % config.maxChunks = queue.currentIdx := by
              rw [sound.writerIdx, ← lap, Nat.add_mod_right]
            rw [place, all (by omega) rank (by omega)] at flag
            have passed := of_decide_eq_true flag.symm
            omega
  | found message =>
    rw [at_pc] at ready
    rw [Queue.writerStep, at_pc] at stepped
    cases stepped
    refine sound.setChunk ready ?_ ?_ ?_ ?_ ?_ ?_
    · rfl
    · exact sound.sized _
    · exact fun _ _ unread => unread
    · exact fun _ _ _ _ _ carries => carries
    · rw [Queue.sent, Queue.sent, at_pc]
    · change ((queue.setChunk _ _).chunks _).written = false
      rw [show ({ queue.setChunk queue.currentIdx
          { queue.chunks queue.currentIdx with written := false } with
            writer := WriterPc.writing message } : Queue).currentIdx = queue.currentIdx from rfl,
        Queue.setChunk_self]
  | writing message =>
    rw [at_pc] at ready
    simp only [InTime, at_pc] at inTime
    rw [Queue.writerStep, at_pc] at stepped
    cases stepped
    have views : ∀ rank < config.nReader, ∀ received text,
        (queue.readers rank).pc = .returning queue.currentIdx received →
        Carries config (queue.chunks queue.currentIdx).data text received →
        Carries config (writeMessage config (queue.chunks queue.currentIdx).data message).1 text
          received := by
      intro rank inRange received text reader_pc carries
      cases received with
      | overflow => exact carries
      | views main oob =>
        obtain ⟨small, sameMain, held, behind⟩ := carries
        refine ⟨small, sameMain, ?_, behind⟩
        cases inTime with
        | inl large =>
          rw [← held]
          apply map_congr_left
          exact fun place member => view_overflow large _ place (behind place member)
        | inr returned =>
          have free := returned rank inRange
          rw [Reader.holdsBuffers, reader_pc] at free
          simp only [decide_true, Bool.true_and, Bool.not_eq_false', List.isEmpty_iff] at free
          rw [free] at held ⊢
          exact held
    refine sound.setChunk (sound.cleared_of_empty ready) ?_ ?_ ?_ views ?_ ?_
    · exact ready
    · exact (writeMessage_length _ _ _).trans (sound.sized _)
    · exact fun _ _ unread => unread
    · rw [Queue.sent, Queue.sent, at_pc]
      split
      · rename_i same
        split at same
        · cases same
        · cases same
      · rfl
    · cases done : (writeMessage config (queue.chunks queue.currentIdx).data message).2 with
      | false => trivial
      | true =>
        have carries := @readMessage_writeMessage config _ _ _
          (Prod.ext rfl done : writeMessage config (queue.chunks queue.currentIdx).data message =
            (_, true))
        change 0 ≤ config.nReader ∧
          ((queue.setChunk queue.currentIdx _).chunks queue.currentIdx).written = false ∧
          (∀ rank < 0, ((queue.setChunk queue.currentIdx _).chunks
            queue.currentIdx).readFlags rank = false) ∧
          ∃ received, readMessage ((queue.setChunk queue.currentIdx _).chunks
              queue.currentIdx).data = some received ∧
            Carries config ((queue.setChunk queue.currentIdx _).chunks queue.currentIdx).data
              message received
        rw [Queue.setChunk_self]
        exact ⟨Nat.zero_le _, ready, fun rank earlier => absurd earlier (Nat.not_lt_zero rank), carries⟩
  | resetting message position =>
    rw [at_pc] at ready
    obtain ⟨inside, empty, reset, holds⟩ := ready
    rw [Queue.writerStep, at_pc] at stepped
    simp only at stepped
    split at stepped
    · rename_i more
      cases stepped
      refine sound.setChunk (sound.cleared_of_empty empty) ?_ ?_ ?_ ?_ ?_ ?_
      · exact empty
      · exact sound.sized _
      · intro rank _ unread
        change update (queue.chunks queue.currentIdx).readFlags position false rank = false
        rw [update_apply]
        split
        · rfl
        · exact unread
      · exact fun _ _ _ _ _ carries => carries
      · rw [Queue.sent, Queue.sent, at_pc]
      · change position + 1 ≤ config.nReader ∧
          ((queue.setChunk queue.currentIdx _).chunks queue.currentIdx).written = false ∧
          (∀ rank < position + 1, ((queue.setChunk queue.currentIdx _).chunks
            queue.currentIdx).readFlags rank = false) ∧
          ∃ received, readMessage ((queue.setChunk queue.currentIdx _).chunks
              queue.currentIdx).data = some received ∧
            Carries config ((queue.setChunk queue.currentIdx _).chunks queue.currentIdx).data
              message received
        rw [Queue.setChunk_self]
        refine ⟨more, empty, fun rank earlier => ?_, holds⟩
        change update (queue.chunks queue.currentIdx).readFlags position false rank = false
        rw [update_apply]
        split
        · rfl
        · exact reset rank (by omega)
    · cases stepped
      have last : position = config.nReader := by omega
      exact sound.publish some_chunk (last ▸ at_pc)
  | sending message =>
    rw [Queue.writerStep, at_pc] at stepped
    cases stepped
    exact sound.send at_pc

theorem Sound.readerStep (some_chunk : 0 < config.maxChunks)
    {rank : Nat} (inRange : rank < config.nReader)
    (stepped : queue.readerStep config rank = some next) : Sound config next := by
  have ready := sound.reader rank inRange
  have outside {pc : ReaderPc} (inside : ∀ idx received, (queue.readers rank).pc ≠ .returning idx received)
      (after : ∀ idx received, pc ≠ .returning idx received) :
      ({ queue.readers rank with pc := pc } : Reader).taken = (queue.readers rank).taken := by
    rw [taken_of_not_returning inside, taken_of_not_returning after]
  rw [ReaderReady] at ready
  cases at_pc : (queue.readers rank).pc with
  | idle =>
    rw [Queue.readerStep, at_pc] at stepped
    cases stepped
  | polling =>
    rw [Queue.readerStep, at_pc] at stepped
    cases stepped
    apply sound.setPc (outside (fun _ _ same => by rw [at_pc] at same; cases same) fun _ _ same => by
      cases same)
    exact fun unread => unread
  | polled readFlag =>
    rw [at_pc] at ready
    rw [Queue.readerStep, at_pc] at stepped
    cases stepped
    apply sound.setPc (outside (fun _ _ same => by rw [at_pc] at same; cases same) fun _ _ same => by
      split at same <;> cases same)
    cases written : (queue.chunks (queue.readers rank).currentIdx).written with
    | false => trivial
    | true =>
      cases readFlag with
      | true => trivial
      | false =>
        -- the reader's own flag cannot have gone up since it was read
        have less := sound.lagging some_chunk inRange written (ready rfl)
        rw [taken_of_not_returning fun _ _ same => by rw [at_pc] at same; cases same] at less
        exact less
  | reading =>
    rw [at_pc] at ready
    have untaken : (queue.readers rank).taken = (queue.readers rank).returned.length :=
      taken_of_not_returning fun _ _ same => by rw [at_pc] at same; cases same
    obtain ⟨message, found⟩ : ∃ message,
        queue.enqueued[(queue.readers rank).returned.length]? = some message :=
      ⟨_, getElem?_eq_getElem ready⟩
    have live := sound.waiting inRange (by rw [untaken]; exact found)
    obtain ⟨received, read, carries⟩ := live.holds
    rw [← sound.readerIdx rank inRange] at read carries
    rw [Queue.readerStep, at_pc] at stepped
    simp only [read] at stepped
    cases stepped
    apply sound.setPc (outside (fun _ _ same => by rw [at_pc] at same; cases same) fun _ _ same => by
      cases same)
    exact ⟨message, found, carries⟩
  | marking received =>
    rw [Queue.readerStep, at_pc] at stepped
    cases stepped
    exact sound.mark inRange at_pc
  | returning idx received =>
    rw [Queue.readerStep, at_pc] at stepped
    simp only [map_eq_some_iff] at stepped
    obtain ⟨⟨message, socket⟩, given, same⟩ := stepped
    cases same
    exact sound.giveBack inRange at_pc given

theorem Sound.step (some_chunk : 0 < config.maxChunks)
    (some_reader : 0 < config.nReader) {taken : Step} (inTime : InTime config queue taken)
    (stepped : step config queue taken = some next) : Sound config next := by
  cases taken with
  | enqueue message =>
    rw [BroadcastQueue.step] at stepped
    split at stepped
    · rename_i idle
      rw [if_neg (by omega)] at stepped
      cases stepped
      apply sound.setWriter
      · rw [Queue.sent, Queue.sent, idle]
      · exact ⟨Nat.zero_le _, Nat.le_refl 0,
          fun _ rank earlier => absurd earlier (Nat.not_lt_zero rank)⟩
    · cases stepped
  | writer => exact sound.writerStep some_chunk inTime stepped
  | dequeue rank =>
    rw [BroadcastQueue.step] at stepped
    split at stepped
    · rename_i idle
      cases stepped
      apply sound.setPc
      · rw [Reader.taken, Reader.taken, idle.2]
      · trivial
    · cases stepped
  | reader rank =>
    rw [BroadcastQueue.step] at stepped
    split at stepped
    · rename_i inRange
      exact sound.readerStep some_chunk inRange stepped
    · cases stepped

theorem Sound.run (some_chunk : 0 < config.maxChunks)
    (some_reader : 0 < config.nReader) {steps : List Step} (inTime : InTimeRun config queue steps)
    (ran : run config queue steps = some next) : Sound config next := by
  induction steps generalizing queue with
  | nil =>
    cases ran
    exact sound
  | cons first rest ih =>
    rw [BroadcastQueue.run, bind_eq_some_iff] at ran
    obtain ⟨middle, stepped, ran⟩ := ran
    exact ih (sound.step some_chunk some_reader inTime.1 stepped) (inTime.2 middle stepped) ran

end

end Steps

def ReaderPc.reads : ReaderPc → Prop
  | .reading | .marking _ => True
  | _ => False

def WriterPc.writes : WriterPc → Prop
  | .writing _ | .resetting _ _ => True
  | _ => False

/-- Each reader has returned the first messages that were enqueued, in order, and can go
on with the next one; no reader is in a chunk that is being written. -/
structure Delivers (config : Config) (queue : Queue) : Prop where
  inOrder : ∀ rank < config.nReader, (queue.readers rank).returned <+: queue.enqueued
  exclusive : ∀ rank < config.nReader, (queue.readers rank).pc.reads → queue.writer.writes →
    (queue.readers rank).currentIdx ≠ queue.currentIdx
  readable : ∀ rank < config.nReader, (queue.readers rank).taken < queue.enqueued.length →
    (queue.chunks (queue.readers rank).currentIdx).written = true ∧
      (queue.chunks (queue.readers rank).currentIdx).readFlags rank = false
  received : ∀ rank < config.nReader, ∀ idx, (queue.readers rank).pc = .returning idx .overflow →
    (∀ message, queue.writer ≠ .sending message) → (queue.readers rank).socket ≠ []

theorem Sound.delivers {config : Config} {queue : Queue} (sound : Sound config queue) :
    Delivers config queue := by
  constructor
  case inOrder =>
    intro rank inRange
    rw [sound.ordered rank inRange]
    exact take_prefix _ _
  case exclusive =>
    intro rank inRange reads writes
    have cleared : Cleared config queue := by
      have ready := sound.writer
      cases at_pc : queue.writer with
      | idle => rw [at_pc] at writes; exact writes.elim
      | counting _ _ _ => rw [at_pc] at writes; exact writes.elim
      | found _ => rw [at_pc] at writes; exact writes.elim
      | writing _ =>
        rw [at_pc] at ready
        exact sound.cleared_of_empty ready
      | resetting _ _ =>
        rw [at_pc] at ready
        exact sound.cleared_of_empty ready.2.1
      | sending _ => rw [at_pc] at writes; exact writes.elim
    have less : (queue.readers rank).taken < queue.enqueued.length := by
      cases at_pc : (queue.readers rank).pc with
      | idle => rw [at_pc] at reads; exact reads.elim
      | polling => rw [at_pc] at reads; exact reads.elim
      | polled _ => rw [at_pc] at reads; exact reads.elim
      | reading =>
        have ready := sound.reader rank inRange
        rw [ReaderReady, at_pc] at ready
        rw [taken_of_not_returning fun _ _ same => by rw [at_pc] at same; cases same]
        exact ready
      | marking received => exact sound.marking_less inRange at_pc
      | returning _ _ => rw [at_pc] at reads; exact reads.elim
    exact sound.apart cleared inRange less
  case readable =>
    intro rank inRange less
    have live := sound.waiting inRange (getElem?_eq_getElem less)
    rw [sound.readerIdx rank inRange]
    refine ⟨live.written, ?_⟩
    rw [live.flags rank inRange]
    exact decide_eq_false (Nat.lt_irrefl _)
  case received =>
    intro rank inRange idx at_pc quiet
    have ready := sound.reader rank inRange
    rw [ReaderReady, at_pc] at ready
    obtain ⟨message, found, large⟩ := ready
    have sent : queue.sent = queue.enqueued := by
      rw [Queue.sent]
      split
      · rename_i text sending
        exact absurd sending (quiet text)
      · rfl
    obtain ⟨bound, value⟩ := List.getElem?_eq_some_iff.mp found
    rw [sound.socket rank inRange, sent, drop_eq_getElem_cons bound, value,
      filter_cons_of_pos large]
    exact cons_ne_nil _ _

/-- A message goes in band only if its encoding fits the chunk, and the buffers that are
read back are its own. -/
structure EncodesInBand (config : Config) : Prop where
  fits : ∀ message, overflows config message = false →
    encodingLength message ≤ config.maxChunkBytes
  decodes : ∀ data message next, writeMessage config data message = (next, true) →
    overflows config message = false → ∃ oob, readMessage next = some (.views message.main oob) ∧
      oob.map (view next) = message.oob

theorem encodesInBand (config : Config) : EncodesInBand config := by
  constructor
  case fits => exact fun message small => encoding_fits small
  case decodes =>
    intro data message next done small
    obtain ⟨received, read, carries⟩ := readMessage_writeMessage done
    cases received with
    | overflow =>
      change overflows config message = true at carries
      rw [small] at carries
      cases carries
    | views main oob =>
      obtain ⟨_, same, views, _⟩ := carries
      exact ⟨oob, by rw [read, same], views⟩

/-- A small message, then a large one, which the reader takes before it is sent. -/
def takingTurns : List Step :=
  [.enqueue ⟨[7], []⟩, .dequeue 0, .writer, .writer, .writer, .writer, .writer, .writer,
    .reader 0, .reader 0, .reader 0, .reader 0, .enqueue ⟨[1, 2, 3, 4, 5, 6], []⟩, .writer, .writer,
    .writer, .writer, .reader 0, .dequeue 0, .writer, .writer, .reader 0, .reader 0, .reader 0,
    .reader 0, .writer, .reader 0]

theorem run_append (config : Config) (queue : Queue) (first rest : List Step) :
    run config queue (first ++ rest) =
      (run config queue first).bind fun next => run config next rest := by
  induction first generalizing queue with
  | nil => rfl
  | cons head tail ih =>
    rw [cons_append, run, run, Option.bind_assoc]
    congr 1
    funext next
    exact ih next

/-- An idle writer of one written chunk, with one reader. -/
structure Alone (queue : Queue) (data : Bytes) (readFlag : Bool) (reader : Reader)
    (enqueued : List Message) : Prop where
  writer : queue.writer = .idle
  currentIdx : queue.currentIdx = 0
  data : (queue.chunks 0).data = data
  written : (queue.chunks 0).written = true
  readFlag : (queue.chunks 0).readFlags 0 = readFlag
  reader : queue.readers 0 = reader
  enqueued : queue.enqueued = enqueued

def writes (message : Message) : List Step :=
  [.enqueue message, .writer, .writer, .writer, .writer, .writer, .writer]

def reads : List Step := [.dequeue 0, .reader 0, .reader 0, .reader 0, .reader 0]

def overwrites (message : Message) : List Step :=
  [.enqueue message, .writer, .writer, .writer, .writer, .reader 0]

variable {size : Nat}

theorem writes_first {message : Message} {data : Bytes}
    (small : overflows ⟨1, size, 1⟩ message = false)
    (wrote : writeMessage ⟨1, size, 1⟩ (List.replicate size 0) message = (data, true)) :
    ∃ queue, run ⟨1, size, 1⟩ (init ⟨1, size, 1⟩) (writes message) = some queue ∧
      Alone queue data false ⟨.idle, 0, [], []⟩ [message] := by
  simp only [writes, run, step, init, Queue.writerStep, Queue.setChunk]
  simp [small, wrote]
  constructor <;> simp

theorem reads_first {queue : Queue} {data : Bytes} {received : Received} {enqueued : List Message}
    (alone : Alone queue data false ⟨.idle, 0, [], []⟩ enqueued)
    (read : readMessage data = some received) :
    ∃ next, run ⟨1, size, 1⟩ queue reads = some next ∧
      Alone next data true ⟨.returning 0 received, 0, [], []⟩ enqueued := by
  obtain ⟨writer, idx, bytes, written, flag, reader, all⟩ := alone
  simp only [reads, run, step, Queue.readerStep, Queue.setChunk, Queue.setReader]
  simp [reader, flag, written, bytes, read]
  constructor <;> simp [writer, idx, all]

theorem overwrites_second {queue : Queue} {data after main : Bytes} {oob : List (Nat × Nat)}
    {second : Message} {enqueued : List Message}
    (alone : Alone queue data true ⟨.returning 0 (.views main oob), 0, [], []⟩ enqueued)
    (overwrote : writeMessage ⟨1, size, 1⟩ data second = (after, true)) :
    ∃ next, run ⟨1, size, 1⟩ queue (overwrites second) = some next ∧
      next.enqueued = enqueued ∧ (next.readers 0).returned = [⟨main, oob.map (view after)⟩] := by
  obtain ⟨writer, idx, bytes, written, flag, reader, all⟩ := alone
  simp only [overwrites, run, step, Queue.writerStep, Queue.readerStep, Queue.setChunk,
    Queue.setReader]
  simp [writer, idx, reader, flag, written, bytes, overwrote, receive, all]

/-- The writer puts `second` into the only chunk when the reader has marked it as read and
has not returned yet. -/
def overtaken (first second : Message) : List Step :=
  writes first ++ (reads ++ overwrites second)

theorem overtaken_returns {first second : Message} {before after main : Bytes}
    {oob : List (Nat × Nat)} (small : overflows ⟨1, size, 1⟩ first = false)
    (wrote : writeMessage ⟨1, size, 1⟩ (List.replicate size 0) first = (before, true))
    (read : readMessage before = some (.views main oob))
    (overwrote : writeMessage ⟨1, size, 1⟩ before second = (after, true)) :
    ∃ queue, run ⟨1, size, 1⟩ (init ⟨1, size, 1⟩) (overtaken first second) = some queue ∧
      queue.enqueued = [first] ∧
      (queue.readers 0).returned = [⟨main, oob.map (view after)⟩] := by
  obtain ⟨written, ranWrites, alone⟩ := writes_first small wrote
  obtain ⟨marked, ranReads, behind⟩ := @reads_first size _ _ _ _ alone read
  obtain ⟨queue, ranOverwrites, enqueued, returned⟩ := overwrites_second behind overwrote
  refine ⟨queue, ?_, enqueued, returned⟩
  rw [overtaken, run_append, ranWrites, bind_some, run_append, ranReads, bind_some, ranOverwrites]

def bufferBytes : Nat := 1048576

def chunkBytes : Nat := 25165824

/-- The pickle of a buffer of one MiB that is filled with one byte. -/
def filled (byte : UInt8) : Message where
  main := [0x80, 0x05, 0x97, 0x2e]
  oob := [List.replicate bufferBytes byte]

theorem filled_inBand (byte : UInt8) : overflows ⟨1, chunkBytes, 1⟩ (filled byte) = false := by
  rw [overflows, totalBytes, filled]
  simp only [map_cons, map_nil, length_replicate, sum_cons, sum_nil]
  decide

theorem filled_writes (data : Bytes) (sized : data.length = chunkBytes) (byte : UInt8) :
    ∃ next, writeMessage ⟨1, chunkBytes, 1⟩ data (filled byte) = (next, true) := by
  apply writeMessage_done sized (filled_inBand byte)
  · change 2 < 2 ^ 16
    decide
  · intro buffer member
    rw [allBuffers, filled, mem_cons, mem_singleton] at member
    cases member with
    | inl main =>
      rw [main]
      change 4 < 2 ^ 32
      decide
    | inr oob =>
      rw [oob, length_replicate]
      decide

end VllmDcu.BroadcastQueue
