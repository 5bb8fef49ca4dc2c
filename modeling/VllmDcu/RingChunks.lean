import VllmDcu.ShmRingBuffer
import Mathlib.Tactic.Ring

/-! The live chunks of the ring buffer lie in one window that is no longer than the buffer, so that no
two of them share a byte. -/
namespace VllmDcu.SingleWriterShmRingBuffer
open ByteBuffers List Option Dict

structure Chunk where
  id : Nat
  start : Int
  size : Int

/-- The bytes of a header at a place of the buffer. -/
def headerAt (self : SingleWriterShmRingBuffer) (bufIdx : Nat) : Int × Int :=
  (byte2int ((self.readBytes bufIdx (bufIdx + mdSize)).take idNbytes),
    byte2int ((self.readBytes bufIdx (bufIdx + mdSize)).drop idNbytes))

/-- The chunks in the order of their ids, from the oldest one on. -/
structure Ring (buffer : SingleWriterShmRingBuffer) (chunks : List Chunk) : Prop where
  positive : 0 < buffer.dataBufferSize
  few : chunks.length < idMax
  idStart : buffer.monotonicIdStart < idMax
  idEnd : buffer.monotonicIdEnd = (buffer.monotonicIdStart + chunks.length) % idMax
  numbered : ∀ k chunk, chunks[k]? = some chunk → chunk.id = (buffer.monotonicIdStart + k) % idMax
  found : ∀ chunk ∈ chunks, ∃ address, buffer.metadata.get? chunk.id = some address ∧
    (buffer.dataBufferSize : Int) ∣ address - chunk.start
  only : ∀ id address, buffer.metadata.get? id = some address → ∃ chunk ∈ chunks, chunk.id = id
  window : buffer.dataBufferStart ≤ buffer.dataBufferEnd ∧
    buffer.dataBufferEnd ≤ buffer.dataBufferStart + buffer.dataBufferSize
  inside : ∀ chunk ∈ chunks, buffer.dataBufferStart ≤ chunk.start ∧
    chunk.start + chunk.size ≤ buffer.dataBufferEnd
  ordered : chunks.Pairwise fun older newer => older.start + older.size ≤ newer.start
  fits : ∀ chunk ∈ chunks, mdSize < chunk.size ∧ chunk.size < idMax ∧
    chunk.start % buffer.dataBufferSize + chunk.size ≤ buffer.dataBufferSize
  headers : ∀ chunk ∈ chunks, buffer.headerAt (chunk.start % buffer.dataBufferSize).toNat =
    ((chunk.id : Int), chunk.size)

/-! Offsets modulo the size of the buffer. -/

variable {size : Nat}

/-- Two chunks of one window share no byte. -/
theorem apart_mod {older newer olderSize newerSize : Int} (before : older + olderSize ≤ newer)
    (window : newer + newerSize ≤ older + size) (place : Int)
    (inOlder : older % size ≤ place ∧ place < older % size + olderSize)
    (inNewer : newer % size ≤ place ∧ place < newer % size + newerSize) : False := by
  have olderParts := Int.mul_ediv_add_emod older size
  have newerParts := Int.mul_ediv_add_emod newer size
  -- the places differ by less than the size, and by a multiple of it
  have gap : (size : Int) * (newer / size) - size * (older / size) =
      size * (newer / size - older / size) := by ring
  have less : (size : Int) * (newer / size - older / size) < size * 1 := by omega
  have more : (size : Int) * 0 < size * (newer / size - older / size) := by omega
  have above := Int.lt_of_mul_lt_mul_left less (Int.natCast_nonneg size)
  have below := Int.lt_of_mul_lt_mul_left more (Int.natCast_nonneg size)
  omega

/-- What is added to the start brings it to the next chunk. -/
theorem advance_mod {start next address : Int} (same : (size : Int) ∣ address - next)
    (after : start ≤ next) (before : next < start + size) :
    start + (address - start) % size = next := by
  obtain ⟨turns, shape⟩ := same
  have split : address - start = (next - start) + size * turns := by omega
  rw [split, Int.add_mul_emod_self_left, Int.emod_eq_of_lt (by omega) (by omega)]
  omega

theorem mod_congr {address next : Int} (same : (size : Int) ∣ address - next) :
    address % size = next % size :=
  Int.emod_eq_emod_iff_emod_sub_eq_zero.mpr (Int.emod_eq_zero_of_dvd same)

variable (self : SingleWriterShmRingBuffer)

theorem reset_fits (size : Int) (positive : 0 < self.dataBufferSize)
    (start : self.dataBufferStart ≤ self.dataBufferEnd)
    (room : self.bufferEndReset size + size - self.dataBufferStart ≤ self.dataBufferSize) :
    self.dataBufferEnd ≤ self.bufferEndReset size ∧
      self.bufferEndReset size % self.dataBufferSize + size ≤ self.dataBufferSize := by
  have parts := Int.mul_ediv_add_emod self.dataBufferEnd self.dataBufferSize
  have below := Int.emod_lt_of_pos self.dataBufferEnd
    (show (0 : Int) < self.dataBufferSize by omega)
  unfold bufferEndReset at room ⊢
  split
  · have next : (self.dataBufferEnd / self.dataBufferSize + 1) * self.dataBufferSize =
        self.dataBufferSize * (self.dataBufferEnd / self.dataBufferSize) + self.dataBufferSize := by
      ring
    rw [Int.mul_emod_left]
    omega
  · exact ⟨Int.le_refl _, by omega⟩

/-! Header bytes. -/

theorem byte2int_int2byte (value : Nat) (bound : value < 2 ^ 31) :
    ∃ bytes, int2byte value = some bytes ∧ bytes.length = idNbytes ∧ byte2int bytes = value := by
  refine ⟨(toBytesBig idNbytes value).reverse, if_pos bound, ?_, ?_⟩
  · rw [length_reverse, toBytesBig_length]
  · rw [byte2int, reverse_reverse, fromBytesBig_toBytesBig idNbytes value (by rw [idNbytes]; omega)]
    exact if_pos bound

/-- A header depends on its eight bytes only. -/
theorem headerAt_congr (next : SingleWriterShmRingBuffer) (bufIdx : Nat)
    (size : next.dataBufferSize = self.dataBufferSize)
    (same : ∀ place, bufIdx ≤ place → place < bufIdx + mdSize → next.buf place = self.buf place) :
    next.headerAt bufIdx = self.headerAt bufIdx := by
  have read : next.readBytes bufIdx (bufIdx + mdSize) = self.readBytes bufIdx (bufIdx + mdSize) := by
    rw [readBytes, size]
    apply map_congr_left
    intro place member
    obtain ⟨i, inside, rfl⟩ := mem_range'.mp member
    exact same _ (by omega) (by omega)
  rw [headerAt, headerAt, read]

theorem setBytes_outside {buf : Nat → UInt8} {start place : Nat} {data : Bytes}
    (outside : place < start ∨ start + data.length ≤ place) :
    setBytes buf start data place = buf place := if_neg (by omega)

/-- What was written is read. -/
theorem read_setBytes (start : Nat) (first second : Bytes) (buf : Nat → UInt8)
    (inside : start + first.length + second.length ≤ self.dataBufferSize)
    (written : self.buf = setBytes (setBytes buf start first) (start + first.length) second) :
    self.readBytes start (start + (first.length + second.length)) = first ++ second := by
  have bound : min (start + (first.length + second.length)) self.dataBufferSize - start =
      first.length + second.length := by omega
  rw [readBytes, bound]
  apply ext_getElem?
  intro k
  rw [getElem?_map]
  by_cases within : k < first.length + second.length
  · rw [getElem?_range' within]
    simp only [map_some, Nat.one_mul, written, setBytes]
    by_cases early : k < first.length
    · rw [if_neg (by omega), if_pos (by omega), getElem?_append_left early,
        show start + k - start = k by omega, getD_eq_getElem?_getD,
        getElem?_eq_getElem early, getD_some]
    · have late : k - first.length < second.length := by omega
      rw [if_pos (by omega), getElem?_append_right (by omega),
        show start + k - (start + first.length) = k - first.length by omega,
        getD_eq_getElem?_getD, getElem?_eq_getElem late, getD_some]
  · rw [getElem?_eq_none (by rw [length_range']; omega), getElem?_eq_none
      (by rw [length_append]; omega)]
    rfl

section Steps
variable {self : SingleWriterShmRingBuffer} {chunks : List Chunk}

theorem writeInt_spec (self : SingleWriterShmRingBuffer) (start value : Nat)
    (inside : start + idNbytes ≤ self.dataBufferSize) :
    (value < idMax → ∃ bytes, bytes.length = idNbytes ∧ byte2int bytes = value ∧
      self.writeInt start value = .ok { self with buf := setBytes self.buf start bytes }) ∧
    (¬ value < idMax → self.writeInt start value = .error .overflowError) := by
  constructor
  · intro bound
    obtain ⟨bytes, made, length, read⟩ := byte2int_int2byte value bound
    have written : self.writeBytes start bytes =
        some { self with buf := setBytes self.buf start bytes } := if_pos (by omega)
    refine ⟨bytes, length, read, ?_⟩
    rw [writeInt, made]
    simp only [written]
  · intro large
    have refused : int2byte (value : Int) = none := if_neg large
    rw [writeInt, refused]

/-- The header ends up in its place; nothing else changes. -/
theorem writeHeader_spec (self : SingleWriterShmRingBuffer) (bufIdx size : Nat)
    (numbered : self.monotonicIdEnd < idMax) (inside : bufIdx + mdSize ≤ self.dataBufferSize) :
    ∃ buf, (∀ place, place < bufIdx ∨ bufIdx + mdSize ≤ place → buf place = self.buf place) ∧
      (self.writeHeader bufIdx size = ({ self with buf := buf }, .error .overflowError) ∧
          ¬ size < idMax ∨
        self.writeHeader bufIdx size = ({ self with buf := buf }, .ok ()) ∧ size < idMax ∧
          { self with buf := buf }.headerAt bufIdx = ((self.monotonicIdEnd : Int), (size : Int))) := by
  obtain ⟨idBytes, idLength, idRead, idWritten⟩ :=
    (writeInt_spec self bufIdx self.monotonicIdEnd (by unfold mdSize at inside; omega)).1 numbered
  have second := writeInt_spec { self with buf := setBytes self.buf bufIdx idBytes }
    (bufIdx + idNbytes) size (by unfold mdSize sizeNbytes idNbytes at *; simp only; omega)
  unfold writeHeader
  rw [idWritten]
  by_cases fits : size < idMax
  · obtain ⟨sizeBytes, sizeLength, sizeRead, sizeWritten⟩ := second.1 fits
    refine ⟨setBytes (setBytes self.buf bufIdx idBytes) (bufIdx + idNbytes) sizeBytes, ?_, ?_⟩
    · intro place outside
      unfold mdSize sizeNbytes at outside
      unfold idNbytes at *
      rw [setBytes_outside (by omega), setBytes_outside (by omega)]
    · right
      simp only [sizeWritten]
      refine ⟨trivial, fits, ?_⟩
      have read := read_setBytes { self with
        buf := setBytes (setBytes self.buf bufIdx idBytes) (bufIdx + idBytes.length) sizeBytes }
        bufIdx idBytes sizeBytes self.buf
        (by unfold mdSize sizeNbytes idNbytes at *; simp only; omega) rfl
      rw [idLength, sizeLength] at read
      unfold headerAt mdSize sizeNbytes
      unfold idNbytes at *
      rw [read, take_left' idLength, drop_left' idLength, idRead, sizeRead]
  · refine ⟨setBytes self.buf bufIdx idBytes, ?_, Or.inl ⟨?_, fits⟩⟩
    · intro place outside
      apply setBytes_outside
      unfold mdSize sizeNbytes at outside
      omega
    · simp only [second.2 fits]

section
variable (ring : Ring self chunks)
include ring

/-- Bytes outside of the headers may change. -/
theorem Ring.buffer (buf : Nat → UInt8)
    (same : ∀ chunk ∈ chunks, ∀ place, (chunk.start % self.dataBufferSize).toNat ≤ place →
      place < (chunk.start % self.dataBufferSize).toNat + mdSize → buf place = self.buf place) :
    Ring { self with buf := buf } chunks :=
  { ring with
    headers := fun chunk member => by
      rw [← ring.headers chunk member]
      exact headerAt_congr self { self with buf := buf } _ rfl (same chunk member) }

/-- The end may move on in the window. -/
theorem Ring.endMoved (newEnd : Int) (after : self.dataBufferEnd ≤ newEnd)
    (within : newEnd ≤ self.dataBufferStart + self.dataBufferSize) :
    Ring { self with dataBufferEnd := newEnd } chunks :=
  { ring with
    window := ⟨le_trans ring.window.1 after, within⟩
    inside := fun chunk member =>
      ⟨(ring.inside chunk member).1, le_trans (ring.inside chunk member).2 after⟩ }

theorem Ring.member_id (chunk : Chunk) (member : chunk ∈ chunks) :
    ∃ k < chunks.length, chunk.id = (self.monotonicIdStart + k) % idMax := by
  obtain ⟨k, bound, rfl⟩ := mem_iff_getElem.mp member
  exact ⟨k, bound, ring.numbered k _ (getElem?_eq_getElem bound)⟩

/-- The next id is not in use. -/
theorem Ring.fresh : self.metadata.get? self.monotonicIdEnd = none := by
  cases found : self.metadata.get? self.monotonicIdEnd with
  | none => rfl
  | some address =>
    obtain ⟨chunk, member, same⟩ := ring.only _ _ found
    obtain ⟨k, bound, number⟩ := ring.member_id chunk member
    have few := ring.few
    rw [ring.idEnd] at same
    unfold idMax at *
    omega

end

/-- Each chunk takes its room in the window. -/
theorem chunks_room (chunks : List Chunk) (start stop least : Int) (ordered : start ≤ stop)
    (inside : ∀ chunk ∈ chunks, start ≤ chunk.start ∧ chunk.start + chunk.size ≤ stop)
    (apart : chunks.Pairwise fun older newer => older.start + older.size ≤ newer.start)
    (large : ∀ chunk ∈ chunks, least ≤ chunk.size) :
    start + least * chunks.length ≤ stop := by
  induction chunks generalizing start with
  | nil => simpa using ordered
  | cons chunk rest ih =>
    obtain ⟨first, others⟩ := pairwise_cons.mp apart
    have own := inside chunk mem_cons_self
    have enough := large chunk mem_cons_self
    have tail := ih (chunk.start + chunk.size) own.2
      (fun other member => ⟨first other member, (inside other (mem_cons_of_mem _ member)).2⟩)
      others (fun other member => large other (mem_cons_of_mem _ member))
    rw [length_cons]
    push_cast
    rw [Int.mul_add]
    omega

section
variable (ring : Ring self chunks)
include ring

theorem Ring.room :
    self.dataBufferStart + (mdSize + 1 : Nat) * chunks.length ≤ self.dataBufferEnd := by
  apply chunks_room chunks _ _ _ ring.window.1 ring.inside ring.ordered
  intro chunk member
  have := (ring.fits chunk member).1
  omega

theorem Ring.entries_length : self.metadata.entries.length = chunks.length := by
  have distinct : (chunks.map Chunk.id).Nodup := by
    rw [nodup_iff_getElem?_ne_getElem?]
    intro i j less bound same
    rw [length_map] at bound
    rw [getElem?_map, getElem?_map, getElem?_eq_getElem (by omega),
      getElem?_eq_getElem bound] at same
    have first := ring.numbered i _ (getElem?_eq_getElem (by omega))
    have second := ring.numbered j _ (getElem?_eq_getElem bound)
    have equal := some.inj same
    have few := ring.few
    unfold idMax at *
    omega
  have perm : (self.metadata.entries.map Prod.fst).Perm (chunks.map Chunk.id) := by
    rw [perm_ext_iff_of_nodup self.metadata.unique distinct]
    intro id
    rw [show id ∈ self.metadata.entries.map Prod.fst ↔ _ from mem_keys_iff self.metadata id,
      List.mem_map]
    constructor
    · rintro ⟨address, found⟩
      exact ring.only id address found
    · rintro ⟨chunk, member, rfl⟩
      obtain ⟨address, found, -⟩ := ring.found chunk member
      exact ⟨address, found⟩
  have lengths := perm.length_eq
  rwa [length_map, length_map] at lengths

/-- A chunk at the end of the window, with its header in place. -/
theorem Ring.added (size : Int) (few : chunks.length + 1 < idMax)
    (large : mdSize < size) (bound : size < idMax)
    (fits : self.dataBufferEnd % self.dataBufferSize + size ≤ self.dataBufferSize)
    (window : self.dataBufferEnd + size ≤ self.dataBufferStart + self.dataBufferSize)
    (header : self.headerAt (self.dataBufferEnd % self.dataBufferSize).toNat =
      ((self.monotonicIdEnd : Int), size)) :
    Ring { self with
      metadata := self.metadata.set (self.monotonicIdEnd % idMax) self.dataBufferEnd
      dataBufferEnd := self.dataBufferEnd + size
      monotonicIdEnd := (self.monotonicIdEnd + 1) % idMax }
      (chunks ++ [⟨self.monotonicIdEnd, self.dataBufferEnd, size⟩]) := by
  have ended : self.monotonicIdEnd % idMax = self.monotonicIdEnd := by
    rw [ring.idEnd, Nat.mod_mod]
  have fresh := ring.fresh
  rw [ended]
  have other (chunk : Chunk) (member : chunk ∈ chunks) : chunk.id ≠ self.monotonicIdEnd := by
    intro same
    obtain ⟨address, found, -⟩ := ring.found chunk member
    rw [same, fresh] at found
    contradiction
  constructor
  · exact ring.positive
  · rw [length_append]
    exact few
  · exact ring.idStart
  · rw [length_append, length_singleton, ring.idEnd, Nat.mod_add_mod, Nat.add_assoc]
  · intro k chunk listed
    by_cases last : k < chunks.length
    · rw [getElem?_append_left last] at listed
      exact ring.numbered k chunk listed
    · rw [getElem?_append_right (by omega)] at listed
      rw [getElem?_singleton] at listed
      split at listed
      · cases listed
        have equal : k = chunks.length := by omega
        rw [equal]
        exact ring.idEnd
      · contradiction
  · intro chunk member
    rcases mem_append.mp member with old | new
    · obtain ⟨address, found, same⟩ := ring.found chunk old
      refine ⟨address, ?_, same⟩
      rw [get?_set, if_neg (other chunk old)]
      exact found
    · obtain rfl := mem_singleton.mp new
      refine ⟨self.dataBufferEnd, ?_, by simp⟩
      rw [get?_set, if_pos rfl]
  · intro id address found
    simp only [get?_set] at found
    by_cases same : id = self.monotonicIdEnd
    · exact ⟨_, mem_append_right _ (mem_singleton_self _), same.symm⟩
    · rw [if_neg same] at found
      obtain ⟨chunk, member, named⟩ := ring.only id address found
      exact ⟨chunk, mem_append_left _ member, named⟩
  · have := ring.window
    exact ⟨by simp only; omega, window⟩
  · intro chunk member
    rcases mem_append.mp member with old | new
    · have := ring.inside chunk old
      exact ⟨this.1, by simp only; omega⟩
    · obtain rfl := mem_singleton.mp new
      exact ⟨ring.window.1, Int.le_refl _⟩
  · rw [pairwise_append]
    refine ⟨ring.ordered, pairwise_singleton _ _, ?_⟩
    intro chunk old newer new
    obtain rfl := mem_singleton.mp new
    exact (ring.inside chunk old).2
  · intro chunk member
    rcases mem_append.mp member with old | new
    · exact ring.fits chunk old
    · obtain rfl := mem_singleton.mp new
      exact ⟨large, bound, fits⟩
  · intro chunk member
    rcases mem_append.mp member with old | new
    · exact ring.headers chunk old
    · obtain rfl := mem_singleton.mp new
      exact header

/-- What `allocate_buf` does: nothing, or a header of a chunk that is not used, or a chunk. -/
theorem allocateBuf_spec (size : Int) :
    (∃ error, self.allocateBuf size = (self, .error error) ∧ error ≠ .overflowError) ∨
    (∃ next, self.allocateBuf size = (next, .error .overflowError) ∧ Ring next chunks ∧
      next.dataBufferSize = self.dataBufferSize) ∨
    ∃ next address, self.allocateBuf size = (next, .ok (address, self.monotonicIdEnd)) ∧
      next.dataBufferSize = self.dataBufferSize ∧
      next.metadata.entries.length = self.metadata.entries.length + 1 ∧
      (mdSize + 1) * (chunks.length + 1) ≤ self.dataBufferSize ∧
      (chunks.length + 1 < idMax →
        Ring next (chunks ++ [⟨self.monotonicIdEnd, address, size + mdSize⟩])) := by
  unfold allocateBuf
  by_cases empty : size ≤ 0
  · rw [if_pos empty]
    exact Or.inl ⟨_, rfl, by simp⟩
  · rw [if_neg empty]
    simp only
    by_cases noRoom : self.bufferEndReset (size + mdSize) + (size + mdSize) - self.dataBufferStart >
        self.dataBufferSize
    · rw [if_pos noRoom]
      exact Or.inl ⟨_, rfl, by simp⟩
    · rw [if_neg noRoom]
      right
      have positive := ring.positive
      obtain ⟨after, fits⟩ := reset_fits self (size + mdSize) positive ring.window.1 (by omega)
      have room := ring.room
      generalize self.bufferEndReset (size + mdSize) = newEnd at noRoom after fits
      obtain ⟨total, whole⟩ := Int.eq_ofNat_of_zero_le (show 0 ≤ size + mdSize by omega)
      rw [whole] at noRoom fits ⊢
      have moved := ring.endMoved newEnd after (by omega)
      have place := Int.emod_nonneg newEnd (show (self.dataBufferSize : Int) ≠ 0 by omega)
      have numbered : self.monotonicIdEnd < idMax := by
        rw [ring.idEnd]
        exact Nat.mod_lt _ (by unfold idMax; omega)
      obtain ⟨buf, frame, outcome⟩ := writeHeader_spec { self with dataBufferEnd := newEnd }
        (newEnd % self.dataBufferSize).toNat total numbered (by simp only; omega)
      -- the new header touches no header of a live chunk
      have rewritten : Ring { self with dataBufferEnd := newEnd, buf := buf } chunks := by
        apply moved.buffer buf
        intro chunk member byte low high
        apply frame
        by_contra inHeader
        have own := ring.inside chunk member
        have large := (ring.fits chunk member).1
        have chunkPlace := Int.emod_nonneg chunk.start
          (show (self.dataBufferSize : Int) ≠ 0 by omega)
        simp only at low high inHeader
        exact @apart_mod self.dataBufferSize chunk.start newEnd chunk.size total
          (by omega) (by omega) byte (by omega) (by omega)
      rcases outcome with ⟨refused, -⟩ | ⟨written, bound, header⟩
      · rw [refused]
        exact Or.inl ⟨_, rfl, rewritten, rfl⟩
      · rw [written]
        right
        refine ⟨_, newEnd, rfl, rfl, ?_, ?_, ?_⟩
        · have ended : self.monotonicIdEnd % idMax = self.monotonicIdEnd := Nat.mod_eq_of_lt numbered
          have absent : self.monotonicIdEnd ∉ self.metadata.entries.map Prod.fst := by
            intro member
            obtain ⟨address, found⟩ := (mem_keys_iff self.metadata _).mp member
            rw [ring.fresh] at found
            contradiction
          have keys := congrArg length
            (assign_keys self.metadata.entries self.monotonicIdEnd newEnd)
          rw [if_neg absent, length_append, length_map, length_map] at keys
          simp only [ended]
          exact keys
        · have : ((mdSize + 1 : Nat) : Int) * (chunks.length + 1) =
              (mdSize + 1 : Nat) * chunks.length + (mdSize + 1 : Nat) := by ring
          have : ((mdSize + 1 : Nat) : Int) * (chunks.length + 1) ≤ self.dataBufferSize := by omega
          exact_mod_cast this
        · intro few
          exact rewritten.added total few (by omega) (by omega) fits (by simp only; omega) header

end

/-! Freeing. -/

variable {chunk : Chunk}

section
variable (ring : Ring self (chunk :: chunks))
include ring

theorem Ring.head_id : chunk.id = self.monotonicIdStart := by
  rw [ring.numbered 0 chunk rfl, Nat.add_zero, Nat.mod_eq_of_lt ring.idStart]

/-- The other chunks are still numbered in their order. -/
theorem Ring.numbered_rest (k : Nat) (other : Chunk) (listed : chunks[k]? = some other) :
    other.id = ((self.monotonicIdStart + 1) % idMax + k) % idMax := by
  rw [ring.numbered (k + 1) other listed, Nat.mod_add_mod, Nat.add_right_comm, Nat.add_assoc]

theorem Ring.rest_ne (other : Chunk)
    (member : other ∈ chunks) : other.id ≠ self.monotonicIdStart := by
  obtain ⟨k, bound, rfl⟩ := mem_iff_getElem.mp member
  have number := ring.numbered (k + 1) chunks[k] (getElem?_eq_getElem bound)
  have few := ring.few
  rw [length_cons] at few
  unfold idMax at *
  omega

/-- The start and the end after the oldest chunk is gone. -/
theorem Ring.advanced (ends : Int × Int)
    (moved : self.endsAfter (self.metadata.erase self.monotonicIdStart)
      ((self.monotonicIdStart + 1) % idMax) = ends) :
    ends.1 ≤ ends.2 ∧ ends.2 ≤ ends.1 + self.dataBufferSize ∧
      ∀ other ∈ chunks, ends.1 ≤ other.start ∧ other.start + other.size ≤ ends.2 := by
  cases chunks with
  | nil =>
    have nothing : (self.metadata.erase self.monotonicIdStart).get?
        ((self.monotonicIdStart + 1) % idMax) = none := by
      rw [get?_erase]
      split
      · rfl
      · rename_i differs
        cases found : self.metadata.get? ((self.monotonicIdStart + 1) % idMax) with
        | none => rfl
        | some address =>
          obtain ⟨other, member, named⟩ := ring.only _ _ found
          rw [mem_singleton.mp member, ring.head_id] at named
          exact absurd named.symm differs
    rw [endsAfter, nothing] at moved
    subst moved
    exact ⟨Int.le_refl 0, by simp only; omega, fun other member => absurd member not_mem_nil⟩
  | cons next rest =>
    have nextNamed : next.id = (self.monotonicIdStart + 1) % idMax := ring.numbered 1 next rfl
    obtain ⟨address, found, same⟩ := ring.found next (by simp)
    have remains : (self.metadata.erase self.monotonicIdStart).get?
        ((self.monotonicIdStart + 1) % idMax) = some address := by
      rw [get?_erase, ← nextNamed, if_neg (ring.rest_ne next mem_cons_self)]
      exact found
    rw [endsAfter, remains] at moved
    subst moved
    have window := ring.window
    have inWindow := ring.inside next (by simp)
    have large := (ring.fits next (by simp)).1
    simp only
    rw [advance_mod same inWindow.1 (by omega)]
    refine ⟨by omega, by omega, ?_⟩
    intro other member
    refine ⟨?_, (ring.inside other (mem_cons_of_mem _ member)).2⟩
    rcases mem_cons.mp member with rfl | later
    · exact Int.le_refl _
    · have ordered := (pairwise_cons.mp (pairwise_cons.mp ring.ordered).2).1 other later
      omega

theorem Ring.freed (newStart newEnd : Int)
    (window : newStart ≤ newEnd ∧ newEnd ≤ newStart + self.dataBufferSize)
    (inside : ∀ other ∈ chunks, newStart ≤ other.start ∧ other.start + other.size ≤ newEnd) :
    Ring { self with
      metadata := self.metadata.erase self.monotonicIdStart
      monotonicIdStart := (self.monotonicIdStart + 1) % idMax
      dataBufferStart := newStart, dataBufferEnd := newEnd } chunks where
  positive := ring.positive
  few := Nat.lt_of_succ_lt ring.few
  idStart := Nat.mod_lt _ (by unfold idMax; omega)
  idEnd := by
    rw [ring.idEnd, length_cons, Nat.mod_add_mod, Nat.add_right_comm, Nat.add_assoc]
  numbered := ring.numbered_rest
  found other member := by
    obtain ⟨address, found, same⟩ := ring.found other (mem_cons_of_mem _ member)
    refine ⟨address, ?_, same⟩
    rw [get?_erase, if_neg (ring.rest_ne other member)]
    exact found
  only id address found := by
    simp only [get?_erase] at found
    split at found
    · contradiction
    · rename_i differs
      obtain ⟨other, member, named⟩ := ring.only id address found
      rcases mem_cons.mp member with rfl | later
      · exact absurd (named.symm.trans ring.head_id) differs
      · exact ⟨other, later, named⟩
  window := window
  inside := inside
  ordered := (pairwise_cons.mp ring.ordered).2
  fits other member := ring.fits other (mem_cons_of_mem _ member)
  headers other member := ring.headers other (mem_cons_of_mem _ member)

end

theorem Ring.stays (ring : Ring self chunks) :
    self.monotonicIdStart = (self.monotonicIdStart + 0) % idMax := by
  rw [Nat.add_zero, Nat.mod_eq_of_lt ring.idStart]

/-- The loop takes chunks from the front, as many as it can. -/
theorem freeLoop_spec (isFreeFn : Nat → Bytes → Bool) (nbytes freedBytes : Int)
    (ring : Ring self chunks) :
    ∃ n ≤ chunks.length, Ring (freeLoop isFreeFn nbytes self freedBytes) (chunks.drop n) ∧
      (freeLoop isFreeFn nbytes self freedBytes).monotonicIdStart =
        (self.monotonicIdStart + n) % idMax ∧
      (freeLoop isFreeFn nbytes self freedBytes).dataBufferSize = self.dataBufferSize := by
  induction chunks generalizing self freedBytes with
  | nil =>
    have nothing : self.metadata.get? self.monotonicIdStart = none := by
      cases found : self.metadata.get? self.monotonicIdStart with
      | none => rfl
      | some address =>
        obtain ⟨other, member, -⟩ := ring.only _ _ found
        exact absurd member not_mem_nil
    have ended : freeLoop isFreeFn nbytes self freedBytes = self := by
      rw [freeLoop]
      split
      · rfl
      · rename_i address found
        rw [nothing] at found
        contradiction
    rw [ended]
    exact ⟨0, Nat.le_refl 0, ring, ring.stays, rfl⟩
  | cons chunk rest ih =>
    rw [freeLoop]
    split
    · exact ⟨0, Nat.zero_le _, ring, ring.stays, rfl⟩
    · rename_i address found
      split
      · simp only
        split
        · obtain ⟨low, high, inside⟩ := ring.advanced _ rfl
          have next := ring.freed _ _ ⟨low, high⟩ inside
          obtain ⟨n, bound, kept, idStart, size⟩ := ih
            (freedBytes + (self.accessBuf address).2.2) next
          refine ⟨n + 1, Nat.succ_le_succ bound, kept, ?_, size⟩
          rw [idStart, Nat.mod_add_mod, Nat.add_right_comm, Nat.add_assoc]
        · exact ⟨0, Nat.zero_le _, ring, ring.stays, rfl⟩
      · exact ⟨0, Nat.zero_le _, ring, ring.stays, rfl⟩

end Steps

end VllmDcu.SingleWriterShmRingBuffer
