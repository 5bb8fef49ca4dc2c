import VllmDcu.RingChunks

/-! Runs of the ring buffer, as long as there are fewer chunks than ids. -/
namespace VllmDcu.SingleWriterShmRingBuffer
open ByteBuffers List Option Function Dict

variable {self : SingleWriterShmRingBuffer} {chunks : List Chunk}

/-- Both offsets go back by the size of the buffer. -/
theorem Ring.wrapped (ring : Ring self chunks) :
    ∃ others : List Chunk, Ring (wrapAround self) others ∧
      others.map Chunk.id = chunks.map Chunk.id ∧
      others.map Chunk.size = chunks.map Chunk.size := by
  unfold wrapAround
  split
  · let back (chunk : Chunk) : Chunk := { chunk with start := chunk.start - self.dataBufferSize }
    have place (chunk : Chunk) : (chunk.start - self.dataBufferSize) % self.dataBufferSize =
        chunk.start % self.dataBufferSize := Int.sub_emod_right _ _
    refine ⟨chunks.map back, ?_, ?_, ?_⟩
    · constructor
      · exact ring.positive
      · rw [length_map]
        exact ring.few
      · exact ring.idStart
      · rw [length_map]
        exact ring.idEnd
      · intro k chunk listed
        rw [getElem?_map] at listed
        obtain ⟨old, oldListed, rfl⟩ := map_eq_some_iff.mp listed
        exact ring.numbered k old oldListed
      · intro chunk member
        obtain ⟨old, oldMember, rfl⟩ := List.mem_map.mp member
        obtain ⟨address, found, same⟩ := ring.found old oldMember
        refine ⟨address, found, ?_⟩
        have shift : address - (back old).start = address - old.start + self.dataBufferSize := by
          simp only [back]
          omega
        rw [shift]
        exact Int.dvd_add same (Int.dvd_refl _)
      · intro id address found
        obtain ⟨old, oldMember, named⟩ := ring.only id address found
        exact ⟨back old, List.mem_map_of_mem oldMember, named⟩
      · have := ring.window
        constructor
        · simp only
          omega
        · simp only
          omega
      · intro chunk member
        obtain ⟨old, oldMember, rfl⟩ := List.mem_map.mp member
        have := ring.inside old oldMember
        simp only [back]
        omega
      · rw [pairwise_map]
        apply ring.ordered.imp
        simp only [back]
        omega
      · intro chunk member
        obtain ⟨old, oldMember, rfl⟩ := List.mem_map.mp member
        simp only [back, place]
        exact ring.fits old oldMember
      · intro chunk member
        obtain ⟨old, oldMember, rfl⟩ := List.mem_map.mp member
        simp only [back, place]
        exact ring.headers old oldMember
    · rw [List.map_map]
      rfl
    · rw [List.map_map]
      rfl
  · exact ⟨chunks, ring, rfl, rfl⟩

theorem idRange_eq (before n : Nat) (start : before < idMax) (few : n < idMax) :
    idRange before ((before + n) % idMax) = (List.range n).map fun k => (before + k) % idMax := by
  unfold idRange
  apply ext_getElem?
  intro k
  rw [getElem?_map]
  by_cases around : before + n < idMax
  · rw [Nat.mod_eq_of_lt around, if_pos (by omega)]
    by_cases inside : k < n
    · rw [getElem?_range' (by omega), getElem?_range inside, map_some,
        Nat.mod_eq_of_lt (by omega), Nat.one_mul]
    · rw [getElem?_eq_none (by rw [length_range']; omega),
        getElem?_eq_none (by rw [length_range]; omega), map_none]
  · have wrapped : (before + n) % idMax = before + n - idMax := by
      rw [Nat.mod_eq_sub_mod (by omega), Nat.mod_eq_of_lt (by omega)]
    rw [if_neg (by omega)]
    by_cases early : k < idMax - before
    · rw [getElem?_append_left (by rw [length_range']; exact early),
        getElem?_range' early, getElem?_range (by omega), map_some,
        Nat.mod_eq_of_lt (by omega), Nat.one_mul]
    · rw [getElem?_append_right (by rw [length_range']; omega), length_range']
      by_cases inside : k < n
      · have entry : k - (idMax - before) = (before + k) % idMax := by
          unfold idMax at *
          omega
        rw [getElem?_range (by omega), getElem?_range inside, map_some, entry]
      · rw [getElem?_eq_none (by rw [length_range]; omega),
          getElem?_eq_none (by rw [length_range]; omega), map_none]

theorem Ring.ids (ring : Ring self chunks) : chunks.map Chunk.id =
    (List.range chunks.length).map fun k => (self.monotonicIdStart + k) % idMax := by
  apply ext_getElem?
  intro k
  rw [getElem?_map, getElem?_map]
  by_cases inside : k < chunks.length
  · rw [getElem?_eq_getElem inside, getElem?_range inside]
    exact congrArg some (ring.numbered k _ (getElem?_eq_getElem inside))
  · rw [getElem?_eq_none (by omega), getElem?_eq_none (by rw [length_range]; omega)]
    rfl

theorem Ring.liveIds (ring : Ring self chunks) : self.liveIds = chunks.map Chunk.id := by
  have count : (self.monotonicIdEnd + idMax - self.monotonicIdStart) % idMax = chunks.length := by
    have few := ring.few
    have start := ring.idStart
    rw [ring.idEnd]
    unfold idMax at *
    omega
  rw [ring.ids, SingleWriterShmRingBuffer.liveIds, count]

/-- `free_buf` takes chunks from the front and returns their ids. -/
theorem freeBuf_spec (ring : Ring self chunks) {isFreeFn : Nat → Bytes → Bool}
    {nbytes : Option Int} :
    ∃ n ≤ chunks.length, ∃ others : List Chunk, Ring (self.freeBuf isFreeFn nbytes).1 others ∧
      others.map Chunk.id = (chunks.drop n).map Chunk.id ∧
      others.map Chunk.size = (chunks.drop n).map Chunk.size ∧
      (self.freeBuf isFreeFn nbytes).2 = (chunks.take n).map Chunk.id := by
  obtain ⟨n, bound, kept, idStart, -⟩ :=
    freeLoop_spec isFreeFn (nbytes.getD self.dataBufferSize) 0 ring
  obtain ⟨others, wrapped, ids, sizes⟩ := kept.wrapped
  refine ⟨n, bound, others, wrapped, ids, sizes, ?_⟩
  rw [freeBuf, map_take, ring.ids]
  simp only [idStart]
  rw [idRange_eq _ n ring.idStart (by have := ring.few; omega), ← map_take, take_range,
    Nat.min_eq_left bound]

/-! Sessions. -/

/-- The chunks have the sizes that were asked for. -/
structure Session.Kept (session : Session) (chunks : List Chunk) : Prop where
  ring : Ring session.buffer chunks
  sizes : ∀ chunk ∈ chunks, session.sizes chunk.id = chunk.size

/-- In every state that the run reaches there are fewer chunks than ids. -/
def FewChunks : Session → List Call → Prop
  | _, [] => True
  | session, call :: rest =>
    (session.step call).buffer.metadata.entries.length < idMax ∧ FewChunks (session.step call) rest

theorem sizes_of_maps {others before : List Chunk} {sizes : Nat → Int}
    (ids : others.map Chunk.id = before.map Chunk.id)
    (same : others.map Chunk.size = before.map Chunk.size)
    (kept : ∀ chunk ∈ before, sizes chunk.id = chunk.size) :
    ∀ chunk ∈ others, sizes chunk.id = chunk.size := by
  intro chunk member
  obtain ⟨k, bound, rfl⟩ := mem_iff_getElem.mp member
  have length : others.length = before.length := by
    have := congrArg length ids
    rwa [length_map, length_map] at this
  have id := congrArg (·[k]?) ids
  have size := congrArg (·[k]?) same
  simp only [getElem?_map, getElem?_eq_getElem bound,
    getElem?_eq_getElem (length ▸ bound), map_some, some.injEq] at id size
  rw [id, size]
  exact kept _ (getElem_mem _)

/-- A byte of the data is in no header. -/
theorem Ring.filled (ring : Ring self chunks) (id offset : Nat) (byte : UInt8) :
    Ring (self.fill id offset byte) chunks := by
  unfold fill
  cases found : self.metadata.get? id with
  | none => exact ring
  | some address =>
    simp only
    split
    · obtain ⟨own, member, named⟩ := ring.only id address found
      obtain ⟨other, otherFound, same⟩ := ring.found own member
      rw [named, found] at otherFound
      cases otherFound
      have place := mod_congr same
      have header := ring.headers own member
      have positive := ring.positive
      have ownPlace := Int.emod_nonneg own.start (show (self.dataBufferSize : Int) ≠ 0 by omega)
      -- the view ends with the chunk
      have size : (self.accessBuf address).2.2 = own.size := by
        have := congrArg Prod.snd header
        rw [← place] at this
        exact this
      have view : (self.accessBuf address).1.length ≤ (own.size - mdSize).toNat := by
        have length : (self.accessBuf address).1.length =
            min ((address % self.dataBufferSize).toNat + (self.accessBuf address).2.2).toNat
              self.dataBufferSize - ((address % self.dataBufferSize).toNat + mdSize) := by
          simp only [accessBuf, readBytes, length_map, length_range']
        omega
      apply ring.buffer
      intro chunk listed at_ low high
      apply update_of_ne
      intro equal
      have largeChunk := (ring.fits chunk listed).1
      obtain ⟨i, iBound, rfl⟩ := mem_iff_getElem.mp member
      obtain ⟨j, jBound, rfl⟩ := mem_iff_getElem.mp listed
      have apart := pairwise_iff_getElem.mp ring.ordered
      have inOwn := ring.inside _ member
      have inChunk := ring.inside _ listed
      have window := ring.window
      rcases Nat.lt_trichotomy i j with less | same | more
      · have before := apart i j iBound jBound less
        exact @apart_mod self.dataBufferSize chunks[i].start chunks[j].start chunks[i].size
          chunks[j].size before (by omega) at_ (by omega) (by omega)
      · subst same
        omega
      · have before := apart j i jBound iBound more
        exact @apart_mod self.dataBufferSize chunks[j].start chunks[i].start chunks[j].size
          chunks[i].size before (by omega) at_ (by omega) (by omega)
    · exact ring

theorem Ring.cleared (positive : 0 < self.dataBufferSize) : Ring self.clear [] := by
  constructor
  · exact positive
  · exact Nat.two_pow_pos 31
  · exact Nat.two_pow_pos 31
  · exact (Nat.zero_mod _).symm
  · intro k chunk listed
    contradiction
  · exact fun _ member => absurd member not_mem_nil
  · intro id address found
    contradiction
  · exact ⟨Int.le_refl 0, by simp [clear]⟩
  · exact fun _ member => absurd member not_mem_nil
  · exact List.Pairwise.nil
  · exact fun _ member => absurd member not_mem_nil
  · exact fun _ member => absurd member not_mem_nil

theorem step_kept (session : Session) (kept : session.Kept chunks) (call : Call)
    (few : session.buffer.dataBufferSize < (mdSize + 1) * idMax ∨
      (session.step call).buffer.metadata.entries.length < idMax) :
    (∃ others, (session.step call).Kept others) ∧
      (session.step call).buffer.dataBufferSize = session.buffer.dataBufferSize := by
  have ring := kept.ring
  cases call with
  | allocate size =>
    rw [Session.step] at few ⊢
    rcases allocateBuf_spec ring size with ⟨error, refused, -⟩ | ⟨next, refused, same, length⟩ |
      ⟨next, address, made, length, entries, room, grown⟩
    · simp only [refused]
      exact ⟨⟨chunks, ring, kept.sizes⟩, trivial⟩
    · simp only [refused]
      exact ⟨⟨chunks, same, kept.sizes⟩, length⟩
    · simp only [made] at few ⊢
      have bound : chunks.length + 1 < idMax := by
        rcases few with small | counted
        · exact Nat.lt_of_mul_lt_mul_left (Nat.lt_of_le_of_lt room small)
        · rwa [entries, ring.entries_length] at counted
      refine ⟨⟨_, grown bound, ?_⟩, length⟩
      intro chunk member
      simp only
      rcases mem_append.mp member with old | new
      · obtain ⟨other, found, -⟩ := ring.found chunk old
        have differs : chunk.id ≠ session.buffer.monotonicIdEnd := by
          intro same
          rw [same, ring.fresh] at found
          contradiction
        rw [update_of_ne differs]
        exact kept.sizes chunk old
      · obtain rfl := mem_singleton.mp new
        exact update_self _ _ _
  | free isFreeFn nbytes =>
    obtain ⟨n, _, others, freed, ids, sizes, -⟩ := freeBuf_spec ring
    obtain ⟨_, _, _, _, size⟩ := freeLoop_spec isFreeFn
      (nbytes.getD session.buffer.dataBufferSize) 0 ring
    refine ⟨⟨others, freed, sizes_of_maps ids sizes ?_⟩, ?_⟩
    · exact fun chunk member => kept.sizes chunk (mem_of_mem_drop member)
    · rw [Session.step, freeBuf]
      rw [wrapAround]
      split
      · exact size
      · exact size
  | fill id offset byte =>
    refine ⟨⟨chunks, ring.filled id offset byte, kept.sizes⟩, ?_⟩
    rw [Session.step, fill]
    split
    · rfl
    · split
      · rfl
      · rfl
  | clear =>
    exact ⟨⟨[], Ring.cleared ring.positive, fun _ member => absurd member not_mem_nil⟩, rfl⟩

theorem init_kept (dataBufferSize : Nat) (buf : Nat → UInt8) (positive : 0 < dataBufferSize) :
    (Session.init dataBufferSize buf).Kept [] :=
  ⟨@Ring.cleared (.init dataBufferSize buf) positive, fun _ member => absurd member not_mem_nil⟩

theorem run_kept (session : Session) (kept : session.Kept chunks) (calls : List Call)
    (few : session.buffer.dataBufferSize < (mdSize + 1) * idMax ∨ FewChunks session calls) :
    ∃ others, (session.run calls).Kept others := by
  induction calls generalizing session chunks with
  | nil => exact ⟨chunks, kept⟩
  | cons call rest ih =>
    obtain ⟨⟨others, next⟩, size⟩ := step_kept session kept call (few.imp_right And.left)
    apply ih (session.step call) next
    rw [size]
    exact few.imp_right And.right

/-- The ids are the live ones; each chunk is in the buffer under its own header, and shares no byte
with another. -/
structure Sound (session : Session) : Prop where
  ids : ∀ id, (∃ address, session.buffer.metadata.get? id = some address) ↔
    id ∈ session.buffer.liveIds
  headers : ∀ id address, session.buffer.metadata.get? id = some address →
    (session.buffer.accessBuf address).2 = ((id : Int), session.sizes id)
  within : ∀ id address, session.buffer.metadata.get? id = some address →
    mdSize < session.sizes id ∧ 0 ≤ address % session.buffer.dataBufferSize ∧
      address % session.buffer.dataBufferSize + session.sizes id ≤ session.buffer.dataBufferSize
  apart : ∀ id address other otherAddress, session.buffer.metadata.get? id = some address →
    session.buffer.metadata.get? other = some otherAddress → id ≠ other → ∀ place : Int,
      ¬ ((address % session.buffer.dataBufferSize ≤ place ∧
          place < address % session.buffer.dataBufferSize + session.sizes id) ∧
        otherAddress % session.buffer.dataBufferSize ≤ place ∧
          place < otherAddress % session.buffer.dataBufferSize + session.sizes other)

/-- What the next call does. -/
structure Answers (session : Session) : Prop where
  frees : ∀ isFreeFn nbytes, session.buffer.liveIds =
    (session.buffer.freeBuf isFreeFn nbytes).2 ++ (session.buffer.freeBuf isFreeFn nbytes).1.liveIds
  refuses : ∀ size next error, session.buffer.allocateBuf size = (next, .error error) →
    error ≠ .overflowError → next = session.buffer

theorem Session.Kept.sound {session : Session} (kept : session.Kept chunks) : Sound session := by
  have ring := kept.ring
  have named (id : Nat) (address : Int) (found : session.buffer.metadata.get? id = some address) :
      ∃ chunk ∈ chunks, chunk.id = id ∧ session.sizes id = chunk.size ∧
        address % session.buffer.dataBufferSize = chunk.start % session.buffer.dataBufferSize := by
    obtain ⟨chunk, member, rfl⟩ := ring.only id address found
    obtain ⟨other, otherFound, same⟩ := ring.found chunk member
    rw [found] at otherFound
    cases otherFound
    exact ⟨chunk, member, rfl, kept.sizes chunk member, mod_congr same⟩
  have positive := ring.positive
  constructor
  · intro id
    rw [ring.liveIds, List.mem_map]
    constructor
    · rintro ⟨address, found⟩
      exact ring.only id address found
    · rintro ⟨chunk, member, rfl⟩
      obtain ⟨address, found, -⟩ := ring.found chunk member
      exact ⟨address, found⟩
  · intro id address found
    obtain ⟨chunk, member, rfl, size, place⟩ := named id address found
    rw [size, ← ring.headers chunk member, ← place]
    rfl
  · intro id address found
    obtain ⟨chunk, member, rfl, size, place⟩ := named id address found
    have fits := ring.fits chunk member
    rw [size, place]
    exact ⟨fits.1, Int.emod_nonneg _ (by omega), fits.2.2⟩
  · rintro id address other otherAddress found otherFound differ at_ ⟨inChunk, inOther⟩
    obtain ⟨chunk, member, rfl, size, place⟩ := named id address found
    obtain ⟨second, secondMember, rfl, secondSize, secondPlace⟩ := named other otherAddress otherFound
    rw [size, place] at inChunk
    rw [secondSize, secondPlace] at inOther
    have window := ring.window
    have inWindow := ring.inside chunk member
    have secondWindow := ring.inside second secondMember
    obtain ⟨i, iBound, rfl⟩ := mem_iff_getElem.mp member
    obtain ⟨j, jBound, rfl⟩ := mem_iff_getElem.mp secondMember
    have apart := pairwise_iff_getElem.mp ring.ordered
    rcases Nat.lt_trichotomy i j with less | same | more
    · exact apart_mod (apart i j iBound jBound less) (by omega) at_ inChunk inOther
    · subst same
      exact differ rfl
    · exact apart_mod (apart j i jBound iBound more) (by omega) at_ inOther inChunk

theorem Session.Kept.answers {session : Session} (kept : session.Kept chunks) :
    Answers session := by
  constructor
  · intro isFreeFn nbytes
    obtain ⟨n, _, others, freed, ids, _, returned⟩ := freeBuf_spec kept.ring
    rw [kept.ring.liveIds, freed.liveIds, returned, ids, ← map_append, take_append_drop]
  · intro size next error refused notOverflow
    rcases allocateBuf_spec kept.ring size with ⟨_, same, -⟩ | ⟨_, overflow, -⟩ | ⟨_, _, made, -⟩
    · rw [same] at refused
      exact (Prod.mk.inj refused).1.symm
    · rw [overflow] at refused
      cases (Prod.mk.inj refused).2
      exact absurd rfl notOverflow
    · rw [made] at refused
      cases (Prod.mk.inj refused).2

/-- Whatever the calls: with a buffer too small for as many chunks as there are ids, or as long as
there are fewer. -/
theorem run_sound (dataBufferSize : Nat) (buf : Nat → UInt8) (calls : List Call)
    (positive : 0 < dataBufferSize)
    (few : dataBufferSize < (mdSize + 1) * idMax ∨ FewChunks (.init dataBufferSize buf) calls) :
    Sound ((Session.init dataBufferSize buf).run calls) ∧
      Answers ((Session.init dataBufferSize buf).run calls) := by
  obtain ⟨chunks, kept⟩ := run_kept _ (init_kept dataBufferSize buf positive) calls few
  exact ⟨kept.sound, kept.answers⟩

def wrappingRun : List Call :=
  [.allocate 20, .allocate 30, .fill 0 3 255, .free (fun id _ => id = 0) none, .allocate 40,
    .allocate 10, .allocate 90, .free (fun _ _ => true) (some 40), .allocate 40]

theorem wrappingRun_sound : Sound ((Session.init 100 fun _ => 7).run wrappingRun) ∧
    Answers ((Session.init 100 fun _ => 7).run wrappingRun) :=
  run_sound 100 (fun _ => 7) wrappingRun (by decide) (Or.inl (by decide +kernel))

/-- The state after so many chunks of nine bytes, in a buffer that holds them. -/
structure Filled (count : Nat) (buffer : SingleWriterShmRingBuffer) : Prop where
  start : buffer.dataBufferStart = 0
  stop : buffer.dataBufferEnd = 9 * count
  idStart : buffer.monotonicIdStart = 0
  idEnd : buffer.monotonicIdEnd = count % idMax
  listed : ∀ id < idMax, id < count → ∃ address, buffer.metadata.get? id = some address

theorem allocate_filled {dataBufferSize count : Nat} (enough : 9 * count ≤ dataBufferSize) :
    Filled count ((Session.init dataBufferSize fun _ => 0).run
        (List.replicate count (.allocate 1))).buffer ∧
      ((Session.init dataBufferSize fun _ => 0).run
        (List.replicate count (.allocate 1))).buffer.dataBufferSize = dataBufferSize := by
  induction count with
  | zero =>
    refine ⟨⟨rfl, rfl, rfl, (Nat.zero_mod _).symm, ?_⟩, rfl⟩
    intro id _ impossible
    contradiction
  | succ count ih =>
    obtain ⟨filled, size⟩ := ih (by omega)
    rw [replicate_succ', Session.run, foldl_append]
    rw [Session.run] at filled size
    generalize (replicate count (Call.allocate 1)).foldl Session.step
      (Session.init dataBufferSize fun _ => 0) = session at filled size
    obtain ⟨start, stop, idStart, idEnd, listed⟩ := filled
    obtain ⟨⟨_, nextId, _, _, _, metadata, oldBuf⟩, sizes⟩ := session
    simp only at start stop idStart idEnd listed size
    obtain rfl := size.symm
    subst start stop idStart
    have within : (9 * count : Int) % dataBufferSize = 9 * count :=
      Int.emod_eq_of_lt (by omega) (by omega)
    have reset : bufferEndReset ⟨dataBufferSize, nextId, 0, 0, 9 * count, metadata, oldBuf⟩
        ((9 : Nat) : Int) = 9 * count := by
      unfold bufferEndReset
      simp only
      rw [if_neg (by omega)]
    have numbered : nextId < idMax := by
      rw [idEnd]
      exact Nat.mod_lt _ (Nat.two_pow_pos 31)
    obtain ⟨buf, -, outcome⟩ :=
      writeHeader_spec ⟨dataBufferSize, nextId, 0, 0, 9 * count, metadata, oldBuf⟩
        ((9 * count : Int) % dataBufferSize).toNat 9 numbered
        (by rw [within]; simp only [mdSize, idNbytes, sizeNbytes]; omega)
    obtain ⟨written, -⟩ := outcome.resolve_left fun refused =>
      refused.2 (by unfold idMax; omega)
    have nine : (1 : Int) + mdSize = (9 : Nat) := rfl
    rw [foldl_cons, foldl_nil, Session.step, allocateBuf, if_neg (by decide)]
    simp only [nine, reset]
    rw [if_neg (by omega), written]
    refine ⟨⟨rfl, ?_, rfl, ?_, ?_⟩, rfl⟩
    · rfl
    · simp only
      rw [idEnd, Nat.mod_add_mod]
    · intro id bound earlier
      simp only [get?_set]
      by_cases new : id = nextId % idMax
      · exact ⟨_, if_pos new⟩
      · rw [if_neg new]
        apply listed id bound
        by_contra later
        have equal : id = count := by omega
        rw [idEnd, Nat.mod_mod, ← equal, Nat.mod_eq_of_lt bound] at new
        exact new rfl

/-- One chunk more than there are ids: id 1 is still in the metadata, but not between the ids. -/
theorem manyChunks_notSound : ¬ Sound ((Session.init (9 * (2 ^ 31 + 1)) fun _ => 0).run
    (List.replicate (2 ^ 31 + 1) (.allocate 1))) := by
  intro sound
  obtain ⟨⟨-, -, idStart, idEnd, listed⟩, -⟩ := allocate_filled (Nat.le_refl _)
  generalize (Session.init (9 * (2 ^ 31 + 1)) fun _ => 0).run
    (replicate (2 ^ 31 + 1) (.allocate 1)) = session at sound idStart idEnd listed
  have live := (sound.ids 1).mp (listed 1 (by unfold idMax; omega) (by omega))
  have one : session.buffer.monotonicIdEnd = 1 := by
    rw [idEnd]
    unfold idMax
    omega
  have first : (1 + idMax - 0) % idMax = 1 := by
    unfold idMax
    omega
  rw [liveIds, one, idStart] at live
  obtain ⟨k, member, same⟩ := List.mem_map.mp live
  have zero := mem_range.mp member
  unfold idMax at same
  omega

/-- The two oldest of three chunks are freed, with the end in the upper half of the buffer. -/
def hugeRun : List Call :=
  [.allocate (2 ^ 31 - 9), .allocate 1, .allocate 1, .free (fun id _ => decide (id < 2)) none]

/-- Too many chunks for the ids; and a chunk whose size does not fit its header is refused after the
end has moved. -/
theorem limits_notSound :
    ¬ Sound ((Session.init (9 * (2 ^ 31 + 1)) fun _ => 0).run
      (List.replicate (2 ^ 31 + 1) (.allocate 1))) ∧
    (((Session.init (2 ^ 32) fun _ => 0).run hugeRun).buffer.allocateBuf (2 ^ 31 - 8)).2 =
      .error .overflowError ∧
    (((Session.init (2 ^ 32) fun _ => 0).run hugeRun).buffer.allocateBuf (2 ^ 31 - 8)).1.dataBufferEnd
      ≠ ((Session.init (2 ^ 32) fun _ => 0).run hugeRun).buffer.dataBufferEnd :=
  ⟨manyChunks_notSound, by decide +kernel, by decide +kernel⟩

end VllmDcu.SingleWriterShmRingBuffer
