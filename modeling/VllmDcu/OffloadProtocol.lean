import VllmDcu.OffloadManagers

/-! The protocol over an offloading manager: which calls are made, what is pending, and
what every manager that simulates the plain store keeps. -/
namespace VllmDcu
open List

/-- The operations of a manager, with its entries and its backend. -/
structure OffloadingManager (Hash State : Type) where
  entries : State → List (Hash × BlockStatus)
  backend : State → CPUBackend
  lookup : State → List Hash → Nat
  touch : State → List Hash → State
  prepareLoad : State → List Hash → Option (State × List Nat)
  completeLoad : State → List Hash → Option State
  prepareStore : State → List Hash → Option (State × Option (PrepareStoreOutput Hash))
  completeStore : State → List Hash → Bool → Option State

namespace Offloading

inductive Call (Hash : Type) where
  | lookup (blockHashes : List Hash)
  | touch (blockHashes : List Hash)
  | prepareLoad (blockHashes : List Hash)
  | completeLoad (blockHashes : List Hash)
  | prepareStore (blockHashes : List Hash)
  | completeStore (blockHashes : List Hash) (success : Bool)

/-- A manager, the pending loads and stores with the blocks that were given for them,
and the hashes whose store was completed and that are still there. -/
structure Protocol (Hash State : Type) where
  manager : State
  loads : List (Hash × Nat)
  stores : List (Hash × Nat)
  completed : List Hash

variable {Hash State : Type} [DecidableEq Hash]

def Protocol.init (manager : State) : Protocol Hash State := ⟨manager, [], [], []⟩

def Protocol.call (ops : OffloadingManager Hash State) (protocol : Protocol Hash State) :
    Call Hash → Option (Protocol Hash State)
  | .lookup _ => some protocol
  | .touch blockHashes =>
    some { protocol with manager := ops.touch protocol.manager blockHashes }
  | .prepareLoad blockHashes =>
    (ops.prepareLoad protocol.manager blockHashes).map fun loaded =>
      { protocol with
        manager := loaded.1
        loads := protocol.loads ++ blockHashes.zip loaded.2 }
  | .completeLoad blockHashes =>
    (ops.completeLoad protocol.manager blockHashes).map fun manager =>
      { protocol with
        manager := manager
        loads := blockHashes.foldl Store.dropLoad protocol.loads }
  | .prepareStore blockHashes =>
    (ops.prepareStore protocol.manager blockHashes).map fun stored =>
      { protocol with
        manager := stored.1
        stores := match stored.2 with
          | some output => protocol.stores ++ output.blockHashesToStore.zip output.storeSpec
          | none => protocol.stores
        completed := protocol.completed.filter fun blockHash =>
          decide (blockHash ∈ (ops.entries stored.1).map Prod.fst) }
  | .completeStore blockHashes success =>
    (ops.completeStore protocol.manager blockHashes success).map fun manager =>
      { protocol with
        manager := manager
        stores := protocol.stores.filter fun pending => decide (pending.1 ∉ blockHashes)
        completed := if success then protocol.completed ++ blockHashes else protocol.completed }

/-- How the protocol uses a manager. -/
def Protocol.Allows (protocol : Protocol Hash State) : Call Hash → Prop
  | .lookup _ => True
  | .touch _ => True
  | .prepareLoad blockHashes =>
    blockHashes.Nodup ∧ ∀ blockHash ∈ blockHashes, blockHash ∈ protocol.completed
  | .completeLoad blockHashes =>
    blockHashes.Nodup ∧ ∀ blockHash ∈ blockHashes, blockHash ∈ protocol.loads.map Prod.fst
  | .prepareStore blockHashes => blockHashes.Nodup
  | .completeStore blockHashes _ =>
    blockHashes.Nodup ∧ ∀ blockHash ∈ blockHashes, blockHash ∈ protocol.stores.map Prod.fst

instance (protocol : Protocol Hash State) : (call : Call Hash) → Decidable (protocol.Allows call)
  | .lookup _ => .isTrue trivial
  | .touch _ => .isTrue trivial
  | .prepareLoad blockHashes => inferInstanceAs (Decidable (blockHashes.Nodup ∧
      ∀ blockHash ∈ blockHashes, blockHash ∈ protocol.completed))
  | .completeLoad blockHashes => inferInstanceAs (Decidable (blockHashes.Nodup ∧
      ∀ blockHash ∈ blockHashes, blockHash ∈ protocol.loads.map Prod.fst))
  | .prepareStore blockHashes => inferInstanceAs (Decidable blockHashes.Nodup)
  | .completeStore blockHashes _ => inferInstanceAs (Decidable (blockHashes.Nodup ∧
      ∀ blockHash ∈ blockHashes, blockHash ∈ protocol.stores.map Prod.fst))

def Protocol.run (ops : OffloadingManager Hash State) :
    Protocol Hash State → List (Call Hash) → Option (Protocol Hash State)
  | protocol, [] => some protocol
  | protocol, call :: rest => (protocol.call ops call).bind fun next => next.run ops rest

/-- Every call of the run is one that the protocol allows. -/
def AllowedRun (ops : OffloadingManager Hash State) : Protocol Hash State → List (Call Hash) → Prop
  | _, [] => True
  | protocol, call :: rest =>
    protocol.Allows call ∧ ∀ next ∈ protocol.call ops call, AllowedRun ops next rest

instance decideAllowedRun (ops : OffloadingManager Hash State) : (protocol : Protocol Hash State) →
    (calls : List (Call Hash)) → Decidable (AllowedRun ops protocol calls)
  | _, [] => .isTrue trivial
  | protocol, call :: rest =>
    have _ (next : Protocol Hash State) := decideAllowedRun ops next rest
    inferInstanceAs (Decidable (protocol.Allows call ∧
      ∀ next ∈ protocol.call ops call, AllowedRun ops next rest))

/-- The block ids are partitioned, a pending block stays where it is, and lookups see
what is stored and completed. -/
structure Conserved (ops : OffloadingManager Hash State) (numBlocks : Nat)
    (protocol : Protocol Hash State) : Prop where
  ids : ((ops.entries protocol.manager).map (fun entry => entry.2.blockId) ++
      (ops.backend protocol.manager).allocatedBlocksFreeList ++
      List.range' (ops.backend protocol.manager).numAllocatedBlocks
        (numBlocks - (ops.backend protocol.manager).numAllocatedBlocks)).Perm (List.range numBlocks)
  pending : ∀ pending ∈ protocol.loads ++ protocol.stores, ∃ block,
    (pending.1, block) ∈ ops.entries protocol.manager ∧ block.blockId = pending.2
  lookups : ∀ blockHashes, ops.lookup protocol.manager blockHashes =
    (blockHashes.takeWhile fun blockHash => decide (blockHash ∈ protocol.completed)).length

/-! A manager simulates the plain store when each operation does to its view what the
plain store does. -/

structure Simulates (ops : OffloadingManager Hash State) (view : State → Store Hash)
    (valid : State → Prop) : Prop where
  backend : ∀ state, ops.backend state = (view state).backend
  entries : ∀ state, valid state → ((ops.entries state).map Prod.fst).Nodup ∧
    ∀ entry, entry ∈ ops.entries state ↔ (view state).blocks entry.1 = some entry.2
  lookup : ∀ state blockHashes, valid state →
    ops.lookup state blockHashes = Store.access.hitCount (view state) blockHashes
  touch : ∀ state blockHashes, valid state →
    valid (ops.touch state blockHashes) ∧ view (ops.touch state blockHashes) = view state
  prepareLoad : ∀ state blockHashes next blockIds, valid state →
    Store.access.loadAll blockHashes (view state) = some (next, blockIds) →
    ∃ after, ops.prepareLoad state blockHashes = some (after, blockIds) ∧ valid after ∧
      view after = next
  completeLoad : ∀ state blockHashes next, valid state →
    Store.access.unloadAll blockHashes (view state) = some next →
    ∃ after, ops.completeLoad state blockHashes = some after ∧ valid after ∧ view after = next
  completeStore : ∀ state blockHashes success next, valid state →
    Store.completeAll success blockHashes (view state) = some next →
    ∃ after, ops.completeStore state blockHashes success = some after ∧ valid after ∧
      view after = next
  /-- Some blocks of other hashes are evicted; then the store is given up, or there is
  room for what is not there yet. -/
  prepareStore : ∀ state blockHashes, valid state → blockHashes.Nodup →
    ∃ toEvict middle, (∀ blockHash ∈ toEvict, blockHash ∉ blockHashes) ∧
      Store.evictAll toEvict (view state) = some middle ∧
      ((∃ after, ops.prepareStore state blockHashes = some (after, none) ∧ valid after ∧
          view after = middle) ∨
        (blockHashes.filter fun blockHash => ((view state).blocks blockHash).isNone).length ≤
            (view state).backend.getNumFreeBlocks + toEvict.length ∧
          ∀ next blockIds, Store.storeAll
              (blockHashes.filter fun blockHash => ((view state).blocks blockHash).isNone) middle =
                some (next, blockIds) →
            ∃ after, ops.prepareStore state blockHashes = some (after, some
                ⟨blockHashes.filter fun blockHash => ((view state).blocks blockHash).isNone,
                  blockIds, toEvict⟩) ∧ valid after ∧ view after = next)

section Run
variable {ops : OffloadingManager Hash State} {view : State → Store Hash} {valid : State → Prop}

/-- What holds of every reached state, in terms of the plain store. -/
structure Kept (view : State → Store Hash) (valid : State → Prop) (numBlocks : Nat)
    (protocol : Protocol Hash State) : Prop where
  valid : valid protocol.manager
  sound : Store.Sound numBlocks protocol.loads protocol.stores protocol.completed
    (view protocol.manager)

theorem Sound.congr {numBlocks : Nat} {loads stores : List (Hash × Nat)} {completed other : List Hash}
    {store : Store Hash} (sound : Store.Sound numBlocks loads stores completed store)
    (same : ∀ blockHash, blockHash ∈ other ↔ blockHash ∈ completed) :
    Store.Sound numBlocks loads stores other store :=
  { sound with complete := fun blockHash => (same blockHash).trans (sound.complete blockHash) }

section
variable (simulates : Simulates ops view valid)
include simulates

theorem prepareStore_kept {numBlocks : Nat}
    {protocol : Protocol Hash State} (kept : Kept view valid numBlocks protocol)
    {blockHashes : List Hash} (nodup : blockHashes.Nodup) :
    ∃ next, protocol.call ops (.prepareStore blockHashes) = some next ∧
      Kept view valid numBlocks next := by
  obtain ⟨toEvict, middle, apart, evicted, outcome⟩ :=
    simulates.prepareStore protocol.manager blockHashes kept.valid nodup
  obtain ⟨sound, more⟩ := Store.evictAll_sound toEvict _ middle _ kept.sound evicted
  -- a completed hash is still there exactly when it was not evicted
  have completes (after : State) (isValid : valid after) (stores : List (Hash × Nat))
      (subset : ∀ blockHash ∈ protocol.completed, blockHash ∉ stores.map Prod.fst)
      (sound' : Store.Sound numBlocks protocol.loads stores
        (protocol.completed.filter fun other => decide (other ∉ toEvict)) (view after)) :
      Store.Sound numBlocks protocol.loads stores
        (protocol.completed.filter fun blockHash =>
          decide (blockHash ∈ (ops.entries after).map Prod.fst)) (view after) := by
    apply Sound.congr sound'
    intro blockHash
    rw [sound'.complete, mem_filter, decide_eq_true_eq, mem_map]
    constructor
    · rintro ⟨done, ⟨⟨_, block⟩, member, rfl⟩⟩
      exact ⟨subset _ done, block, ((simulates.entries after isValid).2 _).mp member⟩
    · rintro ⟨free, block, here⟩
      have stays := (sound'.complete blockHash).mpr ⟨free, block, here⟩
      exact ⟨(mem_filter.mp stays).1, ⟨(blockHash, block),
        ((simulates.entries after isValid).2 _).mpr here, rfl⟩⟩
  have notPending (blockHash : Hash) (done : blockHash ∈ protocol.completed) :
      blockHash ∉ protocol.stores.map Prod.fst := ((kept.sound.complete blockHash).mp done).1
  rcases outcome with ⟨after, done, isValid, rfl⟩ | ⟨room, stored⟩
  · refine ⟨⟨after, protocol.loads, protocol.stores, _⟩, ?_, isValid,
      completes after isValid protocol.stores notPending sound⟩
    rw [Protocol.call, done]
    rfl
  · generalize toStoreIs : (blockHashes.filter fun blockHash =>
      ((view protocol.manager).blocks blockHash).isNone) = toStore at room stored
    have isNew (blockHash : Hash) (member : blockHash ∈ toStore) :
        (view protocol.manager).blocks blockHash = none := by
      rw [← toStoreIs, mem_filter, Option.isNone_iff_eq_none] at member
      exact member.2
    obtain ⟨next, blockIds, storesAll, sound'⟩ := Store.storeAll_sound toStore middle protocol.stores
      sound (toStoreIs ▸ nodup.filter _)
      (fun blockHash member => by
        cases held : middle.blocks blockHash with
        | none => rfl
        | some block =>
          have := Store.evictAll_cached toEvict _ middle evicted blockHash (by rw [held]; rfl)
          rw [isNew blockHash member] at this
          cases this)
      (by omega)
    obtain ⟨after, done, isValid, rfl⟩ := stored next blockIds storesAll
    refine ⟨⟨after, protocol.loads, protocol.stores ++ toStore.zip blockIds, _⟩, ?_, isValid,
      completes after isValid (protocol.stores ++ toStore.zip blockIds) ?_ sound'⟩
    · rw [Protocol.call, done]
      rfl
    · intro blockHash isDone inStores
      obtain ⟨-, block, here⟩ := (kept.sound.complete blockHash).mp isDone
      rw [map_append, mem_append] at inStores
      rcases inStores with pending | new
      · exact notPending blockHash isDone pending
      · obtain ⟨entry, member, rfl⟩ := mem_map.mp new
        rw [isNew entry.1 (of_mem_zip member).1] at here
        cases here

theorem call_kept {numBlocks : Nat}
    {protocol : Protocol Hash State} (kept : Kept view valid numBlocks protocol) {call : Call Hash}
    (allowed : protocol.Allows call) :
    ∃ next, protocol.call ops call = some next ∧ Kept view valid numBlocks next := by
  cases call with
  | lookup blockHashes => exact ⟨protocol, rfl, kept⟩
  | touch blockHashes =>
    obtain ⟨isValid, same⟩ := simulates.touch protocol.manager blockHashes kept.valid
    exact ⟨_, rfl, isValid, same ▸ kept.sound⟩
  | prepareLoad blockHashes =>
    obtain ⟨next, blockIds, loaded, sound⟩ :=
      Store.loadAll_sound blockHashes _ _ kept.sound allowed.2
    obtain ⟨after, done, isValid, rfl⟩ :=
      simulates.prepareLoad protocol.manager blockHashes next blockIds kept.valid loaded
    exact ⟨_, by rw [Protocol.call, done]; rfl, isValid, sound⟩
  | completeLoad blockHashes =>
    obtain ⟨next, unloaded, sound⟩ :=
      Store.unloadAll_sound blockHashes _ _ kept.sound allowed.1 allowed.2
    obtain ⟨after, done, isValid, rfl⟩ :=
      simulates.completeLoad protocol.manager blockHashes next kept.valid unloaded
    exact ⟨_, by rw [Protocol.call, done]; rfl, isValid, sound⟩
  | prepareStore blockHashes =>
    exact prepareStore_kept simulates kept allowed
  | completeStore blockHashes success =>
    obtain ⟨next, completed, sound⟩ := Store.completeAll_sound _ _ _ kept.sound allowed.1 allowed.2
    obtain ⟨after, done, isValid, rfl⟩ :=
      simulates.completeStore protocol.manager blockHashes success next kept.valid completed
    exact ⟨_, by rw [Protocol.call, done]; rfl, isValid, sound⟩

theorem run_kept (numBlocks : Nat) (calls : List (Call Hash))
    (protocol : Protocol Hash State) (kept : Kept view valid numBlocks protocol)
    (allowed : AllowedRun ops protocol calls) :
    ∃ final, protocol.run ops calls = some final ∧ Kept view valid numBlocks final := by
  induction calls generalizing protocol with
  | nil => exact ⟨protocol, rfl, kept⟩
  | cons call rest ih =>
    obtain ⟨next, done, kept'⟩ := call_kept simulates kept allowed.1
    obtain ⟨final, reached, keptLast⟩ := ih next kept' (allowed.2 next done)
    refine ⟨final, ?_, keptLast⟩
    rw [Protocol.run, done]
    exact reached

end

end Run
end Offloading
end VllmDcu
