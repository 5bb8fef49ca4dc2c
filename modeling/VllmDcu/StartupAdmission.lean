import VllmDcu.KVCacheConfigs
import VllmDcu.RequestRun

/-! The memory check at start-up against what a single request needs. The check
asks the first group only and forgets the null block; what admits a request of
the maximal length is room for its largest step in all groups together. -/
namespace VllmDcu.StartupAdmission
open Requests BlockPool KVCacheInterface MathUtils SingleTypeManager CacheManager
open KVCacheConfigs PoolAccounts TableAccounts PoolInvariant Admission RequestRun List Option Dict

/-- The layers of the models in question. -/
def Fit (spec : KVCacheSpec) : Prop := Attends spec ∧ 0 < spec.blockSize

def GroupFit (group : KVCacheGroupSpec) : Prop :=
  match group.kvCacheSpec with
  | .single spec => Fit spec
  | .uniformType _ specs => ∀ spec ∈ specs.values, Fit spec

/-! Grouping keeps the layers fit. -/

theorem merge_fit (first merged : KVCacheSpec) (specs : List KVCacheSpec) (fit : Fit first)
    (done : first.merge specs = .ok merged) : Fit merged := by
  cases first with
  | fullAttention spec =>
    simp only [KVCacheSpec.merge, FullAttentionSpec.merge] at done
    repeat' split at done
    all_goals first | contradiction | skip
    cases done
    exact ⟨trivial, fit.2⟩
  | mlaAttention spec =>
    simp only [KVCacheSpec.merge, MLAAttentionSpec.merge] at done
    repeat' split at done
    all_goals first | contradiction | skip
    cases done
    exact ⟨trivial, fit.2⟩
  | slidingWindow spec | chunkedLocalAttention spec =>
    simp only [KVCacheSpec.merge] at done
    split at done
    · cases done
      exact fit
    · contradiction
  | sinkFullAttention | mamba | crossAttention => exact fit.1.elim

variable (kvCacheSpec : KVCacheSpecs)

theorem get?_values (layerName : LayerName) (spec : KVCacheSpec)
    (found : kvCacheSpec.get? layerName = some spec) : spec ∈ kvCacheSpec.values :=
  List.mem_map.mpr ⟨(layerName, spec), (get?_eq_some_iff _).mp found, rfl⟩

variable {Value Result : Type} (values : List Value) (call : Value → Option Result)
variable (results : List Result)

theorem mapM_mem (mapped : values.mapM call = some results) :
    ∀ result ∈ results, ∃ value ∈ values, call value = some result := by
  induction values generalizing results with
  | nil =>
    cases mapped
    simp
  | cons value rest ih =>
    simp only [mapM_cons, Option.pure_def, bind_eq_bind, bind_eq_some_iff, some.injEq] at mapped
    obtain ⟨first, here, others, tail, rfl⟩ := mapped
    intro result member
    rcases mem_cons.mp member with rfl | inRest
    · exact ⟨value, mem_cons_self, here⟩
    · obtain ⟨other, inside, called⟩ := ih others tail result inRest
      exact ⟨other, mem_cons_of_mem _ inside, called⟩

theorem createGroupSpec_fit (fit : ∀ spec ∈ kvCacheSpec.values, Fit spec)
    (layerNames : List LayerName) (group : KVCacheGroupSpec)
    (created : createGroupSpec kvCacheSpec layerNames = some group) :
    GroupFit group := by
  unfold createGroupSpec at created
  split at created
  · rename_i first rest found
    obtain ⟨layerName, _, get⟩ := mapM_mem layerNames _ _ found first mem_cons_self
    split at created
    · rename_i merged done
      cases created
      exact merge_fit first merged _ (fit first (get?_values _ _ _ get)) done
    · contradiction
  · contradiction

theorem createGroups_fit (fit : ∀ spec ∈ kvCacheSpec.values, Fit spec)
    {layerNames : List (List LayerName)} {groups : List KVCacheGroupSpec}
    (created : createKvCacheGroupSpecs kvCacheSpec layerNames = some groups) :
    ∀ group ∈ groups, GroupFit group := by
  intro group member
  obtain ⟨names, _, made⟩ := mapM_mem layerNames _ groups created group member
  exact createGroupSpec_fit kvCacheSpec fit names group made

theorem mapValues_fit (change : LayerName → KVCacheSpec → KVCacheSpec)
    (fit : ∀ layerName, ∀ spec ∈ kvCacheSpec.values, Fit (change layerName spec)) :
    ∀ spec ∈ (kvCacheSpec.mapValues change).values, Fit spec := by
  intro spec member
  obtain ⟨_, inside, rfl⟩ := List.mem_map.mp member
  obtain ⟨⟨layerName, old⟩, entry, rfl⟩ := List.mem_map.mp inside
  exact fit layerName old (List.mem_map_of_mem entry)

variable (spec : KVCacheSpec)

theorem asFullAttentionLayer_fit (fit : Fit spec) : Fit (asFullAttentionLayer spec) := by
  cases spec with
  | slidingWindow | chunkedLocalAttention => exact ⟨trivial, fit.2⟩
  | fullAttention | mlaAttention | sinkFullAttention | mamba | crossAttention => exact fit

theorem withBlockSize_fit (fit : Fit spec) (blockSize : Nat) (positive : 0 < blockSize) :
    Fit (spec.withBlockSize blockSize) := by
  cases spec with
  | sinkFullAttention | mamba | crossAttention => exact fit.1.elim
  | fullAttention | mlaAttention | slidingWindow | chunkedLocalAttention =>
    exact ⟨fit.1, positive⟩

theorem unifyPageSize_fit (maxPageSize : Nat) (spec newSpec : KVCacheSpec) (fit : Fit spec)
    (largest : ∀ pageSize, spec.pageSizeBytes = some pageSize → pageSize ≤ maxPageSize)
    (unified : unifyPageSize maxPageSize spec = some newSpec) : Fit newSpec := by
  unfold unifyPageSize at unified
  split at unified
  · contradiction
  · rename_i pageSize size
    split at unified
    · cases unified
      exact fit
    · split at unified
      · contradiction
      · rename_i divides
        simp only at unified
        split at unified
        · cases unified
          rw [not_or] at divides
          apply withBlockSize_fit spec fit
          apply Nat.mul_pos fit.2
          exact Nat.div_pos (largest pageSize size) (Nat.pos_of_ne_zero divides.1)
        · contradiction

theorem le_foldr_max (sizes : List Nat) : ∀ size ∈ sizes, size ≤ sizes.foldr max 0 := by
  induction sizes with
  | nil => simp
  | cons first rest ih =>
    intro size member
    rcases mem_cons.mp member with rfl | inRest
    · exact Nat.le_max_left _ _
    · exact Nat.le_trans (ih size inRest) (Nat.le_max_right _ _)

theorem mapM_called (mapped : values.mapM call = some results) :
    ∀ value ∈ values, ∃ result ∈ results, call value = some result := by
  induction values generalizing results with
  | nil => simp
  | cons value rest ih =>
    simp only [mapM_cons, Option.pure_def, bind_eq_bind, bind_eq_some_iff, some.injEq] at mapped
    obtain ⟨first, here, others, tail, rfl⟩ := mapped
    intro other member
    rcases mem_cons.mp member with rfl | inRest
    · exact ⟨first, mem_cons_self, here⟩
    · obtain ⟨result, inside, called⟩ := ih others tail other inRest
      exact ⟨result, mem_cons_of_mem _ inside, called⟩

theorem unifyKvCacheSpecPageSize_fit (unified : KVCacheSpecs)
    (fit : ∀ spec ∈ kvCacheSpec.values, Fit spec)
    (done : unifyKvCacheSpecPageSize kvCacheSpec = some unified) :
    ∀ spec ∈ unified.values, Fit spec := by
  unfold unifyKvCacheSpecPageSize at done
  split at done
  · contradiction
  · rename_i pageSizes sizes
    split at done
    · cases done
      exact fit
    · simp only at done
      split at done
      · cases done
        apply mapValues_fit
        intro _ spec member
        cases result : unifyPageSize (pageSizes.foldr max 0) spec with
        | none => exact fit spec member
        | some newSpec =>
          apply unifyPageSize_fit _ spec newSpec (fit spec member) _ result
          intro pageSize size
          obtain ⟨found, inside, same⟩ := mapM_called _ _ _ sizes spec member
          rw [size, some.injEq] at same
          exact le_foldr_max pageSizes pageSize (same ▸ inside)
      · contradiction

theorem uniformTypeFromSpecs_fit (fit : ∀ spec ∈ kvCacheSpec.values, Fit spec)
    (layerNames : List LayerName) (spec : GroupSpec)
    (made : uniformTypeFromSpecs kvCacheSpec = some spec) : GroupFit ⟨layerNames, spec⟩ := by
  unfold uniformTypeFromSpecs at made
  split at made
  · contradiction
  · split at made
    · cases made
      exact fit
    · contradiction

theorem groupLayers_fit (fit : ∀ spec ∈ kvCacheSpec.values, Fit spec)
    (groups : List KVCacheGroupSpec) (grouped : groupLayers kvCacheSpec = some groups) :
    ∀ group ∈ groups, GroupFit group := by
  unfold groupLayers at grouped
  split at grouped
  · cases grouped
    simp
  · split at grouped
    · contradiction
    · exact createGroups_fit kvCacheSpec fit grouped
    · split at grouped
      · rename_i spec made
        cases grouped
        intro group member
        obtain rfl := mem_singleton.mp member
        exact uniformTypeFromSpecs_fit kvCacheSpec fit _ spec made
      · obtain ⟨unified, done, created⟩ := bind_eq_some_iff.mp grouped
        exact createGroups_fit unified (unifyKvCacheSpecPageSize_fit kvCacheSpec unified fit done) created

variable (config : VllmConfig)

theorem getKvCacheGroups_fit {kvCacheSpec : KVCacheSpecs}
    (fit : ∀ spec ∈ kvCacheSpec.values, Fit spec) {groups : List KVCacheGroupSpec}
    (grouped : getKvCacheGroups config kvCacheSpec = some groups) :
    ∀ group ∈ groups, GroupFit group := by
  unfold getKvCacheGroups at grouped
  split at grouped
  · obtain ⟨unified, done, made⟩ := bind_eq_some_iff.mp grouped
    apply groupLayers_fit unified _ groups made
    unfold unifyHybridKvCacheSpecs at done
    simp only at done
    split at done
    · contradiction
    · cases done
      exact fit
    · split at done
      · cases done
        split
        · apply mapValues_fit
          exact fun _ spec member => asFullAttentionLayer_fit spec (fit spec member)
        · exact fit
      · contradiction
  · exact groupLayers_fit kvCacheSpec fit groups grouped

theorem projectGroup_fit {workerSpec : KVCacheSpecs} {group : KVCacheGroupSpec}
    (fit : GroupFit group) : GroupFit (projectGroup workerSpec group) := by
  obtain ⟨layerNames, spec⟩ := group
  cases spec with
  | single spec => exact fit
  | uniformType blockSize specs =>
    unfold projectGroup
    simp only
    split
    · exact fit
    · intro spec member
      obtain ⟨entry, inside, rfl⟩ := List.mem_map.mp member
      exact fit entry.2 (List.mem_map_of_mem (mem_filter.mp inside).1)

theorem schedulerSpec_fit (group : KVCacheGroupSpec) (fit : GroupFit group) (spec : KVCacheSpec)
    (chosen : schedulerSpec group.kvCacheSpec = some spec) : Fit spec := by
  obtain ⟨layerNames, groupSpec⟩ := group
  cases groupSpec with
  | single single =>
    cases chosen
    exact fit
  | uniformType blockSize specs => exact fit spec (mem_of_mem_head? chosen)

/-! One worker. -/

/-- The groups of the only worker. -/
def workerGroups (config : VllmConfig) (kvCacheSpec : KVCacheSpecs) :
    Option (List KVCacheGroupSpec) :=
  (getKvCacheGroups config kvCacheSpec).map fun groups =>
    projectKvCacheGroupsToWorker groups kvCacheSpec

/-- The number of blocks for the memory, as the groups share it. -/
def blocksForMemory (groups : List KVCacheGroupSpec) (availableMemory : Int) : Nat :=
  match groups with
  | [] => 1
  | [⟨_, .uniformType _ specs⟩] => (availableMemory / (sumPageSizes specs.values).getD 0).toNat
  | groups => (availableMemory / (getUniformPageSize groups).getD 0 / maxLayers groups).toNat

theorem assign_absent {entries : List (LayerName × Value)} {layerName : LayerName} {value : Value}
    (absent : layerName ∉ entries.map Prod.fst) :
    Dict.assign entries layerName value = entries ++ [(layerName, value)] := by
  induction entries with
  | nil => rfl
  | cons entry rest ih =>
    rw [map_cons, mem_cons, not_or] at absent
    rw [assign, if_neg (Ne.symm absent.1), ih absent.2]
    rfl

theorem mergeWorkerSpecs_fresh {entries : List (LayerName × KVCacheSpec)} (merged : KVCacheSpecs)
    (unique : ((merged.entries ++ entries).map Prod.fst).Nodup) :
    ∃ all, mergeWorkerSpecs entries merged = some all ∧ all.entries = merged.entries ++ entries := by
  induction entries generalizing merged with
  | nil => exact ⟨merged, rfl, by simp⟩
  | cons entry rest ih =>
    obtain ⟨layerName, spec⟩ := entry
    have absent : layerName ∉ merged.entries.map Prod.fst := by
      rw [map_append, nodup_append] at unique
      exact fun inside => unique.2.2 layerName inside layerName (by simp) rfl
    have missing : merged.get? layerName = none := by
      cases found : merged.get? layerName with
      | none => rfl
      | some old =>
        have entry := (get?_eq_some_iff _).mp found
        exact absurd (List.mem_map_of_mem (f := Prod.fst) entry) absent
    have set : (merged.set layerName spec).entries = merged.entries ++ [(layerName, spec)] :=
      assign_absent absent
    obtain ⟨all, done, entries⟩ := ih (merged.set layerName spec) (by
      rw [set, append_assoc]
      exact unique)
    refine ⟨all, ?_, ?_⟩
    · simp only [mergeWorkerSpecs, missing]
      exact done
    · rw [entries, set, append_assoc]
      rfl

/-- With one worker there is nothing to merge. -/
theorem mergeKvCacheSpecs_single :
    mergeKvCacheSpecs [kvCacheSpec] Dict.empty = some kvCacheSpec := by
  obtain ⟨all, done, entries⟩ := mergeWorkerSpecs_fresh empty kvCacheSpec.unique
  have same : all = kvCacheSpec := by
    cases all
    cases kvCacheSpec
    simpa [empty] using entries
  rw [mergeKvCacheSpecs, done, bind_some, mergeKvCacheSpecs, same]

theorem configFromGroups_blocks (override : config.numGpuBlocksOverride = none)
    (groups : List KVCacheGroupSpec) {availableMemory : Int} {worker : WorkerConfig}
    (made : getKvCacheConfigFromGroups config groups availableMemory = some worker) :
    worker.numBlocks = blocksForMemory groups availableMemory ∧ worker.kvCacheGroups = groups := by
  unfold getKvCacheConfigFromGroups at made
  split at made
  · cases made
    exact ⟨rfl, rfl⟩
  · split at made
    · contradiction
    · rename_i pageSize sum
      split at made
      · contradiction
      · obtain ⟨tensors, _, rfl⟩ := map_eq_some_iff.mp made
        simp [blocksForMemory, mayOverrideNumBlocks, override, sum]
  · rename_i some notUniform
    split at made
    · contradiction
    · rename_i pageSize uniform
      split at made
      · contradiction
      · cases made
        have general : blocksForMemory groups availableMemory =
            (availableMemory / (getUniformPageSize groups).getD 0 / maxLayers groups).toNat := by
          unfold blocksForMemory
          split
          · exact absurd rfl some
          · exact absurd rfl (notUniform _ _ _)
          · rfl
        refine ⟨?_, rfl⟩
        rw [general, uniform, getD_some]
        simp only [getNumBlocks, mayOverrideNumBlocks, override, getD_none]
        omega

theorem autoFit_frame (fitted : VllmConfig) (workers : List (List KVCacheGroupSpec × Int))
    (done : autoFitMaxModelLen config workers = some fitted) :
    fitted.numGpuBlocksOverride = config.numGpuBlocksOverride ∧
      fitted.maxNumBatchedTokens = config.maxNumBatchedTokens := by
  unfold autoFitMaxModelLen at done
  split at done
  · cases done
    exact ⟨rfl, rfl⟩
  · split at done
    · contradiction
    · split at done
      · contradiction
      · cases done
        exact ⟨rfl, rfl⟩

theorem shrinkConfig_frame (minNumBlocks : Nat) (worker shrunk : WorkerConfig)
    (done : shrinkConfig minNumBlocks worker = some shrunk) :
    shrunk.numBlocks = minNumBlocks ∧ shrunk.kvCacheGroups = worker.kvCacheGroups := by
  unfold shrinkConfig at done
  split at done
  · cases done
    exact ⟨rfl, rfl⟩
  · contradiction

/-- What `get_kv_cache_configs` returns for one worker. -/
theorem getKvCacheConfigs_single (fitted : VllmConfig) (kvCacheSpec : KVCacheSpecs)
    (availableMemory : Int) (override : config.numGpuBlocksOverride = none)
    (groups : List KVCacheGroupSpec) (grouped : workerGroups config kvCacheSpec = some groups)
    (configs : List WorkerConfig)
    (started : getKvCacheConfigs config [kvCacheSpec] [availableMemory] = some (configs, fitted)) :
    ∃ worker, configs = [worker] ∧ worker.numBlocks = blocksForMemory groups availableMemory ∧
      worker.kvCacheGroups = groups := by
  obtain ⟨globalGroups, found, rfl⟩ := map_eq_some_iff.mp grouped
  unfold getKvCacheConfigs at started
  rw [mergeKvCacheSpecs_single, bind_some, found] at started
  simp only [map_cons, map_nil, zip_cons_cons, zip_nil_right] at started
  split at started
  · contradiction
  · rename_i fitted' fitting
    have frame : fitted'.numGpuBlocksOverride = none := by
      split at fitting
      · rw [(autoFit_frame config fitted' _ fitting).1]
        exact override
      · cases fitting
        exact override
    split at started
    · contradiction
    · split at started
      · contradiction
      · contradiction
      · rename_i first rest workers
        obtain ⟨shrunk, shrinking, same⟩ := map_eq_some_iff.mp started
        obtain ⟨rfl, rfl⟩ := Prod.mk.inj same
        -- the only worker keeps its number of blocks
        simp only [workerConfigs, mapM_cons, mapM_nil, Option.pure_def,
          bind_eq_bind, bind_eq_some_iff, some.injEq, cons.injEq] at workers
        obtain ⟨worker, made, _, rfl, rfl, rfl⟩ := workers
        split at made
        · contradiction
        · simp only [map_nil, foldr_nil, mapM_cons, mapM_nil, Option.pure_def,
            bind_eq_bind, bind_eq_some_iff, some.injEq] at shrinking
          obtain ⟨only, shrinks, _, rfl, rfl⟩ := shrinking
          obtain ⟨blocks, kept⟩ := shrinkConfig_frame _ worker only shrinks
          obtain ⟨count, all⟩ := configFromGroups_blocks fitted' frame _ made
          exact ⟨only, rfl, blocks.trans count, kept.trans all⟩

/-- The specs of the groups as the scheduler sees them. -/
def groupSpecs (groups : List KVCacheGroupSpec) : List KVCacheSpec :=
  groups.filterMap fun group => schedulerSpec group.kvCacheSpec

theorem filterMap_of_mapM (mapped : values.mapM call = some results) :
    values.filterMap call = results := by
  induction values generalizing results with
  | nil =>
    cases mapped
    rfl
  | cons value rest ih =>
    simp only [mapM_cons, Option.pure_def, bind_eq_bind, bind_eq_some_iff, some.injEq] at mapped
    obtain ⟨first, here, others, tail, rfl⟩ := mapped
    rw [filterMap_cons_some here, ih others tail]

theorem schedulerConfig_single (worker : WorkerConfig) (kvCacheConfig : KVCacheConfig)
    (scheduled : generateSchedulerKvCacheConfig [worker] = some kvCacheConfig) :
    kvCacheConfig.numBlocks = worker.numBlocks ∧
      kvCacheConfig.kvCacheGroups = groupSpecs worker.kvCacheGroups := by
  obtain ⟨specs, mapped, rfl⟩ := map_eq_some_iff.mp scheduled
  exact ⟨rfl, (filterMap_of_mapM _ _ _ mapped).symm⟩

theorem groupSpecs_fit (kvCacheSpec : KVCacheSpecs) (fit : ∀ spec ∈ kvCacheSpec.values, Fit spec)
    (groups : List KVCacheGroupSpec) (grouped : workerGroups config kvCacheSpec = some groups) :
    ∀ spec ∈ groupSpecs groups, Fit spec := by
  intro spec member
  obtain ⟨group, inGroups, chosen⟩ := mem_filterMap.mp member
  obtain ⟨globalGroups, found, rfl⟩ := map_eq_some_iff.mp grouped
  obtain ⟨globalGroup, inGlobal, rfl⟩ := List.mem_map.mp inGroups
  apply schedulerSpec_fit _ _ spec chosen
  exact projectGroup_fit (getKvCacheGroups_fit config fit found globalGroup inGlobal)

/-! The managers that start idle. -/

variable {Digest : Type}

theorem attends_managed (attends : Attends spec) : Managed spec := by
  cases spec with
  | slidingWindow => exact attends
  | fullAttention | mlaAttention | chunkedLocalAttention => trivial
  | sinkFullAttention | mamba | crossAttention => exact attends.elim

theorem initManagers_idle (enableCaching : Bool) (specs : List KVCacheSpec)
    (attends : ∀ spec ∈ specs, Attends spec) (groupId : Nat) (pool pool' : Pool Digest)
    (managers : List (Manager Digest))
    (made : Coordinator.initManagers enableCaching 1 1 specs groupId pool = some (pool', managers)) :
    pool' = pool ∧ managers.map (·.kvCacheSpec) = specs ∧
      ∀ manager ∈ managers, manager.blockSize = manager.kvCacheSpec.blockSize ∧
        ∀ requestId, manager.blocksOf requestId = [] := by
  induction specs generalizing groupId managers with
  | nil =>
    obtain ⟨rfl, rfl⟩ := made
    exact ⟨rfl, rfl, by simp⟩
  | cons spec rest ih =>
    have here := attends spec mem_cons_self
    obtain ⟨manager, single, noBlocks, kind, size⟩ : ∃ manager : Manager Digest,
        Manager.init pool spec enableCaching groupId 1 1 = some (pool, manager) ∧
          manager.reqToBlocks = empty ∧ manager.kvCacheSpec = spec ∧
            manager.blockSize = spec.blockSize := by
      cases spec with
      | sinkFullAttention | mamba | crossAttention => exact here.elim
      | fullAttention | mlaAttention | slidingWindow | chunkedLocalAttention =>
        exact ⟨_, rfl, rfl, rfl, Nat.mul_one _⟩
    simp only [Coordinator.initManagers, single] at made
    obtain ⟨⟨final, others⟩, tail, same⟩ := map_eq_some_iff.mp made
    obtain ⟨rfl, rfl⟩ := Prod.mk.inj same
    obtain ⟨samePool, kinds, tables⟩ := ih
      (fun other member => attends other (mem_cons_of_mem _ member)) (groupId + 1) others tail
    refine ⟨samePool, by rw [map_cons, kind, kinds], ?_⟩
    intro other member
    rcases mem_cons.mp member with rfl | inRest
    · refine ⟨by rw [size, kind], fun requestId => ?_⟩
      rw [Manager.blocksOf, noBlocks]
      rfl
    · exact tables other inRest

/-- A manager is idle when it is made. -/
theorem init_idle (config : KVCacheConfig) (maxModelLen hashBlockSize : Nat)
    (enableCaching useEagle enableKvCacheEvents : Bool)
    (fit : ∀ spec ∈ config.kvCacheGroups, Fit spec) (manager : KVCacheManager Digest)
    (made : KVCacheManager.init config maxModelLen hashBlockSize enableCaching useEagle
      enableKvCacheEvents 1 1 = some manager) : Idle config maxModelLen manager := by
  have accounted := init_accounted config maxModelLen hashBlockSize enableCaching useEagle
    enableKvCacheEvents 1 1 (by decide)
    (fun spec member => ⟨attends_managed spec (fit spec member).1, (fit spec member).2⟩) manager made
  obtain ⟨coordinator, built, rfl⟩ := map_eq_some_iff.mp made
  unfold Coordinator.init at built
  simp only at built
  split at built
  · contradiction
  · rename_i supported
    split at built
    · contradiction
    · rename_i pool start
      obtain ⟨⟨final, managers⟩, initialized, rfl⟩ := map_eq_some_iff.mp built
      obtain ⟨rfl, kinds, tables⟩ := initManagers_idle _ config.kvCacheGroups
        (fun spec member => (fit spec member).1) 0 pool final managers initialized
      obtain ⟨_, _, size, caching, nullInside⟩ := init_counted _ _ _ _ final start
      have hashSize : final.hashBlockSize = hashBlockSize := by
        obtain ⟨_, _, rfl⟩ := map_eq_some_iff.mp start
        rfl
      constructor
      · exact accounted
      · exact size
      · rw [← size]
        exact nullInside
      · exact kinds
      · exact fun single member => (tables single member).1
      · exact fun single member => (tables single member).2
      · rfl
      · intro on single member
        change enableCaching = true at on
        have inGroups : single.kvCacheSpec ∈ config.kvCacheGroups := by
          rw [← kinds]
          exact List.mem_map_of_mem member
        rw [caching, hashSize, (tables single member).1]
        -- with groups and caching on, the coordinator has a prefix cache
        cases kind : Coordinator.kindOf config enableCaching with
        | noPrefixCache =>
          unfold Coordinator.kindOf at kind
          simp only [on, Bool.true_eq_false, false_or] at kind
          split at kind
          · rename_i empty
            rw [empty] at inGroups
            simp at inGroups
          · split at kind
            · contradiction
            · contradiction
        | unitary =>
          rw [kind] at supported
          simp only [Coordinator.supports, Nat.mul_one, Bool.not_eq_false, List.all_eq_true,
            decide_eq_true_eq] at supported
          refine ⟨by decide, ?_⟩
          rw [supported _ inGroups, Nat.mod_self]
        | hybrid =>
          rw [kind] at supported
          simp only [Coordinator.supports, Bool.not_eq_false, Bool.and_eq_true, List.all_eq_true,
            decide_eq_true_eq] at supported
          exact ⟨by decide, supported.1.1.1 _ inGroups⟩

section
variable [DecidableEq Digest]

end

/-! One layer and four tokens: the check passes with two blocks, but one of them is
the null block. -/

def shortConfig : VllmConfig :=
  ⟨4, 4, 4, 0, false, .none, 1, 1, none⟩

def oneLayer : KVCacheSpecs :=
  ⟨[("layers.0", .fullAttention ⟨⟨2, 1, 1, ⟨"float16", 2⟩, none⟩, 1, none, none⟩)], by decide⟩

def fourTokens : RequestArgs Nat :=
  { requestId := 7
    promptTokenIds := some [1, 2, 3, 4]
    samplingParams := some ⟨1, 0, none, [], none, none⟩
    poolingParams := none
    clientIndex := 0
    arrivalTime := 0
    promptEmbeds := none
    mmFeatures := []
    loraRequest := none
    cacheSalt := none
    priority := 0
    structuredOutput := false
    blockHasher := some ⟨2, fun (parent, tokens, _) => 10 * parent + (tokens.headD 0).toNat, 1⟩
    resumable := false }

def fourTokenRequest : Request Nat := (Request.init fourTokens).get rfl

/-- The scheduler's configuration and manager for some memory. -/
def startedManager (availableMemory : Int) : Option (KVCacheManager Nat) :=
  match getKvCacheConfigs shortConfig [oneLayer] [availableMemory] with
  | none => none
  | some (configs, fitted) =>
    (generateSchedulerKvCacheConfig configs).bind fun kvCacheConfig =>
      KVCacheManager.init kvCacheConfig fitted.maxModelLen 2 true false false 1 1

def threeBlocks : KVCacheManager Nat := (startedManager 24).get rfl

end VllmDcu.StartupAdmission
