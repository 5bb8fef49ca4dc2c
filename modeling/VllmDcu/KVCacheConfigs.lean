import VllmDcu.CacheManager

/-! The start-up configuration of the KV cache: the layers are grouped, the memory
for one request of the maximal length is checked, and the number of blocks
follows from the memory. Logging is left out; raised errors are `none`. -/
namespace VllmDcu.KVCacheConfigs
open KVCacheInterface MathUtils CacheManager

abbrev LayerName := String

abbrev KVCacheSpecs := Dict LayerName KVCacheSpec

/-- A spec of one group: of a single kind, or `UniformTypeKVCacheSpecs`. -/
inductive GroupSpec where
  | single (spec : KVCacheSpec)
  | uniformType (blockSize : Nat) (kvCacheSpecs : KVCacheSpecs)

structure KVCacheGroupSpec where
  layerNames : List LayerName
  kvCacheSpec : GroupSpec

structure KVCacheTensor where
  size : Int
  sharedBy : List LayerName

/-- `KVCacheConfig` of one worker. -/
structure WorkerConfig where
  numBlocks : Nat
  kvCacheTensors : List KVCacheTensor
  kvCacheGroups : List KVCacheGroupSpec

def sumPageSizes (specs : List KVCacheSpec) : Option Nat :=
  (specs.mapM KVCacheSpec.pageSizeBytes).map List.sum

def GroupSpec.pageSizeBytes : GroupSpec → Option Nat
  | .single spec => spec.pageSizeBytes
  | .uniformType _ specs => sumPageSizes specs.values

/-! Grouping. -/

/-- Whether the specs of all layers merge; errors other than failed assertions
are raised. -/
def isKvCacheSpecUniform (kvCacheSpec : KVCacheSpecs) : Option Bool :=
  match kvCacheSpec.values with
  | [] => some true
  | first :: rest =>
    match first.merge (first :: rest) with
    | .ok _ => some true
    | .error .assertionError => some false
    | .error .valueError => none

def uniformTypeFromSpecs (kvCacheSpec : KVCacheSpecs) : Option GroupSpec :=
  match kvCacheSpec.values with
  | [] => none
  | first :: rest =>
    if isUniformType first (first :: rest) then some (.uniformType first.blockSize kvCacheSpec)
    else none

/-- The merged spec of one group of layers. -/
def createGroupSpec (kvCacheSpec : KVCacheSpecs) (layerNames : List LayerName) :
    Option KVCacheGroupSpec :=
  match layerNames.mapM kvCacheSpec.get? with
  | some (first :: rest) =>
    match first.merge (first :: rest) with
    | .ok merged => some ⟨layerNames, .single merged⟩
    | .error _ => none
  | _ => none

def createKvCacheGroupSpecs (kvCacheSpec : KVCacheSpecs) (groupedLayerNames : List (List LayerName)) :
    Option (List KVCacheGroupSpec) :=
  groupedLayerNames.mapM (createGroupSpec kvCacheSpec)

/-- `unify_hybrid_kv_cache_specs`: window layers are kept as full attention. -/
def asFullAttentionLayer : KVCacheSpec → KVCacheSpec
  | .slidingWindow spec =>
    .fullAttention ⟨spec.toAttentionSpec, spec.headSize, some spec.slidingWindow, none⟩
  | .chunkedLocalAttention spec =>
    .fullAttention ⟨spec.toAttentionSpec, spec.headSize, none, some spec.attentionChunkSize⟩
  | spec => spec

def isOneType (kvCacheSpec : KVCacheSpecs) : Option Bool :=
  match isKvCacheSpecUniform kvCacheSpec with
  | none => none
  | some true => some true
  | some false => some (uniformTypeFromSpecs kvCacheSpec).isSome

def unifyHybridKvCacheSpecs (kvCacheSpec : KVCacheSpecs) : Option KVCacheSpecs :=
  match isOneType kvCacheSpec with
  | none => none
  | some true => some kvCacheSpec
  | some false =>
    let specs := kvCacheSpec.values
    let hasFullAttention := specs.any KVCacheSpec.isFullAttention
    let hasWindow := specs.any fun spec =>
      match spec with
      | .slidingWindow _ | .chunkedLocalAttention _ => true
      | _ => false
    let unified :=
      if hasFullAttention ∧ hasWindow then
        kvCacheSpec.mapValues fun _ spec => asFullAttentionLayer spec
      else kvCacheSpec
    match isOneType unified with
    | some true => some unified
    | _ => none

/-- Smaller pages grow to the largest one by more tokens in a block. -/
def unifyPageSize (maxPageSize : Nat) (spec : KVCacheSpec) : Option KVCacheSpec :=
  match spec.pageSizeBytes with
  | none => none
  | some pageSize =>
    if pageSize = maxPageSize then some spec
    else if pageSize = 0 ∨ maxPageSize % pageSize ≠ 0 then none
    else
      let newSpec := spec.withBlockSize (spec.blockSize * (maxPageSize / pageSize))
      if newSpec.pageSizeBytes = some maxPageSize then some newSpec else none

def unifyKvCacheSpecPageSize (kvCacheSpec : KVCacheSpecs) : Option KVCacheSpecs :=
  match kvCacheSpec.values.mapM KVCacheSpec.pageSizeBytes with
  | none => none
  | some pageSizes =>
    if pageSizes.dedup.length ≤ 1 then some kvCacheSpec
    else
      let maxPageSize := pageSizes.foldr max 0
      if kvCacheSpec.values.all (fun spec => (unifyPageSize maxPageSize spec).isSome) then
        some (kvCacheSpec.mapValues fun _ spec => (unifyPageSize maxPageSize spec).getD spec)
      else none

/-- The layers of every spec, in the order of the first layer of each. -/
def sameTypeLayers (kvCacheSpec : KVCacheSpecs) : Dict KVCacheSpec (List LayerName) :=
  kvCacheSpec.entries.foldl (fun layers (layerName, spec) =>
    layers.set spec ((layers.get? spec).getD [] ++ [layerName])) Dict.empty

/-- `layers[i::num_groups]`. -/
def everyNth (layers : List LayerName) (start step : Nat) : List LayerName :=
  (layers.zipIdx.filter fun (_, index) => decide (start ≤ index ∧ (index - start) % step = 0)).map
    Prod.fst

def splitLayers (groupSize : Nat) (layers : List LayerName) : List (List LayerName) :=
  let numGroups := (cdiv layers.length groupSize).toNat
  (List.range numGroups).map fun group => everyNth layers group numGroups

/-- The number of layers in a group: the most layers of a spec when that is less
than one and a half times the fewest, else the fewest. -/
def layersPerGroup (counts : List Nat) : Nat :=
  let minNumLayers := counts.foldr min (counts.headD 0)
  let maxNumLayers := counts.foldr max 0
  if 2 * maxNumLayers < 3 * minNumLayers then maxNumLayers else minNumLayers

def getKvCacheGroupsUniformPageSize (kvCacheSpec : KVCacheSpecs) : Option (List KVCacheGroupSpec) :=
  let layers := (sameTypeLayers kvCacheSpec).values
  createKvCacheGroupSpecs kvCacheSpec
    (layers.flatMap (splitLayers (layersPerGroup (layers.map List.length))))

/-- The groups of a map with more than one kind of layer, or one kind. -/
def groupLayers (kvCacheSpec : KVCacheSpecs) : Option (List KVCacheGroupSpec) :=
  if kvCacheSpec.entries.isEmpty then some []
  else
    match isKvCacheSpecUniform kvCacheSpec with
    | none => none
    | some true => createKvCacheGroupSpecs kvCacheSpec [kvCacheSpec.keys]
    | some false =>
      match uniformTypeFromSpecs kvCacheSpec with
      | some spec => some [⟨kvCacheSpec.keys, spec⟩]
      | none => (unifyKvCacheSpecPageSize kvCacheSpec).bind getKvCacheGroupsUniformPageSize

def getKvCacheGroups (config : VllmConfig) (kvCacheSpec : KVCacheSpecs) :
    Option (List KVCacheGroupSpec) :=
  if config.disableHybridKvCacheManager then (unifyHybridKvCacheSpecs kvCacheSpec).bind groupLayers
  else groupLayers kvCacheSpec

/-! Memory. -/

def getUniformPageSize (groups : List KVCacheGroupSpec) : Option Nat :=
  match groups.mapM fun group => group.kvCacheSpec.pageSizeBytes with
  | some (first :: rest) => if rest.all (fun size => decide (size = first)) then some first else none
  | _ => none

def maxLayers (groups : List KVCacheGroupSpec) : Nat :=
  (groups.map fun group => group.layerNames.length).foldr max 0

def maxMemoryUsageOf (config : VllmConfig) (specs : List KVCacheSpec) : Option Int :=
  (specs.mapM fun (spec : KVCacheSpec) => spec.maxMemoryUsageBytes config).map List.sum

def GroupSpec.maxMemoryUsageBytes (config : VllmConfig) : GroupSpec → Option Int
  | .single spec => spec.maxMemoryUsageBytes config
  | .uniformType _ specs =>
    match specs.values.mapM (fun (spec : KVCacheSpec) => spec.maxMemoryUsageBytes config),
        specs.values.mapM KVCacheSpec.pageSizeBytes with
    | some usages, some pageSizes =>
      some ((usages.zipWith cdiv pageSizes).foldr max 0 * pageSizes.sum)
    | _, _ => none

/-- Only the first group's spec is asked how many blocks it needs. -/
def maxMemoryUsageBytesFromGroups (config : VllmConfig) (groups : List KVCacheGroupSpec) :
    Option Int :=
  match groups with
  | [] => some 0
  | [⟨_, .uniformType _ specs⟩] => maxMemoryUsageOf config specs.values
  | first :: _ =>
    match getUniformPageSize groups, first.kvCacheSpec.maxMemoryUsageBytes config with
    | some pageSize, some usage =>
      if pageSize = 0 then none
      else some (maxLayers groups * pageSize * cdiv usage pageSize)
    | _, _ => none

def fits (config : VllmConfig) (groups : List KVCacheGroupSpec) (availableMemory : Int)
    (modelLen : Nat) : Option Bool :=
  (maxMemoryUsageBytesFromGroups { config with maxModelLen := modelLen } groups).map
    fun needed => decide (needed ≤ availableMemory)

/-- The `while left <= right` loop; every round shortens the interval. -/
def searchMaxModelLen (config : VllmConfig) (groups : List KVCacheGroupSpec)
    (availableMemory : Int) : Nat → Nat → Nat → Nat → Option Nat
  | 0, _, _, result => some result
  | fuel + 1, left, right, result =>
    if left ≤ right then
      let mid := (left + right) / 2
      match fits config groups availableMemory mid with
      | none => none
      | some true =>
        searchMaxModelLen config groups availableMemory fuel (mid + 1) right mid
      | some false =>
        searchMaxModelLen config groups availableMemory fuel left (mid - 1) result
    else some result

def estimateMaxModelLenFromGroups (config : VllmConfig) (groups : List KVCacheGroupSpec)
    (availableMemory : Int) : Option Nat :=
  match fits config groups availableMemory 1 with
  | none => none
  | some false => some 0
  | some true =>
    searchMaxModelLen config groups availableMemory (config.maxModelLen + 1) 1
      config.maxModelLen 1

/-- The longest model length that fits on every worker. -/
def autoFitLoop (config : VllmConfig) : List (List KVCacheGroupSpec × Int) → Nat → Option Nat
  | [], autoFitMax => some autoFitMax
  | (groups, availableMemory) :: rest, autoFitMax =>
    if groups.isEmpty then autoFitLoop config rest autoFitMax
    else
      match estimateMaxModelLenFromGroups config groups availableMemory with
      | none => none
      | some workerMax => autoFitLoop config rest (min autoFitMax workerMax)

def autoFitMaxModelLen (config : VllmConfig) (workers : List (List KVCacheGroupSpec × Int)) :
    Option VllmConfig :=
  if workers.all (fun worker => worker.1.isEmpty) then some config
  else
    match autoFitLoop config workers config.maxModelLen with
    | none => none
    | some autoFitMax => if autoFitMax = 0 then none else some { config with maxModelLen := autoFitMax }

def checkEnoughKvCacheMemory (config : VllmConfig) (groups : List KVCacheGroupSpec)
    (availableMemory : Int) : Bool :=
  groups.isEmpty ||
    (decide (0 < availableMemory) &&
      match maxMemoryUsageBytesFromGroups config groups with
      | none => false
      | some needed => decide (needed ≤ availableMemory))

/-! The number of blocks. -/

def mayOverrideNumBlocks (config : VllmConfig) (numBlocks : Int) : Nat :=
  config.numGpuBlocksOverride.getD numBlocks.toNat

def getNumBlocks (config : VllmConfig) (numLayers : Nat) (availableMemory : Int) (pageSize : Nat) :
    Nat :=
  mayOverrideNumBlocks config (max (availableMemory / pageSize / numLayers) 0)

def getKvCacheConfigFromGroups (config : VllmConfig) (groups : List KVCacheGroupSpec)
    (availableMemory : Int) : Option WorkerConfig :=
  match groups with
  | [] => some ⟨1, [], []⟩
  | [⟨layerNames, .uniformType blockSize specs⟩] =>
    match sumPageSizes specs.values with
    | none => none
    | some pageSize =>
      if pageSize = 0 then none
      else
        let numBlocks := mayOverrideNumBlocks config (availableMemory / pageSize)
        (layerNames.mapM fun layerName =>
          ((specs.get? layerName).bind KVCacheSpec.pageSizeBytes).map fun size =>
            (⟨size * numBlocks, [layerName]⟩ : KVCacheTensor)).map fun tensors =>
              ⟨numBlocks, tensors, [⟨layerNames, .uniformType blockSize specs⟩]⟩
  | groups =>
    match getUniformPageSize groups with
    | none => none
    | some pageSize =>
      if pageSize = 0 ∨ maxLayers groups = 0 then none
      else
        let numBlocks := getNumBlocks config (maxLayers groups) availableMemory pageSize
        some
          { numBlocks := numBlocks
            kvCacheTensors := (List.range (maxLayers groups)).map fun index =>
              ⟨pageSize * numBlocks, groups.filterMap fun group => group.layerNames[index]?⟩
            kvCacheGroups := groups }

/-! All workers. -/

def mergeWorkerSpecs : List (LayerName × KVCacheSpec) → KVCacheSpecs → Option KVCacheSpecs
  | [], merged => some merged
  | (layerName, spec) :: rest, merged =>
    match merged.get? layerName with
    | none => mergeWorkerSpecs rest (merged.set layerName spec)
    | some old => if old = spec then mergeWorkerSpecs rest merged else none

def mergeKvCacheSpecs : List KVCacheSpecs → KVCacheSpecs → Option KVCacheSpecs
  | [], merged => some merged
  | specs :: rest, merged => (mergeWorkerSpecs specs.entries merged).bind (mergeKvCacheSpecs rest)

def projectGroup (workerSpec : KVCacheSpecs) (group : KVCacheGroupSpec) : KVCacheGroupSpec :=
  let workerLayerNames := group.layerNames.filter fun layerName => workerSpec.contains layerName
  match group.kvCacheSpec with
  | .uniformType blockSize specs =>
    if workerLayerNames.isEmpty then ⟨workerLayerNames, group.kvCacheSpec⟩
    else
      ⟨workerLayerNames, .uniformType blockSize
        ⟨specs.entries.filter fun entry => decide (entry.1 ∈ workerLayerNames),
          Dict.filter_unique specs.entries _ specs.unique⟩⟩
  | .single spec => ⟨workerLayerNames, .single spec⟩

def projectKvCacheGroupsToWorker (globalKvCacheGroups : List KVCacheGroupSpec)
    (workerSpec : KVCacheSpecs) : List KVCacheGroupSpec :=
  globalKvCacheGroups.map (projectGroup workerSpec)

/-- All workers use the smallest number of blocks, and their tensors shrink with it. -/
def shrinkConfig (minNumBlocks : Nat) (worker : WorkerConfig) : Option WorkerConfig :=
  if worker.kvCacheTensors.all (fun tensor =>
      decide (worker.numBlocks ≠ 0 ∧ tensor.size % worker.numBlocks = 0)) then
    some
      { worker with
        numBlocks := minNumBlocks
        kvCacheTensors := worker.kvCacheTensors.map fun tensor =>
          ⟨tensor.size / worker.numBlocks * minNumBlocks, tensor.sharedBy⟩ }
  else none

def workerConfigs (config : VllmConfig) (workers : List (List KVCacheGroupSpec × KVCacheSpecs × Int)) :
    Option (List WorkerConfig) :=
  workers.mapM fun (groups, specs, availableMemory) =>
    if (groups.map fun group => group.layerNames.length).sum ≠ specs.entries.length then none
    else getKvCacheConfigFromGroups config groups availableMemory

/-- The configurations of the workers, and the engine's configuration, whose
model length may have been fitted. -/
def getKvCacheConfigs (config : VllmConfig) (kvCacheSpecs : List KVCacheSpecs)
    (availableMemory : List Int) : Option (List WorkerConfig × VllmConfig) :=
  match (mergeKvCacheSpecs kvCacheSpecs Dict.empty).bind (getKvCacheGroups config) with
  | none => none
  | some globalGroups =>
    let projected := kvCacheSpecs.map (projectKvCacheGroupsToWorker globalGroups)
    let fitted :=
      if config.originalMaxModelLen = -1 then
        autoFitMaxModelLen config (projected.zip availableMemory)
      else some config
    match fitted with
    | none => none
    | some config =>
      if (projected.zip availableMemory).all (fun (groups, memory) =>
          checkEnoughKvCacheMemory config groups memory) = false then none
      else
        match workerConfigs config (projected.zip (kvCacheSpecs.zip availableMemory)) with
        | none => none
        | some [] => none
        | some (first :: rest) =>
          let minNumBlocks := (rest.map (·.numBlocks)).foldr min first.numBlocks
          ((first :: rest).mapM (shrinkConfig minNumBlocks)).map fun configs =>
            (configs, config)

/-- The scheduler takes one layer's spec for layers of one type. -/
def schedulerSpec : GroupSpec → Option KVCacheSpec
  | .single spec => some spec
  | .uniformType _ specs => specs.values.head?

def generateSchedulerKvCacheConfig (configs : List WorkerConfig) : Option KVCacheConfig :=
  match configs with
  | [] => none
  | first :: rest =>
    if rest.all (fun worker => decide (worker.numBlocks = first.numBlocks)) then
      (first.kvCacheGroups.mapM fun group => schedulerSpec group.kvCacheSpec).map
        fun specs => ⟨first.numBlocks, specs⟩
    else none

end VllmDcu.KVCacheConfigs
