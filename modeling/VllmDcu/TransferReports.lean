import Mathlib.Algebra.Order.BigOperators.Group.List
import Mathlib.Algebra.Order.Ring.Nat
import VllmDcu.Dict

/-! Aggregation of the workers' transfer reports. A set is listed in one order its
iteration may take, so a statement about every list is one about every order.
The request's finished entry counts down from the expected number of reports and
is deleted at zero. Combining statistics, metadata and events is the connector's
own code: it is a parameter, and `none` is a failed assertion. -/
namespace VllmDcu.TransferReports
open Dict List

structure IdSet (Id : Type) where
  ids : List Id
  unique : ids.Nodup
  deriving DecidableEq

section Sets
variable {Id : Type} [DecidableEq Id]

def IdSet.empty : IdSet Id := ⟨[], List.nodup_nil⟩

def IdSet.add (set : IdSet Id) (id : Id) : IdSet Id :=
  if absent : id ∈ set.ids then set
  else ⟨set.ids ++ [id], List.nodup_append.mpr ⟨set.unique, by simp, by
    intro a held b new same
    rw [List.mem_singleton] at new
    exact absent (new ▸ same ▸ held)⟩⟩

def IdSet.union (set other : IdSet Id) : IdSet Id := other.ids.foldl IdSet.add set

/-- The `or None` of the source. -/
def IdSet.orNone (set : IdSet Id) : Option (IdSet Id) :=
  if set.ids = [] then none else some set

@[simp] theorem IdSet.mem_add (set : IdSet Id) (id other : Id) :
    other ∈ (set.add id).ids ↔ other = id ∨ other ∈ set.ids := by
  unfold IdSet.add
  split
  · rename_i held
    constructor
    · exact Or.inr
    · rintro (rfl | already)
      · exact held
      · exact already
  · rw [mem_append, mem_singleton, or_comm]

end Sets

/-- The connector's own operations on what it sends along. -/
structure Connector (Stats Events Meta : Type) where
  aggregateStats : Stats → Stats → Option Stats
  statsTruthy : Stats → Bool
  aggregateMeta : Meta → Meta → Option Meta
  metaTruthy : Meta → Bool
  addEvents : Events → Events → Option Events
  eventsTruthy : Events → Bool

structure KVConnectorOutput (ReqId Block Stats Events Meta : Type) where
  finishedSending : Option (IdSet ReqId)
  finishedRecving : Option (IdSet ReqId)
  kvConnectorStats : Option Stats
  kvCacheEvents : Option Events
  kvConnectorWorkerMeta : Option Meta
  invalidBlockIds : IdSet Block
  expectedFinishedCount : Int

/-- `sampled` is every other field of the runner's output. -/
structure ModelRunnerOutput (ReqId Block Stats Events Meta Sampled : Type) where
  sampled : Sampled
  kvConnectorOutput : Option (KVConnectorOutput ReqId Block Stats Events Meta)

structure KVOutputAggregator (ReqId : Type) where
  recvRemainingCount : Dict ReqId Int
  sendRemainingCount : Dict ReqId Int
  expectedFinishedCount : Int

/-- The locals of `aggregate` that its loop over the outputs fills. -/
structure Gathered (ReqId Block Stats Events Meta : Type) where
  finishedSending : IdSet ReqId
  finishedRecving : IdSet ReqId
  stats : Option Stats
  workerMeta : Option Meta
  events : Option Events
  invalidBlockIds : IdSet Block

variable {ReqId Block Stats Events Meta Sampled : Type} [DecidableEq ReqId] [DecidableEq Block]

def KVOutputAggregator.init (expected : Int) : KVOutputAggregator ReqId :=
  ⟨Dict.empty, Dict.empty, expected⟩

def countDown (expected : Int) (state : Dict ReqId Int × IdSet ReqId) (reqId : ReqId) :
    Dict ReqId Int × IdSet ReqId :=
  let remaining := (state.1.get? reqId).getD expected
  let counted := state.1.set reqId (remaining - 1)
  if remaining - 1 = 0 then (counted.erase reqId, state.2.add reqId) else (counted, state.2)

def updateFinishedSet (expected : Int) (reqIds : Option (IdSet ReqId))
    (remaining : Dict ReqId Int) (finished : IdSet ReqId) : Dict ReqId Int × IdSet ReqId :=
  ((reqIds.map IdSet.ids).getD []).foldl (countDown expected) (remaining, finished)

/-- The first worker's value starts the accumulator; a later one is combined with
it when the test of the source lets it through. -/
def combine {Item : Type} (truthy : Item → Bool) (join : Item → Item → Option Item)
    (acc item : Option Item) : Option (Option Item) :=
  match acc with
  | none => some item
  | some first =>
    match item with
    | none => some acc
    | some next => if truthy next then (join first next).map some else some acc

def gatherOutput (connector : Connector Stats Events Meta)
    (state : KVOutputAggregator ReqId × Gathered ReqId Block Stats Events Meta)
    (kvOutput : KVConnectorOutput ReqId Block Stats Events Meta) :
    Option (KVOutputAggregator ReqId × Gathered ReqId Block Stats Events Meta) := do
  let expected :=
    if 0 < kvOutput.expectedFinishedCount then kvOutput.expectedFinishedCount
    else state.1.expectedFinishedCount
  let sending := updateFinishedSet expected kvOutput.finishedSending
    state.1.sendRemainingCount state.2.finishedSending
  let recving := updateFinishedSet expected kvOutput.finishedRecving
    state.1.recvRemainingCount state.2.finishedRecving
  let stats ← combine connector.statsTruthy connector.aggregateStats
    state.2.stats kvOutput.kvConnectorStats
  let workerMeta ← combine connector.metaTruthy connector.aggregateMeta
    state.2.workerMeta kvOutput.kvConnectorWorkerMeta
  let events ← combine connector.eventsTruthy connector.addEvents
    state.2.events kvOutput.kvCacheEvents
  some (⟨recving.1, sending.1, expected⟩,
    ⟨sending.2, recving.2, stats, workerMeta, events,
      state.2.invalidBlockIds.union kvOutput.invalidBlockIds⟩)

/-- The loop over the workers' outputs. A missing output fails the assertion. -/
def gather (connector : Connector Stats Events Meta) :
    List (Option (ModelRunnerOutput ReqId Block Stats Events Meta Sampled)) →
    KVOutputAggregator ReqId × Gathered ReqId Block Stats Events Meta →
    Option (KVOutputAggregator ReqId × Gathered ReqId Block Stats Events Meta)
  | [], state => some state
  | none :: _, _ => none
  | some output :: rest, state =>
    match output.kvConnectorOutput with
    | none => gather connector rest state
    | some kvOutput => (gatherOutput connector state kvOutput).bind (gather connector rest)

def Gathered.start : Gathered ReqId Block Stats Events Meta :=
  ⟨IdSet.empty, IdSet.empty, none, none, none, IdSet.empty⟩

def Gathered.result (connector : Connector Stats Events Meta)
    (gathered : Gathered ReqId Block Stats Events Meta) (expected : Int) :
    KVConnectorOutput ReqId Block Stats Events Meta where
  finishedSending := gathered.finishedSending.orNone
  finishedRecving := gathered.finishedRecving.orNone
  kvConnectorStats := gathered.stats.filter connector.statsTruthy
  kvCacheEvents := gathered.events.filter connector.eventsTruthy
  kvConnectorWorkerMeta := gathered.workerMeta.filter connector.metaTruthy
  invalidBlockIds := gathered.invalidBlockIds
  expectedFinishedCount := expected

/-- One call: the state it leaves and the output it returns, which is `none` when
the output of `outputRank` is missing; the outer `none` is an exception. -/
def aggregate (connector : Connector Stats Events Meta) (self : KVOutputAggregator ReqId)
    (outputs : List (Option (ModelRunnerOutput ReqId Block Stats Events Meta Sampled)))
    (outputRank : Nat) :
    Option (KVOutputAggregator ReqId ×
      Option (ModelRunnerOutput ReqId Block Stats Events Meta Sampled)) :=
  match outputs[outputRank]? with
  | none => none
  | some none => some (self, none)
  | some (some output) =>
    (gather connector outputs (self, Gathered.start)).map fun done =>
      (done.1, some ⟨output.sampled, some (done.2.result connector done.1.expectedFinishedCount)⟩)

inductive Side where
  | sending
  | recving
  deriving DecidableEq

def KVConnectorOutput.finished (output : KVConnectorOutput ReqId Block Stats Events Meta) :
    Side → Option (IdSet ReqId)
  | .sending => output.finishedSending
  | .recving => output.finishedRecving

def KVOutputAggregator.remaining (self : KVOutputAggregator ReqId) : Side → Dict ReqId Int
  | .sending => self.sendRemainingCount
  | .recving => self.recvRemainingCount

def Gathered.finished (gathered : Gathered ReqId Block Stats Events Meta) : Side → IdSet ReqId
  | .sending => gathered.finishedSending
  | .recving => gathered.finishedRecving

/-- What the dictionary holds after `seen` reports of each request: the reports
still missing from the round of `n` that is open, and no entry between rounds. -/
def Counts (n : Nat) (seen : ReqId → Nat) (remaining : Dict ReqId Int) : Prop :=
  ∀ reqId, remaining.get? reqId =
    if seen reqId % n = 0 then none else some ((n - seen reqId % n : Nat) : Int)

variable (n : Nat)

theorem round_step (seen : Nat) (positive : 0 < n) :
    (seen % n + 1 = n ∧ (seen + 1) % n = 0 ∧ (seen + 1) / n = seen / n + 1) ∨
      (seen % n + 1 < n ∧ (seen + 1) % n = seen % n + 1 ∧ (seen + 1) / n = seen / n) := by
  have bound := Nat.mod_lt seen positive
  have parts := Nat.div_add_mod seen n
  by_cases last : seen % n + 1 = n
  · left
    have next : seen + 1 = n * (seen / n + 1) := by
      rw [Nat.mul_add]
      omega
    constructor
    · exact last
    · rw [next]
      exact ⟨Nat.mul_mod_right n _, Nat.mul_div_cancel_left _ positive⟩
  · right
    have small : seen % n + 1 < n := by omega
    have next : seen + 1 = n * (seen / n) + (seen % n + 1) := by omega
    constructor
    · exact small
    · constructor
      · conv => lhs; rw [next]
        rw [Nat.mul_add_mod, Nat.mod_eq_of_lt small]
      · conv => lhs; rw [next]
        rw [Nat.mul_add_div positive, Nat.div_eq_of_lt small, Nat.add_zero]

theorem countDown_counts (positive : 0 < n) (seen : ReqId → Nat)
    (state : Dict ReqId Int × IdSet ReqId) (reqId : ReqId) (counts : Counts n seen state.1) :
    Counts n (fun other => seen other + if other = reqId then 1 else 0)
        (countDown (n : Int) state reqId).1 ∧
      ∀ other, other ∈ (countDown (n : Int) state reqId).2.ids ↔
        other ∈ state.2.ids ∨ (other = reqId ∧ seen reqId / n < (seen reqId + 1) / n) := by
  have missing : (state.1.get? reqId).getD (n : Int) = ((n - seen reqId % n : Nat) : Int) := by
    rw [counts reqId]
    split
    · rename_i closed
      simp [closed]
    · rfl
  -- the report either closes the round, and the entry goes, or leaves one fewer
  rcases round_step n (seen reqId) positive with ⟨last, closed, up⟩ | ⟨open_, larger, same⟩
  · have zero : ((n - seen reqId % n : Nat) : Int) - 1 = 0 := by omega
    simp only [countDown, missing, zero, ↓reduceIte]
    constructor
    · intro other
      by_cases self : other = reqId
      · simp [self, closed]
      · simp [self, counts other]
    · intro other
      rw [IdSet.mem_add, up]
      constructor
      · rintro (self | held)
        · exact Or.inr ⟨self, Nat.lt_succ_self _⟩
        · exact Or.inl held
      · rintro (held | ⟨self, -⟩)
        · exact Or.inr held
        · exact Or.inl self
  · have more : ¬ ((n - seen reqId % n : Nat) : Int) - 1 = 0 := by omega
    simp only [countDown, missing, more, ↓reduceIte]
    constructor
    · intro other
      by_cases self : other = reqId
      · have left : ((n - seen reqId % n : Nat) : Int) - 1 = ((n - (seen reqId % n + 1) : Nat) : Int) := by
          omega
        simp [self, larger, left]
      · simp [self, counts other]
    · simp [same]

theorem countDown_foldl (positive : 0 < n) (ids : List ReqId) (seen : ReqId → Nat)
    (state : Dict ReqId Int × IdSet ReqId) (counts : Counts n seen state.1) :
    Counts n (fun other => seen other + ids.count other) (ids.foldl (countDown (n : Int)) state).1 ∧
      ∀ other, other ∈ (ids.foldl (countDown (n : Int)) state).2.ids ↔
        other ∈ state.2.ids ∨ seen other / n < (seen other + ids.count other) / n := by
  induction ids generalizing seen state with
  | nil => simpa using counts
  | cons reqId rest ih =>
    obtain ⟨stepCounts, stepMem⟩ := countDown_counts n positive seen state reqId counts
    obtain ⟨restCounts, restMem⟩ := ih _ _ stepCounts
    have total : ∀ other, seen other + (reqId :: rest).count other =
        seen other + (if other = reqId then 1 else 0) + rest.count other := by
      intro other
      by_cases self : other = reqId
      · simp [self]; omega
      · simp [self, Ne.symm self]
    constructor
    · intro other
      beta_reduce
      rw [total other]
      exact restCounts other
    · intro other
      rw [foldl_cons, restMem other, stepMem other, total other]
      by_cases self : other = reqId
      · subst self
        have first := Nat.div_le_div_right (c := n) (Nat.le_add_right (seen other) 1)
        have second := Nat.div_le_div_right (c := n)
          (Nat.le_add_right (seen other + 1) (rest.count other))
        simp only [↓reduceIte, true_and]
        constructor
        · rintro ((held | turn) | later)
          · exact Or.inl held
          · right; omega
          · right; omega
        · rintro (held | turn)
          · exact Or.inl (Or.inl held)
          · omega
      · simp [self]

def KVConnectorOutput.listed (output : KVConnectorOutput ReqId Block Stats Events Meta)
    (side : Side) : List ReqId :=
  ((output.finished side).map IdSet.ids).getD []

/-- How often one worker's output reports a request as finished: at most once. -/
def reports (side : Side) (reqId : ReqId)
    (output : Option (ModelRunnerOutput ReqId Block Stats Events Meta Sampled)) : Nat :=
  match output.bind ModelRunnerOutput.kvConnectorOutput with
  | none => 0
  | some kvOutput => (kvOutput.listed side).count reqId

def reported (side : Side) (reqId : ReqId)
    (outputs : List (Option (ModelRunnerOutput ReqId Block Stats Events Meta Sampled))) : Nat :=
  (outputs.map (reports side reqId)).sum

/-- The aggregator after `seen` counted reports of each request on each side. -/
structure Tallied (n : Nat) (seen : Side → ReqId → Nat) (agg : KVOutputAggregator ReqId) :
    Prop where
  expected : agg.expectedFinishedCount = n
  counts : ∀ side, Counts n (seen side) (agg.remaining side)

/-- The expected number of reports does not change: an output says nothing about
it or repeats it. -/
def Fixed (n : Nat) (output : Option (ModelRunnerOutput ReqId Block Stats Events Meta Sampled)) :
    Prop :=
  ∀ kvOutput, output.bind ModelRunnerOutput.kvConnectorOutput = some kvOutput →
    kvOutput.expectedFinishedCount ≤ 0 ∨ kvOutput.expectedFinishedCount = n

variable (connector : Connector Stats Events Meta)

theorem gatherOutput_side (n : Nat)
    (state after : KVOutputAggregator ReqId × Gathered ReqId Block Stats Events Meta)
    (kvOutput : KVConnectorOutput ReqId Block Stats Events Meta)
    (expected : state.1.expectedFinishedCount = n)
    (fixed : kvOutput.expectedFinishedCount ≤ 0 ∨ kvOutput.expectedFinishedCount = n)
    (done : gatherOutput connector state kvOutput = some after) :
    after.1.expectedFinishedCount = n ∧ ∀ side,
      (after.1.remaining side, after.2.finished side) =
        updateFinishedSet n (kvOutput.finished side) (state.1.remaining side)
          (state.2.finished side) := by
  have kept : (if 0 < kvOutput.expectedFinishedCount then kvOutput.expectedFinishedCount
      else state.1.expectedFinishedCount) = (n : Int) := by
    split
    · omega
    · exact expected
  simp only [gatherOutput, kept, Option.bind_eq_bind, Option.bind_eq_some_iff,
    Option.some.injEq] at done
  obtain ⟨stats, -, workerMeta, -, events, -, rfl⟩ := done
  constructor
  · rfl
  · intro side
    cases side <;> rfl

theorem gather_tallied (n : Nat) (positive : 0 < n)
    (outputs : List (Option (ModelRunnerOutput ReqId Block Stats Events Meta Sampled)))
    (seen : Side → ReqId → Nat)
    (state after : KVOutputAggregator ReqId × Gathered ReqId Block Stats Events Meta)
    (fixed : ∀ output ∈ outputs, Fixed n output) (tallied : Tallied n seen state.1)
    (done : gather connector outputs state = some after) :
    Tallied n (fun side reqId => seen side reqId + reported side reqId outputs) after.1 ∧
      ∀ side reqId, reqId ∈ (after.2.finished side).ids ↔
        reqId ∈ (state.2.finished side).ids ∨
          seen side reqId / n < (seen side reqId + reported side reqId outputs) / n := by
  induction outputs generalizing seen state with
  | nil =>
    cases done
    simpa [reported] using tallied
  | cons output rest ih =>
    have fixedRest : ∀ later ∈ rest, Fixed n later :=
      fun later inRest => fixed later (mem_cons_of_mem _ inRest)
    cases output with
    | none => cases done
    | some output =>
      cases sent : output.kvConnectorOutput with
      | none =>
        simp only [gather, sent] at done
        have silent : ∀ side reqId,
            reported side reqId (some output :: rest) = reported side reqId rest := by
          simp [reported, reports, sent]
        simpa only [silent] using ih seen state fixedRest tallied done
      | some kvOutput =>
        simp only [gather, sent, Option.bind_eq_some_iff] at done
        obtain ⟨middle, first, later⟩ := done
        obtain ⟨expected, sides⟩ := gatherOutput_side connector n state middle kvOutput
          tallied.expected (fixed _ mem_cons_self kvOutput sent) first
        have total : ∀ side reqId, reported side reqId (some output :: rest) =
            (kvOutput.listed side).count reqId + reported side reqId rest := by
          simp [reported, reports, sent]
        have stepped := fun side => countDown_foldl n positive (kvOutput.listed side) (seen side)
          (state.1.remaining side, state.2.finished side) (tallied.counts side)
        have middleCounts : Tallied n (fun side reqId => seen side reqId +
            (kvOutput.listed side).count reqId) middle.1 := by
          constructor
          · exact expected
          · intro side
            have left := congrArg Prod.fst (sides side)
            rw [show middle.1.remaining side = _ from left]
            exact (stepped side).1
        obtain ⟨restCounts, restMem⟩ := ih _ middle fixedRest middleCounts later
        constructor
        · simpa only [total, ← Nat.add_assoc] using restCounts
        · intro side reqId
          have atStep : reqId ∈ (middle.2.finished side).ids ↔
              reqId ∈ (state.2.finished side).ids ∨ seen side reqId / n <
                (seen side reqId + (kvOutput.listed side).count reqId) / n := by
            rw [show middle.2.finished side = _ from congrArg Prod.snd (sides side)]
            exact (stepped side).2 reqId
          rw [restMem side reqId, atStep, total side reqId, ← Nat.add_assoc]
          have up := Nat.div_le_div_right (c := n) (Nat.le_add_right (seen side reqId)
            ((kvOutput.listed side).count reqId))
          have further := Nat.div_le_div_right (c := n) (Nat.le_add_right (seen side reqId +
            (kvOutput.listed side).count reqId)
            (reported side reqId rest))
          rw [or_assoc]
          apply or_congr Iff.rfl
          omega

structure Call (ReqId Block Stats Events Meta Sampled : Type) where
  outputs : List (Option (ModelRunnerOutput ReqId Block Stats Events Meta Sampled))
  outputRank : Nat

/-- A run of calls: the state after each call and what it returned. -/
def aggregateAll (connector : Connector Stats Events Meta) (self : KVOutputAggregator ReqId) :
    List (Call ReqId Block Stats Events Meta Sampled) →
    Option (List (KVOutputAggregator ReqId ×
      Option (ModelRunnerOutput ReqId Block Stats Events Meta Sampled)))
  | [] => some []
  | call :: rest => do
      let done ← aggregate connector self call.outputs call.outputRank
      let later ← aggregateAll connector done.1 rest
      some (done :: later)

/-- The reports of a call that the aggregator looks at. -/
def counted (side : Side) (reqId : ReqId) (call : Call ReqId Block Stats Events Meta Sampled) :
    Nat :=
  match call.outputs[call.outputRank]? with
  | some (some _) => reported side reqId call.outputs
  | _ => 0

variable (side : Side) (reqId : ReqId)

omit [DecidableEq Block] in
theorem counted_le (call : Call ReqId Block Stats Events Meta Sampled) :
    counted side reqId call ≤ reported side reqId call.outputs := by
  unfold counted
  split
  · exact Nat.le_refl _
  · exact Nat.zero_le _

omit [DecidableEq Block] in
theorem result_reports (sampled : Sampled) (gathered : Gathered ReqId Block Stats Events Meta)
    (expected : Int) :
    0 < reports side reqId (some ⟨sampled, some (gathered.result connector expected)⟩) ↔
      reqId ∈ (gathered.finished side).ids := by
  have back : ∀ set : IdSet ReqId, ((set.orNone.map IdSet.ids).getD []) = set.ids := by
    intro set
    unfold IdSet.orNone
    split
    · rename_i nothing
      simp [nothing]
    · rfl
  have same : (gathered.result connector expected).listed side = (gathered.finished side).ids := by
    cases side <;> exact back _
  simp only [reports, Option.bind_some]
  rw [same, count_pos_iff]

theorem aggregate_tallied (n : Nat) (positive : 0 < n)
    {call : Call ReqId Block Stats Events Meta Sampled} {seen : Side → ReqId → Nat}
    {agg : KVOutputAggregator ReqId}
    {done : KVOutputAggregator ReqId ×
      Option (ModelRunnerOutput ReqId Block Stats Events Meta Sampled)}
    (fixed : ∀ output ∈ call.outputs, Fixed n output) (tallied : Tallied n seen agg)
    (ran : aggregate connector agg call.outputs call.outputRank = some done) :
    Tallied n (fun side reqId => seen side reqId + counted side reqId call) done.1 ∧
      ∀ side reqId, 0 < reports side reqId done.2 ↔
        seen side reqId / n < (seen side reqId + counted side reqId call) / n := by
  cases held : call.outputs[call.outputRank]? with
  | none => simp [aggregate, held] at ran
  | some present =>
    cases present with
    | none =>
      -- the early return: the state stays and nothing is reported
      simp only [aggregate, held, Option.some.injEq] at ran
      subst ran
      have nothing : ∀ side reqId, counted side reqId call = 0 := by
        simp [counted, held]
      constructor
      · simpa only [nothing, Nat.add_zero] using tallied
      · simp [nothing, reports]
    | some output =>
      simp only [aggregate, held, Option.map_eq_some_iff] at ran
      obtain ⟨gathered, ran, rfl⟩ := ran
      have all : ∀ side reqId, counted side reqId call = reported side reqId call.outputs := by
        simp [counted, held]
      obtain ⟨after, finished⟩ := gather_tallied connector n positive call.outputs seen
        (agg, Gathered.start) gathered fixed tallied ran
      constructor
      · simpa only [all] using after
      · intro side reqId
        rw [result_reports, finished side reqId, all]
        have started : reqId ∉ ((Gathered.start :
            Gathered ReqId Block Stats Events Meta).finished side).ids := by
          cases side <;> simp [Gathered.start, Gathered.finished, IdSet.empty]
        constructor
        · rintro (old | turn)
          · exact absurd old started
          · exact turn
        · exact Or.inr

/-- The reports the aggregator has looked at over a list of calls. -/
def countedIn (side : Side) (reqId : ReqId)
    (calls : List (Call ReqId Block Stats Events Meta Sampled)) : Nat :=
  (calls.map (counted side reqId)).sum

/-- The reports the workers have sent over a list of calls. -/
def received (side : Side) (reqId : ReqId)
    (calls : List (Call ReqId Block Stats Events Meta Sampled)) : Nat :=
  (calls.map fun call => reported side reqId call.outputs).sum

theorem aggregateAll_tallied (n : Nat) (positive : 0 < n)
    (calls : List (Call ReqId Block Stats Events Meta Sampled)) (seen : Side → ReqId → Nat)
    (agg : KVOutputAggregator ReqId)
    (log : List (KVOutputAggregator ReqId ×
      Option (ModelRunnerOutput ReqId Block Stats Events Meta Sampled)))
    (fixed : ∀ call ∈ calls, ∀ output ∈ call.outputs, Fixed n output) (tallied : Tallied n seen agg)
    (ran : aggregateAll connector agg calls = some log) :
    log.length = calls.length ∧ ∀ k done, log[k]? = some done →
      Tallied n (fun side reqId => seen side reqId + countedIn side reqId (calls.take (k + 1)))
        done.1 ∧
      ∀ side reqId, 0 < reports side reqId done.2 ↔
        (seen side reqId + countedIn side reqId (calls.take k)) / n <
          (seen side reqId + countedIn side reqId (calls.take (k + 1))) / n := by
  induction calls generalizing seen agg log with
  | nil =>
    cases ran
    constructor
    · rfl
    · intro k done held
      cases held
  | cons call rest ih =>
    simp only [aggregateAll, Option.bind_eq_bind, Option.bind_eq_some_iff, Option.some.injEq] at ran
    obtain ⟨first, ranFirst, later, ranLater, rfl⟩ := ran
    obtain ⟨stepTallied, stepFinished⟩ := aggregate_tallied connector n positive (fixed call mem_cons_self) tallied ranFirst
    obtain ⟨lengths, laterAll⟩ := ih _ first.1 later
      (fun other inRest => fixed other (mem_cons_of_mem _ inRest)) stepTallied ranLater
    constructor
    · simp [lengths]
    · intro k done held
      cases k with
      | zero =>
        simp only [getElem?_cons_zero, Option.some.injEq] at held
        subst held
        constructor
        · simpa [countedIn] using stepTallied
        · assumption
      | succ k =>
        obtain ⟨after, finished⟩ := laterAll k done held
        have total : ∀ side reqId m, countedIn side reqId ((call :: rest).take (m + 1)) =
            counted side reqId call + countedIn side reqId (rest.take m) := by
          simp [countedIn]
        constructor
        · simpa only [total, ← Nat.add_assoc] using after
        · intro side reqId
          simpa only [total, ← Nat.add_assoc] using finished side reqId

/-- Each of the `n` workers reports the request in exactly one call. -/
def EachOnce (n : Nat) (side : Side) (reqId : ReqId)
    (calls : List (Call ReqId Block Stats Events Meta Sampled)) : Prop :=
  ∀ worker < n,
    (calls.map fun call => reports side reqId (call.outputs[worker]?).join).sum = 1

/-- The request is delivered by the call in which its `n`-th report arrives, by no
other call, and from that call on the state says nothing about it. -/
def FinishedOnce (n : Nat) (side : Side) (reqId : ReqId)
    (calls : List (Call ReqId Block Stats Events Meta Sampled))
    (log : List (KVOutputAggregator ReqId ×
      Option (ModelRunnerOutput ReqId Block Stats Events Meta Sampled))) : Prop :=
  ∃ k < calls.length,
    received side reqId (calls.take k) < n ∧ received side reqId (calls.take (k + 1)) = n ∧
    (∀ (j : Nat) done, log[j]? = some done → (0 < reports side reqId done.2 ↔ j = k)) ∧
    ∀ (j : Nat) done, log[j]? = some done → k ≤ j →
      (done.1.remaining side).get? reqId = none

/-- No call whose `outputRank` has no output carries a report of another worker. -/
def NoneDropped (calls : List (Call ReqId Block Stats Events Meta Sampled)) : Prop :=
  ∀ call ∈ calls, call.outputs[call.outputRank]? = some none →
    ∀ side reqId, reported side reqId call.outputs = 0

omit [DecidableEq Block] in
theorem reported_workers
    (outputs : List (Option (ModelRunnerOutput ReqId Block Stats Events Meta Sampled))) :
    reported side reqId outputs =
      ((List.range outputs.length).map fun worker =>
        reports side reqId (outputs[worker]?).join).sum := by
  unfold reported
  congr 1
  apply ext_getElem
  · simp
  · intro index inLeft inRight
    simp only [length_map] at inLeft
    simp [inLeft]

variable (calls : List (Call ReqId Block Stats Events Meta Sampled))

omit [DecidableEq Block] in
theorem received_workers (lengths : ∀ call ∈ calls, call.outputs.length = n) :
    received side reqId calls =
      ((List.range n).map fun worker =>
        (calls.map fun call => reports side reqId (call.outputs[worker]?).join).sum).sum := by
  induction calls with
  | nil => simp [received]
  | cons call rest ih =>
    have here := lengths call mem_cons_self
    have there := ih fun other inRest => lengths other (mem_cons_of_mem _ inRest)
    have split : received side reqId (call :: rest) =
        reported side reqId call.outputs + received side reqId rest := by
      simp [received]
    rw [split, there, reported_workers, here]
    simp only [map_cons, sum_cons]
    rw [sum_map_add]

omit [DecidableEq Block] in
theorem received_once (lengths : ∀ call ∈ calls, call.outputs.length = n)
    (once : EachOnce n side reqId calls) :
    received side reqId calls = n := by
  rw [received_workers n side reqId calls lengths]
  have ones : ((range n).map fun worker =>
      (calls.map fun call => reports side reqId (call.outputs[worker]?).join).sum) =
      (range n).map fun _ => 1 := by
    apply map_congr_left
    intro worker inRange
    exact once worker (mem_range.mp inRange)
  rw [ones]
  simp

omit [DecidableEq Block] in
theorem received_take_le (j k : Nat) (order : j ≤ k) :
    received side reqId (calls.take j) ≤ received side reqId (calls.take k) := by
  apply Sublist.sum_le_sum
  · apply Sublist.map
    exact (take_prefix_take_left order).sublist
  · omega

/-- A monotone count that starts below `n` and ends at `n` reaches it at one step. -/
theorem exists_turn (count : Nat → Nat) (n m : Nat)
    (mono : ∀ j k, j ≤ k → count j ≤ count k) (first : count 0 < n) (last : count m = n) :
    ∃ k < m, count k < n ∧ count (k + 1) = n := by
  induction m with
  | zero => omega
  | succ m ih =>
    by_cases here : count m = n
    · obtain ⟨k, inside, below, reached⟩ := ih here
      exact ⟨k, by omega, below, reached⟩
    · have below := mono m (m + 1) (Nat.le_succ m)
      exact ⟨m, Nat.lt_succ_self m, by omega, last⟩

omit [DecidableEq Block] in
theorem countedIn_eq_received (ranked : ∀ call ∈ calls, call.outputs[call.outputRank]? ≠ none)
    (kept : NoneDropped calls) :
    countedIn side reqId calls = received side reqId calls := by
  unfold countedIn received
  congr 1
  apply map_congr_left
  intro call inCalls
  unfold counted
  split
  · rfl
  · rename_i missing
    cases held : call.outputs[call.outputRank]? with
    | none => exact absurd held (ranked call inCalls)
    | some present =>
      cases present with
      | none => exact (kept call inCalls held side reqId).symm
      | some output => exact absurd held (missing output)

theorem aggregateAll_ranked (agg : KVOutputAggregator ReqId)
    (log : List (KVOutputAggregator ReqId ×
      Option (ModelRunnerOutput ReqId Block Stats Events Meta Sampled)))
    (ran : aggregateAll connector agg calls = some log) :
    ∀ call ∈ calls, call.outputs[call.outputRank]? ≠ none := by
  induction calls generalizing agg log with
  | nil => simp
  | cons call rest ih =>
    simp only [aggregateAll, Option.bind_eq_bind, Option.bind_eq_some_iff, Option.some.injEq] at ran
    obtain ⟨first, ranFirst, later, ranLater, -⟩ := ran
    intro other inCalls
    cases mem_cons.mp inCalls with
    | inl here =>
      subst here
      intro missing
      simp [aggregate, missing] at ranFirst
    | inr there => exact ih _ _ ranLater other there

/-- In a run in which each worker reports each request once, every reported request
finishes exactly once, at its `n`-th report, exactly when no report came in a call
in which the output of `outputRank` was missing. -/
theorem finished_once_iff_none_dropped (connector : Connector Stats Events Meta) (n : Nat)
    (calls : List (Call ReqId Block Stats Events Meta Sampled))
    (log : List (KVOutputAggregator ReqId ×
      Option (ModelRunnerOutput ReqId Block Stats Events Meta Sampled)))
    (workers : ∀ call ∈ calls, call.outputs.length = n)
    (fixed : ∀ call ∈ calls, ∀ output ∈ call.outputs, Fixed n output)
    (once : ∀ side reqId, received side reqId calls ≠ 0 → EachOnce n side reqId calls)
    (ran : aggregateAll connector (KVOutputAggregator.init n) calls = some log) :
    (∀ side reqId, received side reqId calls ≠ 0 → FinishedOnce n side reqId calls log) ↔
      NoneDropped calls := by
  have ranked := aggregateAll_ranked connector calls _ log ran
  by_cases positive : 0 < n
  · have start : Tallied n (fun _ _ => 0) (KVOutputAggregator.init n : KVOutputAggregator ReqId) := by
      constructor
      · rfl
      · intro side reqId
        cases side <;> simp [KVOutputAggregator.init, KVOutputAggregator.remaining]
    obtain ⟨lengths, steps⟩ := aggregateAll_tallied connector n positive calls _ _ log fixed start ran
    constructor
    · intro finished call inCalls missing side reqId
      by_contra dropped
      have some_ : received side reqId calls ≠ 0 := by
        have part : reported side reqId call.outputs ≤ received side reqId calls :=
          single_le_sum (by simp) _ (mem_map.mpr ⟨call, inCalls, rfl⟩)
        omega
      have total := received_once n side reqId calls workers (once side reqId some_)
      -- one report is never looked at, so the count stays below n for good
      have short : countedIn side reqId calls < n := by
        rw [← total]
        apply sum_lt_sum
        · intro other _
          exact counted_le side reqId other
        · refine ⟨call, inCalls, ?_⟩
          simp only [counted, missing]
          omega
      obtain ⟨k, inside, -, -, only, -⟩ := finished side reqId some_
      have held : log[k]? = some log[k] := getElem?_eq_getElem (by omega)
      have turned := ((steps k _ held).2 side reqId).mp ((only k _ held).mpr rfl)
      rw [Nat.zero_add, Nat.zero_add] at turned
      have below : countedIn side reqId (calls.take (k + 1)) ≤ countedIn side reqId calls := by
        apply List.Sublist.sum_le_sum
        · exact (take_sublist _ _).map _
        · omega
      rw [Nat.div_eq_of_lt (by omega : countedIn side reqId (calls.take (k + 1)) < n)] at turned
      exact absurd turned (Nat.not_lt_zero _)
    · intro kept side reqId some_
      have total := received_once n side reqId calls workers (once side reqId some_)
      have same : ∀ k, countedIn side reqId (calls.take k) = received side reqId (calls.take k) := by
        intro k
        apply countedIn_eq_received
        · intro call inTake
          exact ranked call (mem_of_mem_take inTake)
        · intro call inTake
          exact kept call (mem_of_mem_take inTake)
      have mono := received_take_le side reqId calls
      have bound : ∀ k, received side reqId (calls.take k) ≤ n := by
        intro k
        have up := mono k (max k calls.length) (Nat.le_max_left _ _)
        rw [take_of_length_le (Nat.le_max_right _ _)] at up
        omega
      obtain ⟨k, inside, below, reached⟩ := exists_turn
        (fun k => received side reqId (calls.take k)) n calls.length mono
        (by simpa [received] using positive) (by simpa using total)
      refine ⟨k, inside, below, reached, ?_, ?_⟩
      · intro j done held
        rw [(steps j done held).2 side reqId, Nat.zero_add, Nat.zero_add, same, same]
        have early : ∀ m, received side reqId (calls.take m) < n ↔ m ≤ k := by
          intro m
          constructor
          · by_contra later
            have up := mono (k + 1) m (by omega)
            omega
          · intro upTo
            have up := mono m k upTo
            omega
        have share : ∀ m, received side reqId (calls.take m) / n = if m ≤ k then 0 else 1 := by
          intro m
          by_cases under : m ≤ k
          · rw [if_pos under, Nat.div_eq_of_lt ((early m).mpr under)]
          · have full := bound m
            have notUnder := mt (early m).mp under
            have all : received side reqId (calls.take m) = n := by omega
            rw [if_neg under, all, Nat.div_self positive]
        rw [share j, share (j + 1)]
        split <;> split <;> omega
      · intro j done held after
        have up := mono (k + 1) (j + 1) (by omega)
        have most := bound (j + 1)
        have all : received side reqId (calls.take (j + 1)) = n := by omega
        have now : 0 + countedIn side reqId (calls.take (j + 1)) = n := by
          rw [Nat.zero_add, same, all]
        rw [(steps j done held).1.counts side reqId]
        beta_reduce
        rw [now, Nat.mod_self, if_pos rfl]
  · -- without workers no call returns, and the run is empty
    have noCalls : calls = [] := by
      cases calls with
      | nil => rfl
      | cons call rest =>
        have empty := workers call mem_cons_self
        have present := ranked call mem_cons_self
        exact absurd (getElem?_eq_none (by omega)) present
    subst noCalls
    constructor
    · intro _ call inCalls
      cases inCalls
    · intro _ side reqId some_
      exact absurd rfl some_

/-- A connector that sends no statistics, metadata or events. -/
def plainConnector : Connector Unit Unit Unit where
  aggregateStats := fun first _ => some first
  statsTruthy := fun _ => true
  aggregateMeta := fun first _ => some first
  metaTruthy := fun _ => true
  addEvents := fun first _ => some first
  eventsTruthy := fun _ => true

/-- A worker's output that reports the listed requests as finished sending. -/
def sentOutput (ids : List Nat) (unique : ids.Nodup) :
    Option (ModelRunnerOutput Nat Nat Unit Unit Unit Unit) :=
  some ⟨(), some ⟨some ⟨ids, unique⟩, none, none, none, none, IdSet.empty, 0⟩⟩

/-- Two workers report request 7, the second one step earlier. -/
def twoReports : List (Call Nat Nat Unit Unit Unit Unit) :=
  [⟨[sentOutput [] (by decide), sentOutput [7] (by decide)], 0⟩,
    ⟨[sentOutput [7] (by decide), sentOutput [] (by decide)], 0⟩]

/-- The same reports, with no output of rank 0 in the first call. -/
def lostReport : List (Call Nat Nat Unit Unit Unit Unit) :=
  [⟨[none, sentOutput [7] (by decide)], 0⟩,
    ⟨[sentOutput [7] (by decide), sentOutput [] (by decide)], 0⟩]

theorem lostReport_only (reqId : Nat) (some_ : received side reqId lostReport ≠ 0) :
    side = .sending ∧ reqId = 7 := by
  cases side with
  | sending =>
    by_contra other
    simp only [true_and] at other
    apply some_
    simp [lostReport, received, reported, reports, sentOutput, KVConnectorOutput.listed,
      KVConnectorOutput.finished, Ne.symm other]
  | recving =>
    exact absurd (by simp [lostReport, received, reported, reports, sentOutput,
      KVConnectorOutput.listed, KVConnectorOutput.finished]) some_

theorem twoReports_only (reqId : Nat) (some_ : received side reqId twoReports ≠ 0) :
    side = .sending ∧ reqId = 7 := by
  cases side with
  | sending =>
    by_contra other
    simp only [true_and] at other
    apply some_
    simp [twoReports, received, reported, reports, sentOutput, KVConnectorOutput.listed,
      KVConnectorOutput.finished, Ne.symm other]
  | recving =>
    exact absurd (by simp [twoReports, received, reported, reports, sentOutput,
      KVConnectorOutput.listed, KVConnectorOutput.finished]) some_

theorem sentOutput_fixed (ids : List Nat) (unique : ids.Nodup) :
    Fixed n (sentOutput ids unique) := by
  intro kvOutput sent
  cases sent
  exact Or.inl (Int.le_refl 0)

/-- Both workers report request 7 once, and it is never delivered. -/
theorem lostReport_never_finishes :
    (∀ call ∈ lostReport, call.outputs.length = 2) ∧
      (∀ call ∈ lostReport, ∀ output ∈ call.outputs, Fixed 2 output) ∧
      (∀ side reqId, received side reqId lostReport ≠ 0 → EachOnce 2 side reqId lostReport) ∧
      ∃ log, aggregateAll plainConnector (KVOutputAggregator.init 2) lostReport = some log ∧
        ¬ ∀ side reqId, received side reqId lostReport ≠ 0 →
          FinishedOnce 2 side reqId lostReport log := by
  refine ⟨by decide, ?_, ?_, _, rfl, ?_⟩
  · intro call inCalls output inOutputs
    simp only [lostReport, mem_cons, not_mem_nil, or_false] at inCalls
    rcases inCalls with rfl | rfl <;>
      simp only [mem_cons, not_mem_nil, or_false] at inOutputs <;>
      rcases inOutputs with rfl | rfl
    · intro kvOutput sent
      cases sent
    · exact sentOutput_fixed 2 _ _
    · exact sentOutput_fixed 2 _ _
    · exact sentOutput_fixed 2 _ _
  · intro side reqId some_
    obtain ⟨rfl, rfl⟩ := lostReport_only side reqId some_
    unfold EachOnce
    decide
  · intro finished
    obtain ⟨k, inside, -, -, only, -⟩ := finished .sending 7 (by decide)
    cases k with
    | zero => exact absurd ((only 0 _ rfl).mpr rfl) (by decide)
    | succ k =>
      cases k with
      | zero => exact absurd ((only 1 _ rfl).mpr rfl) (by decide)
      | succ k =>
        have two : lostReport.length = 2 := rfl
        omega

/-- With both outputs of rank 0 the request is delivered by the second call. -/
theorem twoReports_finishes :
    ∃ log, aggregateAll plainConnector (KVOutputAggregator.init 2) twoReports = some log ∧
      ((∀ side reqId, received side reqId twoReports ≠ 0 →
        FinishedOnce 2 side reqId twoReports log) ↔ NoneDropped twoReports) := by
  refine ⟨_, rfl, ?_⟩
  apply finished_once_iff_none_dropped plainConnector 2 twoReports
  · decide
  · intro call inCalls output inOutputs
    simp only [twoReports, mem_cons, not_mem_nil, or_false] at inCalls
    rcases inCalls with rfl | rfl <;>
      simp only [mem_cons, not_mem_nil, or_false] at inOutputs <;>
      rcases inOutputs with rfl | rfl <;> exact sentOutput_fixed 2 _ _
  · intro side reqId some_
    obtain ⟨rfl, rfl⟩ := twoReports_only side reqId some_
    unfold EachOnce
    decide
  · rfl

end VllmDcu.TransferReports
