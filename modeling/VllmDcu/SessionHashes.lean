import VllmDcu.BlockHashes
import Mathlib.Logic.Relation

/-! Block hashes of a text-only request over its life: appended output tokens,
stop checks, and streaming updates that cut the token list at
`num_computed_tokens`. Hashes are only ever extended, so a cut below a hashed
block is repaired only by a chunk that brings the same tokens back. -/
namespace VllmDcu.SessionHashes
open Requests HashChain BlockHashes List Option
variable {Digest : Type}

def noLabels : Labels Digest := fun _ => none

/-- The chain hash of a whole number of blocks without extra keys. -/
def chainHash (hasher : BlockHasher Digest) (tokens : List Token) : Digest :=
  digest hasher.cachingHashFn hasher.noneHash (payloads hasher.blockSize noLabels tokens)

structure HashesTrack (hasher : BlockHasher Digest) (request : Request Digest) : Prop where
  count : request.blockHashes.length = request.numTokens / hasher.blockSize
  entry : ∀ index, index < request.numTokens / hasher.blockSize →
    request.blockHashes[index]? =
      some (chainHash hasher (request.allTokenIds.take ((index + 1) * hasher.blockSize)))

structure TextOnly (request : Request Digest) : Prop where
  features : request.mmFeatures = []
  lora : request.loraRequest = none
  salt : ∀ salt, request.cacheSalt = some salt → salt = ""
  embeds : request.promptEmbeds = none

theorem textOnly_extraKeys {request : Request Digest} (text : TextOnly request)
    {startTokenIdx endTokenIdx : Nat} {startMmIdx : Int} :
    generateBlockHashExtraKeys request startTokenIdx endTokenIdx startMmIdx = (none, startMmIdx) := by
  have unsalted : cacheSaltKeys request startTokenIdx = [] := by
    unfold cacheSaltKeys
    cases given : request.cacheSalt with
    | none => rfl
    | some salt => simp [text.salt salt given]
  simp [generateBlockHashExtraKeys, genMmExtraHashKeys, genLoraExtraHashKeys,
    genPromptEmbedsExtraHashKeys, unsalted, text.features, text.lora, text.embeds]

variable (hasher : BlockHasher Digest)

theorem hashesTrack_iff (request : Request Digest) (positive : 0 < hasher.blockSize) :
    HashesTrack hasher request ↔ HashesOf hasher noLabels request := by
  have entry (index : Nat) (inside : index < request.numTokens / hasher.blockSize) :
      (digests hasher.cachingHashFn hasher.noneHash
        (payloads hasher.blockSize noLabels request.allTokenIds))[index]? =
      some (chainHash hasher (request.allTokenIds.take ((index + 1) * hasher.blockSize))) := by
    rw [digests_getElem? _ _ _ _ (by rwa [payloads_length]), chainHash,
      payloads_take _ _ _ _ positive inside]
  constructor
  · intro track
    apply ext_getElem?
    intro index
    by_cases inside : index < request.numTokens / hasher.blockSize
    · rw [track.entry index inside, entry index inside]
    · have outside := Nat.le_of_not_lt inside
      rw [getElem?_eq_none (by rwa [track.count]),
        getElem?_eq_none (by rwa [digests_length, payloads_length])]
  · intro hashes
    refine ⟨hashesOf_length hasher hashes, ?_⟩
    intro index inside
    rw [hashes, entry index inside]

/-- Hashes of an earlier token list stay right under a new one that keeps the
hashed tokens, and the hasher extends them to the new tokens. -/
theorem extend_hashesOf (positive : 0 < hasher.blockSize) {old new : Request Digest}
    (hashes : HashesOf hasher noLabels old) (same : new.blockHashes = old.blockHashes)
    (hashed : new.blockHasher = some hasher) (text : TextOnly new)
    (kept : old.allTokenIds.take (old.blockHashes.length * hasher.blockSize) <+: new.allTokenIds) :
    HashesOf hasher noLabels new.updateBlockHashes := by
  have length := hashesOf_length hasher hashes
  have fits : old.blockHashes.length * hasher.blockSize ≤ old.numTokens := by
    rw [length]
    exact Nat.div_mul_le_self _ _
  have keptLength :
      (old.allTokenIds.take (old.blockHashes.length * hasher.blockSize)).length =
        old.blockHashes.length * hasher.blockSize := by
    rw [length_take]
    exact min_eq_left fits
  have agree : old.allTokenIds.take (old.blockHashes.length * hasher.blockSize) =
      new.allTokenIds.take (old.blockHashes.length * hasher.blockSize) := by
    have := prefix_iff_eq_take.mp kept
    rwa [keptLength] at this
  have samePayloads : payloads hasher.blockSize noLabels old.allTokenIds =
      (payloads hasher.blockSize (noLabels : Labels Digest) new.allTokenIds).take
        old.blockHashes.length := by
    rw [← payloads_prefix hasher.blockSize noLabels positive fits agree,
      take_of_length_le (by rw [payloads_length, length]; rfl)]
  have chainLength :
      (payloads hasher.blockSize (noLabels : Labels Digest) old.allTokenIds).length =
        old.blockHashes.length := by
    rw [hashes, digests_length]
  have updated := updateBlockHashes_eq hasher new positive hashed _ (same.trans hashes) noLabels
    (fun _ _ => True) trivial
    fun _ cursor _ _ => ⟨cursor, textOnly_extraKeys text, trivial⟩
  rw [HashesOf, updated, chainLength, samePayloads, take_append_drop]
  rfl

/-- The tokens of hashed blocks that a streaming update cuts off. -/
def cutHashedTokens (hasher : BlockHasher Digest) (session : Request Digest) : List Token :=
  (session.allTokenIds.take (session.blockHashes.length * hasher.blockSize)).drop
    (sliceBound session.numTokens session.numComputedTokens)

/-- The next chunk brings back every hashed token that the cut removes. -/
def RestoresHashedTokens (hasher : BlockHasher Digest) (session : Request Digest)
    (update : StreamingUpdate) : Prop :=
  cutHashedTokens hasher session <+: update.promptTokenIds.getD []

/-- One step in the life of a request; `admits` restricts its streaming updates.
Everything else the scheduler does to a request is an `elsewhere` step: above all
it moves `num_computed_tokens`, here to any value. -/
inductive RequestStep (maxModelLen : Nat) (admits : Request Digest → StreamingUpdate → Prop) :
    Request Digest → Request Digest → Prop where
  | appendOutputTokenIds {request : Request Digest} (tokenIds : List Token) :
      RequestStep maxModelLen admits request (request.appendOutputTokenIds tokenIds)
  | checkStop {request stopped : Request Digest} (stop : Bool)
      (checked : checkStop request maxModelLen = some (stop, stopped)) :
      RequestStep maxModelLen admits request stopped
  | handleStopped {request handled : Request Digest} (finished : Bool)
      (admitted : ∀ update rest, request.streamingQueue = some (some update :: rest) →
        admits request update)
      (result : request.handleStopped = some (finished, handled)) :
      RequestStep maxModelLen admits request handled
  | updateAsSession {request session : Request Digest} (update : StreamingUpdate)
      (admitted : admits request update)
      (result : request.updateAsSession update = some session) :
      RequestStep maxModelLen admits request session
  | elsewhere {request request' : Request Digest} (same : hashInputs request' = hashInputs request) :
      RequestStep maxModelLen admits request request'

/-- The streaming updates of a text-only session. -/
def TextUpdate (_ : Request Digest) (update : StreamingUpdate) : Prop := update.mmFeatures = []

def RestoringUpdate (hasher : BlockHasher Digest) (session : Request Digest)
    (update : StreamingUpdate) : Prop :=
  TextUpdate session update ∧ RestoresHashedTokens hasher session update

structure Tracked (hasher : BlockHasher Digest) (request : Request Digest) : Prop where
  hashed : request.blockHasher = some hasher
  text : TextOnly request
  hashes : HashesOf hasher noLabels request

theorem tracked_congr (request request' : Request Digest)
    (same : hashInputs request' = hashInputs request) (tracked : Tracked hasher request) :
    Tracked hasher request' := by
  simp only [hashInputs, Prod.mk.injEq] at same
  obtain ⟨hashes, hashed, tokens, features, lora, salt, embeds⟩ := same
  refine ⟨hashed.trans tracked.hashed, ⟨features.trans tracked.text.features,
    lora.trans tracked.text.lora, ?_, embeds.trans tracked.text.embeds⟩, ?_⟩
  · rw [salt]
    exact tracked.text.salt
  · rw [HashesOf, hashes, tokens]
    exact tracked.hashes

theorem updated_tracked {request : Request Digest} (hashed : request.blockHasher = some hasher)
    (text : TextOnly request) (hashes : HashesOf hasher noLabels request.updateBlockHashes) :
    Tracked hasher request.updateBlockHashes :=
  ⟨hashed, ⟨text.features, text.lora, text.salt, text.embeds⟩, hashes⟩

theorem checkStop_hashInputs {request stopped : Request Digest} {maxModelLen : Nat} {stop : Bool}
    (checked : checkStop request maxModelLen = some (stop, stopped)) :
    hashInputs stopped = hashInputs request := by
  rcases checkStop_cases request stopped maxModelLen stop checked with
    ⟨_, rfl⟩ | ⟨_, status, reason, _, rfl⟩
  · rfl
  · rfl

theorem append_tracked (positive : 0 < hasher.blockSize) (request : Request Digest)
    (tokenIds : List Token) (tracked : Tracked hasher request) :
    Tracked hasher (request.appendOutputTokenIds tokenIds) := by
  let appended : Request Digest :=
    { request with
      outputTokenIds := request.outputTokenIds ++ tokenIds
      allTokenIds := request.allTokenIds ++ tokenIds }
  have text : TextOnly appended := ⟨tracked.text.features, tracked.text.lora, tracked.text.salt,
    tracked.text.embeds⟩
  have hashes : HashesOf hasher noLabels appended.updateBlockHashes :=
    extend_hashesOf hasher positive tracked.hashes rfl tracked.hashed text
      ((List.take_prefix _ _).trans (prefix_append _ _))
  exact updated_tracked hasher tracked.hashed text hashes

/-- The cut and the chunk keep the hashed tokens in front. -/
theorem restored_front (session : Request Digest) (update : StreamingUpdate)
    (restores : RestoresHashedTokens hasher session update) :
    session.allTokenIds.take (session.blockHashes.length * hasher.blockSize) <+:
      session.allTokenIds.take (sliceBound session.numTokens session.numComputedTokens) ++
        update.promptTokenIds.getD [] := by
  generalize same : session.blockHashes.length * hasher.blockSize = hashed
  generalize cut : sliceBound session.numTokens session.numComputedTokens = bound
  rw [RestoresHashedTokens, cutHashedTokens, same, cut] at restores
  rcases Nat.le_total hashed bound with below | above
  · exact (take_prefix_take_left below).trans (prefix_append _ _)
  · have split : session.allTokenIds.take hashed =
        session.allTokenIds.take bound ++ (session.allTokenIds.take hashed).drop bound := by
      conv_lhs => rw [← take_append_drop bound (session.allTokenIds.take hashed)]
      rw [take_take, min_eq_left above]
    rw [split]
    exact (prefix_append_right_inj _).mpr restores

theorem updateAsSession_tracked (positive : 0 < hasher.blockSize) {request session : Request Digest}
    {update : StreamingUpdate} (restoring : RestoringUpdate hasher request update)
    (result : request.updateAsSession update = some session) (tracked : Tracked hasher request) :
    Tracked hasher session := by
  unfold Request.updateAsSession at result
  cases prompt : request.promptTokenIds with
  | none => simp [prompt] at result
  | some promptTokenIds =>
    simp only [prompt, some.injEq] at result
    let cut := request.cutAndExtend promptTokenIds update
    have text : TextOnly cut := by
      refine ⟨?_, tracked.text.lora, tracked.text.salt, tracked.text.embeds⟩
      have noFeatures : update.mmFeatures = [] := restoring.1
      simp [cut, Request.cutAndExtend, tracked.text.features, noFeatures]
    have hashes : HashesOf hasher noLabels cut.updateBlockHashes :=
      extend_hashesOf hasher positive tracked.hashes rfl tracked.hashed text
        (restored_front hasher request update restoring.2)
    rw [← result]
    exact tracked_congr hasher cut.updateBlockHashes _ rfl
      (updated_tracked hasher tracked.hashed text hashes)

theorem step_tracked (positive : 0 < hasher.blockSize) (maxModelLen : Nat)
    (request request' : Request Digest)
    (step : RequestStep maxModelLen (RestoringUpdate hasher) request request')
    (tracked : Tracked hasher request) : Tracked hasher request' := by
  cases step with
  | appendOutputTokenIds tokenIds => exact append_tracked hasher positive request tokenIds tracked
  | checkStop stop checked =>
    exact tracked_congr hasher _ _ (checkStop_hashInputs checked) tracked
  | handleStopped finished admitted result =>
    unfold Request.handleStopped at result
    split at result
    · simp only [some.injEq, Prod.mk.injEq] at result
      rwa [← result.2]
    · split at result
      · rename_i update rest queue
        cases update with
        | none =>
          simp only [some.injEq, Prod.mk.injEq] at result
          rw [← result.2]
          exact tracked_congr hasher request _ rfl tracked
        | some update =>
          obtain ⟨session, continued, same⟩ := map_eq_some_iff.mp result
          let taken := { request with streamingQueue := some rest }
          have restoring : RestoringUpdate hasher taken update := admitted update rest queue
          rw [← (Prod.mk.inj same).2]
          exact updateAsSession_tracked hasher positive restoring continued
            (tracked_congr hasher request taken rfl tracked)
      · simp only [some.injEq, Prod.mk.injEq] at result
        rw [← result.2]
        exact tracked_congr hasher request _ rfl tracked
  | updateAsSession update admitted result =>
    exact updateAsSession_tracked hasher positive admitted result tracked
  | elsewhere same => exact tracked_congr hasher request request' same tracked

/-- The arguments of a text-only request that is hashed with `hasher`. -/
structure TextArgs (hasher : BlockHasher Digest) (args : RequestArgs Digest) : Prop where
  features : args.mmFeatures = []
  lora : args.loraRequest = none
  salt : args.cacheSalt = none
  embeds : args.promptEmbeds = none
  hashed : args.blockHasher = some hasher

theorem init_tracked (positive : 0 < hasher.blockSize) (args : RequestArgs Digest)
    (text : TextArgs hasher args) (request : Request Digest)
    (created : Request.init args = some request) : Tracked hasher request := by
  obtain ⟨maxTokens, structured, status, rfl⟩ := init_cases created
  let empty := Request.create args maxTokens structured status
  have textOnly : TextOnly empty := by
    refine ⟨text.features, text.lora, ?_, text.embeds⟩
    intro salt given
    exact absurd (text.salt.symm.trans given) (by simp)
  have hashes : HashesOf hasher noLabels empty.updateBlockHashes := by
    rw [HashesOf, updateBlockHashes_eq hasher empty positive text.hashed [] rfl noLabels
      (fun _ _ => True) trivial
      fun _ cursor _ _ => ⟨cursor, textOnly_extraKeys textOnly, trivial⟩]
    rfl
  exact updated_tracked hasher text.hashed textOnly hashes

/-! A streaming session in concrete numbers: blocks of four tokens, a digest that
spells its chain, a prompt of three tokens and one sampled token that ends the
input chunk and completes the first block. -/

abbrev SpelledDigest := List (List Token)

def spellingHasher : BlockHasher SpelledDigest where
  blockSize := 4
  cachingHashFn := fun (parent, tokens, _) => parent ++ [tokens]
  noneHash := []

def sessionArgs : RequestArgs SpelledDigest where
  requestId := 0
  promptTokenIds := some [1, 2, 3]
  samplingParams := some ⟨1, 0, none, [], none, none⟩
  poolingParams := none
  clientIndex := 0
  arrivalTime := 0
  promptEmbeds := none
  mmFeatures := []
  loraRequest := none
  cacheSalt := none
  priority := 0
  structuredOutput := false
  blockHasher := some spellingHasher
  resumable := true

def chunkUpdate (tokens : List Token) : StreamingUpdate where
  mmFeatures := []
  promptTokenIds := some tokens
  maxTokens := 1
  arrivalTime := 1
  samplingParams := some ⟨1, 0, none, [], none, none⟩

def createdSession : Request SpelledDigest := (Request.init sessionArgs).get rfl

/-- The prompt is computed and the next chunk has arrived. -/
def scheduledSession (chunk : List Token) : Request SpelledDigest :=
  { createdSession with
    status := .running
    numComputedTokens := 3
    streamingQueue := some [some (chunkUpdate chunk)] }

def sampledSession (chunk : List Token) : Request SpelledDigest :=
  (scheduledSession chunk).appendOutputTokenIds [9]

def stoppedSession (chunk : List Token) : Request SpelledDigest :=
  { sampledSession chunk with status := .finishedLengthCapped }

def continuedSession (chunk : List Token) : Request SpelledDigest :=
  ((stoppedSession chunk).handleStopped.get rfl).2

theorem session_run (admits : Request SpelledDigest → StreamingUpdate → Prop) (chunk : List Token)
    (admitted : admits (stoppedSession chunk) (chunkUpdate chunk)) :
    Relation.ReflTransGen (RequestStep 100 admits) createdSession (continuedSession chunk) := by
  have scheduled : RequestStep 100 admits createdSession (scheduledSession chunk) := .elsewhere rfl
  have sampled : RequestStep 100 admits (scheduledSession chunk) (sampledSession chunk) :=
    .appendOutputTokenIds [9]
  have stopped : RequestStep 100 admits (sampledSession chunk) (stoppedSession chunk) :=
    .checkStop true rfl
  have continued : RequestStep 100 admits (stoppedSession chunk) (continuedSession chunk) := by
    refine .handleStopped false ?_ rfl
    intro update rest queue
    have loaded : (stoppedSession chunk).streamingQueue = some [some (chunkUpdate chunk)] := rfl
    rw [loaded] at queue
    simp only [some.injEq, cons.injEq] at queue
    rw [← queue.1]
    exact admitted
  exact ((((Relation.ReflTransGen.refl).tail scheduled).tail sampled).tail stopped).tail continued

/-- Along every run whose streaming updates restore the hashed tokens they cut,
the block hashes are those of the tokens as they stand. -/
theorem restoring_run_hashesTrack (hasher : BlockHasher Digest) (positive : 0 < hasher.blockSize)
    (maxModelLen : Nat) (args : RequestArgs Digest) (text : TextArgs hasher args)
    (created request : Request Digest) (init : Request.init args = some created)
    (run : Relation.ReflTransGen (RequestStep maxModelLen (RestoringUpdate hasher)) created request) :
    HashesTrack hasher request := by
  have tracked : Tracked hasher request := by
    induction run with
    | refl => exact init_tracked hasher positive args text created init
    | tail _ step ih => exact step_tracked hasher positive maxModelLen _ _ step ih
  exact (hashesTrack_iff hasher request positive).mpr tracked.hashes

theorem restored_session_hashesTrack :
    RestoresHashedTokens spellingHasher (stoppedSession [9, 51]) (chunkUpdate [9, 51]) ∧
      HashesTrack spellingHasher (continuedSession [9, 51]) := by
  have restores : RestoresHashedTokens spellingHasher (stoppedSession [9, 51])
      (chunkUpdate [9, 51]) := ⟨[51], by decide⟩
  exact ⟨restores, restoring_run_hashesTrack spellingHasher (by decide) 100 sessionArgs
    ⟨rfl, rfl, rfl, rfl, rfl⟩ createdSession _ rfl
    (session_run _ [9, 51] ⟨rfl, restores⟩)⟩

/-- The chunk does not repeat the discarded sample, which the hash of the first
block still covers. -/
theorem cut_session_not_hashesTrack :
    ¬ ∀ request : Request SpelledDigest,
      Relation.ReflTransGen (RequestStep 100 TextUpdate) createdSession request →
        HashesTrack spellingHasher request := by
  intro track
  have stale := (track _ (session_run TextUpdate [50, 51] rfl)).entry 0 (by decide)
  revert stale
  decide

end VllmDcu.SessionHashes
