import VllmDcu.Dispatch
import VllmDcu.ExpertRanks

/-! The exchange of experts: what a rank sends to a peer is what the peer expects of it,
and afterwards every slot holds the expert it was assigned. -/
namespace VllmDcu.ExpertExchange
open Dispatch ExpertRebalance ExpertRanks List

/-! The experts of a rank, each with its first row. -/

theorem filterMap_keys {Row : Type} (keys : List Int) (value : Int → Option Row)
    (total : ∀ key ∈ keys, (value key).isSome = true) :
    (keys.filterMap fun key => (value key).map fun row => (key, row)).map Prod.fst = keys := by
  induction keys with
  | nil => rfl
  | cons key keys ih =>
    obtain ⟨row, found⟩ := Option.isSome_iff_exists.mp (total key mem_cons_self)
    rw [filterMap_cons, found, Option.map_some, map_cons,
      ih fun other member => total other (mem_cons_of_mem key member)]

variable (expertIds : Nat → Int)

theorem firstRows_keys (rows : List Nat) :
    (firstRows expertIds rows).map Prod.fst = unique (rows.map expertIds) := by
  apply filterMap_keys
  intro expert member
  obtain ⟨row, inside, same⟩ := mem_map.mp (mem_unique.mp member)
  rw [find?_isSome]
  exact ⟨row, inside, by simpa using same⟩

theorem mem_firstRows {rows : List Nat} {expert : Int} {row : Nat}
    (member : (expert, row) ∈ firstRows expertIds rows) : row ∈ rows ∧ expertIds row = expert := by
  obtain ⟨key, -, found⟩ := mem_filterMap.mp member
  obtain ⟨first, search, same⟩ := Option.map_eq_some_iff.mp found
  obtain ⟨rfl, rfl⟩ := Prod.mk.inj same
  exact ⟨mem_of_find?_eq_some search, by simpa using find?_some search⟩

theorem firstRows_ascending (rows : List Nat) :
    (firstRows expertIds rows).Pairwise fun a b => a.1 < b.1 := by
  apply pairwise_map.mp
  rw [firstRows_keys]
  exact unique_ascending _

theorem argsort_ascending (rows : List (Int × Nat)) (ascending : rows.Pairwise fun a b => a.1 < b.1) :
    argsort rows = rows :=
  List.Pairwise.insertionSort_eq (ascending.imp fun less => le_of_lt less)

section Keys
variable (numLocalExperts : Nat) (oldIndices newIndices : List Int) (rank : Nat)

theorem sendRows_keys {expert : Int} :
    expert ∈ (sendRows numLocalExperts oldIndices rank).map Prod.fst ↔
      Local numLocalExperts oldIndices rank expert := by
  unfold sendRows Local
  rw [firstRows_keys, mem_unique, mem_map]
  constructor
  · rintro ⟨row, member, rfl⟩
    obtain ⟨inside, valid⟩ := mem_filter.mp member
    exact ⟨by simpa using valid, row, mem_range.mp inside, rfl⟩
  · rintro ⟨real, row, inside, rfl⟩
    exact ⟨row, mem_filter.mpr ⟨mem_range.mpr inside, by simpa using real⟩, rfl⟩

variable (row : Nat)

theorem isReceivedLocally_iff (inside : row < numLocalExperts)
    (real : expertAt newIndices numLocalExperts rank row ≠ -1) :
    isReceivedLocally numLocalExperts oldIndices newIndices rank row = true ↔
      Local numLocalExperts oldIndices rank (expertAt newIndices numLocalExperts rank row) := by
  unfold isReceivedLocally isUnchanged newValid canRecvLocal Local
  rw [Bool.or_eq_true, Bool.and_eq_true, any_eq_true]
  constructor
  · rintro (same | ⟨-, other, member, same⟩)
    · exact ⟨real, row, inside, by simpa using same⟩
    · exact ⟨real, other, mem_range.mp member, by simpa using same⟩
  · rintro ⟨-, other, within, same⟩
    exact Or.inr ⟨by simpa using real, other, mem_range.mpr within, by simpa using same⟩

theorem needRecv_iff (inside : row < numLocalExperts) :
    needRecv numLocalExperts oldIndices newIndices rank row = true ↔
      expertAt newIndices numLocalExperts rank row ≠ -1 ∧
        ¬ Local numLocalExperts oldIndices rank (expertAt newIndices numLocalExperts rank row) := by
  unfold needRecv
  rw [Bool.and_eq_true, Bool.not_eq_true', ← Bool.not_eq_true]
  have valid : newValid numLocalExperts newIndices rank row = true ↔
      expertAt newIndices numLocalExperts rank row ≠ -1 := by
    unfold newValid
    simp
  rw [valid]
  constructor
  · rintro ⟨remote, real⟩
    exact ⟨real, fun held => remote
      ((isReceivedLocally_iff numLocalExperts oldIndices newIndices rank row inside real).mpr held)⟩
  · rintro ⟨real, remote⟩
    exact ⟨fun received => remote
      ((isReceivedLocally_iff numLocalExperts oldIndices newIndices rank row inside real).mp
        received), real⟩

theorem recvRows_keys {expert : Int} :
    expert ∈ (recvRows numLocalExperts oldIndices newIndices rank).map Prod.fst ↔
      Local numLocalExperts newIndices rank expert ∧
        ¬ Local numLocalExperts oldIndices rank expert := by
  unfold recvRows
  rw [firstRows_keys, mem_unique, mem_map]
  constructor
  · rintro ⟨row, member, rfl⟩
    obtain ⟨inRange, needed⟩ := mem_filter.mp member
    have inside := mem_range.mp inRange
    obtain ⟨real, remote⟩ :=
      (needRecv_iff numLocalExperts oldIndices newIndices rank row inside).mp needed
    exact ⟨⟨real, row, inside, rfl⟩, remote⟩
  · rintro ⟨⟨real, row, inside, rfl⟩, remote⟩
    exact ⟨row, mem_filter.mpr ⟨mem_range.mpr inside,
      (needRecv_iff numLocalExperts oldIndices newIndices rank row inside).mpr ⟨real, remote⟩⟩, rfl⟩

end Keys

/-! One expert. -/

/-- The rank from which `target` receives an expert, if it needs it and somebody has it. -/
def sourceOf (numLocalExperts : Nat) (oldIndices newIndices : List Int) (target : Nat)
    (expert : Int) : Option Nat :=
  ((receivers numLocalExperts oldIndices newIndices expert).idxOf? target).bind fun j =>
    (holders numLocalExperts oldIndices expert)[server
      (holders numLocalExperts oldIndices expert).length
      (receivers numLocalExperts oldIndices newIndices expert).length j]?

theorem idxOf?_of_mem {ranks : List Nat} {rank : Nat} (member : rank ∈ ranks) :
    ∃ position, ranks.idxOf? rank = some position ∧ ranks[position]? = some rank := by
  have found : (ranks.idxOf? rank).isSome = true := by
    rw [isSome_idxOf?]
    exact member
  obtain ⟨position, search⟩ := Option.isSome_iff_exists.mp found
  obtain ⟨bound, here, -⟩ := idxOf?_eq_some_iff.mp search
  exact ⟨position, search, by rw [getElem?_eq_getElem bound, here]⟩

theorem same_position {ranks : List Nat} (nodup : ranks.Nodup) {i j rank : Nat}
    (first : ranks[i]? = some rank) (second : ranks[j]? = some rank) : i = j := by
  obtain ⟨boundI, atI⟩ := List.getElem?_eq_some_iff.mp first
  obtain ⟨boundJ, atJ⟩ := List.getElem?_eq_some_iff.mp second
  exact (Nodup.getElem_inj_iff nodup).mp (atI.trans atJ.symm)

theorem sourceOf_iff {numLocalExperts : Nat} {oldIndices newIndices : List Int}
    {source target : Nat} {expert : Int} :
    sourceOf numLocalExperts oldIndices newIndices target expert = some source ↔
      ∃ j, (receivers numLocalExperts oldIndices newIndices expert)[j]? = some target ∧
        (holders numLocalExperts oldIndices expert)[server
          (holders numLocalExperts oldIndices expert).length
          (receivers numLocalExperts oldIndices newIndices expert).length j]? = some source := by
  unfold sourceOf
  rw [Option.bind_eq_some_iff]
  constructor
  · rintro ⟨j, search, found⟩
    obtain ⟨bound, here, -⟩ := idxOf?_eq_some_iff.mp search
    exact ⟨j, by rw [getElem?_eq_getElem bound, here], found⟩
  · rintro ⟨j, here, found⟩
    obtain ⟨position, search, there⟩ := idxOf?_of_mem (mem_of_getElem? here)
    obtain rfl := same_position (receivers_nodup numLocalExperts) here there
    exact ⟨j, search, found⟩

variable {Elem : Type}

theorem flatMap_only (ranks : List Nat) (nodup : ranks.Nodup) (peer : Nat) (elems : List Elem) :
    ranks.flatMap (fun rank => if rank = peer then elems else []) =
      if peer ∈ ranks then elems else [] := by
  induction ranks with
  | nil => rfl
  | cons rank ranks ih =>
    obtain ⟨absent, rest⟩ := nodup_cons.mp nodup
    rw [flatMap_cons, ih rest]
    by_cases here : rank = peer
    · subst here
      rw [if_pos rfl, if_neg absent, if_pos mem_cons_self, append_nil]
    · rw [if_neg here, nil_append]
      exact if_congr (by rw [mem_cons, or_iff_right (Ne.symm here)]) rfl rfl

theorem sendsTo_flatMap (elems : List Elem) (ops : Elem → List P2POp) (peer : Nat) :
    sendsTo (elems.flatMap ops) peer = elems.flatMap fun elem => sendsTo (ops elem) peer := by
  induction elems with
  | nil => rfl
  | cons elem elems ih =>
    rw [flatMap_cons, flatMap_cons, ← ih]
    exact filterMap_append

theorem recvsFrom_flatMap (elems : List Elem) (ops : Elem → List P2POp) (peer : Nat) :
    recvsFrom (elems.flatMap ops) peer = elems.flatMap fun elem => recvsFrom (ops elem) peer := by
  induction elems with
  | nil => rfl
  | cons elem elems ih =>
    rw [flatMap_cons, flatMap_cons, ← ih]
    exact filterMap_append

variable (tensors : List Nat) (row : Nat)

theorem sendsTo_isends (dst peer : Nat) :
    sendsTo (tensors.map fun tensor => .isend tensor row dst) peer =
      if dst = peer then tensors.map fun tensor => (tensor, row) else [] := by
  unfold sendsTo
  by_cases here : dst = peer
  · simp [here]
  · simp [here]

theorem recvsFrom_irecvs (src peer : Nat) :
    recvsFrom (tensors.map fun tensor => .irecv tensor row src) peer =
      if src = peer then tensors.map fun tensor => (tensor, row) else [] := by
  unfold recvsFrom
  by_cases here : src = peer
  · simp [here]
  · simp [here]

theorem recvsFrom_isends (dst peer : Nat) :
    recvsFrom (tensors.map fun tensor => .isend tensor row dst) peer = [] := by
  unfold recvsFrom
  rw [filterMap_map]
  exact filterMap_eq_nil_iff.mpr fun tensor _ => rfl

theorem sendsTo_irecvs (src peer : Nat) :
    sendsTo (tensors.map fun tensor => .irecv tensor row src) peer = [] := by
  unfold sendsTo
  rw [filterMap_map]
  exact filterMap_eq_nil_iff.mpr fun tensor _ => rfl

theorem ite_bind {Value Result : Type} (condition : Prop) [Decidable condition]
    (first second : Option Value) (next : Value → Option Result) :
    (if condition then first.bind next else second.bind next) =
      (if condition then first else second).bind next := by
  split <;> rfl

section Posting
variable (numLocalExperts numTensors : Nat) (oldIndices newIndices : List Int)

/-- What passes from `source` to `target` for an expert, with the row at one of the two ends. -/
def carried (source target : Nat) (entry : Int × Nat) : List (Nat × Nat) :=
  if sourceOf numLocalExperts oldIndices newIndices target entry.1 = some source then
    (List.range numTensors).map fun tensor => (tensor, entry.2)
  else []

variable (rank : Nat)

theorem sendOps_spec (src : Nat) (expert : Int)
    (holder : rank ∈ holders numLocalExperts oldIndices expert) :
    ∃ ops, sendOps numTensors (holders numLocalExperts oldIndices expert)
        (receivers numLocalExperts oldIndices newIndices expert) rank src = some ops ∧
      ∀ peer, sendsTo ops peer =
          carried numLocalExperts numTensors oldIndices newIndices rank peer (expert, src) ∧
        recvsFrom ops peer = [] := by
  unfold sendOps carried
  have nonempty : (holders numLocalExperts oldIndices expert).isEmpty = false := by
    cases shape : holders numLocalExperts oldIndices expert with
    | nil => simp [shape] at holder
    | cons first rest => rfl
  by_cases nobody : (receivers numLocalExperts oldIndices newIndices expert).isEmpty = true
  · rw [if_pos (by rw [nonempty, nobody]; rfl)]
    refine ⟨[], rfl, fun peer => ⟨?_, rfl⟩⟩
    rw [if_neg]
    · rfl
    · rw [sourceOf_iff]
      rintro ⟨j, found, -⟩
      rw [List.isEmpty_iff.mp nobody] at found
      contradiction
  · rw [if_neg (by simp [nonempty, nobody])]
    obtain ⟨position, search, here⟩ := idxOf?_of_mem holder
    have inside := (List.getElem?_eq_some_iff.mp here).1
    rw [search]
    refine ⟨_, rfl, fun peer => ⟨?_, ?_⟩⟩
    · rw [sendsTo_flatMap]
      simp only [sendsTo_isends]
      refine (flatMap_only _ (share_nodup _ _ _ inside
        (receivers_nodup numLocalExperts)) peer _).trans ?_
      apply if_congr ?_ rfl rfl
      -- The receivers of this sender are those that find it.
      rw [sourceOf_iff]
      refine (mem_share_iff _ _ position inside peer).trans (exists_congr fun j => ?_)
      apply and_congr_right
      intro _
      constructor
      · rintro rfl
        exact here
      · intro found
        exact same_position (holders_nodup numLocalExperts) found here
    · rw [recvsFrom_flatMap]
      simp only [recvsFrom_isends]
      simp

theorem recvOps_eq {dst : Nat} {expert : Int}
    (receiver : rank ∈ receivers numLocalExperts oldIndices newIndices expert) :
    recvOps numTensors (holders numLocalExperts oldIndices expert)
        (receivers numLocalExperts oldIndices newIndices expert) rank dst =
      some ((sourceOf numLocalExperts oldIndices newIndices rank expert).elim [] fun src =>
        (List.range numTensors).map fun tensor => .irecv tensor dst src) := by
  unfold recvOps sourceOf
  have nonempty : (receivers numLocalExperts oldIndices newIndices expert).isEmpty = false := by
    cases shape : receivers numLocalExperts oldIndices newIndices expert with
    | nil => simp [shape] at receiver
    | cons first rest => rfl
  obtain ⟨position, search, here⟩ := idxOf?_of_mem receiver
  have inside := (List.getElem?_eq_some_iff.mp here).1
  rw [search]
  by_cases nobody : (holders numLocalExperts oldIndices expert).isEmpty = true
  · rw [if_pos (by rw [nobody]; rfl), List.isEmpty_iff.mp nobody]
    rfl
  · rw [if_neg (by simp [nonempty, nobody])]
    have positive : 0 < (holders numLocalExperts oldIndices expert).length := by
      apply length_pos_of_ne_nil
      intro bare
      exact nobody (List.isEmpty_iff.mpr bare)
    have source := getElem?_eq_getElem (server_lt _ _ position positive inside)
    have chosen := source
    unfold server at chosen
    rw [apply_ite fun place => (holders numLocalExperts oldIndices expert)[place]?] at chosen
    simp only [Option.bind_eq_bind, Option.bind_some]
    rw [ite_bind, chosen, source]
    rfl

theorem recvOps_spec (dst : Nat) (expert : Int)
    (receiver : rank ∈ receivers numLocalExperts oldIndices newIndices expert) :
    ∃ ops, recvOps numTensors (holders numLocalExperts oldIndices expert)
        (receivers numLocalExperts oldIndices newIndices expert) rank dst = some ops ∧
      ∀ peer, recvsFrom ops peer =
          carried numLocalExperts numTensors oldIndices newIndices peer rank (expert, dst) ∧
        sendsTo ops peer = [] := by
  refine ⟨_, recvOps_eq numLocalExperts numTensors oldIndices newIndices rank receiver,
    fun peer => ?_⟩
  unfold carried
  cases sourceOf numLocalExperts oldIndices newIndices rank expert with
  | none => exact ⟨rfl, rfl⟩
  | some source =>
    refine ⟨?_, sendsTo_irecvs _ _ _ _⟩
    rw [Option.elim_some, recvsFrom_irecvs]
    exact if_congr (by rw [Option.some.injEq]) rfl rfl

/-- The posts of all experts, one after another. -/
theorem postOps_eq (ops : List Nat → List Nat → Nat → Option (List P2POp))
    {ranks : Dict Int (List Nat) × Dict Int (List Nat)} {rows : List (Int × Nat)}
    {posts : Int × Nat → List P2POp}
    (each : ∀ entry ∈ rows, ∃ ranksToSend ranksToRecv,
      ranks.1.get? entry.1 = some ranksToSend ∧ ranks.2.get? entry.1 = some ranksToRecv ∧
        ops ranksToSend ranksToRecv entry.2 = some (posts entry)) :
    postOps ops ranks rows = some (rows.flatMap posts) := by
  unfold postOps
  induction rows with
  | nil => rfl
  | cons entry rows ih =>
    obtain ⟨ranksToSend, ranksToRecv, sent, received, done⟩ := each entry mem_cons_self
    have later := ih fun other member => each other (mem_cons_of_mem entry member)
    obtain ⟨lists, mapped, flat⟩ := Option.map_eq_some_iff.mp later
    rw [mapM_cons, mapped]
    simp only [sent, received, done, Option.bind_eq_bind, Option.bind_some, Option.pure_def,
      Option.map_some, flatten_cons, flat, flatMap_cons]

def sendPosts (rank : Nat) (entry : Int × Nat) : List P2POp :=
  (sendOps numTensors (holders numLocalExperts oldIndices entry.1)
    (receivers numLocalExperts oldIndices newIndices entry.1) rank entry.2).getD []

def recvPosts (rank : Nat) (entry : Int × Nat) : List P2POp :=
  (recvOps numTensors (holders numLocalExperts oldIndices entry.1)
    (receivers numLocalExperts oldIndices newIndices entry.1) rank entry.2).getD []

def posts (rank : Nat) : List P2POp :=
  (sendRows numLocalExperts oldIndices rank).flatMap
      (sendPosts numLocalExperts numTensors oldIndices newIndices rank) ++
    (recvRows numLocalExperts oldIndices newIndices rank).flatMap
      (recvPosts numLocalExperts numTensors oldIndices newIndices rank)

def metadata (rank : Nat) : RecvMetadata where
  recvPrimaryMask := fun row =>
    ((recvRows numLocalExperts oldIndices newIndices rank).map Prod.snd).contains row
  recvCount := (recvRows numLocalExperts oldIndices newIndices rank).length
  recvExpertIds := (recvRows numLocalExperts oldIndices newIndices rank).map Prod.fst
  recvDstRows := (recvRows numLocalExperts oldIndices newIndices rank).map Prod.snd

variable {numLocalExperts numTensors oldIndices newIndices} {size : Nat}

/-- Both assignments name every physical slot. -/
structure Full (size numLocalExperts : Nat) (oldIndices newIndices : List Int) : Prop where
  before : oldIndices.length = size * numLocalExperts
  after : newIndices.length = size * numLocalExperts

theorem Full.holder (full : Full size numLocalExperts oldIndices newIndices) (rank : Nat)
    (inside : rank < size) (expert : Int) (held : Local numLocalExperts oldIndices rank expert) :
    rank ∈ holders numLocalExperts oldIndices expert :=
  (mem_holders_local full.before held.1).mpr ⟨inside, held⟩

theorem Full.receiver_iff (full : Full size numLocalExperts oldIndices newIndices) (rank : Nat)
    (expert : Int) (real : expert ≠ -1) :
    rank ∈ receivers numLocalExperts oldIndices newIndices expert ↔
      rank < size ∧ Local numLocalExperts newIndices rank expert ∧
        ¬ Local numLocalExperts oldIndices rank expert := by
  unfold receivers
  rw [mem_filter, decide_eq_true_iff, mem_holders_local full.after real,
    mem_holders_local full.before real]
  constructor
  · rintro ⟨⟨inside, wanted⟩, missing⟩
    exact ⟨inside, wanted, fun held => missing ⟨inside, held⟩⟩
  · rintro ⟨inside, wanted, missing⟩
    exact ⟨⟨inside, wanted⟩, fun held => missing held.2⟩

theorem mem_keys {rows : List (Int × Nat)} {entry : Int × Nat} (member : entry ∈ rows) :
    entry.1 ∈ rows.map Prod.fst := mem_map.mpr ⟨entry, member, rfl⟩

theorem sendPosts_spec (full : Full size numLocalExperts oldIndices newIndices) {rank : Nat}
    (inside : rank < size) {entry : Int × Nat}
    (member : entry ∈ sendRows numLocalExperts oldIndices rank) :
    sendOps numTensors (holders numLocalExperts oldIndices entry.1)
        (receivers numLocalExperts oldIndices newIndices entry.1) rank entry.2 =
          some (sendPosts numLocalExperts numTensors oldIndices newIndices rank entry) ∧
      ∀ peer, sendsTo (sendPosts numLocalExperts numTensors oldIndices newIndices rank entry) peer =
          carried numLocalExperts numTensors oldIndices newIndices rank peer entry ∧
        recvsFrom (sendPosts numLocalExperts numTensors oldIndices newIndices rank entry) peer =
          [] := by
  have held := (sendRows_keys numLocalExperts oldIndices rank).mp (mem_keys member)
  obtain ⟨ops, done, spec⟩ := sendOps_spec numLocalExperts numTensors oldIndices newIndices rank
    entry.2 entry.1 (full.holder rank inside entry.1 held)
  unfold sendPosts
  rw [done]
  exact ⟨rfl, spec⟩

theorem recvPosts_spec (full : Full size numLocalExperts oldIndices newIndices) {rank : Nat}
    (inside : rank < size) {entry : Int × Nat}
    (member : entry ∈ recvRows numLocalExperts oldIndices newIndices rank) :
    recvOps numTensors (holders numLocalExperts oldIndices entry.1)
        (receivers numLocalExperts oldIndices newIndices entry.1) rank entry.2 =
          some (recvPosts numLocalExperts numTensors oldIndices newIndices rank entry) ∧
      ∀ peer, recvsFrom (recvPosts numLocalExperts numTensors oldIndices newIndices rank entry) peer =
          carried numLocalExperts numTensors oldIndices newIndices peer rank entry ∧
        sendsTo (recvPosts numLocalExperts numTensors oldIndices newIndices rank entry) peer =
          [] := by
  have wanted := (recvRows_keys numLocalExperts oldIndices newIndices rank).mp (mem_keys member)
  obtain ⟨ops, done, spec⟩ := recvOps_spec numLocalExperts numTensors oldIndices newIndices rank
    entry.2 entry.1 ((full.receiver_iff rank entry.1 wanted.1.1).mpr ⟨inside, wanted⟩)
  unfold recvPosts
  rw [done]
  exact ⟨rfl, spec⟩

/-- The plan of a rank never fails. -/
theorem moveToBuffer_eq {Content : Type} (full : Full size numLocalExperts oldIndices newIndices)
    (rank : Nat) (inside : rank < size) (weights buffers : Nat → Nat → Content) :
    moveToBuffer numLocalExperts numTensors oldIndices newIndices rank weights buffers = some {
      isUnchanged := isUnchanged numLocalExperts oldIndices newIndices rank
      isReceivedLocally := isReceivedLocally numLocalExperts oldIndices newIndices rank
      recvMetadata := metadata numLocalExperts oldIndices newIndices rank
      p2pOps := posts numLocalExperts numTensors oldIndices newIndices rank
      buffers := moveLocally numLocalExperts oldIndices newIndices rank weights buffers } := by
  have sends : argsort (sendRows numLocalExperts oldIndices rank) =
      sendRows numLocalExperts oldIndices rank := argsort_ascending _ (firstRows_ascending _ _)
  have recvs : argsort (recvRows numLocalExperts oldIndices newIndices rank) =
      recvRows numLocalExperts oldIndices newIndices rank :=
    argsort_ascending _ (firstRows_ascending _ _)
  have first := postOps_eq
    (fun ranksToSend ranksToRecv src => sendOps numTensors ranksToSend ranksToRecv rank src)
    (fun entry member => by
      obtain ⟨sent, received⟩ := getEpRanks_spec (mem_keys member)
      exact ⟨_, _, sent, received, (sendPosts_spec full inside member).1⟩)
  have second := postOps_eq
    (fun ranksToSend ranksToRecv dst => recvOps numTensors ranksToSend ranksToRecv rank dst)
    (fun entry member => by
      obtain ⟨sent, received⟩ := getEpRanks_spec (mem_keys member)
      exact ⟨_, _, sent, received, (recvPosts_spec full inside member).1⟩)
  unfold moveToBuffer
  simp only [sends, recvs, first, second, Option.bind_eq_bind, Option.bind_some, Option.pure_def]
  rfl

theorem posts_spec (full : Full size numLocalExperts oldIndices newIndices) {rank : Nat}
    (inside : rank < size) {peer : Nat} :
    sendsTo (posts numLocalExperts numTensors oldIndices newIndices rank) peer =
        (sendRows numLocalExperts oldIndices rank).flatMap
          (carried numLocalExperts numTensors oldIndices newIndices rank peer) ∧
      recvsFrom (posts numLocalExperts numTensors oldIndices newIndices rank) peer =
        (recvRows numLocalExperts oldIndices newIndices rank).flatMap
          (carried numLocalExperts numTensors oldIndices newIndices peer rank) := by
  unfold posts
  constructor
  · rw [show ∀ first second : List P2POp, sendsTo (first ++ second) peer =
      sendsTo first peer ++ sendsTo second peer from fun _ _ => filterMap_append,
      sendsTo_flatMap, sendsTo_flatMap]
    have nothing : (recvRows numLocalExperts oldIndices newIndices rank).flatMap (fun entry =>
        sendsTo (recvPosts numLocalExperts numTensors oldIndices newIndices rank entry) peer) =
        [] := flatMap_eq_nil_iff.mpr fun entry member =>
      ((recvPosts_spec full inside member).2 peer).2
    rw [nothing, append_nil]
    exact flatMap_congr fun entry member =>
      ((sendPosts_spec full inside member).2 peer).1
  · rw [show ∀ first second : List P2POp, recvsFrom (first ++ second) peer =
      recvsFrom first peer ++ recvsFrom second peer from fun _ _ => filterMap_append,
      recvsFrom_flatMap, recvsFrom_flatMap]
    have nothing : (sendRows numLocalExperts oldIndices rank).flatMap (fun entry =>
        recvsFrom (sendPosts numLocalExperts numTensors oldIndices newIndices rank entry) peer) =
        [] := flatMap_eq_nil_iff.mpr fun entry member =>
      ((sendPosts_spec full inside member).2 peer).2
    rw [nothing]
    exact flatMap_congr fun entry member =>
      ((recvPosts_spec full inside member).2 peer).1

/-! Both ends of a pair. -/

/-- A row at a rank, named by its tensor and the expert that an assignment puts there. -/
def named (indices : List Int) (numLocalExperts rank : Nat) (row : Nat × Nat) : Nat × Int :=
  (row.1, expertAt indices numLocalExperts rank row.2)

theorem carried_named {source target : Nat} {indices : List Int} {rank : Nat}
    {rows : List (Int × Nat)}
    (here : ∀ entry ∈ rows, expertAt indices numLocalExperts rank entry.2 = entry.1) :
    (rows.flatMap (carried numLocalExperts numTensors oldIndices newIndices source target)).map
        (named indices numLocalExperts rank) =
      ((rows.map Prod.fst).filter fun expert =>
        sourceOf numLocalExperts oldIndices newIndices target expert = some source).flatMap
          fun expert => (List.range numTensors).map fun tensor => (tensor, expert) := by
  induction rows with
  | nil => rfl
  | cons entry rows ih =>
    have later := ih fun other member => here other (mem_cons_of_mem entry member)
    have atEntry := here entry mem_cons_self
    rw [flatMap_cons, map_append, later, map_cons, filter_cons]
    unfold carried
    by_cases served : sourceOf numLocalExperts oldIndices newIndices target entry.1 = some source
    · rw [if_pos served, if_pos (by simpa using served), flatMap_cons, map_map]
      congr 1
      apply map_congr_left
      intro tensor _
      show (tensor, expertAt indices numLocalExperts rank entry.2) = (tensor, entry.1)
      rw [atEntry]
    · rw [if_neg served, if_neg (by simpa using served), map_nil, nil_append]

theorem sendRows_at {entry : Int × Nat}
    (member : entry ∈ sendRows numLocalExperts oldIndices rank) :
    entry.2 < numLocalExperts ∧ expertAt oldIndices numLocalExperts rank entry.2 = entry.1 := by
  obtain ⟨inside, here⟩ := mem_firstRows _ member
  exact ⟨mem_range.mp (mem_filter.mp inside).1, here⟩

theorem recvRows_at {entry : Int × Nat}
    (member : entry ∈ recvRows numLocalExperts oldIndices newIndices rank) :
    entry.2 < numLocalExperts ∧ needRecv numLocalExperts oldIndices newIndices rank entry.2 = true ∧
      expertAt newIndices numLocalExperts rank entry.2 = entry.1 := by
  obtain ⟨inside, here⟩ := mem_firstRows _ member
  obtain ⟨inRange, needed⟩ := mem_filter.mp inside
  exact ⟨mem_range.mp inRange, needed, here⟩

theorem keys_ascending (rows : List Nat) :
    ((firstRows expertIds rows).map Prod.fst).Pairwise (· < ·) :=
  pairwise_map.mpr (firstRows_ascending expertIds rows)

theorem ascending_eq (first second : List Int) (sortedFirst : first.Pairwise (· < ·))
    (sortedSecond : second.Pairwise (· < ·)) (same : ∀ expert, expert ∈ first ↔ expert ∈ second) :
    first = second := by
  apply Perm.eq_of_pairwise ?_ sortedFirst sortedSecond
  · exact (perm_ext_iff_of_nodup (sortedFirst.imp ne_of_lt) (sortedSecond.imp ne_of_lt)).mpr
      same
  · omega

/-- What a rank sends to a peer is what the peer receives from it, in the same order. -/
theorem posts_matched (full : Full size numLocalExperts oldIndices newIndices)
    (source target : Nat) (insideSource : source < size) (insideTarget : target < size) :
    (sendsTo (posts numLocalExperts numTensors oldIndices newIndices source) target).map
        (named oldIndices numLocalExperts source) =
      (recvsFrom (posts numLocalExperts numTensors oldIndices newIndices target) source).map
        (named newIndices numLocalExperts target) := by
  rw [(posts_spec full insideSource).1, (posts_spec full insideTarget).2,
    carried_named fun entry member => (sendRows_at source member).2,
    carried_named fun entry member =>
      (recvRows_at target member).2.2]
  congr 1
  apply ascending_eq
  · exact (keys_ascending _ _).filter _
  · exact (keys_ascending _ _).filter _
  · intro expert
    rw [mem_filter, mem_filter, decide_eq_true_iff, sendRows_keys, recvRows_keys]
    constructor
    · rintro ⟨held, served⟩
      obtain ⟨j, receiver, -⟩ := sourceOf_iff.mp served
      exact ⟨((full.receiver_iff target expert held.1).mp (mem_of_getElem? receiver)).2, served⟩
    · rintro ⟨⟨wanted, -⟩, served⟩
      obtain ⟨j, -, holder⟩ := sourceOf_iff.mp served
      exact ⟨((mem_holders_local full.before wanted.1).mp (mem_of_getElem? holder)).2, served⟩

/-- Somebody sends an expert that exists to a rank that needs it. -/
theorem sourceOf_exists (full : Full size numLocalExperts oldIndices newIndices) {rank : Nat}
    (inside : rank < size) {expert : Int}
    (wanted : Local numLocalExperts newIndices rank expert)
    (missing : ¬ Local numLocalExperts oldIndices rank expert) (exists_ : expert ∈ oldIndices) :
    ∃ source < size, sourceOf numLocalExperts oldIndices newIndices rank expert = some source := by
  have receiver := (full.receiver_iff rank expert wanted.1).mpr ⟨inside, wanted, missing⟩
  obtain ⟨j, found⟩ := mem_iff_getElem?.mp receiver
  obtain ⟨position, at_⟩ := mem_iff_getElem?.mp exists_
  have holder := (mem_holders_iff numLocalExperts wanted.1).mpr ⟨position, at_, rfl⟩
  have served := server_lt _ _ j (length_pos_of_mem holder) (List.getElem?_eq_some_iff.mp found).1
  have source := getElem?_eq_getElem served
  exact ⟨_, ((mem_holders_local full.before wanted.1).mp
    (mem_of_getElem? source)).1, sourceOf_iff.mpr ⟨j, found, source⟩⟩

/-! A needed expert comes once. -/

def receivesExpert (newIndices : List Int) (numLocalExperts rank tensor : Nat) (expert : Int) :
    P2POp → Bool
  | .isend _ _ _ => false
  | .irecv other row _ => (other, expertAt newIndices numLocalExperts rank row) == (tensor, expert)

theorem sendPosts_count {tensor : Nat} {expert : Int} {entry : Int × Nat} :
    (sendPosts numLocalExperts numTensors oldIndices newIndices rank entry).countP
      (receivesExpert newIndices numLocalExperts rank tensor expert) = 0 := by
  unfold sendPosts sendOps
  rw [countP_eq_zero]
  intro op member
  split at member
  · exact absurd member not_mem_nil
  · cases search : (holders numLocalExperts oldIndices entry.1).idxOf? rank with
    | none => simp [search] at member
    | some position =>
      simp only [search, Option.bind_eq_bind, Option.bind_some, Option.pure_def,
        Option.getD_some] at member
      obtain ⟨dst, -, listed⟩ := mem_flatMap.mp member
      obtain ⟨other, -, rfl⟩ := mem_map.mp listed
      exact Bool.false_ne_true

theorem irecvs_count (unrepeated : tensors.Nodup) {rank tensor row src : Nat}
    (listed : tensor ∈ tensors) (expert : Int) :
    (tensors.map fun other => P2POp.irecv other row src).countP
        (receivesExpert newIndices numLocalExperts rank tensor expert) =
      if expertAt newIndices numLocalExperts rank row = expert then 1 else 0 := by
  rw [countP_map]
  by_cases here : expertAt newIndices numLocalExperts rank row = expert
  · rw [if_pos here, ← count_eq_one_of_mem unrepeated listed]
    apply countP_congr
    simp [receivesExpert, here]
  · simp [receivesExpert, here]

theorem keys_sum (rows : List (Int × Nat)) (expert : Int) :
    (rows.map fun entry => if entry.1 = expert then 1 else 0).sum =
      (rows.map Prod.fst).count expert := by
  induction rows with
  | nil => rfl
  | cons entry rows ih =>
    rw [map_cons, sum_cons, ih]
    by_cases here : entry.1 = expert
    · simp [here, Nat.add_comm]
    · simp [here]

/-- A rank posts one receive for each tensor of an expert that it needs and somebody has. -/
theorem posts_count (full : Full size numLocalExperts oldIndices newIndices) (rank : Nat)
    (inside : rank < size) (expert : Int)
    (wanted : Local numLocalExperts newIndices rank expert)
    (missing : ¬ Local numLocalExperts oldIndices rank expert) (exists_ : expert ∈ oldIndices)
    (tensor : Nat) (listed : tensor < numTensors) :
    (posts numLocalExperts numTensors oldIndices newIndices rank).countP
      (receivesExpert newIndices numLocalExperts rank tensor expert) = 1 := by
  obtain ⟨source, -, served⟩ := sourceOf_exists full inside wanted missing exists_
  unfold posts
  rw [countP_append, countP_flatMap, countP_flatMap]
  have sends : ((sendRows numLocalExperts oldIndices rank).map
      (countP (receivesExpert newIndices numLocalExperts rank tensor expert) ∘
        sendPosts numLocalExperts numTensors oldIndices newIndices rank)).sum = 0 := by
    apply sum_eq_zero
    intro count member
    obtain ⟨entry, -, rfl⟩ := mem_map.mp member
    exact sendPosts_count rank
  have recvs : (recvRows numLocalExperts oldIndices newIndices rank).map
      (countP (receivesExpert newIndices numLocalExperts rank tensor expert) ∘
        recvPosts numLocalExperts numTensors oldIndices newIndices rank) =
      (recvRows numLocalExperts oldIndices newIndices rank).map fun entry =>
        if entry.1 = expert then 1 else 0 := by
    apply map_congr_left
    intro entry member
    have needed := (recvRows_keys numLocalExperts oldIndices newIndices rank).mp (mem_keys member)
    have here := (recvRows_at rank member).2.2
    show (recvPosts numLocalExperts numTensors oldIndices newIndices rank entry).countP _ = _
    unfold recvPosts
    rw [recvOps_eq _ _ _ _ rank
      ((full.receiver_iff rank entry.1 needed.1.1).mpr ⟨inside, needed⟩), Option.getD_some]
    by_cases same : entry.1 = expert
    · rw [same, served, Option.elim_some, irecvs_count _ nodup_range
        (mem_range.mpr listed), here]
      exact if_congr (by rw [same]) rfl rfl
    · cases sourceOf numLocalExperts oldIndices newIndices rank entry.1 with
      | none => rw [Option.elim_none, countP_nil, if_neg same]
      | some other =>
        rw [Option.elim_some, irecvs_count _ nodup_range
          (mem_range.mpr listed), here]
  rw [sends, recvs, Nat.zero_add]
  -- The experts of the rows are distinct.
  have keys : ((recvRows numLocalExperts oldIndices newIndices rank).map Prod.fst).count expert =
      1 := count_eq_one_of_mem ((keys_ascending _ _).imp ne_of_lt)
    ((recvRows_keys numLocalExperts oldIndices newIndices rank).mpr ⟨wanted, missing⟩)
  exact (keys_sum _ expert).trans keys

end Posting

end VllmDcu.ExpertExchange
