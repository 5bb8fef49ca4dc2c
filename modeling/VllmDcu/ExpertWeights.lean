import VllmDcu.ExpertExchange

/-! After the exchange every slot holds the weights of the expert it was assigned. -/
namespace VllmDcu.ExpertWeights
open ExpertRebalance ExpertRanks ExpertExchange List

/-! Writing one slot after another. -/

section Writing
variable {Content : Type}

theorem foldl_land_other (landings : List ((Nat × Nat) × Content))
    (buffers : Nat → Nat → Content) (tensor row : Nat)
    (elsewhere : ∀ landing ∈ landings, landing.1 ≠ (tensor, row)) :
    landings.foldl land buffers tensor row = buffers tensor row := by
  induction landings generalizing buffers with
  | nil => rfl
  | cons landing landings ih =>
    rw [foldl_cons, ih _ fun other member => elsewhere other (mem_cons_of_mem _ member)]
    exact if_neg (elsewhere landing mem_cons_self)

/-- If all that lands in a slot is the same, the slot ends up with it. -/
theorem foldl_land_hit (landings : List ((Nat × Nat) × Content)) (buffers : Nat → Nat → Content)
    (tensor row : Nat) (content : Content)
    (right : ∀ landing ∈ landings, landing.1 = (tensor, row) → landing.2 = content)
    (hit : (tensor, row) ∈ landings.map Prod.fst) :
    landings.foldl land buffers tensor row = content := by
  induction landings generalizing buffers with
  | nil => exact absurd hit not_mem_nil
  | cons landing landings ih =>
    rw [foldl_cons]
    by_cases later : (tensor, row) ∈ landings.map Prod.fst
    · exact ih _ (fun other member => right other (mem_cons_of_mem _ member)) later
    · rw [foldl_land_other]
      · have here : landing.1 = (tensor, row) := by
          rw [map_cons, mem_cons] at hit
          exact (hit.resolve_right later).symm
        exact (if_pos here).trans (right landing mem_cons_self here)
      · intro other member same
        exact later (mem_map.mpr ⟨other, member, same⟩)

theorem foldl_copyRow_other (copies : List (Nat × Nat)) (weights : Nat → Nat → Content)
    (tensor row : Nat) (elsewhere : ∀ copy ∈ copies, copy.1 ≠ row) :
    copies.foldl (fun weights (dst, src) => copyRow weights dst src) weights tensor row =
      weights tensor row := by
  induction copies generalizing weights with
  | nil => rfl
  | cons copy copies ih =>
    rw [foldl_cons, ih _ fun other member => elsewhere other (mem_cons_of_mem _ member)]
    exact if_neg (Ne.symm (elsewhere copy mem_cons_self))

/-- No copy is overwritten as long as no source is a destination. -/
theorem foldl_copyRow_hit (copies : List (Nat × Nat)) (weights : Nat → Nat → Content)
    (tensor row : Nat) (content : Content)
    (apart : ∀ copy ∈ copies, ∀ other ∈ copies, copy.2 ≠ other.1)
    (right : ∀ copy ∈ copies, copy.1 = row → weights tensor copy.2 = content)
    (hit : row ∈ copies.map Prod.fst) :
    copies.foldl (fun weights (dst, src) => copyRow weights dst src) weights tensor row =
      content := by
  induction copies generalizing weights with
  | nil => exact absurd hit not_mem_nil
  | cons copy copies ih =>
    rw [foldl_cons]
    by_cases later : row ∈ copies.map Prod.fst
    · apply ih _ ?_ ?_ later
      · intro first inFirst second inSecond
        exact apart first (mem_cons_of_mem _ inFirst) second (mem_cons_of_mem _ inSecond)
      · intro other member here
        have kept := apart other (mem_cons_of_mem _ member) copy mem_cons_self
        exact (if_neg kept).trans (right other (mem_cons_of_mem _ member) here)
    · have here : copy.1 = row := by
        rw [map_cons, mem_cons] at hit
        exact (hit.resolve_right later).symm
      rw [foldl_copyRow_other]
      · exact (if_pos here.symm).trans (right copy mem_cons_self here)
      · intro other member same
        exact later (mem_map.mpr ⟨other, member, same⟩)

end Writing

/-! The search for a primary row. -/

theorem searchsorted_spec {prims : List (Int × Nat)} (ascending : prims.Pairwise fun a b => a.1 < b.1)
    {prim : Int × Nat} (member : prim ∈ prims) :
    prims[searchsorted (prims.map Prod.fst) prim.1]? = some prim := by
  induction prims with
  | nil => exact absurd member not_mem_nil
  | cons first rest ih =>
    obtain ⟨below, sorted⟩ := pairwise_cons.mp ascending
    unfold searchsorted
    rw [map_cons, takeWhile_cons]
    rcases mem_cons.mp member with rfl | later
    · rw [if_neg (by simp)]
      rfl
    · rw [if_pos (by simpa using below prim later)]
      exact ih sorted later

theorem matchDuplicate_iff (prims : List (Int × Nat))
    (ascending : prims.Pairwise fun a b => a.1 < b.1) (expert : Int) (src : Nat) :
    matchDuplicate prims expert = some src ↔ (expert, src) ∈ prims := by
  unfold matchDuplicate
  constructor
  · intro found
    cases search : prims[searchsorted (prims.map Prod.fst) expert]? with
    | none => simp [search] at found
    | some entry =>
      by_cases here : entry.1 = expert
      · have same : entry.2 = src := by simpa [search, here] using found
        rw [← here, ← same]
        exact mem_of_getElem? search
      · simp [search, here] at found
  · intro member
    rw [searchsorted_spec ascending member]
    exact if_pos rfl

section Rows
variable {numLocalExperts numTensors size : Nat} {oldIndices newIndices : List Int}

theorem recvRows_ascending (rank : Nat) :
    (recvRows numLocalExperts oldIndices newIndices rank).Pairwise fun a b => a.1 < b.1 :=
  firstRows_ascending _ _

theorem metadata_prims (rank : Nat) :
    argsort ((metadata numLocalExperts oldIndices newIndices rank).recvExpertIds.zip
      (metadata numLocalExperts oldIndices newIndices rank).recvDstRows) =
        recvRows numLocalExperts oldIndices newIndices rank := by
  unfold metadata
  rw [zip_map', show (fun entry : Int × Nat => (entry.1, entry.2)) = id from rfl, map_id]
  exact argsort_ascending _ (recvRows_ascending rank)

/-- A row is a primary row exactly if it is the one its expert is received in. -/
theorem recvPrimaryMask_iff {rank row : Nat} :
    (metadata numLocalExperts oldIndices newIndices rank).recvPrimaryMask row = true ↔
      (expertAt newIndices numLocalExperts rank row, row) ∈
        recvRows numLocalExperts oldIndices newIndices rank := by
  unfold metadata
  rw [contains_iff_mem, mem_map]
  constructor
  · rintro ⟨entry, member, rfl⟩
    rw [(recvRows_at rank member).2.2]
    exact member
  · intro member
    exact ⟨_, member, rfl⟩

theorem mem_carried (source target : Nat) (rows : List (Int × Nat)) (slot : Nat × Nat) :
    slot ∈ rows.flatMap (carried numLocalExperts numTensors oldIndices newIndices source target) ↔
      ∃ entry ∈ rows,
        sourceOf numLocalExperts oldIndices newIndices target entry.1 = some source ∧
          slot.1 < numTensors ∧ slot.2 = entry.2 := by
  rw [mem_flatMap]
  apply exists_congr
  intro entry
  apply and_congr_right
  intro _
  unfold carried
  by_cases served : sourceOf numLocalExperts oldIndices newIndices target entry.1 = some source
  · rw [if_pos served, mem_map]
    constructor
    · rintro ⟨tensor, listed, rfl⟩
      exact ⟨served, mem_range.mp listed, rfl⟩
    · rintro ⟨-, listed, same⟩
      exact ⟨slot.1, mem_range.mpr listed, by rw [← same]⟩
  · rw [if_neg served]
    constructor
    · intro nothing
      exact absurd nothing not_mem_nil
    · rintro ⟨found, -⟩
      exact absurd found served

/-- Before the exchange every slot holds the weights of its expert. -/
def Held {Content : Type} (size numLocalExperts numTensors : Nat) (oldIndices : List Int)
    (weights : Nat → Nat → Nat → Content) (expertWeights : Int → Nat → Content) : Prop :=
  ∀ rank < size, ∀ row < numLocalExperts, ∀ tensor < numTensors,
    expertAt oldIndices numLocalExperts rank row ≠ -1 →
      weights rank tensor row =
        expertWeights (expertAt oldIndices numLocalExperts rank row) tensor

variable {Content : Type} {weights : Nat → Nat → Nat → Content}
  {expertWeights : Int → Nat → Content}

/-- The posts of every rank of the group, as the exchange gets them. -/
def Posted (size numLocalExperts numTensors : Nat) (oldIndices newIndices : List Int)
    (ops : Nat → List P2POp) : Prop :=
  ∀ rank < size, ops rank = posts numLocalExperts numTensors oldIndices newIndices rank

section
variable (full : Full size numLocalExperts oldIndices newIndices)
include full

theorem posted_complete (ops : Nat → List P2POp)
    (posted : Posted size numLocalExperts numTensors oldIndices newIndices ops) :
    Complete size ops := by
  intro source insideSource target insideTarget
  rw [posted source insideSource, posted target insideTarget]
  have matched := congrArg length (@posts_matched numLocalExperts numTensors oldIndices
    newIndices size full source target insideSource insideTarget)
  rwa [length_map, length_map] at matched

section
variable (held : Held size numLocalExperts numTensors oldIndices weights expertWeights)
include held

/-- Whatever lands is for a row that needs it, and is the weight of the expert of that row. -/
theorem landings_right {ops : Nat → List P2POp}
    (posted : Posted size numLocalExperts numTensors oldIndices newIndices ops) {rank : Nat}
    (inside : rank < size) {landing : (Nat × Nat) × Content}
    (member : landing ∈ landings size ops weights rank) :
    needRecv numLocalExperts oldIndices newIndices rank landing.1.2 = true ∧
      landing.2 =
        expertWeights (expertAt newIndices numLocalExperts rank landing.1.2) landing.1.1 := by
  obtain ⟨peer, inRange, paired⟩ := mem_flatMap.mp member
  have insidePeer := mem_range.mp inRange
  rw [posted rank inside, posted peer insidePeer] at paired
  obtain ⟨i, here⟩ := mem_iff_getElem?.mp paired
  obtain ⟨received, sent⟩ := getElem?_zip_eq_some.mp here
  rw [getElem?_map, Option.map_eq_some_iff] at sent
  obtain ⟨⟨tensor, row⟩, atPeer, content⟩ := sent
  constructor
  · have slot := mem_of_getElem? received
    rw [(posts_spec full inside).2, mem_carried] at slot
    obtain ⟨entry, listed, -, -, same⟩ := slot
    rw [same]
    exact (recvRows_at rank listed).2.1
  · -- Both ends name the same tensor and the same expert.
    have matched := congrArg (fun slots => slots[i]?) (@posts_matched numLocalExperts numTensors
      oldIndices newIndices size full peer rank insidePeer inside)
    simp only [getElem?_map, atPeer, received, Option.map_some, Option.some.injEq] at matched
    obtain ⟨sameTensor, sameExpert⟩ := Prod.mk.inj matched
    have slot := mem_of_getElem? atPeer
    rw [(posts_spec full insidePeer).1, mem_carried] at slot
    obtain ⟨entry, listed, -, tensorInside, same⟩ := slot
    obtain ⟨rowInside, atRow⟩ := sendRows_at peer listed
    have real := ((sendRows_keys numLocalExperts oldIndices peer).mp (mem_keys listed)).1
    simp only at sameTensor sameExpert same tensorInside
    rw [← content, ← sameExpert, ← sameTensor]
    apply held peer insidePeer row (by rwa [same]) tensor tensorInside
    rwa [same, atRow]

/-- A primary row gets the weights of its expert. -/
theorem landed_primary {ops : Nat → List P2POp}
    (posted : Posted size numLocalExperts numTensors oldIndices newIndices ops) {rank : Nat}
    (inside : rank < size) {entry : Int × Nat}
    (member : entry ∈ recvRows numLocalExperts oldIndices newIndices rank)
    (existing : entry.1 ∈ oldIndices) {tensor : Nat} (listed : tensor < numTensors)
    (buffers : Nat → Nat → Content) :
    (landings size ops weights rank).foldl land buffers tensor entry.2 =
      expertWeights entry.1 tensor := by
  have here := (recvRows_at rank member).2.2
  apply foldl_land_hit
  · intro landing landed same
    have right := (landings_right full held posted inside landed).2
    rwa [same, here] at right
  · obtain ⟨wanted, missing⟩ :=
      (recvRows_keys numLocalExperts oldIndices newIndices rank).mp (mem_keys member)
    obtain ⟨source, insideSource, served⟩ := sourceOf_exists full inside wanted missing existing
    have slot : (tensor, entry.2) ∈ recvsFrom (ops rank) source := by
      rw [posted rank inside, (posts_spec full inside).2, mem_carried]
      exact ⟨entry, member, served, listed, rfl⟩
    have lengths := posted_complete full ops posted source insideSource rank inside
    unfold landings
    rw [map_flatMap, mem_flatMap]
    refine ⟨source, mem_range.mpr insideSource, ?_⟩
    rw [map_fst_zip (by rw [length_map, lengths])]
    exact slot

theorem landed_other (ops : Nat → List P2POp)
    (posted : Posted size numLocalExperts numTensors oldIndices newIndices ops) (rank : Nat)
    (inside : rank < size) (row : Nat)
    (unneeded : needRecv numLocalExperts oldIndices newIndices rank row = false) (tensor : Nat)
    (buffers : Nat → Nat → Content) :
    (landings size ops weights rank).foldl land buffers tensor row = buffers tensor row := by
  apply foldl_land_other
  intro landing landed same
  have needed := (landings_right full held posted inside landed).1
  rw [same, unneeded] at needed
  exact Bool.false_ne_true needed

end

end

/-! Copying back. -/

/-- The cases of a row whose expert existed before. -/
theorem row_cases (rank row : Nat) (inside : row < numLocalExperts)
    (real : expertAt newIndices numLocalExperts rank row ≠ -1) :
    isUnchanged numLocalExperts oldIndices newIndices rank row = true ∨
      (isUnchanged numLocalExperts oldIndices newIndices rank row = false ∧
        isReceivedLocally numLocalExperts oldIndices newIndices rank row = true) ∨
      (isReceivedLocally numLocalExperts oldIndices newIndices rank row = false ∧
        ∃ primary, (expertAt newIndices numLocalExperts rank row, primary) ∈
          recvRows numLocalExperts oldIndices newIndices rank) := by
  cases received : isReceivedLocally numLocalExperts oldIndices newIndices rank row with
  | true =>
    cases same : isUnchanged numLocalExperts oldIndices newIndices rank row with
    | true => exact Or.inl rfl
    | false => exact Or.inr (Or.inl ⟨rfl, rfl⟩)
  | false =>
    refine Or.inr (Or.inr ⟨rfl, ?_⟩)
    have missing : ¬ Local numLocalExperts oldIndices rank
        (expertAt newIndices numLocalExperts rank row) := by
      rw [← isReceivedLocally_iff numLocalExperts oldIndices newIndices rank row inside real,
        received]
      exact Bool.false_ne_true
    have key := (recvRows_keys numLocalExperts oldIndices newIndices rank).mpr
      ⟨⟨real, row, inside, rfl⟩, missing⟩
    obtain ⟨⟨expert, primary⟩, member, same⟩ := mem_map.mp key
    exact ⟨primary, by rwa [← same]⟩

theorem moveLocally_right
    (held : Held size numLocalExperts numTensors oldIndices weights expertWeights) {rank : Nat}
    (inside : rank < size) {row : Nat} (within : row < numLocalExperts)
    (real : expertAt newIndices numLocalExperts rank row ≠ -1)
    (changed : isUnchanged numLocalExperts oldIndices newIndices rank row = false)
    (received : isReceivedLocally numLocalExperts oldIndices newIndices rank row = true)
    {tensor : Nat} (listed : tensor < numTensors) {buffers : Nat → Nat → Content} :
    moveLocally numLocalExperts oldIndices newIndices rank (weights rank) buffers tensor row =
      expertWeights (expertAt newIndices numLocalExperts rank row) tensor := by
  have key := (sendRows_keys numLocalExperts oldIndices rank).mpr
    ((isReceivedLocally_iff numLocalExperts oldIndices newIndices rank row within real).mp received)
  obtain ⟨other, member, same⟩ := mem_map.mp key
  have search : ((sendRows numLocalExperts oldIndices rank).find? fun entry =>
      entry.1 == expertAt newIndices numLocalExperts rank row).isSome = true := by
    rw [find?_isSome]
    exact ⟨other, member, by simpa using same⟩
  obtain ⟨entry, found⟩ := Option.isSome_iff_exists.mp search
  have here : entry.1 = expertAt newIndices numLocalExperts rank row := by
    simpa using find?_some found
  obtain ⟨rowInside, atRow⟩ := sendRows_at rank (mem_of_find?_eq_some found)
  have holder := atRow.trans here
  unfold moveLocally
  rw [if_pos ⟨within, changed, received⟩, found, ← holder]
  exact held rank inside entry.2 rowInside tensor listed (by rwa [holder])

section Copies
variable (numLocalExperts : Nat) (oldIndices newIndices : List Int) (rank : Nat)

/-- The weights of a rank once the buffers are copied back, without the duplicates. -/
def copiedBack (own landed : Nat → Nat → Content) : Nat → Nat → Content := fun tensor row =>
  if row < numLocalExperts ∧ isUnchanged numLocalExperts oldIndices newIndices rank row = false ∧
      (isReceivedLocally numLocalExperts oldIndices newIndices rank row ||
        (metadata numLocalExperts oldIndices newIndices rank).recvPrimaryMask row) = true then
    landed tensor row
  else own tensor row

/-- The duplicates, each with the primary row of its expert. -/
def copies : List (Nat × Nat) :=
  ((List.range numLocalExperts).filter fun row =>
    !isUnchanged numLocalExperts oldIndices newIndices rank row &&
      !isReceivedLocally numLocalExperts oldIndices newIndices rank row &&
      (!(metadata numLocalExperts oldIndices newIndices rank).recvPrimaryMask row &&
        expertAt newIndices numLocalExperts rank row != -1)).filterMap fun dst =>
    (matchDuplicate (recvRows numLocalExperts oldIndices newIndices rank)
      (expertAt newIndices numLocalExperts rank dst)).map fun src => (dst, src)

theorem mem_copies {dst src : Nat} :
    (dst, src) ∈ copies numLocalExperts oldIndices newIndices rank ↔ dst < numLocalExperts ∧
      isReceivedLocally numLocalExperts oldIndices newIndices rank dst = false ∧
      (metadata numLocalExperts oldIndices newIndices rank).recvPrimaryMask dst = false ∧
      (expertAt newIndices numLocalExperts rank dst, src) ∈
        recvRows numLocalExperts oldIndices newIndices rank := by
  unfold copies
  rw [mem_filterMap]
  constructor
  · rintro ⟨row, member, found⟩
    obtain ⟨primary, search, same⟩ := Option.map_eq_some_iff.mp found
    obtain ⟨rfl, rfl⟩ := Prod.mk.inj same
    obtain ⟨inside, chosen⟩ := mem_filter.mp member
    simp only [Bool.and_eq_true, Bool.not_eq_true'] at chosen
    exact ⟨mem_range.mp inside, chosen.1.2, chosen.2.1,
      (matchDuplicate_iff _ (recvRows_ascending rank) _ _).mp search⟩
  · rintro ⟨inside, remote, duplicate, member⟩
    have real := ((recvRows_keys numLocalExperts oldIndices newIndices rank).mp
      (mem_keys member)).1.1
    have changed : isUnchanged numLocalExperts oldIndices newIndices rank dst = false := by
      exact (Bool.or_eq_false_iff.mp remote).1
    refine ⟨dst, mem_filter.mpr ⟨mem_range.mpr inside, ?_⟩, ?_⟩
    · rw [changed, remote, duplicate]
      simpa using real
    · rw [(matchDuplicate_iff _ (recvRows_ascending rank) _ _).mpr member]
      rfl

theorem moveFromBuffer_eq (own landed : Nat → Nat → Content) :
    moveFromBuffer numLocalExperts own landed
        (isUnchanged numLocalExperts oldIndices newIndices rank)
        (isReceivedLocally numLocalExperts oldIndices newIndices rank)
        (metadata numLocalExperts oldIndices newIndices rank) newIndices rank =
      (copies numLocalExperts oldIndices newIndices rank).foldl
        (fun weights (dst, src) => copyRow weights dst src)
        (copiedBack numLocalExperts oldIndices newIndices rank own landed) := by
  unfold moveFromBuffer
  rw [metadata_prims]
  by_cases nothing : (metadata numLocalExperts oldIndices newIndices rank).recvCount = 0
  · have empty : copies numLocalExperts oldIndices newIndices rank = [] := by
      apply eq_nil_iff_forall_not_mem.mpr
      rintro ⟨dst, src⟩ member
      have listed := ((mem_copies numLocalExperts oldIndices newIndices rank).mp member).2.2.2
      rw [length_eq_zero_iff.mp nothing] at listed
      exact not_mem_nil listed
    rw [if_pos nothing, empty]
    rfl
  · rw [if_neg nothing]
    rfl

end Copies

/-- Every slot of a rank holds its new expert in the end, if that expert existed. -/
theorem moveFromBuffer_right (full : Full size numLocalExperts oldIndices newIndices)
    (held : Held size numLocalExperts numTensors oldIndices weights expertWeights)
    (ops : Nat → List P2POp)
    (posted : Posted size numLocalExperts numTensors oldIndices newIndices ops) (rank : Nat)
    (inside : rank < size) (row : Nat) (within : row < numLocalExperts)
    (real : expertAt newIndices numLocalExperts rank row ≠ -1)
    (existing : expertAt newIndices numLocalExperts rank row ∈ oldIndices)
    (tensor : Nat) (listed : tensor < numTensors) (buffers : Nat → Nat → Content) :
    moveFromBuffer numLocalExperts (weights rank)
        ((landings size ops weights rank).foldl land
          (moveLocally numLocalExperts oldIndices newIndices rank (weights rank) buffers))
        (isUnchanged numLocalExperts oldIndices newIndices rank)
        (isReceivedLocally numLocalExperts oldIndices newIndices rank)
        (metadata numLocalExperts oldIndices newIndices rank) newIndices rank tensor row =
      expertWeights (expertAt newIndices numLocalExperts rank row) tensor := by
  rw [moveFromBuffer_eq]
  -- A row that is no duplicate keeps what was copied back.
  have single : isReceivedLocally numLocalExperts oldIndices newIndices rank row = true ∨
      (metadata numLocalExperts oldIndices newIndices rank).recvPrimaryMask row = true →
      ∀ copy ∈ copies numLocalExperts oldIndices newIndices rank, copy.1 ≠ row := by
    rintro settled ⟨dst, src⟩ member rfl
    obtain ⟨-, remote, duplicate, -⟩ :=
      (mem_copies numLocalExperts oldIndices newIndices rank).mp member
    rcases settled with received | primary
    · exact Bool.false_ne_true (remote.symm.trans received)
    · exact Bool.false_ne_true (duplicate.symm.trans primary)
  -- What was copied back to a primary row is right.
  have primaries : ∀ entry ∈ recvRows numLocalExperts oldIndices newIndices rank,
      entry.1 = expertAt newIndices numLocalExperts rank row →
      copiedBack numLocalExperts oldIndices newIndices rank (weights rank)
        ((landings size ops weights rank).foldl land
          (moveLocally numLocalExperts oldIndices newIndices rank (weights rank) buffers))
        tensor entry.2 = expertWeights (expertAt newIndices numLocalExperts rank row) tensor := by
    intro entry member same
    obtain ⟨inRow, needed, here⟩ := recvRows_at rank member
    have primary := recvPrimaryMask_iff.mpr (by rw [here]; exact member)
    have changed : isUnchanged numLocalExperts oldIndices newIndices rank entry.2 = false := by
      unfold needRecv isReceivedLocally at needed
      simp only [Bool.and_eq_true, Bool.not_eq_true', Bool.or_eq_false_iff] at needed
      exact needed.1.1
    unfold copiedBack
    rw [if_pos ⟨inRow, changed, by rw [primary, Bool.or_true]⟩, landed_primary full held posted inside member (by rwa [same]) listed, same]
  rcases @row_cases numLocalExperts oldIndices newIndices rank row within real with
    same | ⟨changed, received⟩ | ⟨remote, primary, member⟩
  · have received : isReceivedLocally numLocalExperts oldIndices newIndices rank row = true := by
      unfold isReceivedLocally
      rw [same, Bool.true_or]
    rw [foldl_copyRow_other _ _ _ _ (single (Or.inl received))]
    unfold copiedBack
    have kept : expertAt oldIndices numLocalExperts rank row =
        expertAt newIndices numLocalExperts rank row := by
      unfold isUnchanged at same
      simpa using same
    rw [if_neg (by simp [same]), ← kept]
    exact held rank inside row within tensor listed (by rwa [kept])
  · rw [foldl_copyRow_other _ _ _ _ (single (Or.inl received))]
    have unneeded : needRecv numLocalExperts oldIndices newIndices rank row = false := by
      unfold needRecv
      rw [received]
      rfl
    unfold copiedBack
    rw [if_pos ⟨within, changed, by rw [received, Bool.true_or]⟩,
      landed_other full held ops posted rank inside row unneeded]
    exact moveLocally_right held inside within real changed received listed
  · by_cases here : (metadata numLocalExperts oldIndices newIndices rank).recvPrimaryMask row = true
    · rw [foldl_copyRow_other _ _ _ _ (single (Or.inr here))]
      exact primaries _ (recvPrimaryMask_iff.mp here) rfl
    · have duplicate := Bool.eq_false_iff.mpr here
      apply foldl_copyRow_hit
      · rintro ⟨first, src⟩ inFirst ⟨second, other⟩ inSecond clash
        have source := ((mem_copies numLocalExperts oldIndices newIndices rank).mp
          inFirst).2.2.2
        have masked := ((mem_copies numLocalExperts oldIndices newIndices rank).mp
          inSecond).2.2.1
        obtain ⟨-, -, atSource⟩ := recvRows_at rank source
        have primarySource := recvPrimaryMask_iff.mpr (by rw [atSource]; exact source)
        rw [show src = second from clash, masked] at primarySource
        exact Bool.false_ne_true primarySource
      · rintro ⟨dst, src⟩ inCopies rfl
        exact primaries _
          ((mem_copies numLocalExperts oldIndices newIndices rank).mp inCopies).2.2.2 rfl
      · exact mem_map.mpr ⟨(row, primary),
          (mem_copies numLocalExperts oldIndices newIndices rank).mpr
            ⟨within, remote, duplicate, member⟩, rfl⟩

end Rows

/-! All ranks. -/

theorem mapM_total {Result : Type} (ranks : List Nat) (run : Nat → Option Result)
    (result : Nat → Result) (each : ∀ rank ∈ ranks, run rank = some (result rank)) :
    ranks.mapM run = some (ranks.map result) := by
  induction ranks with
  | nil => rfl
  | cons rank ranks ih =>
    rw [mapM_cons, each rank mem_cons_self,
      ih fun other member => each other (mem_cons_of_mem rank member)]
    rfl

section Rebalance
variable {Content : Type} (size numLocalExperts numTensors : Nat) (oldIndices newIndices : List Int)
  (weights buffers : Nat → Nat → Nat → Content)

def planned (rank : Nat) : MoveToBufferResult Content where
  isUnchanged := isUnchanged numLocalExperts oldIndices newIndices rank
  isReceivedLocally := isReceivedLocally numLocalExperts oldIndices newIndices rank
  recvMetadata := metadata numLocalExperts oldIndices newIndices rank
  p2pOps := posts numLocalExperts numTensors oldIndices newIndices rank
  buffers := moveLocally numLocalExperts oldIndices newIndices rank (weights rank) (buffers rank)

def plans : List (MoveToBufferResult Content) :=
  (List.range size).map (planned numLocalExperts numTensors oldIndices newIndices weights buffers)

theorem plans_get? (rank : Nat) (inside : rank < size) :
    (plans size numLocalExperts numTensors oldIndices newIndices weights buffers)[rank]? =
      some (planned numLocalExperts numTensors oldIndices newIndices weights buffers rank) := by
  unfold plans
  rw [getElem?_map, getElem?_range inside]
  rfl

variable {size numLocalExperts numTensors oldIndices newIndices}

theorem rebalance_eq (full : Full size numLocalExperts oldIndices newIndices) :
    ∃ after, rebalance size numLocalExperts numTensors oldIndices newIndices weights buffers =
        some (plans size numLocalExperts numTensors oldIndices newIndices weights buffers, after) ∧
      ∃ ops, Posted size numLocalExperts numTensors oldIndices newIndices ops ∧
        ∀ rank < size, after rank =
          moveFromBuffer numLocalExperts (weights rank)
            ((landings size ops weights rank).foldl land
              (moveLocally numLocalExperts oldIndices newIndices rank (weights rank)
                (buffers rank)))
            (isUnchanged numLocalExperts oldIndices newIndices rank)
            (isReceivedLocally numLocalExperts oldIndices newIndices rank)
            (metadata numLocalExperts oldIndices newIndices rank) newIndices rank := by
  have moved := mapM_total (range size)
    (fun rank => moveToBuffer numLocalExperts numTensors oldIndices newIndices rank (weights rank)
      (buffers rank))
    (planned numLocalExperts numTensors oldIndices newIndices weights buffers)
    fun rank member => moveToBuffer_eq full rank (mem_range.mp member) _ _
  have posted : Posted size numLocalExperts numTensors oldIndices newIndices fun rank =>
      (plans size numLocalExperts numTensors oldIndices newIndices weights
        buffers)[rank]?.elim [] fun result => result.p2pOps := by
    intro rank inside
    show Option.elim _ _ _ = _
    rw [plans_get? _ _ _ _ _ _ _ _ inside]
    rfl
  unfold rebalance batchIsendIrecv
  rw [moved]
  change ∃ after, (if Complete size (fun rank =>
      (plans size numLocalExperts numTensors oldIndices newIndices weights
        buffers)[rank]?.elim [] fun result => result.p2pOps) then _ else none).bind _ = _ ∧ _
  rw [if_pos (posted_complete full _ posted)]
  refine ⟨_, rfl, _, posted, fun rank inside => ?_⟩
  have found := plans_get? size numLocalExperts numTensors oldIndices newIndices weights buffers
    rank inside
  unfold plans at found
  simp only [found]
  rfl

/-- The exchange of the experts of a layer never fails or hangs. For every ordered pair of ranks
the sends of the one are the receives of the other, in the same order, for the same tensors and the
same experts. A rank receives every expert once that it lacks and that somebody has. In the end
every slot whose new expert existed holds the weights of this expert. -/
theorem rebalance_complete (full : Full size numLocalExperts oldIndices newIndices)
    (expertWeights : Int → Nat → Content)
    (held : Held size numLocalExperts numTensors oldIndices weights expertWeights) :
    ∃ results after,
      rebalance size numLocalExperts numTensors oldIndices newIndices weights buffers =
        some (results, after) ∧ results.length = size ∧
      (∀ (source target : Nat) (sender receiver : MoveToBufferResult Content),
        results[source]? = some sender → results[target]? = some receiver →
          (sendsTo sender.p2pOps target).map (named oldIndices numLocalExperts source) =
            (recvsFrom receiver.p2pOps source).map (named newIndices numLocalExperts target)) ∧
      (∀ (rank : Nat) (result : MoveToBufferResult Content), results[rank]? = some result →
        ∀ expert, Local numLocalExperts newIndices rank expert →
          ¬ Local numLocalExperts oldIndices rank expert → expert ∈ oldIndices →
            ∀ tensor < numTensors, result.p2pOps.countP
              (receivesExpert newIndices numLocalExperts rank tensor expert) = 1) ∧
      ∀ rank < size, ∀ row < numLocalExperts,
        expertAt newIndices numLocalExperts rank row ≠ -1 →
          expertAt newIndices numLocalExperts rank row ∈ oldIndices →
            ∀ tensor < numTensors, after rank tensor row =
              expertWeights (expertAt newIndices numLocalExperts rank row) tensor := by
  obtain ⟨after, done, ops, posted, moved⟩ := @rebalance_eq Content size
    numLocalExperts numTensors oldIndices newIndices weights buffers full
  have plan : ∀ (rank : Nat) (result : MoveToBufferResult Content),
      (plans size numLocalExperts numTensors oldIndices newIndices weights buffers)[rank]? =
        some result → rank < size ∧
          result.p2pOps = posts numLocalExperts numTensors oldIndices newIndices rank := by
    intro rank result found
    have inside : rank < size := by
      have bound := (List.getElem?_eq_some_iff.mp found).1
      unfold plans at bound
      rwa [length_map, length_range] at bound
    rw [plans_get? _ _ _ _ _ _ _ _ inside] at found
    exact ⟨inside, by rw [← Option.some.inj found]; rfl⟩
  refine ⟨_, after, done, ?_, ?_, ?_, ?_⟩
  · unfold plans
    rw [length_map, length_range]
  · intro source target sender receiver foundSender foundReceiver
    obtain ⟨insideSource, sent⟩ := plan source sender foundSender
    obtain ⟨insideTarget, received⟩ := plan target receiver foundReceiver
    rw [sent, received]
    exact posts_matched full source target insideSource insideTarget
  · intro rank result found expert wanted missing existing tensor listed
    obtain ⟨inside, posts⟩ := plan rank result found
    rw [posts]
    exact posts_count full rank inside expert wanted missing existing tensor listed
  · intro rank inside row within real existing tensor listed
    rw [moved rank inside]
    exact moveFromBuffer_right full held ops posted rank inside row within real existing tensor
      listed (buffers rank)

/-- Two ranks with two slots: the second expert moves and is doubled, the third is new. -/
theorem pair_rebalanced :
    Full 2 2 [0, 1, 1, -1] [1, 1, 0, 2] ∧
    Held 2 2 1 [0, 1, 1, -1] (fun rank _ row => expertAt [0, 1, 1, -1] 2 rank row)
      (fun expert _ => expert) ∧
    ∃ results after,
      rebalance 2 2 1 [0, 1, 1, -1] [1, 1, 0, 2]
        (fun rank _ row => expertAt [0, 1, 1, -1] 2 rank row) (fun _ _ _ => 0) =
          some (results, after) ∧ after 0 0 1 = 1 ∧ after 1 0 0 = 0 := by
  have full : Full 2 2 [0, 1, 1, -1] [1, 1, 0, 2] := ⟨rfl, rfl⟩
  have held : Held 2 2 1 [0, 1, 1, -1] (fun rank _ row => expertAt [0, 1, 1, -1] 2 rank row)
      (fun expert _ => expert) := fun _ _ _ _ _ _ _ => rfl
  obtain ⟨results, after, done, -, -, -, right⟩ := rebalance_complete
    (fun rank _ row => expertAt [0, 1, 1, -1] 2 rank row) (fun _ _ _ => 0) full
    (fun expert _ => expert) held
  exact ⟨full, held, results, after, done,
    right 0 (by decide) 1 (by decide) (by decide) (by decide) 0 (by decide),
    right 1 (by decide) 0 (by decide) (by decide) (by decide) 0 (by decide)⟩

end Rebalance

end VllmDcu.ExpertWeights
