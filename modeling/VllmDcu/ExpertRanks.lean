import VllmDcu.ExpertRebalance

/-! The ranks that have an expert and the ranks that need it do not depend on the query:
sender and receiver look at the same two lists. -/
namespace VllmDcu.ExpertRanks
open Segments ExpertRebalance List Option

theorem mem_unique {values : List Int} {value : Int} : value ∈ unique values ↔ value ∈ values := by
  unfold unique
  rw [mem_insertionSort, mem_dedup]

theorem unique_ascending (values : List Int) : (unique values).Pairwise (· < ·) := by
  have sorted : (unique values).Pairwise (· ≤ ·) := pairwise_insertionSort _ _
  have nodup : (unique values).Nodup := (perm_insertionSort _ _).nodup_iff.mpr (nodup_dedup values)
  exact (sorted.and nodup).imp fun both => lt_of_le_of_ne both.1 both.2

theorem lexLe_antisymm (a b : Int × Nat) (ab : lexLe a b) (ba : lexLe b a) : a = b := by
  unfold lexLe at ab ba
  apply Prod.ext
  · omega
  · omega

instance : Std.Total lexLe := ⟨fun a b => by
  unfold lexLe
  omega⟩

instance : IsTrans (Int × Nat) lexLe := ⟨fun a b c ab bc => by
  unfold lexLe at ab bc ⊢
  omega⟩

theorem zipIdx_ascending (indices : List Int) : indices.zipIdx.Pairwise fun a b => a.2 < b.2 := by
  have positions : (indices.zipIdx.map Prod.snd).Pairwise (· < ·) := by
    rw [zipIdx_map_snd]
    exact pairwise_lt_range'
  exact pairwise_map.mp positions

/-- The entries of an expert stand in the order of their positions, sorted or not. -/
theorem sortedRelevant_filter (uniqueExperts indices : List Int) (expert : Int) :
    (sortedRelevant uniqueExperts indices).filter (fun entry => entry.1 = expert) =
      if expert ∈ uniqueExperts then indices.zipIdx.filter fun entry => entry.1 = expert
      else [] := by
  have perm := (perm_insertionSort lexLe
    (indices.zipIdx.filter fun entry => entry.1 ∈ uniqueExperts)).filter
      fun entry => entry.1 = expert
  rw [List.filter_filter] at perm
  by_cases queried : expert ∈ uniqueExperts
  · rw [if_pos queried]
    have both : (indices.zipIdx.filter fun entry =>
        decide (entry.1 = expert) && decide (entry.1 ∈ uniqueExperts)) =
        indices.zipIdx.filter fun entry => decide (entry.1 = expert) := by
      apply filter_congr
      intro entry _
      by_cases here : entry.1 = expert
      · simp [here, queried]
      · simp [here]
    rw [both] at perm
    apply Perm.eq_of_pairwise (fun a b _ _ => lexLe_antisymm a b) ?_ ?_ perm
    · exact (pairwise_insertionSort lexLe _).filter _
    · apply List.Pairwise.imp_of_mem ?_ ((zipIdx_ascending indices).filter _)
      intro a b inA inB before
      have atA : a.1 = expert := by simpa using (mem_filter.mp inA).2
      have atB : b.1 = expert := by simpa using (mem_filter.mp inB).2
      exact Or.inr ⟨atA.trans atB.symm, Nat.le_of_lt before⟩
  · rw [if_neg queried]
    apply filter_eq_nil_iff.mpr
    intro entry member
    have relevant := (mem_filter.mp ((mem_insertionSort lexLe).mp member)).2
    have inQuery : entry.1 ∈ uniqueExperts := by simpa using relevant
    have different : entry.1 ≠ expert := by
      rintro rfl
      exact queried inQuery
    simpa using different

/-- The ranks that hold an expert in an assignment. -/
def holders (numLocalExperts : Nat) (indices : List Int) (expert : Int) : List Nat :=
  uniqueRanks numLocalExperts (indices.zipIdx.filter fun entry => entry.1 = expert)

variable (numLocalExperts : Nat)

theorem ranksByExpert_filter (uniqueExperts indices : List Int) (expert : Int) :
    (ranksByExpert numLocalExperts uniqueExperts indices).filter (fun entry => entry.1 = expert) =
      if expert ∈ uniqueExperts ∧ expert ∈ indices then
        [(expert, holders numLocalExperts indices expert)]
      else [] := by
  have split : (ranksByExpert numLocalExperts uniqueExperts indices).filter
      (fun entry => entry.1 = expert) =
      (((segments Prod.fst (sortedRelevant uniqueExperts indices)).filter fun segment =>
        segment.head?.map Prod.fst = some expert).map fun segment =>
          (expert, uniqueRanks numLocalExperts segment)) := by
    unfold ranksByExpert
    induction segments Prod.fst (sortedRelevant uniqueExperts indices) with
    | nil => rfl
    | cons segment rest ih =>
      cases head : segment.head? with
      | none => simp [head, ih]
      | some first =>
        by_cases here : first.1 = expert
        · simp [head, ih, here]
        · simp [head, ih, here]
  have inside : expert ∈ (sortedRelevant uniqueExperts indices).map Prod.fst ↔
      expert ∈ uniqueExperts ∧ expert ∈ indices := by
    rw [List.mem_map]
    constructor
    · rintro ⟨entry, member, rfl⟩
      obtain ⟨listed, queried⟩ := mem_filter.mp ((mem_insertionSort lexLe).mp member)
      refine ⟨by simpa using queried, ?_⟩
      exact mem_of_getElem? (mk_mem_zipIdx_iff_getElem?.mp listed)
    · rintro ⟨queried, present⟩
      obtain ⟨position, found⟩ := mem_iff_getElem?.mp present
      refine ⟨(expert, position), (mem_insertionSort lexLe).mpr ?_, rfl⟩
      exact mem_filter.mpr ⟨mk_mem_zipIdx_iff_getElem?.mpr found, by simpa using queried⟩
  rw [split]
  cases shape : sortedRelevant uniqueExperts indices with
  | nil =>
    rw [shape] at inside
    rw [if_neg (fun both => absurd (inside.mpr both) not_mem_nil)]
    rfl
  | cons first rest =>
    have sorted : (first :: rest).Pairwise fun a b => a.1 ≤ b.1 := by
      rw [← shape]
      apply (pairwise_insertionSort lexLe _).imp
      rintro a b (less | ⟨same, -⟩)
      · exact le_of_lt less
      · exact le_of_eq same
    rw [segments_filter Prod.fst first rest sorted expert, ← shape]
    by_cases known : expert ∈ uniqueExperts ∧ expert ∈ indices
    · rw [if_pos (inside.mpr known), if_pos known, sortedRelevant_filter, if_pos known.1]
      rfl
    · rw [if_neg (fun member => known (inside.mp member)), if_neg known]
      rfl

theorem foldl_set_get? {Value Stored : Type} (entries : List (Int × Value))
    (stored : Int × Value → Stored) (known : Dict Int Stored) (key : Int) :
    (entries.foldl (fun dict entry => dict.set entry.1 (stored entry)) known).get? key =
      (((entries.filter fun entry => entry.1 = key).getLast?).map stored).or (known.get? key) := by
  induction entries generalizing known with
  | nil => rfl
  | cons entry rest ih =>
    rw [foldl_cons, ih, Dict.get?_set, filter_cons]
    by_cases here : entry.1 = key
    · rw [if_pos here.symm, if_pos (by simpa using here), getLast?_cons]
      cases (rest.filter fun entry => decide (entry.1 = key)).getLast? <;> rfl
    · rw [if_neg (Ne.symm here), if_neg (by simpa using here)]

theorem fillMissing_get? (ranks : Dict Int (List Nat)) (uniqueExperts : List Int) (expert : Int) :
    (fillMissing ranks uniqueExperts).get? expert =
      if expert ∈ uniqueExperts then some ((ranks.get? expert).getD [])
      else ranks.get? expert := by
  unfold fillMissing
  induction uniqueExperts generalizing ranks with
  | nil => rfl
  | cons first rest ih =>
    rw [foldl_cons, ih]
    have one : (if ranks.contains first then ranks else ranks.set first []).get? expert =
        if expert = first then some ((ranks.get? expert).getD []) else ranks.get? expert := by
      unfold Dict.contains
      cases found : ranks.get? first with
      | some list =>
        rw [isSome_some, if_pos rfl]
        by_cases here : expert = first
        · rw [if_pos here, here, found, getD_some]
        · rw [if_neg here]
      | none =>
        rw [isSome_none, if_neg Bool.false_ne_true, Dict.get?_set]
        by_cases here : expert = first
        · rw [if_pos here, if_pos here, here, found, getD_none]
        · rw [if_neg here, if_neg here]
    rw [one]
    by_cases here : expert = first
    · simp [here]
    · simp [here]

/-- The ranks that need an expert and have no copy. -/
def receivers (numLocalExperts : Nat) (oldIndices newIndices : List Int) (expert : Int) :
    List Nat :=
  (holders numLocalExperts newIndices expert).filter fun rank =>
    rank ∉ holders numLocalExperts oldIndices expert

theorem holders_absent (indices : List Int) (expert : Int) (absent : expert ∉ indices) :
    holders numLocalExperts indices expert = [] := by
  have nothing : indices.zipIdx.filter (fun entry => decide (entry.1 = expert)) = [] := by
    apply filter_eq_nil_iff.mpr
    intro entry member
    have found := mk_mem_zipIdx_iff_getElem?.mp member
    have different : entry.1 ≠ expert := by
      rintro rfl
      exact absent (mem_of_getElem? found)
    simpa using different
  unfold holders
  rw [nothing]
  rfl

theorem getEpRanks_spec {expertIds : List Int} {numLocalExperts : Nat}
    {oldIndices newIndices : List Int} {expert : Int} (queried : expert ∈ expertIds) :
    (getEpRanksWithExpertsBatch expertIds numLocalExperts oldIndices newIndices).1.get? expert =
        some (holders numLocalExperts oldIndices expert) ∧
      (getEpRanksWithExpertsBatch expertIds numLocalExperts oldIndices newIndices).2.get? expert =
        some (receivers numLocalExperts oldIndices newIndices expert) := by
  have nonempty : expertIds.isEmpty = false := by
    cases expertIds with
    | nil => exact absurd queried not_mem_nil
    | cons first rest => rfl
  have inQuery := mem_unique.mpr queried
  have sent : (((ranksByExpert numLocalExperts (unique expertIds) oldIndices).foldl
      (fun ranks entry => ranks.set entry.1 entry.2) Dict.empty).get? expert).getD [] =
        holders numLocalExperts oldIndices expert := by
    rw [foldl_set_get? _ (fun entry => entry.2), ranksByExpert_filter]
    by_cases present : expert ∈ oldIndices
    · rw [if_pos ⟨inQuery, present⟩]
      rfl
    · rw [if_neg (fun both => present both.2), holders_absent _ _ _ present]
      rfl
  unfold getEpRanksWithExpertsBatch
  rw [nonempty, if_neg Bool.false_ne_true]
  rw [fillMissing_get?, fillMissing_get?, if_pos inQuery, if_pos inQuery, sent]
  refine ⟨rfl, congrArg some ?_⟩
  have received := foldl_set_get? (ranksByExpert numLocalExperts (unique expertIds) newIndices)
    (fun entry => entry.2.filter fun rank => decide (rank ∉
      (((ranksByExpert numLocalExperts (unique expertIds) oldIndices).foldl
        (fun ranks entry => ranks.set entry.1 entry.2) Dict.empty).get? entry.1).getD []))
  rw [received, ranksByExpert_filter]
  unfold receivers
  by_cases present : expert ∈ newIndices
  · rw [if_pos ⟨inQuery, present⟩, getLast?_singleton, map_some]
    simp only [sent]
    rfl
  · rw [if_neg (fun both => present both.2), holders_absent _ _ _ present]
    rfl

/-! Who is in the two lists. -/

theorem mem_firstAppearances (ranks : List Nat) (rank : Nat) :
    rank ∈ firstAppearances ranks ↔ rank ∈ ranks := by
  induction ranks with
  | nil => rfl
  | cons first rest ih =>
    unfold firstAppearances
    rw [mem_cons, mem_filter, ih]
    by_cases here : rank = first
    · simp [here]
    · simp [here]

theorem firstAppearances_nodup (ranks : List Nat) : (firstAppearances ranks).Nodup := by
  induction ranks with
  | nil => exact nodup_nil
  | cons first rest ih =>
    unfold firstAppearances
    rw [nodup_cons]
    exact ⟨by simp, ih.filter _⟩

theorem holders_nodup {indices : List Int} {expert : Int} :
    (holders numLocalExperts indices expert).Nodup := firstAppearances_nodup _

theorem receivers_nodup {oldIndices newIndices : List Int} {expert : Int} :
    (receivers numLocalExperts oldIndices newIndices expert).Nodup :=
  (holders_nodup numLocalExperts).filter _

/-- The local experts of a rank, empty slots left out. -/
def Local (numLocalExperts : Nat) (indices : List Int) (rank : Nat) (expert : Int) : Prop :=
  expert ≠ -1 ∧ ∃ row < numLocalExperts, expertAt indices numLocalExperts rank row = expert

theorem expertAt_eq {indices : List Int} {numLocalExperts rank row : Nat} {expert : Int}
    (real : expert ≠ -1) :
    expertAt indices numLocalExperts rank row = expert ↔
      indices[rank * numLocalExperts + row]? = some expert := by
  unfold expertAt
  cases indices[rank * numLocalExperts + row]? with
  | none => simp [Ne.symm real]
  | some other => simp

theorem mem_holders_iff {indices : List Int} {expert : Int} (real : expert ≠ -1) {rank : Nat} :
    rank ∈ holders numLocalExperts indices expert ↔
      ∃ position, indices[position]? = some expert ∧ position / numLocalExperts = rank := by
  unfold holders uniqueRanks
  rw [mem_firstAppearances, List.mem_map]
  constructor
  · rintro ⟨⟨other, position⟩, member, rfl⟩
    obtain ⟨listed, here⟩ := mem_filter.mp member
    obtain rfl : other = expert := by simpa using here
    exact ⟨position, mk_mem_zipIdx_iff_getElem?.mp listed, rfl⟩
  · rintro ⟨position, found, rfl⟩
    exact ⟨(expert, position), mem_filter.mpr ⟨mk_mem_zipIdx_iff_getElem?.mpr found, by simp⟩, rfl⟩

/-- In a full assignment the holders are the ranks with the expert among their local ones. -/
theorem mem_holders_local {size numLocalExperts : Nat} {indices : List Int}
    (full : indices.length = size * numLocalExperts) {expert : Int} (real : expert ≠ -1)
    {rank : Nat} :
    rank ∈ holders numLocalExperts indices expert ↔
      rank < size ∧ Local numLocalExperts indices rank expert := by
  rw [mem_holders_iff numLocalExperts real]
  constructor
  · rintro ⟨position, found, rfl⟩
    have bound := (List.getElem?_eq_some_iff.mp found).1
    rw [full] at bound
    have positive : 0 < numLocalExperts := by
      rcases Nat.eq_zero_or_pos numLocalExperts with bare | filled
      · rw [bare] at bound
        omega
      · exact filled
    have division := Nat.div_add_mod position numLocalExperts
    rw [Nat.mul_comm] at division
    refine ⟨Nat.div_lt_of_lt_mul (by rwa [Nat.mul_comm] at bound), real,
      position % numLocalExperts, Nat.mod_lt _ positive, ?_⟩
    rw [expertAt_eq real, division]
    exact found
  · rintro ⟨-, -, row, inside, here⟩
    refine ⟨rank * numLocalExperts + row, (expertAt_eq real).mp here, ?_⟩
    rw [Nat.mul_comm, Nat.mul_add_div (by omega), Nat.div_eq_of_lt inside, Nat.add_zero]

end VllmDcu.ExpertRanks
