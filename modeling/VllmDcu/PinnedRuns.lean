import VllmDcu.PinnedLRU

/-! Runs of the cache with pinned items: they end and stay consistent as long as only keys that are in
the cache are touched. -/
namespace VllmDcu.PinningCache
open LRUCache (moveToEnd)
open List Option Dict

variable {Key Value State : Type} [DecidableEq Key] {lib : Cachetools Key Value State}
variable {self : PinningCache Key State}

theorem mem_moveToEnd (order : List Key) (key other : Key) :
    other ∈ moveToEnd order key ↔ other = key ∨ other ∈ order := by
  by_cases same : other = key
  · simp [same]
  · simp [same]

theorem moveToEnd_nodup (order : List Key) (key : Key) (distinct : order.Nodup) :
    (moveToEnd order key).Nodup := by
  rw [LRUCache.moveToEnd, nodup_append]
  refine ⟨distinct.filter _, nodup_singleton key, ?_⟩
  intro first early second late
  rw [mem_singleton.mp late]
  exact of_decide_eq_true (mem_filter.mp early).2

theorem present_iff (key : Key) :
    contains lib self key = true ↔ key ∈ (lib.data self.base).keys := by
  rw [contains, Dict.contains, isSome_iff_exists, mem_keys_iff]

/-- A change of the order among the keys that are there. -/
theorem Consistent.reordered {next : PinningCache Key State} (consistent : Consistent lib self)
    (key : Key) (present : key ∈ (lib.data self.base).keys)
    (data : lib.data next.base = lib.data self.base)
    (order : lib.order next.base = moveToEnd (lib.order self.base) key)
    (currsize : lib.currsize next.base = lib.currsize self.base)
    (pins : ∀ pin ∈ next.pinnedItems, pin ∈ self.pinnedItems ∨ pin = key) :
    Consistent lib next := by
  constructor
  · rw [order]
    exact moveToEnd_nodup _ _ consistent.distinct
  · intro other
    rw [order, data, mem_moveToEnd, consistent.keys]
    constructor
    · rintro (rfl | member)
      · exact present
      · exact member
    · exact Or.inr
  · rw [currsize, data, consistent.currsize]
  · rw [currsize]
    exact consistent.bounded
  · intro pin member
    rw [data]
    rcases pins pin member with old | rfl
    · exact consistent.pinned pin old
    · exact present

/-- The oldest item that is not pinned goes, or all are pinned. -/
theorem popitem_spec (consistent : Consistent lib self) :
    (∃ key ∈ (lib.data self.base).keys, key ∉ self.pinnedItems ∧
      popitem lib self false = ((pop lib self key).1, .done)) ∨
    (∃ message, popitem lib self false = (self, .runtimeError message)) ∧
      ∀ key ∈ (lib.data self.base).keys, key ∈ self.pinnedItems := by
  rw [popitem]
  cases chosen : (lib.order self.base).find? fun key => decide (key ∉ self.pinnedItems) with
  | some key =>
    have listed := mem_of_find?_eq_some chosen
    have loose := find?_some chosen
    exact Or.inl ⟨key, (consistent.keys key).mp listed, of_decide_eq_true loose, rfl⟩
  | none =>
    refine Or.inr ⟨⟨_, rfl⟩, ?_⟩
    intro key member
    have bad := find?_eq_none.mp chosen key ((consistent.keys key).mpr member)
    simpa using bad

omit [DecidableEq Key] in
theorem Consistent.entries_pos (consistent : Consistent lib self)
    (full : lib.currsize self.base > 0) : (lib.data self.base).entries.length > 0 := by
  by_contra none
  have nothing : (lib.data self.base).entries = [] := eq_nil_of_length_eq_zero (by omega)
  have sum := consistent.currsize
  rw [Dict.total, values, nothing] at sum
  simp only [map_nil, sum_nil] at sum
  omega

section Documented
variable (documented : lib.Documented)
include documented

theorem delItem_spec (consistent : Consistent lib self) (key : Key) (value : Value)
    (found : (lib.data self.base).get? key = some value) :
    Consistent lib (delItem lib self key) ∧
      lib.data (delItem lib self key).base = (lib.data self.base).erase key := by
  obtain ⟨gotData, gotOrder, gotSize⟩ := documented.getItem self.base key value found
  have still : (lib.data (lib.getItem self.base key)).get? key = some value := by
    rw [gotData]
    exact found
  obtain ⟨data, order, size⟩ := documented.delItem _ key value still
  rw [gotData] at data
  rw [gotOrder] at order
  refine ⟨?_, data⟩
  have members (other : Key) : other ∈ lib.order (delItem lib self key).base ↔
      other ≠ key ∧ other ∈ (lib.data self.base).keys := by
    rw [delItem, order, mem_filter, mem_moveToEnd, decide_eq_true_iff, consistent.keys]
    constructor
    · rintro ⟨rfl | member, differs⟩
      · exact absurd rfl differs
      · exact ⟨differs, member⟩
    · exact fun ⟨differs, member⟩ => ⟨Or.inr member, differs⟩
  have total := total_erase lib.getsizeof (lib.data self.base) key
  rw [measureAt, found, Option.elim] at total
  have sum := consistent.currsize
  have bound := consistent.bounded
  constructor
  · rw [delItem, order]
    exact (moveToEnd_nodup _ _ consistent.distinct).filter _
  · intro other
    rw [members, delItem, data, mem_keys_erase]
  · rw [delItem, data]
    simp only
    omega
  · rw [delItem]
    simp only
    omega
  · intro pin member
    obtain ⟨pinned, differs⟩ := mem_filter.mp member
    rw [delItem, data, mem_keys_erase]
    exact ⟨of_decide_eq_true differs, consistent.pinned pin pinned⟩

theorem pop_spec (consistent : Consistent lib self) (key : Key)
    (present : key ∈ (lib.data self.base).keys) :
    Consistent lib (pop lib self key).1 ∧
      lib.data (pop lib self key).1.base = (lib.data self.base).erase key ∧
      (pop lib self key).1.pinnedItems =
        self.pinnedItems.filter fun other => decide (other ≠ key) := by
  obtain ⟨value, found⟩ := (mem_keys_iff _ key).mp present
  obtain ⟨data, order, size⟩ := documented.getItem self.base key value found
  have touched : Consistent lib { self with base := lib.getItem self.base key } :=
    consistent.reordered key present data order size fun _ => Or.inl
  obtain ⟨kept, erased⟩ := delItem_spec documented touched key value (by rw [data]; exact found)
  rw [pop, found]
  exact ⟨kept, by rw [erased, data], rfl⟩

theorem popUntilFits_spec (size fuel : Nat) (consistent : Consistent lib self)
    (fits : size ≤ lib.maxsize) (enough : (lib.data self.base).entries.length ≤ fuel) :
    ∃ next outcome, popUntilFits lib size fuel self = some (next, outcome) ∧
      Consistent lib next ∧ next.pinnedItems = self.pinnedItems ∧
      (outcome = .done ∧ lib.currsize next.base + size ≤ lib.maxsize ∨
        (∃ message, outcome = .runtimeError message) ∧
          ∀ key ∈ (lib.data next.base).keys, key ∈ next.pinnedItems) := by
  induction fuel generalizing self with
  | zero =>
    have room : lib.currsize self.base + size ≤ lib.maxsize := by
      by_contra tight
      have := consistent.entries_pos (by omega)
      omega
    exact ⟨self, .done, if_pos room, consistent, rfl, Or.inl ⟨rfl, room⟩⟩
  | succ fuel ih =>
    rw [popUntilFits]
    by_cases room : lib.currsize self.base + size ≤ lib.maxsize
    · exact ⟨self, .done, if_pos room, consistent, rfl, Or.inl ⟨rfl, room⟩⟩
    · rw [if_neg room]
      rcases popitem_spec consistent with ⟨key, present, loose, popped⟩ | ⟨⟨message, refused⟩, all⟩
      · obtain ⟨kept, data, pinned⟩ := pop_spec documented consistent key present
        obtain ⟨value, found⟩ := (mem_keys_iff _ key).mp present
        have shorter := length_erase_lt found
        have same : (pop lib self key).1.pinnedItems = self.pinnedItems := by
          rw [pinned]
          apply filter_eq_self.mpr
          intro other member
          exact decide_eq_true fun equal => loose (equal ▸ member)
        obtain ⟨next, outcome, ended, consistentNext, pins, result⟩ := ih kept (by rw [data]; omega)
        refine ⟨next, outcome, ?_, consistentNext, pins.trans same, result⟩
        rw [popped]
        exact ended
      · refine ⟨self, .runtimeError message, ?_, consistent, rfl, Or.inr ⟨⟨_, rfl⟩, all⟩⟩
        rw [refused]

theorem makeRoom_spec (key : Key) (size : Nat) (consistent : Consistent lib self)
    (fits : size ≤ lib.maxsize) :
    ∃ next outcome,
      makeRoom lib (lib.data self.base).entries.length self key size = some (next, outcome) ∧
      Consistent lib next ∧ next.pinnedItems = self.pinnedItems ∧
      (outcome = .done ∧ lib.currsize next.base + size ≤
          lib.maxsize + (lib.data next.base).measureAt lib.getsizeof key ∨
        (∃ message, outcome = .runtimeError message) ∧
          ∀ other ∈ (lib.data next.base).keys, other ∈ next.pinnedItems) := by
  obtain ⟨next, outcome, ended, kept, pins, result⟩ :=
    popUntilFits_spec documented size _ consistent fits (Nat.le_refl _)
  have loops : ∃ next outcome, popUntilFits lib size (lib.data self.base).entries.length self =
      some (next, outcome) ∧ Consistent lib next ∧ next.pinnedItems = self.pinnedItems ∧
      (outcome = .done ∧ lib.currsize next.base + size ≤
          lib.maxsize + (lib.data next.base).measureAt lib.getsizeof key ∨
        (∃ message, outcome = .runtimeError message) ∧
          ∀ other ∈ (lib.data next.base).keys, other ∈ next.pinnedItems) :=
    ⟨next, outcome, ended, kept, pins, result.imp_left fun ⟨done, room⟩ => ⟨done, by omega⟩⟩
  rw [makeRoom]
  cases found : (lib.data self.base).get? key with
  | none => exact loops
  | some old =>
    simp only
    by_cases grows : lib.getsizeof old < size
    · rw [if_pos grows]
      exact loops
    · rw [if_neg grows]
      refine ⟨self, .done, rfl, consistent, rfl, Or.inl ⟨rfl, ?_⟩⟩
      rw [measureAt, found, Option.elim]
      have := consistent.bounded
      omega

theorem store_spec (consistent : Consistent lib self) (key : Key) (value : Value)
    (room : lib.currsize self.base + lib.getsizeof value ≤
      lib.maxsize + (lib.data self.base).measureAt lib.getsizeof key) :
    Consistent lib { self with base := lib.store self.base key value } ∧
      lib.data (lib.store self.base key value) = (lib.data self.base).set key value := by
  obtain ⟨data, order, size⟩ := documented.store self.base key value
  have total := total_set lib.getsizeof (lib.data self.base) key value
  have sum := consistent.currsize
  refine ⟨?_, data⟩
  constructor
  · rw [order]
    exact moveToEnd_nodup _ _ consistent.distinct
  · intro other
    rw [order, data, mem_moveToEnd, mem_keys_set, consistent.keys]
  · simp only
    rw [data]
    omega
  · simp only
    omega
  · intro pin member
    rw [data, mem_keys_set]
    exact Or.inr (consistent.pinned pin member)

theorem put_spec (consistent : Consistent lib self) (key : Key) (value : Value) :
    ∃ fuel next outcome, put lib fuel self key value = some (next, outcome) ∧
      SoundCall lib self (.put key value) next outcome := by
  unfold put
  by_cases large : lib.getsizeof value > lib.maxsize
  · refine ⟨0, self, _, if_pos large, consistent, ?_, ?_⟩
    · rintro _ _ ⟨⟩
      exact consistent.pinned
    · rintro _ _ ⟨⟩
      exact Or.inr (Or.inl ⟨⟨_, rfl⟩, rfl⟩)
  · obtain ⟨made, outcome, ended, kept, pins, result⟩ :=
      makeRoom_spec documented key (lib.getsizeof value) consistent (by omega)
    refine ⟨(lib.data self.base).entries.length, ?_⟩
    rw [if_neg large, ended]
    rcases result with ⟨rfl, room⟩ | ⟨⟨message, rfl⟩, all⟩
    · obtain ⟨stored, data⟩ := store_spec documented kept key value room
      refine ⟨_, .done, rfl, stored, ?_, ?_⟩
      · rintro _ _ ⟨⟩ pin member
        exact stored.pinned pin (pins ▸ member)
      · rintro _ _ ⟨⟩
        refine Or.inl ⟨rfl, ?_⟩
        rw [data, get?_set, if_pos rfl]
    · refine ⟨made, .runtimeError message, rfl, kept, ?_, ?_⟩
      · rintro _ _ ⟨⟩ pin member
        exact kept.pinned pin (pins ▸ member)
      · rintro _ _ ⟨⟩
        exact Or.inr (Or.inr ⟨⟨message, rfl⟩, all⟩)

theorem removeOldest_spec (consistent : Consistent lib self) {removePinned : Bool} :
    Consistent lib (removeOldest lib self removePinned).1 ∧
      (removePinned = true → (lib.data self.base).entries.length > 0 →
        (removeOldest lib self removePinned).2 = .done ∧
          (lib.data (removeOldest lib self removePinned).1.base).entries.length <
            (lib.data self.base).entries.length) := by
  unfold removeOldest
  by_cases empty : (lib.data self.base).entries.length = 0
  · rw [if_pos empty]
    exact ⟨consistent, fun _ full => absurd empty (by omega)⟩
  · rw [if_neg empty]
    cases removePinned with
    | false =>
      refine ⟨?_, fun impossible => absurd impossible Bool.false_ne_true⟩
      rcases popitem_spec consistent with ⟨key, present, -, popped⟩ | ⟨⟨message, refused⟩, -⟩
      · rw [popped]
        exact (pop_spec documented consistent key present).1
      · rw [refused]
        exact consistent
    | true =>
      rw [popitem, if_pos rfl]
      cases front : (lib.order self.base).head? with
      | none =>
        -- an entry has its key in the order
        obtain ⟨entry, member⟩ := exists_mem_of_length_pos (Nat.pos_of_ne_zero empty)
        have listed := (consistent.keys entry.1).mpr (List.mem_map_of_mem member)
        rw [head?_eq_none_iff.mp front] at listed
        exact absurd listed not_mem_nil
      | some key =>
        have present := (consistent.keys key).mp (mem_of_head? front)
        obtain ⟨value, found⟩ := (mem_keys_iff _ key).mp present
        obtain ⟨kept, data, -⟩ := pop_spec documented consistent key present
        refine ⟨kept, fun _ _ => ⟨rfl, ?_⟩⟩
        rw [data]
        exact length_erase_lt found

theorem removeAll_spec (fuel : Nat) (consistent : Consistent lib self)
    (enough : (lib.data self.base).entries.length ≤ fuel) :
    ∃ next, removeAll lib fuel self = some (next, .done) ∧ Consistent lib next := by
  induction fuel generalizing self with
  | zero => exact ⟨self, if_neg (by omega), consistent⟩
  | succ fuel ih =>
    rw [removeAll]
    by_cases full : (lib.data self.base).entries.length > 0
    · rw [if_pos full]
      obtain ⟨kept, removes⟩ := removeOldest_spec documented consistent
      obtain ⟨done, shorter⟩ := removes rfl full
      obtain ⟨next, ended, consistentNext⟩ := ih kept (by omega)
      refine ⟨next, ?_, consistentNext⟩
      cases removed : removeOldest lib self true with
      | mk after outcome =>
        rw [removed] at done ended
        subst done
        exact ended
    · exact ⟨self, if_neg full, consistent⟩

theorem exec_spec (consistent : Consistent lib self) (call : Call Key Value)
    (touches : ∀ key, call = .touch key → contains lib self key = true) :
    ∃ fuel next outcome, exec lib fuel self call = some (next, outcome) ∧
      SoundCall lib self call next outcome := by
  -- all but a put say no more than that the cache is consistent
  have sound (next : PinningCache Key State) (outcome : Outcome) (kept : Consistent lib next)
      (other : ∀ key value, call ≠ .put key value) : SoundCall lib self call next outcome :=
    ⟨kept, fun key value same => absurd same (other key value),
      fun key value same => absurd same (other key value)⟩
  cases call with
  | touch key =>
    have present := (present_iff key).mp (touches key rfl)
    obtain ⟨data, order, size⟩ :=
      documented.withOrder self.base (moveToEnd (lib.order self.base) key)
    have kept : Consistent lib (touch lib self key) :=
      consistent.reordered key present data order size fun _ => Or.inl
    exact ⟨0, _, _, rfl, sound _ _ kept nofun⟩
  | get key =>
    refine ⟨0, _, _, rfl, sound _ _ ?_ nofun⟩
    rw [get]
    cases found : (lib.data self.base).get? key with
    | none =>
      exact ⟨consistent.distinct, consistent.keys, consistent.currsize, consistent.bounded,
        consistent.pinned⟩
    | some value =>
      obtain ⟨data, order, size⟩ := documented.getItem self.base key value found
      exact consistent.reordered key ((mem_keys_iff _ key).mpr ⟨value, found⟩) data order
        size fun _ => Or.inl
  | put key value => exact put_spec documented consistent key value
  | pop key =>
    refine ⟨0, _, _, rfl, sound _ _ ?_ nofun⟩
    by_cases present : key ∈ (lib.data self.base).keys
    · exact (pop_spec documented consistent key present).1
    · have absent : (lib.data self.base).get? key = none := by
        cases found : (lib.data self.base).get? key with
        | none => rfl
        | some value => exact absurd ((mem_keys_iff _ key).mpr ⟨value, found⟩) present
      rw [pop, absent]
      exact consistent
  | pin key =>
    refine ⟨0, (pin lib self key).1, (pin lib self key).2, rfl, sound _ _ ?_ nofun⟩
    rw [pin]
    split
    · rename_i present
      refine ⟨consistent.distinct, consistent.keys, consistent.currsize, consistent.bounded, ?_⟩
      intro other member
      split at member
      · exact consistent.pinned other member
      · rcases mem_append.mp member with old | new
        · exact consistent.pinned other old
        · rw [mem_singleton.mp new]
          exact (present_iff key).mp present
    · exact consistent
  | removeOldest removePinned =>
    exact ⟨0, _, _, rfl, sound _ _ (removeOldest_spec documented consistent).1
      nofun⟩
  | clear =>
    obtain ⟨next, ended, kept⟩ := removeAll_spec documented _ consistent (Nat.le_refl _)
    refine ⟨(lib.data self.base).entries.length, { next with hits := 0, total := 0 }, .done, ?_,
      sound _ _ ?_ nofun⟩
    · rw [exec, clear, ended, map_some, if_pos rfl]
    · exact ⟨kept.distinct, kept.keys, kept.currsize, kept.bounded, kept.pinned⟩

end Documented

/-! With more fuel a call does the same. -/

theorem popUntilFits_fits (size fuel : Nat) (room : lib.currsize self.base + size ≤ lib.maxsize) :
    popUntilFits lib size fuel self = some (self, .done) := by
  cases fuel with
  | zero => exact if_pos room
  | succ fuel => exact if_pos room

theorem popUntilFits_unique (size fuel other : Nat) (first second : PinningCache Key State × Outcome)
    (one : popUntilFits lib size fuel self = some first)
    (two : popUntilFits lib size other self = some second) : first = second := by
  by_cases room : lib.currsize self.base + size ≤ lib.maxsize
  · rw [popUntilFits_fits size fuel room] at one
    rw [popUntilFits_fits size other room] at two
    exact some.inj (one.symm.trans two)
  · induction fuel generalizing self other with
    | zero =>
      rw [popUntilFits, if_neg room] at one
      contradiction
    | succ fuel ih =>
      cases other with
      | zero =>
        rw [popUntilFits, if_neg room] at two
        contradiction
      | succ other =>
        rw [popUntilFits, if_neg room] at one two
        cases popped : popitem lib self false with
        | mk next outcome =>
          rw [popped] at one two
          cases outcome with
          | done =>
            simp only at one two
            by_cases roomNext : lib.currsize next.base + size ≤ lib.maxsize
            · rw [popUntilFits_fits size _ roomNext] at one two
              exact some.inj (one.symm.trans two)
            · exact ih other one two roomNext
          | valueError _ | runtimeError _ | keyError | stopIteration =>
            exact some.inj (one.symm.trans two)

theorem removeAll_empty (fuel : Nat) (empty : ¬ (lib.data self.base).entries.length > 0) :
    removeAll lib fuel self = some (self, .done) := by
  cases fuel with
  | zero => exact if_neg empty
  | succ fuel => exact if_neg empty

theorem removeAll_unique (fuel other : Nat) (first second : PinningCache Key State × Outcome)
    (one : removeAll lib fuel self = some first) (two : removeAll lib other self = some second) :
    first = second := by
  by_cases full : (lib.data self.base).entries.length > 0
  · induction fuel generalizing self other with
    | zero =>
      rw [removeAll, if_pos full] at one
      contradiction
    | succ fuel ih =>
      cases other with
      | zero =>
        rw [removeAll, if_pos full] at two
        contradiction
      | succ other =>
        rw [removeAll, if_pos full] at one two
        cases removed : removeOldest lib self true with
        | mk next outcome =>
          rw [removed] at one two
          cases outcome with
          | done =>
            simp only at one two
            by_cases more : (lib.data next.base).entries.length > 0
            · exact ih other one two more
            · rw [removeAll_empty _ more] at one two
              exact some.inj (one.symm.trans two)
          | valueError _ | runtimeError _ | keyError | stopIteration =>
            exact some.inj (one.symm.trans two)
  · rw [removeAll_empty _ full] at one two
    exact some.inj (one.symm.trans two)

theorem exec_unique {call : Call Key Value} {fuel other : Nat}
    {first second : PinningCache Key State × Outcome}
    (one : exec lib fuel self call = some first) (two : exec lib other self call = some second) :
    first = second := by
  cases call with
  | put key value =>
    rw [exec, put] at one two
    split at one
    · rename_i large
      rw [if_pos large] at two
      exact some.inj (one.symm.trans two)
    · rename_i small
      rw [if_neg small] at two
      obtain ⟨made, roomOne, rfl⟩ := map_eq_some_iff.mp one
      obtain ⟨also, roomTwo, rfl⟩ := map_eq_some_iff.mp two
      have same : made = also := by
        rw [makeRoom] at roomOne roomTwo
        split at roomOne
        · rename_i old found
          rw [found] at roomTwo
          simp only at roomTwo
          split at roomOne
          · rename_i grows
            rw [if_pos grows] at roomTwo
            exact popUntilFits_unique _ _ _ _ _ roomOne roomTwo
          · rename_i grows
            rw [if_neg grows] at roomTwo
            exact some.inj (roomOne.symm.trans roomTwo)
        · rename_i absent
          rw [absent] at roomTwo
          exact popUntilFits_unique _ _ _ _ _ roomOne roomTwo
      rw [same]
  | clear =>
    obtain ⟨made, removedOne, rfl⟩ := map_eq_some_iff.mp one
    obtain ⟨also, removedTwo, rfl⟩ := map_eq_some_iff.mp two
    rw [removeAll_unique _ _ _ _ removedOne removedTwo]
  | touch _ | get _ | pop _ | pin _ | removeOldest _ => exact some.inj (one.symm.trans two)

/-- From a consistent cache a run is sound if and only if each touch is of a key that is there. -/
theorem soundRun_iff (documented : lib.Documented) (consistent : Consistent lib self)
    (calls : List (Call Key Value)) :
    SoundRun lib self calls ↔ TouchesPresent lib self calls := by
  induction calls generalizing self with
  | nil => exact Iff.rfl
  | cons call rest ih =>
    constructor
    · rintro ⟨fuel, next, outcome, ended, sound, runs⟩
      refine ⟨?_, fun other after result also => ?_⟩
      · rintro key rfl
        -- the touched key is in the order now
        cases ended
        obtain ⟨data, order, -⟩ :=
          documented.withOrder self.base (moveToEnd (lib.order self.base) key)
        have listed := (sound.consistent.keys key).mp (by
          rw [touch, order, mem_moveToEnd]
          exact Or.inl rfl)
        rw [touch, data] at listed
        exact (present_iff key).mpr listed
      · have same := exec_unique ended also
        cases same
        exact (ih sound.consistent).mp runs
    · rintro ⟨touches, runs⟩
      obtain ⟨fuel, next, outcome, ended, sound⟩ := exec_spec documented consistent call touches
      exact ⟨fuel, next, outcome, ended, sound,
        (ih sound.consistent).mpr (runs fuel next outcome ended)⟩

theorem init_consistent (documented : lib.Documented) : Consistent lib (init lib) := by
  obtain ⟨data, order, size⟩ := documented.empty
  constructor
  · rw [init, order]
    exact nodup_nil
  · intro key
    rw [init, order, data]
    exact Iff.rfl
  · rw [init, size, data]
    rfl
  · rw [init, size]
    exact Nat.zero_le _
  · intro key member
    exact absurd member not_mem_nil

/-- Every call of a run ends and leaves the cache consistent, if and only if the run touches only
keys that are in the cache. -/
theorem cacheRun_sound_iff (documented : lib.Documented) (calls : List (Call Key Value)) :
    SoundRun lib (init lib) calls ↔ TouchesPresent lib (init lib) calls :=
  soundRun_iff documented (init_consistent documented) calls

/-! A library that behaves as documented: the current size is summed from the items. -/

structure ItemStore (Key Value : Type) where
  data : Dict Key Value
  order : List Key

def itemStores (maxsize : Nat) (getsizeof : Value → Nat) :
    Cachetools Key Value (ItemStore Key Value) where
  maxsize
  getsizeof
  empty := ⟨.empty, []⟩
  data := ItemStore.data
  order := ItemStore.order
  currsize state := state.data.total getsizeof
  withOrder state order := { state with order }
  getItem state key := { state with order := moveToEnd state.order key }
  delItem state key :=
    ⟨state.data.erase key, state.order.filter fun other => decide (other ≠ key)⟩
  store state key value := ⟨state.data.set key value, moveToEnd state.order key⟩

theorem itemStores_documented (maxsize : Nat) (getsizeof : Value → Nat) :
    (itemStores maxsize getsizeof : Cachetools Key Value _).Documented := by
  constructor
  · exact ⟨rfl, rfl, rfl⟩
  · exact fun state order => ⟨rfl, rfl, rfl⟩
  · exact fun state key value found => ⟨rfl, rfl, rfl⟩
  · intro state key value found
    refine ⟨rfl, rfl, ?_⟩
    have total := total_erase getsizeof state.data key
    rw [measureAt, show state.data.get? key = some value from found] at total
    exact total
  · exact fun state key value => ⟨rfl, rfl, total_set getsizeof state.data key value⟩

theorem touchesPresent_cons {call : Call Key Value} {rest : List (Call Key Value)} (fuel : Nat)
    (next : PinningCache Key State) (outcome : Outcome)
    (touches : ∀ key, call = .touch key → contains lib self key = true)
    (ended : exec lib fuel self call = some (next, outcome)) (after : TouchesPresent lib next rest) :
    TouchesPresent lib self (call :: rest) := by
  refine ⟨touches, fun other left result also => ?_⟩
  have same := exec_unique ended also
  cases same
  exact after

/-- A pinned item, its touch, an item that is too large, and a cache where nothing may go. -/
theorem pinnedCalls_sound :
    let lib : Cachetools Nat Nat (ItemStore Nat Nat) := itemStores 3 id
    SoundRun lib (init lib) [.put 1 2, .pin 1, .put 2 1, .touch 1, .put 3 9, .put 4 2, .clear] := by
  apply (cacheRun_sound_iff (itemStores_documented 3 id) _).mpr
  apply touchesPresent_cons 9 _ _ nofun rfl
  apply touchesPresent_cons 9 _ _ nofun rfl
  apply touchesPresent_cons 9 _ _ nofun rfl
  apply touchesPresent_cons 9 _ _ (fun key same => by cases same; rfl) rfl
  apply touchesPresent_cons 9 _ _ nofun rfl
  apply touchesPresent_cons 9 _ _ nofun rfl
  apply touchesPresent_cons 9 _ _ nofun rfl
  trivial

/-- When the front of the order has no item, the pop changes nothing and the loop goes on. -/
theorem popUntilFits_never (size fuel : Nat) (popped : popitem lib self false = (self, .done))
    (tight : ¬ lib.currsize self.base + size ≤ lib.maxsize) :
    popUntilFits lib size fuel self = none := by
  induction fuel with
  | zero => exact if_neg tight
  | succ fuel ih =>
    rw [popUntilFits, if_neg tight, popped]
    exact ih

/-- The cache of one item after the touches of two new items and the put of the first. -/
def ghostCache : PinningCache Nat (ItemStore Nat Nat) :=
  ⟨⟨Dict.empty.set 1 10, [2, 1]⟩, [], 0, 0⟩

/-- What `get_and_update_features` does with two new items that do not fit together. -/
theorem newTouches_notSound :
    let lib : Cachetools Nat Nat (ItemStore Nat Nat) := itemStores 1 fun _ => 1
    exec lib 0 (touch lib (touch lib (init lib) 1) 2) (.put 1 10) = some (ghostCache, .done) ∧
      (∀ fuel, exec lib fuel ghostCache (.put 2 20) = none) ∧
      ¬ Consistent lib ghostCache ∧
      ¬ SoundRun lib (init lib) [.touch 1, .touch 2, .put 1 10, .put 2 20] := by
  intro lib
  refine ⟨rfl, fun fuel => ?_, fun consistent => ?_, ?_⟩
  · have loops : popUntilFits lib 1 fuel ghostCache = none :=
      popUntilFits_never 1 fuel rfl (by decide)
    have makes : makeRoom lib fuel ghostCache 2 1 = none := loops
    exact congrArg (Option.map _) makes
  · -- the order has the key that is not in the cache
    have ghost := (consistent.keys 2).mp (by decide)
    exact absurd ghost (by decide)
  · rintro ⟨fuel, next, outcome, ended, sound, -⟩
    cases ended
    have ghost := (sound.consistent.keys 1).mp (mem_singleton_self 1)
    exact absurd ghost not_mem_nil

end VllmDcu.PinningCache
