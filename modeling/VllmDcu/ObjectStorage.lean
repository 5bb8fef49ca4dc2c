import Mathlib.Data.List.Nodup
import Mathlib.Algebra.Order.BigOperators.Group.List
import Mathlib.Algebra.Order.Ring.Nat

/-! The shared-memory object storage: one writer that puts objects and any number of
readers that count what they read. An object stands for its buffer; a step says
whether the ring buffer has room. `none` is a raised exception or a read of a freed
buffer. -/
namespace VllmDcu.ObjectStorage
open List Option

structure Object (Key : Type) where
  key : Key
  monotonicId : Nat
  size : Nat
  readerCount : Nat
  writerFlag : Nat
  deriving DecidableEq, Repr

/-- The objects in the ring buffer, oldest first. -/
structure Storage (Key : Type) where
  nReaders : Nat
  maxObjectSize : Nat
  objects : List (Object Key)
  monotonicIdEnd : Nat

/-- What `allocate_buf` says to a new object: it is too large, it fits, it fits when
unused objects are freed, or it does not fit. -/
inductive Room where
  | tooLarge
  | fits
  | fitsAfterFreeing
  | full
  deriving DecidableEq, Repr

/-- The request that the writer is at: what its touches found and what the storage
gave for its items; none for an item that is sent as it is. -/
structure Writing (Key : Type) where
  keys : List Key
  touched : List (Option Nat)
  items : List (Option Nat)

/-- What a reader has to do. `counted` tells that the writer's touch for this item
found the object. -/
inductive Read where
  | touch (monotonicId : Nat) (counted : Bool)
  | get (monotonicId : Nat)
  deriving DecidableEq, Repr

/-- The writer and the requests that each reader has not processed yet. -/
structure System (Key : Type) where
  storage : Storage Key
  writing : Option (Writing Key)
  readers : List (List Read)

inductive Step (Key : Type) where
  | request (keys : List Key)
  | touch
  | item (size : Nat) (room : Room)
  | send
  | read (reader : Nat)

variable {Key : Type} [DecidableEq Key]

def isFreeCheck (nReaders : Nat) (object : Object Key) : Bool :=
  decide (object.writerFlag * nReaders ≤ object.readerCount)

/-- The loop of `free_buf`: the oldest objects, until enough is freed or one is
still in use. -/
def freeBuf (nReaders nbytes : Nat) : Nat → List (Object Key) → List (Object Key)
  | _, [] => []
  | freedBytes, object :: rest =>
    if freedBytes < nbytes then
      if isFreeCheck nReaders object then freeBuf nReaders nbytes (freedBytes + object.size) rest
      else object :: rest
    else object :: rest

def Storage.freeUnused (self : Storage Key) : Storage Key :=
  { self with objects := freeBuf self.nReaders (2 * self.maxObjectSize) 0 self.objects }

def Storage.keyIndex (self : Storage Key) (key : Key) : Option Nat :=
  (self.objects.find? fun object => decide (object.key = key)).map Object.monotonicId

def onId (monotonicId : Nat) (change : Object Key → Object Key) (object : Object Key) : Object Key :=
  if object.monotonicId = monotonicId then change object else object

def Storage.incrementWriterFlag (self : Storage Key) (monotonicId : Nat) : Storage Key :=
  { self with objects := self.objects.map (onId monotonicId fun object =>
      { object with writerFlag := object.writerFlag + 1 }) }

/-- The count is stored in four bytes, signed. -/
def Storage.incrementReaderFlag (self : Storage Key) (monotonicId readerCount : Nat) :
    Option (Storage Key) :=
  if readerCount + 1 < 2 ^ 31 then
    some { self with objects := self.objects.map (onId monotonicId fun object =>
      { object with readerCount := readerCount + 1 }) }
  else none

/-- `access_buf` at the address of an object. -/
def Storage.accessBuf (self : Storage Key) (monotonicId : Nat) : Option (Object Key) :=
  self.objects.find? fun object => decide (object.monotonicId = monotonicId)

/-- `touch` of the writer: what it found. -/
def Storage.touchWriter (self : Storage Key) (key : Key) : Storage Key × Option Nat :=
  match self.keyIndex key with
  | none => (self, none)
  | some monotonicId => (self.incrementWriterFlag monotonicId, some monotonicId)

def Storage.touchReader (self : Storage Key) (monotonicId : Nat) : Option (Storage Key) := do
  let object ← self.accessBuf monotonicId
  if self.nReaders ≤ object.readerCount then
    self.incrementReaderFlag monotonicId object.readerCount
  else some self

def Storage.get (self : Storage Key) (monotonicId : Nat) : Option (Storage Key) := do
  let object ← self.accessBuf monotonicId
  self.incrementReaderFlag monotonicId object.readerCount

/-- The new object, with the writer's flag at one. -/
def Storage.store (self : Storage Key) (key : Key) (size : Nat) : Storage Key :=
  { self with
    objects := self.objects ++ [⟨key, self.monotonicIdEnd, size, 0, 1⟩]
    monotonicIdEnd := self.monotonicIdEnd + 1 }

/-- `put` of a key that is not in the storage; none when it raises. -/
def Storage.put (self : Storage Key) (key : Key) (size : Nat) : Room → Storage Key × Option Nat
  | .tooLarge => (self, none)
  | .fits => (self.store key size, some self.monotonicIdEnd)
  | .fitsAfterFreeing => (self.freeUnused.store key size, some self.monotonicIdEnd)
  | .full => (self.freeUnused, none)

/-- `get_and_update_item` of the sender cache, which passes on an item that cannot
be put. -/
def Storage.getAndUpdateItem (self : Storage Key) (key : Key) (size : Nat) (room : Room) :
    Storage Key × Option Nat :=
  match self.keyIndex key with
  | some monotonicId => (self.incrementWriterFlag monotonicId, some monotonicId)
  | none => self.put key size room

/-- `get_and_update_features` of a reader: all touches, then all gets, of the items
that have an address. -/
def readsOf (touched items : List (Option Nat)) : List Read :=
  (touched.zip items).filterMap (fun entry =>
      entry.2.map fun monotonicId => Read.touch monotonicId (decide (entry.1 = some monotonicId))) ++
    items.filterMap (Option.map Read.get)

def Storage.read (self : Storage Key) : Read → Option (Storage Key)
  | .touch monotonicId _ => self.touchReader monotonicId
  | .get monotonicId => self.get monotonicId

def System.init (nReaders maxObjectSize : Nat) : System Key where
  storage := ⟨nReaders, maxObjectSize, [], 0⟩
  writing := none
  readers := List.replicate nReaders []

/-- The writer's turns at a request and the readers' turns, in any order. -/
def System.step (self : System Key) : Step Key → Option (System Key)
  | .request keys =>
    match self.writing with
    | none => some { self with writing := some ⟨keys, [], []⟩ }
    | some _ => none
  | .touch => do
      let writing ← self.writing
      let key ← writing.keys[writing.touched.length]?
      let done := self.storage.touchWriter key
      some { self with
        storage := done.1
        writing := some { writing with touched := writing.touched ++ [done.2] } }
  | .item size room => do
      let writing ← self.writing
      let key ← writing.keys[writing.items.length]?
      if writing.touched.length = writing.keys.length then
        let done := self.storage.getAndUpdateItem key size room
        some { self with
          storage := done.1
          writing := some { writing with items := writing.items ++ [done.2] } }
      else none
  | .send => do
      let writing ← self.writing
      if writing.items.length = writing.keys.length then
        some { self with
          writing := none
          readers := self.readers.map (· ++ readsOf writing.touched writing.items) }
      else none
  | .read reader =>
    match self.readers[reader]? with
    | some (next :: rest) => (self.storage.read next).map fun storage =>
      { self with storage := storage, readers := self.readers.set reader rest }
    | _ => none

def System.run : System Key → List (Step Key) → Option (System Key)
  | self, [] => some self
  | self, step :: rest => (self.step step).bind fun next => next.run rest

/-- Some reader still has to get the object, also when its request is not sent yet. -/
def System.ToGet (self : System Key) (monotonicId : Nat) : Prop :=
  (∃ reads ∈ self.readers, Read.get monotonicId ∈ reads) ∨
    0 < self.storage.nReaders ∧ ∃ writing, self.writing = some writing ∧
      some monotonicId ∈ writing.items

/-- All readers have processed all requests. -/
def System.Processed (self : System Key) : Prop :=
  self.writing = none ∧ ∀ reads ∈ self.readers, reads = []

/-- Safety and balance of the reference counts. -/
structure Balances (system : System Key) : Prop where
  safe : ∀ monotonicId, system.ToGet monotonicId →
    ∃ object ∈ system.storage.objects, object.monotonicId = monotonicId
  balanced : system.Processed → ∀ object ∈ system.storage.objects,
    object.readerCount = system.storage.nReaders * object.writerFlag ∧
      isFreeCheck system.storage.nReaders object = true

/-- A reader's touch finds the count at the number of readers exactly when the
writer's touch for the same item found the object. -/
def System.InStep (self : System Key) : Step Key → Prop
  | .read reader =>
    match self.readers[reader]? with
    | some (.touch monotonicId counted :: _) =>
      match self.storage.accessBuf monotonicId with
      | some object => self.storage.nReaders ≤ object.readerCount ↔ counted = true
      | none => True
    | _ => True
  | _ => True

def InSteps : System Key → List (Step Key) → Prop
  | _, [] => True
  | self, step :: rest => self.InStep step ∧
      match self.step step with
      | some next => InSteps next rest
      | none => True

/-! How often the readers will still count an object. -/

def Read.gain (monotonicId : Nat) : Read → Nat
  | .touch id counted => if id = monotonicId ∧ counted = true then 1 else 0
  | .get id => if id = monotonicId then 1 else 0

def owedBy (monotonicId : Nat) (reads : List Read) : Nat :=
  (reads.map (Read.gain monotonicId)).sum

/-- What each reader will count once the writer's request is sent. -/
def Writing.owed (monotonicId : Nat) (writing : Writing Key) : Nat :=
  writing.touched.count (some monotonicId) + writing.items.count (some monotonicId)

def System.owed (self : System Key) (monotonicId : Nat) : Nat :=
  (self.readers.map (owedBy monotonicId)).sum +
    self.storage.nReaders * (self.writing.map (Writing.owed monotonicId)).getD 0

variable (monotonicId : Nat)

theorem owedBy_append (before after : List Read) :
    owedBy monotonicId (before ++ after) = owedBy monotonicId before + owedBy monotonicId after := by
  simp [owedBy]

/-- The items of a request match its touches: what a touch found is what the
storage gave for the item. -/
def Matching (touched items : List (Option Nat)) : Prop :=
  ∀ entry ∈ touched.zip items, ∀ monotonicId, entry.1 = some monotonicId →
    entry.2 = some monotonicId

theorem owedBy_readsOf (touched items : List (Option Nat)) (length : touched.length = items.length)
    (matching : Matching touched items) :
    owedBy monotonicId (readsOf touched items) =
      touched.count (some monotonicId) + items.count (some monotonicId) := by
  have touches : ∀ touched items : List (Option Nat), touched.length = items.length →
      Matching touched items →
      owedBy monotonicId ((touched.zip items).filterMap fun entry =>
        entry.2.map fun id => Read.touch id (decide (entry.1 = some id))) =
        touched.count (some monotonicId) := by
    intro touched
    induction touched with
    | nil => exact fun items _ _ => rfl
    | cons first rest ih =>
      intro items length matching
      cases items with
      | nil => cases length
      | cons item later =>
        have tail := ih later (by simpa using length) fun entry inZip =>
          matching entry (mem_cons_of_mem _ inZip)
        have head := matching (first, item) mem_cons_self
        simp only [zip_cons_cons, filterMap_cons, count_cons]
        cases item with
        | none =>
          have unfound : first = none := by
            cases first with
            | none => rfl
            | some id => cases head id rfl
          simp only [map_none, unfound]
          rw [tail]
          simp
        | some id =>
          simp only [map_some, owedBy, map_cons, sum_cons, Read.gain, decide_eq_true_eq]
          rw [show (List.map _ _).sum = _ from tail]
          cases first with
          | none => simp
          | some found =>
            have same := head found rfl
            cases same
            by_cases here : id = monotonicId <;> simp [here, Nat.add_comm]
  have gets : ∀ items : List (Option Nat), owedBy monotonicId (items.filterMap (Option.map Read.get)) =
      items.count (some monotonicId) := by
    intro items
    induction items with
    | nil => rfl
    | cons item rest ih =>
      cases item with
      | none => simpa using ih
      | some id =>
        simp only [filterMap_cons, map_some, owedBy, map_cons, sum_cons, Read.gain, count_cons]
        rw [show (List.map _ _).sum = _ from ih]
        by_cases here : id = monotonicId <;> simp [here, Nat.add_comm]
  unfold readsOf
  rw [owedBy_append, touches touched items length matching, gets]

theorem sum_set (measure : List Read → Nat) (readers : List (List Read)) (reader : Nat)
    (before after : List Read) (found : readers[reader]? = some before) :
    ((readers.set reader after).map measure).sum + measure before =
      (readers.map measure).sum + measure after := by
  induction readers generalizing reader with
  | nil => cases found
  | cons first rest ih =>
    cases reader with
    | zero =>
      cases found
      simp only [set_cons_zero, map_cons, sum_cons]
      omega
    | succ reader =>
      have tail := ih reader found
      simp only [set_cons_succ, map_cons, sum_cons]
      omega

omit [DecidableEq Key] in
/-- Freeing keeps a sublist, with every object that is in use. -/
theorem freeBuf_keeps (nReaders nbytes freedBytes : Nat) (objects : List (Object Key)) :
    (freeBuf nReaders nbytes freedBytes objects).Sublist objects ∧
      ∀ object ∈ objects, isFreeCheck nReaders object = false →
        object ∈ freeBuf nReaders nbytes freedBytes objects := by
  induction objects generalizing freedBytes with
  | nil => exact ⟨Sublist.refl _, fun object inObjects => by cases inObjects⟩
  | cons first rest ih =>
    unfold freeBuf
    split
    · split
      · rename_i free
        obtain ⟨sublist, kept⟩ := ih (freedBytes + first.size)
        refine ⟨sublist.cons _, ?_⟩
        intro object inObjects used
        cases inObjects with
        | head =>
          rw [free] at used
          cases used
        | tail _ later => exact kept object later used
      · exact ⟨Sublist.refl _, fun _ inObjects _ => inObjects⟩
    · exact ⟨Sublist.refl _, fun _ inObjects _ => inObjects⟩

/-! The invariant. -/

/-- The objects, against what the readers still owe each of them. -/
structure Counted (nReaders : Nat) (objects : List (Object Key)) (monotonicIdEnd : Nat)
    (owed : Nat → Nat) : Prop where
  counts : ∀ object ∈ objects,
    object.readerCount + owed object.monotonicId = nReaders * object.writerFlag
  live : ∀ monotonicId, 0 < owed monotonicId →
    ∃ object ∈ objects, object.monotonicId = monotonicId
  below : ∀ object ∈ objects, object.monotonicId < monotonicIdEnd
  keys : (objects.map Object.key).Nodup
  ids : (objects.map Object.monotonicId).Nodup

/-- The writer's request: what a touch found is there until its item is given. -/
structure Aligned (nReaders : Nat) (objects : List (Object Key)) (writing : Writing Key) : Prop where
  touchedLength : writing.touched.length ≤ writing.keys.length
  itemsLength : writing.items.length ≤ writing.touched.length
  given : 0 < nReaders → ∀ (index monotonicId : Nat), index < writing.items.length →
    writing.touched[index]? = some (some monotonicId) →
    writing.items[index]? = some (some monotonicId)
  waits : 0 < nReaders → ∀ (index monotonicId : Nat), writing.items.length ≤ index →
    writing.touched[index]? = some (some monotonicId) →
    ∃ object ∈ objects, object.monotonicId = monotonicId ∧ writing.keys[index]? = some object.key

structure Kept (system : System Key) : Prop where
  readers : system.readers.length = system.storage.nReaders
  counted : Counted system.storage.nReaders system.storage.objects system.storage.monotonicIdEnd
    system.owed
  aligned : ∀ writing, system.writing = some writing →
    Aligned system.storage.nReaders system.storage.objects writing

variable (storage : Storage Key)

theorem keyIndex_some {key : Key} {monotonicId : Nat}
    (found : storage.keyIndex key = some monotonicId) :
    ∃ object ∈ storage.objects, object.monotonicId = monotonicId ∧ object.key = key := by
  obtain ⟨object, isObject, rfl⟩ := map_eq_some_iff.mp found
  have sameKey := find?_some isObject
  exact ⟨object, mem_of_find?_eq_some isObject, rfl, by simpa using sameKey⟩

theorem keyIndex_none (key : Key) (absent : storage.keyIndex key = none) :
    ∀ object ∈ storage.objects, object.key ≠ key := by
  intro object inObjects same
  rw [Storage.keyIndex, map_eq_none_iff, find?_eq_none] at absent
  exact absent object inObjects (decide_eq_true same)

omit [DecidableEq Key] in
theorem accessBuf_some (monotonicId : Nat) (object : Object Key)
    (found : storage.accessBuf monotonicId = some object) :
    object ∈ storage.objects ∧ object.monotonicId = monotonicId := by
  have sameId := find?_some found
  exact ⟨mem_of_find?_eq_some found, by simpa using sameId⟩

omit [DecidableEq Key] in
theorem onId_keeps (change : Object Key → Object Key)
    (keepsId : ∀ object, (change object).monotonicId = object.monotonicId)
    (keepsKey : ∀ object, (change object).key = object.key) (object : Object Key) :
    (onId monotonicId change object).monotonicId = object.monotonicId ∧
      (onId monotonicId change object).key = object.key := by
  unfold onId
  split
  · exact ⟨keepsId object, keepsKey object⟩
  · exact ⟨rfl, rfl⟩

omit [DecidableEq Key] in
/-- Counting on one object, on either side, and what is owed to it then. -/
theorem Counted.change {nReaders monotonicIdEnd : Nat} {objects : List (Object Key)}
    {owed : Nat → Nat} (counted : Counted nReaders objects monotonicIdEnd owed) (owed' : Nat → Nat)
    (monotonicId : Nat) (change : Object Key → Object Key)
    (keepsId : ∀ object, (change object).monotonicId = object.monotonicId)
    (keepsKey : ∀ object, (change object).key = object.key)
    (here : ∀ object ∈ objects, object.monotonicId = monotonicId →
      (change object).readerCount + owed' monotonicId = nReaders * (change object).writerFlag)
    (others : ∀ other, other ≠ monotonicId → owed' other = owed other)
    (exists_ : ∃ object ∈ objects, object.monotonicId = monotonicId) :
    Counted nReaders (objects.map (onId monotonicId change)) monotonicIdEnd owed' := by
  have keeps := onId_keeps monotonicId change keepsId keepsKey
  constructor
  · intro object inMap
    obtain ⟨before, inObjects, rfl⟩ := List.mem_map.mp inMap
    rw [(keeps before).1]
    unfold onId
    split
    · rename_i same
      rw [same]
      exact here before inObjects same
    · rename_i different
      rw [others _ different]
      exact counted.counts before inObjects
  · intro other owes
    have there : ∃ object ∈ objects, object.monotonicId = other := by
      by_cases same : other = monotonicId
      · rw [same]
        exact exists_
      · rw [others other same] at owes
        exact counted.live other owes
    obtain ⟨object, inObjects, isOther⟩ := there
    exact ⟨_, List.mem_map_of_mem inObjects, (keeps object).1.trans isOther⟩
  · intro object inMap
    obtain ⟨before, inObjects, rfl⟩ := List.mem_map.mp inMap
    rw [(keeps before).1]
    exact counted.below before inObjects
  · rw [List.map_map]
    have same : Object.key ∘ onId monotonicId change = Object.key := by
      funext object
      exact (keeps object).2
    rw [same]
    exact counted.keys
  · rw [List.map_map]
    have same : Object.monotonicId ∘ onId monotonicId change = Object.monotonicId := by
      funext object
      exact (keeps object).1
    rw [same]
    exact counted.ids

variable {nReaders monotonicIdEnd : Nat} {objects : List (Object Key)} {owed : Nat → Nat}

omit [DecidableEq Key] in
/-- The writer only frees objects that nothing is owed to. -/
theorem Counted.freed (counted : Counted nReaders objects monotonicIdEnd owed)
    (nbytes freedBytes : Nat) :
    Counted nReaders (freeBuf nReaders nbytes freedBytes objects) monotonicIdEnd owed ∧
      ∀ object ∈ objects, 0 < owed object.monotonicId →
        object ∈ freeBuf nReaders nbytes freedBytes objects := by
  obtain ⟨sublist, kept⟩ := freeBuf_keeps nReaders nbytes freedBytes objects
  have stays : ∀ object ∈ objects, 0 < owed object.monotonicId →
      object ∈ freeBuf nReaders nbytes freedBytes objects := by
    intro object inObjects owes
    apply kept object inObjects
    have count := counted.counts object inObjects
    rw [isFreeCheck, decide_eq_false_iff_not, Nat.mul_comm]
    omega
  refine ⟨?_, stays⟩
  constructor
  · exact fun object inFreed => counted.counts object (sublist.subset inFreed)
  · intro monotonicId owes
    obtain ⟨object, inObjects, rfl⟩ := counted.live monotonicId owes
    exact ⟨object, stays object inObjects owes, rfl⟩
  · exact fun object inFreed => counted.below object (sublist.subset inFreed)
  · exact counted.keys.sublist (sublist.map _)
  · exact counted.ids.sublist (sublist.map _)

omit [DecidableEq Key] in
/-- A new object is owed one read by every reader. -/
theorem Counted.stored (counted : Counted nReaders objects monotonicIdEnd owed) (key : Key)
    (size : Nat) (newKey : ∀ object ∈ objects, object.key ≠ key) :
    Counted nReaders (objects ++ [⟨key, monotonicIdEnd, size, 0, 1⟩]) (monotonicIdEnd + 1)
      (fun id => owed id + if id = monotonicIdEnd then nReaders else 0) := by
  have noneOwed : owed monotonicIdEnd = 0 := by
    by_contra owes
    obtain ⟨object, inObjects, is⟩ := counted.live monotonicIdEnd (by omega)
    have := counted.below object inObjects
    omega
  constructor
  · intro object inAll
    rcases mem_append.mp inAll with old | new
    · have below := counted.below object old
      have count := counted.counts object old
      rw [if_neg (by omega)]
      exact count
    · rw [mem_singleton.mp new]
      simp [noneOwed]
  · intro monotonicId owes
    by_cases same : monotonicId = monotonicIdEnd
    · exact ⟨_, mem_append_right _ mem_cons_self, same.symm⟩
    · rw [if_neg same] at owes
      obtain ⟨object, inObjects, is⟩ := counted.live monotonicId owes
      exact ⟨object, mem_append_left _ inObjects, is⟩
  · intro object inAll
    rcases mem_append.mp inAll with old | new
    · exact Nat.lt_succ_of_lt (counted.below object old)
    · rw [mem_singleton.mp new]
      exact Nat.lt_succ_self _
  · rw [map_append, nodup_append]
    refine ⟨counted.keys, by simp, ?_⟩
    intro left inOld right inNew same
    obtain ⟨object, inObjects, rfl⟩ := List.mem_map.mp inOld
    have isKey : right = key := by simpa using inNew
    exact newKey object inObjects (same.trans isKey)
  · rw [map_append, nodup_append]
    refine ⟨counted.ids, by simp, ?_⟩
    intro left inOld right inNew same
    obtain ⟨object, inObjects, rfl⟩ := List.mem_map.mp inOld
    have isEnd : right = monotonicIdEnd := by simpa using inNew
    have := counted.below object inObjects
    omega

omit [DecidableEq Key] in
theorem Aligned.touch {objects' : List (Object Key)} {writing : Writing Key}
    (aligned : Aligned nReaders objects writing) (result : Option Nat)
    (room : writing.touched.length < writing.keys.length)
    (stays : ∀ object ∈ objects, ∃ after ∈ objects',
      after.monotonicId = object.monotonicId ∧ after.key = object.key)
    (found : ∀ monotonicId, result = some monotonicId → ∃ object ∈ objects',
      object.monotonicId = monotonicId ∧ writing.keys[writing.touched.length]? = some object.key) :
    Aligned nReaders objects' { writing with touched := writing.touched ++ [result] } := by
  have itemsLength := aligned.itemsLength
  constructor
  · simp only [length_append, length_singleton]
    omega
  · simp only [length_append, length_singleton]
    omega
  · intro positive index monotonicId inside touched
    rw [getElem?_append_left (by simp only at inside; omega)] at touched
    exact aligned.given positive index monotonicId inside touched
  · intro positive index monotonicId later touched
    by_cases old : index < writing.touched.length
    · rw [getElem?_append_left old] at touched
      obtain ⟨object, inObjects, sameId, sameKey⟩ :=
        aligned.waits positive index monotonicId later touched
      obtain ⟨after, inAfter, afterId, afterKey⟩ := stays object inObjects
      exact ⟨after, inAfter, afterId.trans sameId, sameKey.trans (by rw [afterKey])⟩
    · have last : index = writing.touched.length := by
        have inside := (List.getElem?_eq_some_iff.mp touched).1
        simp only [length_append, length_singleton] at inside
        omega
      subst last
      simp only [getElem?_concat_length, some.injEq] at touched
      exact found monotonicId touched

omit [DecidableEq Key] in
theorem Aligned.item {objects' : List (Object Key)} {writing : Writing Key}
    (aligned : Aligned nReaders objects writing) (result : Option Nat)
    (all : writing.touched.length = writing.keys.length)
    (room : writing.items.length < writing.keys.length)
    (stays : 0 < nReaders → ∀ object ∈ objects, some object.monotonicId ∈ writing.touched →
      ∃ after ∈ objects', after.monotonicId = object.monotonicId ∧ after.key = object.key)
    (matches_ : 0 < nReaders → ∀ monotonicId,
      writing.touched[writing.items.length]? = some (some monotonicId) →
      result = some monotonicId) :
    Aligned nReaders objects' { writing with items := writing.items ++ [result] } := by
  constructor
  · exact aligned.touchedLength
  · simp only [length_append, length_singleton]
    omega
  · intro positive index monotonicId inside touched
    simp only [length_append, length_singleton] at inside
    by_cases old : index < writing.items.length
    · rw [getElem?_append_left old]
      exact aligned.given positive index monotonicId old touched
    · have last : index = writing.items.length := by omega
      subst last
      rw [getElem?_concat_length, matches_ positive monotonicId touched]
  · intro positive index monotonicId later touched
    simp only [length_append, length_singleton] at later
    obtain ⟨object, inObjects, sameId, sameKey⟩ :=
      aligned.waits positive index monotonicId (by omega) touched
    obtain ⟨after, inAfter, afterId, afterKey⟩ := stays positive object inObjects
      (by rw [sameId]; exact mem_of_getElem? touched)
    exact ⟨after, inAfter, afterId.trans sameId, sameKey.trans (by rw [afterKey])⟩

omit [DecidableEq Key] in
theorem flag_stays (monotonicId : Nat) :
    ∀ object ∈ storage.objects, ∃ after ∈ (storage.incrementWriterFlag monotonicId).objects,
      after.monotonicId = object.monotonicId ∧ after.key = object.key := by
  intro object inObjects
  refine ⟨_, List.mem_map_of_mem inObjects, ?_⟩
  apply onId_keeps <;> exact fun _ => rfl

omit [DecidableEq Key] in
/-- The writer's flag and what every reader will count grow together. -/
theorem Counted.flagged (counted : Counted nReaders objects monotonicIdEnd owed) (monotonicId : Nat)
    (exists_ : ∃ object ∈ objects, object.monotonicId = monotonicId) :
    Counted nReaders (objects.map (onId monotonicId fun object =>
        { object with writerFlag := object.writerFlag + 1 })) monotonicIdEnd
      (fun id => owed id + if id = monotonicId then nReaders else 0) := by
  refine counted.change _ monotonicId _ (fun _ => rfl) (fun _ => rfl) ?_ ?_ exists_
  · intro object inObjects isId
    have count := counted.counts object inObjects
    rw [isId] at count
    simp only [↓reduceIte, Nat.mul_add, Nat.mul_one]
    omega
  · intro other different
    simp [different]

variable (system : System Key)

omit [DecidableEq Key] in
/-- What the writer's request adds to what is owed. -/
theorem owed_writing (writing : Writing Key) (monotonicId : Nat)
    (is : system.writing = some writing) :
    system.owed monotonicId = (system.readers.map (owedBy monotonicId)).sum +
      system.storage.nReaders * (writing.touched.count (some monotonicId) +
        writing.items.count (some monotonicId)) := by
  rw [System.owed, is]
  rfl

theorem count_concat (list : List (Option Nat)) (result : Option Nat) (monotonicId nReaders : Nat) :
    nReaders * (list ++ [result]).count (some monotonicId) =
      nReaders * list.count (some monotonicId) +
        if result = some monotonicId then nReaders else 0 := by
  rw [count_append, Nat.mul_add]
  by_cases same : result = some monotonicId <;> simp [same]

omit [DecidableEq Key] in
theorem Counted.congr {owed' : Nat → Nat} (counted : Counted nReaders objects monotonicIdEnd owed)
    (same : ∀ id, owed' id = owed id) : Counted nReaders objects monotonicIdEnd owed' := by
  rw [funext same]
  exact counted

/-- A touch or an item of the writer: what it returns is owed to every reader. -/
structure Written (before after : Storage Key) (owed : Nat → Nat) (key : Key)
    (result : Option Nat) : Prop where
  nReaders : after.nReaders = before.nReaders
  counted : Counted after.nReaders after.objects after.monotonicIdEnd
    (fun id => owed id + if result = some id then before.nReaders else 0)
  stays : ∀ object ∈ before.objects, 0 < owed object.monotonicId → ∃ object' ∈ after.objects,
    object'.monotonicId = object.monotonicId ∧ object'.key = object.key
  known : ∀ monotonicId, before.keyIndex key = some monotonicId → result = some monotonicId

theorem flagged_written {owed : Nat → Nat} {key : Key} {monotonicId : Nat}
    (counted : Counted storage.nReaders storage.objects storage.monotonicIdEnd owed)
    (found : storage.keyIndex key = some monotonicId) :
    Written storage (storage.incrementWriterFlag monotonicId) owed key (some monotonicId) := by
  obtain ⟨object, inObjects, isId, -⟩ := keyIndex_some storage found
  constructor
  · rfl
  · apply (counted.flagged monotonicId ⟨object, inObjects, isId⟩).congr
    intro id
    simp only [some.injEq, eq_comm]
  · exact fun object inObjects _ => flag_stays storage monotonicId object inObjects
  · intro other isOther
    exact found.symm.trans isOther

theorem touchWriter_written (owed : Nat → Nat) (key : Key)
    (counted : Counted storage.nReaders storage.objects storage.monotonicIdEnd owed) :
    Written storage (storage.touchWriter key).1 owed key (storage.touchWriter key).2 ∧
      (∀ object ∈ storage.objects, ∃ object' ∈ (storage.touchWriter key).1.objects,
        object'.monotonicId = object.monotonicId ∧ object'.key = object.key) ∧
      ∀ monotonicId, (storage.touchWriter key).2 = some monotonicId →
        ∃ object ∈ (storage.touchWriter key).1.objects,
          object.monotonicId = monotonicId ∧ object.key = key := by
  unfold Storage.touchWriter
  cases found : storage.keyIndex key with
  | none =>
    refine ⟨⟨rfl, counted.congr (by simp), fun object inObjects _ => ⟨object, inObjects, rfl, rfl⟩,
      by simp [found]⟩, fun object inObjects => ⟨object, inObjects, rfl, rfl⟩, by simp⟩
  | some monotonicId =>
    have stays := flag_stays storage monotonicId
    refine ⟨flagged_written storage counted found, stays, ?_⟩
    rintro _ ⟨⟩
    obtain ⟨object, inObjects, isId, sameKey⟩ := keyIndex_some storage found
    obtain ⟨after, inAfter, afterId, afterKey⟩ := stays object inObjects
    exact ⟨after, inAfter, afterId.trans isId, afterKey.trans sameKey⟩

theorem stored_written {room : Storage Key} {owed : Nat → Nat} {key : Key} {size : Nat}
    (counted : Counted storage.nReaders room.objects storage.monotonicIdEnd owed)
    (sameReaders : room.nReaders = storage.nReaders)
    (sameEnd : room.monotonicIdEnd = storage.monotonicIdEnd)
    (newKey : ∀ object ∈ room.objects, object.key ≠ key) (unknown : storage.keyIndex key = none)
    (stays : ∀ object ∈ storage.objects, 0 < owed object.monotonicId → object ∈ room.objects) :
    Written storage (room.store key size) owed key (some storage.monotonicIdEnd) := by
  constructor
  · exact sameReaders
  · simp only [Storage.store, sameReaders, sameEnd]
    apply (counted.stored key size newKey).congr
    intro id
    simp only [some.injEq, eq_comm]
  · intro object inObjects owes
    exact ⟨object, mem_append_left _ (stays object inObjects owes), rfl, rfl⟩
  · simp [unknown]

theorem getAndUpdateItem_written (owed : Nat → Nat) (key : Key) (size : Nat) (room : Room)
    (counted : Counted storage.nReaders storage.objects storage.monotonicIdEnd owed) :
    Written storage (storage.getAndUpdateItem key size room).1 owed key
      (storage.getAndUpdateItem key size room).2 := by
  unfold Storage.getAndUpdateItem
  cases found : storage.keyIndex key with
  | some monotonicId => exact flagged_written storage counted found
  | none =>
    have newKey := keyIndex_none storage key found
    obtain ⟨freed, used⟩ := counted.freed (2 * storage.maxObjectSize) 0
    have sublist := (freeBuf_keeps storage.nReaders (2 * storage.maxObjectSize) 0
      storage.objects).1
    cases room with
    | tooLarge =>
      exact ⟨rfl, counted.congr (by simp [Storage.put]),
        fun object inObjects _ => ⟨object, inObjects, rfl, rfl⟩, by simp [found]⟩
    | fits =>
      exact stored_written storage counted rfl rfl newKey found
        fun _ inObjects _ => inObjects
    | fitsAfterFreeing =>
      exact stored_written storage freed rfl rfl
        (fun object inFreed => newKey object (sublist.subset inFreed)) found used
    | full =>
      exact ⟨rfl, freed.congr (by simp [Storage.put]),
        fun object inObjects owes => ⟨object, used object inObjects owes, rfl, rfl⟩,
        by simp [found]⟩

/-- A key whose item waits has the object that its touch found. -/
theorem Aligned.sameKey {nReaders : Nat} {storage : Storage Key} {writing : Writing Key}
    (aligned : Aligned nReaders storage.objects writing) (positive : 0 < nReaders)
    (keys : (storage.objects.map Object.key).Nodup) (key : Key) (monotonicId : Nat)
    (isKey : writing.keys[writing.items.length]? = some key)
    (touched : writing.touched[writing.items.length]? = some (some monotonicId)) :
    storage.keyIndex key = some monotonicId := by
  obtain ⟨object, inObjects, isId, sameKey⟩ :=
    aligned.waits positive _ monotonicId (Nat.le_refl _) touched
  rw [isKey, some.injEq] at sameKey
  cases found : storage.keyIndex key with
  | none => exact absurd sameKey.symm (keyIndex_none storage key found object inObjects)
  | some other =>
    obtain ⟨object', inObjects', isOther, sameKey'⟩ := keyIndex_some storage found
    have same := inj_on_of_nodup_map keys inObjects' inObjects (sameKey'.trans sameKey)
    rw [← isOther, same, isId]

variable (next : System Key)

theorem touch_kept (kept : Kept system) (done : system.step .touch = some next) : Kept next := by
  simp only [System.step, bind_eq_bind, bind_eq_some_iff, some.injEq] at done
  obtain ⟨writing, isWriting, key, isKey, rfl⟩ := done
  obtain ⟨written, stays, found⟩ := touchWriter_written system.storage system.owed key kept.counted
  constructor
  · exact kept.readers.trans written.nReaders.symm
  · apply written.counted.congr
    intro id
    rw [owed_writing _ _ id rfl, owed_writing system writing id isWriting]
    simp only [written.nReaders, Nat.mul_add, count_concat]
    omega
  · rintro _ ⟨⟩
    rw [written.nReaders]
    apply (kept.aligned writing isWriting).touch _ (List.getElem?_eq_some_iff.mp isKey).1 stays
    intro monotonicId isResult
    obtain ⟨object, inObjects, isId, sameKey⟩ := found monotonicId isResult
    exact ⟨object, inObjects, isId, by rw [isKey, sameKey]⟩

theorem item_kept (kept : Kept system) (size : Nat) (room : Room)
    (done : system.step (.item size room) = some next) : Kept next := by
  simp only [System.step, bind_eq_bind, bind_eq_some_iff] at done
  obtain ⟨writing, isWriting, key, isKey, done⟩ := done
  split at done
  · rename_i all
    cases done
    have aligned := kept.aligned writing isWriting
    have written := getAndUpdateItem_written system.storage system.owed key size room kept.counted
    constructor
    · exact kept.readers.trans written.nReaders.symm
    · apply written.counted.congr
      intro id
      rw [owed_writing _ _ id rfl, owed_writing system writing id isWriting]
      simp only [written.nReaders, Nat.mul_add, count_concat]
      omega
    · rintro _ ⟨⟩
      rw [written.nReaders]
      apply aligned.item _ all (List.getElem?_eq_some_iff.mp isKey).1
      · -- a touched object is owed to the readers, so it is not freed
        intro positive object inObjects inTouched
        apply written.stays object inObjects
        rw [owed_writing system writing _ isWriting]
        have counts := count_pos_iff.mpr inTouched
        have owes := Nat.mul_pos positive (Nat.add_pos_left counts
          (writing.items.count (some object.monotonicId)))
        omega
      · intro positive monotonicId touched
        exact written.known monotonicId
          (aligned.sameKey positive kept.counted.keys key monotonicId isKey touched)
  · cases done

theorem request_kept (kept : Kept system) (keys : List Key)
    (done : system.step (.request keys) = some next) : Kept next := by
  cases is : system.writing with
  | some writing => simp [System.step, is] at done
  | none =>
    simp only [System.step, is, some.injEq] at done
    subst done
    constructor
    · exact kept.readers
    · apply kept.counted.congr
      intro id
      simp [System.owed, is, Writing.owed]
    · rintro _ ⟨⟩
      refine ⟨Nat.zero_le _, Nat.le_refl 0, ?_, ?_⟩
      · intro _ index monotonicId _ touched
        cases touched
      · intro _ index monotonicId _ touched
        cases touched

theorem sum_append (more : List Read) (readers : List (List Read)) :
    ((readers.map (· ++ more)).map (owedBy monotonicId)).sum =
      (readers.map (owedBy monotonicId)).sum + readers.length * owedBy monotonicId more := by
  induction readers with
  | nil => simp
  | cons reads rest ih =>
    simp only [map_cons, sum_cons, length_cons, owedBy_append, ih, Nat.add_mul, Nat.one_mul]
    omega

theorem send_kept (kept : Kept system) (done : system.step .send = some next) : Kept next := by
  simp only [System.step, bind_eq_bind, bind_eq_some_iff] at done
  obtain ⟨writing, isWriting, done⟩ := done
  split at done
  · rename_i all
    cases done
    have aligned := kept.aligned writing isWriting
    have lengths : writing.touched.length = writing.items.length := by
      have := aligned.touchedLength
      have := aligned.itemsLength
      omega
    constructor
    · exact (length_map _).trans kept.readers
    · apply kept.counted.congr
      intro id
      rw [owed_writing system writing id isWriting]
      simp only [System.owed, map_none, getD_none, Nat.mul_zero, Nat.add_zero,
        sum_append, kept.readers]
      by_cases positive : 0 < system.storage.nReaders
      · have matching : Matching writing.touched writing.items := by
          intro entry inZip monotonicId touched
          obtain ⟨index, inside, isEntry⟩ := mem_iff_getElem.mp inZip
          rw [getElem_zip] at isEntry
          subst isEntry
          rw [length_zip] at inside
          have given := aligned.given positive index monotonicId (by omega)
            (List.getElem?_eq_some_iff.mpr ⟨by omega, touched⟩)
          exact (List.getElem?_eq_some_iff.mp given).2
        rw [owedBy_readsOf id _ _ lengths matching]
      · have none_ : system.storage.nReaders = 0 := by omega
        simp [none_]
    · intro writing' is
      cases is
  · cases done

omit [DecidableEq Key] in
/-- Taking the first read off a reader's list. -/
theorem owed_read (reader monotonicId : Nat) {read : Read} {rest : List Read}
    (storage : Storage Key) (sameReaders : storage.nReaders = system.storage.nReaders)
    (found : system.readers[reader]? = some (read :: rest)) :
    System.owed { system with storage := storage, readers := system.readers.set reader rest }
        monotonicId + read.gain monotonicId = system.owed monotonicId := by
  have sums := sum_set (owedBy monotonicId) system.readers reader (read :: rest) rest found
  have head : owedBy monotonicId (read :: rest) = read.gain monotonicId + owedBy monotonicId rest := by
    simp [owedBy]
  simp only [System.owed, sameReaders]
  omega

omit [DecidableEq Key] in
/-- A count by a reader, which pays what was owed. -/
theorem Counted.read {owed' : Nat → Nat} (counted : Counted nReaders objects monotonicIdEnd owed)
    (object : Object Key) (inObjects : object ∈ objects)
    (paid : ∀ id, owed' id + (if object.monotonicId = id then 1 else 0) = owed id) :
    Counted nReaders (objects.map (onId object.monotonicId fun before =>
      { before with readerCount := object.readerCount + 1 })) monotonicIdEnd owed' := by
  refine counted.change owed' object.monotonicId _ (fun _ => rfl) (fun _ => rfl) ?_ ?_
    ⟨object, inObjects, rfl⟩
  · intro other inOther sameId
    have same := inj_on_of_nodup_map counted.ids inOther inObjects sameId
    subst same
    have count := counted.counts other inOther
    have pays := paid other.monotonicId
    simp only [↓reduceIte] at pays ⊢
    omega
  · intro other different
    have pays := paid other
    rw [if_neg (Ne.symm different)] at pays
    exact pays

omit [DecidableEq Key] in
theorem incrementReaderFlag_some (after : Storage Key) (monotonicId readerCount : Nat)
    (done : storage.incrementReaderFlag monotonicId readerCount = some after) :
    after = { storage with objects := storage.objects.map (onId monotonicId fun object =>
      { object with readerCount := readerCount + 1 }) } := by
  unfold Storage.incrementReaderFlag at done
  split at done
  · exact (some.inj done).symm
  · cases done

theorem read_kept (kept : Kept system) (reader : Nat) (inStep : system.InStep (.read reader))
    (done : system.step (.read reader) = some next) :
    Kept next := by
  simp only [System.step] at done
  split at done
  · rename_i read rest found
    obtain ⟨storage, reads, rfl⟩ := map_eq_some_iff.mp done
    -- a read that counts pays one, any other changes nothing and pays nothing
    have outcome : (storage = system.storage ∧ ∀ id, read.gain id = 0) ∨
        ∃ object ∈ system.storage.objects,
          (∀ id, read.gain id = if object.monotonicId = id then 1 else 0) ∧
          storage = { system.storage with
            objects := system.storage.objects.map (onId object.monotonicId fun before =>
              { before with readerCount := object.readerCount + 1 }) } := by
      cases read with
      | touch monotonicId counted =>
        simp only [Storage.read, Storage.touchReader, bind_eq_bind, bind_eq_some_iff] at reads
        obtain ⟨object, access, reads⟩ := reads
        obtain ⟨inObjects, isId⟩ := accessBuf_some _ _ _ access
        have counts : system.storage.nReaders ≤ object.readerCount ↔ counted = true := by
          simpa only [System.InStep, found, access] using inStep
        split at reads
        · rename_i reached
          refine Or.inr ⟨object, inObjects, ?_, ?_⟩
          · intro id
            simp [Read.gain, counts.mp reached, isId]
          · rw [isId]
            exact incrementReaderFlag_some _ _ _ _ reads
        · rename_i below
          cases reads
          refine Or.inl ⟨rfl, ?_⟩
          intro id
          have uncounted : counted = false := by
            cases is : counted with
            | false => rfl
            | true => exact absurd (counts.mpr is) below
          simp [Read.gain, uncounted]
      | get monotonicId =>
        simp only [Storage.read, Storage.get, bind_eq_bind, bind_eq_some_iff] at reads
        obtain ⟨object, access, reads⟩ := reads
        obtain ⟨inObjects, isId⟩ := accessBuf_some _ _ _ access
        refine Or.inr ⟨object, inObjects, ?_, ?_⟩
        · intro id
          simp [Read.gain, isId]
        · rw [isId]
          exact incrementReaderFlag_some _ _ _ _ reads
    rcases outcome with ⟨rfl, noGain⟩ | ⟨object, inObjects, gain, rfl⟩
    · constructor
      · exact (length_set).trans kept.readers
      · apply kept.counted.congr
        intro id
        have pays := owed_read system reader id system.storage rfl found
        rw [noGain id] at pays
        exact pays
      · exact kept.aligned
    · have pays := fun id => owed_read system reader id
        { system.storage with
          objects := system.storage.objects.map (onId object.monotonicId fun before =>
            { before with readerCount := object.readerCount + 1 }) } rfl found
      constructor
      · exact (length_set).trans kept.readers
      · apply kept.counted.read object inObjects
        intro id
        rw [← gain id]
        exact pays id
      · intro writing isWriting
        obtain ⟨touchedLength, itemsLength, given, waits⟩ := kept.aligned writing isWriting
        refine ⟨touchedLength, itemsLength, given, ?_⟩
        intro positive index monotonicId later touched
        obtain ⟨before, inBefore, isId, isKey⟩ := waits positive index monotonicId later touched
        obtain ⟨sameId, sameKey⟩ := onId_keeps object.monotonicId (fun before : Object Key =>
          { before with readerCount := object.readerCount + 1 }) (fun _ => rfl) (fun _ => rfl) before
        exact ⟨_, List.mem_map_of_mem inBefore, sameId.trans isId, by rw [isKey, sameKey]⟩
  · cases done

theorem step_kept (step : Step Key) (kept : Kept system) (inStep : system.InStep step)
    (done : system.step step = some next) : Kept next := by
  cases step with
  | request keys => exact request_kept system next kept keys done
  | touch => exact touch_kept system next kept done
  | item size room => exact item_kept system next kept size room done
  | send => exact send_kept system next kept done
  | read reader => exact read_kept system next kept reader inStep done

theorem run_kept (steps : List (Step Key)) (system last : System Key) (kept : Kept system)
    (inSteps : InSteps system steps) (done : system.run steps = some last) : Kept last := by
  induction steps generalizing system with
  | nil =>
    cases done
    exact kept
  | cons step rest ih =>
    simp only [System.run, bind_eq_some_iff] at done
    obtain ⟨next, first, later⟩ := done
    obtain ⟨inStep, restInStep⟩ := inSteps
    rw [first] at restInStep
    exact ih next (step_kept system next step kept inStep first) restInStep later

omit [DecidableEq Key] in
theorem init_kept (nReaders maxObjectSize : Nat) :
    Kept (System.init nReaders maxObjectSize : System Key) := by
  have nothing : ∀ id, (System.init nReaders maxObjectSize : System Key).owed id = 0 := by
    intro id
    simp [System.owed, System.init, owedBy]
  constructor
  · exact length_replicate
  · constructor
    · intro object inObjects
      cases inObjects
    · intro id owes
      rw [nothing] at owes
      cases owes
    · intro object inObjects
      cases inObjects
    · exact nodup_nil
    · exact nodup_nil
  · intro writing is
    cases is

/-- In every state of every run, however the writer and the readers interleave: no
object that a reader still has to get is freed, and the counts balance in the end,
as long as the touches of both sides count alike. -/
theorem counts_balance (nReaders maxObjectSize : Nat) (steps : List (Step Key)) (last : System Key)
    (inSteps : InSteps (System.init nReaders maxObjectSize) steps)
    (done : (System.init nReaders maxObjectSize).run steps = some last) : Balances last := by
  have kept := run_kept steps _ last (init_kept nReaders maxObjectSize) inSteps done
  constructor
  · intro monotonicId toGet
    apply kept.counted.live
    rcases toGet with ⟨reads, inReaders, inReads⟩ | ⟨positive, writing, isWriting, inItems⟩
    · have one : 1 ≤ owedBy monotonicId reads := by
        apply single_le_sum (fun _ _ => Nat.zero_le _) 1
        exact List.mem_map.mpr ⟨_, inReads, by simp [Read.gain]⟩
      have sum : owedBy monotonicId reads ≤ (last.readers.map (owedBy monotonicId)).sum :=
        single_le_sum (fun _ _ => Nat.zero_le _) _ (List.mem_map_of_mem inReaders)
      unfold System.owed
      omega
    · rw [owed_writing last writing monotonicId isWriting]
      have counts := count_pos_iff.mpr inItems
      have owes := Nat.mul_pos positive (Nat.add_pos_right
        (writing.touched.count (some monotonicId)) counts)
      omega
  · rintro ⟨idle, processed⟩ object inObjects
    have nothing : last.owed object.monotonicId = 0 := by
      have sum : (last.readers.map (owedBy object.monotonicId)).sum = 0 := by
        apply sum_eq_zero
        intro owes inMap
        obtain ⟨reads, inReaders, rfl⟩ := List.mem_map.mp inMap
        rw [processed reads inReaders]
        rfl
      rw [System.owed, sum, idle]
      rfl
    have count := kept.counted.counts object inObjects
    rw [nothing, Nat.add_zero] at count
    exact ⟨count, decide_eq_true (by rw [count, Nat.mul_comm])⟩

/-- The writer's turns at a request of new or known keys that all fit. -/
def writes (keys : List Nat) (size : Nat) (room : Room) : List (Step Nat) :=
  .request keys :: keys.map (fun _ => .touch) ++ keys.map (fun _ => .item size room) ++ [.send]

/-- Two requests of one key: the second touch of reader 0 comes before reader 1 has
got the object. -/
def unevenRun : List (Step Nat) :=
  writes [7] 100 .fits ++ writes [7] 100 .fits ++
    [.read 0, .read 1, .read 0, .read 0, .read 0, .read 1, .read 1, .read 1]

/-- One request with a key twice: reader 0 is done before reader 1 touches, and the
writer needs room for another object. -/
def earlyFreeRun : List (Step Nat) :=
  writes [7, 7] 100 .fits ++ [.read 0, .read 0, .read 0, .read 0, .read 1, .read 1] ++
    writes [8] 100 .fitsAfterFreeing

/-- With two readers the counts end at five of six, and an object is freed that a
reader still has to get. -/
theorem touches_miscount :
    (∃ last, (System.init 2 1000 : System Nat).run unevenRun = some last ∧ last.Processed ∧
      last.storage.objects = [⟨7, 0, 100, 5, 3⟩] ∧ ¬ Balances last) ∧
    ∃ last, (System.init 2 1000 : System Nat).run earlyFreeRun = some last ∧ last.ToGet 0 ∧
      last.storage.objects = [⟨8, 1, 100, 0, 1⟩] ∧ ¬ Balances last := by
  constructor
  · have processed : ∀ reads ∈ [([] : List Read), []], reads = [] := by simp
    refine ⟨_, rfl, ⟨rfl, processed⟩, rfl, ?_⟩
    intro balances
    have count := (balances.balanced ⟨rfl, processed⟩ _ mem_cons_self).1
    exact absurd count (by decide)
  · have toGet : Read.get 0 ∈ [Read.get 0, .get 0, .touch 1 false, .get 1] := by decide
    refine ⟨_, rfl, Or.inl ⟨_, mem_cons_of_mem _ mem_cons_self, toGet⟩, rfl, ?_⟩
    intro balances
    obtain ⟨object, inObjects, isId⟩ := balances.safe 0
      (Or.inl ⟨_, mem_cons_of_mem _ mem_cons_self, toGet⟩)
    rw [mem_singleton.mp inObjects] at isId
    cases isId

/-- The same two requests, each read by both readers before the next one. -/
def evenRun : List (Step Nat) :=
  writes [7] 100 .fits ++ [.read 0, .read 1, .read 0, .read 1] ++ writes [7] 100 .fits ++
    [.read 0, .read 1, .read 0, .read 1]

theorem evenRun_balances : ∃ last, (System.init 2 1000 : System Nat).run evenRun = some last ∧
    last.storage.objects = [⟨7, 0, 100, 6, 3⟩] ∧ Balances last := by
  have inSteps : InSteps (System.init 2 1000 : System Nat) evenRun :=
    ⟨trivial, trivial, trivial, trivial, (by decide : 2 ≤ 0 ↔ false = true),
      (by decide : 2 ≤ 0 ↔ false = true), trivial, trivial, trivial, trivial, trivial, trivial,
      (by decide : 2 ≤ 2 ↔ true = true), (by decide : 2 ≤ 3 ↔ true = true), trivial, trivial, trivial⟩
  exact ⟨_, rfl, rfl, counts_balance 2 1000 evenRun _ inSteps rfl⟩

end VllmDcu.ObjectStorage
