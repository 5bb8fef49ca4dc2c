import VllmDcu.LRUCache

/-! The LRU cache with pinned items, over what `cachetools` documents of its own classes. -/
namespace VllmDcu

/-- What the code uses of `cachetools.LRUCache`: the private dictionaries, and the operations that it
calls. `store` is the end of `__setitem__`, when the value fits. -/
structure Cachetools (Key Value State : Type) where
  maxsize : Nat
  getsizeof : Value → Nat
  empty : State
  data : State → Dict Key Value
  order : State → List Key
  currsize : State → Nat
  withOrder : State → List Key → State
  getItem : State → Key → State
  delItem : State → Key → State
  store : State → Key → Value → State

/-- The documented behaviour; the size of an item counts as it was when the item was stored. -/
structure Cachetools.Documented {Key Value State : Type} [DecidableEq Key]
    (lib : Cachetools Key Value State) : Prop where
  empty : lib.data lib.empty = .empty ∧ lib.order lib.empty = [] ∧ lib.currsize lib.empty = 0
  withOrder : ∀ state order, lib.data (lib.withOrder state order) = lib.data state ∧
    lib.order (lib.withOrder state order) = order ∧
    lib.currsize (lib.withOrder state order) = lib.currsize state
  getItem : ∀ state key value, (lib.data state).get? key = some value →
    lib.data (lib.getItem state key) = lib.data state ∧
    lib.order (lib.getItem state key) = LRUCache.moveToEnd (lib.order state) key ∧
    lib.currsize (lib.getItem state key) = lib.currsize state
  delItem : ∀ state key value, (lib.data state).get? key = some value →
    lib.data (lib.delItem state key) = (lib.data state).erase key ∧
    lib.order (lib.delItem state key) = (lib.order state).filter (fun other => decide (other ≠ key)) ∧
    lib.currsize (lib.delItem state key) + lib.getsizeof value = lib.currsize state
  store : ∀ state key value, lib.data (lib.store state key value) = (lib.data state).set key value ∧
    lib.order (lib.store state key value) = LRUCache.moveToEnd (lib.order state) key ∧
    lib.currsize (lib.store state key value) + (lib.data state).measureAt lib.getsizeof key =
      lib.currsize state + lib.getsizeof value

/-- The fields that the subclass adds. -/
structure PinningCache (Key State : Type) where
  base : State
  pinnedItems : List Key
  hits : Nat
  total : Nat

namespace PinningCache

inductive Outcome where
  | done
  | valueError (message : String)
  | runtimeError (message : String)
  | keyError
  | stopIteration
deriving DecidableEq, Repr

inductive Call (Key Value : Type) where
  | touch (key : Key)
  | get (key : Key)
  | put (key : Key) (value : Value)
  | pop (key : Key)
  | pin (key : Key)
  | removeOldest (removePinned : Bool)
  | clear

section Operations
variable {Key Value State : Type} [DecidableEq Key] (lib : Cachetools Key Value State)

def init : PinningCache Key State := ⟨lib.empty, [], 0, 0⟩

def contains (self : PinningCache Key State) (key : Key) : Bool := (lib.data self.base).contains key

/-- `move_to_end`, or a new entry of the order when the key is not there. -/
def touch (self : PinningCache Key State) (key : Key) : PinningCache Key State :=
  { self with base := lib.withOrder self.base (LRUCache.moveToEnd (lib.order self.base) key) }

def get (self : PinningCache Key State) (key : Key) : PinningCache Key State × Option Value :=
  match (lib.data self.base).get? key with
  | some value =>
    ({ self with base := lib.getItem self.base key, hits := self.hits + 1, total := self.total + 1 },
      some value)
  | none => ({ self with total := self.total + 1 }, none)

/-- `__delitem__` of a key that is there: it is read first, and its pin goes with it. -/
def delItem (self : PinningCache Key State) (key : Key) : PinningCache Key State :=
  { self with
    base := lib.delItem (lib.getItem self.base key) key
    pinnedItems := self.pinnedItems.filter fun other => decide (other ≠ key) }

def pop (self : PinningCache Key State) (key : Key) : PinningCache Key State × Option Value :=
  match (lib.data self.base).get? key with
  | some value => (delItem lib { self with base := lib.getItem self.base key } key, some value)
  | none => (self, none)

/-- The message of the source names the key too. -/
def pin (self : PinningCache Key State) (key : Key) : PinningCache Key State × Outcome :=
  if contains lib self key then
    ({ self with pinnedItems := if key ∈ self.pinnedItems then self.pinnedItems
      else self.pinnedItems ++ [key] }, .done)
  else (self, .valueError "Cannot pin key: not in cache.")

/-- The pop of the oldest key of the order that may go. -/
def popitem (self : PinningCache Key State) (removePinned : Bool) :
    PinningCache Key State × Outcome :=
  if removePinned then
    match (lib.order self.base).head? with
    | some lruKey => ((pop lib self lruKey).1, .done)
    | none => (self, .stopIteration)
  else
    match (lib.order self.base).find? fun key => decide (key ∉ self.pinnedItems) with
    | some lruKey => ((pop lib self lruKey).1, .done)
    | none => (self, .runtimeError "All items are pinned, cannot remove oldest from the cache.")

def removeOldest (self : PinningCache Key State) (removePinned : Bool) :
    PinningCache Key State × Outcome :=
  if (lib.data self.base).entries.length = 0 then (self, .done) else popitem lib self removePinned

/-- The loop of `__setitem__`; none when the fuel does not suffice. -/
def popUntilFits (size : Nat) : Nat → PinningCache Key State →
    Option (PinningCache Key State × Outcome)
  | 0, self => if lib.currsize self.base + size ≤ lib.maxsize then some (self, .done) else none
  | fuel + 1, self =>
    if lib.currsize self.base + size ≤ lib.maxsize then some (self, .done)
    else match popitem lib self false with
      | (next, .done) => popUntilFits size fuel next
      | (next, outcome) => some (next, outcome)

/-- A key that has a value of at least this size gets the new one without a check. -/
def makeRoom (fuel : Nat) (self : PinningCache Key State) (key : Key) (size : Nat) :
    Option (PinningCache Key State × Outcome) :=
  match (lib.data self.base).get? key with
  | some old =>
    if lib.getsizeof old < size then popUntilFits lib size fuel self else some (self, .done)
  | none => popUntilFits lib size fuel self

def put (fuel : Nat) (self : PinningCache Key State) (key : Key) (value : Value) :
    Option (PinningCache Key State × Outcome) :=
  if lib.getsizeof value > lib.maxsize then some (self, .valueError "value too large")
  else (makeRoom lib fuel self key (lib.getsizeof value)).map fun made =>
    if made.2 = .done then ({ made.1 with base := lib.store made.1.base key value }, .done) else made

/-- The loop of `clear`; none when the fuel does not suffice. -/
def removeAll : Nat → PinningCache Key State → Option (PinningCache Key State × Outcome)
  | 0, self => if (lib.data self.base).entries.length > 0 then none else some (self, .done)
  | fuel + 1, self =>
    if (lib.data self.base).entries.length > 0 then
      match removeOldest lib self true with
      | (next, .done) => removeAll fuel next
      | (next, outcome) => some (next, outcome)
    else some (self, .done)

def clear (fuel : Nat) (self : PinningCache Key State) : Option (PinningCache Key State × Outcome) :=
  (removeAll lib fuel self).map fun removed =>
    if removed.2 = .done then ({ removed.1 with hits := 0, total := 0 }, .done) else removed

def exec (fuel : Nat) (self : PinningCache Key State) :
    Call Key Value → Option (PinningCache Key State × Outcome)
  | .touch key => some (touch lib self key, .done)
  | .get key => some ((get lib self key).1, .done)
  | .put key value => put lib fuel self key value
  | .pop key => some ((pop lib self key).1, .done)
  | .pin key => some (pin lib self key)
  | .removeOldest removePinned => some (removeOldest lib self removePinned)
  | .clear => clear lib fuel self

/-! What is asked of a run. -/

structure Consistent (cache : PinningCache Key State) : Prop where
  distinct : (lib.order cache.base).Nodup
  keys : ∀ key, key ∈ lib.order cache.base ↔ key ∈ (lib.data cache.base).keys
  currsize : lib.currsize cache.base = (lib.data cache.base).total lib.getsizeof
  bounded : lib.currsize cache.base ≤ lib.maxsize
  pinned : ∀ key ∈ cache.pinnedItems, key ∈ (lib.data cache.base).keys

/-- A call that ended: what it left, and what a put did. -/
structure SoundCall (cache : PinningCache Key State) (call : Call Key Value)
    (next : PinningCache Key State) (outcome : Outcome) : Prop where
  consistent : Consistent lib next
  keepsPinned : ∀ key value, call = .put key value →
    ∀ other ∈ cache.pinnedItems, other ∈ (lib.data next.base).keys
  stores : ∀ key value, call = .put key value →
    outcome = .done ∧ (lib.data next.base).get? key = some value ∨
      (∃ message, outcome = .valueError message) ∧ next = cache ∨
      (∃ message, outcome = .runtimeError message) ∧
        ∀ other ∈ (lib.data next.base).keys, other ∈ next.pinnedItems

/-- Every call ends, and is sound. -/
def SoundRun : PinningCache Key State → List (Call Key Value) → Prop
  | _, [] => True
  | self, call :: rest => ∃ fuel next outcome, exec lib fuel self call = some (next, outcome) ∧
      SoundCall lib self call next outcome ∧ SoundRun next rest

/-- Only keys that are in the cache are touched. -/
def TouchesPresent : PinningCache Key State → List (Call Key Value) → Prop
  | _, [] => True
  | self, call :: rest => (∀ key, call = .touch key → contains lib self key = true) ∧
      ∀ fuel next outcome, exec lib fuel self call = some (next, outcome) → TouchesPresent next rest

end Operations

end PinningCache
end VllmDcu
