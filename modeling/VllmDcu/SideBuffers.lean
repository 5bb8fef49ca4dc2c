import VllmDcu.ByteBuffers

/-! Messages that keep large buffers beside them. A format says how a value is
written, which buffers it puts aside and how it is read back; formats of lists,
maps, records and optional values are built from those of their parts. -/
namespace VllmDcu.SideBuffers
open ByteBuffers List Option

/-- What the message itself can hold; a float is its 64 bits. -/
inductive Native
  | nil
  | bool (value : Bool)
  | int (value : Int)
  | float (bits : UInt64)
  | str (text : String)
  | bin (bytes : Bytes)
  | array (items : List Native)
  | map (entries : List (String × Native))
  | ext (code : Nat) (bytes : Bytes)

/-- A writer may refuse, or append to the buffers collected so far. -/
abbrev Writer (Wire : Type) := List Bytes → Option (Wire × List Bytes)

variable {Leaf Wire Wire' Value Value' : Type}

def writePair (write : Value → Writer Wire) (write' : Value' → Writer Wire') (values : Value × Value') :
    Writer (Wire × Wire') := fun aux =>
  match write values.1 aux with
  | none => none
  | some (first, aux) =>
    match write' values.2 aux with
    | none => none
    | some (second, aux) => some ((first, second), aux)

def writeAll (write : Value → Writer Wire) : List Value → Writer (List Wire)
  | [], aux => some ([], aux)
  | value :: values, aux =>
    match write value aux with
    | none => none
    | some (wire, aux) =>
      match writeAll write values aux with
      | none => none
      | some (wires, aux) => some (wire :: wires, aux)

def readAll (read : Wire → Option Value) : List Wire → Option (List Value)
  | [] => some []
  | wire :: wires =>
    match read wire, readAll read wires with
    | some value, some values => some (value :: values)
    | _, _ => none

/-- How values go over the wire. `leaves` are the parts on which it depends
whether a value can be written at all; values with the same `packed` form are equal. -/
structure Format (Leaf Wire Value : Type) where
  write : Value → Writer Wire
  read : List Bytes → Wire → Option Value
  packed : Value → Value
  aside : Value → List Bytes
  references : Wire → List Int
  leaves : Value → List Leaf

/-- The indices of `count` buffers from `start` on. -/
def indices (start count : Nat) : List Int := (List.range' start count).map Int.ofNat

theorem indices_add (start first second : Nat) :
    indices start (first + second) = indices start first ++ indices (start + first) second := by
  rw [indices, indices, indices, ← map_append, range'_append_1]

namespace Format

/-- The value is written behind any buffers, refers to its own ones in their order,
and an equal value is read back behind as many buffers, whatever follows. -/
def Carries (format : Format Leaf Wire Value) (value : Value) : Prop :=
  ∀ aux, ∃ wire, format.write value aux = some (wire, aux ++ format.aside value) ∧
    format.references wire = indices aux.length (format.aside value).length ∧
    ∀ front later, front.length = aux.length →
      ∃ value', format.read (front ++ format.aside value ++ later) wire = some value' ∧
        format.packed value' = format.packed value

def Refuses (format : Format Leaf Wire Value) (value : Value) : Prop :=
  ∀ aux, format.write value aux = none

/-- Where all leaves are `plain`, a value with only `admitted` leaves is carried
and any other one is refused. -/
structure Behaves (plain admitted : Leaf → Prop) (format : Format Leaf Wire Value) (value : Value) :
    Prop where
  carries : (∀ leaf ∈ format.leaves value, plain leaf ∧ admitted leaf) → format.Carries value
  refuses : (∀ leaf ∈ format.leaves value, plain leaf) →
    (∃ leaf ∈ format.leaves value, ¬ admitted leaf) → format.Refuses value

def Sound (plain admitted : Leaf → Prop) (format : Format Leaf Wire Value) : Prop :=
  ∀ value, format.Behaves plain admitted value

/-- Values the message holds by itself. -/
def native : Format Leaf Native Native where
  write value aux := some (value, aux)
  read _ wire := some wire
  packed value := value
  aside _ := []
  references _ := []
  leaves _ := []

def pair (format : Format Leaf Wire Value) (format' : Format Leaf Wire' Value') :
    Format Leaf (Wire × Wire') (Value × Value') where
  write := writePair format.write format'.write
  read aux wires :=
    match format.read aux wires.1, format'.read aux wires.2 with
    | some first, some second => some (first, second)
    | _, _ => none
  packed values := (format.packed values.1, format'.packed values.2)
  aside values := format.aside values.1 ++ format'.aside values.2
  references wires := format.references wires.1 ++ format'.references wires.2
  leaves values := format.leaves values.1 ++ format'.leaves values.2

def all (format : Format Leaf Wire Value) : Format Leaf (List Wire) (List Value) where
  write := writeAll format.write
  read aux := readAll (format.read aux)
  packed := List.map format.packed
  aside := List.flatMap format.aside
  references := List.flatMap format.references
  leaves := List.flatMap format.leaves

/-- The same values under another wire type. -/
def wrap (format : Format Leaf Wire Value) (embed : Wire → Wire') (project : Wire' → Option Wire) :
    Format Leaf Wire' Value where
  write value aux := (format.write value aux).map fun written => (embed written.1, written.2)
  read aux wire := (project wire).bind (format.read aux)
  packed := format.packed
  aside := format.aside
  references wire := ((project wire).map format.references).getD []
  leaves := format.leaves

theorem native_sound (plain admitted : Leaf → Prop) : (native : Format Leaf Native Native).Sound plain admitted := by
  intro value
  constructor
  · intro _ aux
    refine ⟨value, ?_, rfl, fun _ _ _ => ⟨value, rfl, rfl⟩⟩
    rw [show (native : Format Leaf Native Native).aside value = [] from rfl, append_nil]
    rfl
  · intro _ ⟨leaf, member, _⟩
    cases member

theorem pair_carries {format : Format Leaf Wire Value} {format' : Format Leaf Wire' Value'}
    {values : Value × Value'} (first : format.Carries values.1) (second : format'.Carries values.2) :
    (pair format format').Carries values := by
  intro aux
  obtain ⟨wire, written, refers, reads⟩ := first aux
  obtain ⟨wire', written', refers', reads'⟩ := second (aux ++ format.aside values.1)
  refine ⟨(wire, wire'), ?_, ?_, fun front later long => ?_⟩
  · simp only [pair, writePair, written, written', append_assoc]
  · simp only [pair, refers, refers', length_append, indices_add]
  · obtain ⟨value, known, same⟩ := reads front (format'.aside values.2 ++ later) long
    obtain ⟨value', known', same'⟩ := reads' (front ++ format.aside values.1) later (by
      rw [length_append, length_append, long])
    simp only [append_assoc] at known known'
    refine ⟨(value, value'), ?_, ?_⟩
    · simp only [pair, append_assoc, known, known']
    · simp only [pair, same, same']

variable {plain admitted : Leaf → Prop}

theorem pair_behaves {format : Format Leaf Wire Value} {format' : Format Leaf Wire' Value'}
    {values : Value × Value'} (sound : format.Behaves plain admitted values.1)
    (sound' : format'.Behaves plain admitted values.2) :
    (pair format format').Behaves plain admitted values := by
  constructor
  · intro every
    apply pair_carries
    · exact sound.carries fun leaf member => every leaf (mem_append_left _ member)
    · exact sound'.carries fun leaf member => every leaf (mem_append_right _ member)
  · intro plainly ⟨leaf, member, bad⟩ aux
    have left : ∀ leaf ∈ format.leaves values.1, plain leaf :=
      fun leaf member => plainly leaf (mem_append_left _ member)
    have right : ∀ leaf ∈ format'.leaves values.2, plain leaf :=
      fun leaf member => plainly leaf (mem_append_right _ member)
    by_cases fine : ∀ leaf ∈ format.leaves values.1, admitted leaf
    · -- The first value is written, so that the second one is at fault.
      obtain ⟨wire, written, -, -⟩ :=
        sound.carries (fun leaf member => ⟨left leaf member, fine leaf member⟩) aux
      have later : leaf ∈ format'.leaves values.2 :=
        (mem_append.mp member).resolve_left fun early => bad (fine leaf early)
      have refused := sound'.refuses right ⟨leaf, later, bad⟩ (aux ++ format.aside values.1)
      simp only [pair, writePair, written, refused]
    · have refused := sound.refuses left (by simpa only [not_forall, exists_prop] using fine) aux
      simp only [pair, writePair, refused]

theorem all_cons_write (format : Format Leaf Wire Value) (value : Value) (values : List Value)
    (aux : List Bytes) :
    (all format).write (value :: values) aux =
      ((pair format (all format)).write (value, values) aux).map
        fun written => (written.1.1 :: written.1.2, written.2) := by
  simp only [all, pair, writeAll, writePair]
  cases format.write value aux with
  | none => rfl
  | some first =>
    dsimp only
    cases writeAll format.write values first.2 <;> rfl

theorem all_cons_carries {format : Format Leaf Wire Value} {value : Value} {values : List Value}
    (both : (pair format (all format)).Carries (value, values)) :
    (all format).Carries (value :: values) := by
  intro aux
  obtain ⟨wires, written, refers, reads⟩ := both aux
  refine ⟨wires.1 :: wires.2, ?_, refers, fun front later long => ?_⟩
  · rw [all_cons_write, written]
    rfl
  · obtain ⟨⟨first, rest⟩, known, same⟩ := reads front later long
    simp only [pair, Prod.mk.injEq] at known same
    refine ⟨first :: rest, ?_, congrArg₂ cons same.1 same.2⟩
    split at known
    · rename_i first rest head tail
      cases known
      have head : format.read (front ++ (all format).aside (value :: values) ++ later) wires.1 =
          some first := head
      have tail : (all format).read (front ++ (all format).aside (value :: values) ++ later) wires.2 =
          some rest := tail
      change (match format.read (front ++ (all format).aside (value :: values) ++ later) wires.1,
          (all format).read (front ++ (all format).aside (value :: values) ++ later) wires.2 with
        | some first, some second => some (first :: second)
        | _, _ => none) = _
      rw [head, tail]
    · cases known

theorem all_behaves {format : Format Leaf Wire Value} {values : List Value}
    (sound : ∀ value ∈ values, format.Behaves plain admitted value) :
    (all format).Behaves plain admitted values := by
  induction values with
  | nil =>
    constructor
    · intro _ aux
      refine ⟨[], ?_, rfl, fun _ _ _ => ⟨[], rfl, rfl⟩⟩
      rw [show (all format).aside [] = [] from rfl, append_nil]
      rfl
    · intro _ ⟨leaf, member, _⟩
      cases member
  | cons value values ih =>
    have both : (pair format (all format)).Behaves plain admitted (value, values) :=
      pair_behaves (sound value mem_cons_self)
        (ih fun value member => sound value (mem_cons_of_mem _ member))
    constructor
    · exact fun every => all_cons_carries (both.carries every)
    · intro plainly bad aux
      rw [all_cons_write, both.refuses plainly bad aux]
      rfl

theorem wrap_behaves {format : Format Leaf Wire Value} {embed : Wire → Wire'}
    {project : Wire' → Option Wire} (returns : ∀ wire, project (embed wire) = some wire)
    {value : Value} (sound : format.Behaves plain admitted value) :
    (format.wrap embed project).Behaves plain admitted value := by
  constructor
  · intro every aux
    obtain ⟨wire, written, refers, reads⟩ := sound.carries every aux
    refine ⟨embed wire, ?_, ?_, fun front later long => ?_⟩
    · simp only [wrap, written, map_some]
    · simp only [wrap, returns, map_some, getD_some, refers]
    · simpa only [wrap, returns, bind_some] using reads front later long
  · intro plainly bad aux
    simp only [wrap, sound.refuses plainly bad aux, map_none]

end Format

section Containers

def writeArray (write : Value → Writer Native) (values : List Value) : Writer Native := fun aux =>
  (writeAll write values aux).map fun written => (.array written.1, written.2)

def asArray : Native → Option (List Native)
  | .array items => some items
  | _ => none

def readArray (read : Native → Option Value) (wire : Native) : Option (List Value) :=
  (asArray wire).bind (readAll read)

def writeEntry (write : Value → Writer Native) (entry : String × Value) : Writer (String × Native) :=
  fun aux => (write entry.2 aux).map fun written => ((entry.1, written.1), written.2)

def readEntry (read : Native → Option Value) (entry : String × Native) : Option (String × Value) :=
  (read entry.2).map fun value => (entry.1, value)

def writeMap (write : Value → Writer Native) (entries : List (String × Value)) : Writer Native :=
  fun aux => (writeAll (writeEntry write) entries aux).map fun written => (.map written.1, written.2)

def asMap : Native → Option (List (String × Native))
  | .map entries => some entries
  | _ => none

def readMap (read : Native → Option Value) (wire : Native) : Option (List (String × Value)) :=
  (asMap wire).bind (readAll (readEntry read))

namespace Format

def list (format : Format Leaf Native Value) : Format Leaf Native (List Value) where
  write := writeArray format.write
  read aux := readArray (format.read aux)
  packed := List.map format.packed
  aside := List.flatMap format.aside
  references wire := ((asArray wire).map (List.flatMap format.references)).getD []
  leaves := List.flatMap format.leaves

def entry (format : Format Leaf Native Value) : Format Leaf (String × Native) (String × Value) where
  write := writeEntry format.write
  read aux := readEntry (format.read aux)
  packed pair := (pair.1, format.packed pair.2)
  aside pair := format.aside pair.2
  references pair := format.references pair.2
  leaves pair := format.leaves pair.2

def dict (format : Format Leaf Native Value) : Format Leaf Native (List (String × Value)) where
  write := writeMap format.write
  read aux := readMap (format.read aux)
  packed := List.map format.entry.packed
  aside := List.flatMap format.entry.aside
  references wire := ((asMap wire).map (List.flatMap format.entry.references)).getD []
  leaves := List.flatMap format.entry.leaves

/-- The fields of a record, written as one array. -/
def noFields : Format Leaf (List Native) Unit where
  write _ aux := some ([], aux)
  read _ wires := if wires.isEmpty then some () else none
  packed value := value
  aside _ := []
  references _ := []
  leaves _ := []

def firstWire : List Native → Option (Native × List Native)
  | [] => none
  | wire :: wires => some (wire, wires)

def field (format : Format Leaf Native Value) (rest : Format Leaf (List Native) Value') :
    Format Leaf (List Native) (Value × Value') :=
  (pair format rest).wrap (fun wires => wires.1 :: wires.2) firstWire

def record (fields : Format Leaf (List Native) Value) : Format Leaf Native Value :=
  fields.wrap .array asArray

/-- A value or `None`, for values that are not written as nil themselves. -/
def optional (format : Format Leaf Native Value) : Format Leaf Native (Option Value) where
  write value aux :=
    match value with
    | none => some (.nil, aux)
    | some value => format.write value aux
  read aux wire :=
    match wire with
    | .nil => some none
    | wire => (format.read aux wire).map some
  packed := Option.map format.packed
  aside value := (value.map format.aside).getD []
  references wire :=
    match wire with
    | .nil => []
    | wire => format.references wire
  leaves value := (value.map format.leaves).getD []

/-- No value of the format is written as nil. -/
def NeverNil (format : Format Leaf Native Value) : Prop :=
  ∀ value aux aux', format.write value aux ≠ some (.nil, aux')

variable {plain admitted : Leaf → Prop}

variable {format : Format Leaf Native Value}

theorem list_behaves {values : List Value}
    (sound : ∀ value ∈ values, format.Behaves plain admitted value) :
    format.list.Behaves plain admitted values := by
  have wrapped : ((all format).wrap .array asArray).Behaves plain admitted values := by
    apply wrap_behaves
    · exact fun _ => rfl
    · exact all_behaves sound
  exact wrapped

theorem entry_sound (sound : format.Sound plain admitted) : format.entry.Sound plain admitted := by
  intro pair
  constructor
  · intro every aux
    obtain ⟨wire, written, refers, reads⟩ := (sound pair.2).carries every aux
    refine ⟨(pair.1, wire), ?_, refers, fun front later long => ?_⟩
    · simp only [entry, writeEntry, written, map_some]
    · obtain ⟨value, known, same⟩ := reads front later long
      refine ⟨(pair.1, value), ?_, ?_⟩
      · simp only [entry, readEntry, known, map_some]
      · simp only [entry, same]
  · intro plainly bad aux
    simp only [entry, writeEntry, (sound pair.2).refuses plainly bad aux, map_none]

theorem dict_sound (sound : format.Sound plain admitted) : format.dict.Sound plain admitted := by
  intro entries
  have wrapped : ((all format.entry).wrap .map asMap).Behaves plain admitted entries := by
    apply wrap_behaves
    · exact fun _ => rfl
    · exact all_behaves fun pair _ => entry_sound sound pair
  exact wrapped

theorem noFields_sound : (noFields : Format Leaf (List Native) Unit).Sound plain admitted := by
  intro value
  constructor
  · intro _ aux
    refine ⟨[], ?_, rfl, fun _ _ _ => ⟨value, rfl, rfl⟩⟩
    rw [show (noFields : Format Leaf (List Native) Unit).aside value = [] from rfl, append_nil]
    rfl
  · intro _ ⟨leaf, member, _⟩
    cases member

theorem field_sound {rest : Format Leaf (List Native) Value'} (sound : format.Sound plain admitted)
    (later : rest.Sound plain admitted) :
    (field format rest).Sound plain admitted := by
  intro values
  apply wrap_behaves
  · exact fun _ => rfl
  · exact pair_behaves (sound values.1) (later values.2)

theorem record_sound {fields : Format Leaf (List Native) Value} (sound : fields.Sound plain admitted) :
    (record fields).Sound plain admitted := by
  intro value
  apply wrap_behaves
  · exact fun _ => rfl
  · exact sound value

theorem optional_sound (sound : format.Sound plain admitted) (never : format.NeverNil) :
    (optional format).Sound plain admitted := by
  intro value
  cases value with
  | none =>
    constructor
    · intro _ aux
      refine ⟨.nil, ?_, rfl, fun _ _ _ => ⟨none, rfl, rfl⟩⟩
      rw [show (optional format).aside none = [] from rfl, append_nil]
      rfl
    · intro _ ⟨leaf, member, _⟩
      cases member
  | some value =>
    constructor
    · intro every aux
      obtain ⟨wire, written, refers, reads⟩ := (sound value).carries every aux
      have solid : wire ≠ .nil := fun empty => never value _ _ (empty ▸ written)
      refine ⟨wire, written, ?_, fun front later long => ?_⟩
      · have same : (optional format).references wire = format.references wire := by
          cases wire <;> first | rfl | exact absurd rfl solid
        rw [same, refers]
        rfl
      · have same (buffers : List Bytes) :
            (optional format).read buffers wire = (format.read buffers wire).map some := by
          cases wire <;> first | rfl | exact absurd rfl solid
        obtain ⟨value', known, equal⟩ := reads front later long
        refine ⟨some value', ?_, congrArg some equal⟩
        rw [same]
        exact congrArg (Option.map some) known
    · exact (sound value).refuses

end Format
end Containers
end VllmDcu.SideBuffers
