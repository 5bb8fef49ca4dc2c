import VllmDcu.SerialUtils

/-! What is encoded is decoded as an equal value. Equal means equal but for the
layout of arrays in memory: dtype, shape and elements are those of the original. -/
namespace VllmDcu.SerialRoundTrip
open ByteBuffers StridedArrays SideBuffers SerialUtils List Option
variable {NumpyDtype TorchDtype : Type} {numpy : Numpy NumpyDtype} {torch : Torch TorchDtype}

/-- Other types are spelled by `dtype.str` in full. -/
structure NumpyLaws (numpy : Numpy NumpyDtype) : Prop where
  spelled : ∀ dtype, numpy.kind dtype ≠ .object → numpy.kind dtype ≠ .void →
    numpy.dtype (numpy.str dtype) = some dtype

structure TorchLaws (torch : Torch TorchDtype) : Prop where
  named : ∀ dtype, torch.attr (torchName torch dtype) = some dtype
  sized : ∀ dtype, 0 < torch.itemsize dtype

/-- Pickling keeps dtype, shape and elements. -/
def Pickles (pickle : Pickle numpy) (array : NdArray numpy) : Prop :=
  ∃ array', pickle.loads (pickle.dumps array) = some array' ∧ array'.packed = array.packed

/-- Pickled, or else of items with a size and, where contiguous, with a buffer. -/
structure Plain (config : Config numpy) (array : NdArray numpy) : Prop where
  pickles : pickled array = true → Pickles config.pickle array
  sized : pickled array = false → 0 < numpy.itemsize array.dtype
  exports : pickled array = false → array.body.cContiguous = true →
    numpy.exportsBuffer array.dtype = true

def Admitted (config : Config numpy) (array : NdArray numpy) : Prop :=
  pickled array = true → config.allowInsecureSerialization = true

section Packed

theorem ofBytes_congr {itemsize itemsize' : Nat} {shape : List Nat} {bytes bytes' : Bytes}
    (sized : itemsize = itemsize') (same : bytes = bytes')
    {fits : bytes.length = itemsize * shape.prod} {fits' : bytes'.length = itemsize' * shape.prod} :
    ofBytes itemsize shape bytes fits = ofBytes itemsize' shape bytes' fits' := by
  subst sized same
  rfl

theorem body_packed_eq_iff (body body' : Strided) : body.packed = body'.packed ↔
    body.itemsize = body'.itemsize ∧ body.shape = body'.shape ∧ body.tobytes = body'.tobytes := by
  constructor
  · intro same
    have sized : body.packed.itemsize = body'.packed.itemsize := congrArg Strided.itemsize same
    have shaped : body.packed.shape = body'.packed.shape := congrArg Strided.shape same
    refine ⟨sized, shaped, ?_⟩
    rw [← body.packed_tobytes, same, body'.packed_tobytes]
  · rintro ⟨sized, shaped, same⟩
    obtain ⟨itemsize, shape, strides, offset, storage, ranks, inside⟩ := body
    cases sized
    cases shaped
    exact ofBytes_congr rfl same

/-- Arrays are equal when dtype, shape and elements are. -/
theorem NdArray.packed_eq_iff (array array' : NdArray numpy) : array.packed = array'.packed ↔
    array.dtype = array'.dtype ∧ array.body.shape = array'.body.shape ∧
      array.body.tobytes = array'.body.tobytes := by
  constructor
  · intro same
    have typed : array.packed.dtype = array'.packed.dtype := congrArg NdArray.dtype same
    have body : array.body.packed = array'.body.packed := congrArg NdArray.body same
    exact ⟨typed, ((body_packed_eq_iff _ _).mp body).2⟩
  · rintro ⟨typed, shaped, same⟩
    obtain ⟨dtype, body, sized⟩ := array
    obtain ⟨dtype', body', sized'⟩ := array'
    cases typed
    have body : body.packed = body'.packed :=
      (body_packed_eq_iff _ _).mpr ⟨sized.trans sized'.symm, shaped, same⟩
    simp only [NdArray.packed, body]

theorem Tensor.packed_eq_iff (tensor tensor' : Tensor torch) : tensor.packed = tensor'.packed ↔
    tensor.dtype = tensor'.dtype ∧ tensor.body.shape = tensor'.body.shape ∧
      tensor.body.tobytes = tensor'.body.tobytes := by
  constructor
  · intro same
    have typed : tensor.packed.dtype = tensor'.packed.dtype := congrArg Tensor.dtype same
    have body : tensor.body.packed = tensor'.body.packed := congrArg Tensor.body same
    exact ⟨typed, ((body_packed_eq_iff _ _).mp body).2⟩
  · rintro ⟨typed, shaped, same⟩
    obtain ⟨dtype, body, sized⟩ := tensor
    obtain ⟨dtype', body', sized'⟩ := tensor'
    cases typed
    have body : body.packed = body'.packed :=
      (body_packed_eq_iff _ _).mpr ⟨sized.trans sized'.symm, shaped, same⟩
    simp only [Tensor.packed, body]

end Packed

section Triples

/-- The index in a triple whose data lies beside the message. -/
def tripleReferences : Native → List Int
  | .array [_, _, .int index] => [index]
  | _ => []

theorem readAll_counts (shape : List Nat) :
    readAll decodeCount (shape.map fun count : Nat => .int count) = some shape := by
  induction shape with
  | nil => rfl
  | cons count shape ih =>
    have first : decodeCount (.int count) = some count := by
      rw [decodeCount, if_pos (Int.natCast_nonneg count), Int.toNat_natCast]
    rw [map_cons, readAll, first, ih]

theorem bufferAt_front (front later : List Bytes) (buffer : Bytes) :
    bufferAt (front ++ [buffer] ++ later) front.length = some buffer := by
  rw [bufferAt, Int.toNat_natCast, append_assoc,
    getElem?_append_right (Nat.le_refl _), Nat.sub_self]
  rfl

def placedAside (inline : Bool) (data : Bytes) : List Bytes := if inline then [] else [data]

/-- The data of a triple is found again at the place it was put. -/
theorem placeData_spec (inline : Bool) (dtype : String) (shape : List Nat) (data : Bytes)
    (aux : List Bytes) : ∃ wire,
      placeData inline dtype shape data aux =
        some (encodeTriple dtype shape wire, aux ++ placedAside inline data) ∧
      tripleReferences (encodeTriple dtype shape wire) =
        indices aux.length (placedAside inline data).length ∧
      ∀ front later, front.length = aux.length →
        decodeData (front ++ placedAside inline data ++ later) wire = some data := by
  cases inline with
  | true =>
    refine ⟨.ext CUSTOM_TYPE_RAW_VIEW data, ?_, rfl, fun _ _ _ => rfl⟩
    rw [show placedAside true data = [] from rfl, append_nil]
    rfl
  | false =>
    refine ⟨.int aux.length, rfl, rfl, fun front later long => ?_⟩
    rw [← long]
    exact bufferAt_front front later data

theorem arrData_eq (array : NdArray numpy)
    (exports : array.body.cContiguous = true → numpy.exportsBuffer array.dtype = true) :
    arrData array = some array.body.tobytes := by
  rw [arrData]
  split
  · rename_i contiguous
    rw [if_pos (exports contiguous), array.body.exported_eq_tobytes contiguous]
  · rfl

theorem arrayOf_tobytes (array : NdArray numpy) (sized : 0 < numpy.itemsize array.dtype) :
    arrayOf numpy array.dtype array.body.shape array.body.tobytes = some array.packed := by
  have fits : array.body.tobytes.length = numpy.itemsize array.dtype * array.body.shape.prod := by
    rw [array.body.tobytes_length, Strided.nbytes, array.sized]
  rw [arrayOf, if_neg (Nat.ne_of_gt sized), dif_pos fits]
  have body : ofBytes (numpy.itemsize array.dtype) array.body.shape array.body.tobytes fits =
      array.body.packed := ofBytes_congr array.sized.symm rfl
  simp only [NdArray.packed, body]

theorem tensorOf_tobytes (tensor : Tensor torch) (sized : 0 < torch.itemsize tensor.dtype) :
    tensorOf torch tensor.dtype tensor.body.shape (tensorData tensor) = some tensor.packed := by
  have fits : (tensorData tensor).length = torch.itemsize tensor.dtype * tensor.body.shape.prod := by
    rw [tensorData, tensor.body.tobytes_length, Strided.nbytes, tensor.sized]
  have viewed : ¬((tensorData tensor).length = 0 ∧ 0 ∉ tensor.body.shape) := by
    rintro ⟨empty, inhabited⟩
    rw [fits] at empty
    have zero := (Nat.mul_eq_zero.mp empty).resolve_left (Nat.ne_of_gt sized)
    exact inhabited (prod_eq_zero_iff.mp zero)
  rw [tensorOf, dif_pos fits, if_neg viewed]
  have body : ofBytes (torch.itemsize tensor.dtype) tensor.body.shape (tensorData tensor) fits =
      tensor.body.packed := ofBytes_congr tensor.sized.symm rfl
  simp only [Tensor.packed, body]

theorem NdArray.packed_packed (array : NdArray numpy) : array.packed.packed = array.packed := by
  apply (NdArray.packed_eq_iff _ _).mpr
  exact ⟨rfl, rfl, array.body.packed_tobytes⟩

theorem Tensor.packed_packed (tensor : Tensor torch) : tensor.packed.packed = tensor.packed := by
  apply (Tensor.packed_eq_iff _ _).mpr
  exact ⟨rfl, rfl, tensor.body.packed_tobytes⟩

end Triples

section Formats

def ndarray (config : Config numpy) : Format (NdArray numpy) Native (NdArray numpy) where
  write := encHookNdarray config
  read := decHookNdarray config
  packed := NdArray.packed
  aside array :=
    if pickled array then [] else placedAside (ndarrayInline config array) array.body.tobytes
  references := tripleReferences
  leaves array := [array]

def tensor (config : Config numpy) (torch : Torch TorchDtype) :
    Format (NdArray numpy) Native (Tensor torch) where
  write := encodeTensor config
  read := decodeTensor torch
  packed := Tensor.packed
  aside value := placedAside (tensorInline config value) (tensorData value)
  references := tripleReferences
  leaves _ := []

theorem ndarray_sound (config : Config numpy) (lawful : NumpyLaws numpy) :
    (ndarray config).Sound (Plain config) (Admitted config) := by
  intro array
  cases kind : pickled array with
  | true =>
    constructor
    · intro every aux
      obtain ⟨plain, admitted⟩ := every array (mem_singleton_self _)
      have allowed := admitted kind
      obtain ⟨array', loaded, same⟩ := plain.pickles kind
      refine ⟨.ext CUSTOM_TYPE_PICKLE (config.pickle.dumps array), ?_, ?_, fun _ _ _ => ?_⟩
      · simp [ndarray, encHookNdarray, kind, allowed]
      · simp [ndarray, kind, tripleReferences, indices]
      · exact ⟨array', by simp [ndarray, decHookNdarray, allowed, loaded], same⟩
    · rintro _ ⟨leaf, member, bad⟩ aux
      cases mem_singleton.mp member
      have locked : config.allowInsecureSerialization = false := by
        rw [← Bool.not_eq_true]
        exact fun allowed => bad fun _ => allowed
      simp [ndarray, encHookNdarray, kind, locked]
  | false =>
    constructor
    · intro every aux
      have plain := (every array (mem_singleton_self _)).1
      obtain ⟨wire, placed, refers, found⟩ := placeData_spec (ndarrayInline config array)
        (numpy.str array.dtype) array.body.shape array.body.tobytes aux
      have ordinary : numpy.kind array.dtype ≠ .object ∧ numpy.kind array.dtype ≠ .void := by
        simpa [pickled] using kind
      refine ⟨encodeTriple (numpy.str array.dtype) array.body.shape wire, ?_, ?_,
        fun front later long => ⟨array.packed, ?_, NdArray.packed_packed array⟩⟩
      · simp only [ndarray, encHookNdarray, kind, Bool.not_false, if_true, encodeNdarray,
          arrData_eq array (plain.exports kind), placed]
        rfl
      · simpa only [ndarray, kind, Bool.false_eq_true, if_false] using refers
      · have data := found front later long
        simp only [ndarray, kind, Bool.false_eq_true, if_false, encodeTriple, decHookNdarray,
          decodeNdarray, data, lawful.spelled array.dtype ordinary.1 ordinary.2, readAll_counts]
        exact arrayOf_tobytes array (plain.sized kind)
    · rintro _ ⟨leaf, member, bad⟩
      cases mem_singleton.mp member
      exact absurd (fun allowed => absurd (kind ▸ allowed) Bool.false_ne_true) bad

theorem tensor_carries (config : Config numpy) (lawful : TorchLaws torch) (value : Tensor torch) :
    (tensor config torch).Carries value := by
  intro aux
  obtain ⟨wire, placed, refers, found⟩ := placeData_spec (tensorInline config value)
    (torchName torch value.dtype) value.body.shape (tensorData value) aux
  refine ⟨_, placed, refers, fun front later long => ⟨value.packed, ?_, Tensor.packed_packed value⟩⟩
  have data := found front later long
  simp only [tensor, encodeTriple, decodeTensor, data, lawful.named, readAll_counts]
  exact tensorOf_tobytes value (lawful.sized _)

end Formats

section Slices

theorem decodeBound_encodeBound (bound : Option Int) : decodeBound (encodeBound bound) = some bound := by
  cases bound <;> rfl

theorem decodeSlice_encodeSlice (value : Slice) :
    decodeSlice [encodeBound value.start, encodeBound value.stop, encodeBound value.step] =
      some value := by
  simp only [decodeSlice, decodeBound_encodeBound]

theorem encodeNestedSlices_isArray (value : NestedSlices) : isArray (encodeNestedSlices value) = true := by
  cases value <;> simp only [encodeNestedSlices, encodeSlice, isArray]

theorem encodeBound_isArray (bound : Option Int) : isArray (encodeBound bound) = false := by
  cases bound <;> rfl

mutual

/-- A slice starts with a bound and a list of slices with a list. -/
theorem decodeNestedSlices_encode :
    ∀ value, decodeNestedSlices (encodeNestedSlices value) = some value
  | .one value => by
      simp only [encodeNestedSlices, encodeSlice, decodeNestedSlices, encodeBound_isArray,
        Bool.not_false, if_true, decodeSlice_encodeSlice, Option.map_some]
  | .many [] => rfl
  | .many (value :: values) => by
      simp only [encodeNestedSlices, encodeSlicesList, decodeNestedSlices, encodeNestedSlices_isArray,
        Bool.not_true, Bool.false_eq_true, if_false, decodeNestedSlices_encode value,
        decodeSlicesList_encode values]

theorem decodeSlicesList_encode :
    ∀ values, decodeSlicesList (encodeSlicesList values) = some values
  | [] => rfl
  | value :: values => by
      simp only [encodeSlicesList, decodeSlicesList, decodeNestedSlices_encode value,
        decodeSlicesList_encode values]

end

theorem asSlices_encode (slices : List NestedSlices) :
    asSlices (.array (encodeSlicesList slices)) = some slices := by
  have known := decodeNestedSlices_encode (.many slices)
  rw [encodeNestedSlices] at known
  rw [asSlices, known]

theorem decodeMmField_encodeMmField (field : Field) : decodeMmField (encodeMmField field) = some field := by
  cases field with
  | flat keepOnCpu slices dim =>
    simp [encodeMmField, decodeMmField, onlyKeywords, keyword, lookup_cons, asBool, asInt,
      asSlices_encode]
  | shared keepOnCpu batchSize =>
    simp [encodeMmField, decodeMmField, onlyKeywords, keyword, lookup_cons, asBool, asInt]
  | batched keepOnCpu =>
    simp [encodeMmField, decodeMmField, onlyKeywords, keyword, asBool]

/-- A slice by itself, as a field of a record. -/
def slice : Format (NdArray numpy) Native Slice where
  write value aux := some (encodeSlice value, aux)
  read _ wire := (asArray wire).bind decodeSlice
  packed value := value
  aside _ := []
  references _ := []
  leaves _ := []

theorem slice_carries (value : Slice) : (slice : Format (NdArray numpy) Native Slice).Carries value := by
  intro aux
  refine ⟨encodeSlice value, ?_, rfl, fun _ _ _ => ⟨value, decodeSlice_encodeSlice value, rfl⟩⟩
  rw [show (slice : Format (NdArray numpy) Native Slice).aside value = [] from rfl, append_nil]
  rfl

end Slices

section Items

mutual

def packedTensors : NestedTensors torch → NestedTensors torch
  | .tensor value => .tensor value.packed
  | .bool value => .bool value
  | .int value => .int value
  | .float bits => .float bits
  | .list values => .list (packedList values)

def packedList : List (NestedTensors torch) → List (NestedTensors torch)
  | [] => []
  | value :: values => packedTensors value :: packedList values

end

mutual

/-- The tensors of the structure in their order. -/
def tensorsOf : NestedTensors torch → List (Tensor torch)
  | .tensor value => [value]
  | .list values => tensorsOfList values
  | _ => []

def tensorsOfList : List (NestedTensors torch) → List (Tensor torch)
  | [] => []
  | value :: values => tensorsOf value ++ tensorsOfList values

end

mutual

def nestedReferences : Native → List Int
  | .array [] => []
  | .array (first :: rest) =>
    if isStr first then tripleReferences (.array (first :: rest))
    else nestedReferences first ++ nestedReferencesList rest
  | _ => []

def nestedReferencesList : List Native → List Int
  | [] => []
  | wire :: wires => nestedReferences wire ++ nestedReferencesList wires

end

def nestedTensors (config : Config numpy) (torch : Torch TorchDtype) :
    Format (NdArray numpy) Native (NestedTensors torch) where
  write := encodeNestedTensors config
  read := decodeNestedTensors torch
  packed := packedTensors
  aside value := (tensorsOf value).flatMap (tensor config torch).aside
  references := nestedReferences
  leaves _ := []

def nestedList (config : Config numpy) (torch : Torch TorchDtype) :
    Format (NdArray numpy) (List Native) (List (NestedTensors torch)) where
  write := encodeTensorsList config
  read := decodeTensorsList torch
  packed := packedList
  aside values := (tensorsOfList values).flatMap (tensor config torch).aside
  references := nestedReferencesList
  leaves _ := []

theorem encodeTensor_starts {config : Config numpy} {value : Tensor torch} {aux aux' : List Bytes}
    {wire : Native} (written : encodeTensor config value aux = some (wire, aux')) :
    ∃ name rest, wire = .array (.str name :: rest) := by
  rw [encodeTensor, placeData] at written
  split at written
  all_goals
    cases written
    exact ⟨_, _, rfl⟩

/-- A value in a list is not taken for the dtype of a tensor. -/
theorem encodeNestedTensors_notStr (config : Config numpy) (value : NestedTensors torch)
    (aux aux' : List Bytes) (wire : Native)
    (written : encodeNestedTensors config value aux = some (wire, aux')) : isStr wire = false := by
  cases value with
  | tensor value =>
    obtain ⟨name, rest, rfl⟩ := encodeTensor_starts written
    rfl
  | bool value =>
    cases written
    rfl
  | int value =>
    cases written
    rfl
  | float bits =>
    cases written
    rfl
  | list values =>
    rw [encodeNestedTensors] at written
    split at written
    · cases written
    · cases written
      rfl

theorem encodeTensorsList_starts {config : Config numpy} {values : List (NestedTensors torch)}
    {aux aux' : List Bytes} {wires : List Native}
    (written : encodeTensorsList config values aux = some (wires, aux')) :
    ∀ first rest, wires = first :: rest → isStr first = false := by
  rintro first rest rfl
  cases values with
  | nil => cases written
  | cons value values =>
    rw [encodeTensorsList] at written
    split at written
    · cases written
    · rename_i wire aux head
      split at written
      · cases written
      · cases written
        exact encodeNestedTensors_notStr config value _ _ _ head

theorem decodeNestedTensors_list (torch : Torch TorchDtype) (aux : List Bytes) (wires : List Native)
    (starts : ∀ first rest, wires = first :: rest → isStr first = false) :
    decodeNestedTensors torch aux (.array wires) = (decodeTensorsList torch aux wires).map .list := by
  cases wires with
  | nil => rfl
  | cons first rest =>
    rw [decodeNestedTensors, starts first rest rfl, decodeTensorsList]
    cases decodeNestedTensors torch aux first with
    | none => rfl
    | some value => cases decodeTensorsList torch aux rest <;> rfl

theorem nestedReferences_list (wires : List Native)
    (starts : ∀ first rest, wires = first :: rest → isStr first = false) :
    nestedReferences (.array wires) = nestedReferencesList wires := by
  cases wires with
  | nil => rfl
  | cons first rest =>
    rw [nestedReferences, starts first rest rfl]
    rfl

section
variable (config : Config numpy)
include config

theorem nestedTensor_carries (lawful : TorchLaws torch) (value : Tensor torch) :
    (nestedTensors config torch).Carries (.tensor value) := by
  have alone : (nestedTensors config torch).aside (.tensor value) = (tensor config torch).aside value := by
    simp [nestedTensors, tensorsOf]
  intro aux
  rw [alone]
  obtain ⟨wire, written, refers, reads⟩ := tensor_carries config lawful value aux
  obtain ⟨name, rest, rfl⟩ := encodeTensor_starts written
  refine ⟨_, written, refers, fun front later long => ?_⟩
  obtain ⟨value', known, same⟩ := reads front later long
  refine ⟨.tensor value', ?_, congrArg NestedTensors.tensor same⟩
  exact congrArg (Option.map NestedTensors.tensor) known

/-- A number is written as itself. -/
theorem number_carries (value : NestedTensors torch) (wire : Native)
    (written : ∀ aux, encodeNestedTensors config value aux = some (wire, aux))
    (none : tensorsOf value = []) (refers : nestedReferences wire = [])
    (reads : ∀ aux, decodeNestedTensors torch aux wire = some value) :
    (nestedTensors config torch).Carries value := by
  have nothing : (nestedTensors config torch).aside value = [] := by
    simp only [nestedTensors, none, flatMap_nil]
  intro aux
  rw [nothing, append_nil]
  exact ⟨wire, written aux, refers, fun front later _ => ⟨value, reads _, rfl⟩⟩

theorem list_carries (values : List (NestedTensors torch))
    (all : (nestedList config torch).Carries values) :
    (nestedTensors config torch).Carries (.list values) := by
  intro aux
  obtain ⟨wires, written, refers, reads⟩ := all aux
  have starts := encodeTensorsList_starts written
  refine ⟨.array wires, ?_, ?_, fun front later long => ?_⟩
  · change encodeTensorsList config values aux = _ at written
    simp only [nestedTensors, encodeNestedTensors, written]
    rfl
  · exact (nestedReferences_list wires starts).trans refers
  · obtain ⟨values', known, same⟩ := reads front later long
    refine ⟨.list values', ?_, congrArg NestedTensors.list same⟩
    exact (decodeNestedTensors_list torch _ wires starts).trans (congrArg (Option.map NestedTensors.list) known)

theorem cons_carries (value : NestedTensors torch) (values : List (NestedTensors torch))
    (both : (Format.pair (nestedTensors config torch) (nestedList config torch)).Carries (value, values)) :
    (nestedList config torch).Carries (value :: values) := by
  have parts : (nestedList config torch).aside (value :: values) =
      (Format.pair (nestedTensors config torch) (nestedList config torch)).aside (value, values) := by
    simp [nestedList, nestedTensors, Format.pair, tensorsOfList]
  intro aux
  rw [parts]
  obtain ⟨wires, written, refers, reads⟩ := both aux
  refine ⟨wires.1 :: wires.2, ?_, ?_, fun front later long => ?_⟩
  · change writePair (encodeNestedTensors config) (encodeTensorsList config) (value, values) aux = _
      at written
    rw [writePair] at written
    change encodeTensorsList config (value :: values) aux = _
    split at written
    · cases written
    · rename_i head
      split at written
      · cases written
      · rename_i tail
        cases written
        simp only [encodeTensorsList, head, tail]
  · exact refers
  · obtain ⟨⟨first, rest⟩, known, same⟩ := reads front later long
    simp only [Format.pair, Prod.mk.injEq] at known same
    refine ⟨first :: rest, ?_, congrArg₂ cons same.1 same.2⟩
    split at known
    · rename_i head tail
      cases known
      change decodeTensorsList torch _ (wires.1 :: wires.2) = _
      rw [decodeTensorsList]
      change decodeNestedTensors torch _ wires.1 = _ at head
      change decodeTensorsList torch _ wires.2 = _ at tail
      simp only [Format.pair] at head tail ⊢
      rw [head, tail]
    · cases known

end

mutual

theorem nestedTensors_carries (config : Config numpy) (lawful : TorchLaws torch) :
    ∀ value : NestedTensors torch, (nestedTensors config torch).Carries value
  | .tensor value => nestedTensor_carries config lawful value
  | .bool value => number_carries config _ (.bool value) (fun _ => rfl) rfl rfl fun _ => rfl
  | .int value => number_carries config _ (.int value) (fun _ => rfl) rfl rfl fun _ => rfl
  | .float bits => number_carries config _ (.float bits) (fun _ => rfl) rfl rfl fun _ => rfl
  | .list values => list_carries config values (nestedList_carries config lawful values)

theorem nestedList_carries (config : Config numpy) (lawful : TorchLaws torch) :
    ∀ values : List (NestedTensors torch), (nestedList config torch).Carries values
  | [] => fun aux => ⟨[], by simp [nestedList, tensorsOfList, encodeTensorsList], rfl,
      fun _ _ _ => ⟨[], rfl, rfl⟩⟩
  | value :: values => cons_carries config value values
      (Format.pair_carries (nestedTensors_carries config lawful value)
        (nestedList_carries config lawful values))

end

def mmFieldElem (config : Config numpy) (torch : Torch TorchDtype) :
    Format (NdArray numpy) Native (FieldElem torch) where
  write := encodeMmFieldElem config
  read := decodeMmFieldElem torch
  packed elem := ⟨elem.data.map packedTensors, elem.field⟩
  aside elem := (elem.data.map (nestedTensors config torch).aside).getD []
  references wire :=
    match wire with
    | .map ((_, data) :: _) => nestedReferences data
    | _ => []
  leaves _ := []

theorem encodeData_carries {config : Config numpy} (lawful : TorchLaws torch)
    {data : Option (NestedTensors torch)} {aux : List Bytes} :
    ∃ wire, encodeData config data aux =
        some (wire, aux ++ (data.map (nestedTensors config torch).aside).getD []) ∧
      nestedReferences wire =
        indices aux.length ((data.map (nestedTensors config torch).aside).getD []).length ∧
      ∀ front later, front.length = aux.length → ∃ data',
        decodeTensorData torch (front ++ (data.map (nestedTensors config torch).aside).getD [] ++ later)
          wire = some data' ∧ data'.map packedTensors = data.map packedTensors := by
  cases data with
  | none => exact ⟨.nil, by simp [encodeData], rfl, fun _ _ _ => ⟨none, rfl, rfl⟩⟩
  | some data =>
    obtain ⟨wire, written, refers, reads⟩ := nestedTensors_carries config lawful data aux
    refine ⟨wire, written, refers, fun front later long => ?_⟩
    obtain ⟨data', known, same⟩ := reads front later long
    refine ⟨some data', ?_, congrArg some same⟩
    cases wire with
    | nil => cases known
    | _ => exact congrArg (Option.map some) known

theorem mmFieldElem_sound (config : Config numpy) (lawful : TorchLaws torch) :
    (mmFieldElem config torch).Sound (Plain config) (Admitted config) := by
  intro elem
  constructor
  · intro _ aux
    obtain ⟨data, written, refers, reads⟩ := encodeData_carries lawful
    refine ⟨.map [("data", data), ("field", encodeMmField elem.field)], ?_, refers,
      fun front later long => ?_⟩
    · simp only [mmFieldElem, encodeMmFieldElem, written]
    · obtain ⟨data', known, same⟩ := reads front later long
      refine ⟨⟨data', elem.field⟩, ?_, ?_⟩
      · rw [append_assoc] at known
        simp only [mmFieldElem, decodeMmFieldElem]
        simp [onlyKeywords, lookup_cons, decodeMmField_encodeMmField, known]
      · simp only [mmFieldElem, same]
  · rintro _ ⟨leaf, member, _⟩
    cases member

def mmItem (config : Config numpy) (torch : Torch TorchDtype) :
    Format (NdArray numpy) Native (List (String × FieldElem torch)) :=
  { (mmFieldElem config torch).dict with
    write := encodeMmItem config
    read := decodeMmItem torch }

def mmItems (config : Config numpy) (torch : Torch TorchDtype) :
    Format (NdArray numpy) Native (List (String × List (List (String × FieldElem torch)))) :=
  { (mmItem config torch).list.dict with
    write := encodeMmItems config
    read := decodeMmItems torch }

end Items

section Messages

mutual

/-- What is built from tensors, arrays, slices and multimodal items in lists, maps
and records with native values. -/
inductive Message (config : Config numpy) (torch : Torch TorchDtype) :
    {Value : Type} → Format (NdArray numpy) Native Value → Prop
  | native : Message config torch Format.native
  | ndarray : Message config torch (ndarray config)
  | tensor : Message config torch (tensor config torch)
  | slice : Message config torch slice
  | mmItem : Message config torch (mmItem config torch)
  | mmItems : Message config torch (mmItems config torch)
  | list {Value : Type} {format : Format (NdArray numpy) Native Value}
      (each : Message config torch format) : Message config torch format.list
  | dict {Value : Type} {format : Format (NdArray numpy) Native Value}
      (each : Message config torch format) : Message config torch format.dict
  | optional {Value : Type} {format : Format (NdArray numpy) Native Value}
      (present : Message config torch format) (never : format.NeverNil) :
      Message config torch format.optional
  | record {Value : Type} {fields : Format (NdArray numpy) (List Native) Value}
      (each : Fields config torch fields) : Message config torch fields.record

inductive Fields (config : Config numpy) (torch : Torch TorchDtype) :
    {Value : Type} → Format (NdArray numpy) (List Native) Value → Prop
  | nil : Fields config torch Format.noFields
  | cons {Value Value' : Type} {format : Format (NdArray numpy) Native Value}
      {rest : Format (NdArray numpy) (List Native) Value'} (first : Message config torch format)
      (later : Fields config torch rest) : Fields config torch (Format.field format rest)

end

theorem sound_of_carries {config : Config numpy} {Value : Type}
    {format : Format (NdArray numpy) Native Value} (bare : ∀ value, format.leaves value = [])
    (carries : ∀ value, format.Carries value) : format.Sound (Plain config) (Admitted config) := by
  intro value
  constructor
  · exact fun _ => carries value
  · rintro _ ⟨leaf, member, _⟩
    rw [bare] at member
    cases member

mutual

theorem message_sound {config : Config numpy} (numpyLaws : NumpyLaws numpy)
    (torchLaws : TorchLaws torch) :
    ∀ {Value : Type} {format : Format (NdArray numpy) Native Value}, Message config torch format →
      format.Sound (Plain config) (Admitted config)
  | _, _, .native => Format.native_sound _ _
  | _, _, .ndarray => ndarray_sound config numpyLaws
  | _, _, .tensor => sound_of_carries (fun _ => rfl) (tensor_carries config torchLaws)
  | _, _, .slice => sound_of_carries (fun _ => rfl) slice_carries
  | _, _, .mmItem => Format.dict_sound (mmFieldElem_sound config torchLaws)
  | _, _, .mmItems => Format.dict_sound fun _ => Format.list_behaves fun item _ =>
    Format.dict_sound (mmFieldElem_sound config torchLaws) item
  | _, _, .list each => fun _ => Format.list_behaves fun value _ => message_sound numpyLaws torchLaws each value
  | _, _, .dict each => Format.dict_sound (message_sound numpyLaws torchLaws each)
  | _, _, .optional present never => Format.optional_sound (message_sound numpyLaws torchLaws present) never
  | _, _, .record each => Format.record_sound (fields_sound numpyLaws torchLaws each)

theorem fields_sound {config : Config numpy} (numpyLaws : NumpyLaws numpy)
    (torchLaws : TorchLaws torch) :
    ∀ {Value : Type} {fields : Format (NdArray numpy) (List Native) Value}, Fields config torch fields →
      fields.Sound (Plain config) (Admitted config)
  | _, _, .nil => Format.noFields_sound
  | _, _, .cons first later => Format.field_sound (message_sound numpyLaws torchLaws first) (fields_sound numpyLaws torchLaws later)

end

/-- The buffers of an encoded value are the main message and the data that its
references name, in their order; decoding them gives an equal value. -/
def Returns (msgpack : Msgpack) {Value : Type} (format : Format (NdArray numpy) Native Value)
    (value : Value) (bufs : List Bytes) : Prop :=
  ∃ wire, bufs = msgpack.pack wire :: format.aside value ∧
    format.references wire = indices 1 (format.aside value).length ∧
    ∃ value', decode msgpack format bufs = some value' ∧ format.packed value' = format.packed value

/-- Both ways of encoding give buffers that return the value. -/
def RoundTrips (msgpack : Msgpack) {Value : Type} (format : Format (NdArray numpy) Native Value)
    (value : Value) : Prop :=
  (∃ bufs, encode msgpack format value = some bufs ∧ Returns msgpack format value bufs) ∧
    ∀ buf, ∃ bufs, encodeInto msgpack format value buf = some bufs ∧ Returns msgpack format value bufs

/-- The message that the value is written to goes through msgspec unchanged. -/
def Faithful (msgpack : Msgpack) {Value : Type} (format : Format (NdArray numpy) Native Value)
    (value : Value) : Prop :=
  ∀ start written, format.write value [start] = some written →
    msgpack.unpack (msgpack.pack written.1) = some written.1

theorem written_returns {msgpack : Msgpack} {Value : Type}
    {format : Format (NdArray numpy) Native Value} {value : Value}
    (faithful : Faithful msgpack format value) (carries : format.Carries value) (start : Bytes) :
    ∃ written, format.write value [start] = some written ∧
      Returns msgpack format value (written.2.set 0 (msgpack.pack written.1)) := by
  obtain ⟨wire, written, refers, reads⟩ := carries [start]
  obtain ⟨value', known, same⟩ := reads [msgpack.pack wire] [] rfl
  refine ⟨_, written, wire, rfl, refers, value', ?_, same⟩
  rw [append_nil] at known
  change (msgpack.unpack (msgpack.pack wire)).bind _ = _
  rw [faithful start _ written]
  exact known

end Messages

section Samples

def dtypeName : Kind → String
  | .bool => "|b1" | .int => "|i1" | .uint => "|u1" | .float => "<f4" | .complex => "<c8"
  | .timedelta => "<m8[s]" | .datetime => "<M8[s]" | .object => "|O" | .bytes => "|S1"
  | .str => "<U1" | .void => "|V1"

/-- One type of each kind. -/
def sampleNumpy : Numpy Kind where
  kind := id
  itemsize
    | .float | .str => 4
    | .complex | .timedelta | .datetime | .object => 8
    | _ => 1
  exportsBuffer kind := kind != .timedelta && kind != .datetime
  str := dtypeName
  dtype name := [Kind.bool, .int, .uint, .float, .complex, .timedelta, .datetime, .object, .bytes,
    .str, .void].find? (dtypeName · == name)

/-- Bytes and half-precision floats. -/
def sampleTorch : Torch Bool where
  itemsize half := if half then 2 else 1
  str half := if half then "torch.float16" else "torch.uint8"
  attr name := if name = "float16" then some true else if name = "uint8" then some false else none

theorem sampleNumpy_laws : NumpyLaws sampleNumpy := by
  constructor
  intro dtype _ _
  cases dtype <;> rfl

theorem sampleTorch_laws : TorchLaws sampleTorch := by
  constructor
  · trivial
  · trivial

/-- An array of one item. -/
def oneItem (kind : Kind) (bytes : Bytes) (fits : bytes.length = sampleNumpy.itemsize kind * 1) :
    NdArray sampleNumpy :=
  ⟨kind, ofBytes (sampleNumpy.itemsize kind) [1] bytes (by simpa using fits), rfl⟩

def objectArray : NdArray sampleNumpy := oneItem .object [16, 32, 48, 64, 80, 127, 0, 0] rfl

def datetimeArray : NdArray sampleNumpy := oneItem .datetime [0, 225, 11, 94, 0, 0, 0, 0] rfl

def lockedConfig : Config sampleNumpy where
  sizeThreshold := 256
  allowInsecureSerialization := false
  pickle := ⟨fun _ => [], fun _ => none⟩

/-- Three rows of two bytes, seen through the columns of a transposed array. -/
def transposed : NdArray sampleNumpy where
  dtype := .int
  body :=
    { itemsize := 1, shape := [3, 2], strides := [1, 3], offset := 0, storage := [1, 2, 3, 4, 5, 6],
      ranks := rfl, inside := by decide }
  sized := rfl

def twoBytes : Tensor sampleTorch := ⟨false, ofBytes 1 [2] [7, 8] rfl, rfl⟩

/-- Everything of two bytes or more goes beside the message. -/
def tightConfig : Config sampleNumpy where
  sizeThreshold := 2
  allowInsecureSerialization := false
  pickle := ⟨fun _ => [], fun _ => none⟩

abbrev sampleFormat := Format.record (Format.field (ndarray tightConfig)
  (Format.field (mmItems tightConfig sampleTorch) Format.noFields))

def pixels : FieldElem sampleTorch where
  data := some (.list [.tensor twoBytes, .int 3, .list []])
  field := .flat false [.many [.one ⟨some 0, some 3, none⟩]] 0

abbrev sampleValue : NdArray sampleNumpy ×
    List (String × List (List (String × FieldElem sampleTorch))) × Unit :=
  (transposed, [("image", [[("pixels", pixels)]])], ())

def sampleWire : Native :=
  .array [encodeTriple "|i1" [3, 2] (.int 1),
    .map [("image", .array [.map [("pixels", .map [
      ("data", .array [encodeTriple "uint8" [2] (.int 2), .int 3, .array []]),
      ("field", encodeMmField pixels.field)])]])]]

/-- The bytes of that message. -/
def sampleBytes : Bytes :=
  [146, 147, 163, 124, 105, 49, 146, 3, 2, 1, 129, 165, 105, 109, 97, 103, 101, 145, 129, 166,
   112, 105, 120, 101, 108, 115, 130, 164, 100, 97, 116, 97, 147, 147, 165, 117, 105, 110, 116,
   56, 145, 2, 2, 3, 144, 165, 102, 105, 101, 108, 100, 146, 164, 102, 108, 97, 116, 131, 171,
   107, 101, 101, 112, 95, 111, 110, 95, 99, 112, 117, 194, 166, 115, 108, 105, 99, 101, 115,
   145, 145, 147, 0, 3, 192, 163, 100, 105, 109, 0]

def sampleMsgpack : Msgpack := ⟨fun _ => sampleBytes, fun _ => some sampleWire⟩

end Samples
end VllmDcu.SerialRoundTrip
