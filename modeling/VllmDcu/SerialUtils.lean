import VllmDcu.StridedArrays
import VllmDcu.SideBuffers

/-! `MsgpackEncoder` and `MsgpackDecoder`: tensors and arrays as a triple of dtype,
shape and data, the data inline or beside the message; multimodal items as nested
dictionaries. numpy, torch, pickle and msgspec are parameters. -/
namespace VllmDcu.SerialUtils
open ByteBuffers StridedArrays SideBuffers

def CUSTOM_TYPE_PICKLE : Nat := 1

def CUSTOM_TYPE_CLOUDPICKLE : Nat := 2

def CUSTOM_TYPE_RAW_VIEW : Nat := 3

inductive Kind
  | bool | int | uint | float | complex | timedelta | datetime | object | bytes | str | void
deriving DecidableEq, Repr

/-- `exportsBuffer` is whether a contiguous array of the type has a `data` buffer. -/
structure Numpy (Dtype : Type) where
  kind : Dtype → Kind
  itemsize : Dtype → Nat
  exportsBuffer : Dtype → Bool
  str : Dtype → String
  dtype : String → Option Dtype

/-- `attr` is what the torch module has under a name, where that is a dtype. -/
structure Torch (Dtype : Type) where
  itemsize : Dtype → Nat
  str : Dtype → String
  attr : String → Option Dtype

variable {NumpyDtype TorchDtype : Type} {numpy : Numpy NumpyDtype} {torch : Torch TorchDtype}

structure NdArray (numpy : Numpy NumpyDtype) where
  dtype : NumpyDtype
  body : Strided
  sized : body.itemsize = numpy.itemsize dtype

structure Tensor (torch : Torch TorchDtype) where
  dtype : TorchDtype
  body : Strided
  sized : body.itemsize = torch.itemsize dtype

/-- The same array, laid out afresh. -/
def NdArray.packed (array : NdArray numpy) : NdArray numpy :=
  ⟨array.dtype, array.body.packed, array.sized⟩

def Tensor.packed (tensor : Tensor torch) : Tensor torch :=
  ⟨tensor.dtype, tensor.body.packed, tensor.sized⟩

structure Pickle (numpy : Numpy NumpyDtype) where
  dumps : NdArray numpy → Bytes
  loads : Bytes → Option (NdArray numpy)

structure Config (numpy : Numpy NumpyDtype) where
  sizeThreshold : Int
  allowInsecureSerialization : Bool
  pickle : Pickle numpy

/-- Arrays that do not go through `_encode_ndarray`. -/
def pickled (array : NdArray numpy) : Bool :=
  numpy.kind array.dtype == .object || numpy.kind array.dtype == .void

section Arrays

def encodeTriple (dtype : String) (shape : List Nat) (data : Native) : Native :=
  .array [.str dtype, .array (shape.map fun count : Nat => .int count), data]

/-- Inline or, by index, behind the buffers there are. -/
def placeData (inline : Bool) (dtype : String) (shape : List Nat) (arrData : Bytes) : Writer Native :=
  fun aux =>
    if inline then some (encodeTriple dtype shape (.ext CUSTOM_TYPE_RAW_VIEW arrData), aux)
    else some (encodeTriple dtype shape (.int aux.length), aux ++ [arrData])

/-- The buffer of a contiguous array, which numpy may refuse, or else a copy. -/
def arrData (array : NdArray numpy) : Option Bytes :=
  if array.body.cContiguous then
    if numpy.exportsBuffer array.dtype then some array.body.exported else none
  else some array.body.tobytes

def ndarrayInline (config : Config numpy) (array : NdArray numpy) : Bool :=
  array.body.shape.isEmpty || decide ((array.body.nbytes : Int) < config.sizeThreshold)

def encodeNdarray (config : Config numpy) (array : NdArray numpy) : Writer Native := fun aux =>
  match arrData array with
  | none => none
  | some data => placeData (ndarrayInline config array) (numpy.str array.dtype) array.body.shape data aux

/-- `enc_hook` on an array: pickle for objects and records, where that is allowed. -/
def encHookNdarray (config : Config numpy) (array : NdArray numpy) : Writer Native := fun aux =>
  if !pickled array then encodeNdarray config array aux
  else if config.allowInsecureSerialization then
    some (.ext CUSTOM_TYPE_PICKLE (config.pickle.dumps array), aux)
  else none

def removeprefix (text start : String) : String :=
  if start.toList.isPrefixOf text.toList then String.ofList (text.toList.drop start.toList.length)
  else text

def torchName (torch : Torch TorchDtype) (dtype : TorchDtype) : String :=
  removeprefix (torch.str dtype) "torch."

def tensorInline (config : Config numpy) (tensor : Tensor torch) : Bool :=
  decide ((tensor.body.nbytes : Int) < config.sizeThreshold)

/-- `tensor_data` flattens to a contiguous run of the elements' bytes. -/
def tensorData (tensor : Tensor torch) : Bytes := tensor.body.tobytes

def encodeTensor (config : Config numpy) (tensor : Tensor torch) : Writer Native :=
  placeData (tensorInline config tensor) (torchName torch tensor.dtype) tensor.body.shape
    (tensorData tensor)

/-- Indexing of a sequence, from the end for negative numbers. -/
def bufferAt (aux : List Bytes) (index : Int) : Option Bytes :=
  if 0 ≤ index then aux[index.toNat]?
  else if 0 ≤ aux.length + index then aux[(aux.length + index).toNat]?
  else none

/-- The data of a triple after `ext_hook`. -/
def decodeData (aux : List Bytes) : Native → Option Bytes
  | .int index => bufferAt aux index
  | .ext code data => if code = CUSTOM_TYPE_RAW_VIEW then some data else none
  | _ => none

def decodeCount : Native → Option Nat
  | .int count => if 0 ≤ count then some count.toNat else none
  | _ => none

/-- `np.frombuffer` takes no items without a size; `reshape` must use all of them. -/
def arrayOf (numpy : Numpy NumpyDtype) (dtype : NumpyDtype) (shape : List Nat) (buffer : Bytes) :
    Option (NdArray numpy) :=
  if numpy.itemsize dtype = 0 then none
  else if fits : buffer.length = numpy.itemsize dtype * shape.prod then
    some ⟨dtype, ofBytes (numpy.itemsize dtype) shape buffer fits, rfl⟩
  else none

def decodeNdarray (numpy : Numpy NumpyDtype) (aux : List Bytes) : Native → Option (NdArray numpy)
  | .array [.str dtype, .array shape, data] =>
    match decodeData aux data, numpy.dtype dtype, readAll decodeCount shape with
    | some buffer, some dtype, some shape => arrayOf numpy dtype shape buffer
    | _, _, _ => none
  | _ => none

/-- An array from the wire: `ext_hook` unpickles, `dec_hook` reads a triple. -/
def decHookNdarray (config : Config numpy) (aux : List Bytes) : Native → Option (NdArray numpy)
  | .ext code data =>
    if code = CUSTOM_TYPE_PICKLE ∧ config.allowInsecureSerialization = true then
      config.pickle.loads data
    else none
  | wire => decodeNdarray numpy aux wire

/-- An empty buffer cannot be viewed and makes an empty tensor. -/
def tensorOf (torch : Torch TorchDtype) (dtype : TorchDtype) (shape : List Nat) (buffer : Bytes) :
    Option (Tensor torch) :=
  if fits : buffer.length = torch.itemsize dtype * shape.prod then
    if buffer.length = 0 ∧ 0 ∉ shape then none
    else some ⟨dtype, ofBytes (torch.itemsize dtype) shape buffer fits, rfl⟩
  else none

def decodeTensor (torch : Torch TorchDtype) (aux : List Bytes) : Native → Option (Tensor torch)
  | .array [.str dtype, .array shape, data] =>
    match decodeData aux data, torch.attr dtype, readAll decodeCount shape with
    | some buffer, some dtype, some shape => tensorOf torch dtype shape buffer
    | _, _, _ => none
  | _ => none

end Arrays

section Slices

structure Slice where
  start : Option Int
  stop : Option Int
  step : Option Int
deriving DecidableEq, Repr

def encodeBound : Option Int → Native
  | none => .nil
  | some value => .int value

/-- `enc_hook` on a slice. -/
def encodeSlice (value : Slice) : Native :=
  .array [encodeBound value.start, encodeBound value.stop, encodeBound value.step]

def decodeBound : Native → Option (Option Int)
  | .nil => some none
  | .int value => some (some value)
  | _ => none

/-- `slice(*obj)`, which takes one, two or three bounds. -/
def decodeSlice : List Native → Option Slice
  | [stop] => (decodeBound stop).map fun stop => ⟨none, stop, none⟩
  | [start, stop] =>
    match decodeBound start, decodeBound stop with
    | some start, some stop => some ⟨start, stop, none⟩
    | _, _ => none
  | [start, stop, step] =>
    match decodeBound start, decodeBound stop, decodeBound step with
    | some start, some stop, some step => some ⟨start, stop, step⟩
    | _, _, _ => none
  | _ => none

/-- A slice or a sequence of what may again be sequences. -/
inductive NestedSlices
  | one (value : Slice)
  | many (values : List NestedSlices)

mutual

def encodeNestedSlices : NestedSlices → Native
  | .one value => encodeSlice value
  | .many values => .array (encodeSlicesList values)

def encodeSlicesList : List NestedSlices → List Native
  | [] => []
  | value :: values => encodeNestedSlices value :: encodeSlicesList values

end

def isArray : Native → Bool
  | .array _ => true
  | _ => false

mutual

/-- A list that does not start with a list is a slice. -/
def decodeNestedSlices : Native → Option NestedSlices
  | .array [] => some (.many [])
  | .array (first :: rest) =>
    if !isArray first then (decodeSlice (first :: rest)).map .one
    else
      match decodeNestedSlices first, decodeSlicesList rest with
      | some value, some values => some (.many (value :: values))
      | _, _ => none
  | _ => none

def decodeSlicesList : List Native → Option (List NestedSlices)
  | [] => some []
  | wire :: wires =>
    match decodeNestedSlices wire, decodeSlicesList wires with
    | some value, some values => some (value :: values)
    | _, _ => none

end

end Slices

section Fields

/-- The field types of `MMF_CLASS_TO_FACTORY`. -/
inductive Field
  | flat (keepOnCpu : Bool) (slices : List NestedSlices) (dim : Int)
  | shared (keepOnCpu : Bool) (batchSize : Int)
  | batched (keepOnCpu : Bool)

/-- The factory's name and the dataclass fields, the base class's one first. -/
def encodeMmField : Field → Native
  | .flat keepOnCpu slices dim =>
    .array [.str "flat", .map [("keep_on_cpu", .bool keepOnCpu),
      ("slices", .array (encodeSlicesList slices)), ("dim", .int dim)]]
  | .shared keepOnCpu batchSize =>
    .array [.str "shared", .map [("keep_on_cpu", .bool keepOnCpu), ("batch_size", .int batchSize)]]
  | .batched keepOnCpu => .array [.str "batched", .map [("keep_on_cpu", .bool keepOnCpu)]]

def asBool : Native → Option Bool
  | .bool value => some value
  | _ => none

def asInt : Native → Option Int
  | .int value => some value
  | _ => none

def asSlices (wire : Native) : Option (List NestedSlices) :=
  match decodeNestedSlices wire with
  | some (.many values) => some values
  | _ => none

/-- A keyword argument, or the parameter's default when it has one. -/
def keyword {α : Type} (kwargs : List (String × Native)) (name : String) (default : Option α)
    (read : Native → Option α) : Option α :=
  match kwargs.lookup name with
  | none => default
  | some value => read value

/-- A call refuses keywords the factory does not have. -/
def onlyKeywords (kwargs : List (String × Native)) (names : List String) : Bool :=
  kwargs.all fun kwarg => names.contains kwarg.1

/-- The field that the named factory of `MultiModalFieldConfig` makes. -/
def decodeMmField : Native → Option Field
  | .array [.str "flat", .map kwargs] =>
    match onlyKeywords kwargs ["slices", "dim", "keep_on_cpu"],
      keyword kwargs "keep_on_cpu" (some false) asBool, keyword kwargs "slices" none asSlices,
      keyword kwargs "dim" (some 0) asInt with
    | true, some keepOnCpu, some slices, some dim => some (.flat keepOnCpu slices dim)
    | _, _, _, _ => none
  | .array [.str "shared", .map kwargs] =>
    match onlyKeywords kwargs ["batch_size", "keep_on_cpu"],
      keyword kwargs "keep_on_cpu" (some false) asBool, keyword kwargs "batch_size" none asInt with
    | true, some keepOnCpu, some batchSize => some (.shared keepOnCpu batchSize)
    | _, _, _ => none
  | .array [.str "batched", .map kwargs] =>
    match onlyKeywords kwargs ["keep_on_cpu"], keyword kwargs "keep_on_cpu" (some false) asBool with
    | true, some keepOnCpu => some (.batched keepOnCpu)
    | _, _ => none
  | _ => none

end Fields

section Items

/-- Tensors in lists of any depth; the values are sometimes numbers. -/
inductive NestedTensors (torch : Torch TorchDtype)
  | tensor (value : Tensor torch)
  | bool (value : Bool)
  | int (value : Int)
  | float (bits : UInt64)
  | list (values : List (NestedTensors torch))

mutual

def encodeNestedTensors (config : Config numpy) : NestedTensors torch → Writer Native
  | .tensor value, aux => encodeTensor config value aux
  | .bool value, aux => some (.bool value, aux)
  | .int value, aux => some (.int value, aux)
  | .float bits, aux => some (.float bits, aux)
  | .list values, aux =>
    match encodeTensorsList config values aux with
    | none => none
    | some (wires, aux) => some (.array wires, aux)

def encodeTensorsList (config : Config numpy) : List (NestedTensors torch) → Writer (List Native)
  | [], aux => some ([], aux)
  | value :: values, aux =>
    match encodeNestedTensors config value aux with
    | none => none
    | some (wire, aux) =>
      match encodeTensorsList config values aux with
      | none => none
      | some (wires, aux) => some (wire :: wires, aux)

end

def isStr : Native → Bool
  | .str _ => true
  | _ => false

mutual

/-- A list that starts with a string is a tensor. -/
def decodeNestedTensors (torch : Torch TorchDtype) (aux : List Bytes) :
    Native → Option (NestedTensors torch)
  | .bool value => some (.bool value)
  | .int value => some (.int value)
  | .float bits => some (.float bits)
  | .array [] => some (.list [])
  | .array (first :: rest) =>
    if isStr first then (decodeTensor torch aux (.array (first :: rest))).map .tensor
    else
      match decodeNestedTensors torch aux first, decodeTensorsList torch aux rest with
      | some value, some values => some (.list (value :: values))
      | _, _ => none
  | _ => none

def decodeTensorsList (torch : Torch TorchDtype) (aux : List Bytes) :
    List Native → Option (List (NestedTensors torch))
  | [] => some []
  | wire :: wires =>
    match decodeNestedTensors torch aux wire, decodeTensorsList torch aux wires with
    | some value, some values => some (value :: values)
    | _, _ => none

end

structure FieldElem (torch : Torch TorchDtype) where
  data : Option (NestedTensors torch)
  field : Field

def encodeData (config : Config numpy) : Option (NestedTensors torch) → Writer Native
  | none, aux => some (.nil, aux)
  | some data, aux => encodeNestedTensors config data aux

def encodeMmFieldElem (config : Config numpy) (elem : FieldElem torch) : Writer Native := fun aux =>
  match encodeData config elem.data aux with
  | none => none
  | some (data, aux) => some (.map [("data", data), ("field", encodeMmField elem.field)], aux)

def encodeMmItem (config : Config numpy) : List (String × FieldElem torch) → Writer Native :=
  writeMap (encodeMmFieldElem config)

def encodeMmItems (config : Config numpy) :
    List (String × List (List (String × FieldElem torch))) → Writer Native :=
  writeMap (writeArray (encodeMmItem config))

def decodeTensorData (torch : Torch TorchDtype) (aux : List Bytes) :
    Native → Option (Option (NestedTensors torch))
  | .nil => some none
  | data => (decodeNestedTensors torch aux data).map some

def decodeMmFieldElem (torch : Torch TorchDtype) (aux : List Bytes) :
    Native → Option (FieldElem torch)
  | .map entries =>
    match onlyKeywords entries ["data", "field"], entries.lookup "data", entries.lookup "field" with
    | true, some data, some field =>
      match decodeTensorData torch aux data, decodeMmField field with
      | some data, some field => some ⟨data, field⟩
      | _, _ => none
    | _, _, _ => none
  | _ => none

def decodeMmItem (torch : Torch TorchDtype) (aux : List Bytes) :
    Native → Option (List (String × FieldElem torch)) :=
  readMap (decodeMmFieldElem torch aux)

def decodeMmItems (torch : Torch TorchDtype) (aux : List Bytes) :
    Native → Option (List (String × List (List (String × FieldElem torch)))) :=
  readMap (readArray (decodeMmItem torch aux))

end Items

section Messages

/-- The third-party encoder of what a message holds by itself. -/
structure Msgpack where
  pack : Native → Bytes
  unpack : Bytes → Option Native

variable {Leaf Value : Type}

/-- The main buffer is encoded last and put before those collected for it. -/
def encode (msgpack : Msgpack) (format : Format Leaf Native Value) (obj : Value) : Option (List Bytes) :=
  (format.write obj [[]]).map fun written => written.2.set 0 (msgpack.pack written.1)

/-- The same into a buffer of the caller, whose contents are replaced. -/
def encodeInto (msgpack : Msgpack) (format : Format Leaf Native Value) (obj : Value) (buf : Bytes) :
    Option (List Bytes) :=
  (format.write obj [buf]).map fun written => written.2.set 0 (msgpack.pack written.1)

def decode (msgpack : Msgpack) (format : Format Leaf Native Value) (bufs : List Bytes) : Option Value :=
  match bufs.head? with
  | none => none
  | some main => (msgpack.unpack main).bind (format.read bufs)

end Messages
end VllmDcu.SerialUtils
