import Ccmchain.Abi.Mccmod

/-!
# The `ABI` registry

abi.go: the registry built from a schema document, and the operations on it.
`UnmarshalJSON` walks the document's entries in order and files each one
under a key of its kind's map; a declared name already taken is replaced by
the first of `name0`, `name1`, ... that is free. `Pack` and `Unpack` resolve a
name and hand the work to the argument encoder and decoder; `MccmodById` and
`EventByID` range over the maps looking for a matching id.

The argument encoder and decoder (argument.go, pack.go, unpack.go) are not
among the sources. The encoder is a parameter, `pack`. Of the decoder the
spec (§4.3) fixes the length check it makes before decoding anything, so
`Arguments.unpack` is that check in front of a parameter `decode`.
`json.Unmarshal` is the standard library's: `unmarshalJSON` starts from the
entries it decoded, and its error return leaves the `ABI` untouched.
-/

namespace Ccmchain.Abi

/-- The errors of abi.go, each with what its message prints. -/
inductive AbiError
  /-- `mccmod '%s' not found` -/
  | mccmodNotFound (name : String)
  /-- `abi: unmarshalling empty output` -/
  | emptyOutput
  /-- `abi: improperly formatted output: %s - Bytes: [%+v]`, from `Unpack` -/
  | improperlyFormattedData (data : Bytes)
  /-- `abi: improperly formatted output`, from `UnpackIntoMap` -/
  | improperlyFormatted
  /-- `abi: could not locate named mccmod or event` -/
  | notLocated
  /-- `data too short (%d bytes) for abi mccmod lookup` -/
  | tooShort (len : Nat)
  /-- `no mccmod with id: %#x` -/
  | noMccmodWithId (id : Bytes)
  /-- `no event with id: %#x` -/
  | noEventWithId (topic : Bytes)
  /-- the spec's `DecodingError`, raised by the argument decoder -/
  | decoding
  /-- an error of the argument encoder or decoder, passed through -/
  | arguments (msg : String)
  deriving DecidableEq, Repr

/-- The `ABI` struct: the constructor, and the methods and events by key. -/
structure ABI where
  constructor : Mccmod
  mccmods : GoMap Mccmod
  events : GoMap Event

/-- One entry of the schema document, as `json.Unmarshal` decodes it. -/
structure Field where
  type : String
  name : String
  constant : Bool
  anonymous : Bool
  inputs : List Argument
  outputs : List Argument
  deriving DecidableEq, Repr

/-- The zero `ABI` that `JSON` decodes a document into. -/
def ABI.zero : ABI := ⟨⟨"", false, [], []⟩, .empty, .empty⟩

/-! ## Loading a document -/

/-- `fmt.Sprintf("%s%d", name, idx)`. -/
def suffixed (name : String) (idx : Nat) : String := name ++ toString idx

/-- The probing loop of `UnmarshalJSON`, entered once `name` is found taken:
try `name ++ idx` and go on while that is taken too. The fuel is bookkeeping:
the probes before a free key hit distinct keys of the map, so `m.size + 1`
of them always reach one (`freshKey_firstFree`). -/
def probe {V : Type} (m : GoMap V) (name : String) : Nat → Nat → String
  | 0, idx => suffixed name idx
  | fuel + 1, idx =>
      if m.contains (suffixed name idx) then probe m name fuel (idx + 1)
      else suffixed name idx

/-- The key `UnmarshalJSON` files an entry declared `name` under. -/
def freshKey {V : Type} (m : GoMap V) (name : String) : String :=
  if m.contains name then probe m name (m.size + 1) 0 else name

/-- The body of the `"function"` and `"event"` cases: pick the key, then
store the entry built for it, whose `Name` is that key. -/
def register {V : Type} (m : GoMap V) (name : String) (mk : String → V) : GoMap V :=
  m.insert (freshKey m name) (mk (freshKey m name))

/-- The `"function", ""` case: empty defaults to function. -/
def Field.isMccmod (field : Field) : Bool := field.type = "function" || field.type = ""

/-- The `"event"` case. -/
def Field.isEvent (field : Field) : Bool := field.type = "event"

/-- The method a function entry is stored as, under `name`. -/
def Field.toMccmod (field : Field) (name : String) : Mccmod :=
  ⟨name, field.constant, field.inputs, field.outputs⟩

/-- The event an event entry is stored as, under `name`. -/
def Field.toEvent (field : Field) (name : String) : Event :=
  ⟨name, field.anonymous, field.inputs⟩

/-- One round of the loop over the document's entries. -/
def ABI.unmarshalField (abi : ABI) (field : Field) : ABI :=
  match field.type with
  | "constructor" => { abi with constructor := ⟨"", false, field.inputs, []⟩ }
  | "function" | "" => { abi with mccmods := register abi.mccmods field.name field.toMccmod }
  | "event" => { abi with events := register abi.events field.name field.toEvent }
  | _ => abi

/-- `ABI.UnmarshalJSON` after `json.Unmarshal` has decoded the entries: fresh
maps, then every entry in document order. The constructor is only replaced
when the document declares one. -/
def ABI.unmarshalJSON (abi : ABI) (fields : List Field) : ABI :=
  fields.foldl ABI.unmarshalField { abi with mccmods := .empty, events := .empty }

/-! ## Packing and unpacking -/

section Codec

variable (keccak256 : Bytes → Hash)

/-- `ABI.Pack`: the empty name packs the constructor's inputs alone; any other
name is looked up and its inputs packed after its 4-byte id. -/
def ABI.pack {Val : Type} (pack : List Argument → List Val → Except AbiError Bytes)
    (abi : ABI) (name : String) (args : List Val) : Except AbiError Bytes :=
  if name = "" then pack abi.constructor.inputs args
  else
    match abi.mccmods.get? name with
    | none => .error (.mccmodNotFound name)
    | some mccmod =>
        match pack mccmod.inputs args with
        | .error e => .error e
        | .ok arguments => .ok (mccmod.id keccak256 ++ arguments)

/-- Modelled from the spec: `Arguments.Unpack` and `Arguments.UnpackIntoMap`
(argument.go) are not among the sources. §4.3 has the decoder refuse an empty
input, or one whose length is not a multiple of 32, before any structural
decoding, and return no partial decode; past that check it is `decode`.
abi.go itself makes the multiple-of-32 check only for methods and hands an
event's data to the decoder unchecked, so on the event branch this check is an
assumption about argument.go, not code of the sources. -/
def Arguments.unpack {D : Type} (decode : List Argument → Bytes → D → D × Option AbiError)
    (args : List Argument) (v : D) (data : Bytes) : D × Option AbiError :=
  if data.length = 0 ∨ data.length % 32 ≠ 0 then (v, some .decoding) else decode args data v

/-- The body `Unpack` and `UnpackIntoMap` share, writing into `v` and
answering the error. They differ in the message of the multiple-of-32 check
and in the decoder the argument lists use. -/
def ABI.unpackWith {D : Type} (improper : Bytes → AbiError)
    (decode : List Argument → Bytes → D → D × Option AbiError)
    (abi : ABI) (v : D) (name : String) (data : Bytes) : D × Option AbiError :=
  if data.length = 0 then (v, some .emptyOutput)
  else
    match abi.mccmods.get? name with
    | some mccmod =>
        if data.length % 32 ≠ 0 then (v, some (improper data))
        else Arguments.unpack decode mccmod.outputs v data
    | none =>
        match abi.events.get? name with
        | some event => Arguments.unpack decode event.inputs v data
        | none => (v, some .notLocated)

/-- `ABI.Unpack`, into any destination. -/
def ABI.unpack {D : Type} (decode : List Argument → Bytes → D → D × Option AbiError)
    (abi : ABI) (v : D) (name : String) (data : Bytes) : D × Option AbiError :=
  abi.unpackWith .improperlyFormattedData decode v name data

/-- `ABI.UnpackIntoMap`, into a `map[string]interface{}`. -/
def ABI.unpackIntoMap {Val : Type}
    (decode : List Argument → Bytes → GoMap Val → GoMap Val × Option AbiError)
    (abi : ABI) (v : GoMap Val) (name : String) (data : Bytes) : GoMap Val × Option AbiError :=
  abi.unpackWith (fun _ => .improperlyFormatted) decode v name data

/-! ## Lookup by id -/

/-- `ABI.MccmodById`: the first method, in the map's iteration order, whose id
is the data's first four bytes. -/
def ABI.mccmodById (abi : ABI) (sigdata : Bytes) : Except AbiError Mccmod :=
  if sigdata.length < 4 then .error (.tooShort sigdata.length)
  else
    match abi.mccmods.values.find? (fun mccmod => mccmod.id keccak256 == sigdata.take 4) with
    | some mccmod => .ok mccmod
    | none => .error (.noMccmodWithId (sigdata.take 4))

/-- `ABI.EventByID`: the first event, in the map's iteration order, whose
topic is `topic`. -/
def ABI.eventByID (abi : ABI) (topic : Hash) : Except AbiError Event :=
  match abi.events.values.find? (fun event => (event.id keccak256).bytes == topic.bytes) with
  | some event => .ok event
  | none => .error (.noEventWithId topic.bytes)

end Codec

end Ccmchain.Abi
