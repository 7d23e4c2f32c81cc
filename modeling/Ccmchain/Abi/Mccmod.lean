import Ccmchain.Abi.GoMap

/-!
# Methods, events and their signatures

`Mccmod` is the package's record of one callable, and everything that
identifies it on the wire comes from `Sig()`: the name, then the canonical
strings of the input types, comma-joined in parentheses. `Id()` is the first
four bytes of the Keccak-256 hash of that string.

Two things this file needs are not among the sources. The hash is the
injected `keccak256`, taken as a parameter wherever it is used, so every
statement holds for every hash function. `abi.Type` lives in type.go; the
package reads only its canonical string here, so `AbiType` is that string.
Events' `Sig()` and `Id()` live in event.go and are modelled from the spec
(§4.4: the same signature construction, the full 32-byte hash).
-/

namespace Ccmchain.Abi

/-- Byte strings, as Go's `[]byte`. -/
abbrev Bytes := List UInt8

/-- `[]byte(s)`: the UTF-8 bytes of a string. -/
def utf8 (s : String) : Bytes := s.toUTF8.data.toList

/-- `common.Hash`, 32 bytes. -/
structure Hash where
  bytes : Bytes
  length_eq : bytes.length = 32

/-- `abi.Type`, as far as this package reads it: `String()` answers the
canonical string. The rest of the struct feeds the argument encoder. -/
structure AbiType where
  stringKind : String
  deriving DecidableEq, Repr

/-- `Type.String()`. -/
def AbiType.string (t : AbiType) : String := t.stringKind

/-- `abi.Argument`: a parameter's name and type. -/
structure Argument where
  name : String
  type : AbiType
  deriving DecidableEq, Repr

/-- `abi.Mccmod`: a callable, whether it is constant, and its parameters. -/
structure Mccmod where
  name : String
  const : Bool
  inputs : List Argument
  outputs : List Argument
  deriving DecidableEq, Repr

/-- `abi.Event`: an event, whether it is anonymous, and its fields. -/
structure Event where
  name : String
  anonymous : Bool
  inputs : List Argument
  deriving DecidableEq, Repr

/-- `name(type1,type2,...)`, the shape both signatures take. -/
def signature (name : String) (inputs : List Argument) : String :=
  name ++ "(" ++ ",".intercalate (inputs.map fun input => input.type.string) ++ ")"

namespace Mccmod

/-- `Mccmod.Sig()`: the method's name and input types, as the selector hashes them. -/
def sig (mccmod : Mccmod) : String := signature mccmod.name mccmod.inputs

/-- `Mccmod.String()`: the human-readable form, `function name(type name, ...)
constant returns(type name, ...)`. -/
def string (mccmod : Mccmod) : String :=
  let inputs := mccmod.inputs.map fun input => input.type.string ++ " " ++ input.name
  let outputs := mccmod.outputs.map fun output =>
    if output.name.length > 0 then output.type.string ++ " " ++ output.name
    else output.type.string
  let constant := if mccmod.const then "constant " else ""
  "function " ++ mccmod.name ++ "(" ++ ", ".intercalate inputs ++ ") " ++ constant ++
    "returns(" ++ ", ".intercalate outputs ++ ")"

/-- `Mccmod.Id()`: the selector, the first four bytes of the signature's hash. -/
def id (keccak256 : Bytes → Hash) (mccmod : Mccmod) : Bytes :=
  (keccak256 (utf8 mccmod.sig)).bytes.take 4

theorem id_length (keccak256 : Bytes → Hash) (mccmod : Mccmod) :
    (mccmod.id keccak256).length = 4 := by
  simp [id, (keccak256 _).length_eq]

end Mccmod

namespace Event

/-- Modelled from the spec: `Event.Sig()` (event.go) is not among the sources.
§4.4 builds it as a method's, from the event's name and input types. -/
def sig (event : Event) : String := signature event.name event.inputs

/-- Modelled from the spec: `Event.Id()` (event.go) is not among the sources.
§4.4: the topic is the full 32-byte hash of the signature, not truncated. -/
def id (keccak256 : Bytes → Hash) (event : Event) : Hash := keccak256 (utf8 event.sig)

end Event

end Ccmchain.Abi
