import Ccmchain.Ssh.Transport

/-!
# Keyboard-interactive prompts

An `SSH_MSG_USERAUTH_INFO_REQUEST` carries `num-prompts` pairs of a prompt
string and an echo flag (RFC 4256 §3.2), which
`KeyboardInteractiveChallenge.auth` unpacks by hand from the bytes after the
message's fixed fields. The count and the bytes are the server's: nothing about
them can be assumed.

Indexing and slicing are Go's: out of range they panic rather than return. The
model makes them checked operations that answer `indexOutOfRange`, so a parser
that never reads past its input is one that never answers it.
-/

namespace Ccmchain.Ssh

/-! ## Go's slice operations -/

/-- `b[i]`. -/
def index (b : Bytes) (i : Nat) : Except SshError UInt8 :=
  match b[i]? with
  | some x => .ok x
  | none => .error .indexOutOfRange

/-- `b[i:]`. -/
def sliceFrom (b : Bytes) (i : Nat) : Except SshError Bytes :=
  if i ≤ b.length then .ok (b.drop i) else .error .indexOutOfRange

/-- `b[:j]`. -/
def sliceTo (b : Bytes) (j : Nat) : Except SshError Bytes :=
  if j ≤ b.length then .ok (b.take j) else .error .indexOutOfRange

/-- The value of four bytes, most significant first. -/
def bigEndian (b0 b1 b2 b3 : UInt8) : Nat :=
  ((b0.toNat * 256 + b1.toNat) * 256 + b2.toNat) * 256 + b3.toNat

/-- `binary.BigEndian.Uint32(b)`, which reads `b[3]` first and so panics on
fewer than four bytes. The value is below `2 ^ 32`. -/
def bigEndianUint32 : Bytes → Except SshError Nat
  | b0 :: b1 :: b2 :: b3 :: _ => .ok (bigEndian b0 b1 b2 b3)
  | _ => .error .indexOutOfRange

/-- Modelled from the spec: `parseString` (messages.go) is not among the
sources. An SSH string as RFC 4251 §5 lays it out: a 4-byte big-endian length,
then that many bytes; `ok` is false when the input is too short for either. -/
def parseString (input : Bytes) : Except SshError (Option (Bytes × Bytes)) := do
  if input.length < 4 then return none
  let length ← bigEndianUint32 input
  let rest ← sliceFrom input 4
  if rest.length < length then return none
  return some (← sliceTo rest length, ← sliceFrom rest length)

/-- The loop `for i := 0; i < int(msg.NumPrompts); i++` of
`KeyboardInteractiveChallenge.auth` with `n` rounds to go, then its check that
nothing follows the last pair. The prompts and echo flags come back in order. -/
def parsePrompts : Nat → Bytes → Except SshError (List Bytes × List Bool)
  | 0, rest => if rest.length ≠ 0 then .error .extraData else .ok ([], [])
  | n + 1, rest => do
      match ← parseString rest with
      | none => throw .promptFormat
      | some (prompt, r) =>
          if r.length = 0 then throw .promptFormat
          let echo ← index r 0
          let rest ← sliceFrom r 1
          let (prompts, echos) ← parsePrompts n rest
          return (prompt :: prompts, (echo != 0) :: echos)

/-! ## The wire format the parser is meant to accept -/

/-- `n` as four bytes, most significant first (`n < 2 ^ 32`). -/
def uint32be (n : Nat) : Bytes :=
  [UInt8.ofNat (n / 16777216 % 256), UInt8.ofNat (n / 65536 % 256), UInt8.ofNat (n / 256 % 256),
    UInt8.ofNat (n % 256)]

/-- One pair as RFC 4256 lays it out: the prompt as an SSH string, then the
echo byte. -/
def encodePrompt (prompt : Bytes) (echo : UInt8) : Bytes :=
  uint32be prompt.length ++ prompt ++ [echo]

/-- The bytes of a list of pairs. -/
def encodePrompts (pairs : List (Bytes × UInt8)) : Bytes :=
  pairs.flatMap fun pair => encodePrompt pair.1 pair.2

@[simp] theorem encodePrompts_nil : encodePrompts [] = [] := rfl

@[simp] theorem encodePrompts_cons (pair : Bytes × UInt8) (pairs : List (Bytes × UInt8)) :
    encodePrompts (pair :: pairs) = encodePrompt pair.1 pair.2 ++ encodePrompts pairs := rfl

end Ccmchain.Ssh
