import Mathlib.Data.List.Basic

/-!
# The SSH client's connection

The second half of internal.h is the client side of RFC 4252 user
authentication (client_auth.go of the `ssh` package). This file models what the
authentication code sees of its connection, and the loops of it that read
until the server has answered.

The server is whatever sends the packets the client reads. The model fixes them
in advance as a list, the inbox: the client is deterministic, so against any
server, one that answers what it reads included, a run reads some list of
packets and behaves on that list as it did against the server. A statement over
every inbox is a statement over every server.

Every function of the client takes the inbox and returns a `Run`: its Go
results, the packets left unread, and what it did on the wire, oldest first.
Reading from an empty inbox is the transport's read error. A write can fail
too: whether the transport refuses it is `Env.writeFails`, asked of the message
and of the packets still unread. The unread packets say how far the run has
got, since the methods of the package read between any two writes, so over
every `Env` any write of a run can be the one that fails. A refused write is
still the client's event: it is recorded, and the function returns the error.

`Marshal`, `Unmarshal` and the message structs (messages.go) and the transport
(transport.go, handshake.go) are not among the sources. A write is recorded as
the message it marshals (`Msg`); the decoders of the server's messages are the
fields of `Env`, each able to fail as `Unmarshal` does. The message numbers are
those of RFC 4252 §6 and RFC 4256 §3.2.
-/

namespace Ccmchain.Ssh

abbrev Bytes := List UInt8

/-- A packet as `readPacket` returns it. The transport refuses a zero-length
packet, so the message number `packet[0]` is always there. -/
structure Packet where
  msgType : UInt8
  payload : Bytes
  deriving DecidableEq, Repr

/-! ## Message numbers and service names -/

def msgUserAuthFailure : UInt8 := 51
def msgUserAuthSuccess : UInt8 := 52
def msgUserAuthBanner : UInt8 := 53
def msgUserAuthPubKeyOk : UInt8 := 60
def msgUserAuthInfoRequest : UInt8 := 60
def msgUserAuthInfoResponse : UInt8 := 61

def serviceUserAuth : String := "ssh-userauth"
def serviceSSH : String := "ssh-connection"

/-! ## Results and errors -/

/-- The errors of client_auth.go, and those it passes on. -/
inductive SshError
  /-- the transport's read error -/
  | readFailed
  /-- the transport's write error -/
  | writeFailed
  /-- an error of `Unmarshal` -/
  | unmarshal (msg : String)
  /-- an error a callback returns: the banner callback, a password, signer or
  keyboard-interactive callback, or `Signer.Sign` -/
  | callback (msg : String)
  /-- `unexpectedMessageError(expected, got)` -/
  | unexpectedMessage (expected got : UInt8)
  /-- `ssh: prompt format error` -/
  | promptFormat
  /-- `ssh: extra data following keyboard-interactive pairs` -/
  | extraData
  /-- `ssh: not enough answers from keyboard-interactive callback` -/
  | notEnoughAnswers
  /-- `ssh: unable to authenticate, attempted mccmods %v, no supported mccmods remain` -/
  | noSupportedMccmods (attempted : List String)
  /-- a Go runtime panic: an index or a slice out of range -/
  | indexOutOfRange
  /-- Not a Go error: `retryableAuthMccmod` with `maxTries ≤ 0` ran out of
  fuel where Go would still be retrying. -/
  | diverged
  deriving DecidableEq, Repr

/-- `authResult`. -/
inductive AuthResult
  | authFailure
  | authPartialSuccess
  | authSuccess
  deriving DecidableEq, Repr

/-- The `(authResult, []string, error)` an authentication attempt returns. A
nil method list is `none`. -/
structure AuthReply where
  ok : AuthResult
  mccmods : Option (List String)
  err : Option SshError
  deriving DecidableEq, Repr

/-- `return authFailure, nil, err`, the answer of every error path. -/
def AuthReply.fail (e : SshError) : AuthReply := ⟨.authFailure, none, some e⟩

@[simp] theorem AuthReply.fail_ok (e : SshError) : (AuthReply.fail e).ok = .authFailure := rfl

@[simp] theorem AuthReply.fail_mccmods (e : SshError) : (AuthReply.fail e).mccmods = none := rfl

@[simp] theorem AuthReply.fail_err (e : SshError) : (AuthReply.fail e).err = some e := rfl

/-! ## What the client writes -/

/-- `userAuthRequestMsg`, the fields every request starts with. -/
structure UserAuthRequest where
  user : String
  service : String
  mccmod : String
  deriving DecidableEq, Repr

/-- A public key as the client uses it: `Type()` and `Marshal()`. -/
structure PublicKey where
  keyType : String
  marshal : Bytes
  deriving DecidableEq, Repr

/-- A message the client writes. -/
inductive Msg
  /-- `serviceRequestMsg` -/
  | serviceRequest (service : String)
  /-- `userAuthRequestMsg`, as the none method sends it -/
  | userAuthRequest (req : UserAuthRequest)
  /-- `passwordAuthMsg` -/
  | password (req : UserAuthRequest) (reply : Bool) (password : String)
  /-- `publickeyAuthMsg` -/
  | publickey (req : UserAuthRequest) (hasSig : Bool) (algoname : String) (pubKey sig : Bytes)
  /-- the `initiateMsg` of keyboard-interactive -/
  | keyboardInteractive (req : UserAuthRequest) (language submccmods : String)
  /-- a packet serialized by hand -/
  | raw (packet : Bytes)
  deriving DecidableEq, Repr

/-- One thing that happened on the wire. -/
inductive Ev
  | send (msg : Msg)
  | recv (packet : Packet)
  deriving DecidableEq, Repr

/-- An event that is a read. -/
def Ev.IsRecv : Ev → Prop
  | .recv _ => True
  | .send _ => False

@[simp] theorem Ev.isRecv_recv (p : Packet) : (Ev.recv p).IsRecv := trivial

@[simp] theorem Ev.not_isRecv_send (m : Msg) : ¬ (Ev.send m).IsRecv := id

/-! ## Runs -/

/-- A function of the client run on an inbox: what it returns, the packets it
left unread, and its events. -/
structure Run (α : Type) where
  val : α
  rest : List Packet
  events : List Ev

/-- `r`, after the events `evs`. -/
def Run.after {α : Type} (evs : List Ev) (r : Run α) : Run α := { r with events := evs ++ r.events }

@[simp] theorem Run.after_val {α : Type} (evs : List Ev) (r : Run α) : (r.after evs).val = r.val :=
  rfl

@[simp] theorem Run.after_rest {α : Type} (evs : List Ev) (r : Run α) :
    (r.after evs).rest = r.rest := rfl

@[simp] theorem Run.after_events {α : Type} (evs : List Ev) (r : Run α) :
    (r.after evs).events = evs ++ r.events := rfl

/-! ## The decoders and callbacks the sources do not have -/

/-- `userAuthFailureMsg`. -/
structure FailureMsg where
  mccmods : Option (List String)
  partialSuccess : Bool

/-- `userAuthPubKeyOkMsg`. -/
structure PubKeyOkMsg where
  algo : String
  pubKey : Bytes

/-- `userAuthInfoRequestMsg`, without the language tag nothing reads. -/
structure InfoRequestMsg where
  user : String
  instruction : String
  numPrompts : UInt32
  prompts : Bytes

/-- What the authentication code calls and the sources do not define: the
decoders of `Unmarshal`, the transport's banner callback (none when the
connection is not a `handshakeTransport` or has no callback), the session id,
`buildDataSignedForAuth`, whether the transport refuses a write, and the order
in which Go's runtime ranges over the keys of a map, given the keys in the order
they were set. Go fixes no such order, so `mapRange` is any permutation. -/
structure Env where
  unmarshalServiceAccept : Packet → Option SshError
  unmarshalBanner : Packet → Except SshError String
  unmarshalFailure : Packet → Except SshError FailureMsg
  unmarshalPubKeyOk : Packet → Except SshError PubKeyOkMsg
  unmarshalInfoRequest : Packet → Except SshError InfoRequestMsg
  bannerCallback : Option (String → Option SshError)
  sessionID : Bytes
  buildDataSignedForAuth : Bytes → UserAuthRequest → String → Bytes → Bytes
  writeFails : Msg → List Packet → Bool
  mapRange : List String → List String
  mapRange_perm : ∀ keys, (mapRange keys).Perm keys

/-! ## Writing -/

section Write

variable (env : Env) {α : Type} (msg : Msg) (fail : SshError → α) (k : List Packet → Run α)
  (inbox : List Packet)

/-- `if err := c.writePacket(Marshal(&msg)); err != nil { return fail(err) }`,
then `k` on the same inbox. -/
def Env.write : Run α :=
  if env.writeFails msg inbox then ⟨fail .writeFailed, inbox, [.send msg]⟩
  else (k inbox).after [.send msg]

theorem Env.write_refused (h : env.writeFails msg inbox = true) :
    env.write msg fail k inbox = ⟨fail .writeFailed, inbox, [.send msg]⟩ := by
  rw [Env.write, if_pos h]

theorem Env.write_taken (h : env.writeFails msg inbox = false) :
    env.write msg fail k inbox = (k inbox).after [.send msg] := by
  rw [Env.write, if_neg (by simp [h])]

theorem Env.write_cases :
    env.write msg fail k inbox = ⟨fail .writeFailed, inbox, [.send msg]⟩ ∨
      env.write msg fail k inbox = (k inbox).after [.send msg] := by
  cases h : env.writeFails msg inbox
  · exact .inr (env.write_taken msg fail k inbox h)
  · exact .inl (env.write_refused msg fail k inbox h)

end Write

/-! ## Read loops -/

/-- What one round of a read loop does with the packet it read. -/
inductive Step (α : Type)
  /-- return `a` -/
  | done (a : α)
  /-- read the next packet -/
  | next
  /-- write `msg`, then read the next packet -/
  | reply (msg : Msg)

/-- `for { packet, err := c.readPacket(); if err != nil { return fail(err) }; ... }`,
the body given as what it does with each packet; a write that fails returns
`fail` of its error too. Every round reads a packet, so the loop recurses on the
inbox. -/
def readLoop {α : Type} (env : Env) (fail : SshError → α) (body : Packet → Step α) :
    List Packet → Run α
  | [] => ⟨fail .readFailed, [], []⟩
  | p :: ps =>
      match body p with
      | .done a => ⟨a, ps, [.recv p]⟩
      | .next => (readLoop env fail body ps).after [.recv p]
      | .reply msg =>
          if env.writeFails msg ps then ⟨fail .writeFailed, ps, [.recv p, .send msg]⟩
          else (readLoop env fail body ps).after [.recv p, .send msg]

section ReadLoop

variable {α : Type} (env : Env) (fail : SshError → α) (body : Packet → Step α)

theorem readLoop_done {p : Packet} {a : α} (h : body p = .done a) (ps : List Packet) :
    readLoop env fail body (p :: ps) = ⟨a, ps, [.recv p]⟩ := by
  simp [readLoop, h]

theorem readLoop_next {p : Packet} (h : body p = .next) (ps : List Packet) :
    readLoop env fail body (p :: ps) = (readLoop env fail body ps).after [.recv p] := by
  simp [readLoop, h]

theorem readLoop_reply {p : Packet} {msg : Msg} (h : body p = .reply msg) (ps : List Packet) :
    readLoop env fail body (p :: ps) =
      (env.write msg fail (readLoop env fail body) ps).after [.recv p] := by
  simp only [readLoop, h, Env.write]
  split <;> rfl

/-- A loop whose rounds never write reads some packets that let it go on, then
either runs out of packets or returns at one that ends it. -/
theorem readLoop_cases (hquiet : ∀ p msg, body p ≠ .reply msg) (inbox : List Packet) :
    (readLoop env fail body inbox = ⟨fail .readFailed, [], inbox.map .recv⟩ ∧
        ∀ p ∈ inbox, body p = .next) ∨
      ∃ pre p post a, inbox = pre ++ p :: post ∧ (∀ q ∈ pre, body q = .next) ∧
        body p = .done a ∧ readLoop env fail body inbox = ⟨a, post, (pre ++ [p]).map .recv⟩ := by
  induction inbox with
  | nil => exact .inl ⟨rfl, by simp⟩
  | cons p ps ih =>
      cases hp : body p with
      | done a => exact .inr ⟨[], p, ps, a, rfl, by simp, hp, readLoop_done env fail body hp ps⟩
      | reply msg => exact absurd hp (hquiet p msg)
      | next =>
          rw [readLoop_next env fail body hp]
          rcases ih with ⟨hrun, hall⟩ | ⟨pre, q, post, a, rfl, hpre, hq, hrun⟩
          · exact .inl ⟨by simp [hrun, Run.after], by simpa [hp] using hall⟩
          · refine .inr ⟨p :: pre, q, post, a, rfl, by simpa [hp] using hpre, hq, ?_⟩
            simp [hrun, Run.after]

/-- What a loop whose rounds never write leaves on the wire is reads only. -/
theorem readLoop_events_isRecv (hquiet : ∀ p msg, body p ≠ .reply msg) (inbox : List Packet) :
    ∀ e ∈ (readLoop env fail body inbox).events, e.IsRecv := by
  have hreads : ∀ l : List Packet, ∀ e ∈ l.map Ev.recv, e.IsRecv := fun l e he => by
    obtain ⟨q, -, rfl⟩ := List.mem_map.mp he
    trivial
  rcases readLoop_cases env fail body hquiet inbox with ⟨hrun, -⟩ | ⟨pre, p, post, a, -, -, -, hrun⟩ <;>
    exact hrun ▸ hreads _

/-- A value other than the read error is returned at a packet whose round
returns it, which is the last packet read. -/
theorem readLoop_returns (hquiet : ∀ p msg, body p ≠ .reply msg) (inbox : List Packet)
    (hne : (readLoop env fail body inbox).val ≠ fail .readFailed) :
    ∃ pre p, (∀ q ∈ pre, body q = .next) ∧ body p = .done (readLoop env fail body inbox).val ∧
      (readLoop env fail body inbox).events = (pre ++ [p]).map .recv := by
  rcases readLoop_cases env fail body hquiet inbox with
    ⟨hrun, -⟩ | ⟨pre, p, post, a, -, hpre, hp, hrun⟩
  · exact absurd (by rw [hrun]) hne
  · exact ⟨pre, p, hpre, by rw [hrun, hp], by rw [hrun]⟩

/-- The events of a read loop are its rounds, in order: each packet read, then
what its round wrote, whether or not the transport took it. -/
theorem readLoop_rounds (inbox : List Packet) :
    ∃ rounds : List (Packet × List Msg),
      (readLoop env fail body inbox).events = rounds.flatMap (fun r => .recv r.1 :: r.2.map .send) ∧
        ∀ r ∈ rounds, (body r.1 = .next ∧ r.2 = []) ∨ (∃ msg, body r.1 = .reply msg ∧ r.2 = [msg]) ∨
          (r.2 = [] ∧ ∃ a, body r.1 = .done a) := by
  induction inbox with
  | nil => exact ⟨[], rfl, by simp⟩
  | cons p ps ih =>
      obtain ⟨rounds, hev, hall⟩ := ih
      cases hp : body p with
      | done a => exact ⟨[(p, [])], by simp [readLoop_done env fail body hp], by simp [hp]⟩
      | next =>
          refine ⟨(p, []) :: rounds, by simp [readLoop_next env fail body hp, hev], ?_⟩
          simpa [hp] using hall
      | reply msg =>
          rw [readLoop_reply env fail body hp]
          rcases Env.write_cases env msg fail (readLoop env fail body) ps with hw | hw <;> rw [hw]
          · exact ⟨[(p, [msg])], by simp, by simp [hp]⟩
          · refine ⟨(p, [msg]) :: rounds, by simp [hev], ?_⟩
            simpa [hp] using hall

/-- Whatever the rounds write, a value the loop does not return for a read or
write error is returned at the packet read last, whose round returns it. -/
theorem readLoop_last (inbox : List Packet) (hne : ∀ e, (readLoop env fail body inbox).val ≠ fail e) :
    ∃ pre p, (readLoop env fail body inbox).events = pre ++ [.recv p] ∧
      body p = .done (readLoop env fail body inbox).val := by
  induction inbox with
  | nil => exact absurd rfl (hne .readFailed)
  | cons p ps ih =>
      have hgoes : ∀ evs, readLoop env fail body (p :: ps) = (readLoop env fail body ps).after evs →
          ∃ pre q, (readLoop env fail body (p :: ps)).events = pre ++ [.recv q] ∧
            body q = .done (readLoop env fail body (p :: ps)).val := by
        intro evs hrun
        rw [hrun] at hne ⊢
        obtain ⟨pre, q, hev, hq⟩ := ih hne
        exact ⟨evs ++ pre, q, by simp [hev], hq⟩
      cases hp : body p with
      | done a => exact ⟨[], p, by simp [readLoop_done env fail body hp],
          by rw [readLoop_done env fail body hp]; exact hp⟩
      | next => exact hgoes _ (readLoop_next env fail body hp ps)
      | reply msg =>
          have hrun := readLoop_reply env fail body hp ps
          rcases Env.write_cases env msg fail (readLoop env fail body) ps with hw | hw <;>
            rw [hw] at hrun
          · exact absurd (by rw [hrun]; rfl) (hne .writeFailed)
          · exact hgoes [.recv p, .send msg] (by rw [hrun]; simp [Run.after])

/-- Packets whose rounds go on without writing, read before an inbox, change
nothing the loop does on it but add their reads. -/
theorem readLoop_skip (pre inbox : List Packet) (hpre : ∀ p ∈ pre, body p = .next) :
    readLoop env fail body (pre ++ inbox) = (readLoop env fail body inbox).after (pre.map .recv) := by
  induction pre with
  | nil => simp [Run.after]
  | cons p pre ih =>
      rw [List.cons_append, readLoop_next env fail body (hpre p (List.mem_cons_self _ _)),
        ih fun q hq => hpre q (List.mem_cons_of_mem _ hq)]
      simp [Run.after]

/-- A message a read loop writes was written by a round that replied with it. -/
theorem readLoop_sends (inbox : List Packet) {m : Msg}
    (hm : .send m ∈ (readLoop env fail body inbox).events) : ∃ p, body p = .reply m := by
  obtain ⟨rounds, hev, hall⟩ := readLoop_rounds env fail body inbox
  rw [hev, List.mem_flatMap] at hm
  obtain ⟨r, hr, hm⟩ := hm
  rcases List.mem_cons.mp hm with h | h
  · cases h
  · obtain ⟨m', hm', ⟨⟩⟩ := List.mem_map.mp h
    rcases hall r hr with ⟨-, hnil⟩ | ⟨msg, hreply, hone⟩ | ⟨hnil, -⟩
    · rw [hnil] at hm'
      cases hm'
    · rw [hone, List.mem_singleton] at hm'
      exact ⟨r.1, hm' ▸ hreply⟩
    · rw [hnil] at hm'
      cases hm'

end ReadLoop

/-! ## Reading the server's answers -/

variable (env : Env)

/-- `handleBannerResponse`: decode the banner and hand it to the callback. -/
def handleBannerResponse (packet : Packet) : Option SshError :=
  match env.unmarshalBanner packet with
  | .error e => some e
  | .ok message =>
      match env.bannerCallback with
      | some callback => callback message
      | none => none

/-- The `msgUserAuthFailure` case that `handleAuthResponse` and
keyboard-interactive share: decode, then failure or partial success with the
methods the server lists. -/
def failureReply (packet : Packet) : AuthReply :=
  match env.unmarshalFailure packet with
  | .error e => .fail e
  | .ok msg =>
      if msg.partialSuccess then ⟨.authPartialSuccess, msg.mccmods, none⟩
      else ⟨.authFailure, msg.mccmods, none⟩

/-- The switch of `handleAuthResponse` on one packet. -/
def authResponseStep (packet : Packet) : Step AuthReply :=
  if packet.msgType = msgUserAuthBanner then
    match handleBannerResponse env packet with
    | some e => .done (.fail e)
    | none => .next
  else if packet.msgType = msgUserAuthFailure then .done (failureReply env packet)
  else if packet.msgType = msgUserAuthSuccess then .done ⟨.authSuccess, none, none⟩
  else .done (.fail (.unexpectedMessage msgUserAuthSuccess packet.msgType))

/-- `handleAuthResponse`: whether the request before succeeded, and the
methods the server lists to go on with. -/
def handleAuthResponse : List Packet → Run AuthReply :=
  readLoop env AuthReply.fail (authResponseStep env)

/-- The switch of `confirmKeyAck` on one packet. -/
def keyAckStep (key : PublicKey) (packet : Packet) : Step (Except SshError Bool) :=
  if packet.msgType = msgUserAuthBanner then
    match handleBannerResponse env packet with
    | some e => .done (.error e)
    | none => .next
  else if packet.msgType = msgUserAuthPubKeyOk then
    match env.unmarshalPubKeyOk packet with
    | .error e => .done (.error e)
    | .ok msg =>
        if msg.algo ≠ key.keyType ∨ msg.pubKey ≠ key.marshal then .done (.ok false)
        else .done (.ok true)
  else if packet.msgType = msgUserAuthFailure then .done (.ok false)
  else .done (.error (.unexpectedMessage msgUserAuthSuccess packet.msgType))

/-- `confirmKeyAck`: whether the server answered the query for `key` with a
PK_OK for this very key. -/
def confirmKeyAck (key : PublicKey) : List Packet → Run (Except SshError Bool) :=
  readLoop env .error (keyAckStep env key)

/-- The unsigned request `validateKey` writes for `key`. -/
def validateKeyMsg (user : String) (key : PublicKey) : Msg :=
  .publickey ⟨user, serviceSSH, "publickey"⟩ false key.keyType key.marshal []

/-- `validateKey`: ask, unsigned, whether the server would take `key`. -/
def validateKey (key : PublicKey) (user : String) : List Packet → Run (Except SshError Bool) :=
  env.write (validateKeyMsg user key) .error (confirmKeyAck env key)

/-- `validateKey` answers the write error when the transport refuses its
query, and what `confirmKeyAck` reads otherwise. -/
theorem validateKey_cases (key : PublicKey) (user : String) (inbox : List Packet) :
    validateKey env key user inbox = ⟨.error .writeFailed, inbox, [.send (validateKeyMsg user key)]⟩ ∨
      validateKey env key user inbox =
        (confirmKeyAck env key inbox).after [.send (validateKeyMsg user key)] :=
  env.write_cases _ _ _ _

theorem authResponseStep_quiet (p : Packet) (msg : Msg) : authResponseStep env p ≠ .reply msg := by
  unfold authResponseStep
  split_ifs
  · split <;> nofun
  all_goals nofun

theorem keyAckStep_quiet (key : PublicKey) (p : Packet) (msg : Msg) :
    keyAckStep env key p ≠ .reply msg := by
  unfold keyAckStep
  split_ifs
  · split <;> nofun
  · split
    · nofun
    · split_ifs <;> nofun
  all_goals nofun

/-- `validateKey` writes its query, then only reads. -/
theorem validateKey_events (key : PublicKey) (user : String) (inbox : List Packet) :
    ∃ reads, (∀ e ∈ reads, e.IsRecv) ∧
      (validateKey env key user inbox).events = .send (validateKeyMsg user key) :: reads := by
  rcases validateKey_cases env key user inbox with h | h <;> rw [h]
  · exact ⟨[], by simp, rfl⟩
  · exact ⟨_, readLoop_events_isRecv env _ _ (keyAckStep_quiet env key) inbox, rfl⟩

end Ccmchain.Ssh
