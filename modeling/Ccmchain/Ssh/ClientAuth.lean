import Ccmchain.Ssh.Prompts

/-!
# Authentication methods and the client's loop

client_auth.go: the `AuthMccmod` interface and its implementations (none,
password, public keys, keyboard-interactive, and the retrying decorator), and
`clientAuthenticate`, which tries them in turn.

An `AuthMccmod` is a record of its name and its `auth`, a function of the
session id, the user and the inbox. `clientAuthenticate` takes the
configuration's methods as such records, so what is proved of it holds for
every method, those defined here and any other, and so for every sequence of
replies a server can cause.

The callbacks a user hands the client (password, signers, keyboard-interactive
challenge) are values or functions of their arguments here. A Go callback is a
closure and may answer differently each time it is called; a method built here
holds one answer, so two of its calls differ only through what they read, and a
call that reads nothing repeats the one before it. `io.Reader` randomness is not
modelled, so `Signer.Sign` is a function of the data it signs.

Two loops of the file have no bound in Go: the loop of `clientAuthenticate`,
which tries a method again for as long as the server answers it with partial
success, and `retryableAuthMccmod` with `maxTries ≤ 0`. Both run on fuel here.
The decorator that runs out of it answers `diverged`, an error Go does not
have; the loop that runs out of it has no result.
-/

namespace Ccmchain.Ssh

/-- `AuthMccmod`: an RFC 4252 authentication method. -/
structure AuthMccmod where
  /-- `mccmod()`, the RFC 4252 name -/
  mccmod : String
  /-- `auth(session, user, c, rand)` -/
  auth : Bytes → String → List Packet → Run AuthReply

/-- `containsMccmod`. -/
def containsMccmod (mccmods : List String) (mccmod : String) : Bool :=
  mccmods.any fun m => m == mccmod

/-- `marshalString`: a string with its 4-byte length in front. -/
def marshalString (s : Bytes) : Bytes := uint32be s.length ++ s

/-- `Signer`: a public key, and `Sign` with its signature already marshalled. -/
structure Signer where
  publicKey : PublicKey
  sign : Bytes → Except SshError Bytes

/-- `KeyboardInteractiveChallenge`: the answers to the prompts, from the user
and instruction the server sent, the prompts and their echo flags. -/
abbrev KeyboardInteractiveChallenge :=
  String → String → List Bytes → List Bool → Except SshError (List String)

/-- The signed request `publicKeyCallback.auth` writes for `key`. -/
def signedRequestMsg (user : String) (key : PublicKey) (sig : Bytes) : Msg :=
  .publickey ⟨user, serviceSSH, "publickey"⟩ true key.keyType key.marshal sig

/-- The answers packet keyboard-interactive serializes by hand: the message
number, `uint32(len(answers))`, then each answer as a string. -/
def infoResponse (answers : List String) : Bytes :=
  msgUserAuthInfoResponse :: uint32be answers.length ++
    answers.flatMap fun a => marshalString a.toUTF8.data.toList

section Methods

variable (env : Env)

/-- `noneAuth`, RFC 4252 §5.2. -/
def noneAuth : AuthMccmod where
  mccmod := "none"
  auth _ user :=
    env.write (.userAuthRequest ⟨user, serviceSSH, "none"⟩) AuthReply.fail (handleAuthResponse env)

/-- `passwordCallback`, with what the callback answers. -/
def passwordCallback (cb : Except SshError String) : AuthMccmod where
  mccmod := "password"
  auth _ user inbox :=
    match cb with
    | .error e => ⟨.fail e, inbox, []⟩
    | .ok pw =>
        env.write (.password ⟨user, serviceSSH, "password"⟩ false pw) AuthReply.fail
          (handleAuthResponse env) inbox

/-- `Password(secret)`. -/
def password (secret : String) : AuthMccmod := passwordCallback env (.ok secret)

/-- The loop of `publicKeyCallback.auth` over the signers left, with the
method list of the last signed request the server answered. -/
def publicKeyLoop (session : Bytes) (user : String) (mccmods : Option (List String)) :
    List Signer → List Packet → Run AuthReply
  | [], inbox => ⟨⟨.authFailure, mccmods, none⟩, inbox, []⟩
  | signer :: signers, inbox =>
      let v := validateKey env signer.publicKey user inbox
      match v.val with
      | .error e => ⟨.fail e, v.rest, v.events⟩
      | .ok false => (publicKeyLoop session user mccmods signers v.rest).after v.events
      | .ok true =>
          match signer.sign (env.buildDataSignedForAuth session ⟨user, serviceSSH, "publickey"⟩
              signer.publicKey.keyType signer.publicKey.marshal) with
          | .error e => ⟨.fail e, v.rest, v.events⟩
          | .ok sign =>
              let r := (env.write (signedRequestMsg user signer.publicKey (marshalString sign))
                AuthReply.fail (handleAuthResponse env) v.rest).after v.events
              match r.val.err with
              | some e => ⟨.fail e, r.rest, r.events⟩
              | none =>
                  if r.val.ok = .authSuccess ∨
                      containsMccmod (r.val.mccmods.getD []) "publickey" = false then r
                  else (publicKeyLoop session user r.val.mccmods signers r.rest).after r.events

/-- `publicKeyCallback`, with what the callback answers. -/
def publicKeyCallback (cb : Except SshError (List Signer)) : AuthMccmod where
  mccmod := "publickey"
  auth session user inbox :=
    match cb with
    | .error e => ⟨.fail e, inbox, []⟩
    | .ok signers => publicKeyLoop env session user none signers inbox

/-- `PublicKeys(signers...)`. -/
def publicKeys (signers : List Signer) : AuthMccmod := publicKeyCallback env (.ok signers)

/-- The switch of `KeyboardInteractiveChallenge.auth` on one packet: an info
request is parsed and answered, and the loop reads on. `int(msg.NumPrompts)` is
read as Go's 64-bit `int`, where every `uint32` count keeps its value; on a
32-bit target a count from `2 ^ 31` on would be negative and run no rounds. -/
def keyboardInteractiveStep (cb : KeyboardInteractiveChallenge) (packet : Packet) :
    Step AuthReply :=
  if packet.msgType = msgUserAuthBanner then
    match handleBannerResponse env packet with
    | some e => .done (.fail e)
    | none => .next
  else if packet.msgType = msgUserAuthInfoRequest then
    match env.unmarshalInfoRequest packet with
    | .error e => .done (.fail e)
    | .ok msg =>
        match parsePrompts msg.numPrompts.toNat msg.prompts with
        | .error e => .done (.fail e)
        | .ok (prompts, echos) =>
            match cb msg.user msg.instruction prompts echos with
            | .error e => .done (.fail e)
            | .ok answers =>
                if answers.length ≠ prompts.length then .done (.fail .notEnoughAnswers)
                else .reply (.raw (infoResponse answers))
  else if packet.msgType = msgUserAuthFailure then .done (failureReply env packet)
  else if packet.msgType = msgUserAuthSuccess then .done ⟨.authSuccess, none, none⟩
  else .done (.fail (.unexpectedMessage msgUserAuthInfoRequest packet.msgType))

/-- `KeyboardInteractive(challenge)`. -/
def keyboardInteractive (cb : KeyboardInteractiveChallenge) : AuthMccmod where
  mccmod := "keyboard-interactive"
  auth _ user :=
    env.write (.keyboardInteractive ⟨user, serviceSSH, "keyboard-interactive"⟩ "" "") AuthReply.fail
      (readLoop env AuthReply.fail (keyboardInteractiveStep env cb))

end Methods

/-! ## Retrying a method -/

/-- The loop of `retryableAuthMccmod.auth` at round `i`, with the results the
round before left in Go's named results. `fuel` bounds the rounds; the loop's
own condition is checked first, so a bounded loop never needs more than
`maxTries` of it. -/
def retryLoop (a : AuthMccmod) (maxTries : Int) (session : Bytes) (user : String) :
    Nat → Nat → AuthReply → List Packet → Run AuthReply
  | fuel, i, last, inbox =>
      if maxTries ≤ 0 ∨ (i : Int) < maxTries then
        match fuel with
        | 0 => ⟨⟨.authFailure, none, some .diverged⟩, inbox, []⟩
        | fuel + 1 =>
            let r := a.auth session user inbox
            if r.val.ok ≠ .authFailure ∨ r.val.err.isSome then r
            else (retryLoop a maxTries session user fuel (i + 1) r.val r.rest).after r.events
      else ⟨last, inbox, []⟩

/-- `RetryableAuthMccmod(auth, maxTries)`, its loop run on `fuel` rounds. -/
def retryableAuthMccmod (a : AuthMccmod) (maxTries : Int) (fuel : Nat) : AuthMccmod where
  mccmod := a.mccmod
  auth session user inbox := retryLoop a maxTries session user fuel 0 ⟨.authFailure, none, none⟩ inbox

/-! ## The client's loop -/

/-- `ClientConfig`, the fields authentication reads. -/
structure ClientConfig where
  user : String
  auth : List AuthMccmod

/-- `tried[m] = true`, on the keys of `tried` in the order they were set. The
order is the model's: what Go lets the code see of it goes through `keys`. -/
def setTried (tried : List String) (m : String) : List String :=
  if m ∈ tried then tried else tried ++ [m]

/-- The `findNext` loop: the first method of the configuration, in order,
whose name is not in `tried` and is among `mccmods`. -/
def findNext (tried mccmods : List String) : List AuthMccmod → Option AuthMccmod
  | [] => none
  | a :: rest =>
      if a.mccmod ∈ tried then findNext tried mccmods rest
      else if containsMccmod mccmods a.mccmod then some a
      else findNext tried mccmods rest

/-- The variables the loop of `clientAuthenticate` carries from one attempt to
the next: the method to try, `tried`, and `lastMccmods`. -/
structure AuthLoop where
  auth : AuthMccmod
  tried : List String
  lastMccmods : Option (List String)

/-- `keys(tried)`: the keys of `tried` in the order a range over the map
visits them. -/
def keys (env : Env) (tried : List String) : List String := env.mapRange tried

/-- What the loop does once `tried` and `lastMccmods` are updated: the
`findNext` search, and the loop's exit with its error when it finds nothing. -/
def nextAttempt (env : Env) (config : ClientConfig) (tried : List String)
    (mccmods : Option (List String)) : Option SshError ⊕ AuthLoop :=
  match findNext tried (mccmods.getD []) config.auth with
  | some a => .inr ⟨a, tried, mccmods⟩
  | none => .inl (some (.noSupportedMccmods (keys env tried)))

/-- What the loop does with the reply of an attempt: return its error (`none`
on success), or go on to the next method. -/
def afterAttempt (env : Env) (config : ClientConfig) (st : AuthLoop) (reply : AuthReply) :
    Option SshError ⊕ AuthLoop :=
  match reply.err with
  | some e => .inl (some e)
  | none =>
      if reply.ok = .authSuccess then .inl none
      else
        nextAttempt env config
          (if reply.ok = .authFailure then setTried st.tried st.auth.mccmod else st.tried)
          (if reply.mccmods = none then st.lastMccmods else reply.mccmods)

/-- What `clientAuthenticate` returns, and the attempts its loop made, oldest
first. The attempts are not a Go value: they are kept so that the loop's
choices can be stated. -/
structure AuthOutcome where
  /-- the error returned, `none` standing for nil; itself `none` when the loop
  was still going as its fuel ran out -/
  result : Option (Option SshError)
  attempts : List (AuthMccmod × AuthReply)

/-- The loop of `clientAuthenticate` from state `st`, on `fuel` attempts, on
the session id the transport gives. -/
def authLoop (env : Env) (config : ClientConfig) : Nat → AuthLoop → List Packet → Run AuthOutcome
  | 0, _, inbox => ⟨⟨none, []⟩, inbox, []⟩
  | fuel + 1, st, inbox =>
      let r := st.auth.auth env.sessionID config.user inbox
      match afterAttempt env config st r.val with
      | .inl err => ⟨⟨some err, [(st.auth, r.val)]⟩, r.rest, r.events⟩
      | .inr next =>
          let run := authLoop env config fuel next r.rest
          ⟨⟨run.val.result, (st.auth, r.val) :: run.val.attempts⟩, run.rest, r.events ++ run.events⟩

/-- `clientAuthenticate` once its service request is written: read the
server's answer, decode it as the accept, then try `none` and the methods the
server lists, on `fuel` attempts. -/
def acceptService (env : Env) (config : ClientConfig) (fuel : Nat) : List Packet → Run AuthOutcome
  | [] => ⟨⟨some (some .readFailed), []⟩, [], []⟩
  | packet :: inbox =>
      match env.unmarshalServiceAccept packet with
      | some e => ⟨⟨some (some e), []⟩, inbox, [.recv packet]⟩
      | none => (authLoop env config fuel ⟨noneAuth env, [], none⟩ inbox).after [.recv packet]

/-- `clientAuthenticate`: ask for the user-auth service, then authenticate. -/
def clientAuthenticate (env : Env) (config : ClientConfig) (fuel : Nat) : List Packet → Run AuthOutcome :=
  env.write (.serviceRequest serviceUserAuth) (fun e => ⟨some (some e), []⟩)
    (acceptService env config fuel)

end Ccmchain.Ssh
