import Ccmchain.Proofs.AuthLoop
import Ccmchain.Proofs.Prompts
import Ccmchain.Proofs.Retry

/-!
# What the client writes, and when it takes the server's word

Two things a user of the client relies on, over every run against every
server and every transport, one that refuses writes included. Every request
the client writes while authenticating is for the
configured user and the `ssh-connection` service, and names the method that
writes it; a signed public-key request carries the signature, by one of the
configured signers, of the data `buildDataSignedForAuth` binds to this
connection's session id, for the key the request names. And the client stops
with nil only right after reading the server's USERAUTH_SUCCESS: no reply of a
method, no banner and no partial success makes it report success otherwise.

Neither holds of an arbitrary `AuthMccmod` record, so both are stated for the
methods the package builds (`Builtin`): none, password, public keys,
keyboard-interactive, and the retrying decorator around any of these, with any
callbacks and any signers drawn from a set `S`. Each is sound on its own
(`MethodSound`): the read loops write nothing but keyboard-interactive's
answers, and answer success only at a USERAUTH_SUCCESS; the decorator's runs
are runs of calls of a sound method. The client's loop only ever runs the
`none` method and methods of its configuration, so its run is made of sound
runs, the last of which ended the loop.

A banner the transport's callback accepts changes none of this: each read loop
reads it and goes on as if it had not come (`banners_transparent`).
-/

namespace Ccmchain.Ssh

/-! ## Sound messages and runs -/

section Sound

variable (env : Env) (S : Signer → Prop) (session : Bytes) (user name : String)

/-- A message the method `name` may write while authenticating `user` on the
session `session`: a request for `user` and the `ssh-connection` service that
names `name`; a public-key request unsigned with no signature, or signed by one
of `S` for the key it names over the session-bound data; or a
keyboard-interactive answers packet. -/
def Msg.Sound : Msg → Prop
  | .serviceRequest _ => False
  | .userAuthRequest req => req = ⟨user, serviceSSH, name⟩
  | .password req reply _ => req = ⟨user, serviceSSH, name⟩ ∧ reply = false
  | .publickey req hasSig algo key sig =>
      req = ⟨user, serviceSSH, name⟩ ∧ (hasSig = false → sig = []) ∧
        (hasSig = true → ∃ s, S s ∧ s.publicKey = ⟨algo, key⟩ ∧ ∃ sg,
          s.sign (env.buildDataSignedForAuth session req algo key) = .ok sg ∧ sig = marshalString sg)
  | .keyboardInteractive req _ _ => req = ⟨user, serviceSSH, name⟩
  | .raw packet => ∃ answers, packet = infoResponse answers

/-- The events end with reading the server's USERAUTH_SUCCESS. -/
def EndsOnSuccess (events : List Ev) : Prop :=
  ∃ pre p, events = pre ++ [.recv p] ∧ p.msgType = msgUserAuthSuccess

/-- A run of the method `name` writes only what `Msg.Sound` allows, and
answers success with no error only right after reading USERAUTH_SUCCESS. -/
structure RunSound (r : Run AuthReply) : Prop where
  sends : ∀ m, .send m ∈ r.events → m.Sound env S session user name
  success : r.val.ok = .authSuccess → r.val.err = none → EndsOnSuccess r.events

end Sound

/-- Every run of `a`, for every session, user and inbox, is sound under `a`'s
own name. -/
def MethodSound (env : Env) (S : Signer → Prop) (a : AuthMccmod) : Prop :=
  ∀ session user inbox, RunSound env S session user a.mccmod (a.auth session user inbox)

/-- The methods the package builds, with every signer drawn from `S`: `none`,
`PasswordCallback`, `PublicKeysCallback` (failing, or with its signers),
`KeyboardInteractive`, and `RetryableAuthMccmod` around any of them. -/
inductive Builtin (env : Env) (S : Signer → Prop) : AuthMccmod → Prop
  | noneAuth : Builtin env S (noneAuth env)
  | passwordCallback (cb : Except SshError String) : Builtin env S (passwordCallback env cb)
  | publicKeyCallbackError (e : SshError) : Builtin env S (publicKeyCallback env (.error e))
  | publicKeyCallback (signers : List Signer) (hS : ∀ s ∈ signers, S s) :
      Builtin env S (publicKeyCallback env (.ok signers))
  | keyboardInteractive (cb : KeyboardInteractiveChallenge) :
      Builtin env S (keyboardInteractive env cb)
  | retryable {a : AuthMccmod} (maxTries : Int) (fuel : Nat) (ha : Builtin env S a) :
      Builtin env S (retryableAuthMccmod a maxTries fuel)

/-! ## Composing sound runs -/

section Compose

variable {env : Env} {S : Signer → Prop} {session : Bytes} {user name : String}

theorem EndsOnSuccess.append_left {evs : List Ev} (h : EndsOnSuccess evs) (pre : List Ev) :
    EndsOnSuccess (pre ++ evs) := by
  obtain ⟨pre', p, rfl, hp⟩ := h
  exact ⟨pre ++ pre', p, by simp, hp⟩

/-- Sound writes, then a sound run. -/
theorem RunSound.after {evs : List Ev} {r : Run AuthReply}
    (hevs : ∀ m, .send m ∈ evs → m.Sound env S session user name)
    (h : RunSound env S session user name r) : RunSound env S session user name (r.after evs) where
  sends m hm := by
    rcases List.mem_append.mp hm with hm | hm
    · exact hevs m hm
    · exact h.sends m hm
  success hok herr := (h.success hok herr).append_left evs

/-- A run that answers failure, after sound writes. -/
theorem RunSound.failure {evs : List Ev} {rest : List Packet} {mccmods : Option (List String)}
    {err : Option SshError} (hevs : ∀ m, .send m ∈ evs → m.Sound env S session user name) :
    RunSound env S session user name ⟨⟨.authFailure, mccmods, err⟩, rest, evs⟩ where
  sends := hevs
  success h := by cases h

/-- One message written: a sound one. -/
theorem sends_single (m' : Msg) (h : m'.Sound env S session user name) :
    ∀ m, .send m ∈ [Ev.send m'] → m.Sound env S session user name := by
  intro m hm
  cases List.mem_singleton.mp hm
  exact h

/-- A sound message written, then a sound run if the transport takes it; a
refused write answers the write error. -/
theorem runSound_write (m : Msg) (hm : m.Sound env S session user name)
    {k : List Packet → Run AuthReply} {inbox : List Packet}
    (hk : RunSound env S session user name (k inbox)) :
    RunSound env S session user name (env.write m AuthReply.fail k inbox) := by
  rcases env.write_cases m AuthReply.fail k inbox with hw | hw <;> rw [hw]
  · exact RunSound.failure (sends_single m hm)
  · exact RunSound.after (sends_single m hm) hk

end Compose

/-! ## The read loops -/

section Responses

variable (env : Env)

theorem failureReply_ok_ne (p : Packet) : (failureReply env p).ok ≠ .authSuccess := by
  unfold failureReply
  split
  · nofun
  · split <;> nofun

/-- A round of `handleAuthResponse` answers success only at USERAUTH_SUCCESS. -/
theorem authResponseStep_success {p : Packet} {r : AuthReply} (h : authResponseStep env p = .done r)
    (hok : r.ok = .authSuccess) : p.msgType = msgUserAuthSuccess := by
  unfold authResponseStep at h
  split_ifs at h with hb hf hs
  · split at h <;> cases h
    cases hok
  · cases h
    exact absurd hok (failureReply_ok_ne env p)
  · exact hs
  · cases h
    cases hok

/-- `handleAuthResponse` writes nothing, and answers success only right after
reading USERAUTH_SUCCESS. -/
theorem handleAuthResponse_runSound {S : Signer → Prop} {session : Bytes} {user name : String}
    (inbox : List Packet) : RunSound env S session user name (handleAuthResponse env inbox) := by
  refine ⟨fun m hm => (Ev.not_isRecv_send m
    (readLoop_events_isRecv env _ _ (authResponseStep_quiet env) inbox _ hm)).elim, fun hok _ => ?_⟩
  have hne : ∀ e, (handleAuthResponse env inbox).val ≠ .fail e := fun e h => by rw [h] at hok; cases hok
  obtain ⟨pre, p, hev, hp⟩ := readLoop_last env _ _ inbox hne
  exact ⟨pre, p, hev, authResponseStep_success env hp hok⟩

/-- A round of keyboard-interactive answers success only at USERAUTH_SUCCESS. -/
theorem keyboardInteractiveStep_success (cb : KeyboardInteractiveChallenge) {p : Packet}
    {r : AuthReply} (h : keyboardInteractiveStep env cb p = .done r) (hok : r.ok = .authSuccess) :
    p.msgType = msgUserAuthSuccess := by
  unfold keyboardInteractiveStep at h
  split_ifs at h with hb hi hf hs
  · split at h <;> cases h
    cases hok
  · repeat' split at h
    all_goals (cases h <;> cases hok)
  · cases h
    exact absurd hok (failureReply_ok_ne env p)
  · exact hs
  · cases h
    cases hok

/-- `validateKey` writes only its unsigned query. -/
theorem validateKey_sends (key : PublicKey) (user : String) (inbox : List Packet) {m : Msg}
    (hm : .send m ∈ (validateKey env key user inbox).events) : m = validateKeyMsg user key := by
  obtain ⟨reads, hreads, hev⟩ := validateKey_events env key user inbox
  rw [hev] at hm
  rcases List.mem_cons.mp hm with h | h
  · cases h
    rfl
  · exact (Ev.not_isRecv_send m (hreads _ h)).elim

end Responses

/-! ## Each method the package builds -/

section Methods

variable (env : Env) {S : Signer → Prop}

theorem noneAuth_sound : MethodSound env S (noneAuth env) := fun _ user inbox =>
  runSound_write (.userAuthRequest ⟨user, serviceSSH, "none"⟩) rfl (handleAuthResponse_runSound env inbox)

theorem passwordCallback_sound (cb : Except SshError String) :
    MethodSound env S (passwordCallback env cb) := by
  intro session user inbox
  cases cb with
  | error e => exact RunSound.failure fun _ h => by cases h
  | ok pw =>
      exact runSound_write (.password ⟨user, serviceSSH, "password"⟩ false pw) ⟨rfl, rfl⟩
        (handleAuthResponse_runSound env inbox)

/-- The signed request for a signer of `S`, signed over the session-bound data. -/
theorem signedRequestMsg_sound {s : Signer} (hs : S s) (session : Bytes) (user : String)
    {sign : Bytes} (hsign : s.sign (env.buildDataSignedForAuth session ⟨user, serviceSSH, "publickey"⟩
      s.publicKey.keyType s.publicKey.marshal) = .ok sign) :
    (signedRequestMsg user s.publicKey (marshalString sign)).Sound env S session user "publickey" :=
  ⟨rfl, nofun, fun _ => ⟨s, hs, rfl, sign, hsign, rfl⟩⟩

theorem publicKeyLoop_sound (session : Bytes) (user : String) (signers : List Signer)
    (hS : ∀ s ∈ signers, S s) :
    ∀ (mccmods : Option (List String)) (inbox : List Packet),
      RunSound env S session user "publickey" (publicKeyLoop env session user mccmods signers inbox) := by
  induction signers with
  | nil => exact fun _ _ => RunSound.failure fun _ h => by cases h
  | cons s signers ih =>
      intro mccmods inbox
      have ih' := ih fun s' hs' => hS s' (List.mem_cons_of_mem _ hs')
      have hv : ∀ m, .send m ∈ (validateKey env s.publicKey user inbox).events →
          m.Sound env S session user "publickey" := fun m hm => by
        rw [validateKey_sends env _ _ _ hm]
        exact ⟨rfl, fun _ => rfl, nofun⟩
      rw [publicKeyLoop]
      dsimp only
      split
      · exact RunSound.failure hv
      · exact RunSound.after hv (ih' _ _)
      · split
        · exact RunSound.failure hv
        · next sign hsign =>
            have hr := RunSound.after hv (runSound_write _
              (signedRequestMsg_sound env (hS s (List.mem_cons_self _ _)) session user hsign)
              (handleAuthResponse_runSound env (validateKey env s.publicKey user inbox).rest))
            split
            · exact RunSound.failure hr.sends
            · split
              · exact hr
              · exact RunSound.after hr.sends (ih' _ _)

theorem keyboardInteractive_sound (cb : KeyboardInteractiveChallenge) :
    MethodSound env S (keyboardInteractive env cb) := by
  intro session user inbox
  refine runSound_write (.keyboardInteractive ⟨user, serviceSSH, "keyboard-interactive"⟩ "" "") rfl
    ⟨fun m hm => ?_, fun hok _ => ?_⟩
  · obtain ⟨p, hp⟩ := readLoop_sends env _ _ inbox hm
    obtain ⟨-, -, -, -, answers, -, -, -, -, rfl⟩ := keyboardInteractiveStep_reply env cb hp
    exact ⟨answers, rfl⟩
  · have hne : ∀ e, (readLoop env AuthReply.fail (keyboardInteractiveStep env cb) inbox).val ≠ .fail e :=
      fun e h => by rw [h] at hok; cases hok
    obtain ⟨pre, p, hev, hp⟩ := readLoop_last env _ _ inbox hne
    exact ⟨pre, p, hev, keyboardInteractiveStep_success env cb hp hok⟩

/-- The loop of the decorator, once the retrying is over. -/
theorem retryLoop_exit {a : AuthMccmod} {maxTries : Int} {session : Bytes} {user : String}
    {fuel i : Nat} {last : AuthReply} {inbox : List Packet}
    (hcond : ¬ (maxTries ≤ 0 ∨ (i : Int) < maxTries)) :
    retryLoop a maxTries session user fuel i last inbox = ⟨last, inbox, []⟩ := by
  unfold retryLoop
  rw [if_neg hcond]

/-- Every run of the decorator's loop is made of sound calls, as long as the
reply it holds from the round before is not a success. -/
theorem retryLoop_sound {a : AuthMccmod} (ha : MethodSound env S a) (maxTries : Int)
    (session : Bytes) (user : String) :
    ∀ (fuel i : Nat) (last : AuthReply) (inbox : List Packet), last.ok ≠ .authSuccess →
      RunSound env S session user a.mccmod (retryLoop a maxTries session user fuel i last inbox)
  | fuel, i, last, inbox, hlast => by
      by_cases hcond : maxTries ≤ 0 ∨ (i : Int) < maxTries
      · cases fuel with
        | zero =>
            unfold retryLoop
            rw [if_pos hcond]
            exact RunSound.failure fun _ h => by cases h
        | succ fuel =>
            rcases retryLoop_round a session user hcond fuel last inbox with ⟨-, hrun⟩ | ⟨hretry, hrun⟩
            · rw [hrun]
              exact ha session user inbox
            · rw [hrun]
              exact RunSound.after (ha session user inbox).sends
                (retryLoop_sound ha maxTries session user fuel (i + 1) _ _ (by rw [hretry.1]; nofun))
      · rw [retryLoop_exit hcond]
        exact ⟨(fun _ h => by cases h), fun h => absurd h hlast⟩

end Methods

/-- Every method the package builds, with its signers drawn from `S`, writes
only requests for the user it is given and the `ssh-connection` service naming
itself, signs only with signers of `S` over the data bound to the session it
is given, and answers success with no error only right after reading the
server's USERAUTH_SUCCESS; the retrying decorator keeps all of it, however
deeply nested. -/
theorem builtin_sound {env : Env} {S : Signer → Prop} {a : AuthMccmod} (h : Builtin env S a) :
    MethodSound env S a := by
  induction h with
  | noneAuth => exact noneAuth_sound env
  | passwordCallback cb => exact passwordCallback_sound env cb
  | publicKeyCallbackError e => exact fun _ _ _ => RunSound.failure fun _ h => by cases h
  | publicKeyCallback signers hS =>
      exact fun session user inbox => publicKeyLoop_sound env session user signers hS none inbox
  | keyboardInteractive cb => exact keyboardInteractive_sound env cb
  | retryable maxTries fuel _ ih =>
      exact fun session user inbox => retryLoop_sound env ih maxTries session user fuel 0 _ inbox nofun

/-! ## Banners

The server may send a banner at any time during authentication (RFC 4252
§5.4). One the transport's callback accepts is read and dropped by each of the
three read loops, whatever comes after it. -/

section Banners

variable (env : Env) {p : Packet}

theorem authResponseStep_banner (hb : p.msgType = msgUserAuthBanner)
    (hacc : handleBannerResponse env p = none) : authResponseStep env p = .next := by
  unfold authResponseStep
  rw [if_pos hb, hacc]

theorem keyAckStep_banner (key : PublicKey) (hb : p.msgType = msgUserAuthBanner)
    (hacc : handleBannerResponse env p = none) : keyAckStep env key p = .next := by
  unfold keyAckStep
  rw [if_pos hb, hacc]

theorem keyboardInteractiveStep_banner (cb : KeyboardInteractiveChallenge)
    (hb : p.msgType = msgUserAuthBanner) (hacc : handleBannerResponse env p = none) :
    keyboardInteractiveStep env cb p = .next := by
  unfold keyboardInteractiveStep
  rw [if_pos hb, hacc]

end Banners

/-- For every inbox and every banners the transport's callback accepts, read
before it: `handleAuthResponse`, `confirmKeyAck` and the loop of
keyboard-interactive answer the same, write the same and leave the same packets
unread as on the inbox alone, having only read the banners first. -/
theorem banners_transparent (env : Env)
    (banners : List {p : Packet // p.msgType = msgUserAuthBanner ∧ handleBannerResponse env p = none})
    (inbox : List Packet) :
    handleAuthResponse env (banners.map Subtype.val ++ inbox) =
        (handleAuthResponse env inbox).after ((banners.map Subtype.val).map .recv) ∧
      (∀ key, confirmKeyAck env key (banners.map Subtype.val ++ inbox) =
        (confirmKeyAck env key inbox).after ((banners.map Subtype.val).map .recv)) ∧
      ∀ cb, readLoop env AuthReply.fail (keyboardInteractiveStep env cb)
          (banners.map Subtype.val ++ inbox) =
        (readLoop env AuthReply.fail (keyboardInteractiveStep env cb) inbox).after
          ((banners.map Subtype.val).map .recv) := by
  have hacc : ∀ p ∈ banners.map Subtype.val,
      p.msgType = msgUserAuthBanner ∧ handleBannerResponse env p = none := by
    intro p hp
    obtain ⟨b, -, rfl⟩ := List.mem_map.mp hp
    exact b.property
  exact ⟨readLoop_skip env _ _ _ inbox fun p hp => authResponseStep_banner env (hacc p hp).1 (hacc p hp).2,
    fun key => readLoop_skip env _ _ _ inbox fun p hp =>
      keyAckStep_banner env key (hacc p hp).1 (hacc p hp).2,
    fun cb => readLoop_skip env _ _ _ inbox fun p hp =>
      keyboardInteractiveStep_banner env cb (hacc p hp).1 (hacc p hp).2⟩

/-! ## The client's loop -/

theorem afterAttempt_inr_mem {env : Env} {config : ClientConfig} {st next : AuthLoop}
    {reply : AuthReply} (h : afterAttempt env config st reply = .inr next) : next.auth ∈ config.auth := by
  unfold afterAttempt at h
  split at h
  · cases h
  · by_cases hok : reply.ok = .authSuccess
    · rw [if_pos hok] at h
      cases h
    rw [if_neg hok] at h
    unfold nextAttempt at h
    split at h
    · next a hfind =>
        cases h
        exact List.mem_of_find?_eq_some (by rwa [findNext_eq] at hfind)
    · cases h

/-- The loop from a sound method, among sound configured ones: what it writes
is sound for one of them, and it stops with nil only right after reading
USERAUTH_SUCCESS. -/
theorem authLoop_wire {env : Env} {S : Signer → Prop} {config : ClientConfig}
    (hcfg : ∀ a ∈ config.auth, MethodSound env S a) (fuel : Nat) :
    ∀ (st : AuthLoop) (inbox : List Packet), MethodSound env S st.auth →
      (∀ m, .send m ∈ (authLoop env config fuel st inbox).events →
        ∃ a ∈ st.auth :: config.auth, m.Sound env S env.sessionID config.user a.mccmod) ∧
      ((authLoop env config fuel st inbox).val.result = some none →
        EndsOnSuccess (authLoop env config fuel st inbox).events) := by
  induction fuel with
  | zero => exact fun _ _ _ => ⟨(fun _ h => by cases h), fun h => by cases h⟩
  | succ fuel ih =>
      intro st inbox hst
      have hrun := hst env.sessionID config.user inbox
      rw [authLoop]
      dsimp only
      split
      · next err hstep =>
          refine ⟨fun m hm => ⟨st.auth, List.mem_cons_self _ _, hrun.sends m hm⟩, fun hnil => ?_⟩
          obtain rfl : err = none := Option.some.inj hnil
          obtain ⟨hok, herr⟩ := afterAttempt_inl_none hstep
          exact hrun.success hok herr
      · next next hstep =>
          have hnext := afterAttempt_inr_mem hstep
          obtain ⟨hsends, hsucc⟩ := ih next _ (hcfg _ hnext)
          refine ⟨fun m hm => ?_, fun hnil => (hsucc hnil).append_left _⟩
          rcases List.mem_append.mp hm with hm | hm
          · exact ⟨st.auth, List.mem_cons_self _ _, hrun.sends m hm⟩
          · obtain ⟨a, ha, hsound⟩ := hsends m hm
            refine ⟨a, List.mem_cons_of_mem _ ?_, hsound⟩
            rcases List.mem_cons.mp ha with rfl | ha
            · exact hnext
            · exact ha

/-- For every configuration built from the package's methods, with any
callbacks and signers drawn from `S`, and every behaviour of the server:
`clientAuthenticate` first asks for the user-auth service, and every message it
writes after that is a request for the configured user and the `ssh-connection`
service naming `none` or a configured method, an unsigned public-key query, a
public-key request signed by a signer of `S` over the data bound to the
connection's session id, or a keyboard-interactive answers packet; and it
returns nil only right after reading the server's USERAUTH_SUCCESS. -/
theorem clientAuthenticate_wire (env : Env) (S : Signer → Prop) (user : String)
    (methods : List {a : AuthMccmod // Builtin env S a}) (fuel : Nat) (inbox : List Packet) :
    ∃ evs, (clientAuthenticate env ⟨user, methods.map Subtype.val⟩ fuel inbox).events =
        .send (.serviceRequest serviceUserAuth) :: evs ∧
      (∀ m, .send m ∈ evs → ∃ a ∈ noneAuth env :: methods.map Subtype.val,
        m.Sound env S env.sessionID user a.mccmod) ∧
      ((clientAuthenticate env ⟨user, methods.map Subtype.val⟩ fuel inbox).val.result = some none →
        EndsOnSuccess evs) := by
  have hcfg : ∀ a ∈ (⟨user, methods.map Subtype.val⟩ : ClientConfig).auth, MethodSound env S a :=
    fun a ha => by
      obtain ⟨b, -, rfl⟩ := List.mem_map.mp ha
      exact builtin_sound b.property
  rcases clientAuthenticate_cases env ⟨user, methods.map Subtype.val⟩ fuel inbox with
    ⟨-, e, rest, evs, hrun, hreads⟩ | ⟨-, packet, ps, -, hrun⟩ <;> rw [hrun]
  · exact ⟨evs, rfl, fun m hm => absurd (hreads _ hm) (Ev.not_isRecv_send m), nofun⟩
  obtain ⟨hsends, hsucc⟩ := authLoop_wire hcfg fuel ⟨noneAuth env, [], none⟩ ps (noneAuth_sound env)
  refine ⟨.recv packet :: (authLoop env ⟨user, methods.map Subtype.val⟩ fuel
      ⟨noneAuth env, [], none⟩ ps).events, by simp, fun m hm => ?_,
    fun hnil => (hsucc hnil).append_left [.recv packet]⟩
  rcases List.mem_cons.mp hm with h | h
  · cases h
  · exact hsends m h

end Ccmchain.Ssh
