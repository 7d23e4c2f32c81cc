import Ccmchain.Ssh.ClientAuth

/-!
# Public-key authentication signs only what the server accepted

`publicKeyCallback.auth` goes through its signers in order. For each it first
asks, unsigned, whether the server would take the key (`validateKey`), and only
on a PK_OK naming this very key, its algorithm and its bytes, does it sign and
send the request; the server's answer to that decides whether the next signer
is tried at all.

What it leaves on the wire therefore splits into one turn per signer tried, in
order (`TurnsOf`). A turn is the unsigned query and the packets read for it,
and, only when the last of those is a PK_OK for the signer's key, one signed
request and the packets read for it. A turn that is not the last ended on an
answer that let the loop go on: not success, and a method list that still has
"publickey". A write the transport refuses ends the loop with its error, and
the turn with that write.

The proof rests on what one round of the two read loops can do: a round of
`confirmKeyAck` answers true only on a matching PK_OK, and a round of
`handleAuthResponse` that returns no error and no success read a failure
message and returns its list.
-/

namespace Ccmchain.Ssh

variable (env : Env)

/-! ## What the server's packets mean to the client -/

/-- A PK_OK for `key`: the message number, a decoding, and the key's algorithm
and bytes. -/
def PubKeyOkFor (key : PublicKey) (p : Packet) : Prop :=
  p.msgType = msgUserAuthPubKeyOk ∧
    ∃ msg, env.unmarshalPubKeyOk p = .ok msg ∧ msg.algo = key.keyType ∧ msg.pubKey = key.marshal

/-- An answer to a signed request after which no further signer is tried:
success, or a failure message whose list lacks "publickey". -/
def StopsPublicKey (p : Packet) : Prop :=
  p.msgType = msgUserAuthSuccess ∨
    (p.msgType = msgUserAuthFailure ∧
      ∃ msg, env.unmarshalFailure p = .ok msg ∧ containsMccmod (msg.mccmods.getD []) "publickey" = false)

/-- What the wire shows of one signer's turn: the unsigned query and the
packets read for it, then, only when the last of them is a PK_OK for the
signer's key, one signed request and the packets read for it. Unless the
turn is the `last`, none of those answers stopped the loop. -/
def SignerTurn (user : String) (s : Signer) (last : Prop) (turn : List Ev) : Prop :=
  ∃ reads, (∀ e ∈ reads, e.IsRecv) ∧
    (turn = .send (validateKeyMsg user s.publicKey) :: reads ∨
      ∃ ok sig answers, PubKeyOkFor env s.publicKey ok ∧ (∀ e ∈ answers, e.IsRecv) ∧
        (¬ last → ∀ p, .recv p ∈ answers → ¬ StopsPublicKey env p) ∧
        turn = .send (validateKeyMsg user s.publicKey) ::
          (reads ++ .recv ok :: .send (signedRequestMsg user s.publicKey sig) :: answers))

/-- `events` splits into one turn per signer tried, in the signers' order. -/
def TurnsOf (user : String) (signers : List Signer) (events : List Ev) : Prop :=
  ∃ turns : List (List Ev), turns.length ≤ signers.length ∧ events = turns.flatten ∧
    ∀ i (hs : i < signers.length) (ht : i < turns.length),
      SignerTurn env user signers[i] (i + 1 = turns.length) turns[i]

/-! ## One round of the read loops -/

theorem keyAckStep_done_true {key : PublicKey} {p : Packet}
    (h : keyAckStep env key p = .done (.ok true)) : PubKeyOkFor env key p := by
  unfold keyAckStep at h
  split_ifs at h with hb hk hf
  · split at h <;> cases h
  · split at h
    · cases h
    · next msg hmsg =>
        split_ifs at h with hne
        · cases h
        · push_neg at hne
          exact ⟨hk, msg, hmsg, hne⟩
  · cases h
  · cases h

theorem authResponseStep_next {p : Packet} (h : authResponseStep env p = .next) :
    p.msgType = msgUserAuthBanner := by
  unfold authResponseStep at h
  split_ifs at h with hb
  exact hb

/-- A round of `handleAuthResponse` that returns neither an error nor success
read a failure message and returns its method list. -/
theorem authResponseStep_done_failure {p : Packet} {r : AuthReply}
    (h : authResponseStep env p = .done r) (herr : r.err = none) (hok : r.ok ≠ .authSuccess) :
    p.msgType = msgUserAuthFailure ∧ ∃ msg, env.unmarshalFailure p = .ok msg ∧ r.mccmods = msg.mccmods := by
  unfold authResponseStep at h
  split_ifs at h with hb hf hs
  · split at h <;> cases h
    cases herr
  · refine ⟨hf, ?_⟩
    cases h
    unfold failureReply at herr ⊢
    split at herr
    · cases herr
    · next msg hmsg => exact ⟨msg, hmsg, by split <;> rfl⟩
  · cases h
    exact absurd rfl hok
  · cases h
    cases herr

/-- The answers to a signed request after which the loop goes on stop nothing. -/
theorem handleAuthResponse_goes_on (inbox : List Packet)
    (herr : (handleAuthResponse env inbox).val.err = none)
    (hok : (handleAuthResponse env inbox).val.ok ≠ .authSuccess)
    (hpk : containsMccmod ((handleAuthResponse env inbox).val.mccmods.getD []) "publickey" = true) :
    ∀ p, .recv p ∈ (handleAuthResponse env inbox).events → ¬ StopsPublicKey env p := by
  simp only [handleAuthResponse] at herr hok hpk ⊢
  obtain ⟨pre, q, hpre, hq, hev⟩ := readLoop_returns env _ (authResponseStep env)
    (authResponseStep_quiet env) inbox (fun h => by rw [h] at herr; cases herr)
  obtain ⟨hqf, msg, hmsg, hm⟩ := authResponseStep_done_failure env hq herr hok
  intro p hp
  rw [hev, List.mem_map] at hp
  obtain ⟨p, hp, ⟨⟩⟩ := hp
  rcases List.mem_append.mp hp with hp | hp
  · have hb := authResponseStep_next env (hpre p hp)
    rintro (hs | ⟨hf, -⟩)
    · exact absurd (hb.symm.trans hs) (by decide)
    · exact absurd (hb.symm.trans hf) (by decide)
  · obtain rfl := List.mem_singleton.mp hp
    rintro (hs | ⟨-, msg', hmsg', hno⟩)
    · exact absurd (hqf.symm.trans hs) (by decide)
    · rw [hmsg] at hmsg'
      cases hmsg'
      rw [← hm, hpk] at hno
      cases hno

/-! ## Turns -/

variable {env}

theorem SignerTurn.of_goesOn {user : String} {s : Signer} {turn : List Ev} (last : Prop)
    (h : SignerTurn env user s False turn) : SignerTurn env user s last turn := by
  obtain ⟨reads, hr, h | ⟨ok, sig, answers, hok, ha, hgo, rfl⟩⟩ := h
  · exact ⟨reads, hr, .inl h⟩
  · exact ⟨reads, hr, .inr ⟨ok, sig, answers, hok, ha, fun _ => hgo not_false, rfl⟩⟩

theorem TurnsOf.nil (user : String) (signers : List Signer) : TurnsOf env user signers [] :=
  ⟨[], Nat.zero_le _, rfl, fun _ _ ht => absurd ht (Nat.not_lt_zero _)⟩

/-- The turn of the signer the loop stopped at. -/
theorem TurnsOf.last {user : String} {s : Signer} {turn : List Ev} (signers : List Signer)
    (h : SignerTurn env user s True turn) : TurnsOf env user (s :: signers) turn := by
  refine ⟨[turn], by simp, by simp, fun i hs ht => ?_⟩
  obtain rfl : i = 0 := by simpa using ht
  simpa using h

/-- A turn after which the loop went on, then the turns of the signers left. -/
theorem TurnsOf.cons {user : String} {s : Signer} {turn rest : List Ev} {signers : List Signer}
    (h : SignerTurn env user s False turn) (hrest : TurnsOf env user signers rest) :
    TurnsOf env user (s :: signers) (turn ++ rest) := by
  obtain ⟨turns, hlen, rfl, hturns⟩ := hrest
  refine ⟨turn :: turns, by simpa using hlen, by simp, fun i hs ht => ?_⟩
  cases i with
  | zero => exact h.of_goesOn _
  | succ i => simpa using hturns i (by simpa using hs) (by simpa using ht)

variable (env)

/-- A query the server did not accept, or accepted with nothing signed after. -/
theorem signerTurn_unsigned (user : String) (s : Signer) (last : Prop) (inbox : List Packet) :
    SignerTurn env user s last (validateKey env s.publicKey user inbox).events := by
  obtain ⟨reads, hreads, hev⟩ := validateKey_events env s.publicKey user inbox
  exact ⟨reads, hreads, .inl hev⟩

/-- A query the server accepted, the signed request, and its answers. -/
theorem signerTurn_signed {user : String} {s : Signer} {last : Prop} {inbox : List Packet}
    (hok : (validateKey env s.publicKey user inbox).val = .ok true) (sig : Bytes) {answers : List Ev}
    (ha : ∀ e ∈ answers, e.IsRecv) (hgo : ¬ last → ∀ p, .recv p ∈ answers → ¬ StopsPublicKey env p) :
    SignerTurn env user s last ((validateKey env s.publicKey user inbox).events ++
      [.send (signedRequestMsg user s.publicKey sig)] ++ answers) := by
  rcases validateKey_cases env s.publicKey user inbox with hv | hv <;> rw [hv] at hok ⊢
  · cases hok
  have hne : (confirmKeyAck env s.publicKey inbox).val ≠ .error .readFailed := by
    rw [← Run.after_val [.send (validateKeyMsg user s.publicKey)], hok]
    nofun
  obtain ⟨pre, p, -, hp, hev⟩ :=
    readLoop_returns env _ _ (keyAckStep_quiet env s.publicKey) inbox hne
  have hpk : keyAckStep env s.publicKey p = .done (.ok true) := by
    rw [← hok]
    exact hp
  refine ⟨pre.map .recv, by simp, .inr ⟨p, sig, answers, keyAckStep_done_true env hpk, ha, hgo, ?_⟩⟩
  simp only [Run.after_events, confirmKeyAck]
  rw [hev]
  simp

/-- The signed request and what is read for it: reads only, and, when the
answer has no error, the transport took the request and the answer is
`handleAuthResponse`'s. -/
theorem signedRequest_answers (m : Msg) (rest : List Packet) :
    ∃ answers, (∀ e ∈ answers, e.IsRecv) ∧
      (env.write m AuthReply.fail (handleAuthResponse env) rest).events = .send m :: answers ∧
      ((env.write m AuthReply.fail (handleAuthResponse env) rest).val.err = none →
        (env.write m AuthReply.fail (handleAuthResponse env) rest).val = (handleAuthResponse env rest).val ∧
          answers = (handleAuthResponse env rest).events) := by
  rcases env.write_cases m AuthReply.fail (handleAuthResponse env) rest with hw | hw <;> rw [hw]
  · exact ⟨[], by simp, rfl, fun h => by simp at h⟩
  · exact ⟨_, readLoop_events_isRecv env _ _ (authResponseStep_quiet env) rest, rfl, fun _ => ⟨rfl, rfl⟩⟩

/-- The events of the loop over the signers split into their turns. -/
theorem publicKeyLoop_turns (session : Bytes) (user : String) (signers : List Signer) :
    ∀ (mccmods : Option (List String)) (inbox : List Packet),
      TurnsOf env user signers (publicKeyLoop env session user mccmods signers inbox).events := by
  induction signers with
  | nil => exact fun _ _ => TurnsOf.nil user []
  | cons s signers ih =>
      intro mccmods inbox
      rw [publicKeyLoop]
      dsimp only
      split
      · exact TurnsOf.last signers (signerTurn_unsigned env user s True inbox)
      · exact TurnsOf.cons (signerTurn_unsigned env user s False inbox) (ih _ _)
      · next hv =>
          split
          · exact TurnsOf.last signers (signerTurn_unsigned env user s True inbox)
          · next sign _ =>
              obtain ⟨answers, ha, hev, hhandle⟩ := signedRequest_answers env
                (signedRequestMsg user s.publicKey (marshalString sign)) (validateKey env s.publicKey user inbox).rest
              have hturn : ∀ last : Prop, (¬ last → ∀ p, .recv p ∈ answers → ¬ StopsPublicKey env p) →
                  SignerTurn env user s last ((env.write (signedRequestMsg user s.publicKey (marshalString sign))
                    AuthReply.fail (handleAuthResponse env) (validateKey env s.publicKey user inbox).rest).after
                    (validateKey env s.publicKey user inbox).events).events := fun last hgo => by
                rw [Run.after_events, hev, ← List.singleton_append, ← List.append_assoc]
                exact signerTurn_signed env hv _ ha hgo
              split
              · exact TurnsOf.last signers (hturn True fun h => absurd trivial h)
              · next herr =>
                  split
                  · exact TurnsOf.last signers (hturn True fun h => absurd trivial h)
                  · next hgo =>
                      simp only [Run.after_events]
                      refine TurnsOf.cons (hturn False fun _ => ?_) (ih _ _)
                      simp only [Run.after_val, not_or] at herr hgo
                      obtain ⟨hval, rfl⟩ := hhandle herr
                      rw [hval] at herr hgo
                      exact handleAuthResponse_goes_on env _ herr hgo.1 (Bool.not_eq_false _ ▸ hgo.2)

/-- For every list of signers and every inbox, what `publicKeyCallback.auth`
writes and reads splits into one turn per signer tried, in order: a signed
request for a signer is written only right after its query was answered by a
PK_OK naming that signer's key type and key bytes, there is at most one per
signer, and no further signer is tried after an answer to a signed request that
was success or whose method list lacks "publickey". -/
theorem publicKeyCallback_turns (session : Bytes) (user : String) (signers : List Signer)
    (inbox : List Packet) :
    TurnsOf env user signers ((publicKeyCallback env (.ok signers)).auth session user inbox).events :=
  publicKeyLoop_turns env session user signers none inbox

end Ccmchain.Ssh
