import Ccmchain.Ssh.ClientAuth

/-!
# The retrying decorator

`RetryableAuthMccmod(auth, maxTries)` calls `auth` again for as long as it
answers `authFailure` with no error, up to `maxTries` calls. The wrapped method
is any `AuthMccmod`, so its replies, one call after the other, are any sequence
a server and a method can produce between them: `nthCall` is the `j`-th of
them, made back to back from one inbox.

For `maxTries > 0` the decorator's run is the run of the first `k + 1` calls,
where call `k` is the first that stops the retrying, or the last allowed one:
it answers what call `k` answered, leaves the inbox call `k` left, and its
events are those of the `k + 1` calls. Any fuel from `maxTries` on gives this
run, so the fuel never shows.

With `maxTries ≤ 0` the decorator retries without bound, as its Go comment
says: it answers the first call that stops the retrying, and only the fuel
running out ends it otherwise.
-/

namespace Ccmchain.Ssh

/-- A reply the decorator tries again after: `authFailure` with no error. -/
def AuthReply.Retries (r : AuthReply) : Prop := r.ok = .authFailure ∧ r.err = none

section Calls

variable (a : AuthMccmod) (session : Bytes) (user : String)

/-- The `j`-th of back-to-back calls of `a.auth` from `inbox`, from 0. -/
def nthCall : Nat → List Packet → Run AuthReply
  | 0, inbox => a.auth session user inbox
  | j + 1, inbox => nthCall j (a.auth session user inbox).rest

/-- The events of the first `n` back-to-back calls of `a.auth` from `inbox`. -/
def callsEvents : Nat → List Packet → List Ev
  | 0, _ => []
  | n + 1, inbox => (a.auth session user inbox).events ++ callsEvents n (a.auth session user inbox).rest

/-- The test of the loop body, `ok != authFailure || err != nil`, is the
negation of `Retries`. -/
theorem retries_iff (r : AuthReply) : r.Retries ↔ ¬ (r.ok ≠ .authFailure ∨ r.err.isSome) := by
  cases r with
  | mk ok mccmods err => cases err <;> simp [AuthReply.Retries]

/-- Call 0 alone, as the run of the first call. -/
theorem nthCall_zero_run (inbox : List Packet) :
    a.auth session user inbox =
      ⟨(nthCall a session user 0 inbox).val, (nthCall a session user 0 inbox).rest,
        callsEvents a session user 1 inbox⟩ := by
  simp [nthCall, callsEvents]

/-- One call, then the first `k + 1` calls from what it left, are the first
`k + 2` calls. -/
theorem calls_after (k : Nat) (inbox : List Packet) :
    (⟨(nthCall a session user k (a.auth session user inbox).rest).val,
        (nthCall a session user k (a.auth session user inbox).rest).rest,
        callsEvents a session user (k + 1) (a.auth session user inbox).rest⟩ : Run AuthReply).after
        (a.auth session user inbox).events =
      ⟨(nthCall a session user (k + 1) inbox).val, (nthCall a session user (k + 1) inbox).rest,
        callsEvents a session user (k + 2) inbox⟩ := rfl

/-- Call 0 retried, and so did the `k` calls after it. -/
theorem retries_succ {k : Nat} {inbox : List Packet} (h0 : (a.auth session user inbox).val.Retries)
    (h : ∀ j < k, (nthCall a session user j (a.auth session user inbox).rest).val.Retries) :
    ∀ j < k + 1, (nthCall a session user j inbox).val.Retries
  | 0, _ => h0
  | j + 1, hj => h j (by omega)

/-- A round of the loop whose condition holds: a call that stops the retrying
is the answer, and one that does not is followed by the rest of the loop. -/
theorem retryLoop_round {maxTries : Int} {i : Nat} (hcond : maxTries ≤ 0 ∨ (i : Int) < maxTries)
    (fuel : Nat) (last : AuthReply) (inbox : List Packet) :
    (¬ (a.auth session user inbox).val.Retries ∧
        retryLoop a maxTries session user (fuel + 1) i last inbox = a.auth session user inbox) ∨
      ((a.auth session user inbox).val.Retries ∧
        retryLoop a maxTries session user (fuel + 1) i last inbox =
          (retryLoop a maxTries session user fuel (i + 1) (a.auth session user inbox).val
            (a.auth session user inbox).rest).after (a.auth session user inbox).events) := by
  have hunfold : retryLoop a maxTries session user (fuel + 1) i last inbox =
      if (a.auth session user inbox).val.ok ≠ .authFailure ∨
          (a.auth session user inbox).val.err.isSome then a.auth session user inbox
      else (retryLoop a maxTries session user fuel (i + 1) (a.auth session user inbox).val
        (a.auth session user inbox).rest).after (a.auth session user inbox).events := by
    conv_lhs => unfold retryLoop
    rw [if_pos hcond]
  rw [hunfold]
  by_cases hstop : (a.auth session user inbox).val.ok ≠ .authFailure ∨
      (a.auth session user inbox).val.err.isSome
  · exact .inl ⟨fun h => (retries_iff _).mp h hstop, if_pos hstop⟩
  · exact .inr ⟨(retries_iff _).mpr hstop, if_neg hstop⟩

/-- The loop's last round: with the retrying over, whatever the call answered
is the answer. -/
theorem retryLoop_last_round {maxTries : Int} {i fuel : Nat} (hi : (i : Int) + 1 = maxTries)
    (last : AuthReply) (inbox : List Packet) :
    retryLoop a maxTries session user (fuel + 1) i last inbox = a.auth session user inbox := by
  rcases retryLoop_round a session user (.inr (show (i : Int) < maxTries by omega)) fuel last
    inbox with ⟨-, hrun⟩ | ⟨-, hrun⟩
  · exact hrun
  · rw [hrun]
    unfold retryLoop
    rw [if_neg (by omega)]
    simp [Run.after]

/-- With `n + 1` rounds left and fuel for them, the loop stops at the first
call `k ≤ n` that ends the retrying, or at call `n`. -/
theorem retryLoop_bounded (maxTries : Int) (n : Nat) :
    ∀ (i fuel : Nat) (last : AuthReply) (inbox : List Packet),
      (i : Int) + (n + 1) = maxTries → n + 1 ≤ fuel →
      ∃ k ≤ n, (∀ j < k, (nthCall a session user j inbox).val.Retries) ∧
        (¬ (nthCall a session user k inbox).val.Retries ∨ k = n) ∧
        retryLoop a maxTries session user fuel i last inbox =
          ⟨(nthCall a session user k inbox).val, (nthCall a session user k inbox).rest,
            callsEvents a session user (k + 1) inbox⟩ := by
  induction n with
  | zero =>
      intro i fuel last inbox hi hfuel
      obtain ⟨fuel, rfl⟩ : ∃ f, fuel = f + 1 := ⟨fuel - 1, by omega⟩
      exact ⟨0, le_rfl, by simp, .inr rfl,
        (retryLoop_last_round a session user (by omega) last inbox).trans (nthCall_zero_run ..)⟩
  | succ n ih =>
      intro i fuel last inbox hi hfuel
      obtain ⟨fuel, rfl⟩ : ∃ f, fuel = f + 1 := ⟨fuel - 1, by omega⟩
      rcases retryLoop_round a session user (.inr (show (i : Int) < maxTries by omega)) fuel last
        inbox with ⟨hstop, hrun⟩ | ⟨hfirst, hrun⟩
      · exact ⟨0, Nat.zero_le _, by simp, .inl hstop, hrun.trans (nthCall_zero_run ..)⟩
      · obtain ⟨k, hk, hbefore, hend, hloop⟩ :=
          ih (i + 1) fuel (a.auth session user inbox).val (a.auth session user inbox).rest
            (by push_cast; omega) (by omega)
        rw [hrun, hloop]
        exact ⟨k + 1, by omega, retries_succ a session user hfirst hbefore,
          hend.imp_right (by omega), calls_after ..⟩

/-- For every `maxTries > 0` and every wrapped method, `retryableAuthMccmod`
makes `k + 1 ≤ maxTries` calls and answers the `k`-th: the first whose result
is not `authFailure` or whose error is set, or, when every call before the
last allowed one failed with no error, the last allowed one. -/
theorem retryableAuthMccmod_auth (maxTries : Int) (fuel : Nat) (inbox : List Packet)
    (hpos : 0 < maxTries) (hfuel : maxTries.toNat ≤ fuel) :
    ∃ k < maxTries.toNat, (∀ j < k, (nthCall a session user j inbox).val.Retries) ∧
      (¬ (nthCall a session user k inbox).val.Retries ∨ k + 1 = maxTries.toNat) ∧
      (retryableAuthMccmod a maxTries fuel).auth session user inbox =
        ⟨(nthCall a session user k inbox).val, (nthCall a session user k inbox).rest,
          callsEvents a session user (k + 1) inbox⟩ := by
  obtain ⟨n, hn⟩ : ∃ n, maxTries.toNat = n + 1 := ⟨maxTries.toNat - 1, by omega⟩
  obtain ⟨k, hk, hbefore, hend, hloop⟩ :=
    retryLoop_bounded a session user maxTries n 0 fuel ⟨.authFailure, none, none⟩ inbox (by omega) (by omega)
  exact ⟨k, by omega, hbefore, hend.imp_right (by omega), hloop⟩

theorem retryableAuthMccmod_auth_three :
    (0 : Int) < 3 ∧ (3 : Int).toNat ≤ 3 ∧
      ∃ k < (3 : Int).toNat,
        (∀ j < k, (nthCall ⟨"password", fun _ _ inbox => ⟨⟨.authFailure, none, none⟩, inbox, []⟩⟩
          [] "" j []).val.Retries) ∧
        (¬ (nthCall ⟨"password", fun _ _ inbox => ⟨⟨.authFailure, none, none⟩, inbox, []⟩⟩
          [] "" k []).val.Retries ∨ k + 1 = (3 : Int).toNat) ∧
        (retryableAuthMccmod ⟨"password", fun _ _ inbox => ⟨⟨.authFailure, none, none⟩, inbox, []⟩⟩
          3 3).auth [] "" [] =
          ⟨(nthCall ⟨"password", fun _ _ inbox => ⟨⟨.authFailure, none, none⟩, inbox, []⟩⟩
              [] "" k []).val,
            (nthCall ⟨"password", fun _ _ inbox => ⟨⟨.authFailure, none, none⟩, inbox, []⟩⟩
              [] "" k []).rest,
            callsEvents ⟨"password", fun _ _ inbox => ⟨⟨.authFailure, none, none⟩, inbox, []⟩⟩
              [] "" (k + 1) []⟩ :=
  ⟨by decide, by decide, retryableAuthMccmod_auth _ [] "" 3 3 [] (by decide) (by decide)⟩

/-- With `maxTries ≤ 0` the loop retries without bound: on `fuel` rounds it
answers the first call that stops the retrying, or `diverged` when the first
`fuel` calls all fail with no error. -/
theorem retryLoop_unbounded {maxTries : Int} (hle : maxTries ≤ 0) (fuel : Nat) :
    ∀ (i : Nat) (last : AuthReply) (inbox : List Packet),
      (∃ k < fuel, (∀ j < k, (nthCall a session user j inbox).val.Retries) ∧
        ¬ (nthCall a session user k inbox).val.Retries ∧
        retryLoop a maxTries session user fuel i last inbox =
          ⟨(nthCall a session user k inbox).val, (nthCall a session user k inbox).rest,
            callsEvents a session user (k + 1) inbox⟩) ∨
      ((∀ j < fuel, (nthCall a session user j inbox).val.Retries) ∧
        (retryLoop a maxTries session user fuel i last inbox).val = ⟨.authFailure, none, some .diverged⟩) := by
  induction fuel with
  | zero =>
      intro i last inbox
      refine .inr ⟨fun j hj => absurd hj (Nat.not_lt_zero _), ?_⟩
      unfold retryLoop
      rw [if_pos (.inl hle)]
  | succ fuel ih =>
      intro i last inbox
      rcases retryLoop_round a session user (.inl hle) fuel last inbox with
        ⟨hstop, hrun⟩ | ⟨hfirst, hrun⟩
      · exact .inl ⟨0, Nat.zero_lt_succ _, by simp, hstop, hrun.trans (nthCall_zero_run ..)⟩
      · rw [hrun]
        rcases ih (i + 1) (a.auth session user inbox).val (a.auth session user inbox).rest with
          ⟨k, hk, hbefore, hend, hloop⟩ | ⟨hall, hval⟩
        · rw [hloop]
          exact .inl ⟨k + 1, by omega, retries_succ a session user hfirst hbefore, hend,
            calls_after ..⟩
        · exact .inr ⟨retries_succ a session user hfirst hall, hval⟩

/-- For every `maxTries ≤ 0` and every wrapped method, `retryableAuthMccmod`
puts no bound on its calls: on any fuel it answers the first call that is not
`authFailure` with no error, as the run of the calls up to that one, or, when
all the calls the fuel allows answered `authFailure` with no error, it is still
retrying. -/
theorem retryableAuthMccmod_unbounded (maxTries : Int) (hle : maxTries ≤ 0) (fuel : Nat)
    (inbox : List Packet) :
    (∃ k < fuel, (∀ j < k, (nthCall a session user j inbox).val.Retries) ∧
        ¬ (nthCall a session user k inbox).val.Retries ∧
        (retryableAuthMccmod a maxTries fuel).auth session user inbox =
          ⟨(nthCall a session user k inbox).val, (nthCall a session user k inbox).rest,
            callsEvents a session user (k + 1) inbox⟩) ∨
      ((∀ j < fuel, (nthCall a session user j inbox).val.Retries) ∧
        ((retryableAuthMccmod a maxTries fuel).auth session user inbox).val =
          ⟨.authFailure, none, some .diverged⟩) :=
  retryLoop_unbounded a session user hle fuel 0 _ inbox

theorem retryableAuthMccmod_unbounded_zero :
    (0 : Int) ≤ 0 ∧
      ((∃ k < 2, (∀ j < k, (nthCall ⟨"password", fun _ _ inbox => ⟨⟨.authFailure, none, none⟩, inbox, []⟩⟩
          [] "" j []).val.Retries) ∧
        ¬ (nthCall ⟨"password", fun _ _ inbox => ⟨⟨.authFailure, none, none⟩, inbox, []⟩⟩
          [] "" k []).val.Retries ∧
        (retryableAuthMccmod ⟨"password", fun _ _ inbox => ⟨⟨.authFailure, none, none⟩, inbox, []⟩⟩
          0 2).auth [] "" [] =
          ⟨(nthCall ⟨"password", fun _ _ inbox => ⟨⟨.authFailure, none, none⟩, inbox, []⟩⟩
              [] "" k []).val,
            (nthCall ⟨"password", fun _ _ inbox => ⟨⟨.authFailure, none, none⟩, inbox, []⟩⟩
              [] "" k []).rest,
            callsEvents ⟨"password", fun _ _ inbox => ⟨⟨.authFailure, none, none⟩, inbox, []⟩⟩
              [] "" (k + 1) []⟩) ∨
      ((∀ j < 2, (nthCall ⟨"password", fun _ _ inbox => ⟨⟨.authFailure, none, none⟩, inbox, []⟩⟩
          [] "" j []).val.Retries) ∧
        ((retryableAuthMccmod ⟨"password", fun _ _ inbox => ⟨⟨.authFailure, none, none⟩, inbox, []⟩⟩
          0 2).auth [] "" []).val = ⟨.authFailure, none, some .diverged⟩)) :=
  ⟨by decide, retryableAuthMccmod_unbounded _ [] "" 0 (by decide) 2 []⟩

end Calls

end Ccmchain.Ssh
