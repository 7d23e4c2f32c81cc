import Ccmchain.Ssh.ClientAuth
import Mathlib.Algebra.Group.Nat.Basic

/-!
# Keyboard-interactive: the prompt parser and the answers

`parsePrompts n P` succeeds exactly when `P` is `n` pairs laid out as RFC 4256
has them, each a prompt with its 4-byte big-endian length and one echo byte,
and nothing after them; it then answers the prompts and the echo flags in
order. On any other input it answers one of its two errors, and never
`indexOutOfRange`: the guards in front of `r[0]` and `r[1:]`, and those of
`parseString`, keep every access inside the bytes.

The proof reads one pair at a time. `parseString_eq_some_iff` says what one
successful `parseString` consumed, `parsePrompts_succ` what one round of the
loop does with it, and the induction on the count puts the pairs together.

The method itself only ever writes, after its initiate request, the answers to
an info request whose prompts parsed, one answer per prompt, right after the
request (RFC 4256 §3.4).
-/

namespace Ccmchain.Ssh

/-! ## Four-byte lengths -/

theorem toNat_ofNat_mod (x : Nat) : (UInt8.ofNat (x % 256)).toNat = x % 256 :=
  UInt8.toNat_ofNat_of_lt (Nat.mod_lt _ (by decide))

theorem uint32be_bigEndian (b0 b1 b2 b3 : UInt8) :
    uint32be (bigEndian b0 b1 b2 b3) = [b0, b1, b2, b3] := by
  have := b0.toNat_lt_size; have := b1.toNat_lt_size; have := b2.toNat_lt_size
  have := b3.toNat_lt_size
  simp only [UInt8.size] at *
  simp only [uint32be, bigEndian, List.cons.injEq, and_true]
  refine ⟨?_, ?_, ?_, ?_⟩ <;> apply UInt8.toNat.inj <;> rw [toNat_ofNat_mod] <;> omega

theorem bigEndian_uint32be (n : Nat) (h : n < 2 ^ 32) :
    ∃ b0 b1 b2 b3, uint32be n = [b0, b1, b2, b3] ∧ bigEndian b0 b1 b2 b3 = n := by
  refine ⟨_, _, _, _, rfl, ?_⟩
  simp only [bigEndian, toNat_ofNat_mod]
  omega

theorem bigEndian_lt (b0 b1 b2 b3 : UInt8) : bigEndian b0 b1 b2 b3 < 2 ^ 32 := by
  have := b0.toNat_lt_size; have := b1.toNat_lt_size; have := b2.toNat_lt_size
  have := b3.toNat_lt_size
  simp only [UInt8.size] at *
  unfold bigEndian
  omega

/-! ## One string -/

theorem parseString_short {input : Bytes} (h : input.length < 4) : parseString input = .ok none := by
  simp [parseString, h, pure, Except.pure]

theorem parseString_cons (b0 b1 b2 b3 : UInt8) (rest : Bytes) :
    parseString (b0 :: b1 :: b2 :: b3 :: rest) =
      .ok (if rest.length < bigEndian b0 b1 b2 b3 then none
        else some (rest.take (bigEndian b0 b1 b2 b3), rest.drop (bigEndian b0 b1 b2 b3))) := by
  have h4 : ¬ (rest.length + 1 + 1 + 1 + 1 < 4) := by omega
  by_cases h : rest.length < bigEndian b0 b1 b2 b3
  · simp [parseString, bigEndianUint32, sliceFrom, h, h4, pure, Except.pure, bind, Except.bind]
  · simp [parseString, bigEndianUint32, sliceFrom, sliceTo, h, h4, Nat.le_of_not_lt h, pure,
      Except.pure, bind, Except.bind, Functor.map, Except.map]

/-- `parseString` never panics. -/
theorem parseString_ok (input : Bytes) : ∃ o, parseString input = .ok o := by
  match input with
  | b0 :: b1 :: b2 :: b3 :: rest => exact ⟨_, parseString_cons b0 b1 b2 b3 rest⟩
  | [] | [_] | [_, _] | [_, _, _] => exact ⟨none, parseString_short (by simp)⟩

/-- What a successful `parseString` consumed: one string with its length. -/
theorem parseString_eq_some_iff (input prompt rest : Bytes) :
    parseString input = .ok (some (prompt, rest)) ↔
      prompt.length < 2 ^ 32 ∧ input = uint32be prompt.length ++ prompt ++ rest := by
  constructor
  · intro h
    match input, h with
    | b0 :: b1 :: b2 :: b3 :: r, h =>
        rw [parseString_cons] at h
        split at h
        · cases h
        · next hlen =>
            cases h
            have hL : (r.take (bigEndian b0 b1 b2 b3)).length = bigEndian b0 b1 b2 b3 := by
              simp only [List.length_take]
              omega
            rw [hL, uint32be_bigEndian]
            exact ⟨bigEndian_lt .., by simp⟩
    | [], h | [_], h | [_, _], h | [_, _, _], h =>
        rw [parseString_short (by simp)] at h
        cases h
  · rintro ⟨hlen, rfl⟩
    obtain ⟨b0, b1, b2, b3, he, hbe⟩ := bigEndian_uint32be _ hlen
    rw [he]
    simp only [List.cons_append, List.nil_append]
    rw [parseString_cons, hbe]
    simp

/-! ## The loop -/

/-- One round: a string, then an echo byte, then the rounds left. -/
theorem parsePrompts_succ (n : Nat) (rest : Bytes) :
    parsePrompts (n + 1) rest =
      match parseString rest with
      | .error e => .error e
      | .ok none => .error .promptFormat
      | .ok (some (_, [])) => .error .promptFormat
      | .ok (some (prompt, echo :: r)) =>
          (parsePrompts n r).map fun x => (prompt :: x.1, (echo != 0) :: x.2) := by
  rw [parsePrompts]
  rcases parseString rest with e | _ | ⟨prompt, _ | ⟨echo, r⟩⟩
  · rfl
  · rfl
  · rfl
  · simp only [bind, Except.bind, index, sliceFrom, List.length_cons, Nat.add_one_ne_zero,
      if_false, List.getElem?_cons_zero, Nat.le_add_left, if_true, List.drop_one, List.tail_cons]
    cases parsePrompts n r <;> rfl

theorem parsePrompts_succ_eq_ok (n : Nat) (P : Bytes) (prompts : List Bytes) (echos : List Bool) :
    parsePrompts (n + 1) P = .ok (prompts, echos) ↔
      ∃ prompt echo r prompts' echos', parseString P = .ok (some (prompt, echo :: r)) ∧
        parsePrompts n r = .ok (prompts', echos') ∧ prompts = prompt :: prompts' ∧
          echos = (echo != 0) :: echos' := by
  rw [parsePrompts_succ]
  constructor
  · intro h
    rcases hp : parseString P with e | _ | ⟨prompt, _ | ⟨echo, r⟩⟩ <;> rw [hp] at h <;>
      dsimp only at h
    · cases h
    · cases h
    · cases h
    · cases hn : parsePrompts n r with
      | error e => rw [hn] at h; cases h
      | ok x =>
          rw [hn] at h
          cases h
          exact ⟨prompt, echo, r, x.1, x.2, rfl, hn, rfl, rfl⟩
  · rintro ⟨prompt, echo, r, prompts', echos', hp, hn, rfl, rfl⟩
    rw [hp]
    dsimp only
    rw [hn]
    rfl

/-- The loop accepts exactly `n` encoded pairs and nothing after them. -/
theorem parsePrompts_eq_ok_iff (n : Nat) (P : Bytes) (prompts : List Bytes) (echos : List Bool) :
    parsePrompts n P = .ok (prompts, echos) ↔
      ∃ pairs : List (Bytes × UInt8), pairs.length = n ∧ (∀ pair ∈ pairs, pair.1.length < 2 ^ 32) ∧
        P = encodePrompts pairs ∧ prompts = pairs.map Prod.fst ∧
          echos = pairs.map fun pair => pair.2 != 0 := by
  induction n generalizing P prompts echos with
  | zero =>
      constructor
      · intro h
        unfold parsePrompts at h
        split at h
        · cases h
        · next hP =>
            cases h
            exact ⟨[], rfl, by simp, by simpa using hP, rfl, rfl⟩
      · rintro ⟨pairs, hlen, -, rfl, rfl, rfl⟩
        obtain rfl := List.length_eq_zero.mp hlen
        rfl
  | succ n ih =>
      rw [parsePrompts_succ_eq_ok]
      constructor
      · rintro ⟨prompt, echo, r, prompts', echos', hp, hn, rfl, rfl⟩
        obtain ⟨hlen, rfl⟩ := (parseString_eq_some_iff _ _ _).mp hp
        obtain ⟨pairs, hl, hall, rfl, rfl, rfl⟩ := (ih _ _ _).mp hn
        refine ⟨(prompt, echo) :: pairs, by simp [hl], fun p hp => ?_, by simp [encodePrompt], rfl, rfl⟩
        rcases List.mem_cons.mp hp with rfl | hp
        · exact hlen
        · exact hall p hp
      · rintro ⟨_ | ⟨⟨prompt, echo⟩, pairs⟩, hl, hall, rfl, rfl, rfl⟩
        · cases hl
        · refine ⟨prompt, echo, encodePrompts pairs, _, _, ?_,
            (ih _ _ _).mpr ⟨pairs, by simpa using hl, fun p hp => hall p (.tail _ hp), rfl, rfl, rfl⟩,
            rfl, rfl⟩
          exact (parseString_eq_some_iff _ _ _).mpr ⟨hall _ (.head _), by simp [encodePrompt]⟩

/-- The loop answers the prompts or one of its two errors: it never panics. -/
theorem parsePrompts_outcome (n : Nat) (P : Bytes) :
    (∃ r, parsePrompts n P = .ok r) ∨ parsePrompts n P = .error .promptFormat ∨
      parsePrompts n P = .error .extraData := by
  induction n generalizing P with
  | zero =>
      unfold parsePrompts
      split
      · exact .inr (.inr rfl)
      · exact .inl ⟨_, rfl⟩
  | succ n ih =>
      rw [parsePrompts_succ]
      obtain ⟨o, ho⟩ := parseString_ok P
      rw [ho]
      rcases o with _ | ⟨prompt, _ | ⟨echo, r⟩⟩
      · exact .inr (.inl rfl)
      · exact .inr (.inl rfl)
      · rcases ih r with ⟨x, hx⟩ | hx | hx <;> simp only [hx]
        · exact .inl ⟨_, rfl⟩
        · exact .inr (.inl rfl)
        · exact .inr (.inr rfl)

/-- For every 32-bit prompt count and every byte string, the prompt loop of
`KeyboardInteractiveChallenge.auth` succeeds exactly on the encoded pairs,
answering their prompts and echo flags, and otherwise answers
`promptFormat` or `extraData` without reading out of range. -/
theorem parsePrompts_exact (numPrompts : UInt32) (P : Bytes) :
    (∀ prompts echos, parsePrompts numPrompts.toNat P = .ok (prompts, echos) ↔
      ∃ pairs : List (Bytes × UInt8), pairs.length = numPrompts.toNat ∧
        (∀ pair ∈ pairs, pair.1.length < 2 ^ 32) ∧ P = encodePrompts pairs ∧
          prompts = pairs.map Prod.fst ∧ echos = pairs.map fun pair => pair.2 != 0) ∧
    ((∃ r, parsePrompts numPrompts.toNat P = .ok r) ∨
      parsePrompts numPrompts.toNat P = .error .promptFormat ∨
        parsePrompts numPrompts.toNat P = .error .extraData) :=
  ⟨parsePrompts_eq_ok_iff _ P, parsePrompts_outcome _ P⟩

example : parsePrompts 2 [0, 0, 0, 2, 111, 107, 1, 0, 0, 0, 0, 0] = .ok ([[111, 107], []], [true, false]) := by
  rfl

example : parsePrompts 1 [0, 0, 0, 3, 111, 107, 1] = .error .promptFormat := by
  rfl

/-! ## The answers the method writes -/

section Answers

variable (env : Env) (cb : KeyboardInteractiveChallenge)

/-- A round of keyboard-interactive that writes answers an info request whose
prompts parsed, with one answer per prompt. -/
theorem keyboardInteractiveStep_reply {p : Packet} {m : Msg}
    (h : keyboardInteractiveStep env cb p = .reply m) :
    p.msgType = msgUserAuthInfoRequest ∧ ∃ msg prompts echos answers,
      env.unmarshalInfoRequest p = .ok msg ∧
        parsePrompts msg.numPrompts.toNat msg.prompts = .ok (prompts, echos) ∧
        cb msg.user msg.instruction prompts echos = .ok answers ∧ answers.length = prompts.length ∧
        m = .raw (infoResponse answers) := by
  unfold keyboardInteractiveStep at h
  split_ifs at h with hb hi
  · split at h <;> cases h
  · split at h
    · cases h
    · next msg hmsg =>
        split at h
        · cases h
        · next prompts echos hparse =>
            split at h
            · cases h
            · next answers hans =>
                split_ifs at h with hlen
                cases h
                exact ⟨hi, msg, prompts, echos, answers, hmsg, hparse, hans, not_not.mp hlen, rfl⟩

theorem parsePrompts_length {n : Nat} {P : Bytes} {prompts : List Bytes} {echos : List Bool}
    (h : parsePrompts n P = .ok (prompts, echos)) : prompts.length = n := by
  obtain ⟨pairs, hlen, -, -, rfl, -⟩ := (parsePrompts_eq_ok_iff n P prompts echos).mp h
  simpa using hlen

/-- For every challenge callback and every behaviour of the server, after its
initiate request keyboard-interactive writes only info responses, each right
after the info request it answers: the callback's answers to the prompts that
request parsed to, one answer per prompt, with the request's own `num-prompts`
in the count field. -/
theorem keyboardInteractive_responses (session : Bytes) (user : String) (inbox : List Packet) :
    ∃ rounds : List (Packet × List Msg),
      ((keyboardInteractive env cb).auth session user inbox).events =
        .send (.keyboardInteractive ⟨user, serviceSSH, "keyboard-interactive"⟩ "" "") ::
          rounds.flatMap (fun r => .recv r.1 :: r.2.map .send) ∧
      ∀ r ∈ rounds, r.2 = [] ∨ r.1.msgType = msgUserAuthInfoRequest ∧ ∃ msg prompts echos answers,
        env.unmarshalInfoRequest r.1 = .ok msg ∧
          parsePrompts msg.numPrompts.toNat msg.prompts = .ok (prompts, echos) ∧
          cb msg.user msg.instruction prompts echos = .ok answers ∧
          answers.length = prompts.length ∧
          r.2 = [.raw (msgUserAuthInfoResponse :: uint32be msg.numPrompts.toNat ++
            answers.flatMap fun a => marshalString a.toUTF8.data.toList)] := by
  rcases env.write_cases (.keyboardInteractive ⟨user, serviceSSH, "keyboard-interactive"⟩ "" "")
    AuthReply.fail (readLoop env AuthReply.fail (keyboardInteractiveStep env cb)) inbox with hw | hw
  · exact ⟨[], by simp [keyboardInteractive, hw], by simp⟩
  obtain ⟨rounds, hev, hall⟩ := readLoop_rounds env AuthReply.fail (keyboardInteractiveStep env cb) inbox
  refine ⟨rounds, by simp [keyboardInteractive, hw, hev], fun r hr => ?_⟩
  rcases hall r hr with ⟨-, hnil⟩ | ⟨m, hm, hone⟩ | ⟨hnil, -⟩
  · exact .inl hnil
  · obtain ⟨hi, msg, prompts, echos, answers, hmsg, hparse, hans, hlen, rfl⟩ :=
      keyboardInteractiveStep_reply env cb hm
    refine .inr ⟨hi, msg, prompts, echos, answers, hmsg, hparse, hans, hlen, ?_⟩
    rw [hone, infoResponse, hlen, parsePrompts_length hparse]
  · exact .inl hnil

end Answers

end Ccmchain.Ssh
