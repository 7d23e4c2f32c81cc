import Ccmchain.Proofs.Registry
import Mathlib.Data.List.GetD

/-!
# When the keys follow the declared names

§3 of the spec states the disambiguation as a policy: the first entry
declared `n` gets the key `n`, and the `j`-th repeat gets `n` followed by
`j - 1`. The loop does not count repeats; it probes for the first free key.
The two agree exactly when the policy's keys for one kind's entries are
pairwise distinct. They have to be, as keys of one map; and when they are,
each entry's policy key is the loop's first free answer against the policy's
keys of the entries before it (`policyKey_firstFree`), and the loop's answer
is unique (`FirstFree.unique`), so by induction along the document the loop's
keys are the policy's.

A generated key `n ++ digits` can only equal a declared name of that shape,
or a key generated for such a name, so a document where no declared name of a
kind is another declared name of that kind followed by decimal digits
(`DigitSuffixFree`) always has distinct policy keys. Without the condition the
two part ways: for `foo, foo, foo0` the policy gives `foo0` twice, and the loop
files the second `foo` under `foo0` and the declared `foo0` under `foo00`
(`unmarshalJSON_generated_key_takes_declared`).
-/

namespace Ccmchain.Abi

/-- `a` is `b` followed by one or more decimal digits. -/
def IsDigitExtension (a b : String) : Bool :=
  b.data.isPrefixOf a.data && decide (b.data.length < a.data.length) &&
    (a.data.drop b.data.length).all Char.isDigit

/-- No declared name is another declared name followed by decimal digits. -/
def DigitSuffixFree (names : List String) : Prop :=
  ∀ a ∈ names, ∀ b ∈ names, IsDigitExtension a b = false

instance (names : List String) : Decidable (DigitSuffixFree names) :=
  inferInstanceAs (Decidable (∀ a ∈ names, ∀ b ∈ names, IsDigitExtension a b = false))

/-- The key §3's policy gives the entry at `i`: its declared name if no
earlier entry has that name, and otherwise the name followed by `j` when `j + 1`
earlier entries have it. -/
def policyKey (names : List String) (i : Nat) : String :=
  match (names.take i).count (names.getD i "") with
  | 0 => names.getD i ""
  | j + 1 => suffixed (names.getD i "") j

/-- The policy's keys for one kind's entries, in document order. -/
def policyKeys (names : List String) : List String := (List.range names.length).map (policyKey names)

/-- One kind's map as §3's policy lays it out: its entries in document order,
each under the policy's key and stored as itself. -/
def policyEntries {V : Type} (mk : Field → String → V) (fields : List Field) : List (String × V) :=
  List.zipWith (fun key field => (key, mk field key)) (policyKeys (fields.map Field.name)) fields

theorem policyKeys_nodup_iff (names : List String) :
    (policyKeys names).Nodup ↔
      ∀ t < names.length, ∀ s < names.length, policyKey names t = policyKey names s → t = s := by
  rw [policyKeys, List.nodup_map_iff_inj_on (List.nodup_range _)]
  simp only [List.mem_range]

/-! ## Digit extensions -/

theorem isDigitExtension_of_eq {a b : String} {s : List Char} (hs : s ≠ [])
    (hd : ∀ c ∈ s, c.isDigit) (h : a.data = b.data ++ s) : IsDigitExtension a b = true := by
  have hlen : 0 < s.length := List.length_pos.mpr hs
  simp [IsDigitExtension, h, List.isPrefixOf_iff_prefix, List.prefix_append, hlen]
  exact hd

theorem toString_data_ne_nil (j : Nat) : (toString j).data ≠ [] := by
  intro h
  have hj := foldl_toString j
  rw [h] at hj
  subst hj
  exact absurd h (by decide)

theorem isDigitExtension_suffixed (name : String) (j : Nat) :
    IsDigitExtension (suffixed name j) name = true :=
  isDigitExtension_of_eq (toString_data_ne_nil j) (toString_isDigit j) rfl

/-- Two generated keys from different names are equal only if one name is
the other followed by digits. -/
theorem suffixed_collision {a b : String} {j k : Nat} (h : suffixed a j = suffixed b k)
    (hab : a ≠ b) : IsDigitExtension a b = true ∨ IsDigitExtension b a = true := by
  have hdata := congrArg String.data h
  simp only [suffixed, String.data_append] at hdata
  rcases List.append_eq_append_iff.mp hdata with ⟨s, hb, hj⟩ | ⟨s, ha, hk⟩
  · refine .inr (isDigitExtension_of_eq ?_ (fun c hc => toString_isDigit j c ?_) hb)
    · rintro rfl; exact hab (String.ext (by simpa using hb.symm))
    · rw [hj]; exact List.mem_append_left _ hc
  · refine .inl (isDigitExtension_of_eq ?_ (fun c hc => toString_isDigit k c ?_) ha)
    · rintro rfl; exact hab (String.ext (by simpa using ha))
    · rw [hk]; exact List.mem_append_left _ hc

theorem DigitSuffixFree.getElem {names : List String} (hfree : DigitSuffixFree names) {a b : Nat}
    (ha : a < names.length) (hb : b < names.length) : IsDigitExtension names[a] names[b] = false :=
  hfree _ (List.getElem_mem ha) _ (List.getElem_mem hb)

/-! ## Counting earlier occurrences -/

theorem count_take_succ (names : List String) (a : String) {t : Nat} (ht : t < names.length) :
    (names.take (t + 1)).count a = (names.take t).count a + if names[t] = a then 1 else 0 := by
  rw [List.take_succ, List.getElem?_eq_getElem ht, Option.toList_some, List.count_append,
    List.count_singleton']

theorem count_take_lt (names : List String) {t i : Nat} (hti : t < i) (ht : t < names.length) :
    (names.take t).count names[t] < (names.take i).count names[t] := by
  have hle := ((List.take_prefix_take_left names (Nat.succ_le_of_lt hti)).sublist).count_le names[t]
  rw [count_take_succ names _ ht, if_pos rfl] at hle
  omega

/-- Before position `i` with more than `c` earlier copies of `a`, some copy
has exactly `c` copies before it. -/
theorem exists_occurrence (names : List String) (a : String) {c : Nat} :
    ∀ i, c < (names.take i).count a →
      ∃ t < i, ∃ ht : t < names.length, names[t] = a ∧ (names.take t).count a = c := by
  intro i
  induction i with
  | zero => simp
  | succ i ih =>
      intro hc
      by_cases hi : i < names.length
      · rw [count_take_succ names a hi] at hc
        by_cases hlt : c < (names.take i).count a
        · obtain ⟨t, hti, ht, hat, hct⟩ := ih hlt
          exact ⟨t, by omega, ht, hat, hct⟩
        · split at hc
          · next heq => exact ⟨i, by omega, hi, heq, by omega⟩
          · omega
      · rw [List.take_of_length_le (by omega)] at hc
        obtain ⟨t, hti, ht, hat, hct⟩ := ih (by rwa [List.take_of_length_le (by omega)])
        exact ⟨t, by omega, ht, hat, hct⟩

theorem policyKey_cases (names : List String) {i : Nat} (hi : i < names.length) :
    ((names.take i).count names[i] = 0 ∧ policyKey names i = names[i]) ∨
      ∃ j, (names.take i).count names[i] = j + 1 ∧ policyKey names i = suffixed names[i] j := by
  unfold policyKey
  rw [List.getD_eq_getElem _ _ hi]
  split
  · next h => exact .inl ⟨h, rfl⟩
  · next j h => exact .inr ⟨j, h, rfl⟩

/-! A key given before `i` that is `names[i]`, or `names[i]` followed by
digits, belongs to an earlier copy of `names[i]`: anything else breaks the
proviso. -/

theorem policyKey_eq_name {names : List String} (hfree : DigitSuffixFree names) {t i : Nat}
    (ht : t < names.length) (hi : i < names.length) (h : policyKey names t = names[i]) :
    names[t] = names[i] := by
  rcases policyKey_cases names ht with ⟨-, hk⟩ | ⟨j', -, hk⟩
  · rwa [hk] at h
  · rw [hk] at h
    cases (hfree.getElem hi ht).symm.trans (h ▸ isDigitExtension_suffixed _ j')

theorem policyKey_eq_suffixed {names : List String} (hfree : DigitSuffixFree names) {t i j : Nat}
    (ht : t < names.length) (hi : i < names.length) (h : policyKey names t = suffixed names[i] j) :
    names[t] = names[i] ∧ (names.take t).count names[i] = j + 1 := by
  rcases policyKey_cases names ht with ⟨-, hk⟩ | ⟨j', hj', hk⟩
  · rw [hk] at h
    cases (hfree.getElem ht hi).symm.trans (h ▸ isDigitExtension_suffixed _ j)
  · rw [hk] at h
    by_cases hsame : names[t] = names[i]
    · rw [hsame] at h hj'
      exact ⟨hsame, by rw [hj', suffixed_injective _ h]⟩
    · rcases suffixed_collision h hsame with h | h
      · cases (hfree.getElem ht hi).symm.trans h
      · cases (hfree.getElem hi ht).symm.trans h

/-! ## The policy is the loop's answer -/

theorem FirstFree.unique {taken : List String} {name k₁ k₂ : String}
    (h₁ : FirstFree taken name k₁) (h₂ : FirstFree taken name k₂) : k₁ = k₂ := by
  rcases h₁ with ⟨hn, rfl⟩ | ⟨hn, n₁, -, rfl, hf₁, hb₁⟩ <;>
    rcases h₂ with ⟨hn', rfl⟩ | ⟨hn', n₂, -, rfl, hf₂, hb₂⟩
  · rfl
  · exact absurd hn' hn
  · exact absurd hn hn'
  · rcases Nat.lt_trichotomy n₁ n₂ with h | rfl | h
    · exact absurd (hb₂ n₁ h) hf₁
    · rfl
    · exact absurd (hb₁ n₂ h) hf₂

theorem policyKey_firstFree {names : List String}
    (hinj : ∀ t < names.length, ∀ s < names.length, policyKey names t = policyKey names s → t = s)
    {i : Nat} (hi : i < names.length) :
    FirstFree ((List.range i).map (policyKey names)) names[i] (policyKey names i) := by
  have hmem : ∀ x, x ∈ (List.range i).map (policyKey names) ↔ ∃ t < i, policyKey names t = x := by
    simp
  have hfresh : policyKey names i ∉ (List.range i).map (policyKey names) := fun hk => by
    obtain ⟨t, hti, ht⟩ := (hmem _).mp hk
    exact absurd (hinj t (by omega) i hi ht) (by omega)
  -- an earlier copy of `names[i]` with `c` copies before it has the policy's key for `c`
  have hcopy : ∀ c, c < (names.take i).count names[i] →
      ∃ t < i, ∃ ht : t < names.length, policyKey names t =
        match c with | 0 => names[i] | k + 1 => suffixed names[i] k := by
    intro c hc
    obtain ⟨t, hti, ht, hat, hct⟩ := exists_occurrence names names[i] i hc
    refine ⟨t, hti, ht, ?_⟩
    unfold policyKey
    rw [List.getD_eq_getElem _ _ ht, hat, hct]
  rcases policyKey_cases names hi with ⟨-, hkey⟩ | ⟨j, hj, hkey⟩
  · exact .inl ⟨hkey ▸ hfresh, hkey⟩
  · have hjle : j ≤ i := by
      have := List.count_le_length names[i] (names.take i)
      simp at this; omega
    obtain ⟨t, hti, -, ht⟩ := hcopy 0 (by omega)
    refine .inr ⟨(hmem _).mpr ⟨t, hti, ht⟩, j, by simpa using hjle, hkey, hkey ▸ hfresh, fun k hk => ?_⟩
    obtain ⟨t, hti, -, ht⟩ := hcopy (k + 1) (by omega)
    exact (hmem _).mpr ⟨t, hti, ht⟩

theorem assigned_policyKey {names : List String}
    (hinj : ∀ t < names.length, ∀ s < names.length, policyKey names t = policyKey names s → t = s) :
    ∀ (rest pre keys : List String), pre ++ rest = names →
      Assigned ((List.range pre.length).map (policyKey names)) keys rest →
      keys = (List.range' pre.length rest.length).map (policyKey names) := by
  intro rest
  induction rest with
  | nil => intro pre keys _ h; cases keys <;> simp_all [Assigned]
  | cons name rest ih =>
      intro pre keys hsplit h
      cases keys with
      | nil => exact h.elim
      | cons key keys =>
          have hi : pre.length < names.length := by rw [← hsplit]; simp
          have hname : names[pre.length] = name := by subst hsplit; simp [List.getElem_append_right]
          have hkey : key = policyKey names pre.length :=
            h.1.unique (hname ▸ policyKey_firstFree hinj hi)
          subst hkey
          have htaken : (List.range pre.length).map (policyKey names) ++ [policyKey names pre.length] =
              (List.range (pre ++ [name]).length).map (policyKey names) := by
            simp [List.range_succ]
          have := ih (pre ++ [name]) keys (by simpa using hsplit) (htaken ▸ h.2)
          simp only [List.length_append, List.length_singleton] at this
          simp [this, List.range'_succ]

/-- When the policy's keys are distinct, the keys one kind's entries get are
the policy's. -/
theorem registerAll_policy (mk : Field → String → V) (fields : List Field)
    (hnodup : (policyKeys (fields.map Field.name)).Nodup) :
    (registerAll mk .empty fields).entries = policyEntries mk fields := by
  obtain ⟨keys, hassigned, hentries⟩ := registerAll_spec mk .empty fields
  have hkeys := assigned_policyKey ((policyKeys_nodup_iff _).mp hnodup) (fields.map Field.name) []
    keys (by simp) (by simpa [GoMap.keys] using hassigned)
  rw [hentries, hkeys]
  simp [policyEntries, policyKeys, List.range_eq_range']

/-- The keys one kind's entries get are the policy's exactly when the policy's
keys are distinct. -/
theorem registerAll_policy_iff (mk : Field → String → V) (fields : List Field) :
    (registerAll mk .empty fields).entries = policyEntries mk fields ↔
      (policyKeys (fields.map Field.name)).Nodup := by
  refine ⟨fun h => ?_, registerAll_policy mk fields⟩
  have := (registerAll mk .empty fields).nodup
  rwa [h, policyEntries, zipWith_keys (by simp [policyKeys])] at this

theorem registerAll_policy_get? (mk : Field → String → V) (fields : List Field)
    (hnodup : (policyKeys (fields.map Field.name)).Nodup) (i : Nat) (hi : i < fields.length) :
    (registerAll mk .empty fields).get? (policyKey (fields.map Field.name) i) =
      some (mk fields[i] (policyKey (fields.map Field.name) i)) := by
  rw [GoMap.get?_eq_some_iff, registerAll_policy mk fields hnodup, List.mem_iff_getElem]
  exact ⟨i, by simpa [policyEntries, policyKeys] using hi, by simp [policyEntries, policyKeys]⟩

/-- No declared name being another followed by digits keeps the policy's keys
apart: a later entry's key is never an earlier one's. -/
theorem DigitSuffixFree.policyKeys_nodup {names : List String} (hfree : DigitSuffixFree names) :
    (policyKeys names).Nodup := by
  have hlt : ∀ t s, t < s → s < names.length → policyKey names t ≠ policyKey names s := by
    intro t s hts hs h
    have hcount := count_take_lt names hts (by omega)
    rcases policyKey_cases names hs with ⟨h0, hk⟩ | ⟨j, hj, hk⟩
    · rw [hk] at h
      rw [policyKey_eq_name hfree (by omega) hs h] at hcount
      omega
    · rw [hk] at h
      obtain ⟨hat, hct⟩ := policyKey_eq_suffixed hfree (by omega) hs h
      rw [hat] at hcount
      omega
  refine (policyKeys_nodup_iff names).mpr fun t ht s hs h => ?_
  rcases Nat.lt_trichotomy t s with hts | rfl | hst
  · exact absurd h (hlt t s hts hs)
  · rfl
  · exact absurd h.symm (hlt s t hst ht)

/-- §3's policy, for both kinds: the entry at position `i` among the entries
of its kind is stored, under `policyKey`, as itself. -/
def KeysFollowPolicy (abi : ABI) (fields : List Field) : Prop :=
  (∀ i (hi : i < (fields.filter Field.isMccmod).length),
    abi.mccmods.get? (policyKey ((fields.filter Field.isMccmod).map Field.name) i) =
      some ((fields.filter Field.isMccmod)[i].toMccmod
        (policyKey ((fields.filter Field.isMccmod).map Field.name) i))) ∧
  (∀ i (hi : i < (fields.filter Field.isEvent).length),
    abi.events.get? (policyKey ((fields.filter Field.isEvent).map Field.name) i) =
      some ((fields.filter Field.isEvent)[i].toEvent
        (policyKey ((fields.filter Field.isEvent).map Field.name) i)))

/-- For every document, `UnmarshalJSON` files each kind's entries under §3's
policy keys (the first entry declared `n` under `n`, the `j`-th repeat under
`n` followed by `j - 1`) exactly when those keys are pairwise distinct, and then
`Mccmods[k]` and `Events[k]` are the entries the policy gives `k`; the keys are
distinct in particular when no declared name of a kind is another declared
name of that kind followed by digits. -/
theorem unmarshalJSON_keysFollowPolicy (abi : ABI) (fields : List Field) :
    ((abi.unmarshalJSON fields).mccmods.entries = policyEntries Field.toMccmod (fields.filter Field.isMccmod) ↔
      (policyKeys ((fields.filter Field.isMccmod).map Field.name)).Nodup) ∧
    ((abi.unmarshalJSON fields).events.entries = policyEntries Field.toEvent (fields.filter Field.isEvent) ↔
      (policyKeys ((fields.filter Field.isEvent).map Field.name)).Nodup) ∧
    ((policyKeys ((fields.filter Field.isMccmod).map Field.name)).Nodup →
      (policyKeys ((fields.filter Field.isEvent).map Field.name)).Nodup →
      KeysFollowPolicy (abi.unmarshalJSON fields) fields) ∧
    ∀ names : List String, DigitSuffixFree names → (policyKeys names).Nodup := by
  rw [unmarshalJSON_mccmods, unmarshalJSON_events]
  exact ⟨registerAll_policy_iff _ _, registerAll_policy_iff _ _,
    fun hm he => ⟨fun i hi => by rw [unmarshalJSON_mccmods]; exact registerAll_policy_get? _ _ hm i hi,
      fun i hi => by rw [unmarshalJSON_events]; exact registerAll_policy_get? _ _ he i hi⟩,
    fun _ hfree => hfree.policyKeys_nodup⟩

/-- `foo, foo, foo0`: the declared `foo0` is the first entry with its name,
yet `Mccmods["foo0"]` is the second `foo`. -/
theorem unmarshalJSON_generated_key_takes_declared :
    ¬ KeysFollowPolicy (ABI.zero.unmarshalJSON
      [⟨"function", "foo", false, false, [], []⟩,
        ⟨"function", "foo", false, false, [⟨"a", ⟨"uint256"⟩⟩], []⟩,
        ⟨"function", "foo0", false, false, [⟨"b", ⟨"address"⟩⟩], []⟩])
      [⟨"function", "foo", false, false, [], []⟩,
        ⟨"function", "foo", false, false, [⟨"a", ⟨"uint256"⟩⟩], []⟩,
        ⟨"function", "foo0", false, false, [⟨"b", ⟨"address"⟩⟩], []⟩] :=
  fun h => absurd (h.1 2 (by decide)) (by decide)

end Ccmchain.Abi
