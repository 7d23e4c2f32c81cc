import Ccmchain.Abi.Abi
import Mathlib.Data.List.Perm.Subperm
import Mathlib.Data.Nat.Digits

/-!
# The probing loop stops, at the first free key

`UnmarshalJSON`'s `for idx := 0; ok; idx++` has no bound in the source. It
stops because the keys it probes, `name0`, `name1`, ..., are pairwise
distinct — `%d` renders distinct numbers as distinct strings — and a map of
`n` keys cannot hold `n + 1` distinct ones.

The file proves the rendering injective by reading the digits back, turns
that into the pigeonhole, and reads off the contract of `probe`: it answers
the first free index, and that index is at most the map's size, so the fuel
`freshKey` passes is never the reason it stops. `FirstFree` states the
contract without the fuel, which is how the later files use it.
-/

namespace Ccmchain.Abi

/-! ## Decimal renderings are injective -/

/-- One step of reading decimal digits back, most significant first. -/
def decimalStep (acc : Nat) (c : Char) : Nat := 10 * acc + (c.toNat - 48)

theorem digitChar_toNat : ∀ d < 10, (Nat.digitChar d).toNat = 48 + d := by decide

theorem digitChar_isDigit : ∀ d < 10, (Nat.digitChar d).isDigit = true := by decide

theorem foldl_toDigitsCore (fuel n : Nat) (ds : List Char) (h : n < fuel) :
    (Nat.toDigitsCore 10 fuel n ds).foldl decimalStep 0 = ds.foldl decimalStep n := by
  induction fuel generalizing n ds with
  | zero => omega
  | succ fuel ih =>
      have hd : decimalStep 0 (Nat.digitChar (n % 10)) = n % 10 := by
        rw [decimalStep, digitChar_toNat _ (Nat.mod_lt _ (by omega))]; omega
      have hs : decimalStep (n / 10) (Nat.digitChar (n % 10)) = n := by
        rw [decimalStep, digitChar_toNat _ (Nat.mod_lt _ (by omega))]; omega
      simp only [Nat.toDigitsCore]
      split
      · next h0 => rw [List.foldl_cons, hd, Nat.mod_eq_of_lt (by omega : n < 10)]
      · next h0 => rw [ih _ _ (by omega), List.foldl_cons, hs]

theorem toString_data (n : Nat) : (toString n).data = Nat.toDigits 10 n := rfl

theorem foldl_toString (n : Nat) : (toString n).data.foldl decimalStep 0 = n := by
  rw [toString_data, Nat.toDigits, foldl_toDigitsCore _ _ _ (Nat.lt_succ_self n)]
  rfl

theorem toString_injective : Function.Injective (fun n : Nat => toString n) := by
  intro a b h
  rw [← foldl_toString a, ← foldl_toString b]
  exact congrArg (fun s : String => s.data.foldl decimalStep 0) h

theorem toDigitsCore_isDigit (fuel n : Nat) (ds : List Char) (hds : ∀ c ∈ ds, c.isDigit) :
    ∀ c ∈ Nat.toDigitsCore 10 fuel n ds, c.isDigit := by
  induction fuel generalizing n ds with
  | zero => exact hds
  | succ fuel ih =>
      have hd := digitChar_isDigit (n % 10) (Nat.mod_lt _ (by omega))
      have hcons : ∀ c ∈ Nat.digitChar (n % 10) :: ds, c.isDigit := by
        simpa [hd] using hds
      simp only [Nat.toDigitsCore]
      split
      · exact hcons
      · exact ih _ _ hcons

/-- What `%d` prints is digits only. -/
theorem toString_isDigit (n : Nat) : ∀ c ∈ (toString n).data, c.isDigit := by
  rw [toString_data]
  exact toDigitsCore_isDigit _ _ _ (by simp)

theorem suffixed_injective (name : String) : Function.Injective (suffixed name) := by
  intro a b h
  apply toString_injective
  have := congrArg String.data h
  simp only [suffixed, String.data_append, List.append_cancel_left_eq] at this
  exact String.ext this

/-! ## Pigeonhole and the contract of `probe` -/

variable {V : Type}

theorem exists_free_suffixed (m : GoMap V) (name : String) :
    ∃ idx ≤ m.size, suffixed name idx ∉ m.keys := by
  by_contra hall
  push_neg at hall
  have hsub : (List.range (m.size + 1)).map (suffixed name) ⊆ m.keys := by
    intro k hk
    obtain ⟨i, hi, rfl⟩ := List.mem_map.mp hk
    exact hall i (Nat.lt_succ_iff.mp (List.mem_range.mp hi))
  have hlen := (List.subperm_of_subset
    ((List.nodup_range _).map (suffixed_injective name)) hsub).length_le
  simp only [GoMap.keys, GoMap.size, List.length_map, List.length_range] at hlen
  omega

theorem probe_first_free (m : GoMap V) (name : String) (fuel idx : Nat)
    (hex : ∃ j, idx ≤ j ∧ j < idx + fuel ∧ suffixed name j ∉ m.keys) :
    ∃ j, idx ≤ j ∧ j < idx + fuel ∧ probe m name fuel idx = suffixed name j ∧
      suffixed name j ∉ m.keys ∧ ∀ k, idx ≤ k → k < j → suffixed name k ∈ m.keys := by
  induction fuel generalizing idx with
  | zero => obtain ⟨j, h1, h2, -⟩ := hex; omega
  | succ fuel ih =>
      by_cases htaken : suffixed name idx ∈ m.keys
      · obtain ⟨j, h1, h2, hj⟩ := hex
        have hne : j ≠ idx := by rintro rfl; exact hj htaken
        obtain ⟨j', h1', h2', hp, hfree, hbelow⟩ :=
          ih (idx + 1) ⟨j, by omega, by omega, hj⟩
        refine ⟨j', by omega, by omega, ?_, hfree, fun k hk hkj => ?_⟩
        · rw [probe, if_pos ((GoMap.contains_iff _ _).mpr htaken), hp]
        · rcases Nat.eq_or_lt_of_le hk with rfl | hk'
          · exact htaken
          · exact hbelow k hk' hkj
      · refine ⟨idx, le_rfl, by omega, ?_, htaken, fun k hk hkj => by omega⟩
        rw [probe, if_neg (by simpa using htaken)]

/-- What the loop answers, without its fuel: the declared name if it is free,
and otherwise the first of `name0`, `name1`, ... not in `taken`, reached
within `taken.length + 1` probes. -/
def FirstFree (taken : List String) (name key : String) : Prop :=
  (name ∉ taken ∧ key = name) ∨
    (name ∈ taken ∧ ∃ n ≤ taken.length, key = suffixed name n ∧ key ∉ taken ∧
      ∀ k < n, suffixed name k ∈ taken)

theorem FirstFree.not_mem {taken : List String} {name key : String}
    (h : FirstFree taken name key) : key ∉ taken := by
  rcases h with ⟨hn, rfl⟩ | ⟨-, n, -, -, hk, -⟩
  · exact hn
  · exact hk

/-- The contract of `freshKey`, one loop of `UnmarshalJSON`. -/
theorem freshKey_firstFree (m : GoMap V) (name : String) :
    FirstFree m.keys name (freshKey m name) := by
  by_cases hn : name ∈ m.keys
  · obtain ⟨j, -, -, hp, hfree, hbelow⟩ :=
      probe_first_free m name (m.size + 1) 0
        (by obtain ⟨i, hi, hf⟩ := exists_free_suffixed m name; exact ⟨i, by omega, by omega, hf⟩)
    have hj : j ≤ m.size := by
      by_contra hlt
      obtain ⟨i, hi, hf⟩ := exists_free_suffixed m name
      exact hf (hbelow i (Nat.zero_le _) (by omega))
    refine .inr ⟨hn, j, by simpa [GoMap.size, GoMap.keys] using hj, ?_, ?_, ?_⟩
    · rw [freshKey, if_pos ((GoMap.contains_iff _ _).mpr hn), hp]
    · rw [freshKey, if_pos ((GoMap.contains_iff _ _).mpr hn), hp]; exact hfree
    · exact fun k hk => hbelow k (Nat.zero_le _) hk
  · exact .inl ⟨hn, by rw [freshKey, if_neg (by simpa using hn)]⟩

theorem register_entries (m : GoMap V) (name : String) (mk : String → V) :
    (register m name mk).entries = m.entries ++ [(freshKey m name, mk (freshKey m name))] :=
  GoMap.insert_of_not_mem (freshKey_firstFree m name).not_mem _

end Ccmchain.Abi
