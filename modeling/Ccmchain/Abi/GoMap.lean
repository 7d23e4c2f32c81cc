import Mathlib.Data.List.Nodup

/-!
# Go maps keyed by strings

`abi.ABI` keeps its methods and events in `map[string]Mccmod` and
`map[string]Event`. The package does three things with such a map: it asks
whether a key is present (`_, ok := m[name]`), stores under a key
(`m[name] = v`), and ranges over it. A `GoMap` is the list of its entries in
one iteration order, with the one guarantee Go gives carried as a field: a key
occurs once.

Go fixes no iteration order, and the model does not pretend to: every
statement below is over every `GoMap`, so over every order a range over the
map might take. Storing a new key appends it, which is one order among the
others and the convenient one for induction.
-/

namespace Ccmchain.Abi

/-- A Go `map[string]V`, listed in one of its iteration orders. -/
structure GoMap (V : Type) where
  entries : List (String × V)
  nodup : (entries.map Prod.fst).Nodup

namespace GoMap

variable {V : Type}

/-- The map `make` returns. -/
def empty : GoMap V := ⟨[], List.nodup_nil⟩

def keys (m : GoMap V) : List String := m.entries.map Prod.fst

def values (m : GoMap V) : List V := m.entries.map Prod.snd

/-- `len(m)`. -/
def size (m : GoMap V) : Nat := m.entries.length

/-- `v, ok := m[k]`, with `ok` as `isSome`. -/
def get? (m : GoMap V) (k : String) : Option V := m.entries.lookup k

/-- `_, ok := m[k]`. -/
def contains (m : GoMap V) (k : String) : Bool := m.keys.contains k

theorem keys_nodup (m : GoMap V) : m.keys.Nodup := m.nodup

/-- `m[k] = v`: a key already present keeps its place and takes the new
value; a new one is appended. -/
def insert (m : GoMap V) (k : String) (v : V) : GoMap V :=
  if h : k ∈ m.keys then
    ⟨m.entries.map (fun e => if e.1 = k then (k, v) else e), by
      have hk : (m.entries.map (fun e => if e.1 = k then (k, v) else e)).map Prod.fst =
          m.keys := by
        simp only [keys, List.map_map]
        exact List.map_congr_left fun e _ => by by_cases he : e.1 = k <;> simp [he]
      exact hk ▸ m.nodup⟩
  else
    ⟨m.entries ++ [(k, v)], by
      rw [List.map_append, List.nodup_append]
      exact ⟨m.nodup, List.nodup_singleton _, by simpa [keys] using h⟩⟩

@[simp] theorem empty_entries : (empty : GoMap V).entries = [] := rfl

@[simp] theorem contains_iff (m : GoMap V) (k : String) : m.contains k = true ↔ k ∈ m.keys := by
  simp [contains]

theorem get?_eq_some_iff (m : GoMap V) (k : String) (v : V) :
    m.get? k = some v ↔ (k, v) ∈ m.entries := by
  have hmem : ∀ l : List (String × V), (l.map Prod.fst).Nodup →
      (l.lookup k = some v ↔ (k, v) ∈ l) := by
    intro l hl
    induction l with
    | nil => simp
    | cons e l ih =>
        obtain ⟨a, b⟩ := e
        rw [List.map_cons, List.nodup_cons] at hl
        by_cases hak : k = a
        · subst hak
          have : (k, v) ∉ l := fun h => hl.1 (List.mem_map.mpr ⟨_, h, rfl⟩)
          simp [List.lookup_cons, this, eq_comm]
        · have hne : (k == a) = false := by simpa using hak
          simp [List.lookup_cons, hne, hak, ih hl.2]
  exact hmem m.entries m.nodup

theorem get?_eq_none_iff (m : GoMap V) (k : String) : m.get? k = none ↔ k ∉ m.keys := by
  constructor
  · intro h hk
    obtain ⟨e, he, rfl⟩ := List.mem_map.mp hk
    have := (get?_eq_some_iff m e.1 e.2).mpr he
    rw [h] at this
    cases this
  · intro h
    cases hv : m.get? k with
    | none => rfl
    | some v => exact absurd (List.mem_map.mpr ⟨_, (get?_eq_some_iff m k v).mp hv, rfl⟩) h

theorem insert_of_not_mem {m : GoMap V} {k : String} (h : k ∉ m.keys) (v : V) :
    (m.insert k v).entries = m.entries ++ [(k, v)] := by
  simp [insert, h]

theorem mem_values_iff (m : GoMap V) (v : V) : v ∈ m.values ↔ ∃ k, m.get? k = some v := by
  simp only [values, List.mem_map, get?_eq_some_iff]
  exact ⟨fun ⟨e, he, hv⟩ => ⟨e.1, hv ▸ he⟩, fun ⟨k, hk⟩ => ⟨_, hk, rfl⟩⟩

/-- A range over the map that stops at the first value passing `p` finds the
same value in every iteration order exactly when no two different values pass. -/
theorem find?_values_order_free_iff (m : GoMap V) (p : V → Bool) :
    (∀ m' : GoMap V, m'.entries.Perm m.entries → m'.values.find? p = m.values.find? p) ↔
      ∀ x ∈ m.values, ∀ y ∈ m.values, p x → p y → x = y := by
  constructor
  · intro h x hx y hy hpx hpy
    -- ranging over the entry of a passing value first finds that value
    have hfirst : ∀ z ∈ m.values, p z → m.values.find? p = some z := by
      intro z hz hpz
      obtain ⟨e, he, rfl⟩ := List.mem_map.mp hz
      obtain ⟨s, t, hst⟩ := List.append_of_mem he
      have hperm : (e :: (s ++ t)).Perm m.entries := hst ▸ List.perm_middle.symm
      rw [← h ⟨e :: (s ++ t), (hperm.map Prod.fst).nodup_iff.mpr m.nodup⟩ hperm]
      simp [values, List.find?_cons, hpz]
    exact Option.some.inj ((hfirst x hx hpx).symm.trans (hfirst y hy hpy))
  · intro huniq m' hperm
    have hvals : m'.values.Perm m.values := hperm.map Prod.snd
    cases hfind : m.values.find? p with
    | none =>
        exact List.find?_eq_none.mpr fun x hx => List.find?_eq_none.mp hfind x (hvals.mem_iff.mp hx)
    | some x =>
        have hx := List.mem_of_find?_eq_some hfind
        cases hfind' : m'.values.find? p with
        | none =>
            exact absurd (List.find?_some hfind)
              (List.find?_eq_none.mp hfind' x (hvals.mem_iff.mpr hx))
        | some y =>
            rw [huniq y (hvals.mem_iff.mp (List.mem_of_find?_eq_some hfind')) x hx
              (List.find?_some hfind') (List.find?_some hfind)]

end GoMap

end Ccmchain.Abi
