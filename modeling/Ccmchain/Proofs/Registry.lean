import Ccmchain.Proofs.FreshKey

/-!
# What `UnmarshalJSON` stores

The loop over the document touches `Mccmods` only on function entries and
`Events` only on event entries, so each map is a fold of `register` over the
entries of its own kind (`unmarshalJSON_mccmods`, `unmarshalJSON_events`).
That fold is described once, for either kind: the keys it picks are the
loop's answers in order, each computed against the keys already taken
(`Assigned`), and the map's entries are those keys zipped with the entries.

From there the registry's shape is arithmetic on lists: no key repeats, so
nothing is overwritten; each entry is stored with its own fields and its key
as `Name`; each key is the declared name or the name followed by a number
below the count of entries of that kind.
-/

namespace Ccmchain.Abi

variable {V : Type}

/-- The loop of `UnmarshalJSON` as one kind's map sees it: the entries of
that kind, registered in document order. -/
def registerAll (mk : Field → String → V) (m : GoMap V) (fields : List Field) : GoMap V :=
  fields.foldl (fun m field => register m field.name (mk field)) m

/-- `keys` are the loop's answers for `names` in order, each one against the
keys in `taken` and those answered before it. -/
def Assigned : List String → List String → List String → Prop
  | _, [], [] => True
  | taken, key :: keys, name :: names => FirstFree taken name key ∧ Assigned (taken ++ [key]) keys names
  | _, _, _ => False

/-! ## One kind at a time -/

theorem unmarshalField_mccmods (abi : ABI) (field : Field) :
    (abi.unmarshalField field).mccmods =
      if field.isMccmod then register abi.mccmods field.name field.toMccmod else abi.mccmods := by
  unfold ABI.unmarshalField
  split <;> simp_all [Field.isMccmod]

theorem unmarshalField_events (abi : ABI) (field : Field) :
    (abi.unmarshalField field).events =
      if field.isEvent then register abi.events field.name field.toEvent else abi.events := by
  unfold ABI.unmarshalField
  split <;> simp_all [Field.isEvent]

theorem foldl_unmarshalField_mccmods (abi : ABI) (fields : List Field) :
    (fields.foldl ABI.unmarshalField abi).mccmods =
      registerAll Field.toMccmod abi.mccmods (fields.filter Field.isMccmod) := by
  induction fields generalizing abi with
  | nil => rfl
  | cons field fields ih =>
      rw [List.foldl_cons, ih, unmarshalField_mccmods, List.filter_cons]
      split <;> rfl

theorem foldl_unmarshalField_events (abi : ABI) (fields : List Field) :
    (fields.foldl ABI.unmarshalField abi).events =
      registerAll Field.toEvent abi.events (fields.filter Field.isEvent) := by
  induction fields generalizing abi with
  | nil => rfl
  | cons field fields ih =>
      rw [List.foldl_cons, ih, unmarshalField_events, List.filter_cons]
      split <;> rfl

theorem unmarshalJSON_mccmods (abi : ABI) (fields : List Field) :
    (abi.unmarshalJSON fields).mccmods =
      registerAll Field.toMccmod .empty (fields.filter Field.isMccmod) :=
  foldl_unmarshalField_mccmods _ fields

theorem unmarshalJSON_events (abi : ABI) (fields : List Field) :
    (abi.unmarshalJSON fields).events =
      registerAll Field.toEvent .empty (fields.filter Field.isEvent) :=
  foldl_unmarshalField_events _ fields

/-! ## The constructor

The loop replaces `Constructor` at each entry of type "constructor", and
`UnmarshalJSON` makes both maps anew but leaves `Constructor` as it was. -/

theorem unmarshalField_constructor (abi : ABI) (field : Field) :
    (abi.unmarshalField field).constructor =
      if field.type = "constructor" then ⟨"", false, field.inputs, []⟩ else abi.constructor := by
  unfold ABI.unmarshalField
  split <;> simp_all

theorem foldl_unmarshalField_constructor (abi : ABI) (fields : List Field) :
    (fields.foldl ABI.unmarshalField abi).constructor =
      match (fields.filter fun f => f.type == "constructor").getLast? with
      | some f => ⟨"", false, f.inputs, []⟩
      | none => abi.constructor := by
  induction fields generalizing abi with
  | nil => rfl
  | cons field fields ih =>
      rw [List.foldl_cons, ih, unmarshalField_constructor, List.filter_cons]
      by_cases hc : field.type = "constructor"
      · simp only [hc, beq_self_eq_true, if_true, List.getLast?_cons]
        cases (fields.filter fun f => f.type == "constructor").getLast? <;> rfl
      · simp only [hc, if_false, beq_iff_eq, Bool.false_eq_true]

/-- For every document and every `ABI` it is loaded into, `UnmarshalJSON`
makes the methods and the events anew, each from the empty map and the
document's entries of its kind alone, and leaves the constructor built from the
inputs of the document's last entry of type "constructor"; a document with none
leaves the constructor the `ABI` had before. -/
theorem unmarshalJSON_reload (abi : ABI) (fields : List Field) :
    (abi.unmarshalJSON fields).mccmods =
        registerAll Field.toMccmod .empty (fields.filter Field.isMccmod) ∧
      (abi.unmarshalJSON fields).events =
        registerAll Field.toEvent .empty (fields.filter Field.isEvent) ∧
      (abi.unmarshalJSON fields).constructor =
        match (fields.filter fun f => f.type == "constructor").getLast? with
        | some f => ⟨"", false, f.inputs, []⟩
        | none => abi.constructor :=
  ⟨unmarshalJSON_mccmods abi fields, unmarshalJSON_events abi fields,
    foldl_unmarshalField_constructor _ fields⟩

/-! ## The fold, for either kind -/

theorem registerAll_spec (mk : Field → String → V) (m : GoMap V) (fields : List Field) :
    ∃ keys, Assigned m.keys keys (fields.map Field.name) ∧
      (registerAll mk m fields).entries =
        m.entries ++ List.zipWith (fun key field => (key, mk field key)) keys fields := by
  induction fields generalizing m with
  | nil => exact ⟨[], trivial, by simp [registerAll]⟩
  | cons field fields ih =>
      obtain ⟨keys, hassigned, hentries⟩ := ih (register m field.name (mk field))
      have hkeys : (register m field.name (mk field)).keys = m.keys ++ [freshKey m field.name] := by
        simp [GoMap.keys, register_entries]
      refine ⟨freshKey m field.name :: keys, ⟨freshKey_firstFree m field.name, hkeys ▸ hassigned⟩, ?_⟩
      simp [registerAll, List.foldl_cons] at hentries ⊢
      rw [hentries, register_entries]
      simp

theorem Assigned.length_eq {taken keys names : List String} (h : Assigned taken keys names) :
    keys.length = names.length := by
  induction keys generalizing taken names with
  | nil => cases names <;> simp_all [Assigned]
  | cons key keys ih =>
      cases names with
      | nil => exact h.elim
      | cons name names => simp [ih h.2]

/-- Every answer of the loop is the declared name, or the name followed by a
number smaller than the count of keys there will be. -/
theorem Assigned.shape {taken keys names : List String} (h : Assigned taken keys names) :
    List.Forall₂ (fun key name => key = name ∨
      ∃ n < taken.length + names.length, key = suffixed name n) keys names := by
  induction keys generalizing taken names with
  | nil => cases names <;> simp_all [Assigned]
  | cons key keys ih =>
      cases names with
      | nil => exact h.elim
      | cons name names =>
          obtain ⟨hfree, hrest⟩ := h
          refine .cons ?_ ((ih hrest).imp fun k n hk => ?_)
          · rcases hfree with ⟨-, rfl⟩ | ⟨-, n, hn, rfl, -⟩
            · exact .inl rfl
            · exact .inr ⟨n, by simp; omega, rfl⟩
          · rcases hk with hk | ⟨j, hj, rfl⟩
            · exact .inl hk
            · exact .inr ⟨j, by simp at hj ⊢; omega, rfl⟩

theorem zipWith_keys {mk : Field → String → V} {keys : List String} {fields : List Field}
    (h : keys.length = fields.length) :
    (List.zipWith (fun key field => (key, mk field key)) keys fields).map Prod.fst = keys := by
  induction keys generalizing fields with
  | nil => rfl
  | cons key keys ih =>
      cases fields with
      | nil => simp at h
      | cons field fields => simp [ih (by simpa using h)]

/-- The registry one kind's entries build: their keys, each entry stored once
under its own key, and each key the declared name or the name followed by a
number below the count of entries. -/
theorem registerAll_empty_spec (mk : Field → String → V) (fields : List Field) :
    ∃ keys : List String, keys.Nodup ∧
      (registerAll mk .empty fields).entries =
        List.zipWith (fun key field => (key, mk field key)) keys fields ∧
      List.Forall₂ (fun key field => key = field.name ∨
        ∃ n < fields.length, key = suffixed field.name n) keys fields := by
  obtain ⟨keys, hassigned, hentries⟩ := registerAll_spec mk .empty fields
  have hlen := hassigned.length_eq
  simp only [List.length_map] at hlen
  have hshape := hassigned.shape
  simp only [GoMap.keys, GoMap.empty_entries, List.map_nil, List.length_nil, Nat.zero_add,
    List.length_map] at hshape
  simp only [GoMap.empty_entries, List.nil_append] at hentries
  refine ⟨keys, ?_, hentries, ?_⟩
  · have := (registerAll mk .empty fields).nodup
    rwa [hentries, zipWith_keys hlen] at this
  · exact List.forall₂_map_right_iff.mp hshape

/-- `UnmarshalJSON` files every function entry under a key of its own, with
its fields and its key as `Name`, and likewise every event entry; each kind's
map is built from that kind's entries alone. -/
theorem unmarshalJSON_registers (abi : ABI) (fields : List Field) :
    (∃ keys : List String, keys.Nodup ∧
      (abi.unmarshalJSON fields).mccmods.entries =
        List.zipWith (fun key field => (key, field.toMccmod key)) keys
          (fields.filter Field.isMccmod) ∧
      List.Forall₂ (fun key field => key = field.name ∨
        ∃ n < (fields.filter Field.isMccmod).length, key = suffixed field.name n)
        keys (fields.filter Field.isMccmod)) ∧
    (∃ keys : List String, keys.Nodup ∧
      (abi.unmarshalJSON fields).events.entries =
        List.zipWith (fun key field => (key, field.toEvent key)) keys
          (fields.filter Field.isEvent) ∧
      List.Forall₂ (fun key field => key = field.name ∨
        ∃ n < (fields.filter Field.isEvent).length, key = suffixed field.name n)
        keys (fields.filter Field.isEvent)) ∧
    (abi.unmarshalJSON fields).mccmods =
      (abi.unmarshalJSON (fields.filter Field.isMccmod)).mccmods ∧
    (abi.unmarshalJSON fields).events =
      (abi.unmarshalJSON (fields.filter Field.isEvent)).events := by
  refine ⟨?_, ?_, ?_, ?_⟩
  · rw [unmarshalJSON_mccmods]; exact registerAll_empty_spec _ _
  · rw [unmarshalJSON_events]; exact registerAll_empty_spec _ _
  · rw [unmarshalJSON_mccmods, unmarshalJSON_mccmods, List.filter_filter]
    simp
  · rw [unmarshalJSON_events, unmarshalJSON_events, List.filter_filter]
    simp

/-! ## Signatures of stored methods -/

theorem mem_zipWith_toMccmod {keys : List String} {fields : List Field} {key : String}
    {mccmod : Mccmod}
    (h : (key, mccmod) ∈ List.zipWith (fun key field => (key, field.toMccmod key)) keys fields) :
    mccmod.name = key := by
  induction keys generalizing fields with
  | nil => simp at h
  | cons k keys ih =>
      cases fields with
      | nil => simp at h
      | cons field fields =>
          rcases List.mem_cons.mp h with h | h
          · cases h; rfl
          · exact ih h

/-- A stored method's name is its key, so `Sig()`, and the selector hashed
from it, are built from the key the loop picked. -/
theorem unmarshalJSON_sig (abi : ABI) (fields : List Field) {key : String} {mccmod : Mccmod}
    (h : (abi.unmarshalJSON fields).mccmods.get? key = some mccmod) :
    mccmod.sig = signature key mccmod.inputs := by
  obtain ⟨keys, -, hentries, -⟩ := (unmarshalJSON_registers abi fields).1
  rw [GoMap.get?_eq_some_iff, hentries] at h
  rw [Mccmod.sig, mem_zipWith_toMccmod h]

/-- Two overloads of `foo`: the second is filed under `foo0`, and its `Sig()`
and every call `Pack` builds for it start from the hash of `foo0(address)`. -/
theorem unmarshalJSON_overload_selector :
    ((ABI.zero.unmarshalJSON
      [⟨"function", "foo", false, false, [⟨"a", ⟨"uint256"⟩⟩], []⟩,
        ⟨"function", "foo", false, false, [⟨"b", ⟨"address"⟩⟩], []⟩]).mccmods.get? "foo0").map
      Mccmod.sig = some "foo0(address)" ∧
    ∀ (keccak256 : Bytes → Hash) (Val : Type)
      (pack : List Argument → List Val → Except AbiError Bytes) (args : List Val),
      (ABI.zero.unmarshalJSON
        [⟨"function", "foo", false, false, [⟨"a", ⟨"uint256"⟩⟩], []⟩,
          ⟨"function", "foo", false, false, [⟨"b", ⟨"address"⟩⟩], []⟩]).pack
        keccak256 pack "foo0" args =
      (pack [⟨"b", ⟨"address"⟩⟩] args).map
        fun arguments => (keccak256 (utf8 "foo0(address)")).bytes.take 4 ++ arguments := by
  have hget : (ABI.zero.unmarshalJSON
      [⟨"function", "foo", false, false, [⟨"a", ⟨"uint256"⟩⟩], []⟩,
        ⟨"function", "foo", false, false, [⟨"b", ⟨"address"⟩⟩], []⟩]).mccmods.get? "foo0" =
      some ⟨"foo0", false, [⟨"b", ⟨"address"⟩⟩], []⟩ := by
    decide
  refine ⟨by rw [hget, Option.map_some', unmarshalJSON_sig ABI.zero _ hget]; rfl,
    fun keccak256 Val pack args => ?_⟩
  rw [ABI.pack, if_neg (by decide), hget]
  dsimp only
  cases pack _ args <;> rfl

end Ccmchain.Abi
