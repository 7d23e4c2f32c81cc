import Ccmchain.Proofs.Registry

/-!
# Lookups by id, and the unpacking guard

`MccmodById` and `EventByID` range over a map and stop at the first entry
whose id matches. Go does not fix the order of the range, so nothing below
depends on it: the lookups fail exactly when no entry matches, and otherwise
answer some matching entry, whichever comes first. What `Pack` builds for a
named method starts with that method's id, so looking the call up again
finds a method with the same id — the method itself when its id is unique.
The empty name is the exception by design: `Pack("")` packs the constructor
and writes no id at all.

`Unpack` and `UnpackIntoMap` refuse empty data themselves and check the
multiple-of-32 length on the method branch; on the event branch the check is
the decoder's (§4.3). Either way a refused call writes nothing into its
destination.
-/

namespace Ccmchain.Abi

section Lookup

variable (keccak256 : Bytes → Hash)

theorem mccmodById_error_iff (abi : ABI) (sigdata : Bytes) :
    (∃ e, abi.mccmodById keccak256 sigdata = .error e) ↔
      sigdata.length < 4 ∨ ∀ mccmod ∈ abi.mccmods.values, mccmod.id keccak256 ≠ sigdata.take 4 := by
  unfold ABI.mccmodById
  by_cases hlen : sigdata.length < 4
  · simp [hlen]
  · rw [if_neg hlen]
    split
    · next mccmod hfind =>
        have hid : mccmod.id keccak256 = sigdata.take 4 := by simpa using List.find?_some hfind
        refine ⟨fun ⟨e, he⟩ => (by cases he), fun h => ?_⟩
        rcases h with h | h
        · exact absurd h hlen
        · exact absurd hid (h mccmod (List.mem_of_find?_eq_some hfind))
    · next hfind =>
        exact ⟨fun _ => .inr fun mccmod hm => by simpa using List.find?_eq_none.mp hfind mccmod hm,
          fun _ => ⟨_, rfl⟩⟩

theorem mccmodById_ok (abi : ABI) (sigdata : Bytes) {mccmod : Mccmod}
    (h : abi.mccmodById keccak256 sigdata = .ok mccmod) :
    mccmod ∈ abi.mccmods.values ∧ mccmod.id keccak256 = sigdata.take 4 := by
  unfold ABI.mccmodById at h
  split at h
  · cases h
  · split at h
    · next found hfind =>
        cases h
        exact ⟨List.mem_of_find?_eq_some hfind, by simpa using List.find?_some hfind⟩
    · cases h

theorem eventByID_ok (abi : ABI) (topic : Hash) {event : Event}
    (h : abi.eventByID keccak256 topic = .ok event) :
    event ∈ abi.events.values ∧ (event.id keccak256).bytes = topic.bytes := by
  unfold ABI.eventByID at h
  split at h
  · next found hfind =>
      cases h
      exact ⟨List.mem_of_find?_eq_some hfind, by simpa using List.find?_some hfind⟩
  · cases h

theorem eventByID_ok_iff (abi : ABI) (topic : Hash) :
    (∃ event, abi.eventByID keccak256 topic = .ok event) ↔
      ∃ event ∈ abi.events.values, (event.id keccak256).bytes = topic.bytes := by
  refine ⟨fun ⟨event, h⟩ => ⟨event, eventByID_ok keccak256 abi topic h⟩, fun ⟨event, hm, hid⟩ => ?_⟩
  unfold ABI.eventByID
  split
  · next found _ => exact ⟨found, rfl⟩
  · next hfind => exact absurd hid (by simpa using List.find?_eq_none.mp hfind event hm)

/-- A named call's data starts with the method's four-byte id. -/
theorem pack_take_id {Val : Type} (pack : List Argument → List Val → Except AbiError Bytes)
    (abi : ABI) {name : String} {mccmod : Mccmod} {args : List Val} {data : Bytes}
    (hname : name ≠ "") (hget : abi.mccmods.get? name = some mccmod)
    (h : abi.pack keccak256 pack name args = .ok data) :
    4 ≤ data.length ∧ data.take 4 = mccmod.id keccak256 := by
  rw [ABI.pack, if_neg hname, hget] at h
  dsimp only at h
  split at h
  · cases h
  · cases h
    have := Mccmod.id_length keccak256 mccmod
    exact ⟨by simp; omega, List.take_left' this⟩

/-- The selector round trip for every key, the empty one included: a call
`Pack` built for a stored method is found again by `MccmodById`, as a method
with the same id, and as that very method when no other shares its id. -/
def SelectorRoundTrip {Val : Type} (pack : List Argument → List Val → Except AbiError Bytes) :
    Prop :=
  ∀ (abi : ABI) (name : String) (mccmod : Mccmod) (args : List Val) (data : Bytes),
    abi.mccmods.get? name = some mccmod → abi.pack keccak256 pack name args = .ok data →
      ∃ found, abi.mccmodById keccak256 data = .ok found ∧
        found.id keccak256 = mccmod.id keccak256 ∧
        ((∀ other ∈ abi.mccmods.values, other.id keccak256 = mccmod.id keccak256 → other = mccmod) →
          found = mccmod)

/-- The lookups answer a matching entry exactly when there is one, and a call
packed for any non-empty key is found again by its selector. -/
theorem lookup_by_id {Val : Type} (pack : List Argument → List Val → Except AbiError Bytes) :
    (∀ (abi : ABI) (sigdata : Bytes),
      ((∃ e, abi.mccmodById keccak256 sigdata = .error e) ↔
        sigdata.length < 4 ∨
          ∀ mccmod ∈ abi.mccmods.values, mccmod.id keccak256 ≠ sigdata.take 4) ∧
      ∀ mccmod, abi.mccmodById keccak256 sigdata = .ok mccmod →
        mccmod ∈ abi.mccmods.values ∧ mccmod.id keccak256 = sigdata.take 4) ∧
    (∀ (abi : ABI) (topic : Hash),
      ((∃ event, abi.eventByID keccak256 topic = .ok event) ↔
        ∃ event ∈ abi.events.values, (event.id keccak256).bytes = topic.bytes) ∧
      ∀ event, abi.eventByID keccak256 topic = .ok event →
        event ∈ abi.events.values ∧ (event.id keccak256).bytes = topic.bytes) ∧
    (∀ (abi : ABI) (name : String) (mccmod : Mccmod) (args : List Val) (data : Bytes),
      name ≠ "" → abi.mccmods.get? name = some mccmod →
      abi.pack keccak256 pack name args = .ok data →
      ∃ found, abi.mccmodById keccak256 data = .ok found ∧
        found.id keccak256 = mccmod.id keccak256 ∧
        ((∀ other ∈ abi.mccmods.values, other.id keccak256 = mccmod.id keccak256 → other = mccmod) →
          found = mccmod)) := by
  refine ⟨fun abi sigdata => ⟨mccmodById_error_iff keccak256 abi sigdata,
      fun _ h => mccmodById_ok keccak256 abi sigdata h⟩,
    fun abi topic => ⟨eventByID_ok_iff keccak256 abi topic, fun _ h => eventByID_ok keccak256 abi topic h⟩,
    fun abi name mccmod args data hname hget h => ?_⟩
  obtain ⟨hlen, htake⟩ := pack_take_id keccak256 pack abi hname hget h
  have hmem : mccmod ∈ abi.mccmods.values := (GoMap.mem_values_iff _ _).mpr ⟨name, hget⟩
  cases hfound : abi.mccmodById keccak256 data with
  | error e =>
      rcases (mccmodById_error_iff keccak256 abi data).mp ⟨e, hfound⟩ with hshort | hnone
      · omega
      · exact absurd htake.symm (hnone mccmod hmem)
  | ok found =>
      obtain ⟨hfmem, hfid⟩ := mccmodById_ok keccak256 abi data hfound
      exact ⟨found, rfl, hfid.trans htake, fun huniq => huniq found hfmem (hfid.trans htake)⟩

/-! ## The order of the range

Go starts a range over a map at a random entry. Both lookups answer the first
match of their range, so they answer the same in every order exactly when the
match is unique; the selector is only four bytes, so for methods this is a
property of the document, not of the hash. -/

/-- With data long enough, two `MccmodById` lookups agree exactly when their
ranges find the same method. -/
theorem mccmodById_eq_iff {abi abi' : ABI} {sigdata : Bytes} (hlen : ¬ sigdata.length < 4) :
    abi'.mccmodById keccak256 sigdata = abi.mccmodById keccak256 sigdata ↔
      abi'.mccmods.values.find? (fun mccmod => mccmod.id keccak256 == sigdata.take 4) =
        abi.mccmods.values.find? (fun mccmod => mccmod.id keccak256 == sigdata.take 4) := by
  unfold ABI.mccmodById
  rw [if_neg hlen, if_neg hlen]
  generalize abi'.mccmods.values.find? (fun mccmod => mccmod.id keccak256 == sigdata.take 4) = a
  generalize abi.mccmods.values.find? (fun mccmod => mccmod.id keccak256 == sigdata.take 4) = b
  cases a <;> cases b <;> simp

theorem eventByID_eq_iff {abi abi' : ABI} {topic : Hash} :
    abi'.eventByID keccak256 topic = abi.eventByID keccak256 topic ↔
      abi'.events.values.find? (fun event => (event.id keccak256).bytes == topic.bytes) =
        abi.events.values.find? (fun event => (event.id keccak256).bytes == topic.bytes) := by
  unfold ABI.eventByID
  generalize abi'.events.values.find? (fun event => (event.id keccak256).bytes == topic.bytes) = a
  generalize abi.events.values.find? (fun event => (event.id keccak256).bytes == topic.bytes) = b
  cases a <;> cases b <;> simp

theorem mccmodById_order_free_iff (abi : ABI) (sigdata : Bytes) :
    (∀ abi' : ABI, abi'.mccmods.entries.Perm abi.mccmods.entries →
        abi'.mccmodById keccak256 sigdata = abi.mccmodById keccak256 sigdata) ↔
      ∀ m ∈ abi.mccmods.values, ∀ m' ∈ abi.mccmods.values,
        m.id keccak256 = sigdata.take 4 → m'.id keccak256 = sigdata.take 4 → m = m' := by
  by_cases hlen : sigdata.length < 4
  · -- too short: the lookup fails in every order, and no selector is that short
    refine ⟨fun _ m _ _ _ hm => absurd (congrArg List.length hm) ?_,
      fun _ abi' _ => by simp [ABI.mccmodById, hlen]⟩
    rw [Mccmod.id_length, List.length_take]
    omega
  · have hmaps : (∀ abi' : ABI, abi'.mccmods.entries.Perm abi.mccmods.entries →
          abi'.mccmodById keccak256 sigdata = abi.mccmodById keccak256 sigdata) ↔
        ∀ m' : GoMap Mccmod, m'.entries.Perm abi.mccmods.entries →
          m'.values.find? (fun mccmod => mccmod.id keccak256 == sigdata.take 4) =
            abi.mccmods.values.find? (fun mccmod => mccmod.id keccak256 == sigdata.take 4) :=
      ⟨fun h m' hp => (mccmodById_eq_iff keccak256 hlen).mp (h { abi with mccmods := m' } hp),
        fun h abi' hp => (mccmodById_eq_iff keccak256 hlen).mpr (h abi'.mccmods hp)⟩
    rw [hmaps, GoMap.find?_values_order_free_iff]
    simp only [beq_iff_eq]

theorem eventByID_order_free_iff (abi : ABI) (topic : Hash) :
    (∀ abi' : ABI, abi'.events.entries.Perm abi.events.entries →
        abi'.eventByID keccak256 topic = abi.eventByID keccak256 topic) ↔
      ∀ e ∈ abi.events.values, ∀ e' ∈ abi.events.values,
        (e.id keccak256).bytes = topic.bytes → (e'.id keccak256).bytes = topic.bytes → e = e' := by
  have hmaps : (∀ abi' : ABI, abi'.events.entries.Perm abi.events.entries →
        abi'.eventByID keccak256 topic = abi.eventByID keccak256 topic) ↔
      ∀ m' : GoMap Event, m'.entries.Perm abi.events.entries →
        m'.values.find? (fun event => (event.id keccak256).bytes == topic.bytes) =
          abi.events.values.find? (fun event => (event.id keccak256).bytes == topic.bytes) :=
    ⟨fun h m' hp => (eventByID_eq_iff keccak256).mp (h { abi with events := m' } hp),
      fun h abi' hp => (eventByID_eq_iff keccak256).mpr (h abi'.events hp)⟩
  rw [hmaps, GoMap.find?_values_order_free_iff]
  simp only [beq_iff_eq]

/-- Go ranges over `Mccmods` and `Events` in no fixed order. For every `ABI`,
`MccmodById` answers the same in every order exactly when no two different
methods have the data's selector, and `EventByID` exactly when no two
different events have the topic. -/
theorem lookups_order_free_iff (abi : ABI) (sigdata : Bytes) (topic : Hash) :
    ((∀ abi' : ABI, abi'.mccmods.entries.Perm abi.mccmods.entries →
        abi'.mccmodById keccak256 sigdata = abi.mccmodById keccak256 sigdata) ↔
      ∀ m ∈ abi.mccmods.values, ∀ m' ∈ abi.mccmods.values,
        m.id keccak256 = sigdata.take 4 → m'.id keccak256 = sigdata.take 4 → m = m') ∧
    ((∀ abi' : ABI, abi'.events.entries.Perm abi.events.entries →
        abi'.eventByID keccak256 topic = abi.eventByID keccak256 topic) ↔
      ∀ e ∈ abi.events.values, ∀ e' ∈ abi.events.values,
        (e.id keccak256).bytes = topic.bytes → (e'.id keccak256).bytes = topic.bytes → e = e') :=
  ⟨mccmodById_order_free_iff keccak256 abi sigdata, eventByID_order_free_iff keccak256 abi topic⟩

end Lookup

/-- A function entry with no name is stored under the empty key, but `Pack("")`
packs the constructor, with no selector: with an encoder that packs no
arguments to no bytes, as the spec's does, the call is too short to look up. -/
theorem pack_empty_name_not_found_by_id :
    ¬ ∀ (keccak256 : Bytes → Hash) (pack : List Argument → List Unit → Except AbiError Bytes),
      SelectorRoundTrip keccak256 pack := by
  intro h
  have hget : (ABI.zero.unmarshalJSON [⟨"function", "", false, false, [], []⟩]).mccmods.get? "" =
      some ⟨"", false, [], []⟩ := by decide
  obtain ⟨found, hfound, -⟩ := h (fun _ => ⟨List.replicate 32 0, rfl⟩) (fun _ _ => .ok [])
    _ "" _ [] [] hget rfl
  cases hfound

/-! ## The unpacking guard -/

theorem unpackWith_misaligned {D : Type} (improper : Bytes → AbiError)
    (decode : List Argument → Bytes → D → D × Option AbiError) (abi : ABI) (v : D)
    (name : String) (data : Bytes) (hbad : data.length = 0 ∨ data.length % 32 ≠ 0) :
    (abi.unpackWith improper decode v name data).1 = v ∧
      (abi.unpackWith improper decode v name data).2.isSome := by
  unfold ABI.unpackWith Arguments.unpack
  by_cases h0 : data.length = 0
  · simp [h0]
  · have hmod : data.length % 32 ≠ 0 := hbad.resolve_left h0
    rw [if_neg h0]
    split
    · simp [hmod]
    · split <;> simp [hmod]

/-- Data that is empty, or not a whole number of 32-byte words, is refused
by `Unpack` and by `UnpackIntoMap`, whatever the name resolves to, and the
destination is left as it was. -/
theorem unpack_rejects_misaligned {D Val : Type}
    (decode : List Argument → Bytes → D → D × Option AbiError)
    (decodeMap : List Argument → Bytes → GoMap Val → GoMap Val × Option AbiError)
    (abi : ABI) (v : D) (m : GoMap Val) (name : String) (data : Bytes)
    (hbad : data.length = 0 ∨ data.length % 32 ≠ 0) :
    ((abi.unpack decode v name data).1 = v ∧ (abi.unpack decode v name data).2.isSome) ∧
      ((abi.unpackIntoMap decodeMap m name data).1 = m ∧
        (abi.unpackIntoMap decodeMap m name data).2.isSome) :=
  ⟨unpackWith_misaligned _ decode abi v name data hbad,
    unpackWith_misaligned _ decodeMap abi m name data hbad⟩

theorem unpack_rejects_misaligned_event :
    (([7] : Bytes).length = 0 ∨ ([7] : Bytes).length % 32 ≠ 0) ∧
      (((ABI.zero.unmarshalJSON [⟨"event", "Transfer", false, false, [], []⟩]).unpack
          (fun _ _ v => (v, none)) () "Transfer" [7]).1 = () ∧
        ((ABI.zero.unmarshalJSON [⟨"event", "Transfer", false, false, [], []⟩]).unpack
          (fun _ _ v => (v, none)) () "Transfer" [7]).2.isSome) ∧
      (((ABI.zero.unmarshalJSON [⟨"event", "Transfer", false, false, [], []⟩]).unpackIntoMap
          (fun _ _ m => (m, none)) (GoMap.empty : GoMap Unit) "Transfer" [7]).1 = .empty ∧
        ((ABI.zero.unmarshalJSON [⟨"event", "Transfer", false, false, [], []⟩]).unpackIntoMap
          (fun _ _ m => (m, none)) (GoMap.empty : GoMap Unit) "Transfer" [7]).2.isSome) :=
  ⟨.inr (by decide), unpack_rejects_misaligned (fun _ _ v => (v, none)) (fun _ _ m => (m, none))
    _ () .empty "Transfer" [7] (.inr (by decide))⟩

end Ccmchain.Abi
