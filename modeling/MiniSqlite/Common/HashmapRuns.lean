import Mathlib.Data.Finmap
import MiniSqlite.Common.Hashmap
import MiniSqlite.Std.Run

/-!
# Runs of the hash map

A hash map is a finite map from classes of equal keys to values. Any run of calls
answers as that map does, and an iteration visits each of its bindings once
(`hashmap_refines`).
-/

namespace MiniSqlite.Common

open MiniSqlite.Std

variable {K V : Type} {keys : HashKey K}

/-! ## The finite map -/

/-- Equal keys, which are one key of the finite map. -/
def HashKey.setoid (keys : HashKey K) : Setoid K where
  r first second := keys.equalFn first second = true
  iseqv := ⟨keys.refl, keys.symm, keys.trans⟩

/-- A key up to the equality of the map. -/
abbrev HashKey.Class (keys : HashKey K) : Type := Quotient keys.setoid

/-- The class of a key. -/
def HashKey.classOf (keys : HashKey K) (key : K) : keys.Class := Quotient.mk keys.setoid key

instance HashKey.decidableEqClass (keys : HashKey K) : DecidableEq keys.Class :=
  @Quotient.decidableEq K keys.setoid fun _ _ => inferInstanceAs (Decidable (_ = true))

theorem HashKey.classOf_eq {first second : K} :
    keys.classOf first = keys.classOf second ↔ keys.equalFn first second = true :=
  @Quotient.eq K keys.setoid first second

/-- The finite map that a hash map stands for. -/
abbrev Bindings (keys : HashKey K) (V : Type) : Type := Finmap fun _ : keys.Class => V

/-- An entry as a binding. -/
def bindingOf (keys : HashKey K) (entry : K × V) : Sigma fun _ : keys.Class => V :=
  ⟨keys.classOf entry.1, entry.2⟩

namespace Hashmap

theorem bindings_nodupKeys (map : Hashmap keys V) :
    (map.entries.map (bindingOf keys)).NodupKeys := by
  rw [List.NodupKeys, List.keys, List.map_map, List.Nodup, List.pairwise_map]
  refine map.entries_pairwise.imp fun {first second} differ same => ?_
  rw [HashKey.classOf_eq.mp same] at differ
  cases differ

/-- The bindings of a hash map. -/
def bindings (map : Hashmap keys V) : Bindings keys V :=
  AList.toFinmap ⟨map.entries.map (bindingOf keys), map.bindings_nodupKeys⟩

/-- Equal keys find the same value. -/
theorem hashmapGet_congr (map : Hashmap keys V) {first second : K}
    (equal : keys.equalFn first second = true) : map.hashmapGet first = map.hashmapGet second := by
  rw [hashmapGet, hashmapGet, map.bucketOf_congr equal]
  generalize map.buckets (map.bucketOf second) = chain
  induction chain with
  | nil => rfl
  | cons cur next ih =>
      have alike : keys.equalFn cur.1 first = keys.equalFn cur.1 second := by
        rw [Bool.eq_iff_iff]
        exact ⟨fun here => keys.trans here equal, fun here => keys.trans here (keys.symm equal)⟩
      rw [chainGet, chainGet, alike, ih]

/-- Looking a key up finds the binding of its class. -/
theorem lookup_bindings (map : Hashmap keys V) (key : K) :
    map.bindings.lookup (keys.classOf key) = map.hashmapGet key := by
  apply Option.ext
  intro value
  rw [bindings, Finmap.lookup_toFinmap, AList.lookup, ← Option.mem_def,
    List.mem_dlookup_iff map.bindings_nodupKeys, List.mem_map]
  constructor
  · rintro ⟨entry, member, same⟩
    obtain ⟨sameClass, sameValue⟩ := Sigma.mk.inj same
    rw [← map.hashmapGet_congr (HashKey.classOf_eq.mp sameClass), hashmapGet_of_mem member,
      eq_of_heq sameValue]
  · intro found
    obtain ⟨entry, member, equal, rfl⟩ := exists_mem_of_hashmapGet found
    refine ⟨entry, member, ?_⟩
    rw [bindingOf, HashKey.classOf_eq.mpr equal]

/-- A finite map with the lookups of a hash map is the map of its bindings. -/
theorem eq_bindings {map : Hashmap keys V} {found : Bindings keys V}
    (same : ∀ key, map.hashmapGet key = found.lookup (keys.classOf key)) :
    found = map.bindings := by
  apply Finmap.ext_lookup
  intro key
  induction key using Quotient.inductionOn with
  | _ key => exact (same key).symm.trans (map.lookup_bindings key).symm

theorem entries_bindings (map : Hashmap keys V) :
    map.bindings.entries = (map.entries.map (bindingOf keys) : Multiset _) := rfl

theorem card_bindings (map : Hashmap keys V) : map.size = map.bindings.keys.card := by
  have keysVal : map.bindings.keys.val = ((map.entries.map (bindingOf keys)).keys : Multiset _) := rfl
  rw [Finset.card_def, keysVal, Multiset.coe_card, List.keys, List.length_map, List.length_map,
    size_eq_length_entries]

end Hashmap

/-! ## Calls -/

/-- A call of the map. Values are pointers, with `none` for `NULL`. -/
inductive HashCall (K P : Type) where
  | put (key : K) (value : Option P)
  | putOld (key : K) (value : Option P)
  | get (key : K)
  | remove (key : K)

/-- What a call returns. -/
inductive HashAnswer (P : Type) where
  | code (rc : Int)
  | pointer (value : Option P)

variable {P : Type}

/-- A call on the hash map. `NULL` stands for an absent key and for a value that is `NULL`. -/
def hashCall (map : Hashmap keys (Option P)) :
    HashCall K P → Hashmap keys (Option P) × HashAnswer P
  | .put key value => (map.hashmapPut key value, .code 0)
  | .putOld key value =>
      ((map.hashmapPutOld key value).1, .pointer (map.hashmapPutOld key value).2.join)
  | .get key => (map, .pointer (map.hashmapGet key).join)
  | .remove key => (map.hashmapRemove key, .code (map.hashmapRemoveCode key))

/-- The call on the finite map. -/
def bindingsCall (found : Bindings keys (Option P)) :
    HashCall K P → Bindings keys (Option P) × HashAnswer P
  | .put key value => (found.insert (keys.classOf key) value, .code 0)
  | .putOld key value => (found.insert (keys.classOf key) value,
      .pointer (found.lookup (keys.classOf key)).join)
  | .get key => (found, .pointer (found.lookup (keys.classOf key)).join)
  | .remove key => (found.erase (keys.classOf key), .code (if keys.classOf key ∈ found then 0 else -1))

/-- An iteration from some place on: the entries that `hashmap_iter_next` gives before it
returns 0. -/
inductive Iterates (map : Hashmap keys V) : Hashmap.Iter K V → List (K × V) → Prop where
  | done {it : Hashmap.Iter K V} (ended : map.iterNext it = none) : Iterates map it []
  | next {it after : Hashmap.Iter K V} {entry : K × V} {rest : List (K × V)}
      (gives : map.iterNext it = some (after, entry)) (later : Iterates map after rest) :
      Iterates map it (entry :: rest)

/-! ## Refinement -/

theorem hashmapRemoveCode_eq (map : Hashmap keys V) (key : K) :
    map.hashmapRemoveCode key = if keys.classOf key ∈ map.bindings then 0 else -1 := by
  have found : keys.classOf key ∈ map.bindings ↔
      chainRemove keys key (map.buckets (map.bucketOf key)) ≠ none := by
    rw [← Finmap.lookup_isSome, map.lookup_bindings, Option.isSome_iff_ne_none, Ne, Ne,
      chainRemove_eq_none_iff]
    rfl
  unfold Hashmap.hashmapRemoveCode
  by_cases absent : chainRemove keys key (map.buckets (map.bucketOf key)) = none
  · rw [absent, if_neg (fun member => found.mp member absent)]
  · obtain ⟨chain, removed⟩ := Option.ne_none_iff_exists'.mp absent
    rw [removed, if_pos (found.mpr absent)]

theorem bindings_put (map : Hashmap keys V) (key : K) (value : V) :
    map.bindings.insert (keys.classOf key) value = (map.hashmapPut key value).bindings := by
  apply Hashmap.eq_bindings
  intro other
  rw [Hashmap.hashmapGet_put]
  by_cases equal : keys.equalFn key other = true
  · rw [if_pos equal, ← HashKey.classOf_eq.mpr equal, Finmap.lookup_insert]
  · have differ : keys.classOf other ≠ keys.classOf key := fun same =>
      equal (HashKey.classOf_eq.mp same.symm)
    rw [if_neg equal, Finmap.lookup_insert_of_ne _ differ, map.lookup_bindings]

theorem bindings_remove (map : Hashmap keys V) (key : K) :
    map.bindings.erase (keys.classOf key) = (map.hashmapRemove key).bindings := by
  apply Hashmap.eq_bindings
  intro other
  rw [Hashmap.hashmapGet_remove]
  by_cases equal : keys.equalFn key other = true
  · rw [if_pos equal, ← HashKey.classOf_eq.mpr equal, Finmap.lookup_erase]
  · have differ : keys.classOf other ≠ keys.classOf key := fun same =>
      equal (HashKey.classOf_eq.mp same.symm)
    rw [if_neg equal, Finmap.lookup_erase_ne differ, map.lookup_bindings]

/-- A call answers as on the finite map, and its bindings become those of the finite map. -/
theorem hashCall_refines (map : Hashmap keys (Option P)) (call : HashCall K P) :
    (hashCall map call).2 = (bindingsCall map.bindings call).2 ∧
      (bindingsCall map.bindings call).1 = (hashCall map call).1.bindings := by
  cases call with
  | put key value => exact ⟨rfl, bindings_put map key value⟩
  | putOld key value =>
      refine ⟨?_, bindings_put map key value⟩
      rw [hashCall, bindingsCall, map.lookup_bindings]
      rfl
  | get key =>
      refine ⟨?_, rfl⟩
      rw [hashCall, bindingsCall, map.lookup_bindings]
  | remove key =>
      refine ⟨?_, bindings_remove map key⟩
      rw [hashCall, bindingsCall, hashmapRemoveCode_eq]

theorem bindings_init (bucketCount : Nat) :
    (Hashmap.hashmapInit keys V bucketCount).bindings = ∅ := by
  refine (Hashmap.eq_bindings fun key => ?_).symm
  rw [Hashmap.hashmapGet_init, Finmap.lookup_empty]

/-- An iteration gives the entries it has pending, and ends. -/
theorem iterates_pending (map : Hashmap keys V) {it : Hashmap.Iter K V}
    (inside : it.bucketIdx ≤ map.bucketCount) : Iterates map it (it.pending map) := by
  generalize pending : it.pending map = visited
  induction visited generalizing it with
  | nil =>
      have spec := map.iterNext_spec it inside
      cases gives : map.iterNext it with
      | none => exact .done gives
      | some pair =>
          obtain ⟨after, entry⟩ := pair
          rw [gives, pending] at spec
          cases spec.1
  | cons entry rest ih =>
      have spec := map.iterNext_spec it inside
      cases gives : map.iterNext it with
      | none =>
          rw [gives, pending] at spec
          cases spec
      | some pair =>
          obtain ⟨after, other⟩ := pair
          rw [gives, pending] at spec
          obtain ⟨rfl, later⟩ := List.cons.inj spec.1
          exact .next gives (ih spec.2 later.symm)

/-- Whatever the calls, the hash map answers as the finite map, has its bindings and their
number, and an iteration ends after visiting each of them once. -/
theorem hashmap_refines (keys : HashKey K) (bucketCount : Nat) (calls : List (HashCall K P)) :
    let (map, answers) := runAnswers hashCall (.hashmapInit keys (Option P) bucketCount) calls
    let (found, expected) := runAnswers bindingsCall (∅ : Bindings keys (Option P)) calls
    answers = expected ∧ (∀ key, map.hashmapGet key = found.lookup (keys.classOf key)) ∧
      map.size = found.keys.card ∧
      ∃ visited, Iterates map Hashmap.iterInit visited ∧
        (visited.map (bindingOf keys) : Multiset _) = found.entries := by
  have step (map : Hashmap keys (Option P)) (found : Bindings keys (Option P))
      (call : HashCall K P) (same : found = map.bindings) :
      (hashCall map call).2 = (bindingsCall found call).2 ∧
        (bindingsCall found call).1 = (hashCall map call).1.bindings := by
    subst same
    exact hashCall_refines map call
  obtain ⟨answered, same⟩ := runAnswers_refines step (bindings_init bucketCount).symm calls
  dsimp only
  rw [same]
  refine ⟨answered, fun key => (Hashmap.lookup_bindings _ key).symm, Hashmap.card_bindings _, _,
    iterates_pending _ (Nat.zero_le _), rfl⟩

end MiniSqlite.Common
