import Mathlib.Algebra.BigOperators.Group.List.Basic
import Mathlib.Algebra.GroupWithZero.Nat

/-!
# The chained hash map

`common/hashmap.c`: an array of buckets, each a singly linked chain of entries
searched from its head. A chain is the list of its entries; `Hashmap` carries
the facts every operation relies on (each entry sits in the bucket its hash
selects, no chain holds two equal keys, `size` counts the entries), so the
operations keep them by construction. Seen from outside a map is the finite map
`hashmapGet`, and the lemmas at the end state the operations in those terms.
-/

namespace MiniSqlite.Common

/-- `hash_fn` and `equal_fn` of a map: an equivalence that the hash respects. -/
structure HashKey (K : Type) where
  hashFn : K → Nat
  equalFn : K → K → Bool
  refl : ∀ key, equalFn key key = true
  symm : ∀ {first second}, equalFn first second = true → equalFn second first = true
  trans : ∀ {first second third}, equalFn first second = true →
    equalFn second third = true → equalFn first third = true
  hash_eq : ∀ {first second}, equalFn first second = true → hashFn first = hashFn second

/-- Keys compared as integers, the way `int_equal` compares them. -/
def HashKey.ofEq {K : Type} [DecidableEq K] (hashFn : K → Nat) : HashKey K where
  hashFn := hashFn
  equalFn first second := decide (first = second)
  refl := by simp
  symm := by simp +contextual [eq_comm]
  trans := by simp +contextual
  hash_eq := by simp +contextual

@[simp] theorem HashKey.ofEq_equalFn {K : Type} [DecidableEq K] (hashFn : K → Nat)
    (first second : K) :
    (HashKey.ofEq hashFn).equalFn first second = decide (first = second) := rfl

theorem HashKey.equalFn_congr {K : Type} (keys : HashKey K) {first second : K} (key : K)
    (equal : keys.equalFn first second = true) :
    keys.equalFn first key = keys.equalFn second key := by
  rw [Bool.eq_iff_iff]
  exact ⟨keys.trans (keys.symm equal), keys.trans equal⟩

/-! ## One chain -/

section Chain

variable {K V : Type} (keys : HashKey K)

/-- Walk a chain for the first entry whose key equals `key`. -/
def chainGet (key : K) : List (K × V) → Option V
  | [] => none
  | cur :: next => if keys.equalFn cur.1 key then some cur.2 else chainGet key next

/-- Overwrite the value of the first entry with that key; `none` when there is none. -/
def chainReplace (key : K) (value : V) : List (K × V) → Option (List (K × V))
  | [] => none
  | cur :: next =>
      if keys.equalFn cur.1 key then some ((cur.1, value) :: next)
      else (chainReplace key value next).map (cur :: ·)

/-- Unlink the first entry with that key; `none` when there is none. -/
def chainRemove (key : K) : List (K × V) → Option (List (K × V))
  | [] => none
  | cur :: next =>
      if keys.equalFn cur.1 key then some next
      else (chainRemove key next).map (cur :: ·)

variable {keys}

theorem chainGet_eq_none_iff {key : K} {chain : List (K × V)} :
    chainGet keys key chain = none ↔ ∀ entry ∈ chain, keys.equalFn entry.1 key = false := by
  induction chain with
  | nil => simp [chainGet]
  | cons cur next ih =>
      by_cases equal : keys.equalFn cur.1 key <;> simp [chainGet, equal, ih]

theorem chainGet_mem {key : K} {value : V} {chain : List (K × V)}
    (found : chainGet keys key chain = some value) :
    ∃ entry ∈ chain, keys.equalFn entry.1 key = true ∧ entry.2 = value := by
  induction chain with
  | nil => simp [chainGet] at found
  | cons cur next ih =>
      by_cases equal : keys.equalFn cur.1 key
      · simp only [chainGet, equal, if_true, Option.some.injEq] at found
        exact ⟨cur, List.mem_cons_self, equal, found⟩
      · simp only [chainGet, equal, Bool.false_eq_true, if_false] at found
        obtain ⟨entry, member, rest⟩ := ih found
        exact ⟨entry, List.mem_cons_of_mem _ member, rest⟩

/-- In a chain without equal keys, every entry is the one its key finds. -/
theorem chainGet_of_mem {chain : List (K × V)}
    (distinct : chain.Pairwise fun first second => keys.equalFn first.1 second.1 = false)
    {entry : K × V} (member : entry ∈ chain) :
    chainGet keys entry.1 chain = some entry.2 := by
  induction chain with
  | nil => simp at member
  | cons cur next ih =>
      rw [List.pairwise_cons] at distinct
      rcases List.mem_cons.mp member with rfl | inNext
      · simp [chainGet, keys.refl]
      · simp [chainGet, distinct.1 entry inNext, ih distinct.2 inNext]

theorem chainReplace_eq_none_iff {key : K} {value : V} {chain : List (K × V)} :
    chainReplace keys key value chain = none ↔ chainGet keys key chain = none := by
  induction chain with
  | nil => simp [chainReplace, chainGet]
  | cons cur next ih =>
      by_cases equal : keys.equalFn cur.1 key <;> simp [chainReplace, chainGet, equal, ih]

theorem chainReplace_keys {key : K} {value : V} {chain result : List (K × V)}
    (replaced : chainReplace keys key value chain = some result) :
    result.map Prod.fst = chain.map Prod.fst := by
  induction chain generalizing result with
  | nil => simp [chainReplace] at replaced
  | cons cur next ih =>
      by_cases equal : keys.equalFn cur.1 key
      · simp only [chainReplace, equal, if_true, Option.some.injEq] at replaced
        simp [← replaced]
      · simp only [chainReplace, equal, Bool.false_eq_true, if_false, Option.map_eq_some_iff]
          at replaced
        obtain ⟨rest, restEq, rfl⟩ := replaced
        simp [ih restEq]

theorem chainGet_replace {key : K} {value : V} {chain result : List (K × V)}
    (replaced : chainReplace keys key value chain = some result) (other : K) :
    chainGet keys other result =
      if keys.equalFn key other then some value else chainGet keys other chain := by
  induction chain generalizing result with
  | nil => simp [chainReplace] at replaced
  | cons cur next ih =>
      by_cases equal : keys.equalFn cur.1 key
      · simp only [chainReplace, equal, if_true, Option.some.injEq] at replaced
        subst replaced
        have same := keys.equalFn_congr other equal
        by_cases atOther : keys.equalFn key other <;> simp [chainGet, same, atOther]
      · simp only [chainReplace, equal, Bool.false_eq_true, if_false, Option.map_eq_some_iff]
          at replaced
        obtain ⟨rest, restEq, rfl⟩ := replaced
        by_cases atCur : keys.equalFn cur.1 other
        · have differs : keys.equalFn key other = false := by
            by_contra equalOther
            rw [Bool.not_eq_false] at equalOther
            exact equal (keys.trans atCur (keys.symm equalOther))
          simp [chainGet, atCur, differs]
        · simp [chainGet, atCur, ih restEq]

theorem chainRemove_eq_none_iff {key : K} {chain : List (K × V)} :
    chainRemove keys key chain = none ↔ chainGet keys key chain = none := by
  induction chain with
  | nil => simp [chainRemove, chainGet]
  | cons cur next ih =>
      by_cases equal : keys.equalFn cur.1 key <;> simp [chainRemove, chainGet, equal, ih]

theorem chainRemove_sublist {key : K} {chain result : List (K × V)}
    (removed : chainRemove keys key chain = some result) :
    result.Sublist chain ∧ result.length + 1 = chain.length := by
  induction chain generalizing result with
  | nil => simp [chainRemove] at removed
  | cons cur next ih =>
      by_cases equal : keys.equalFn cur.1 key
      · simp only [chainRemove, equal, if_true, Option.some.injEq] at removed
        subst removed
        exact ⟨List.sublist_cons_self _ _, by simp⟩
      · simp only [chainRemove, equal, Bool.false_eq_true, if_false, Option.map_eq_some_iff]
          at removed
        obtain ⟨rest, restEq, rfl⟩ := removed
        obtain ⟨sub, length⟩ := ih restEq
        exact ⟨sub.cons_cons cur, by simp [← length]⟩

theorem chainGet_remove {key : K} {chain result : List (K × V)}
    (distinct : chain.Pairwise fun first second => keys.equalFn first.1 second.1 = false)
    (removed : chainRemove keys key chain = some result) (other : K) :
    chainGet keys other result =
      if keys.equalFn key other then none else chainGet keys other chain := by
  induction chain generalizing result with
  | nil => simp [chainRemove] at removed
  | cons cur next ih =>
      rw [List.pairwise_cons] at distinct
      by_cases equal : keys.equalFn cur.1 key
      · simp only [chainRemove, equal, if_true, Option.some.injEq] at removed
        subst removed
        have same := keys.equalFn_congr other equal
        by_cases atOther : keys.equalFn key other
        · -- the unlinked entry was the only one with this key
          have absent : chainGet keys other next = none := by
            rw [chainGet_eq_none_iff]
            intro entry member
            have differs := distinct.1 entry member
            by_contra equalOther
            rw [Bool.not_eq_false] at equalOther
            have : keys.equalFn cur.1 entry.1 = true :=
              keys.trans (same.trans atOther) (keys.symm equalOther)
            simp [this] at differs
          simp [atOther, absent]
        · simp [chainGet, same, atOther]
      · simp only [chainRemove, equal, Bool.false_eq_true, if_false, Option.map_eq_some_iff]
          at removed
        obtain ⟨rest, restEq, rfl⟩ := removed
        by_cases atCur : keys.equalFn cur.1 other
        · have differs : keys.equalFn key other = false := by
            by_contra equalOther
            rw [Bool.not_eq_false] at equalOther
            exact equal (keys.trans atCur (keys.symm equalOther))
          simp [chainGet, atCur, differs]
        · simp [chainGet, atCur, ih distinct.2 restEq]

end Chain

/-! ## The map -/

/-- `hashmap_t`. Allocation is taken to succeed. -/
structure Hashmap {K : Type} (keys : HashKey K) (V : Type) where
  bucketCount : Nat
  /-- The chain of each bucket, from its head; used below `bucketCount`. -/
  buckets : Nat → List (K × V)
  size : Nat
  bucketCount_pos : 0 < bucketCount
  placed : ∀ idx, ∀ entry ∈ buckets idx, keys.hashFn entry.1 % bucketCount = idx
  distinct : ∀ idx, (buckets idx).Pairwise
    fun first second => keys.equalFn first.1 second.1 = false
  size_eq : size = ((List.range bucketCount).map fun idx => (buckets idx).length).sum

namespace Hashmap

variable {K V : Type} {keys : HashKey K}

/-- `HASHMAP_DEFAULT_BUCKETS`. -/
def defaultBuckets : Nat := 64

/-- `hashmap_init`. -/
def hashmapInit (keys : HashKey K) (V : Type) (bucketCount : Nat) : Hashmap keys V where
  bucketCount := if bucketCount = 0 then defaultBuckets else bucketCount
  buckets _ := []
  size := 0
  bucketCount_pos := by
    split
    · decide
    · omega
  placed := by simp
  distinct := by simp
  size_eq := by simp

/-- The bucket a key belongs to. -/
def bucketOf (map : Hashmap keys V) (key : K) : Nat := keys.hashFn key % map.bucketCount

/-- `hashmap_get`; the source's `NULL` for an absent key is `none`. -/
def hashmapGet (map : Hashmap keys V) (key : K) : Option V :=
  chainGet keys key (map.buckets (map.bucketOf key))

theorem bucketOf_lt (map : Hashmap keys V) (key : K) : map.bucketOf key < map.bucketCount :=
  Nat.mod_lt _ map.bucketCount_pos

/-- Entries with equal keys live in the same bucket. -/
theorem bucketOf_congr (map : Hashmap keys V) {first second : K}
    (equal : keys.equalFn first second = true) : map.bucketOf first = map.bucketOf second := by
  unfold bucketOf
  rw [keys.hash_eq equal]

private theorem sum_update {count idx : Nat} (inside : idx < count) (lengths : Nat → Nat)
    (length : Nat) :
    ((List.range count).map fun i => if i = idx then length else lengths i).sum + lengths idx =
      ((List.range count).map lengths).sum + length := by
  induction count with
  | zero => omega
  | succ count ih =>
      simp only [List.range_succ, List.map_append, List.map_cons, List.map_nil, List.sum_append,
        List.sum_cons, List.sum_nil, Nat.add_zero]
      by_cases last : idx = count
      · subst last
        have unchanged : ((List.range idx).map fun i => if i = idx then length else lengths i) =
            (List.range idx).map lengths := by
          apply List.map_congr_left
          intro i member
          have below := List.mem_range.mp member
          rw [if_neg (by omega)]
        rw [unchanged, if_pos rfl]
        omega
      · have := ih (by omega)
        rw [if_neg (Ne.symm last)]
        omega

/-- Exchange one bucket's chain. -/
private def setBucket (buckets : Nat → List (K × V)) (idx : Nat) (chain : List (K × V)) :
    Nat → List (K × V) :=
  fun i => if i = idx then chain else buckets i

private theorem setBucket_size (map : Hashmap keys V) {idx : Nat} (inside : idx < map.bucketCount)
    (chain : List (K × V)) :
    ((List.range map.bucketCount).map
      fun i => (setBucket map.buckets idx chain i).length).sum + (map.buckets idx).length =
      map.size + chain.length := by
  have split : (fun i => (setBucket map.buckets idx chain i).length) =
      fun i => if i = idx then chain.length else (map.buckets i).length := by
    funext i
    unfold setBucket
    split <;> rfl
  rw [split, map.size_eq]
  exact sum_update inside (fun i => (map.buckets i).length) chain.length

/-- `hashmap_put`: overwrite the value of an existing key, else link a new entry
at the head of its bucket. -/
def hashmapPut (map : Hashmap keys V) (key : K) (value : V) : Hashmap keys V :=
  let idx := map.bucketOf key
  match replaced : chainReplace keys key value (map.buckets idx) with
  | some chain =>
      { map with
        buckets := setBucket map.buckets idx chain
        placed := by
          intro i entry member
          by_cases same : i = idx
          · subst same
            simp only [setBucket, if_true] at member
            have inKeys : entry.1 ∈ chain.map Prod.fst := List.mem_map_of_mem member
            rw [chainReplace_keys replaced, List.mem_map] at inKeys
            obtain ⟨old, oldMember, oldKey⟩ := inKeys
            rw [← oldKey]
            exact map.placed _ old oldMember
          · simp only [setBucket, if_neg same] at member
            exact map.placed _ entry member
        distinct := by
          intro i
          by_cases same : i = idx
          · subst same
            simp only [setBucket, if_true]
            have old := map.distinct (map.bucketOf key)
            rw [← List.pairwise_map (f := Prod.fst)
              (R := fun first second => keys.equalFn first second = false)] at old ⊢
            rwa [chainReplace_keys replaced]
          · simpa only [setBucket, if_neg same] using map.distinct i
        size_eq := by
          have total := @setBucket_size _ _ _ map idx (map.bucketOf_lt key) chain
          have length : chain.length = (map.buckets idx).length := by
            simpa using congrArg List.length (chainReplace_keys replaced)
          omega }
  | none =>
      { map with
        buckets := setBucket map.buckets idx ((key, value) :: map.buckets idx)
        size := map.size + 1
        placed := by
          intro i entry member
          by_cases same : i = idx
          · subst same
            simp only [setBucket, if_true, List.mem_cons] at member
            rcases member with rfl | member
            · rfl
            · exact map.placed _ entry member
          · simp only [setBucket, if_neg same] at member
            exact map.placed _ entry member
        distinct := by
          intro i
          by_cases same : i = idx
          · subst same
            simp only [setBucket, if_true, List.pairwise_cons]
            refine ⟨?_, map.distinct _⟩
            intro entry member
            rw [chainReplace_eq_none_iff, chainGet_eq_none_iff] at replaced
            by_contra equal
            rw [Bool.not_eq_false] at equal
            have := replaced entry member
            simp [keys.symm equal] at this
          · simpa only [setBucket, if_neg same] using map.distinct i
        size_eq := by
          have total := @setBucket_size _ _ _ map idx (map.bucketOf_lt key)
            ((key, value) :: map.buckets idx)
          simp only [List.length_cons] at total
          omega }

/-- `hashmap_put_old`, which walks and changes the chain as `hashmap_put` does: the map and
the value overwritten, with `none` for `NULL`. -/
def hashmapPutOld (map : Hashmap keys V) (key : K) (value : V) : Hashmap keys V × Option V :=
  (map.hashmapPut key value, map.hashmapGet key)

/-- `hashmap_remove`. An absent key leaves the map as it is (the source returns
`-1` there and `0` otherwise). -/
def hashmapRemove (map : Hashmap keys V) (key : K) : Hashmap keys V :=
  let idx := map.bucketOf key
  match removed : chainRemove keys key (map.buckets idx) with
  | some chain =>
      { map with
        buckets := setBucket map.buckets idx chain
        size := map.size - 1
        placed := by
          intro i entry member
          by_cases same : i = idx
          · subst same
            simp only [setBucket, if_true] at member
            exact map.placed _ entry ((chainRemove_sublist removed).1.subset member)
          · simp only [setBucket, if_neg same] at member
            exact map.placed _ entry member
        distinct := by
          intro i
          by_cases same : i = idx
          · subst same
            simp only [setBucket, if_true]
            exact (map.distinct _).sublist (chainRemove_sublist removed).1
          · simpa only [setBucket, if_neg same] using map.distinct i
        size_eq := by
          have total := @setBucket_size _ _ _ map idx (map.bucketOf_lt key) chain
          have length := (chainRemove_sublist removed).2
          omega }
  | none => map

/-- The code that `hashmap_remove` returns. -/
def hashmapRemoveCode (map : Hashmap keys V) (key : K) : Int :=
  match chainRemove keys key (map.buckets (map.bucketOf key)) with
  | some _ => 0
  | none => -1

/-! ## The finite map it represents -/

@[simp] theorem hashmapGet_init (bucketCount : Nat) (key : K) :
    hashmapGet (hashmapInit keys V bucketCount) key = none := rfl

@[simp] theorem hashmapPut_bucketCount (map : Hashmap keys V) (key : K) (value : V) :
    (map.hashmapPut key value).bucketCount = map.bucketCount := by
  unfold hashmapPut
  dsimp only
  split <;> rfl

@[simp] theorem hashmapRemove_bucketCount (map : Hashmap keys V) (key : K) :
    (map.hashmapRemove key).bucketCount = map.bucketCount := by
  unfold hashmapRemove
  dsimp only
  split <;> rfl

theorem hashmapGet_put (map : Hashmap keys V) (key : K) (value : V) (other : K) :
    (map.hashmapPut key value).hashmapGet other =
      if keys.equalFn key other then some value else map.hashmapGet other := by
  have bucket : (map.hashmapPut key value).bucketOf other = map.bucketOf other := by
    simp [bucketOf]
  unfold hashmapGet
  rw [bucket]
  by_cases same : map.bucketOf other = map.bucketOf key
  · unfold hashmapPut
    dsimp only
    split
    · rename_i chain replaced
      simp only [setBucket, same, if_true]
      exact chainGet_replace replaced other
    · simp only [setBucket, same, if_true, chainGet]
  · have differs : keys.equalFn key other = false := by
      by_contra equal
      rw [Bool.not_eq_false] at equal
      exact same (map.bucketOf_congr equal).symm
    unfold hashmapPut
    dsimp only
    split <;> simp [setBucket, same, differs]

theorem hashmapGet_remove (map : Hashmap keys V) (key other : K) :
    (map.hashmapRemove key).hashmapGet other =
      if keys.equalFn key other then none else map.hashmapGet other := by
  have bucket : (map.hashmapRemove key).bucketOf other = map.bucketOf other := by
    simp [bucketOf]
  unfold hashmapGet
  rw [bucket]
  by_cases same : map.bucketOf other = map.bucketOf key
  · unfold hashmapRemove
    dsimp only
    split
    · rename_i chain removed
      simp only [setBucket, same, if_true]
      exact chainGet_remove (map.distinct _) removed other
    · rename_i absent
      rw [chainRemove_eq_none_iff, chainGet_eq_none_iff] at absent
      by_cases equal : keys.equalFn key other
      · simp only [equal, if_true]
        rw [same, chainGet_eq_none_iff]
        intro entry member
        by_contra found
        rw [Bool.not_eq_false] at found
        have := absent entry member
        simp [keys.trans found (keys.symm equal)] at this
      · simp [equal]
  · have differs : keys.equalFn key other = false := by
      by_contra equal
      rw [Bool.not_eq_false] at equal
      exact same (map.bucketOf_congr equal).symm
    unfold hashmapRemove
    dsimp only
    split <;> simp [setBucket, same, differs]

/-- All entries, bucket by bucket and each chain from its head. -/
def entries (map : Hashmap keys V) : List (K × V) :=
  (List.range map.bucketCount).flatMap map.buckets

theorem mem_entries_iff {map : Hashmap keys V} {entry : K × V} :
    entry ∈ map.entries ↔ entry ∈ map.buckets (map.bucketOf entry.1) := by
  unfold entries
  rw [List.mem_flatMap]
  constructor
  · rintro ⟨idx, _, member⟩
    have here := map.placed idx entry member
    unfold bucketOf
    rwa [here]
  · intro member
    exact ⟨_, List.mem_range.mpr (map.bucketOf_lt entry.1), member⟩

theorem hashmapGet_of_mem {map : Hashmap keys V} {entry : K × V} (member : entry ∈ map.entries) :
    map.hashmapGet entry.1 = some entry.2 :=
  chainGet_of_mem (map.distinct _) (mem_entries_iff.mp member)

theorem exists_mem_of_hashmapGet {map : Hashmap keys V} {key : K} {value : V}
    (found : map.hashmapGet key = some value) :
    ∃ entry ∈ map.entries, keys.equalFn entry.1 key = true ∧ entry.2 = value := by
  obtain ⟨entry, member, equal, valueEq⟩ := chainGet_mem found
  refine ⟨entry, ?_, equal, valueEq⟩
  rw [mem_entries_iff, map.bucketOf_congr equal]
  exact member

/-- No two entries of a map have equal keys. -/
theorem entries_pairwise (map : Hashmap keys V) :
    map.entries.Pairwise fun first second => keys.equalFn first.1 second.1 = false := by
  unfold entries
  rw [List.pairwise_flatMap]
  refine ⟨fun idx _ => map.distinct idx, ?_⟩
  refine List.pairwise_lt_range.imp ?_
  intro first second less one oneMember two twoMember
  by_contra equal
  rw [Bool.not_eq_false] at equal
  have := map.bucketOf_congr equal
  unfold bucketOf at this
  rw [map.placed _ one oneMember, map.placed _ two twoMember] at this
  omega

/-- The entries of a map whose keys are compared by equality are its lookups. -/
theorem mem_entries_eq {L : Type} [DecidableEq L] {hashFn : L → Nat}
    {map : Hashmap (.ofEq hashFn) V} {entry : L × V} :
    entry ∈ map.entries ↔ map.hashmapGet entry.1 = some entry.2 := by
  constructor
  · exact hashmapGet_of_mem
  · intro found
    obtain ⟨other, member, equal, same⟩ := exists_mem_of_hashmapGet found
    rw [HashKey.ofEq_equalFn, decide_eq_true_eq] at equal
    rwa [show entry = other from Prod.ext equal.symm same.symm]

theorem hashmapGet_put_eq {L : Type} [DecidableEq L] {hashFn : L → Nat}
    (map : Hashmap (.ofEq hashFn) V) (key : L) (value : V) (other : L) :
    (map.hashmapPut key value).hashmapGet other =
      if other = key then some value else map.hashmapGet other := by
  rw [hashmapGet_put, HashKey.ofEq_equalFn]
  simp only [decide_eq_true_eq, @eq_comm _ key other]

theorem hashmapGet_remove_eq {L : Type} [DecidableEq L] {hashFn : L → Nat}
    (map : Hashmap (.ofEq hashFn) V) (key other : L) :
    (map.hashmapRemove key).hashmapGet other =
      if other = key then none else map.hashmapGet other := by
  rw [hashmapGet_remove, HashKey.ofEq_equalFn]
  simp only [decide_eq_true_eq, @eq_comm _ key other]

/-- `size` is the number of entries. -/
theorem size_eq_length_entries (map : Hashmap keys V) : map.size = map.entries.length := by
  rw [map.size_eq, entries, List.length_flatMap]

/-! ## Iteration -/

/-- `hashmap_iter_t`: the next bucket to visit and the chain from the current
entry on (`[]` for the source's `NULL` entry). -/
structure Iter (K V : Type) where
  bucketIdx : Nat
  entry : List (K × V)

/-- `hashmap_iter_init`. -/
def iterInit : Iter K V := ⟨0, []⟩

/-- The loop of `hashmap_iter_next` that looks for a non-empty bucket; `remaining`
counts the buckets not yet visited. -/
def skipEmpty (map : Hashmap keys V) : (remaining : Nat) → Iter K V → Iter K V
  | 0, it => it
  | remaining + 1, it =>
      if it.entry.isEmpty then
        skipEmpty map remaining ⟨it.bucketIdx + 1, map.buckets it.bucketIdx⟩
      else it

/-- `hashmap_iter_next`; `none` when the iteration is over. -/
def iterNext (map : Hashmap keys V) (it : Iter K V) : Option (Iter K V × (K × V)) :=
  let advanced := { it with entry := it.entry.tail }
  let it := skipEmpty map (map.bucketCount - it.bucketIdx) advanced
  it.entry.head?.map fun entry => (it, entry)

/-- The entries an iterator still has to visit: the rest of its chain and the
buckets from its index on. -/
def Iter.pending (map : Hashmap keys V) (it : Iter K V) : List (K × V) :=
  it.entry.tail ++ ((List.range map.bucketCount).drop it.bucketIdx).flatMap map.buckets

theorem skipEmpty_spec (map : Hashmap keys V) (remaining : Nat) (it : Iter K V)
    (visits : it.bucketIdx + remaining = map.bucketCount) :
    let after := skipEmpty map remaining it
    after.entry ++ ((List.range map.bucketCount).drop after.bucketIdx).flatMap map.buckets =
        it.entry ++ ((List.range map.bucketCount).drop it.bucketIdx).flatMap map.buckets ∧
      after.bucketIdx ≤ map.bucketCount ∧
      (after.entry = [] → after.bucketIdx = map.bucketCount) := by
  induction remaining generalizing it with
  | zero => exact ⟨rfl, Nat.le_of_eq visits, fun _ => visits⟩
  | succ remaining ih =>
      unfold skipEmpty
      split
      · rename_i empty
        rw [List.isEmpty_iff] at empty
        obtain ⟨same, bound, ends⟩ := ih ⟨it.bucketIdx + 1, map.buckets it.bucketIdx⟩ (by
          dsimp only
          omega)
        refine ⟨?_, bound, ends⟩
        rw [same, empty, List.nil_append]
        have here : it.bucketIdx < (List.range map.bucketCount).length := by
          rw [List.length_range]
          omega
        rw [List.drop_eq_getElem_cons here]
        simp
      · rename_i nonempty
        rw [List.isEmpty_iff] at nonempty
        exact ⟨rfl, by omega, fun empty => absurd empty nonempty⟩

/-- One call returns the first pending entry and leaves the others pending. -/
theorem iterNext_spec (map : Hashmap keys V) (it : Iter K V)
    (inside : it.bucketIdx ≤ map.bucketCount) :
    match iterNext map it with
    | none => it.pending map = []
    | some (next, entry) =>
        it.pending map = entry :: next.pending map ∧ next.bucketIdx ≤ map.bucketCount := by
  have spec := skipEmpty_spec map (map.bucketCount - it.bucketIdx)
    { it with entry := it.entry.tail } (by dsimp only; omega)
  dsimp only at spec
  unfold iterNext
  dsimp only
  generalize skipEmpty map (map.bucketCount - it.bucketIdx) { it with entry := it.entry.tail }
    = after at spec
  obtain ⟨same, bound, ends⟩ := spec
  obtain ⟨bucketIdx, entry⟩ := after
  cases entry with
  | nil =>
      have finished : bucketIdx = map.bucketCount := ends rfl
      simp only [List.head?_nil, Option.map_none]
      unfold Iter.pending
      rw [← same, finished, List.drop_eq_nil_of_le (by simp)]
      rfl
  | cons head tail =>
      simp only [List.head?_cons, Option.map_some]
      exact ⟨same.symm, bound⟩

/-- The entries a loop over `hashmap_iter_next` sees in at most `fuel` calls. -/
def drain (map : Hashmap keys V) : (fuel : Nat) → Iter K V → List (K × V)
  | 0, _ => []
  | fuel + 1, it =>
      match iterNext map it with
      | none => []
      | some (next, entry) => entry :: drain map fuel next

theorem drain_eq_pending (map : Hashmap keys V) {fuel : Nat} {it : Iter K V}
    (inside : it.bucketIdx ≤ map.bucketCount) (enough : (it.pending map).length < fuel) :
    drain map fuel it = it.pending map := by
  induction fuel generalizing it with
  | zero => omega
  | succ fuel ih =>
      have spec := iterNext_spec map it inside
      unfold drain
      cases result : iterNext map it with
      | none =>
          rw [result] at spec
          exact spec.symm
      | some pair =>
          obtain ⟨next, entry⟩ := pair
          rw [result] at spec
          dsimp only at spec ⊢
          rw [spec.1, List.length_cons] at enough
          rw [spec.1, ih spec.2 (by omega)]

/-- A complete iteration visits every entry once, in bucket order. -/
theorem drain_eq_entries (map : Hashmap keys V) :
    drain map (map.size + 1) iterInit = map.entries := by
  have pending : (iterInit : Iter K V).pending map = map.entries := rfl
  rw [← pending]
  apply drain_eq_pending map (Nat.zero_le _)
  rw [pending, map.size_eq_length_entries]
  omega

end Hashmap

end MiniSqlite.Common
