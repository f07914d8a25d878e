import Mathlib.Data.List.Nodup
import Mathlib.Data.List.Perm.Basic

/-! Values in buckets under distinct keys, listed in an order that means
nothing, and what a search that stops at its first hit can find in them. -/
namespace TinyMachine.Lib

structure Index (κ β : Type) where
  buckets : List (κ × List β)
  distinct : (buckets.map Prod.fst).Nodup

namespace Index
variable {κ β : Type}

def empty : Index κ β := ⟨[], List.nodup_nil⟩

/-- All values, bucket by bucket in the order of the listing. -/
def values (index : Index κ β) : List β := index.buckets.flatMap Prod.snd

/-- The same buckets, perhaps listed in another order. -/
def Same (index other : Index κ β) : Prop := index.buckets.Perm other.buckets

/-- A search for the first value of this kind ends here if this bucket is the
first to have one. -/
def MayFind (index : Index κ β) (kind : β → Bool) (value : β) : Prop :=
  ∃ bucket ∈ index.buckets, bucket.2.find? kind = some value

section Lookup
variable [DecidableEq κ]

def bucket (index : Index κ β) (key : κ) : Option (List β) :=
  (index.buckets.find? fun bucket => bucket.1 = key).map Prod.snd

theorem bucket_eq_some_iff {index : Index κ β} {key : κ} {values : List β} :
    index.bucket key = some values ↔ (key, values) ∈ index.buckets := by
  unfold bucket
  rw [Option.map_eq_some_iff]
  constructor
  · rintro ⟨⟨other, _⟩, found, rfl⟩
    have same : other = key := by simpa using List.find?_some found
    exact same ▸ List.mem_of_find?_eq_some found
  · intro member
    cases found : index.buckets.find? fun bucket => bucket.1 = key with
    | none => exact absurd (decide_eq_true rfl) (List.find?_eq_none.mp found _ member)
    | some other =>
      have same : other.1 = key := by simpa using List.find?_some found
      have there := List.mem_of_find?_eq_some found
      exact ⟨other, rfl, congrArg Prod.snd (List.inj_on_of_nodup_map index.distinct there member same)⟩

/-- Looking a key up does not depend on the order. -/
theorem Same.bucket_eq {index other : Index κ β} (same : index.Same other) (key : κ) :
    index.bucket key = other.bucket key :=
  Option.ext fun _ => by rw [bucket_eq_some_iff, bucket_eq_some_iff, same.mem_iff]

private theorem update_keys (f : List β → List β) (key : κ) (buckets : List (κ × List β)) :
    (buckets.map fun bucket => if bucket.1 = key then (key, f bucket.2) else bucket).map Prod.fst =
      buckets.map Prod.fst := by
  rw [List.map_map]
  refine List.map_congr_left fun bucket _ => ?_
  rw [Function.comp_apply]
  split
  · rename_i same
    exact same.symm
  · rfl

/-- The value joins the bucket of its key, a new one where there is none. -/
def push (index : Index κ β) (key : κ) (value : β) : Index κ β :=
  if present : key ∈ index.buckets.map Prod.fst then
    { buckets := index.buckets.map fun bucket =>
        if bucket.1 = key then (key, bucket.2 ++ [value]) else bucket
      distinct := update_keys (· ++ [value]) key index.buckets ▸ index.distinct }
  else
    { buckets := index.buckets ++ [(key, [value])]
      distinct := by
        rw [List.map_append, List.nodup_append]
        refine ⟨index.distinct, List.nodup_singleton key, ?_⟩
        intro old member added only same
        rw [List.map_singleton, List.mem_singleton] at only
        rw [same, only] at member
        exact present member }

theorem mem_push {index : Index κ β} {key : κ} {value : β} {bucket : κ × List β}
    (member : bucket ∈ (index.push key value).buckets) :
    bucket ∈ index.buckets ∨ bucket = (key, [value]) ∨
      ∃ old, (key, old) ∈ index.buckets ∧ bucket = (key, old ++ [value]) := by
  unfold push at member
  split at member
  · obtain ⟨old, inside, rfl⟩ := List.mem_map.mp member
    split
    · rename_i same
      exact .inr (.inr ⟨old.2, same ▸ inside, rfl⟩)
    · exact .inl inside
  · rcases List.mem_append.mp member with inside | only
    · exact .inl inside
    · exact .inr (.inl (List.mem_singleton.mp only))

/-- The values of every key are changed, by a function of the key. -/
def mapBuckets (index : Index κ β) (f : List β → List β) : Index κ β where
  buckets := index.buckets.map fun bucket => (bucket.1, f bucket.2)
  distinct := by
    rw [List.map_map]
    exact index.distinct

/-- What is kept of the values of one key; a key without values goes. -/
def keepAt (key : κ) (keep : β → Bool) (bucket : κ × List β) : Option (κ × List β) :=
  if bucket.1 = key then
    if bucket.2.filter keep = [] then none else some (key, bucket.2.filter keep)
  else some bucket

omit [DecidableEq κ] in
private theorem keys_filterMap {f : κ × List β → Option (κ × List β)} {buckets : List (κ × List β)}
    (keys : ∀ bucket other, f bucket = some other → other.1 = bucket.1) :
    ((buckets.filterMap f).map Prod.fst).Sublist (buckets.map Prod.fst) := by
  induction buckets with
  | nil => exact .slnil
  | cons bucket rest ih =>
    rw [List.map_cons]
    cases kept : f bucket with
    | none =>
      rw [List.filterMap_cons_none kept]
      exact ih.cons _
    | some other =>
      rw [List.filterMap_cons_some kept, List.map_cons, keys bucket other kept]
      exact ih.cons_cons _

theorem keepAt_key {key : κ} {keep : β → Bool} {bucket other : κ × List β} (kept : keepAt key keep bucket = some other) :
    other.1 = bucket.1 := by
  unfold keepAt at kept
  split at kept
  · rename_i same
    split at kept
    · cases kept
    · cases kept
      exact same.symm
  · cases kept
    rfl

def retainAt (index : Index κ β) (key : κ) (keep : β → Bool) : Index κ β where
  buckets := index.buckets.filterMap (keepAt key keep)
  distinct := index.distinct.sublist (keys_filterMap fun _ _ => keepAt_key)

/-- The values of a key, none where the key is missing. -/
def valuesAt (index : Index κ β) (key : κ) : List β := (index.bucket key).getD []

theorem mem_valuesAt_iff {index : Index κ β} {key : κ} {value : β} :
    value ∈ index.valuesAt key ↔ ∃ values, (key, values) ∈ index.buckets ∧ value ∈ values := by
  unfold valuesAt
  cases found : index.bucket key with
  | none =>
    constructor
    · intro none
      cases none
    · rintro ⟨values, there, -⟩
      rw [← bucket_eq_some_iff, found] at there
      cases there
  | some values =>
    constructor
    · intro member
      exact ⟨values, bucket_eq_some_iff.mp found, member⟩
    · rintro ⟨other, there, member⟩
      rw [← bucket_eq_some_iff, found] at there
      cases there
      exact member

theorem bucket_eq_none_iff {index : Index κ β} {key : κ} :
    index.bucket key = none ↔ key ∉ index.buckets.map Prod.fst := by
  unfold bucket
  rw [Option.map_eq_none_iff, List.find?_eq_none]
  simp only [decide_eq_true_eq, List.mem_map, not_exists, not_and]

@[simp] theorem valuesAt_empty (key : κ) : (empty : Index κ β).valuesAt key = [] := rfl

theorem valuesAt_of_mem {index : Index κ β} {key : κ} {values : List β} (member : (key, values) ∈ index.buckets) :
    index.valuesAt key = values := by
  rw [valuesAt, bucket_eq_some_iff.mpr member]
  rfl

theorem valuesAt_of_none {index : Index κ β} {key : κ} (missing : index.bucket key = none) :
    index.valuesAt key = [] := by
  rw [valuesAt, missing]
  rfl

theorem mem_push_iff {index : Index κ β} {key : κ} {value : β} {bucket : κ × List β} :
    bucket ∈ (index.push key value).buckets ↔
      bucket ∈ index.buckets ∧ bucket.1 ≠ key ∨ bucket = (key, index.valuesAt key ++ [value]) := by
  unfold push
  split
  · rename_i present
    rw [List.mem_map]
    constructor
    · rintro ⟨old, member, rfl⟩
      by_cases same : old.1 = key
      · subst same
        exact .inr (by rw [if_pos rfl, valuesAt_of_mem member])
      · exact .inl (by rw [if_neg same]; exact ⟨member, same⟩)
    · rintro (⟨member, other⟩ | rfl)
      · exact ⟨bucket, member, if_neg other⟩
      · obtain ⟨old, member, rfl⟩ := List.mem_map.mp present
        exact ⟨old, member, by rw [if_pos rfl, valuesAt_of_mem member]⟩
  · rename_i absent
    rw [List.mem_append, List.mem_singleton, valuesAt_of_none (bucket_eq_none_iff.mpr absent), List.nil_append]
    refine or_congr_left ⟨fun member => ⟨member, ?_⟩, And.left⟩
    rintro rfl
    exact absent (List.mem_map_of_mem member)

theorem bucket_push {index : Index κ β} {key other : κ} {value : β} :
    (index.push key value).bucket other =
      if other = key then some (index.valuesAt key ++ [value]) else index.bucket other := by
  apply Option.ext
  intro values
  rw [bucket_eq_some_iff, mem_push_iff]
  split
  · rename_i same
    simp [same, eq_comm]
  · rename_i apart
    simp [apart, bucket_eq_some_iff]

theorem bucket_mapBuckets {index : Index κ β} {key : κ} {f : List β → List β} :
    (index.mapBuckets f).bucket key = (index.bucket key).map f := by
  apply Option.ext
  intro values
  rw [bucket_eq_some_iff, Option.map_eq_some_iff]
  simp only [mapBuckets, List.mem_map, Prod.mk.injEq, bucket_eq_some_iff]
  constructor
  · rintro ⟨bucket, member, rfl, rfl⟩
    exact ⟨bucket.2, member, rfl⟩
  · rintro ⟨old, member, rfl⟩
    exact ⟨(key, old), member, rfl, rfl⟩

theorem mem_retainAt_iff {index : Index κ β} {key : κ} {keep : β → Bool} {bucket : κ × List β} :
    bucket ∈ (index.retainAt key keep).buckets ↔ bucket ∈ index.buckets ∧ bucket.1 ≠ key ∨
      bucket = (key, (index.valuesAt key).filter keep) ∧ bucket.2 ≠ [] := by
  unfold retainAt keepAt
  rw [List.mem_filterMap]
  constructor
  · rintro ⟨old, member, kept⟩
    split at kept
    · rename_i same
      subst same
      split at kept
      · cases kept
      · rename_i some
        cases kept
        exact .inr ⟨by rw [valuesAt_of_mem member], some⟩
    · rename_i other
      cases kept
      exact .inl ⟨member, other⟩
  · rintro (⟨member, other⟩ | ⟨rfl, some⟩)
    · exact ⟨bucket, member, if_neg other⟩
    · cases found : index.bucket key with
      | none => exact absurd (by rw [valuesAt_of_none found]; rfl) some
      | some old =>
        have member := bucket_eq_some_iff.mp found
        rw [valuesAt_of_mem member] at some ⊢
        exact ⟨(key, old), member, by rw [if_pos rfl, if_neg some]⟩

theorem bucket_retainAt_of_ne {index : Index κ β} {key other : κ} {keep : β → Bool} (apart : other ≠ key) :
    (index.retainAt key keep).bucket other = index.bucket other := by
  apply Option.ext
  intro values
  rw [bucket_eq_some_iff, mem_retainAt_iff, bucket_eq_some_iff]
  simp [apart]

theorem valuesAt_retainAt {index : Index κ β} {key other : κ} {keep : β → Bool} :
    (index.retainAt key keep).valuesAt other =
      if other = key then (index.valuesAt key).filter keep else index.valuesAt other := by
  split
  · rename_i same
    subst same
    by_cases some : (index.valuesAt other).filter keep = []
    · rw [some, valuesAt_of_none]
      rw [bucket_eq_none_iff]
      intro present
      obtain ⟨⟨_, values⟩, member, rfl⟩ := List.mem_map.mp present
      rcases mem_retainAt_iff.mp member with ⟨-, apart⟩ | ⟨same, nonempty⟩
      · exact apart rfl
      · exact nonempty ((Prod.mk.inj same).2.trans some)
    · exact valuesAt_of_mem (mem_retainAt_iff.mpr (.inr ⟨rfl, some⟩))
  · rename_i apart
    rw [valuesAt, bucket_retainAt_of_ne apart, valuesAt]

theorem valuesAt_push {index : Index κ β} {key other : κ} {value : β} :
    (index.push key value).valuesAt other =
      if other = key then index.valuesAt key ++ [value] else index.valuesAt other := by
  rw [valuesAt, bucket_push]
  split
  · rfl
  · rfl

theorem valuesAt_mapBuckets {index : Index κ β} {key : κ} {f : List β → List β} (none : f [] = []) :
    (index.mapBuckets f).valuesAt key = f (index.valuesAt key) := by
  rw [valuesAt, bucket_mapBuckets, valuesAt]
  cases index.bucket key with
  | none => exact none.symm
  | some values => rfl

end Lookup

section Searching
variable {index other : Index κ β} {kind : β → Bool} {value : β}

theorem mayFind_of_find (found : index.values.find? kind = some value) : index.MayFind kind value := by
  rw [values, List.find?_flatMap] at found
  exact List.exists_of_findSome?_eq_some found

theorem find_eq_none_iff : index.values.find? kind = none ↔ ∀ value, ¬ index.MayFind kind value := by
  constructor
  · rintro none value ⟨bucket, member, found⟩
    have inside : value ∈ index.values :=
      List.mem_flatMap.mpr ⟨bucket, member, List.mem_of_find?_eq_some found⟩
    exact absurd (List.find?_some found) (List.find?_eq_none.mp none value inside)
  · intro nowhere
    cases found : index.values.find? kind with
    | none => rfl
    | some value => exact absurd (mayFind_of_find found) (nowhere value)

theorem Same.mayFind_iff (same : index.Same other) : index.MayFind kind value ↔ other.MayFind kind value := by
  simp only [MayFind, same.mem_iff]

theorem Same.symm (same : index.Same other) : other.Same index := List.Perm.symm same

/-- What may be found is found in some order. -/
theorem MayFind.found (may : index.MayFind kind value) :
    ∃ other : Index κ β, index.Same other ∧ other.values.find? kind = some value := by
  obtain ⟨bucket, member, found⟩ := may
  obtain ⟨before, after, split⟩ := List.append_of_mem member
  have moved : index.buckets.Perm (bucket :: (before ++ after)) := split ▸ List.perm_middle
  refine ⟨⟨bucket :: (before ++ after), (moved.map _).nodup_iff.mp index.distinct⟩, moved, ?_⟩
  rw [values, List.flatMap_cons, List.find?_append, found]
  rfl

end Searching
end Index
end TinyMachine.Lib
