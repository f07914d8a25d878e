import TinyMachine.ExecutionCacheRefinement

/-! What the cache does when it is full, over whole runs: which results it
refuses, what a refusal leaves, and how far the cache grows. -/
namespace TinyMachine.CacheRun
open Lib

variable (blake3 : List UInt8 → String)

/-- The run of these calls, each with the time it ends at, on a new cache. -/
def played (start : Nat) (calls : List (CacheCall × Nat)) : CacheRun :=
  calls.foldl (fun run timed => run.after blake3 timed.2 timed.1) ⟨.new, fun _ => none, start⟩

/-- No call ends before the one before it, or reads the clock out of its time. -/
def Clocked (start : Nat) (calls : List (CacheCall × Nat)) : Prop :=
  ∀ past call now, past ++ [(call, now)] <+: calls →
    (played blake3 start past).clock ≤ now ∧ call.Timed (played blake3 start past).clock now

def liveCount (cache : ExecutionCache) (now : Nat) : Nat := (cache.live fun _ => now).entries.length

/-- What a call does to the room in the cache. -/
structure Lawful (run : CacheRun) (call : CacheCall) (now : Nat) : Prop where
  refuses : ∀ code lang result clock, call = .set code lang result clock →
    ((run.cache.set blake3 code lang result clock now).1 ≠ .ok () ↔
      run.cache.maxEntries ≤ (run.cache.live clock).entries.length)
  kept : ∀ code lang result clock, call = .set code lang result clock →
    (run.cache.set blake3 code lang result clock now).1 ≠ .ok () → ∀ other language later, now ≤ later →
      (run.after blake3 now call).cache.get blake3 other language later = run.cache.get blake3 other language later
  growth : liveCount run.cache now < liveCount (run.after blake3 now call).cache now →
    liveCount (run.after blake3 now call).cache now ≤ (run.after blake3 now call).cache.maxEntries

section Calls
variable {blake3} {cache : ExecutionCache} {run : CacheRun} {code lang result : String} {clock : String → Nat}
  {now later : Nat} {call : CacheCall}

theorem set_refused (full : cache.maxEntries ≤ (cache.live clock).entries.length) :
    cache.set blake3 code lang result clock now =
      (.error (.full cache.maxEntries), { cache with entries := cache.live clock }) := by
  rw [ExecutionCache.set, if_pos full]

theorem set_accepted (room : ¬ cache.maxEntries ≤ (cache.live clock).entries.length) :
    cache.set blake3 code lang result clock now =
      (.ok (), { cache with entries :=
        (cache.live clock).insert (ExecutionCache.hash blake3 code lang) ⟨result, now, cache.defaultTtl⟩ }) := by
  rw [ExecutionCache.set, if_neg room]

theorem set_ne_ok_iff :
    (cache.set blake3 code lang result clock now).1 ≠ .ok () ↔
      cache.maxEntries ≤ (cache.live clock).entries.length := by
  by_cases full : cache.maxEntries ≤ (cache.live clock).entries.length
  · rw [set_refused full]
    exact iff_of_true nofun full
  · rw [set_accepted full]
    exact iff_of_false (fun failed => failed rfl) full

/-- What is dropped would not have been given any more. -/
theorem get_live (timed : ∀ key, clock key ≤ later) (other language : String) :
    ExecutionCache.get blake3 { cache with entries := cache.live clock } other language later =
      cache.get blake3 other language later := by
  rw [ExecutionCache.get, ExecutionCache.get, ExecutionCache.live, Table.lookup_retain]
  cases cache.entries.lookup (ExecutionCache.hash blake3 other language) with
  | none => rfl
  | some entry =>
    by_cases expired : entry.isExpired (clock (ExecutionCache.hash blake3 other language))
    · simp [expired, isExpired_later (timed _) expired]
    · have fresh : entry.isExpired (clock (ExecutionCache.hash blake3 other language)) = false := by simpa using expired
      simp [Option.filter, fresh]

theorem liveCount_live : liveCount { cache with entries := cache.live clock } now ≤ liveCount cache now :=
  (List.filter_sublist.filter _).length_le

theorem liveCount_le : liveCount cache now ≤ cache.entries.entries.length := List.length_filter_le ..

theorem length_insert_le (table : Table String CacheEntry) (key : String) (entry : CacheEntry) :
    (table.insert key entry).entries.length ≤ table.entries.length + 1 := by
  rw [AList.entries_insert, List.length_cons]
  exact Nat.succ_le_succ (List.kerase_sublist key table.entries).length_le

theorem lawful_set (timed : ∀ key, clock key ≤ now) : run.Lawful blake3 (.set code lang result clock) now where
  refuses := by
    rintro _ _ _ _ ⟨⟩
    exact set_ne_ok_iff
  kept := by
    rintro _ _ _ _ ⟨⟩ failed other language later after
    rw [CacheRun.after, set_refused (set_ne_ok_iff.mp failed)]
    exact get_live (fun key => (timed key).trans after) other language
  growth := by
    by_cases full : run.cache.maxEntries ≤ (run.cache.live clock).entries.length
    · rw [CacheRun.after, set_refused full]
      exact fun grown => absurd grown (Nat.not_lt_of_le liveCount_live)
    · rw [CacheRun.after, set_accepted full]
      intro _
      have inserted := length_insert_le (run.cache.live clock) (ExecutionCache.hash blake3 code lang)
        ⟨result, now, run.cache.defaultTtl⟩
      refine liveCount_le.trans ?_
      simp only
      omega

/-- A call that stores nothing does not add a live entry. -/
theorem lawful_other (other : ∀ code lang result clock, call ≠ .set code lang result clock)
    (fewer : liveCount (run.after blake3 now call).cache now ≤ liveCount run.cache now) : run.Lawful blake3 call now where
  refuses := fun _ _ _ _ same => absurd same (other _ _ _ _)
  kept := fun _ _ _ _ same => absurd same (other _ _ _ _)
  growth := fun grown => absurd grown (Nat.not_lt_of_le fewer)

theorem lawful (timed : call.Timed run.clock now) : run.Lawful blake3 call now := by
  cases call with
  | set code lang result clock => exact lawful_set fun key => (timed key).2
  | get code lang => exact lawful_other nofun (Nat.le_refl _)
  | clear => exact lawful_other nofun (Nat.zero_le _)
  | evictExpired clock => exact lawful_other nofun liveCount_live
  | setMaxEntries max => exact lawful_other nofun (Nat.le_refl _)
  | setDefaultTtl ttl => exact lawful_other nofun (Nat.le_refl _)

end Calls

/-- In every run, a result is refused exactly when the cache is full of live
entries, a refusal leaves what would be given, and the live entries do not grow
in number beyond the limit. -/
theorem lawful_throughout {start : Nat} {calls : List (CacheCall × Nat)} (clocked : Clocked blake3 start calls) :
    ∀ past call now, past ++ [(call, now)] <+: calls → (played blake3 start past).Lawful blake3 call now :=
  fun past call now within => lawful (clocked past call now within).2

/-! ## A full cache of one entry -/

theorem clocked_nil (start : Nat) : Clocked blake3 start [] := by
  rintro past call now within
  simp at within

theorem clocked_concat {start : Nat} {calls : List (CacheCall × Nat)} {call : CacheCall} {now : Nat}
    (clocked : Clocked blake3 start calls) (later : (played blake3 start calls).clock ≤ now)
    (timed : call.Timed (played blake3 start calls).clock now) : Clocked blake3 start (calls ++ [(call, now)]) := by
  intro past other ended within
  rcases List.prefix_concat_iff.mp within with last | before
  · obtain ⟨rfl, same⟩ := List.append_inj' last rfl
    cases same
    exact ⟨later, timed⟩
  · exact clocked past other ended before

def fill : List (CacheCall × Nat) := [(.setMaxEntries 1, 0)] ++ [(.set "print(1)" "python" "1" fun _ => 0, 0)]

theorem fill_clocked : Clocked sampleBlake3 0 fill := by
  refine clocked_concat _ (clocked_concat _ (clocked_nil _ 0) (Nat.le_refl 0) trivial) (Nat.le_refl 0) ?_
  exact fun key => ⟨Nat.le_refl 0, Nat.le_refl 0⟩

theorem fill_is_lawful : Clocked sampleBlake3 0 fill ∧ ∀ past call now, past ++ [(call, now)] <+: fill →
    (played sampleBlake3 0 past).Lawful sampleBlake3 call now :=
  ⟨fill_clocked, lawful_throughout sampleBlake3 fill_clocked⟩

/-- The result that is cached is not replaced. -/
theorem overwriting_is_refused :
    (played sampleBlake3 0 fill).cache.get sampleBlake3 "print(1)" "python" 0 = some "1" ∧
      ((played sampleBlake3 0 fill).cache.set sampleBlake3 "print(1)" "python" "2" (fun _ => 0) 0).1 =
        .error (.full 1) := by
  have filled : (played sampleBlake3 0 fill).cache =
      ⟨AList.insert (ExecutionCache.hash sampleBlake3 "print(1)" "python")
        ⟨"1", 0, ExecutionCache.defaultTtlSecs * 1000000000⟩ (AList.mk [] List.nodupKeys_nil), 1,
        ExecutionCache.defaultTtlSecs * 1000000000⟩ := rfl
  constructor
  · rw [filled, ExecutionCache.get, AList.lookup_insert]
    rfl
  · have full : (played sampleBlake3 0 fill).cache.maxEntries ≤
        ((played sampleBlake3 0 fill).cache.live fun _ => 0).entries.length := by
      rw [filled]
      exact Nat.le_refl 1
    rw [set_refused full, filled]

end TinyMachine.CacheRun
