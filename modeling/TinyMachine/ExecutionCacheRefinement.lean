import Mathlib.Data.Set.Function
import TinyMachine.ExecutionCache
import TinyMachine.Lib.Digest
import TinyMachine.Lib.Runs
import TinyMachine.Lib.Text

/-! When the cache is a map from code and language to results that expire. -/
namespace TinyMachine
open Lib

/-! ## Runs -/

inductive CacheCall where
  | get (code lang : String)
  | set (code lang result : String) (clock : String → Nat)
  | clear
  | evictExpired (clock : String → Nat)
  | setMaxEntries (max : Nat)
  | setDefaultTtl (ttl : Nat)

/-- The cache, what was last stored for each code and language since
everything was cleared, and the time. -/
structure CacheRun where
  cache : ExecutionCache
  stored : String × String → Option CacheEntry
  clock : Nat

namespace CacheCall

/-- The clock is read while the call goes on. -/
def Timed (early late : Nat) : CacheCall → Prop
  | set _ _ _ clock => ∀ key, early ≤ clock key ∧ clock key ≤ late
  | evictExpired clock => ∀ key, early ≤ clock key ∧ clock key ≤ late
  | _ => True

/-- The call is about one of these. -/
def Within (pairs : Set (String × String)) : CacheCall → Prop
  | get code lang => (code, lang) ∈ pairs
  | set code lang _ _ => (code, lang) ∈ pairs
  | _ => True

end CacheCall

namespace CacheRun
variable (blake3 : List UInt8 → String)

def after (run : CacheRun) (now : Nat) : CacheCall → CacheRun
  | .get _ _ => { run with clock := now }
  | .set code lang result clock =>
    match run.cache.set blake3 code lang result clock now with
    | (.ok (), cache) =>
      ⟨cache, Function.update run.stored (code, lang) (some ⟨result, now, run.cache.defaultTtl⟩), now⟩
    | (.error _, cache) => ⟨cache, run.stored, now⟩
  | .clear => ⟨run.cache.clear, fun _ => none, now⟩
  | .evictExpired clock => ⟨(run.cache.evictExpired clock).2, run.stored, now⟩
  | .setMaxEntries max => ⟨run.cache.setMaxEntries max, run.stored, now⟩
  | .setDefaultTtl ttl => ⟨run.cache.setDefaultTtl ttl, run.stored, now⟩

def system : System CacheRun (CacheCall × Nat) where
  start := fun run => run.cache = .new ∧ run.stored = fun _ => none
  step := fun run (call, now) next =>
    run.clock ≤ now ∧ call.Timed run.clock now ∧ next = run.after blake3 now call

/-- From now on the cache gives what was last stored until it expires. -/
def Refines (pairs : Set (String × String)) (run : CacheRun) : Prop :=
  ∀ code lang, (code, lang) ∈ pairs → ∀ now, run.clock ≤ now →
    run.cache.get blake3 code lang now =
      (run.stored (code, lang)).bind fun entry => if entry.isExpired now then none else some entry.result

/-! ## One key -/

/-- What is found is what was stored, which may be missing once it has
expired. -/
def Tracks (clock : Nat) (found stored : Option CacheEntry) : Prop :=
  found = stored ∨ found = none ∧ ∃ entry, stored = some entry ∧ entry.isExpired clock

variable {blake3 : List UInt8 → String} {run : CacheRun} {pairs : Set (String × String)} {clock now : Nat}
  {found stored : Option CacheEntry}

theorem isExpired_later {entry : CacheEntry} (later : clock ≤ now) (expired : entry.isExpired clock) :
    entry.isExpired now := by
  unfold CacheEntry.isExpired at *
  rw [decide_eq_true_eq] at *
  omega

theorem Tracks.later (tracks : Tracks clock found stored) (later : clock ≤ now) : Tracks now found stored := by
  rcases tracks with same | ⟨missing, entry, there, expired⟩
  · exact .inl same
  · exact .inr ⟨missing, entry, there, isExpired_later later expired⟩

/-- Dropping what has expired loses nothing that would still be given. -/
theorem Tracks.retain {reading : Nat} (tracks : Tracks clock found stored) (read : clock ≤ reading ∧ reading ≤ now) :
    Tracks now (found.filter fun entry => ¬ entry.isExpired reading) stored := by
  rcases tracks with rfl | ⟨rfl, entry, there, expired⟩
  · cases found with
    | none => exact .inl rfl
    | some entry =>
      by_cases expired : entry.isExpired reading
      · refine .inr ⟨by simp [expired], entry, rfl, isExpired_later read.2 expired⟩
      · exact .inl (by simp [expired])
  · exact .inr ⟨rfl, entry, there, isExpired_later (read.1.trans read.2) expired⟩

theorem Tracks.get_eq (tracks : Tracks clock found stored) (later : clock ≤ now) :
    (found.bind fun entry => if entry.isExpired now then none else some entry.result) =
      stored.bind fun entry => if entry.isExpired now then none else some entry.result := by
  rcases tracks with rfl | ⟨rfl, entry, rfl, expired⟩
  · rfl
  · rw [Option.bind_none, Option.bind_some, if_pos (isExpired_later later expired)]

/-! ## All keys -/

/-- Every one of the pairs is tracked. -/
def Faithful (blake3 : List UInt8 → String) (pairs : Set (String × String)) (run : CacheRun) : Prop :=
  ∀ pair ∈ pairs, Tracks run.clock (run.cache.entries.lookup (blake3 (hashedBytes pair.1 pair.2))) (run.stored pair)

theorem Faithful.refines (faithful : run.Faithful blake3 pairs) : run.Refines blake3 pairs :=
  fun _ _ member _ later => (faithful _ member).get_eq later

theorem Faithful.live {readings : String → Nat} (faithful : run.Faithful blake3 pairs)
    (timed : ∀ key, run.clock ≤ readings key ∧ readings key ≤ now) :
    ∀ pair ∈ pairs, Tracks now ((run.cache.live readings).lookup (blake3 (hashedBytes pair.1 pair.2))) (run.stored pair) := by
  intro pair member
  rw [ExecutionCache.live, Table.lookup_retain]
  exact (faithful pair member).retain (timed _)

/-- Storing under one key leaves the other keys as they were. -/
theorem faithful_step {call : CacheCall} (injective : Function.Injective blake3)
    (apart : Set.InjOn (fun pair => hashedBytes pair.1 pair.2) pairs) (within : call.Within pairs)
    (later : run.clock ≤ now) (timed : call.Timed run.clock now) (faithful : run.Faithful blake3 pairs) :
    (run.after blake3 now call).Faithful blake3 pairs := by
  cases call with
  | get code lang => exact fun pair member => (faithful pair member).later later
  | clear => exact fun _ _ => .inl rfl
  | evictExpired clock => exact faithful.live timed
  | setMaxEntries max => exact fun pair member => (faithful pair member).later later
  | setDefaultTtl ttl => exact fun pair member => (faithful pair member).later later
  | set code lang result clock =>
    have live := faithful.live timed
    unfold after ExecutionCache.set
    by_cases full : run.cache.maxEntries ≤ (run.cache.live clock).entries.length
    · simp only [full, if_true]
      exact live
    · simp only [full, if_false]
      intro pair member
      by_cases same : pair = (code, lang)
      · subst same
        dsimp only
        rw [Function.update_self]
        exact .inl (AList.lookup_insert _)
      · have other : blake3 (hashedBytes pair.1 pair.2) ≠ blake3 (hashedBytes code lang) :=
          fun equal => same (apart member within (injective equal))
        dsimp only
        rw [Function.update_of_ne same, ExecutionCache.hash, AList.lookup_insert_ne other]
        exact live pair member

/-- Runs in which every call is about one of these pairs. -/
def Reaches (blake3 : List UInt8 → String) (pairs : Set (String × String)) (run : CacheRun) : Prop :=
  (system blake3).Reached (fun _ label => label.1.Within pairs) run

theorem Reaches.faithful (injective : Function.Injective blake3)
    (apart : Set.InjOn (fun pair => hashedBytes pair.1 pair.2) pairs) (reaches : run.Reaches blake3 pairs) :
    run.Faithful blake3 pairs := by
  refine System.Reached.invariant reaches ?_ ?_
  · rintro ⟨cache, stored, clock⟩ ⟨rfl, rfl⟩ pair -
    exact .inl rfl
  · rintro before ⟨call, now⟩ _ faithful within ⟨later, timed, rfl⟩
    exact faithful_step injective apart within later timed faithful

/-- A new cache that has stored one result. -/
def storedOne (blake3 : List UInt8 → String) (code lang result : String) : CacheRun :=
  (CacheRun.mk .new (fun _ => none) 0).after blake3 0 (.set code lang result fun _ => 0)

theorem storedOne_reaches {code lang result : String} (member : (code, lang) ∈ pairs) :
    (storedOne blake3 code lang result).Reaches blake3 pairs := by
  have within : (CacheCall.set code lang result fun _ => 0).Within pairs := member
  have stepped : (system blake3).step ⟨.new, fun _ => none, 0⟩ (.set code lang result fun _ => 0, 0)
      (storedOne blake3 code lang result) := ⟨Nat.le_refl 0, fun _ => ⟨Nat.le_refl 0, Nat.le_refl 0⟩, rfl⟩
  exact .next (.start ⟨rfl, rfl⟩) within stepped

/-- The result is given for everything that is hashed alike. -/
theorem storedOne_get {code lang result other language : String}
    (alike : hashedBytes other language = hashedBytes code lang) :
    (storedOne blake3 code lang result).cache.get blake3 other language 0 = some result := by
  have key : ExecutionCache.hash blake3 other language = ExecutionCache.hash blake3 code lang := congrArg blake3 alike
  have there : (storedOne blake3 code lang result).cache.entries.lookup (ExecutionCache.hash blake3 code lang) =
      some ⟨result, 0, ExecutionCache.new.defaultTtl⟩ := AList.lookup_insert (AList.mk [] List.nodupKeys_nil)
  rw [ExecutionCache.get, key, there]
  rfl

theorem storedOne_stored {code lang result : String} {pair : String × String} (other : pair ≠ (code, lang)) :
    (storedOne blake3 code lang result).stored pair = none := Function.update_of_ne other _ _

/-- The cache is a map from these pairs to results that expire exactly if no two
of them are hashed alike. -/
theorem refines_iff (injective : Function.Injective blake3) (pairs : Set (String × String)) :
    (∀ run : CacheRun, run.Reaches blake3 pairs → run.Refines blake3 pairs) ↔
      Set.InjOn (fun pair => hashedBytes pair.1 pair.2) pairs := by
  constructor
  · rintro refines ⟨code, lang⟩ member ⟨other, language⟩ member' alike
    by_contra different
    have reaches : (storedOne blake3 code lang "").Reaches blake3 pairs := storedOne_reaches member
    have given := refines _ reaches other language member' 0 (Nat.le_refl 0)
    rw [storedOne_get alike.symm, storedOne_stored (Ne.symm different)] at given
    cases given
  · exact fun apart run reaches => (reaches.faithful injective apart).refines

/-! ## Languages without a colon -/

theorem hashedBytes_inj {code lang other language : String} :
    hashedBytes code lang = hashedBytes other language ↔
      lang.toList ++ ':' :: code.toList = language.toList ++ ':' :: other.toList := by
  have joined : ∀ code lang : String, hashedBytes code lang = (lang ++ ":" ++ code).toUTF8.data.toList := by
    intro code lang
    simp [hashedBytes]
  have letters : ∀ code lang : String, (lang ++ ":" ++ code).toList = lang.toList ++ ':' :: code.toList := by
    intro code lang
    simp
  rw [joined, joined, ← letters, ← letters]
  constructor
  · intro same
    have bytes := ByteArray.ext (Array.toList_inj.mp same)
    rw [String.toByteArray_inj.mp bytes]
  · intro same
    rw [String.toList_inj.mp same]

/-- The language ends at the first colon. -/
theorem injOn_of_no_colon : Set.InjOn (fun pair : String × String => hashedBytes pair.1 pair.2)
    { pair | ':' ∉ pair.2.toList } := by
  rintro ⟨code, lang⟩ plain ⟨other, language⟩ plain' alike
  have cut := congrArg (Text.splitOnce ':') (hashedBytes_inj.mp alike)
  dsimp only at cut
  rw [Text.splitOnce_append plain, Text.splitOnce_append plain'] at cut
  obtain ⟨langs, codes⟩ := Prod.mk.inj (Option.some.inj cut)
  exact Prod.ext (String.toList_inj.mp codes) (String.toList_inj.mp langs)

/-! ## One digest -/

def printDigest : String := "71d3bbffa0018b6b1fcab2cf851ae47c66a31ceecf000dbb3f53f5d7b15c69e0"

/-- The digest of a call of `print` is the real one. -/
def sampleBlake3 : List UInt8 → String := digestWith (hashedBytes "print(1)" "python") printDigest

theorem sampleBlake3_injective : Function.Injective sampleBlake3 := digestWith_injective (by decide)

/-- A result is given for code that was never run. -/
theorem another_code_is_answered : ∃ run : CacheRun, run.Reaches sampleBlake3 Set.univ ∧
    run.stored ("1:2", "python") = none ∧ run.cache.get sampleBlake3 "1:2" "python" 0 = some "r" := by
  have alike : hashedBytes "1:2" "python" = hashedBytes "2" "python:1" := hashedBytes_inj.mpr (by decide)
  exact ⟨storedOne sampleBlake3 "2" "python:1" "r", storedOne_reaches (Set.mem_univ _), storedOne_stored (by decide),
    storedOne_get alike⟩

theorem print_is_refined : (storedOne sampleBlake3 "print(1)" "python" "1").Refines sampleBlake3
    { pair | ':' ∉ pair.2.toList } :=
  (refines_iff sampleBlake3_injective _).mpr injOn_of_no_colon _ (storedOne_reaches (by decide))

end CacheRun
end TinyMachine
