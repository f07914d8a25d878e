import TinyMachine.CompositionCache

/-! When the composition cache keeps to its limit, evicts what was accessed
longest ago and answers with a file that is there. -/
namespace TinyMachine.CompositionCache
open Lib Composer

/-! ## What eviction leaves -/

section Eviction
variable {Encodes : List UInt8 → String → Prop} {maxSizeGb : Nat} {world : World Encodes} {cache : Cache}

theorem sizes_eq_load (cache : Cache) (keys : List String) : sizes cache keys = load cache.size keys := by
  induction keys with
  | nil => rfl
  | cons key keys ih => rw [sizes, ih, load_cons]

theorem size_remove (cache : Cache) {key other : String} (left : Bool × Bool) (apart : other ≠ key) :
    (cache.remove key left).size other = cache.size other := by
  rw [Cache.size, Cache.remove, put_other cache _ apart, Cache.size]

/-- Removals that leave nothing behind empty the entries that are evicted. -/
theorem evict_eq {left : String → Bool × Bool} (removed : ∀ key, left key = (false, false)) (limit held : Nat)
    {keys : List String} (distinct : keys.Nodup) (cache : Cache) (key : String) :
    evict left limit held keys cache key =
      if key ∈ evicted cache.size limit held keys then ⟨none, none⟩ else cache key := by
  induction keys generalizing held cache with
  | nil => rfl
  | cons next rest ih =>
    obtain ⟨fresh, distinct⟩ := List.nodup_cons.mp distinct
    rw [evict, evicted]
    split
    · rfl
    · have sizes : evicted (cache.remove next (left next)).size limit (held - cache.size next) rest =
          evicted cache.size limit (held - cache.size next) rest := by
        apply evicted_congr
        intro other member
        exact size_remove cache _ fun same => fresh (same ▸ member)
      rw [ih _ distinct, sizes]
      by_cases here : key = next
      · subst here
        have gone : cache.remove key (left key) key = ⟨none, none⟩ := by
          simp [Cache.remove, removed]
        simp [gone]
      · have kept : cache.remove next (left next) key = cache key := by
          rw [Cache.remove, put_other cache _ here]
        simp [kept, here]

theorem enforceMaxSize_eq (removed : ∀ key, world.left key = (false, false)) (key : String) :
    enforceMaxSize maxSizeGb world cache key =
      if key ∈ Disk.victims maxSizeGb world cache then ⟨none, none⟩ else cache key := by
  unfold enforceMaxSize Disk.victims
  dsimp only
  rw [sizes_eq_load]
  split
  · rename_i light
    rw [evicted_of_light light]
    rfl
  · exact evict_eq removed _ _ (lru_distinct cache world.distinct) cache key

/-! ## The listing, least recently accessed first -/

/-- The complete entries of a listing, with the times they record. -/
def completeEntries (cache : Cache) (order : List String) : List (String × Nat) :=
  order.filterMap fun key =>
    match cache key with
    | ⟨some _, some (some lastAccess)⟩ => some (key, lastAccess)
    | _ => none

theorem mem_completeEntries_iff {order : List String} {entry : String × Nat} :
    entry ∈ completeEntries cache order ↔
      entry.1 ∈ order ∧ (cache entry.1).initrd.isSome ∧ (cache entry.1).meta_ = some (some entry.2) := by
  unfold completeEntries
  rw [List.mem_filterMap]
  constructor
  · rintro ⟨key, listed, complete⟩
    split at complete
    · rename_i archive lastAccess same
      cases complete
      rw [same]
      exact ⟨listed, rfl, rfl⟩
    · cases complete
  · rintro ⟨listed, archived, described⟩
    refine ⟨entry.1, listed, ?_⟩
    obtain ⟨archive, archived⟩ := Option.isSome_iff_exists.mp archived
    have whole : cache entry.1 = ⟨some archive, some (some entry.2)⟩ := by rw [← archived, ← described]
    rw [whole]

instance accessTotal : Std.Total fun a b : String × Nat => a.2 ≤ b.2 := ⟨fun a b => Nat.le_total a.2 b.2⟩

instance accessTrans : IsTrans (String × Nat) fun a b => a.2 ≤ b.2 := ⟨fun _ _ _ => Nat.le_trans⟩

theorem lru_eq (cache : Cache) (order : List String) : cache.lru order =
    ((completeEntries cache order).insertionSort fun a b => a.2 ≤ b.2).map (·.1) := rfl

theorem mem_lru_iff {order : List String} {key : String} : key ∈ cache.lru order ↔
    key ∈ order ∧ (cache key).initrd.isSome ∧ ∃ time, (cache key).meta_ = some (some time) := by
  rw [lru_eq, List.mem_map]
  simp only [List.mem_insertionSort, mem_completeEntries_iff]
  constructor
  · rintro ⟨entry, ⟨listed, archived, described⟩, rfl⟩
    exact ⟨listed, archived, entry.2, described⟩
  · rintro ⟨listed, archived, time, described⟩
    exact ⟨(key, time), ⟨listed, archived, described⟩, rfl⟩

/-- Recorded times do not fall along the listing. -/
theorem pairwise_lru (cache : Cache) (order : List String) : (cache.lru order).Pairwise fun earlier later =>
    ∀ first last, recorded cache earlier = some first → recorded cache later = some last → first ≤ last := by
  have times : ∀ entry ∈ (completeEntries cache order).insertionSort fun a b => a.2 ≤ b.2,
      recorded cache entry.1 = some entry.2 := by
    intro entry member
    have described := (mem_completeEntries_iff.mp (List.mem_insertionSort _ |>.mp member)).2.2
    rw [recorded, described]
    rfl
  rw [lru_eq, List.pairwise_map]
  have sorted := List.pairwise_insertionSort (fun a b : String × Nat => a.2 ≤ b.2) (completeEntries cache order)
  refine sorted.imp_of_mem fun {earlier later} here there le => ?_
  intro first last before after
  rw [times earlier here] at before
  rw [times later there] at after
  cases before
  cases after
  exact le

end Eviction

/-! ## A store into an orderly cache -/

section Store
variable {Encodes : List UInt8 → String → Prop} {maxSizeGb : Nat} {world : DiskWorld Encodes} {disk : Disk}
  {key other : String} {data : List UInt8}

/-- A store whose writes go well ends with the eviction. -/
theorem storeInitrd_done (made : world.createDir = true)
    (written : world.initrdWrite = .done ∧ world.cmdWrite = .done ∧ world.metaWrite = .done) :
    Composer.storeInitrd maxSizeGb world.toWorld key data disk.cache =
      (.ok (), enforceMaxSize maxSizeGb world.toWorld (Disk.storing world.toWorld key data disk.cache)) := by
  obtain ⟨archived, commanded, described⟩ := written
  simp [Composer.storeInitrd, made, archived, commanded, described, writeFile, writeMeta, put_put, Disk.storing]

theorem storing_self : Disk.storing world.toWorld key data disk.cache key = ⟨some data, some (some world.now)⟩ :=
  put_self ..

theorem storing_other (apart : other ≠ key) :
    Disk.storing world.toWorld key data disk.cache other = disk.cache other := put_other _ _ apart

theorem mem_lru_storing (ordered : disk.Ordered world key data)
    (archived : (Disk.storing world.toWorld key data disk.cache other).initrd.isSome) :
    other ∈ (Disk.storing world.toWorld key data disk.cache).lru world.order := by
  refine mem_lru_iff.mpr ⟨ordered.listed other archived, archived, ?_⟩
  by_cases same : other = key
  · rw [same, storing_self]
    exact ⟨world.now, rfl⟩
  · rw [storing_other same] at archived ⊢
    exact ordered.described other archived

/-- What is evicted comes before what is kept, which is light enough. -/
theorem victims_split (maxSizeGb : Nat) (world : World Encodes) (cache : Cache) : ∃ rest,
    cache.lru world.order = Disk.victims maxSizeGb world cache ++ rest ∧
      load cache.size rest ≤ maxBytes maxSizeGb :=
  evicted_spec cache.size (maxBytes maxSizeGb) (cache.lru world.order)

theorem kept_of_archived (ordered : disk.Ordered world key data)
    (archived : (enforceMaxSize maxSizeGb world.toWorld (Disk.storing world.toWorld key data disk.cache)
      other).initrd.isSome) :
    other ∉ Disk.victims maxSizeGb world.toWorld (Disk.storing world.toWorld key data disk.cache) ∧
      (Disk.storing world.toWorld key data disk.cache other).initrd.isSome := by
  rw [enforceMaxSize_eq ordered.removed] at archived
  split at archived
  · cases archived
  · rename_i spared
    exact ⟨spared, archived⟩

theorem size_kept (ordered : disk.Ordered world key data)
    (spared : other ∉ Disk.victims maxSizeGb world.toWorld (Disk.storing world.toWorld key data disk.cache)) :
    (enforceMaxSize maxSizeGb world.toWorld (Disk.storing world.toWorld key data disk.cache)).size other =
      (Disk.storing world.toWorld key data disk.cache).size other := by
  rw [Cache.size, enforceMaxSize_eq ordered.removed, if_neg spared, Cache.size]

theorem load_enforced (ordered : disk.Ordered world key data) {keys : List String} (distinct : keys.Nodup) :
    load (enforceMaxSize maxSizeGb world.toWorld (Disk.storing world.toWorld key data disk.cache)).size keys ≤
      maxBytes maxSizeGb := by
  let stored := Disk.storing world.toWorld key data disk.cache
  obtain ⟨rest, split, light⟩ := victims_split maxSizeGb world.toWorld stored
  have apart := lru_distinct stored world.distinct
  rw [split, List.nodup_append] at apart
  have covers : ∀ other ∈ keys, (enforceMaxSize maxSizeGb world.toWorld stored).size other ≠ 0 → other ∈ rest := by
    intro other _ heavy
    have archived : (enforceMaxSize maxSizeGb world.toWorld stored other).initrd.isSome := by
      by_contra missing
      rw [Option.not_isSome_iff_eq_none] at missing
      exact heavy (by rw [Cache.size, missing]; rfl)
    obtain ⟨spared, present⟩ := kept_of_archived ordered archived
    have listed := mem_lru_storing ordered present
    rw [split] at listed
    exact (List.mem_append.mp listed).resolve_left spared
  calc load (enforceMaxSize maxSizeGb world.toWorld stored).size keys
      ≤ load (enforceMaxSize maxSizeGb world.toWorld stored).size rest := load_le_of_covers distinct covers
    _ = load stored.size rest := load_congr fun other member =>
        size_kept ordered fun gone => apart.2.2 other gone other member rfl
    _ ≤ maxBytes maxSizeGb := light

/-- Times are recorded for all that is listed. -/
theorem recorded_of_listed {cache : Cache} {order : List String} (listed : other ∈ cache.lru order) :
    ∃ time, recorded cache other = some time := by
  obtain ⟨-, -, time, described⟩ := mem_lru_iff.mp listed
  exact ⟨time, by rw [recorded, described]; rfl⟩

theorem recent_of_ordered (ordered : disk.Ordered world key data) {gone kept : String}
    (evicted : gone ∈ Disk.victims maxSizeGb world.toWorld (Disk.storing world.toWorld key data disk.cache))
    (archived : (enforceMaxSize maxSizeGb world.toWorld (Disk.storing world.toWorld key data disk.cache)
      kept).initrd.isSome) :
    (disk.access key).accessed gone ≤ (disk.access key).accessed kept := by
  obtain ⟨rest, split, -⟩ := victims_split maxSizeGb world.toWorld (Disk.storing world.toWorld key data disk.cache)
  obtain ⟨spared, present⟩ := kept_of_archived ordered archived
  have listed := mem_lru_storing ordered present
  have held : gone ∈ (Disk.storing world.toWorld key data disk.cache).lru world.order := by
    rw [split]
    exact List.mem_append_left _ evicted
  obtain ⟨first, early⟩ := recorded_of_listed held
  obtain ⟨last, late⟩ := recorded_of_listed listed
  have sorted := pairwise_lru (Disk.storing world.toWorld key data disk.cache) world.order
  rw [split] at listed sorted
  have behind := (List.mem_append.mp listed).resolve_left spared
  have le := (List.pairwise_append.mp sorted).2.2 gone evicted kept behind first last early late
  by_contra later
  have lt := ordered.timed kept gone last first late early (Nat.lt_of_not_le later)
  omega

/-- The new entry is the last of the listing. -/
theorem storing_last (ordered : disk.Ordered world key data) (numbered : ∀ other, disk.accessed other ≤ disk.calls) :
    ∃ front, (Disk.storing world.toWorld key data disk.cache).lru world.order = front ++ [key] := by
  have present : (Disk.storing world.toWorld key data disk.cache key).initrd.isSome := by
    rw [storing_self]
    rfl
  obtain ⟨front, later, split⟩ := List.append_of_mem (mem_lru_storing ordered present)
  have none : later = [] := by
    apply List.eq_nil_iff_forall_not_mem.mpr
    intro other member
    have sorted := pairwise_lru (Disk.storing world.toWorld key data disk.cache) world.order
    have apart := lru_distinct (Disk.storing world.toWorld key data disk.cache) world.distinct
    have listed : other ∈ (Disk.storing world.toWorld key data disk.cache).lru world.order := by
      rw [split]
      exact List.mem_append_right _ (List.mem_cons_of_mem _ member)
    rw [split, List.pairwise_append, List.pairwise_cons] at sorted
    rw [split, List.nodup_append, List.nodup_cons] at apart
    have differs : other ≠ key := fun same => apart.2.1.1 (same ▸ member)
    obtain ⟨time, known⟩ := recorded_of_listed listed
    have now : recorded (Disk.storing world.toWorld key data disk.cache) key = some world.now := by
      rw [recorded, storing_self]
      rfl
    have le := sorted.2.1.1 other member world.now time now known
    have order : (disk.access key).accessed other < (disk.access key).accessed key := by
      simp only [Disk.access, Function.update_self, Function.update_of_ne differs]
      exact Nat.lt_succ_of_le (numbered other)
    have lt := ordered.timed other key time world.now known now order
    omega
  exact ⟨front, by rw [split, none]⟩

theorem archived_of_light (ordered : disk.Ordered world key data)
    (numbered : ∀ other, disk.accessed other ≤ disk.calls) (light : data.length ≤ maxBytes maxSizeGb) :
    (enforceMaxSize maxSizeGb world.toWorld (Disk.storing world.toWorld key data disk.cache) key).initrd.isSome := by
  obtain ⟨front, split⟩ := storing_last ordered numbered
  have size : (Disk.storing world.toWorld key data disk.cache).size key ≤ maxBytes maxSizeGb := by
    rw [Cache.size, storing_self]
    exact light
  have stays : evicted (Disk.storing world.toWorld key data disk.cache).size (maxBytes maxSizeGb)
      (load (Disk.storing world.toWorld key data disk.cache).size (front ++ [key])) (front ++ [key]) <+: front :=
    last_stays size
  have apart := lru_distinct (Disk.storing world.toWorld key data disk.cache) world.distinct
  rw [split, List.nodup_append] at apart
  have spared : key ∉ Disk.victims maxSizeGb world.toWorld (Disk.storing world.toWorld key data disk.cache) := by
    intro gone
    rw [Disk.victims, split] at gone
    exact apart.2.2 key (stays.subset gone) key (List.mem_singleton_self key) rfl
  rw [enforceMaxSize_eq ordered.removed, if_neg spared, storing_self]
  rfl

/-! ## A store with room for everything -/

theorem maxBytes_eq_iff : maxBytes maxSizeGb = limit maxSizeGb ↔ limit maxSizeGb < 2 ^ 64 := by
  unfold maxBytes limit
  omega

theorem size_le_weight (disk : Disk) (other : String) : disk.cache.size other ≤ disk.weight other :=
  Nat.le_add_right _ _

theorem load_mono {weight less : String → Nat} {keys : List String} (le : ∀ other, less other ≤ weight other) :
    load less keys ≤ load weight keys := by
  induction keys with
  | nil => exact Nat.le_refl _
  | cons first rest ih =>
    rw [load_cons, load_cons]
    exact Nat.add_le_add (le first) ih

theorem bounded_mono {after : Disk} (bounded : disk.Bounded maxSizeGb)
    (le : ∀ other, after.weight other ≤ disk.weight other) : after.Bounded maxSizeGb :=
  fun keys distinct => Nat.le_trans (load_mono le) (bounded keys distinct)

theorem light_of_fits (small : limit maxSizeGb < 2 ^ 64) (fits : disk.Fits maxSizeGb world key data) :
    load (Disk.storing world.toWorld key data disk.cache).size
      ((Disk.storing world.toWorld key data disk.cache).lru world.order) ≤ maxBytes maxSizeGb := by
  have all := fits ((Disk.storing world.toWorld key data disk.cache).lru world.order)
    (lru_distinct (Disk.storing world.toWorld key data disk.cache) world.distinct)
  rw [maxBytes_eq_iff.mpr small]
  refine Nat.le_trans (load_mono fun other => ?_) all
  exact size_le_weight { disk with cache := Disk.storing world.toWorld key data disk.cache } other

/-- Where everything fits nothing is evicted. -/
theorem victims_of_fits (small : limit maxSizeGb < 2 ^ 64) (fits : disk.Fits maxSizeGb world key data) :
    Disk.victims maxSizeGb world.toWorld (Disk.storing world.toWorld key data disk.cache) = [] :=
  evicted_of_light (light_of_fits small fits)

theorem enforceMaxSize_of_fits (small : limit maxSizeGb < 2 ^ 64) (fits : disk.Fits maxSizeGb world key data) :
    enforceMaxSize maxSizeGb world.toWorld (Disk.storing world.toWorld key data disk.cache) =
      Disk.storing world.toWorld key data disk.cache := by
  unfold enforceMaxSize
  dsimp only
  rw [sizes_eq_load, if_pos (light_of_fits small fits)]

/-- A write that is refused changes nothing, and others write no more than the
whole archive. -/
theorem size_written (world : DiskWorld Encodes) (disk : Disk) (key : String) (data : List UInt8)
    (outcome : WriteOutcome) (metadata : Option (Option Nat)) :
    (∀ other, (disk.cache.put key ⟨writeFile (disk.cache key).initrd data outcome, metadata⟩).size other ≤
      disk.cache.size other) ∨
    ∀ other, (disk.cache.put key ⟨writeFile (disk.cache key).initrd data outcome, metadata⟩).size other ≤
      (Disk.storing world.toWorld key data disk.cache).size other := by
  have elsewhere : ∀ other entry, other ≠ key → (disk.cache.put key entry).size other = disk.cache.size other := by
    intro other entry apart
    rw [Cache.size, put_other _ _ apart, Cache.size]
  have cut : ∀ (bytes : List UInt8), bytes.length ≤ data.length → ∀ other,
      (disk.cache.put key ⟨some bytes, metadata⟩).size other ≤
        (Disk.storing world.toWorld key data disk.cache).size other := by
    intro bytes short other
    by_cases same : other = key
    · subst same
      rw [Cache.size, Cache.size, put_self, storing_self]
      exact short
    · rw [elsewhere other _ same, Disk.storing, elsewhere other _ same]
  cases outcome with
  | refused =>
    refine .inl fun other => ?_
    by_cases same : other = key
    · subst same
      rw [Cache.size, put_self, writeFile, Cache.size]
    · rw [elsewhere other _ same]
  | done => exact .inr (cut data (Nat.le_refl _))
  | cut count =>
    refine .inr (cut (data.take count) ?_)
    rw [List.length_take]
    exact Nat.min_le_right count data.length

/-- A store that fails has written no more than the entry. -/
theorem storeInitrd_failed {error : ComposerError}
    (failed : (Composer.storeInitrd maxSizeGb world.toWorld key data disk.cache).1 = .error error) :
    (∀ other, (Composer.storeInitrd maxSizeGb world.toWorld key data disk.cache).2.size other ≤
      disk.cache.size other) ∨
    ∀ other, (Composer.storeInitrd maxSizeGb world.toWorld key data disk.cache).2.size other ≤
      (Disk.storing world.toWorld key data disk.cache).size other := by
  unfold Composer.storeInitrd at failed ⊢
  split at failed
  · rename_i refused
    rw [if_pos refused]
    exact .inl fun _ => Nat.le_refl _
  · rename_i made
    rw [if_neg made]
    dsimp only at failed ⊢
    rw [put_put, put_self] at failed ⊢
    split at failed
    · rename_i unwritten
      rw [if_pos unwritten]
      exact size_written world disk key data world.initrdWrite (disk.cache key).meta_
    · rename_i written
      rw [if_neg written]
      split at failed
      · rename_i undescribed
        rw [if_pos undescribed]
        exact size_written world disk key data world.initrdWrite _
      · cases failed

/-! ## One store -/

/-- The limit is kept, and no access lies ahead. -/
structure Sound (maxSizeGb : Nat) (disk : Disk) : Prop where
  bounded : disk.Bounded maxSizeGb
  numbered : ∀ other, disk.accessed other ≤ disk.calls

/-- The disk after a store that went well. -/
def Disk.enforced (maxSizeGb : Nat) (disk : Disk) (world : DiskWorld Encodes) (key : String) (data : List UInt8) : Disk :=
  let stored := Disk.storing world.toWorld key data disk.cache
  ({ disk with cache := enforceMaxSize maxSizeGb world.toWorld stored }.access key).dropSnapshots
    (Disk.victims maxSizeGb world.toWorld stored) world.leftSnapshot

theorem storeInitrd_ok (stored : (Composer.storeInitrd maxSizeGb world.toWorld key data disk.cache).1 = .ok ()) :
    disk.storeInitrd maxSizeGb world key data = (.ok (), disk.enforced maxSizeGb world key data) := by
  obtain ⟨made, written⟩ := store_ok stored
  rw [Disk.storeInitrd, storeInitrd_done made written]
  rfl

theorem storeInitrd_error {error : ComposerError}
    (failed : (Composer.storeInitrd maxSizeGb world.toWorld key data disk.cache).1 = .error error) :
    disk.storeInitrd maxSizeGb world key data = (.error error,
      { disk with cache := (Composer.storeInitrd maxSizeGb world.toWorld key data disk.cache).2 }) := by
  rw [Disk.storeInitrd]
  split
  · rename_i stored
    rw [stored] at failed
    cases failed
  · rename_i stored
    rw [stored] at failed ⊢
    cases failed
    rfl

/-- When a store may be made. -/
def Disk.Admits (maxSizeGb : Nat) (disk : Disk) (world : DiskWorld Encodes) (key : String) (data : List UInt8) : Prop :=
  world.createDir = false ∨ disk.Fits maxSizeGb world key data ∨ disk.Ordered world key data

theorem bounded_failed (bounded : disk.Bounded maxSizeGb)
    (admits : disk.Admits maxSizeGb world key data) {error : ComposerError}
    (failed : (Composer.storeInitrd maxSizeGb world.toWorld key data disk.cache).1 = .error error) :
    Disk.Bounded maxSizeGb
      { disk with cache := (Composer.storeInitrd maxSizeGb world.toWorld key data disk.cache).2 } := by
  rcases storeInitrd_failed failed with less | less
  · exact bounded_mono bounded fun other => Nat.add_le_add_right (less other) _
  · by_cases unmade : world.createDir = false
    · have unchanged : (Composer.storeInitrd maxSizeGb world.toWorld key data disk.cache).2 = disk.cache := by
        rw [Composer.storeInitrd, if_pos unmade]
      rw [unchanged]
      exact bounded
    · rcases admits with refused | fits | ordered
      · exact absurd refused unmade
      · exact bounded_mono fits fun other => Nat.add_le_add_right (less other) _
      · rw [storeInitrd_done ((Bool.not_eq_false _).mp unmade) ordered.written] at failed
        cases failed

theorem bounded_stored (small : limit maxSizeGb < 2 ^ 64) (admits : disk.Admits maxSizeGb world key data)
    (stored : (Composer.storeInitrd maxSizeGb world.toWorld key data disk.cache).1 = .ok ()) :
    (disk.storeInitrd maxSizeGb world key data).2.Bounded maxSizeGb := by
  rw [storeInitrd_ok stored]
  rcases admits with refused | fits | ordered
  · rw [(store_ok stored).1] at refused
    cases refused
  · apply bounded_mono fits
    intro other
    dsimp only [Disk.enforced]
    rw [victims_of_fits small fits, enforceMaxSize_of_fits small fits]
    simp [Disk.weight, Disk.dropSnapshots, Disk.access]
  · intro keys distinct
    have bare : ∀ other, (disk.enforced maxSizeGb world key data).weight other =
        (enforceMaxSize maxSizeGb world.toWorld (Disk.storing world.toWorld key data disk.cache)).size other := by
      intro other
      simp [Disk.enforced, Disk.weight, Disk.dropSnapshots, Disk.access, ordered.bare]
    rw [load_congr fun other _ => bare other, ← maxBytes_eq_iff.mpr small]
    exact load_enforced ordered distinct

theorem recent_stored (small : limit maxSizeGb < 2 ^ 64) (admits : disk.Admits maxSizeGb world key data)
    (stored : (Composer.storeInitrd maxSizeGb world.toWorld key data disk.cache).1 = .ok ()) {gone kept : String}
    (evicted : gone ∈ Disk.victims maxSizeGb world.toWorld (Disk.storing world.toWorld key data disk.cache))
    (archived : ((disk.storeInitrd maxSizeGb world key data).2.cache kept).initrd.isSome) :
    (disk.storeInitrd maxSizeGb world key data).2.accessed gone ≤
      (disk.storeInitrd maxSizeGb world key data).2.accessed kept := by
  rw [storeInitrd_ok stored] at archived ⊢
  rcases admits with refused | fits | ordered
  · rw [(store_ok stored).1] at refused
    cases refused
  · rw [victims_of_fits small fits] at evicted
    cases evicted
  · exact recent_of_ordered ordered evicted archived

theorem archived_stored (small : limit maxSizeGb < 2 ^ 64) (sound : Sound maxSizeGb disk)
    (admits : disk.Fits maxSizeGb world key data ∨ disk.Ordered world key data ∧ data.length ≤ limit maxSizeGb)
    (stored : (Composer.storeInitrd maxSizeGb world.toWorld key data disk.cache).1 = .ok ()) :
    ((disk.storeInitrd maxSizeGb world key data).2.cache key).initrd.isSome := by
  rw [storeInitrd_ok stored]
  rcases admits with fits | ⟨ordered, light⟩
  · have kept : (enforceMaxSize maxSizeGb world.toWorld (Disk.storing world.toWorld key data disk.cache) key) =
        ⟨some data, some (some world.now)⟩ := by
      rw [enforceMaxSize_of_fits small fits, storing_self]
    exact congrArg (fun entry : Composer.CacheEntry => entry.initrd.isSome) kept
  · exact archived_of_light ordered sound.numbered (maxBytes_eq_iff.mpr small ▸ light)

theorem numbered_stored (numbered : ∀ other, disk.accessed other ≤ disk.calls) :
    (∀ other, (disk.storeInitrd maxSizeGb world key data).2.accessed other ≤ disk.calls + 1) ∧
      (disk.storeInitrd maxSizeGb world key data).2.calls = disk.calls := by
  cases stored : (Composer.storeInitrd maxSizeGb world.toWorld key data disk.cache).1 with
  | error error =>
    rw [storeInitrd_error stored]
    exact ⟨fun other => Nat.le_succ_of_le (numbered other), rfl⟩
  | ok _ =>
    rw [storeInitrd_ok stored]
    refine ⟨?_, rfl⟩
    intro other
    by_cases same : other = key
    · subst same
      simp [Disk.enforced, Disk.dropSnapshots, Disk.access]
    · simp only [Disk.enforced, Disk.dropSnapshots, Disk.access, Function.update_of_ne same]
      exact Nat.le_succ_of_le (numbered other)

end Store
/-! ## One composition -/

section Compose
variable {Encodes : List UInt8 → String → Prop} {serialize : CmdConfig → String} {hash : String → String}
  {archiveOf : String → List UInt8} {maxSizeGb : Nat} {world : World Encodes} {plan : CompositionPlan}
  {cache : Cache} {data : List UInt8}

/-- What a composition stores it stores as any other archive is stored. -/
theorem composeInitrd_some (composed : Disk.composedData serialize hash archiveOf world plan cache = some data) :
    Composer.composeInitrd serialize hash archiveOf maxSizeGb world plan cache =
      ((Composer.storeInitrd maxSizeGb world (plan.compositionKey hash) data cache).1.map
          fun _ => plan.compositionKey hash,
        (Composer.storeInitrd maxSizeGb world (plan.compositionKey hash) data cache).2) := by
  unfold Disk.composedData at composed
  split at composed
  · cases composed
  · rename_i proceeds
    rw [not_or] at proceeds
    split at composed
    · rename_i layers cmdCpio checked read archived
      cases composed
      rw [Composer.composeInitrd]
      simp only [proceeds.1, proceeds.2, if_false, checked, read, archived, Bool.false_eq_true]
      cases Composer.storeInitrd maxSizeGb world (plan.compositionKey hash) (layers ++ cmdCpio.val) cache with
      | mk result after => cases result <;> rfl
    · cases composed

/-- A composition that stores nothing fails or finds its key. -/
theorem composeInitrd_none (maxSizeGb : Nat)
    (composed : Disk.composedData serialize hash archiveOf world plan cache = none) :
    (∃ error, Composer.composeInitrd serialize hash archiveOf maxSizeGb world plan cache = (.error error, cache)) ∨
    cache.isCached (plan.compositionKey hash) = true ∧
      Composer.composeInitrd serialize hash archiveOf maxSizeGb world plan cache =
        (.ok (plan.compositionKey hash), Composer.touch world (plan.compositionKey hash) cache) := by
  unfold Disk.composedData at composed
  by_cases layerless : plan.layers = []
  · exact .inl ⟨.emptyPlan, by simp only [Composer.composeInitrd, layerless, if_true]⟩
  · by_cases hit : cache.isCached (plan.compositionKey hash) = true
    · exact .inr ⟨hit, by simp only [Composer.composeInitrd, layerless, hit, if_true, if_false]⟩
    · rw [if_neg (not_or.mpr ⟨layerless, hit⟩)] at composed
      left
      rw [Composer.composeInitrd]
      simp only [layerless, hit, if_false, Bool.false_eq_true]
      cases checked : conflictCheck world.listing plan.layers with
      | error error => exact ⟨error, rfl⟩
      | ok _ =>
        cases read : readLayers archiveOf world plan.layers with
        | error error => exact ⟨error, rfl⟩
        | ok layers =>
          cases archived : world.archive (serialize plan.cmdConfig) with
          | none => exact ⟨.subprocess, rfl⟩
          | some cmdCpio =>
            rw [checked, read, archived] at composed
            cases composed

/-- Over the files the cache is the one of the composition engine. -/
theorem composeInitrd_refines (world : DiskWorld Encodes) (plan : CompositionPlan) (disk : Disk) :
    (disk.composeInitrd serialize hash archiveOf maxSizeGb world plan).1 =
        (Composer.composeInitrd serialize hash archiveOf maxSizeGb world.toWorld plan disk.cache).1 ∧
      (disk.composeInitrd serialize hash archiveOf maxSizeGb world plan).2.cache =
        (Composer.composeInitrd serialize hash archiveOf maxSizeGb world.toWorld plan disk.cache).2 := by
  unfold Disk.composeInitrd
  split
  · rename_i data composed
    rw [composeInitrd_some composed]
    cases stored : (Composer.storeInitrd maxSizeGb world.toWorld (plan.compositionKey hash) data disk.cache).1 with
    | error error =>
      rw [storeInitrd_error stored]
      exact ⟨rfl, rfl⟩
    | ok _ =>
      rw [storeInitrd_ok stored]
      obtain ⟨made, written⟩ := store_ok stored
      rw [storeInitrd_done made written]
      exact ⟨rfl, rfl⟩
  · rename_i composed
    rcases composeInitrd_none maxSizeGb composed with ⟨error, failed⟩ | ⟨hit, found⟩
    · rw [failed]
      exact ⟨rfl, rfl⟩
    · rw [found]
      exact ⟨rfl, rfl⟩

end Compose

/-! ## One call -/

section Calls
variable {Encodes : List UInt8 → String → Prop} {serialize : CmdConfig → String} {hash : String → String}
  {archiveOf : String → List UInt8} {maxSizeGb : Nat} {disk : Disk} {world : DiskWorld Encodes}
  {plan : CompositionPlan} {key : String} {data : List UInt8}

theorem size_touch (world : World Encodes) (key other : String) (cache : Cache) :
    (Composer.touch world key cache).size other = cache.size other := by
  by_cases same : other = key
  · rw [same, Cache.size, Cache.size, touch_archive]
  · have elsewhere : Composer.touch world key cache other = cache other := by
      rcases described : (cache key).meta_ with _ | _ | lastAccess
      · simp only [Composer.touch, described]
      · simp only [Composer.touch, described]
      · simp only [Composer.touch, described]
        exact put_other _ _ same
    rw [Cache.size, elsewhere, Cache.size]

theorem weight_remove (world : DiskWorld Encodes) (key other : String) (disk : Disk) :
    (disk.remove world key).weight other ≤ disk.weight other := by
  have size : (disk.cache.remove key (world.left key)).size other ≤ disk.cache.size other := by
    by_cases same : other = key
    · subst same
      rw [Cache.size, Cache.remove, put_self, Cache.size]
      dsimp only
      split
      · exact Nat.le_refl _
      · exact Nat.zero_le _
    · rw [size_remove _ _ same]
  have snapshot : (disk.remove world key).snapshots other ≤ disk.snapshots other := by
    unfold Disk.remove Disk.dropSnapshots
    dsimp only
    split
    · exact Nat.min_le_left _ _
    · exact Nat.le_refl _
  exact Nat.add_le_add size snapshot

theorem sound_access (sound : Sound maxSizeGb disk) (key : String) {after : Disk} (calls : after.calls = disk.calls)
    (accessed : after.accessed = disk.accessed) (less : ∀ other, after.weight other ≤ disk.weight other) :
    Sound maxSizeGb (after.access key).nextCall := by
  refine ⟨bounded_mono sound.bounded less, ?_⟩
  intro other
  have numbered := sound.numbered other
  by_cases same : other = key
  · subst same
    simp [Disk.nextCall, Disk.access]
  · simp only [Disk.nextCall, Disk.access, Function.update_of_ne same, calls, accessed]
    exact Nat.le_succ_of_le numbered

theorem sound_still (sound : Sound maxSizeGb disk) {after : Disk} (calls : after.calls = disk.calls)
    (accessed : after.accessed = disk.accessed) (bounded : after.Bounded maxSizeGb) :
    Sound maxSizeGb after.nextCall := by
  refine ⟨bounded, ?_⟩
  intro other
  have numbered := sound.numbered other
  simp only [Disk.nextCall, calls, accessed]
  exact Nat.le_succ_of_le numbered

theorem sound_store (small : limit maxSizeGb < 2 ^ 64) (sound : Sound maxSizeGb disk)
    (admits : disk.Admits maxSizeGb world key data) :
    Sound maxSizeGb (disk.storeInitrd maxSizeGb world key data).2.nextCall := by
  obtain ⟨numbered, calls⟩ : (∀ other, (disk.storeInitrd maxSizeGb world key data).2.accessed other ≤ disk.calls + 1) ∧
    (disk.storeInitrd maxSizeGb world key data).2.calls = disk.calls := numbered_stored sound.numbered
  refine ⟨?_, ?_⟩
  · cases stored : (Composer.storeInitrd maxSizeGb world.toWorld key data disk.cache).1 with
    | error error =>
      rw [storeInitrd_error stored]
      exact bounded_failed sound.bounded admits stored
    | ok _ => exact bounded_stored small admits stored
  · intro other
    have number := numbered other
    rw [Disk.nextCall, calls]
    exact number

/-- What a composition may do when its data may be stored. -/
theorem composeInitrd_cases (maxSizeGb : Nat) (world : DiskWorld Encodes) (plan : CompositionPlan) (disk : Disk) :
    (∃ data, Disk.composedData serialize hash archiveOf world.toWorld plan disk.cache = some data ∧
      disk.composeInitrd serialize hash archiveOf maxSizeGb world plan =
        ((disk.storeInitrd maxSizeGb world (plan.compositionKey hash) data).1.map fun _ => plan.compositionKey hash,
          (disk.storeInitrd maxSizeGb world (plan.compositionKey hash) data).2)) ∨
    Disk.composedData serialize hash archiveOf world.toWorld plan disk.cache = none ∧
      ((∃ error, disk.composeInitrd serialize hash archiveOf maxSizeGb world plan = (.error error, disk)) ∨
      disk.cache.isCached (plan.compositionKey hash) = true ∧
        disk.composeInitrd serialize hash archiveOf maxSizeGb world plan =
          (.ok (plan.compositionKey hash), disk.touch world (plan.compositionKey hash))) := by
  unfold Disk.composeInitrd
  cases composed : Disk.composedData serialize hash archiveOf world.toWorld plan disk.cache with
  | some data => exact .inl ⟨data, rfl, rfl⟩
  | none =>
    refine .inr ⟨rfl, ?_⟩
    rcases composeInitrd_none maxSizeGb composed with ⟨error, failed⟩ | ⟨hit, found⟩
    · rw [failed]
      exact .inl ⟨error, rfl⟩
    · rw [found]
      exact .inr ⟨hit, rfl⟩

theorem sound_after (small : limit maxSizeGb < 2 ^ 64) (sound : Sound maxSizeGb disk) {call : CacheCall Encodes}
    (keeps : disk.Keeps serialize hash archiveOf maxSizeGb call) :
    Sound maxSizeGb (disk.after serialize hash archiveOf maxSizeGb call) := by
  cases call with
  | compose world plan =>
    rw [Disk.after]
    rcases composeInitrd_cases maxSizeGb world plan disk with
      ⟨data, composed, stored⟩ | ⟨-, ⟨error, failed⟩ | ⟨hit, found⟩⟩
    · rw [stored]
      exact sound_store small sound ((keeps data composed).imp_right (Or.imp_right And.left))
    · rw [failed]
      exact sound_still sound rfl rfl sound.bounded
    · rw [found]
      exact sound_access sound _ rfl rfl fun other => Nat.add_le_add_right (Nat.le_of_eq (size_touch ..)) _
  | store world key data => exact sound_store small sound keeps
  | storeSnapshot key bytes => exact sound_still sound rfl rfl keeps
  | touch world key =>
    exact sound_access sound key rfl rfl fun other => Nat.add_le_add_right (Nat.le_of_eq (size_touch ..)) _
  | remove world key =>
    exact sound_still sound rfl rfl (bounded_mono sound.bounded fun other => weight_remove world key other disk)

theorem answers_after (small : limit maxSizeGb < 2 ^ 64) (sound : Sound maxSizeGb disk)
    (keeps : disk.Keeps serialize hash archiveOf maxSizeGb (.compose world plan))
    (answered : (disk.composeInitrd serialize hash archiveOf maxSizeGb world plan).1 = .ok key) :
    ((disk.composeInitrd serialize hash archiveOf maxSizeGb world plan).2.cache key).initrd.isSome := by
  rcases composeInitrd_cases maxSizeGb world plan disk with
    ⟨data, composed, stored⟩ | ⟨-, ⟨error, failed⟩ | ⟨hit, found⟩⟩
  · rw [stored] at answered ⊢
    cases result : (Composer.storeInitrd maxSizeGb world.toWorld (plan.compositionKey hash) data disk.cache).1 with
    | error error =>
      rw [storeInitrd_error result] at answered
      cases answered
    | ok _ =>
      rw [storeInitrd_ok result] at answered
      cases answered
      rcases keeps data composed with refused | admits
      · rw [(store_ok result).1] at refused
        cases refused
      · exact archived_stored small sound admits result
  · rw [failed] at answered
    cases answered
  · rw [found] at answered ⊢
    cases answered
    rw [Cache.isCached, Bool.and_eq_true] at hit
    have kept : ((disk.touch world (plan.compositionKey hash)).cache (plan.compositionKey hash)).initrd =
        (disk.cache (plan.compositionKey hash)).initrd := touch_archive ..
    rw [kept]
    exact hit.1

/-- What a store evicts, a store that may be made. -/
theorem recent_after_store (small : limit maxSizeGb < 2 ^ 64) (admits : disk.Admits maxSizeGb world key data)
    {gone kept : String}
    (evicted : gone ∈ match (Composer.storeInitrd maxSizeGb world.toWorld key data disk.cache).1 with
      | .ok () => Disk.victims maxSizeGb world.toWorld (Disk.storing world.toWorld key data disk.cache)
      | .error _ => [])
    (archived : ((disk.storeInitrd maxSizeGb world key data).2.cache kept).initrd.isSome) :
    (disk.storeInitrd maxSizeGb world key data).2.accessed gone ≤
      (disk.storeInitrd maxSizeGb world key data).2.accessed kept := by
  cases result : (Composer.storeInitrd maxSizeGb world.toWorld key data disk.cache).1 with
  | error error =>
    rw [result] at evicted
    cases evicted
  | ok _ =>
    rw [result] at evicted
    exact recent_stored small admits result evicted archived

theorem recent_after (small : limit maxSizeGb < 2 ^ 64) {call : CacheCall Encodes}
    (keeps : disk.Keeps serialize hash archiveOf maxSizeGb call) {gone kept : String}
    (evicted : gone ∈ disk.evictions serialize hash archiveOf maxSizeGb call)
    (archived : ((disk.after serialize hash archiveOf maxSizeGb call).cache kept).initrd.isSome) :
    (disk.after serialize hash archiveOf maxSizeGb call).accessed gone ≤
      (disk.after serialize hash archiveOf maxSizeGb call).accessed kept := by
  cases call with
  | compose world plan =>
    rcases composeInitrd_cases maxSizeGb world plan disk with ⟨data, composed, stored⟩ | ⟨composed, -⟩
    · rw [Disk.evictions, Disk.stores, composed] at evicted
      rw [Disk.after, stored] at archived ⊢
      exact recent_after_store small ((keeps data composed).imp_right (Or.imp_right And.left)) evicted archived
    · rw [Disk.evictions, Disk.stores, composed] at evicted
      cases evicted
  | store world key data => exact recent_after_store small keeps evicted archived
  | storeSnapshot key bytes => cases evicted
  | touch world key => cases evicted
  | remove world key => cases evicted

end Calls

/-! ## Histories -/

section Histories
variable {Encodes : List UInt8 → String → Prop} (serialize : CmdConfig → String) (hash : String → String)
  (archiveOf : String → List UInt8) {maxSizeGb : Nat}

theorem load_empty (keys : List String) : load Disk.empty.weight keys = 0 := by
  induction keys with
  | nil => rfl
  | cons key keys ih =>
    rw [load_cons, ih]
    rfl

theorem sound_reached (small : limit maxSizeGb < 2 ^ 64) {disk : Disk}
    (reached : (system serialize hash archiveOf maxSizeGb : System Disk (CacheCall Encodes)).Reached
      (Disk.Keeps serialize hash archiveOf maxSizeGb) disk) : Sound maxSizeGb disk := by
  apply reached.invariant
  · rintro _ rfl
    refine ⟨fun keys _ => ?_, fun _ => Nat.le_refl 0⟩
    rw [load_empty]
    exact Nat.zero_le _
  · rintro before call _ sound keeps rfl
    exact sound_after small sound keeps

/-- A limit that is computed without overflow is kept in every history whose
calls meet the condition: what is kept fits, nothing is evicted that was accessed
after what stays, and every answer names a file that is there. -/
theorem cache_bounds_hold (small : limit maxSizeGb < 2 ^ 64) (disk : Disk)
    (reached : (system serialize hash archiveOf maxSizeGb : System Disk (CacheCall Encodes)).Reached
      (Disk.Keeps serialize hash archiveOf maxSizeGb) disk) :
    maxBytes maxSizeGb = limit maxSizeGb ∧ disk.Bounded maxSizeGb ∧
      ∀ call : CacheCall Encodes, disk.Keeps serialize hash archiveOf maxSizeGb call →
        disk.Lawful serialize hash archiveOf maxSizeGb call := by
  have sound := sound_reached serialize hash archiveOf small reached
  refine ⟨maxBytes_eq_iff.mpr small, sound.bounded, fun call keeps => ⟨?_, ?_, ?_⟩⟩
  · rintro world plan key rfl answered
    exact answers_after small sound keeps answered
  · intro gone evicted kept archived
    exact recent_after small keeps evicted archived
  · exact (sound_after small sound keeps).bounded

end Histories

/-! ### One composition -/

private def plainText (json : String) : List UInt8 := json.toList.map fun c => c.toNat.toUInt8

/-- An archive that is the text itself. -/
private def IsPlain (data : List UInt8) (json : String) : Prop := data = plainText json

private def onePlan : CompositionPlan where
  layers := [⟨.base, "base", "v1", "base/base/v1/layer.cpio.zst", "b0"⟩]
  kernelProfile := "base"
  memoryMb := 128
  cmdConfig := ⟨some "python3", ["-c"], none⟩

private def oneKey : String := onePlan.compositionKey id

/-- Everything goes well, and the listing is of one key. -/
private def calmWorld : DiskWorld IsPlain where
  now := 1
  listing := fun _ => some []
  readable := fun _ => true
  archive := fun json => some ⟨plainText json, rfl⟩
  createDir := true
  initrdWrite := .done
  cmdWrite := .done
  metaWrite := .done
  touchWrite := .done
  order := [oneKey]
  distinct := List.nodup_singleton oneKey
  left := fun _ => (false, false)
  leftSnapshot := fun _ => 0

private def interpreterOf (cmd : CmdConfig) : String := cmd.interpreter.getD ""

private def layerBytes (_ : String) : List UInt8 := [0x30]

private def composing : CacheCall IsPlain := .compose calmWorld onePlan

/-- Where the first archive fits it stays, and the answer names it. -/
theorem one_archive_stays : Disk.empty.Lawful interpreterOf id layerBytes 1 composing := by
  refine (cache_bounds_hold interpreterOf id layerBytes (by decide) Disk.empty (.start rfl)).2.2 composing ?_
  intro data composed
  have eight : data.length = 8 := by
    have found : some data = some (0x30 :: plainText "python3") := composed.symm.trans rfl
    cases found
    rfl
  refine .inr (.inl fun keys distinct => ?_)
  have covers : ∀ key ∈ keys, Disk.weight { Disk.empty with
      cache := Disk.storing calmWorld.toWorld (onePlan.compositionKey id) data Disk.empty.cache } key ≠ 0 →
      key ∈ [oneKey] := by
    intro key _ heavy
    by_contra other
    refine heavy ?_
    have apart : key ≠ onePlan.compositionKey id := fun same => other (List.mem_singleton.mpr same)
    simp only [Disk.weight, Cache.size, Disk.storing, put_other _ _ apart]
    rfl
  refine Nat.le_trans (load_le_of_covers distinct covers) ?_
  simp only [load, List.map_cons, List.map_nil, List.sum_cons, List.sum_nil, Disk.weight, Cache.size, Disk.storing,
    oneKey, put_self, Option.map_some, Option.getD_some, eight]
  decide

/-- With a limit of nothing an answer names a file that was evicted at once, and
with a limit of one gigabyte a snapshot of two is kept. -/
theorem bounds_are_passed :
    (∃ disk, (system interpreterOf id layerBytes 0 : System Disk (CacheCall IsPlain)).Reached (fun _ _ => True) disk ∧
      ¬ disk.Lawful interpreterOf id layerBytes 0 composing) ∧
    ∃ disk, (system interpreterOf id layerBytes 1 : System Disk (CacheCall IsPlain)).Reached (fun _ _ => True) disk ∧
      ¬ disk.Bounded 1 := by
  refine ⟨⟨Disk.empty, .start rfl, fun lawful => ?_⟩, ?_⟩
  · have named := lawful.answers calmWorld onePlan oneKey rfl rfl
    cases named
  · have stored : (system interpreterOf id layerBytes 1 : System Disk (CacheCall IsPlain)).step Disk.empty
        (.storeSnapshot oneKey (2 ^ 31)) (Disk.empty.storeSnapshot oneKey (2 ^ 31)).nextCall := rfl
    refine ⟨_, .next (.start rfl) trivial stored, fun bounded => ?_⟩
    have beyond := bounded [oneKey] (List.nodup_singleton oneKey)
    have weight : ((Disk.empty.storeSnapshot oneKey (2 ^ 31)).nextCall).weight oneKey = 2 ^ 31 := by
      simp only [Disk.weight, Disk.nextCall, Disk.storeSnapshot, Function.update_self]
      rfl
    rw [load_cons, weight] at beyond
    revert beyond
    decide

end TinyMachine.CompositionCache
