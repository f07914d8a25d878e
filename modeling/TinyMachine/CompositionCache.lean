import TinyMachine.ComposerSoundness
import TinyMachine.Lib.Eviction
import TinyMachine.Lib.Runs

/-! The composition cache on disk: its entries with the snapshots stored under
them, what eviction takes, and in which order the entries were accessed. -/
namespace TinyMachine.CompositionCache
open Lib Composer

/-! ## The disk -/

/-- The files of the cache. Entries are numbered by the last call that stored
or hit them. -/
structure Disk where
  cache : Cache
  snapshots : String → Nat
  accessed : String → Nat
  calls : Nat

/-- What a call meets, and how much of a snapshot a removal leaves behind. -/
structure DiskWorld (Encodes : List UInt8 → String → Prop) extends World Encodes where
  leftSnapshot : String → Nat

namespace Disk

def empty : Disk := ⟨Cache.empty, fun _ => 0, fun _ => 0, 0⟩

def weight (disk : Disk) (key : String) : Nat := disk.cache.size key + disk.snapshots key

/-- The entry is the last one that was accessed. -/
def access (disk : Disk) (key : String) : Disk :=
  { disk with accessed := Function.update disk.accessed key (disk.calls + 1) }

def nextCall (disk : Disk) : Disk := { disk with calls := disk.calls + 1 }

/-- The snapshots of these entries are removed with them. -/
def dropSnapshots (disk : Disk) (keys : List String) (left : String → Nat) : Disk :=
  { disk with snapshots := fun key =>
      if key ∈ keys then Nat.min (disk.snapshots key) (left key) else disk.snapshots key }

section Calls
variable {Encodes : List UInt8 → String → Prop} (serialize : CmdConfig → String)
  (hash : String → String) (archiveOf : String → List UInt8) (maxSizeGb : Nat)

/-- The entries that `enforce_max_size` removes. -/
def victims (world : World Encodes) (cache : Cache) : List String :=
  let entries := cache.lru world.order
  evicted cache.size (maxBytes maxSizeGb) (load cache.size entries) entries

/-- The entry as it is when the limit is enforced. -/
def storing (world : World Encodes) (key : String) (data : List UInt8) (cache : Cache) : Cache :=
  cache.put key ⟨some data, some (some world.now)⟩

def storeInitrd (world : DiskWorld Encodes) (key : String) (data : List UInt8) (disk : Disk) :
    Except ComposerError Unit × Disk :=
  match Composer.storeInitrd maxSizeGb world.toWorld key data disk.cache with
  | (.ok (), cache) =>
    let gone := victims maxSizeGb world.toWorld (storing world.toWorld key data disk.cache)
    (.ok (), ({ disk with cache := cache }.access key).dropSnapshots gone world.leftSnapshot)
  | (.error error, cache) => (.error error, { disk with cache := cache })

/-- What `compose_initrd` stores, where it comes so far. -/
def composedData (world : World Encodes) (plan : CompositionPlan) (cache : Cache) : Option (List UInt8) :=
  if plan.layers = [] ∨ cache.isCached (plan.compositionKey hash) then none
  else
    match conflictCheck world.listing plan.layers, readLayers archiveOf world plan.layers,
      world.archive (serialize plan.cmdConfig) with
    | .ok (), .ok layers, some cmdCpio => some (layers ++ cmdCpio.val)
    | _, _, _ => none

def composeInitrd (world : DiskWorld Encodes) (plan : CompositionPlan) (disk : Disk) :
    Except ComposerError String × Disk :=
  match composedData serialize hash archiveOf world.toWorld plan disk.cache with
  | some data =>
    let (result, disk) := storeInitrd maxSizeGb world (plan.compositionKey hash) data disk
    (result.map fun _ => plan.compositionKey hash, disk)
  | none =>
    let (result, cache) := Composer.composeInitrd serialize hash archiveOf maxSizeGb world.toWorld plan disk.cache
    match result with
    | .ok key => (.ok key, { disk with cache := cache }.access key)
    | .error error => (.error error, { disk with cache := cache })

/-- So many bytes lie in the snapshot directory afterwards. -/
def storeSnapshot (key : String) (bytes : Nat) (disk : Disk) : Disk :=
  { disk with snapshots := Function.update disk.snapshots key bytes }

def touch (world : DiskWorld Encodes) (key : String) (disk : Disk) : Disk :=
  { disk with cache := Composer.touch world.toWorld key disk.cache }.access key

def remove (world : DiskWorld Encodes) (key : String) (disk : Disk) : Disk :=
  { disk with cache := disk.cache.remove key (world.left key) }.dropSnapshots [key] world.leftSnapshot

end Calls
end Disk

inductive CacheCall (Encodes : List UInt8 → String → Prop) where
  | compose (world : DiskWorld Encodes) (plan : CompositionPlan)
  | store (world : DiskWorld Encodes) (key : String) (data : List UInt8)
  | storeSnapshot (key : String) (bytes : Nat)
  | touch (world : DiskWorld Encodes) (key : String)
  | remove (world : DiskWorld Encodes) (key : String)

section Runs
variable {Encodes : List UInt8 → String → Prop} (serialize : CmdConfig → String)
  (hash : String → String) (archiveOf : String → List UInt8) (maxSizeGb : Nat)

def Disk.after (disk : Disk) : CacheCall Encodes → Disk
  | .compose world plan => (disk.composeInitrd serialize hash archiveOf maxSizeGb world plan).2.nextCall
  | .store world key data => (disk.storeInitrd maxSizeGb world key data).2.nextCall
  | .storeSnapshot key bytes => (disk.storeSnapshot key bytes).nextCall
  | .touch world key => (disk.touch world key).nextCall
  | .remove world key => (disk.remove world key).nextCall

def system : System Disk (CacheCall Encodes) where
  start := fun disk => disk = .empty
  step := fun disk call next => next = disk.after serialize hash archiveOf maxSizeGb call

/-- What a call stores, and under which key. -/
def Disk.stores (disk : Disk) : CacheCall Encodes → Option (DiskWorld Encodes × String × List UInt8)
  | .compose world plan => (Disk.composedData serialize hash archiveOf world.toWorld plan disk.cache).map
      fun data => (world, plan.compositionKey hash, data)
  | .store world key data => some (world, key, data)
  | .storeSnapshot _ _ => none
  | .touch _ _ => none
  | .remove _ _ => none

/-- The entries that a call evicts. -/
def Disk.evictions (disk : Disk) (call : CacheCall Encodes) : List String :=
  match disk.stores serialize hash archiveOf call with
  | some (world, key, data) =>
    match (Composer.storeInitrd maxSizeGb world.toWorld key data disk.cache).1 with
    | .ok () => Disk.victims maxSizeGb world.toWorld (Disk.storing world.toWorld key data disk.cache)
    | .error _ => []
  | none => []

/-! ## Bounds -/

/-- The limit as it is written, not as it is computed. -/
def limit : Nat := maxSizeGb * 1024 * 1024 * 1024

/-- The entries kept, with their snapshots, are within the limit. -/
def Disk.Bounded (disk : Disk) : Prop := ∀ keys : List String, keys.Nodup → load disk.weight keys ≤ limit maxSizeGb

/-- An answer names a file that is there, what is evicted was not accessed after
what is kept, and the limit is kept. -/
structure Disk.Lawful (disk : Disk) (call : CacheCall Encodes) : Prop where
  answers : ∀ world plan key, call = .compose world plan →
    (disk.composeInitrd serialize hash archiveOf maxSizeGb world plan).1 = .ok key →
    ((disk.after serialize hash archiveOf maxSizeGb call).cache key).initrd.isSome
  recent : ∀ gone ∈ disk.evictions serialize hash archiveOf maxSizeGb call, ∀ kept,
    ((disk.after serialize hash archiveOf maxSizeGb call).cache kept).initrd.isSome →
    (disk.after serialize hash archiveOf maxSizeGb call).accessed gone ≤
      (disk.after serialize hash archiveOf maxSizeGb call).accessed kept
  bounded : (disk.after serialize hash archiveOf maxSizeGb call).Bounded maxSizeGb

end Runs

/-- The time of the last access that the metadata records. -/
def recorded (cache : Cache) (key : String) : Option Nat := (cache key).meta_.bind id

section Conditions
variable {Encodes : List UInt8 → String → Prop} (serialize : CmdConfig → String)
  (hash : String → String) (archiveOf : String → List UInt8) (maxSizeGb : Nat)

/-- Everything fits with the new entry. -/
def Disk.Fits (disk : Disk) (world : DiskWorld Encodes) (key : String) (data : List UInt8) : Prop :=
  { disk with cache := Disk.storing world.toWorld key data disk.cache }.Bounded maxSizeGb

/-- Nothing fails, all entries are listed with their metadata and without a
snapshot, and later accesses are recorded with later seconds. -/
structure Disk.Ordered (disk : Disk) (world : DiskWorld Encodes) (key : String) (data : List UInt8) : Prop where
  written : world.initrdWrite = .done ∧ world.cmdWrite = .done ∧ world.metaWrite = .done
  removed : ∀ other, world.left other = (false, false)
  listed : ∀ other, (Disk.storing world.toWorld key data disk.cache other).initrd.isSome → other ∈ world.order
  described : ∀ other, (disk.cache other).initrd.isSome → ∃ time, (disk.cache other).meta_ = some (some time)
  bare : ∀ other, disk.snapshots other = 0
  timed : ∀ earlier later first last, recorded (Disk.storing world.toWorld key data disk.cache) earlier = some first →
    recorded (Disk.storing world.toWorld key data disk.cache) later = some last →
    (disk.access key).accessed earlier < (disk.access key).accessed later → first < last

/-- A store writes nothing, or has room for everything, or meets an orderly
cache; what is composed fits by itself. -/
def Disk.Keeps (disk : Disk) : CacheCall Encodes → Prop
  | .compose world plan => ∀ data, Disk.composedData serialize hash archiveOf world.toWorld plan disk.cache = some data →
      let key := plan.compositionKey hash
      world.createDir = false ∨ disk.Fits maxSizeGb world key data ∨
        disk.Ordered world key data ∧ data.length ≤ limit maxSizeGb
  | .store world key data =>
      world.createDir = false ∨ disk.Fits maxSizeGb world key data ∨ disk.Ordered world key data
  | .storeSnapshot key bytes => (disk.storeSnapshot key bytes).Bounded maxSizeGb
  | .touch _ _ => True
  | .remove _ _ => True

end Conditions
end TinyMachine.CompositionCache
