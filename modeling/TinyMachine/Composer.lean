import Mathlib.Data.List.Sort

/-! The composition engine: an initrd is the layers' archives followed by one
that holds the command configuration, kept in a cache under a key made from
the plan. What a call meets outside (files, subprocesses, the clock) is given
with the call. -/
namespace TinyMachine.Composer

inductive LayerType where
  | base
  | runtime
  | pip
  | npm
  | cargo
  | apt
  | source
  deriving DecidableEq, Repr

def LayerType.dirname : LayerType → String
  | .base => "base"
  | .runtime => "runtime"
  | .pip => "pip"
  | .npm => "npm"
  | .cargo => "cargo"
  | .apt => "apt"
  | .source => "source"

structure LayerRef where
  layerType : LayerType
  name : String
  version : String
  layerPath : String
  hash : String
  deriving DecidableEq, Repr

def LayerRef.display (layer : LayerRef) : String :=
  layer.layerType.dirname ++ "/" ++ layer.name ++ "@" ++ layer.version

structure CmdConfig where
  interpreter : Option String
  args : List String
  exec : Option String
  deriving DecidableEq, Repr

structure CompositionPlan where
  layers : List LayerRef
  kernelProfile : String
  memoryMb : UInt64
  cmdConfig : CmdConfig
  deriving DecidableEq, Repr

/-- At most twelve characters of a hash, which is written in hexadecimal. -/
def hashPrefix (hash : String) : String := String.ofList (hash.toList.take 12)

/-- What `resolve` hashes into the composition key. -/
def CompositionPlan.keyInput (plan : CompositionPlan) : String :=
  plan.kernelProfile ++ ":"
    ++ ",".intercalate (plan.layers.map fun r => r.name ++ "@" ++ r.version ++ ":" ++ hashPrefix r.hash)

def CompositionPlan.compositionKey (hash : String → String) (plan : CompositionPlan) : String :=
  "compose:" ++ hash plan.keyInput

/-- The directory of one key. The metadata is there or not, and if it is, it
parses to the time of the last access or not at all. -/
structure CacheEntry where
  initrd : Option (List UInt8)
  meta_ : Option (Option Nat)
  deriving DecidableEq, Repr

abbrev Cache := String → CacheEntry

def Cache.empty : Cache := fun _ => ⟨none, none⟩

def Cache.put (cache : Cache) (key : String) (entry : CacheEntry) : Cache :=
  fun other => if other = key then entry else cache other

def Cache.isCached (cache : Cache) (key : String) : Bool :=
  (cache key).initrd.isSome && (cache key).meta_.isSome

def Cache.size (cache : Cache) (key : String) : Nat :=
  ((cache key).initrd.map List.length).getD 0

/-- How writing a file goes: whole, not at all, or up to some byte. -/
inductive WriteOutcome where
  | done
  | refused
  | cut (count : Nat)
  deriving DecidableEq, Repr

structure ConflictError where
  path : String
  layerA : String
  layerB : String
  deriving DecidableEq, Repr

inductive ComposerError where
  | io
  | subprocess
  | emptyPlan
  | conflict (conflicts : List ConflictError)
  deriving DecidableEq, Repr

section Outside
variable (Encodes : List UInt8 → String → Prop)

/-- What one call meets outside: the clock, the listing of each layer and
whether it can be read, the archive made of a command configuration, how its
writes go, the order in which the cache directory is listed, and what a removal
leaves behind of an entry (its archive, its metadata). -/
structure World where
  now : Nat
  listing : LayerRef → Option (List String)
  readable : LayerRef → Bool
  archive : (json : String) → Option { data : List UInt8 // Encodes data json }
  createDir : Bool
  initrdWrite : WriteOutcome
  cmdWrite : WriteOutcome
  metaWrite : WriteOutcome
  touchWrite : WriteOutcome
  order : List String
  distinct : order.Nodup
  left : String → Bool × Bool

end Outside

def writeFile (old : Option (List UInt8)) (data : List UInt8) : WriteOutcome → Option (List UInt8)
  | .done => some data
  | .refused => old
  | .cut count => some (data.take count)

/-- Metadata that was cut off does not parse. -/
def writeMeta (old : Option (Option Nat)) (lastAccess : Nat) : WriteOutcome → Option (Option Nat)
  | .done => some (some lastAccess)
  | .refused => old
  | .cut _ => some none

/-- The conflicts of the layers still to list with the paths listed so far. -/
def conflictsWith (listing : LayerRef → Option (List String)) :
    List (String × String) → List LayerRef → List ConflictError
  | _, [] => []
  | allFiles, layer :: rest =>
    match listing layer with
    | none => conflictsWith listing allFiles rest
    | some files =>
      let clashing := files.filterMap fun file =>
        (allFiles.lookup file).map fun existing => ⟨file, existing, layer.display⟩
      let fresh := files.filter fun file => (allFiles.lookup file).isNone
      clashing ++ conflictsWith listing (fresh.map (·, layer.display) ++ allFiles) rest

def conflictCheck (listing : LayerRef → Option (List String)) (layers : List LayerRef) :
    Except ComposerError Unit :=
  match conflictsWith listing [] layers with
  | [] => .ok ()
  | conflicts => .error (.conflict conflicts)

/-- What a removal that does not fail completely leaves. -/
def Cache.remove (cache : Cache) (key : String) (left : Bool × Bool) : Cache :=
  cache.put key ⟨if left.1 then (cache key).initrd else none, if left.2 then (cache key).meta_ else none⟩

/-- Remove the entries in order until what is held fits. -/
def evict (left : String → Bool × Bool) (maxBytes : Nat) : Nat → List String → Cache → Cache
  | _, [], cache => cache
  | held, key :: rest, cache =>
    if held ≤ maxBytes then
      cache
    else
      evict left maxBytes (held - cache.size key) rest (cache.remove key (left key))

def sizes (cache : Cache) : List String → Nat
  | [] => 0
  | key :: keys => cache.size key + sizes cache keys

/-- The complete entries of a listing, least recently accessed first. -/
def Cache.lru (cache : Cache) (order : List String) : List String :=
  let entries := order.filterMap fun key =>
    match cache key with
    | ⟨some _, some (some lastAccess)⟩ => some (key, lastAccess)
    | _ => none
  (entries.insertionSort fun a b => a.2 ≤ b.2).map (·.1)

/-- The limit in bytes, a 64-bit product. -/
def maxBytes (maxSizeGb : Nat) : Nat := maxSizeGb * 1024 * 1024 * 1024 % 0x10000000000000000

section Calls
variable {Encodes : List UInt8 → String → Prop} (serialize : CmdConfig → String)
  (hash : String → String) (archiveOf : String → List UInt8) (maxSizeGb : Nat)

def enforceMaxSize (world : World Encodes) (cache : Cache) : Cache :=
  let entries := cache.lru world.order
  let total := sizes cache entries
  if total ≤ maxBytes maxSizeGb then cache
  else evict world.left (maxBytes maxSizeGb) total entries cache

/-- On a hit the time of the last access is renewed where the metadata parses. -/
def touch (world : World Encodes) (key : String) (cache : Cache) : Cache :=
  match (cache key).meta_ with
  | some (some _) =>
    cache.put key { cache key with meta_ := writeMeta (cache key).meta_ world.now world.touchWrite }
  | _ => cache

/-- Archive, command file and metadata are written in this order; a failed write
ends the call with what was written so far. -/
def storeInitrd (world : World Encodes) (key : String) (data : List UInt8) (cache : Cache) :
    Except ComposerError Unit × Cache :=
  if world.createDir = false then
    (.error .io, cache)
  else
    let written := cache.put key
      { cache key with initrd := writeFile (cache key).initrd data world.initrdWrite }
    if world.initrdWrite ≠ .done ∨ world.cmdWrite ≠ .done then
      (.error .io, written)
    else
      let described := written.put key
        { written key with meta_ := writeMeta (cache key).meta_ world.now world.metaWrite }
      if world.metaWrite ≠ .done then
        (.error .io, described)
      else
        (.ok (), enforceMaxSize maxSizeGb world described)

/-- The layers' archives one after the other; a file is what its hash says. -/
def readLayers (world : World Encodes) : List LayerRef → Except ComposerError (List UInt8)
  | [] => .ok []
  | layer :: rest =>
    if world.readable layer then
      (readLayers world rest).map fun later => archiveOf layer.hash ++ later
    else
      .error .io

/-- The key whose `initrd.zst` is the composed initrd, and the cache afterwards. -/
def composeInitrd (world : World Encodes) (plan : CompositionPlan) (cache : Cache) :
    Except ComposerError String × Cache :=
  let key := plan.compositionKey hash
  if plan.layers = [] then
    (.error .emptyPlan, cache)
  else if cache.isCached key then
    (.ok key, touch world key cache)
  else
    match conflictCheck world.listing plan.layers with
    | .error e => (.error e, cache)
    | .ok () =>
      match readLayers archiveOf world plan.layers with
      | .error e => (.error e, cache)
      | .ok layers =>
        match world.archive (serialize plan.cmdConfig) with
        | none => (.error .subprocess, cache)
        | some cmdCpio =>
          match storeInitrd maxSizeGb world key (layers ++ cmdCpio.val) cache with
          | (.error e, after) => (.error e, after)
          | (.ok (), after) => (.ok key, after)

end Calls
end TinyMachine.Composer
