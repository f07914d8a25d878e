import Mathlib.Data.List.Nodup
import TinyMachine.Composer
import TinyMachine.Lib.Transducer

/-! Whether the initrd a composer answers with is the one the plan asks for.
The key leaves out the command configuration and most of each hash, so a
cached archive is the plan's own where no other plan came under the same key. -/
namespace TinyMachine.Composer
open Lib

section Soundness
variable {Encodes : List UInt8 → String → Prop} (serialize : CmdConfig → String)
  (hash : String → String) (archiveOf : String → List UInt8) (maxSizeGb : Nat)

/-- The archives of the plan's layers in order, and one that encodes its command
configuration. -/
def Composed (Encodes : List UInt8 → String → Prop) (plan : CompositionPlan) (bytes : List UInt8) :
    Prop :=
  ∃ archive, Encodes archive (serialize plan.cmdConfig) ∧
    bytes = (plan.layers.map fun r => archiveOf r.hash).flatten ++ archive

/-- A composer's cache and the plans it was given so far. -/
structure History where
  cache : Cache
  past : List CompositionPlan

def History.start : History := ⟨Cache.empty, []⟩

/-- One call of the composer. -/
structure Call (Encodes : List UInt8 → String → Prop) where
  world : World Encodes
  plan : CompositionPlan

def composeStep (s : History) (call : Call Encodes) : Except ComposerError String × History :=
  let result := composeInitrd serialize hash archiveOf maxSizeGb call.world call.plan s.cache
  (result.1, ⟨result.2, call.plan :: s.past⟩)

/-- If the call answers, the file it answers with is the plan's initrd. -/
def AnswersOwn (s : History) (call : Call Encodes) : Prop :=
  ∀ key, (composeStep serialize hash archiveOf maxSizeGb s call).1 = .ok key →
    ∃ bytes, ((composeStep serialize hash archiveOf maxSizeGb s call).2.cache key).initrd = some bytes ∧
      Composed serialize archiveOf Encodes call.plan bytes

/-- The plan's key stands for its content among the plans seen so far, an archive
that is cut off does not come under metadata already there, and the archives
that eviction turns to no sooner than the new one fit the cache. -/
structure Distinct (s : History) (call : Call Encodes) : Prop where
  content : ∀ earlier ∈ s.past, earlier.keyInput = call.plan.keyInput →
    earlier.layers.map LayerRef.hash = call.plan.layers.map LayerRef.hash ∧
      earlier.cmdConfig = call.plan.cmdConfig
  whole : ∀ count, call.world.initrdWrite = .cut count →
    (s.cache (call.plan.compositionKey hash)).meta_ = none
  room : ∀ archive, call.world.archive (serialize call.plan.cmdConfig) = some archive →
    let key := call.plan.compositionKey hash
    let data := (call.plan.layers.map fun r => archiveOf r.hash).flatten ++ archive.val
    let stored := s.cache.put key ⟨some data, some (some call.world.now)⟩
    sizes stored ((stored.lru call.world.order).dropWhile (· ≠ key)) ≤ maxBytes maxSizeGb

/-! ## The cache -/

@[simp] theorem put_self (cache : Cache) (key : String) (entry : CacheEntry) :
    cache.put key entry key = entry := if_pos rfl

theorem put_other (cache : Cache) {key other : String} (entry : CacheEntry) (differs : other ≠ key) :
    cache.put key entry other = cache other := if_neg differs

theorem put_put (cache : Cache) (key : String) (entry entry' : CacheEntry) :
    (cache.put key entry).put key entry' = cache.put key entry' := by
  funext other
  simp only [Cache.put]
  split <;> rfl

theorem sizes_congr {cache other : Cache} {keys : List String}
    (same : ∀ key ∈ keys, cache.size key = other.size key) : sizes cache keys = sizes other keys := by
  induction keys with
  | nil => rfl
  | cons key keys ih =>
    rw [sizes, sizes, same key List.mem_cons_self,
      ih fun later member => same later (List.mem_cons_of_mem _ member)]

variable (Encodes) in
/-- Whoever is asked for an entry gets what one of the plans asks for. -/
def Held (past : List CompositionPlan) (cache : Cache) : Prop :=
  ∀ key bytes, (cache key).meta_.isSome → (cache key).initrd = some bytes →
    ∃ plan ∈ past, plan.compositionKey hash = key ∧ Composed serialize archiveOf Encodes plan bytes

variable {serialize hash archiveOf maxSizeGb}

theorem held_put {past : List CompositionPlan} {cache : Cache} {key : String} {entry : CacheEntry}
    (held : Held Encodes serialize hash archiveOf past cache)
    (own : ∀ bytes, entry.meta_.isSome → entry.initrd = some bytes →
      ∃ plan ∈ past, plan.compositionKey hash = key ∧ Composed serialize archiveOf Encodes plan bytes) :
    Held Encodes serialize hash archiveOf past (cache.put key entry) := by
  intro other bytes described found
  by_cases same : other = key
  · subst same
    rw [put_self] at described found
    exact own bytes described found
  · rw [put_other cache entry same] at described found
    exact held other bytes described found

theorem held_later {past : List CompositionPlan} {cache : Cache} (plan : CompositionPlan)
    (held : Held Encodes serialize hash archiveOf past cache) :
    Held Encodes serialize hash archiveOf (plan :: past) cache := by
  intro key bytes described found
  obtain ⟨earlier, member, named, composed⟩ := held key bytes described found
  exact ⟨earlier, List.mem_cons_of_mem _ member, named, composed⟩

/-- Files of the second cache are those of the first, or gone. -/
def Shrunk (cache after : Cache) : Prop :=
  ∀ key, ((after key).initrd = (cache key).initrd ∨ (after key).initrd = none) ∧
    ((after key).meta_.isSome → (cache key).meta_.isSome)

theorem held_shrunk {past : List CompositionPlan} {cache after : Cache} (shrunk : Shrunk cache after)
    (held : Held Encodes serialize hash archiveOf past cache) :
    Held Encodes serialize hash archiveOf past after := by
  intro key bytes described found
  obtain ⟨kept | gone, metadata⟩ := shrunk key
  · exact held key bytes (metadata described) (kept ▸ found)
  · rw [gone] at found
    cases found

theorem remove_shrinks (cache : Cache) (key : String) (left : Bool × Bool) :
    Shrunk cache (cache.remove key left) := by
  intro other
  by_cases same : other = key
  · subst same
    simp only [Cache.remove, put_self]
    constructor
    · split
      · exact Or.inl rfl
      · exact Or.inr rfl
    · split
      · exact id
      · intro absent
        cases absent
  · rw [Cache.remove, put_other cache _ same]
    exact ⟨Or.inl rfl, id⟩

theorem evict_shrinks (left : String → Bool × Bool) (limit : Nat) (keys : List String) (held : Nat)
    (cache : Cache) : Shrunk cache (evict left limit held keys cache) := by
  induction keys generalizing held cache with
  | nil => exact fun _ => ⟨Or.inl rfl, id⟩
  | cons key rest ih =>
    rw [evict]
    split
    · exact fun _ => ⟨Or.inl rfl, id⟩
    · intro other
      obtain ⟨archive, metadata⟩ := remove_shrinks cache key (left key) other
      obtain ⟨archive', metadata'⟩ := ih (held - cache.size key) (cache.remove key (left key)) other
      refine ⟨?_, fun there => metadata (metadata' there)⟩
      rcases archive' with same | gone
      · rcases archive with kept | gone
        · exact Or.inl (same.trans kept)
        · exact Or.inr (same.trans gone)
      · exact Or.inr gone

private theorem size_of_removed (cache : Cache) {key other : String} (left : Bool × Bool)
    (differs : other ≠ key) : (cache.remove key left).size other = cache.size other := by
  rw [Cache.size, Cache.remove, put_other cache _ differs, Cache.size]

/-- An entry stays when it and what would be removed after it fit. -/
theorem evict_spares (left : String → Bool × Bool) (limit : Nat) (key : String) (keys : List String)
    (held : Nat) (cache : Cache) (distinct : keys.Nodup) (counted : held ≤ sizes cache keys)
    (room : sizes cache (keys.dropWhile (· ≠ key)) ≤ limit) :
    evict left limit held keys cache key = cache key := by
  induction keys generalizing held cache with
  | nil => rfl
  | cons next rest ih =>
    rw [evict]
    split
    · rfl
    · rename_i beyond
      by_cases same : next = key
      · subst same
        have whole : (next :: rest).dropWhile (· ≠ next) = next :: rest := by simp
        rw [whole] at room
        omega
      · obtain ⟨notLater, restDistinct⟩ := List.nodup_cons.mp distinct
        have skips : (next :: rest).dropWhile (· ≠ key) = rest.dropWhile (· ≠ key) := by simp [same]
        have unchanged : ∀ some_ : List String, (∀ k ∈ some_, k ∈ rest) →
            sizes (cache.remove next (left next)) some_ = sizes cache some_ := by
          intro some_ within
          refine sizes_congr fun k member => ?_
          refine size_of_removed cache _ fun equal => notLater ?_
          exact equal ▸ within k member
        have counts : sizes cache (next :: rest) = cache.size next + sizes cache rest := rfl
        rw [skips] at room
        rw [ih _ _ restDistinct, Cache.remove, put_other cache _ (Ne.symm same)]
        · rw [unchanged rest fun _ member => member]
          omega
        · rw [unchanged _ fun _ member => (List.dropWhile_sublist _).subset member]
          exact room

theorem lru_distinct (cache : Cache) {order : List String} (distinct : order.Nodup) :
    (cache.lru order).Nodup := by
  unfold Cache.lru
  rw [((List.perm_insertionSort _ _).map _).nodup_iff, List.map_filterMap]
  refine List.Nodup.filterMap ?_ distinct
  intro key key' named found found'
  simp only [Option.mem_def, Option.map_eq_some_iff] at found found'
  obtain ⟨entry, complete, rfl⟩ := found
  obtain ⟨entry', complete', same⟩ := found'
  have here : entry.1 = key := by
    split at complete
    · cases complete
      rfl
    · cases complete
  have there : entry'.1 = key' := by
    split at complete'
    · cases complete'
      rfl
    · cases complete'
  rw [← here, ← there, same]

/-! ## A call -/

section Store
variable {world : World Encodes} {plan : CompositionPlan} {past : List CompositionPlan}
  {data : List UInt8} {cache : Cache}

theorem enforce_shrinks : Shrunk cache (enforceMaxSize maxSizeGb world cache) := by
  simp only [enforceMaxSize]
  split
  · exact fun _ => ⟨Or.inl rfl, id⟩
  · exact evict_shrinks world.left _ _ _ cache

theorem enforce_spares {key : String}
    (room : sizes cache ((cache.lru world.order).dropWhile (· ≠ key)) ≤ maxBytes maxSizeGb) :
    enforceMaxSize maxSizeGb world cache key = cache key := by
  unfold enforceMaxSize
  split
  · rfl
  · exact evict_spares world.left _ key _ _ cache (lru_distinct cache world.distinct) (Nat.le_refl _) room

/-- Storing a plan's initrd keeps every entry one of a plan seen. -/
theorem store_held (held : Held Encodes serialize hash archiveOf past cache)
    (member : plan ∈ past) (composed : Composed serialize archiveOf Encodes plan data)
    (whole : ∀ count, world.initrdWrite = .cut count →
      (cache (plan.compositionKey hash)).meta_ = none) :
    Held Encodes serialize hash archiveOf past
      (storeInitrd maxSizeGb world (plan.compositionKey hash) data cache).2 := by
  have own : ∀ bytes, some data = some bytes → ∃ p ∈ past,
      p.compositionKey hash = plan.compositionKey hash ∧ Composed serialize archiveOf Encodes p bytes := by
    rintro bytes same
    cases same
    exact ⟨plan, member, rfl, composed⟩
  have written : Held Encodes serialize hash archiveOf past (cache.put (plan.compositionKey hash)
      { cache (plan.compositionKey hash) with
        initrd := writeFile (cache (plan.compositionKey hash)).initrd data world.initrdWrite }) := by
    refine held_put held fun bytes described found => ?_
    cases outcome : world.initrdWrite with
    | done =>
      rw [outcome] at found
      exact own bytes found
    | refused =>
      rw [outcome] at found
      exact held _ bytes described found
    | cut count =>
      simp only [whole count outcome] at described
      cases described
  unfold storeInitrd
  split
  · exact held
  · simp only
    split
    · exact written
    · rename_i complete
      have done : world.initrdWrite = .done := by_contra fun other => complete (Or.inl other)
      have described : ∀ metadata, Held Encodes serialize hash archiveOf past
          ((cache.put (plan.compositionKey hash) { cache (plan.compositionKey hash) with
            initrd := writeFile (cache (plan.compositionKey hash)).initrd data world.initrdWrite }).put
              (plan.compositionKey hash) ⟨some data, metadata⟩) := by
        intro metadata
        exact held_put written fun bytes _ found => own bytes found
      simp only [put_self, done, writeFile] at described ⊢
      split
      · exact described _
      · exact held_shrunk enforce_shrinks (described _)

theorem store_ok {key : String} (stored : (storeInitrd maxSizeGb world key data cache).1 = .ok ()) :
    world.createDir = true ∧ world.initrdWrite = .done ∧ world.cmdWrite = .done ∧
      world.metaWrite = .done := by
  unfold storeInitrd at stored
  split at stored
  · cases stored
  · rename_i made
    split at stored
    · cases stored
    · rename_i written
      split at stored
      · cases stored
      · rename_i described
        simp only [ne_eq, not_or, not_not] at written described
        exact ⟨by simpa using made, written.1, written.2, described⟩

/-- What a successful store leaves under the key, if eviction spares it. -/
theorem store_kept {key : String} (stored : (storeInitrd maxSizeGb world key data cache).1 = .ok ())
    (room : sizes (cache.put key ⟨some data, some (some world.now)⟩)
      (((cache.put key ⟨some data, some (some world.now)⟩).lru world.order).dropWhile (· ≠ key))
        ≤ maxBytes maxSizeGb) :
    ((storeInitrd maxSizeGb world key data cache).2 key).initrd = some data := by
  obtain ⟨made, archived, commanded, described⟩ := store_ok stored
  simp only [storeInitrd, made, archived, commanded, described, writeFile, writeMeta, put_self,
    put_put, Bool.true_eq_false, if_false, ne_eq, not_true_eq_false, or_self]
  rw [enforce_spares room, put_self]

end Store

theorem readLayers_ok {world : World Encodes} {layers : List LayerRef} {data : List UInt8}
    (read : readLayers archiveOf world layers = .ok data) :
    data = (layers.map fun r => archiveOf r.hash).flatten := by
  induction layers generalizing data with
  | nil =>
    cases read
    rfl
  | cons layer rest ih =>
    rw [readLayers] at read
    split at read
    · cases later : readLayers archiveOf world rest with
      | error e =>
        rw [later] at read
        cases read
      | ok more =>
        rw [later] at read
        cases read
        rw [ih later, List.map_cons, List.flatten_cons]
    · cases read

theorem touch_held {world : World Encodes} {past : List CompositionPlan} {cache : Cache} {key : String}
    (held : Held Encodes serialize hash archiveOf past cache) :
    Held Encodes serialize hash archiveOf past (touch world key cache) := by
  unfold touch
  split
  · rename_i lastAccess described
    exact held_put held fun bytes _ found => held key bytes (described ▸ rfl) found
  · exact held

theorem touch_archive (world : World Encodes) (key : String) (cache : Cache) :
    (touch world key cache key).initrd = (cache key).initrd := by
  rcases described : (cache key).meta_ with _ | _ | lastAccess
  · simp only [touch, described]
  · simp only [touch, described]
  · simp only [touch, described, put_self]

variable (serialize hash archiveOf maxSizeGb)

/-- A call fails before it writes, finds its key, or stores what it put together. -/
theorem compose_cases (world : World Encodes) (plan : CompositionPlan) (cache : Cache) :
    (∃ e, composeInitrd serialize hash archiveOf maxSizeGb world plan cache = (.error e, cache)) ∨
    (cache.isCached (plan.compositionKey hash) ∧
      composeInitrd serialize hash archiveOf maxSizeGb world plan cache =
        (.ok (plan.compositionKey hash), touch world (plan.compositionKey hash) cache)) ∨
    ∃ archive, world.archive (serialize plan.cmdConfig) = some archive ∧
      let stored := storeInitrd maxSizeGb world (plan.compositionKey hash)
        ((plan.layers.map fun r => archiveOf r.hash).flatten ++ archive.val) cache
      composeInitrd serialize hash archiveOf maxSizeGb world plan cache =
        (stored.1.map fun _ => plan.compositionKey hash, stored.2) := by
  unfold composeInitrd
  by_cases layerless : plan.layers = []
  · exact Or.inl ⟨.emptyPlan, by simp only [layerless, if_true]⟩
  by_cases hit : cache.isCached (plan.compositionKey hash) = true
  · exact Or.inr (Or.inl ⟨hit, by simp only [layerless, hit, if_true, if_false]⟩)
  simp only [layerless, hit, if_false, Bool.false_eq_true]
  cases conflictCheck world.listing plan.layers with
  | error e => exact Or.inl ⟨e, rfl⟩
  | ok _ =>
    cases read : readLayers archiveOf world plan.layers with
    | error e => exact Or.inl ⟨e, rfl⟩
    | ok layers =>
      cases made : world.archive (serialize plan.cmdConfig) with
      | none => exact Or.inl ⟨.subprocess, rfl⟩
      | some archive =>
        refine Or.inr (Or.inr ⟨archive, rfl, ?_⟩)
        rw [← readLayers_ok read]
        simp only
        cases storeInitrd maxSizeGb world (plan.compositionKey hash) (layers ++ archive.val) cache with
        | mk result after => cases result <;> rfl

variable {serialize hash archiveOf maxSizeGb}

private theorem same_content {plan earlier : CompositionPlan} {bytes : List UInt8}
    (layers : earlier.layers.map LayerRef.hash = plan.layers.map LayerRef.hash)
    (command : earlier.cmdConfig = plan.cmdConfig)
    (composed : Composed serialize archiveOf Encodes earlier bytes) :
    Composed serialize archiveOf Encodes plan bytes := by
  obtain ⟨archive, encodes, rfl⟩ := composed
  refine ⟨archive, command ▸ encodes, ?_⟩
  have archives := congrArg (List.map archiveOf) layers
  simp only [List.map_map] at archives
  change (earlier.layers.map (archiveOf ∘ LayerRef.hash)).flatten ++ archive = _
  rw [archives]
  rfl

/-- A call keeps every entry one of a plan seen, and answers with its own. -/
theorem compose_sound (injective : Function.Injective hash) (s : History) (call : Call Encodes)
    (held : Held Encodes serialize hash archiveOf s.past s.cache)
    (distinct : Distinct serialize hash archiveOf maxSizeGb s call) :
    AnswersOwn serialize hash archiveOf maxSizeGb s call ∧
      Held Encodes serialize hash archiveOf
        (composeStep serialize hash archiveOf maxSizeGb s call).2.past
        (composeStep serialize hash archiveOf maxSizeGb s call).2.cache := by
  have later := held_later call.plan held
  have seen : call.plan ∈ call.plan :: s.past := List.mem_cons_self
  unfold AnswersOwn composeStep
  simp only
  rcases compose_cases serialize hash archiveOf maxSizeGb call.world call.plan s.cache with
    ⟨e, failed⟩ | ⟨hit, found⟩ | ⟨archive, made, stored⟩
  · rw [failed]
    refine ⟨fun key answered => ?_, later⟩
    cases answered
  · rw [found]
    refine ⟨fun key answered => ?_, touch_held later⟩
    cases answered
    simp only [Cache.isCached, Bool.and_eq_true] at hit
    obtain ⟨bytes, present⟩ := Option.isSome_iff_exists.mp hit.1
    obtain ⟨earlier, member, named, composed⟩ := held _ bytes hit.2 present
    have sameInput : earlier.keyInput = call.plan.keyInput :=
      injective ((String.append_right_inj _).mp named)
    obtain ⟨layers, command⟩ := distinct.content earlier member sameInput
    exact ⟨bytes, (touch_archive _ _ _).trans present, same_content layers command composed⟩
  · have composed : Composed serialize archiveOf Encodes call.plan
        ((call.plan.layers.map fun r => archiveOf r.hash).flatten ++ archive.val) :=
      ⟨archive.val, archive.property, rfl⟩
    rw [stored]
    refine ⟨fun key answered => ?_, store_held later seen composed distinct.whole⟩
    simp only at answered
    generalize outcome : (storeInitrd maxSizeGb call.world (call.plan.compositionKey hash)
      ((call.plan.layers.map fun r => archiveOf r.hash).flatten ++ archive.val) s.cache).1 = result
      at answered
    cases result with
    | error e => cases answered
    | ok _ =>
      cases answered
      exact ⟨_, store_kept outcome (distinct.room archive made), composed⟩

/-- Along calls whose keys stand for their content, and whose new archives are
neither cut off nor evicted at once, every answer is the plan's own initrd. -/
theorem answers_own_initrd (serialize : CmdConfig → String) {hash : String → String}
    (injective : Function.Injective hash) (archiveOf : String → List UInt8) (maxSizeGb : Nat)
    (calls : List (Call Encodes))
    (distinct : Throughout (composeStep serialize hash archiveOf maxSizeGb)
      (Distinct serialize hash archiveOf maxSizeGb) calls .start) :
    Throughout (composeStep serialize hash archiveOf maxSizeGb)
      (AnswersOwn serialize hash archiveOf maxSizeGb) calls .start := by
  have empty : Held Encodes serialize hash archiveOf History.start.past
      History.start.cache := by
    intro key bytes _ found
    cases found
  exact throughout_of_invariant
    (fun s : History => Held Encodes serialize hash archiveOf s.past s.cache)
    (fun s call => compose_sound injective s call) calls .start empty distinct

end Soundness

/-! ## Two commands over one set of layers -/

private def textOf (json : String) : List UInt8 := json.toList.map fun c => c.toNat.toUInt8

/-- An archive that is the text itself. -/
private def IsText (data : List UInt8) (json : String) : Prop := data = textOf json

private def calm : World IsText where
  now := 0
  listing _ := some []
  readable _ := true
  archive json := some ⟨textOf json, rfl⟩
  createDir := true
  initrdWrite := .done
  cmdWrite := .done
  metaWrite := .done
  touchWrite := .done
  order := []
  distinct := List.nodup_nil
  left _ := (false, false)

private def commandText (cmd : CmdConfig) : String := cmd.interpreter.getD ""

private def baseWith (interpreter : String) : Call IsText where
  world := calm
  plan := {
    layers := [⟨.base, "base", "v1", "/layers/base.cpio.zst", "0123456789abcdef"⟩]
    kernelProfile := "base"
    memoryMb := 128
    cmdConfig := ⟨some interpreter, ["-c"], none⟩ }

private def asStep : History → Call IsText → Except ComposerError String × History :=
  composeStep commandText id (fun _ => [0x30]) 50

/-- Composing the same plan twice answers with its own initrd both times. -/
theorem repeated_plan_is_answered :
    Throughout asStep (AnswersOwn commandText id (fun _ => [0x30]) 50)
      [baseWith "python3", baseWith "python3"] .start := by
  refine answers_own_initrd commandText Function.injective_id _ 50 _ ⟨⟨?_, ?_, ?_⟩, ⟨?_, ?_, ?_⟩, trivial⟩
  · intro earlier absent
    cases absent
  · intro count cut
    cases cut
  · intro archive _
    exact Nat.zero_le _
  · intro earlier member _
    cases List.mem_singleton.mp member
    exact ⟨rfl, rfl⟩
  · intro count cut
    cases cut
  · intro archive _
    exact Nat.zero_le _

/-- A second command over the same layers is answered with the first one's
initrd. -/
theorem second_command_gets_first_initrd :
    ¬ ∀ calls : List (Call IsText),
      Throughout asStep (AnswersOwn commandText id (fun _ => [0x30]) 50) calls .start := by
  intro sound
  obtain ⟨-, second, -⟩ := sound [baseWith "python3", baseWith "sh"]
  obtain ⟨bytes, found, archive, encodes, composed⟩ := second _ rfl
  cases found
  rw [encodes] at composed
  revert composed
  decide +kernel

end TinyMachine.Composer
