import Mathlib.Data.Finset.Max
import TinyMachine.LayerIndex
import TinyMachine.Lib.DottedNumbers

/-! Which version becomes the default when all layers are updated, for versions
that are numbers with dots between them. -/
namespace TinyMachine.Layers
open Lib Composer

namespace LayerRegistry

/-- Versions are nonempty sequences of numbers, each listed once for its type
and name. -/
structure Numbered (registry : LayerRegistry) : Prop where
  distinct : ∀ layerType name, ((registry.entries layerType name).map (·.version)).Nodup
  numbers : ∀ layerType name, ∀ layer ∈ registry.entries layerType name,
    ∃ components, components ≠ [] ∧ layer.version.toList = DottedNumbers.text components

/-- The greatest version, as numbers are compared, component by component. -/
structure Greatest (layers : List LayerMetadata) (components : List Nat) : Prop where
  listed : ∃ layer ∈ layers, layer.version.toList = DottedNumbers.text components
  bound : ∀ layer ∈ layers, ∀ others, layer.version.toList = DottedNumbers.text others → others ≤ components

/-- For every type and name the greatest version is the one that is default. -/
def MarksNewest (registry : LayerRegistry) : Prop :=
  ∀ layerType name, registry.entries layerType name ≠ [] → ∃ layer components,
    (registry.entries layerType name).filter (·.default) = [layer] ∧
      Greatest (registry.entries layerType name) components ∧
      layer.version.toList = DottedNumbers.text components

/-- The greatest version differs from all others first in a component that is
behind the other's as a text. -/
def TextsAgree (registry : LayerRegistry) : Prop :=
  ∀ layerType name components, Greatest (registry.entries layerType name) components →
    ∀ layer ∈ registry.entries layerType name, ∀ others, layer.version.toList = DottedNumbers.text others →
      others ≠ components → DottedNumbers.TextBefore others components

section Bucket
variable {layers : List LayerMetadata} {version : String} {components : List Nat}

/-- The version that is chosen is listed and not before any other as a text. -/
theorem newest_greatest (chosen : newest layers = some version) :
    (∃ layer ∈ layers, layer.version = version) ∧ ∀ layer ∈ layers, layer.version ≤ version := by
  have folded (rest : List LayerMetadata) (start : String) :
      let last := rest.foldl (fun newest other => if newest ≤ other.version then other.version else newest) start
      (last = start ∨ ∃ layer ∈ rest, layer.version = last) ∧ start ≤ last ∧
        ∀ layer ∈ rest, layer.version ≤ last := by
    induction rest generalizing start with
    | nil => simp
    | cons other rest ih =>
      have step : ∃ next, (if start ≤ other.version then other.version else start) = next ∧
          (next = start ∨ other.version = next) ∧ start ≤ next ∧ other.version ≤ next := by
        split
        · next before => exact ⟨_, rfl, .inr rfl, before, le_refl _⟩
        · next behind => exact ⟨_, rfl, .inl rfl, le_refl _, le_of_not_ge behind⟩
      obtain ⟨next, same, from_, here, there⟩ := step
      obtain ⟨origin, above, bound⟩ := ih next
      dsimp only
      rw [List.foldl_cons, same]
      refine ⟨?_, le_trans here above, List.forall_mem_cons.mpr ⟨le_trans there above, bound⟩⟩
      rcases origin with last | ⟨layer, member, last⟩
      · rw [last]
        exact from_.imp_right fun own => ⟨other, List.mem_cons_self, own⟩
      · exact .inr ⟨layer, List.mem_cons_of_mem _ member, last⟩
  cases layers with
  | nil => cases chosen
  | cons layer rest =>
    obtain ⟨origin, above, bound⟩ := folded rest layer.version
    obtain rfl := Option.some.inj chosen
    refine ⟨?_, List.forall_mem_cons.mpr ⟨above, bound⟩⟩
    rcases origin with same | ⟨other, member, same⟩
    · exact ⟨layer, List.mem_cons_self, same.symm⟩
    · exact ⟨other, List.mem_cons_of_mem _ member, same⟩

theorem filter_version {layer : LayerMetadata} (distinct : (layers.map (·.version)).Nodup) (member : layer ∈ layers) :
    layers.filter (fun other => other.version = layer.version) = [layer] := by
  induction layers with
  | nil => cases member
  | cons first rest ih =>
    rw [List.map_cons, List.nodup_cons] at distinct
    rcases List.mem_cons.mp member with rfl | later
    · have none : rest.filter (fun other => other.version = layer.version) = [] := by
        refine List.filter_eq_nil_iff.mpr fun other there same => distinct.1 ?_
        exact List.mem_map.mpr ⟨other, there, of_decide_eq_true same⟩
      rw [List.filter_cons_of_pos (by simp), none]
    · have apart : first.version ≠ layer.version := fun same =>
        distinct.1 (List.mem_map.mpr ⟨layer, later, same.symm⟩)
      rw [List.filter_cons_of_neg (by simpa using apart), ih distinct.2 later]

theorem chooseNewest_default (chosen : newest layers = some version) (distinct : (layers.map (·.version)).Nodup) :
    ∃ layer, (chooseNewest layers).filter (·.default) = [layer] ∧ layer.version = version := by
  obtain ⟨⟨layer, member, rfl⟩, -⟩ := newest_greatest chosen
  have only := filter_version distinct member
  refine ⟨{ layer with default := true }, ?_, rfl⟩
  have flags : layers.filter ((fun other : LayerMetadata => other.default) ∘
      fun other => { other with default := other.version = layer.version }) = [layer] := only
  rw [chooseNewest, chosen]
  dsimp only
  rw [List.filter_map, flags, List.map_singleton]
  simp

/-- The greatest version does not depend on the flags. -/
theorem greatest_chooseNewest : Greatest (chooseNewest layers) components ↔ Greatest layers components := by
  have versions : ∀ {text}, (∃ layer ∈ chooseNewest layers, layer.version.toList = text) ↔
      ∃ layer ∈ layers, layer.version.toList = text := by
    intro text
    unfold chooseNewest
    split
    · rfl
    · simp
  constructor
  · rintro ⟨listed, bound⟩
    refine ⟨versions.mp listed, fun layer member others same => ?_⟩
    obtain ⟨other, there, own⟩ := versions.mpr ⟨layer, member, same⟩
    exact bound other there others own
  · rintro ⟨listed, bound⟩
    refine ⟨versions.mpr listed, fun layer member others same => ?_⟩
    obtain ⟨other, there, own⟩ := versions.mp ⟨layer, member, same⟩
    exact bound other there others own

theorem exists_greatest (some : layers ≠ []) (numbers : ∀ layer ∈ layers,
    ∃ components, components ≠ [] ∧ layer.version.toList = DottedNumbers.text components) :
    ∃ components, Greatest layers components := by
  choose! read _ reads using numbers
  obtain ⟨layer, member, most⟩ := layers.toFinset.exists_max_image read (by simpa using some)
  refine ⟨read layer, ⟨layer, List.mem_toFinset.mp member, reads layer (List.mem_toFinset.mp member)⟩, ?_⟩
  intro other there others same
  obtain rfl := DottedNumbers.text_inj.mp ((reads other there).symm.trans same)
  exact most other (List.mem_toFinset.mpr there)

end Bucket

section Registry
variable {registry : LayerRegistry}

theorem Greatest.unique {layers : List LayerMetadata} {one two : List Nat} (first : Greatest layers one)
    (second : Greatest layers two) : one = two := by
  obtain ⟨layer, member, same⟩ := first.listed
  obtain ⟨other, there, own⟩ := second.listed
  exact le_antisymm (second.bound layer member one same) (first.bound other there two own)

/-- What is listed is not behind the chosen version as a text. -/
theorem not_textBefore {layers : List LayerMetadata} {version : String} {last others : List Nat}
    {layer : LayerMetadata} (chosen : newest layers = some version) (reads : version.toList = DottedNumbers.text last)
    (member : layer ∈ layers) (same : layer.version.toList = DottedNumbers.text others) :
    ¬ DottedNumbers.TextBefore last others := by
  intro before
  have less : version < layer.version := by
    rw [String.lt_iff, reads, same]
    exact DottedNumbers.text_lt_iff.mpr before
  exact absurd less (not_lt_of_ge ((newest_greatest chosen).2 layer member))

/-- The greatest versions become the defaults exactly when texts and numbers
agree on them. -/
theorem marks_newest_iff (numbered : registry.Numbered) :
    registry.updateAllLatest.MarksNewest ↔ registry.TextsAgree := by
  have chosen {layers : List LayerMetadata} (some : layers ≠ []) : ∃ version, newest layers = .some version := by
    cases layers with
    | nil => exact absurd rfl some
    | cons layer rest => exact ⟨_, rfl⟩
  constructor
  · intro marks layerType name components greatest layer member others same differ
    have some := List.ne_nil_of_mem member
    obtain ⟨version, latest⟩ := chosen some
    have update := @entries_updateAllLatest registry layerType name
    obtain ⟨marked, own, only, most, reads⟩ := marks layerType name (by
      rw [update, chooseNewest, latest]
      simpa using some)
    rw [update] at only most
    obtain rfl := (greatest_chooseNewest.mp most).unique greatest
    obtain ⟨default, alone, versioned⟩ := chooseNewest_default latest (numbered.distinct layerType name)
    obtain rfl : marked = default := by simpa [only] using alone
    have after := not_textBefore latest (versioned ▸ reads) member same
    rcases DottedNumbers.textBefore_trichotomy others own with before | equal | behind
    · exact before
    · exact absurd equal differ
    · exact absurd behind after
  · intro agree layerType name some
    have update := @entries_updateAllLatest registry layerType name
    rw [update] at some ⊢
    have some : registry.entries layerType name ≠ [] := by
      rintro none
      rw [none] at some
      exact some rfl
    obtain ⟨version, latest⟩ := chosen some
    obtain ⟨components, greatest⟩ := exists_greatest some (numbered.numbers layerType name)
    obtain ⟨marked, only, rfl⟩ := chooseNewest_default latest (numbered.distinct layerType name)
    refine ⟨marked, components, only, greatest_chooseNewest.mpr greatest, ?_⟩
    obtain ⟨⟨layer, member, same⟩, -⟩ := newest_greatest latest
    obtain ⟨others, -, reads⟩ := numbered.numbers layerType name layer member
    rw [same] at reads
    obtain ⟨top, there, topReads⟩ := greatest.listed
    by_contra differ
    have unequal : others ≠ components := by
      rintro rfl
      exact differ reads
    have before := agree layerType name components greatest layer member others (same ▸ reads) unequal
    exact not_textBefore latest reads there topReads before

end Registry

/-- Version 1.9 of a layer, and another one. -/
def withNumpy (version : String) : LayerRegistry :=
  ((new "/layers").addLayer (stub .pip "numpy" "1.9")).addLayer (stub .pip "numpy" version)

private theorem withNumpy_entries (version : String) (layerType : LayerType) (name : String) :
    (withNumpy version).entries layerType name = [] ∨ (withNumpy version).entries layerType name =
      [stub .pip "numpy" "1.9", stub .pip "numpy" version] := by
  rw [withNumpy, entries_addLayer, entries_addLayer, entries_new]
  by_cases here : layerType = .pip ∧ name = "numpy"
  · obtain ⟨rfl, rfl⟩ := here
    exact .inr rfl
  · exact .inl ((if_neg here).trans (if_neg here))

private theorem withNumpy_numbered {version : String} {components : List Nat} (other : "1.9" ≠ version)
    (some : components ≠ []) (reads : version.toList = DottedNumbers.text components) :
    (withNumpy version).Numbered := by
  constructor
  · intro layerType name
    rcases withNumpy_entries version layerType name with none | both
    · simp [none]
    · simpa [both, stub] using other
  · intro layerType name layer member
    rcases withNumpy_entries version layerType name with none | both
    · rw [none] at member
      cases member
    · rw [both, List.mem_cons, List.mem_singleton] at member
      rcases member with rfl | rfl
      · exact ⟨[1, 9], by decide, by decide⟩
      · exact ⟨components, some, reads⟩

/-- A second version 2.0 becomes the default. -/
theorem two_is_newest : (withNumpy "2.0").updateAllLatest.MarksNewest := by
  refine (marks_newest_iff (@withNumpy_numbered "2.0" [2, 0] (by decide) (by decide) (by decide))).mpr ?_
  intro layerType name components greatest layer member others same differ
  rcases withNumpy_entries "2.0" layerType name with none | both
  · rw [none] at member
    cases member
  rw [both] at greatest member
  have top : [2, 0] ≤ components :=
    greatest.bound (stub .pip "numpy" "2.0") (List.mem_cons_of_mem _ (List.mem_singleton_self _)) [2, 0] (by decide)
  have listed (version : String) (there : ∃ layer ∈ [stub .pip "numpy" "1.9", stub .pip "numpy" "2.0"],
      layer.version = version) : version.toList = DottedNumbers.text [1, 9] ∨ version.toList = DottedNumbers.text [2, 0] := by
    obtain ⟨layer, member, rfl⟩ := there
    rw [List.mem_cons, List.mem_singleton] at member
    rcases member with rfl | rfl
    · exact .inl (by decide)
    · exact .inr (by decide)
  obtain ⟨newest, there, reads⟩ := greatest.listed
  have last : components = [2, 0] := by
    rcases listed _ ⟨newest, there, rfl⟩ with early | late
    · obtain rfl := DottedNumbers.text_inj.mp (reads.symm.trans early)
      exact absurd top (by decide)
    · exact DottedNumbers.text_inj.mp (reads.symm.trans late)
  subst last
  rcases listed layer.version ⟨layer, member, rfl⟩ with early | late
  · obtain rfl := DottedNumbers.text_inj.mp (same.symm.trans early)
    exact DottedNumbers.text_lt_iff.mp (by decide)
  · exact absurd (DottedNumbers.text_inj.mp (same.symm.trans late)) differ

/-- Version 1.9 stays the default when 1.10 is there. -/
theorem ten_is_passed_over :
    ¬ ∀ registry : LayerRegistry, registry.Numbered → registry.updateAllLatest.MarksNewest := by
  intro always
  have marks := always _ (@withNumpy_numbered "1.10" [1, 10] (by decide) (by decide) (by decide))
  obtain ⟨layer, components, only, greatest, reads⟩ := marks .pip "numpy" (by decide)
  have marked : layer = { stub .pip "numpy" "1.9" with default := true } := by
    have alone : ((withNumpy "1.10").updateAllLatest.entries .pip "numpy").filter (·.default) =
        [{ stub .pip "numpy" "1.9" with default := true }] := by decide
    exact (List.singleton_inj.mp (only.symm.trans alone))
  subst marked
  have first : DottedNumbers.text [1, 9] = "1.9".toList := by decide
  obtain rfl := DottedNumbers.text_inj.mp (first.trans reads)
  have above := greatest.bound { stub .pip "numpy" "1.10" with default := false } (by decide) [1, 10] (by decide)
  exact absurd above (by decide)

end LayerRegistry
end TinyMachine.Layers
