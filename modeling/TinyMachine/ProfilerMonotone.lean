import Mathlib.Algebra.BigOperators.Group.List.Lemmas
import Mathlib.Algebra.BigOperators.Ring.List
import Mathlib.Algebra.Order.Ring.Nat
import TinyMachine.ProfilerSoundness

/-! A larger dimension does not make the estimate smaller, where the program is
covered: two programs that differ in one dimension are profiled side by side. -/
namespace TinyMachine.Profiler
open Lib Ir Python

/-- A number in the place of one integer. -/
def place (z : Int) (n : Nat) (k : Int) : Int := if k = z then n else k

/-- The integers that stand among the arguments or in a sequence among them. -/
def directInts (args : List Expr) : List Int :=
  args.flatMap fun e => ((elements e).getD [e]).filterMap intOf

/-- Nothing changes, or one dimension grows: `z` holds its place in a template,
and where that is an array, its shape is made of literals. -/
def Raised (body body' : Suite) : Prop :=
  body' = body ∨ ∃ (template : Suite) (z : Int) (m n : Nat), m ≤ n ∧
    body = mapIntsOfStmts (place z m) template ∧ body' = mapIntsOfStmts (place z n) template ∧
      ∀ func args keywords, Item.expr (.call func args keywords) ∈ itemsOf template → Recognised func →
        z ∈ directInts args → ∃ shape, positionalShape args = some shape

section Literals
variable {f : Int → Int} {es args : List Expr} {shape : List Nat} {z : Int} {m n : Nat}

theorem lowers_mapInts (f : Int → Int) : ∀ e : Expr, (e.mapInts f).Lowers = e.Lowers
  | .binOp left _ right => by simp [Expr.mapInts, Expr.Lowers, lowers_mapInts f left, lowers_mapInts f right]
  | .unaryOp _ inner | .attribute inner _ | .starred inner | .lambda _ inner | .call inner _ _ | .compare inner _ _ => by
    simp [Expr.mapInts, Expr.Lowers, lowers_mapInts f inner]
  | .constant c => by cases c <;> rfl
  | .subscript value slice => by simp [Expr.mapInts, Expr.Lowers, lowers_mapInts f value, lowers_mapInts f slice]
  | .ifExp test body orelse => by
    simp [Expr.mapInts, Expr.Lowers, lowers_mapInts f test, lowers_mapInts f body, lowers_mapInts f orelse]
  | .boolOp .. | .name _ | .list _ | .tuple _ | .dict .. | .set _ | .namedExpr .. | .listComp .. | .setComp ..
  | .dictComp .. | .generatorExp .. | .await _ | .yield _ | .yieldFrom _ | .formattedValue .. | .joinedStr _
  | .slice .. => by simp [Expr.mapInts, Expr.Lowers]

theorem intOf_mapInts (f : Int → Int) (e : Expr) : intOf (e.mapInts f) = (intOf e).map f := by
  cases e with
  | constant c => cases c <;> rfl
  | _ => simp [Expr.mapInts, intOf]

theorem ints_mapInts (f : Int → Int) (es : List Expr) :
    (mapIntsOf f es).filterMap intOf = (es.filterMap intOf).map f := by
  induction es with
  | nil => rfl
  | cons e rest ih =>
    rw [mapIntsOf, List.filterMap_cons, List.filterMap_cons, intOf_mapInts, ih]
    cases intOf e <;> rfl

theorem elements_mapInts (f : Int → Int) (e : Expr) : elements (e.mapInts f) = (elements e).map (mapIntsOf f) := by
  cases e <;> simp [Expr.mapInts, elements]

theorem dimInts_mapInts (f : Int → Int) (args : List Expr) : dimInts (mapIntsOf f args) = (dimInts args).map f := by
  fun_induction dimInts args with
  | case1 => rfl
  | case2 e rest elts sequence =>
    rw [mapIntsOf, dimInts, elements_mapInts, sequence]
    exact ints_mapInts f elts
  | case3 e rest single lowers =>
    rw [← ints_mapInts, mapIntsOf, dimInts, elements_mapInts, single, lowers_mapInts, lowers]
    rfl
  | case4 e rest single gone ih =>
    rw [mapIntsOf, dimInts, elements_mapInts, single, lowers_mapInts]
    simpa [gone] using ih

/-- The integers that are taken for dimensions stand there directly. -/
theorem dimInts_direct {k : Int} (there : k ∈ dimInts args) : k ∈ directInts args := by
  fun_induction dimInts args with
  | case1 => cases there
  | case2 e rest elts sequence => exact List.mem_flatMap.mpr ⟨e, List.mem_cons_self .., by rwa [sequence]⟩
  | case3 e rest single lowers =>
    obtain ⟨part, within, literal⟩ := List.mem_filterMap.mp there
    refine List.mem_flatMap.mpr ⟨part, within, ?_⟩
    have alone : elements part = none := by cases part <;> first | rfl | cases literal
    rw [alone]
    exact List.mem_filterMap.mpr ⟨part, List.mem_singleton_self part, literal⟩
  | case4 e rest single gone ih =>
    obtain ⟨part, within, direct⟩ := List.mem_flatMap.mp (ih there)
    exact List.mem_flatMap.mpr ⟨part, List.mem_cons_of_mem _ within, direct⟩

theorem dottedName_mapInts (f : Int → Int) : ∀ e : Expr, dottedName (e.mapInts f) = dottedName e
  | .name _ => rfl
  | .attribute value _ => by rw [Expr.mapInts, dottedName, dottedName, dottedName_mapInts f value]
  | .binOp .. | .unaryOp .. | .constant _ | .subscript .. | .starred _ | .call .. | .ifExp .. | .lambda .. | .compare ..
  | .boolOp .. | .list _ | .tuple _ | .dict .. | .set _ | .namedExpr .. | .listComp .. | .setComp .. | .dictComp ..
  | .generatorExp .. | .await _ | .yield _ | .yieldFrom _ | .formattedValue .. | .joinedStr _ | .slice .. => by
    simp [Expr.mapInts, dottedName]

theorem literals_mapInts {number : Nat → Nat} (numbers : ∀ k : Nat, f k = number k) (found : literals es = some shape) :
    literals (mapIntsOf f es) = some (shape.map number) := by
  induction es generalizing shape with
  | nil =>
    cases found
    rfl
  | cons e rest ih =>
    simp only [literals, Option.bind_eq_bind, Option.bind_eq_some_iff, Option.pure_def, Option.some.injEq] at found
    obtain ⟨n, first, ns, more, rfl⟩ := found
    have one : intLiteral (e.mapInts f) = some (number n) := by
      unfold intLiteral at first
      split at first
      · cases first
        rw [Expr.mapInts, Constant.mapInts, Int.ofNat_eq_natCast, numbers]
        rfl
      · cases first
    rw [mapIntsOf, literals, one, ih more]
    rfl

theorem positionalShape_mapInts {number : Nat → Nat} (numbers : ∀ k : Nat, f k = number k)
    (found : positionalShape args = some shape) : positionalShape (mapIntsOf f args) = some (shape.map number) := by
  cases args with
  | nil => cases found
  | cons first rest =>
    rw [positionalShape, Option.or_eq_some_iff] at found
    rw [mapIntsOf, positionalShape, Option.or_eq_some_iff]
    rcases found with sequence | ⟨none, ints⟩
    · obtain ⟨elts, inner, ints⟩ := Option.bind_eq_some_iff.mp sequence
      exact .inl (by rw [sequenceShape, elements_mapInts, inner]; exact literals_mapInts numbers ints)
    · refine .inr ⟨?_, literals_mapInts numbers ints⟩
      have single : elements first = Option.none := by
        cases first <;> first | rfl | simp [literals, intLiteral] at ints
      rw [sequenceShape, elements_mapInts, single]
      rfl

end Literals

/-! ## One array beside the other -/

section Arrays
variable {args : List Expr} {shape : List Nat} {z : Int} {m n : Nat}

/-- The number that a dimension of the template stands for. -/
def placeNat (z : Int) (n k : Nat) : Nat := if (k : Int) = z then n else k

theorem place_natCast (z : Int) (n k : Nat) : place z n k = placeNat z n k := by
  unfold place placeNat
  split <;> rfl

theorem prod_map_le {f g : Nat → Nat} {numbers : List Nat} (le : ∀ k ∈ numbers, f k ≤ g k) :
    (numbers.map f).prod ≤ (numbers.map g).prod := by
  induction numbers with
  | nil => exact Nat.le_refl _
  | cons k rest ih =>
    rw [List.map_cons, List.map_cons, List.prod_cons, List.prod_cons]
    exact Nat.mul_le_mul (le k (List.mem_cons_self ..)) (ih fun k there => le k (List.mem_cons_of_mem _ there))

/-- The larger dimension gives no smaller product, or one that is lost. -/
theorem prod_grows (le : m ≤ n) (room : (shape.map (placeNat z n)).prod * arrayElementSize.toNat < 2 ^ 64 - 1) :
    ((shape.map (placeNat z m)).map lowered).prod ≤ ((shape.map (placeNat z n)).map lowered).prod := by
  by_cases empty : 0 ∈ (shape.map (placeNat z m)).map lowered
  · rw [List.prod_eq_zero empty]
    exact Nat.zero_le _
  · have nonzero : ∀ k ∈ shape, lowered (placeNat z m k) ≠ 0 := fun k there none =>
      empty (none ▸ List.mem_map_of_mem (List.mem_map_of_mem there))
    have positive : ∀ k ∈ shape, 0 < placeNat z n k := by
      intro k there
      have seen := nonzero k there
      unfold placeNat lowered at *
      grind
    have whole : 0 < (shape.map (placeNat z n)).prod := by
      refine Nat.pos_of_ne_zero (mt List.prod_eq_zero_iff.mp fun none => ?_)
      obtain ⟨k, inside, zero⟩ := List.mem_map.mp none
      exact (positive k inside).ne' zero
    have small : ∀ k ∈ shape, placeNat z n k < 2 ^ 63 := by
      intro k there
      have factor := Nat.le_of_dvd whole (List.dvd_prod (List.mem_map_of_mem there))
      rw [show arrayElementSize.toNat = 8 from rfl] at room
      omega
    rw [List.map_map, List.map_map]
    refine prod_map_le fun k there => ?_
    have seen := nonzero k there
    have fits := small k there
    simp only [Function.comp_apply]
    unfold placeNat lowered at *
    grind

theorem arrayUsage_eq {args args' : List IrExpr} (same : dims args = dims args') : arrayUsage args = arrayUsage args' := by
  rw [arrayUsage, arrayUsage, sizes, sizes, same]

/-- No array of the second program takes all of what 64 bits can say. -/
def NoneTooLarge (body : Suite) : Prop :=
  ∀ e shape, Item.expr e ∈ itemsOf body → Allocates e shape → arrayBytes shape < 2 ^ 64 - 1

theorem array_grows (le : m ≤ n) (found : z ∈ directInts args → ∃ shape, positionalShape args = some shape)
    (small : ∀ shape, positionalShape (mapIntsOf (place z n) args) = some shape → arrayBytes shape < 2 ^ 64 - 1) :
    (arrayUsage (convertExprs (mapIntsOf (place z m) args))).ram ≤
      (arrayUsage (convertExprs (mapIntsOf (place z n) args))).ram := by
  by_cases there : z ∈ dimInts args
  · obtain ⟨shape, positional⟩ := found (dimInts_direct there)
    have first := positionalShape_mapInts (place_natCast z m) positional
    have second := positionalShape_mapInts (place_natCast z n) positional
    have room := small _ second
    have some : shape ≠ [] := by
      rintro rfl
      rw [dimInts_positional positional] at there
      cases there
    rw [arrayUsage_ram, arrayUsage_ram, sizes_positional first, sizes_positional second]
    · refine Nat.mul_le_mul_right _ (prod_grows le ?_)
      rw [arrayBytes] at room
      omega
    · rw [sizes_positional second]
      simpa using some
    · rw [sizes_positional first]
      simpa using some
  · have same : ∀ k ∈ dimInts args, place z m k = place z n k := by
      intro k inside
      have other : k ≠ z := fun same => there (same ▸ inside)
      rw [place, place, if_neg other, if_neg other]
    refine Nat.le_of_eq (congrArg Usage.ram (arrayUsage_eq ?_))
    rw [dims_eq, dims_eq, dimInts_mapInts, dimInts_mapInts, List.map_congr_left same]

end Arrays

/-! ## One call beside the other -/

section Calls
variable {func : Expr} {f g : Int → Int} {ir ir' : IrExpr}

theorem fileUsage_eq (lowers : convertExpr (func.mapInts f) = some ir) (lowers' : convertExpr (func.mapInts g) = some ir') :
    fileUsage ir = fileUsage ir' := by
  cases func <;> simp [Expr.mapInts, convertExpr, Option.bind_eq_some_iff] at lowers lowers' <;>
    grind [fileUsage, ProfilerVisitor.isOpen, ProfilerVisitor.isFileMethod]

theorem chain_mapInts (lowers : convertExpr (func.mapInts f) = some ir) : ir.resolveAttrChain = dottedName func :=
  (dottedName_lowered lowers).trans (dottedName_mapInts f func)

theorem chainUsage_grows {args args' : List IrExpr} (lowers : convertExpr (func.mapInts f) = some ir)
    (lowers' : convertExpr (func.mapInts g) = some ir')
    (grows : Recognised func → (arrayUsage args).ram ≤ (arrayUsage args').ram) :
    (chainUsage ir args).ram ≤ (chainUsage ir' args').ram := by
  rw [chainUsage, chainUsage, chain_mapInts lowers, chain_mapInts lowers']
  cases named : dottedName func with
  | none => exact Nat.le_refl _
  | some names =>
    by_cases known : ".".intercalate names ∈ arrayAllocFuncs
    · simp only [known, if_true, Usage.plus]
      exact Nat.add_le_add_right (grows ⟨names, named, known⟩) _
    · simp only [known, if_false]
      exact Nat.le_refl _

end Calls

theorem total_grows {visits visits' : List Visit}
    (grow : List.Forall₂ (fun visit visit' => (visitUsage visit).ram ≤ (visitUsage visit').ram) visits visits') :
    (Usage.total (visits.map visitUsage)).ram ≤ (Usage.total (visits'.map visitUsage)).ram := by
  induction grow with
  | nil => exact Nat.le_refl _
  | cons one _ ih => exact Nat.add_le_add one ih

theorem visitUsage_quiet {visit : Visit} (quiet : isQuiet visit) : visitUsage visit = .zero := by
  cases visit <;> first | rfl | cases quiet

section Raised
variable {body body' : Suite}

/-- Where no array takes all of what 64 bits can say, the raise is no loss. -/
theorem used_grows (raised : Raised body body') (small : NoneTooLarge body') :
    (used (convertSuite body)).ram ≤ (used (convertSuite body')).ram := by
  obtain rfl | ⟨template, z, m, n, le, rfl, rfl, placed⟩ := raised
  · exact Nat.le_refl _
  · have tolerates : Tolerates (place z m) (place z n) (fun e => Item.expr e ∈ itemsOf template)
        fun visit visit' => (visitUsage visit).ram ≤ (visitUsage visit').ram := {
      same := fun _ => Nat.le_refl _
      quiet := fun visit visit' quiet quiet' => by rw [visitUsage_quiet quiet, visitUsage_quiet quiet']
      calls := by
        intro func args keywords ir ir' there lowers lowers'
        refine Nat.add_le_add ?_ (Nat.le_of_eq (congrArg Usage.ram (fileUsage_eq lowers lowers')))
        refine chainUsage_grows lowers lowers' fun recognised => array_grows le (placed func args keywords there recognised) ?_
        intro shape positional
        have inside : Item.expr ((Expr.call func args keywords).mapInts (place z n)) ∈
            itemsOf (mapIntsOfStmts (place z n) template) := by
          rw [itemsOf_mapInts]
          exact List.mem_map_of_mem there
        obtain ⟨names, named, known⟩ := recognised
        exact small _ shape inside ⟨_, _, _, rfl, ⟨names, (dottedName_mapInts _ func).trans named, known⟩, .inl positional⟩ }
    obtain ⟨order, order', walks, walks', grow⟩ := stmts_alike tolerates template fun _ there => there
    have called : calls (convertSuite (mapIntsOfStmts (place z m) template)) = order :=
      (walks _ recorder []).trans (recorder_foldl [] order)
    have called' : calls (convertSuite (mapIntsOfStmts (place z n) template)) = order' :=
      (walks' _ recorder []).trans (recorder_foldl [] order')
    rw [used, used, called, called']
    exact Nat.add_le_add_left (total_grows grow) _

end Raised

/-- The estimate of the second program is no smaller than that of the first. -/
def Grows (parse : String → Option Suite) (code code' : String) : Prop :=
  ∀ mode estimate estimate', profile mode (parsePython parse) code = some estimate →
    profile mode (parsePython parse) code' = some estimate' → estimate.ramBytes ≤ estimate'.ramBytes

/-- Two programs, the second with a larger dimension or the same, are estimated
soundly and in this order exactly when both are covered. -/
theorem estimates_are_sound_iff {parse : String → Option Suite} {code code' : String} {body body' : Suite}
    (short : code.utf8ByteSize ≤ maxCodeLength) (short' : code'.utf8ByteSize ≤ maxCodeLength)
    (parsed : parse code = some body) (parsed' : parse code' = some body') (raised : Raised body body') :
    (Sound parse code body ∧ Sound parse code' body' ∧ Grows parse code code') ↔ Covered body ∧ Covered body' := by
  rw [← and_assoc, sound_iff_covered short parsed, sound_iff_covered short' parsed', and_iff_left_iff_imp]
  rintro ⟨covered, covered'⟩ mode estimate estimate' estimated estimated'
  have program : parsePython parse code = some (convertSuite body) := by rw [parsePython, parsed, Option.map_some]
  have program' : parsePython parse code' = some (convertSuite body') := by rw [parsePython, parsed', Option.map_some]
  obtain ⟨first, firsts, exact_⟩ := profile_of_estimable short program covered.1
  obtain ⟨second, seconds, exact_'⟩ := profile_of_estimable short' program' covered'.1
  cases (firsts mode).symm.trans estimated
  cases (seconds mode).symm.trans estimated'
  rw [UInt64.le_iff_toNat_le]
  by_cases small : NoneTooLarge body'
  · rw [exact_, exact_']
    exact used_grows raised small
  · simp only [NoneTooLarge, not_forall, Nat.not_lt] at small
    obtain ⟨e, shape, there, allocates, large⟩ := small
    obtain ⟨third, thirds, arrays⟩ := (sound_iff_covered short' parsed').mpr covered'
    cases (thirds mode).symm.trans (seconds mode)
    have room := arrays e shape there allocates
    have most := estimate.ramBytes.toNat_lt
    omega

/-- A module that allocates one array, of one dimension. -/
def zeros (args : List Expr) (keywords : List (Keyword Expr)) : Suite :=
  [.expr (.call (.attribute (.name "np") "zeros") args keywords)]

def ofThree : Suite := zeros [.tuple [.constant (.int 3)]] []
def ofFour : Suite := zeros [.tuple [.constant (.int 4)]] []

def parseZeros (code : String) : Option Suite := if code = "np.zeros((3,))" then some ofThree else some ofFour

theorem zeros_calls {args args' : List Expr} {keywords keywords' : List (Keyword Expr)} {func : Expr}
    (there : Item.expr (.call func args' keywords') ∈ itemsOf (zeros args keywords))
    (plain : ∀ e ∈ Python.partsOf args ++ Python.partsOfKeywords keywords, e.isCall = false) :
    func = .attribute (.name "np") "zeros" ∧ args' = args ∧ keywords' = keywords := by
  have parts : Expr.call func args' keywords' ∈ (Expr.call (.attribute (.name "np") "zeros") args keywords).parts := by
    simpa [zeros, itemsOf, Stmt.items, exprItems] using there
  rw [Expr.parts, List.mem_cons] at parts
  rcases parts with same | inside
  · cases same
    exact ⟨rfl, rfl, rfl⟩
  · simp only [Expr.parts, List.cons_append, List.nil_append, List.mem_cons, reduceCtorEq, false_or] at inside
    have := plain _ inside
    cases this

theorem three_raised : Raised ofThree ofFour := by
  refine .inr ⟨zeros [.tuple [.constant (.int 7)]] [], 7, 3, 4, by decide, rfl, rfl, ?_⟩
  intro func args keywords there _ _
  obtain ⟨-, rfl, -⟩ := zeros_calls there (by simp [Python.partsOf, Python.partsOfKeywords, Expr.parts, Expr.isCall])
  exact ⟨[7], rfl⟩

/-- One array of one dimension, which has room in the estimate. -/
theorem zeros_sound {parse : String → Option Suite} {code : String} {n : Nat} {estimate : ResourceProfile}
    (estimated : ∀ mode, profile mode (parsePython parse) code = some estimate)
    (room : arrayBytes [n] ≤ estimate.ramBytes.toNat) :
    Sound parse code (zeros [.tuple [.constant (.int n)]] []) := by
  refine ⟨estimate, estimated, ?_⟩
  rintro e shape there ⟨func, args, keywords, rfl, -, found⟩
  obtain ⟨-, rfl, rfl⟩ := zeros_calls there
    (by simp [Python.partsOf, Python.partsOfKeywords, Expr.parts, Expr.isCall])
  rcases found with positional | keyword
  · cases positional
    exact room
  · cases keyword

theorem three_is_raised_to_four :
    Sound parseZeros "np.zeros((3,))" ofThree ∧ Sound parseZeros "np.zeros((4,))" ofFour ∧
      Grows parseZeros "np.zeros((3,))" "np.zeros((4,))" := by
  have forThree : ∀ mode, profile mode (parsePython parseZeros) "np.zeros((3,))" =
      some ⟨5242904, 510, false, 0, false⟩ := fun mode => by cases mode <;> rfl
  have forFour : ∀ mode, profile mode (parsePython parseZeros) "np.zeros((4,))" =
      some ⟨5242912, 510, false, 0, false⟩ := fun mode => by cases mode <;> rfl
  have three : Sound parseZeros "np.zeros((3,))" ofThree := zeros_sound forThree (by decide)
  have four : Sound parseZeros "np.zeros((4,))" ofFour := zeros_sound forFour (by decide)
  have first : parseZeros "np.zeros((3,))" = some ofThree := if_pos rfl
  have second : parseZeros "np.zeros((4,))" = some ofFour := if_neg (by decide)
  refine (estimates_are_sound_iff (by decide) (by decide) first second three_raised).mpr ⟨?_, ?_⟩
  · exact (sound_iff_covered (by decide) first).mp three
  · exact (sound_iff_covered (by decide) second).mp four

/-- A shape that stands under the keyword is not looked at. -/
def ofKeyword : Suite := zeros [] [⟨some "shape", .tuple [.constant (.int 1048576)]⟩]

theorem keyword_shape_is_ignored :
    ¬ ∀ (parse : String → Option Suite) (code code' : String) (body body' : Suite),
      code.utf8ByteSize ≤ maxCodeLength → code'.utf8ByteSize ≤ maxCodeLength → parse code = some body →
        parse code' = some body' → Raised body body' →
          Sound parse code body ∧ Sound parse code' body' ∧ Grows parse code code' := by
  intro law
  obtain ⟨⟨estimate, estimated, arrays⟩, -⟩ := law (fun _ => some ofKeyword) "np.zeros(shape=(1048576,))"
    "np.zeros(shape=(1048576,))" ofKeyword ofKeyword (by decide) (by decide) rfl rfl (.inl rfl)
  have base : profile .checked (parsePython fun _ => some ofKeyword) "np.zeros(shape=(1048576,))" = some baseline := by
    rfl
  cases (estimated .checked).symm.trans base
  have there : Item.expr (.call (.attribute (.name "np") "zeros") []
      [⟨some "shape", .tuple [.constant (.int 1048576)]⟩]) ∈ itemsOf ofKeyword := List.mem_cons_self ..
  have known : Recognised (.attribute (.name "np") "zeros") := ⟨["np", "zeros"], rfl, by decide⟩
  exact absurd (arrays _ [1048576] there ⟨_, _, _, rfl, known, .inr rfl⟩) (by decide)

end TinyMachine.Profiler
