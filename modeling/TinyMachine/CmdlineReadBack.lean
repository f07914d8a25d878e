import Mathlib.Algebra.BigOperators.Group.List.Basic
import Mathlib.Algebra.GroupWithZero.Nat
import Mathlib.Algebra.Order.BigOperators.Group.List
import TinyMachine.CmdlineParams

/-! Which parameters can be read back from the text they are written to.
Single quotes and number signs are counted: what is read back must hold all
that was written, so that none of them was taken for a delimiter. -/
namespace TinyMachine.Cmdline
open Lib Tokenizer

/-! ## What a token sets -/

/-- The token sets the field to the value. -/
def Sets (token : Text) (p : Field × Text) : Prop :=
  ∃ key, assignment token = some (key, p.2) ∧ Field.ofKey key = some p.1

section Setting
variable {token value : Text} {p q : Field × Text} {field : Field} {ch : Char}

theorem Sets.unique (sets : Sets token p) (other : Sets token q) : p = q := by
  obtain ⟨key, assigns, named⟩ := sets
  obtain ⟨key', assigns', named'⟩ := other
  obtain ⟨rfl, same⟩ := Prod.mk.inj (Option.some.inj (assigns.symm.trans assigns'))
  exact Prod.ext (Option.some.inj (named.symm.trans named')) same

theorem assignment_cut {key : Text} (assigns : assignment token = some (key, value)) :
    ∃ written, value = trim written ∧ written <:+: token := by
  unfold assignment at assigns
  split_ifs at assigns
  obtain ⟨⟨k, written⟩, cut, same⟩ := Option.map_eq_some_iff.mp assigns
  refine ⟨written, (Prod.mk.inj same).2.symm, ?_⟩
  have behind : token.drop ours.length = k ++ '=' :: written := (Text.splitOnce_eq_some cut).1
  have suffix : written <:+ token.drop ours.length := by
    rw [behind]
    exact ⟨k ++ ['='], by simp⟩
  exact (suffix.trans (List.drop_suffix _ _)).isInfix

theorem Sets.trimmed (sets : Sets token p) : Trimmed p.2 := by
  obtain ⟨key, assigns, -⟩ := sets
  obtain ⟨written, same, -⟩ := assignment_cut assigns
  rw [same]
  exact Text.strip_strip

theorem Sets.inside (sets : Sets token p) : p.2 <:+: token := by
  obtain ⟨key, assigns, -⟩ := sets
  obtain ⟨written, same, inside⟩ := assignment_cut assigns
  rw [same]
  exact Text.strip_infix.trans inside

theorem ofKey_name (field : Field) : Field.ofKey field.name = some field := by
  cases field <;> decide

theorem trim_name (field : Field) : trim field.name = field.name := by
  cases field <;> decide

theorem assignment_param (field : Field) (value : Text) :
    assignment (param field value) = some (field.name, trim value) := by
  have first : (param field value).head? ≠ some '#' := by
    have head : (param field value).head? = some 't' := rfl
    rw [head]
    decide
  have front : param field value = ours ++ (field.name ++ '=' :: value) := by simp [param]
  have prefixed : ours.isPrefixOf (param field value) = true := by
    rw [List.isPrefixOf_iff_prefix, front]
    exact List.prefix_append _ _
  have fresh : '=' ∉ field.name := by cases field <;> decide
  have behind : (param field value).drop ours.length = field.name ++ '=' :: value := by
    rw [front, List.drop_left]
  rw [assignment, if_neg first, if_neg (not_not.mpr prefixed), behind, Text.splitOnce_append fresh]
  exact congrArg (fun key => some (key, trim value)) (trim_name field)

theorem param_sets (trimmed : Trimmed value) : Sets (param field value) (field, value) := by
  refine ⟨field.name, ?_, ofKey_name field⟩
  rw [assignment_param, trimmed]

theorem sets_param (sets : Sets (param field value) p) : p.1 = field := by
  obtain ⟨key, assigns, named⟩ := sets
  rw [assignment_param] at assigns
  obtain ⟨rfl, -⟩ := Prod.mk.inj (Option.some.inj assigns)
  rw [ofKey_name] at named
  exact (Option.some.inj named).symm

end Setting

/-! ## What the tokens hold -/

/-- The value needs no care, or a token sets its field to it. -/
def Carried (ts : List Text) (p : Field × Text) : Prop := (∀ ch ∈ p.2, Solid ch) ∨ ∃ token ∈ ts, Sets token p

section Carrying
variable {ts : List Text} {ps : List (Field × Text)} {p : Field × Text} {ch : Char}

theorem Carried.mem (carried : Carried ts p) (unsolid : ¬ Solid ch) (member : ch ∈ p.2) :
    ∃ token ∈ ts, ch ∈ token ∧ Sets token p := by
  rcases carried with solid | ⟨token, there, sets⟩
  · exact absurd (solid ch member) unsolid
  · exact ⟨token, there, sets.inside.subset member, sets⟩

/-- Different settings are in different tokens, so that the tokens hold all
their characters. -/
theorem carried_count (distinct : ps.Nodup) (carried : ∀ p ∈ ps, Carried ts p) (unsolid : ¬ Solid ch) :
    (ps.map fun p => p.2.count ch).sum ≤ ts.flatten.count ch := by
  induction ps generalizing ts with
  | nil => exact Nat.zero_le _
  | cons p ps ih =>
    obtain ⟨fresh, later⟩ := List.nodup_cons.mp distinct
    rw [List.map_cons, List.sum_cons]
    rcases carried p List.mem_cons_self with solid | ⟨token, there, sets⟩
    · have none : p.2.count ch = 0 := List.count_eq_zero.mpr fun member => unsolid (solid ch member)
      rw [none, Nat.zero_add]
      exact ih later fun q member => carried q (List.mem_cons_of_mem _ member)
    · have others : ∀ q ∈ ps, Carried (ts.erase token) q := by
        intro q member
        refine (carried q (List.mem_cons_of_mem _ member)).imp_right ?_
        rintro ⟨token', there', sets'⟩
        have apart : token' ≠ token := by
          rintro rfl
          exact fresh (sets.unique sets' ▸ member)
        exact ⟨token', (List.mem_erase_of_ne apart).mpr there', sets'⟩
      have rest := ih later others
      have here : p.2.count ch ≤ token.count ch := sets.inside.sublist.count_le ch
      have whole : ts.flatten.count ch = token.count ch + (ts.erase token).flatten.count ch := by
        rw [(List.perm_cons_erase there).flatten.count_eq, List.flatten_cons, List.count_append]
      omega

theorem count_params (notQuote : ch ≠ '"') (notSlash : ch ≠ '\\') (notSpace : ch ≠ ' ') (unsolid : ¬ Solid ch) :
    (ps.flatMap spaced).count ch = (ps.map fun p => p.2.count ch).sum := by
  induction ps with
  | nil => rfl
  | cons p ps ih =>
    rw [List.flatMap_cons, List.count_append, ih, count_spaced notQuote notSlash notSpace unsolid, List.map_cons,
      List.sum_cons]

theorem count_single : (ps.flatMap spaced).count '\'' = (ps.map fun p => p.2.count '\'').sum :=
  count_params (by decide) (by decide) (by decide) (by decide)

theorem count_hash : (ps.flatMap spaced).count '#' = (ps.map fun p => p.2.count '#').sum :=
  count_params (by decide) (by decide) (by decide) (by decide)

/-- Where the tokens hold all single quotes of a text, no value among them has
a double quote. -/
theorem carried_undoubled {text : Text} (carried : Carried (start.tokens text) p)
    (whole : text.count '\'' ≤ (start.tokens text).flatten.count '\'') : '"' ∉ p.2 := by
  rw [flatten_tokens] at whole
  have lost : '"' ∉ Mode.outside.kept text :=
    Mode.kept_of_quotes_kept (by decide) (Nat.le_antisymm (Mode.count_kept_le _ _) whole)
  intro member
  obtain ⟨token, there, inside, -⟩ := carried.mem (by decide) member
  exact notMem_tokens List.not_mem_nil lost there inside

/-- Values that are all in the tokens, number signs and all, are in quotes where
they need to be. -/
theorem quotable_of_hashes_kept (undoubled : ∀ p ∈ ps, '"' ∉ p.2)
    (whole : (ps.map fun p => p.2.count '#').sum ≤ (Mode.outside.kept (ps.flatMap spaced)).count '#') :
    ∀ p ∈ ps, Quotable p.2 := by
  induction ps with
  | nil => exact fun _ member => absurd member List.not_mem_nil
  | cons p ps ih =>
    have plain := undoubled p List.mem_cons_self
    have rest : ∀ q ∈ ps, '"' ∉ q.2 := fun q member => undoubled q (List.mem_cons_of_mem _ member)
    rw [List.map_cons, List.sum_cons, List.flatMap_cons, Mode.kept_append, List.count_append] at whole
    have here : Quotable p.2 := by
      refine ⟨plain, fun hash => ?_⟩
      by_contra raw
      -- The number sign begins a comment, and the parameter keeps none.
      have unquoted : needsQuotes p.2 = false := (Bool.not_eq_true _).mp raw
      have lost : (Mode.outside.kept (spaced p)).count '#' = 0 :=
        List.count_eq_zero.mpr (raw_lost unquoted (.inl rfl)).1
      have most : ((Mode.outside.after (spaced p)).kept (ps.flatMap spaced)).count '#' ≤
          (ps.map fun p => p.2.count '#').sum := count_hash ▸ Mode.count_kept_le _ _
      have some : 0 < p.2.count '#' := List.count_pos_iff.mpr hash
      omega
    have onward : Mode.outside.after (spaced p) = .outside := by
      have scanned := @scan_mode start (spaced p)
      rw [scan_spaced here] at scanned
      exact scanned.symm
    have most : (Mode.outside.kept (spaced p)).count '#' ≤ p.2.count '#' :=
      (Mode.count_kept_le _ _).trans_eq (count_spaced (by decide) (by decide) (by decide) (by decide))
    rw [onward] at whole
    have later := ih rest (by omega)
    intro q member
    rcases List.mem_cons.mp member with rfl | there
    · exact here
    · exact later q there

/-- All values of a text that is read back whole are plain. -/
theorem plain_of_carried (distinct : ps.Nodup) (trimmed : ∀ p ∈ ps, Trimmed p.2)
    (carried : ∀ p ∈ ps, Carried (start.tokens (ps.flatMap spaced)) p) : ∀ p ∈ ps, Plain p.2 := by
  have singles := carried_count distinct carried (show ¬ Solid '\'' by decide)
  have hashes := carried_count distinct carried (show ¬ Solid '#' by decide)
  have undoubled : ∀ p ∈ ps, '"' ∉ p.2 := fun p member =>
    carried_undoubled (carried p member) (count_single.trans_le singles)
  rw [flatten_tokens] at hashes
  have quotable := quotable_of_hashes_kept undoubled hashes
  exact fun p member => ⟨trimmed p member, quotable p member⟩

end Carrying

/-! ## A parameter that is written twice -/

section Twice
variable {t : Tokenizer} {p : Field × Text} {ps : List (Field × Text)} {token : Text}

private theorem settled_space (t : Tokenizer) (outside : (t.scan [' ']).2.mode = .outside) :
    (t.scan [' ']).2 = start := by
  obtain ⟨mode, current⟩ := t
  cases mode with
  | outside => rfl
  | doubleQuote => cases outside
  | singleQuote => cases outside
  | comment => cases outside

/-- Between two parameters: no token has begun where one could, and the one that
has begun has no single quote. -/
structure Between (t : Tokenizer) : Prop where
  settled : t.mode = .outside → t = start
  single : '\'' ∉ t.current

theorem Between.start : Between start := ⟨fun _ => rfl, List.not_mem_nil⟩

theorem settled_behind (t : Tokenizer) (p : Field × Text) (outside : (t.scan (spaced p)).2.mode = .outside) :
    (t.scan (spaced p)).2 = start := by
  rw [spaced, scan_append] at outside ⊢
  exact settled_space _ outside

/-- A parameter puts a single quote into a token only where it is read as one
token. -/
theorem spaced_tokens (unmixed : Unmixed p.2) (between : Between t) :
    (∀ token ∈ (t.scan (spaced p)).1, '\'' ∈ token → t.mode = .outside ∧ token = param p.1 p.2) ∧
      Between (t.scan (spaced p)).2 := by
  by_cases lost : '\'' ∉ t.mode.kept (spaced p)
  · have none : '\'' ∉ (t.scan (spaced p)).1.flatten ++ (t.scan (spaced p)).2.current := by
      rw [scan_kept]
      exact fun member => (List.mem_append.mp member).elim between.single lost
    refine ⟨fun token there inside => ?_, settled_behind t p, fun member => none (List.mem_append_right _ member)⟩
    exact absurd (List.mem_append_left _ (List.mem_flatten_of_mem there inside)) none
  · have single : '\'' ∈ p.2 := by
      by_contra absent
      have count : (spaced p).count '\'' = 0 :=
        (count_spaced (by decide) (by decide) (by decide) (by decide)).trans (List.count_eq_zero.mpr absent)
      exact lost (Mode.notMem_kept (List.count_eq_zero.mp count))
    have undoubled : '"' ∉ p.2 := unmixed.resolve_right (not_not.mpr single)
    have outside : t.mode = .outside := by
      by_contra inner
      exact lost (single_lost undoubled single inner).1
    have quotable : Quotable p.2 := ⟨undoubled, fun _ => needsQuotes_of_single single⟩
    rw [between.settled outside, scan_spaced quotable]
    exact ⟨fun token there _ => ⟨rfl, List.mem_singleton.mp there⟩, .start⟩

theorem params_tokens (unmixed : ∀ p ∈ ps, Unmixed p.2) (between : Between t) :
    (∀ token ∈ (t.scan (ps.flatMap spaced)).1, '\'' ∈ token → ∃ p ∈ ps, token = param p.1 p.2) ∧
      Between (t.scan (ps.flatMap spaced)).2 := by
  induction ps generalizing t with
  | nil => exact ⟨fun _ member => absurd member List.not_mem_nil, between⟩
  | cons p ps ih =>
    obtain ⟨here, next⟩ := spaced_tokens (unmixed p List.mem_cons_self) between
    obtain ⟨later, behind⟩ := ih (fun q there => unmixed q (List.mem_cons_of_mem _ there)) next
    rw [List.flatMap_cons, scan_append]
    refine ⟨fun token member single => ?_, behind⟩
    rcases List.mem_append.mp member with pushed | rest
    · exact ⟨p, List.mem_cons_self, (here token pushed single).2⟩
    · obtain ⟨q, there, same⟩ := later token rest single
      exact ⟨q, List.mem_cons_of_mem _ there, same⟩

end Twice

def agentParams (agent : Option Text) : List (Field × Text) := agent.toList.map fun a => (.agentId, a)

/-- With a log level: it is written under the agent's key before its own. -/
def written (agent : Option Text) (level : Text) (others : List (Field × Text)) : List (Field × Text) :=
  agentParams agent ++ (.agentId, level) :: (.logLevel, level) :: others

def needed (agent : Option Text) (level : Text) (others : List (Field × Text)) : List (Field × Text) :=
  agentParams agent ++ (.logLevel, level) :: others

/-- All that was meant is read back. -/
structure ReadBack (agent : Option Text) (level : Text) (others : List (Field × Text)) : Prop where
  apart : ∀ p ∈ others, p.1 ≠ .agentId ∧ p.1 ≠ .logLevel
  distinct : others.Nodup
  carried : ∀ p ∈ needed agent level others,
    Carried (start.tokens ((written agent level others).flatMap spaced)) p
  trimmed : ∀ p ∈ needed agent level others, Trimmed p.2

namespace ReadBack
variable {agent : Option Text} {level : Text} {others : List (Field × Text)} {p : Field × Text} {ch : Char}

theorem mem_agentParams : p ∈ agentParams agent ↔ p.1 = .agentId ∧ agent = some p.2 := by
  cases agent with
  | none => simp [agentParams]
  | some a =>
    obtain ⟨field, value⟩ := p
    simp [agentParams, eq_comm]

theorem nodup (back : ReadBack agent level others) : (needed agent level others).Nodup := by
  have first : (agentParams agent).Nodup := by cases agent <;> simp [agentParams]
  have second : ((.logLevel, level) :: others).Nodup :=
    List.nodup_cons.mpr ⟨fun member => (back.apart _ member).2 rfl, back.distinct⟩
  refine List.nodup_append.mpr ⟨first, second, ?_⟩
  rintro p early _ late rfl
  have agents := (mem_agentParams.mp early).1
  rcases List.mem_cons.mp late with rfl | other
  · cases agents
  · exact (back.apart p other).1 agents

theorem sum_written (agent : Option Text) (level : Text) (others : List (Field × Text)) (ch : Char) :
    ((written agent level others).map fun p => p.2.count ch).sum =
      ((needed agent level others).map fun p => p.2.count ch).sum + level.count ch := by
  simp only [written, needed, List.map_append, List.map_cons, List.sum_append, List.sum_cons]
  omega

theorem level_needed (agent : Option Text) (level : Text) (others : List (Field × Text)) :
    (.logLevel, level) ∈ needed agent level others :=
  List.mem_append_right _ List.mem_cons_self

theorem unmixed (back : ReadBack agent level others) (member : p ∈ needed agent level others) : Unmixed p.2 := by
  by_cases double : '"' ∈ p.2
  · obtain ⟨token, there, inside, sets⟩ := (back.carried p member).mem (by decide) double
    have fits : start.Fits := ⟨List.not_mem_nil, List.not_mem_nil⟩
    refine (tokens_unmixed fits token there).imp (fun none => absurd inside none) ?_
    exact fun none single => none (sets.inside.subset single)
  · exact .inl double

/-- The copies of a level without single quotes are no loss of any. -/
theorem undoubled (back : ReadBack agent level others) (absent : '\'' ∉ level)
    (member : p ∈ needed agent level others) : '"' ∉ p.2 := by
  have singles := carried_count back.nodup back.carried (show ¬ Solid '\'' by decide)
  have same := sum_written agent level others '\''
  rw [List.count_eq_zero.mpr absent, Nat.add_zero] at same
  exact carried_undoubled (back.carried p member) ((count_single.trans same).trans_le singles)

theorem level_undoubled (back : ReadBack agent level others) : '"' ∉ level := by
  by_cases single : '\'' ∈ level
  · exact (back.unmixed (level_needed agent level others)).resolve_right (not_not.mpr single)
  · exact back.undoubled single (level_needed agent level others)

/-- What the tokenizer is inside of before the second copy of the level. -/
def before (agent : Option Text) (level : Text) : Tokenizer :=
  (start.scan ((agentParams agent ++ [(Field.agentId, level)]).flatMap spaced)).2

theorem written_eq (agent : Option Text) (level : Text) (others : List (Field × Text)) :
    (written agent level others).flatMap spaced =
      (agentParams agent ++ [(Field.agentId, level)]).flatMap spaced ++
        (spaced (.logLevel, level) ++ others.flatMap spaced) := by
  simp [written]

/-- A level with a single quote is read where it stands under its own key. -/
theorem read_outside (back : ReadBack agent level others) (single : '\'' ∈ level) :
    (before agent level).mode = .outside := by
  obtain ⟨token, there, inside, sets⟩ :=
    (back.carried _ (level_needed agent level others)).mem (by decide) single
  have agents : ∀ p ∈ agentParams agent ++ [(Field.agentId, level)], p.1 = .agentId ∧ Unmixed p.2 := by
    intro p member
    rcases List.mem_append.mp member with first | second
    · exact ⟨(mem_agentParams.mp first).1, back.unmixed (List.mem_append_left _ first)⟩
    · rw [List.mem_singleton.mp second]
      exact ⟨rfl, .inl back.level_undoubled⟩
  have rest : ∀ p ∈ others, Unmixed p.2 := fun p member =>
    back.unmixed (List.mem_append_right _ (List.mem_cons_of_mem _ member))
  obtain ⟨early, between⟩ := params_tokens (fun p member => (agents p member).2) Between.start
  obtain ⟨here, behind⟩ := @spaced_tokens _ (.logLevel, level) (.inl back.level_undoubled) between
  obtain ⟨late, last⟩ := params_tokens rest behind
  rw [written_eq, tokens_append, tokens_append, tokens, List.mem_append, List.mem_append, List.mem_append] at there
  rcases there with first | second | third | begun
  · obtain ⟨p, member, rfl⟩ := early token first inside
    cases (sets_param sets).trans (agents p member).1
  · exact (here token second inside).1
  · obtain ⟨p, member, rfl⟩ := late token third inside
    exact absurd (sets_param sets).symm (back.apart p member).2
  · rw [(mem_flush.mp begun).1] at inside
    exact absurd inside last.single

/-- No more number signs are read back than the tokens hold. -/
theorem hashes_kept (back : ReadBack agent level others) :
    ((needed agent level others).map fun p => p.2.count '#').sum ≤
      (Mode.outside.kept ((written agent level others).flatMap spaced)).count '#' := by
  have hashes := carried_count back.nodup back.carried (show ¬ Solid '#' by decide)
  rwa [flatten_tokens] at hashes

section Agent
variable {a : Text}

theorem agent_needed (a level : Text) (others : List (Field × Text)) :
    (.agentId, a) ∈ needed (some a) level others :=
  List.mem_append_left _ (List.mem_singleton.mpr rfl)

theorem written_agent (a level : Text) (others : List (Field × Text)) :
    (written (some a) level others).flatMap spaced =
      spaced (.agentId, a) ++ (spaced (.agentId, level) ++ (spaced (.logLevel, level) ++ others.flatMap spaced)) := by
  simp [written, agentParams]

theorem agent_outside (back : ReadBack (some a) level others) (single : '\'' ∈ level) :
    Mode.outside.after (spaced (.agentId, a)) = .outside := by
  by_contra inner
  have outside := back.read_outside single
  have split : (before (some a) level).mode =
      (Mode.outside.after (spaced (.agentId, a))).after (spaced (.agentId, level)) := by
    rw [before, scan_mode]
    simp [agentParams, start]
  rw [split] at outside
  exact (@single_lost _ (.agentId, level) back.level_undoubled single inner).2 outside

/-- The level under the agent's key is a token of its own, and with it all
single quotes are read back. -/
theorem agent_undoubled (back : ReadBack (some a) level others) : '"' ∉ a := by
  intro double
  by_cases single : '\'' ∈ level
  · have quotable : Quotable level := ⟨back.level_undoubled, fun _ => needsQuotes_of_single single⟩
    have settled : (start.scan (spaced (.agentId, a))).2 = start := by
      apply settled_behind
      rw [scan_mode]
      exact back.agent_outside single
    have token : param .agentId level ∈ start.tokens ((written (some a) level others).flatMap spaced) := by
      rw [written_agent, tokens_append, settled, tokens_append, @scan_spaced (.agentId, level) quotable]
      exact List.mem_append_right _ (List.mem_append_left _ (List.mem_singleton.mpr rfl))
    have twice : ∀ p ∈ (Field.agentId, level) :: needed (some a) level others,
        Carried (start.tokens ((written (some a) level others).flatMap spaced)) p := by
      intro p member
      rcases List.mem_cons.mp member with rfl | there
      · exact .inr ⟨_, token, param_sets (back.trimmed _ (level_needed _ _ _))⟩
      · exact back.carried p there
    have apart : (Field.agentId, level) ∉ needed (some a) level others := by
      intro member
      rcases List.mem_append.mp member with agents | later
      · have same : a = level := Option.some.inj (mem_agentParams.mp agents).2
        exact back.level_undoubled (same ▸ double)
      · rcases List.mem_cons.mp later with same | other
        · cases (Prod.mk.inj same).1
        · exact (back.apart _ other).1 rfl
    have singles := carried_count (List.nodup_cons.mpr ⟨apart, back.nodup⟩) twice (show ¬ Solid '\'' by decide)
    have same := sum_written (some a) level others '\''
    rw [List.map_cons, List.sum_cons, Nat.add_comm, ← same] at singles
    exact carried_undoubled (back.carried _ (agent_needed a level others)) (count_single.trans_le singles) double
  · exact back.undoubled single (agent_needed a level others) double

theorem agent_quotable (back : ReadBack (some a) level others) : Quotable a := by
  refine ⟨back.agent_undoubled, fun hash => ?_⟩
  by_contra raw
  have unquoted : needsQuotes a = false := (Bool.not_eq_true _).mp raw
  have comments := @raw_comments (.agentId, a) unquoted hash
  by_cases single : '\'' ∈ level
  · rw [back.agent_outside single] at comments
    cases comments
  · -- Neither the agent nor the first copy of the level keeps a number sign.
    have none : (Mode.outside.kept (spaced (.agentId, a))).count '#' = 0 :=
      List.count_eq_zero.mpr (@raw_lost .outside (.agentId, a) unquoted (.inl rfl)).1
    have none' : (Mode.comment.kept (spaced (.agentId, level))).count '#' = 0 :=
      List.count_eq_zero.mpr (@comment_lost (.agentId, level) back.level_undoubled single)
    have most : ((Mode.comment.after (spaced (.agentId, level))).kept
        (spaced (.logLevel, level) ++ others.flatMap spaced)).count '#' ≤
          (((.logLevel, level) :: others).map fun p : Field × Text => p.2.count '#').sum :=
      (Mode.count_kept_le _ _).trans_eq (@count_hash ((.logLevel, level) :: others))
    have kept := back.hashes_kept
    rw [written_agent, Mode.kept_append, comments, Mode.kept_append, List.count_append, List.count_append, none, none',
      needed, List.map_append, List.sum_append] at kept
    have some : 0 < a.count '#' := List.count_pos_iff.mpr hash
    have here : ((agentParams (.some a)).map fun p => p.2.count '#').sum = a.count '#' := by simp [agentParams]
    omega

end Agent

theorem agents_quotable (back : ReadBack agent level others) : ∀ p ∈ agentParams agent, Quotable p.2 := by
  cases agent with
  | none => exact fun _ member => absurd member List.not_mem_nil
  | some a =>
    intro p member
    rw [List.mem_singleton.mp member]
    exact back.agent_quotable

/-- Both copies of a raw level lose their number signs. -/
theorem level_quotable (back : ReadBack agent level others) : Quotable level := by
  refine ⟨back.level_undoubled, fun hash => ?_⟩
  by_contra raw
  have unquoted : needsQuotes level = false := (Bool.not_eq_true _).mp raw
  have front : Mode.outside.after ((agentParams agent).flatMap spaced) = .outside := by
    have scanned := @scan_mode start ((agentParams agent).flatMap spaced)
    rw [scan_params back.agents_quotable] at scanned
    exact scanned.symm
  have whole : (written agent level others).flatMap spaced = (agentParams agent).flatMap spaced ++
      (spaced (.agentId, level) ++ (spaced (.logLevel, level) ++ others.flatMap spaced)) := by
    simp [written]
  obtain ⟨lost, onward⟩ := @raw_lost .outside (.agentId, level) unquoted (.inl rfl)
  obtain ⟨lost', -⟩ := @raw_lost _ (.logLevel, level) unquoted onward
  have early : (Mode.outside.kept ((agentParams agent).flatMap spaced)).count '#' ≤
      ((agentParams agent).map fun p => p.2.count '#').sum := (Mode.count_kept_le _ _).trans_eq count_hash
  have late (mode : Mode) : (mode.kept (others.flatMap spaced)).count '#' ≤
      (others.map fun p => p.2.count '#').sum := (Mode.count_kept_le _ _).trans_eq count_hash
  have kept := back.hashes_kept
  rw [whole, Mode.kept_append, front, Mode.kept_append, Mode.kept_append] at kept
  simp only [List.count_append, List.count_eq_zero.mpr lost, List.count_eq_zero.mpr lost', needed, List.map_append,
    List.map_cons, List.sum_append, List.sum_cons] at kept
  have some : 0 < level.count '#' := List.count_pos_iff.mpr hash
  have most := late ((Mode.outside.after (spaced (.agentId, level))).after (spaced (.logLevel, level)))
  omega

/-- What is read back whole is plain. -/
theorem plain (back : ReadBack agent level others) : ∀ p ∈ needed agent level others, Plain p.2 := by
  have copies : ∀ p ∈ agentParams agent ++ [(Field.agentId, level), (Field.logLevel, level)], Quotable p.2 := by
    intro p member
    rcases List.mem_append.mp member with agents | levels
    · exact back.agents_quotable p agents
    · have same : p.2 = level := by
        rcases List.mem_pair.mp levels with rfl | rfl <;> rfl
      exact same ▸ back.level_quotable
  have whole : (written agent level others).flatMap spaced =
      (agentParams agent ++ [(Field.agentId, level), (Field.logLevel, level)]).flatMap spaced ++
        others.flatMap spaced := by
    simp [written]
  have rest : ∀ p ∈ others, Carried (start.tokens (others.flatMap spaced)) p := by
    intro p member
    have there : p ∈ needed agent level others := List.mem_append_right _ (List.mem_cons_of_mem _ member)
    refine (back.carried p there).imp_right ?_
    rintro ⟨token, inside, sets⟩
    rw [whole, tokens_append, scan_params copies] at inside
    refine ⟨token, (List.mem_append.mp inside).resolve_left fun early => ?_, sets⟩
    obtain ⟨q, first, rfl⟩ := List.mem_map.mp early
    have field := sets_param sets
    obtain ⟨notAgent, notLevel⟩ := back.apart p member
    rcases List.mem_append.mp first with agents | levels
    · exact notAgent (field.trans (mem_agentParams.mp agents).1)
    · rcases List.mem_pair.mp levels with rfl | rfl
      · exact notAgent field
      · exact notLevel field
  have trimmed : ∀ p ∈ others, Trimmed p.2 := fun p member =>
    back.trimmed p (List.mem_append_right _ (List.mem_cons_of_mem _ member))
  have plain := plain_of_carried back.distinct trimmed rest
  intro p member
  rcases List.mem_append.mp member with agents | later
  · exact ⟨back.trimmed p member, back.agents_quotable p agents⟩
  · rcases List.mem_cons.mp later with rfl | other
    · exact ⟨back.trimmed _ member, back.level_quotable⟩
    · exact plain p other

end ReadBack
end TinyMachine.Cmdline
