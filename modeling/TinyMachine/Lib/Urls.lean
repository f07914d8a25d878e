import Mathlib.Data.List.DropRight
import Mathlib.Data.List.Infix

/-! URLs with an authority, part by part, and the order of domains: a domain is
above its subdomains, whatever the case of the letters. -/
namespace TinyMachine.Lib

/-- The parts of a URL; the rest is its path, query and fragment. -/
structure Url where
  scheme : List Char
  userinfo : Option (List Char)
  host : List Char
  port : Option (List Char)
  rest : List Char
  deriving DecidableEq

namespace Url

def lower (text : List Char) : List Char := text.map Char.toLower

/-- Letters, digits and marks, and the percent sign that starts an escape. -/
def isNameChar (c : Char) : Bool := c.isAlphanum || "-._~!$&'()*+,;=%".toList.contains c

def isUserinfoChar (c : Char) : Bool := isNameChar c || c == ':'

def isRestChar (c : Char) : Bool := isNameChar c || ":@/?#".toList.contains c

def isLiteralHost (host : List Char) : Prop :=
  ∃ inner : List Char, host = '[' :: inner ++ [']'] ∧ ∀ c ∈ inner, isUserinfoChar c

/-- A URL for the web, each part of the characters it may have. -/
structure WellFormed (url : Url) : Prop where
  scheme : lower url.scheme = "http".toList ∨ lower url.scheme = "https".toList
  userinfo : ∀ info ∈ url.userinfo, ∀ c ∈ info, isUserinfoChar c
  host : (url.host ≠ [] ∧ ∀ c ∈ url.host, isNameChar c) ∨ isLiteralHost url.host
  port : ∀ port ∈ url.port, ∀ c ∈ port, c.isDigit
  rest : ∀ c ∈ url.rest, isRestChar c
  start : ∀ c ∈ url.rest.head?, c = '/' ∨ c = '?' ∨ c = '#'

def userPart (url : Url) : List Char := (url.userinfo.map (· ++ ['@'])).getD []
def portPart (url : Url) : List Char := (url.port.map (':' :: ·)).getD []

def authority (url : Url) : List Char := url.userPart ++ (url.host ++ url.portPart)

def text (url : Url) : List Char := url.scheme ++ "://".toList ++ (url.authority ++ url.rest)

/-- Characters that are seen: the printable ones of ASCII, without the blank. -/
def isVisible (c : Char) : Bool := 0x20 < c.toNat && c.toNat < 0x7F

/-- The characters that an authority may have. -/
def isAuthorityChar (c : Char) : Bool := isUserinfoChar c || c == '@' || c == '[' || c == ']'

section WellFormed
variable {url : Url}

theorem authority_chars (formed : url.WellFormed) : ∀ c ∈ url.authority, isAuthorityChar c := by
  intro c there
  rw [authority, List.mem_append, List.mem_append] at there
  rcases there with user | host | port
  · rw [userPart] at user
    cases info : url.userinfo with
    | none => simp [info] at user
    | some text =>
      simp only [info, Option.map_some, Option.getD_some, List.mem_append, List.mem_singleton] at user
      rcases user with inside | rfl
      · have := formed.userinfo text info c inside
        simp [isAuthorityChar, this]
      · rfl
  · rcases formed.host with ⟨-, name⟩ | ⟨inner, shape, chars⟩
    · have := name c host
      simp [isAuthorityChar, isUserinfoChar, this]
    · rw [shape] at host
      simp only [List.cons_append, List.mem_cons, List.mem_append, List.not_mem_nil, or_false] at host
      rcases host with rfl | inside | rfl
      · rfl
      · simp [isAuthorityChar, chars c inside]
      · rfl
  · rw [portPart] at port
    cases number : url.port with
    | none => simp [number] at port
    | some digits =>
      simp only [number, Option.map_some, Option.getD_some, List.mem_cons] at port
      rcases port with rfl | inside
      · rfl
      · have digit := formed.port digits number c inside
        simp [isAuthorityChar, isUserinfoChar, isNameChar, Char.isAlphanum, digit]

theorem visible_of_nameChar {c : Char} (name : isNameChar c) : isVisible c := by
  rw [isNameChar, Bool.or_eq_true] at name
  rcases name with letter | mark
  · delta Char.isAlphanum Char.isAlpha Char.isUpper Char.isLower Char.isDigit at letter
    simp [UInt32.le_iff_toNat_le] at letter
    simp only [isVisible, Bool.and_eq_true, decide_eq_true_eq]
    omega
  · have marks : ∀ c ∈ "-._~!$&'()*+,;=%".toList, isVisible c := List.all_eq_true.mp rfl
    exact marks c (List.contains_iff_mem.mp mark)

theorem visible_of_lower {c : Char} (lower_ : isVisible c.toLower) : isVisible c := by
  delta Char.toLower at lower_
  simp only [isVisible, Bool.and_eq_true, decide_eq_true_eq] at lower_ ⊢
  split at lower_
  · rename_i upper
    simp [UInt32.le_iff_toNat_le] at upper ⊢
    omega
  · exact lower_

theorem visible_of_userinfoChar {c : Char} (user : isUserinfoChar c) : isVisible c := by
  rw [isUserinfoChar, Bool.or_eq_true, beq_iff_eq] at user
  rcases user with name | rfl
  · exact visible_of_nameChar name
  · rfl

theorem visible_of_authorityChar {c : Char} (char : isAuthorityChar c) : isVisible c := by
  simp only [isAuthorityChar, Bool.or_eq_true, beq_iff_eq] at char
  rcases char with ((user | rfl) | rfl) | rfl
  · exact visible_of_userinfoChar user
  all_goals rfl

theorem visible_of_restChar {c : Char} (char : isRestChar c) : isVisible c := by
  rw [isRestChar, Bool.or_eq_true] at char
  rcases char with name | mark
  · exact visible_of_nameChar name
  · have marks : ∀ c ∈ ":@/?#".toList, isVisible c := List.all_eq_true.mp rfl
    exact marks c (List.contains_iff_mem.mp mark)

/-- There is no blank in a URL. -/
theorem text_visible (formed : url.WellFormed) : ∀ c ∈ url.text, isVisible c := by
  intro c there
  rw [text, List.mem_append, List.mem_append, List.mem_append] at there
  rcases there with (scheme | mark) | authority | rest
  · have low : c.toLower ∈ lower url.scheme := List.mem_map_of_mem scheme
    have schemes : ∀ c ∈ "http".toList ++ "https".toList, isVisible c := List.all_eq_true.mp rfl
    refine visible_of_lower (schemes _ (List.mem_append.mpr ?_))
    rcases formed.scheme with plain | secure
    · exact .inl (plain ▸ low)
    · exact .inr (secure ▸ low)
  · have marks : ∀ c ∈ "://".toList, isVisible c := List.all_eq_true.mp rfl
    exact marks c mark
  · exact visible_of_authorityChar (authority_chars formed c authority)
  · exact visible_of_restChar (formed.rest c rest)

theorem authority_ne_nil (formed : url.WellFormed) : url.authority ≠ [] := by
  have some : url.host ≠ [] := by
    rcases formed.host with ⟨some, -⟩ | ⟨inner, shape, -⟩
    · exact some
    · rw [shape]
      simp
  simp [authority, some]

/-- An authority that is its host has neither a user nor a port. -/
theorem bare_of_authority (same : url.authority = url.host) : url.userinfo = none ∧ url.port = none := by
  have lengths := congrArg List.length same
  rw [authority, List.length_append, List.length_append] at lengths
  constructor
  · cases info : url.userinfo with
    | none => rfl
    | some text =>
      simp [userPart, info] at lengths
      omega
  · cases number : url.port with
    | none => rfl
    | some digits =>
      simp only [portPart, number, Option.map_some, Option.getD_some, List.length_cons] at lengths
      omega

/-- An authority without the marks of a user and of a port has neither. -/
theorem bare_of_unmarked (noUser : '@' ∉ url.authority) (noPort : ':' ∉ url.authority) :
    url.userinfo = none ∧ url.port = none := by
  constructor
  · cases info : url.userinfo with
    | none => rfl
    | some text => simp [authority, userPart, info] at noUser
  · cases number : url.port with
    | none => rfl
    | some digits => simp [authority, portPart, number] at noPort

theorem authority_of_bare (bare : url.userinfo = none ∧ url.port = none) : url.authority = url.host := by
  simp [authority, userPart, portPart, bare.1, bare.2]

/-- A host does not end in a colon and digits. -/
theorem host_without_port (formed : url.WellFormed) {start digits : List Char} (number : ∀ c ∈ digits, c.isDigit) :
    url.host ≠ start ++ ':' :: digits := by
  intro shape
  rcases formed.host with ⟨-, name⟩ | ⟨inner, literal, -⟩
  · exact absurd (name ':' (by simp [shape])) (by decide)
  · have last : (start ++ ':' :: digits).getLast? = some ']' := by
      rw [← shape, literal]
      exact List.getLast?_concat
    rw [List.getLast?_append_of_ne_nil _ (List.cons_ne_nil _ _)] at last
    have member := List.mem_of_getLast? last
    rcases List.mem_cons.mp member with colon | digit
    · cases colon
    · exact absurd (number _ digit) (by decide)

/-- What stands before the host in an authority is not the dot of a subdomain. -/
theorem not_subdomain (formed : url.WellFormed) : ¬ ('.' :: url.host) <:+ url.authority := by
  intro suffix
  cases number : url.port with
  | none =>
    have shape : url.authority = url.userPart ++ url.host := by simp [authority, portPart, number]
    rw [shape] at suffix
    cases info : url.userinfo with
    | none =>
      have short := suffix.length_le
      simp only [userPart, info, Option.map_none, Option.getD_none, List.nil_append, List.length_cons] at short
      omega
    | some text =>
      have user : url.userPart ++ url.host = text ++ ('@' :: url.host) := by simp [userPart, info]
      rw [user] at suffix
      have same := List.IsSuffix.eq_of_length (List.suffix_of_suffix_length_le suffix (List.suffix_append _ _) (by simp)) (by simp)
      cases same
  | some digits =>
    have number_ := formed.port digits number
    have ends : (':' :: digits) <:+ url.authority := by
      rw [authority, portPart, number, ← List.append_assoc]
      exact List.suffix_append _ _
    rcases List.suffix_or_suffix_of_suffix suffix ends with short | long
    · rcases List.mem_cons.mp (short.mem List.mem_cons_self) with colon | digit
      · cases colon
      · exact absurd (number_ _ digit) (by decide)
    · rcases List.suffix_cons_iff.mp long with same | ⟨start, host⟩
      · cases same
      · exact host_without_port formed number_ host.symm

end WellFormed
end Url

/-! ## Domains and subdomains -/

/-- The host is the domain or one of its subdomains, up to the case of letters. -/
def Beneath (host domain : List Char) : Prop :=
  Url.lower host = Url.lower domain ∨ ('.' :: Url.lower domain) <:+ Url.lower host

section Domains
variable {host domain above : List Char}

theorem beneath_of_exact (exact_ : host = domain ∨ ('.' :: domain) <:+ host) : Beneath host domain := by
  rcases exact_ with rfl | suffix
  · exact .inl rfl
  · exact .inr (suffix.map Char.toLower)

theorem Beneath.trans (one : Beneath host domain) (two : Beneath domain above) : Beneath host above := by
  rcases two with same | suffix
  · rw [Beneath, ← same]
    exact one
  · rcases one with equal | below
    · exact .inr (equal ▸ suffix)
    · exact .inr ((suffix.trans (List.suffix_cons _ _)).trans below)

end Domains
end TinyMachine.Lib
