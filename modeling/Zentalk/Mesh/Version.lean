import Zentalk.Codec.Messages
import Zentalk.Lib.Decimal
import Mathlib.Data.List.TakeWhile

/-!
# Protocol versions

`Sscanf` passes over spaces and a sign and ignores what follows the digits (`version_syntax_iff`).
-/

namespace Zentalk.Mesh

open Wire Decimal List

/-! ## The model -/

/-- The spaces that `Sscanf` passes over, in UTF-8; it takes no line break. -/
def spaces : List Bytes :=
  [[9], [11], [12], [13], [32], [0xC2, 0x85], [0xC2, 0xA0], [0xE1, 0x9A, 0x80], [0xE2, 0x80, 0xA8],
    [0xE2, 0x80, 0xA9], [0xE2, 0x80, 0xAF], [0xE2, 0x81, 0x9F], [0xE3, 0x80, 0x80]] ++
  (range 11).map fun i => [0xE2, 0x80, 0x80 + UInt8.ofNat i]

/-- `SkipSpace`, which skips one of them at a time, as often as `n`. -/
def skipSpace : ℕ → Bytes → Bytes
  | 0, text => text
  | n + 1, text =>
    match spaces.find? fun space => decide (space <+: text) with
    | some space => skipSpace n (text.drop space.length)
    | none => text

def isDigit (b : UInt8) : Bool := decide (48 ≤ b.toNat ∧ b.toNat ≤ 57)

/-- The number of `fmt.Sscanf(part, "%d", &num)`, and `none` for an error. -/
def sscanf (part : Bytes) : Option ℤ :=
  let text := skipSpace part.length part
  let digits := (if text.head? = some 45 ∨ text.head? = some 43 then text.tail else text).takeWhile
    isDigit
  let num : ℤ := if text.head? = some 45 then -value digits else value digits
  if digits ≠ [] ∧ -2 ^ 63 ≤ num ∧ num < 2 ^ 63 then some num else none

/-- `strings.Split(version, ".")`. -/
def parts (version : Bytes) : List Bytes := version.splitOn 46

/-- The loop of `ValidateVersion` from part `i` on. -/
def validateParts : ℕ → List Bytes → Except Bytes Unit
  | _, [] => .ok ()
  | i, part :: rest =>
    match sscanf part with
    | none =>
      .error (asciiBytes "invalid version part " ++ decimal i ++ asciiBytes ": " ++ part ++
        asciiBytes " is not numeric")
    | some num =>
      if num < 0 then
        .error (asciiBytes "invalid version part " ++ decimal i ++ asciiBytes ": " ++ decimal num ++
          asciiBytes " cannot be negative")
      else validateParts (i + 1) rest

def validateVersion (version : Bytes) : Except Bytes Unit :=
  if version = [] then .error (asciiBytes "version cannot be empty")
  else if (parts version).length ≠ 3 then
    .error (asciiBytes "invalid version format: expected major.minor.patch, got " ++ version)
  else validateParts 0 (parts version)

/-- The variable of `CompareVersions` for part `i`, which stays 0 if there is no number. -/
def number (version : Bytes) (i : ℕ) : ℤ := ((parts version)[i]?.bind sscanf).getD 0

/-- The loop of `CompareVersions`. -/
def compareParts (v1 v2 : Bytes) : List ℕ → ℤ
  | [] => 0
  | i :: rest =>
    if number v1 i < number v2 i then -1
    else if number v1 i > number v2 i then 1
    else compareParts v1 v2 rest

def compareVersions (v1 v2 : Bytes) : ℤ := compareParts v1 v2 [0, 1, 2]

def contains (slice : List Bytes) (item : Bytes) : Bool := slice.any fun s => s = item

def versionPriority : List Bytes := ["2.0.0", "1.1.0", "1.0.0"].map asciiBytes

/-- A list as `%v` prints it. -/
def listText (versions : List Bytes) : Bytes := 91 :: [32].intercalate versions ++ [93]

def negotiateVersion (myVersions theirVersions : List Bytes) : Except Bytes Bytes :=
  if myVersions = [] ∨ theirVersions = [] then .error (asciiBytes "version list cannot be empty")
  else
    match versionPriority.find? fun version =>
      contains myVersions version && contains theirVersions version with
    | some version => .ok version
    | none =>
      .error (asciiBytes "no compatible version found: my versions=" ++ listText myVersions ++
        asciiBytes ", their versions=" ++ listText theirVersions)

/-! ## Syntax -/

/-- A string of digits whose number fits an `int`. -/
def Numeric (part : Bytes) : Prop := part ≠ [] ∧ (∀ b ∈ part, isDigit b) ∧ value part < 2 ^ 63

/-- The versions `major.minor.patch`. -/
def IsVersion (version : Bytes) : Prop :=
  ∃ major minor patch, Numeric major ∧ Numeric minor ∧ Numeric patch ∧
    version = [46].intercalate [major, minor, patch]

/-- A part in which `Sscanf` finds a number that is not negative: after the spaces there are a sign,
which is no minus except before zero, the digits, and any text. -/
def Loose (part : Bytes) : Prop :=
  ∃ sign digits text, skipSpace part.length part = sign ++ (digits ++ text) ∧
    (sign = [] ∨ sign = [43] ∨ sign = [45] ∧ value digits = 0) ∧ Numeric digits ∧
    ∀ b ∈ text.head?, ¬ isDigit b

/-- Three such parts, and not all of them digits. -/
def Tolerated (version : Bytes) : Prop :=
  (parts version).length = 3 ∧ (∀ part ∈ parts version, Loose part) ∧
    ∃ part ∈ parts version, ∃ b ∈ part, ¬ isDigit b

section

variable {v w : Bytes}

/-- No space starts with a digit. -/
theorem skipSpace_digits {b : UInt8} (h : isDigit b) (n : ℕ) (rest : Bytes) :
    skipSpace n (b :: rest) = b :: rest := by
  have hheads : ∀ space ∈ spaces, space ≠ [] ∧ ∀ x ∈ space.head?, ¬ isDigit x := by decide +kernel
  cases n with
  | zero => rfl
  | succ n =>
    rw [skipSpace, find?_eq_none.mpr fun space hspace => ?_]
    obtain ⟨hne, hhead⟩ := hheads space hspace
    obtain ⟨x, xs, rfl⟩ := exists_cons_of_ne_nil hne
    rw [decide_eq_true_eq, cons_prefix_cons]
    rintro ⟨rfl, -⟩
    exact hhead x rfl h

/-- What `Sscanf` reads after the spaces. -/
theorem sscanf_eq {part sign digits text : Bytes}
    (hskip : skipSpace part.length part = sign ++ (digits ++ text))
    (hsign : sign = [] ∨ sign = [43] ∨ sign = [45]) (hne : digits ≠ [])
    (hdigits : ∀ b ∈ digits, isDigit b) (htext : ∀ b ∈ text.head?, ¬ isDigit b) {num : ℤ}
    (hnum : num = if sign = [45] then -(value digits : ℤ) else value digits) :
    sscanf part = if -2 ^ 63 ≤ num ∧ num < 2 ^ 63 then some num else none := by
  have htake : (digits ++ text).takeWhile isDigit = digits := by
    rw [takeWhile_append_of_pos hdigits]
    cases text with
    | nil => simp
    | cons b text => rw [takeWhile_cons_of_neg (htext b rfl), append_nil]
  unfold sscanf
  rw [hskip, hnum]
  rcases hsign with rfl | rfl | rfl
  · obtain ⟨d, ds, rfl⟩ := exists_cons_of_ne_nil hne
    have hd : 48 ≤ d.toNat := (of_decide_eq_true (hdigits d mem_cons_self)).1
    have hsign x (hx : x.toNat < 48) : d ≠ x := by rintro rfl; omega
    rw [cons_append] at htake
    simp [htake, hsign 45 (by decide), hsign 43 (by decide)]
  · simp [htake, hne]
  · simp [htake, hne]

/-- The digits at the beginning of a text, and the rest. -/
theorem exists_digits (body : Bytes) : ∃ text, body = body.takeWhile isDigit ++ text ∧
    (∀ b ∈ body.takeWhile isDigit, isDigit b) ∧ ∀ b ∈ text.head?, ¬ isDigit b := by
  refine ⟨body.dropWhile isDigit, takeWhile_append_dropWhile.symm, fun b => mem_takeWhile_imp, ?_⟩
  intro b hb
  have hstop := head?_dropWhile_not isDigit body
  rw [Option.mem_def.mp hb] at hstop
  simpa using hstop

theorem loose_iff (part : Bytes) : Loose part ↔ ∃ num, sscanf part = some num ∧ 0 ≤ num := by
  constructor
  · rintro ⟨sign, digits, text, hskip, hsign, ⟨hne, hdigits, hlt⟩, htext⟩
    have hnum : (value digits : ℤ) = if sign = [45] then -(value digits : ℤ) else value digits := by
      rcases hsign with rfl | rfl | ⟨rfl, hzero⟩ <;> simp_all
    refine ⟨value digits, ?_, Int.natCast_nonneg _⟩
    rw [sscanf_eq hskip (hsign.imp_right (Or.imp_right And.left)) hne hdigits htext hnum]
    exact if_pos (by omega)
  · rintro ⟨num, hscan, hnum⟩
    simp only [sscanf, Option.ite_none_right_eq_some] at hscan
    generalize hskip : skipSpace part.length part = rest at hscan
    obtain ⟨⟨hne, -, hlt⟩, hval⟩ := hscan
    obtain rfl := Option.some.inj hval
    by_cases hminus : rest.head? = some 45
    · obtain ⟨body, rfl⟩ := head?_eq_some_iff.mp hminus
      simp only [head?_cons, true_or, if_true, tail_cons] at hne hlt hnum
      obtain ⟨text, hbody, hdigits, htext⟩ := exists_digits body
      exact ⟨[45], _, text, by rw [hskip, ← hbody]; rfl, .inr (.inr ⟨rfl, by omega⟩),
        ⟨hne, hdigits, by omega⟩, htext⟩
    · rw [if_neg hminus] at hlt
      by_cases hplus : rest.head? = some 43
      · obtain ⟨body, rfl⟩ := head?_eq_some_iff.mp hplus
        simp only [head?_cons, or_true, if_true, tail_cons] at hne hlt
        obtain ⟨text, hbody, hdigits, htext⟩ := exists_digits body
        exact ⟨[43], _, text, by rw [hskip, ← hbody]; rfl, .inr (.inl rfl),
          ⟨hne, hdigits, by omega⟩, htext⟩
      · rw [if_neg (not_or.mpr ⟨hminus, hplus⟩)] at hne hlt
        obtain ⟨text, hbody, hdigits, htext⟩ := exists_digits rest
        exact ⟨[], _, text, by rw [hskip, ← hbody]; rfl, .inl rfl, ⟨hne, hdigits, by omega⟩, htext⟩

theorem sscanf_digits {part : Bytes} (hne : part ≠ []) (hdigits : ∀ b ∈ part, isDigit b) :
    sscanf part = if value part < 2 ^ 63 then some (value part : ℤ) else none := by
  obtain ⟨b, rest, rfl⟩ := exists_cons_of_ne_nil hne
  have hskip : skipSpace (b :: rest).length (b :: rest) = [] ++ (b :: rest ++ []) := by
    rw [skipSpace_digits (hdigits b mem_cons_self), append_nil]
    rfl
  rw [sscanf_eq hskip (.inl rfl) hne hdigits (by simp) (if_neg (by simp)).symm]
  exact if_congr (by omega) rfl rfl

theorem validateParts_ok_iff (i : ℕ) (rest : List Bytes) :
    validateParts i rest = .ok () ↔ ∀ part ∈ rest, ∃ num, sscanf part = some num ∧ 0 ≤ num := by
  induction rest generalizing i with
  | nil => simp [validateParts]
  | cons part rest ih =>
    rw [validateParts, forall_mem_cons]
    cases sscanf part with
    | none => simp
    | some num =>
      by_cases hneg : num < 0
      · simp [hneg]
      · simp [hneg, ih, not_lt.mp hneg]

theorem validateVersion_ok_iff (v : Bytes) :
    validateVersion v = .ok () ↔ (parts v).length = 3 ∧
      ∀ part ∈ parts v, ∃ num, sscanf part = some num ∧ 0 ≤ num := by
  unfold validateVersion
  split
  · next hnil =>
    subst hnil
    exact ⟨fun h => (by cases h), fun h => absurd h.1 (by decide)⟩
  · split
    · next hlen => exact ⟨fun h => (by cases h), fun h => absurd h.1 hlen⟩
    · next hlen => rw [validateParts_ok_iff, and_iff_right (not_not.mp hlen)]

theorem isVersion_iff (v : Bytes) :
    IsVersion v ↔ (parts v).length = 3 ∧ ∀ part ∈ parts v, Numeric part := by
  constructor
  · rintro ⟨major, minor, patch, hmajor, hminor, hpatch, rfl⟩
    have hdot part (h : Numeric part) : 46 ∉ part := fun hmem => by
      have hdigit := h.2.1 46 hmem
      exact absurd hdigit (by decide)
    have hparts : parts ([46].intercalate [major, minor, patch]) = [major, minor, patch] := by
      refine splitOn_intercalate 46 ?_ (cons_ne_nil _ _)
      simp [hdot _ hmajor, hdot _ hminor, hdot _ hpatch]
    rw [hparts]
    exact ⟨rfl, by simp [hmajor, hminor, hpatch]⟩
  · rintro ⟨hlen, hnumeric⟩
    obtain ⟨major, minor, patch, hparts⟩ := length_eq_three.mp hlen
    rw [hparts] at hnumeric
    simp only [forall_mem_cons] at hnumeric
    refine ⟨major, minor, patch, hnumeric.1, hnumeric.2.1, hnumeric.2.2.1, ?_⟩
    rw [← hparts]
    exact (intercalate_splitOn 46).symm

theorem compareVersions_eq_zero_iff (v w : Bytes) :
    compareVersions v w = 0 ↔
      number v 0 = number w 0 ∧ number v 1 = number w 1 ∧ number v 2 = number w 2 := by
  simp only [compareVersions, compareParts]
  split_ifs <;> simp only [one_ne_zero, false_iff, true_iff] <;> omega

theorem compareVersions_nonpos_iff (v w : Bytes) :
    compareVersions v w ≤ 0 ↔ number v 0 < number w 0 ∨ number v 0 = number w 0 ∧
      (number v 1 < number w 1 ∨ number v 1 = number w 1 ∧ number v 2 ≤ number w 2) := by
  simp only [compareVersions, compareParts]
  split_ifs <;> omega

theorem compareVersions_trans {u : Bytes} (huv : compareVersions u v ≤ 0)
    (hvw : compareVersions v w ≤ 0) : compareVersions u w ≤ 0 := by
  rw [compareVersions_nonpos_iff] at huv hvw ⊢
  omega

/-- Strings of digits are accepted, unless a number is too large. -/
theorem isVersion_of_digits (hok : validateVersion v = .ok ())
    (hdigits : ∀ part ∈ parts v, ∀ b ∈ part, isDigit b) : IsVersion v := by
  obtain ⟨hlen, hnum⟩ := (validateVersion_ok_iff v).mp hok
  refine (isVersion_iff v).mpr ⟨hlen, fun part hpart => ?_⟩
  obtain ⟨num, hscan, -⟩ := hnum part hpart
  have hne : part ≠ [] := by
    rintro rfl
    cases hscan
  rw [sscanf_digits hne (hdigits part hpart)] at hscan
  split at hscan
  · next hlt => exact ⟨hne, hdigits part hpart, hlt⟩
  · cases hscan

theorem sscanf_numeric {part : Bytes} (h : Numeric part) : sscanf part = some (value part : ℤ) := by
  rw [sscanf_digits h.1 h.2.1, if_pos h.2.2]

theorem validateVersion_of_isVersion (h : IsVersion v) : validateVersion v = .ok () := by
  obtain ⟨hlen, hnumeric⟩ := (isVersion_iff v).mp h
  refine (validateVersion_ok_iff v).mpr ⟨hlen, fun part hpart => ?_⟩
  exact ⟨_, sscanf_numeric (hnumeric part hpart), Int.natCast_nonneg _⟩

/-- The numbers of an accepted version are those of its three parts. -/
theorem parts_map_sscanf (hok : validateVersion v = .ok ()) :
    (parts v).map sscanf = [some (number v 0), some (number v 1), some (number v 2)] := by
  obtain ⟨hlen, hnum⟩ := (validateVersion_ok_iff v).mp hok
  obtain ⟨major, minor, patch, hparts⟩ := length_eq_three.mp hlen
  have hscan part (hpart : part ∈ parts v) : sscanf part = some ((sscanf part).getD 0) := by
    obtain ⟨num, hnum, -⟩ := hnum part hpart
    rw [hnum]
    rfl
  rw [hparts] at hscan
  simp only [forall_mem_cons] at hscan
  simp only [number, hparts, map_cons, map_nil]
  rw [hscan.1, hscan.2.1, hscan.2.2.1]
  rfl

end

/-- The accepted versions are the strings `major.minor.patch`, except that a part may have spaces
and a sign before its digits and any text after them; the comparison goes by the numbers. -/
theorem version_syntax_iff (v : Bytes) :
    ((validateVersion v = .ok () ↔ IsVersion v) ↔ ¬ Tolerated v) ∧
    (∀ part, Numeric part → sscanf part = some (value part : ℤ)) ∧
    ∀ w, validateVersion v = .ok () → validateVersion w = .ok () →
      (compareVersions v w = 0 ↔ (parts v).map sscanf = (parts w).map sscanf) := by
  refine ⟨⟨?_, fun h => ⟨fun hok => ?_, validateVersion_of_isVersion⟩⟩, fun part => sscanf_numeric,
    fun w hv hw => ?_⟩
  · rintro h ⟨hlen, hloose, part, hpart, b, hb, hother⟩
    have hok := (validateVersion_ok_iff v).mpr
      ⟨hlen, fun part hpart => (loose_iff part).mp (hloose part hpart)⟩
    exact hother ((((isVersion_iff v).mp (h.mp hok)).2 part hpart).2.1 b hb)
  · obtain ⟨hlen, hnum⟩ := (validateVersion_ok_iff v).mp hok
    refine isVersion_of_digits hok fun part hpart b hb => ?_
    by_contra hother
    exact h ⟨hlen, fun part hpart => (loose_iff part).mpr (hnum part hpart), part, hpart, b, hb,
      hother⟩
  · rw [compareVersions_eq_zero_iff, parts_map_sscanf hv, parts_map_sscanf hw]
    simp

/-- A pre-release of version 1.0.0 is accepted, and compares equal to the release. -/
theorem version_text_ignored :
    validateVersion (asciiBytes "1.0.0-beta") = .ok () ∧ ¬ IsVersion (asciiBytes "1.0.0-beta") ∧
      compareVersions (asciiBytes "1.0.0-beta") (asciiBytes "1.0.0") = 0 := by
  refine ⟨by decide, fun h => ?_, by decide⟩
  have hdigit : isDigit 45 :=
    (((isVersion_iff _).mp h).2 (asciiBytes "0-beta") (by decide)).2.1 45 (by decide)
  exact absurd hdigit (by decide)

/-! ## Negotiation -/

/-- Both nodes support the version. -/
def Common (a b : List Bytes) (version : Bytes) : Prop := version ∈ a ∧ version ∈ b

/-- The version is the highest that both nodes support. -/
def IsHighest (a b : List Bytes) (version : Bytes) : Prop :=
  Common a b version ∧ ∀ w, Common a b w → compareVersions w version ≤ 0

/-- The negotiation of `a` and `b` has the highest common version as its result, whichever side
asks, and fails only if there is no common version. -/
structure Negotiates (a b : List Bytes) : Prop where
  highest : ∀ version, negotiateVersion a b = .ok version → IsHighest a b version
  fails : (∃ text, negotiateVersion a b = .error text) ↔ ¬ ∃ version, Common a b version
  agree : (negotiateVersion a b).toOption = (negotiateVersion b a).toOption

section

variable {a b : List Bytes}

theorem contains_iff (slice : List Bytes) (item : Bytes) :
    contains slice item = true ↔ item ∈ slice := by
  simp [contains]

/-- The result is the first version of the priority list that both nodes support. -/
theorem toOption_negotiateVersion (a b : List Bytes) :
    (negotiateVersion a b).toOption =
      versionPriority.find? fun version => contains a version && contains b version := by
  unfold negotiateVersion
  split
  · next hnil =>
    symm
    rw [List.find?_eq_none.mpr]
    · rfl
    · intro version _
      rcases hnil with rfl | rfl <;> simp [contains]
  · cases versionPriority.find? fun version => contains a version && contains b version <;> rfl

theorem negotiateVersion_comm (a b : List Bytes) :
    (negotiateVersion a b).toOption = (negotiateVersion b a).toOption := by
  simp only [toOption_negotiateVersion, Bool.and_comm]

theorem negotiateVersion_ok_iff (a b : List Bytes) (version : Bytes) :
    negotiateVersion a b = .ok version ↔
      (versionPriority.find? fun v => contains a v && contains b v) = some version := by
  rw [← toOption_negotiateVersion]
  cases negotiateVersion a b <;> simp [Except.toOption]

theorem negotiateVersion_error_iff (a b : List Bytes) :
    (∃ text, negotiateVersion a b = .error text) ↔ ∀ v ∈ versionPriority, ¬ Common a b v := by
  have hnone : (∃ text, negotiateVersion a b = .error text) ↔
      (negotiateVersion a b).toOption = none := by
    cases negotiateVersion a b <;> simp [Except.toOption]
  rw [hnone, toOption_negotiateVersion, List.find?_eq_none]
  simp [contains_iff, Common]

/-- The versions of the priority list descend. -/
theorem versionPriority_descending :
    versionPriority.Pairwise fun v w => compareVersions w v ≤ 0 := by
  decide

/-- The first common version of the list is not below another common one of the list. -/
theorem le_negotiated (hok : negotiateVersion a b = .ok v) (hw : w ∈ versionPriority)
    (hcommon : Common a b w) : compareVersions w v ≤ 0 := by
  obtain ⟨-, pre, post, hlist, hpre⟩ := List.find?_eq_some_iff_append.mp
    ((negotiateVersion_ok_iff a b v).mp hok)
  have hdesc := versionPriority_descending
  rw [hlist] at hw hdesc
  rcases mem_append.mp hw with hpre' | hpost
  · exact absurd (hpre w hpre') (by simp [contains_iff, hcommon.1, hcommon.2])
  · rcases mem_cons.mp hpost with rfl | hpost
    · exact (compareVersions_nonpos_iff w w).mpr (by omega)
    · exact rel_of_pairwise_cons (pairwise_append.mp hdesc).2.1 hpost

theorem common_negotiated (hok : negotiateVersion a b = .ok v) :
    v ∈ versionPriority ∧ Common a b v := by
  have hfind := (negotiateVersion_ok_iff a b v).mp hok
  have hcommon := List.find?_some hfind
  rw [Bool.and_eq_true, contains_iff, contains_iff] at hcommon
  exact ⟨mem_of_find?_eq_some hfind, hcommon⟩

end

/-- The negotiation is right for two lists if, and only if, a highest common version of theirs is
among the three that it knows. -/
theorem negotiateVersion_iff (a b : List Bytes) :
    Negotiates a b ↔
      ((∃ version, Common a b version) → ∃ version ∈ versionPriority, IsHighest a b version) := by
  constructor
  · rintro ⟨hhighest, hfails, -⟩ hcommon
    cases hresult : negotiateVersion a b with
    | error text => exact absurd hcommon (hfails.mp ⟨text, hresult⟩)
    | ok version => exact ⟨version, (common_negotiated hresult).1, hhighest version hresult⟩
  · intro h
    refine ⟨fun v hok => ?_, ?_, negotiateVersion_comm a b⟩
    · have hcommon := (common_negotiated hok).2
      obtain ⟨best, hbest, hhighest⟩ := h ⟨v, hcommon⟩
      have hle := le_negotiated hok hbest hhighest.1
      exact ⟨hcommon, fun w hw => compareVersions_trans (hhighest.2 w hw) hle⟩
    · rw [negotiateVersion_error_iff]
      refine ⟨fun hnone hcommon => ?_, fun hnone v _ hv => hnone ⟨v, hv⟩⟩
      obtain ⟨best, hbest, hhighest⟩ := h hcommon
      exact hnone best hbest hhighest.1

/-- Two nodes that support the valid version 1.2.0, and no other, find no common version. -/
theorem negotiateVersion_unknown :
    validateVersion (asciiBytes "1.2.0") = .ok () ∧
      Common [asciiBytes "1.2.0"] [asciiBytes "1.2.0"] (asciiBytes "1.2.0") ∧
      (negotiateVersion [asciiBytes "1.2.0"] [asciiBytes "1.2.0"]).toOption = none ∧
      ¬ Negotiates [asciiBytes "1.2.0"] [asciiBytes "1.2.0"] := by
  have hnone : (negotiateVersion [asciiBytes "1.2.0"] [asciiBytes "1.2.0"]).toOption = none := by
    decide
  refine ⟨by decide, ⟨mem_singleton_self _, mem_singleton_self _⟩, hnone, fun h => ?_⟩
  refine h.fails.mp ?_ ⟨_, mem_singleton_self _, mem_singleton_self _⟩
  cases hresult : negotiateVersion [asciiBytes "1.2.0"] [asciiBytes "1.2.0"] with
  | error text => exact ⟨text, rfl⟩
  | ok version =>
    rw [hresult] at hnone
    cases hnone

end Zentalk.Mesh
