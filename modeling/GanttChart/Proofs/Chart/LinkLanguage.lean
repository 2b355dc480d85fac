/-
  The language of links.

  1. **Characters.**  The characters of each part are listed as between brackets, where a hyphen spans a
     range (`InBracket`); the tests for a host, a path and a deep link agree with such lists.

  2. **Tails.**  A tail is over listed characters and does not begin like the rest of a word
     (`isTail_iff`).

  3. **Links.**  A web link is any text that can be divided into its parts in some way, a deep link one
     that begins with its scheme (`isValid_iff_divides`).
-/
import GanttChart.Proofs.Chart.Link
import Mathlib.Data.List.Perm.Basic

namespace GanttChart.Link

/-! ## Listed characters

  The validator tests characters one condition after another, while a grammar lists them.  The
  two are compared by ranges, and only up to their order, since the lists of a grammar name the
  letters and the marks as it suits the reader. -/

/-- The ranges of a list of characters: a hyphen with one on either side spans a range, and any other
    character is a range by itself. -/
def ranges : List Char → List (Char × Char)
  | first :: '-' :: last :: listed => (first, last) :: ranges listed
  | c :: listed => (c, c) :: ranges listed
  | [] => []

/-- The character is in one of the ranges. -/
def InRanges (given : List (Char × Char)) (c : Char) : Prop :=
  ∃ range ∈ given, range.1.toNat ≤ c.toNat ∧ c.toNat ≤ range.2.toNat

instance (given : List (Char × Char)) (c : Char) : Decidable (InRanges given c) :=
  inferInstanceAs (Decidable (∃ range ∈ given, range.1.toNat ≤ c.toNat ∧ c.toNat ≤ range.2.toNat))

/-- The character is listed between the brackets. -/
def InBracket (listed : String) (c : Char) : Prop := InRanges (ranges listed.toList) c

instance (listed : String) (c : Char) : Decidable (InBracket listed c) :=
  inferInstanceAs (Decidable (InRanges (ranges listed.toList) c))

example : ranges "-a-z_".toList = [('-', '-'), ('a', 'z'), ('_', '_')] := by decide

variable {c : Char}

/-- A character is in one of two lists of ranges if it is in either. -/
theorem inRanges_append_iff {front back : List (Char × Char)} :
    InRanges (front ++ back) c ↔ InRanges front c ∨ InRanges back c := by
  simp only [InRanges, List.mem_append, or_and_right, exists_or]

/-- Ranges of one character each hold these characters. -/
theorem inRanges_singles_iff {marks : List Char} :
    InRanges (marks.map fun c => (c, c)) c ↔ c ∈ marks := by
  constructor
  · rintro ⟨range, hrange, hle, hge⟩
    obtain ⟨d, hd, rfl⟩ := List.mem_map.1 hrange
    obtain rfl : c = d := Char.toNat_inj.1 (Nat.le_antisymm hge hle)
    exact hd
  · intro hc
    exact ⟨(c, c), List.mem_map_of_mem hc, Nat.le_refl _, Nat.le_refl _⟩

/-- The test for a small letter agrees with its bracket. -/
theorem isSmall_iff : isSmall c = true ↔ InBracket "a-z" c := by
  show _ ↔ InRanges [('a', 'z')] c
  simp only [isSmall, Bool.and_eq_true, decide_eq_true_eq, InRanges, List.mem_singleton,
    exists_eq_left]
  rfl

/-- Letters of both cases and digits are three ranges. -/
theorem isAlphanumeric_iff :
    isAlphanumeric c = true ↔ InRanges [('a', 'z'), ('A', 'Z'), ('0', '9')] c := by
  simp only [isAlphanumeric, isSmall, Bool.or_eq_true, Bool.and_eq_true, decide_eq_true_eq, InRanges,
    List.mem_cons, List.not_mem_nil, or_false, exists_eq_or_imp, exists_eq_left, or_assoc]
  rfl

/-- Letters, digits and some marks, listed in any order. -/
theorem inBracket_iff_of_perm {listed : String} {marks : List Char}
    (h : (ranges listed.toList).Perm
      ([('a', 'z'), ('A', 'Z'), ('0', '9')] ++ marks.map fun c => (c, c))) :
    InBracket listed c ↔ isAlphanumeric c = true ∨ c ∈ marks := by
  rw [isAlphanumeric_iff, ← inRanges_singles_iff, ← inRanges_append_iff]
  simp only [InBracket, InRanges, h.mem_iff]

/-- The characters of words. -/
theorem isWordChar_iff : isWordChar c = true ↔ InBracket "a-zA-Z0-9_" c := by
  rw [@inBracket_iff_of_perm c _ ['_'] (by decide)]
  simp [isWordChar]

/-- The characters of hosts. -/
theorem isHostChar_iff : isHostChar c = true ↔ InBracket "-a-zA-Z0-9@:%._+~#=" c := by
  rw [@inBracket_iff_of_perm c _ "-@:%._+~#=".toList (by decide)]
  simp only [isHostChar, Bool.or_eq_true, decide_eq_true_eq]

/-- The characters of a web link's tail. -/
theorem isPathChar_iff :
    isPathChar c = true ↔ InBracket "-a-zA-Z0-9@:%_+.~#?&/=!$'()*,;[]" c := by
  rw [@inBracket_iff_of_perm c _ "-@:%_+.~#?&/=!$'()*,;[]".toList (by decide)]
  simp only [isPathChar, Bool.or_eq_true, decide_eq_true_eq]

/-- The characters of a deep link's tail. -/
theorem isDeepChar_iff : isDeepChar c = true ↔ InBracket "-a-zA-Z0-9()!@:%_+.~#?&/=" c := by
  rw [@inBracket_iff_of_perm c _ "-()!@:%_+.~#?&/=".toList (by decide)]
  simp only [isDeepChar, Bool.or_eq_true, decide_eq_true_eq]

/-! ## Tails -/

/-- A tail over the listed characters, empty or beginning with one that continues no word. -/
structure IsTailOver (listed : String) (tail : List Char) : Prop where
  chars : ∀ c ∈ tail, InBracket listed c
  boundary : ∀ c, tail.head? = some c → ¬InBracket "a-zA-Z0-9_" c

/-- The test for a tail agrees with the listed characters, if the test for one character does. -/
theorem isTail_iff {allowed : Char → Bool} {listed : String} {tail : List Char}
    (h : ∀ c, allowed c = true ↔ InBracket listed c) :
    isTail allowed tail = true ↔ IsTailOver listed tail := by
  rw [isTail, Bool.and_eq_true, List.all_eq_true, Bool.not_eq_true', ← Bool.not_eq_true,
    Option.any_eq_true]
  simp only [h, isWordChar_iff]
  constructor
  · rintro ⟨hchars, hboundary⟩
    exact ⟨hchars, fun c hc hword => hboundary ⟨c, hc, hword⟩⟩
  · rintro ⟨hchars, hboundary⟩
    exact ⟨hchars, fun ⟨c, hc, hword⟩ => hboundary c hc hword⟩

/-! ## Links -/

/-- A host is 2 to 256 of its characters. -/
theorem isHost_iff {host : List Char} :
    IsHost host ↔ (∀ c ∈ host, InBracket "-a-zA-Z0-9@:%._+~#=" c) ∧
      2 ≤ host.length ∧ host.length ≤ 256 := by
  simp only [← isHostChar_iff]
  constructor
  · rintro ⟨hchars, htwo, hmost⟩
    exact ⟨hchars, htwo, hmost⟩
  · rintro ⟨hchars, htwo, hmost⟩
    exact ⟨hchars, htwo, hmost⟩

/-- A domain is 2 to 6 small letters. -/
theorem isDomain_iff_listed {domain : List Char} :
    IsDomain domain ↔ (∀ c ∈ domain, InBracket "a-z" c) ∧
      2 ≤ domain.length ∧ domain.length ≤ 6 := by
  simp only [← isSmall_iff]
  constructor
  · rintro ⟨hchars, htwo, hmost⟩
    exact ⟨hchars, htwo, hmost⟩
  · rintro ⟨hchars, htwo, hmost⟩
    exact ⟨hchars, htwo, hmost⟩

/-- **The language of links.**  A link is a text that can be divided into an optional scheme with one
    character more, an optional `www.`, a host, a point, a domain and a tail; or the scheme of deep
    links, taken as it is written, `://open` and a tail. -/
theorem isValid_iff_divides {scheme url : String} :
    isValid scheme url = true ↔
      (∃ front www host domain tail,
        url.toList = front ++ (www ++ (host ++ '.' :: (domain ++ tail))) ∧
        (front = [] ∨
          ∃ c ≠ '\n', front = "http://".toList ++ [c] ∨ front = "https://".toList ++ [c]) ∧
        (www = [] ∨ www = "www.".toList) ∧
        ((∀ c ∈ host, InBracket "-a-zA-Z0-9@:%._+~#=" c) ∧ 2 ≤ host.length ∧ host.length ≤ 256) ∧
        ((∀ c ∈ domain, InBracket "a-z" c) ∧ 2 ≤ domain.length ∧ domain.length ≤ 6) ∧
        IsTailOver "-a-zA-Z0-9@:%_+.~#?&/=!$'()*,;[]" tail) ∨
      ∃ tail, url.toList = scheme.toList ++ "://open".toList ++ tail ∧
        IsTailOver "-a-zA-Z0-9()!@:%_+.~#?&/=" tail := by
  simp only [isValid, Bool.or_eq_true, isWeb_iff, isDeep_iff, IsAddress,
    isTail_iff fun _ => isPathChar_iff, isTail_iff fun _ => isDeepChar_iff, isHost_iff,
    isDomain_iff_listed]
  refine or_congr ?_ Iff.rfl
  constructor
  · rintro ⟨front, www, _, htext, hfront, hwww, host, domain, tail, rfl, hhost, hdomain, htail⟩
    exact ⟨front, www, host, domain, tail, htext, hfront, hwww, hhost, hdomain, htail⟩
  · rintro ⟨front, www, host, domain, tail, htext, hfront, hwww, hhost, hdomain, htail⟩
    exact ⟨front, www, _, htext, hfront, hwww, host, domain, tail, rfl, hhost, hdomain, htail⟩

/-- A host of one character is too short, and a tail may not go on like the domain. -/
example : isValid "obsidian" "a.com" = false ∧ isValid "obsidian" "ab.comX" = false := by decide

end GanttChart.Link
