/-
  The characters of links.

  A URL consists of letters, digits and a fixed set of marks (`IsUrlChar`), and the classes from which
  hosts, domains and tails are drawn hold nothing else.  But between a scheme and the rest of a web link
  stands one character of any kind, so a link may have one character that no URL contains, directly
  behind `http://` or `https://`, and nowhere else (`foreign_character_iff`).
-/
import GanttChart.Proofs.Chart.LinkLanguage
import GanttChart.Text.Words
import Mathlib.Data.Bool.AllAny

namespace GanttChart.Link

open GanttChart.Text

/-! ## Characters of URLs

  Three classes of RFC 3986 and the percent sign, written as brackets, so that they can be
  compared with the brackets of the grammar range by range. -/

/-- The characters of URLs, after RFC 3986: unreserved ones, the delimiters between parts, those within
    parts, and the percent sign. -/
def urlBrackets : List String := ["-a-zA-Z0-9._~", ":/?#[]@", "!$&'()*+,;=", "%"]

/-- A character that a URL may contain. -/
def IsUrlChar (c : Char) : Prop := ∃ listed ∈ urlBrackets, InBracket listed c

instance (c : Char) : Decidable (IsUrlChar c) :=
  inferInstanceAs (Decidable (∃ listed ∈ urlBrackets, InBracket listed c))

variable {c : Char} {text : List Char}

/-- A list of characters is within those of URLs if each of its ranges is. -/
theorem IsUrlChar.of_inBracket {listed : String}
    (h : ∀ range ∈ ranges listed.toList, ∃ other ∈ urlBrackets, ∃ wider ∈ ranges other.toList,
      wider.1.toNat ≤ range.1.toNat ∧ range.2.toNat ≤ wider.2.toNat)
    (hc : InBracket listed c) : IsUrlChar c := by
  obtain ⟨range, hrange, hle, hge⟩ := hc
  obtain ⟨other, hother, wider, hwider, hfirst, hlast⟩ := h range hrange
  exact ⟨other, hother, wider, hwider, Nat.le_trans hfirst hle, Nat.le_trans hge hlast⟩

/-- The characters of URLs are visible ASCII characters. -/
theorem IsUrlChar.visible (h : IsUrlChar c) : 33 ≤ c.toNat ∧ c.toNat < 127 := by
  obtain ⟨listed, hlisted, range, hrange, hfirst, hlast⟩ := h
  have hbounds : ∀ listed ∈ urlBrackets, ∀ range ∈ ranges listed.toList,
      33 ≤ range.1.toNat ∧ range.2.toNat < 127 := by decide
  obtain ⟨hlow, hhigh⟩ := hbounds listed hlisted range hrange
  omega

/-- URLs hold neither blanks nor quotation marks nor angle brackets, and nothing beyond ASCII. -/
theorem IsUrlChar.plain (h : IsUrlChar c) :
    isBlank c = false ∧ c ∉ ['"', '<', '>'] ∧ c.toNat < 128 := by
  obtain ⟨hlow, hhigh⟩ := h.visible
  refine ⟨?_, ?_, by omega⟩
  · simp only [isBlank, Bool.or_eq_false_iff, Bool.and_eq_false_iff, decide_eq_false_iff_not,
      beq_eq_false_iff_ne]
    omega
  · intro hmem
    have hnone : ∀ d ∈ ['"', '<', '>'], ¬IsUrlChar d := List.all_iff_forall_prop.1 (by decide)
    exact hnone c hmem h

/-! ## Characters of links -/

/-- Host, point, domain and tail are made of characters of URLs. -/
theorem IsAddress.isUrlChar (h : IsAddress text) : ∀ c ∈ text, IsUrlChar c := by
  obtain ⟨host, domain, tail, rfl, hhost, hdomain, htail⟩ := h
  intro c hc
  simp only [List.mem_append, List.mem_cons] at hc
  rcases hc with hc | rfl | hc | hc
  · exact .of_inBracket (by decide) (isHostChar_iff.1 (hhost.chars c hc))
  · decide
  · exact .of_inBracket (by decide) (isSmall_iff.1 (hdomain.chars c hc))
  · have htail := (isTail_iff fun _ => isPathChar_iff).1 htail
    exact .of_inBracket (by decide) (htail.chars c hc)

/-- So is a web link without a scheme, whose `www.`  is too. -/
theorem isUrlChar_of_isSchemeless (h : isSchemeless text = true) : ∀ c ∈ text, IsUrlChar c := by
  obtain ⟨www, rest, rfl, hwww, haddress⟩ := isSchemeless_iff.1 h
  have hletters : ∀ c ∈ "www.".toList, IsUrlChar c := List.all_iff_forall_prop.1 (by decide)
  intro c hc
  rcases List.mem_append.1 hc with hc | hc
  · rcases hwww with rfl | rfl
    · cases hc
    · exact hletters c hc
  · exact haddress.isUrlChar c hc

/-- So is a deep link, if its scheme is made of letters. -/
theorem isUrlChar_of_isDeep {scheme : List Char} (hscheme : ∀ c ∈ scheme, InBracket "a-zA-Z" c)
    (h : isDeep scheme text = true) : ∀ c ∈ text, IsUrlChar c := by
  obtain ⟨tail, rfl, htail⟩ := isDeep_iff.1 h
  have htail := (isTail_iff fun _ => isDeepChar_iff).1 htail
  have hopen : ∀ c ∈ "://open".toList, IsUrlChar c := List.all_iff_forall_prop.1 (by decide)
  intro c hc
  simp only [List.mem_append] at hc
  rcases hc with (hc | hc) | hc
  · exact .of_inBracket (by decide) (hscheme c hc)
  · exact hopen c hc
  · exact .of_inBracket (by decide) (htail.chars c hc)

/-! ## The character behind a scheme -/

/-- The schemes of web links. -/
def webSchemes : List (List Char) := ["http://".toList, "https://".toList]

/-- So are the two schemes of web links. -/
theorem isUrlChar_of_mem_webSchemes {front : List Char} (h : front ∈ webSchemes) :
    ∀ c ∈ front, IsUrlChar c := by
  simp only [webSchemes, List.mem_cons, List.not_mem_nil, or_false] at h
  rcases h with rfl | rfl
  · exact List.all_iff_forall_prop.1 (by decide)
  · exact List.all_iff_forall_prop.1 (by decide)

/-- A web link with a scheme is one without, behind the scheme and one character of the line. -/
theorem isWeb_iff_schemeless :
    isWeb text = true ↔ isSchemeless text = true ∨
      ∃ front ∈ webSchemes, ∃ c rest, text = front ++ c :: rest ∧ c ≠ '\n' ∧
        isSchemeless rest = true := by
  simp only [isWeb, Bool.or_eq_true, isWebWith_iff, webSchemes, List.mem_cons, List.not_mem_nil,
    or_false, exists_eq_or_imp, exists_eq_left, or_assoc]

/-- A link either is made of the characters of URLs or has a character behind a web scheme. -/
theorem isValid_cases {scheme url : String} (hscheme : ∀ c ∈ scheme.toList, InBracket "a-zA-Z" c)
    (h : isValid scheme url = true) :
    (∀ c ∈ url.toList, IsUrlChar c) ∨
      ∃ front ∈ webSchemes, ∃ c rest, url.toList = front ++ c :: rest ∧ c ≠ '\n' ∧
        isSchemeless rest = true := by
  rw [isValid, Bool.or_eq_true, isWeb_iff_schemeless] at h
  rcases h with (hplain | hweb) | hdeep
  · exact .inl (isUrlChar_of_isSchemeless hplain)
  · exact .inr hweb
  · exact .inl (isUrlChar_of_isDeep hscheme hdeep)

/-- **The one character of a link that need not be of a URL.**  Let deep links have a scheme of
    letters.  The accepted links with a character that no URL contains are those of a web scheme, one
    such character that ends no line, and a web link without a scheme, which has no other; an
    accepted link without one there is made of plain characters of URLs. -/
theorem foreign_character_iff {scheme : String}
    (hscheme : ∀ c ∈ scheme.toList, InBracket "a-zA-Z" c) (url : String) :
    ((isValid scheme url = true ∧ ∃ c ∈ url.toList, ¬IsUrlChar c) ↔
      ∃ front ∈ webSchemes, ∃ c rest, url.toList = front ++ c :: rest ∧ c ≠ '\n' ∧ ¬IsUrlChar c ∧
        isSchemeless rest = true ∧ ∀ d ∈ rest, IsUrlChar d) ∧
    (isValid scheme url = true →
      (∀ front ∈ webSchemes, ∀ c rest, url.toList = front ++ c :: rest → IsUrlChar c) →
      ∀ c ∈ url.toList,
        IsUrlChar c ∧ isBlank c = false ∧ c ∉ ['"', '<', '>'] ∧ c.toNat < 128) := by
  -- behind a web scheme only the first character is free
  have hrest : ∀ front ∈ webSchemes, ∀ c rest, url.toList = front ++ c :: rest → IsUrlChar c →
      isSchemeless rest = true → ∀ d ∈ url.toList, IsUrlChar d := by
    intro front hfront c rest htext hc hlink d hd
    rw [htext, List.mem_append, List.mem_cons] at hd
    rcases hd with hd | rfl | hd
    · exact isUrlChar_of_mem_webSchemes hfront d hd
    · exact hc
    · exact isUrlChar_of_isSchemeless hlink d hd
  refine ⟨⟨?_, ?_⟩, ?_⟩
  · rintro ⟨hvalid, foreign, hforeign, hnot⟩
    rcases isValid_cases hscheme hvalid with hall | ⟨front, hfront, c, rest, htext, hline, hlink⟩
    · exact absurd (hall foreign hforeign) hnot
    · have hc : ¬IsUrlChar c := fun hc =>
        hnot (hrest front hfront c rest htext hc hlink foreign hforeign)
      exact ⟨front, hfront, c, rest, htext, hline, hc, hlink, isUrlChar_of_isSchemeless hlink⟩
  · rintro ⟨front, hfront, c, rest, htext, hline, hc, hlink, _⟩
    have hweb := isWeb_iff_schemeless.2 (.inr ⟨front, hfront, c, rest, htext, hline, hlink⟩)
    refine ⟨?_, c, by simp [htext], hc⟩
    rw [isValid, hweb, Bool.true_or]
  · intro hvalid hbehind c hc
    have hchar : IsUrlChar c := by
      rcases isValid_cases hscheme hvalid with hall | ⟨front, hfront, d, rest, htext, _, hlink⟩
      · exact hall c hc
      · exact hrest front hfront d rest htext (hbehind front hfront d rest htext) hlink c hc
    exact ⟨hchar, hchar.plain⟩

/-- A link with an angle bracket, which is neither in its host nor in its path. -/
theorem foreign_character_iff_angle :
    (∀ c ∈ "obsidian".toList, InBracket "a-zA-Z" c) ∧
      isValid "obsidian" "https://<ab.com" = true ∧
      ∃ c ∈ "https://<ab.com".toList, ¬IsUrlChar c := by
  have hscheme : ∀ c ∈ "obsidian".toList, InBracket "a-zA-Z" c :=
    List.all_iff_forall_prop.1 (by decide)
  have hlink : isSchemeless "ab.com".toList = true := by decide
  refine ⟨hscheme, (foreign_character_iff hscheme "https://<ab.com").1.2 ?_⟩
  exact ⟨"https://".toList, by decide, '<', "ab.com".toList, rfl, by decide, by decide, hlink,
    isUrlChar_of_isSchemeless hlink⟩

/-- So accepted links may hold characters that no URL contains. -/
theorem isValid_admits_foreign_character :
    ¬∀ scheme url : String, (∀ c ∈ scheme.toList, InBracket "a-zA-Z" c) →
      isValid scheme url = true → ∀ c ∈ url.toList, IsUrlChar c := by
  intro hall
  have hscheme : ∀ c ∈ "obsidian".toList, InBracket "a-zA-Z" c :=
    List.all_iff_forall_prop.1 (by decide)
  have hquote := hall "obsidian" "https://\"ab.com" hscheme (by decide) '"' (by decide)
  exact absurd hquote (by decide)

end GanttChart.Link
