/-
  What a link is made of.

  `Link.isWeb` walks over a text once for each way in which it may begin.  Here the language that it
  decides is stated by its parts: an address is a host, a point, a domain and a tail, and a web link
  is an address after an optional scheme and an optional `www.`.  A deep link is its scheme,
  `://open` and a tail.

  Read next to each other, the parts overlap: a host may hold points, colons and letters, so it may
  contain what looks like a scheme or a domain.  A statement by parts leaves that open.  It says that
  a link can be divided in some way, and the walk tries them all: each point as the end of the host,
  and each length of the domain.
-/
import GanttChart.Chart.Link
import Mathlib.Data.List.Basic

namespace GanttChart.Link

/-! ## The parts -/

/-- A host: 2 to 256 of its characters. -/
structure IsHost (host : List Char) : Prop where
  chars : ∀ c ∈ host, isHostChar c = true
  two_le : 2 ≤ host.length
  le_256 : host.length ≤ 256

/-- A domain: 2 to 6 small letters. -/
structure IsDomain (domain : List Char) : Prop where
  chars : ∀ c ∈ domain, isSmall c = true
  two_le : 2 ≤ domain.length
  le_six : domain.length ≤ 6

/-- A host, a point, a domain and a tail. -/
def IsAddress (text : List Char) : Prop :=
  ∃ host domain tail, text = host ++ '.' :: (domain ++ tail) ∧ IsHost host ∧ IsDomain domain ∧
    isTail isPathChar tail = true

/-- What may stand in front of a web link: nothing, or a scheme and one character of the line. -/
def IsFront (front : List Char) : Prop :=
  front = [] ∨ ∃ c ≠ '\n', front = "http://".toList ++ [c] ∨ front = "https://".toList ++ [c]

/-- What may stand in front of an address. -/
def IsWww (www : List Char) : Prop := www = [] ∨ www = "www.".toList

/-! ## Addresses -/

/-- The five lengths that are tried are those of a domain. -/
theorem isDomain_iff {text : List Char} :
    isDomain text = true ↔
      ∃ domain tail, text = domain ++ tail ∧ IsDomain domain ∧ isTail isPathChar tail = true := by
  simp only [isDomain, List.any_eq_true, Bool.and_eq_true, decide_eq_true_eq, List.all_eq_true]
  constructor
  · rintro ⟨n, hn, ⟨hlength, hchars⟩, htail⟩
    have htake : (text.take n).length = n := List.length_take_of_le hlength
    have hbounds : 2 ≤ n ∧ n ≤ 6 := by
      simp only [List.mem_cons, List.not_mem_nil, or_false] at hn
      omega
    refine ⟨text.take n, text.drop n, (List.take_append_drop n text).symm, ⟨hchars, ?_, ?_⟩, htail⟩
    · omega
    · omega
  · rintro ⟨domain, tail, rfl, ⟨hchars, htwo, hsix⟩, htail⟩
    have hn : domain.length ∈ [2, 3, 4, 5, 6] := by
      simp only [List.mem_cons, List.not_mem_nil, or_false]
      omega
    refine ⟨domain.length, hn, ⟨?_, ?_⟩, ?_⟩
    · rw [List.length_append]
      omega
    · rw [List.take_left]
      exact hchars
    · rw [List.drop_left]
      exact htail

/-- The walk over a host, of which `seen` characters are read, tries every point in turn.  By
    induction on the text, with the count of characters read so far: a point where the host may
    end is one case, a character of the host the other, and a point may be both. -/
theorem isHostAfter_iff {seen : Nat} {text : List Char} (hseen : seen ≤ 256) :
    isHostAfter seen text = true ↔
      ∃ host rest, text = host ++ '.' :: rest ∧ (∀ c ∈ host, isHostChar c = true) ∧
        2 ≤ seen + host.length ∧ seen + host.length ≤ 256 ∧ isDomain rest = true := by
  induction text generalizing seen with
  | nil => simp [isHostAfter]
  | cons c text ih =>
    simp only [isHostAfter, Bool.or_eq_true, Bool.and_eq_true, decide_eq_true_eq, beq_iff_eq]
    -- A point may end the host or belong to it, so both ways are followed.
    constructor
    · rintro (⟨⟨htwo, rfl⟩, hdomain⟩ | ⟨⟨hlt, hc⟩, hrest⟩)
      · exact ⟨[], text, rfl, by simp, htwo, hseen, hdomain⟩
      · obtain ⟨host, rest, rfl, hchars, htwo, hmost, hdomain⟩ := (ih (by omega)).1 hrest
        have hlength : seen + (c :: host).length = seen + 1 + host.length := by
          rw [List.length_cons]
          omega
        refine ⟨c :: host, rest, rfl, ?_, by omega, by omega, hdomain⟩
        exact List.forall_mem_cons.2 ⟨hc, hchars⟩
    · rintro ⟨host, rest, htext, hchars, htwo, hmost, hdomain⟩
      cases host with
      | nil =>
        -- The host ends here, at the point.
        rw [List.nil_append, List.cons.injEq] at htext
        obtain ⟨rfl, rfl⟩ := htext
        exact .inl ⟨⟨htwo, rfl⟩, hdomain⟩
      | cons d host =>
        rw [List.cons_append, List.cons.injEq] at htext
        obtain ⟨rfl, rfl⟩ := htext
        obtain ⟨hc, hhost⟩ := List.forall_mem_cons.1 hchars
        rw [List.length_cons] at htwo hmost
        refine .inr ⟨⟨by omega, hc⟩, (ih (by omega)).2 ?_⟩
        exact ⟨host, rest, rfl, hhost, by omega, by omega, hdomain⟩

/-- The walk from the start of a text decides whether it is an address. -/
theorem isHostAfter_zero_iff {text : List Char} :
    isHostAfter 0 text = true ↔ IsAddress text := by
  rw [isHostAfter_iff (Nat.zero_le _)]
  constructor
  · rintro ⟨host, rest, rfl, hchars, htwo, hmost, hdomain⟩
    rw [Nat.zero_add] at htwo hmost
    obtain ⟨domain, tail, rfl, hletters, htail⟩ := isDomain_iff.1 hdomain
    exact ⟨host, domain, tail, rfl, ⟨hchars, htwo, hmost⟩, hletters, htail⟩
  · rintro ⟨host, domain, tail, rfl, ⟨hchars, htwo, hmost⟩, hletters, htail⟩
    refine ⟨host, domain ++ tail, rfl, hchars, ?_, ?_, ?_⟩
    · omega
    · omega
    · exact isDomain_iff.2 ⟨domain, tail, rfl, hletters, htail⟩

/-! ## Web links -/

/-- A front part is cut off exactly if the text begins with it. -/
theorem any_isPrefixOf?_iff {front text : List Char} {p : List Char → Bool} :
    (front.isPrefixOf? text).any p = true ↔ ∃ rest, text = front ++ rest ∧ p rest = true := by
  simp only [Option.any_eq_true, List.isPrefixOf?_eq_some_iff_append_eq]
  constructor
  · rintro ⟨rest, rfl, hrest⟩
    exact ⟨rest, rfl, hrest⟩
  · rintro ⟨rest, rfl, hrest⟩
    exact ⟨rest, rfl, hrest⟩

/-- Without a scheme a web link is an address after an optional `www.`. -/
theorem isSchemeless_iff {text : List Char} :
    isSchemeless text = true ↔ ∃ www rest, text = www ++ rest ∧ IsWww www ∧ IsAddress rest := by
  rw [isSchemeless, Bool.or_eq_true, any_isPrefixOf?_iff, isHostAfter_zero_iff]
  simp only [isHostAfter_zero_iff]
  constructor
  · rintro (h | ⟨rest, rfl, h⟩)
    · exact ⟨[], text, rfl, .inl rfl, h⟩
    · exact ⟨_, rest, rfl, .inr rfl, h⟩
  · rintro ⟨www, rest, rfl, rfl | rfl, h⟩
    · exact .inl h
    · exact .inr ⟨rest, rfl, h⟩

/-- With a scheme one character of the line follows it, whichever it is. -/
theorem isWebWith_iff {scheme text : List Char} :
    isWebWith scheme text = true ↔
      ∃ c rest, text = scheme ++ c :: rest ∧ c ≠ '\n' ∧ isSchemeless rest = true := by
  unfold isWebWith
  constructor
  · intro h
    split at h
    · rename_i c rest hcut
      rw [List.isPrefixOf?_eq_some_iff_append_eq] at hcut
      rw [Bool.and_eq_true, bne_iff_ne] at h
      exact ⟨c, rest, hcut.symm, h.1, h.2⟩
    · cases h
  · rintro ⟨c, rest, rfl, hc, hrest⟩
    have hcut : scheme.isPrefixOf? (scheme ++ c :: rest) = some (c :: rest) :=
      List.isPrefixOf?_eq_some_iff_append_eq.2 rfl
    rw [hcut]
    show (c != '\n' && isSchemeless rest) = true
    rw [Bool.and_eq_true, bne_iff_ne]
    exact ⟨hc, hrest⟩

/-- **A web link is an address after an optional scheme and an optional `www.`.** -/
theorem isWeb_iff {text : List Char} :
    isWeb text = true ↔
      ∃ front www rest, text = front ++ (www ++ rest) ∧ IsFront front ∧ IsWww www ∧
        IsAddress rest := by
  simp only [isWeb, Bool.or_eq_true, isWebWith_iff, isSchemeless_iff]
  constructor
  · rintro ((⟨www, rest, rfl, h⟩ | ⟨c, _, rfl, hc, www, rest, rfl, h⟩) |
      ⟨c, _, rfl, hc, www, rest, rfl, h⟩)
    · -- no scheme, then the two schemes
      exact ⟨[], www, rest, rfl, .inl rfl, h⟩
    · exact ⟨"http://".toList ++ [c], www, rest, by simp, .inr ⟨c, hc, .inl rfl⟩, h⟩
    · exact ⟨"https://".toList ++ [c], www, rest, by simp, .inr ⟨c, hc, .inr rfl⟩, h⟩
  · rintro ⟨_, www, rest, rfl, rfl | ⟨c, hc, rfl | rfl⟩, h⟩
    · exact .inl (.inl ⟨www, rest, rfl, h⟩)
    · exact .inl (.inr ⟨c, www ++ rest, by simp, hc, www, rest, rfl, h⟩)
    · exact .inr ⟨c, www ++ rest, by simp, hc, www, rest, rfl, h⟩

/-! ## Deep links -/

/-- A deep link is its scheme, `://open` and a tail. -/
theorem isDeep_iff {scheme text : List Char} :
    isDeep scheme text = true ↔
      ∃ tail, text = scheme ++ "://open".toList ++ tail ∧ isTail isDeepChar tail = true :=
  any_isPrefixOf?_iff

end GanttChart.Link
