/-
  Numbers written and read.

  A natural is written in digits, possibly with leading zeros, and these digits have its value
  (`value_padded`).  Without leading zeros there is one way to write it: digits that do not begin with
  a zero are those that are written for their value (`ofNat_value`).

  A number of a bounded count of digits is read from the front of a text by taking digits for as long
  as there are any and the bound allows: the digits that were taken are all digits, and the text does
  not go on with another one unless the bound was met (`take?_eq_some_iff`).
-/
import GanttChart.Text.Words
import Mathlib.Algebra.Order.Group.Nat
import Mathlib.Data.List.TakeWhile

namespace GanttChart.Text.Digits

/-! ## Writing -/

/-- A number is written in digits. -/
theorem isDigit_of_mem_ofNat {n : Nat} {c : Char} (h : c ∈ ofNat n) : c.isDigit = true :=
  Nat.isDigit_of_mem_toDigits (by decide) (by decide) h

/-- So is a padded one, as zeros are digits. -/
theorem isDigit_of_mem_padded {width n : Nat} {c : Char} (h : c ∈ padded width n) :
    c.isDigit = true := by
  rcases List.mem_append.1 h with hzero | hdigit
  · rw [(List.mem_replicate.1 hzero).2]
    rfl
  · exact isDigit_of_mem_ofNat hdigit

/-- A padded number is as wide as asked for, or as wide as its digits. -/
theorem length_padded (width n : Nat) : (padded width n).length = max width (ofNat n).length := by
  show (List.replicate (width - (ofNat n).length) '0' ++ ofNat n).length = _
  rw [List.length_append, List.length_replicate]
  omega

/-- Every number has a digit. -/
theorem padded_ne_nil (width n : Nat) : padded width n ≠ [] :=
  List.append_ne_nil_of_right_ne_nil _ Nat.toDigits_ne_nil

/-- A number that fits is written in as many digits as there is room for. -/
theorem length_padded_of_lt {width n : Nat} (hwidth : 0 < width) (h : n < 10 ^ width) :
    (padded width n).length = width := by
  have hle : (ofNat n).length ≤ width := (Nat.length_toDigits_le_iff (by decide) hwidth).2 h
  rw [length_padded, Nat.max_eq_left hle]

/-- Leading zeros do not change the value. -/
@[simp] theorem value_padded (width n : Nat) : value (padded width n) = n := by
  show Nat.ofDigitChars 10 (List.replicate (width - (ofNat n).length) '0' ++ ofNat n) 0 = n
  rw [Nat.ofDigitChars_append, Nat.ofDigitChars_replicate_zero, Nat.mul_zero]
  exact value_ofNat n

/-- Zeros behind digits move them to the left. -/
theorem value_append_zeros (digits : List Char) (count : Nat) :
    value (digits ++ List.replicate count '0') = value digits * 10 ^ count := by
  rw [value, value, Nat.ofDigitChars_append, Nat.ofDigitChars_replicate_zero, Nat.mul_comm]

/-- Only a number that ends with a zero is a multiple of ten. -/
theorem eq_zero_of_ten_dvd_value {digits : List Char} {c : Char} (hc : c.isDigit = true)
    (h : 10 ∣ value (digits ++ [c])) : c = '0' := by
  have hvalue : value (digits ++ [c]) = 10 * value digits + (c.toNat - 48) := by
    rw [value, Nat.ofDigitChars_append, Nat.ofDigitChars_cons, Nat.ofDigitChars_nil]
    rfl
  simp only [Char.isDigit, Bool.and_eq_true, decide_eq_true_eq] at hc
  have hlow : 48 ≤ c.toNat := hc.1
  have hhigh : c.toNat ≤ 57 := hc.2
  have hnat : c.toNat = '0'.toNat := by
    show c.toNat = 48
    omega
  exact Char.toNat_inj.1 hnat

/-! ## No leading zeros -/

/-- A digit is written for a number below ten. -/
theorem exists_digitChar_eq {c : Char} (hc : c.isDigit = true) : ∃ d < 10, c = Nat.digitChar d := by
  obtain ⟨hlow, hhigh⟩ := Char.isDigit_iff_toNat.1 hc
  have hlow : 48 ≤ c.toNat := hlow
  have hhigh : c.toNat ≤ 57 := hhigh
  refine ⟨c.toNat - 48, by omega, Char.toNat_inj.1 ?_⟩
  rw [Nat.toNat_digitChar_of_lt_ten (by omega)]
  omega

/-- Digits behind those of a positive number are the last digits of a longer one. -/
theorem ofNat_ofDigitChars {digits : List Char} (hdigits : ∀ c ∈ digits, c.isDigit = true) {n : Nat}
    (hn : 0 < n) : ofNat (Nat.ofDigitChars 10 digits n) = ofNat n ++ digits := by
  induction digits generalizing n with
  | nil => rw [Nat.ofDigitChars_nil, List.append_nil]
  | cons c digits ih =>
    obtain ⟨d, hd, rfl⟩ := exists_digitChar_eq (hdigits c List.mem_cons_self)
    have hrest : ∀ e ∈ digits, e.isDigit = true := fun e he => hdigits e (List.mem_cons_of_mem _ he)
    have hlonger : ofNat (10 * n + d) = ofNat n ++ [Nat.digitChar d] := by
      have happend := Nat.toDigits_append_toDigits (b := 10) (by decide) hn hd
      rw [Nat.toDigits_of_lt_base hd] at happend
      exact happend.symm
    rw [Nat.ofDigitChars_cons_digitChar_of_lt_ten hd, ih hrest (by omega), hlonger,
      List.append_assoc, List.singleton_append]

/-- **Digits that do not begin with a zero are those of their value.** -/
theorem ofNat_value {digits : List Char} (hdigits : ∀ c ∈ digits, c.isDigit = true)
    (hne : digits ≠ []) (hzero : digits.head? = some '0' → digits = ['0']) :
    ofNat (value digits) = digits := by
  obtain ⟨c, rest, rfl⟩ := List.exists_cons_of_ne_nil hne
  obtain ⟨d, hd, rfl⟩ := exists_digitChar_eq (hdigits c List.mem_cons_self)
  rcases Nat.eq_zero_or_pos d with rfl | hpos
  · rw [hzero rfl]
    rfl
  · have hrest : ∀ e ∈ rest, e.isDigit = true := fun e he => hdigits e (List.mem_cons_of_mem _ he)
    have hvalue : value (Nat.digitChar d :: rest) = Nat.ofDigitChars 10 rest d := by
      rw [value, Nat.ofDigitChars_cons_digitChar_of_lt_ten hd, Nat.mul_zero, Nat.zero_add]
    have hdigit : ofNat d = [Nat.digitChar d] := Nat.toDigits_of_lt_base hd
    rw [hvalue, ofNat_ofDigitChars hrest hpos, hdigit, List.singleton_append]

/-- Only zero is written with a zero in front. -/
theorem eq_zero_of_head?_ofNat {n : Nat} (h : (ofNat n).head? = some '0') : n = 0 := by
  induction n using Nat.strongRecOn with
  | ind n ih =>
    rcases Nat.lt_or_ge n 10 with hlt | hge
    · rw [ofNat, Nat.toDigits_of_lt_base hlt, List.head?_cons, Option.some.injEq] at h
      exact Nat.digitChar_eq_zero.1 h
    · -- the first digit is that of the tenth part
      have hsplit : ofNat n = ofNat (n / 10) ++ [Nat.digitChar (n % 10)] :=
        Nat.toDigits_of_base_le (by decide) hge
      obtain ⟨c, rest, hfront⟩ := List.exists_cons_of_ne_nil (l := ofNat (n / 10)) Nat.toDigits_ne_nil
      have hzero : (ofNat (n / 10)).head? = some '0' := by
        rw [hsplit, hfront] at h
        rw [hfront]
        exact h
      have := ih (n / 10) (by omega) hzero
      omega

/-! ## Reading -/

/-- The text does not go on with a digit. -/
def NoDigit (text : List Char) : Prop := ∀ c, text.head? = some c → c.isDigit = false

/-- At the end of a text there is no digit. -/
theorem noDigit_nil : NoDigit [] := nofun

/-- In front of any other character there is none either. -/
theorem noDigit_cons {c : Char} (h : c.isDigit = false) (text : List Char) :
    NoDigit (c :: text) := by
  intro d hd
  cases hd
  exact h

/-- Where there is no digit none is taken. -/
theorem takeWhile_of_noDigit {text : List Char} (h : NoDigit text) :
    text.takeWhile Char.isDigit = [] := by
  cases text with
  | nil => rfl
  | cons c text => rw [List.takeWhile_cons, h c rfl, if_neg Bool.false_ne_true]

variable {low high n : Nat} {text rest digits : List Char}

/-- What a reader of at most `high` digits takes: all digits that are there, or `high` of them. -/
theorem takeWhile_take_append (hdigits : ∀ c ∈ digits, c.isDigit = true)
    (hlength : digits.length ≤ high) (hend : digits.length = high ∨ NoDigit rest) :
    ((digits ++ rest).take high).takeWhile Char.isDigit = digits := by
  have hrest : (rest.take (high - digits.length)).takeWhile Char.isDigit = [] := by
    rcases hend with hfull | hnone
    · rw [hfull, Nat.sub_self, List.take_zero, List.takeWhile_nil]
    · refine takeWhile_of_noDigit fun c hc => hnone c ?_
      rw [List.head?_take] at hc
      split at hc
      · cases hc
      · exact hc
  rw [List.take_append, List.take_of_length_le hlength, List.takeWhile_append_of_pos hdigits, hrest,
    List.append_nil]

/-- A digit that stands behind those that were taken was past the bound. -/
theorem length_takeWhile_take (h : (text.take high).takeWhile Char.isDigit = digits)
    (htext : text = digits ++ rest) (hlength : digits.length ≤ high) :
    digits.length = high ∨ NoDigit rest := by
  rcases Nat.lt_or_eq_of_le hlength with hlt | heq
  · refine .inr fun c hc => ?_
    obtain ⟨later, rfl⟩ := List.head?_eq_some_iff.1 hc
    cases hdigit : c.isDigit with
    | false => rfl
    | true =>
      have hall : ∀ d ∈ digits ++ [c], d.isDigit = true := by
        intro d hd
        rcases List.mem_append.1 hd with hd | hd
        · rw [← h] at hd
          exact List.mem_takeWhile_imp hd
        · rw [List.mem_singleton.1 hd, hdigit]
      have hmore : (digits ++ [c]).length ≤ high := by
        rw [List.length_append]
        exact hlt
      rw [htext, List.append_cons, List.take_append, List.take_of_length_le hmore,
        List.takeWhile_append_of_pos hall] at h
      have hsize := congrArg List.length h
      simp only [List.length_append, List.length_singleton] at hsize
      omega
  · exact .inl heq

/-- **What is read from the front of a text**: digits within the bounds, as many as there are. -/
theorem take?_eq_some_iff :
    take? low high text = some (n, rest) ↔
      ∃ digits, text = digits ++ rest ∧ n = value digits ∧ (∀ c ∈ digits, c.isDigit = true) ∧
        low ≤ digits.length ∧ digits.length ≤ high ∧ (digits.length = high ∨ NoDigit rest) := by
  unfold take?
  dsimp only
  constructor
  · intro h
    split at h
    · cases h
    · rename_i hlow
      cases h
      have hprefix : (text.take high).takeWhile Char.isDigit <+: text :=
        (List.takeWhile_prefix _).trans (List.take_prefix high text)
      have htext := (List.prefix_iff_eq_append.1 hprefix).symm
      have hlength : ((text.take high).takeWhile Char.isDigit).length ≤ high :=
        Nat.le_trans (List.takeWhile_prefix _).length_le (List.length_take_le high text)
      exact ⟨_, htext, rfl, fun c hc => List.mem_takeWhile_imp hc, Nat.le_of_not_lt hlow, hlength,
        length_takeWhile_take rfl htext hlength⟩
  · rintro ⟨digits, rfl, rfl, hdigits, hlow, hhigh, hend⟩
    rw [takeWhile_take_append hdigits hhigh hend, if_neg (Nat.not_lt.2 hlow), List.drop_left]

end GanttChart.Text.Digits
