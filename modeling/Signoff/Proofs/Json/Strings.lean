import Mathlib.Tactic.SplitIfs
import Signoff.Json.Reader
import Signoff.Json.Writer

/-! # Strings are read back

    A text that is written as a JSON string is read back as it was, whatever follows
    it:

    * `readUnit?_hexText`: the four digits of a UTF-16 unit are read as the unit.
    * `readString?_escapeChar`: every character is read back from its escape. Those
      beyond the first 65536 are written as two units and joined again.
    * `readString?_stringText`: so is the whole text.
    * `stringText_append_inj`: two strings in front of something are the same only if
      their texts are, and what follows them.
-/

namespace Signoff.Json

variable {c : Char} {n fuel : Nat} {done rest : List Char}

/-! ## Units -/

/-- One more digit in front of the last. -/
theorem toDigits_step (h : 16 ≤ n) :
    Nat.toDigits 16 n = Nat.toDigits 16 (n / 16) ++ [Nat.digitChar (n % 16)] :=
  Nat.toDigits_of_base_le (by decide) h

/-- A unit of UTF-16 is written with four digits. -/
theorem hexText_eq (h : n < 0x10000) :
    Text.hexText 4 n = [Nat.digitChar (n / 4096), Nat.digitChar (n / 256 % 16),
      Nat.digitChar (n / 16 % 16), Nat.digitChar (n % 16)] := by
  have hlast {k : Nat} (hk : k < 16) : Nat.toDigits 16 k = [Nat.digitChar k] :=
    Nat.toDigits_of_lt_base hk
  have hzero : '0' = Nat.digitChar 0 := rfl
  have hnext : n / 16 / 16 = n / 256 := Nat.div_div_eq_div_mul ..
  have hfirst : n / 256 / 16 = n / 4096 := Nat.div_div_eq_div_mul ..
  unfold Text.hexText
  rcases Nat.lt_or_ge n 16 with h₁ | h₁
  · rw [hlast h₁, hzero, Nat.mod_eq_of_lt h₁]
    simp [Nat.div_eq_of_lt, show n < 4096 by omega, show n < 256 by omega, h₁]
  rw [toDigits_step h₁]
  rcases Nat.lt_or_ge n 256 with h₂ | h₂
  · rw [hlast (by omega), hzero, Nat.mod_eq_of_lt (show n / 16 < 16 by omega)]
    simp [Nat.div_eq_of_lt, show n < 4096 by omega, h₂]
  rw [toDigits_step (by omega), hnext]
  rcases Nat.lt_or_ge n 4096 with h₃ | h₃
  · rw [hlast (by omega), hzero, Nat.mod_eq_of_lt (show n / 256 < 16 by omega)]
    simp [Nat.div_eq_of_lt, h₃]
  rw [toDigits_step (by omega), hfirst, hlast (by omega)]
  simp

theorem hexDigit?_digitChar : ∀ k < 16, hexDigit? (Nat.digitChar k) = some k := by
  decide

/-- The digits of a unit are read back. -/
theorem readUnit?_hexText (h : n < 0x10000) (rest : List Char) :
    readUnit? (Text.hexText 4 n ++ rest) = some (n, rest) := by
  rw [hexText_eq h]
  simp only [List.cons_append, List.nil_append, readUnit?]
  rw [hexDigit?_digitChar _ (by omega), hexDigit?_digitChar _ (by omega),
    hexDigit?_digitChar _ (by omega), hexDigit?_digitChar _ (by omega)]
  simp only [Option.bind_eq_bind, Option.bind_some, Option.pure_def, Option.some.injEq, Prod.mk.injEq,
    and_true]
  omega

/-- No character is half of a pair. -/
theorem toNat_cases (c : Char) : c.toNat < 0xD800 ∨ 0xDFFF < c.toNat ∧ c.toNat < 0x110000 := c.valid

/-- A unit that is no half of a pair stands for its character. -/
theorem joinUnits_of_small (c : Char) (rest : List Char) : joinUnits c.toNat rest = (c, rest) := by
  have hhigh : ¬ (0xD800 ≤ c.toNat ∧ c.toNat < 0xDC00) := by
    rcases toNat_cases c with h | h <;> omega
  have hlow : ¬ (0xDC00 ≤ c.toNat ∧ c.toNat < 0xE000) := by
    rcases toNat_cases c with h | h <;> omega
  unfold joinUnits
  rw [if_neg hhigh, if_neg hlow, Char.ofNat_toNat]

/-- Two halves of a pair are joined. -/
theorem joinUnits_of_pair {high low : Nat} (hhigh : 0xD800 ≤ high ∧ high < 0xDC00)
    (hlow : 0xDC00 ≤ low ∧ low < 0xE000) (rest : List Char) :
    joinUnits high (unitEscape low ++ rest) =
      (Char.ofNat (0x10000 + (high - 0xD800) * 0x400 + (low - 0xDC00)), rest) := by
  unfold joinUnits
  rw [if_pos hhigh]
  simp only [unitEscape, List.cons_append]
  rw [readUnit?_hexText (by omega)]
  simp only
  rw [if_pos hlow]

/-- The two units of a character beyond the first 65536 are the halves of a pair. -/
theorem exists_pair (h : 0x10000 ≤ c.toNat) :
    ∃ high low, (0xD800 ≤ high ∧ high < 0xDC00) ∧ (0xDC00 ≤ low ∧ low < 0xE000) ∧
      0xD800 + (c.toNat - 0x10000) / 0x400 = high ∧ 0xDC00 + (c.toNat - 0x10000) % 0x400 = low ∧
      0x10000 + (high - 0xD800) * 0x400 + (low - 0xDC00) = c.toNat := by
  have hlt : c.toNat < 0x110000 := by
    rcases toNat_cases c with h | h <;> omega
  exact ⟨_, _, by omega, by omega, rfl, rfl, by omega⟩

/-! ## Characters -/

/-- A unit is read together with what it is joined with. -/
theorem readString?_unitEscape (h : n < 0x10000) (fuel : Nat) (done rest : List Char) :
    readString? (fuel + 1) done (unitEscape n ++ rest) =
      readString? fuel ((joinUnits n rest).1 :: done) (joinUnits n rest).2 := by
  simp only [unitEscape, List.cons_append, readString?, readUnit?_hexText h]

/-- A character is read back from its escape. -/
theorem readString?_escapeChar (c : Char) (fuel : Nat) (done rest : List Char) :
    readString? (fuel + 1) done (escapeChar c ++ rest) = readString? fuel (c :: done) rest := by
  have hcode {n : Nat} (h : c.toNat = n) : c = Char.ofNat n := by
    rw [← h, Char.ofNat_toNat]
  unfold escapeChar
  split_ifs with hquote hslash hline hreturn htab hback hfeed hplain hsmall
  · rw [hquote]
    rfl
  · rw [hslash]
    rfl
  · rw [hline]
    rfl
  · rw [hreturn]
    rfl
  · rw [htab]
    rfl
  · rw [hcode hback]
    rfl
  · rw [hcode hfeed]
    rfl
  · have hlarge : ¬ c.toNat < 32 := by omega
    simp [readString?, hslash, hlarge]
  · rw [readString?_unitEscape hsmall, joinUnits_of_small]
  · obtain ⟨high, low, hhigh, hlow, hhighEq, hlowEq, hsum⟩ := exists_pair (c := c) (by omega)
    simp only [hhighEq, hlowEq]
    rw [List.append_assoc, readString?_unitEscape (by omega), joinUnits_of_pair hhigh hlow, hsum,
      Char.ofNat_toNat]

/-! ## Texts -/

/-- So are several characters, up to the quote behind them. -/
theorem readString?_flatMap (cs : List Char) (done rest : List Char) {fuel : Nat}
    (hfuel : cs.length < fuel) :
    readString? fuel done (cs.flatMap escapeChar ++ '"' :: rest) =
      some (String.ofList (done.reverse ++ cs), rest) := by
  induction cs generalizing done fuel with
  | nil =>
    obtain ⟨fuel, rfl⟩ : ∃ k, fuel = k + 1 := ⟨fuel - 1, by simp at hfuel; omega⟩
    simp [readString?]
  | cons c cs ih =>
    obtain ⟨fuel, rfl⟩ : ∃ k, fuel = k + 1 := ⟨fuel - 1, by simp at hfuel; omega⟩
    rw [List.flatMap_cons, List.append_assoc, readString?_escapeChar,
      ih (c :: done) (by simpa using hfuel)]
    simp

theorem toList_stringText (s : String) :
    (stringText s).toList = '"' :: (s.toList.flatMap escapeChar ++ ['"']) := by
  simp [stringText]

/-- Strings in front of something are the same only if their texts are, and what follows them. -/
theorem stringText_append_inj {s t : String} {r r' : List Char}
    (h : (stringText s).toList ++ r = (stringText t).toList ++ r') : s = t ∧ r = r' := by
  rw [toList_stringText, toList_stringText] at h
  simp only [List.cons_append, List.append_assoc, List.nil_append, List.cons.injEq, true_and] at h
  -- With fuel for both of them, both are read back from the same text.
  have hs : s.toList.length < s.toList.length + t.toList.length + 1 := by omega
  have ht : t.toList.length < s.toList.length + t.toList.length + 1 := by omega
  have hread := readString?_flatMap s.toList [] r hs
  rw [h, readString?_flatMap t.toList [] r' ht] at hread
  simpa using hread.symm

end Signoff.Json
