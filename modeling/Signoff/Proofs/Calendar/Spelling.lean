import Signoff.Calendar.Iso
import Signoff.Proofs.Calendar.Civil
import Mathlib.Tactic.Ring

/-! # How days, times and offsets are spelled

    The texts that are read as a day, as a time of day and as an offset, with what each
    of them means. Reading is sound for the spellings, what is read is spelled that way,
    and complete, what is spelled that way is read:

    * `numeral`: a number with a fixed count of digits.
    * `Day`: a day of a month, or of a week, with and without dashes.
    * `Clock`: an hour, perhaps with minutes and seconds, with and without colons, and
      what may stand behind it (`Tail`).
    * `Offset`: `Z`, or a sign and a clock.
-/

namespace Signoff.Iso

open Text (asciiDigit?)

/-! ## Numerals -/

/-- The last digits of a number, so many of them. -/
def numeral : Nat → Nat → List Char
  | 0, _ => []
  | count + 1, n => Nat.digitChar (n / 10 ^ count % 10) :: numeral count n

theorem asciiDigit?_digitChar : ∀ d < 10, asciiDigit? (Nat.digitChar d) = some d := by decide

theorem isSome_digitChar (n : Nat) : (asciiDigit? (Nat.digitChar (n % 10))).isSome := by
  rw [asciiDigit?_digitChar _ (Nat.mod_lt _ (by decide))]
  rfl

/-- Only the character of a digit is read as it. -/
theorem eq_digitChar {c : Char} {d : Nat} (h : asciiDigit? c = some d) : c = Nat.digitChar d := by
  have hlt := Text.asciiDigit?_lt h
  unfold asciiDigit? at h
  split at h
  · next hc =>
    have hfrom : 48 ≤ c.toNat := hc.1
    have hd : c.toNat = d + 48 := by
      have hsub : c.toNat - 48 = d := Option.some.inj h
      omega
    have hchar : Char.ofNat (d + 48) = c := by rw [← hd, Char.ofNat_toNat]
    have hdigits : ∀ d < 10, Char.ofNat (d + 48) = Nat.digitChar d := by decide
    rw [← hchar, hdigits d hlt]
  · cases h

@[simp] theorem length_numeral (count n : Nat) : (numeral count n).length = count := by
  induction count with
  | zero => rfl
  | succ count ih => rw [numeral, List.length_cons, ih]

/-- Digits in front of the last ones do not matter. -/
theorem numeral_add (count k n : Nat) : numeral count (k * 10 ^ count + n) = numeral count n := by
  induction count generalizing k with
  | zero => rfl
  | succ count ih =>
    have hsplit : k * 10 ^ (count + 1) + n = k * 10 * 10 ^ count + n := by ring
    have hdigit : (k * 10 * 10 ^ count + n) / 10 ^ count % 10 = n / 10 ^ count % 10 := by
      rw [Nat.mul_comm, Nat.mul_add_div (Nat.pow_pos (by decide))]
      omega
    rw [numeral, hsplit, hdigit, ih]
    rfl

/-- A numeral begins with a digit. -/
theorem head?_numeral_ne {c : Char} (hc : asciiDigit? c = none) (count n : Nat) (rest : List Char) :
    (numeral (count + 1) n ++ rest).head? ≠ some c := by
  intro h
  have hdigit := asciiDigit?_digitChar (n / 10 ^ count % 10) (Nat.mod_lt _ (by decide))
  rw [numeral, List.cons_append, List.head?_cons] at h
  rw [Option.some.inj h, hc] at hdigit
  cases hdigit

/-- A numeral is read, whatever stands behind it. -/
theorem digits?_numeral (count value n : Nat) (rest : List Char) :
    digits? count value (numeral count n ++ rest) = some (value * 10 ^ count + n % 10 ^ count, rest) := by
  induction count generalizing value with
  | zero => simp [digits?, numeral, Nat.mod_one]
  | succ count ih =>
    have hdigit := asciiDigit?_digitChar (n / 10 ^ count % 10) (Nat.mod_lt _ (by decide))
    rw [numeral, List.cons_append, digits?, hdigit, Option.bind_some, ih, Nat.mod_pow_succ]
    congr 2
    ring

/-- So the numeral of a number with no more digits gives the number back. -/
theorem digits?_numeral_of_lt {count n : Nat} (h : n < 10 ^ count) (rest : List Char) :
    digits? count 0 (numeral count n ++ rest) = some (n, rest) := by
  rw [digits?_numeral, Nat.mod_eq_of_lt h, Nat.zero_mul, Nat.zero_add]

/-- What is read as digits is a numeral. -/
theorem exists_numeral {count value result : Nat} {cs rest : List Char}
    (h : digits? count value cs = some (result, rest)) :
    ∃ n < 10 ^ count, result = value * 10 ^ count + n ∧ cs = numeral count n ++ rest := by
  induction count generalizing value cs with
  | zero =>
    cases h
    exact ⟨0, Nat.one_pos, by simp, rfl⟩
  | succ count ih =>
    cases cs with
    | nil => cases h
    | cons c cs =>
      rw [digits?] at h
      obtain ⟨d, hd, h⟩ := Option.bind_eq_some_iff.mp h
      obtain ⟨n, hn, rfl, rfl⟩ := ih h
      have hlt := Text.asciiDigit?_lt hd
      have hdigit : (d * 10 ^ count + n) / 10 ^ count % 10 = d := by
        rw [Nat.mul_comm, Nat.mul_add_div (Nat.pow_pos (by decide)), Nat.div_eq_of_lt hn]
        omega
      refine ⟨d * 10 ^ count + n, ?_, by ring, ?_⟩
      · calc d * 10 ^ count + n < d * 10 ^ count + 10 ^ count := Nat.add_lt_add_left hn _
          _ = (d + 1) * 10 ^ count := by ring
          _ ≤ 10 * 10 ^ count := Nat.mul_le_mul_right _ hlt
          _ = 10 ^ (count + 1) := by ring
      · rw [numeral, hdigit, numeral_add, ← eq_digitChar hd]
        rfl

/-! ## Days -/

/-- A day: by year, month and day, or by year, week and weekday, which is a Monday if it is not given. The
    parts may be put together with dashes. -/
inductive Day where
  | ofMonth (dashed : Bool) (year month day : Nat)
  | ofWeek (dashed : Bool) (year week : Nat)
  | ofWeekday (dashed : Bool) (year week weekday : Nat)

/-- A dash, if there are dashes. -/
def dash (dashed : Bool) : List Char := if dashed then ['-'] else []

namespace Day

/-- How the day is spelled. -/
def text : Day → List Char
  | ofMonth dashed year month day =>
    numeral 4 year ++ (dash dashed ++ (numeral 2 month ++ (dash dashed ++ numeral 2 day)))
  | ofWeek dashed year week => numeral 4 year ++ (dash dashed ++ 'W' :: numeral 2 week)
  | ofWeekday dashed year week weekday =>
    numeral 4 year ++ (dash dashed ++ 'W' :: (numeral 2 week ++ (dash dashed ++ numeral 1 weekday)))

/-- Which day it is. -/
def Denotes : Day → Date → Prop
  | ofMonth _ year month day, d =>
    (WallClock.mk year month day 0 0 0 0).IsValid ∧ d.number = (WallClock.mk year month day 0 0 0 0).days
  | ofWeek _ year week, d =>
    d.number < Date.dayCount ∧ (1 ≤ year ∧ year ≤ 9999) ∧ d.InWeek year week 1
  | ofWeekday _ year week weekday, d =>
    d.number < Date.dayCount ∧ (1 ≤ year ∧ year ≤ 9999) ∧ d.InWeek year week weekday

end Day

section Reading

variable {year : Nat} {dashed : Bool} {rest : List Char}

/-- What stands behind the year of a day of a month. -/
theorem date?_ofMonth (hyear : year < 10 ^ 4) (hrest : dashed = false → rest.head? ≠ some '-')
    (hmonth : rest.head? ≠ some 'W') :
    date? (numeral 4 year ++ (dash dashed ++ rest)) = (do
      let (month, rest) ← digits? 2 0 rest
      if dashed && rest.head? != some '-' then none
      else
        let (day, after) ← digits? 2 0 (if dashed then rest.drop 1 else rest)
        if after.isEmpty then Date.ofCivil? year month day else none) := by
  unfold date? dash
  rw [digits?_numeral_of_lt hyear]
  cases dashed with
  | true => simp [hmonth]
  | false => simp [hrest rfl, hmonth]

/-- What stands behind the year of a day of a week. -/
theorem date?_ofWeek (hyear : year < 10 ^ 4) :
    date? (numeral 4 year ++ (dash dashed ++ 'W' :: rest)) = (do
      let (week, rest) ← digits? 2 0 rest
      match rest with
      | [] => Date.ofWeek? year week 1
      | c :: more =>
        if dashed && c != '-' then none
        else
          let (weekday, after) ← digits? 1 0 (if dashed then more else rest)
          if after.isEmpty then Date.ofWeek? year week weekday else none) := by
  unfold date? dash
  rw [digits?_numeral_of_lt hyear]
  cases dashed with
  | true => rfl
  | false => rfl

end Reading

theorem digits?_last {count n : Nat} (h : n < 10 ^ count) : digits? count 0 (numeral count n) = some (n, []) := by
  rw [← List.append_nil (numeral count n), digits?_numeral_of_lt h]

/-- What is spelled as a day is read as it. -/
theorem date?_text {x : Day} {d : Date} (h : x.Denotes d) : date? x.text = some d := by
  cases x with
  | ofMonth dashed year month day =>
    obtain ⟨hvalid, hnumber⟩ := h
    have hfound := Date.ofCivil?_eq_some_iff.mpr ⟨hvalid, hnumber⟩
    obtain ⟨hyears, hmonths, hdays, -⟩ := hvalid
    have hdays := hdays.2.trans (Date.daysInMonth_le _ _)
    have hyear : year < 10 ^ 4 := Nat.lt_succ_of_le hyears.2
    have hmonth : month < 10 ^ 2 := lt_of_le_of_lt hmonths.2 (by decide)
    have hday : day < 10 ^ 2 := lt_of_le_of_lt hdays (by decide)
    have hdash : asciiDigit? '-' = none := by decide
    have hletter : asciiDigit? 'W' = none := by decide
    unfold Day.text
    rw [date?_ofMonth hyear (fun _ => head?_numeral_ne hdash 1 _ _) (head?_numeral_ne hletter 1 _ _),
      digits?_numeral_of_lt hmonth]
    cases dashed with
    | true => simp [dash, digits?_last hday, hfound]
    | false => simp [dash, digits?_last hday, hfound]
  | ofWeek dashed year week =>
    obtain ⟨hd, hyears, hweek⟩ := h
    have hfound := Date.ofWeek?_eq_some_iff.mpr ⟨hd, hyears, hweek⟩
    have hyear : year < 10 ^ 4 := Nat.lt_succ_of_le hyears.2
    have hweek : week < 10 ^ 2 := lt_of_le_of_lt (hweek.le hd hyears).1 (by decide)
    unfold Day.text
    rw [date?_ofWeek hyear, digits?_last hweek]
    exact hfound
  | ofWeekday dashed year week weekday =>
    obtain ⟨hd, hyears, hweek⟩ := h
    have hfound := Date.ofWeek?_eq_some_iff.mpr ⟨hd, hyears, hweek⟩
    have hyear : year < 10 ^ 4 := Nat.lt_succ_of_le hyears.2
    have hweekday : weekday < 10 ^ 1 := lt_of_le_of_lt (hweek.le hd hyears).2 (by decide)
    have hweek : week < 10 ^ 2 := lt_of_le_of_lt (hweek.le hd hyears).1 (by decide)
    unfold Day.text
    rw [date?_ofWeek hyear, digits?_numeral_of_lt hweek]
    cases dashed with
    | true => simp [dash, digits?_last hweekday, hfound]
    | false =>
      have hlast := digits?_last hweekday
      rw [numeral] at hlast
      simp [dash, numeral] at hlast ⊢
      simp [hlast, hfound]

/-- Behind a year there is a dash, or not, and the rest. -/
theorem exists_dash (cs : List Char) :
    ∃ dashed rest, cs = dash dashed ++ rest ∧ (dashed = false → rest.head? ≠ some '-') := by
  by_cases hdash : cs.head? = some '-'
  · obtain ⟨rest, rfl⟩ := List.head?_eq_some_iff.mp hdash
    exact ⟨true, rest, rfl, nofun⟩
  · exact ⟨false, cs, rfl, fun _ => hdash⟩

/-- What is read as a day is spelled as it. -/
theorem exists_day {cs : List Char} {d : Date} (h : date? cs = some d) :
    ∃ x : Day, x.Denotes d ∧ x.text = cs := by
  obtain ⟨⟨year, behind⟩, hread, -⟩ := Option.bind_eq_some_iff.mp (show (digits? 4 0 cs).bind _ = some d from h)
  obtain ⟨year', hyear, hvalue, rfl⟩ := exists_numeral hread
  obtain rfl : year = year' := by omega
  obtain ⟨dashed, rest, rfl, hrest⟩ := exists_dash behind
  by_cases hletter : rest.head? = some 'W'
  · obtain ⟨rest, rfl⟩ := List.head?_eq_some_iff.mp hletter
    rw [date?_ofWeek hyear] at h
    obtain ⟨⟨week, behind⟩, hread, hweek⟩ := Option.bind_eq_some_iff.mp h
    clear h
    obtain ⟨week', hlt, hvalue, rfl⟩ := exists_numeral hread
    obtain rfl : week = week' := by omega
    cases behind with
    | nil =>
      refine ⟨.ofWeek dashed year week, Date.ofWeek?_eq_some_iff.mp hweek, ?_⟩
      rw [Day.text, List.append_nil]
    | cons c more =>
      simp only at hweek
      split at hweek
      · cases hweek
      · next hmark =>
        obtain ⟨⟨weekday, after⟩, hread, hend⟩ := Option.bind_eq_some_iff.mp hweek
        obtain ⟨weekday', hlt, hvalue, hmore⟩ := exists_numeral hread
        obtain rfl : weekday = weekday' := by omega
        simp only [List.isEmpty_iff] at hend
        split at hend
        · next hafter =>
          refine ⟨.ofWeekday dashed year week weekday, Date.ofWeek?_eq_some_iff.mp hend, ?_⟩
          rw [hafter, List.append_nil] at hmore
          rw [Day.text, ← hmore]
          cases dashed with
          | true =>
            have hc : c = '-' := by simpa using hmark
            rw [hc]
            rfl
          | false => rfl
        · cases hend
  · rw [date?_ofMonth hyear hrest hletter] at h
    obtain ⟨⟨month, behind⟩, hread, hmonth⟩ := Option.bind_eq_some_iff.mp h
    clear h
    obtain ⟨month', hlt, hvalue, rfl⟩ := exists_numeral hread
    obtain rfl : month = month' := by omega
    simp only at hmonth
    split at hmonth
    · cases hmonth
    · next hmark =>
      obtain ⟨⟨day, after⟩, hread, hend⟩ := Option.bind_eq_some_iff.mp hmonth
      obtain ⟨day', hlt, hvalue, hmore⟩ := exists_numeral hread
      obtain rfl : day = day' := by omega
      simp only [List.isEmpty_iff] at hend
      split at hend
      · next hafter =>
        refine ⟨.ofMonth dashed year month day, Date.ofCivil?_eq_some_iff.mp hend, ?_⟩
        rw [hafter, List.append_nil] at hmore
        rw [Day.text, ← hmore]
        cases dashed with
        | true =>
          have hhead : behind.head? = some '-' := by simpa using hmark
          obtain ⟨behind, rfl⟩ := List.head?_eq_some_iff.mp hhead
          rfl
        | false => rfl
      · cases hend

/-! ## Clocks -/

/-- The characters without the digits in front. -/
def pastDigits (cs : List Char) : List Char := cs.dropWhile fun c => (asciiDigit? c).isSome

/-- What stands behind the parts of a clock. -/
inductive Tail where
  | nothing
  /-- One character that says nothing. -/
  | stray (c : Char)
  /-- Digits of a second behind a mark. Behind six of them there may be more. -/
  | fraction (mark : List Char) (count value : Nat) (more : List Char)

namespace Tail

/-- How the tail is spelled. -/
def text : Tail → List Char
  | nothing => []
  | stray c => [c]
  | fraction mark count value more => mark ++ (numeral count value ++ more)

/-- The microseconds. -/
def micro : Tail → Nat
  | fraction _ count value _ => value * 10 ^ (6 - count)
  | _ => 0

/-- Such a tail can be read, behind one of the marks. -/
def IsSpelled (marks : List (List Char)) : Tail → Prop
  | nothing => True
  | stray c => c.toNat < 128
  | fraction mark count value more =>
    mark ∈ marks ∧ (1 ≤ count ∧ count ≤ 6) ∧ value < 10 ^ count ∧ (count < 6 → more = []) ∧
      (mark = [] → 2 ≤ count + more.length)

/-- Nothing is left that counts: the text may end here. -/
def Ends : Tail → Prop
  | nothing => True
  | stray c => isLeft [c] = false
  | fraction _ _ _ more => isLeft (pastDigits more) = false

/-- The time with the tail. -/
def finish (follow : List Char) (time : Time) : Tail → Time
  | nothing => { time with rest := !follow.isEmpty }
  | stray c => { time with rest := isLeft [c] }
  | fraction _ count value more =>
    { time with micro := value * 10 ^ (6 - count), rest := isLeft (pastDigits more) }

end Tail

/-- A colon, if there are colons. -/
def colon (colons : Bool) : List Char := if colons then [':'] else []

/-- What may stand between the parts of a clock and a fraction: a point or a comma, and behind the last
    part also what stands between the parts. -/
def marks (isLast colons : Bool) : List (List Char) :=
  if isLast then [['.'], [','], colon colons] else [['.'], [',']]

/-- A fraction is read. -/
theorem fraction?_text {count value : Nat} {more : List Char} (hcount : 1 ≤ count ∧ count ≤ 6)
    (hvalue : value < 10 ^ count) (hmore : count < 6 → more = []) (time : Time) :
    fraction? time (numeral count value ++ more) =
      some { time with micro := value * 10 ^ (6 - count), rest := isLeft (pastDigits more) } := by
  have hlength : min 6 (numeral count value ++ more).length = count := by
    rw [List.length_append, length_numeral]
    by_cases hsix : count < 6
    · rw [hmore hsix]
      simp only [List.length_nil]
      omega
    · omega
  unfold fraction?
  simp only
  rw [hlength, digits?_numeral_of_lt hvalue]
  rfl

/-- What is read as a fraction is one. -/
theorem exists_fraction {cs : List Char} {time t : Time} (hcs : cs ≠ []) (h : fraction? time cs = some t) :
    ∃ count value more, (1 ≤ count ∧ count ≤ 6) ∧ value < 10 ^ count ∧ (count < 6 → more = []) ∧
      cs = numeral count value ++ more ∧
      t = { time with micro := value * 10 ^ (6 - count), rest := isLeft (pastDigits more) } := by
  unfold fraction? at h
  obtain ⟨⟨value, more⟩, hread, ht⟩ := Option.bind_eq_some_iff.mp h
  obtain ⟨value', hlt, hvalue, htext⟩ := exists_numeral hread
  obtain rfl : value = value' := by omega
  have hpos : 0 < cs.length := List.length_pos_iff.mpr hcs
  refine ⟨min 6 cs.length, value, more, by omega, hlt, ?_, htext, (Option.some.inj ht).symm⟩
  intro hshort
  -- All characters are digits that were read.
  have hlength := congrArg List.length htext
  rw [List.length_append, length_numeral] at hlength
  exact List.length_eq_zero_iff.mp (by omega)

/-- What is read as a fraction behind a mark is a tail. -/
theorem exists_tail (follow : List Char) {cs mark : List Char} {all : List (List Char)} {time t : Time}
    (hmark : mark ∈ all) (hlong : 2 ≤ (mark ++ cs).length) (hcs : cs ≠ [])
    (h : fraction? time cs = some t) :
    ∃ tail : Tail, tail.IsSpelled all ∧ mark ++ cs = tail.text ∧ t = tail.finish follow time := by
  obtain ⟨count, value, more, hcount, hvalue, hmore, rfl, rfl⟩ := exists_fraction hcs h
  refine ⟨.fraction mark count value more, ⟨hmark, hcount, hvalue, hmore, ?_⟩, rfl, rfl⟩
  intro hnone
  rw [hnone, List.nil_append, List.length_append, length_numeral] at hlong
  exact hlong

/-- A digit is none of the characters that stand between digits. -/
theorem ne_of_digit {c : Char} (h : (asciiDigit? c).isSome) : c ≠ ':' ∧ c ≠ '.' ∧ c ≠ ',' := by
  refine ⟨?_, ?_, ?_⟩
  · rintro rfl
    exact absurd h (by decide)
  · rintro rfl
    exact absurd h (by decide)
  · rintro rfl
    exact absurd h (by decide)

/-- A numeral begins with a digit. -/
theorem exists_digit {count : Nat} (h : 1 ≤ count) (n : Nat) :
    ∃ c cs, numeral count n = c :: cs ∧ (asciiDigit? c).isSome := by
  obtain ⟨k, rfl⟩ : ∃ k, count = k + 1 := ⟨count - 1, by omega⟩
  exact ⟨_, _, rfl, isSome_digitChar _⟩

section Parts

variable {follow : List Char} {colons : Bool} {left place n : Nat} {time t : Time}

/-- Behind a point or a comma there is a fraction. -/
theorem parts?_point (hn : n < 10 ^ 2) {c d : Char} {ds : List Char} (hc : c = '.' ∨ c = ',') :
    parts? follow colons (left + 1) place time (numeral 2 n ++ c :: d :: ds) =
      fraction? (time.put place n) (d :: ds) := by
  have hcolon : (c == ':') = false := by
    rcases hc with rfl | rfl
    · rfl
    · rfl
  rw [parts?, digits?_numeral_of_lt hn]
  simp only [Option.bind_eq_bind, Option.bind_some, hcolon, Bool.and_false, Bool.false_eq_true, ↓reduceIte,
    if_pos hc]

/-- Behind a colon there is the next part, if there are colons. -/
theorem parts?_colon (hn : n < 10 ^ 2) (hcolons : place ≠ 0 → colons = true) {d : Char} {ds : List Char} :
    parts? follow colons (left + 1) place time (numeral 2 n ++ ':' :: d :: ds) =
      parts? follow true left (place + 1) (time.put place n) (d :: ds) := by
  have hyes : (if place = 0 then true else colons) = true := by
    split
    · rfl
    · next hplace => exact hcolons hplace
  rw [parts?, digits?_numeral_of_lt hn]
  simp only [Option.bind_eq_bind, Option.bind_some, BEq.rfl, hyes, Bool.and_self, ↓reduceIte]

/-- Where there are none, it follows at once. -/
theorem parts?_digit (hn : n < 10 ^ 2) (hcolons : place ≠ 0 → colons = false) {c d : Char}
    {ds : List Char} (hc : (asciiDigit? c).isSome) :
    parts? follow colons (left + 1) place time (numeral 2 n ++ c :: d :: ds) =
      parts? follow false left (place + 1) (time.put place n) (c :: d :: ds) := by
  obtain ⟨hcolon, hpoint, hcomma⟩ := ne_of_digit hc
  have hno : (if place = 0 then c == ':' else colons) = false := by
    split
    · exact beq_false_of_ne hcolon
    · next hplace => exact hcolons hplace
  have hmark : ¬ (c = '.' ∨ c = ',') := not_or.mpr ⟨hpoint, hcomma⟩
  rw [parts?, digits?_numeral_of_lt hn]
  simp only [Option.bind_eq_bind, Option.bind_some, hno, Bool.false_and, Bool.false_eq_true, ↓reduceIte,
    if_neg hmark, Bool.not_false]

/-- The last part of a clock is read with its tail. -/
theorem parts?_tail (hn : n < 10 ^ 2) (hplace : left = 0 → place ≠ 0) {tail : Tail}
    (h : tail.IsSpelled (marks (left == 0) colons)) :
    parts? follow colons (left + 1) place time (numeral 2 n ++ tail.text) =
      some (tail.finish follow (time.put place n)) := by
  cases tail with
  | nothing =>
    rw [parts?, digits?_numeral_of_lt hn]
    rfl
  | stray c =>
    have hc : c.toNat < 128 := h
    rw [parts?, digits?_numeral_of_lt hn]
    simp only [Tail.text, Option.bind_eq_bind, Option.bind_some, hc, ↓reduceIte]
    rfl
  | fraction mark count value more =>
    obtain ⟨hmark, hcount, hvalue, hmore, hlong⟩ := h
    have hfraction := fraction?_text hcount hvalue hmore (time.put place n)
    obtain ⟨d, ds, hds, hdigit⟩ := exists_digit hcount.1 value
    have hpoint (c : Char) (hc : c = '.' ∨ c = ',') (hmark : mark = [c]) :
        parts? follow colons (left + 1) place time (numeral 2 n ++ (mark ++ (numeral count value ++ more))) =
          some ((Tail.fraction mark count value more).finish follow (time.put place n)) := by
      rw [hmark, hds]
      show parts? _ _ _ _ _ (numeral 2 n ++ c :: d :: (ds ++ more)) = _
      rw [parts?_point hn hc, ← List.cons_append, ← hds, hfraction]
      rfl
    show parts? _ _ _ _ _ (numeral 2 n ++ (mark ++ (numeral count value ++ more))) = _
    unfold marks at hmark
    by_cases hleft : left = 0
    · subst hleft
      simp only [BEq.rfl, ↓reduceIte, List.mem_cons, List.not_mem_nil, or_false] at hmark
      rcases hmark with hmark | hmark | hmark
      · exact hpoint '.' (.inl rfl) hmark
      · exact hpoint ',' (.inr rfl) hmark
      · -- The fraction stands like one more part.
        cases colons with
        | true =>
          rw [hmark, hds]
          show parts? _ _ _ _ _ (numeral 2 n ++ ':' :: d :: (ds ++ more)) = _
          rw [parts?_colon hn fun _ => rfl, ← List.cons_append, ← hds]
          exact hfraction
        | false =>
          have hlong : 2 ≤ (numeral count value ++ more).length := by
            rw [List.length_append, length_numeral]
            exact hlong hmark
          rw [hds] at hlong
          obtain ⟨d', ds', hds'⟩ : ∃ d' ds', ds ++ more = d' :: ds' :=
            List.exists_cons_of_ne_nil (List.ne_nil_of_length_pos (Nat.lt_of_succ_lt_succ hlong))
          rw [hmark, hds]
          show parts? _ _ _ _ _ (numeral 2 n ++ d :: (ds ++ more)) = _
          rw [hds', parts?_digit hn (fun _ => rfl) hdigit, ← hds', ← List.cons_append, ← hds]
          exact hfraction
    · have hlast : (left == 0) = false := beq_false_of_ne hleft
      rw [hlast] at hmark
      simp only [Bool.false_eq_true, ↓reduceIte, List.mem_cons, List.not_mem_nil, or_false] at hmark
      rcases hmark with hmark | hmark
      · exact hpoint '.' (.inl rfl) hmark
      · exact hpoint ',' (.inr rfl) hmark

/-- A part in front of another one is read. -/
theorem parts?_next (hn : n < 10 ^ 2) {style : Bool} (hstyle : place ≠ 0 → colons = style) {m : Nat}
    {rest : List Char} :
    parts? follow colons (left + 1) place time (numeral 2 n ++ (colon style ++ (numeral 2 m ++ rest))) =
      parts? follow style left (place + 1) (time.put place n) (numeral 2 m ++ rest) := by
  obtain ⟨c, cs, hcs, hdigit⟩ := exists_digit (by decide : 1 ≤ 2) m
  have hlength := congrArg List.length hcs
  rw [length_numeral] at hlength
  obtain ⟨d, ds, rfl⟩ : ∃ d ds, cs = d :: ds :=
    List.exists_cons_of_ne_nil (List.ne_nil_of_length_pos (by simp only [List.length_cons] at hlength; omega))
  rw [hcs]
  cases style with
  | true => exact parts?_colon hn hstyle
  | false => exact parts?_digit hn hstyle hdigit

/-- What is read as a part of a clock is the last one with its tail, or stands in front of another one. -/
theorem exists_part {cs : List Char} (hplace : left = 0 → place ≠ 0)
    (h : parts? follow colons (left + 1) place time cs = some t) :
    ∃ n < 10 ^ 2,
      (∃ tail : Tail, tail.IsSpelled (marks (left == 0) colons) ∧ cs = numeral 2 n ++ tail.text ∧
        t = tail.finish follow (time.put place n)) ∨
      0 < left ∧ ∃ style rest, (place ≠ 0 → colons = style) ∧ cs = numeral 2 n ++ (colon style ++ rest) ∧
        parts? follow style left (place + 1) (time.put place n) rest = some t := by
  rw [parts?] at h
  obtain ⟨⟨n, rest⟩, hread, hrest⟩ := Option.bind_eq_some_iff.mp h
  clear h
  obtain ⟨n', hn, hvalue, rfl⟩ := exists_numeral hread
  obtain rfl : n = n' := by omega
  refine ⟨n, hn, ?_⟩
  clear hread hvalue
  match rest, hrest with
  | [], hrest => exact .inl ⟨.nothing, trivial, rfl, (Option.some.inj hrest).symm⟩
  | [c], hrest =>
    simp only at hrest
    split at hrest
    · next hc => exact .inl ⟨.stray c, hc, rfl, (Option.some.inj hrest).symm⟩
    · cases hrest
  | c :: d :: ds, hrest =>
    simp only at hrest
    obtain ⟨style, hstyle⟩ : ∃ style, style = if place = 0 then c == ':' else colons := ⟨_, rfl⟩
    have hsame (hplace : place ≠ 0) : colons = style := by rw [hstyle, if_neg hplace]
    rw [← hstyle] at hrest
    clear hstyle
    -- Behind the last part a fraction may stand like one more part.
    have hlast (hzero : left = 0) : colon style ∈ marks (left == 0) colons := by
      rw [hsame (hplace hzero), hzero]
      simp [marks]
    split at hrest
    · next hcolon =>
      obtain ⟨rfl, hc⟩ := Bool.and_eq_true_iff.mp hcolon
      obtain rfl := beq_iff_eq.mp hc
      by_cases hzero : left = 0
      · subst hzero
        obtain ⟨tail, htail, htext, rfl⟩ :=
          exists_tail follow (hlast rfl) (by simp [colon]) (List.cons_ne_nil d ds) hrest
        exact .inl ⟨tail, htail, by rw [← htext]; rfl, rfl⟩
      · exact .inr ⟨Nat.pos_of_ne_zero hzero, true, d :: ds, hsame, rfl, hrest⟩
    · split at hrest
      · next hpoint =>
        have hmark : [c] ∈ marks (left == 0) colons := by
          unfold marks
          rcases hpoint with rfl | rfl
          · split
            · simp
            · simp
          · split
            · simp
            · simp
        obtain ⟨tail, htail, htext, rfl⟩ :=
          exists_tail follow hmark (by simp) (List.cons_ne_nil d ds) hrest
        exact .inl ⟨tail, htail, by rw [← htext]; rfl, rfl⟩
      · split at hrest
        · next hno =>
          obtain rfl : style = false := by simpa using hno
          by_cases hzero : left = 0
          · subst hzero
            obtain ⟨tail, htail, htext, rfl⟩ :=
              exists_tail follow (hlast rfl) (by simp [colon]) (List.cons_ne_nil c (d :: ds)) hrest
            exact .inl ⟨tail, htail, by rw [← htext]; rfl, rfl⟩
          · exact .inr ⟨Nat.pos_of_ne_zero hzero, false, c :: d :: ds, hsame, rfl, hrest⟩
        · cases hrest

end Parts

/-- A clock: an hour, perhaps with minutes and seconds, and what stands behind them. The parts may be put
    together with colons. -/
inductive Clock where
  | ofHour (hour : Nat) (tail : Tail)
  | ofMinute (colons : Bool) (hour minute : Nat) (tail : Tail)
  | ofSecond (colons : Bool) (hour minute second : Nat) (tail : Tail)

namespace Clock

def tail : Clock → Tail
  | ofHour _ tail | ofMinute _ _ _ tail | ofSecond _ _ _ _ tail => tail

/-- How the clock is spelled. -/
def text : Clock → List Char
  | ofHour hour tail => numeral 2 hour ++ tail.text
  | ofMinute colons hour minute tail => numeral 2 hour ++ (colon colons ++ (numeral 2 minute ++ tail.text))
  | ofSecond colons hour minute second tail =>
    numeral 2 hour ++ (colon colons ++ (numeral 2 minute ++ (colon colons ++ (numeral 2 second ++ tail.text))))

def hour : Clock → Nat
  | ofHour hour _ | ofMinute _ hour _ _ | ofSecond _ hour _ _ _ => hour

def minute : Clock → Nat
  | ofHour _ _ => 0
  | ofMinute _ _ minute _ | ofSecond _ _ minute _ _ => minute

def second : Clock → Nat
  | ofHour _ _ | ofMinute _ _ _ _ => 0
  | ofSecond _ _ _ second _ => second

/-- The microseconds of the clock. -/
def micros (c : Clock) : Nat := ((c.hour * 60 + c.minute) * 60 + c.second) * 1000000 + c.tail.micro

/-- Such a clock can be read. -/
def IsSpelled : Clock → Prop
  | ofHour hour tail => hour < 10 ^ 2 ∧ tail.IsSpelled (marks false false)
  | ofMinute colons hour minute tail =>
    hour < 10 ^ 2 ∧ minute < 10 ^ 2 ∧ tail.IsSpelled (marks false colons)
  | ofSecond colons hour minute second tail =>
    hour < 10 ^ 2 ∧ minute < 10 ^ 2 ∧ second < 10 ^ 2 ∧ tail.IsSpelled (marks true colons)

/-- What is read. -/
def time (follow : List Char) (c : Clock) : Time :=
  c.tail.finish follow { hour := c.hour, minute := c.minute, second := c.second }

end Clock

/-- What is spelled as a clock is read as it. -/
theorem time?_text {c : Clock} (h : c.IsSpelled) (follow : List Char) :
    time? c.text follow = some (c.time follow) := by
  unfold time? Clock.text
  cases c with
  | ofHour hour tail =>
    obtain ⟨hhour, htail⟩ := h
    exact parts?_tail hhour (by decide) htail
  | ofMinute colons hour minute tail =>
    obtain ⟨hhour, hminute, htail⟩ := h
    show parts? follow true 3 0 {} _ = _
    rw [parts?_next hhour fun hplace => absurd rfl hplace]
    exact parts?_tail hminute (by decide) htail
  | ofSecond colons hour minute second tail =>
    obtain ⟨hhour, hminute, hsecond, htail⟩ := h
    show parts? follow true 3 0 {} _ = _
    rw [parts?_next hhour fun hplace => absurd rfl hplace, parts?_next hminute fun _ => rfl]
    exact parts?_tail hsecond (by decide) htail

/-- What is read as a clock is spelled as it. -/
theorem exists_clock {cs follow : List Char} {t : Time} (h : time? cs follow = some t) :
    ∃ c : Clock, c.IsSpelled ∧ c.text = cs ∧ t = c.time follow := by
  unfold time? at h
  obtain ⟨hour, hhour, ⟨tail, htail, rfl, rfl⟩ | ⟨-, style, rest, -, rfl, hrest⟩⟩ :=
    exists_part (by decide) h
  · exact ⟨.ofHour hour tail, ⟨hhour, htail⟩, rfl, rfl⟩
  · clear h
    obtain ⟨minute, hminute, ⟨tail, htail, rfl, rfl⟩ | ⟨-, style', rest, hstyle, rfl, hlast⟩⟩ :=
      exists_part (by decide) hrest
    · exact ⟨.ofMinute style hour minute tail, ⟨hhour, hminute, htail⟩, rfl, rfl⟩
    · obtain rfl := hstyle (by decide)
      clear hrest
      obtain ⟨second, hsecond, ⟨tail, htail, rfl, rfl⟩ | ⟨hleft, -⟩⟩ := exists_part (by decide) hlast
      · exact ⟨.ofSecond style hour minute second tail, ⟨hhour, hminute, hsecond, htail⟩, rfl, rfl⟩
      · cases hleft

namespace Clock

variable {c : Clock}

theorem micro_time (c : Clock) (follow : List Char) : (c.time follow).micro = c.tail.micro := by
  unfold time
  cases c.tail with
  | nothing | stray | fraction => rfl

theorem hour_time (c : Clock) (follow : List Char) : (c.time follow).hour = c.hour := by
  unfold time
  cases c.tail with
  | nothing | stray | fraction => rfl

theorem minute_time (c : Clock) (follow : List Char) : (c.time follow).minute = c.minute := by
  unfold time
  cases c.tail with
  | nothing | stray | fraction => rfl

theorem second_time (c : Clock) (follow : List Char) : (c.time follow).second = c.second := by
  unfold time
  cases c.tail with
  | nothing | stray | fraction => rfl

/-- At the end of a text something is left if the clock does not end there. -/
theorem rest_time (c : Clock) : (c.time []).rest = false ↔ c.tail.Ends := by
  unfold time
  cases c.tail with
  | nothing => exact ⟨fun _ => trivial, fun _ => rfl⟩
  | stray | fraction => exact Iff.rfl

/-- A fraction stays below the second. -/
theorem IsSpelled.micro_lt (h : c.IsSpelled) : c.tail.micro < 1000000 := by
  obtain ⟨all, htail⟩ : ∃ all, c.tail.IsSpelled all := by
    cases c with
    | ofHour hour tail => exact ⟨_, h.2⟩
    | ofMinute colons hour minute tail => exact ⟨_, h.2.2⟩
    | ofSecond colons hour minute second tail => exact ⟨_, h.2.2.2⟩
  revert htail
  cases c.tail with
  | nothing | stray => exact fun _ => Nat.zero_lt_succ _
  | fraction mark count value more =>
    rintro ⟨-, ⟨-, hcount⟩, hvalue, -⟩
    calc value * 10 ^ (6 - count) < 10 ^ count * 10 ^ (6 - count) :=
          Nat.mul_lt_mul_of_pos_right hvalue (Nat.pow_pos (by decide))
      _ = 10 ^ 6 := by rw [← Nat.pow_add, Nat.add_sub_cancel' hcount]

end Clock

/-! ## Offsets -/

/-- An offset from UTC: `Z`, or a sign and a clock. -/
inductive Offset where
  | zulu (more : List Char)
  | shifted (isBehind : Bool) (clock : Clock)

namespace Offset

/-- How the offset is spelled. -/
def text : Offset → List Char
  | zulu more => 'Z' :: more
  | shifted isBehind clock => (if isBehind then '-' else '+') :: clock.text

/-- The offset in microseconds. -/
def micros : Offset → Int
  | zulu _ => 0
  | shifted isBehind clock => if isBehind then -(clock.micros : Int) else clock.micros

/-- The offset as it counts: one that is shorter than a second is passed over. -/
def counted (x : Offset) : Int := if x.micros.natAbs < 1000000 then 0 else x.micros

/-- Such an offset can be read at the end of a text: it is below one day. -/
def IsSpelled : Offset → Prop
  | zulu more => isLeft more = false
  | shifted _ clock => clock.IsSpelled ∧ clock.tail.Ends ∧ clock.micros < Moment.dayMicros

theorem counted_shifted (isBehind : Bool) {clock : Clock} (h : clock.IsSpelled) :
    (shifted isBehind clock).counted =
      if (clock.hour * 60 + clock.minute) * 60 + clock.second = 0 then 0
      else if isBehind then -(clock.micros : Int) else clock.micros := by
  have hmicro := h.micro_lt
  have habs : (shifted isBehind clock).micros.natAbs = clock.micros := by
    show (if isBehind then -(clock.micros : Int) else clock.micros).natAbs = clock.micros
    split
    · exact (Int.natAbs_neg _).trans (Int.natAbs_natCast _)
    · exact Int.natAbs_natCast _
  unfold counted
  rw [habs]
  refine if_congr ?_ rfl rfl
  unfold Clock.micros
  omega

end Offset

/-- A sign and a clock are read as an offset, if the text ends behind them and they are below one day. -/
theorem offset?_clock (isBehind : Bool) {clock : Clock} (h : clock.IsSpelled) {o : Int} :
    offset? (Offset.shifted isBehind clock).text = some o ↔
      clock.tail.Ends ∧ clock.micros < Moment.dayMicros ∧ (Offset.shifted isBehind clock).counted = o := by
  have hsign : ¬ (if isBehind then '-' else '+') = 'Z' := by
    cases isBehind with
    | true => decide
    | false => decide
  have hbehind : (if isBehind then '-' else '+') = '-' ↔ isBehind = true := by
    cases isBehind with
    | true => decide
    | false => decide
  have hmicro := h.micro_lt
  have hread : offset? (Offset.shifted isBehind clock).text =
      if (clock.time []).rest then none
      else if clock.micros < Moment.dayMicros then some (Offset.shifted isBehind clock).counted else none := by
    show offset? ((if isBehind then '-' else '+') :: clock.text) = _
    unfold offset?
    simp only
    rw [if_neg hsign, time?_text h, Offset.counted_shifted isBehind h]
    simp only [Option.bind_eq_bind, Option.bind_some, Clock.hour_time, Clock.minute_time,
      Clock.second_time, Clock.micro_time, hbehind]
    by_cases hzero : (clock.hour * 60 + clock.minute) * 60 + clock.second = 0
    · -- Less than a second is less than a day.
      have hday : clock.micros < Moment.dayMicros := by
        unfold Clock.micros Moment.dayMicros
        omega
      have hzero_lt : (0 : Int) < Moment.dayMicros := by decide
      simp only [hzero, ↓reduceIte, if_pos hday, if_pos hzero_lt, neg_zero, ite_self]
    · have hsize : ((((clock.hour * 60 + clock.minute) * 60 + clock.second) * 1000000 +
          clock.tail.micro : Nat) : Int) = clock.micros := rfl
      simp only [hzero, ↓reduceIte, hsize, Nat.cast_lt]
  rw [hread, ← clock.rest_time]
  cases (clock.time []).rest with
  | true => simp
  | false => simp

/-- What is spelled as an offset is read as it. -/
theorem offset?_text {x : Offset} (h : x.IsSpelled) : offset? x.text = some x.counted := by
  cases x with
  | zulu more =>
    have hmore : isLeft more = false := h
    show (if isLeft more then none else some 0) = some _
    rw [hmore]
    rfl
  | shifted isBehind clock => exact (offset?_clock isBehind h.1).mpr ⟨h.2.1, h.2.2, rfl⟩

/-- What is read as an offset, behind a character that begins one, is spelled as it. -/
theorem exists_offset {c : Char} {cs : List Char} {o : Int} (hc : beginsOffset c = true)
    (h : offset? (c :: cs) = some o) : ∃ x : Offset, x.IsSpelled ∧ x.text = c :: cs ∧ x.counted = o := by
  by_cases hzulu : c = 'Z'
  · subst hzulu
    have hread : (if isLeft cs then none else some 0) = some o := h
    split at hread
    · cases hread
    · next hmore => exact ⟨.zulu cs, Bool.eq_false_iff.mpr hmore, rfl, Option.some.inj hread⟩
  · obtain ⟨isBehind, rfl⟩ : ∃ isBehind : Bool, c = if isBehind then '-' else '+' := by
      simp only [beginsOffset, Bool.or_eq_true, beq_iff_eq, hzulu, or_false] at hc
      rcases hc with rfl | rfl
      · exact ⟨false, rfl⟩
      · exact ⟨true, rfl⟩
    have hread := h
    unfold offset? at hread
    simp only at hread
    rw [if_neg hzulu] at hread
    obtain ⟨t, htime, -⟩ := Option.bind_eq_some_iff.mp hread
    obtain ⟨clock, hclock, rfl, -⟩ := exists_clock htime
    obtain ⟨hends, hday, hcounted⟩ := (offset?_clock isBehind hclock).mp h
    exact ⟨.shifted isBehind clock, ⟨hclock, hends, hday⟩, rfl, hcounted⟩

end Signoff.Iso
