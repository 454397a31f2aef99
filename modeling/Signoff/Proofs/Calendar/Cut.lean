import Signoff.Proofs.Calendar.Spelling

/-! # Where the parts of a text end

    A text is cut before its parts are read. Behind which day, and behind which time of
    day, is it cut in the right place?

    * `Day.Parted`: the day can be told from what stands behind the separator.
      `dateLength_iff_parted`: then the text is cut there, and only then.
    * `IsPlain`, `IsFollow`: a time of day in which nothing begins an offset, and what
      follows it (`cut_append`, `exists_cut`).
    * `DayTime`: a day and a time of day that can be told apart. They are read with what
      follows them (`read?_dayTime`), and what is read begins with them or is a day alone
      (`exists_dayTime`).
    * `offset?_ending`: an offset ends where nothing counts any more, so a final `Z` may
      stand for `+00:00` (`offset?_zulu`).
-/

namespace Signoff.Iso

open Text (asciiDigit?)

/-! ## Where the day ends -/

/-- How many digits stand in front. -/
def digitRun (cs : List Char) : Nat := (cs.takeWhile fun c => (asciiDigit? c).isSome).length

theorem digitRun_cons_digit {c : Char} (h : (asciiDigit? c).isSome) (cs : List Char) :
    digitRun (c :: cs) = digitRun cs + 1 := by
  simp only [digitRun, List.takeWhile_cons, h, ↓reduceIte, List.length_cons]

theorem digitRun_cons_other {c : Char} (h : asciiDigit? c = none) (cs : List Char) :
    digitRun (c :: cs) = 0 := by
  simp only [digitRun, List.takeWhile_cons, h, Option.isSome_none, Bool.false_eq_true, ↓reduceIte,
    List.length_nil]

/-- A run of digits is over where something other than a digit stands. -/
theorem digitRun_append {cs behind : List Char} (h : digitRun behind = 0) :
    digitRun (cs ++ behind) = digitRun cs := by
  induction cs with
  | nil => exact h
  | cons c cs ih =>
    cases hc : asciiDigit? c with
    | some d =>
      have hdigit : (asciiDigit? c).isSome := by rw [hc]; rfl
      rw [List.cons_append, digitRun_cons_digit hdigit, digitRun_cons_digit hdigit, ih]
    | none => rw [List.cons_append, digitRun_cons_other hc, digitRun_cons_other hc]

/-- The day can be told from what stands behind the separator. Behind a weekday with dashes the separator is
    no digit. Behind a week without dashes it is followed by an even number of digits if it is one itself. -/
def Day.Parted (separator : Char) (behind : List Char) : Day → Prop
  | .ofWeekday true _ _ _ => asciiDigit? separator = none
  | .ofWeek false _ _ | .ofWeekday false _ _ _ =>
    (asciiDigit? separator).isSome → digitRun behind % 2 = 0
  | _ => True

/-- Whether it can depends on the digits behind the separator only. -/
theorem Day.parted_append {x : Day} {separator : Char} {cs behind : List Char} (h : digitRun behind = 0) :
    x.Parted separator (cs ++ behind) ↔ x.Parted separator cs := by
  unfold Day.Parted
  rw [digitRun_append h]

theorem exists_one (n : Nat) : ∃ a, numeral 1 n = [a] ∧ (asciiDigit? a).isSome :=
  ⟨_, rfl, isSome_digitChar _⟩

theorem exists_two (n : Nat) :
    ∃ a b, numeral 2 n = [a, b] ∧ (asciiDigit? a).isSome ∧ (asciiDigit? b).isSome :=
  ⟨_, _, rfl, isSome_digitChar _, isSome_digitChar _⟩

theorem exists_four (n : Nat) : ∃ a b c d, numeral 4 n = [a, b, c, d] := ⟨_, _, _, _, rfl⟩

/-- A day of a month is cut behind its last digit, whatever follows. -/
theorem dateLength_month (dashed : Bool) (year month day : Nat) (behind : List Char) :
    dateLength ((Day.ofMonth dashed year month day).text ++ behind) =
      (Day.ofMonth dashed year month day).text.length := by
  obtain ⟨c1, c2, c3, c4, hyear⟩ := exists_four year
  obtain ⟨c5, c6, hmonth, h5, -⟩ := exists_two month
  obtain ⟨c7, c8, hday, -⟩ := exists_two day
  have hdash : c5 ≠ '-' := by rintro rfl; exact absurd h5 (by decide)
  have hletter : c5 ≠ 'W' := by rintro rfl; exact absurd h5 (by decide)
  simp only [Day.text, hyear, hmonth, hday]
  cases dashed with
  | true => simp [dash, dateLength, hletter]
  | false => simp [dash, dateLength, hletter, hdash]

/-- Where a week without dashes is looked for to end. -/
theorem dateLength_week (c1 c2 c3 c4 c5 c6 : Char) (cs : List Char) (h : cs ≠ []) :
    dateLength ([c1, c2, c3, c4] ++ 'W' :: ([c5, c6] ++ cs)) =
      if digitRun cs < 2 then 7 + digitRun cs else if digitRun cs % 2 = 1 then 7 else 8 := by
  have hlength : ([c1, c2, c3, c4] ++ 'W' :: ([c5, c6] ++ cs)).length ≠ 7 := by
    have hpos := List.length_pos_iff.mpr h
    simp only [List.length_append, List.length_cons, List.length_nil]
    omega
  unfold dateLength
  simp only
  rw [if_neg hlength]
  show (if 7 + digitRun cs < 9 then 7 + digitRun cs else if (7 + digitRun cs) % 2 = 0 then 7 else 8) = _
  split_ifs
  all_goals omega

/-- Where the day is looked for to end. -/
theorem dateLength_iff_parted (x : Day) (separator : Char) {a b : Char} {rest : List Char}
    (ha : (asciiDigit? a).isSome) (hb : (asciiDigit? b).isSome) :
    dateLength (x.text ++ separator :: a :: b :: rest) = x.text.length ↔
      x.Parted separator (a :: b :: rest) := by
  have hrun : 2 ≤ digitRun (a :: b :: rest) := by
    rw [digitRun_cons_digit ha, digitRun_cons_digit hb]
    omega
  cases x with
  | ofMonth dashed year month day => exact iff_of_true (dateLength_month _ _ _ _ _) trivial
  | ofWeek dashed year week =>
    obtain ⟨c1, c2, c3, c4, hyear⟩ := exists_four year
    obtain ⟨c5, c6, hweek, -⟩ := exists_two week
    simp only [Day.text, hyear, hweek]
    cases dashed with
    | true => simp [dash, dateLength, Day.Parted, hb]
    | false =>
      show dateLength ([c1, c2, c3, c4] ++ 'W' :: ([c5, c6] ++ separator :: a :: b :: rest)) = 7 ↔
        ((asciiDigit? separator).isSome → _)
      -- A separator that is a digit goes on the run of digits, and its parity decides.
      rw [dateLength_week _ _ _ _ _ _ _ (List.cons_ne_nil _ _)]
      cases hseparator : asciiDigit? separator with
      | none => simp [digitRun_cons_other hseparator]
      | some d =>
        rw [digitRun_cons_digit (by rw [hseparator]; rfl)]
        simp only [Option.isSome_some, forall_const]
        split_ifs
        all_goals omega
  | ofWeekday dashed year week weekday =>
    obtain ⟨c1, c2, c3, c4, hyear⟩ := exists_four year
    obtain ⟨c5, c6, hweek, -⟩ := exists_two week
    obtain ⟨c7, hweekday, h7⟩ := exists_one weekday
    simp only [Day.text, hyear, hweek, hweekday]
    cases dashed with
    | true => simp [dash, dateLength, Day.Parted]
    | false =>
      show dateLength ([c1, c2, c3, c4] ++ 'W' :: ([c5, c6] ++ c7 :: separator :: a :: b :: rest)) = 8 ↔
        ((asciiDigit? separator).isSome → _)
      rw [dateLength_week _ _ _ _ _ _ _ (List.cons_ne_nil _ _), digitRun_cons_digit h7]
      cases hseparator : asciiDigit? separator with
      | none => simp [digitRun_cons_other hseparator]
      | some d =>
        rw [digitRun_cons_digit (by rw [hseparator]; rfl)]
        simp only [Option.isSome_some, forall_const]
        split_ifs
        all_goals omega

/-- A day alone fills the text. -/
theorem dateLength_day (x : Day) : dateLength x.text = x.text.length := by
  cases x with
  | ofMonth dashed year month day =>
    have hmonth := dateLength_month dashed year month day []
    rwa [List.append_nil] at hmonth
  | ofWeek dashed year week =>
    obtain ⟨c1, c2, c3, c4, hyear⟩ := exists_four year
    obtain ⟨c5, c6, hweek, -⟩ := exists_two week
    simp only [Day.text, hyear, hweek]
    cases dashed with
    | true => simp [dash, dateLength]
    | false => rfl
  | ofWeekday dashed year week weekday =>
    obtain ⟨c1, c2, c3, c4, hyear⟩ := exists_four year
    obtain ⟨c5, c6, hweek, -⟩ := exists_two week
    obtain ⟨c7, hweekday, h7⟩ := exists_one weekday
    simp only [Day.text, hyear, hweek, hweekday]
    cases dashed with
    | true => simp [dash, dateLength]
    | false =>
      show dateLength ([c1, c2, c3, c4] ++ 'W' :: ([c5, c6] ++ [c7])) = 8
      rw [dateLength_week _ _ _ _ _ _ _ (List.cons_ne_nil _ _), digitRun_cons_digit h7]
      rfl

theorem Day.seven_le_length (x : Day) : 7 ≤ x.text.length := by
  unfold Day.text
  cases x with
  | ofMonth | ofWeek | ofWeekday =>
    simp only [List.length_append, List.length_cons, length_numeral]
    omega

/-! ## Where the time of day ends -/

/-- No character begins an offset. -/
def IsPlain (cs : List Char) : Prop := ∀ c ∈ cs, beginsOffset c = false

/-- The text is empty or begins an offset. -/
def IsFollow (cs : List Char) : Prop := ∀ c ∈ cs.head?, beginsOffset c = true

theorem isFollow_cons {c : Char} (h : beginsOffset c = true) (cs : List Char) : IsFollow (c :: cs) := by
  intro d hd
  obtain rfl := Option.some.inj hd
  exact h

/-- The part in front of a text that follows a time of day follows it as well. -/
theorem IsFollow.of_append {cs behind : List Char} (h : IsFollow (cs ++ behind)) : IsFollow cs := by
  cases cs with
  | nil => exact nofun
  | cons c cs => exact h

theorem IsFollow.append_cons {cs : List Char} (h : IsFollow cs) {c : Char} (hc : beginsOffset c = true)
    (behind : List Char) : IsFollow (cs ++ c :: behind) := by
  cases cs with
  | nil => exact isFollow_cons hc behind
  | cons d cs => exact h

/-- A text is cut where the first character begins an offset. -/
theorem cut_append {cs follow : List Char} (hplain : IsPlain cs) (hfollow : IsFollow follow) :
    (cs ++ follow).takeWhile (fun c => !beginsOffset c) = cs ∧
      (cs ++ follow).dropWhile (fun c => !beginsOffset c) = follow := by
  have hskip : ∀ c ∈ cs, (!beginsOffset c) = true := by
    intro c hc
    rw [hplain c hc]
    rfl
  rw [List.takeWhile_append_of_pos hskip, List.dropWhile_append_of_pos hskip]
  cases follow with
  | nil => exact ⟨List.append_nil cs, rfl⟩
  | cons c follow =>
    have hc : beginsOffset c = true := hfollow c rfl
    simp [hc]

/-- Every text is cut like that. -/
theorem exists_cut (cs : List Char) : ∃ front follow, IsPlain front ∧ IsFollow follow ∧ cs = front ++ follow ∧
    cs.takeWhile (fun c => !beginsOffset c) = front ∧ cs.dropWhile (fun c => !beginsOffset c) = follow := by
  refine ⟨_, _, ?_, ?_, (List.takeWhile_append_dropWhile).symm, rfl, rfl⟩
  · intro c hc
    have hskip := List.all_eq_true.mp (List.all_takeWhile (p := fun c => !beginsOffset c) (l := cs)) c hc
    simpa using hskip
  · intro c hc
    have hstop := List.head?_dropWhile_not (fun c => !beginsOffset c) cs
    rw [hc] at hstop
    simpa using hstop

/-- A character of a clock up to its sixth decimal. -/
def IsClockChar (c : Char) : Prop := (asciiDigit? c).isSome ∨ c = ':' ∨ c = '.' ∨ c = ','

/-- None of them begins an offset, and no null character does. -/
theorem not_clockChar {c : Char} (h : beginsOffset c = true) :
    ¬ IsClockChar c ∧ asciiDigit? c = none ∧ c ≠ '\x00' := by
  unfold IsClockChar
  simp only [beginsOffset, Bool.or_eq_true, beq_iff_eq] at h
  rcases h with (rfl | rfl) | rfl
  · decide
  · decide
  · decide

theorem IsClockChar.plain {c : Char} (h : IsClockChar c) : beginsOffset c = false :=
  Bool.eq_false_iff.mpr fun hc => (not_clockChar hc).1 h

/-- No digit begins an offset. -/
theorem digitRun_follow {follow : List Char} (h : IsFollow follow) : digitRun follow = 0 := by
  cases follow with
  | nil => rfl
  | cons c follow => exact digitRun_cons_other (not_clockChar (h c rfl)).2.1 follow

/-! ## Days with a time of day -/

/-- A day and a time of day that can be told apart. -/
structure DayTime where
  day : Day
  date : Date
  separator : Char
  clock : Clock
  denotes : day.Denotes date
  parted : day.Parted separator clock.text
  spelled : clock.IsSpelled
  plain : IsPlain clock.text
  inDay : clock.hour < 24 ∧ clock.minute < 60 ∧ clock.second < 60

namespace DayTime

variable (x : DayTime)

/-- How the day and the time are spelled. -/
def text : List Char := x.day.text ++ x.separator :: x.clock.text

/-- What a clock on the wall shows at the time. -/
def moment : Moment := ⟨x.date.number * Moment.dayMicros + x.clock.micros⟩

end DayTime

/-- A clock begins with two digits. -/
theorem Clock.exists_digits (c : Clock) :
    ∃ a b rest, c.text = a :: b :: rest ∧ (asciiDigit? a).isSome ∧ (asciiDigit? b).isSome := by
  obtain ⟨rest, hrest⟩ : ∃ rest, c.text = numeral 2 c.hour ++ rest := by
    cases c with
    | ofHour | ofMinute | ofSecond => exact ⟨_, rfl⟩
  obtain ⟨a, b, hhour, ha, hb⟩ := exists_two c.hour
  exact ⟨a, b, rest, by rw [hrest, hhour]; rfl, ha, hb⟩

/-- A clock behind a day and a separator is where it is looked for, if the day can be told from it. -/
theorem dateLength_clock (x : Day) (separator : Char) (clock : Clock) {follow : List Char}
    (h : IsFollow follow) :
    dateLength (x.text ++ separator :: (clock.text ++ follow)) = x.text.length ↔
      x.Parted separator clock.text := by
  rw [← Day.parted_append (digitRun_follow h)]
  obtain ⟨a, b, rest, hclock, ha, hb⟩ := clock.exists_digits
  rw [hclock]
  exact dateLength_iff_parted x separator ha hb

/-- What is read behind a day and a separator. -/
theorem read?_behind {day : Day} {date : Date} (hday : day.Denotes date) (separator : Char)
    {cs follow : List Char} (hplain : IsPlain cs) (hfollow : IsFollow follow)
    (hcut : dateLength (day.text ++ separator :: (cs ++ follow)) = day.text.length) :
    read? (String.ofList (day.text ++ separator :: (cs ++ follow))) = (do
      let time ← time? cs follow
      let wall ← Moment.ofParts? date time.hour time.minute time.second time.micro
      if follow.isEmpty then (if time.rest then none else pure ⟨wall, none⟩)
      else
        let offset ← offset? follow
        pure ⟨wall, some offset⟩) := by
  have hlong : ¬ (day.text ++ separator :: (cs ++ follow)).length < 7 := by
    have hseven := day.seven_le_length
    rw [List.length_append]
    omega
  obtain ⟨htake, hdrop⟩ := cut_append hplain hfollow
  unfold read?
  simp only [String.toList_ofList, if_neg hlong, hcut, List.take_left', List.drop_left', date?_text hday, htake,
    hdrop, Option.bind_eq_bind, Option.bind_some]

/-- A day and a time of day are read, with the offset behind them. -/
theorem read?_dayTime (x : DayTime) {follow : List Char} (h : IsFollow follow) :
    read? (String.ofList (x.text ++ follow)) =
      if follow.isEmpty then (if (x.clock.time []).rest then none else some ⟨x.moment, none⟩)
      else (offset? follow).map fun o => ⟨x.moment, some o⟩ := by
  have hcut := (dateLength_clock x.day x.separator x.clock h).mpr x.parted
  have hparts : Moment.ofParts? x.date x.clock.hour x.clock.minute x.clock.second x.clock.tail.micro =
      some x.moment := by
    obtain ⟨hhour, hminute, hsecond⟩ := x.inDay
    unfold Moment.ofParts? DayTime.moment Clock.micros
    rw [if_pos ⟨hhour, hminute, hsecond, x.spelled.micro_lt⟩, Nat.add_assoc]
  have htext : x.text ++ follow = x.day.text ++ x.separator :: (x.clock.text ++ follow) := by
    simp [DayTime.text]
  rw [htext, read?_behind x.denotes x.separator x.plain h hcut, time?_text x.spelled]
  simp only [Option.bind_eq_bind, Option.bind_some, Clock.hour_time, Clock.minute_time, Clock.second_time,
    Clock.micro_time, hparts]
  cases follow with
  | nil => rfl
  | cons c follow => cases offset? (c :: follow) with
    | none => rfl
    | some o => rfl

/-- A day alone is midnight. -/
theorem read?_day {day : Day} {date : Date} (h : day.Denotes date) :
    read? (String.ofList day.text) = some ⟨Moment.ofDate date, none⟩ := by
  have hlong : ¬ day.text.length < 7 := Nat.not_lt_of_le day.seven_le_length
  unfold read?
  simp only [String.toList_ofList, if_neg hlong, dateLength_day, List.take_length, List.drop_length,
    date?_text h, Option.bind_eq_bind, Option.bind_some]
  rfl

/-- What is read is a day alone, or a day and a time of day with what follows them. -/
theorem exists_dayTime {cs : List Char} {r : Reading} (h : read? (String.ofList cs) = some r) :
    (∃ (day : Day) (date : Date), day.Denotes date ∧ cs = day.text) ∨
      ∃ (x : DayTime) (follow : List Char), IsFollow follow ∧ cs = x.text ++ follow := by
  have hread := h
  unfold read? at hread
  simp only [String.toList_ofList] at hread
  split at hread
  · cases hread
  · obtain ⟨date, hdate, hbehind⟩ := Option.bind_eq_some_iff.mp hread
    obtain ⟨day, hday, htext⟩ := exists_day hdate
    clear hread
    have hcs : day.text ++ cs.drop (dateLength cs) = cs := by rw [htext, List.take_append_drop]
    cases hdrop : cs.drop (dateLength cs) with
    | nil =>
      rw [hdrop, List.append_nil] at hcs
      exact .inl ⟨day, date, hday, hcs.symm⟩
    | cons separator body =>
      rw [hdrop] at hcs hbehind
      obtain ⟨front, follow, hplain, hfollow, rfl, hfront, hback⟩ := exists_cut body
      obtain ⟨time, htime, hwall⟩ := Option.bind_eq_some_iff.mp hbehind
      clear hbehind
      rw [hfront, hback] at htime
      obtain ⟨clock, hclock, rfl, rfl⟩ := exists_clock htime
      obtain ⟨wall, hparts, -⟩ := Option.bind_eq_some_iff.mp hwall
      rw [Clock.hour_time, Clock.minute_time, Clock.second_time, Clock.micro_time] at hparts
      unfold Moment.ofParts? at hparts
      split at hparts
      · next hinDay =>
        -- Something is left behind the day, so it was not cut short.
        have hlength : dateLength cs = day.text.length := by
          have hleft := congrArg List.length hdrop
          rw [List.length_drop, List.length_cons] at hleft
          rw [htext, List.length_take]
          omega
        rw [← hcs] at hlength
        have hparted := (dateLength_clock day separator clock hfollow).mp hlength
        refine .inr ⟨⟨day, date, separator, clock, hday, hparted, hclock, hplain,
          ⟨hinDay.1, hinDay.2.1, hinDay.2.2.1⟩⟩, follow, hfollow, ?_⟩
        rw [← hcs]
        simp [DayTime.text]
      · cases hparts

/-! ## How an offset may end -/

theorem mem_numeral {c : Char} {count n : Nat} (h : c ∈ numeral count n) : (asciiDigit? c).isSome := by
  induction count with
  | zero => cases h
  | succ count ih =>
    rcases List.mem_cons.mp h with rfl | hmem
    · exact isSome_digitChar _
    · exact ih hmem

theorem mem_colon {c : Char} {colons : Bool} (h : c ∈ colon colons) : c = ':' := by
  cases colons with
  | true => exact List.mem_singleton.mp h
  | false => cases h

namespace Clock

/-- The parts of a clock without what stands behind them. -/
def lead : Clock → List Char
  | ofHour hour _ => numeral 2 hour
  | ofMinute colons hour minute _ => numeral 2 hour ++ (colon colons ++ numeral 2 minute)
  | ofSecond colons hour minute second _ =>
    numeral 2 hour ++ (colon colons ++ (numeral 2 minute ++ (colon colons ++ numeral 2 second)))

/-- The same parts with something else behind them. -/
def withTail (tail : Tail) : Clock → Clock
  | ofHour hour _ => ofHour hour tail
  | ofMinute colons hour minute _ => ofMinute colons hour minute tail
  | ofSecond colons hour minute second _ => ofSecond colons hour minute second tail

/-- What may stand in front of a fraction behind the parts. -/
def marks : Clock → List (List Char)
  | ofHour _ _ => Iso.marks false false
  | ofMinute colons _ _ _ => Iso.marks false colons
  | ofSecond colons _ _ _ _ => Iso.marks true colons

variable {c : Clock}

theorem text_eq (c : Clock) : c.text = c.lead ++ c.tail.text := by
  cases c with
  | ofHour | ofMinute | ofSecond => simp [text, lead, tail]

@[simp] theorem lead_withTail (t : Tail) (c : Clock) : (c.withTail t).lead = c.lead := by
  cases c with
  | ofHour | ofMinute | ofSecond => rfl

@[simp] theorem tail_withTail (t : Tail) (c : Clock) : (c.withTail t).tail = t := by
  cases c with
  | ofHour | ofMinute | ofSecond => rfl

theorem micros_withTail {t : Tail} (h : t.micro = c.tail.micro) : (c.withTail t).micros = c.micros := by
  cases c with
  | ofHour | ofMinute | ofSecond => exact congrArg (fun micro => _ + micro) h

theorem IsSpelled.tail (h : c.IsSpelled) : c.tail.IsSpelled c.marks := by
  cases c with
  | ofHour => exact h.2
  | ofMinute => exact h.2.2
  | ofSecond => exact h.2.2.2

theorem IsSpelled.withTail (h : c.IsSpelled) {t : Tail} (ht : t.IsSpelled c.marks) :
    (c.withTail t).IsSpelled := by
  cases c with
  | ofHour => exact ⟨h.1, ht⟩
  | ofMinute => exact ⟨h.1, h.2.1, ht⟩
  | ofSecond => exact ⟨h.1, h.2.1, h.2.2.1, ht⟩

theorem mem_lead {d : Char} (h : d ∈ c.lead) : IsClockChar d := by
  have hchar : (asciiDigit? d).isSome ∨ d = ':' := by
    cases c with
    | ofHour => exact .inl (mem_numeral h)
    | ofMinute =>
      simp only [lead, List.mem_append] at h
      rcases h with h | h | h
      · exact .inl (mem_numeral h)
      · exact .inr (mem_colon h)
      · exact .inl (mem_numeral h)
    | ofSecond =>
      simp only [lead, List.mem_append] at h
      rcases h with h | h | h | h | h
      · exact .inl (mem_numeral h)
      · exact .inr (mem_colon h)
      · exact .inl (mem_numeral h)
      · exact .inr (mem_colon h)
      · exact .inl (mem_numeral h)
  exact hchar.imp_right .inl

theorem mem_marks {d : Char} {mark : List Char} (hmark : mark ∈ c.marks) (h : d ∈ mark) : IsClockChar d := by
  have hmarks : mark = ['.'] ∨ mark = [','] ∨ ∃ colons, mark = colon colons := by
    cases c with
    | ofHour | ofMinute =>
      have hpoint : mark = ['.'] ∨ mark = [','] := by simpa [marks, Iso.marks] using hmark
      exact hpoint.imp_right .inl
    | ofSecond colons =>
      have hmark : mark = ['.'] ∨ mark = [','] ∨ mark = colon colons := by
        simpa [marks, Iso.marks] using hmark
      exact hmark.imp_right fun h => h.imp_right fun h => ⟨colons, h⟩
  rcases hmarks with rfl | rfl | ⟨colons, rfl⟩
  · exact .inr (.inr (.inl (List.mem_singleton.mp h)))
  · exact .inr (.inr (.inr (List.mem_singleton.mp h)))
  · exact .inr (.inl (mem_colon h))

end Clock

/-- Characters are passed over up to the same one, whatever stands behind it. -/
theorem isLeft_pastDigits {v p q : List Char} {e f : Char} (he : beginsOffset e = true)
    (h : isLeft (pastDigits (v ++ e :: p)) = false) : isLeft (pastDigits (v ++ f :: q)) = false := by
  induction v with
  | nil =>
    obtain ⟨-, hdigit, hnull⟩ := not_clockChar he
    simp [pastDigits, hdigit, isLeft, hnull] at h
  | cons c v ih =>
    unfold pastDigits at h ih ⊢
    rw [List.cons_append, List.dropWhile_cons] at h ⊢
    split at h
    · next hc => 
      rw [if_pos hc]
      exact ih h
    · next hc =>
      rw [if_neg hc]
      exact h

/-- A clock at the end of a text in which a character begins an offset holds it behind its sixth decimal, where
    nothing counts. So something else may stand there. -/
theorem Clock.exists_ending {clock : Clock} (h : clock.IsSpelled) (hends : clock.tail.Ends)
    {front p q : List Char} {e f : Char} (he : beginsOffset e = true)
    (htext : clock.text = front ++ e :: p) :
    ∃ clock' : Clock, clock'.IsSpelled ∧ clock'.tail.Ends ∧ clock'.text = front ++ f :: q ∧
      clock'.micros = clock.micros := by
  obtain ⟨hchar, -, hnull⟩ := not_clockChar he
  have hmem : e ∈ clock.lead ++ clock.tail.text := by
    rw [← clock.text_eq, htext]
    simp
  have htail := h.tail
  rw [clock.text_eq] at htext
  cases hcases : clock.tail with
  | nothing =>
    rw [hcases] at hmem
    rcases List.mem_append.mp hmem with hlead | hnone
    · exact absurd (Clock.mem_lead hlead) hchar
    · cases hnone
  | stray c =>
    rw [hcases] at hmem hends
    rcases List.mem_append.mp hmem with hlead | hstray
    · exact absurd (Clock.mem_lead hlead) hchar
    · obtain rfl := List.mem_singleton.mp hstray
      have hleft : isLeft [e] = false := hends
      simp [isLeft, hnull] at hleft
  | fraction mark count value more =>
    rw [hcases] at htail hends htext
    obtain ⟨hmark, hcount, hvalue, hmore, hlong⟩ := htail
    have hends : isLeft (pastDigits more) = false := hends
    have hfront : e ∉ clock.lead ++ (mark ++ numeral count value) := by
      intro hmem
      rcases List.mem_append.mp hmem with hlead | hmem
      · exact hchar (Clock.mem_lead hlead)
      · rcases List.mem_append.mp hmem with hmem | hdigit
        · exact hchar (Clock.mem_marks hmark hmem)
        · exact hchar (.inl (mem_numeral hdigit))
    obtain ⟨v, rfl, rfl⟩ : ∃ v, front = clock.lead ++ (mark ++ numeral count value) ++ v ∧
        more = v ++ e :: p := by
      have htext : (clock.lead ++ (mark ++ numeral count value)) ++ more = front ++ e :: p := by
        rw [← htext]
        simp [Tail.text]
      rcases List.append_eq_append_iff.mp htext with ⟨v, hv, hrest⟩ | ⟨v, hv, hrest⟩
      · exact ⟨v, hv, hrest⟩
      · cases v with
        | nil => exact ⟨[], by rw [hv]; simp, hrest.symm⟩
        | cons c v =>
          obtain ⟨rfl, -⟩ := List.cons.inj hrest
          exact absurd (by rw [hv]; simp) hfront
    refine ⟨clock.withTail (.fraction mark count value (v ++ f :: q)), h.withTail ?_, ?_, ?_, ?_⟩
    · -- Something stands behind the fraction already, so it has six digits.
      have hsix : ¬ count < 6 := fun hshort => absurd (hmore hshort) (by simp)
      exact ⟨hmark, hcount, hvalue, fun hshort => absurd hshort hsix, fun _ => by omega⟩
    · rw [Clock.tail_withTail]
      exact isLeft_pastDigits he hends
    · rw [Clock.text_eq, Clock.lead_withTail, Clock.tail_withTail]
      simp [Tail.text]
    · refine Clock.micros_withTail ?_
      rw [hcases]
      rfl

/-- So what stands in an offset from a second such character on does not matter. -/
theorem offset?_ending {c e f : Char} {front p q : List Char} {o : Int} (hc : beginsOffset c = true)
    (he : beginsOffset e = true)
    (h : offset? (c :: (front ++ e :: p)) = some o) : offset? (c :: (front ++ f :: q)) = some o := by
  obtain ⟨x, hx, htext, rfl⟩ := exists_offset hc h
  cases x with
  | zulu more =>
    have hmore : isLeft more = false := hx
    obtain ⟨rfl, rfl⟩ : 'Z' = c ∧ more = front ++ e :: p := List.cons.inj htext
    have hmore' : isLeft (front ++ f :: q) = false := by
      cases front with
      | nil =>
        obtain ⟨-, -, hnull⟩ := not_clockChar he
        simp [isLeft, hnull] at hmore
      | cons d front => exact hmore
    exact offset?_text (x := .zulu (front ++ f :: q)) hmore'
  | shifted isBehind clock =>
    obtain ⟨hclock, hends, hday⟩ := hx
    obtain ⟨rfl, hclock_text⟩ := List.cons.inj htext
    obtain ⟨clock', hclock', hends', htext', hmicros⟩ :=
      Clock.exists_ending (q := q) (f := f) hclock hends he hclock_text
    rw [← htext']
    refine (offset?_clock isBehind hclock').mpr ⟨hends', by rw [hmicros]; exact hday, ?_⟩
    have hshift : (Offset.shifted isBehind clock').micros = (Offset.shifted isBehind clock).micros := by
      show (if isBehind then -(clock'.micros : Int) else clock'.micros) = _
      rw [hmicros]
      rfl
    unfold Offset.counted
    rw [hshift]

/-- A final `Z` stands for the offset zero. -/
theorem offset?_zulu {front : List Char} (h : IsFollow front) {o : Int} :
    offset? (front ++ ['Z']) = some o ↔ offset? (front ++ "+00:00".toList) = some o := by
  cases front with
  | nil => exact Iff.rfl
  | cons c front =>
    have hc : beginsOffset c = true := h c rfl
    exact ⟨offset?_ending hc rfl, offset?_ending hc rfl⟩

end Signoff.Iso
