import Signoff.Proofs.Calendar.Cut
import Signoff.Value.Coerce

/-! # The instant of a text

    A text with a day, a time of day and an offset denotes an instant, and its moment
    depends on nothing else.

    * `Timestamp`: such a text. It is read as its wall clock with the offset
      (`read?_expandZulu`), and what is read with an offset is one (`exists_spelling`).
    * `Unzoned`: the texts that give no offset.
    * `WallClock.zulu`, `WallClock.shifted`: every wall clock with every offset of hours
      and minutes is a timestamp.
    * `Value.moment_by_instant`: the moment of a text by its instant.
      `Value.moment_not_by_true_instant`: an offset of less than a second does not count.
-/

namespace Signoff.Iso

open Text (asciiDigit?)

/-! ## Timestamps -/

/-- A day, a time of day and an offset. -/
structure Timestamp extends DayTime where
  offset : Offset
  offset_spelled : offset.IsSpelled

namespace Timestamp

variable (x : Timestamp)

/-- How the timestamp is spelled. -/
def text : List Char := x.toDayTime.text ++ x.offset.text

/-- The instant in microseconds of UTC. -/
def instant : Int := x.moment.micros - x.offset.micros

/-- The instant with an offset as it counts. -/
def counted : Int := x.moment.micros - x.offset.counted

end Timestamp

/-- A text without an offset and the time it says: a day, perhaps with a `Z`, or a day and a time of day. -/
inductive Unzoned : List Char → Moment → Prop
  | day {day : Day} {date : Date} (h : day.Denotes date) : Unzoned day.text (Moment.ofDate date)
  | zulu {day : Day} {date : Date} (h : day.Denotes date) :
    Unzoned (day.text ++ ['Z']) (Moment.ofDate date)
  | dayTime (x : DayTime) (h : x.clock.tail.Ends) : Unzoned x.text x.moment

theorem Offset.isFollow (x : Offset) : IsFollow x.text := by
  cases x with
  | zulu more => exact isFollow_cons rfl more
  | shifted isBehind clock =>
    refine isFollow_cons ?_ _
    cases isBehind with
    | true => rfl
    | false => rfl

theorem Offset.text_ne_nil (x : Offset) : x.text ≠ [] := by
  cases x with
  | zulu | shifted => exact List.cons_ne_nil _ _

/-- What is read as an offset behind a time of day is spelled as it. -/
theorem IsFollow.exists_offset {follow : List Char} {o : Int} (h : IsFollow follow)
    (ho : offset? follow = some o) : ∃ x : Offset, x.IsSpelled ∧ x.text = follow ∧ x.counted = o := by
  cases follow with
  | nil => cases ho
  | cons c follow => exact Iso.exists_offset (h c rfl) ho

/-- A timestamp is read. -/
theorem read?_timestamp (x : DayTime) {follow : List Char} (hnone : follow ≠ []) (h : IsFollow follow) {o : Int}
    (ho : offset? follow = some o) :
    read? (String.ofList (x.text ++ follow)) = some ⟨x.moment, some o⟩ := by
  rw [read?_dayTime x h, if_neg (by simpa using hnone), ho]
  rfl

/-- A day and a time of day without an offset are read, if the text may end there. -/
theorem read?_unzoned (x : DayTime) :
    read? (String.ofList x.text) = if (x.clock.time []).rest then none else some ⟨x.moment, none⟩ := by
  rw [← List.append_nil x.text]
  exact read?_dayTime x nofun

/-- What is read is a day alone, or a day and a time of day, or these with an offset. -/
theorem read?_cases {cs : List Char} {r : Reading} (h : read? (String.ofList cs) = some r) :
    (∃ (day : Day) (date : Date), day.Denotes date ∧ cs = day.text ∧ r = ⟨Moment.ofDate date, none⟩) ∨
    (∃ x : DayTime, x.clock.tail.Ends ∧ cs = x.text ∧ r = ⟨x.moment, none⟩) ∨
    ∃ (x : DayTime) (c : Char) (follow : List Char) (o : Int), beginsOffset c = true ∧
      cs = x.text ++ c :: follow ∧ offset? (c :: follow) = some o ∧ r = ⟨x.moment, some o⟩ := by
  rcases exists_dayTime h with ⟨day, date, hday, rfl⟩ | ⟨x, follow, hfollow, rfl⟩
  · rw [read?_day hday] at h
    exact .inl ⟨day, date, hday, rfl, (Option.some.inj h).symm⟩
  · cases follow with
    | nil =>
      rw [List.append_nil, read?_unzoned] at h
      split at h
      · cases h
      · next hrest =>
        refine .inr (.inl ⟨x, x.clock.rest_time.mp (by simpa using hrest), List.append_nil _, ?_⟩)
        exact (Option.some.inj h).symm
    | cons c follow =>
      rw [read?_dayTime x hfollow] at h
      obtain ⟨o, ho, hr⟩ := Option.map_eq_some_iff.mp h
      exact .inr (.inr ⟨x, c, follow, o, hfollow c rfl, rfl, ho, hr.symm⟩)

/-! ## A final `Z` -/

/-- The text with the offset zero for a final `Z`. -/
def expandZulu (cs : List Char) : List Char :=
  if cs.getLast? = some 'Z' then cs.dropLast ++ "+00:00".toList else cs

theorem expandZulu_append (cs : List Char) : expandZulu (cs ++ ['Z']) = cs ++ '+' :: "00:00".toList := by
  unfold expandZulu
  rw [List.getLast?_concat, if_pos rfl, List.dropLast_concat]
  rfl

theorem mem_day {c : Char} {x : Day} (h : c ∈ x.text) : (asciiDigit? c).isSome ∨ c = '-' ∨ c = 'W' := by
  have hdash {dashed : Bool} (h : c ∈ dash dashed) : c = '-' := by
    cases dashed with
    | true => exact List.mem_singleton.mp h
    | false => cases h
  cases x with
  | ofMonth =>
    simp only [Day.text, List.mem_append] at h
    rcases h with h | h | h | h | h
    · exact .inl (mem_numeral h)
    · exact .inr (.inl (hdash h))
    · exact .inl (mem_numeral h)
    · exact .inr (.inl (hdash h))
    · exact .inl (mem_numeral h)
  | ofWeek =>
    simp only [Day.text, List.mem_append, List.mem_cons] at h
    rcases h with h | h | h | h
    · exact .inl (mem_numeral h)
    · exact .inr (.inl (hdash h))
    · exact .inr (.inr h)
    · exact .inl (mem_numeral h)
  | ofWeekday =>
    simp only [Day.text, List.mem_append, List.mem_cons] at h
    rcases h with h | h | h | h | h | h
    · exact .inl (mem_numeral h)
    · exact .inr (.inl (hdash h))
    · exact .inr (.inr h)
    · exact .inl (mem_numeral h)
    · exact .inr (.inl (hdash h))
    · exact .inl (mem_numeral h)

/-- In `00:00` nothing begins an offset. -/
theorem plain_zero : IsPlain "00:00".toList := by
  have hall : ("00:00".toList.all fun c => !beginsOffset c) = true := rfl
  intro c hc
  simpa using List.all_eq_true.mp hall c hc

/-- Midnight, with a plus as the separator. -/
def midnight {day : Day} {date : Date} (h : day.Denotes date) : DayTime where
  day := day
  date := date
  separator := '+'
  clock := .ofMinute true 0 0 .nothing
  denotes := h
  parted := by
    cases day with
    | ofMonth => trivial
    | ofWeek dashed | ofWeekday dashed =>
      cases dashed with
      | true => trivial
      | false => exact fun hdigit => absurd hdigit (by decide)
  spelled := ⟨by decide, by decide, trivial⟩
  plain := plain_zero
  inDay := by decide

/-- A time of day that is spelled `00:00` is midnight. -/
theorem DayTime.moment_zero {x : DayTime} (hclock : x.clock.text = "00:00".toList) :
    x.moment = Moment.ofDate x.date := by
  have hread : time? "00:00".toList [] = some {} := rfl
  rw [← hclock, time?_text x.spelled] at hread
  have htime : x.clock.time [] = {} := Option.some.inj hread
  have hmicros : x.clock.micros = 0 := by
    unfold Clock.micros
    rw [← x.clock.hour_time [], ← x.clock.minute_time [], ← x.clock.second_time [], ← x.clock.micro_time [],
      htime]
    rfl
  unfold DayTime.moment Moment.ofDate
  rw [hmicros, Nat.add_zero]

/-- A text that ends in a character ends in it behind each part in front that is not all of it. -/
theorem exists_last {front behind cs : List Char} {c : Char} (h : front ++ behind = cs ++ [c])
    (hbehind : behind ≠ []) : ∃ rest, behind = rest ++ [c] ∧ cs = front ++ rest := by
  have hsplit := List.dropLast_append_getLast hbehind
  rw [← hsplit, ← List.append_assoc] at h
  obtain ⟨hcs, hc⟩ := List.append_singleton_inj.mp h
  exact ⟨behind.dropLast, by rw [← hc, hsplit], hcs.symm⟩

/-- Behind a day and a time of day an offset that ends in `+00:00` begins there or in front of it. -/
theorem exists_rest {front cs follow : List Char} {c : Char} (hc : beginsOffset c = true)
    (h : front ++ c :: follow = cs ++ '+' :: "00:00".toList) :
    ∃ rest, cs = front ++ rest ∧ c :: follow = rest ++ '+' :: "00:00".toList := by
  rcases List.append_eq_append_iff.mp h with ⟨rest, hcs, hrest⟩ | ⟨rest, hfront, hrest⟩
  · exact ⟨rest, hcs, hrest⟩
  · cases rest with
    | nil => exact ⟨[], by simpa using hfront.symm, hrest.symm⟩
    | cons d rest =>
      have hmem : c ∈ "00:00".toList := by
        rw [(List.cons.inj hrest).2]
        simp
      rw [plain_zero c hmem] at hc
      cases hc

/-- What is read of a text with the offset zero for its final `Z` is what the text says. -/
theorem exists_spelling {cs : List Char} {r : Reading}
    (h : read? (String.ofList (expandZulu cs)) = some r) :
    (∃ m, Unzoned cs m ∧ r = ⟨m, none⟩) ∨
      ∃ x : Timestamp, x.text = cs ∧ r = ⟨x.moment, some x.offset.counted⟩ := by
  by_cases hlast : cs.getLast? = some 'Z'
  · obtain ⟨cs, rfl⟩ := List.getLast?_eq_some_iff.mp hlast
    rw [expandZulu_append] at h
    rcases read?_cases h with ⟨day, date, hday, htext, rfl⟩ | ⟨x, hends, htext, rfl⟩ |
      ⟨x, c, follow, o, hc, htext, ho, rfl⟩
    · -- A day alone has no colon.
      have hmem : ':' ∈ day.text := by
        rw [← htext]
        simp
      exact absurd (mem_day hmem) (by decide)
    · -- The plus is neither in the day nor in the time of day, so it separates them.
      have hday : '+' ∉ x.day.text := fun hmem => absurd (mem_day hmem) (by decide)
      have hclock : '+' ∉ x.clock.text := fun hmem => absurd (x.plain '+' hmem) (by decide)
      obtain ⟨hcs, -, hzero⟩ := (List.append_cons_inj_of_notMem hday hclock).mp htext.symm
      rw [DayTime.moment_zero hzero, ← hcs]
      exact .inl ⟨_, .zulu x.denotes, rfl⟩
    · -- The offset ends in the `+00:00`, or is just that.
      obtain ⟨rest, rfl, hrest⟩ := exists_rest hc htext.symm
      have hfollow : IsFollow rest := by
        have hall := isFollow_cons hc follow
        rw [hrest] at hall
        exact hall.of_append
      rw [hrest] at ho
      obtain ⟨offset, hoffset, hzulu, rfl⟩ :=
        (hfollow.append_cons rfl []).exists_offset ((offset?_zulu hfollow).mpr ho)
      refine .inr ⟨⟨x, offset, hoffset⟩, ?_, rfl⟩
      show x.text ++ offset.text = _
      rw [hzulu, List.append_assoc]
  · have hsame : expandZulu cs = cs := if_neg hlast
    rw [hsame] at h
    rcases read?_cases h with ⟨day, date, hday, rfl, rfl⟩ | ⟨x, hends, rfl, rfl⟩ |
      ⟨x, c, follow, o, hc, rfl, ho, rfl⟩
    · exact .inl ⟨_, .day hday, rfl⟩
    · exact .inl ⟨_, .dayTime x hends, rfl⟩
    · obtain ⟨offset, hoffset, htext, rfl⟩ := (isFollow_cons hc follow).exists_offset ho
      exact .inr ⟨⟨x, offset, hoffset⟩, congrArg _ htext, rfl⟩

/-- What is spelled as a timestamp is read as it. -/
theorem read?_expandZulu (x : Timestamp) :
    read? (String.ofList (expandZulu x.text)) = some ⟨x.moment, some x.offset.counted⟩ := by
  have hread := offset?_text x.offset_spelled
  have hfollow := x.offset.isFollow
  by_cases hlast : x.text.getLast? = some 'Z'
  · -- The offset is not empty, so the final character is one of its own.
    obtain ⟨cs, hcs⟩ := List.getLast?_eq_some_iff.mp hlast
    obtain ⟨rest, hrest, rfl⟩ := exists_last hcs x.offset.text_ne_nil
    rw [hrest] at hread hfollow
    rw [hcs, expandZulu_append, List.append_assoc]
    exact read?_timestamp x.toDayTime (by simp) (hfollow.of_append.append_cons rfl _)
      ((offset?_zulu hfollow.of_append).mp hread)
  · have hsame : expandZulu x.text = x.text := if_neg hlast
    rw [hsame]
    exact read?_timestamp x.toDayTime x.offset.text_ne_nil hfollow hread

/-- What is spelled without an offset is read as the time that it says. -/
theorem read?_of_unzoned {cs : List Char} {m : Moment} (h : Unzoned cs m) :
    read? (String.ofList (expandZulu cs)) = some ⟨m, none⟩ := by
  cases h with
  | @day day date hday =>
    have hlast : day.text.getLast? ≠ some 'Z' := by
      intro hlast
      exact absurd (mem_day (List.mem_of_getLast? hlast)) (by decide)
    have hsame : expandZulu day.text = day.text := if_neg hlast
    rw [hsame, read?_day hday]
  | @zulu day date hday =>
    rw [expandZulu_append]
    show read? (String.ofList (midnight hday).text) = _
    rw [read?_unzoned, DayTime.moment_zero (x := midnight hday) rfl]
    rfl
  | dayTime x hends =>
    have hlast : x.text.getLast? ≠ some 'Z' := by
      intro hlast
      obtain ⟨cs, hcs⟩ := List.getLast?_eq_some_iff.mp hlast
      have htext : x.day.text ++ [x.separator] ++ x.clock.text = cs ++ ['Z'] := by
        rw [← hcs]
        simp [DayTime.text]
      obtain ⟨a, b, rest, hclock, -⟩ := x.clock.exists_digits
      obtain ⟨rest, hrest, -⟩ := exists_last htext (by rw [hclock]; simp)
      have hmem : 'Z' ∈ x.clock.text := by
        rw [hrest]
        simp
      exact absurd (x.plain 'Z' hmem) (by decide)
    have hsame : expandZulu x.text = x.text := if_neg hlast
    rw [hsame, read?_unzoned, if_neg (by simp [x.clock.rest_time.mpr hends])]

/-! ## Moments of texts -/

/-- A timestamp is read as its instant. -/
theorem ofText?_timestamp {s : String} {x : Timestamp} (h : x.text = Text.trimList s.toList) :
    Moment.ofText? s = Moment.ofMicros? x.counted := by
  show (read? (String.ofList (expandZulu (Text.trimList s.toList)))).bind Reading.utc? = _
  rw [← h, read?_expandZulu]
  rfl

theorem ofText?_unzoned {s : String} {m : Moment} (h : Unzoned (Text.trimList s.toList) m) :
    Moment.ofText? s = some m := by
  show (read? (String.ofList (expandZulu (Text.trimList s.toList)))).bind Reading.utc? = _
  rw [read?_of_unzoned h]
  rfl

/-- Only what is spelled as a timestamp, or without an offset, is read. -/
theorem ofText?_cases {s : String} {m : Moment} (h : Moment.ofText? s = some m) :
    Unzoned (Text.trimList s.toList) m ∨ ∃ x : Timestamp, x.text = Text.trimList s.toList := by
  obtain ⟨r, hread, hutc⟩ := Option.bind_eq_some_iff.mp
    (show (read? (String.ofList (expandZulu (Text.trimList s.toList)))).bind Reading.utc? = some m from h)
  rcases exists_spelling hread with ⟨m', hunzoned, rfl⟩ | ⟨x, htext, -⟩
  · obtain rfl : m' = m := Option.some.inj hutc
    exact .inl hunzoned
  · exact .inr ⟨x, htext⟩

/-! ## The usual form -/

/-- The fraction of a second as it is written, if it is not zero. -/
def isoTail (micro : Nat) : Tail := if micro = 0 then .nothing else .fraction ['.'] 6 micro []

theorem micro_isoTail (micro : Nat) : (isoTail micro).micro = micro := by
  unfold isoTail
  split
  · next hzero => exact hzero.symm
  · exact Nat.mul_one micro

theorem isSpelled_isoTail {micro : Nat} (h : micro < 1000000) :
    (isoTail micro).IsSpelled (marks true true) := by
  unfold isoTail
  split
  · trivial
  · exact ⟨by decide, by decide, h, fun _ => rfl, nofun⟩

theorem plain_isoTail (micro : Nat) : IsPlain (isoTail micro).text := by
  unfold isoTail
  split
  · exact nofun
  · intro c hc
    refine IsClockChar.plain ?_
    simp only [Tail.text, List.append_nil, List.mem_append, List.mem_singleton] at hc
    rcases hc with rfl | hdigit
    · exact .inr (.inr (.inl rfl))
    · exact .inl (mem_numeral hdigit)

end Signoff.Iso

namespace Signoff

open Iso

/-- The form that is documented for a day and a time: dashes, a `T` and colons, and a fraction if there is one. -/
def WallClock.dayTime (w : WallClock) (h : w.IsValid) : DayTime where
  day := .ofMonth true w.year w.month w.day
  date := ⟨Date.daysBeforeYear w.year + Date.daysBeforeMonth w.year w.month + (w.day - 1)⟩
  separator := 'T'
  clock := .ofSecond true w.hour w.minute w.second (isoTail w.micro)
  denotes := by
    have hday : (WallClock.mk w.year w.month w.day 0 0 0 0).IsValid :=
      ⟨h.year, h.month, h.day, Nat.zero_lt_succ _, Nat.zero_lt_succ _, Nat.zero_lt_succ _, Nat.zero_lt_succ _⟩
    exact ⟨hday, hday.days_eq.symm⟩
  parted := trivial
  spelled := ⟨h.hour.trans (by decide), h.minute.trans (by decide), h.second.trans (by decide),
    isSpelled_isoTail h.micro⟩
  plain := by
    intro c hc
    rw [Clock.text_eq] at hc
    rcases List.mem_append.mp hc with hlead | htail
    · exact (Clock.mem_lead hlead).plain
    · exact plain_isoTail w.micro c htail
  inDay := ⟨h.hour, h.minute, h.second⟩

theorem WallClock.moment_dayTime {w : WallClock} (h : w.IsValid) : (w.dayTime h).moment.micros = w.micros := by
  have hmicros : (w.dayTime h).clock.micros =
      ((w.hour * 60 + w.minute) * 60 + w.second) * 1000000 + w.micro :=
    congrArg (((w.hour * 60 + w.minute) * 60 + w.second) * 1000000 + ·) (micro_isoTail w.micro)
  show (_ + _ + _) * Moment.dayMicros + (w.dayTime h).clock.micros = _
  rw [hmicros]
  unfold WallClock.micros Moment.dayMicros
  rw [h.days_eq]
  ring

/-- A wall clock of UTC. -/
def WallClock.zulu (w : WallClock) (h : w.IsValid) : Timestamp := ⟨w.dayTime h, .zulu [], rfl⟩

theorem WallClock.counted_zulu {w : WallClock} (h : w.IsValid) : (w.zulu h).counted = w.micros := by
  show ((w.dayTime h).moment.micros : Int) - 0 = w.micros
  rw [moment_dayTime, Int.sub_zero]

theorem Iso.isSpelled_minutes {hour minute : Nat} (h : hour < 24 ∧ minute < 60) :
    (Clock.ofMinute true hour minute .nothing).IsSpelled :=
  ⟨h.1.trans (by decide), h.2.trans (by decide), trivial⟩

/-- A wall clock with an offset of hours and minutes. -/
def WallClock.shifted (w : WallClock) (h : w.IsValid) (isBehind : Bool) (hour minute : Nat)
    (hoffset : hour < 24 ∧ minute < 60) : Timestamp where
  toDayTime := w.dayTime h
  offset := .shifted isBehind (.ofMinute true hour minute .nothing)
  offset_spelled := by
    refine ⟨isSpelled_minutes hoffset, trivial, ?_⟩
    show ((hour * 60 + minute) * 60 + 0) * 1000000 + 0 < Moment.dayMicros
    unfold Moment.dayMicros
    omega

theorem WallClock.counted_shifted {w : WallClock} (h : w.IsValid) (isBehind : Bool) {hour minute : Nat}
    (hoffset : hour < 24 ∧ minute < 60) : (w.shifted h isBehind hour minute hoffset).counted =
      w.micros - (if isBehind then -1 else 1) * ((hour * 60 + minute : Nat) * 60000000 : Int) := by
  have hcounted : (w.shifted h isBehind hour minute hoffset).offset.counted =
      (if isBehind then -1 else 1) * ((hour * 60 + minute : Nat) * 60000000 : Int) := by
    rw [WallClock.shifted, Offset.counted_shifted _ (isSpelled_minutes hoffset)]
    show (if (hour * 60 + minute) * 60 + 0 = 0 then 0
      else if isBehind then -((((hour * 60 + minute) * 60 + 0) * 1000000 + 0 : Nat) : Int)
      else (((hour * 60 + minute) * 60 + 0) * 1000000 + 0 : Nat)) = _
    cases isBehind with
    | true =>
      simp only [↓reduceIte]
      split
      · omega
      · omega
    | false =>
      simp only [Bool.false_eq_true, ↓reduceIte]
      split
      · omega
      · omega
  rw [Timestamp.counted, hcounted]
  show ((w.dayTime h).moment.micros : Int) - _ = _
  rw [moment_dayTime]

/-! ## One instant, one moment -/

theorem Value.moment?_text (s : String) : (Value.text s).moment? = Moment.ofText? s := rfl

/-- The moment of a text is a matter of the instant that it denotes. A value that is no text denotes none. A
    timestamp denotes the wall clock of its instant in UTC, if the years 1 to 9999 have one, and two of the
    same instant denote the same. A text that gives no time without an offset denotes no moment exactly if it
    is no timestamp, or its instant lies outside these years. -/
theorem Value.moment_by_instant :
    (∀ v : Value, (∀ s, v ≠ .text s) → v.moment? = none) ∧
    (∀ (s : String) (x : Timestamp), x.text = Text.trimList s.toList →
      (∀ w, (Value.text s).moment?.map Moment.wall = some w ↔ w.IsValid ∧ (w.micros : Int) = x.counted) ∧
      ∀ (t : String) (y : Timestamp), y.text = Text.trimList t.toList → x.counted = y.counted →
        (Value.text s).moment? = (Value.text t).moment?) ∧
    (∀ s, (∀ m, ¬ Unzoned (Text.trimList s.toList) m) →
      ((Value.text s).moment? = none ↔ ∀ x : Timestamp, x.text = Text.trimList s.toList →
        ¬ ∃ w : WallClock, w.IsValid ∧ (w.micros : Int) = x.counted)) ∧
    ∀ s m, Unzoned (Text.trimList s.toList) m → (Value.text s).moment? = some m := by
  have hwall {s : String} {x : Timestamp} (hx : x.text = Text.trimList s.toList) (w : WallClock) :
      (Value.text s).moment?.map Moment.wall = some w ↔ w.IsValid ∧ (w.micros : Int) = x.counted := by
    rw [moment?_text, ofText?_timestamp hx]
    exact Moment.wall_ofMicros?
  refine ⟨?_, fun s x hx => ⟨hwall hx, fun t y hy heq => ?_⟩, fun s hunzoned => ⟨?_, ?_⟩,
    fun s m hm => (moment?_text s).trans (ofText?_unzoned hm)⟩
  · intro v hv
    cases v with
    | text s => exact absurd rfl (hv s)
    | null | bool | int | float | list | object => rfl
  · rw [moment?_text, moment?_text, ofText?_timestamp hx, ofText?_timestamp hy, heq]
  · rintro hnone x hx ⟨w, hw⟩
    have hsome := (hwall hx w).mpr hw
    rw [hnone] at hsome
    cases hsome
  · intro hno
    cases hm : (Value.text s).moment? with
    | none => rfl
    | some m =>
      rcases ofText?_cases ((moment?_text s).symm.trans hm) with hm' | ⟨x, hx⟩
      · exact absurd hm' (hunzoned m)
      · refine absurd ⟨m.wall, (hwall hx m.wall).mp ?_⟩ (hno x hx)
        rw [hm]
        rfl

/-- On 29 February at 23:30 in UTC a clock one hour ahead shows 1 March, and both say the same. One hour ahead of
    the first half hour of the year 1 nothing is said, an hour 25 makes no timestamp, and a day alone is midnight. -/
theorem Value.moment_by_instant_leap_day :
    (Value.int 20240229).moment? = none ∧
      (Value.text " 2024-02-29T23:30:00Z").moment? = (Value.text "2024-03-01T00:30:00+01:00").moment? ∧
      (Value.text "2024-03-01T00:30:00+01:00").moment?.map Moment.wall = some ⟨2024, 2, 29, 23, 30, 0, 0⟩ ∧
      (Value.text "0001-01-01T00:30:00+01:00").moment? = none ∧
      (∀ x : Timestamp, x.text = Text.trimList "2024-02-29T25:00:00Z".toList →
        ¬ ∃ w : WallClock, w.IsValid ∧ (w.micros : Int) = x.counted) ∧
      (Value.text "2024-02-29").moment? = some (Moment.ofDate ⟨738944⟩) := by
  have hutc : (WallClock.mk 2024 2 29 23 30 0 0).IsValid := by decide
  have hahead : (WallClock.mk 2024 3 1 0 30 0 0).IsValid := by decide
  have hfirst : (WallClock.mk 1 1 1 0 30 0 0).IsValid := by decide
  have hhour : 1 < 24 ∧ 0 < 60 := by decide
  have hinstant : (WallClock.zulu _ hutc).counted = (WallClock.shifted _ hahead false 1 0 hhour).counted := by
    rw [WallClock.counted_zulu, WallClock.counted_shifted]
    unfold WallClock.micros
    rw [hutc.days_eq, hahead.days_eq]
    rfl
  have hearly : (WallClock.shifted _ hfirst false 1 0 hhour).counted < 0 := by
    rw [WallClock.counted_shifted]
    unfold WallClock.micros
    rw [hfirst.days_eq]
    decide
  have hlate : Moment.ofText? "2024-02-29T25:00:00Z" = none := by decide +kernel
  have hday : Date.ofCivil? 2024 2 29 = some ⟨738944⟩ := by decide
  obtain ⟨hother, hread, hmalformed, hunzoned⟩ := moment_by_instant
  obtain ⟨hzulu, hsame⟩ := hread " 2024-02-29T23:30:00Z" (WallClock.zulu _ hutc) rfl
  have heq := hsame "2024-03-01T00:30:00+01:00" (WallClock.shifted _ hahead false 1 0 hhour) rfl hinstant
  obtain ⟨hnull, -⟩ := hread "0001-01-01T00:30:00+01:00" (WallClock.shifted _ hfirst false 1 0 hhour) rfl
  refine ⟨hother _ nofun, heq, ?_, ?_, ?_, ?_⟩
  · rw [← heq]
    exact (hzulu _).mpr ⟨hutc, (WallClock.counted_zulu hutc).symm⟩
  · refine Option.eq_none_iff_forall_ne_some.mpr fun m hm => ?_
    obtain ⟨-, hmicros⟩ := (hnull m.wall).mp (congrArg (Option.map Moment.wall) hm)
    omega
  · refine (hmalformed "2024-02-29T25:00:00Z" fun m hm => ?_).mp ((moment?_text _).trans hlate)
    rw [ofText?_unzoned hm] at hlate
    cases hlate
  · exact hunzoned _ _ (@Unzoned.day (.ofMonth true 2024 2 29) _ (Date.ofCivil?_eq_some_iff.mp hday))

/-- Half a second after midnight, half a second ahead of UTC. -/
def Iso.halfAhead : Timestamp where
  toDayTime := WallClock.dayTime ⟨2024, 1, 1, 0, 0, 0, 500000⟩ (by decide)
  offset := .shifted false (.ofSecond true 0 0 0 (.fraction ['.'] 6 500000 []))
  offset_spelled :=
    ⟨⟨by decide, by decide, by decide, by decide, by decide, by decide, fun _ => rfl, nofun⟩, rfl, by decide⟩

/-- The same midnight in UTC. -/
def Iso.midnightZulu : Timestamp := WallClock.zulu ⟨2024, 1, 1, 0, 0, 0, 0⟩ (by decide)

/-- An offset of half a second is passed over. So half a second after midnight with this offset, which is
    midnight in UTC, is another moment than midnight. -/
theorem Value.moment_not_by_true_instant :
    ∃ (s t : String) (x y : Timestamp), x.text = Text.trimList s.toList ∧ y.text = Text.trimList t.toList ∧
      x.instant = y.instant ∧ (Value.text s).moment?.isSome ∧ (Value.text t).moment?.isSome ∧
      (Value.text s).moment? ≠ (Value.text t).moment? := by
  have hx : halfAhead.text = Text.trimList "2024-01-01T00:00:00.500000+00:00:00.500000".toList := rfl
  have hy : midnightZulu.text = Text.trimList "2024-01-01T00:00:00Z".toList := rfl
  refine ⟨_, _, halfAhead, midnightZulu, hx, hy, by decide, ?_, ?_, ?_⟩
  · rw [moment?_text, ofText?_timestamp hx]
    decide
  · rw [moment?_text, ofText?_timestamp hy]
    decide
  · rw [moment?_text, moment?_text, ofText?_timestamp hx, ofText?_timestamp hy]
    decide

end Signoff
