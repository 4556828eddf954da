import Mathlib.Data.Int.Order.Basic
import Mathlib.Logic.Function.Basic
import SimpleTcp.Library.Calendar
import SimpleTcp.Library.Transition

/-!
# The timestamps of the log

`LogServer::write` prints a date and a time of the day. A thread keeps the date that it has printed
last and the day to which it belongs, and takes both anew when `mCurrentDate` has gone on. The flush
thread sets `mCurrentDate` after it has flushed its buffers, so a thread may find an old day there,
and it prints the time that has passed since that day.

The threads take their steps in any order. Each reading of the clock is a step of its own, and no
reading is before one that was taken earlier. The flush thread may set its date whenever it likes;
what it flushes is modelled by `LogServer.step`.

## Main definitions

* `LogStamp`: the arguments of the format string that come from the clock
* `LogClock`, `LogClock.step`: the dates that the threads keep, and their steps
* `utc`: the calendar decomposition of a timestamp
* `LogClock.ShowsTimes`: every line shows the time of its timestamp

## Main results

* `utc_hours`, `utc_date_eq_iff`: the hours are those of a day, and the date changes at midnight
* `LogClock.step_inv`: what the threads keep is a date that was right
* `LogClock.showsTimes_iff`: the runs whose lines show the time
-/

namespace SimpleTcp

/-- Nanoseconds since the epoch, as `system_clock` counts them. -/
abbrev TimePoint := ℤ

/-- `duration_cast` cuts off towards the epoch. -/
def duration_cast (unit : ℤ) (now : TimePoint) : ℤ := now.tdiv unit

def duration_cast_days : TimePoint → ℤ := duration_cast 86400000000000

def duration_cast_milliseconds : TimePoint → ℤ := duration_cast 1000000

/-- `system_clock::to_time_t`. -/
def to_time_t : TimePoint → ℤ := duration_cast 1000000000

/-- The fields of `std::tm` that `write` prints. -/
structure Tm where
  tm_year : ℤ
  tm_mon : ℤ
  tm_mday : ℤ
  deriving DecidableEq, Repr

def gmtime_r (t : ℤ) : Tm :=
  let date := CivilDate.ofDays (t / 86400)
  { tm_year := date.year - 1900, tm_mon := date.month - 1, tm_mday := date.day }

/-- What is printed in front of a line. -/
structure LogStamp where
  /-- `tCurDateStr`, by the numbers in it; it is empty at first. -/
  date : Option CivilDate
  hours : ℤ
  minutes : ℤ
  seconds : ℤ
  millis : ℤ
  deriving DecidableEq, Repr

/-- Where a thread is in `write`, before it takes the lock. -/
inductive StampPc where
  | outside
  /-- `tCurDate < mCurrentDate` was true. -/
  | stale
  /-- `tCurDate` is assigned, and the clock is read next. -/
  | loaded
  /-- The timestamp is taken next. -/
  | dated
  deriving DecidableEq, Repr

/-- The `thread_local` variables of `write`. -/
structure ThreadDate where
  tCurDate : ℤ
  tCurDateStr : Option CivilDate
  pc : StampPc

/-- `lines` are the timestamps that were taken, with what was printed for them. -/
structure LogClock where
  mCurrentDate : ℤ
  /-- The last reading of the clock. -/
  clock : TimePoint
  /-- The day that the flush thread has read and assigns next. -/
  reading : Option ℤ
  threads : ℕ → ThreadDate
  lines : List (ℤ × LogStamp)

inductive ClockStep where
  /-- `if (tCurDate < mCurrentDate)`. -/
  | test (t : ℕ)
  /-- `tCurDate = mCurrentDate`. -/
  | load (t : ℕ)
  /-- `tCurDateStr` is made from a reading of the clock. -/
  | date (t : ℕ) (now : TimePoint)
  /-- The timestamp is taken, and the line is formatted. -/
  | stamp (t : ℕ) (now : TimePoint)
  /-- The flush thread reads the clock. -/
  | readDate (now : TimePoint)
  | setDate
  deriving DecidableEq, Repr

/-- `"{:04d}-{:02d}-{:02d}"` prints these numbers. -/
def formatDate (date : Tm) : CivilDate := ⟨date.tm_year + 1900, date.tm_mon + 1, date.tm_mday⟩

/-- The time since the day that the thread keeps. -/
def formatTime (tCurDate : ℤ) (tCurDateStr : Option CivilDate) (timestamp : ℤ) : LogStamp :=
  let suffix := timestamp - tCurDate * 86400000
  let suffixHour := suffix.tdiv 3600000
  let suffix := suffix - suffixHour * 3600000
  let suffixMin := suffix.tdiv 60000
  let suffix := suffix - suffixMin * 60000
  let suffixSec := suffix.tdiv 1000
  let suffix := suffix - suffixSec * 1000
  { date := tCurDateStr, hours := suffixHour, minutes := suffixMin, seconds := suffixSec,
    millis := suffix }

/-- The calendar decomposition of a timestamp, which counts milliseconds. -/
def utc (timestamp : ℤ) : LogStamp where
  date := some (CivilDate.ofDays (timestamp / 86400000))
  hours := timestamp % 86400000 / 3600000
  minutes := timestamp % 3600000 / 60000
  seconds := timestamp % 60000 / 1000
  millis := timestamp % 1000

namespace LogClock

open Function (update)

open Transition (Along Always)

/-- The constructor reads the clock. -/
def create (now : TimePoint) : LogClock where
  mCurrentDate := duration_cast_days now
  clock := now
  reading := none
  threads := fun _ => { tCurDate := 0, tCurDateStr := none, pc := .outside }
  lines := []

def setThread (s : LogClock) (t : ℕ) (thread : ThreadDate) : LogClock :=
  { s with threads := update s.threads t thread }

def step (s : LogClock) : ClockStep → Option LogClock
  | .test t =>
    let thread := s.threads t
    match thread.pc with
    | .outside =>
      -- a thread that is up to date keeps its day and its text
      some (s.setThread t
        { thread with pc := if thread.tCurDate < s.mCurrentDate then .stale else .dated })
    | _ => none
  | .load t =>
    let thread := s.threads t
    match thread.pc with
    -- `mCurrentDate` is read a second time, and may have gone on
    | .stale => some (s.setThread t { thread with tCurDate := s.mCurrentDate, pc := .loaded })
    | _ => none
  | .date t now =>
    let thread := s.threads t
    match thread.pc with
    | .loaded =>
      -- the text is of the clock, and not of the day that was loaded
      if s.clock ≤ now then
        some ({ s with clock := now }.setThread t
          { thread with tCurDateStr := some (formatDate (gmtime_r (to_time_t now))), pc := .dated })
      else none
    | _ => none
  -- the day that is kept may be an old one: it is not compared with the timestamp
  | .stamp t now =>
    let thread := s.threads t
    match thread.pc with
    | .dated =>
      if s.clock ≤ now then
        let timestamp := duration_cast_milliseconds now
        some ({ s with
          clock := now
          lines := s.lines ++
            [(timestamp, formatTime thread.tCurDate thread.tCurDateStr timestamp)] }.setThread t
              { thread with pc := .outside })
      else none
    | _ => none
  | .readDate now =>
    if s.reading = none ∧ s.clock ≤ now then
      some { s with clock := now, reading := some (duration_cast_days now) }
    else none
  | .setDate =>
    match s.reading with
    | some day => some { s with mCurrentDate := day, reading := none }
    | none => none

/-- Every line shows the date and the time of its timestamp. -/
def ShowsTimes (s : LogClock) : Prop := ∀ line ∈ s.lines, line.2 = utc line.1

/-- A thread that takes its timestamp keeps the day of it, which is not the first of the epoch. -/
def KeepsDay (s : LogClock) : ClockStep → Prop
  | .stamp t now =>
    0 < (s.threads t).tCurDate ∧
      (s.threads t).tCurDate = duration_cast_milliseconds now / 86400000
  | _ => True

end LogClock

/-! ### Calendar decompositions -/

theorem utc_hours (timestamp : ℤ) : 0 ≤ (utc timestamp).hours ∧ (utc timestamp).hours ≤ 23 := by
  simp only [utc]
  omega

/-- The date changes at midnight. -/
theorem utc_date_eq_iff {a b : ℤ} : (utc a).date = (utc b).date ↔ a / 86400000 = b / 86400000 := by
  simp only [utc, Option.some.injEq, CivilDate.ofDays_inj]

theorem formatDate_gmtime_r (t : ℤ) : formatDate (gmtime_r t) = CivilDate.ofDays (t / 86400) := by
  simp [formatDate, gmtime_r]

/-- Readings of the clock are cut off in order. -/
theorem duration_cast_mono {unit a b : ℤ} (hunit : 0 < unit) (h : a ≤ b) :
    duration_cast unit a ≤ duration_cast unit b :=
  Int.tdiv_le_tdiv hunit h

theorem duration_cast_days_mono {a b : TimePoint} (h : a ≤ b) :
    duration_cast_days a ≤ duration_cast_days b :=
  duration_cast_mono (by decide) h

/-- What is past the epoch when it is cut off was past it before. -/
theorem nonneg_of_cast_pos {unit now : ℤ} (hunit : 0 < unit) (h : 0 < duration_cast unit now) :
    0 ≤ now := by
  by_contra hneg
  have hle : duration_cast unit now ≤ (0 : ℤ).tdiv unit :=
    duration_cast_mono hunit (not_le.mp hneg).le
  rw [Int.zero_tdiv] at hle
  exact absurd h (not_lt.mpr hle)

/-- Past the first day, the date of a reading is that of its day. -/
theorem formatDate_of_days_pos {now : TimePoint} (h : 0 < duration_cast_days now) :
    formatDate (gmtime_r (to_time_t now)) = CivilDate.ofDays (duration_cast_days now) := by
  have hnow : 0 ≤ now := nonneg_of_cast_pos (by decide) h
  have hseconds : to_time_t now = now / 1000000000 := Int.tdiv_eq_ediv_of_nonneg hnow
  have hdays : duration_cast_days now = now / 86400000000000 := Int.tdiv_eq_ediv_of_nonneg hnow
  rw [formatDate_gmtime_r, hseconds, hdays, Int.ediv_ediv_of_nonneg (by decide)]
  rfl

/-- Past the first day, the day of a reading is that of its timestamp. -/
theorem days_of_timestamp {now : TimePoint} (h : 0 < duration_cast_milliseconds now / 86400000) :
    duration_cast_days now = duration_cast_milliseconds now / 86400000 := by
  have hpos : 0 < duration_cast 1000000 now := by
    change 0 < duration_cast_milliseconds now
    omega
  have hnow : 0 ≤ now := nonneg_of_cast_pos (by decide) hpos
  have hmillis : duration_cast_milliseconds now = now / 1000000 := Int.tdiv_eq_ediv_of_nonneg hnow
  have hdays : duration_cast_days now = now / 86400000000000 := Int.tdiv_eq_ediv_of_nonneg hnow
  rw [hmillis, hdays, Int.ediv_ediv_of_nonneg (by decide)]
  rfl

/-- The time since midnight of the day is the time of the day. -/
theorem formatTime_of_day (timestamp : ℤ) :
    formatTime (timestamp / 86400000) (some (CivilDate.ofDays (timestamp / 86400000))) timestamp =
      utc timestamp := by
  -- from the day down, each unit is taken from what the larger ones leave
  have hsuffix : timestamp - timestamp / 86400000 * 86400000 = timestamp % 86400000 := by omega
  have hhour : (timestamp % 86400000).tdiv 3600000 = timestamp % 86400000 / 3600000 :=
    Int.tdiv_eq_ediv_of_nonneg (by omega)
  have hrest : timestamp % 86400000 - timestamp % 86400000 / 3600000 * 3600000 =
      timestamp % 3600000 := by omega
  have hmin : (timestamp % 3600000).tdiv 60000 = timestamp % 3600000 / 60000 :=
    Int.tdiv_eq_ediv_of_nonneg (by omega)
  have hrest' : timestamp % 3600000 - timestamp % 3600000 / 60000 * 60000 = timestamp % 60000 := by
    omega
  have hsec : (timestamp % 60000).tdiv 1000 = timestamp % 60000 / 1000 :=
    Int.tdiv_eq_ediv_of_nonneg (by omega)
  have hmillis : timestamp % 60000 - timestamp % 60000 / 1000 * 1000 = timestamp % 1000 := by omega
  simp only [formatTime, utc, hsuffix, hhour, hrest, hmin, hrest', hsec, hmillis]

/-- A time that is right was counted from the day of the timestamp. -/
theorem day_of_formatTime {tCurDate timestamp : ℤ} {tCurDateStr : Option CivilDate}
    (h : formatTime tCurDate tCurDateStr timestamp = utc timestamp) :
    tCurDate = timestamp / 86400000 := by
  -- what is left of the suffix in the end is below a second, so the units add up to the suffix
  simp only [formatTime, utc, LogStamp.mk.injEq] at h
  omega

namespace LogClock

open Function (update)

open Transition (Along Always)

/-! ### Steps -/

/-- The text is that of a reading, which is not before the day that is kept. -/
def ThreadDate.Read (thread : ThreadDate) (clock : TimePoint) : Prop :=
  thread.tCurDate = 0 ∧ thread.tCurDateStr = none ∨
    0 < thread.tCurDate ∧ ∃ now ≤ clock, thread.tCurDate ≤ duration_cast_days now ∧
      thread.tCurDateStr = some (formatDate (gmtime_r (to_time_t now)))

/-- What holds of a thread while `mCurrentDate` is `date` and the clock has been read. -/
structure Keeps (thread : ThreadDate) (date : ℤ) (clock : TimePoint) : Prop where
  nonneg : 0 ≤ thread.tCurDate
  stale : thread.pc = .stale → thread.tCurDate < date
  loaded : thread.pc = .loaded → 0 < thread.tCurDate ∧ thread.tCurDate ≤ date
  read : thread.pc ≠ .loaded → ThreadDate.Read thread clock

/-- What the steps keep. -/
structure Inv (s : LogClock) : Prop where
  current : s.mCurrentDate ≤ duration_cast_days s.clock
  reading : ∀ day ∈ s.reading, s.mCurrentDate ≤ day ∧ day ≤ duration_cast_days s.clock
  threads : ∀ t, Keeps (s.threads t) s.mCurrentDate s.clock

variable {s s' : LogClock} {i : ClockStep} {thread : ThreadDate}

theorem create_inv (now : TimePoint) : (create now).Inv where
  current := le_refl _
  reading := fun _ h => by cases h
  threads := fun _ =>
    ⟨le_refl _, fun h => (by cases h), fun h => (by cases h), fun _ => .inl ⟨rfl, rfl⟩⟩

/-- Time goes on. -/
theorem Keeps.mono {date date' : ℤ} {clock clock' : TimePoint} (h : Keeps thread date clock)
    (hdate : date ≤ date') (hclock : clock ≤ clock') : Keeps thread date' clock' where
  nonneg := h.nonneg
  stale := fun hpc => (h.stale hpc).trans_le hdate
  loaded := fun hpc => ⟨(h.loaded hpc).1, (h.loaded hpc).2.trans hdate⟩
  read := fun hpc => (h.read hpc).imp_right fun ⟨hpos, now, hnow, hday, htext⟩ =>
    ⟨hpos, now, hnow.trans hclock, hday, htext⟩

/-- The clock goes on. -/
theorem Inv.advance (h : s.Inv) {now : TimePoint} (hnow : s.clock ≤ now) :
    Inv { s with clock := now } where
  current := h.current.trans (duration_cast_days_mono hnow)
  reading := fun day hday =>
    ⟨(h.reading day hday).1, (h.reading day hday).2.trans (duration_cast_days_mono hnow)⟩
  threads := fun t => (h.threads t).mono (le_refl _) hnow

/-- One thread goes on. -/
theorem Inv.setThread (h : s.Inv) {t : ℕ} (hthread : Keeps thread s.mCurrentDate s.clock) :
    (s.setThread t thread).Inv where
  current := h.current
  reading := h.reading
  threads := fun u => by
    change Keeps (update s.threads t thread u) s.mCurrentDate s.clock
    by_cases hu : u = t
    · rw [hu, Function.update_self]
      exact hthread
    · rw [Function.update_of_ne hu]
      exact h.threads u

/-- **What a thread keeps is a date that was right** when it was made. -/
theorem step_inv (h : s.Inv) (hstep : s.step i = some s') : s'.Inv := by
  cases i with
  | test t =>
    have ht := h.threads t
    simp only [step] at hstep
    split at hstep <;> cases hstep
    next hpc =>
    have hread := ht.read (by simp [hpc])
    apply h.setThread
    by_cases hstale : (s.threads t).tCurDate < s.mCurrentDate
    · rw [if_pos hstale]
      exact ⟨ht.nonneg, fun _ => hstale, fun hloaded => (by cases hloaded), fun _ => hread⟩
    · rw [if_neg hstale]
      exact ⟨ht.nonneg, fun hstale => (by cases hstale), fun hloaded => (by cases hloaded),
        fun _ => hread⟩
  | load t =>
    have ht := h.threads t
    simp only [step] at hstep
    split at hstep <;> cases hstep
    next hpc =>
    -- the day has not gone back since it was tested
    have hpos : 0 < s.mCurrentDate := ht.nonneg.trans_lt (ht.stale hpc)
    exact h.setThread ⟨hpos.le, fun hstale => (by cases hstale), fun _ => ⟨hpos, le_refl _⟩,
      fun hnot => absurd rfl hnot⟩
  | date t now =>
    have ht := h.threads t
    simp only [step] at hstep
    split at hstep
    · next hpc =>
      split at hstep <;> cases hstep
      next hnow =>
      obtain ⟨hpos, hle⟩ := ht.loaded hpc
      have hday : (s.threads t).tCurDate ≤ duration_cast_days now :=
        hle.trans (h.current.trans (duration_cast_days_mono hnow))
      exact (h.advance hnow).setThread ⟨ht.nonneg, fun hstale => (by cases hstale),
        fun hloaded => (by cases hloaded), fun _ => .inr ⟨hpos, now, le_refl _, hday, rfl⟩⟩
    · cases hstep
  | stamp t now =>
    have ht := h.threads t
    simp only [step] at hstep
    split at hstep
    · next hpc =>
      split at hstep <;> cases hstep
      next hnow =>
      have hkeeps := ht.mono (le_refl s.mCurrentDate) hnow
      have houtside : Keeps { s.threads t with pc := .outside } s.mCurrentDate now :=
        ⟨ht.nonneg, fun hstale => (by cases hstale), fun hloaded => (by cases hloaded),
          fun _ => hkeeps.read (by simp [hpc])⟩
      have hinv := (h.advance hnow).setThread (t := t) houtside
      exact ⟨hinv.current, hinv.reading, hinv.threads⟩
    · cases hstep
  | readDate now =>
    simp only [step] at hstep
    split at hstep <;> cases hstep
    next hnow =>
    have hinv := h.advance hnow.2
    refine ⟨hinv.current, fun day hday => ?_, hinv.threads⟩
    cases hday
    exact ⟨hinv.current, le_refl _⟩
  | setDate =>
    simp only [step] at hstep
    split at hstep <;> cases hstep
    next day hreading =>
    obtain ⟨hle, hday⟩ := h.reading day hreading
    exact ⟨hday, fun _ hnone => (by cases hnone), fun t => (h.threads t).mono hle (le_refl _)⟩

/-! ### Lines -/

/-- A line is added when a timestamp is taken. -/
theorem step_lines (hstep : s.step i = some s') :
    (∃ t now, i = .stamp t now ∧ (s.threads t).pc = .dated ∧ s.clock ≤ now ∧
      s'.lines = s.lines ++ [(duration_cast_milliseconds now,
        formatTime (s.threads t).tCurDate (s.threads t).tCurDateStr
          (duration_cast_milliseconds now))]) ∨
      (∀ t now, i ≠ .stamp t now) ∧ s'.lines = s.lines := by
  cases i with
  | stamp t now =>
    left
    simp only [step] at hstep
    split at hstep
    · next hpc =>
      split at hstep <;> cases hstep
      next hnow => exact ⟨t, now, rfl, hpc, hnow, rfl⟩
    · cases hstep
  | date t now =>
    right
    simp only [step] at hstep
    split at hstep
    · split at hstep <;> cases hstep
      exact ⟨by simp, rfl⟩
    · cases hstep
  | test t | load t | readDate now | setDate =>
    right
    simp only [step] at hstep
    split at hstep <;> cases hstep
    exact ⟨by simp, rfl⟩

/-- **What is printed is the time** exactly if the thread keeps the day of the timestamp. -/
theorem formatTime_eq_utc_iff (h : s.Inv) {t : ℕ} {now : TimePoint}
    (hpc : (s.threads t).pc = .dated) (hnow : s.clock ≤ now) :
    formatTime (s.threads t).tCurDate (s.threads t).tCurDateStr (duration_cast_milliseconds now) =
        utc (duration_cast_milliseconds now) ↔
      s.KeepsDay (.stamp t now) := by
  have hread := (h.threads t).read (by simp [hpc])
  constructor
  · intro htime
    refine ⟨?_, day_of_formatTime htime⟩
    -- a thread without a text has not met a day
    rcases hread with ⟨-, hnone⟩ | ⟨hpos, -⟩
    · have hdate := congrArg LogStamp.date htime
      rw [hnone] at hdate
      cases hdate
    · exact hpos
  · rintro ⟨hpos, hday⟩
    rcases hread with ⟨hzero, -⟩ | ⟨-, read, hread, hle, htext⟩
    · omega
    · -- the text was made between the day that is kept and the timestamp
      have hdays : duration_cast_days now = (s.threads t).tCurDate :=
        (days_of_timestamp (hday ▸ hpos)).trans hday.symm
      have hge : duration_cast_days read ≤ duration_cast_days now :=
        duration_cast_days_mono (hread.trans hnow)
      have hsame : duration_cast_days read = (s.threads t).tCurDate := by omega
      rw [htext, formatDate_of_days_pos (hsame ▸ hpos), hsame, hday]
      exact formatTime_of_day _

theorem step_showsTimes (h : s.Inv) (hstep : s.step i = some s') (hshows : s.ShowsTimes) :
    s'.ShowsTimes ↔ s.KeepsDay i := by
  rcases step_lines hstep with ⟨t, now, rfl, hpc, hnow, hlines⟩ | ⟨hnot, hlines⟩
  · rw [← formatTime_eq_utc_iff h hpc hnow, ShowsTimes, hlines, List.forall_mem_append]
    simp only [List.forall_mem_singleton]
    exact and_iff_right hshows
  · rw [ShowsTimes, hlines]
    refine iff_of_true hshows ?_
    cases i with
    | stamp t now => exact absurd rfl (hnot t now)
    | _ => trivial

/-- **Every line shows the time of its timestamp** exactly when every thread keeps the day of each
timestamp that it takes. -/
theorem showsTimes_iff (start : TimePoint) (is : List ClockStep) :
    Always step ShowsTimes (create start) is ↔ Along step KeepsDay (create start) is :=
  Transition.always_iff_along (I := fun s => s.Inv ∧ s.ShowsTimes) (fun _ h => h.2)
    (fun _ _ _ h hkeeps hstep =>
      ⟨step_inv h.1 hstep, (step_showsTimes h.1 hstep h.2).mpr hkeeps⟩)
    (fun _ _ _ h hstep hshows => (step_showsTimes h.1 hstep h.2).mp hshows)
    ⟨create_inv start, fun _ h => (by cases h)⟩

/-- A thread writes a line before midnight and another one behind it, which shows the hour 24 of the
day before. -/
theorem not_showsTimes : ¬ ∀ start is, Always step ShowsTimes (create start) is := by
  intro h
  have hrun : ∃ s, Transition.run step (create 1699999000000000000) [.test 0, .load 0,
      .date 0 1700006399000000000, .stamp 0 1700006399000000000, .test 0,
      .stamp 0 1700006401000000000] = some s ∧
        s.lines[1]? = some (1700006401000,
          { date := some ⟨2023, 11, 14⟩, hours := 24, minutes := 0, seconds := 1, millis := 0 }) :=
    ⟨_, rfl, rfl⟩
  obtain ⟨s, hrun, hline⟩ := hrun
  have hshows := h _ _ _ s List.prefix_rfl hrun _ (List.mem_of_getElem? hline)
  exact absurd hshows (by decide)

end LogClock

end SimpleTcp
