/-
  Moving forward in time.

  Outside leap seconds an instant is a number of nanoseconds (`Instant.clock`), and a movement adds to
  it.  A leap second stands on top of the second before it: from inside, a movement first goes to its
  end, and only there does it join the clock, a second behind the sum.

  1. **Steps.**  Two movements forward, one after the other, are one (`Instant.addNanoseconds?_add`),
     so a movement that stays in the calendar can be made in parts (`Instant.addNanoseconds?_between`).

  2. **There and back.**  The time between two instants is one second less, or none, than a movement
     from one to the other (`Instant.Forward.nanosecondsSince_eq`).  It is such a movement exactly if no
     leap second disturbs it (`Instant.addNanoseconds?_nanosecondsSince_iff`).
-/
import GanttChart.Proofs.Chart.Offset

namespace GanttChart

namespace Instant

variable {t u m : Instant} {d e : Int}

/-! ## The clock

  Seconds and nanoseconds of an instant are put together to one number, in which movements are
  additions.  Where the number does not tell two instants apart, one of them is in a leap second. -/

/-- Nanoseconds since the epoch.  A leap second overlaps the second after it. -/
def clock (t : Instant) : Int := t.timestamp * 1000000000 + t.time.nanosecond

/-- Outside leap seconds the clock tells instants apart. -/
theorem eq_of_clock_eq (ht : ¬t.InLeapSecond) (hu : ¬u.InLeapSecond) (h : t.clock = u.clock) :
    t = u := by
  unfold InLeapSecond at ht hu
  unfold clock at h
  apply key_injective
  rw [key_eq_timestamp, key_eq_timestamp]
  omega

/-- Counts that are carried over give an instant outside leap seconds, whose clock is their sum. -/
theorem of_carry?_eq_some {day second nanosecond : Int} (h : carry? day second nanosecond = some t) :
    ¬t.InLeapSecond ∧ t.clock = (day * 86400 + second) * 1000000000 + nanosecond := by
  obtain ⟨hday, hsecond, hnano⟩ := of_carry? h
  unfold InLeapSecond clock timestamp
  omega

/-- Counts that are carried over are the instant outside leap seconds that the clock shows. -/
theorem carry?_eq_some_iff {day second nanosecond : Int} :
    carry? day second nanosecond = some t ↔
      ¬t.InLeapSecond ∧ t.clock = (day * 86400 + second) * 1000000000 + nanosecond := by
  refine ⟨of_carry?_eq_some, fun ⟨hplain, hclock⟩ => ?_⟩
  have hday : day + (second + nanosecond / 1000000000) / 86400 = t.date.number := by
    have hsecond := t.time.second_lt
    unfold InLeapSecond at hplain
    unfold clock timestamp at hclock
    omega
  obtain ⟨u, hu⟩ : ∃ u, carry? day second nanosecond = some u := by
    unfold carry?
    simp only [hday, t.date.ofNumber?_number, Option.map_some, Option.some.injEq, exists_eq']
  obtain ⟨hplain', hclock'⟩ := of_carry?_eq_some hu
  rw [hu, eq_of_clock_eq hplain' hplain (hclock'.trans hclock.symm)]

/-- Between two instants of the calendar the clock shows every number. -/
theorem exists_clock {c : Int} (hlow : t.timestamp * 1000000000 ≤ c) (hhigh : c ≤ u.clock)
    (hu : ¬u.InLeapSecond) : ∃ m : Instant, ¬m.InLeapSecond ∧ m.clock = c := by
  -- the day of the number lies between the days of the two instants
  have hday : t.date.number ≤ (0 + c / 1000000000) / 86400 ∧
      (0 + c / 1000000000) / 86400 ≤ u.date.number := by
    have hsecond := u.time.second_lt
    unfold InLeapSecond at hu
    unfold timestamp at hlow
    unfold clock timestamp at hhigh
    omega
  obtain ⟨date, hdate⟩ : ∃ date, Date.ofNumber? (0 + (0 + c / 1000000000) / 86400) = some date := by
    have hfirst := t.date.first_le
    have hlast := u.date.lt_end
    unfold Date.ofNumber?
    rw [dif_pos (by omega)]
    exact ⟨_, rfl⟩
  obtain ⟨m, hm⟩ : ∃ m, carry? 0 0 c = some m := by
    unfold carry?
    simp only [hdate, Option.map_some, Option.some.injEq, exists_eq']
  obtain ⟨hplain, hclock⟩ := of_carry?_eq_some hm
  exact ⟨m, hplain, by omega⟩

/-- Inside a leap second every nanosecond up to its end is an instant. -/
theorem exists_inside (ht : t.InLeapSecond) (hd : 0 ≤ d)
    (hd' : t.time.nanosecond + d < 2000000000) :
    ∃ m : Instant, m.InLeapSecond ∧ m.timestamp = t.timestamp ∧
      (m.time.nanosecond : Int) = t.time.nanosecond + d := by
  have hnano : ((t.time.nanosecond + d).toNat : Int) = t.time.nanosecond + d :=
    Int.toNat_of_nonneg (by omega)
  refine ⟨⟨t.date, ⟨t.time.second, (t.time.nanosecond + d).toNat, t.time.second_lt, by omega,
    fun _ => t.time.leap_at_minute ht⟩⟩, ?_, rfl, hnano⟩
  unfold InLeapSecond at ht ⊢
  dsimp only
  omega

/-! ## One movement -/

/-- A movement forward leads from one instant to another. -/
inductive Forward (t : Instant) (d : Int) (u : Instant) : Prop
  /-- Outside leap seconds the clock goes on. -/
  | plain (ht : ¬t.InLeapSecond) (hu : ¬u.InLeapSecond) (hclock : u.clock = t.clock + d)
  /-- Up to the end of a leap second the instant stays inside. -/
  | stays (ht : t.InLeapSecond) (hu : u.InLeapSecond) (htimestamp : u.timestamp = t.timestamp)
      (hnano : (u.time.nanosecond : Int) = t.time.nanosecond + d)
  /-- Past its end the clock is a second behind. -/
  | leaves (ht : t.InLeapSecond) (hpast : 2000000000 ≤ t.time.nanosecond + d)
      (hu : ¬u.InLeapSecond) (hclock : u.clock = t.clock + d - 1000000000)

/-- From outside leap seconds a movement adds to the clock. -/
theorem addNanoseconds?_of_plain (ht : ¬t.InLeapSecond) :
    t.addNanoseconds? d = some u ↔ ¬u.InLeapSecond ∧ u.clock = t.clock + d := by
  have hsplit := Int.mul_tdiv_add_tmod d 1000000000
  unfold InLeapSecond at ht
  unfold addNanoseconds?
  rw [dif_neg ht, carry?_eq_some_iff]
  refine and_congr_right fun _ => ?_
  unfold clock timestamp
  omega

/-- Within a leap second a movement only adds to the nanoseconds. -/
theorem addNanoseconds?_of_stays (ht : t.InLeapSecond) (hd : 0 ≤ d)
    (hstays : t.time.nanosecond + d < 2000000000) :
    t.addNanoseconds? d = some u ↔ u.timestamp = t.timestamp ∧
      (u.time.nanosecond : Int) = t.time.nanosecond + d := by
  have hseconds : d.tdiv 1000000000 = 0 := Int.tdiv_eq_zero_of_lt hd (by
    unfold InLeapSecond at ht
    omega)
  have hpart : d.tmod 1000000000 = d := by
    have hsplit := Int.mul_tdiv_add_tmod d 1000000000
    omega
  unfold InLeapSecond at ht
  unfold addNanoseconds?
  simp only [hseconds, hpart]
  rw [dif_pos ht, dif_neg (by omega), if_neg (by omega), Option.some.injEq]
  constructor
  · rintro rfl
    exact ⟨rfl, Int.toNat_of_nonneg (by omega)⟩
  · rintro ⟨htimestamp, hnano⟩
    apply key_injective
    rw [key_eq_timestamp u, htimestamp, hnano]
    unfold key timestamp
    dsimp only
    omega

/-- Past the end of a leap second the clock goes on, but the leap second itself is not counted. -/
theorem addNanoseconds?_of_leaves (ht : t.InLeapSecond)
    (hleaves : 2000000000 ≤ t.time.nanosecond + d) :
    t.addNanoseconds? d = some u ↔ ¬u.InLeapSecond ∧ u.clock = t.clock + d - 1000000000 := by
  have hnano := t.time.nanosecond_lt
  have hsplit := Int.mul_tdiv_add_tmod d 1000000000
  have hpart := Int.tmod_nonneg 1000000000 (by omega : 0 ≤ d)
  have hseconds := Int.tdiv_nonneg (by omega : 0 ≤ d) (by decide : (0 : Int) ≤ 1000000000)
  unfold InLeapSecond at ht
  unfold addNanoseconds?
  rw [dif_pos ht, dif_pos (by omega), carry?_eq_some_iff]
  refine and_congr_right fun _ => ?_
  unfold clock timestamp
  omega

/-- **What a movement forward does.** -/
theorem addNanoseconds?_eq_some_iff (hd : 0 ≤ d) :
    t.addNanoseconds? d = some u ↔ Forward t d u := by
  -- one case for each of the three ways; in each of them the two other constructors are
  -- contradictory
  by_cases ht : t.InLeapSecond
  case neg =>
    rw [addNanoseconds?_of_plain ht]
    constructor
    · rintro ⟨hu, hclock⟩
      exact .plain ht hu hclock
    · rintro (⟨_, hu, hclock⟩ | ⟨ht', _, _, _⟩ | ⟨ht', _, _, _⟩)
      · exact ⟨hu, hclock⟩
      · exact absurd ht' ht
      · exact absurd ht' ht
  case pos =>
    by_cases hpast : t.time.nanosecond + d < 2000000000
    · rw [addNanoseconds?_of_stays ht hd hpast]
      constructor
      · rintro ⟨htimestamp, hnano⟩
        refine .stays ht ?_ htimestamp hnano
        unfold InLeapSecond at ht ⊢
        omega
      · rintro (⟨ht', _, _⟩ | ⟨_, _, htimestamp, hnano⟩ | ⟨_, hpast', _, _⟩)
        · exact absurd ht ht'
        · exact ⟨htimestamp, hnano⟩
        · omega
    · rw [addNanoseconds?_of_leaves ht (by omega)]
      constructor
      · rintro ⟨hu, hclock⟩
        exact .leaves ht (by omega) hu hclock
      · rintro (⟨ht', _, _⟩ | ⟨_, _, _, hnano⟩ | ⟨_, _, hu, hclock⟩)
        · exact absurd ht ht'
        · have := u.time.nanosecond_lt
          omega
        · exact ⟨hu, hclock⟩

/-- A movement back ends earlier. -/
theorem lt_of_addNanoseconds?_neg (hd : d < 0) (h : t.addNanoseconds? d = some u) : u < t := by
  show u.key < t.key
  rw [key_eq_timestamp, key_eq_timestamp]
  by_cases ht : t.InLeapSecond
  case neg =>
    obtain ⟨hu, hclock⟩ := (addNanoseconds?_of_plain ht).1 h
    unfold InLeapSecond at ht hu
    unfold clock at hclock
    omega
  case pos =>
    have hnano := t.time.nanosecond_lt
    have hsplit := Int.mul_tdiv_add_tmod d 1000000000
    have hpart : 0 ≤ (-d).tmod 1000000000 := Int.tmod_nonneg 1000000000 (by omega)
    have hpart' := Int.tmod_lt_of_pos (-d) (by decide : (0 : Int) < 1000000000)
    rw [Int.neg_tmod] at hpart hpart'
    unfold InLeapSecond at ht
    unfold addNanoseconds? at h
    rw [dif_pos ht, dif_neg (by omega)] at h
    split at h
    · -- out of the leap second
      obtain ⟨hu, hclock⟩ := of_carry?_eq_some h
      unfold InLeapSecond at hu
      unfold clock timestamp at hclock
      unfold timestamp
      omega
    · -- to an earlier place in the same second
      have heq := Option.some.inj h
      subst heq
      unfold timestamp
      dsimp only
      omega

/-! ## Steps -/

/-- A movement forward does not lead back. -/
theorem Forward.le (hd : 0 ≤ d) (h : Forward t d u) : t ≤ u := by
  rw [le_iff, key_eq_timestamp, key_eq_timestamp]
  rcases h with ⟨ht, hu, hclock⟩ | ⟨_, _, htimestamp, hnano⟩ | ⟨ht, hpast, hu, hclock⟩
  · unfold InLeapSecond at ht hu
    unfold clock at hclock
    omega
  · omega
  · have hnano := t.time.nanosecond_lt
    unfold InLeapSecond at hu
    unfold clock at hclock
    omega

/-- Two movements forward make one.  A leap second can only be left once. -/
theorem Forward.trans (he : 0 ≤ e) (h : Forward t d m) (h' : Forward m e u) :
    Forward t (d + e) u := by
  -- the first movement decides where the second one starts, which leaves one or two cases of it
  rcases h with ⟨ht, hm, hclock⟩ | ⟨ht, hm, htimestamp, hnano⟩ | ⟨ht, hpast, hm, hclock⟩
  case plain =>
    rcases h' with ⟨_, hu, hclock'⟩ | ⟨hm', _, _, _⟩ | ⟨hm', _, _, _⟩
    · exact .plain ht hu (by omega)
    · exact absurd hm' hm
    · exact absurd hm' hm
  case stays =>
    rcases h' with ⟨hm', _, _⟩ | ⟨_, hu, htimestamp', hnano'⟩ | ⟨_, hpast', hu, hclock'⟩
    · exact absurd hm hm'
    · exact .stays ht hu (htimestamp'.trans htimestamp) (by omega)
    · refine .leaves ht (by omega) hu ?_
      unfold clock at hclock' ⊢
      omega
  case leaves =>
    rcases h' with ⟨_, hu, hclock'⟩ | ⟨hm', _, _, _⟩ | ⟨hm', _, _, _⟩
    · exact .leaves ht (by omega) hu (by omega)
    · exact absurd hm' hm
    · exact absurd hm' hm

/-- A movement forward can be made in two steps. -/
theorem Forward.split (hd : 0 ≤ d) (he : 0 ≤ e) (h : Forward t (d + e) u) :
    ∃ m, Forward t d m ∧ Forward m e u := by
  -- the instant between is found on the clock, or inside the leap second if the first part ends
  -- there
  rcases h with ⟨ht, hu, hclock⟩ | ⟨ht, hu, htimestamp, hnano⟩ | ⟨ht, hpast, hu, hclock⟩
  case plain =>
    obtain ⟨m, hm, hclock'⟩ := exists_clock (t := t) (c := t.clock + d)
      (by unfold clock; omega) (by omega) hu
    exact ⟨m, .plain ht hm hclock', .plain hm hu (by omega)⟩
  case stays =>
    obtain ⟨m, hm, htimestamp', hnano'⟩ := exists_inside ht hd
      (by have := u.time.nanosecond_lt; omega)
    exact ⟨m, .stays ht hm htimestamp' hnano',
      .stays hm hu (htimestamp.trans htimestamp'.symm) (by omega)⟩
  case leaves =>
    by_cases hstays : t.time.nanosecond + d < 2000000000
    · obtain ⟨m, hm, htimestamp', hnano'⟩ := exists_inside ht hd hstays
      refine ⟨m, .stays ht hm htimestamp' hnano', .leaves hm (by omega) hu ?_⟩
      unfold clock at hclock ⊢
      omega
    · obtain ⟨m, hm, hclock'⟩ := exists_clock (t := t) (c := t.clock + d - 1000000000)
        (by unfold clock; omega) (by omega) hu
      exact ⟨m, .leaves ht (by omega) hm hclock', .plain hm hu (by omega)⟩

/-- **Two movements forward are one.** -/
theorem addNanoseconds?_add (hd : 0 ≤ d) (he : 0 ≤ e) :
    ((t.addNanoseconds? d).bind fun m => m.addNanoseconds? e) = t.addNanoseconds? (d + e) := by
  ext u
  rw [Option.bind_eq_some_iff, addNanoseconds?_eq_some_iff (Int.add_nonneg hd he)]
  simp only [addNanoseconds?_eq_some_iff hd, addNanoseconds?_eq_some_iff he]
  constructor
  · rintro ⟨m, h, h'⟩
    exact h.trans he h'
  · exact Forward.split hd he

/-- So a sum of an instant and a time is no earlier than the instant. -/
theorem le_of_addNanoseconds? (hd : 0 ≤ d) (h : t.addNanoseconds? d = some u) : t ≤ u :=
  ((addNanoseconds?_eq_some_iff hd).1 h).le hd

/-- **A movement part of the way** to an instant stays in the calendar, and the rest leads there. -/
theorem addNanoseconds?_between (hd : 0 ≤ d) (hde : d ≤ e) (h : t.addNanoseconds? e = some u) :
    ∃ m, t.addNanoseconds? d = some m ∧ m.addNanoseconds? (e - d) = some u := by
  have hrest : 0 ≤ e - d := Int.sub_nonneg_of_le hde
  have hsum : e = d + (e - d) := by omega
  rwa [hsum, ← addNanoseconds?_add hd hrest, Option.bind_eq_some_iff] at h

/-! ## There and back -/

/-- Whole milliseconds are off by less than one. -/
theorem millisecondsSince_near (u t : Instant) :
    u.millisecondsSince t * 1000000 < u.nanosecondsSince t + 1000000 ∧
      u.nanosecondsSince t < u.millisecondsSince t * 1000000 + 1000000 := by
  have hsplit := Int.mul_tdiv_add_tmod (u.nanosecondsSince t) 1000000
  have hlow := Int.lt_tmod_of_pos (u.nanosecondsSince t) (by decide : (0 : Int) < 1000000)
  have hhigh := Int.tmod_lt_of_pos (u.nanosecondsSince t) (by decide : (0 : Int) < 1000000)
  unfold millisecondsSince
  omega

/-- Forward in time they are not more than the time. -/
theorem millisecondsSince_mul_le (h : 0 ≤ u.nanosecondsSince t) :
    u.millisecondsSince t * 1000000 ≤ u.nanosecondsSince t := by
  have hsplit := Int.mul_tdiv_add_tmod (u.nanosecondsSince t) 1000000
  have hpart := Int.tmod_nonneg 1000000 h
  unfold millisecondsSince
  omega

/-- Within one second no leap second is counted. -/
theorem leapBetween_of_timestamp_eq (h : u.timestamp = t.timestamp) :
    leapBetween u.time t.time = 0 := by
  have hlt := u.time.second_lt
  have hlt' := t.time.second_lt
  unfold timestamp at h
  unfold leapBetween
  rw [if_neg (by omega), if_neg (by omega)]

/-- Outside leap seconds the time is the difference of the clocks. -/
theorem nanosecondsSince_of_plain (hu : ¬u.InLeapSecond) (ht : ¬t.InLeapSecond) :
    u.nanosecondsSince t = u.clock - t.clock := by
  unfold nanosecondsSince clock
  rw [leapBetween_eq_zero hu ht]
  omega

/-- The time that is measured may miss the second that a movement takes to leave a leap second. -/
theorem Forward.nanosecondsSince_eq (h : Forward t d u) :
    u.nanosecondsSince t = d ∨ u.nanosecondsSince t = d - 1000000000 := by
  rcases h with ⟨ht, hu, hclock⟩ | ⟨ht, hu, htimestamp, hnano⟩ | ⟨ht, hpast, hu, hclock⟩
  case plain =>
    rw [nanosecondsSince_of_plain hu ht]
    omega
  case stays =>
    unfold nanosecondsSince
    rw [leapBetween_of_timestamp_eq htimestamp]
    omega
  case leaves =>
    unfold InLeapSecond at ht hu
    unfold clock at hclock
    unfold nanosecondsSince leapBetween
    split
    · omega
    · rw [if_neg (by omega)]
      omega

/-- What lies between two instants is measured as it is: both are in one leap second; or the later one
    is in none, and the earlier one is in none or has the earlier time of day, so that its leap
    second is counted. -/
def Undisturbed (start finish : Instant) : Prop :=
  if finish.InLeapSecond then start.InLeapSecond ∧ start.timestamp = finish.timestamp
  else start.InLeapSecond → start.time.second < finish.time.second

instance (start finish : Instant) : Decidable (Undisturbed start finish) :=
  inferInstanceAs (Decidable (if finish.InLeapSecond then _ else _))

/-- Outside leap seconds nothing is disturbed. -/
theorem Undisturbed.of_plain (hu : ¬u.InLeapSecond) (ht : ¬t.InLeapSecond) : Undisturbed t u := by
  unfold Undisturbed
  rw [if_neg hu]
  exact fun hleap => absurd hleap ht

/-- If the time from an instant to another leads there, it is undisturbed. -/
theorem Forward.undisturbed (h : Forward t (u.nanosecondsSince t) u) : Undisturbed t u := by
  rcases h with ⟨ht, hu, _⟩ | ⟨ht, hu, htimestamp, _⟩ | ⟨ht, _, hu, hclock⟩
  · exact .of_plain hu ht
  · unfold Undisturbed
    rw [if_pos hu]
    exact ⟨ht, htimestamp.symm⟩
  · unfold Undisturbed
    rw [if_neg hu]
    intro _
    -- the second that the movement takes is counted only if the time of day is later
    unfold clock nanosecondsSince leapBetween at hclock
    split at hclock
    · rename_i hlater
      exact hlater.1
    · split at hclock
      · omega
      · omega

/-- If the time from an instant to a later one is undisturbed, it is not negative and leads
    there. -/
theorem Undisturbed.forward (hle : t ≤ u) (h : Undisturbed t u) :
    0 ≤ u.nanosecondsSince t ∧ Forward t (u.nanosecondsSince t) u := by
  rw [le_iff, key_eq_timestamp, key_eq_timestamp] at hle
  unfold Undisturbed at h
  split at h
  · -- within one leap second the time is the difference of the nanoseconds
    rename_i hu
    obtain ⟨ht, htimestamp⟩ := h
    have htime : u.nanosecondsSince t = u.time.nanosecond - t.time.nanosecond := by
      unfold nanosecondsSince
      rw [leapBetween_of_timestamp_eq htimestamp.symm]
      omega
    exact ⟨by omega, .stays ht hu htimestamp.symm (by omega)⟩
  · rename_i hu
    by_cases ht : t.InLeapSecond
    · -- the leap second at the start is counted, so the time is a second longer than the clock says
      have hsecond := h ht
      unfold InLeapSecond at ht hu
      have hleap : leapBetween u.time t.time = 1 := if_pos ⟨hsecond, ht⟩
      have htime : u.nanosecondsSince t = u.clock - t.clock + 1000000000 := by
        unfold nanosecondsSince clock
        rw [hleap]
        omega
      have hlater : t.timestamp + 1 ≤ u.timestamp := by
        unfold timestamp at hle ⊢
        omega
      have hclock : t.timestamp * 1000000000 + 1000000000 ≤ u.clock := by
        unfold clock
        omega
      have hclock' : t.clock = t.timestamp * 1000000000 + t.time.nanosecond := rfl
      have hnano := t.time.nanosecond_lt
      exact ⟨by omega, .leaves ht (by omega) hu (by omega)⟩
    · have htime := nanosecondsSince_of_plain hu ht
      refine ⟨?_, .plain ht hu (by omega)⟩
      unfold InLeapSecond at ht hu
      unfold clock at htime
      omega

/-- **The time between two instants leads from one to the other** exactly if it is undisturbed. -/
theorem addNanoseconds?_nanosecondsSince_iff (h : t ≤ u) :
    t.addNanoseconds? (u.nanosecondsSince t) = some u ↔ Undisturbed t u := by
  constructor
  · intro hadd
    have hnonneg : 0 ≤ u.nanosecondsSince t :=
      Int.not_lt.1 fun hneg => Int.not_lt.2 h (lt_of_addNanoseconds?_neg hneg hadd)
    exact ((addNanoseconds?_eq_some_iff hnonneg).1 hadd).undisturbed
  · intro hundisturbed
    obtain ⟨hnonneg, hforward⟩ := hundisturbed.forward h
    exact (addNanoseconds?_eq_some_iff hnonneg).2 hforward

end Instant

end GanttChart
