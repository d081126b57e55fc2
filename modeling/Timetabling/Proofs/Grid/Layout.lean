import Mathlib
import Timetabling.Grid
import Timetabling.Proofs.Catalog.Index
import Timetabling.Proofs.Repair.Parts

/-! # Weekly grids are well formed

A grid lays out each working day from the day start: a period starts at the cursor, or at the end
of lunch when it would overlap the lunch window, and the next one starts where it ends. Times are
nanoseconds since midnight kept in 64 bits.

`build_lays_out_week` states what a successful build gives (`WeekLayout`): the days are the
distinct working days between 1 and 7 in order, every day has the same number of periods, named
`D<day>-P<period>` and sorted by day and period, and within each day the periods start no earlier
than the day start, each no earlier than the previous one ends, all end by midnight, and none meets
a given lunch window (`DayPlan`, `ClearOf`). The proof follows the day loop: `periodTimes_spec`
says where one period goes, `foldl_dayStep` carries the day's plan through the loop, and
`build_eq_ok` reads what `build` checked.

This needs a period and a whole day together to fit in 64 bits. A longer period can end past
`2^63` nanoseconds, wrap around to a negative time and pass the midnight check
(`build_wraps_long_periods`). -/

namespace Timetabling

/-! ## Clock times -/

theorem Clock.parse_lt {value : String} {m : Nat} (h : Clock.parse value = .ok m) : m < 24 * 60 := by
  unfold Clock.parse at h
  rcases hn : number? value.toList false with _ | ⟨hour, cs⟩ <;>
    simp only [hn, bind, Except.bind, throw, throwThe, MonadExceptOf.throw, pure, Except.pure] at h
  · cases h
  -- past the hour, only a well-formed minute part gives a value
  split at h
  · cases h
  rename_i hhour
  split at h
  · split at h
    · split at h
      · cases h
      · split at h
        · cases h
        · cases h
          omega
    · cases h
  · cases h

/-- A clock time read from text lies within the day. -/
theorem Clock.parse_within {value : String} {m : Nat} (h : Clock.parse value = .ok m) :
    0 ≤ (m : Int) * Clock.minute ∧ (m : Int) * Clock.minute ≤ 24 * Clock.hour := by
  have := Clock.parse_lt h
  have hday : (24 * Clock.hour : Int) = 24 * 60 * Clock.minute := by decide
  have hminute : (0 : Int) ≤ Clock.minute := by decide
  constructor
  · exact Int.mul_nonneg (Int.natCast_nonneg m) hminute
  · rw [hday]
    exact Int.mul_le_mul_of_nonneg_right (by omega) hminute

namespace GridConfig

/-! ## Plans of a day -/

/-- A day's slots at its periods' start times. -/
def daySlotsAt (span day : Int) (times : List Int) : List TimeSlot :=
  times.mapIdx fun p a ↦ slotAt day p a (a + span)

/-- The start times of one day's periods, for periods of length `span` from `start`. -/
structure DayPlan (span start : Int) (times : List Int) : Prop where
  apart : times.IsChain fun a b ↦ a + span ≤ b
  within : ∀ a ∈ times, start ≤ a ∧ a + span ≤ 24 * Clock.hour

/-- The periods of a day stay out of a lunch window. -/
def ClearOf (span ls le : Int) (times : List Int) : Prop :=
  ∀ a ∈ times, a + span ≤ ls ∨ le ≤ a

variable {c : GridConfig}

/-! ## One day -/

/-- Where a period goes from a cursor within the day: it ends one period after it starts, starts
no earlier than the cursor, and stays out of the lunch window. -/
theorem periodTimes_spec {lunch : Option (Int × Int)} {cursor a b : Int}
    (hspan : c.slotSpan + 24 * Clock.hour < Int.pow 2 63) (hpos : 0 < c.slotSpan)
    (hc : 0 ≤ cursor ∧ cursor ≤ 24 * Clock.hour)
    (hlunch : ∀ ls le, lunch = some (ls, le) → 0 ≤ ls ∧ le ≤ 24 * Clock.hour)
    (h : c.periodTimes lunch cursor = (a, b)) :
    b = a + c.slotSpan ∧ cursor ≤ a ∧ ∀ ls le, lunch = some (ls, le) → a + c.slotSpan ≤ ls ∨ le ≤ a := by
  have hday : (0 : Int) ≤ 24 * Clock.hour := by decide
  have hwrap : ∀ x, 0 ≤ x → x ≤ 24 * Clock.hour → wrapInt64 (x + c.slotSpan) = x + c.slotSpan :=
    fun x h₁ h₂ ↦ wrapInt64_of_mem (by omega) (by omega)
  cases lunch with
  | none =>
    simp only [periodTimes, hwrap cursor hc.1 hc.2, Prod.mk.injEq] at h
    obtain ⟨rfl, rfl⟩ := h
    exact ⟨rfl, le_refl _, fun _ _ h ↦ absurd h (by simp)⟩
  | some w =>
    obtain ⟨ls, le⟩ := w
    obtain ⟨hls, hle⟩ := hlunch ls le rfl
    simp only [Option.some.injEq, Prod.mk.injEq, and_imp]
    simp only [periodTimes, hwrap cursor hc.1 hc.2] at h
    split at h
    · -- a period that would overlap lunch starts when lunch ends
      rename_i hover
      rw [hwrap le (by omega) hle, Prod.mk.injEq] at h
      obtain ⟨rfl, rfl⟩ := h
      exact ⟨rfl, by omega, fun _ _ hl he ↦ .inr (by omega)⟩
    · rename_i hclear
      rw [Prod.mk.injEq] at h
      obtain ⟨rfl, rfl⟩ := h
      exact ⟨rfl, le_refl _, fun _ _ hl he ↦ by omega⟩

@[simp] theorem dayStep_error (day : Int) (lunch : Option (Int × Int)) (e : String) (p : Nat) :
    c.dayStep day lunch (.error e) p = .error e := rfl

theorem dayStep_eq_ok {day : Int} {lunch : Option (Int × Int)} {slots slots' : List TimeSlot}
    {cursor cursor' : Int} {p : Nat}
    (h : c.dayStep day lunch (.ok (slots, cursor)) p = .ok (slots', cursor')) :
    ∃ a, c.periodTimes lunch cursor = (a, cursor') ∧ cursor' ≤ 24 * Clock.hour ∧
      slots' = slots ++ [slotAt day p a cursor'] := by
  unfold dayStep at h
  rcases hab : c.periodTimes lunch cursor with ⟨a, b⟩
  simp only [bind, Except.bind, hab] at h
  split at h
  · cases h
  · rename_i hfit
    simp only [pure, Except.pure, Except.ok.injEq, Prod.mk.injEq] at h
    obtain ⟨rfl, rfl⟩ := h
    exact ⟨a, rfl, by omega, rfl⟩

theorem DayPlan.nil (span start : Int) : DayPlan span start [] where
  apart := .nil
  within _ h := absurd h (by simp)

/-- One more period, starting no earlier than the cursor where the plan ends. -/
theorem DayPlan.snoc {span start a : Int} {times : List Int} (h : DayPlan span start times)
    (hafter : start ≤ a ∧ ∀ x ∈ times.getLast?, x + span ≤ a) (hend : a + span ≤ 24 * Clock.hour) :
    DayPlan span start (times ++ [a]) where
  apart := h.apart.append (.singleton a) (fun x hx y hy ↦ by
    simp only [List.head?_cons, Option.mem_def, Option.some.injEq] at hy
    exact hy ▸ hafter.2 x hx)
  within x hx := by
    rcases List.mem_append.mp hx with hx | hx
    · exact h.within x hx
    · rw [List.mem_singleton.mp hx]
      exact ⟨hafter.1, hend⟩

@[simp] theorem daySlotsAt_nil (span day : Int) : daySlotsAt span day [] = [] := rfl

theorem daySlotsAt_snoc (span day a : Int) (times : List Int) :
    daySlotsAt span day (times ++ [a]) =
      daySlotsAt span day times ++ [slotAt day times.length a (a + span)] := by
  simp [daySlotsAt, List.mapIdx_append]

/-- The periods of a day laid out so far: their start times, and the cursor where they end. -/
theorem foldl_dayStep {day start : Int} {lunch : Option (Int × Int)}
    (hspan : c.slotSpan + 24 * Clock.hour < Int.pow 2 63) (hpos : 0 < c.slotSpan)
    (hstart : 0 ≤ start ∧ start ≤ 24 * Clock.hour)
    (hlunch : ∀ ls le, lunch = some (ls, le) → 0 ≤ ls ∧ le ≤ 24 * Clock.hour) :
    ∀ (n : Nat) {slots : List TimeSlot} {cursor : Int},
      (List.range n).foldl (c.dayStep day lunch) (.ok ([], start)) = .ok (slots, cursor) →
      ∃ times : List Int, times.length = n ∧ slots = daySlotsAt c.slotSpan day times ∧
        DayPlan c.slotSpan start times ∧
        (∀ ls le, lunch = some (ls, le) → ClearOf c.slotSpan ls le times) ∧
        start ≤ cursor ∧ cursor ≤ 24 * Clock.hour ∧ ∀ x ∈ times.getLast?, x + c.slotSpan = cursor
  | 0, slots, cursor, h => by
    simp only [List.range_zero, List.foldl_nil, Except.ok.injEq, Prod.mk.injEq] at h
    obtain ⟨rfl, rfl⟩ := h
    exact ⟨[], rfl, rfl, .nil _ _, fun _ _ _ _ h ↦ absurd h (by simp), le_refl _, hstart.2,
      fun _ h ↦ absurd h (by simp)⟩
  | n + 1, slots, cursor, h => by
    rw [List.range_succ, List.foldl_append, List.foldl_cons, List.foldl_nil] at h
    -- the first `n` periods were laid out, since a refusal is never taken back
    rcases hprev : (List.range n).foldl (c.dayStep day lunch) (.ok ([], start)) with e | ⟨slots₀, cursor₀⟩
    · rw [hprev, dayStep_error] at h
      cases h
    rw [hprev] at h
    obtain ⟨times, hlen, rfl, hplan, hclear, hc₁, hc₂, hlast⟩ := foldl_dayStep hspan hpos hstart hlunch n hprev
    obtain ⟨a, hab, hend, rfl⟩ := dayStep_eq_ok h
    obtain ⟨rfl, hcur, hlunch'⟩ :=
      periodTimes_spec hspan hpos ⟨by omega, hc₂⟩ hlunch hab
    refine ⟨times ++ [a], by simp [hlen], by rw [daySlotsAt_snoc, hlen], ?_, ?_, by omega, hend, ?_⟩
    · exact hplan.snoc ⟨by omega, fun x hx ↦ hlast x hx ▸ hcur⟩ hend
    · intro ls le hl x hx
      rcases List.mem_append.mp hx with hx | hx
      · exact hclear ls le hl x hx
      · rw [List.mem_singleton.mp hx]
        exact hlunch' ls le hl
    · intro x hx
      simp only [List.getLast?_append, List.getLast?_singleton, Option.some_or, Option.mem_def,
        Option.some.injEq] at hx
      rw [hx]

/-! ## Days -/

theorem mem_days {d : Int} : d ∈ c.days ↔ d ∈ c.workingDays ∧ 1 ≤ d ∧ d ≤ 7 := by
  simp only [days, List.mem_filterMap, List.mem_range, Option.ite_none_right_eq_some,
    Option.some.injEq, List.elem_eq_mem, decide_eq_true_eq]
  constructor
  · rintro ⟨i, hi, hmem, rfl⟩
    exact ⟨hmem, by omega, by omega⟩
  · rintro ⟨hmem, h₁, h₂⟩
    exact ⟨(d - 1).toNat, by omega, by rwa [show ((d - 1).toNat : Int) + 1 = d by omega], by omega⟩

theorem days_pairwise : c.days.Pairwise (· < ·) := by
  unfold days
  rw [List.pairwise_filterMap]
  refine List.pairwise_lt_range.imp fun {i j} hij ↦ ?_
  simp only [Option.ite_none_right_eq_some, Option.some.injEq, and_imp]
  rintro _ - rfl _ - rfl
  omega

/-! ## Slot ids -/

theorem toList_slotAt_id (k p : Nat) (a b : Int) :
    (slotAt k p a b).id.toList = 'D' :: Nat.toDigits 10 k ++ '-' :: 'P' :: Nat.toDigits 10 p := by
  show ("D" ++ toString (k : Int) ++ "-P" ++ toString p).toList = _
  have hk : (k : Int).repr = k.repr := rfl
  simp [String.toList_append, Nat.toList_repr, hk]

/-- The id of a slot names its day and period: ids of slots on days numbered from zero up are equal
only for the same day and period. -/
theorem slotAt_id_inj {d₁ d₂ a₁ b₁ a₂ b₂ : Int} {p₁ p₂ : Nat} (h₁ : 0 ≤ d₁) (h₂ : 0 ≤ d₂)
    (h : (slotAt d₁ p₁ a₁ b₁).id = (slotAt d₂ p₂ a₂ b₂).id) : d₁ = d₂ ∧ p₁ = p₂ := by
  obtain ⟨k₁, rfl⟩ := Int.eq_ofNat_of_zero_le h₁
  obtain ⟨k₂, rfl⟩ := Int.eq_ofNat_of_zero_le h₂
  have hl := congrArg String.toList h
  rw [toList_slotAt_id, toList_slotAt_id] at hl
  -- the day's digits end at the first dash, since digits are no dashes
  have hdash : ∀ (c : Char) n, c ≠ '-' → '-' ∉ c :: Nat.toDigits 10 n := fun c n hc hm ↦
    (List.mem_cons.mp hm).elim (fun h ↦ hc h.symm)
      fun hm ↦ absurd (Nat.isDigit_of_mem_toDigits (by decide) (by decide) hm) (by decide)
  obtain ⟨hk, -, hp⟩ :=
    (List.append_cons_inj_of_notMem (hdash 'D' k₁ (by decide)) (hdash 'P' p₁ (by decide))).mp hl
  have hk' := congrArg (Nat.ofDigitChars 10 · 0) (List.cons_inj_right 'D' |>.mp hk)
  have hp' := congrArg (Nat.ofDigitChars 10 · 0) (List.cons_inj_right 'P' |>.mp hp)
  simp only [Nat.ofDigitChars_ten_toDigits] at hk' hp'
  exact ⟨by rw [hk'], hp'⟩

/-! ## Slots -/

theorem day_of_mem_daySlotsAt {span day : Int} {times : List Int} {s : TimeSlot}
    (h : s ∈ daySlotsAt span day times) : s.day = day := by
  obtain ⟨i, hi, rfl⟩ := List.mem_mapIdx.mp h
  rfl

theorem daySlotsAt_pairwise (span day : Int) (times : List Int) :
    (daySlotsAt span day times).Pairwise fun s t ↦ s.day = t.day ∧ s.period < t.period := by
  rw [List.pairwise_iff_getElem]
  intro i j hi hj hij
  simp only [daySlotsAt, List.getElem_mapIdx]
  exact ⟨rfl, by simp [slotAt]; omega⟩

/-- A slot of a day is named by its day and period. -/
theorem id_of_mem_daySlotsAt {span day : Int} {times : List Int} {s : TimeSlot}
    (h : s ∈ daySlotsAt span day times) : s.id = (slotAt s.day s.period.toNat 0 0).id ∧ 0 ≤ s.period := by
  obtain ⟨i, hi, rfl⟩ := List.mem_mapIdx.mp h
  exact ⟨rfl, Int.natCast_nonneg i⟩

theorem length_daySlotsAt (span day : Int) (times : List Int) :
    (daySlotsAt span day times).length = times.length := List.length_mapIdx

/-! ## What a build reads -/

theorem clock_eq_ok {field value : String} {m : Int} (h : clock field value = .ok m) :
    ∃ k, Clock.parse value = .ok k ∧ m = k := by
  unfold clock at h
  split at h
  · rename_i k hk
    cases h
    exact ⟨k, hk, rfl⟩
  · cases h

theorem daySlots_eq_ok {day start : Int} {lunch : Option (Int × Int)} {slots : List TimeSlot}
    (h : c.daySlots day start lunch = .ok slots) :
    ∃ cursor, (List.range c.slotsPerDay.toNat).foldl (c.dayStep day lunch) (.ok ([], start)) =
      .ok (slots, cursor) := by
  unfold daySlots at h
  rcases hf : (List.range c.slotsPerDay.toNat).foldl (c.dayStep day lunch) (.ok ([], start)) with
    e | ⟨slots', cursor⟩
  · rw [hf] at h
    cases h
  · rw [hf] at h
    cases h
    exact ⟨cursor, rfl⟩

/-- What a successful build read: a positive count and length of periods, the day start, and the
lunch window when one is given; each day is then laid out from the day start around it. -/
theorem build_eq_ok {slots : List TimeSlot} (hb : c.build = .ok slots) :
    0 < c.slotsPerDay ∧ 0 < c.slotSpan ∧ ∃ m, Clock.parse c.dayStart = .ok m ∧
      ∃ lunch : Option (Int × Int), (∀ ls le, lunch = some (ls, le) → 0 ≤ ls ∧ le ≤ 24 * Clock.hour) ∧
        ((c.lunchStart ≠ "" ∨ c.lunchEnd ≠ "") → ∀ ls le, Clock.parse c.lunchStart = .ok ls →
          Clock.parse c.lunchEnd = .ok le → lunch = some (ls * Clock.minute, le * Clock.minute)) ∧
        ∃ perDay, c.days.mapM (fun d ↦ c.daySlots d (m * Clock.minute) lunch) = .ok perDay ∧
          slots = perDay.flatten := by
  unfold build at hb
  simp only [bind, Except.bind, throw, throwThe, MonadExceptOf.throw, pure, Except.pure] at hb
  split at hb
  · cases hb
  split at hb
  · cases hb
  rename_i hper
  split at hb
  · cases hb
  rename_i hspan
  split at hb
  · cases hb
  rename_i v hv
  obtain ⟨m, hm, rfl⟩ := clock_eq_ok hv
  refine ⟨by omega, by omega, m, hm, ?_⟩
  split at hb
  · -- a lunch window is given: both ends are read
    rename_i hgiven
    split at hb
    · cases hb
    rename_i v₁ hv₁
    split at hb
    · cases hb
    rename_i v₂ hv₂
    obtain ⟨ls, hls, rfl⟩ := clock_eq_ok hv₁
    obtain ⟨le, hle, rfl⟩ := clock_eq_ok hv₂
    split at hb
    · cases hb
    split at hb
    · cases hb
    rename_i perDay hperDay
    cases hb
    refine ⟨_, fun _ _ h ↦ ?_, fun _ ls' le' hls' hle' ↦ ?_, perDay, hperDay, rfl⟩
    · cases h
      exact ⟨(Clock.parse_within hls).1, (Clock.parse_within hle).2⟩
    · rw [hls, Except.ok.injEq] at hls'
      rw [hle, Except.ok.injEq] at hle'
      rw [hls', hle']
  · rename_i hnone
    split at hb
    · cases hb
    rename_i perDay hperDay
    cases hb
    refine ⟨none, fun _ _ h ↦ absurd h (by simp), fun hgiven ↦ absurd ?_ hnone, perDay, hperDay, rfl⟩
    simpa [bne_iff_ne] using hgiven

/-! ## The week -/

/-- What a well-formed grid of a configuration is: its days are the distinct working days between
1 and 7 in order; every day has the same number of periods of a positive length, named
`D<day>-P<period>` and sorted by day and period; and the periods of each day start no earlier than
the day start, each no earlier than the previous one ends, end by midnight, and stay out of a
given lunch window. -/
structure WeekLayout (c : GridConfig) (slots : List TimeSlot) : Prop where
  days_normal : ∀ d, d ∈ c.days ↔ d ∈ c.workingDays ∧ 1 ≤ d ∧ d ≤ 7
  days_sorted : c.days.Pairwise (· < ·)
  span_pos : 0 < c.slotSpan
  length_eq : slots.length = c.days.length * c.slotsPerDay.toNat
  ids_nodup : (slots.map (·.id)).Nodup
  sorted : slots.Pairwise fun s t ↦ s.day < t.day ∨ s.day = t.day ∧ s.period < t.period
  periods : ∃ (m : Nat) (times : Int → List Int), Clock.parse c.dayStart = .ok m ∧
    slots = c.days.flatMap (fun d ↦ daySlotsAt c.slotSpan d (times d)) ∧
    ∀ d ∈ c.days, (times d).length = c.slotsPerDay.toNat ∧
      DayPlan c.slotSpan (m * Clock.minute) (times d) ∧
      ((c.lunchStart ≠ "" ∨ c.lunchEnd ≠ "") → ∀ ls le, Clock.parse c.lunchStart = .ok ls →
        Clock.parse c.lunchEnd = .ok le → ClearOf c.slotSpan (ls * Clock.minute) (le * Clock.minute) (times d))

/-- A grid that builds is well formed, when a period and a whole day together fit in 64 bits. -/
theorem build_lays_out_week (c : GridConfig) {slots : List TimeSlot} (hb : c.build = .ok slots)
    (hspan : c.slotSpan + 24 * Clock.hour < Int.pow 2 63) : c.WeekLayout slots := by
  obtain ⟨hper, hpos, m, hm, lunch, hlunch, hgiven, perDay, hmap, rfl⟩ := c.build_eq_ok hb
  have hstart := Clock.parse_within hm
  -- every day is laid out by the same loop, from the day start
  have hlaid : ∀ d, ∃ times : List Int, d ∈ c.days →
      c.daySlots d (m * Clock.minute) lunch = .ok (daySlotsAt c.slotSpan d times) ∧
      times.length = c.slotsPerDay.toNat ∧ DayPlan c.slotSpan (m * Clock.minute) times ∧
      ∀ ls le, lunch = some (ls, le) → ClearOf c.slotSpan ls le times := by
    intro d
    by_cases hd : d ∈ c.days
    · obtain ⟨y, hy⟩ := Catalog.exists_of_mapM_eq_ok hmap d hd
      obtain ⟨cursor, hfold⟩ := daySlots_eq_ok hy
      obtain ⟨times, hlen, rfl, hplan, hclear, -⟩ := foldl_dayStep hspan hpos hstart hlunch _ hfold
      exact ⟨times, fun _ ↦ ⟨hy, hlen, hplan, hclear⟩⟩
    · exact ⟨[], fun h ↦ absurd h hd⟩
  choose times htimes using hlaid
  have hslots : perDay.flatten = c.days.flatMap fun d ↦ daySlotsAt c.slotSpan d (times d) := by
    have := Catalog.mapM_eq_ok_map (g := fun d ↦ daySlotsAt c.slotSpan d (times d)) fun d hd ↦ (htimes d hd).1
    rw [hmap, Except.ok.injEq] at this
    rw [this, List.flatMap]
  have hpairwise : (perDay.flatten).Pairwise
      (fun s t ↦ s.day < t.day ∨ s.day = t.day ∧ s.period < t.period) := by
    rw [hslots, List.pairwise_flatMap]
    refine ⟨fun d _ ↦ (daySlotsAt_pairwise _ _ _).imp .inr, days_pairwise.imp fun hlt s hs t ht ↦ ?_⟩
    rw [day_of_mem_daySlotsAt hs, day_of_mem_daySlotsAt ht]
    exact .inl hlt
  refine ⟨fun d ↦ mem_days, days_pairwise, hpos, ?_, ?_, hpairwise, m, times, hm, hslots, ?_⟩
  · rw [hslots, List.length_flatMap, List.map_congr_left fun d hd ↦ by
      rw [length_daySlotsAt, (htimes d hd).2.1]]
    simp
  · -- slots in order have different days or periods, hence different names
    rw [List.Nodup, List.pairwise_map]
    refine hpairwise.imp_of_mem fun {s t} hs ht hst hid ↦ ?_
    rw [hslots, List.mem_flatMap] at hs ht
    obtain ⟨d, hd, hs⟩ := hs
    obtain ⟨d', hd', ht⟩ := ht
    obtain ⟨hsid, hsp⟩ := id_of_mem_daySlotsAt hs
    obtain ⟨htid, htp⟩ := id_of_mem_daySlotsAt ht
    have hsd := (mem_days.mp (day_of_mem_daySlotsAt hs ▸ hd)).2.1
    have htd := (mem_days.mp (day_of_mem_daySlotsAt ht ▸ hd')).2.1
    rw [hsid, htid] at hid
    obtain ⟨hday, hperiod⟩ := slotAt_id_inj (by omega) (by omega) hid
    omega
  · intro d hd
    obtain ⟨-, hlen, hplan, hclear⟩ := htimes d hd
    exact ⟨hlen, hplan, fun hg ls le hls hle ↦ hclear _ _ (hgiven hg ls le hls hle)⟩

/-- One day of two hour-long periods from 11:00 around a lunch hour at noon. -/
def lunchHourDay : GridConfig :=
  { workingDays := [1], slotsPerDay := 2, slotMinutes := 60, dayStart := "11:00",
    lunchStart := "12:00", lunchEnd := "13:00" }

/-- The second period of `lunchHourDay` would overlap lunch and starts at 13:00. -/
theorem build_lunchHourDay :
    lunchHourDay.build = .ok [slotAt 1 0 (11 * Clock.hour) (12 * Clock.hour),
      slotAt 1 1 (13 * Clock.hour) (14 * Clock.hour)] := by
  have hdays : lunchHourDay.days = [1] := rfl
  have hs : clock "day start" lunchHourDay.dayStart = .ok 660 := rfl
  have hl₁ : clock "lunch start" lunchHourDay.lunchStart = .ok 720 := rfl
  have hl₂ : clock "lunch end" lunchHourDay.lunchEnd = .ok 780 := rfl
  have hper : lunchHourDay.slotsPerDay ≤ 0 ↔ False := by decide
  have hspan : lunchHourDay.slotSpan ≤ 0 ↔ False := by decide
  have hlunch : 780 * Clock.minute ≤ 720 * Clock.minute ↔ False := by decide
  have hgiven : (lunchHourDay.lunchStart != "" || lunchHourDay.lunchEnd != "") = true := rfl
  have hday : lunchHourDay.daySlots 1 (660 * Clock.minute) (some (720 * Clock.minute, 780 * Clock.minute)) =
      .ok [slotAt 1 0 (11 * Clock.hour) (12 * Clock.hour), slotAt 1 1 (13 * Clock.hour) (14 * Clock.hour)] :=
    rfl
  unfold build
  simp only [bind, Except.bind, throw, throwThe, MonadExceptOf.throw, pure, Except.pure, hdays, hs, hl₁,
    hl₂, hper, hspan, hlunch, hgiven, List.mapM_cons, List.mapM_nil, hday, if_true, if_false,
    List.isEmpty_cons, Bool.false_eq_true]
  rfl

theorem build_lays_out_week_lunchHourDay :
    lunchHourDay.slotSpan + 24 * Clock.hour < Int.pow 2 63 ∧
      lunchHourDay.WeekLayout [slotAt 1 0 (11 * Clock.hour) (12 * Clock.hour),
        slotAt 1 1 (13 * Clock.hour) (14 * Clock.hour)] :=
  have hspan : lunchHourDay.slotSpan + 24 * Clock.hour < Int.pow 2 63 := by decide
  ⟨hspan, build_lays_out_week lunchHourDay build_lunchHourDay hspan⟩

/-- One day of one period of 153722867 minutes from 08:00: the period is shorter than `2^63`
nanoseconds but ends past it. -/
def longPeriodDay : GridConfig :=
  { workingDays := [1], slotsPerDay := 1, slotMinutes := 153722867, dayStart := "08:00" }

/-- The period of `longPeriodDay` ends past `2^63` nanoseconds and wraps around to a negative time,
which passes the midnight check: the grid builds, but a period longer than a day cannot end by
midnight, so the grid is not well formed. -/
theorem build_wraps_long_periods :
    longPeriodDay.build =
        .ok [slotAt 1 0 (8 * Clock.hour) (8 * Clock.hour + longPeriodDay.slotSpan - Int.pow 2 64)] ∧
      8 * Clock.hour + longPeriodDay.slotSpan - Int.pow 2 64 < 0 ∧
      ¬ longPeriodDay.WeekLayout
        [slotAt 1 0 (8 * Clock.hour) (8 * Clock.hour + longPeriodDay.slotSpan - Int.pow 2 64)] := by
  have hdays : longPeriodDay.days = [1] := rfl
  have hs : clock "day start" longPeriodDay.dayStart = .ok 480 := rfl
  have hper : longPeriodDay.slotsPerDay ≤ 0 ↔ False := by decide
  have hspan : longPeriodDay.slotSpan ≤ 0 ↔ False := by decide
  have hgiven : (longPeriodDay.lunchStart != "" || longPeriodDay.lunchEnd != "") = false := rfl
  have hday : longPeriodDay.daySlots 1 (480 * Clock.minute) none =
      .ok [slotAt 1 0 (8 * Clock.hour) (8 * Clock.hour + longPeriodDay.slotSpan - Int.pow 2 64)] := rfl
  refine ⟨?_, by decide, fun hw ↦ ?_⟩
  · unfold build
    simp only [bind, Except.bind, throw, throwThe, MonadExceptOf.throw, pure, Except.pure, hdays, hs,
      hper, hspan, hgiven, List.mapM_cons, List.mapM_nil, hday, if_false, List.isEmpty_cons,
      Bool.false_eq_true]
    rfl
  · -- the one period of day 1 would have to end by midnight, but it is longer than a day
    obtain ⟨m, times, -, -, hdays'⟩ := hw.periods
    obtain ⟨hlen, hplan, -⟩ := hdays' 1 (by decide)
    obtain ⟨a, ha⟩ := List.exists_mem_of_length_pos (by rw [hlen]; decide : 0 < (times 1).length)
    obtain ⟨hstart, hend⟩ := hplan.within a ha
    have hlong : 24 * Clock.hour < longPeriodDay.slotSpan := by decide
    have hm : (0 : Int) ≤ m * Clock.minute := Int.mul_nonneg (Int.natCast_nonneg m) (by decide)
    omega

end GridConfig

end Timetabling
