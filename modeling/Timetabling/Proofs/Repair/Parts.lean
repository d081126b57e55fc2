import Timetabling.Repair.Observation

/-! # The part of the day a slot falls in

Repair observes where in the day a missing session's candidate slots lie: each slot falls in the
first, second or last third of the periods of the longest day (`Catalog.dayPart`), computed in
64-bit arithmetic. The part is never above the last third, and it is non-negative exactly when
the slot's period, tripled in 64 bits, stays above minus the number of periods
(`Catalog.dayPart_nonneg_iff`). A non-negative period whose triple fits in 64 bits always has a
part (`Catalog.dayPart_nonneg`), while a negative period, or one whose triple wraps around, may
not. Observing a session succeeds exactly when every one of its candidate slots has a part
(`Timetable.densityBand_eq_ok_iff`), so over a catalog whose periods all fit
(`Catalog.PeriodsInRange`) observing never faults (`Timetable.observe_eq_ok`). -/

namespace Timetabling

/-! ## Arithmetic of the part -/

/-- A quotient rounded toward zero by a positive divisor is non-negative exactly when the
dividend is above minus the divisor. -/
theorem tdiv_nonneg_iff_neg_lt {a b : Int} (hb : 0 < b) : 0 ≤ a.tdiv b ↔ -b < a := by
  rcases Int.lt_or_le a 0 with ha | ha
  · -- a negative dividend rounds up to zero exactly when it is smaller than the divisor
    have h := Int.tdiv_eq_ediv_of_nonneg (a := -a) (b := b) (by omega)
    rw [Int.neg_tdiv] at h
    have hq : -a / b = 0 ↔ -a < b := by
      refine ⟨fun h0 ↦ ?_, fun hlt ↦ Int.ediv_eq_zero_of_lt (by omega) hlt⟩
      rcases Int.lt_or_le (-a) b with hlt | hle
      · exact hlt
      · have := (Int.le_ediv_iff_mul_le hb).mpr (show 1 * b ≤ -a by omega)
        omega
    have hnn : 0 ≤ -a / b := Int.ediv_nonneg (by omega) (by omega)
    omega
  · exact ⟨fun _ ↦ by omega, fun _ ↦ Int.tdiv_nonneg ha (by omega)⟩

/-- A value in the signed 64-bit range wraps to itself. -/
theorem wrapInt64_of_mem {v : Int} (h₁ : -(Int.pow 2 63) ≤ v) (h₂ : v < Int.pow 2 63) :
    wrapInt64 v = v := by
  have h63 : Int.pow 2 63 = 9223372036854775808 := rfl
  have h64 : Int.pow 2 64 = 18446744073709551616 := rfl
  rw [h63] at h₁ h₂
  unfold wrapInt64
  rw [h63, h64, Int.emod_eq_of_lt] <;> omega

namespace Catalog

/-- A catalog every slot of which has a non-negative period whose triple fits in 64 bits. -/
def PeriodsInRange (e : Catalog) : Prop :=
  ∀ slot ∈ e.slots, 0 ≤ slot.period ∧ slot.period * 3 < Int.pow 2 63

variable {e : Catalog} {slot : TimeSlot}

/-- A slot looked up by id, or the blank slot, has a period in range. -/
theorem PeriodsInRange.period_slot? (he : e.PeriodsInRange) (id : String) :
    0 ≤ ((e.slot? id).getD {}).period ∧ ((e.slot? id).getD {}).period * 3 < Int.pow 2 63 := by
  cases h : e.slot? id with
  | none => exact ⟨Int.le_refl 0, by decide⟩
  | some slot =>
    simp only [Catalog.slot?, Option.bind_eq_bind, Option.bind_eq_some_iff] at h
    obtain ⟨i, -, hi⟩ := h
    exact he slot (Array.mem_of_getElem? hi)

/-- The part of a slot is at most the last third. -/
theorem dayPart_le_two (e : Catalog) (slot : TimeSlot) : e.dayPart slot ≤ 2 :=
  Int.min_le_right _ _

/-- The part of a slot is non-negative exactly when its period, tripled in 64 bits, stays above
minus the number of periods. -/
theorem dayPart_nonneg_iff (e : Catalog) (slot : TimeSlot) :
    0 ≤ e.dayPart slot ↔ -(max e.periodsPerDay 1) < wrapInt64 (slot.period * 3) := by
  unfold dayPart
  rw [← tdiv_nonneg_iff_neg_lt (by omega : 0 < max e.periodsPerDay 1)]
  omega

/-- A non-negative period whose triple fits in 64 bits has a part. -/
theorem dayPart_nonneg (h₀ : 0 ≤ slot.period) (h₃ : slot.period * 3 < Int.pow 2 63) :
    0 ≤ e.dayPart slot := by
  have h63 : 0 < Int.pow 2 63 := by decide
  rw [dayPart_nonneg_iff, wrapInt64_of_mem (by omega) h₃]
  omega

end Catalog

/-! ## Observing a session -/

theorem ok_bind {ε α β : Type} (a : α) (f : α → Except ε β) : (Except.ok a >>= f) = f a := rfl

/-- A fold whose steps succeed or fail by the element alone succeeds exactly when every element
lets it through. -/
theorem foldlM_isOk_iff {ε α β : Type} {f : β → α → Except ε β} {p : α → Prop}
    (hf : ∀ b a, (∃ b', f b a = .ok b') ↔ p a) :
    ∀ (xs : List α) (b : β), (∃ r, xs.foldlM f b = .ok r) ↔ ∀ a ∈ xs, p a
  | [], b => ⟨fun _ _ h ↦ absurd h List.not_mem_nil, fun _ ↦ ⟨b, rfl⟩⟩
  | x :: xs, b => by
    rw [List.foldlM_cons, List.forall_mem_cons]
    cases hx : f b x with
    | error e =>
      -- a step that fails stops the fold, and its element does not let it through
      have hp : ¬ p x := fun h ↦ by
        obtain ⟨b', hb'⟩ := (hf b x).mpr h
        rw [hx] at hb'
        cases hb'
      exact ⟨fun ⟨r, hr⟩ ↦ (nomatch hr), fun h ↦ absurd h.1 hp⟩
    | ok b' =>
      have hp : p x := (hf b x).mp ⟨b', hx⟩
      rw [ok_bind, foldlM_isOk_iff hf xs b']
      exact ⟨fun h ↦ ⟨hp, h⟩, fun h ↦ h.2⟩

/-- A computation followed by a plain answer succeeds exactly when the computation does. -/
theorem bind_pure_isOk {ε α β : Type} (x : Except ε α) (g : α → β) :
    (∃ b, (x >>= fun a ↦ pure (g a)) = .ok b) ↔ ∃ a, x = .ok a := by
  cases x with
  | error e => exact ⟨fun ⟨_, h⟩ ↦ (nomatch h), fun ⟨_, h⟩ ↦ (nomatch h)⟩
  | ok a => exact ⟨fun _ ↦ ⟨a, rfl⟩, fun _ ↦ ⟨g a, rfl⟩⟩

namespace Timetable

/-- Observing where a session's candidates lie in the day succeeds exactly when every candidate
slot has a part of the day. -/
theorem densityBand_eq_ok_iff (t : Timetable) (d : Domain) (key : SessionKey) :
    (∃ band, t.densityBand d key = .ok band) ↔
      ∀ id ∈ Domain.slotsOf (d.forKey key), 0 ≤ t.catalog.dayPart ((t.catalog.slot? id).getD {}) := by
  unfold densityBand
  dsimp only
  rw [bind_pure_isOk]
  refine foldlM_isOk_iff (fun acc id ↦ ?_) _ _
  obtain ⟨a, b, c⟩ := acc
  dsimp only
  -- a slot without a part faults; any other adds its load to one of the three parts
  split
  · exact ⟨fun ⟨_, h⟩ ↦ (nomatch h), fun h ↦ absurd h (by omega)⟩
  · refine ⟨fun _ ↦ by omega, fun _ ↦ ?_⟩
    split
    · exact ⟨_, rfl⟩
    · split <;> exact ⟨_, rfl⟩

/-- Observing a session over a catalog whose periods all fit never faults. -/
theorem densityBand_eq_ok {t : Timetable} (he : t.catalog.PeriodsInRange) (d : Domain)
    (key : SessionKey) : ∃ band, t.densityBand d key = .ok band :=
  (densityBand_eq_ok_iff t d key).mpr fun id _ ↦
    Catalog.dayPart_nonneg (he.period_slot? id).1 (he.period_slot? id).2

theorem observe_eq_ok {t : Timetable} (he : t.catalog.PeriodsInRange) (d : Domain) (sf : Shortfall) :
    ∃ sit, t.observe d sf = .ok sit := by
  obtain ⟨band, hband⟩ := densityBand_eq_ok he d sf.key
  refine ⟨⟨sf.conflict, t.loadBand sf.key.course, band⟩, ?_⟩
  simp only [observe, hband, ok_bind]
  rfl

end Timetable

end Timetabling
