import Timetabling.Proofs.Timetable.Exclusive
import Timetabling.Proofs.Search.Domain
import Timetabling.Timetable.Edit

/-! # Edit sessions keep their timetables coherent

An edit session changes its current timetable only by placing, removing and marking sessions,
by swapping it with a kept copy, or by moving it onto new records, which places its sessions
again from the empty timetable of those records. Each of these keeps every timetable of the
session reachable (`EditSession.Reachable.step`), so a whole run of edits does too, and the
timetables of any run over accepted records are coherent (`EditSession.coherent_of_edits`). -/

namespace Timetabling

namespace Timetable

namespace Reachable

/-- A fold whose every step keeps a timetable reachable ends in a reachable one. -/
theorem foldl {α : Type} {g : Timetable → α → Timetable}
    (hg : ∀ {out : Timetable} (a : α), Reachable out → Reachable (g out a)) :
    ∀ (xs : List α) {out : Timetable}, Reachable out → Reachable (xs.foldl g out)
  | [], _, h => h
  | x :: xs, _, h => foldl hg xs (hg x h)

/-- Moving a timetable onto indexed records gives a reachable timetable: its sessions are placed
again, one accepted placement at a time, from the empty timetable of the records, and its
reasons are marked after them. -/
theorem rebind {t t' : Timetable} {e : Catalog} (he : e.Indexed) (h : t.rebind e = .ok t') :
    Reachable t' := by
  unfold Timetable.rebind at h
  obtain ⟨out, hout, hfold⟩ := Catalog.exists_of_bind_eq_ok h
  cases hfold
  have hplaced : Reachable out := by
    refine Catalog.foldlM_invariant Reachable (fun {out out' k} hr hk ↦ ?_) _ (.empty he) hout
    -- a session is kept as it was, or placed with its old placement
    unfold rebindStep at hk
    split at hk
    · cases hk
      exact hr
    · split at hk
      · exact hr.assign hk
      · cases hk
        exact hr
  rw [Std.HashMap.fold_eq_foldl_toList]
  refine foldl (fun kr hr ↦ ?_) _ hplaced
  unfold rebindReason
  split
  · exact hr.markUnscheduled _ _
  · exact hr

end Reachable

end Timetable

namespace EditSession

/-- Both timetables of a session are reachable. -/
def Reachable (s : EditSession) : Prop :=
  s.current.Reachable ∧ ∀ t ∈ s.spare, t.Reachable

/-- Every edit keeps the timetables of a session reachable; questions leave them as they are. -/
theorem Reachable.step {s : EditSession} (hs : s.Reachable) (ed : Edit) : (s.step ed).2.Reachable := by
  cases ed
  case assign k p =>
    cases ha : s.current.assign k p with
    | ok t =>
      simp only [EditSession.step, ha]
      exact ⟨hs.1.assign ha, hs.2⟩
    | error c =>
      simp only [EditSession.step, ha]
      exact hs
  case unassign k => exact ⟨hs.1.unassign k, hs.2⟩
  case markUnscheduled k r => exact ⟨hs.1.markUnscheduled k r, hs.2⟩
  case clone =>
    refine ⟨hs.1, fun t ht ↦ ?_⟩
    cases ht
    exact hs.1
  case swap =>
    cases hsp : s.spare with
    | none =>
      simp only [EditSession.step, hsp]
      exact hs
    | some t =>
      simp only [EditSession.step, hsp]
      refine ⟨hs.2 t hsp, fun t' ht' ↦ ?_⟩
      cases ht'
      exact hs.1
  case rebind d =>
    cases d with
    | none => exact hs
    | some d =>
      cases hb : Catalog.build d with
      | error err =>
        simp only [EditSession.step, hb]
        exact hs
      | ok e =>
        cases hr : s.current.rebind e with
        | error c =>
          simp only [EditSession.step, hb, hr]
          exact hs
        | ok t =>
          simp only [EditSession.step, hb, hr]
          exact ⟨Timetable.Reachable.rebind (Catalog.indexed_of_build hb) hr, fun _ h ↦ nomatch h⟩
  all_goals exact hs

/-- A run of edits keeps the timetables of a session reachable. -/
theorem Reachable.run {s : EditSession} (hs : s.Reachable) (edits : List Edit) :
    (edits.foldl (fun s ed ↦ (s.step ed).2) s).Reachable := by
  induction edits generalizing s with
  | nil => exact hs
  | cons ed edits ih => exact ih (hs.step ed)

/-- Editing the empty timetable of accepted records with any edits at all (refused ones, copies,
swaps and moves onto other records included) leaves every timetable of the session coherent:
each index holds exactly what the placements determine, loads count the placements and stay
within caps, reasons are kept only for unplaced sessions, every placement is admissible, each
resource is booked at most once per slot, and the placed and missing sessions make up all the
sessions of the catalog. -/
theorem coherent_of_edits {d : Dataset} {e : Catalog} (hb : Catalog.build d = .ok e)
    (edits : List Edit) :
    let s := edits.foldl (fun s ed ↦ (s.step ed).2) ({ current := Timetable.empty e } : EditSession)
    ∀ t ∈ s.current :: s.spare.toList,
      t.Coherent ∧ t.Exclusive ∧ (t.size + t.missing.length : Int) = t.catalog.totalSessions := by
  intro s t ht
  have hstart : Reachable { current := Timetable.empty e } :=
    ⟨.empty (Catalog.indexed_of_build hb), fun _ h ↦ nomatch h⟩
  have hrun := hstart.run edits
  have hr : t.Reachable := by
    rcases List.mem_cons.mp ht with rfl | ht
    · exact hrun.1
    · exact hrun.2 t (Option.mem_toList.mp ht)
  exact ⟨hr.coherent, hr.coherent.exclusive, hr.coherent.size_add_length_missing hr.indexed⟩

/-- Edits over `singleRecords`: placing the course's first session in the one room at the one
slot, copying the timetable, and marking the second session. The first session stays placed, and
every timetable the session keeps is coherent. -/
theorem coherent_of_edits_singleRecords :
    ∃ e, Catalog.build Domain.singleRecords = .ok e ∧
      let s := [Edit.assign ⟨"c", 0⟩ ⟨"s", "r"⟩, .clone, .markUnscheduled ⟨"c", 1⟩ "full"].foldl
        (fun s ed ↦ (s.step ed).2) ({ current := Timetable.empty e } : EditSession)
      s.current.lookup ⟨"c", 0⟩ = some ⟨"s", "r"⟩ ∧
      ∀ t ∈ s.current :: s.spare.toList,
        t.Coherent ∧ t.Exclusive ∧ (t.size + t.missing.length : Int) = t.catalog.totalSessions := by
  obtain ⟨e, hb, -, hcheck⟩ := Domain.build_singleRecords
  have hassign : (Timetable.empty e).assign ⟨"c", 0⟩ ⟨"s", "r"⟩ =
      .ok ((Timetable.empty e).place ⟨"c", 0⟩ ⟨"s", "r"⟩) := Timetable.assign_eq_ok.mpr ⟨hcheck, rfl⟩
  refine ⟨e, hb, ?_, coherent_of_edits hb _⟩
  -- the first session is placed; marking the second leaves the placements alone
  simp [step, hassign, Timetable.markUnscheduled, Timetable.lookup, Timetable.place]

end EditSession

end Timetabling
