import Timetabling.Proofs.Refinement.Feasible
import Timetabling.Proofs.Number.Order
import Timetabling.Proofs.Search.Domain

/-! # Refinement is never worse than its seed

The best individual of a refinement only ever gives way to one that beats it: the best of a
population is its first individual or one that beats it (`noWorse_getD_bestOf`), every new
population starts with the best so far (`Breeder.step_scored`), and a generation's best replaces
the best so far only when it places more sessions or scores higher (`noWorse_promote`). So the
returned timetable places at least as many sessions as the seed, and when it places as many its
total is the seed's or higher: a chain of strict float comparisons, which IEEE order makes
transitive (`Float.lt_trans`). Every individual's fitness is its timetable's (`Individual.Scored`),
so the reported final fitness is the returned timetable's. The generations are counted and heard
one by one, at most as many as asked for. -/

namespace Timetabling

namespace Individual

/-- `b` is no worse than `a`: it places more sessions, or as many with the same total or a
higher one. -/
def NoWorse (a b : Individual) : Prop :=
  a.timetable.size < b.timetable.size ∨ a.timetable.size = b.timetable.size ∧
    (b.fitness.total = a.fitness.total ∨ a.fitness.total < b.fitness.total)

/-- The fitness recorded for an individual is its timetable's. -/
def Scored (ind : Individual) : Prop :=
  ind.fitness = ind.timetable.fitness

theorem scored_of (t : Timetable) : (Individual.of t).Scored := rfl

namespace NoWorse

variable {a b c : Individual}

protected theorem refl (a : Individual) : a.NoWorse a := .inr ⟨rfl, .inl rfl⟩

protected theorem trans (h₁ : a.NoWorse b) (h₂ : b.NoWorse c) : a.NoWorse c := by
  rcases h₁ with h₁ | ⟨hs₁, ht₁⟩ <;> rcases h₂ with h₂ | ⟨hs₂, ht₂⟩
  · exact .inl (by omega)
  · exact .inl (by omega)
  · exact .inl (by omega)
  · refine .inr ⟨hs₁.trans hs₂, ?_⟩
    -- the totals stay or rise strictly at each of the two steps
    rcases ht₁ with ht₁ | ht₁ <;> rcases ht₂ with ht₂ | ht₂
    · exact .inl (ht₂.trans ht₁)
    · exact .inr (ht₁ ▸ ht₂)
    · exact .inr (ht₂ ▸ ht₁)
    · exact .inr (Float.lt_trans ht₁ ht₂)

/-- An individual that beats another is no worse than it. -/
theorem of_better (h : Timetable.better b.timetable b.fitness a.timetable a.fitness = true) :
    a.NoWorse b := by
  unfold Timetable.better at h
  split at h
  · exact .inl (of_decide_eq_true h)
  · rename_i hs
    have hs' : b.timetable.size = a.timetable.size := by simpa using hs
    exact .inr ⟨hs'.symm, .inr (of_decide_eq_true h)⟩

end NoWorse

end Individual

open Individual

/-- The best of a population is no worse than its first individual. -/
theorem noWorse_getD_bestOf {pop : Array Individual} {first : Individual}
    (hfirst : pop.toList.head? = some first) (x : Individual) :
    first.NoWorse ((bestOf pop).getD x) := by
  unfold bestOf
  split
  · rename_i hl
    rw [hl] at hfirst
    cases hfirst
  · rename_i a rest hl
    rw [hl, List.head?_cons, Option.some.injEq] at hfirst
    subst hfirst
    rw [Option.getD_some]
    -- the running best only gives way to an individual that beats it
    refine List.foldlRecOn (motive := a.NoWorse) _ _ (.refl a) fun best hbest ind _ ↦ ?_
    split
    · exact hbest.trans (.of_better ‹_›)
    · exact hbest

namespace Breeder

/-- A scored child is an individual of its own timetable. -/
theorem score_scored (cfg : RefineConfig) (d : Domain) {child : Timetable} {b b' : Breeder}
    {ind : Individual} (hb : b.score cfg d child = (ind, b')) : ind.Scored := by
  unfold score at hb
  split at hb
  split at hb
  · split at hb
    cases hb
    exact scored_of _
  · cases hb
    exact scored_of _

/-- The next generation is the elite followed by scored children. -/
theorem step_scored (cfg : RefineConfig) (d : Domain) {pop : Array Individual} {elite : Individual}
    {b b' : Breeder} {next : Array Individual} (hb : b.step cfg d pop elite = (next, b')) :
    ∃ scored, next.toList = elite :: scored ∧ ∀ ind ∈ scored, ind.Scored := by
  unfold step at hb
  split at hb
  rename_i children b₁ _
  split at hb
  rename_i scored b₂ hscored
  cases hb
  refine ⟨scored, rfl, ?_⟩
  have h := forall_mem_gather (Q := Individual.Scored) (fun child b ↦ b.score cfg d child) children
    (fun _ _ _ _ _ hx ↦ score_scored cfg d hx) b₁
  rwa [hscored] at h

end Breeder

namespace Refinement

/-- The best after a generation is no worse than the best so far, when the generation starts
with it. -/
theorem noWorse_promote {pop : Array Individual} {best best' : Individual} {stale stale' : Nat}
    (hfirst : pop.toList.head? = some best) (h : promote pop best stale = (best', stale')) :
    best.NoWorse best' := by
  unfold promote at h
  dsimp only at h
  split at h
  · cases h
    exact noWorse_getD_bestOf hfirst _
  · cases h
    exact .refl _

/-- What a refinement keeps of its seed `t₀`: every individual is scored, and the best so far is
scored and no worse than the seed. -/
structure Tracks (t₀ : Timetable) (r : Refinement) : Prop where
  population : ∀ ind ∈ r.population, ind.Scored
  scored : r.best.Scored
  noWorse : (Individual.of t₀).NoWorse r.best

/-- The first population starts with the seed, so its best is no worse than the seed; it has
run no generation. -/
theorem start_tracks (cfg : RefineConfig) (d : Domain) (t₀ : Timetable) :
    (start cfg d t₀).Tracks t₀ ∧ (start cfg d t₀).breeder.stats.generations = 0 := by
  refine ⟨?_, rfl⟩
  unfold start
  dsimp only
  suffices h : ∀ (pop : Array Individual) (b : Breeder), (∀ ind ∈ pop, ind.Scored) →
      pop.toList.head? = some (Individual.of t₀) →
      Tracks t₀ { population := pop, best := (bestOf pop).getD (Individual.of t₀), breeder := b } by
    apply h
    -- each step of the fold pushes a scored copy behind the seed
    · refine List.foldlRecOn (motive := fun (acc : Array Individual × Breeder) ↦
        ∀ ind ∈ acc.1, ind.Scored) _ _ ?_ fun acc hacc _ _ ind hind ↦ ?_
      · intro ind hind
        rw [List.mem_singleton.mp (List.mem_toArray.mp hind)]
        exact scored_of t₀
      · rcases Array.mem_push.mp hind with hind | rfl
        · exact hacc ind hind
        · exact scored_of _
    · refine List.foldlRecOn (motive := fun (acc : Array Individual × Breeder) ↦
        acc.1.toList.head? = some (Individual.of t₀)) _ _ rfl fun acc hacc _ _ ↦ ?_
      rw [Array.toList_push, List.head?_append, hacc]
      rfl
  intro pop b hpop hfirst
  exact ⟨hpop, getD_bestOf_of_forall hpop (scored_of t₀), noWorse_getD_bestOf hfirst _⟩

/-- One generation keeps what the refinement tracks. -/
theorem tracks_of_step (cfg : RefineConfig) (d : Domain) {t₀ : Timetable} {r : Refinement}
    (hr : r.Tracks t₀) {pop : Array Individual} {b : Breeder}
    (hstep : r.breeder.step cfg d r.population r.best = (pop, b)) {best : Individual}
    {stale : Nat} (hpromote : promote pop r.best r.stale = (best, stale)) (stale' : Nat)
    (b' : Breeder) : Tracks t₀ { population := pop, best, stale := stale', breeder := b' } := by
  obtain ⟨scored, hpop, hscored⟩ := Breeder.step_scored cfg d hstep
  have hall : ∀ ind ∈ pop, ind.Scored := by
    intro ind hind
    rw [← Array.mem_toList_iff, hpop] at hind
    rcases List.mem_cons.mp hind with rfl | hind
    · exact hr.scored
    · exact hscored ind hind
  exact ⟨hall, promote_of_forall hall hr.scored hpromote,
    hr.noWorse.trans (noWorse_promote (by rw [hpop]; rfl) hpromote)⟩

end Refinement

/-- The state a watch's notes reach from `s`, hearing the generations after `gen` with the total
`total`, one best each. -/
def RefineWatch.hear {σ : Type} (note : σ → Nat → Int → Fitness → σ) (total : Int) :
    Nat → List Fitness → σ → σ
  | _, [], s => s
  | gen, best :: bests, s => hear note total (gen + 1) bests (note s (gen + 1) total best)

namespace Refinement

/-- A run of the generations that ends with a result keeps what the refinement tracks, counts
its generations up to at most the number asked for, and has its watch hear each of them in
order. -/
theorem loop_tracks {σ : Type} (cfg : RefineConfig) (d : Domain) {t₀ : Timetable} :
    ∀ (fuel gen : Nat) (r : Refinement) (w : RefineWatch σ) {r' : Refinement}
      {w' : RefineWatch σ},
      r.Tracks t₀ → r.breeder.stats.generations = gen → (gen : Int) ≤ max cfg.generations 0 →
      loop cfg d fuel gen r w = (.ok r', w') →
      r'.Tracks t₀ ∧ (r'.breeder.stats.generations : Int) ≤ max cfg.generations 0 ∧
        ∃ bests : List Fitness, r'.breeder.stats.generations = gen + bests.length ∧
          w' = { w with state := RefineWatch.hear w.note cfg.generations gen bests w.state }
  | 0, gen, r, w, _, _, hr, hgen, hle, h => by
    cases h
    exact ⟨hr, hgen ▸ hle, [], hgen, rfl⟩
  | fuel + 1, gen, r, w, _, _, hr, hgen, hle, h => by
    unfold loop at h
    split at h
    · cases h
      exact ⟨hr, hgen ▸ hle, [], hgen, rfl⟩
    · rename_i hlt
      split at h
      · cases h
      · split at h
        rename_i pop b hstep
        split at h
        rename_i best stale hpromote
        have hle' : ((gen + 1 : Nat) : Int) ≤ max cfg.generations 0 := by omega
        -- the run stops on a plateau, or goes on from the new generation
        split at h
        · cases h
          exact ⟨tracks_of_step cfg d hr hstep hpromote _ _, hle', [best.fitness], rfl, rfl⟩
        · obtain ⟨hr', hle'', bests, hgen', hw'⟩ := loop_tracks cfg d fuel (gen + 1) _ _
            (tracks_of_step cfg d hr hstep hpromote _ _) rfl hle' h
          refine ⟨hr', hle'', best.fitness :: bests, ?_, ?_⟩
          · rw [hgen', List.length_cons]
            omega
          · rw [hw']
            rfl

end Refinement

/-- Refinement is never worse than its seed. Whatever the seed, the domain, the settings and the
watch, a refinement that ends with a result returns a timetable placing at least as many
sessions as the seed; placing as many, its total is the seed's or higher, so at least the
seed's when that is a number. The reported final fitness is the returned timetable's, at most
as many generations ran as were asked for, and the watch heard generations `1, 2, …` up to the
count reported, each with the total asked for. -/
theorem refine_never_worse {σ : Type} (t₀ : Timetable) (d : Domain) (cfg : RefineConfig)
    (w : RefineWatch σ) {t : Timetable} {stats : RefineStats} {w' : RefineWatch σ}
    (h : t₀.refine d cfg w = (.ok (t, stats), w')) :
    t₀.size ≤ t.size ∧
      (t.size = t₀.size → t.fitness.total = t₀.fitness.total ∨ t₀.fitness.total < t.fitness.total) ∧
      (t.size = t₀.size → t₀.fitness.total.isNaN = false → t₀.fitness.total ≤ t.fitness.total) ∧
      stats.finalFitness = t.fitness.total ∧
      (stats.generations : Int) ≤ max cfg.generations 0 ∧
      ∃ bests : List Fitness, bests.length = stats.generations ∧
        w' = { w with state := RefineWatch.hear w.note cfg.generations 0 bests w.state } := by
  unfold Timetable.refine at h
  dsimp only at h
  split at h
  · rename_i r w'' hloop
    cases h
    obtain ⟨hstart, hgen⟩ := Refinement.start_tracks cfg.normalize d t₀
    obtain ⟨hr, hle, bests, hcount, hw⟩ :=
      Refinement.loop_tracks _ d _ 0 _ w hstart hgen (by omega) hloop
    -- the best is no worse than the seed, and its recorded fitness is its timetable's
    have hscored : r.best.fitness = r.best.timetable.fitness := hr.scored
    have hsame : r.best.timetable.size = t₀.size →
        r.best.timetable.fitness.total = t₀.fitness.total ∨
          t₀.fitness.total < r.best.timetable.fitness.total := by
      intro hs
      rcases hr.noWorse with hlt | ⟨-, ht⟩
      · exact absurd hs (by dsimp [Individual.of] at hlt; omega)
      · rwa [← hscored]
    refine ⟨?_, hsame, fun hs hnan ↦ Float.le_of_eq_or_lt (hsame hs) hnan, by rw [← hscored],
      hle, bests, by rw [hcount, Nat.zero_add], hw⟩
    rcases hr.noWorse with hlt | ⟨hs, -⟩
    · exact Nat.le_of_lt hlt
    · exact Nat.le_of_eq hs
  · cases h

/-- On the timetable of `singleRecords` with its first session placed, a refinement of four
individuals over three generations, which crosses and mutates them, and whose watch never stops,
ends with a result no worse than its seed. -/
theorem refine_never_worse_singleRecords :
    ∃ e t₀ t stats w', Catalog.build Domain.singleRecords = .ok e ∧
      t₀ = (Timetable.empty e).place ⟨"c", 0⟩ ⟨"s", "r"⟩ ∧ t₀.size = 1 ∧
      t₀.refine (Domain.build e)
          { populationSize := 4, generations := 3, crossoverRate := 0.8, mutationRate := 0.5 }
          (⟨(), fun x _ _ _ ↦ x, fun _ ↦ false⟩ : RefineWatch Unit) = (.ok (t, stats), w') ∧
      (t₀.size ≤ t.size ∧
        (t.size = t₀.size → t.fitness.total = t₀.fitness.total ∨ t₀.fitness.total < t.fitness.total) ∧
        (t.size = t₀.size → t₀.fitness.total.isNaN = false → t₀.fitness.total ≤ t.fitness.total) ∧
        stats.finalFitness = t.fitness.total ∧
        (stats.generations : Int) ≤ max 3 0 ∧
        ∃ bests : List Fitness, bests.length = stats.generations ∧
          w' = { (⟨(), fun x _ _ _ ↦ x, fun _ ↦ false⟩ : RefineWatch Unit) with
            state := RefineWatch.hear (fun x _ _ _ ↦ x) 3 0 bests () }) := by
  obtain ⟨e, hb, -, hcheck⟩ := Domain.build_singleRecords
  have h₀ : ((Timetable.empty e).place ⟨"c", 0⟩ ⟨"s", "r"⟩).Reachable :=
    .assign (.empty (Catalog.indexed_of_build hb)) (Timetable.assign_eq_ok.mpr ⟨hcheck, rfl⟩)
  have hsize : ((Timetable.empty e).place ⟨"c", 0⟩ ⟨"s", "r"⟩).size = 1 := by
    simp [Timetable.size, Timetable.place, Timetable.empty, Std.HashMap.size_insert]
  obtain ⟨t, stats, s, hr, -, -⟩ := Timetable.refine_eq_ok (I := fun _ : Unit ↦ True) h₀
    (Domain.build e) { populationSize := 4, generations := 3, crossoverRate := 0.8, mutationRate := 0.5 }
    ⟨(), fun x _ _ _ ↦ x, fun _ ↦ false⟩ (fun _ _ _ _ _ ↦ trivial) (fun _ _ ↦ rfl) trivial
  exact ⟨e, _, t, stats, _, hb, rfl, hsize, hr, refine_never_worse _ _ _ _ hr⟩

end Timetabling
