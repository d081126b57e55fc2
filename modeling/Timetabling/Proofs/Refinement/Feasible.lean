import Timetabling.Proofs.Timetable.Edited
import Timetabling.Refinement

/-! # Refinement keeps its seed's guarantees

Every timetable a refinement builds (mutated copies, children of a crossover, the population of
each generation and its best) is an edit of the seed that explains every session the seed
explains (`Kept`). Mutation and crossover move a session by removing it and placing it again;
when no new placement is accepted they put the old one back, which a coherent timetable always
accepts (`Coherent.check_unassign_self`), so no session is lost on the way. -/

namespace Timetabling

namespace Timetable

/-- A property of timetables that the moves of a refinement keep: it holds only of reachable
timetables, and it survives placing a session and moving one (removing it and placing it
again). A refinement builds every timetable from its seed by such moves, or by removing a session
and then failing to place it back, which a reachable timetable never does to a placed session. -/
structure MoveStable (P : Timetable → Prop) : Prop where
  reachable : ∀ {t}, P t → t.Reachable
  assign : ∀ {t t' k p}, P t → t.assign k p = .ok t' → P t'
  reassign : ∀ {t t' k p}, P t → (t.unassign k).2.assign k p = .ok t' → P t'

/-- A reachable timetable takes a session's placement back right after removing it, which is what
lets a search undo a move. -/
theorem Reachable.assign_unassign_lookup {t : Timetable} (ht : t.Reachable) {k : SessionKey}
    {q : Placement} (hl : t.lookup k = some q) (c : Conflict) :
    (t.unassign k).2.assign k q ≠ .error c := by
  intro hr
  rw [assign_eq_error, ht.coherent.check_unassign_self ht.indexed hl] at hr
  cases hr

namespace MoveStable

variable {P : Timetable → Prop} {t : Timetable} {k : SessionKey}

/-- Removing a session whose old placement is then refused keeps the property: that can only be a
session that was not placed, which removing leaves as it was. -/
theorem unassign_of_refused (hP : MoveStable P) (h : P t) {c : Conflict}
    (hr : (t.unassign k).2.assign k ((t.lookup k).getD default) = .error c) : P (t.unassign k).2 := by
  cases hl : t.lookup k with
  | none =>
    rw [unassign_of_getElem?_eq_none hl]
    exact h
  | some q =>
    rw [hl, Option.getD_some] at hr
    exact absurd hr ((hP.reachable h).assign_unassign_lookup hl c)

end MoveStable

/-- What every timetable of a refinement keeps of its seed `t₀`: it is an edit of the seed, and
it explains every session the seed explains. -/
structure Kept (t₀ t : Timetable) : Prop where
  edited : t₀.Edited t
  explains : t₀.Explains t

namespace Kept

variable {t₀ t t' : Timetable} {k : SessionKey} {p : Placement}

protected theorem refl (t : Timetable) : Kept t t := ⟨.refl, .refl t⟩

theorem assign (h : Kept t₀ t) (ha : t.assign k p = .ok t') : Kept t₀ t' :=
  ⟨h.edited.assign ha, h.explains.trans (explains_assign ha)⟩

/-- Moving a session: removing it and placing it again. -/
theorem reassign (h : Kept t₀ t) (ha : (t.unassign k).2.assign k p = .ok t') : Kept t₀ t' :=
  ⟨(h.edited.unassign k).assign ha, h.explains.trans (explains_reassign ha)⟩

theorem moveStable (h₀ : t₀.Reachable) : MoveStable (Kept t₀) :=
  ⟨fun h ↦ h.edited.reachable h₀, fun h ha ↦ h.assign ha, fun h ha ↦ h.reassign ha⟩

end Kept

end Timetable

namespace Breeder

open Timetable

/-- A relocation that succeeds placed the session where the timetable accepted it. -/
theorem exists_assign_of_relocate {t t' : Timetable} {key : SessionKey} {current : Placement}
    {candidates : List Placement} {offset : Nat}
    (h : relocate t key current candidates offset = some t') : ∃ p, t.assign key p = .ok t' := by
  obtain ⟨j, -, hj⟩ := List.exists_of_findSome?_eq_some h
  dsimp only at hj
  split at hj
  · cases hj
  · split at hj
    · rename_i ha
      cases hj
      exact ⟨_, ha⟩
    · cases hj

variable {P : Timetable → Prop} (hP : MoveStable P)
include hP

theorem mutate_stable (d : Domain) {t : Timetable} (h : P t) (b : Breeder) : P (b.mutate d t).1 := by
  unfold mutate
  dsimp only
  split
  · exact h
  · refine List.foldlRecOn (motive := fun (acc : Timetable × Breeder) ↦ P acc.1) _ _ h
      fun acc hacc _ _ ↦ ?_
    obtain ⟨t, b⟩ := acc
    dsimp only at hacc ⊢
    -- a session keeps its place, moves to an accepted candidate, or gets its old place back
    split
    · exact hacc
    · split
      · rename_i hr
        obtain ⟨p, hp⟩ := exists_assign_of_relocate hr
        exact hP.reassign hacc hp
      · split
        · rename_i ha
          exact hP.reassign hacc ha
        · rename_i hr
          exact hP.unassign_of_refused hacc hr

/-- A child keeps the property when its first parent has it: each adopted placement moves or
places a session where the child accepts it, and a refused move is undone. -/
theorem crossover_stable {first : Timetable} (h : P first) (second : Timetable) (b : Breeder) :
    P (crossover first second b).1 := by
  unfold crossover
  -- by induction on the sessions of the second parent, for any child kept so far
  replace h : P (first, b).1 := h
  generalize (first, b) = acc at h ⊢
  generalize second.keys = ks
  induction ks generalizing acc with
  | nil => exact h
  | cons k ks ih =>
    rw [List.foldl_cons]
    refine ih _ ?_
    obtain ⟨child, b⟩ := acc
    dsimp only
    split
    · exact h
    · split
      · -- the child has the session: it moves, or goes back to where it was
        rename_i current hl
        split
        · exact h
        · split
          · rename_i ha
            exact hP.reassign h ha
          · split
            · rename_i ha
              exact hP.reassign h ha
            · rename_i hr
              exact absurd hr ((hP.reachable h).assign_unassign_lookup hl _)
      · split
        · rename_i ha
          exact hP.assign h ha
        · exact h

omit hP

/-! ## Populations -/

section Population

variable {Q : Individual → Prop}

theorem getD_of_forall {pop : Array Individual} (hpop : ∀ ind ∈ pop, Q ind) {x : Individual}
    (hx : Q x) (i : Nat) : Q (pop.getD i x) := by
  rw [Array.getD_eq_getD_getElem?]
  cases h : pop[i]? with
  | none => exact hx
  | some ind => exact hpop ind (Array.mem_of_getElem? h)

/-- A tournament is won by an individual of the population or by the fallback. -/
theorem tournament_of_forall {pop : Array Individual} (hpop : ∀ ind ∈ pop, Q ind)
    {fallback : Individual} (hf : Q fallback) (size : Int) (b : Breeder) :
    Q (b.tournament pop fallback size).1 := by
  unfold tournament
  dsimp only
  refine List.foldlRecOn (motive := fun (acc : Individual × Breeder) ↦ Q acc.1) _ _
    (getD_of_forall hpop hf _) fun acc hacc _ _ ↦ ?_
  obtain ⟨winner, b⟩ := acc
  dsimp only
  split
  · exact getD_of_forall hpop hacc _
  · exact hacc

end Population

/-- Everything `gather` makes satisfies `Q` when each value made does, whatever the breeder. The
values are named by equations rather than projections, so that the kernel never has to unfold a
breeding step to compare two of them. -/
theorem forall_mem_gather {α β : Type} {Q : α → Prop} (make : β → Breeder → α × Breeder)
    (items : List β) (hmake : ∀ y ∈ items, ∀ b x b', make y b = (x, b') → Q x) (b : Breeder) :
    ∀ x ∈ (gather make items b).1, Q x := by
  unfold gather
  -- by induction on the items, for every list gathered so far
  suffices h : ∀ (f : List α × Breeder → β → List α × Breeder),
      (∀ acc y, y ∈ items → ∃ x, (f acc y).1 = acc.1 ++ [x] ∧ Q x) →
      ∀ acc : List α × Breeder, (∀ x ∈ acc.1, Q x) → ∀ x ∈ (items.foldl f acc).1, Q x from
    h _ (fun acc y hy ↦ ⟨(make y acc.2).1, rfl, hmake y hy acc.2 _ (make y acc.2).2 rfl⟩) _
      fun _ h ↦ absurd h List.not_mem_nil
  intro f hf
  induction items with
  | nil => exact fun _ h ↦ h
  | cons y items ih =>
    intro acc hacc
    rw [List.foldl_cons]
    refine ih (fun y hy ↦ hmake y (List.mem_cons_of_mem _ hy))
      (fun acc y' hy' ↦ hf acc y' (List.mem_cons_of_mem _ hy')) _ fun x hx ↦ ?_
    obtain ⟨x', hx', hp⟩ := hf acc y List.mem_cons_self
    rw [hx'] at hx
    rcases List.mem_append.mp hx with hx | hx
    · exact hacc x hx
    · rw [List.mem_singleton.mp hx]
      exact hp

include hP

/-- A bred child has the property when the population and the elite do. -/
theorem breed_stable (cfg : RefineConfig) {pop : Array Individual}
    (hpop : ∀ ind ∈ pop, P ind.timetable) {elite : Individual} (he : P elite.timetable)
    {b b' : Breeder} {child : Timetable} (hb : b.breed cfg pop elite = (child, b')) : P child := by
  have hwin : ∀ b, P (tournament pop elite cfg.tournamentSize b).1.timetable :=
    tournament_of_forall (Q := fun ind ↦ P ind.timetable) hpop he _
  unfold breed at hb
  split at hb
  rename_i pa b₁ hpa
  have hpa' : P pa.timetable := by
    have h := hwin b
    rwa [hpa] at h
  split at hb
  rename_i pb b₂ _
  split at hb
  rename_i r b₃ _
  -- a crossover starting from the first winner, or a copy of it
  split at hb
  · have h := crossover_stable hP hpa' pb.timetable b₃
    rwa [hb] at h
  · cases hb
    exact hpa'

/-- A scored child has the property when the child does. -/
theorem score_stable (cfg : RefineConfig) (d : Domain) {child : Timetable} (hc : P child)
    {b b' : Breeder} {ind : Individual} (hb : b.score cfg d child = (ind, b')) : P ind.timetable := by
  unfold score at hb
  split at hb
  rename_i r b₁ _
  -- the child mutated, or as it was
  split at hb
  · split at hb
    rename_i mutated b₂ hmutated
    cases hb
    have h := mutate_stable hP d hc b₁
    rwa [hmutated] at h
  · cases hb
    exact hc

theorem step_stable (cfg : RefineConfig) (d : Domain) {pop : Array Individual}
    (hpop : ∀ ind ∈ pop, P ind.timetable) {elite : Individual} (he : P elite.timetable)
    {b b' : Breeder} {next : Array Individual} (hb : b.step cfg d pop elite = (next, b')) :
    ∀ ind ∈ next, P ind.timetable := by
  unfold step at hb
  split at hb
  rename_i children b₁ hchildren
  split at hb
  rename_i scored b₂ hscored
  cases hb
  have hkids : ∀ c ∈ children, P c := by
    have h := forall_mem_gather (Q := P) (fun _ b ↦ b.breed cfg pop elite)
      (List.range (pop.size - 1)) (fun _ _ _ _ _ hx ↦ breed_stable hP cfg hpop he hx) b
    rwa [hchildren] at h
  have hscored' : ∀ ind ∈ scored, P ind.timetable := by
    have h := forall_mem_gather (Q := fun ind : Individual ↦ P ind.timetable)
      (fun child b ↦ b.score cfg d child) children
      (fun c hc _ _ _ hx ↦ score_stable hP cfg d (hkids c hc) hx) b₁
    rwa [hscored] at h
  -- the next generation is the elite and the scored children
  intro ind hind
  rcases List.mem_cons.mp (List.mem_toArray.mp hind) with rfl | hind
  · exact he
  · exact hscored' ind hind

end Breeder

/-- The best of a population is one of its individuals. -/
theorem bestOf_of_forall {Q : Individual → Prop} {pop : Array Individual} (hpop : ∀ ind ∈ pop, Q ind)
    {best : Individual} (h : bestOf pop = some best) : Q best := by
  unfold bestOf at h
  split at h
  · cases h
  · rename_i first rest hlist
    cases h
    have hmem : ∀ ind ∈ first :: rest, Q ind := fun ind hind ↦
      hpop ind (Array.mem_def.mpr (hlist ▸ hind))
    -- the running best is always the first individual or one drawn from the rest
    refine List.foldlRecOn (motive := Q) _ _ (hmem first List.mem_cons_self) fun best hbest ind hind ↦ ?_
    split
    · exact hmem ind (List.mem_cons_of_mem _ hind)
    · exact hbest

/-- The best of a population, or a fallback, satisfies what all of them satisfy. -/
theorem getD_bestOf_of_forall {Q : Individual → Prop} {pop : Array Individual}
    (hpop : ∀ ind ∈ pop, Q ind) {x : Individual} (hx : Q x) : Q ((bestOf pop).getD x) := by
  cases hbest : bestOf pop with
  | none => exact hx
  | some best => exact bestOf_of_forall hpop hbest

namespace Refinement

open Timetable

/-- The best after a generation is the best so far or the generation's best. -/
theorem promote_of_forall {Q : Individual → Prop} {pop : Array Individual} {best best' : Individual}
    {stale stale' : Nat} (hpop : ∀ ind ∈ pop, Q ind) (hbest : Q best)
    (h : promote pop best stale = (best', stale')) : Q best' := by
  unfold promote at h
  dsimp only at h
  split at h
  · cases h
    exact getD_bestOf_of_forall hpop hbest
  · cases h
    exact hbest

/-- A property of every individual of a refinement's population and of its best so far. -/
structure Holds (P : Timetable → Prop) (r : Refinement) : Prop where
  population : ∀ ind ∈ r.population, P ind.timetable
  best : P r.best.timetable

variable {P : Timetable → Prop} (hP : MoveStable P)
include hP

/-- The first population is the seed and mutated copies of it. -/
theorem start_holds (cfg : RefineConfig) (d : Domain) {t₀ : Timetable} (h₀ : P t₀) :
    (start cfg d t₀).Holds P := by
  unfold start
  dsimp only
  suffices h : ∀ (pop : Array Individual) (b : Breeder), (∀ ind ∈ pop, P ind.timetable) →
      Holds P { population := pop, best := (bestOf pop).getD (Individual.of t₀), breeder := b } by
    apply h
    -- each step of the fold pushes a mutated copy of the seed
    refine List.foldlRecOn (motive := fun (acc : Array Individual × Breeder) ↦
      ∀ ind ∈ acc.1, P ind.timetable) _ _ ?_ fun acc hacc _ _ ind hind ↦ ?_
    · intro ind hind
      rw [List.mem_singleton.mp (List.mem_toArray.mp hind)]
      exact h₀
    · rcases Array.mem_push.mp hind with hind | rfl
      · exact hacc ind hind
      · exact Breeder.mutate_stable hP d h₀ acc.2
  exact fun pop _ hpop ↦ ⟨hpop, getD_bestOf_of_forall (Q := fun ind ↦ P ind.timetable) hpop h₀⟩

/-- One generation keeps the property of the population and the best. -/
theorem holds_of_step (cfg : RefineConfig) (d : Domain) {r : Refinement} (hr : r.Holds P)
    {pop : Array Individual} {b : Breeder} (hstep : r.breeder.step cfg d r.population r.best = (pop, b))
    {best : Individual} {stale : Nat} (hpromote : promote pop r.best r.stale = (best, stale)) :
    (∀ ind ∈ pop, P ind.timetable) ∧ P best.timetable :=
  have hpop := Breeder.step_stable hP cfg d hr.population hr.best hstep
  ⟨hpop, promote_of_forall (Q := fun ind ↦ P ind.timetable) hpop hr.best hpromote⟩

/-- A run of the generations that ends with a result keeps the property, whatever its watch. -/
theorem loop_holds {σ : Type} (cfg : RefineConfig) (d : Domain) :
    ∀ (fuel gen : Nat) (r : Refinement) (w : RefineWatch σ) {r' : Refinement} {w' : RefineWatch σ},
      r.Holds P → loop cfg d fuel gen r w = (.ok r', w') → r'.Holds P
  | 0, _, r, w, _, _, hr, h => by
    cases h
    exact hr
  | fuel + 1, gen, r, w, _, _, hr, h => by
    unfold loop at h
    split at h
    · cases h
      exact hr
    · split at h
      · cases h
      · split at h
        rename_i pop b hstep
        split at h
        rename_i best stale hpromote
        obtain ⟨hpop, hbest⟩ := holds_of_step hP cfg d hr hstep hpromote
        -- the run stops on a plateau, or goes on from the new generation
        split at h
        · cases h
          exact ⟨hpop, hbest⟩
        · exact loop_holds cfg d fuel (gen + 1) _ _ ⟨hpop, hbest⟩ h

omit hP

/-- A run of the generations whose watch never stops it ends with a result. `I` is what the
watch's state keeps from note to note. -/
theorem loop_eq_ok {σ : Type} {I : σ → Prop} (cfg : RefineConfig) (d : Domain)
    (note : σ → Nat → Int → Fitness → σ) (stopped : σ → Bool)
    (hnote : ∀ s gen total best, I s → I (note s gen total best))
    (hstop : ∀ s, I s → stopped s = false) :
    ∀ (fuel gen : Nat) (r : Refinement) (s : σ), I s →
      ∃ r' s', loop cfg d fuel gen r ⟨s, note, stopped⟩ = (.ok r', ⟨s', note, stopped⟩) ∧ I s'
  | 0, _, r, s, hs => ⟨r, s, rfl, hs⟩
  | fuel + 1, gen, r, s, hs => by
    unfold loop
    split
    · exact ⟨r, s, rfl, hs⟩
    · rw [if_neg (by simp [hstop s hs])]
      dsimp only
      -- the run stops on a plateau, or goes on from the new generation
      split
      · exact ⟨_, _, rfl, hnote _ _ _ _ hs⟩
      · exact loop_eq_ok cfg d note stopped hnote hstop fuel (gen + 1) _ _ (hnote _ _ _ _ hs)

end Refinement

/-- A refinement that ends with a result returns a timetable with every move-stable property of
its seed, whatever its watch. -/
theorem Timetable.refine_stable {σ : Type} {P : Timetable → Prop} (hP : MoveStable P)
    {t₀ : Timetable} (h₀ : P t₀) (d : Domain) (cfg : RefineConfig) (w : RefineWatch σ)
    {t : Timetable} {stats : RefineStats} {w' : RefineWatch σ}
    (h : t₀.refine d cfg w = (.ok (t, stats), w')) : P t := by
  unfold Timetable.refine at h
  dsimp only at h
  split at h
  · rename_i r w'' hloop
    cases h
    exact (Refinement.loop_holds hP _ d _ 0 _ w (Refinement.start_holds hP _ d h₀) hloop).best
  · cases h

/-- A refinement that its watch never stops returns a timetable keeping what the seed guarantees.
`I` is what the watch's state keeps from note to note. -/
theorem Timetable.refine_eq_ok {σ : Type} {I : σ → Prop} {t₀ : Timetable} (h₀ : t₀.Reachable)
    (d : Domain) (cfg : RefineConfig) (w : RefineWatch σ)
    (hnote : ∀ s gen total best, I s → I (w.note s gen total best))
    (hstop : ∀ s, I s → w.stopped s = false) (hs : I w.state) :
    ∃ t stats s, t₀.refine d cfg w = (.ok (t, stats), { w with state := s }) ∧
      Timetable.Kept t₀ t ∧ I s := by
  obtain ⟨s₀, note, stopped⟩ := w
  obtain ⟨r, s, hloop, hs⟩ := Refinement.loop_eq_ok cfg.normalize d note stopped hnote hstop
    cfg.normalize.generations.toNat 0 (Refinement.start cfg.normalize d t₀) s₀ hs
  have hr : t₀.refine d cfg ⟨s₀, note, stopped⟩ =
      (.ok (r.best.timetable, { r.breeder.stats with finalFitness := r.best.fitness.total }),
        ⟨s, note, stopped⟩) := by
    simp only [Timetable.refine, hloop]
  exact ⟨_, _, s, hr, Timetable.refine_stable (Timetable.Kept.moveStable h₀) (.refl t₀) d cfg _ hr, hs⟩

end Timetabling
