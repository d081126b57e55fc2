import Timetabling.Fitness
import Timetabling.Domain
import Timetabling.Random.Pcg

/-! # Genetic refinement

Refinement improves a timetable with a population of variants, bred generation by generation.
Every variant comes from feasible moves only, so it stays a valid timetable:

* a *mutation* relocates about a tenth of the placed sessions (at least one), each to the first
  other candidate, from a random offset, that the timetable accepts;
* a *crossover* starts from one parent and adopts each placement of the other with probability
  one half, when the timetable accepts it.

The first population is the timetable itself and mutated copies of it. Each generation keeps the
best variant so far (the elite) and fills the rest with children of two tournament winners,
crossed with the crossover rate or else copied from the first, then mutated with the mutation
rate. The run ends after the given generations, or when the best has not improved for the
plateau number of generations; an improvement means more placed sessions, or a total higher by
more than `1e-6`. A generation can also be stopped from outside before it starts. -/

namespace Timetabling

/-- The knobs of a refinement. -/
structure RefineConfig where
  populationSize : Int := 0
  generations : Int := 0
  plateauGenerations : Int := 0
  tournamentSize : Int := 0
  crossoverRate : Float := 0
  mutationRate : Float := 0
  seed : Nat := 0
deriving Repr

/-- What a refinement did. -/
structure RefineStats where
  generations : Nat := 0
  population : Int := 0
  initialFitness : Float := 0
  finalFitness : Float := 0
  plateaued : Bool := false
  adopted : Nat := 0
  mutations : Nat := 0
deriving Repr

/-- A timetable of the population with its fitness. -/
structure Individual where
  timetable : Timetable
  fitness : Fitness

/-- An individual of a timetable, scored. -/
def Individual.of (t : Timetable) : Individual := ⟨t, t.fitness⟩

/-- A total gain no larger than this is no improvement. -/
def plateauEpsilon : Float := 1e-6

/-- The random source and the running counts of a refinement. -/
structure Breeder where
  rng : Pcg
  stats : RefineStats := {}

namespace Breeder

/-- Draw a uniform number below `n`. -/
def below (b : Breeder) (n : Nat) : Nat × Breeder :=
  let (x, rng) := b.rng.below n
  (x, { b with rng })

/-- Draw a uniform float in `[0, 1)`. -/
def unit (b : Breeder) : Float × Breeder :=
  let (x, rng) := b.rng.unit
  (x, { b with rng })

/-- Try a session at the candidates from `offset` on, cyclically, skipping its old placement;
the timetable after the first accepted one. -/
def relocate (t : Timetable) (key : SessionKey) (current : Placement) (candidates : List Placement)
    (offset : Nat) : Option Timetable :=
  (List.range candidates.length).findSome? fun (j : Nat) =>
    let p := candidates.getD ((offset + j) % candidates.length) default
    if p == current then none
    else match t.assign key p with
      | .ok t => some t
      | .error _ => none

/-- Relocate about a tenth of a timetable's placed sessions to other candidates. -/
def mutate (d : Domain) (t : Timetable) (b : Breeder) : Timetable × Breeder :=
  let keys := t.keys
  if keys.isEmpty then (t, b)
  else
    (List.range (max 1 (keys.length / 10))).foldl (fun (t, b) _ =>
      let (i, b) := b.below keys.length
      let key := keys.getD i default
      let candidates := d.forKey key
      if candidates.length < 2 then (t, b)
      else
        let current := (t.lookup key).getD default
        let (_, freed) := t.unassign key
        let (offset, b) := b.below candidates.length
        match relocate freed key current candidates offset with
        | some t => (t, { b with stats := { b.stats with mutations := b.stats.mutations + 1 } })
        | none =>
          match freed.assign key current with
          | .ok t => (t, b)
          | .error _ => (freed, b)) (t, b)

/-- A child of two timetables: the first, adopting each placement of the second with probability
one half where the timetable accepts it. -/
def crossover (first second : Timetable) (b : Breeder) : Timetable × Breeder :=
  second.keys.foldl (fun (child, b) key =>
    let (coin, b) := b.below 2
    if coin == 0 then (child, b)
    else
      let want := (second.lookup key).getD default
      let adopted (t : Timetable) : Timetable × Breeder :=
        (t, { b with stats := { b.stats with adopted := b.stats.adopted + 1 } })
      match child.lookup key with
      | some current =>
        if current == want then (child, b)
        else
          let (_, freed) := child.unassign key
          match freed.assign key want with
          | .ok t => adopted t
          | .error _ =>
            match freed.assign key current with
            | .ok t => (t, b)
            | .error _ => (freed, b)
      | none =>
        match child.assign key want with
        | .ok t => adopted t
        | .error _ => (child, b)) (first, b)

end Breeder

/-- The best of a population: the first individual that no later one beats (`none` for an empty
population). -/
def bestOf (pop : Array Individual) : Option Individual :=
  match pop.toList with
  | [] => none
  | first :: rest => some (rest.foldl (fun best ind =>
      if Timetable.better ind.timetable ind.fitness best.timetable best.fitness then ind else best) first)

namespace Breeder

/-- A tournament: the best of `size` individuals drawn at random (at least one); `fallback`
stands for a draw outside the population, which a non-empty population never gives. -/
def tournament (pop : Array Individual) (fallback : Individual) (size : Int) (b : Breeder) :
    Individual × Breeder :=
  let (i, b) := b.below pop.size
  (List.range (size - 1).toNat).foldl (fun (winner, b) _ =>
    let (j, b) := b.below pop.size
    let contender := pop.getD j winner
    if Timetable.better contender.timetable contender.fitness winner.timetable winner.fitness then
      (contender, b)
    else (winner, b)) (pop.getD i fallback, b)

/-- One value per item, made in order with the breeder threaded through. -/
def gather {α β : Type} (make : β → Breeder → α × Breeder) (items : List β) (b : Breeder) :
    List α × Breeder :=
  items.foldl (fun (acc : List α × Breeder) y =>
    let (x, b) := make y acc.2
    (acc.1 ++ [x], b)) ([], b)

/-- A child of two tournament winners, crossed with the crossover rate or else copied from the
first. -/
def breed (cfg : RefineConfig) (pop : Array Individual) (elite : Individual) (b : Breeder) :
    Timetable × Breeder :=
  let (pa, b) := b.tournament pop elite cfg.tournamentSize
  let (pb, b) := b.tournament pop elite cfg.tournamentSize
  let (r, b) := b.unit
  if r < cfg.crossoverRate then crossover pa.timetable pb.timetable b else (pa.timetable, b)

/-- A child scored, mutated first with the mutation rate. -/
def score (cfg : RefineConfig) (d : Domain) (child : Timetable) (b : Breeder) : Individual × Breeder :=
  let (r, b) := b.unit
  if r < cfg.mutationRate then
    let (mutated, b) := b.mutate d child
    (Individual.of mutated, b)
  else (Individual.of child, b)

/-- Breed the next generation: the elite first, then children of tournament winners, then every
child but the elite mutated with the mutation rate and scored. -/
def step (cfg : RefineConfig) (d : Domain) (pop : Array Individual) (elite : Individual) (b : Breeder) :
    Array Individual × Breeder :=
  let (children, b) := gather (fun _ b => b.breed cfg pop elite) (List.range (pop.size - 1)) b
  let (scored, b) := gather (fun child b => b.score cfg d child) children b
  ((elite :: scored).toArray, b)

end Breeder

/-- The state of a refinement between generations. -/
structure Refinement where
  population : Array Individual
  best : Individual
  stale : Nat := 0
  breeder : Breeder

/-- The settings in force: at least two individuals, tournaments of two when none is given, and
a plateau as long as the run when none is given. -/
def RefineConfig.normalize (cfg : RefineConfig) : RefineConfig :=
  { cfg with
    populationSize := if cfg.populationSize < 2 then 2 else cfg.populationSize
    tournamentSize := if cfg.tournamentSize < 1 then 2 else cfg.tournamentSize
    plateauGenerations := if cfg.plateauGenerations ≤ 0 then cfg.generations else cfg.plateauGenerations }

/-- The first population: the timetable, then mutated copies of it. Mutations made here are not
counted. -/
def Refinement.start (cfg : RefineConfig) (d : Domain) (t : Timetable) : Refinement :=
  let base := Individual.of t
  let b : Breeder := { rng := Pcg.seeded cfg.seed (cfg.seed / 2 ||| 1) }
  let (pop, b) := (List.range (cfg.populationSize.toNat - 1)).foldl (fun (acc : Array Individual × Breeder) _ =>
    let (pop, b) := acc
    let (copy, b) := b.mutate d t
    (pop.push (Individual.of copy), b)) (#[base], b)
  let b := { b with stats := { population := cfg.populationSize, initialFitness := base.fitness.total } }
  { population := pop, best := (bestOf pop).getD base, breeder := b }

/-- How a refinement reports and can be stopped: an observer state, its update after each
generation with the generation number, the generation count and the best fitness, and whether it
asks to stop. -/
structure RefineWatch (σ : Type) where
  state : σ
  note : σ → Nat → Int → Fitness → σ
  stopped : σ → Bool

namespace Refinement

/-- The best after a generation, with the number of generations since the last improvement: the
generation's best replaces the best so far when it places more sessions, or as many with a total
higher by more than `plateauEpsilon`. -/
def promote (pop : Array Individual) (best : Individual) (stale : Nat) : Individual × Nat :=
  let current := (bestOf pop).getD best
  if current.timetable.size > best.timetable.size ||
      (current.timetable.size == best.timetable.size &&
        current.fitness.total - best.fitness.total > plateauEpsilon) then (current, 0)
  else (best, stale + 1)

/-- Run the generations from `gen` on; `fuel` bounds their number. The result is the final state,
or the generation at which the watch stopped the run with the state then. -/
def loop {σ : Type} (cfg : RefineConfig) (d : Domain) :
    Nat → Nat → Refinement → RefineWatch σ → Except (Nat × Refinement) Refinement × RefineWatch σ
  | 0, _, r, w => (.ok r, w)
  | fuel + 1, gen, r, w =>
    if (gen : Int) ≥ cfg.generations then (.ok r, w)
    else if w.stopped w.state then (.error (gen, r), w)
    else
      let (pop, b) := r.breeder.step cfg d r.population r.best
      let (best, stale) := promote pop r.best r.stale
      let b := { b with stats := { b.stats with generations := gen + 1 } }
      let w := { w with state := w.note w.state (gen + 1) cfg.generations best.fitness }
      let r := { population := pop, best, stale, breeder := b }
      if (stale : Int) ≥ cfg.plateauGenerations then
        (.ok { r with breeder := { b with stats := { b.stats with plateaued := true } } }, w)
      else loop cfg d fuel (gen + 1) r w

end Refinement

/-- Refine a timetable. The result is the best timetable found with the run's counts, or, when
the watch stops the run, the generation it stopped before with the counts so far. -/
def Timetable.refine {σ : Type} (t : Timetable) (d : Domain) (cfg : RefineConfig) (w : RefineWatch σ) :
    Except (Nat × RefineStats) (Timetable × RefineStats) × RefineWatch σ :=
  let cfg := cfg.normalize
  let r := Refinement.start cfg d t
  match Refinement.loop cfg d cfg.generations.toNat 0 r w with
  | (.ok r, w) =>
    (.ok (r.best.timetable, { r.breeder.stats with finalFitness := r.best.fitness.total }), w)
  | (.error (gen, r), w) => (.error (gen, r.breeder.stats), w)

end Timetabling
