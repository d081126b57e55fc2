import Timetabling.Clustering.Basic

/-! # Splitting a group of courses into chunks

A group of conflicting courses larger than the cluster limit is split by placing its courses one
at a time (`placeCourse`): into a full chunk they are tied to by a staff-sized weight, which makes
that chunk oversized; into an open chunk; or into a chunk of their own. Whatever the weights, each
placement puts the course in exactly one chunk (`placeCourse_cases`), so the chunks of a split hold
each course of the group once (`splitGroup_members`). A chunk only takes a course beyond the limit
when it is full already and is then flagged, so every chunk holds a course and is flagged
oversized exactly when it holds more than the limit (`splitGroup_sized`). Isolated courses are
batched in consecutive pieces of at most the limit (`flatten_chunksOf`, `mem_chunksOf`). -/

namespace Timetabling

/-! ## Consecutive pieces of a list -/

theorem chunksOf.go_spec {α : Type} {n : Nat} (hn : 0 < n) :
    ∀ (fuel : Nat) (xs : List α), xs.length ≤ fuel →
      (chunksOf.go n fuel xs).flatten = xs ∧ ∀ b ∈ chunksOf.go n fuel xs, b ≠ [] ∧ b.length ≤ n
  | 0, xs, h => by
    rw [List.eq_nil_of_length_eq_zero (Nat.le_zero.mp h)]
    exact ⟨rfl, fun _ hb ↦ absurd hb List.not_mem_nil⟩
  | fuel + 1, xs, h => by
    cases xs with
    | nil => exact ⟨rfl, fun _ hb ↦ absurd hb List.not_mem_nil⟩
    | cons x xs =>
      -- the first piece is the first `n` elements, and the rest is cut the same way
      obtain ⟨hrest, hpieces⟩ := go_spec hn fuel ((x :: xs).drop n)
        (by rw [List.length_drop]; simp only [List.length_cons] at h ⊢; omega)
      refine ⟨by simp [go, hrest], fun b hb ↦ ?_⟩
      simp only [go, List.isEmpty_cons, Bool.false_eq_true, if_false, List.mem_cons] at hb
      rcases hb with rfl | hb
      · exact ⟨by simp [List.take_eq_nil_iff]; omega, List.length_take_le _ _⟩
      · exact hpieces b hb

/-- The pieces of a list, put back together, are the list. -/
theorem flatten_chunksOf {α : Type} {n : Nat} (hn : 0 < n) (xs : List α) :
    (chunksOf n xs).flatten = xs :=
  (chunksOf.go_spec hn xs.length xs (Nat.le_refl _)).1

/-- Every piece of a list holds an element and at most `n` of them. -/
theorem mem_chunksOf {α : Type} {n : Nat} (hn : 0 < n) {xs b : List α} (hb : b ∈ chunksOf n xs) :
    b ≠ [] ∧ b.length ≤ n :=
  (chunksOf.go_spec hn xs.length xs (Nat.le_refl _)).2 b hb

/-! ## Modifying one element of a list -/

/-- An element of a list with one element modified is an element of the list or the modified one. -/
theorem mem_modify {α : Type} {f : α → α} {l : List α} {i : Nat} {c : α} (hc : c ∈ l.modify i f) :
    c ∈ l ∨ ∃ h : i < l.length, c = f l[i] := by
  obtain ⟨j, hj, rfl⟩ := List.mem_iff_getElem.mp hc
  rw [List.length_modify] at hj
  rw [List.getElem_modify]
  split
  · rename_i hij
    subst hij
    exact .inr ⟨hj, rfl⟩
  · exact .inl (List.getElem_mem hj)

/-- Modifying one element so that its part gains `extra` makes the parts of the list gain `extra`. -/
theorem flatMap_modify_perm {α β : Type} (g : α → List β) {f : α → α} {extra : List β}
    (hf : ∀ a, (g (f a)).Perm (g a ++ extra)) :
    ∀ (l : List α) (i : Nat), i < l.length → ((l.modify i f).flatMap g).Perm (l.flatMap g ++ extra)
  | [], _, h => absurd h (Nat.not_lt_zero _)
  | a :: l, 0, _ => by
    rw [List.modify_zero_cons, List.flatMap_cons, List.flatMap_cons, List.append_assoc]
    -- the modified part gains `extra`, which moves past the parts after it
    refine ((hf a).append_right _).trans ?_
    rw [List.append_assoc]
    exact List.perm_append_comm.append_left _
  | a :: l, i + 1, h => by
    rw [List.modify_succ_cons, List.flatMap_cons, List.flatMap_cons, List.append_assoc]
    exact (flatMap_modify_perm g hf l i (by simpa using h)).append_left _

/-! ## Placing one course -/

namespace Chunk

/-- A chunk holds a course, and is flagged oversized exactly when it holds more than `limit`. -/
def Sized (limit : Nat) (c : Chunk) : Prop :=
  0 < c.members.size ∧ (c.oversized = true ↔ limit < c.members.size)

end Chunk

/-- The courses some chunks hold, chunk by chunk. -/
def chunkMembers (chunks : List Chunk) : List Nat :=
  chunks.flatMap (·.members.toList)

/-- The open chunk a course may join is a chunk below the limit; the full chunk it may join is a
chunk at the limit or above. -/
theorem pickChunk_spec (weight : Nat → Float) (limit : Nat) (chunks : Array Chunk) :
    (∀ b, (pickChunk weight limit chunks).1 = some b →
      ∃ h : b < chunks.size, chunks[b].members.size < limit) ∧
    (∀ b, (pickChunk weight limit chunks).2.2.1 = some b →
      ∃ h : b < chunks.size, limit ≤ chunks[b].members.size) := by
  unfold pickChunk
  rw [← Array.foldl_toList, Array.toList_zipIdx]
  refine List.foldlRecOn (motive := fun s : Option Nat × Float × Option Nat × Float ↦ (∀ b, s.1 = some b →
      ∃ h : b < chunks.size, chunks[b].members.size < limit) ∧
    (∀ b, s.2.2.1 = some b → ∃ h : b < chunks.size, limit ≤ chunks[b].members.size)) _ _
    ⟨fun _ h ↦ (nomatch h), fun _ h ↦ (nomatch h)⟩ fun s hs x hx ↦ ?_
  obtain ⟨best, bestA, hard, hardA⟩ := s
  obtain ⟨c, idx⟩ := x
  have hc : chunks[idx]? = some c := by
    simpa using List.mem_zipIdx_iff_getElem?.mp hx
  obtain ⟨hidx, rfl⟩ := Array.getElem?_eq_some_iff.mp hc
  dsimp only
  -- a chunk is picked as open only below the limit, and as full only at it or above
  refine ⟨fun b hb ↦ ?_, fun b hb ↦ ?_⟩
  · split at hb
    · rename_i hopen
      obtain rfl : idx = b := Option.some.inj hb
      exact ⟨hidx, hopen.1⟩
    · exact hs.1 b hb
  · split at hb
    · rename_i hfull
      obtain rfl : idx = b := Option.some.inj hb
      exact ⟨hidx, hfull.1⟩
    · exact hs.2 b hb

/-- Placing a course adds it to a full chunk, which it flags oversized; or to an open chunk; or
to a new chunk of its own. -/
theorem placeCourse_cases (weight : Nat → Nat → Float) (limit : Nat) (chunks : Array Chunk)
    (n : Nat) :
    (∃ (h : Nat) (hh : h < chunks.size), limit ≤ chunks[h].members.size ∧
      placeCourse weight limit chunks n = chunks.modify h fun c ↦ ⟨c.members.push n, true⟩) ∨
    (∃ (b : Nat) (hb : b < chunks.size), chunks[b].members.size < limit ∧
      placeCourse weight limit chunks n =
        chunks.modify b fun c ↦ { c with members := c.members.push n }) ∨
    placeCourse weight limit chunks n = chunks.push ⟨#[n], false⟩ := by
  obtain ⟨hbest, hhard⟩ := pickChunk_spec (weight n) limit chunks
  unfold placeCourse
  generalize pickChunk (weight n) limit chunks = pick at hbest hhard
  obtain ⟨best, bestA, hard, hardA⟩ := pick
  -- a full chunk that pulls harder than the open one takes the course; else the open one, if any
  cases best with
  | none =>
    cases hard with
    | none => exact .inr (.inr rfl)
    | some h =>
      obtain ⟨hh, hfull⟩ := hhard h rfl
      dsimp only
      split
      · exact .inl ⟨h, hh, hfull, rfl⟩
      · exact .inr (.inr rfl)
  | some b =>
    obtain ⟨hb, hopen⟩ := hbest b rfl
    cases hard with
    | none => exact .inr (.inl ⟨b, hb, hopen, rfl⟩)
    | some h =>
      obtain ⟨hh, hfull⟩ := hhard h rfl
      dsimp only
      split
      · exact .inl ⟨h, hh, hfull, rfl⟩
      · exact .inr (.inl ⟨b, hb, hopen, rfl⟩)

variable {weight : Nat → Nat → Float} {limit : Nat}

/-- Adding a course to one chunk adds it to the courses the chunks hold. -/
theorem chunkMembers_modify_push {chunks : Array Chunk} {i n : Nat} (hi : i < chunks.size)
    {f : Chunk → Chunk} (hf : ∀ c, (f c).members = c.members.push n) :
    (chunkMembers (chunks.modify i f).toList).Perm (chunkMembers chunks.toList ++ [n]) := by
  unfold chunkMembers
  rw [Array.toList_modify]
  exact flatMap_modify_perm _ (fun c ↦ by simp [hf]) _ _ (by simpa using hi)

/-- Placing a course adds it to the courses the chunks hold. -/
theorem chunkMembers_placeCourse (chunks : Array Chunk) (n : Nat) :
    (chunkMembers (placeCourse weight limit chunks n).toList).Perm
      (chunkMembers chunks.toList ++ [n]) := by
  rcases placeCourse_cases weight limit chunks n with ⟨h, hh, -, heq⟩ | ⟨b, hb, -, heq⟩ | heq <;>
    rw [heq]
  · exact chunkMembers_modify_push hh fun _ ↦ rfl
  · exact chunkMembers_modify_push hb fun _ ↦ rfl
  · simp [chunkMembers]

/-- Placing a course keeps every chunk holding a course and flagged exactly when it is over the
limit: a full chunk that takes the course goes over it and is flagged, an open one stays within
it, and a new one holds the course alone. -/
theorem placeCourse_sized (hlimit : 0 < limit) {chunks : Array Chunk}
    (hs : ∀ c ∈ chunks.toList, c.Sized limit) (n : Nat) :
    ∀ c ∈ (placeCourse weight limit chunks n).toList, c.Sized limit := by
  intro c hc
  rcases placeCourse_cases weight limit chunks n with ⟨h, hh, hfull, heq⟩ | ⟨b, hb, hopen, heq⟩ | heq <;>
    rw [heq] at hc
  · rw [Array.toList_modify] at hc
    rcases mem_modify hc with hc | ⟨-, rfl⟩
    · exact hs c hc
    · simp only [Chunk.Sized, Array.size_push, Array.getElem_toList]
      exact ⟨by omega, by simp; omega⟩
  · rw [Array.toList_modify] at hc
    rcases mem_modify hc with hc | ⟨-, rfl⟩
    · exact hs c hc
    · have hsized := hs _ (Array.getElem_mem_toList hb)
      simp only [Chunk.Sized, Array.size_push, Array.getElem_toList] at hsized ⊢
      exact ⟨by omega, hsized.2.trans (by omega)⟩
  · rw [Array.toList_push, List.mem_append, List.mem_singleton] at hc
    rcases hc with hc | rfl
    · exact hs c hc
    · exact ⟨Nat.one_pos, by simp; omega⟩

/-! ## A whole split -/

/-- Placing courses one after another adds them to the courses the chunks hold. -/
theorem chunkMembers_foldl_placeCourse (order : List Nat) :
    ∀ chunks : Array Chunk, (chunkMembers (order.foldl (placeCourse weight limit) chunks).toList).Perm
      (chunkMembers chunks.toList ++ order) := by
  induction order with
  | nil => exact fun chunks ↦ by simp
  | cons n order ih =>
    intro chunks
    rw [List.foldl_cons, ← List.singleton_append, ← List.append_assoc]
    exact (ih _).trans ((chunkMembers_placeCourse chunks n).append_right _)

theorem foldl_placeCourse_sized (hlimit : 0 < limit) (order : List Nat) :
    ∀ chunks : Array Chunk, (∀ c ∈ chunks.toList, c.Sized limit) →
      ∀ c ∈ (order.foldl (placeCourse weight limit) chunks).toList, c.Sized limit := by
  induction order with
  | nil => exact fun _ hs ↦ hs
  | cons n order ih => exact fun chunks hs ↦ ih _ (placeCourse_sized hlimit hs n)

/-- The chunks of a split hold each course of the group once. -/
theorem splitGroup_members (members : List Nat) (rows : Array (List (Nat × Float))) (limit : Nat) :
    (chunkMembers (splitGroup members rows limit)).Perm members := by
  unfold splitGroup
  split
  · simp [chunkMembers]
  · -- the courses are placed in an order that sorts them by their weight in the group
    refine (chunkMembers_foldl_placeCourse _ _).trans ?_
    simpa [chunkMembers, stableSort] using List.mergeSort_perm _ _

/-- Every chunk of a split of a group that is not empty holds a course, and is flagged oversized
exactly when it holds more than the limit. -/
theorem splitGroup_sized {members : List Nat} (hne : members ≠ []) (rows : Array (List (Nat × Float)))
    (hlimit : 0 < limit) : ∀ c ∈ splitGroup members rows limit, c.Sized limit := by
  unfold splitGroup
  split
  · rename_i hwithin
    intro c hc
    rw [List.mem_singleton] at hc
    subst hc
    exact ⟨by simpa [List.length_pos_iff] using hne, by simp; omega⟩
  · exact foldl_placeCourse_sized hlimit _ _ (fun _ hc ↦ absurd hc List.not_mem_nil)

end Timetabling
