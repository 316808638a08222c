import Lasterm.Hub.SizeCap

/-!
# What an eviction deletes

`evictOldestChunks` with the count that it returns. The channel is measured again after every
deletion, so that what is deleted depends on sizes alone: the outputs of the channel go in order of
`seq`, and they go for as long as the channel is larger than the target.

`Spool.without` deletes rows at once. It says what the loop has to come to (`EvictsShortest`), and
the loop does come to it for every content and every target, a negative one included
(`evictChunks_spec`).
-/

namespace Lasterm.Hub.Spool

variable {α : Type*}

/-! ## The outputs of a channel -/

/-- The outputs of a channel in order of `seq`. -/
def outputs (s : Spool α) (c : ChannelId) : List (Chunk α) :=
  s.getChunksByChannel c { kind := some .output }

/-- The spool when these rows are deleted. -/
def without (s : Spool α) (deleted : List (Chunk α)) : Spool α :=
  s.restrict fun r ↦ r.key ∉ deleted.map Chunk.key

variable {s : Spool α} {c : ChannelId} {r oldest : Chunk α}

theorem mem_outputs : r ∈ s.outputs c ↔ r ∈ s.rowsOf c ∧ r.kind = .output := by
  rw [outputs, getChunksByChannel, List.mem_insertionSort, List.mem_filter]
  simp

theorem outputs_sorted (s : Spool α) (c : ChannelId) :
    (s.outputs c).Pairwise fun r r' ↦ r.seq < r'.seq := by
  have hsorted : (s.outputs c).Pairwise fun r r' ↦ r.seq ≤ r'.seq :=
    List.pairwise_insertionSort _ _
  have hnodup : (s.outputs c).Nodup :=
    (List.perm_insertionSort _ _).nodup_iff.mpr
      (((List.Nodup.of_map _ s.unique).filter _).filter _)
  refine (hsorted.and hnodup).imp_of_mem fun hr hr' h ↦ lt_of_le_of_ne h.1 fun hseq ↦ ?_
  exact h.2 (eq_of_seq_eq (mem_outputs.mp hr).1 (mem_outputs.mp hr').1 hseq)

@[simp] theorem without_nil (s : Spool α) : s.without [] = s := by
  simp [without, restrict_true]

theorem without_cons (s : Spool α) (r : Chunk α) (deleted : List (Chunk α)) :
    (s.restrict fun r' ↦ r'.key ≠ r.key).without deleted = s.without (r :: deleted) := by
  rw [without, restrict_restrict, without]
  congr 1
  funext r'
  simp [Bool.and_comm]

/-- The query for the next row finds the first of the outputs. -/
theorem head?_outputs (s : Spool α) (c : ChannelId) :
    (s.getChunksByChannel c { kind := some .output, limit := some 1 }).head? =
      (s.outputs c).head? := by
  rw [outputs, getChunksByChannel, getChunksByChannel, List.head?_take, if_neg Nat.one_ne_zero]

theorem outputs_restrict {rest : List (Chunk α)} (h : s.outputs c = oldest :: rest) :
    (s.restrict fun r ↦ r.key ≠ oldest.key).outputs c = rest := by
  have hsorted := s.outputs_sorted c
  rw [h, List.pairwise_cons] at hsorted
  have : Std.Irrefl fun r r' : Chunk α ↦ r.seq < r'.seq := ⟨fun r ↦ Nat.lt_irrefl r.seq⟩
  refine List.Pairwise.eq_of_mem_iff (outputs_sorted _ c) hsorted.2 fun r ↦ ?_
  have hmem : r ∈ s.outputs c ↔ r = oldest ∨ r ∈ rest := by
    rw [h, List.mem_cons]
  rw [mem_outputs] at hmem
  rw [mem_outputs, rowsOf_restrict, List.mem_filter, decide_eq_true_iff]
  constructor
  · rintro ⟨⟨hrow, hkey⟩, hkind⟩
    exact (hmem.mp ⟨hrow, hkind⟩).resolve_left fun heq ↦ hkey (congrArg Chunk.key heq)
  · intro hr
    obtain ⟨hrow, hkind⟩ := hmem.mpr (Or.inr hr)
    refine ⟨⟨hrow, fun hkey ↦ ?_⟩, hkind⟩
    exact Nat.ne_of_gt (hsorted.1 r hr) (congrArg Prod.snd hkey)

/-! ## The loop -/

/-- `k` deletions in order of `seq` bring the channel to the target, and fewer do not. Where no
number of them does, `k` is all. -/
structure EvictsShortest (s : Spool α) (c : ChannelId) (targetSize : ℤ) (k : ℕ) : Prop where
  le_length : k ≤ (s.outputs c).length
  lt_size : ∀ j < k, targetSize < (s.without ((s.outputs c).take j)).getChannelSize c
  size_le : k < (s.outputs c).length →
    (s.without ((s.outputs c).take k)).getChannelSize c ≤ targetSize

/-- What the loop deletes, and what it counts. -/
theorem evictChunks_eq (s : Spool α) (c : ChannelId) (targetSize : ℤ) (deleted : ℕ) :
    ∃ k, s.EvictsShortest c targetSize k ∧
      s.evictChunks c targetSize deleted = (s.without ((s.outputs c).take k), deleted + k) := by
  fun_induction evictChunks s c targetSize deleted with
  | case1 s deleted hsize hnone =>
    rw [head?_outputs, List.head?_eq_none_iff] at hnone
    refine ⟨0, ⟨Nat.zero_le _, by omega, fun h ↦ ?_⟩, by simp⟩
    rw [hnone] at h
    cases h
  | case2 s deleted hsize oldest hhead ih =>
    rw [head?_outputs] at hhead
    obtain ⟨rest, hrest⟩ := List.head?_eq_some_iff.mp hhead
    obtain ⟨k, hk, heq⟩ := ih
    have hwithout (j : ℕ) : (s.restrict fun r ↦ r.key ≠ oldest.key).without (rest.take j) =
        s.without ((s.outputs c).take (j + 1)) := by
      rw [hrest, List.take_succ_cons, without_cons]
    obtain ⟨hle, hlt, hreached⟩ := hk
    rw [outputs_restrict hrest, hwithout] at heq
    rw [outputs_restrict hrest] at hle hlt hreached
    have hlength : (s.outputs c).length = rest.length + 1 := by rw [hrest, List.length_cons]
    refine ⟨k + 1, ⟨by omega, fun j hj ↦ ?_, fun h ↦ ?_⟩, ?_⟩
    · cases j with
      | zero => rwa [List.take_zero, without_nil]
      | succ j => exact hwithout j ▸ hlt j (by omega)
    · exact hwithout k ▸ hreached (by omega)
    · rw [heq, Nat.add_right_comm, Nat.add_assoc]
  | case3 s deleted hsize =>
    refine ⟨0, ⟨Nat.zero_le _, by omega, fun _ ↦ ?_⟩, by simp⟩
    rw [List.take_zero, without_nil]
    exact Int.not_lt.mp hsize

/-- Deleting outputs of a channel leaves everything else as it is. -/
theorem filter_without {deleted : List (Chunk α)} (h : deleted ⊆ s.outputs c) :
    (s.without deleted).rows.filter (fun r ↦ r.channelId ≠ c || r.kind ≠ .output) =
      s.rows.filter fun r ↦ r.channelId ≠ c || r.kind ≠ .output := by
  rw [without, restrict, List.filter_filter]
  refine List.filter_congr fun r hr ↦ ?_
  by_cases hout : r.key ∈ deleted.map Chunk.key
  · obtain ⟨r', hr', hkey⟩ := List.mem_map.mp hout
    obtain ⟨hrow, hkind⟩ := mem_outputs.mp (h hr')
    obtain ⟨hrow, hchannel⟩ := mem_rowsOf.mp hrow
    rw [eq_of_key_eq hrow hr hkey] at hkind hchannel
    simp [hkind, hchannel]
  · rw [decide_eq_true hout, Bool.and_true]

theorem mem_without {deleted : List (Chunk α)} (h : deleted ⊆ s.outputs c) :
    r ∈ (s.without deleted).rows ↔ r ∈ s.rows ∧ r ∉ deleted := by
  rw [without, restrict, List.mem_filter, decide_eq_true_iff]
  refine and_congr_right fun hr ↦ not_congr ⟨fun hkey ↦ ?_, List.mem_map_of_mem⟩
  obtain ⟨r', hr', hkey'⟩ := List.mem_map.mp hkey
  have hrow := (mem_rowsOf.mp (mem_outputs.mp (h hr')).1).1
  exact eq_of_key_eq hrow hr hkey' ▸ hr'

/-- **An eviction deletes the shortest part of the outputs, from the oldest one on, that brings the
channel to the target**, and all of them where none does. It returns their number. Snapshots, other
rows of the channel and other channels stay. -/
theorem evictChunks_spec (s : Spool α) (c : ChannelId) (targetSize : ℤ) :
    ∃ k, s.EvictsShortest c targetSize k ∧
      s.evictChunks c targetSize 0 = (s.without ((s.outputs c).take k), k) ∧
      (s.outputs c).Pairwise (fun r r' ↦ r.seq < r'.seq) ∧
      (∀ r, r ∈ s.outputs c ↔ r ∈ s.rows ∧ r.channelId = c ∧ r.kind = .output) ∧
      (∀ r, r ∈ (s.evictChunks c targetSize 0).1.rows ↔
        r ∈ s.rows ∧ r ∉ (s.outputs c).take k) ∧
      (s.evictChunks c targetSize 0).1.rows.filter (fun r ↦ r.channelId ≠ c || r.kind ≠ .output) =
        s.rows.filter fun r ↦ r.channelId ≠ c || r.kind ≠ .output := by
  obtain ⟨k, hk, heq⟩ := s.evictChunks_eq c targetSize 0
  have hsubset : (s.outputs c).take k ⊆ s.outputs c := List.take_subset k _
  rw [Nat.zero_add] at heq
  refine ⟨k, hk, heq, s.outputs_sorted c, fun r ↦ ?_, fun r ↦ ?_, ?_⟩
  · rw [mem_outputs, mem_rowsOf, and_assoc]
  · rw [heq, mem_without hsubset]
  · rw [heq, filter_without hsubset]

end Lasterm.Hub.Spool
