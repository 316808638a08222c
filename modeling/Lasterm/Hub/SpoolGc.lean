import Mathlib.Data.List.DropRight
import Lasterm.Hub.SnapshotStore

/-!
# Collection of old chunks

`spool-gc.ts`: every ten minutes the hub deletes rows that are old, evicts output of channels that
have grown too large, and drops the rows of channels that have been dead for long. The API drops the
rows of a dead channel too.

Whatever the collector does to the rows of a channel is a filter (`GcOp.rowsOf_exec`), and one that
never takes the latest snapshot away from behind the output that follows it: the rows since the
latest snapshot are filtered like the rest (`GcOp.Keeps.recentRows`).
-/

namespace Lasterm.Hub

variable {α S : Type*} {rows : List (Chunk α)} {r : Chunk α}

/-- What the collector is made of. -/
inductive GcOp where
  | deleteChunksOlderThan (before : ℕ)
  | evictOldestChunks (c : ChannelId) (targetSize : ℕ)
  | deleteChunksForChannel (c : ChannelId)

def GcOp.exec (s : Spool α) : GcOp → Spool α
  | .deleteChunksOlderThan before => s.deleteChunksOlderThan before
  | .evictOldestChunks c targetSize => s.evictOldestChunks c targetSize
  | .deleteChunksForChannel c => s.deleteChunksForChannel c

def Spool.listChannelIds (s : Spool α) : List ChannelId := (s.rows.map Chunk.channelId).dedup

/-- `collect`, with the two cutoffs computed from the clock and the answer of the metadata store. -/
def SpoolGarbageCollector.collect (ageCutoff maxSizePerChannel : ℕ) (staleDeadIds : List ChannelId)
    (s : Spool α) : Spool α :=
  let aged := s.deleteChunksOlderThan ageCutoff
  let capped := aged.listChannelIds.foldl (fun s c ↦
    if maxSizePerChannel < s.getChannelSize c then s.evictOldestChunks c maxSizePerChannel
      else s) aged
  staleDeadIds.foldl (fun s c ↦ s.deleteChunksForChannel c) capped

/-- The test before an eviction is the first test of its loop. -/
theorem Spool.guarded_evictOldestChunks (s : Spool α) (c : ChannelId) (targetSize : ℕ) :
    (if targetSize < s.getChannelSize c then s.evictOldestChunks c targetSize else s) =
      s.evictOldestChunks c targetSize := by
  by_cases hsize : targetSize < s.getChannelSize c
  · rw [if_pos hsize]
  · rw [if_neg hsize, evictOldestChunks, evictChunks, if_neg fun h ↦ hsize (Int.ofNat_lt.mp h)]

/-- A collection is a sequence of the operations. -/
theorem SpoolGarbageCollector.collect_eq_foldl (ageCutoff maxSizePerChannel : ℕ)
    (staleDeadIds : List ChannelId) (s : Spool α) :
    ∃ ops : List GcOp, collect ageCutoff maxSizePerChannel staleDeadIds s =
      ops.foldl GcOp.exec s := by
  refine ⟨.deleteChunksOlderThan ageCutoff ::
    ((s.deleteChunksOlderThan ageCutoff).listChannelIds.map
        (GcOp.evictOldestChunks · maxSizePerChannel) ++
      staleDeadIds.map GcOp.deleteChunksForChannel), ?_⟩
  have hevict : (fun (s : Spool α) c ↦ if maxSizePerChannel < s.getChannelSize c then
      s.evictOldestChunks c maxSizePerChannel else s)
        = fun s c ↦ GcOp.exec s (.evictOldestChunks c maxSizePerChannel) :=
    funext fun s ↦ funext fun c ↦ s.guarded_evictOldestChunks c maxSizePerChannel
  rw [collect, hevict, List.foldl_cons, List.foldl_append, List.foldl_map, List.foldl_map]
  rfl

/-! ## Rows since the latest snapshot -/

/-- The rows behind the latest snapshot, or all of them. -/
def recentRows (rows : List (Chunk α)) : List (Chunk α) :=
  rows.rtakeWhile fun r ↦ r.kind ≠ .snapshot

/-- The latest snapshot among rows in order. -/
def latestSnapshot (rows : List (Chunk α)) : Option (Chunk α) :=
  (rows.filter fun r ↦ r.kind = .snapshot).getLast?

@[simp] theorem recentRows_nil : recentRows ([] : List (Chunk α)) = [] := rfl

theorem mem_of_mem_recentRows (h : r ∈ recentRows rows) :
    r ∈ rows := (List.rtakeWhile_suffix _ _).subset h

theorem recentRows_concat_snapshot (rows : List (Chunk α)) (h : r.kind = .snapshot) :
    recentRows (rows ++ [r]) = [] := by
  rw [recentRows, List.rtakeWhile_concat_neg _ _ _ (by simp [h])]

theorem recentRows_concat (rows : List (Chunk α)) (h : r.kind ≠ .snapshot) :
    recentRows (rows ++ [r]) = recentRows rows ++ [r] := by
  rw [recentRows, List.rtakeWhile_concat_pos _ _ _ (by simp [h]), recentRows]

theorem recentRows_append (rows : List (Chunk α)) {new : List (Chunk α)}
    (h : ∀ r ∈ new, r.kind ≠ .snapshot) : recentRows (rows ++ new) = recentRows rows ++ new := by
  induction new using List.reverseRecOn with
  | nil => rw [List.append_nil, List.append_nil]
  | append_singleton new r ih =>
    rw [← List.append_assoc, recentRows_concat _ (h r (by simp)),
      ih fun x hx ↦ h x (List.mem_append_left _ hx), List.append_assoc]

theorem latestSnapshot_concat_snapshot (rows : List (Chunk α))
    (h : r.kind = .snapshot) : latestSnapshot (rows ++ [r]) = some r := by
  rw [latestSnapshot, List.filter_append, List.filter_cons_of_pos (by simp [h]), List.filter_nil,
    List.getLast?_concat]

theorem latestSnapshot_append (rows : List (Chunk α)) {new : List (Chunk α)}
    (h : ∀ r ∈ new, r.kind ≠ .snapshot) : latestSnapshot (rows ++ new) = latestSnapshot rows := by
  have hnew : new.filter (fun r ↦ r.kind = .snapshot) = [] :=
    List.filter_eq_nil_iff.mpr fun r hr ↦ by simp [h r hr]
  rw [latestSnapshot, List.filter_append, hnew, List.append_nil, latestSnapshot]

theorem mem_of_latestSnapshot
    (h : latestSnapshot rows = some r) : r ∈ rows ∧ r.kind = .snapshot := by
  have hmem := List.mem_filter.mp (List.mem_of_getLast? h)
  exact ⟨hmem.1, by simpa using hmem.2⟩

/-- The recent rows are all rows when there is no snapshot. -/
theorem recentRows_of_latestSnapshot_eq_none
    (h : latestSnapshot rows = none) : recentRows rows = rows := by
  rw [latestSnapshot, List.getLast?_eq_none_iff, List.filter_eq_nil_iff] at h
  refine (recentRows_append [] ?_).trans ?_
  · exact fun r hr ↦ by simpa using h r hr
  · rfl

/-- On rows in order the recent ones are those with a `seq` above that of the snapshot. -/
theorem filter_lt_eq_recentRows (hs : rows.Pairwise fun r r' ↦ r.seq < r'.seq) {snap : Chunk α}
    (h : latestSnapshot rows = some snap) :
    rows.filter (fun r ↦ snap.seq < r.seq) = recentRows rows := by
  induction rows using List.reverseRecOn with
  | nil => rfl
  | append_singleton rows r ih =>
    obtain ⟨hs', -, hlt⟩ := List.pairwise_append.mp hs
    rw [List.filter_append]
    by_cases hr : r.kind = .snapshot
    · rw [latestSnapshot_concat_snapshot rows hr, Option.some.injEq] at h
      subst h
      rw [recentRows_concat_snapshot rows hr, List.append_eq_nil_iff, List.filter_eq_nil_iff]
      refine ⟨fun x hx ↦ ?_, by simp⟩
      have := hlt x hx r (List.mem_singleton_self r)
      simpa using this.le
    · rw [latestSnapshot_append rows (by simpa using hr)] at h
      have hmem := (mem_of_latestSnapshot h).1
      rw [recentRows_concat rows hr, ih hs' h, List.filter_cons_of_pos, List.filter_nil]
      simpa using hlt snap hmem r (List.mem_singleton_self r)

/-! ## What the collector keeps -/

/-- A filter that does not take the latest snapshot away, unless it takes everything. -/
def KeepsLatest (rows : List (Chunk α)) (keep : Chunk α → Bool) : Prop :=
  (∀ r, latestSnapshot rows = some r → keep r = true) ∨ rows.filter keep = []

theorem recentRows_filter {keep : Chunk α → Bool} (h : KeepsLatest rows keep) :
    recentRows (rows.filter keep) = (recentRows rows).filter keep := by
  rcases h with h | h
  · induction rows using List.reverseRecOn with
    | nil => rfl
    | append_singleton rows r ih =>
      by_cases hr : r.kind = .snapshot
      · have hkeep := h r (latestSnapshot_concat_snapshot rows hr)
        rw [recentRows_concat_snapshot rows hr, List.filter_append,
          List.filter_cons_of_pos hkeep, List.filter_nil, recentRows_concat_snapshot _ hr]
      · rw [latestSnapshot_append rows (by simpa using hr)] at h
        rw [recentRows_concat rows hr, List.filter_append, List.filter_append, ← ih h]
        refine recentRows_append _ fun x hx ↦ ?_
        rw [List.mem_singleton.mp (List.mem_of_mem_filter hx)]
        exact hr
  · have hnone := List.filter_eq_nil_iff.mp h
    rw [h, recentRows_nil, eq_comm, List.filter_eq_nil_iff]
    exact fun r hr ↦ hnone r (mem_of_mem_recentRows hr)

theorem latestSnapshot_filter {keep : Chunk α → Bool}
    (h : ∀ r, latestSnapshot rows = some r → keep r = true) :
    latestSnapshot (rows.filter keep) = latestSnapshot rows := by
  induction rows using List.reverseRecOn with
  | nil => rfl
  | append_singleton rows r ih =>
    rw [List.filter_append]
    by_cases hr : r.kind = .snapshot
    · have hlatest := latestSnapshot_concat_snapshot rows hr
      rw [hlatest, List.filter_cons_of_pos (h r hlatest), List.filter_nil,
        latestSnapshot_concat_snapshot _ hr]
    · rw [latestSnapshot_append rows (by simpa using hr)] at h ⊢
      rw [latestSnapshot_append, ih h]
      intro x hx
      rw [List.mem_singleton.mp (List.mem_of_mem_filter hx)]
      exact hr

theorem seq_le_of_latestSnapshot (hs : rows.Pairwise fun r r' ↦ r.seq < r'.seq) {snap r : Chunk α}
    (h : latestSnapshot rows = some snap) (hr : r ∈ rows) (hkind : r.kind = .snapshot) :
    r.seq ≤ snap.seq := by
  have hmem : r ∈ rows.filter fun r ↦ r.kind = .snapshot :=
    List.mem_filter.mpr ⟨hr, by simp [hkind]⟩
  have hsorted := hs.filter fun r ↦ r.kind = .snapshot
  obtain ⟨pre, hpre⟩ := List.getLast?_eq_some_iff.mp h
  rw [hpre] at hmem hsorted
  rcases List.mem_append.mp hmem with hmem | hmem
  · exact ((List.pairwise_append.mp hsorted).2.2 r hmem snap (List.mem_singleton_self _)).le
  · rw [List.mem_singleton.mp hmem]

namespace Spool

variable {s : Spool α}

theorem isLatestSnapshot_of_max {c : ChannelId} {r : Chunk α}
    (hmem : r ∈ s.rowsOf c) (hkind : r.kind = .snapshot)
    (hmax : ∀ r' ∈ s.rowsOf c, r'.kind = .snapshot → r'.seq ≤ r.seq) :
    s.isLatestSnapshot r = true := by
  obtain ⟨-, rfl⟩ := mem_rowsOf.mp hmem
  rw [isLatestSnapshot, Bool.and_eq_true, decide_eq_true_iff, decide_eq_true_iff]
  refine ⟨hkind, (List.max?_eq_some_iff.mpr ⟨?_, ?_⟩).symm⟩
  · exact List.mem_map_of_mem (List.mem_filter.mpr ⟨hmem, by simp [hkind]⟩)
  · intro n hn
    obtain ⟨r', hr', rfl⟩ := List.mem_map.mp hn
    have hr'' := List.mem_filter.mp hr'
    exact hmax r' hr''.1 (by simpa using hr''.2)

theorem isLatestSnapshot_of_sorted {c : ChannelId} (hs : s.Sorted c) {r : Chunk α}
    (h : latestSnapshot (s.rowsOf c) = some r) : s.isLatestSnapshot r = true := by
  obtain ⟨hmem, hkind⟩ := mem_of_latestSnapshot h
  exact isLatestSnapshot_of_max hmem hkind fun _ hr' ↦ seq_le_of_latestSnapshot hs h hr'

theorem restrict_restrict (s : Spool α) (k k' : Chunk α → Bool) :
    (s.restrict k).restrict k' = s.restrict fun r ↦ k' r && k r := by
  rw [restrict, restrict, mk.injEq, restrict, List.filter_filter]

theorem restrict_true (s : Spool α) : s.restrict (fun _ ↦ true) = s := by
  rw [restrict, mk.injEq, List.filter_true]

/-- A row is determined by its key. -/
theorem eq_of_key_eq {r r' : Chunk α} (hr : r ∈ s.rows) (hr' : r' ∈ s.rows)
    (h : r.key = r'.key) : r = r' :=
  List.inj_on_of_nodup_map s.unique hr hr' h

theorem kind_of_mem_getChunksByChannel {c : ChannelId} {k : ChunkKind} {n : ℕ}
    {r : Chunk α} (h : r ∈ s.getChunksByChannel c { kind := some k, limit := some n }) :
    r.kind = k := by
  rw [getChunksByChannel] at h
  have hmem := (List.mem_insertionSort _).mp (List.mem_of_mem_take h)
  simpa using (List.mem_filter.mp hmem).2

/-- The eviction takes output only. -/
theorem evictOldestChunks_eq_restrict (s : Spool α) (c : ChannelId) (targetSize : ℕ) :
    ∃ keep, s.evictOldestChunks c targetSize = s.restrict keep ∧
      ∀ r ∈ s.rows, r.kind ≠ .output → keep r = true := by
  rw [evictOldestChunks]
  generalize 0 = deleted
  fun_induction evictChunks s c targetSize deleted with
  | case1 s => exact ⟨fun _ ↦ true, (restrict_true s).symm, fun _ _ _ ↦ rfl⟩
  | case2 s deleted hsize oldest hhead ih =>
    obtain ⟨keep, heq, hkeep⟩ := ih
    have hmem := List.mem_of_mem_head? hhead
    refine ⟨_, heq.trans (restrict_restrict s _ keep), fun r hr hkind ↦ ?_⟩
    have hne : r.key ≠ oldest.key := by
      intro hkey
      rw [eq_of_key_eq hr (mem_of_mem_getChunksByChannel hmem) hkey] at hkind
      exact hkind (kind_of_mem_getChunksByChannel hmem)
    rw [Bool.and_eq_true]
    exact ⟨hkeep r (List.mem_filter.mpr ⟨hr, by simp [hne]⟩) hkind, by simp [hne]⟩
  | case3 s => exact ⟨fun _ ↦ true, (restrict_true s).symm, fun _ _ _ ↦ rfl⟩

end Spool

/-- Whether an operation drops the channel as a whole. -/
def GcOp.purges (c : ChannelId) : GcOp → Bool
  | .deleteChunksForChannel c' => c' = c
  | _ => false

/-- **What the collector does to a channel**: a filter, which keeps the latest snapshot unless the
channel is dropped as a whole. -/
theorem GcOp.rowsOf_exec {s : Spool α} {c : ChannelId} (hs : s.Sorted c) (g : GcOp) :
    ∃ keep, (g.exec s).rowsOf c = (s.rowsOf c).filter keep ∧
      if g.purges c then (s.rowsOf c).filter keep = []
      else ∀ r, latestSnapshot (s.rowsOf c) = some r → keep r = true := by
  cases g with
  | deleteChunksOlderThan before =>
    refine ⟨_, Spool.rowsOf_restrict s _ c, fun r hr ↦ ?_⟩
    rw [Spool.isLatestSnapshot_of_sorted hs hr, Bool.not_true, Bool.and_false, Bool.not_false]
  | evictOldestChunks c' targetSize =>
    obtain ⟨keep, heq, hkeep⟩ := s.evictOldestChunks_eq_restrict c' targetSize
    refine ⟨keep, by rw [exec, heq, Spool.rowsOf_restrict], fun r hr ↦ ?_⟩
    obtain ⟨hmem, hkind⟩ := mem_of_latestSnapshot hr
    exact hkeep r (Spool.mem_rowsOf.mp hmem).1 (by rw [hkind]; decide)
  | deleteChunksForChannel c' =>
    refine ⟨_, Spool.rowsOf_restrict s _ c, ?_⟩
    by_cases hc : c' = c
    · rw [if_pos (by simpa [purges] using hc), List.filter_eq_nil_iff]
      intro r hr
      simp [(Spool.mem_rowsOf.mp hr).2, hc]
    · rw [if_neg (by simpa [purges] using hc)]
      intro r hr
      have hrc := (Spool.mem_rowsOf.mp (mem_of_latestSnapshot hr).1).2
      simp [hrc, Ne.symm hc]

end Lasterm.Hub
