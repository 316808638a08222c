import Mathlib.Algebra.Order.BigOperators.Group.List
import Mathlib.Algebra.Order.Group.Nat
import Mathlib.Data.List.Dedup
import Lasterm.Hub.SpoolGc

/-!
# What a collection leaves

`collect` against its purpose: the rows a replay needs stay, and a channel that is too large is cut
down to its limit.

The eviction is a loop over single deletions. On the rows of the channel it is one filter
(`rowsOf_evictOldestChunks`): an output stays if it fits below the limit with the outputs behind it
and everything that is no output. With that a collection is two filters on each channel
(`rowsOf_collect`), whatever the other channels hold and in whatever order they come. Nothing here
needs the rows to be in order.
-/

namespace Lasterm.Hub

variable {α : Type*}

/-- `SUM(LENGTH(data_blob))` over some rows. -/
def bytesOf (rows : List (Chunk α)) : ℕ := (rows.map fun r ↦ r.dataBlob.length).sum

/-- What a replay from the snapshot `snap` has no use for: older snapshots, and output before it. -/
def Chunk.supersededBy (snap r : Chunk α) : Bool :=
  r.seq < snap.seq && (r.kind = .snapshot || r.kind = .output)

/-- The part of it that the eviction may take. -/
def Chunk.coveredBy (snap r : Chunk α) : Bool := r.seq < snap.seq && r.kind = .output

/-- Whether a row stays when output is evicted from these rows, oldest first. -/
def staysWithin (targetSize : ℕ) (rows : List (Chunk α)) (r : Chunk α) : Bool :=
  r.kind ≠ .output || bytesOf (rows.filter fun r' ↦ r'.kind ≠ .output || r.seq ≤ r'.seq) ≤
    targetSize

theorem bytesOf_le_of_sublist {l l' : List (Chunk α)} (h : l.Sublist l') :
    bytesOf l ≤ bytesOf l' :=
  (h.map _).sum_le_sum fun _ _ ↦ Nat.zero_le _

/-- The first element of a sorted list comes before the others. -/
theorem head?_insertionSort_spec {β : Type*} {r : β → β → Prop} [DecidableRel r] [Std.Total r]
    [IsTrans β r] {l : List β} {a : β} (h : (l.insertionSort r).head? = some a) :
    a ∈ l ∧ ∀ b ∈ l, b = a ∨ r a b := by
  obtain ⟨rest, hrest⟩ := List.head?_eq_some_iff.mp h
  have hsorted := List.pairwise_insertionSort r l
  have hmem : ∀ b, b ∈ a :: rest ↔ b ∈ l := by
    intro b
    rw [← hrest, List.mem_insertionSort]
  rw [hrest] at hsorted
  refine ⟨(hmem a).mp List.mem_cons_self, fun b hb ↦ ?_⟩
  exact (List.mem_cons.mp ((hmem b).mpr hb)).imp_right (List.rel_of_pairwise_cons hsorted)

namespace Spool

/-! ## The latest snapshot of rows in any order -/

instance : Std.Total fun r r' : Chunk α ↦ r.seq ≤ r'.seq := ⟨fun r r' ↦ Nat.le_total r.seq r'.seq⟩

instance : IsTrans (Chunk α) fun r r' ↦ r.seq ≤ r'.seq := ⟨fun _ _ _ h h' ↦ Nat.le_trans h h'⟩

instance : Std.Total fun r r' : Chunk α ↦ r'.seq ≤ r.seq := ⟨fun r r' ↦ Nat.le_total r'.seq r.seq⟩

instance : IsTrans (Chunk α) fun r r' ↦ r'.seq ≤ r.seq := ⟨fun _ _ _ h h' ↦ Nat.le_trans h' h⟩

variable {c : ChannelId} {s : Spool α}

theorem eq_of_seq_eq {r r' : Chunk α} (hr : r ∈ s.rowsOf c)
    (hr' : r' ∈ s.rowsOf c) (h : r.seq = r'.seq) : r = r' := by
  rw [mem_rowsOf] at hr hr'
  refine eq_of_key_eq hr.1 hr'.1 ?_
  rw [Chunk.key, Chunk.key, hr.2, hr'.2, h]

theorem getLatestSnapshot_eq_none_iff :
    s.getLatestSnapshot c = none ↔ ∀ r ∈ s.rowsOf c, r.kind ≠ .snapshot := by
  rw [getLatestSnapshot, List.head?_eq_none_iff, ← List.length_eq_zero_iff,
    List.length_insertionSort, List.length_eq_zero_iff, List.filter_eq_nil_iff]
  simp

theorem getLatestSnapshot_spec {snap : Chunk α} (h : s.getLatestSnapshot c = some snap) :
    snap ∈ s.rowsOf c ∧ snap.kind = .snapshot ∧
      ∀ r ∈ s.rowsOf c, r.kind = .snapshot → r.seq ≤ snap.seq := by
  obtain ⟨hmem, hmax⟩ := head?_insertionSort_spec h
  rw [List.mem_filter, decide_eq_true_iff] at hmem
  refine ⟨hmem.1, hmem.2, fun r hr hkind ↦ ?_⟩
  rcases hmax r (List.mem_filter.mpr ⟨hr, by simp [hkind]⟩) with rfl | hle
  · exact le_rfl
  · exact hle

theorem getLatestSnapshot_eq_some_iff {snap : Chunk α} :
    s.getLatestSnapshot c = some snap ↔ snap ∈ s.rowsOf c ∧ snap.kind = .snapshot ∧
      ∀ r ∈ s.rowsOf c, r.kind = .snapshot → r.seq ≤ snap.seq := by
  constructor
  · exact getLatestSnapshot_spec
  · rintro ⟨hmem, hkind, hmax⟩
    cases hlatest : s.getLatestSnapshot c with
    | none => exact absurd hkind (getLatestSnapshot_eq_none_iff.mp hlatest snap hmem)
    | some snap' =>
      obtain ⟨hmem', hkind', hmax'⟩ := getLatestSnapshot_spec hlatest
      rw [eq_of_seq_eq hmem' hmem (Nat.le_antisymm (hmax snap' hmem' hkind')
        (hmax' snap hmem hkind))]

/-- Whatever keeps the latest snapshot of a channel and adds nothing leaves it the latest. -/
theorem getLatestSnapshot_of_filter {s s' : Spool α} {keep : Chunk α → Bool}
    (hrows : s'.rowsOf c = (s.rowsOf c).filter keep)
    (hkeep : ∀ snap, s.getLatestSnapshot c = some snap → keep snap = true) :
    s'.getLatestSnapshot c = s.getLatestSnapshot c := by
  cases hsnap : s.getLatestSnapshot c with
  | none =>
    rw [getLatestSnapshot_eq_none_iff] at hsnap ⊢
    rw [hrows]
    exact fun r hr ↦ hsnap r (List.mem_of_mem_filter hr)
  | some snap =>
    have hkept := hkeep snap hsnap
    rw [getLatestSnapshot_eq_some_iff] at hsnap ⊢
    obtain ⟨hmem, hkind, hmax⟩ := hsnap
    rw [hrows]
    exact ⟨List.mem_filter.mpr ⟨hmem, hkept⟩, hkind,
      fun r hr ↦ hmax r (List.mem_of_mem_filter hr)⟩

theorem isLatestSnapshot_of_getLatestSnapshot {snap : Chunk α}
    (h : s.getLatestSnapshot c = some snap) : s.isLatestSnapshot snap = true := by
  obtain ⟨hmem, hkind, hmax⟩ := getLatestSnapshot_eq_some_iff.mp h
  exact isLatestSnapshot_of_max hmem hkind hmax

/-! ## The eviction as a filter -/

/-- The row that the eviction takes next. -/
theorem oldest_spec {oldest : Chunk α}
    (h : (s.getChunksByChannel c { kind := some .output, limit := some 1 }).head? = some oldest) :
    oldest ∈ s.rowsOf c ∧ oldest.kind = .output ∧
      ∀ r ∈ s.rowsOf c, r.kind = .output → oldest.seq ≤ r.seq := by
  rw [getChunksByChannel, List.head?_take, if_neg Nat.one_ne_zero] at h
  obtain ⟨hmem, hmin⟩ := head?_insertionSort_spec h
  rw [List.mem_filter] at hmem
  refine ⟨hmem.1, by simpa using hmem.2, fun r hr hkind ↦ ?_⟩
  rcases hmin r (List.mem_filter.mpr ⟨hr, by simp [hkind]⟩) with rfl | hle
  · exact le_rfl
  · exact hle

theorem no_output_of_oldest_eq_none
    (h : (s.getChunksByChannel c { kind := some .output, limit := some 1 }).head? = none) :
    ∀ r ∈ s.rowsOf c, r.kind ≠ .output := by
  intro r hr hkind
  rw [getChunksByChannel, List.head?_take, if_neg Nat.one_ne_zero, List.head?_eq_none_iff] at h
  have hmem : r ∈ ([] : List (Chunk α)) := by
    rw [← h, List.mem_insertionSort, List.mem_filter]
    exact ⟨hr, by simp [hkind]⟩
  exact absurd hmem List.not_mem_nil

/-- **An eviction is one filter** on the rows of its channel. -/
theorem rowsOf_evictOldestChunks (s : Spool α) (c : ChannelId) (targetSize : ℕ) :
    (s.evictOldestChunks c targetSize).rowsOf c =
      (s.rowsOf c).filter (staysWithin targetSize (s.rowsOf c)) := by
  rw [evictOldestChunks]
  generalize 0 = deleted
  fun_induction evictChunks s c targetSize deleted with
  | case1 s deleted hsize hnone =>
    refine (List.filter_eq_self.mpr fun r hr ↦ ?_).symm
    simp [staysWithin, no_output_of_oldest_eq_none hnone r hr]
  | case2 s deleted hsize oldest hhead ih =>
    obtain ⟨hmem, hkind, hmin⟩ := oldest_spec hhead
    rw [ih, rowsOf_restrict, List.filter_filter]
    refine List.filter_congr fun r hr ↦ ?_
    by_cases hr' : r = oldest
    · subst hr'
      -- the limit is broken with all output, and the oldest row needs it all
      have hall : (s.rowsOf c).filter (fun r' ↦ r'.kind ≠ .output || r.seq ≤ r'.seq) =
          s.rowsOf c := by
        refine List.filter_eq_self.mpr fun r' hr' ↦ ?_
        by_cases hkind' : r'.kind = .output
        · simp [hmin r' hr' hkind']
        · simp [hkind']
      have hlarge : ¬ bytesOf (s.rowsOf c) ≤ targetSize := Nat.not_le_of_lt (Int.ofNat_lt.mp hsize)
      rw [staysWithin, staysWithin, hall]
      simp [hkind, hlarge]
    · have hkey : r.key ≠ oldest.key := fun h ↦
        hr' (eq_of_key_eq (mem_rowsOf.mp hr).1 (mem_rowsOf.mp hmem).1 h)
      by_cases hout : r.kind = .output
      · -- the oldest row is not among those that this one needs
        have hlt : oldest.seq < r.seq :=
          lt_of_le_of_ne (hmin r hr hout) fun h ↦ hr' (eq_of_seq_eq hmem hr h).symm
        have hsame : ((s.rowsOf c).filter fun r ↦ r.key ≠ oldest.key).filter
            (fun r' ↦ r'.kind ≠ .output || r.seq ≤ r'.seq) =
              (s.rowsOf c).filter fun r' ↦ r'.kind ≠ .output || r.seq ≤ r'.seq := by
          rw [List.filter_filter]
          refine List.filter_congr fun r' hmem' ↦ ?_
          by_cases hkey' : r'.key = oldest.key
          · have heq := eq_of_key_eq (mem_rowsOf.mp hmem').1 (mem_rowsOf.mp hmem).1 hkey'
            subst heq
            simp [hkind, hlt]
          · simp [hkey']
        rw [staysWithin, staysWithin, hsame]
        simp [hkey]
      · simp [staysWithin, hout, hkey]
  | case3 s deleted hsize =>
    have hle : s.getChannelSize c ≤ targetSize := Int.ofNat_le.mp (Int.not_lt.mp hsize)
    refine (List.filter_eq_self.mpr fun r hr ↦ ?_).symm
    rw [staysWithin, Bool.or_eq_true]
    exact Or.inr (decide_eq_true ((bytesOf_le_of_sublist List.filter_sublist).trans hle))

theorem rowsOf_evictOldestChunks_of_ne (s : Spool α) {c c' : ChannelId} (h : c ≠ c')
    (targetSize : ℕ) : (s.evictOldestChunks c targetSize).rowsOf c' = s.rowsOf c' := by
  rw [evictOldestChunks]
  generalize 0 = deleted
  fun_induction evictChunks s c targetSize deleted with
  | case1 => rfl
  | case2 s deleted hsize oldest hhead ih =>
    rw [ih, rowsOf_restrict]
    refine List.filter_eq_self.mpr fun r hr ↦ ?_
    have hchannel := (mem_rowsOf.mp (oldest_spec hhead).1).2
    rw [mem_rowsOf] at hr
    simp [Chunk.key, hchannel, hr.2, Ne.symm h]
  | case3 => rfl

/-- The loop ends below the limit or without output. -/
theorem evictOldestChunks_exhausts (s : Spool α) (c : ChannelId) (targetSize : ℕ) :
    (s.evictOldestChunks c targetSize).getChannelSize c ≤ targetSize ∨
      ∀ r ∈ (s.evictOldestChunks c targetSize).rowsOf c, r.kind ≠ .output := by
  rw [evictOldestChunks]
  generalize 0 = deleted
  fun_induction evictChunks s c targetSize deleted with
  | case1 s deleted hsize hnone => exact Or.inr (no_output_of_oldest_eq_none hnone)
  | case2 s deleted hsize oldest hhead ih => exact ih
  | case3 s deleted hsize => exact Or.inl (Int.ofNat_le.mp (Int.not_lt.mp hsize))

/-- What the limit comes to for a channel: only rows that are no output can keep it too large. -/
theorem getChannelSize_evictOldestChunks_le_iff (s : Spool α) (c : ChannelId) (targetSize : ℕ) :
    (s.evictOldestChunks c targetSize).getChannelSize c ≤ targetSize ↔
      bytesOf ((s.rowsOf c).filter fun r ↦ r.kind ≠ .output) ≤ targetSize := by
  have hrows := s.rowsOf_evictOldestChunks c targetSize
  have hothers : ((s.evictOldestChunks c targetSize).rowsOf c).filter (fun r ↦ r.kind ≠ .output) =
      (s.rowsOf c).filter fun r ↦ r.kind ≠ .output := by
    rw [hrows, List.filter_filter]
    refine List.filter_congr fun r _ ↦ ?_
    by_cases hkind : r.kind = .output
    · simp [hkind]
    · simp [staysWithin, hkind]
  rw [← hothers]
  constructor
  · exact Nat.le_trans (bytesOf_le_of_sublist List.filter_sublist)
  · intro hle
    rcases s.evictOldestChunks_exhausts c targetSize with hsize | hnone
    · exact hsize
    · rwa [List.filter_eq_self.mpr (by simpa using hnone)] at hle

end Spool

/-! ## A collection -/

namespace SpoolGarbageCollector

variable {c : ChannelId} {staleDeadIds : List ChannelId}

theorem rowsOf_foldl_evict (targetSize : ℕ) {ids : List ChannelId}
    (hids : ids.Nodup) (s : Spool α) :
    (ids.foldl (fun s c ↦ s.evictOldestChunks c targetSize) s).rowsOf c =
      if c ∈ ids then (s.evictOldestChunks c targetSize).rowsOf c else s.rowsOf c := by
  induction ids generalizing s with
  | nil => rfl
  | cons c' ids ih =>
    obtain ⟨hnot, hids'⟩ := List.nodup_cons.mp hids
    rw [List.foldl_cons, ih hids']
    by_cases hc : c' = c
    · subst hc
      rw [if_neg hnot, if_pos List.mem_cons_self]
    · have hrows := s.rowsOf_evictOldestChunks_of_ne hc targetSize
      rw [Spool.rowsOf_evictOldestChunks, Spool.rowsOf_evictOldestChunks, hrows]
      simp [Ne.symm hc]

theorem rowsOf_foldl_delete {ids : List ChannelId} (hc : c ∉ ids) (s : Spool α) :
    (ids.foldl (fun s c ↦ s.deleteChunksForChannel c) s).rowsOf c = s.rowsOf c := by
  induction ids generalizing s with
  | nil => rfl
  | cons c' ids ih =>
    rw [List.mem_cons, not_or] at hc
    obtain ⟨hne, hc'⟩ := hc
    rw [List.foldl_cons, ih hc', Spool.deleteChunksForChannel, Spool.rowsOf_restrict]
    refine List.filter_eq_self.mpr fun r hr ↦ ?_
    simp [(Spool.mem_rowsOf.mp hr).2, hne]

/-- **A collection evicts from the aged channel**, and from a channel not dropped as a whole it
takes nothing else. -/
theorem rowsOf_collect (ageCutoff maxSizePerChannel : ℕ) (hc : c ∉ staleDeadIds) (s : Spool α) :
    (collect ageCutoff maxSizePerChannel staleDeadIds s).rowsOf c =
      ((s.deleteChunksOlderThan ageCutoff).evictOldestChunks c maxSizePerChannel).rowsOf c := by
  have hevict : (fun (s : Spool α) c ↦ if maxSizePerChannel < s.getChannelSize c then
      s.evictOldestChunks c maxSizePerChannel else s)
        = fun s c ↦ s.evictOldestChunks c maxSizePerChannel :=
    funext fun s ↦ funext fun c ↦ s.guarded_evictOldestChunks c maxSizePerChannel
  have hids : (s.deleteChunksOlderThan ageCutoff).listChannelIds.Nodup := List.nodup_dedup _
  rw [collect, hevict, rowsOf_foldl_delete hc, rowsOf_foldl_evict maxSizePerChannel hids]
  split
  · rfl
  · rename_i hnot
    have hempty : (s.deleteChunksOlderThan ageCutoff).rowsOf c = [] := by
      refine List.filter_eq_nil_iff.mpr fun r hr hchannel ↦ hnot ?_
      rw [Spool.listChannelIds, List.mem_dedup, List.mem_map]
      exact ⟨r, hr, by simpa using hchannel⟩
    rw [Spool.rowsOf_evictOldestChunks, hempty, List.filter_nil]

/-- Age takes every row before the cutoff but the latest snapshot. -/
theorem mem_rowsOf_aged {s : Spool α} {ageCutoff : ℕ} {r : Chunk α} :
    r ∈ (s.deleteChunksOlderThan ageCutoff).rowsOf c ↔
      r ∈ s.rowsOf c ∧ (r.ts < ageCutoff → s.isLatestSnapshot r = true) := by
  rw [Spool.deleteChunksOlderThan, Spool.rowsOf_restrict, List.mem_filter]
  by_cases hage : r.ts < ageCutoff <;> simp [hage]

theorem getLatestSnapshot_collect (ageCutoff maxSizePerChannel : ℕ)
    (hc : c ∉ staleDeadIds) (s : Spool α) :
    (collect ageCutoff maxSizePerChannel staleDeadIds s).getLatestSnapshot c =
      s.getLatestSnapshot c := by
  have haged : (s.deleteChunksOlderThan ageCutoff).getLatestSnapshot c = s.getLatestSnapshot c := by
    refine Spool.getLatestSnapshot_of_filter (Spool.rowsOf_restrict s _ c) fun snap hsnap ↦ ?_
    simp [Spool.isLatestSnapshot_of_getLatestSnapshot hsnap]
  rw [← haged]
  refine Spool.getLatestSnapshot_of_filter
    ((rowsOf_collect _ _ hc s).trans (Spool.rowsOf_evictOldestChunks _ _ _)) fun snap hsnap ↦ ?_
  simp [staysWithin, (Spool.getLatestSnapshot_spec hsnap).2.1]

/-- An output behind the latest snapshot is taken for its age, or because everything that the
collector may take before it would not have been enough. -/
theorem deleted_of_collect {ageCutoff maxSizePerChannel : ℕ}
    (hc : c ∉ staleDeadIds) {s : Spool α} {snap r : Chunk α}
    (hr : r ∈ s.rowsOf c) (hseq : snap.seq < r.seq)
    (hgone : r ∉ (collect ageCutoff maxSizePerChannel staleDeadIds s).rowsOf c) :
    r.ts < ageCutoff ∨ maxSizePerChannel <
      bytesOf (((s.deleteChunksOlderThan ageCutoff).rowsOf c).filter fun r' ↦
        !snap.coveredBy r') := by
  by_cases hage : r.ts < ageCutoff
  · exact Or.inl hage
  · right
    have hmem := mem_rowsOf_aged.mpr ⟨hr, fun h ↦ absurd h hage⟩
    rw [rowsOf_collect _ _ hc, Spool.rowsOf_evictOldestChunks, List.mem_filter, not_and,
      Bool.not_eq_true] at hgone
    have hbroken := hgone hmem
    rw [staysWithin, Bool.or_eq_false_iff, decide_eq_false_iff_not,
      decide_eq_false_iff_not] at hbroken
    refine Nat.lt_of_lt_of_le (Nat.lt_of_not_le hbroken.2) (bytesOf_le_of_sublist ?_)
    -- what the row needs does not include what the snapshot covers
    refine List.monotone_filter_right _ fun r' h ↦ ?_
    rw [Bool.or_eq_true, decide_eq_true_iff, decide_eq_true_iff] at h
    rcases h with h | h
    · simp [Chunk.coveredBy, h]
    · simp [Chunk.coveredBy, Nat.not_lt.mpr (Nat.le_of_lt (Nat.lt_of_lt_of_le hseq h))]

/-- **What a collection leaves of a channel that is not dropped as a whole**, under any limits: its
latest snapshot; the output behind it that is recent, unless the channel is too large without the
output before the snapshot; and no more than the limit, exactly if the rows that are no output and
not too old fit below it. -/
theorem collect_keeps_replay (s : Spool α) (ageCutoff maxSizePerChannel : ℕ)
    (staleDeadIds : List ChannelId) (c : ChannelId) (hc : c ∉ staleDeadIds) :
    (collect ageCutoff maxSizePerChannel staleDeadIds s).getLatestSnapshot c =
        s.getLatestSnapshot c ∧
      (∀ snap, s.getLatestSnapshot c = some snap → ∀ r ∈ s.rowsOf c, r.kind = .output →
        snap.seq < r.seq → r ∉ (collect ageCutoff maxSizePerChannel staleDeadIds s).rowsOf c →
          r.ts < ageCutoff ∨ maxSizePerChannel <
            bytesOf (((s.deleteChunksOlderThan ageCutoff).rowsOf c).filter fun r' ↦
              !snap.coveredBy r')) ∧
      ((collect ageCutoff maxSizePerChannel staleDeadIds s).getChannelSize c ≤ maxSizePerChannel ↔
        bytesOf (((s.deleteChunksOlderThan ageCutoff).rowsOf c).filter fun r ↦ r.kind ≠ .output) ≤
          maxSizePerChannel) := by
  refine ⟨getLatestSnapshot_collect _ _ hc s, ?_, ?_⟩
  · intro snap _ r hr _ hseq hgone
    exact deleted_of_collect hc hr hseq hgone
  · rw [← Spool.getChannelSize_evictOldestChunks_le_iff, Spool.getChannelSize,
      rowsOf_collect _ _ hc, ← Spool.getChannelSize]

/-- A channel with two snapshots, and output behind the newer one. -/
def twoSnapshots : Spool UInt8 where
  rows := [⟨"c", 1, 10, .snapshot, .raw, [1, 2, 3], 3⟩, ⟨"c", 2, 11, .snapshot, .raw, [4], 1⟩,
    ⟨"c", 3, 12, .output, .raw, [5], 1⟩]
  unique := by decide

/-- Under a limit of three bytes the output goes, and so the channel stays too large: the older
snapshot, which no replay needs, would have been enough. -/
theorem collect_spares_superseded_snapshot :
    ∃ snap r, twoSnapshots.getLatestSnapshot "c" = some snap ∧ r ∈ twoSnapshots.rowsOf "c" ∧
      r.kind = .output ∧ snap.seq < r.seq ∧
      r ∉ (collect 5 3 [] twoSnapshots).rowsOf "c" ∧ ¬ r.ts < 5 ∧
      ¬ 3 < bytesOf ((twoSnapshots.rowsOf "c").filter fun r' ↦ !snap.supersededBy r') ∧
      snap.dataBlob.length ≤ 3 ∧
      ¬ (collect 5 3 [] twoSnapshots).getChannelSize "c" ≤ 3 := by
  refine ⟨⟨"c", 2, 11, .snapshot, .raw, [4], 1⟩, ⟨"c", 3, 12, .output, .raw, [5], 1⟩, ?_⟩
  have hrows : (collect 5 3 [] twoSnapshots).rowsOf "c" =
      [⟨"c", 1, 10, .snapshot, .raw, [1, 2, 3], 3⟩, ⟨"c", 2, 11, .snapshot, .raw, [4], 1⟩] := by
    rw [rowsOf_collect 5 3 List.not_mem_nil, Spool.rowsOf_evictOldestChunks]
    decide
  rw [Spool.getChannelSize, hrows]
  decide

/-- Under a limit of four bytes the two snapshots fit, and the latest one stays the latest. -/
theorem collect_keeps_replay_twoSnapshots :
    (collect 5 4 [] twoSnapshots).getLatestSnapshot "c" = twoSnapshots.getLatestSnapshot "c" ∧
      (collect 5 4 [] twoSnapshots).getChannelSize "c" ≤ 4 := by
  obtain ⟨hlatest, -, hsize⟩ := collect_keeps_replay twoSnapshots 5 4 [] "c" List.not_mem_nil
  exact ⟨hlatest, hsize.mpr (by decide)⟩

end SpoolGarbageCollector

end Lasterm.Hub
