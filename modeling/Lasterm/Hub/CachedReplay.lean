import Mathlib.Data.List.Pairwise
import Lasterm.Hub.Relabel

/-!
# Replay from the spool

A client that attaches while the agent is away gets what `buildAttachPayload` finds in the spool. It
should be the latest snapshot and everything that came in after it.

What should come back is defined from the run alone. The bytes a run feeds are numbered (`tagFrom`),
and a `Ledger` follows the numbered run: the latest snapshot stored, the output taken in since then,
and the output that was in rows the collector removed. `expectedTail` is the second less the third.

The rows behind the latest snapshot with the buffer behind them always are that
(`Accounted.recent`), so nothing is lost inside the hub. `buildAttachPayload` returns them in just
one kind of state, which `buildAttachPayload_iff` names: it does not look at the buffer, and without
a snapshot it does not look at the spool.
-/

namespace Lasterm.Hub

variable {α S : Type*} (json : SnapshotJson α S) (events : List (ℕ × SpoolEvent α S))

/-! ## What should come back -/

/-- Number the bytes of an event from `n` on. -/
def SpoolEvent.tag (n : ℕ) : SpoolEvent α S → SpoolEvent (α × ℕ) S
  | .op (.onOutput c data) => .op (.onOutput c (data.zipIdx n))
  | .op (.trackChannel c) => .op (.trackChannel c)
  | .op (.onTimer c) => .op (.onTimer c)
  | .op (.storeSnapshot c snapshot agentLastSeq) => .op (.storeSnapshot c snapshot agentLastSeq)
  | .op (.untrackChannel c) => .op (.untrackChannel c)
  | .gc g => .gc g

/-- How many bytes an event brings. -/
def SpoolEvent.size : SpoolEvent α S → ℕ
  | .op (.onOutput _ data) => data.length
  | _ => 0

/-- Number the bytes of a run from `n` on. -/
def tagFrom (n : ℕ) : List (ℕ × SpoolEvent α S) → List (ℕ × SpoolEvent (α × ℕ) S)
  | [] => []
  | (now, e) :: es => (now, e.tag n) :: tagFrom (n + e.size) es

/-- The conversions, on numbered bytes. -/
def SnapshotJson.tagged (json : SnapshotJson α S) : SnapshotJson (α × ℕ) S where
  stringify x := (json.stringify x).map (·, 0)
  parse blob := json.parse (blob.map Prod.fst)
  parse_stringify x := by
    rw [List.map_map]
    exact (congrArg json.parse (List.map_id _)).trans (json.parse_stringify x)

/-- What happened to a channel so far. -/
structure Ledger (α S : Type*) where
  tracked : Bool
  /-- The latest snapshot stored, if the channel was not dropped since. -/
  latest : Option S
  /-- The output taken in since that snapshot, or since the beginning. -/
  since : List α
  /-- The output in rows that the collector removed. -/
  removed : List α

namespace Ledger

/-- The output in rows that an operation of the collector removes. -/
def lost (c : ChannelId) (before after : Spool α) : List α :=
  ((before.rowsOf c).filter fun r ↦ r.seq ∉ (after.rowsOf c).map Chunk.seq).flatMap Chunk.outputData

def step (c : ChannelId) (L : Ledger α S) (before after : Spool α) : SpoolEvent α S → Ledger α S
  | .op (.trackChannel c') => if c' = c then { L with tracked := true } else L
  | .op (.onOutput c' data) =>
    if c' = c ∧ L.tracked then { L with since := L.since ++ data } else L
  | .op (.onTimer _) => L
  | .op (.storeSnapshot c' snapshot _) =>
    if c' = c then { L with latest := some snapshot, since := [] } else L
  | .op (.untrackChannel c') => if c' = c then { L with tracked := false } else L
  | .gc g =>
    { L with
      latest := if g.purges c then none else L.latest
      removed := L.removed ++ lost c before after }

def init : Ledger α S := ⟨false, none, [], []⟩

end Ledger

/-- The ledger of a channel at the end of a run. -/
def ledger (json : SnapshotJson α S) (c : ChannelId) (s : OutputChunker α) (L : Ledger α S) :
    List (ℕ × SpoolEvent α S) → Ledger α S
  | [] => L
  | e :: es =>
    match SpoolEvent.exec json s e with
    | none => L
    | some s' => ledger json c s' (L.step c s.spoolDal s'.spoolDal e.2) es

/-- The ledger of the numbered run. -/
def taggedLedger (json : SnapshotJson α S) (c : ChannelId) (events : List (ℕ × SpoolEvent α S)) :
    Ledger (α × ℕ) S :=
  ledger json.tagged c (.new .empty) .init (tagFrom 0 events)

/-- The output that came in while the channel was tracked, since the latest snapshot or, without
one, since the beginning, less what the collector removed. -/
def expectedTail (json : SnapshotJson α S) (c : ChannelId) (events : List (ℕ × SpoolEvent α S)) :
    List α :=
  let L := taggedLedger json c events
  (L.since.filter fun x ↦ x.2 ∉ L.removed.map Prod.snd).map Prod.fst

/-- The latest snapshot stored. -/
def storedSnapshot (json : SnapshotJson α S) (c : ChannelId)
    (events : List (ℕ × SpoolEvent α S)) : Option S :=
  (taggedLedger json c events).latest

theorem map_fst_tag (n : ℕ) (e : SpoolEvent α S) : (e.tag n).map Prod.fst = e := by
  obtain o | g := e
  · cases o with
    | onOutput c data => rw [SpoolEvent.tag, SpoolEvent.map, SpoolOp.map, List.zipIdx_map_fst]
    | trackChannel c => rfl
    | onTimer c => rfl
    | storeSnapshot c x n => rfl
    | untrackChannel c => rfl
  · rfl

theorem map_tagFrom (n : ℕ) (events : List (ℕ × SpoolEvent α S)) :
    (tagFrom n events).map (Prod.map id (.map Prod.fst)) = events := by
  induction events generalizing n with
  | nil => rfl
  | cons e events ih =>
    obtain ⟨now, e⟩ := e
    rw [tagFrom, List.map_cons, ih, Prod.map, id, map_fst_tag]

/-! ## Blocks of numbered bytes -/

section

variable {ρ : Type*}

/-- Dropping some blocks of a list of distinct elements drops their elements. -/
theorem flatMap_filter_eq_filter {g : ρ → List (α × ℕ)} {rows part : List ρ}
    (hnodup : ((rows.flatMap g).map Prod.snd).Nodup) (hpart : ∀ r ∈ part, r ∈ rows)
    (keep : ρ → Bool) :
    (part.filter keep).flatMap g = (part.flatMap g).filter fun x ↦
      x.2 ∉ ((rows.filter fun r ↦ !keep r).flatMap g).map Prod.snd := by
  rw [List.map_flatMap, List.nodup_flatMap] at hnodup
  have hdropped : ∀ r ∈ rows, keep r = false → ∀ x ∈ g r,
      x.2 ∈ ((rows.filter fun r ↦ !keep r).flatMap g).map Prod.snd := by
    intro r hr hk x hx
    refine List.mem_map_of_mem (List.mem_flatMap.mpr ⟨r, ?_, hx⟩)
    exact List.mem_filter.mpr ⟨hr, by simp [hk]⟩
  -- an element of a kept block is in no dropped one
  have hkept : ∀ r ∈ rows, keep r = true → ∀ x ∈ g r,
      x.2 ∉ ((rows.filter fun r ↦ !keep r).flatMap g).map Prod.snd := by
    intro r hr hk x hx hmem
    obtain ⟨y, hy, hxy⟩ := List.mem_map.mp hmem
    obtain ⟨r', hr', hy⟩ := List.mem_flatMap.mp hy
    obtain ⟨hr', hk'⟩ := List.mem_filter.mp hr'
    have hne : r ≠ r' := by
      rintro rfl
      simp [hk] at hk'
    have : Std.Symm (Function.onFun List.Disjoint fun r ↦ (g r).map Prod.snd) :=
      ⟨fun _ _ h x hx hx' ↦ h hx' hx⟩
    exact hnodup.2.forall hr hr' hne (List.mem_map_of_mem hx) (hxy ▸ List.mem_map_of_mem hy)
  generalize ((rows.filter fun r ↦ !keep r).flatMap g).map Prod.snd = gone at hdropped hkept
  induction part with
  | nil => rfl
  | cons r part ih =>
    have hr := hpart r List.mem_cons_self
    have ih := ih fun r hr ↦ hpart r (List.mem_cons_of_mem _ hr)
    rw [List.flatMap_cons, List.filter_append, ← ih]
    cases hk : keep r with
    | true =>
      have hall : (g r).filter (fun x ↦ x.2 ∉ gone) = g r :=
        List.filter_eq_self.mpr fun x hx ↦ by simpa using hkept r hr hk x hx
      rw [List.filter_cons_of_pos hk, List.flatMap_cons, hall]
    | false =>
      have hnone : (g r).filter (fun x ↦ x.2 ∉ gone) = [] :=
        List.filter_eq_nil_iff.mpr fun x hx ↦ by simpa using hdropped r hr hk x hx
      rw [List.filter_cons_of_neg (by simp [hk]), hnone, List.nil_append]

end

/-! ## The ledger is kept -/

/-- The recent output of a lane: rows behind the latest snapshot, and the buffer. -/
def Lane.recent (l : Lane α) : List α := (recentRows l.rows).flatMap Chunk.outputData ++ l.buffered

theorem Lane.Takes.recent {l l' : Lane α} {data : List α} (h : l.Takes data l') :
    l'.recent = l.recent ++ data := by
  obtain ⟨new, hrows, hkind, hbytes⟩ := h
  have hnew : ∀ r ∈ new, r.kind ≠ .snapshot := fun r hr ↦ by rw [hkind r hr]; decide
  rw [Lane.recent, hrows, recentRows_append _ hnew, List.flatMap_append,
    flatMap_outputData_of_output hkind, List.append_assoc, hbytes, ← List.append_assoc, Lane.recent]

theorem Lane.Takes.latestSnapshot {l l' : Lane α} {data : List α} (h : l.Takes data l') :
    Hub.latestSnapshot l'.rows = Hub.latestSnapshot l.rows := by
  obtain ⟨new, hrows, hkind, -⟩ := h
  rw [hrows, latestSnapshot_append _ fun r hr ↦ by rw [hkind r hr]; decide]

/-- A lane with numbered bytes agrees with its ledger; all numbers so far are below `n`. -/
structure Accounted (json : SnapshotJson (α × ℕ) S) (n : ℕ) (l : Lane (α × ℕ))
    (L : Ledger (α × ℕ) S) : Prop where
  tracked : l.buffer.isSome = L.tracked
  latest : (latestSnapshot l.rows).map Chunk.dataBlob = L.latest.map json.stringify
  recent : l.recent = L.since.filter fun x ↦ x.2 ∉ L.removed.map Prod.snd
  nodup : ((l.spooled ++ l.buffered).map Prod.snd).Nodup
  kept : ∀ x ∈ l.spooled ++ l.buffered, x.2 ∉ L.removed.map Prod.snd
  below : ∀ x ∈ l.spooled ++ l.buffered, x.2 < n
  removed_below : ∀ x ∈ L.removed, x.2 < n

namespace Accounted

variable {json : SnapshotJson (α × ℕ) S} {n : ℕ} {l l' : Lane (α × ℕ)} {L : Ledger (α × ℕ) S}
  {c : ChannelId}

theorem mono (h : Accounted json n l L) {m : ℕ} (hnm : n ≤ m) : Accounted json m l L :=
  { h with
    below := fun x hx ↦ (h.below x hx).trans_le hnm
    removed_below := fun x hx ↦ (h.removed_below x hx).trans_le hnm }

theorem empty : Accounted json 0 .empty (.init : Ledger (α × ℕ) S) where
  tracked := rfl
  latest := rfl
  recent := rfl
  nodup := List.nodup_nil
  kept := by simp [Lane.empty, Lane.spooled, Lane.buffered]
  below := by simp [Lane.empty, Lane.spooled, Lane.buffered]
  removed_below := by simp [Ledger.init]

/-- Taking in nothing. -/
theorem takes_nil (h : Accounted json n l L) (ht : l.Takes [] l') {t : Bool}
    (htracked : l'.buffer.isSome = t) : Accounted json n l' { L with tracked := t } := by
  have hspooled := ht.spooled_buffered
  have hrecent := ht.recent
  rw [List.append_nil] at hspooled hrecent
  exact {
    tracked := htracked
    latest := by rw [ht.latestSnapshot, h.latest]
    recent := by rw [hrecent, h.recent]
    nodup := hspooled ▸ h.nodup
    kept := hspooled ▸ h.kept
    below := hspooled ▸ h.below
    removed_below := h.removed_below }

/-- Taking in numbered output. -/
theorem takes_zipIdx (h : Accounted json n l L) {data : List α} (ht : l.Takes (data.zipIdx n) l')
    (htracked : l'.buffer.isSome = L.tracked) :
    Accounted json (n + data.length) l' { L with since := L.since ++ data.zipIdx n } := by
  have hspooled := ht.spooled_buffered
  have hge : ∀ x ∈ data.zipIdx n, n ≤ x.2 ∧ x.2 < n + data.length := by
    rintro ⟨a, i⟩ hx
    obtain ⟨hle, hlt, -⟩ := List.mem_zipIdx hx
    exact ⟨hle, hlt⟩
  have hfresh : ∀ x ∈ data.zipIdx n, x.2 ∉ L.removed.map Prod.snd := by
    intro x hx hmem
    obtain ⟨y, hy, hyx⟩ := List.mem_map.mp hmem
    have := h.removed_below y hy
    have := (hge x hx).1
    omega
  refine ⟨htracked, by rw [ht.latestSnapshot, h.latest], ?_, ?_, ?_, ?_, ?_⟩
  · have hall : (data.zipIdx n).filter (fun x ↦ x.2 ∉ L.removed.map Prod.snd) = data.zipIdx n :=
      List.filter_eq_self.mpr fun x hx ↦ by simpa using hfresh x hx
    rw [ht.recent, h.recent, List.filter_append, hall]
  · rw [hspooled, List.map_append, List.nodup_append]
    refine ⟨h.nodup, ?_, ?_⟩
    · rw [List.zipIdx_map_snd]
      exact List.nodup_range'
    · intro i hi j hj hij
      obtain ⟨x, hx, rfl⟩ := List.mem_map.mp hi
      obtain ⟨y, hy, rfl⟩ := List.mem_map.mp hj
      have := h.below x hx
      have := (hge y hy).1
      omega
  · rw [hspooled]
    intro x hx
    rcases List.mem_append.mp hx with hx | hx
    · exact h.kept x hx
    · exact hfresh x hx
  · rw [hspooled]
    intro x hx
    rcases List.mem_append.mp hx with hx | hx
    · have := h.below x hx
      omega
    · exact (hge x hx).2
  · intro x hx
    have := h.removed_below x hx
    omega

/-- Storing a snapshot. -/
theorem snapshot (h : Accounted json n l L) (now : ℕ) (c : ChannelId) (x : S) (agentLastSeq : ℕ) :
    Accounted json n (l.snapshot now c (json.stringify x) agentLastSeq)
      { L with latest := some x, since := [] } := by
  have hspooled : (l.snapshot now c (json.stringify x) agentLastSeq).spooled ++
      (l.snapshot now c (json.stringify x) agentLastSeq).buffered = l.spooled ++ l.buffered := by
    rw [Lane.spooled_snapshot, Lane.buffered_snapshot, List.append_nil]
  refine ⟨?_, ?_, ?_, hspooled ▸ h.nodup, hspooled ▸ h.kept, hspooled ▸ h.below,
    h.removed_below⟩
  · rw [Lane.isSome_snapshot, h.tracked]
  · rw [Lane.rows_snapshot, latestSnapshot_concat_snapshot _ rfl]
    rfl
  · rw [Lane.recent, Lane.buffered_snapshot, Lane.rows_snapshot,
      recentRows_concat_snapshot _ rfl]
    rfl

/-- The rows a filter removes are those whose `seq` is gone. -/
theorem lost_eq {before after : Spool α} {keep : Chunk α → Bool}
    (h : after.rowsOf c = (before.rowsOf c).filter keep) :
    Ledger.lost c before after
      = ((before.rowsOf c).filter fun r ↦ !keep r).flatMap Chunk.outputData := by
  rw [Ledger.lost, h]
  congr 1
  refine List.filter_congr fun r hr ↦ ?_
  cases hk : keep r with
  | true =>
    have hmem : r.seq ∈ ((before.rowsOf c).filter keep).map Chunk.seq :=
      List.mem_map_of_mem (List.mem_filter.mpr ⟨hr, hk⟩)
    simp only [hmem, not_true_eq_false, decide_false, Bool.not_true]
  | false =>
    have hmem : r.seq ∉ ((before.rowsOf c).filter keep).map Chunk.seq := by
      intro hmem
      obtain ⟨r', hr', hseq⟩ := List.mem_map.mp hmem
      obtain ⟨hr', hk'⟩ := List.mem_filter.mp hr'
      obtain ⟨hmem', hc'⟩ := Spool.mem_rowsOf.mp hr'
      obtain ⟨hmem, hc⟩ := Spool.mem_rowsOf.mp hr
      have := Spool.eq_of_key_eq hmem' hmem (Prod.ext (hc'.trans hc.symm) hseq)
      rw [this, hk] at hk'
      cases hk'
    simp only [hmem, not_false_eq_true, decide_true, Bool.not_false]

/-- The output in the rows that a filter removes. -/
def dropped (l : Lane α) (keep : Chunk α → Bool) : List α :=
  (l.rows.filter fun r ↦ !keep r).flatMap Chunk.outputData

theorem mem_spooled_of_mem_dropped {l : Lane α} {keep : Chunk α → Bool} {x : α}
    (h : x ∈ dropped l keep) : x ∈ l.spooled := by
  obtain ⟨r, hr, hx⟩ := List.mem_flatMap.mp h
  exact List.mem_flatMap.mpr ⟨r, List.mem_of_mem_filter hr, hx⟩

/-- What is buffered is in no removed row. -/
theorem notMem_dropped_of_mem_buffered (h : Accounted json n l L) (keep : Chunk (α × ℕ) → Bool)
    {x : α × ℕ} (hx : x ∈ l.buffered) : x.2 ∉ (dropped l keep).map Prod.snd := by
  intro hmem
  obtain ⟨y, hy, hyx⟩ := List.mem_map.mp hmem
  obtain ⟨-, -, hdisj⟩ := List.nodup_append.mp (List.map_append ▸ h.nodup)
  exact hdisj y.2 (List.mem_map_of_mem (mem_spooled_of_mem_dropped hy)) x.2
    (List.mem_map_of_mem hx) hyx

/-- A filter on rows acts on the output in some of them as it acts on bytes. -/
theorem flatMap_filter_eq (h : Accounted json n l L) (keep : Chunk (α × ℕ) → Bool)
    {part : List (Chunk (α × ℕ))} (hpart : ∀ r ∈ part, r ∈ l.rows) :
    (part.filter keep).flatMap Chunk.outputData
      = (part.flatMap Chunk.outputData).filter fun x ↦ x.2 ∉ (dropped l keep).map Prod.snd :=
  flatMap_filter_eq_filter (List.nodup_append.mp (List.map_append ▸ h.nodup)).1 hpart keep

/-- Removing rows, with the latest snapshot at the end of what follows it, if that is kept. -/
theorem filterRows (h : Accounted json n l L) {keep : Chunk (α × ℕ) → Bool} {latest : Option S}
    (hlatest : (latestSnapshot (l.rows.filter keep)).map Chunk.dataBlob
      = latest.map json.stringify)
    (hrecent : recentRows (l.rows.filter keep) = (recentRows l.rows).filter keep) :
    Accounted json n { l with rows := l.rows.filter keep }
      { L with latest := latest, removed := L.removed ++ dropped l keep } := by
  have hspooled : Lane.spooled { l with rows := l.rows.filter keep }
      = l.spooled.filter fun x ↦ x.2 ∉ (dropped l keep).map Prod.snd :=
    h.flatMap_filter_eq keep fun _ hr ↦ hr
  have hbuffered : Lane.buffered { l with rows := l.rows.filter keep } = l.buffered := rfl
  refine ⟨h.tracked, hlatest, ?_, ?_, ?_, ?_, ?_⟩
  · have hbuf : l.buffered.filter (fun x ↦ x.2 ∉ (dropped l keep).map Prod.snd) = l.buffered :=
      List.filter_eq_self.mpr fun x hx ↦ by simpa using h.notMem_dropped_of_mem_buffered keep hx
    calc Lane.recent { l with rows := l.rows.filter keep }
        = (recentRows (l.rows.filter keep)).flatMap Chunk.outputData ++ l.buffered := rfl
      _ = l.recent.filter (fun x ↦ x.2 ∉ (dropped l keep).map Prod.snd) := by
          rw [hrecent, h.flatMap_filter_eq keep fun _ ↦ mem_of_mem_recentRows,
            Lane.recent, List.filter_append, hbuf]
      _ = _ := by
          rw [h.recent, List.filter_filter]
          refine List.filter_congr fun x _ ↦ ?_
          simp only [List.map_append, List.mem_append, not_or, Bool.decide_and, Bool.and_comm]
  · rw [hspooled, hbuffered]
    exact h.nodup.sublist ((List.filter_sublist.append (List.Sublist.refl _)).map _)
  · rw [hspooled, hbuffered]
    intro x hx
    rw [List.map_append, List.mem_append, not_or]
    rcases List.mem_append.mp hx with hx | hx
    · obtain ⟨hx, hdropped⟩ := List.mem_filter.mp hx
      exact ⟨h.kept x (List.mem_append_left _ hx), by simpa using hdropped⟩
    · exact ⟨h.kept x (List.mem_append_right _ hx), h.notMem_dropped_of_mem_buffered keep hx⟩
  · rw [hspooled, hbuffered]
    intro x hx
    rcases List.mem_append.mp hx with hx | hx
    · exact h.below x (List.mem_append_left _ (List.mem_of_mem_filter hx))
    · exact h.below x (List.mem_append_right _ hx)
  · intro x hx
    rcases List.mem_append.mp hx with hx | hx
    · exact h.removed_below x hx
    · exact h.below x (List.mem_append_left _ (mem_spooled_of_mem_dropped hx))

/-- An operation of the collector. -/
theorem collect {s : OutputChunker (α × ℕ)} (h : Accounted json n (s.lanes c) L)
    (hord : (s.lanes c).Ordered) (g : GcOp) :
    Accounted json n (OutputChunker.lanes { s with spoolDal := g.exec s.spoolDal } c)
      (L.step c s.spoolDal (g.exec s.spoolDal) (.gc g)) := by
  obtain ⟨keep, hrows, hkeep⟩ := g.rowsOf_exec hord.sorted
  rw [OutputChunker.lanes, hrows, Ledger.step, lost_eq hrows]
  refine h.filterRows ?_ ?_
  · split at hkeep
    · rename_i hpurge
      rw [if_pos hpurge]
      exact congrArg _ (congrArg latestSnapshot hkeep)
    · rename_i hpurge
      rw [if_neg hpurge]
      exact (congrArg _ (latestSnapshot_filter hkeep)).trans h.latest
  · refine recentRows_filter ?_
    split at hkeep
    · exact .inr hkeep
    · exact .inl hkeep

/-- **One event.** -/
theorem step {s s' : OutputChunker (α × ℕ)} {e : SpoolEvent α S} {now : ℕ}
    (h : Accounted json n (s.lanes c) L) (hord : ∀ c, (s.lanes c).Ordered)
    (hs : SpoolEvent.exec json s (now, e.tag n) = some s') :
    Accounted json (n + e.size) (s'.lanes c) (L.step c s.spoolDal s'.spoolDal (e.tag n)) := by
  obtain o | g := e
  · -- the lane after the event, from the refinement
    have hlane : ∀ o', SpoolEvent.tag n (.op o) = .op o' →
        s'.lanes c = SpoolOp.onLane json c (s.lanes c) (now, o') := by
      intro o' ho'
      obtain ⟨u, hu, hlanes⟩ := SpoolOp.lanes_exec json hord (now, o')
      rw [ho'] at hs
      obtain rfl : u = s' := Option.some.inj (hu.symm.trans hs)
      rw [hlanes]
    cases o with
    | trackChannel c' =>
      rw [hlane _ rfl, SpoolEvent.tag, SpoolOp.onLane, Ledger.step]
      split
      · exact h.takes_nil (Lane.takes_track _) (Lane.isSome_track _)
      · exact h
    | onOutput c' data =>
      rw [hlane _ rfl, SpoolEvent.tag, SpoolOp.onLane, Ledger.step]
      by_cases hc : c' = c
      · rw [if_pos hc]
        cases hb : (s.lanes c).buffer with
        | none =>
          rw [Lane.output_of_untracked hb, if_neg (by rw [← h.tracked, hb]; simp)]
          exact h.mono (Nat.le_add_right _ _)
        | some b =>
          have ht : L.tracked = true := by rw [← h.tracked, hb, Option.isSome_some]
          rw [if_pos ⟨hc, ht⟩]
          exact h.takes_zipIdx (Lane.takes_output hb now c _)
            (by rw [Lane.isSome_output, h.tracked])
      · rw [if_neg hc, if_neg fun hand ↦ hc hand.1]
        exact h.mono (Nat.le_add_right _ _)
    | onTimer c' =>
      rw [hlane _ rfl, SpoolEvent.tag, SpoolOp.onLane, Ledger.step]
      split
      · exact h.takes_nil (Lane.takes_timer _ now c) (by rw [Lane.isSome_timer, h.tracked])
      · exact h
    | storeSnapshot c' x agentLastSeq =>
      rw [hlane _ rfl, SpoolEvent.tag, SpoolOp.onLane, Ledger.step]
      split
      · exact h.snapshot now c x agentLastSeq
      · exact h
    | untrackChannel c' =>
      rw [hlane _ rfl, SpoolEvent.tag, SpoolOp.onLane, Ledger.step]
      split
      · exact h.takes_nil (Lane.takes_untrack _ now c) rfl
      · exact h
  · cases hs
    exact h.collect (hord c) g

/-- **Whole runs.** -/
theorem run {s : OutputChunker (α × ℕ)} (events : List (ℕ × SpoolEvent α S))
    (h : Accounted json n (s.lanes c) L) (hord : ∀ c, (s.lanes c).Ordered) :
    ∃ s' m, Runs.run (SpoolEvent.exec json) s (tagFrom n events) = some s' ∧
      (∀ c, (s'.lanes c).Ordered) ∧
      Accounted json m (s'.lanes c) (ledger json c s L (tagFrom n events)) := by
  induction events generalizing s n L with
  | nil => exact ⟨s, n, rfl, hord, h⟩
  | cons e events ih =>
    obtain ⟨now, e⟩ := e
    obtain ⟨t, ht, htord⟩ := SpoolEvent.exec_ordered json hord (now, e.tag n)
    obtain ⟨s', m, hrun, hord', hacc⟩ := ih (h.step hord ht) htord
    refine ⟨s', m, ?_, hord', ?_⟩
    · rw [tagFrom, Runs.run_cons, ht, Option.bind_some, hrun]
    · rw [tagFrom, ledger, ht]
      exact hacc

end Accounted

/-! ## What comes back -/

/-- The payload, on rows in order. -/
theorem buildAttachPayload_of_ordered {s : OutputChunker α}
    {c : ChannelId} (h : (s.lanes c).Ordered) : (s.buildAttachPayload json c).snapshot
        = (latestSnapshot (s.lanes c).rows).bind (fun r ↦ json.parse r.dataBlob) ∧
      (s.buildAttachPayload json c).tail.flatten
        = if (latestSnapshot (s.lanes c).rows).isSome
          then (recentRows (s.lanes c).rows).flatMap Chunk.outputData else [] := by
  have hlatest : s.spoolDal.getLatestSnapshot c = latestSnapshot (s.lanes c).rows :=
    Spool.getLatestSnapshot_of_sorted h.sorted
  rw [OutputChunker.buildAttachPayload, hlatest]
  cases hsnap : latestSnapshot (s.lanes c).rows with
  | none => exact ⟨rfl, rfl⟩
  | some snap =>
    refine ⟨rfl, ?_⟩
    dsimp only
    rw [Option.isSome_some, if_pos rfl, ← filter_lt_eq_recentRows h.sorted hsnap,
      ← map_dataBlob_flatten_eq_flatMap, List.filter_filter,
      Spool.getChunksByChannel_of_sorted h.sorted]
    rfl

/-- The lane after a run is a lane of the numbered run without its numbers, and that one agrees with
the ledger. -/
theorem run_accounted (c : ChannelId) :
    ∃ s m l, Runs.run (SpoolEvent.exec json) (.new .empty) events = some s ∧
      (s.lanes c).Ordered ∧ s.lanes c = l.map Prod.fst ∧
      Accounted json.tagged m l (taggedLedger json c events) := by
  have hjson : ∀ x, json.stringify x = (json.tagged.stringify x).map Prod.fst := by
    intro x
    rw [SnapshotJson.tagged, List.map_map]
    exact (List.map_id _).symm
  have hempty : Accounted json.tagged 0 ((OutputChunker.new .empty).lanes c) .init := .empty
  obtain ⟨t, m, hrun, hord, hacc⟩ := hempty.run events fun _ ↦ Lane.ordered_empty
  obtain ⟨t', s, hrun', hrunS, -, hmap⟩ := run_map json.tagged json hjson (tagFrom 0 events)
    (s := .new .empty) (t := .new .empty) (fun _ ↦ Lane.ordered_empty) fun _ ↦ rfl
  obtain rfl : t' = t := Option.some.inj (hrun'.symm.trans hrun)
  rw [map_tagFrom] at hrunS
  exact ⟨s, m, t'.lanes c, hrunS, hmap c ▸ Lane.ordered_map _ (hord c), hmap c, hacc⟩

theorem latestSnapshot_map {β : Type*} (f : α → β) (rows : List (Chunk α)) :
    latestSnapshot (rows.map (.map f)) = (latestSnapshot rows).map (.map f) := by
  rw [latestSnapshot, List.filter_map, List.getLast?_map]
  rfl

theorem recentRows_map {β : Type*} (f : α → β) (rows : List (Chunk α)) :
    recentRows (rows.map (.map f)) = (recentRows rows).map (.map f) := by
  induction rows using List.reverseRecOn with
  | nil => rfl
  | append_singleton rows r ih =>
    rw [List.map_append, List.map_singleton]
    by_cases hr : r.kind = .snapshot
    · have hr' : (r.map f).kind = .snapshot := hr
      rw [recentRows_concat_snapshot rows hr, recentRows_concat_snapshot _ hr', List.map_nil]
    · have hr' : (r.map f).kind ≠ .snapshot := hr
      rw [recentRows_concat rows hr, recentRows_concat _ hr', ih, List.map_append,
        List.map_singleton]

theorem outputData_map {β : Type*} (f : α → β) (r : Chunk α) :
    (r.map f).outputData = r.outputData.map f := by
  have hkind : (r.map f).kind = r.kind := rfl
  rw [Chunk.outputData, Chunk.outputData, hkind]
  split <;> rfl

theorem Lane.recent_map {β : Type*} (f : α → β) (l : Lane α) :
    (l.map f).recent = l.recent.map f := by
  rw [recent, buffered_map, recent, List.map_append, List.map_flatMap]
  congr 1
  rw [map, recentRows_map, List.flatMap_map]
  exact List.flatMap_congr fun r _ ↦ outputData_map f r

/-- **Nothing is lost inside the hub**: the latest snapshot is in the spool, and the rows behind it
with the buffer are the output to be returned. -/
theorem run_recent (c : ChannelId) :
    ∃ s, Runs.run (SpoolEvent.exec json) (.new .empty) events = some s ∧ (s.lanes c).Ordered ∧
      (latestSnapshot (s.lanes c).rows).bind (fun r ↦ json.parse r.dataBlob)
        = storedSnapshot json c events ∧ (s.lanes c).recent = expectedTail json c events := by
  obtain ⟨s, m, l, hrun, hord, hmap, hacc⟩ := run_accounted json events c
  refine ⟨s, hrun, hord, ?_, ?_⟩
  · have hlatest := hacc.latest
    rw [hmap, Lane.map, latestSnapshot_map, Option.bind_map, storedSnapshot]
    cases hsnap : latestSnapshot l.rows with
    | none =>
      rw [hsnap, Option.map_none, eq_comm, Option.map_eq_none_iff] at hlatest
      rw [hlatest, Option.bind_none]
    | some r =>
      rw [hsnap, Option.map_some, eq_comm, Option.map_eq_some_iff] at hlatest
      obtain ⟨x, hx, hblob⟩ := hlatest
      have hparse := json.tagged.parse_stringify x
      rw [hblob] at hparse
      rw [hx]
      exact hparse
  · rw [hmap, Lane.recent_map, hacc.recent]
    rfl

/-- **When the cached replay is complete.** After every run `buildAttachPayload` returns the latest
snapshot with all output since, buffered bytes included, exactly when nothing is buffered and there
is a snapshot, or no output in the spool to go with the missing one. -/
theorem buildAttachPayload_iff (json : SnapshotJson α S) (events : List (ℕ × SpoolEvent α S))
    (c : ChannelId) :
    ∃ s, Runs.run (SpoolEvent.exec json) (.new .empty) events = some s ∧
      ((s.buildAttachPayload json c).snapshot = storedSnapshot json c events ∧
          (s.buildAttachPayload json c).tail.flatten = expectedTail json c events ↔
        s.buffered c = [] ∧
          ((s.spoolDal.getLatestSnapshot c).isSome ∨ s.spooledOutput c = [])) := by
  obtain ⟨s, hrun, hord, hsnapshot, hrecent⟩ := run_recent json events c
  obtain ⟨hpayload, htail⟩ := buildAttachPayload_of_ordered json hord
  refine ⟨s, hrun, ?_⟩
  have hlatest : s.spoolDal.getLatestSnapshot c = latestSnapshot (s.lanes c).rows :=
    Spool.getLatestSnapshot_of_sorted hord.sorted
  rw [hpayload, htail, hsnapshot, ← hrecent, OutputChunker.spooledOutput_eq hord, hlatest,
    OutputChunker.buffered, Lane.recent]
  cases hsnap : latestSnapshot (s.lanes c).rows with
  | some r => simp
  | none =>
    rw [recentRows_of_latestSnapshot_eq_none hsnap, ← Lane.spooled]
    simp [and_comm]

/-- A prompt that has just been printed is not in the replay: it waits in the buffer, and there is
no snapshot yet. -/
theorem buildAttachPayload_misses_prompt :
    ¬ ∀ (json : SnapshotJson UInt8 (List UInt8)) (events : List (ℕ × SpoolEvent UInt8 (List UInt8)))
      (c : ChannelId) (s : OutputChunker UInt8),
      Runs.run (SpoolEvent.exec json) (.new .empty) events = some s →
        (s.buildAttachPayload json c).snapshot = storedSnapshot json c events ∧
          (s.buildAttachPayload json c).tail.flatten = expectedTail json c events := by
  intro h
  have hprompt := (h quotedJson [(0, .op (.trackChannel "c")), (0, .op (.onOutput "c" [36, 32]))]
    "c" _ rfl).2
  revert hprompt
  decide

end Lasterm.Hub
