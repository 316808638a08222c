import Lasterm.Hub.Dispatch

/-!
# The order of the messages of a read

An action that waits for its promise is overtaken by the later messages of its read. Whether that
shows depends on the kinds of the two actions on a channel: storing a snapshot goes with opening and
closing the channel in either order, but opening a channel does not go with closing it, and output
goes with nothing but other channels. `Compatible` is that table, and it is exact
(`compatible_iff`).

In calm reads, where no action is overtaken by one that it is not compatible with, the hub ends as
when every message comes in a read of its own (`read_singletons_of_calm`). A restarted shell that
exits at once, or prints at once, comes in a read that is not calm (`reads_visible`).
-/

namespace Lasterm.Hub

variable {S : Type*} (p : PendingRequests)

/-! ## Exchanges -/

namespace Lane

theorem maxSeq_append_singleton (b b' : Option (ChannelBuffer UInt8)) (rows : List (Chunk UInt8))
    (r : Chunk UInt8) : maxSeq ⟨b, rows ++ [r]⟩ = max (maxSeq ⟨b', rows⟩) r.seq := by
  rw [maxSeq, maxSeq, List.map_append, List.map_singleton]
  cases rows with
  | nil => simp
  | cons r' rows =>
    rw [List.map_cons, List.cons_append, List.max?_cons', List.max?_cons', List.foldl_append]
    rfl

variable (l : Lane UInt8) (now : ℕ) (c : ChannelId) (data : List UInt8) (n : ℕ)

theorem flush_of_buffered_nil {l : Lane UInt8} (h : l.buffered = []) : flush now c l = l := by
  rw [flush]
  split
  · rfl
  · rename_i b hb
    rw [buffered, hb] at h
    exact if_pos ((ChannelBuffer.totalBytes_eq_zero_iff b).mpr h)

theorem track_of_isSome {l : Lane UInt8} (h : l.buffer.isSome) : l.track = l := by
  obtain ⟨b, hb⟩ := Option.isSome_iff_exists.mp h
  rw [track, hb]

/-- Tracking starts behind the last row, and a snapshot leaves the next number behind itself. -/
theorem snapshot_track : snapshot now c data n l.track = (snapshot now c data n l).track := by
  obtain ⟨_ | b, rows⟩ := l
  · have hmax : maxSeq ⟨none, rows ++ [Spool.newRow now
          (snapshotInsert c (max (maxSeq ⟨none, rows⟩) n + 1) data)]⟩ =
        max (maxSeq ⟨none, rows⟩) n + 1 := by
      rw [maxSeq_append_singleton none none]
      change max _ (max _ n + 1) = _
      omega
    have hlt : maxSeq ⟨none, rows⟩ + 1 < max (maxSeq ⟨none, rows⟩) n + 1 + 1 := by omega
    have hleft : snapshot now c data n (track ⟨none, rows⟩) =
        ⟨some (.new (max (maxSeq ⟨none, rows⟩) n + 1 + 1)), rows ++ [Spool.newRow now
          (snapshotInsert c (max (maxSeq ⟨none, rows⟩) n + 1) data)]⟩ := if_pos hlt
    have hright : (snapshot now c data n ⟨none, rows⟩).track =
        ⟨some (.new (maxSeq ⟨none, rows ++ [Spool.newRow now
          (snapshotInsert c (max (maxSeq ⟨none, rows⟩) n + 1) data)]⟩ + 1)),
          rows ++ [Spool.newRow now (snapshotInsert c
            (max (maxSeq ⟨none, rows⟩) n + 1) data)]⟩ := rfl
    rw [hleft, hright, hmax]
  · rw [track_of_isSome rfl, track_of_isSome]
    rw [isSome_snapshot]
    rfl

theorem snapshot_untrack :
    snapshot now c data n (untrack now c l) = untrack now c (snapshot now c data n l) := by
  have hflush : flush now c (snapshot now c data n l) = snapshot now c data n l :=
    flush_of_buffered_nil now c (buffered_snapshot l now c data n)
  have hrows : (snapshot now c data n (untrack now c l)).rows = (snapshot now c data n l).rows := by
    rw [rows_snapshot, rows_snapshot]
    rfl
  calc snapshot now c data n (untrack now c l)
      = ⟨none, (snapshot now c data n (untrack now c l)).rows⟩ := rfl
    _ = ⟨none, (flush now c (snapshot now c data n l)).rows⟩ := by rw [hrows, hflush]
    _ = untrack now c (snapshot now c data n l) := rfl

theorem rows_flush_of_some {l : Lane UInt8} {b : ChannelBuffer UInt8} (hb : l.buffer = some b) :
    (flush now c l).rows =
      if b.totalBytes = 0 then l.rows else l.rows ++ [Spool.newRow now (b.toInsert c)] := by
  rw [flush, hb]
  exact apply_ite rows _ _ _

/-- Data of no length changes nothing that a flush writes. -/
theorem untrack_output_nil : untrack now c (output now c [] l) = untrack now c l := by
  rcases hb : l.buffer with _ | b
  · rw [output_of_untracked hb]
  · have hinsert : ∀ timer, ((b.push []).setTimer timer).toInsert c = b.toInsert c := by
      intro timer
      rw [ChannelBuffer.toInsert, ChannelBuffer.toInsert, ChannelBuffer.concatChunks_setTimer,
        ChannelBuffer.concatChunks_push, List.append_nil]
      rfl
    have hrows : ∀ timer, (flush now c ⟨some ((b.push []).setTimer timer), l.rows⟩).rows =
        (flush now c l).rows := by
      intro timer
      rw [rows_flush_of_some now c hb, rows_flush_of_some now c rfl, hinsert]
      rfl
    rw [output, hb]
    dsimp only
    split
    · -- The flush has written everything already.
      have hpush : (flush now c ⟨some (b.push []), l.rows⟩).rows = (flush now c l).rows :=
        hrows b.timer
      rw [untrack, flush_of_buffered_nil now c (buffered_flush _ now c)]
      exact congrArg (Lane.mk none) hpush
    · exact congrArg (Lane.mk none) (hrows true)

end Lane

namespace Kind

/-- The channel is live and tracked afterwards. -/
def opening : Kind → Bool
  | .opened | .replaced | .created => true
  | _ => false

/-- The channel is not tracked afterwards. -/
def closing : Kind → Bool
  | .exited | .retired => true
  | _ => false

/-- Actions of these kinds have the same effect in either order. A row cannot be created once a
restart has made it. -/
def commutes (k k' : Kind) : Bool :=
  k = .idle || k' = .idle || (k.closing && k'.closing) ||
    (k.opening && k'.opening && !(k = .created && k' = .replaced) &&
      !(k = .replaced && k' = .created)) ||
    (k = .stored && (k'.opening || k'.closing)) || (k' = .stored && (k.opening || k.closing)) ||
    (k = .touched && k'.closing) || (k' = .touched && k.closing)

theorem onView_comm {k k' : Kind} (h : k.commutes k') (v : View) :
    (k.onView v).bind k'.onView = (k'.onView v).bind k.onView := by
  obtain ⟨status, row, scheduled⟩ := v
  cases k <;> cases k' <;> first
    | rfl
    | exact absurd h (by decide)
    | (cases status <;> cases row <;> rfl)

end Kind

namespace Action

variable (json : SnapshotJson UInt8 S) (now : ℕ) {c : ChannelId} {a b : Action S}

theorem onLane_of_idle (h : a.kind c = .idle) (l : Lane UInt8) : a.onLane json now c l = l := by
  cases a <;> grind [kind, onLane]

theorem onLane_of_opening (h : (a.kind c).opening) (l : Lane UInt8) :
    a.onLane json now c l = l.track := by
  cases a <;> grind [kind, onLane, Kind.opening]

theorem onLane_of_closing (h : (a.kind c).closing) (l : Lane UInt8) :
    a.onLane json now c l = l.untrack now c := by
  cases a <;> grind [kind, onLane, Kind.closing]

theorem onLane_of_touched (h : a.kind c = .touched) (l : Lane UInt8) :
    a.onLane json now c l = l.output now c [] := by
  cases a <;> grind [kind, onLane]

theorem onLane_of_stored (h : a.kind c = .stored) : ∃ data n, a.stores c = some (data, n) ∧
    ∀ l, a.onLane json now c l = l.snapshot now c (json.stringify data) n := by
  cases a with
  | attached c' data n =>
    have hc : c' = c := by grind [kind]
    exact ⟨data, n, if_pos hc, fun l ↦ if_pos hc⟩
  | snapshot c' data n =>
    have hc : c' = c := by grind [kind]
    exact ⟨data, n, if_pos hc, fun l ↦ if_pos hc⟩
  | _ => grind [kind]

/-- A snapshot commutes with opening and closing. -/
theorem onLane_comm_of_stored (ha : a.kind c = .stored)
    (hb : (b.kind c).opening ∨ (b.kind c).closing)
    (l : Lane UInt8) : b.onLane json now c (a.onLane json now c l) =
      a.onLane json now c (b.onLane json now c l) := by
  obtain ⟨data, n, -, hsnap⟩ := onLane_of_stored json now ha
  rcases hb with hb | hb
  · rw [onLane_of_opening json now hb, onLane_of_opening json now hb, hsnap, hsnap,
      Lane.snapshot_track]
  · rw [onLane_of_closing json now hb, onLane_of_closing json now hb, hsnap, hsnap,
      Lane.snapshot_untrack]

theorem onLane_comm (h : (a.kind c).commutes (b.kind c)) (l : Lane UInt8) :
    b.onLane json now c (a.onLane json now c l) = a.onLane json now c (b.onLane json now c l) := by
  simp only [Kind.commutes, Bool.or_eq_true, Bool.and_eq_true, decide_eq_true_eq] at h
  rcases h with ((((((ha | hb) | ⟨ha, hb⟩) | ⟨⟨⟨ha, hb⟩, -⟩, -⟩) | ⟨ha, hb⟩) | ⟨hb, ha⟩) |
    ⟨ha, hb⟩) |
    ⟨hb, ha⟩
  · rw [onLane_of_idle json now ha, onLane_of_idle json now ha]
  · rw [onLane_of_idle json now hb, onLane_of_idle json now hb]
  · rw [onLane_of_closing json now ha, onLane_of_closing json now hb, onLane_of_closing json now ha,
      onLane_of_closing json now hb]
  · rw [onLane_of_opening json now ha, onLane_of_opening json now hb, onLane_of_opening json now ha,
      onLane_of_opening json now hb]
  · exact onLane_comm_of_stored json now ha hb l
  · exact (onLane_comm_of_stored json now hb ha l).symm
  · rw [onLane_of_touched json now ha, onLane_of_touched json now ha, onLane_of_closing json now hb,
      onLane_of_closing json now hb, Lane.untrack_output_nil]
    rfl
  · rw [onLane_of_touched json now hb, onLane_of_touched json now hb, onLane_of_closing json now ha,
      onLane_of_closing json now ha, Lane.untrack_output_nil]
    rfl

theorem onCell_bind_onCell (x : Cell) : (a.onCell json now c x).bind (b.onCell json now c) =
    (((a.kind c).onView x.view).bind (b.kind c).onView).map fun v ↦
      ⟨v, b.onLane json now c (a.onLane json now c x.lane)⟩ := by
  rw [onCell]
  rcases (a.kind c).onView x.view with _ | v
  · rfl
  · rfl

theorem onCell_eq_of_stores (h : (a.stores c).isSome) (heq : a.stores c = b.stores c) (x : Cell) :
    a.onCell json now c x = b.onCell json now c x := by
  have hstored : ∀ {a : Action S} {data : S} {n : ℕ}, a.stores c = some (data, n) →
      a.onCell json now c x =
        some ⟨x.view, x.lane.snapshot now c (json.stringify data) n⟩ := by
    intro a data n ha
    cases a <;> grind [stores, onCell, kind, onLane, Kind.onView]
  obtain ⟨⟨data, n⟩, hdata⟩ := Option.isSome_iff_exists.mp h
  rw [hstored hdata, hstored (heq ▸ hdata)]

end Action

/-- The actions have the same effect on the channel in either order: they are of kinds that commute,
or they store the same snapshot. -/
def Action.Compatible (c : ChannelId) (a b : Action S) : Prop :=
  (a.kind c).commutes (b.kind c) ∨ (a.stores c).isSome ∧ a.stores c = b.stores c

theorem Action.Compatible.exchange (json : SnapshotJson UInt8 S) (now : ℕ) {c : ChannelId}
    {a b : Action S} (h : a.Compatible c b) :
    Runs.Exchange (fun x a ↦ onCell json now c x a) (fun _ ↦ True) a b := by
  intro x _
  change (a.onCell json now c x).bind (b.onCell json now c) = (b.onCell json now c x).bind
    (a.onCell json now c)
  rcases h with h | ⟨hsome, heq⟩
  · rw [onCell_bind_onCell, onCell_bind_onCell, Kind.onView_comm h, onLane_comm json now h]
  · have hab : a.onCell json now c = b.onCell json now c :=
      funext fun y ↦ onCell_eq_of_stores json now hsome heq y
    rw [onCell_eq_of_stores json now hsome heq x, hab]

/-! ### Compatibility is exact -/

namespace Lane

variable (now : ℕ) (c : ChannelId)

/-- Output that a tracked channel takes starts the timer, or is written at once. -/
theorem output_cases {l : Lane UInt8} {b : ChannelBuffer UInt8} (hb : l.buffer = some b)
    (data : List UInt8) :
    (∃ b', (output now c data l).buffer = some b' ∧ b'.timer = true) ∨
      ∃ r, (output now c data l).rows = l.rows ++ [r] ∧ r.kind = .output := by
  rw [output, hb]
  dsimp only
  split
  · rename_i hmax
    right
    have hpos : (b.push data).totalBytes ≠ 0 :=
      fun h ↦ by rw [h] at hmax; exact absurd hmax (by decide)
    refine ⟨Spool.newRow now ((b.push data).toInsert c), ?_, rfl⟩
    rw [rows_flush_of_some now c rfl, if_neg hpos]
  · exact .inl ⟨_, rfl, rfl⟩

/-- A snapshot behind a flush that wrote something finds a new buffer. -/
theorem timer_snapshot {l : Lane UInt8} {seq : ℕ} (h : (flush now c l).buffer = some (.new seq))
    (data : List UInt8) (n : ℕ) {b : ChannelBuffer UInt8}
    (hb : (snapshot now c data n l).buffer = some b) :
    b.timer = false := by
  rw [snapshot, bump] at hb
  dsimp only at hb
  rw [h] at hb
  dsimp only at hb
  split at hb
  · rw [Option.some.injEq] at hb
    rw [← hb]
    rfl
  · dsimp only at hb
    rw [Option.some.injEq] at hb
    rw [← hb]
    rfl

theorem flush_of_buffered {l : Lane UInt8} {b : ChannelBuffer UInt8} (hb : l.buffer = some b)
    (hpos : b.totalBytes ≠ 0) : (flush now c l).buffer = some (.new (b.nextSeq + 1)) := by
  rw [flush, hb]
  exact congrArg Lane.buffer (if_neg hpos)

/-- A tracked channel with nothing stored yet. -/
def fresh : Lane UInt8 := track .empty

/-- The same with one byte in its buffer. -/
def oneByte : Lane UInt8 := ⟨some ((ChannelBuffer.new 1).push [0]), []⟩

theorem ordered_oneByte : oneByte.Ordered :=
  ⟨List.Pairwise.nil, by simp [oneByte], by simp [oneByte, ChannelBuffer.push, ChannelBuffer.new]⟩

theorem output_fresh_ne (data : List UInt8) : output now c data fresh ≠ fresh := by
  intro h
  rcases output_cases now c (l := fresh) rfl data with ⟨b, hb, htimer⟩ | ⟨r, hrows, -⟩
  · rw [h] at hb
    exact absurd ((Option.some.inj hb).symm ▸ htimer) (by decide)
  · rw [h] at hrows
    exact absurd (congrArg List.length hrows) (by simp)

theorem untrack_output_fresh_ne {data : List UInt8} (h : data ≠ []) :
    untrack now c (output now c data fresh) ≠ untrack now c fresh := by
  intro heq
  have houtput := (takes_output (l := fresh) rfl now c data).spooled_buffered
  have huntrack := (takes_untrack (output now c data fresh) now c).spooled_buffered
  rw [heq, houtput] at huntrack
  have hnil : ([] : List UInt8) = [] ++ [] ++ data ++ [] := huntrack
  exact h (by simpa using hnil.symm)

/-- Output behind a snapshot is not output before it. -/
theorem output_snapshot_ne (data blob : List UInt8) (n : ℕ) :
    output now c data (snapshot now c blob n oneByte) ≠
      snapshot now c blob n (output now c data oneByte) := by
  intro h
  have hnew : ∃ seq, (flush now c (output now c data oneByte)).buffer = some (.new seq) := by
    rw [output, oneByte]
    dsimp only
    have hpos :
        (((ChannelBuffer.new 1).push [0]).push data : ChannelBuffer UInt8).totalBytes ≠ 0 := by
      change 0 + 1 + data.length ≠ 0
      omega
    split
    · rw [flush_of_buffered_nil now c (buffered_flush _ now c)]
      exact ⟨_, flush_of_buffered now c rfl hpos⟩
    · exact ⟨_, flush_of_buffered now c rfl hpos⟩
  obtain ⟨seq, hseq⟩ := hnew
  obtain ⟨b, hb⟩ : ∃ b, (snapshot now c blob n oneByte).buffer = some b := by
    apply Option.isSome_iff_exists.mp
    rw [isSome_snapshot]
    rfl
  rcases output_cases now c hb data with ⟨b', hb', htimer⟩ | ⟨r, hrows, hkind⟩
  · rw [h] at hb'
    exact absurd ((timer_snapshot now c hseq blob n hb').symm.trans htimer) (by decide)
  · rw [h, rows_snapshot] at hrows
    have hr := (List.append_inj' hrows rfl).2
    rw [List.cons.injEq] at hr
    rw [← hr.1] at hkind
    exact absurd hkind (by simp [Spool.newRow, snapshotInsert])

/-- The first of two snapshots gets the first row. -/
theorem snapshot_snapshot_empty_ne {data data' : List UInt8} {n n' : ℕ}
    (h : (data, n) ≠ (data', n')) :
    snapshot now c data' n' (snapshot now c data n .empty) ≠
      snapshot now c data n (snapshot now c data' n' .empty) := by
  intro heq
  have hhead : some (Spool.newRow now (snapshotInsert c (max 0 n + 1) data)) =
      some (Spool.newRow now (snapshotInsert c (max 0 n' + 1) data')) :=
    congrArg (fun l ↦ l.rows.head?) heq
  simp only [Option.some.injEq, Spool.newRow, snapshotInsert, Chunk.mk.injEq] at hhead
  refine h (Prod.ext ?_ ?_)
  · simp_all
  · simp_all

end Lane

namespace Action

variable (json : SnapshotJson UInt8 S) (now : ℕ) {c : ChannelId} {a b : Action S} {x : Cell}

/-- The two orders differ in the view. -/
theorem bind_ne_of_view (h : ((a.kind c).onView x.view).bind (b.kind c).onView ≠
      ((b.kind c).onView x.view).bind (a.kind c).onView) :
    (a.onCell json now c x).bind (b.onCell json now c) ≠
      (b.onCell json now c x).bind (a.onCell json now c) := by
  intro heq
  rw [onCell_bind_onCell, onCell_bind_onCell] at heq
  have hview := congrArg (Option.map Cell.view) heq
  rw [Option.map_map, Option.map_map] at hview
  exact h (by simpa [Function.comp_def] using hview)

/-- The two orders differ in the lane. -/
theorem bind_ne_of_lane (hsome : (((a.kind c).onView x.view).bind (b.kind c).onView).isSome)
    (h : b.onLane json now c (a.onLane json now c x.lane) ≠
      a.onLane json now c (b.onLane json now c x.lane)) :
    (a.onCell json now c x).bind (b.onCell json now c) ≠
      (b.onCell json now c x).bind (a.onCell json now c) := by
  intro heq
  rw [onCell_bind_onCell, onCell_bind_onCell] at heq
  obtain ⟨v, hv⟩ := Option.isSome_iff_exists.mp hsome
  rw [hv, Option.map_some, eq_comm, Option.map_eq_some_iff] at heq
  obtain ⟨w, -, hw⟩ := heq
  exact h (congrArg Cell.lane hw).symm

/-- The kinds of the actions that are delayed. -/
def delayed : Kind → Bool
  | .opened | .replaced | .retired | .stored => true
  | _ => false

theorem kind_conflict {k k' : Kind} (hk : delayed k) (h : ¬ k.commutes k') :
    (k.onView ⟨none, none, false⟩).bind k'.onView ≠ (k'.onView ⟨none, none, false⟩).bind k.onView ∨
      (k.opening ∧ (k' = .output ∨ k' = .touched)) ∨ (k = .retired ∧ k' = .output) ∨
      (k = .stored ∧ (k' = .output ∨ k' = .touched)) ∨ (k = .stored ∧ k' = .stored) := by
  cases k <;> cases k' <;> first | exact absurd rfl h | exact absurd hk (by decide) | decide

theorem onLane_of_output (h : a.kind c = .output ∨ a.kind c = .touched) :
    ∃ data, (a.kind c = .output → data ≠ []) ∧
      ∀ l, a.onLane json now c l = l.output now c data := by
  cases a with
  | output c' data =>
    have hc : c' = c := by grind [kind]
    subst hc
    exact ⟨data, by grind [kind], fun l ↦ if_pos rfl⟩
  | _ => grind [kind]

/-- **Compatibility is exact**: a delayed action is compatible with another one if and only if their
order makes no difference to any state of the channel. -/
theorem compatible_iff (ha : delayed (a.kind c)) :
    a.Compatible c b ↔ ∀ x : Cell, x.lane.Ordered →
      (a.onCell json now c x).bind (b.onCell json now c) =
        (b.onCell json now c x).bind (a.onCell json now c) := by
  constructor
  · intro h x _
    exact h.exchange json now x trivial
  · intro h
    by_contra hnot
    rw [Compatible, not_or] at hnot
    obtain ⟨hkinds, hstores⟩ := hnot
    rcases kind_conflict ha hkinds with hview | ⟨hopen, hout⟩ | ⟨hret, hout⟩ | ⟨hst, hout⟩ |
      ⟨hst, hst'⟩
    · exact bind_ne_of_view json now hview (h ⟨⟨none, none, false⟩, .empty⟩ Lane.ordered_empty)
    · obtain ⟨data, -, hdata⟩ := onLane_of_output json now hout
      refine bind_ne_of_lane json now ?_ ?_ (h ⟨⟨none, none, false⟩, .empty⟩ Lane.ordered_empty)
      · rcases hout with hout | hout <;> rw [hout] <;> revert hopen <;> cases a.kind c <;> decide
      · have hself : Lane.output now c data .empty = .empty :=
          Lane.output_of_untracked rfl now c data
        dsimp only
        rw [onLane_of_opening json now hopen, onLane_of_opening json now hopen, hdata, hdata, hself]
        exact Lane.output_fresh_ne now c data
    · obtain ⟨data, hne, hdata⟩ := onLane_of_output json now (.inl hout)
      have hclose : (a.kind c).closing := by rw [hret]; rfl
      refine bind_ne_of_lane json now ?_ ?_
        (h ⟨⟨none, none, false⟩, Lane.fresh⟩ (Lane.ordered_track Lane.ordered_empty))
      · rw [hret, hout]
        rfl
      · have hself : Lane.output now c data (Lane.fresh.untrack now c) = Lane.fresh.untrack now c :=
          Lane.output_of_untracked rfl now c data
        dsimp only
        rw [onLane_of_closing json now hclose, onLane_of_closing json now hclose, hdata,
          hdata, hself]
        exact (Lane.untrack_output_fresh_ne now c (hne hout)).symm
    · obtain ⟨data, -, hdata⟩ := onLane_of_output json now hout
      obtain ⟨blob, n, -, hsnap⟩ := onLane_of_stored json now hst
      refine bind_ne_of_lane json now ?_ ?_
        (h ⟨⟨none, none, false⟩, Lane.oneByte⟩ Lane.ordered_oneByte)
      · rw [hst]
        rcases hout with hout | hout <;> rw [hout] <;> rfl
      · rw [hdata, hdata, hsnap, hsnap]
        exact Lane.output_snapshot_ne now c data (json.stringify blob) n
    · obtain ⟨data, n, ha', hsnap⟩ := onLane_of_stored json now hst
      obtain ⟨data', n', hb', hsnap'⟩ := onLane_of_stored json now hst'
      have hne : (json.stringify data, n) ≠ (json.stringify data', n') := by
        intro heq
        rw [Prod.mk.injEq] at heq
        have hparse := congrArg json.parse heq.1
        rw [json.parse_stringify, json.parse_stringify, Option.some.injEq] at hparse
        rw [ha', hb', hparse, heq.2] at hstores
        exact hstores ⟨rfl, rfl⟩
      refine bind_ne_of_lane json now ?_ ?_ (h ⟨⟨none, none, false⟩, .empty⟩ Lane.ordered_empty)
      · rw [hst, hst']
        rfl
      · rw [hsnap, hsnap, hsnap', hsnap']
        exact Lane.snapshot_snapshot_empty_ne now c hne

theorem compatible_iff_respawned :
    (respawned "c" : Action (List UInt8)).Compatible "c" (.exited "c") ↔
      ∀ x : Cell, x.lane.Ordered →
        ((respawned "c").onCell quotedJson 0 "c" x).bind ((exited "c").onCell quotedJson 0 "c") =
          ((exited "c").onCell quotedJson 0 "c" x).bind ((respawned "c").onCell quotedJson 0 "c") :=
  compatible_iff quotedJson 0 rfl

end Action

/-! ## Reads -/

/-- No action of a read is overtaken by one that it is not compatible with. -/
def Calm (as : List (ℕ × Action S)) : Prop :=
  as.Pairwise fun x y ↦ y.1 < x.1 → ∀ c, x.2.Compatible c y.2

/-- Every read of a connection is calm. -/
def CalmReads (p : PendingRequests) : List (List (AgentMessage S)) → Prop
  | [] => True
  | ms :: reads => Calm (dispatchAll p ms).2 ∧ CalmReads (dispatchAll p ms).1 reads

/-- The actions of a connection in the order in which they run. -/
def actionsOf (p : PendingRequests) : List (List (AgentMessage S)) →
    PendingRequests × List (Action S)
  | [] => (p, [])
  | ms :: reads =>
    let (p, as) := dispatchAll p ms
    let (p, rest) := actionsOf p reads
    (p, (Runs.byDelay as).map Prod.snd ++ rest)

theorem dispatchAll_cons (m : AgentMessage S) (ms : List (AgentMessage S)) :
    dispatchAll p (m :: ms) = ((dispatchAll (dispatch p m).1 ms).1,
      (dispatch p m).2.toList ++ (dispatchAll (dispatch p m).1 ms).2) := rfl

theorem actionsOf_cons (ms : List (AgentMessage S)) (reads : List (List (AgentMessage S))) :
    actionsOf p (ms :: reads) = ((actionsOf (dispatchAll p ms).1 reads).1,
      (Runs.byDelay (dispatchAll p ms).2).map Prod.snd ++
        (actionsOf (dispatchAll p ms).1 reads).2) := rfl

theorem dispatchAll_append (ms ms' : List (AgentMessage S)) :
    dispatchAll p (ms ++ ms') = ((dispatchAll (dispatchAll p ms).1 ms').1,
      (dispatchAll p ms).2 ++ (dispatchAll (dispatchAll p ms).1 ms').2) := by
  induction ms generalizing p with
  | nil => rfl
  | cons m ms ih => rw [List.cons_append, dispatchAll_cons, ih, dispatchAll_cons, List.append_assoc]

/-- One message gives at most one action, and it runs at once. -/
theorem byDelay_dispatchAll_singleton (m : AgentMessage S) :
    Runs.byDelay (dispatchAll p [m]).2 = (dispatchAll p [m]).2 := by
  rw [dispatchAll_cons]
  rcases (dispatch p m).2 with _ | a
  · rfl
  · rfl

theorem actionsOf_singletons (ms : List (AgentMessage S)) :
    actionsOf p (ms.map fun m ↦ [m]) =
      ((dispatchAll p ms).1, (dispatchAll p ms).2.map Prod.snd) := by
  induction ms generalizing p with
  | nil => rfl
  | cons m ms ih =>
    have happend := dispatchAll_append p [m] ms
    rw [List.singleton_append] at happend
    rw [List.map_cons, actionsOf_cons, byDelay_dispatchAll_singleton, ih, happend, List.map_append]

theorem actionsOf_pending (reads : List (List (AgentMessage S))) :
    (actionsOf p reads).1 = (dispatchAll p reads.flatten).1 := by
  induction reads generalizing p with
  | nil => rfl
  | cons ms reads ih => rw [actionsOf_cons, List.flatten_cons, dispatchAll_append, ih]

section Grouping

variable (json : SnapshotJson UInt8 S) (now : ℕ)

theorem read_eq (p : PendingRequests) (h : HubState) (ms : List (AgentMessage S)) :
    read json now (p, h) ms = (Runs.run (HubState.exec json now) h
      ((Runs.byDelay (dispatchAll p ms).2).map Prod.snd)).map (Prod.mk (dispatchAll p ms).1) := by
  rw [Option.map_eq_bind]
  rfl

/-- The reads of a connection run its actions. -/
theorem run_read (p : PendingRequests) (h : HubState) (reads : List (List (AgentMessage S))) :
    Runs.run (read json now) (p, h) reads =
      (Runs.run (HubState.exec json now) h (actionsOf p reads).2).map
        (Prod.mk (actionsOf p reads).1) := by
  induction reads generalizing p h with
  | nil => rfl
  | cons ms reads ih =>
    rw [Runs.run_cons, read_eq, actionsOf_cons, Runs.run_append]
    rcases Runs.run (HubState.exec json now) h
      ((Runs.byDelay (dispatchAll p ms).2).map Prod.snd) with
      _ | t
    · rfl
    · exact ih (dispatchAll p ms).1 t

/-- In calm reads, a channel sees the messages one by one. -/
theorem run_onCell_actionsOf (c : ChannelId) {p : PendingRequests}
    {reads : List (List (AgentMessage S))}
    (hcalm : CalmReads p reads) (x : Cell) :
    Runs.run (fun x a ↦ Action.onCell json now c x a) x (actionsOf p reads).2 =
      Runs.run (fun x a ↦ Action.onCell json now c x a) x
        ((dispatchAll p reads.flatten).2.map Prod.snd) := by
  induction reads generalizing p x with
  | nil => rfl
  | cons ms reads ih =>
    obtain ⟨hms, hreads⟩ := hcalm
    rw [List.flatten_cons, dispatchAll_append, actionsOf_cons, List.map_append, Runs.run_append,
      Runs.run_append]
    have hpair : (dispatchAll p ms).2.Pairwise fun x y ↦ y.1 < x.1 →
        Runs.Exchange (fun x a ↦ Action.onCell json now c x a) (fun _ ↦ True) x.2 y.2 :=
      hms.imp fun hxy hlt ↦ (hxy hlt c).exchange json now
    rw [Runs.run_byDelay (fun _ _ _ _ _ ↦ trivial) hpair trivial]
    exact congrArg _ (funext fun y ↦ ih hreads y)

/-- What the claims compare: the pending requests and what each channel sees. -/
def observe (s : PendingRequests × HubState) : PendingRequests × (ChannelId → Cell) :=
  (s.1, s.2.cells)

/-- **Reads are invisible** where they are calm: the hub ends as when every message comes in a read
of its own. -/
theorem read_singletons_of_calm {h : HubState} (hord : h.Ordered) {p : PendingRequests}
    {reads : List (List (AgentMessage S))} (hcalm : CalmReads p reads) :
    (Runs.run (read json now) (p, h) reads).map observe =
      (Runs.run (read json now) (p, h) (reads.flatten.map fun m ↦ [m])).map observe := by
  have hcells :=
    map_cells_run_eq json now hord fun c ↦ run_onCell_actionsOf json now c hcalm (h.cells c)
  have hobserve : ∀ (q : PendingRequests) (o : Option HubState),
      (o.map (Prod.mk q)).map observe = (o.map HubState.cells).map (Prod.mk q) := by
    intro q o
    rw [Option.map_map, Option.map_map]
    rfl
  rw [run_read, run_read, actionsOf_singletons, actionsOf_pending, hobserve, hobserve, hcells]

end Grouping

/-! ### Reads that show -/

/-- A hub with one channel, live or dead. -/
def oneChannel (status : ChannelStatus) : HubState where
  channels c := if c = "c" ∧ status = .live then some .live else none
  rows c := if c = "c" then some status else none
  scheduler c := c = "c" && status = .live
  chunker :=
    if status = .live then (OutputChunker.new .empty).trackChannel "c" none else .new .empty

theorem oneChannel_ordered (status : ChannelStatus) : (oneChannel status).Ordered := by
  intro c
  rw [oneChannel]
  dsimp only
  split
  · rw [OutputChunker.lanes_trackChannel]
    by_cases hc : c = "c"
    · subst hc
      rw [Function.update_self]
      exact Lane.ordered_track Lane.ordered_empty
    · rw [Function.update_of_ne hc]
      exact Lane.ordered_empty
  · exact Lane.ordered_empty

/-- One pending request. -/
def onePending (key : String) (request : Pending) : PendingRequests :=
  Function.update (fun _ ↦ none) key (some request)

/-- A restarted shell that exits at once stays live, and the first output of a respawned one is
lost, when the message comes in the read of SPAWN_OK. -/
theorem reads_visible :
    ((Runs.run (read quotedJson 0) (onePending "r" (.restart "c"), oneChannel .live)
        [[⟨some "r", .spawnOk "c"⟩, ⟨none, .channelExit "c"⟩]]).map fun s ↦
          (s.2.channels "c", s.2.rows "c", s.2.scheduler "c")) =
            some (some .live, some .live, true) ∧
    ((Runs.run (read quotedJson 0) (onePending "r" (.restart "c"), oneChannel .live)
        [[⟨some "r", .spawnOk "c"⟩], [⟨none, .channelExit "c"⟩]]).map fun s ↦
          (s.2.channels "c", s.2.rows "c", s.2.scheduler "c")) =
            some (some .dead, some .dead, false) ∧
    ((Runs.run (read quotedJson 0) (onePending "r" (.respawn "c"), oneChannel .dead)
        [[⟨some "r", .spawnOk "c"⟩, ⟨none, .output "c" [36, 32]⟩]]).map fun s ↦
          s.2.chunker.buffered "c") = some [] ∧
    ((Runs.run (read quotedJson 0) (onePending "r" (.respawn "c"), oneChannel .dead)
        [[⟨some "r", .spawnOk "c"⟩], [⟨none, .output "c" [36, 32]⟩]]).map fun s ↦
          s.2.chunker.buffered "c") = some [36, 32] := by
  refine ⟨?_, ?_, ?_, ?_⟩
  · rfl
  · rfl
  · rfl
  · rfl

/-- An attach that is answered, and the exit of its channel right behind. -/
def attachExit : List (AgentMessage (List UInt8)) :=
  [⟨none, .attachOk "c" [36] 0⟩, ⟨none, .channelExit "c"⟩]

/-- An attach and an exit in one read: storing the snapshot and closing the channel commute. -/
theorem attach_exit_invisible :
    CalmReads (onePending "attach:c" (.attach "c")) [attachExit] ∧
      (Runs.run (read quotedJson 0) (onePending "attach:c" (.attach "c"), oneChannel .live)
        [attachExit]).map observe =
      (Runs.run (read quotedJson 0) (onePending "attach:c" (.attach "c"), oneChannel .live)
        (attachExit.map fun m ↦ [m])).map observe := by
  have hcalm : CalmReads (onePending "attach:c" (.attach "c")) [attachExit] := by
    refine ⟨?_, trivial⟩
    change List.Pairwise _ [(1, Action.attached "c" [36] 0), (0, Action.exited "c")]
    rw [List.pairwise_pair]
    intro _ c
    left
    change Kind.commutes (if "c" = c then .stored else .idle)
      (if "c" = c then .exited else .idle) = true
    split
    · rfl
    · rfl
  exact ⟨hcalm, read_singletons_of_calm quotedJson 0 (oneChannel_ordered .live) hcalm⟩

end Lasterm.Hub
