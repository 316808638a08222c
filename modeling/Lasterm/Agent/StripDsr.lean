import Lasterm.Agent.Pipeline
import Lasterm.Library.WordRemoval

/-!
# Queries in the output

`handler.rs`: a reader task takes the queries `ESC [ 6 n` out of what it reads, each read by itself,
and forwards the rest. `forwards` are the events it sends for its reads.

`strip_dsr` is the removal of a word that does not overlap with itself. So what is forwarded is the
stream without its queries if and only if no query begins in one read and ends in a later one; and a
query is left in it, or formed, in just one more case: the four bytes of one stand in the stream
around whole queries (`forwards_clean_iff`).
-/

namespace Lasterm.Agent

open WordRemoval

/-- The loop of a reader task over its reads. -/
def forwards (c : String) : ℕ → List (List UInt8) → List OutputEvent
  | _, [] => []
  | seq, raw :: reads =>
    if stripDsr raw = [] then forwards c (seq + 1) reads
    else ⟨c, seq + 1, stripDsr raw⟩ :: forwards c (seq + 1) reads

/-- The bytes of a stream that are no part of a query. -/
noncomputable def otherBytes (stream : List UInt8) : List UInt8 :=
  uncovered 0x1b [0x5b, 0x36, 0x6e] stream

/-- A query begins in one read and ends in a later one. -/
def QueryAcrossReads (reads : List (List UInt8)) : Prop := Straddled 0x1b [0x5b, 0x36, 0x6e] reads

/-- The bytes of a query, in order, with whole queries and nothing else between them. -/
def QueryAroundQueries (stream : List UInt8) : Prop := Interrupted 0x1b [0x5b, 0x36, 0x6e] stream

/-! ## One read -/

theorem escape_notMem : (0x1b : UInt8) ∉ [0x5b, 0x36, 0x6e] := by decide

theorem stripLoop_eq_remove (data : List UInt8) :
    stripLoop data = remove 0x1b [0x5b, 0x36, 0x6e] data := by
  induction data using remove_induction (0x1b : UInt8) [0x5b, 0x36, 0x6e] with
  | nil => rw [stripLoop, remove_nil]
  | word text ih =>
    have hquery : DSR <+: 0x1b :: ([0x5b, 0x36, 0x6e] ++ text) := List.prefix_append DSR text
    rw [remove_word, ← ih, List.cons_append, stripLoop, if_pos hquery]
    rfl
  | letter b text h ih =>
    have hquery : ¬DSR <+: b :: text := h
    rw [remove_cons h, stripLoop, if_neg hquery, ih]

theorem stripDsr_eq_remove (data : List UInt8) :
    stripDsr data = remove 0x1b [0x5b, 0x36, 0x6e] data := by
  rw [stripDsr]
  split
  · exact stripLoop_eq_remove data
  · rename_i h
    exact (remove_eq_self h).symm

/-! ## The reads of a channel -/

theorem flatMap_data_forwards (c : String) (seq : ℕ) (reads : List (List UInt8)) :
    (forwards c seq reads).flatMap OutputEvent.data
      = (reads.map (remove 0x1b [0x5b, 0x36, 0x6e])).flatten := by
  induction reads generalizing seq with
  | nil => rfl
  | cons raw reads ih =>
    rw [forwards, List.map_cons, List.flatten_cons, ← stripDsr_eq_remove]
    split
    · rename_i hempty
      rw [hempty, List.nil_append, ih]
    · rw [List.flatMap_cons, ih]

/-- What the task sends to the batch loop while it reads. -/
theorem run_reads {c : String} {reads : List (List UInt8)} {s s' : AgentState} {r : Reader}
    (hr : s.readers c = some r)
    (hrun : Runs.run AgentState.step s (reads.map (AgentEvent.read c)) = some s') :
    s'.batch.rx = s.batch.rx ++ forwards c r.seq reads := by
  induction reads generalizing s r with
  | nil =>
    rw [List.map_nil, Runs.run_nil, Option.some.injEq] at hrun
    rw [forwards, List.append_nil, hrun]
  | cons raw reads ih =>
    rw [List.map_cons, Runs.run_cons, Option.bind_eq_some_iff] at hrun
    obtain ⟨t, ht, hrun⟩ := hrun
    obtain ⟨r', hr', -, -, rfl⟩ := AgentState.step_read ht
    obtain rfl : r = r' := Option.some.inj (hr.symm.trans hr')
    rw [AgentState.read] at hrun
    by_cases hempty : stripDsr raw = []
    · rw [if_pos hempty] at hrun
      rw [ih (AgentState.readers_setReader_self _ _ _) hrun, forwards, if_pos hempty]
      rfl
    · rw [if_neg hempty] at hrun
      let r' : Reader := { r with seq := r.seq + 1, mirror := r.mirror.process (stripDsr raw) }
      refine (ih (r := r') ?_ hrun).trans ?_
      · exact AgentState.readers_setReader_self s c r'
      · rw [forwards, if_neg hempty, BatchLoop.send, List.append_assoc, List.singleton_append]

theorem forwards_clean_iff (c : String) (seq : ℕ) (reads : List (List UInt8)) :
    (¬DSR <:+: (forwards c seq reads).flatMap OutputEvent.data ∧
        (forwards c seq reads).flatMap OutputEvent.data = otherBytes reads.flatten) ↔
      ¬QueryAcrossReads reads ∧ ¬QueryAroundQueries reads.flatten := by
  have hsplit := flatten_map_remove_iff escape_notMem reads
  have hinfix : DSR <:+: remove 0x1b [0x5b, 0x36, 0x6e] reads.flatten ↔
      QueryAroundQueries reads.flatten := infix_remove_iff escape_notMem reads.flatten
  rw [flatMap_data_forwards, otherBytes, ← remove_eq_uncovered escape_notMem, hsplit, and_comm]
  refine and_congr_right fun hnot ↦ ?_
  rw [hsplit.mpr hnot, hinfix]

theorem forwards_query_across_reads :
    ¬∀ (c : String) (seq : ℕ) (reads : List (List UInt8)),
      ¬DSR <:+: (forwards c seq reads).flatMap OutputEvent.data ∧
        (forwards c seq reads).flatMap OutputEvent.data = otherBytes reads.flatten :=
  fun h ↦ absurd ((h "c" 0 [[0x1b, 0x5b], [0x36, 0x6e]]).1) (by decide)

end Lasterm.Agent
