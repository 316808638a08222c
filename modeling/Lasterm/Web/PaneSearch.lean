import Lasterm.Library.RoundRobin
import Lasterm.Web.PaneTree

/-!
# Search across panes

`useMultiPaneSearch` of the web client. Every pane of a tab searches its own terminal, with a match
of its own that is the current one. "Find next" goes on in the pane of the current match, and from
the last match there to the next pane that has matches, in the order of the layout.

The panes with matches are a ring of the library: the matches of a pane are the items of its slot,
and the way back goes through the reversed lists (`ring`). A step of the search is a step of the
ring (`ring_advance`). After a search every pane is at its first match, which is the last one on the
way back, but on the way forth makes all panes start with their second one.
-/

namespace Lasterm.Web

open RoundRobin

/-! ## One pane -/

/-- What a pane has of `useTerminalSearch`, with the addon that finds the matches. -/
structure PaneSearchHandle where
  /-- How often the addon finds a query in the terminal. -/
  resultCount : String → ℕ
  query : String
  matchCount : ℕ
  currentMatch : ℕ

namespace PaneSearchHandle

/-- The index is `-1` if there is none. -/
def onDidChangeResults (h : PaneSearchHandle) (resultCount : ℕ) (resultIndex : ℤ) :
    PaneSearchHandle :=
  { h with
    matchCount := resultCount
    currentMatch := if 0 ≤ resultIndex then (resultIndex + 1).toNat else 0 }

/-- The addon starts with the first match. -/
def search (h : PaneSearchHandle) (q : String) : PaneSearchHandle :=
  if q = "" then { h with query := q, matchCount := 0, currentMatch := 0 }
  else
    { h with query := q }.onDidChangeResults (h.resultCount q)
      (if h.resultCount q = 0 then -1 else 0)

/-- The addon goes on to the next match and from the last one to the first. -/
def findNext (h : PaneSearchHandle) : PaneSearchHandle :=
  if h.query = "" then h
  else
    h.onDidChangeResults h.matchCount
      (if h.matchCount = 0 then -1 else (h.currentMatch % h.matchCount : ℕ))

/-- The addon goes back to the match before and from the first one to the last. -/
def findPrevious (h : PaneSearchHandle) : PaneSearchHandle :=
  if h.query = "" then h
  else
    h.onDidChangeResults h.matchCount
      (if h.currentMatch ≤ 1 then (h.matchCount : ℤ) - 1 else (h.currentMatch : ℤ) - 2)

/-- One of the matches is the current one. -/
structure OnMatch (h : PaneSearchHandle) : Prop where
  query_ne : h.query ≠ ""
  one_le : 1 ≤ h.currentMatch
  le_count : h.currentMatch ≤ h.matchCount

variable {h : PaneSearchHandle}

theorem onMatch_search {q : String} (hcount : 0 < (h.search q).matchCount) :
    (h.search q).OnMatch ∧ (h.search q).currentMatch = 1 := by
  rw [search] at hcount ⊢
  split at hcount
  · cases hcount
  · rename_i hq
    rw [if_neg hq]
    have hne : h.resultCount q ≠ 0 := hcount.ne'
    rw [if_neg hne]
    exact ⟨⟨hq, le_rfl, hcount⟩, rfl⟩

@[simp] theorem matchCount_findNext (h : PaneSearchHandle) :
    h.findNext.matchCount = h.matchCount := by
  rw [findNext]
  split <;> rfl

@[simp] theorem matchCount_findPrevious (h : PaneSearchHandle) :
    h.findPrevious.matchCount = h.matchCount := by
  rw [findPrevious]
  split <;> rfl

@[simp] theorem query_findNext (h : PaneSearchHandle) : h.findNext.query = h.query := by
  rw [findNext]
  split <;> rfl

@[simp] theorem query_findPrevious (h : PaneSearchHandle) : h.findPrevious.query = h.query := by
  rw [findPrevious]
  split <;> rfl

namespace OnMatch

instance : Decidable h.OnMatch :=
  decidable_of_iff (h.query ≠ "" ∧ 1 ≤ h.currentMatch ∧ h.currentMatch ≤ h.matchCount)
    ⟨fun ⟨hquery, hone, hcount⟩ ↦ ⟨hquery, hone, hcount⟩,
      fun hm ↦ ⟨hm.query_ne, hm.one_le, hm.le_count⟩⟩

theorem count_pos (hm : h.OnMatch) : 0 < h.matchCount := hm.one_le.trans hm.le_count

theorem currentMatch_findNext (hm : h.OnMatch) :
    h.findNext.currentMatch = h.currentMatch % h.matchCount + 1 := by
  rw [findNext, if_neg hm.query_ne, if_neg hm.count_pos.ne', onDidChangeResults]
  dsimp only
  rw [if_pos (Int.natCast_nonneg _), Int.toNat_natCast_add_one]

theorem currentMatch_findPrevious (hm : h.OnMatch) :
    h.findPrevious.currentMatch
      = if h.currentMatch ≤ 1 then h.matchCount else h.currentMatch - 1 := by
  have hpos := hm.count_pos
  rw [findPrevious, if_neg hm.query_ne, onDidChangeResults]
  dsimp only
  split <;> split <;> omega

end OnMatch

end PaneSearchHandle

/-! ## Directions -/

inductive SearchDirection where
  | next
  | previous

namespace SearchDirection

def move : SearchDirection → PaneSearchHandle → PaneSearchHandle
  | next => PaneSearchHandle.findNext
  | previous => PaneSearchHandle.findPrevious

def atBoundary : SearchDirection → PaneSearchHandle → Bool
  | next, h => h.currentMatch ≥ h.matchCount
  | previous, h => h.currentMatch ≤ 1

/-- The offset is at most the length. -/
def nextIdx : SearchDirection → ℕ → ℕ → ℕ → ℕ
  | next, length, startIdx, offset => (startIdx + offset) % length
  | previous, length, startIdx, offset => (startIdx + length - offset) % length

variable {h : PaneSearchHandle}

@[simp] theorem matchCount_move (direction : SearchDirection) (h : PaneSearchHandle) :
    (direction.move h).matchCount = h.matchCount := by
  cases direction
  · exact h.matchCount_findNext
  · exact h.matchCount_findPrevious

theorem onMatch_move (direction : SearchDirection) (hm : h.OnMatch) :
    (direction.move h).OnMatch := by
  have hone := hm.one_le
  have hcount := hm.le_count
  cases direction with
  | next =>
    have hlt := Nat.mod_lt h.currentMatch hm.count_pos
    refine ⟨h.query_findNext ▸ hm.query_ne, ?_, ?_⟩
    · rw [move, hm.currentMatch_findNext]
      omega
    · rw [move, hm.currentMatch_findNext, h.matchCount_findNext]
      exact hlt
  | previous =>
    refine ⟨h.query_findPrevious ▸ hm.query_ne, ?_, ?_⟩
    · rw [move, hm.currentMatch_findPrevious]
      split <;> omega
    · rw [move, hm.currentMatch_findPrevious, h.matchCount_findPrevious]
      split <;> omega

end SearchDirection

/-! ## The slot of a pane -/

/-- The matches of a pane. -/
def paneMatches (id : String) (matchCount : ℕ) : List (String × ℕ) :=
  (List.range' 1 matchCount).map (id, ·)

namespace SearchDirection

/-- The order in which the direction goes through a list. -/
def order {α : Type*} : SearchDirection → List α → List α
  | next, l => l
  | previous, l => l.reverse

variable (direction : SearchDirection)

theorem order_flatMap {α β : Type*} (l : List α) (f : α → List β) :
    direction.order (l.flatMap f) = (direction.order l).flatMap fun a ↦ direction.order (f a) := by
  cases direction
  · rfl
  · exact List.reverse_flatMap

theorem order_perm {α : Type*} (l : List α) : (direction.order l).Perm l := by
  cases direction
  · exact .refl l
  · exact List.reverse_perm l

def matchesOf (direction : SearchDirection) (id : String) (matchCount : ℕ) : List (String × ℕ) :=
  direction.order (paneMatches id matchCount)

/-- How many matches come before the current one. -/
def pos : SearchDirection → PaneSearchHandle → ℕ
  | next, h => h.currentMatch - 1
  | previous, h => h.matchCount - h.currentMatch

@[simp] theorem length_matchesOf (id : String) (matchCount : ℕ) :
    (direction.matchesOf id matchCount).length = matchCount := by
  rw [matchesOf, (direction.order_perm _).length_eq, paneMatches, List.length_map,
    List.length_range']

end SearchDirection

namespace PaneSearchHandle.OnMatch

variable {h : PaneSearchHandle}

def slot (hm : h.OnMatch) (direction : SearchDirection) (id : String) : Slot (String × ℕ) where
  items := direction.matchesOf id h.matchCount
  pos := direction.pos h
  pos_lt := by
    have hone := hm.one_le
    have hcount := hm.le_count
    rw [SearchDirection.length_matchesOf]
    cases direction <;> rw [SearchDirection.pos] <;> omega

section

variable (hm : h.OnMatch)
include hm

@[simp] theorem items_slot (direction : SearchDirection) (id : String) :
    (hm.slot direction id).items = direction.matchesOf id h.matchCount := rfl

@[simp] theorem pos_slot (direction : SearchDirection) (id : String) :
    (hm.slot direction id).pos = direction.pos h := rfl

theorem slot_move (direction : SearchDirection) (id : String) :
    (direction.onMatch_move hm).slot direction id = (hm.slot direction id).advance := by
  have hone := hm.one_le
  have hcount := hm.le_count
  refine Slot.ext_pos (congrArg (direction.matchesOf id) (direction.matchCount_move h)) ?_
  rw [Slot.pos_advance, items_slot, pos_slot, pos_slot, direction.length_matchesOf]
  cases direction with
  | next =>
    rw [SearchDirection.pos, SearchDirection.move, hm.currentMatch_findNext, SearchDirection.pos,
      Nat.sub_add_cancel hone]
    rfl
  | previous =>
    rw [SearchDirection.pos, SearchDirection.move, hm.currentMatch_findPrevious,
      h.matchCount_findPrevious, SearchDirection.pos]
    split
    · have hlast : h.matchCount - h.currentMatch + 1 = h.matchCount := by omega
      rw [hlast, Nat.mod_self, Nat.sub_self]
    · rw [Nat.mod_eq_of_lt (by omega)]
      omega

theorem atBoundary_iff (direction : SearchDirection) (id : String) :
    direction.atBoundary h = true ↔ (hm.slot direction id).AtEnd := by
  have hone := hm.one_le
  have hcount := hm.le_count
  rw [Slot.AtEnd, items_slot, pos_slot, direction.length_matchesOf]
  cases direction <;> rw [SearchDirection.atBoundary, SearchDirection.pos, decide_eq_true_eq] <;>
    omega

theorem current_slot (direction : SearchDirection) (id : String) :
    (hm.slot direction id).current = (id, h.currentMatch) := by
  have hone := hm.one_le
  have hcount := hm.le_count
  rw [Slot.current, List.get_eq_getElem]
  cases direction with
  | next =>
    have hidx : 1 + (h.currentMatch - 1) = h.currentMatch := by omega
    simp [SearchDirection.matchesOf, SearchDirection.order, SearchDirection.pos, paneMatches, hidx]
  | previous =>
    have hidx : 1 + (h.matchCount - 1 - (h.matchCount - h.currentMatch)) = h.currentMatch := by
      omega
    simp [SearchDirection.matchesOf, SearchDirection.order, SearchDirection.pos, paneMatches, hidx]

end

end PaneSearchHandle.OnMatch

/-! ## All panes -/

structure MultiPaneSearch where
  handles : OrderedMap String PaneSearchHandle
  matchPaneChannelId : Option String
  /-- The channels `onFocusPane` is called with. -/
  focused : List String

def getOrderedIds (layoutNode : Option PaneNode) : List String :=
  match layoutNode with
  | none => []
  | some root => root.collectTerminalChannelIds

namespace MultiPaneSearch

variable (s : MultiPaneSearch)

def searchAll (query : String) (layoutNode : Option PaneNode) :
    MultiPaneSearch :=
  let orderedIds := getOrderedIds layoutNode
  { s with
    handles := orderedIds.foldl (fun hs id ↦ hs.modify id (·.search query)) s.handles
    matchPaneChannelId := none }

/-- `handle && handle.matchCount.value > 0`. -/
def hasMatches (id : String) : Bool :=
  match s.handles.get id with
  | none => false
  | some handle => handle.matchCount > 0

/-- The pane has a match to go on to. -/
def canMove (direction : SearchDirection) (id : String) : Bool :=
  match s.handles.get id with
  | none => false
  | some handle => handle.matchCount > 0 && !direction.atBoundary handle

def moveAt (direction : SearchDirection) (id : String) : MultiPaneSearch :=
  { s with handles := s.handles.modify id direction.move, matchPaneChannelId := some id }

/-- The loop over the other panes, which comes back to the first one at the end. -/
def nextPeer (direction : SearchDirection) (orderedIds : List String)
    (startIdx : ℕ) : Option (ℕ × String) :=
  (List.range' 1 orderedIds.length).findSome? fun offset ↦
    let idx := direction.nextIdx orderedIds.length startIdx offset
    match orderedIds[idx]? with
    | none => none
    | some peerId => if s.hasMatches peerId then some (idx, peerId) else none

def navigateMatches (direction : SearchDirection) (currentChannelId : String)
    (layoutNode : Option PaneNode) : MultiPaneSearch :=
  let orderedIds := getOrderedIds layoutNode
  let startIdx := if currentChannelId ∈ orderedIds then orderedIds.idxOf currentChannelId else 0
  match orderedIds[startIdx]? with
  | none => s
  | some startId =>
    if s.canMove direction startId then s.moveAt direction startId
    else
      match s.nextPeer direction orderedIds startIdx with
      | some (idx, peerId) =>
        let s := s.moveAt direction peerId
        if idx ≠ startIdx then { s with focused := s.focused ++ [peerId] } else s
      | none => if s.hasMatches startId then s.moveAt direction startId else s

def findNextAll (currentChannelId : String) (layoutNode : Option PaneNode) :
    MultiPaneSearch :=
  s.navigateMatches .next currentChannelId layoutNode

def findPreviousAll (currentChannelId : String) (layoutNode : Option PaneNode) : MultiPaneSearch :=
  s.navigateMatches .previous currentChannelId layoutNode

/-- How many matches a pane has; none if it has registered no handle. -/
def matchCountOf (id : String) : ℕ :=
  ((s.handles.get id).map PaneSearchHandle.matchCount).getD 0

/-- All matches, pane by pane. -/
def allMatches (orderedIds : List String) : List (String × ℕ) :=
  orderedIds.flatMap fun id ↦ paneMatches id (s.matchCountOf id)

end MultiPaneSearch

/-! ## Runs -/

/-- A search, and the pane that the next step is called with. -/
structure SearchRun where
  search : MultiPaneSearch
  currentChannelId : String

namespace SearchRun

/-- A step is called with the pane that the step before it has found. -/
def advance (direction : SearchDirection) (root : PaneNode) (r : SearchRun) : SearchRun :=
  let s := match direction with
    | .next => r.search.findNextAll r.currentChannelId (some root)
    | .previous => r.search.findPreviousAll r.currentChannelId (some root)
  ⟨s, s.matchPaneChannelId.getD r.currentChannelId⟩

/-- The current match of the pane. -/
def current (r : SearchRun) : Option (String × ℕ) :=
  (r.search.handles.get r.currentChannelId).map fun handle ↦
    (r.currentChannelId, handle.currentMatch)

/-- The matches that `n` steps find. -/
def visits (direction : SearchDirection) (root : PaneNode) : ℕ → SearchRun → List (String × ℕ)
  | 0, _ => []
  | n + 1, r => (r.advance direction root).current.toList
      ++ visits direction root n (r.advance direction root)

/-- In both directions, and whenever they begin, as many steps as there are matches find each match
once, pane by pane in the order of the layout or the other way round. -/
def VisitsAll (root : PaneNode) (r : SearchRun) : Prop :=
  let found := r.search.allMatches root.collectTerminalChannelIds
  ∀ direction k,
    visits direction root found.length ((advance direction root)^[k] r) ~r direction.order found

end SearchRun

/-! ## The order of the panes -/

/-- The other panes, from the one behind `c` on. -/
def panesBehind (orderedIds : List String) (c : String) : List String :=
  (orderedIds.rotate (orderedIds.idxOf c)).tail

/-- The other panes as the direction goes through them. -/
def SearchDirection.behind (direction : SearchDirection) (orderedIds : List String) (c : String) :
    List String :=
  direction.order (panesBehind orderedIds c)

section Order

variable {ids A B : List String} {c p : String} (direction : SearchDirection)

theorem rotate_idxOf (h : c ∈ ids) : ids.rotate (ids.idxOf c) = c :: panesBehind ids c := by
  have hlt := List.idxOf_lt_length_iff.mpr h
  have hhead : (ids.rotate (ids.idxOf c)).head? = some c := by
    rw [List.head?_rotate hlt, List.getElem?_eq_getElem hlt, List.getElem_idxOf]
  exact List.eq_cons_of_mem_head? hhead

theorem perm_panesBehind (h : c ∈ ids) : (c :: panesBehind ids c).Perm ids := by
  rw [← rotate_idxOf h]
  exact List.rotate_perm ids _

/-- A rotation of distinct panes is known by its first one. -/
theorem panesBehind_eq (hids : ids.Nodup) {k : ℕ} (h : ids.rotate k = p :: B) :
    panesBehind ids p = B := by
  have hne : ids ≠ [] := by
    rintro rfl
    rw [List.rotate_nil] at h
    cases h
  have hlt := Nat.mod_lt k (List.length_pos_of_ne_nil hne)
  have hhead : ids[k % ids.length]? = some p := by
    rw [← List.head?_rotate hlt, List.rotate_mod, h, List.head?_cons]
  have hidx : ids.idxOf p = k % ids.length := by
    obtain ⟨hlt', rfl⟩ := List.getElem?_eq_some_iff.mp hhead
    exact hids.idxOf_getElem _ hlt'
  rw [panesBehind, hidx, List.rotate_mod, h, List.tail_cons]

theorem panesBehind_of_panesBehind (hids : ids.Nodup) (hc : c ∈ ids)
    (h : panesBehind ids c = A ++ p :: B) : panesBehind ids p = B ++ c :: A := by
  have hrotate := rotate_idxOf hc
  rw [h] at hrotate
  refine panesBehind_eq hids (k := ids.idxOf c + (c :: A).length) ?_
  rw [← List.rotate_rotate, hrotate, ← List.cons_append, List.rotate_append_length_eq,
    List.cons_append]

theorem SearchDirection.behind_of_behind (hids : ids.Nodup)
    (hc : c ∈ ids) (h : direction.behind ids c = A ++ p :: B) :
    direction.behind ids p = B ++ c :: A := by
  cases direction with
  | next => exact panesBehind_of_panesBehind hids hc h
  | previous =>
    have hforth : panesBehind ids c = B.reverse ++ p :: A.reverse := by
      rw [← List.reverse_reverse (panesBehind ids c)]
      rw [behind, order] at h
      rw [h, List.reverse_append, List.reverse_cons, List.append_assoc, List.singleton_append]
    rw [behind, order, panesBehind_of_panesBehind hids hc hforth, List.reverse_append,
      List.reverse_cons, List.reverse_reverse, List.reverse_reverse, List.append_assoc,
      List.singleton_append]

theorem SearchDirection.perm_behind (h : c ∈ ids) : (c :: direction.behind ids c).Perm ids :=
  ((direction.order_perm _).cons c).trans (perm_panesBehind h)

theorem SearchDirection.isRotated_behind (h : c ∈ ids) :
    (c :: direction.behind ids c) ~r direction.order ids := by
  have hrotated : ids ~r c :: panesBehind ids c := ⟨_, rotate_idxOf h⟩
  cases direction with
  | next => exact hrotated.symm
  | previous =>
    have hlast : c :: (panesBehind ids c).reverse ~r (panesBehind ids c).reverse ++ [c] :=
      ⟨1, by rw [List.rotate_cons_succ, List.rotate_zero]⟩
    rw [← List.reverse_cons] at hlast
    exact hlast.trans hrotated.symm.reverse

/-- The loop goes through the panes behind and comes back at the end. -/
theorem SearchDirection.getElem?_nextIdx (hc : c ∈ ids) {o : ℕ} (ho : o < ids.length) :
    ids[direction.nextIdx ids.length (ids.idxOf c) (o + 1)]?
      = (direction.behind ids c ++ [c])[o]? := by
  have hrotate := rotate_idxOf hc
  cases direction with
  | next =>
    have hpeers : panesBehind ids c ++ [c] = ids.rotate (ids.idxOf c + 1) := by
      rw [← List.rotate_rotate, hrotate, List.rotate_cons_succ, List.rotate_zero]
    rw [behind, order, hpeers, List.getElem?_rotate ho, nextIdx, Nat.add_left_comm]
  | previous =>
    have hpeers : (panesBehind ids c).reverse ++ [c] = (ids.rotate (ids.idxOf c)).reverse := by
      rw [hrotate, List.reverse_cons]
    have hidx : ids.idxOf c + ids.length - (o + 1) = ids.length - 1 - o + ids.idxOf c := by omega
    rw [behind, order, hpeers, List.getElem?_reverse (by rwa [List.length_rotate]),
      List.length_rotate, List.getElem?_rotate (by omega), nextIdx, hidx]

end Order

/-! ## The ring of the panes with matches -/

namespace MultiPaneSearch

variable {s : MultiPaneSearch} {direction : SearchDirection} {ids : List String} {c p : String}
  {h : PaneSearchHandle}

/-- Every pane with matches is at one of them. -/
def Valid (s : MultiPaneSearch) (ids : List String) : Prop :=
  ∀ id ∈ ids, ∀ h, s.handles.get id = some h → 0 < h.matchCount → h.OnMatch

/-- A pane without matches has no slot. -/
def slot (s : MultiPaneSearch) (direction : SearchDirection) (id : String) :
    Option (Slot (String × ℕ)) :=
  (s.handles.get id).bind fun h ↦ if hm : h.OnMatch then some (hm.slot direction id) else none

/-- The panes with matches, from the one called `c` on. -/
def ring (s : MultiPaneSearch) (direction : SearchDirection) (ids : List String) (c : String) :
    List (Slot (String × ℕ)) :=
  (c :: direction.behind ids c).filterMap (s.slot direction)

theorem hasMatches_iff :
    s.hasMatches p = true ↔ ∃ h, s.handles.get p = some h ∧ 0 < h.matchCount := by
  rw [hasMatches]
  cases s.handles.get p <;> simp

theorem slot_eq_some (hget : s.handles.get p = some h) (hm : h.OnMatch) :
    s.slot direction p = some (hm.slot direction p) := by
  rw [slot, hget, Option.bind_some, dif_pos hm]

theorem slot_eq_none (hnot : s.hasMatches p = false) : s.slot direction p = none := by
  rw [slot, Option.bind_eq_none_iff]
  intro h hget
  refine dif_neg fun hm ↦ ?_
  rw [hasMatches_iff.mpr ⟨h, hget, hm.count_pos⟩] at hnot
  cases hnot

theorem Valid.exists_onMatch (hvalid : s.Valid ids) (hp : p ∈ ids) (hmatches : s.hasMatches p) :
    ∃ h : PaneSearchHandle, h.OnMatch ∧ s.handles.get p = some h := by
  obtain ⟨h, hget, hpos⟩ := hasMatches_iff.mp hmatches
  exact ⟨h, hvalid p hp h hget hpos, hget⟩

theorem get_moveAt (s : MultiPaneSearch) (direction : SearchDirection) (p id : String) :
    (s.moveAt direction p).handles.get id
      = if p = id then (s.handles.get id).map direction.move else s.handles.get id :=
  s.handles.get_modify p id direction.move

theorem slot_moveAt_self (hget : s.handles.get p = some h) (hm : h.OnMatch) :
    (s.moveAt direction p).slot direction p = some (hm.slot direction p).advance := by
  have hmoved : (s.moveAt direction p).handles.get p = some (direction.move h) := by
    rw [get_moveAt, if_pos rfl, hget, Option.map_some]
  rw [slot_eq_some hmoved (direction.onMatch_move hm), hm.slot_move]

theorem filterMap_slot_moveAt {l : List String} (hp : p ∉ l) :
    l.filterMap ((s.moveAt direction p).slot direction) = l.filterMap (s.slot direction) := by
  refine List.filterMap_congr fun id hid ↦ ?_
  have hne : p ≠ id := fun heq ↦ hp (heq ▸ hid)
  rw [slot, get_moveAt, if_neg hne, slot]

theorem matchCountOf_moveAt (s : MultiPaneSearch) (direction : SearchDirection) (p id : String) :
    (s.moveAt direction p).matchCountOf id = s.matchCountOf id := by
  rw [matchCountOf, get_moveAt, matchCountOf]
  cases s.handles.get id with
  | none => split <;> rfl
  | some h =>
    split
    · exact direction.matchCount_move h
    · rfl

theorem hasMatches_eq (s : MultiPaneSearch) (id : String) :
    s.hasMatches id = decide (0 < s.matchCountOf id) := by
  rw [hasMatches, matchCountOf]
  cases s.handles.get id <;> rfl

theorem Valid.moveAt (hvalid : s.Valid ids) (direction : SearchDirection) (p : String) :
    (s.moveAt direction p).Valid ids := by
  intro id hid h hget hpos
  rw [get_moveAt] at hget
  split at hget
  · obtain ⟨h', hget', rfl⟩ := Option.map_eq_some_iff.mp hget
    rw [direction.matchCount_move] at hpos
    exact direction.onMatch_move (hvalid id hid h' hget' hpos)
  · exact hvalid id hid h hget hpos

/-! ### One step -/

theorem findSome?_getElem? {α β : Type*} (l : List α) (f : α → Option β) :
    (List.range' 1 l.length).findSome? (fun o ↦ l[o - 1]?.bind f) = l.findSome? f := by
  have hmap : (List.range' 1 l.length).map (fun o ↦ l[o - 1]?) = l.map some := by
    refine List.ext_getElem (by simp) fun i hi hi' ↦ ?_
    rw [List.length_map] at hi'
    rw [List.getElem_map, List.getElem_range', List.getElem_map, Nat.one_mul,
      Nat.add_sub_cancel_left, List.getElem?_eq_getElem hi']
  have hcomp : (List.range' 1 l.length).findSome? (fun o ↦ l[o - 1]?.bind f)
      = ((List.range' 1 l.length).map fun o ↦ l[o - 1]?).findSome? fun a ↦ a.bind f := by
    rw [List.findSome?_map]
    rfl
  rw [hcomp, hmap, List.findSome?_map]
  rfl

/-- The loop finds the first pane with matches behind the one in front, and that one at last. -/
theorem nextPeer_snd (s : MultiPaneSearch) (direction : SearchDirection) (hc : c ∈ ids) :
    (s.nextPeer direction ids (ids.idxOf c)).map Prod.snd
      = (direction.behind ids c ++ [c]).find? s.hasMatches := by
  have hlength : (direction.behind ids c ++ [c]).length = ids.length := by
    rw [← (direction.perm_behind hc).length_eq, List.length_append, List.length_cons]
    rfl
  rw [nextPeer, List.map_findSome?, List.find?_eq_findSome?_guard,
    ← findSome?_getElem? (direction.behind ids c ++ [c]), hlength, ← List.head?_filterMap,
    ← List.head?_filterMap]
  congr 1
  refine List.filterMap_congr fun offset hoffset ↦ ?_
  obtain ⟨hone, hlt⟩ := List.mem_range'_1.mp hoffset
  have hidx := direction.getElem?_nextIdx hc (o := offset - 1) (by omega)
  rw [Nat.sub_add_cancel hone] at hidx
  rw [← hidx, Function.comp_apply]
  dsimp only
  cases ids[direction.nextIdx ids.length (ids.idxOf c) offset]? with
  | none => rfl
  | some peerId =>
    rw [Option.bind_some, Option.guard]
    dsimp only
    split <;> rfl

/-- A step moves one pane: the one it is called with, or the first one with matches behind it. -/
theorem navigateMatches_eq (direction : SearchDirection) {root : PaneNode}
    (hids : root.collectTerminalChannelIds = ids) (hc : c ∈ ids) (hmatches : s.hasMatches c) :
    ∃ p fs,
      s.navigateMatches direction c (some root) = { s.moveAt direction p with focused := fs } ∧
      (s.canMove direction c = true ∧ p = c ∨
        s.canMove direction c = false ∧
          (direction.behind ids c ++ [c]).find? s.hasMatches = some p) := by
  have hlt := List.idxOf_lt_length_iff.mpr hc
  have hstart : ids[ids.idxOf c]? = some c := by
    rw [List.getElem?_eq_getElem hlt, List.getElem_idxOf]
  rw [navigateMatches, getOrderedIds, hids]
  dsimp only
  rw [if_pos hc, hstart]
  dsimp only
  cases hcan : s.canMove direction c with
  | true => exact ⟨c, s.focused, rfl, .inl ⟨rfl, rfl⟩⟩
  | false =>
    have hfound : ((direction.behind ids c ++ [c]).find? s.hasMatches).isSome :=
      List.find?_isSome.mpr ⟨c, List.mem_append_right _ List.mem_cons_self, hmatches⟩
    obtain ⟨p, hp⟩ := Option.isSome_iff_exists.mp hfound
    have hpeer := s.nextPeer_snd direction hc
    rw [hp] at hpeer
    obtain ⟨⟨idx, p⟩, hnext, rfl⟩ := Option.map_eq_some_iff.mp hpeer
    rw [if_neg Bool.false_ne_true, hnext]
    dsimp only
    split
    · exact ⟨p, _, rfl, .inr ⟨rfl, hp⟩⟩
    · exact ⟨p, s.focused, rfl, .inr ⟨rfl, hp⟩⟩

theorem canMove_iff (hget : s.handles.get c = some h) (hm : h.OnMatch) :
    s.canMove direction c = true ↔ ¬(hm.slot direction c).AtEnd := by
  rw [canMove, hget, ← hm.atBoundary_iff, Bool.not_eq_true]
  simp [hm.count_pos]

variable (hids : ids.Nodup) (hvalid : s.Valid ids) (hc : c ∈ ids)

include hids hc in
theorem not_mem_behind (direction : SearchDirection) : c ∉ direction.behind ids c :=
  (List.nodup_cons.mp ((direction.perm_behind hc).nodup_iff.mpr hids)).1

theorem ring_eq_cons (hget : s.handles.get c = some h) (hm : h.OnMatch) :
    s.ring direction ids c
      = hm.slot direction c :: (direction.behind ids c).filterMap (s.slot direction) := by
  rw [ring, List.filterMap_cons, slot_eq_some hget hm]

include hids hc in
/-- The pane that is moved comes to the head. -/
theorem ring_moveAt_self (hget : s.handles.get c = some h) (hm : h.OnMatch) :
    (s.moveAt direction c).ring direction ids c
      = (hm.slot direction c).advance
        :: (direction.behind ids c).filterMap (s.slot direction) := by
  rw [ring, List.filterMap_cons, slot_moveAt_self hget hm,
    filterMap_slot_moveAt (not_mem_behind hids hc direction)]

include hids hvalid hc in
/-- A step that stays in its pane. -/
theorem ring_moveAt_of_canMove (hmatches : s.hasMatches c) (hcan : s.canMove direction c = true) :
    (s.moveAt direction c).ring direction ids c = step (s.ring direction ids c) := by
  obtain ⟨h, hm, hget⟩ := hvalid.exists_onMatch hc hmatches
  have hlt : (hm.slot direction c).pos + 1 < (hm.slot direction c).items.length :=
    lt_of_le_of_ne (hm.slot direction c).pos_lt ((canMove_iff hget hm).mp hcan)
  rw [ring_moveAt_self hids hc hget hm, ring_eq_cons hget hm, step_of_lt hlt]

include hids hvalid hc in
/-- A step to the first of the panes behind that has matches. -/
theorem ring_moveAt_of_find (hmatches : s.hasMatches c) (hcan : s.canMove direction c = false)
    (hfind : (direction.behind ids c ++ [c]).find? s.hasMatches = some p) :
    p ∈ ids ∧ s.hasMatches p ∧
      (s.moveAt direction p).ring direction ids p = step (s.ring direction ids c) := by
  obtain ⟨h, hm, hget⟩ := hvalid.exists_onMatch hc hmatches
  have hend : (hm.slot direction c).AtEnd := by
    rw [← not_not (a := Slot.AtEnd _), ← canMove_iff hget hm, hcan]
    exact Bool.false_ne_true
  rw [ring_eq_cons hget hm]
  obtain ⟨hp, A, B, hsplit, hdead⟩ := List.find?_eq_some_iff_append.mp hfind
  have hnone : A.filterMap (s.slot direction) = [] :=
    List.filterMap_eq_nil_iff.mpr fun a ha ↦ slot_eq_none (by simpa using hdead a ha)
  obtain hbehind | ⟨hbehind, rfl⟩ :
      (∃ B', direction.behind ids c = A ++ p :: B') ∨ direction.behind ids c = A ∧ p = c := by
    rcases List.eq_nil_or_concat' B with rfl | ⟨B', b, rfl⟩
    · obtain ⟨hbehind, hlast⟩ := List.append_inj' hsplit rfl
      exact .inr ⟨hbehind, (List.cons_eq_cons.mp hlast).1.symm⟩
    · rw [← List.cons_append, ← List.append_assoc] at hsplit
      exact .inl ⟨B', (List.append_inj' hsplit rfl).1⟩
  · obtain ⟨B', hbehind⟩ := hbehind
    have hpids : p ∈ ids := by
      rw [← (direction.perm_behind hc).mem_iff, hbehind]
      simp
    obtain ⟨h', hm', hget'⟩ := hvalid.exists_onMatch hpids hp
    refine ⟨hpids, hp, ?_⟩
    rw [ring_moveAt_self hids hpids hget' hm', direction.behind_of_behind hids hc hbehind, hbehind,
      List.filterMap_append, List.filterMap_append, hnone, List.nil_append, List.filterMap_cons,
      List.filterMap_cons, slot_eq_some hget' hm', slot_eq_some hget hm, hnone]
    exact (step_of_atEnd hend rfl).symm
  · refine ⟨hc, hp, ?_⟩
    rw [ring_moveAt_self hids hc hget hm, hbehind, hnone]
    exact (step_of_atEnd hend rfl).symm

theorem items_filterMap_slot (hvalid : s.Valid ids) {l : List String} (hl : ∀ id ∈ l, id ∈ ids) :
    items (l.filterMap (s.slot direction))
      = l.flatMap fun id ↦ direction.matchesOf id (s.matchCountOf id) := by
  induction l with
  | nil => rfl
  | cons id l ih =>
    obtain ⟨hid, hl⟩ := List.forall_mem_cons.mp hl
    rw [List.flatMap_cons, ← ih hl, List.filterMap_cons]
    cases hmatches : s.hasMatches id with
    | true =>
      obtain ⟨h, hm, hget⟩ := hvalid.exists_onMatch hid hmatches
      rw [slot_eq_some hget hm, matchCountOf, hget]
      exact List.flatMap_cons
    | false =>
      rw [hasMatches_eq, decide_eq_false_iff_not, Nat.pos_iff_ne_zero, not_not] at hmatches
      have hnil : direction.matchesOf id 0 = [] :=
        List.eq_nil_of_length_eq_zero (direction.length_matchesOf id 0)
      rw [slot_eq_none (by rw [hasMatches_eq, hmatches]; rfl), hmatches, hnil]
      rfl

include hvalid hc in
/-- The items of the ring are all the matches. -/
theorem isRotated_items_ring (direction : SearchDirection) :
    items (s.ring direction ids c) ~r direction.order (s.allMatches ids) := by
  rw [ring, items_filterMap_slot hvalid fun id hid ↦ (direction.perm_behind hc).mem_iff.mp hid,
    allMatches, direction.order_flatMap]
  exact isRotated_flatMap _ (direction.isRotated_behind hc)

end MultiPaneSearch

/-! ## Runs are runs of the ring -/

namespace SearchRun

variable {root : PaneNode} {r : SearchRun} {direction : SearchDirection} {ids : List String}

/-- The next step is called with a pane that has matches. -/
structure OnTrack (r : SearchRun) (ids : List String) : Prop where
  mem : r.currentChannelId ∈ ids
  hasMatches : r.search.hasMatches r.currentChannelId = true
  valid : r.search.Valid ids

def ring (r : SearchRun) (direction : SearchDirection) (ids : List String) :
    List (Slot (String × ℕ)) :=
  r.search.ring direction ids r.currentChannelId

theorem advance_eq (direction : SearchDirection) (root : PaneNode) (r : SearchRun) :
    r.advance direction root =
      ⟨r.search.navigateMatches direction r.currentChannelId (some root),
        (r.search.navigateMatches direction r.currentChannelId
          (some root)).matchPaneChannelId.getD r.currentChannelId⟩ := by
  cases direction <;> rfl

variable (hroot : root.collectTerminalChannelIds = ids) (hids : ids.Nodup)

include hroot hids

/-- **A step of the search is a step of the ring.** -/
theorem ring_advance (direction : SearchDirection) (h : r.OnTrack ids) :
    (r.advance direction root).OnTrack ids ∧
      (r.advance direction root).ring direction ids = step (r.ring direction ids) := by
  obtain ⟨hc, hmatches, hvalid⟩ := h
  obtain ⟨p, fs, heq, hp⟩ :=
    MultiPaneSearch.navigateMatches_eq direction hroot hc hmatches
  rw [advance_eq, heq]
  have hmove : p ∈ ids ∧ r.search.hasMatches p ∧
      (r.search.moveAt direction p).ring direction ids p = step (r.ring direction ids) := by
    obtain ⟨hcan, rfl⟩ | ⟨hcan, hfind⟩ := hp
    · exact ⟨hc, hmatches,
        MultiPaneSearch.ring_moveAt_of_canMove hids hvalid hc hmatches hcan⟩
    · exact MultiPaneSearch.ring_moveAt_of_find hids hvalid hc hmatches hcan hfind
  obtain ⟨hpids, hpmatches, hring⟩ := hmove
  refine ⟨⟨hpids, ?_, hvalid.moveAt direction p⟩, hring⟩
  rw [MultiPaneSearch.hasMatches_eq] at hpmatches ⊢
  exact (r.search.matchCountOf_moveAt direction p p).symm ▸ hpmatches

theorem ring_iterate (direction : SearchDirection) (h : r.OnTrack ids) (k : ℕ) :
    ((advance direction root)^[k] r).OnTrack ids ∧
      ((advance direction root)^[k] r).ring direction ids = step^[k] (r.ring direction ids) := by
  induction k with
  | zero => exact ⟨h, rfl⟩
  | succ k ih =>
    obtain ⟨htrack, hring⟩ := ih
    rw [Function.iterate_succ_apply', Function.iterate_succ_apply', ← hring]
    exact ring_advance hroot hids direction htrack

section

variable (h : r.OnTrack ids)
include h

omit hroot hids in
theorem OnTrack.current_eq (direction : SearchDirection) :
    r.current = (r.ring direction ids).head?.map Slot.current := by
  obtain ⟨handle, hm, hget⟩ := h.valid.exists_onMatch h.mem h.hasMatches
  rw [ring, MultiPaneSearch.ring_eq_cons hget hm, List.head?_cons, Option.map_some, hm.current_slot,
    current, hget, Option.map_some]

theorem visits_eq (n : ℕ) :
    visits direction root n r = RoundRobin.visits n (r.ring direction ids) := by
  induction n generalizing r with
  | zero => rfl
  | succ n ih =>
    obtain ⟨htrack, hring⟩ := ring_advance hroot hids direction h
    rw [visits, RoundRobin.visits, ih htrack, htrack.current_eq direction, hring]

omit hroot hids in
theorem OnTrack.isRotated_items (direction : SearchDirection) :
    items (r.ring direction ids) ~r direction.order (r.search.allMatches ids) :=
  MultiPaneSearch.isRotated_items_ring h.valid h.mem direction

/-- The rounds of the search are the rounds of the ring. -/
theorem visitsAll_iff :
    r.VisitsAll root ↔ ∀ direction k,
      RoundRobin.visits (items (r.ring direction ids)).length (step^[k] (r.ring direction ids)) ~r
        items (r.ring direction ids) := by
  rw [VisitsAll, hroot]
  refine forall_congr' fun direction ↦ forall_congr' fun k ↦ ?_
  have hrotated := h.isRotated_items direction
  have hlength : (r.search.allMatches ids).length = (items (r.ring direction ids)).length :=
    ((direction.order_perm _).symm.trans hrotated.perm.symm).length_eq
  obtain ⟨htrack, hring⟩ := ring_iterate hroot hids direction h k
  rw [visits_eq hroot hids htrack, hring, hlength]
  exact ⟨fun hround ↦ hround.trans hrotated.symm, fun hround ↦ hround.trans hrotated⟩

/-- Where the way back begins with settled slots it is right. -/
theorem visitsAll_iff_of_settled (hsettled : Settled (r.ring .previous ids)) :
    r.VisitsAll root ↔ ∀ k,
      RoundRobin.visits (items (r.ring .next ids)).length (step^[k] (r.ring .next ids)) ~r
        items (r.ring .next ids) := by
  rw [visitsAll_iff hroot hids h]
  refine ⟨fun hall ↦ hall .next, fun hnext direction ↦ ?_⟩
  cases direction with
  | next => exact hnext
  | previous => exact isRotated_visits_of_settled hsettled

end

end SearchRun

/-! ## After a search -/

namespace MultiPaneSearch

variable {s : MultiPaneSearch} {root : PaneNode} {query id start : String}
  {direction : SearchDirection}

theorem exists_of_get_searchAll {ids : List String} {handles : OrderedMap String PaneSearchHandle}
    {h' : PaneSearchHandle}
    (h : id ∈ ids ∨ ∀ h', handles.get id = some h' → ∃ h, h' = PaneSearchHandle.search h query)
    (hget : (ids.foldl (fun hs id ↦ hs.modify id (·.search query)) handles).get id = some h') :
    ∃ h, h' = PaneSearchHandle.search h query := by
  induction ids generalizing handles with
  | nil => exact (h.resolve_left List.not_mem_nil) h' hget
  | cons id' ids ih =>
    refine ih ?_ hget
    by_cases heq : id' = id
    · right
      intro h'' hget''
      rw [OrderedMap.get_modify, if_pos heq] at hget''
      obtain ⟨h₀, -, rfl⟩ := Option.map_eq_some_iff.mp hget''
      exact ⟨h₀, rfl⟩
    · rw [List.mem_cons] at h
      refine h.imp (fun hmem ↦ hmem.resolve_left (Ne.symm heq)) fun hall h'' hget'' ↦ ?_
      rw [OrderedMap.get_modify, if_neg heq] at hget''
      exact hall h'' hget''

/-- A search leaves every pane with matches at its first one. -/
theorem onMatch_of_searchAll {h : PaneSearchHandle} (hid : id ∈ root.collectTerminalChannelIds)
    (hget : (s.searchAll query (some root)).handles.get id = some h) (hpos : 0 < h.matchCount) :
    h.OnMatch ∧ h.currentMatch = 1 := by
  obtain ⟨h, rfl⟩ := exists_of_get_searchAll (.inl hid) hget
  exact PaneSearchHandle.onMatch_search hpos

theorem valid_searchAll (s : MultiPaneSearch) (query : String) (root : PaneNode) :
    (s.searchAll query (some root)).Valid root.collectTerminalChannelIds :=
  fun _ hid _ hget hpos ↦ (onMatch_of_searchAll hid hget hpos).1

/-- What holds for the slots of all panes with matches after a search holds in the ring. -/
theorem forall_mem_ring_searchAll {P : Slot (String × ℕ) → Prop}
    (hstart : start ∈ root.collectTerminalChannelIds)
    (hP : ∀ id, ∀ h : PaneSearchHandle, ∀ hm : h.OnMatch, h.currentMatch = 1 →
      P (hm.slot direction id)) :
    ∀ t ∈ (s.searchAll query (some root)).ring direction root.collectTerminalChannelIds start,
      P t := by
  intro t ht
  obtain ⟨id, hid, hslot⟩ := List.mem_filterMap.mp ht
  rw [(direction.perm_behind hstart).mem_iff] at hid
  obtain ⟨h, hget, hslot⟩ := Option.bind_eq_some_iff.mp hslot
  split at hslot
  · rename_i hm
    cases hslot
    exact hP id h hm (onMatch_of_searchAll hid hget hm.count_pos).2
  · cases hslot

theorem settled_ring_searchAll (s : MultiPaneSearch) (query : String)
    (hstart : start ∈ root.collectTerminalChannelIds) :
    Settled ((s.searchAll query (some root)).ring .previous root.collectTerminalChannelIds start) :=
  forall_mem_ring_searchAll hstart fun id h hm hone ↦ by
    rw [Slot.AtEnd, hm.items_slot, hm.pos_slot, SearchDirection.length_matchesOf,
      SearchDirection.pos, hone]
    exact Nat.sub_add_cancel hm.count_pos

theorem fresh_ring_searchAll (s : MultiPaneSearch) (query : String)
    (hstart : start ∈ root.collectTerminalChannelIds) :
    Fresh ((s.searchAll query (some root)).ring .next root.collectTerminalChannelIds start) :=
  forall_mem_ring_searchAll hstart fun id h hm hone ↦ by
    rw [hm.pos_slot, SearchDirection.pos, hone]

theorem nodup_allMatches (s : MultiPaneSearch) {ids : List String} (hids : ids.Nodup) :
    (s.allMatches ids).Nodup := by
  refine List.nodup_flatMap.mpr ⟨fun id _ ↦ ?_, hids.imp fun hne ↦ ?_⟩
  · exact List.Nodup.map (fun _ _ heq ↦ (Prod.mk.inj heq).2) List.nodup_range'
  · rintro _ he he'
    obtain ⟨c, -, rfl⟩ := List.mem_map.mp he
    obtain ⟨c', -, heq⟩ := List.mem_map.mp he'
    exact hne (Prod.mk.inj heq).1.symm

/-- The numbers of items of the slots are the numbers of matches of the panes. -/
theorem map_length_filterMap_slot (direction : SearchDirection) {ids l : List String}
    (hvalid : s.Valid ids)
    (hl : ∀ id ∈ l, id ∈ ids) :
    (l.filterMap (s.slot direction)).map (fun t ↦ t.items.length)
      = (l.filter s.hasMatches).map s.matchCountOf := by
  induction l with
  | nil => rfl
  | cons id l ih =>
    obtain ⟨hid, hl⟩ := List.forall_mem_cons.mp hl
    rw [List.filterMap_cons, List.filter_cons]
    cases hmatches : s.hasMatches id with
    | true =>
      obtain ⟨h, hm, hget⟩ := hvalid.exists_onMatch hid hmatches
      rw [slot_eq_some hget hm, if_pos rfl, List.map_cons, List.map_cons, ih hl, hm.items_slot,
        direction.length_matchesOf, matchCountOf, hget]
      rfl
    | false =>
      rw [slot_eq_none hmatches, if_neg Bool.false_ne_true]
      exact ih hl

/-- The other panes that have matches, from the one behind `start` on. -/
def othersWithMatches (s : MultiPaneSearch) (orderedIds : List String) (start : String) :
    List String :=
  (panesBehind orderedIds start).filter s.hasMatches

/-- **After a search every round finds all matches, in both directions, just if the other panes with
matches have one each, or the pane where it starts has one and all others but the next one do.** -/
theorem visitsAll_searchAll_iff (s : MultiPaneSearch) (query : String) {root : PaneNode}
    (hnodup : root.collectTerminalChannelIds.Nodup) {start : String}
    (hstart : start ∈ root.collectTerminalChannelIds)
    (hmatches : (s.searchAll query (some root)).hasMatches start) :
    (SearchRun.mk (s.searchAll query (some root)) start).VisitsAll root ↔
      let s := s.searchAll query (some root)
      let others := s.othersWithMatches root.collectTerminalChannelIds start
      (∀ id ∈ others, s.matchCountOf id = 1) ∨
        s.matchCountOf start = 1 ∧ ∀ id ∈ others.tail, s.matchCountOf id = 1 := by
  have hvalid := s.valid_searchAll query root
  have hsettled := s.settled_ring_searchAll query hstart
  have hfresh := s.fresh_ring_searchAll query hstart
  generalize s.searchAll query (some root) = s at hmatches hvalid hsettled hfresh ⊢
  have htrack : (SearchRun.mk s start).OnTrack root.collectTerminalChannelIds :=
    ⟨hstart, hmatches, hvalid⟩
  have hitems := (htrack.isRotated_items .next).nodup_iff.mpr (s.nodup_allMatches hnodup)
  obtain ⟨h, hm, hget⟩ := hvalid.exists_onMatch hstart hmatches
  have hcount : h.matchCount = s.matchCountOf start := by rw [matchCountOf, hget]; rfl
  have hbehind : ∀ id ∈ panesBehind root.collectTerminalChannelIds start,
      id ∈ root.collectTerminalChannelIds :=
    fun id hid ↦ (perm_panesBehind hstart).mem_iff.mp (List.mem_cons_of_mem _ hid)
  have hlengths := map_length_filterMap_slot .next hvalid hbehind
  have hring : s.ring .next root.collectTerminalChannelIds start = hm.slot .next start ::
      (panesBehind root.collectTerminalChannelIds start).filterMap (s.slot .next) :=
    ring_eq_cons hget hm
  rw [SearchRun.visitsAll_iff_of_settled rfl hnodup htrack hsettled]
  rw [SearchRun.ring, hring] at hitems ⊢
  rw [hring] at hfresh
  rw [isRotated_visits_iff_of_fresh hfresh hitems, hm.items_slot, SearchDirection.length_matchesOf,
    hcount]
  -- both lists have the same numbers
  have hothers (P : List ℕ → Prop) :
      P (((panesBehind root.collectTerminalChannelIds start).filterMap (s.slot .next)).map
          fun t ↦ t.items.length) ↔
        P ((s.othersWithMatches root.collectTerminalChannelIds start).map s.matchCountOf) := by
    rw [hlengths, othersWithMatches]
  have hall := hothers fun l ↦ ∀ n ∈ l, n = 1
  have htail := hothers fun l ↦ ∀ n ∈ l.tail, n = 1
  rw [List.forall_mem_map, List.forall_mem_map] at hall
  rw [← List.map_tail, ← List.map_tail, List.forall_mem_map, List.forall_mem_map] at htail
  exact or_congr hall (and_congr_right fun _ ↦ htail)

def twoPanes : PaneNode :=
  .split ⟨.vertical, 1 / 2⟩ (.leaf (.terminal "ch-1" "p1")) (.leaf (.terminal "ch-2" "p2"))

/-- Two panes before a search that finds `m` matches in the first one and `n` in the second one. -/
def beforeSearch (m n : ℕ) : MultiPaneSearch where
  handles := (OrderedMap.empty.set "ch-1" ⟨fun _ ↦ m, "", 0, 0⟩).set "ch-2" ⟨fun _ ↦ n, "", 0, 0⟩
  matchPaneChannelId := none
  focused := []

theorem visitsAll_threeAndOne :
    (SearchRun.mk ((beforeSearch 3 1).searchAll "auth" (some twoPanes)) "ch-1").VisitsAll
      twoPanes :=
  have hnodup : twoPanes.collectTerminalChannelIds.Nodup := by decide
  have hstart : "ch-1" ∈ twoPanes.collectTerminalChannelIds := by decide
  (visitsAll_searchAll_iff (beforeSearch 3 1) "auth" hnodup hstart (by decide)).mpr
    (.inl (by decide))

/-- With two matches in each of two panes, the first match of the second one is passed over. -/
theorem not_visitsAll_searchAll :
    ¬∀ (s : MultiPaneSearch) (query : String) (root : PaneNode),
      root.collectTerminalChannelIds.Nodup → ∀ start ∈ root.collectTerminalChannelIds,
        (s.searchAll query (some root)).hasMatches start →
          (SearchRun.mk (s.searchAll query (some root)) start).VisitsAll root := by
  intro hall
  have hround := hall (beforeSearch 2 2) "auth" twoPanes (by decide) "ch-1" (by decide) (by decide)
    .next 0
  have hvisits : SearchRun.visits .next twoPanes 4
      ⟨(beforeSearch 2 2).searchAll "auth" (some twoPanes), "ch-1"⟩
        = [("ch-1", 2), ("ch-2", 2), ("ch-1", 1), ("ch-1", 2)] := by decide
  have hfound : ((beforeSearch 2 2).searchAll "auth" (some twoPanes)).allMatches
      twoPanes.collectTerminalChannelIds
        = [("ch-1", 1), ("ch-1", 2), ("ch-2", 1), ("ch-2", 2)] := by decide
  rw [hfound] at hround
  exact absurd ((hvisits ▸ hround).nodup_iff.mpr (by decide)) (by decide)

end MultiPaneSearch

end Lasterm.Web
