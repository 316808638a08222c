import Mathlib.Data.List.Perm.Basic
import Lasterm.Web.Channels
import Lasterm.Web.TabManager

/-!
# The tab in front

`closeTab`, `closeToRight` and `reorderTab` of `useTabManager`, and the two purges of `usePaneTree`,
which close tabs by their index, from the last one to the first. Each of them says anew at which
index the tab in front is.

What is in front is a tab, not an index: `KeepsActive` says that the same tab is in front
afterwards, if it is still there. An operation that takes tabs away can be followed by another one
(`KeepsActive.trans`), which is all that a purge does.
-/

namespace Lasterm.Web

/-! ## Purges -/

/-- The loop of both purges. The list is the one before the loop, so that the indices in front of
those that were closed are still right. -/
def purgeTabs {σ : Type*} (purges : Tab → Bool) (tabs : List Tab) (closeTab : σ → ℤ → σ)
    (s : σ) : σ :=
  tabs.zipIdx.foldr (fun e s ↦ if purges e.1 then closeTab s e.2 else s) s

/-- `allDead`, for a tab with a tree. -/
def allDead (channels : List Channel) (layouts : OrderedMap String (Option PaneNode)) (tab : Tab) :
    Bool :=
  let deadIds := (channels.filter fun c ↦ c.status = .dead).map Channel.id
  match (layouts.get tab.id).join with
  | none => false
  | some root =>
    let terminalIds := root.collectTerminalChannelIds
    0 < terminalIds.length && terminalIds.all fun id ↦ deadIds.contains id

def purgeDeadTabs {σ : Type*} (channels : List Channel) (tabs : List Tab) (closeTab : σ → ℤ → σ)
    (layouts : Option (OrderedMap String (Option PaneNode))) (s : σ) : σ :=
  match layouts with
  | none => s
  | some layouts => purgeTabs (allDead channels layouts) tabs closeTab s

/-- `anyOrphaned && !anyAlive`, for a tab with a terminal that is on the host with all of them. -/
def isOrphaned (channels : List Channel) (hostId : String)
    (channelHostMap : OrderedMap String String)
    (layouts : OrderedMap String (Option PaneNode)) (tab : Tab) : Bool :=
  let aliveIds := channels.map Channel.id
  match (layouts.get tab.id).join with
  | none => false
  | some root =>
    let terminalIds := root.collectTerminalChannelIds
    if terminalIds.length = 0 then false
    else if (terminalIds.all fun id ↦ channelHostMap.get id = some hostId) = false then false
    else
      (terminalIds.any fun id ↦ !aliveIds.contains id) &&
        !(terminalIds.any fun id ↦ aliveIds.contains id)

def purgeOrphanedTabs {σ : Type*} (channels : List Channel) (tabs : List Tab)
    (closeTab : σ → ℤ → σ) (hostId : String) (channelHostMap : OrderedMap String String)
    (layouts : Option (OrderedMap String (Option PaneNode))) (s : σ) : σ :=
  match layouts with
  | none => s
  | some layouts =>
    purgeTabs (isOrphaned channels hostId channelHostMap layouts) tabs closeTab s

namespace Layout

/-- The terminals of a tab. -/
def terminals (s : Layout) (tab : Tab) : List String :=
  ((s.root tab.id).map PaneNode.collectTerminalChannelIds).getD []

theorem allDead_iff (s : Layout) (channels : List Channel) (tab : Tab) :
    allDead channels s.layouts tab = true ↔ s.terminals tab ≠ [] ∧
      ∀ id ∈ s.terminals tab, ∃ c ∈ channels, c.id = id ∧ c.status = .dead := by
  rw [allDead, terminals, root]
  cases (s.layouts.get tab.id).join with
  | none => exact iff_of_false Bool.false_ne_true fun h ↦ h.1 rfl
  | some root =>
    simp only [Option.map_some, Option.getD_some, Bool.and_eq_true, decide_eq_true_eq,
      List.length_pos_iff, List.all_eq_true, List.contains_iff_mem, List.mem_map, List.mem_filter]
    refine and_congr_right fun _ ↦ forall₂_congr fun id _ ↦ exists_congr fun c ↦ ?_
    rw [and_assoc, and_comm (a := c.status = _)]

theorem isOrphaned_iff (s : Layout) (channels : List Channel) (hostId : String)
    (channelHostMap : OrderedMap String String) (tab : Tab) :
    isOrphaned channels hostId channelHostMap s.layouts tab = true ↔ s.terminals tab ≠ [] ∧
      ∀ id ∈ s.terminals tab, channelHostMap.get id = some hostId ∧ ∀ c ∈ channels, c.id ≠ id := by
  rw [isOrphaned, terminals, root]
  cases (s.layouts.get tab.id).join with
  | none => exact iff_of_false Bool.false_ne_true fun h ↦ h.1 rfl
  | some root =>
    dsimp only [Option.map_some, Option.getD_some]
    generalize root.collectTerminalChannelIds = terminalIds
    have hgone : ∀ id,
        (channels.map Channel.id).contains id = false ↔ ∀ c ∈ channels, c.id ≠ id := by
      intro id
      simp [← Bool.not_eq_true]
    split
    · rename_i hnil
      exact iff_of_false Bool.false_ne_true fun h ↦ h.1 (List.length_eq_zero_iff.mp hnil)
    · rename_i hne
      have hne : terminalIds ≠ [] := mt List.length_eq_zero_iff.mpr hne
      split
      · rename_i hhost
        refine iff_of_false Bool.false_ne_true fun h ↦ Bool.false_ne_true (hhost.symm.trans ?_)
        exact List.all_eq_true.mpr fun id hid ↦ decide_eq_true (h.2 id hid).1
      · rename_i hhost
        rw [Bool.not_eq_false, List.all_eq_true] at hhost
        -- Where no terminal is alive, one is orphaned.
        rw [Bool.and_eq_true, Bool.not_eq_true', List.any_eq_false]
        simp only [Bool.not_eq_true, hgone]
        constructor
        · rintro ⟨-, hdead⟩
          exact ⟨hne, fun id hid ↦ ⟨of_decide_eq_true (hhost id hid), hdead id hid⟩⟩
        · rintro ⟨-, hdead⟩
          obtain ⟨id, hid⟩ := List.exists_mem_of_ne_nil _ hne
          refine ⟨List.any_eq_true.mpr ⟨id, hid, ?_⟩, fun id hid ↦ (hdead id hid).2⟩
          rw [(hgone id).mpr (hdead id hid).2, Bool.not_false]

/-! ## The same tab -/

/-- An index of a tab, or `0` where there is none. -/
def ActiveInRange (s : Layout) : Prop :=
  0 ≤ s.activeTabIndex ∧ (s.activeTabIndex < s.tabs.length ∨ s.tabs = [] ∧ s.activeTabIndex = 0)

/-- The index stays in range, and the tab in front stays in front unless it is gone. -/
structure KeepsActive (s s' : Layout) : Prop where
  inRange : s'.ActiveInRange
  same : ∀ tab, s.activeTab = some tab → tab ∈ s'.tabs → s'.activeTab = some tab

theorem KeepsActive.refl {s : Layout} (h : s.ActiveInRange) : KeepsActive s s := ⟨h, fun _ h _ ↦ h⟩

/-- Only tabs that are gone in the end can be gone in between. -/
theorem KeepsActive.trans {s t u : Layout} (h : KeepsActive s t) (h' : KeepsActive t u)
    (hsub : u.tabs ⊆ t.tabs) : KeepsActive s u :=
  ⟨h'.inRange, fun tab htab hmem ↦ h'.same tab (h.same tab htab (hsub hmem)) hmem⟩

variable {s s' : Layout} {tab : Tab}

theorem tabAt_natCast (s : Layout) (n : ℕ) : s.tabAt n = s.tabs[n]? := by
  rw [tabAt, if_pos (Int.natCast_nonneg n), Int.toNat_natCast]

theorem exists_natCast_of_tabAt {index : ℤ} (h : s.tabAt index = some tab) :
    ∃ n : ℕ, index = n ∧ s.tabs[n]? = some tab := by
  rw [tabAt] at h
  split at h
  · rename_i hindex
    exact ⟨index.toNat, (Int.toNat_of_nonneg hindex).symm, h⟩
  · cases h

/-- Where the tab in front is, before and afterwards. -/
theorem KeepsActive.of_index {a b : ℕ} (ha : s.activeTabIndex = a) (hb : s'.activeTabIndex = b)
    (hrange : b < s'.tabs.length ∨ s'.tabs = [] ∧ b = 0)
    (h : ∀ tab, s.tabs[a]? = some tab → tab ∈ s'.tabs → s'.tabs[b]? = some tab) :
    KeepsActive s s' := by
  refine ⟨?_, fun tab htab hmem ↦ ?_⟩
  · rw [ActiveInRange, hb]
    exact ⟨Int.natCast_nonneg b, hrange.imp Int.ofNat_lt.mpr (And.imp_right (congrArg Nat.cast))⟩
  · rw [activeTab, ha, tabAt_natCast] at htab
    rw [activeTab, hb, tabAt_natCast]
    exact h tab htab hmem

theorem ActiveInRange.exists_index (h : s.ActiveInRange) :
    ∃ a : ℕ, s.activeTabIndex = a ∧ (a < s.tabs.length ∨ s.tabs = [] ∧ a = 0) := by
  obtain ⟨a, ha⟩ := Int.eq_ofNat_of_zero_le h.1
  refine ⟨a, ha, h.2.imp (fun hlt ↦ ?_) (And.imp_right fun hzero ↦ ?_)⟩
  · exact Int.ofNat_lt.mp (ha ▸ hlt)
  · exact Int.ofNat_eq_zero.mp (ha.symm.trans hzero)

/-! ### Closing -/

theorem tabs_closeTab {i : ℕ} {closed : Tab} (hi : s.tabs[i]? = some closed) :
    (s.closeTab i).tabs = s.tabs.eraseIdx i := by
  rw [closeTab, tabAt_natCast, hi]
  rfl

theorem activeTabIndex_closeTab {a i : ℕ} {closed : Tab} (ha : s.activeTabIndex = a)
    (hlast : a ≤ s.tabs.length - 1) (hi : s.tabs[i]? = some closed) :
    (s.closeTab i).activeTabIndex =
      ((if i < a then a - 1 else min a (s.tabs.length - 2) : ℕ) : ℤ) := by
  have hlt := (List.getElem?_eq_some_iff.mp hi).1
  rw [closeTab, tabAt_natCast, hi]
  dsimp only
  rw [Int.toNat_natCast, ha, List.length_eraseIdx_of_lt hlt]
  split_ifs <;> omega

theorem keepsActive_closeTab (hnodup : s.tabs.Nodup) (h : s.ActiveInRange) (index : ℤ) :
    KeepsActive s (s.closeTab index) := by
  cases hclosed : s.tabAt index with
  | none =>
    rw [closeTab, hclosed]
    exact .refl h
  | some closed =>
    obtain ⟨i, rfl, hi⟩ := exists_natCast_of_tabAt hclosed
    obtain ⟨a, ha, hrange⟩ := h.exists_index
    have hlt := (List.getElem?_eq_some_iff.mp hi).1
    have hlength := List.length_eraseIdx_of_lt hlt
    have hlast : a ≤ s.tabs.length - 1 := by
      obtain hrange | ⟨hnil, rfl⟩ := hrange
      · exact Nat.le_pred_of_lt hrange
      · exact Nat.zero_le _
    refine KeepsActive.of_index ha (activeTabIndex_closeTab ha hlast hi) ?_ fun tab htab hmem ↦ ?_
    · rw [tabs_closeTab hi, ← List.length_eq_zero_iff, hlength]
      split <;> omega
    · rw [tabs_closeTab hi] at hmem ⊢
      have hlta := (List.getElem?_eq_some_iff.mp htab).1
      obtain ⟨k, hk, hget⟩ := List.mem_eraseIdx_iff_getElem?.mp hmem
      obtain rfl : a = k := (List.getElem?_inj hlta hnodup).mp (htab.trans hget.symm)
      -- The tabs behind the closed one move up.
      split
      · rename_i hia
        rw [List.getElem?_eraseIdx_of_ge (by omega), Nat.sub_add_cancel (by omega), htab]
      · rename_i hia
        rw [Nat.min_eq_left (by omega), List.getElem?_eraseIdx_of_lt (by omega), htab]

theorem tabs_closeToRight (s : Layout) (n : ℕ) :
    (s.closeToRight n).tabs = s.tabs.take (n + 1) := by
  have hcut : sliceIndex (n + 1) s.tabs.length = min (n + 1) s.tabs.length := by
    rw [sliceIndex, if_neg (by omega)]
    rfl
  rw [closeToRight, hcut, List.take_eq_take_iff, Nat.min_assoc, Nat.min_self]

theorem keepsActive_closeToRight (hnodup : s.tabs.Nodup) (h : s.ActiveInRange) {fromIndex : ℤ}
    (hfrom : 0 ≤ fromIndex) : KeepsActive s (s.closeToRight fromIndex) := by
  obtain ⟨n, rfl⟩ := Int.eq_ofNat_of_zero_le hfrom
  obtain ⟨a, ha, hrange⟩ := h.exists_index
  have htabs := s.tabs_closeToRight n
  have hnew :
      (s.closeToRight n).activeTabIndex = ((min a (min n (s.tabs.length - 1)) : ℕ) : ℤ) := by
    have hactive : (s.closeToRight n).activeTabIndex =
        if s.activeTabIndex ≥ (s.closeToRight n).tabs.length then
          max 0 ((s.closeToRight n).tabs.length - 1 : ℤ) else s.activeTabIndex := rfl
    rw [hactive, htabs, List.length_take, ha]
    split <;> omega
  refine KeepsActive.of_index ha hnew ?_ fun tab htab hmem ↦ ?_
  · rw [htabs, List.length_take, ← List.length_eq_zero_iff, List.length_take]
    omega
  · rw [htabs] at hmem ⊢
    obtain ⟨k, hk⟩ := List.mem_iff_getElem?.mp hmem
    rw [List.getElem?_take] at hk
    split at hk
    · rename_i hkn
      have hlta := (List.getElem?_eq_some_iff.mp htab).1
      obtain rfl : a = k := (List.getElem?_inj hlta hnodup).mp (htab.trans hk.symm)
      rw [Nat.min_eq_left (by omega), List.getElem?_take_of_lt hkn, htab]
    · cases hk

/-! ### Another order -/

/-- What `reorderTab` does to the tabs. -/
structure Reorders (s s' : Layout) (fromIndex toIndex : ℤ) : Prop where
  perm : s'.tabs.Perm s.tabs
  /-- The other tabs stay in their order. -/
  others : ∀ moved, s.tabAt fromIndex = some moved →
    s'.tabs.filter (· ≠ moved) = s.tabs.filter (· ≠ moved)
  /-- The tab is where it was to be, or at the end that is closest to it. -/
  arrived : ∀ moved, s.tabAt fromIndex = some moved →
    s'.tabAt (max 0 (min toIndex (s.tabs.length - 1))) = some moved
  idle : s.tabAt fromIndex = none → s' = s

theorem reorderTab_cases (s : Layout) (fromIndex toIndex : ℤ) :
    (s.reorderTab fromIndex toIndex = s ∧ (s.tabAt fromIndex = none ∨
      fromIndex = max 0 (min toIndex (s.tabs.length - 1)))) ∨
    ∃ (i j : ℕ) (moved : Tab), fromIndex = i ∧ max 0 (min toIndex (s.tabs.length - 1)) = (j : ℤ) ∧
      i ≠ j ∧ j < s.tabs.length ∧ s.tabs[i]? = some moved ∧
      (s.reorderTab fromIndex toIndex).tabs = (s.tabs.eraseIdx i).insertIdx j moved ∧
      ∀ a : ℕ, s.activeTabIndex = a → (s.reorderTab fromIndex toIndex).activeTabIndex =
        ((if a = i then j else if i < a ∧ a ≤ j then a - 1 else if a < i ∧ j ≤ a then a + 1 else a
          : ℕ) : ℤ) := by
  rw [reorderTab]
  split
  · rename_i heq
    refine .inl ⟨rfl, ?_⟩
    rw [tabAt, ← heq]
    split
    · rw [List.getElem?_eq_none_iff]
      omega
    · exact .inl rfl
  · cases hmoved : s.tabAt fromIndex with
    | none => exact .inl ⟨rfl, .inl rfl⟩
    | some moved =>
      obtain ⟨i, rfl, hi⟩ := exists_natCast_of_tabAt hmoved
      have hlt := (List.getElem?_eq_some_iff.mp hi).1
      obtain ⟨j, hj⟩ :=
        Int.eq_ofNat_of_zero_le (Int.le_max_left 0 (min toIndex (s.tabs.length - 1)))
      dsimp only
      rw [hj]
      split
      · rename_i heq
        exact .inl ⟨rfl, .inr heq⟩
      · rename_i hne
        refine .inr ⟨i, j, moved, rfl, rfl, fun h ↦ hne (congrArg Nat.cast h), by omega, hi, ?_, ?_⟩
        · rw [Int.toNat_natCast, Int.toNat_natCast]
        · intro a ha
          rw [ha]
          dsimp only
          split_ifs <;> omega

theorem filter_insertIdx_of_neg {α : Type*} {p : α → Bool} {a : α} (ha : p a = false) (l : List α)
    (i : ℕ) : (l.insertIdx i a).filter p = l.filter p := by
  induction l generalizing i with
  | nil =>
    cases i with
    | zero => rw [List.insertIdx_zero, List.filter_cons_of_neg (ha ▸ Bool.false_ne_true)]
    | succ i => rfl
  | cons b l ih =>
    cases i with
    | zero => rw [List.insertIdx_zero, List.filter_cons_of_neg (ha ▸ Bool.false_ne_true)]
    | succ i => rw [List.insertIdx_succ_cons, List.filter_cons, List.filter_cons, ih]

theorem filter_eraseIdx_of_neg {α : Type*} {p : α → Bool} {a : α} (ha : p a = false) {l : List α}
    {i : ℕ} (hi : l[i]? = some a) : (l.eraseIdx i).filter p = l.filter p := by
  induction l generalizing i with
  | nil => rfl
  | cons b l ih =>
    cases i with
    | zero =>
      cases hi
      rw [List.eraseIdx_cons_zero, List.filter_cons_of_neg (ha ▸ Bool.false_ne_true)]
    | succ i => rw [List.eraseIdx_cons_succ, List.filter_cons, List.filter_cons, ih hi]

theorem reorders_reorderTab (s : Layout) (fromIndex toIndex : ℤ) :
    Reorders s (s.reorderTab fromIndex toIndex) fromIndex toIndex := by
  obtain ⟨heq, hidle⟩ | ⟨i, j, moved, rfl, hj, -, hlt, hi, htabs, -⟩ :=
    s.reorderTab_cases fromIndex toIndex
  · rw [heq]
    refine ⟨.refl _, fun _ _ ↦ rfl, fun moved hmoved ↦ ?_, fun _ ↦ rfl⟩
    obtain hnone | hsame := hidle
    · cases hnone.symm.trans hmoved
    · exact hsame ▸ hmoved
  · have hilt := (List.getElem?_eq_some_iff.mp hi).1
    have hlength := List.length_eraseIdx_of_lt hilt
    have hmoved : ∀ moved', s.tabAt i = some moved' → moved = moved' := fun moved' h ↦
      Option.some.inj (hi.symm.trans ((s.tabAt_natCast i).symm.trans h))
    have hgetElem : s.tabs[i] = moved := (List.getElem?_eq_some_iff.mp hi).2
    refine ⟨?_, fun moved' h ↦ ?_, fun moved' h ↦ ?_, fun h ↦ ?_⟩
    · rw [htabs]
      refine (List.perm_insertIdx moved _ (by omega)).trans ?_
      rw [← hgetElem]
      exact List.getElem_cons_eraseIdx_perm hilt
    · obtain rfl := hmoved moved' h
      have hself : decide (moved ≠ moved) = false := decide_eq_false (not_not_intro rfl)
      rw [htabs, filter_insertIdx_of_neg (p := fun tab ↦ decide (tab ≠ moved)) hself,
        filter_eraseIdx_of_neg (p := fun tab ↦ decide (tab ≠ moved)) hself hi]
    · obtain rfl := hmoved moved' h
      rw [hj, tabAt_natCast, htabs, List.getElem?_insertIdx_self, if_pos (by omega)]
    · rw [tabAt_natCast, hi] at h
      cases h

theorem keepsActive_reorderTab (h : s.ActiveInRange) (fromIndex toIndex : ℤ) :
    KeepsActive s (s.reorderTab fromIndex toIndex) := by
  obtain ⟨heq, -⟩ | ⟨i, j, moved, rfl, -, hne, hlt, hi, htabs, hindex⟩ :=
    s.reorderTab_cases fromIndex toIndex
  · rw [heq]
    exact .refl h
  · obtain ⟨a, ha, hrange⟩ := h.exists_index
    have hilt := (List.getElem?_eq_some_iff.mp hi).1
    have hlength := List.length_eraseIdx_of_lt hilt
    have hj : j ≤ (s.tabs.eraseIdx i).length := by omega
    have hlength' := List.length_insertIdx_of_le_length hj moved
    have hlta : a < s.tabs.length :=
      hrange.resolve_right fun hnil ↦ Nat.not_lt_zero j (by rwa [hnil.1] at hlt)
    refine KeepsActive.of_index ha (hindex a ha) (.inl ?_) fun tab htab _ ↦ ?_
    · rw [htabs, hlength']
      split_ifs <;> omega
    · -- A tab that is not the moved one makes room where it has to.
      rw [htabs, List.getElem?_insertIdx]
      by_cases hai : a = i
      · subst hai
        cases hi.symm.trans htab
        rw [if_pos rfl, if_neg (Nat.lt_irrefl j), if_pos rfl, if_pos (by omega)]
      · rw [if_neg hai]
        by_cases hleft : i < a ∧ a ≤ j
        · rw [if_pos hleft, if_pos (by omega), List.getElem?_eraseIdx_of_ge (by omega),
            Nat.sub_add_cancel (by omega), htab]
        · rw [if_neg hleft]
          by_cases hright : a < i ∧ j ≤ a
          · rw [if_pos hright, if_neg (by omega), if_neg (by omega), Nat.add_sub_cancel,
              List.getElem?_eraseIdx_of_lt hright.1, htab]
          · rw [if_neg hright]
            obtain hlt' | hlt' := Nat.lt_or_gt_of_ne hai
            · rw [if_pos (by omega), List.getElem?_eraseIdx_of_lt hlt', htab]
            · rw [if_neg (by omega), if_neg (by omega), List.getElem?_eraseIdx_of_ge (by omega),
                Nat.sub_add_cancel (by omega), htab]

/-! ### Purging -/

theorem tabs_closeTab_sublist (s : Layout) (index : ℤ) :
    (s.closeTab index).tabs.Sublist s.tabs := by
  cases hclosed : s.tabAt index with
  | none =>
    have hidle : s.closeTab index = s := by rw [closeTab, hclosed]
    rw [congrArg Layout.tabs hidle]
  | some closed =>
    obtain ⟨i, rfl, hi⟩ := exists_natCast_of_tabAt hclosed
    rw [tabs_closeTab hi]
    exact List.eraseIdx_sublist _ _

/-- **A purge**: what it purges is gone, everything else is still there, and the tab in front with
it. -/
theorem purgeTabs_spec (purges : Tab → Bool) (hnodup : s.tabs.Nodup) (h : s.ActiveInRange) :
    (purgeTabs purges s.tabs closeTab s).tabs = s.tabs.filter (fun tab ↦ !purges tab) ∧
      KeepsActive s (purgeTabs purges s.tabs closeTab s) := by
  -- By induction from the last tab on: what is closed stands behind the tabs still to come, so that
  -- the index of each is what it was.
  have hloop : ∀ (earlier tabs : List Tab), s.tabs = earlier ++ tabs →
      let t := (tabs.zipIdx earlier.length).foldr
        (fun e s ↦ if purges e.1 then closeTab s e.2 else s) s
      t.tabs = earlier ++ tabs.filter (fun tab ↦ !purges tab) ∧ KeepsActive s t := by
    intro earlier tabs
    induction tabs generalizing earlier with
    | nil =>
      intro heq
      exact ⟨heq, .refl h⟩
    | cons tab tabs ih =>
      intro heq
      have hlater := ih (earlier ++ [tab]) (by rw [heq, List.append_cons])
      rw [List.length_append, List.length_singleton] at hlater
      rw [List.zipIdx_cons, List.foldr_cons]
      dsimp only at hlater ⊢
      generalize (tabs.zipIdx (earlier.length + 1)).foldr _ s = t at hlater ⊢
      obtain ⟨htabs, hkeeps⟩ := hlater
      cases hpurges : purges tab with
      | false =>
        rw [if_neg Bool.false_ne_true, htabs, List.filter_cons_of_pos (by rw [hpurges]; rfl),
          List.append_assoc]
        exact ⟨rfl, hkeeps⟩
      | true =>
        rw [if_pos rfl, List.filter_cons_of_neg (by rw [hpurges]; decide)]
        have hi : t.tabs[earlier.length]? = some tab := by
          rw [htabs, List.append_assoc, List.getElem?_append_right (Nat.le_refl _), Nat.sub_self]
          rfl
        have hnodup' : t.tabs.Nodup := by
          rw [htabs, List.append_assoc]
          refine hnodup.sublist ?_
          rw [heq]
          exact (List.filter_sublist.cons_cons tab).append_left earlier
        refine ⟨?_, hkeeps.trans (keepsActive_closeTab hnodup' hkeeps.inRange _)
          (t.tabs_closeTab_sublist _).subset⟩
        rw [tabs_closeTab hi, htabs, List.append_assoc,
          List.eraseIdx_append_of_length_le (Nat.le_refl _), Nat.sub_self]
        rfl
  exact hloop [] s.tabs rfl

/-- The tabs with `P` are closed, and nothing else is. -/
structure Purges (s s' : Layout) (P : Tab → Prop) : Prop where
  active : KeepsActive s s'
  sublist : s'.tabs.Sublist s.tabs
  gone : ∀ tab ∈ s.tabs, tab ∉ s'.tabs ↔ P tab

theorem purges_purgeTabs {purges : Tab → Bool} {P : Tab → Prop}
    (hP : ∀ tab, purges tab = true ↔ P tab)
    (hnodup : s.tabs.Nodup) (h : s.ActiveInRange) :
    Purges s (purgeTabs purges s.tabs closeTab s) P := by
  obtain ⟨htabs, hkeeps⟩ := purgeTabs_spec purges hnodup h
  refine ⟨hkeeps, htabs ▸ List.filter_sublist, fun tab htab ↦ ?_⟩
  rw [htabs, List.mem_filter, not_and, ← hP, Bool.not_eq_true', Bool.not_eq_false]
  exact ⟨fun hgone ↦ hgone htab, fun hpurges _ ↦ hpurges⟩

/-- **Whatever happens to the tabs, the tab in front stays in front.** -/
theorem tabOps_keepActive (s : Layout) (hnodup : s.tabIds.Nodup) (h : s.ActiveInRange) :
    (∀ index, KeepsActive s (s.closeTab index)) ∧
    (∀ fromIndex, 0 ≤ fromIndex → KeepsActive s (s.closeToRight fromIndex)) ∧
    (∀ fromIndex toIndex, KeepsActive s (s.reorderTab fromIndex toIndex) ∧
      Reorders s (s.reorderTab fromIndex toIndex) fromIndex toIndex) ∧
    (∀ channels, Purges s (purgeDeadTabs channels s.tabs closeTab (some s.layouts) s) fun tab ↦
      s.terminals tab ≠ [] ∧
        ∀ id ∈ s.terminals tab, ∃ c ∈ channels, c.id = id ∧ c.status = .dead) ∧
    ∀ channels hostId channelHostMap, Purges s
      (purgeOrphanedTabs channels s.tabs closeTab hostId channelHostMap (some s.layouts) s)
        fun tab ↦
        s.terminals tab ≠ [] ∧ ∀ id ∈ s.terminals tab, channelHostMap.get id = some hostId ∧
          ∀ c ∈ channels, c.id ≠ id := by
  have hnodup : s.tabs.Nodup := hnodup.of_map _
  refine ⟨keepsActive_closeTab hnodup h, fun _ ↦ keepsActive_closeToRight hnodup h,
    fun fromIndex toIndex ↦ ⟨keepsActive_reorderTab h fromIndex toIndex,
      reorders_reorderTab s fromIndex toIndex⟩, fun channels ↦ ?_,
    fun channels hostId channelHostMap ↦ ?_⟩
  · exact purges_purgeTabs (allDead_iff s channels) hnodup h
  · exact purges_purgeTabs (isOrphaned_iff s channels hostId channelHostMap) hnodup h

/-- Three tabs, of which the last one is in front, and the second one has a terminal. -/
def threeTabs : Layout where
  tabs := [⟨"a"⟩, ⟨"b"⟩, ⟨"c"⟩]
  activeTabIndex := 2
  layouts := OrderedMap.empty.set "b" (some (.leaf (.terminal "build" "pane")))
  activePaneIds := .empty
  generated := 0

theorem tabOps_keepActive_threeTabs :
    KeepsActive threeTabs (threeTabs.closeTab 0) ∧
    KeepsActive threeTabs (threeTabs.reorderTab 2 0) ∧
    (purgeDeadTabs [⟨"build", .dead, none⟩] threeTabs.tabs closeTab (some threeTabs.layouts)
      threeTabs).activeTab = some ⟨"c"⟩ := by
  have hkeep := tabOps_keepActive threeTabs (by decide) ⟨by decide, .inl (by decide)⟩
  obtain ⟨hclose, -, hreorder, hdead, -⟩ := hkeep
  refine ⟨hclose 0, (hreorder 2 0).1, (hdead _).active.same ⟨"c"⟩ rfl ?_⟩
  by_contra hgone
  exact ((hdead [⟨"build", .dead, none⟩]).gone ⟨"c"⟩ (by decide)).mp hgone |>.1 rfl

end Layout

end Lasterm.Web
