import Lasterm.Library.OrderBy
import Mathlib

/-!
# The order of hosts

Model of `listHosts` and `reorderHosts` of `hosts-dal.ts`. The rows of a table are in the order of
their rowids, and rows with equal keys are listed in that order. Texts are compared by their code
points, as SQLite compares their bytes.

Reordering writes the id of the group and the sort order, and listing goes by the name of the legacy
group before the sort order, so that `ids` come out as asked where the legacy names of their hosts
do not descend (`reorderHosts_listed_iff`).

Columns that no query here reads or writes are left out.
-/

namespace Lasterm.Hub.HostsDal

open OrderBy

/-! ## Tables -/

inductive HostType
  | localHost
  | ssh
  deriving DecidableEq

structure HostRow where
  id : String
  type : HostType
  label : String
  hostGroup : Option String
  hostGroupId : Option String
  sortOrder : Option ℤ
  updatedAt : String

structure HostGroupRow where
  id : String
  name : String
  sortOrder : ℤ
  createdAt : String
  updatedAt : String

/-- The tables `hosts` and `host_groups`, with the primary key and the reference of `hosts`. -/
structure Tables where
  hosts : List HostRow
  hostGroups : List HostGroupRow
  hostIds : (hosts.map HostRow.id).Nodup
  groupRefs : ∀ h ∈ hosts, ∀ g ∈ h.hostGroupId, g ∈ hostGroups.map HostGroupRow.id

inductive SqliteError
  | foreignKey
  deriving DecidableEq

/-! ## Listing -/

/-- NULL comes first. -/
def nullsFirst : Option ℤ → WithBot ℤ
  | none => ⊥
  | some n => n

def groupName (h : HostRow) : List Char := (h.hostGroup.getD "~").toList

/-- What the hosts are listed by: local hosts first, then the names of legacy groups, then the sort
order. -/
def sortKey (h : HostRow) : ℕ ×ₗ List Char ×ₗ WithBot ℤ :=
  toLex (if h.type = .localHost then 0 else 1, toLex (groupName h, nullsFirst h.sortOrder))

namespace Tables

variable (db : Tables)

def listHosts (limit : Option ℕ) (offset : Option ℕ) : List HostRow :=
  match limit with
  | some limit => ((orderBy sortKey db.hosts).drop (offset.getD 0)).take limit
  | none => orderBy sortKey db.hosts

/-- The ids of all hosts as they are listed. -/
def listed : List String := (db.listHosts none none).map HostRow.id

/-! ## Reordering -/

end Tables

/-- The row of a host after the UPDATE with index `i`. -/
def moved (groupId : Option String) (i : ℕ) (now : String) (h : HostRow) : HostRow :=
  { h with sortOrder := some i, hostGroupId := groupId, updatedAt := now }

/-- What the UPDATE for `id` makes of a row. -/
def moveHost (groupId : Option String) (i : ℕ) (now : String) (id : String) (h : HostRow) :
    HostRow :=
  if h.id = id then moved groupId i now h else h

variable (groupId : Option String)

theorem moveHost_id (i : ℕ) (now id : String) (h : HostRow) :
    (moveHost groupId i now id h).id = h.id := by
  rw [moveHost]
  split <;> rfl

namespace Tables

variable (db : Tables)

/-- A row can refer to a group: there is one with this id, or the row has none. -/
def CanRefer (groupId : Option String) : Prop :=
  ∀ g ∈ groupId, g ∈ db.hostGroups.map HostGroupRow.id

instance (groupId : Option String) : Decidable (db.CanRefer groupId) :=
  inferInstanceAs (Decidable (∀ g ∈ groupId, g ∈ db.hostGroups.map HostGroupRow.id))

/-- The UPDATE for `id`, with the check of the reference. -/
def updateHost (groupId : Option String) (i : ℕ) (now id : String)
    (hgroup : db.CanRefer groupId) : Tables where
  hosts := db.hosts.map (moveHost groupId i now id)
  hostGroups := db.hostGroups
  hostIds := by
    have hsame : HostRow.id ∘ moveHost groupId i now id = HostRow.id :=
      funext (moveHost_id groupId i now id)
    rw [List.map_map, hsame]
    exact db.hostIds
  groupRefs := by
    intro h' hh' g hg
    obtain ⟨h, hh, rfl⟩ := List.mem_map.mp hh'
    rw [moveHost] at hg
    split at hg
    · exact hgroup g hg
    · exact db.groupRefs h hh g hg

/-- The loop of `reorderHosts` from the index `i` on, in a transaction: an error leaves the tables
as they were before the loop. An UPDATE of no row checks nothing. -/
def reorderFrom (groupId : Option String) (now : ℕ → String) (i : ℕ) (db : Tables) :
    List String → Except SqliteError Tables
  | [] => .ok db
  | id :: ids =>
    if hgroup : db.CanRefer groupId then
      reorderFrom groupId now (i + 1) (db.updateHost groupId i (now i) id hgroup) ids
    else if id ∈ db.hosts.map HostRow.id then .error .foreignKey
    else reorderFrom groupId now (i + 1) db ids

def reorderHosts (groupId : Option String) (hostIds : List String) (now : ℕ → String) :
    Except SqliteError Tables :=
  reorderFrom groupId now 0 db hostIds

end Tables

/-! ## What reordering does to a row -/

/-- A row after the loop. -/
def placed (groupId : Option String) (now : ℕ → String) (i : ℕ) (ids : List String) (h : HostRow) :
    HostRow :=
  if h.id ∈ ids then moved groupId (i + ids.idxOf h.id) (now (i + ids.idxOf h.id)) h else h

theorem placed_id (now : ℕ → String) (i : ℕ) (ids : List String)
    (h : HostRow) : (placed groupId now i ids h).id = h.id := by
  rw [placed]
  split <;> rfl

theorem placed_cons (now : ℕ → String) (i : ℕ) {id : String}
    {ids : List String} (hid : id ∉ ids) (h : HostRow) :
    placed groupId now (i + 1) ids (moveHost groupId i (now i) id h) =
      placed groupId now i (id :: ids) h := by
  rw [moveHost]
  split
  · rename_i heq
    have hfirst : (id :: ids).idxOf h.id = 0 := by rw [heq, List.idxOf_cons_self]
    have hnot : (moved groupId i (now i) h).id ∉ ids := by
      rw [moved, heq]
      exact hid
    rw [placed, if_neg hnot, placed, if_pos (heq ▸ List.mem_cons_self), hfirst, Nat.add_zero]
  · rename_i hne
    have hmem : h.id ∈ id :: ids ↔ h.id ∈ ids := by rw [List.mem_cons, or_iff_right hne]
    have hnext : (id :: ids).idxOf h.id = ids.idxOf h.id + 1 :=
      List.idxOf_cons_ne ids fun heq ↦ hne heq.symm
    have hindex : i + 1 + ids.idxOf h.id = i + (ids.idxOf h.id + 1) := by omega
    simp only [placed, hmem, hnext, hindex]

namespace Tables

variable {db db' : Tables} {groupId : Option String} {ids : List String} {now : ℕ → String}
  {h : HostRow} {a b : HostRow}

theorem reorderFrom_eq_ok (hgroup : db.CanRefer groupId) (i : ℕ) (hids : ids.Nodup) :
    ∃ db', reorderFrom groupId now i db ids = .ok db' ∧
      db'.hosts = db.hosts.map (placed groupId now i ids) ∧ db'.hostGroups = db.hostGroups := by
  induction ids generalizing db i with
  | nil => exact ⟨db, rfl, (List.map_id'' (fun h ↦ if_neg List.not_mem_nil) _).symm, rfl⟩
  | cons id ids ih =>
    rw [List.nodup_cons] at hids
    have hgroup' : (db.updateHost groupId i (now i) id hgroup).CanRefer groupId := hgroup
    obtain ⟨db', hdb', hhosts, hgroups⟩ := ih hgroup' (i + 1) hids.2
    refine ⟨db', ?_, ?_, hgroups⟩
    · rw [reorderFrom, dif_pos hgroup, hdb']
    · rw [hhosts, updateHost, List.map_map]
      exact List.map_congr_left fun h _ ↦ placed_cons groupId now i hids.1 h

/-! ## The rows of some ids -/

def getHost (db : Tables) (id : String) : Option HostRow := db.hosts.find? fun h ↦ h.id = id

/-- The rows of `ids`, in this order. -/
def rowsOf (db : Tables) (ids : List String) : List HostRow := ids.filterMap db.getHost

theorem getHost_id {id : String} (hh : db.getHost id = some h) : h.id = id := by
  have hid := List.find?_some (p := fun h' : HostRow ↦ decide (h'.id = id)) hh
  exact of_decide_eq_true hid

theorem getHost_eq_some (hh : h ∈ db.hosts) : db.getHost h.id = some h := by
  have hsome : (db.getHost h.id).isSome :=
    List.find?_isSome.mpr ⟨h, hh, decide_eq_true (p := h.id = h.id) rfl⟩
  obtain ⟨h', hh'⟩ := Option.isSome_iff_exists.mp hsome
  have hmem : h' ∈ db.hosts := List.mem_of_find?_eq_some hh'
  rw [hh', List.inj_on_of_nodup_map db.hostIds hmem hh (getHost_id hh')]

theorem rowsOf_map_id {rows : List HostRow} (h : ∀ row ∈ rows, row ∈ db.hosts) :
    db.rowsOf (rows.map HostRow.id) = rows := by
  induction rows with
  | nil => rfl
  | cons row rows ih =>
    rw [List.forall_mem_cons] at h
    rw [List.map_cons, rowsOf, List.filterMap_cons_some (getHost_eq_some h.1), ← rowsOf, ih h.2]

theorem mem_hosts_of_mem_rowsOf (hh : h ∈ db.rowsOf ids) : h ∈ db.hosts := by
  obtain ⟨id, -, hid⟩ := List.mem_filterMap.mp hh
  exact List.mem_of_find?_eq_some hid

theorem exists_map_id (h : ∀ id ∈ ids, id ∈ db.hosts.map HostRow.id) :
    ∃ rows : List HostRow, (∀ row ∈ rows, row ∈ db.hosts) ∧ rows.map HostRow.id = ids := by
  induction ids with
  | nil => exact ⟨[], fun _ hrow ↦ absurd hrow List.not_mem_nil, rfl⟩
  | cons id ids ih =>
    rw [List.forall_mem_cons] at h
    obtain ⟨rows, hrows, rfl⟩ := ih h.2
    obtain ⟨row, hrow, rfl⟩ := List.mem_map.mp h.1
    exact ⟨row :: rows, List.forall_mem_cons.mpr ⟨hrow, hrows⟩, rfl⟩

theorem map_id_rowsOf (h : ∀ id ∈ ids, id ∈ db.hosts.map HostRow.id) :
    (db.rowsOf ids).map HostRow.id = ids := by
  obtain ⟨rows, hrows, rfl⟩ := exists_map_id h
  rw [rowsOf_map_id hrows]

theorem hosts_nodup (db : Tables) : db.hosts.Nodup := List.Nodup.of_map _ db.hostIds

theorem rowsOf_of_map (f : HostRow → HostRow) (hf : ∀ h, (f h).id = h.id)
    (hhosts : db'.hosts = db.hosts.map f) (h : ∀ id ∈ ids, id ∈ db.hosts.map HostRow.id) :
    db'.rowsOf ids = (db.rowsOf ids).map f := by
  have hsame : HostRow.id ∘ f = HostRow.id := funext hf
  have hmem : ∀ row ∈ (db.rowsOf ids).map f, row ∈ db'.hosts := by
    intro row hrow
    obtain ⟨row, hmem, rfl⟩ := List.mem_map.mp hrow
    exact hhosts ▸ List.mem_map_of_mem (mem_hosts_of_mem_rowsOf hmem)
  have hids : ((db.rowsOf ids).map f).map HostRow.id = ids := by
    rw [List.map_map, hsame, map_id_rowsOf h]
  rw [← rowsOf_map_id hmem, hids]

/-! ## Where the hosts are listed -/

theorem rowsOf_nodup (h : ids.Nodup) (hmem : ∀ id ∈ ids, id ∈ db.hosts.map HostRow.id) :
    (db.rowsOf ids).Nodup := by
  rw [← map_id_rowsOf hmem] at h
  exact h.of_map _

/-- A sequence of ids is listed where the rows are. -/
theorem sublist_listed_iff (hmem : ∀ id ∈ ids, id ∈ db.hosts.map HostRow.id) :
    ids.Sublist db.listed ↔ (db.rowsOf ids).Sublist (orderBy sortKey db.hosts) := by
  constructor
  · intro h
    obtain ⟨rows, hrows, rfl⟩ := List.sublist_map_iff.mp h
    rwa [rowsOf_map_id fun row hrow ↦ mem_orderBy.mp (hrows.subset hrow)]
  · intro h
    have hmap := h.map HostRow.id
    rwa [map_id_rowsOf hmem] at hmap

theorem isInfix_listed_iff (hmem : ∀ id ∈ ids, id ∈ db.hosts.map HostRow.id) :
    ids <:+: db.listed ↔ db.rowsOf ids <:+: orderBy sortKey db.hosts := by
  constructor
  · rintro ⟨front, back, heq⟩
    obtain ⟨_, back, hsplit, h₁, rfl⟩ := List.append_eq_map_iff.mp heq
    obtain ⟨front, rows, rfl, rfl, rfl⟩ := List.append_eq_map_iff.mp h₁.symm
    refine ⟨front, back, ?_⟩
    rw [rowsOf_map_id]
    · exact hsplit.symm
    · intro row hrow
      have hlisted : row ∈ db.listHosts none none :=
        hsplit ▸ List.mem_append_left _ (List.mem_append_right _ hrow)
      exact mem_orderBy.mp hlisted
  · intro h
    have hmap := h.map HostRow.id
    rwa [map_id_rowsOf hmem] at hmap

theorem mem_rowsOf : h ∈ db.rowsOf ids ↔ h ∈ db.hosts ∧ h.id ∈ ids := by
  constructor
  · intro hh
    refine ⟨mem_hosts_of_mem_rowsOf hh, ?_⟩
    obtain ⟨id, hid, hget⟩ := List.mem_filterMap.mp hh
    rw [getHost_id hget]
    exact hid
  · rintro ⟨hh, hid⟩
    exact List.mem_filterMap.mpr ⟨h.id, hid, getHost_eq_some hh⟩

theorem pair_sublist_hosts_iff (ha : a ∈ db.hosts) (hb : b ∈ db.hosts) :
    [a, b].Sublist db.hosts ↔ [a.id, b.id].Sublist (db.hosts.map HostRow.id) := by
  refine ⟨fun hsub ↦ hsub.map HostRow.id, fun hsub ↦ ?_⟩
  obtain ⟨rows, hrows, heq⟩ := List.sublist_map_iff.mp hsub
  have hrow : ∀ row ∈ rows, row ∈ db.hosts := fun row hrow ↦ hrows.subset hrow
  have hpair : ∀ row ∈ [a, b], row ∈ db.hosts :=
    List.forall_mem_cons.mpr ⟨ha, List.forall_mem_singleton.mpr hb⟩
  have hsame : rows = [a, b] := by
    rw [← rowsOf_map_id hrow, ← heq]
    exact rowsOf_map_id hpair
  exact hsame ▸ hrows

theorem rowsOf_perm_filter (h : ids.Nodup) (hmem : ∀ id ∈ ids, id ∈ db.hosts.map HostRow.id) :
    (db.rowsOf ids).Perm (db.hosts.filter fun h ↦ h.id ∈ ids) := by
  refine (List.perm_ext_iff_of_nodup (rowsOf_nodup h hmem) (db.hosts_nodup.filter _)).mpr ?_
  intro row
  rw [mem_rowsOf, List.mem_filter, decide_eq_true_iff]

/-! ## When the listing shows the order -/

/-- The legacy names of the hosts do not descend. -/
def NamesInOrder (db : Tables) (ids : List String) : Prop :=
  (db.rowsOf ids).Pairwise fun a b ↦ groupName a ≤ groupName b

/-- `a` is listed before `b`: by their keys, and where these are equal by the table. -/
def Before (db : Tables) (a b : HostRow) : Prop :=
  sortKey a < sortKey b ∨
    sortKey a = sortKey b ∧ [a.id, b.id].Sublist (db.hosts.map HostRow.id)

theorem before_iff (ha : a ∈ db.hosts) (hb : b ∈ db.hosts) (hab : a.id ≠ b.id) :
    [a, b].Sublist (orderBy sortKey db.hosts) ↔ db.Before a b := by
  have hne : a ≠ b := fun heq ↦ hab (congrArg HostRow.id heq)
  rw [pair_sublist_orderBy db.hosts_nodup ha hb hne, Before, pair_sublist_hosts_iff ha hb]

theorem before_congr {a a' b b' : HostRow}
    (hhosts : db'.hosts.map HostRow.id = db.hosts.map HostRow.id)
    (ha : a'.id = a.id ∧ sortKey a' = sortKey a) (hb : b'.id = b.id ∧ sortKey b' = sortKey b) :
    db'.Before a' b' ↔ db.Before a b := by
  rw [Before, Before, ha.1, ha.2, hb.1, hb.2, hhosts]

/-- No other host comes between the first of `ids`, with the sort order 0, and the last. -/
def NoneBetween (db : Tables) (ids : List String) : Prop :=
  ∀ first ∈ (db.rowsOf ids).head?, ∀ last ∈ (db.rowsOf ids).getLast?, ∀ h ∈ db.hosts, h.id ∉ ids →
    ¬(db.Before { first with sortOrder := some 0 } h ∧
      db.Before h { last with sortOrder := some (ids.length - 1) })

/-- All hosts of the group but local ones are in `ids`. -/
def AllOf (db : Tables) (groupId : Option String) (ids : List String) : Prop :=
  ∀ h ∈ db.hosts, h.type = .ssh → h.hostGroupId = groupId → h.id ∈ ids

/-- What `reorderHosts` of `db` that led to `db'` promises of the listing. -/
structure Shown (db db' : Tables) (groupId : Option String) (ids : List String) : Prop where
  inOrder : ids.Sublist db'.listed
  together : db.AllOf groupId ids → ids <:+: db'.listed
  others : db'.listed.filter (· ∉ ids) = db.listed.filter (· ∉ ids)

theorem sortKey_placed (hid : h.id ∈ ids) (htype : h.type = .ssh) :
    sortKey (placed groupId now 0 ids h) =
      toLex (1, toLex (groupName h, ((ids.idxOf h.id : ℤ) : WithBot ℤ))) := by
  have hne : h.type ≠ .localHost := fun hlocal ↦ HostType.noConfusion (hlocal.symm.trans htype)
  rw [placed, if_pos hid, moved, sortKey, if_neg hne, nullsFirst, Nat.zero_add]
  rfl

/-- Two hosts that are placed, one before the other: the names of their groups decide. -/
theorem placed_lt_iff_and_le_iff (ha : a.id ∈ ids) (hatype : a.type = .ssh)
    (hb : b.id ∈ ids) (hbtype : b.type = .ssh) (hlt : ids.idxOf a.id < ids.idxOf b.id) :
    (sortKey (placed groupId now 0 ids a) < sortKey (placed groupId now 0 ids b) ↔
      groupName a ≤ groupName b) ∧
    (sortKey (placed groupId now 0 ids a) ≤ sortKey (placed groupId now 0 ids b) ↔
      groupName a ≤ groupName b) := by
  have hsort : ((ids.idxOf a.id : ℤ) : WithBot ℤ) < ((ids.idxOf b.id : ℤ) : WithBot ℤ) :=
    WithBot.coe_lt_coe.mpr (Int.ofNat_lt.mpr hlt)
  rw [sortKey_placed ha hatype, sortKey_placed hb hbtype]
  simp only [Prod.Lex.toLex_lt_toLex, Prod.Lex.toLex_le_toLex, lt_irrefl, false_or, true_and, hsort,
    hsort.le, and_true]
  exact ⟨le_iff_lt_or_eq.symm, le_iff_lt_or_eq.symm⟩

theorem pairwise_idxOf_rowsOf (h : ids.Nodup) (hmem : ∀ id ∈ ids, id ∈ db.hosts.map HostRow.id) :
    (db.rowsOf ids).Pairwise fun a b ↦ ids.idxOf a.id < ids.idxOf b.id := by
  have hids : ids.Pairwise fun a b ↦ ids.idxOf a < ids.idxOf b := by
    rw [List.pairwise_iff_getElem]
    intro i j hi hj hlt
    rwa [h.idxOf_getElem, h.idxOf_getElem]
  have hmap : ((db.rowsOf ids).map HostRow.id).Pairwise fun a b ↦ ids.idxOf a < ids.idxOf b := by
    rwa [map_id_rowsOf hmem]
  rwa [List.pairwise_map] at hmap

/-- The ids of a call of `reorderHosts`: distinct ids of hosts that are not local. -/
structure Valid (db : Tables) (ids : List String) : Prop where
  nodup : ids.Nodup
  mem : ∀ id ∈ ids, id ∈ db.hosts.map HostRow.id
  ssh : ∀ h ∈ db.hosts, h.id ∈ ids → h.type = .ssh

theorem Valid.type_eq (h : db.Valid ids) {row : HostRow} (hrow : row ∈ db.rowsOf ids) :
    row.type = .ssh :=
  h.ssh row (mem_rowsOf.mp hrow).1 (mem_rowsOf.mp hrow).2

theorem Valid.pairwise_lt (h : db.Valid ids) (hnames : db.NamesInOrder ids) :
    ((db.rowsOf ids).map (placed groupId now 0 ids)).Pairwise fun a b ↦ sortKey a < sortKey b := by
  rw [List.pairwise_map]
  refine (hnames.and (pairwise_idxOf_rowsOf h.nodup h.mem)).imp_of_mem ?_
  intro a b ha hb hab
  exact (placed_lt_iff_and_le_iff (mem_rowsOf.mp ha).2 (h.type_eq ha) (mem_rowsOf.mp hb).2
    (h.type_eq hb) hab.2).1.mpr hab.1

theorem Valid.namesInOrder (h : db.Valid ids)
    (hle : ((db.rowsOf ids).map (placed groupId now 0 ids)).Pairwise fun a b ↦
      sortKey a ≤ sortKey b) : db.NamesInOrder ids := by
  rw [List.pairwise_map] at hle
  refine (hle.and (pairwise_idxOf_rowsOf h.nodup h.mem)).imp_of_mem ?_
  intro a b ha hb hab
  exact (placed_lt_iff_and_le_iff (mem_rowsOf.mp ha).2 (h.type_eq ha) (mem_rowsOf.mp hb).2
    (h.type_eq hb) hab.2).2.mp hab.1

theorem map_id_eq (hhosts : db'.hosts = db.hosts.map (placed groupId now 0 ids)) :
    db'.hosts.map HostRow.id = db.hosts.map HostRow.id := by
  have hsame : HostRow.id ∘ placed groupId now 0 ids = HostRow.id := funext (placed_id _ _ _ _)
  rw [hhosts, List.map_map, hsame]

/-- Hosts that are not asked for keep their order. -/
theorem others_eq (hhosts : db'.hosts = db.hosts.map (placed groupId now 0 ids)) :
    db'.listed.filter (· ∉ ids) = db.listed.filter (· ∉ ids) := by
  have hout : (fun h : HostRow ↦ decide (h.id ∉ ids)) ∘ placed groupId now 0 ids =
      fun h ↦ decide (h.id ∉ ids) := by
    funext h
    rw [Function.comp_apply, placed_id]
  have hsame : db'.hosts.filter (fun h ↦ h.id ∉ ids) = db.hosts.filter fun h ↦ h.id ∉ ids := by
    rw [hhosts, List.filter_map, hout]
    refine (List.map_congr_left fun h hh ↦ ?_).trans (List.map_id _)
    rw [List.mem_filter, decide_eq_true_iff] at hh
    exact if_neg hh.2
  rw [listed, listed, listHosts, listHosts, List.filter_map, List.filter_map]
  exact congrArg _ (filter_orderBy _ |>.trans (hsame ▸ (filter_orderBy _).symm))

theorem Valid.idxOf_head (h : db.Valid ids) {a : HostRow} (ha : a ∈ (db.rowsOf ids).head?) :
    (ids.idxOf a.id : ℤ) = 0 := by
  obtain ⟨rows, hrows⟩ := List.head?_eq_some_iff.mp ha
  have hids := map_id_rowsOf h.mem
  rw [hrows, List.map_cons] at hids
  rw [← hids, List.idxOf_cons_self]
  rfl

theorem Valid.idxOf_getLast (h : db.Valid ids) {b : HostRow}
    (hb : b ∈ (db.rowsOf ids).getLast?) : (ids.idxOf b.id : ℤ) = ids.length - 1 := by
  obtain ⟨rows, hrows⟩ := List.getLast?_eq_some_iff.mp hb
  have hids := map_id_rowsOf h.mem
  rw [hrows, List.map_append] at hids
  have hnodup := h.nodup
  rw [← hids, List.nodup_append] at hnodup
  have hnot : b.id ∉ rows.map HostRow.id :=
    fun hmem ↦ hnodup.2.2 b.id hmem b.id List.mem_cons_self rfl
  rw [← hids, List.idxOf_append_of_notMem hnot, List.length_append]
  simp

theorem Valid.rowsOf_eq (h : db.Valid ids)
    (hhosts : db'.hosts = db.hosts.map (placed groupId now 0 ids)) :
    db'.rowsOf ids = (db.rowsOf ids).map (placed groupId now 0 ids) :=
  rowsOf_of_map _ (placed_id _ _ _ _) hhosts h.mem

theorem Valid.mem' (h : db.Valid ids)
    (hhosts : db'.hosts = db.hosts.map (placed groupId now 0 ids)) :
    ∀ id ∈ ids, id ∈ db'.hosts.map HostRow.id := by
  rw [map_id_eq hhosts]
  exact h.mem

/-- The hosts are listed in the order of `ids` exactly where their names do not descend. -/
theorem Valid.sublist_iff (h : db.Valid ids)
    (hhosts : db'.hosts = db.hosts.map (placed groupId now 0 ids)) :
    ids.Sublist db'.listed ↔ db.NamesInOrder ids := by
  rw [sublist_listed_iff (h.mem' hhosts)]
  constructor
  · intro hsub
    have hle := pairwise_orderBy.sublist hsub
    rw [h.rowsOf_eq hhosts] at hle
    exact h.namesInOrder hle
  · intro hnames
    have hlt : ((db.rowsOf ids).map (placed groupId now 0 ids)).Pairwise fun a b ↦
        sortKey a < sortKey b := h.pairwise_lt hnames
    rw [← h.rowsOf_eq hhosts] at hlt
    have heq := orderBy_eq_of_pairwise_lt (rowsOf_perm_filter h.nodup (h.mem' hhosts)) hlt
    rw [← filter_orderBy] at heq
    exact heq ▸ List.filter_sublist

theorem mem_hosts_iff {x : HostRow}
    (hhosts : db'.hosts = db.hosts.map (placed groupId now 0 ids)) (hx : x.id ∉ ids) :
    x ∈ db'.hosts ↔ x ∈ db.hosts := by
  rw [hhosts, List.mem_map]
  constructor
  · rintro ⟨y, hy, rfl⟩
    rw [placed_id] at hx
    rwa [placed, if_neg hx]
  · intro hmem
    exact ⟨x, hmem, if_neg hx⟩

theorem before_placed_iff {row x : HostRow}
    (hhosts : db'.hosts = db.hosts.map (placed groupId now 0 ids)) (hrow : row ∈ db.rowsOf ids)
    (hx : x ∈ db.hosts) (hxid : x.id ∉ ids) :
    ([placed groupId now 0 ids row, x].Sublist (orderBy sortKey db'.hosts) ↔
        db.Before { row with sortOrder := some (ids.idxOf row.id) } x) ∧
      ([x, placed groupId now 0 ids row].Sublist (orderBy sortKey db'.hosts) ↔
        db.Before x { row with sortOrder := some (ids.idxOf row.id) }) := by
  obtain ⟨hmem, hid⟩ := mem_rowsOf.mp hrow
  have hne : (placed groupId now 0 ids row).id ≠ x.id := by
    rw [placed_id]
    exact fun heq ↦ hxid (heq ▸ hid)
  have hplaced : placed groupId now 0 ids row ∈ db'.hosts := hhosts ▸ List.mem_map_of_mem hmem
  have hx' : x ∈ db'.hosts := (mem_hosts_iff hhosts hxid).mpr hx
  have hsame : (placed groupId now 0 ids row).id = row.id ∧
      sortKey (placed groupId now 0 ids row) =
        sortKey { row with sortOrder := some (ids.idxOf row.id) } := by
    refine ⟨placed_id _ _ _ _ _, ?_⟩
    rw [placed, if_pos hid, Nat.zero_add]
    rfl
  rw [before_iff hplaced hx' hne, before_iff hx' hplaced hne.symm]
  exact ⟨before_congr (map_id_eq hhosts) hsame ⟨rfl, rfl⟩,
    before_congr (map_id_eq hhosts) ⟨rfl, rfl⟩ hsame⟩

theorem Valid.together_iff (h : db.Valid ids)
    (hhosts : db'.hosts = db.hosts.map (placed groupId now 0 ids))
    (hnames : db.NamesInOrder ids) :
    ids <:+: db'.listed ↔ db.NoneBetween ids := by
  have hsub := (sublist_listed_iff (h.mem' hhosts)).mp ((h.sublist_iff hhosts).mpr hnames)
  rw [isInfix_listed_iff (h.mem' hhosts),
    isInfix_iff_none_between (nodup_orderBy db'.hosts_nodup) hsub]
  have hhead : (db'.rowsOf ids).head? = (db.rowsOf ids).head?.map (placed groupId now 0 ids) := by
    rw [h.rowsOf_eq hhosts, List.head?_map]
  have hlast : (db'.rowsOf ids).getLast? =
      (db.rowsOf ids).getLast?.map (placed groupId now 0 ids) := by
    rw [h.rowsOf_eq hhosts, List.getLast?_map]
  constructor
  · intro hnone a ha b hb x hx hxid ⟨hax, hxb⟩
    have ha' : placed groupId now 0 ids a ∈ (db'.rowsOf ids).head? :=
      hhead ▸ Option.mem_map_of_mem _ ha
    have hb' : placed groupId now 0 ids b ∈ (db'.rowsOf ids).getLast? :=
      hlast ▸ Option.mem_map_of_mem _ hb
    have hx' : x ∈ orderBy sortKey db'.hosts :=
      mem_orderBy.mpr ((mem_hosts_iff hhosts hxid).mpr hx)
    refine hnone _ ha' _ hb' x hx' (fun hmem ↦ hxid (mem_rowsOf.mp hmem).2) ⟨?_, ?_⟩
    · refine (before_placed_iff hhosts (List.mem_of_mem_head? ha) hx hxid).1.mpr ?_
      rwa [h.idxOf_head ha]
    · refine (before_placed_iff hhosts (List.mem_of_mem_getLast? hb) hx hxid).2.mpr ?_
      rwa [h.idxOf_getLast hb]
  · intro hnone a' ha' b' hb' x hx hxrow ⟨hax, hxb⟩
    rw [hhead] at ha'
    rw [hlast] at hb'
    obtain ⟨a, ha, rfl⟩ := Option.mem_map.mp ha'
    obtain ⟨b, hb, rfl⟩ := Option.mem_map.mp hb'
    have hx' : x ∈ db'.hosts := mem_orderBy.mp hx
    have hxid : x.id ∉ ids := fun hid ↦ hxrow (mem_rowsOf.mpr ⟨hx', hid⟩)
    have hxdb : x ∈ db.hosts := (mem_hosts_iff hhosts hxid).mp hx'
    refine hnone a ha b hb x hxdb hxid ⟨?_, ?_⟩
    · have hbefore := (before_placed_iff hhosts (List.mem_of_mem_head? ha) hxdb hxid).1.mp hax
      rwa [h.idxOf_head ha] at hbefore
    · have hbefore := (before_placed_iff hhosts (List.mem_of_mem_getLast? hb) hxdb hxid).2.mp hxb
      rwa [h.idxOf_getLast hb] at hbefore

/-! ## The listing after reordering -/

/-- Two hosts with legacy names, and the groups that the migration has given them. -/
def migrated : Tables where
  hosts := [⟨"h1", .ssh, "web", some "a", some "g-a", some 0, ""⟩,
    ⟨"h2", .ssh, "db", some "b", some "g-b", some 0, ""⟩]
  hostGroups := [⟨"g-a", "a", 0, "", ""⟩, ⟨"g-b", "b", 1, "", ""⟩]
  hostIds := by decide
  groupRefs := by decide

/-- The listing shows what `reorderHosts` was asked for exactly where the legacy names of the hosts
do not descend and, where they are all of the group, no other host comes between them. -/
theorem reorderHosts_listed_iff (hgroup : db.CanRefer groupId) (h : db.Valid ids)
    (now : ℕ → String) :
    ∃ db', db.reorderHosts groupId ids now = .ok db' ∧
      (Shown db db' groupId ids ↔
        db.NamesInOrder ids ∧ (db.AllOf groupId ids → db.NoneBetween ids)) := by
  obtain ⟨db', hdb', hhosts, -⟩ := reorderFrom_eq_ok hgroup 0 h.nodup
  refine ⟨db', hdb', ?_⟩
  constructor
  · rintro ⟨horder, htogether, -⟩
    have hnames := (h.sublist_iff hhosts).mp horder
    exact ⟨hnames, fun hall ↦ (h.together_iff hhosts hnames).mp (htogether hall)⟩
  · rintro ⟨hnames, hnone⟩
    exact ⟨(h.sublist_iff hhosts).mpr hnames,
      fun hall ↦ (h.together_iff hhosts hnames).mpr (hnone hall), others_eq hhosts⟩

theorem reorderHosts_listed_iff_migrated :
    ∃ db', migrated.reorderHosts (some "g-a") ["h1", "h2"] (fun _ ↦ "") = .ok db' ∧
      (Shown migrated db' (some "g-a") ["h1", "h2"] ↔
        migrated.NamesInOrder ["h1", "h2"] ∧
          (migrated.AllOf (some "g-a") ["h1", "h2"] → migrated.NoneBetween ["h1", "h2"])) :=
  reorderHosts_listed_iff (by decide) ⟨by decide, by decide, by decide⟩ _

/-- The host of the other group stays behind, although it was to be the first. -/
theorem not_shown_migrated :
    ¬∀ (db : Tables) (groupId : Option String) (ids : List String) (now : ℕ → String),
      db.CanRefer groupId → db.Valid ids → ∃ db', db.reorderHosts groupId ids now = .ok db' ∧
        Shown db db' groupId ids := by
  intro h
  obtain ⟨db', hdb', hshown⟩ := h migrated (some "g-a") ["h2", "h1"] (fun _ ↦ "") (by decide)
    ⟨by decide, by decide, by decide⟩
  have hlisted : db'.listed = ["h1", "h2"] := by
    cases hdb'
    decide
  have horder := hshown.inOrder
  rw [hlisted] at horder
  exact absurd horder (by decide)

end Tables

end Lasterm.Hub.HostsDal
