import Lasterm.Library.Runs
import Lasterm.Library.Shell
import Mathlib.Data.List.Nodup
import Mathlib.Data.List.Perm.Subperm

/-!
# Pairing codes

`POST /api/pair` and `POST /api/pair/verify` of `pair.ts`, over the table of `pairing-codes-dal.ts`.
A code is good for a minute and for one token, and no more than three of them are to be redeemable.

The two handlers disagree on the instant at which a code expires: it no longer counts as active, and
can still be redeemed. `holds_iff_careful` says that the bound is kept exactly where no code is
created in an instant in which other ones expire that would be too many with it.

Times are in milliseconds: as ISO texts, they compare as numbers do. A handler runs to its end
before the next one starts.
-/

namespace Lasterm.Hub.PairingCodes

open Shell Runs

/-! ## The table -/

structure PairingCodeRow where
  id : String
  code : Text
  createdAt : ℕ
  expiresAt : ℕ
  used : Bool
  usedAt : Option ℕ
  usedByIp : Option Text

/-- The rows of `pairing_codes`, with the constraints of the table. -/
structure PairingTable where
  rows : List PairingCodeRow
  ids_nodup : (rows.map (·.id)).Nodup
  codes_nodup : (rows.map (·.code)).Nodup

namespace PairingTable

def empty : PairingTable := ⟨[], List.nodup_nil, List.nodup_nil⟩

variable (db : PairingTable)

theorem forall_ne_iff {rows : List PairingCodeRow} {id : String} {code : Text} :
    (∀ row ∈ rows, row.id ≠ id ∧ row.code ≠ code) ↔
      id ∉ rows.map (·.id) ∧ code ∉ rows.map (·.code) := by
  simp only [List.mem_map, not_exists, not_and, forall_and]

/-- A constraint can refuse it. -/
def createPairingCode (id : String) (code : Text) (createdAt expiresAt : ℕ) :
    Option PairingTable :=
  if h : ∀ row ∈ db.rows, row.id ≠ id ∧ row.code ≠ code then
    some
      { rows := db.rows ++ [⟨id, code, createdAt, expiresAt, false, none, none⟩]
        ids_nodup := by
          rw [List.map_append]
          exact db.ids_nodup.append (List.nodup_singleton _)
            (List.disjoint_singleton.mpr (forall_ne_iff.mp h).1)
        codes_nodup := by
          rw [List.map_append]
          exact db.codes_nodup.append (List.nodup_singleton _)
            (List.disjoint_singleton.mpr (forall_ne_iff.mp h).2) }
  else none

def getPairingCodeByCode (code : Text) : Option PairingCodeRow :=
  db.rows.find? fun row ↦ row.code = code

def markUsed (id : String) (usedAt : ℕ) (usedByIp : Text) (row : PairingCodeRow) :
    PairingCodeRow :=
  if row.id = id then { row with used := true, usedAt := some usedAt, usedByIp := some usedByIp }
  else row

theorem markUsed_id (id : String) (usedAt : ℕ) (ip : Text) (row : PairingCodeRow) :
    (markUsed id usedAt ip row).id = row.id := by
  rw [markUsed]
  split <;> rfl

theorem markUsed_code (id : String) (usedAt : ℕ) (ip : Text) (row : PairingCodeRow) :
    (markUsed id usedAt ip row).code = row.code := by
  rw [markUsed]
  split <;> rfl

theorem markUsed_expiresAt (id : String) (usedAt : ℕ) (ip : Text) (row : PairingCodeRow) :
    (markUsed id usedAt ip row).expiresAt = row.expiresAt := by
  rw [markUsed]
  split <;> rfl

theorem markUsed_used {id : String} {usedAt : ℕ} {ip : Text} {row : PairingCodeRow}
    (h : row.used = true) : (markUsed id usedAt ip row).used = true := by
  rw [markUsed]
  split
  · rfl
  · exact h

def markPairingCodeUsed (id : String) (usedAt : ℕ) (usedByIp : Text) : PairingTable where
  rows := db.rows.map (markUsed id usedAt usedByIp)
  ids_nodup := by
    rw [List.map_map]
    convert db.ids_nodup using 2
    exact funext (markUsed_id id usedAt usedByIp)
  codes_nodup := by
    rw [List.map_map]
    convert db.codes_nodup using 2
    exact funext (markUsed_code id usedAt usedByIp)

def countActivePairingCodes (now : ℕ) : ℕ :=
  db.rows.countP fun row ↦ !row.used && now < row.expiresAt

end PairingTable

/-! ## The handlers -/

/-- `toString().padStart(8, "0")`. -/
def pairingCode (n : Fin 100000000) : Text := (Nat.toDigits 10 n).leftpad 8 '0'

def maxAttempts : ℕ := 5

inductive PairReply where
  | rateLimit
  | created (code : Text) (expiresAt : ℕ)
  /-- What the last attempt throws. -/
  | failed

/-- `POST /api/pair`, with the two readings of the clock and the numbers of `randomInt`. -/
def postPair (db : PairingTable) (countedAt now : ℕ) (id : String) (draw : ℕ → Fin 100000000) :
    PairingTable × PairReply :=
  if 3 ≤ db.countActivePairingCodes countedAt then (db, .rateLimit)
  else
    let attempts := (List.range maxAttempts).findSome? fun attempt ↦
      let code := pairingCode (draw attempt)
      (db.createPairingCode id code now (now + 60000)).map (·, code)
    match attempts with
    | some (db', code) => (db', .created code (now + 60000))
    | none => (db, .failed)

/-- `/^\d{8}$/`. -/
def isCode (code : Text) : Bool := code.length = 8 && code.all Char.isDigit

inductive VerifyReply where
  | rateLimit
  | invalidFormat
  | codeNotFound
  | codeUsed
  | codeExpired
  | token (token : Text)
  /-- The row of the token could not be inserted. -/
  | failed

/-- A request to `POST /api/pair/verify`. The schema has looked at its body. -/
structure VerifyRequest where
  now : ℕ
  clientIp : Text
  /-- What `checkAndIncrementPairRate` says. -/
  allowed : Bool
  code : Text
  /-- What `createToken` returns. -/
  token : Option Text

def postVerify (db : PairingTable) (r : VerifyRequest) : PairingTable × VerifyReply :=
  if r.allowed = false then (db, .rateLimit)
  else if isCode r.code = false then (db, .invalidFormat)
  else
    match db.getPairingCodeByCode r.code with
    | none => (db, .codeNotFound)
    | some row =>
      if row.used then (db, .codeUsed)
      else if row.expiresAt < r.now then (db, .codeExpired)
      else
        (db.markPairingCodeUsed row.id r.now r.clientIp,
          match r.token with
          | some token => .token token
          | none => .failed)

/-! ## Runs -/

/-- A code, and the token that it was exchanged for. -/
structure Exchange where
  code : Text
  token : Text
  exchangedAt : ℕ

inductive PairEvent where
  | pair (countedAt now : ℕ) (id : String) (draw : ℕ → Fin 100000000)
  | verify (r : VerifyRequest)

structure Pairing where
  db : PairingTable
  now : ℕ
  /-- The tokens handed out so far. -/
  exchanges : List Exchange

namespace Pairing

def start : Pairing := ⟨.empty, 0, []⟩

variable (s : Pairing)

/-- A request, at a time that does not go back. -/
def step : PairEvent → Option Pairing
  | .pair countedAt now id draw =>
    if s.now ≤ countedAt ∧ countedAt ≤ now then
      some { s with db := (postPair s.db countedAt now id draw).1, now := now }
    else none
  | .verify r =>
    if s.now ≤ r.now then
      some
        { db := (postVerify s.db r).1
          now := r.now
          exchanges :=
            match (postVerify s.db r).2 with
            | .token token => s.exchanges ++ [⟨r.code, token, r.now⟩]
            | _ => s.exchanges }
    else none

end Pairing

/-- The code would be accepted. -/
def Redeemable (db : PairingTable) (now : ℕ) (code : Text) : Prop :=
  ∀ clientIp token,
    (postVerify db ⟨now, clientIp, true, code, some token⟩).2 = .token token

namespace Pairing

variable (s : Pairing)

/-- From the last request on, as long as no other one comes, three codes are redeemable at most;
each code was exchanged once at most, and not after its expiry. -/
structure Holds : Prop where
  atMostThree : ∀ now, s.now ≤ now → ∀ codes : List Text, codes.Nodup →
    (∀ code ∈ codes, Redeemable s.db now code) → codes.length ≤ 3
  once : (s.exchanges.map (·.code)).Nodup
  inTime : ∀ exchange ∈ s.exchanges, ∀ row ∈ s.db.rows, row.code = exchange.code →
    exchange.exchangedAt ≤ row.expiresAt

/-- One of the numbers makes a new code. -/
def CanCreate (db : PairingTable) (id : String) (draw : ℕ → Fin 100000000) : Prop :=
  id ∉ db.rows.map (·.id) ∧
    ∃ attempt < maxAttempts, pairingCode (draw attempt) ∉ db.rows.map (·.code)

/-- The unused codes that expire in this very instant. -/
def countExpiring (db : PairingTable) (now : ℕ) : ℕ :=
  db.rows.countP fun row ↦ !row.used && row.expiresAt = now

/-- A code is created in an instant with the count of the active ones only if these leave room for
it together with those that expire in that instant. -/
def Careful : PairEvent → Prop
  | .pair countedAt now id draw => countedAt = now → s.db.countActivePairingCodes now < 3 →
      CanCreate s.db id draw → s.db.countActivePairingCodes now + countExpiring s.db now < 3
  | .verify _ => True

end Pairing

/-! ## Codes -/

theorem isCode_pairingCode (n : Fin 100000000) : isCode (pairingCode n) = true := by
  have hlength : (Nat.toDigits 10 n).length ≤ 8 :=
    (Nat.length_toDigits_le_iff (by decide) (by decide)).mpr n.isLt
  rw [isCode, pairingCode, Bool.and_eq_true, decide_eq_true_eq, List.length_leftpad,
    Nat.max_eq_left hlength, List.all_eq_true]
  refine ⟨rfl, fun c hc ↦ ?_⟩
  rw [List.leftpad, List.mem_append] at hc
  obtain hc | hc := hc
  · rw [List.eq_of_mem_replicate hc]
    rfl
  · exact Nat.isDigit_of_mem_toDigits (by decide) (by decide) hc

/-! ## Creating -/

namespace PairingTable

variable {db db' : PairingTable} {id : String} {code : Text} {createdAt expiresAt : ℕ}

theorem createPairingCode_eq_some :
    db.createPairingCode id code createdAt expiresAt = some db' →
      id ∉ db.rows.map (·.id) ∧ code ∉ db.rows.map (·.code) ∧
        db'.rows = db.rows ++ [⟨id, code, createdAt, expiresAt, false, none, none⟩] := by
  intro h
  rw [createPairingCode] at h
  split at h
  · rename_i hfresh
    cases h
    obtain ⟨hid, hcode⟩ := forall_ne_iff.mp hfresh
    exact ⟨hid, hcode, rfl⟩
  · cases h

theorem createPairingCode_eq_none :
    db.createPairingCode id code createdAt expiresAt = none →
      id ∈ db.rows.map (·.id) ∨ code ∈ db.rows.map (·.code) := by
  intro h
  rw [createPairingCode] at h
  split at h
  · cases h
  · rename_i htaken
    rwa [forall_ne_iff, not_and_or, not_not, not_not] at htaken

end PairingTable

/-- What `POST /api/pair` does to the table. -/
theorem postPair_cases (db : PairingTable) (countedAt now : ℕ) (id : String)
    (draw : ℕ → Fin 100000000) :
    ((postPair db countedAt now id draw).1 = db ∧
      (db.countActivePairingCodes countedAt < 3 → ¬Pairing.CanCreate db id draw)) ∨
    (db.countActivePairingCodes countedAt < 3 ∧ Pairing.CanCreate db id draw ∧
      ∃ code, isCode code = true ∧ (postPair db countedAt now id draw).1.rows =
        db.rows ++ [⟨id, code, now, now + 60000, false, none, none⟩]) := by
  rw [postPair]
  split
  · rename_i hmany
    exact .inl ⟨rfl, fun hfew ↦ absurd hmany (Nat.not_le.mpr hfew)⟩
  · rename_i hfew
    dsimp only
    cases hattempts : (List.range maxAttempts).findSome? fun attempt ↦
        (db.createPairingCode id (pairingCode (draw attempt)) now (now + 60000)).map
          (·, pairingCode (draw attempt)) with
    | none =>
      refine .inl ⟨rfl, fun _ ⟨hid, attempt, hlt, hcode⟩ ↦ ?_⟩
      have hnone := List.findSome?_eq_none_iff.mp hattempts attempt (List.mem_range.mpr hlt)
      obtain htaken | htaken :=
        PairingTable.createPairingCode_eq_none (Option.map_eq_none_iff.mp hnone)
      · exact hid htaken
      · exact hcode htaken
    | some result =>
      obtain ⟨attempt, hlt, hsome⟩ := List.exists_of_findSome?_eq_some hattempts
      obtain ⟨db', hdb', rfl⟩ := Option.map_eq_some_iff.mp hsome
      obtain ⟨hid, hcode, hrows⟩ := PairingTable.createPairingCode_eq_some hdb'
      exact .inr ⟨Nat.not_le.mp hfew, ⟨hid, attempt, List.mem_range.mp hlt, hcode⟩, _,
        isCode_pairingCode _, hrows⟩

/-! ## Redeeming -/

/-- The request redeems the row. -/
structure Accepted (db : PairingTable) (r : VerifyRequest) (row : PairingCodeRow) : Prop where
  allowed : r.allowed = true
  isCode : isCode r.code = true
  mem : row ∈ db.rows
  code : row.code = r.code
  unused : row.used = false
  inTime : r.now ≤ row.expiresAt

variable {db : PairingTable}

theorem getPairingCodeByCode_eq_some {code : Text} {row : PairingCodeRow} :
    db.getPairingCodeByCode code = some row ↔ row ∈ db.rows ∧ row.code = code := by
  rw [PairingTable.getPairingCodeByCode]
  constructor
  · intro h
    exact ⟨List.mem_of_find?_eq_some h, by simpa using List.find?_some h⟩
  · rintro ⟨hmem, hcode⟩
    cases hfound : db.rows.find? fun row ↦ row.code = code with
    | none => exact absurd hcode (by simpa using List.find?_eq_none.mp hfound row hmem)
    | some found =>
      have hfoundCode : found.code = code := by simpa using List.find?_some hfound
      rw [List.inj_on_of_nodup_map db.codes_nodup (List.mem_of_find?_eq_some hfound) hmem
        (hfoundCode.trans hcode.symm)]

/-- What `POST /api/pair/verify` does. -/
theorem postVerify_cases (db : PairingTable) (r : VerifyRequest) :
    (∃ row, Accepted db r row ∧ postVerify db r =
      (db.markPairingCodeUsed row.id r.now r.clientIp, r.token.elim .failed .token)) ∨
    ((∀ row, ¬Accepted db r row) ∧ (postVerify db r).1 = db ∧
      ∀ token, (postVerify db r).2 ≠ .token token) := by
  rw [postVerify]
  split
  · rename_i hallowed
    refine .inr ⟨fun row h ↦ ?_, rfl, fun token h ↦ by cases h⟩
    rw [h.allowed] at hallowed
    cases hallowed
  rename_i hallowed
  split
  · rename_i hcode
    refine .inr ⟨fun row h ↦ ?_, rfl, fun token h ↦ by cases h⟩
    rw [h.isCode] at hcode
    cases hcode
  rename_i hcode
  cases hfound : db.getPairingCodeByCode r.code with
  | none =>
    refine .inr ⟨fun row h ↦ ?_, rfl, fun token h ↦ by cases h⟩
    rw [getPairingCodeByCode_eq_some.mpr ⟨h.mem, h.code⟩] at hfound
    cases hfound
  | some row =>
    obtain ⟨hmem, hrow⟩ := getPairingCodeByCode_eq_some.mp hfound
    have honly : ∀ row', Accepted db r row' → row' = row := fun row' h ↦
      List.inj_on_of_nodup_map db.codes_nodup h.mem hmem (h.code.trans hrow.symm)
    dsimp only
    split
    · rename_i hused
      refine .inr ⟨fun row' h ↦ ?_, rfl, fun token h ↦ by cases h⟩
      rw [← honly row' h, h.unused] at hused
      cases hused
    rename_i hused
    split
    · rename_i hexpired
      refine .inr ⟨fun row' h ↦ ?_, rfl, fun token h ↦ by cases h⟩
      rw [← honly row' h] at hexpired
      exact absurd h.inTime (Nat.not_le.mpr hexpired)
    rename_i hexpired
    refine .inl ⟨row, ⟨by simpa using hallowed, by simpa using hcode, hmem, hrow,
      by simpa using hused, Nat.not_lt.mp hexpired⟩, ?_⟩
    cases r.token <;> rfl

/-! ## How many codes are redeemable -/

/-- The row can be redeemed. -/
def isRedeemable (now : ℕ) (row : PairingCodeRow) : Bool :=
  !row.used && decide (now ≤ row.expiresAt)

variable (rows : List PairingCodeRow)

theorem countP_isRedeemable (now : ℕ) :
    rows.countP (isRedeemable now) =
      rows.countP (fun row ↦ !row.used && decide (now < row.expiresAt)) +
        rows.countP fun row ↦ !row.used && decide (row.expiresAt = now) := by
  induction rows with
  | nil => rfl
  | cons row rows ih =>
    rw [List.countP_cons, List.countP_cons, List.countP_cons, ih, isRedeemable]
    cases hused : row.used with
    | true => simp
    | false =>
      simp only [Bool.not_false, Bool.true_and, decide_eq_true_eq]
      split <;> split <;> split <;> omega

theorem countP_isRedeemable_anti {now now' : ℕ} (h : now ≤ now') :
    rows.countP (isRedeemable now') ≤ rows.countP (isRedeemable now) := by
  refine List.countP_mono_left fun row _ hrow ↦ ?_
  rw [isRedeemable, Bool.and_eq_true, decide_eq_true_eq] at hrow ⊢
  exact ⟨hrow.1, Nat.le_trans h hrow.2⟩

theorem countP_markUsed_le (now : ℕ) (id : String) (usedAt : ℕ) (ip : Text) :
    (rows.map (PairingTable.markUsed id usedAt ip)).countP (isRedeemable now) ≤
      rows.countP (isRedeemable now) := by
  rw [List.countP_map]
  refine List.countP_mono_left fun row _ hrow ↦ ?_
  rw [Function.comp_apply, isRedeemable, Bool.and_eq_true, decide_eq_true_eq,
    PairingTable.markUsed_expiresAt] at hrow
  rw [isRedeemable, Bool.and_eq_true, decide_eq_true_eq]
  refine ⟨?_, hrow.2⟩
  cases hused : row.used with
  | false => rfl
  | true => simp [PairingTable.markUsed_used hused] at hrow

theorem redeemable_iff {now : ℕ} {code : Text} :
    Redeemable db now code ↔
      isCode code = true ∧ ∃ row ∈ db.rows, row.code = code ∧ isRedeemable now row = true := by
  constructor
  · intro h
    have hreply := h [] []
    obtain ⟨row, haccepted, -⟩ | ⟨-, -, hrefused⟩ :=
      postVerify_cases db ⟨now, [], true, code, some []⟩
    · refine ⟨haccepted.isCode, row, haccepted.mem, haccepted.code, ?_⟩
      rw [isRedeemable, haccepted.unused]
      exact decide_eq_true haccepted.inTime
    · exact absurd hreply (hrefused [])
  · rintro ⟨hcode, row, hmem, hrow, hredeemable⟩ ip token
    rw [isRedeemable, Bool.and_eq_true, decide_eq_true_eq] at hredeemable
    obtain ⟨row', -, heq⟩ | ⟨hrefused, -, -⟩ :=
      postVerify_cases db ⟨now, ip, true, code, some token⟩
    · rw [heq]
      rfl
    · exact absurd ⟨rfl, hcode, hmem, hrow, by simpa using hredeemable.1, hredeemable.2⟩
        (hrefused row)

/-- As many codes can be redeemed as there are rows that can. -/
theorem forall_length_le_iff {now n : ℕ} (hcodes : ∀ row ∈ db.rows, isCode row.code = true) :
    (∀ codes : List Text, codes.Nodup → (∀ code ∈ codes, Redeemable db now code) →
      codes.length ≤ n) ↔ db.rows.countP (isRedeemable now) ≤ n := by
  rw [List.countP_eq_length_filter]
  constructor
  · intro h
    rw [← List.length_map (f := (·.code))]
    refine h _ (db.codes_nodup.sublist (List.filter_sublist.map _)) fun code hcode ↦ ?_
    obtain ⟨row, hrow, rfl⟩ := List.mem_map.mp hcode
    obtain ⟨hmem, hredeemable⟩ := List.mem_filter.mp hrow
    exact redeemable_iff.mpr ⟨hcodes row hmem, row, hmem, rfl, hredeemable⟩
  · intro h codes hnodup hall
    have hsubset : codes ⊆ (db.rows.filter (isRedeemable now)).map (·.code) := by
      intro code hcode
      obtain ⟨-, row, hmem, hrow, hredeemable⟩ := redeemable_iff.mp (hall code hcode)
      exact List.mem_map.mpr ⟨row, List.mem_filter.mpr ⟨hmem, hredeemable⟩, hrow⟩
    have hlength := (List.subperm_of_subset hnodup hsubset).length_le
    rw [List.length_map] at hlength
    exact Nat.le_trans hlength h

/-! ## The invariant -/

namespace Pairing

/-- What holds in every run. -/
structure Sound (s : Pairing) : Prop where
  codes : ∀ row ∈ s.db.rows, isCode row.code = true
  spent : ∀ exchange ∈ s.exchanges, ∃ row ∈ s.db.rows, row.code = exchange.code ∧
    row.used = true ∧ exchange.exchangedAt ≤ row.expiresAt
  once : (s.exchanges.map (·.code)).Nodup

variable {s s' : Pairing} {r : VerifyRequest}

theorem sound_start : start.Sound where
  codes := fun _ h ↦ absurd h List.not_mem_nil
  spent := fun _ h ↦ absurd h List.not_mem_nil
  once := List.nodup_nil

theorem Sound.inTime (h : s.Sound) {exchange : Exchange} (hexchange : exchange ∈ s.exchanges)
    {row : PairingCodeRow} (hrow : row ∈ s.db.rows) (hcode : row.code = exchange.code) :
    exchange.exchangedAt ≤ row.expiresAt := by
  obtain ⟨row', hrow', hcode', -, hle⟩ := h.spent exchange hexchange
  rw [List.inj_on_of_nodup_map s.db.codes_nodup hrow hrow' (hcode.trans hcode'.symm)]
  exact hle

theorem Sound.pair (h : s.Sound) {countedAt now : ℕ} {id : String} {draw : ℕ → Fin 100000000}
    (hs' : s.step (.pair countedAt now id draw) = some s') : s'.Sound := by
  rw [step] at hs'
  split at hs' <;> cases hs'
  obtain ⟨hsame, -⟩ | ⟨-, -, code, hcode, hrows⟩ := postPair_cases s.db countedAt now id draw
  · rw [hsame]
    exact ⟨h.codes, h.spent, h.once⟩
  · refine ⟨?_, fun exchange hexchange ↦ ?_, h.once⟩
    · intro row hrow
      rw [hrows, List.mem_append, List.mem_singleton] at hrow
      obtain hrow | rfl := hrow
      · exact h.codes row hrow
      · exact hcode
    · obtain ⟨row, hrow, hspent⟩ := h.spent exchange hexchange
      refine ⟨row, ?_, hspent⟩
      rw [hrows]
      exact List.mem_append_left _ hrow

theorem Sound.marked (h : s.Sound) (id : String) (now : ℕ) (ip : Text) :
    Sound { s with db := s.db.markPairingCodeUsed id now ip, now := now } where
  codes := by
    intro row hrow
    obtain ⟨row', hrow', rfl⟩ := List.mem_map.mp hrow
    rw [PairingTable.markUsed_code]
    exact h.codes row' hrow'
  spent := by
    intro exchange hexchange
    obtain ⟨row, hrow, hcode, hused, hle⟩ := h.spent exchange hexchange
    refine ⟨_, List.mem_map_of_mem hrow, ?_, PairingTable.markUsed_used hused, ?_⟩
    · rw [PairingTable.markUsed_code, hcode]
    · rwa [PairingTable.markUsed_expiresAt]
  once := h.once

/-- The code that is redeemed was not redeemed before. -/
theorem Sound.redeem (h : s.Sound) {r : VerifyRequest} {row : PairingCodeRow}
    (haccepted : Accepted s.db r row) (token : Text) :
    Sound
      { db := s.db.markPairingCodeUsed row.id r.now r.clientIp
        now := r.now
        exchanges := s.exchanges ++ [⟨r.code, token, r.now⟩] } where
  codes := (h.marked row.id r.now r.clientIp).codes
  spent := by
    intro exchange hexchange
    rw [List.mem_append, List.mem_singleton] at hexchange
    obtain hexchange | rfl := hexchange
    · exact (h.marked row.id r.now r.clientIp).spent exchange hexchange
    · refine ⟨_, List.mem_map_of_mem haccepted.mem, ?_, ?_, ?_⟩
      · rw [PairingTable.markUsed_code, haccepted.code]
      · rw [PairingTable.markUsed, if_pos rfl]
      · rw [PairingTable.markUsed_expiresAt]
        exact haccepted.inTime
  once := by
    rw [List.map_append]
    refine h.once.append (List.nodup_singleton _) (List.disjoint_singleton.mpr fun hmem ↦ ?_)
    obtain ⟨exchange, hexchange, hcode⟩ := List.mem_map.mp hmem
    obtain ⟨row', hrow', hcode', hused, -⟩ := h.spent exchange hexchange
    have heq : row' = row := List.inj_on_of_nodup_map s.db.codes_nodup hrow' haccepted.mem
      (hcode'.trans (hcode.trans haccepted.code.symm))
    rw [heq, haccepted.unused] at hused
    cases hused

theorem Sound.verify (h : s.Sound) {r : VerifyRequest} (hs' : s.step (.verify r) = some s') :
    s'.Sound := by
  rw [step] at hs'
  split at hs' <;> cases hs'
  obtain ⟨row, haccepted, heq⟩ | ⟨-, hsame, hrefused⟩ := postVerify_cases s.db r
  · rw [heq]
    cases r.token with
    | none => exact h.marked row.id r.now r.clientIp
    | some token => exact h.redeem haccepted token
  · rw [hsame]
    split
    · rename_i token htoken
      exact absurd htoken (hrefused token)
    · exact ⟨h.codes, h.spent, h.once⟩

theorem Sound.step (h : s.Sound) {e : PairEvent} (hs' : s.step e = some s') : s'.Sound := by
  cases e with
  | pair countedAt now id draw => exact h.pair hs'
  | verify r => exact h.verify hs'

theorem Sound.holds_iff (h : s.Sound) :
    s.Holds ↔ s.db.rows.countP (isRedeemable s.now) ≤ 3 := by
  constructor
  · intro hholds
    exact (forall_length_le_iff h.codes).mp (hholds.atMostThree s.now (Nat.le_refl _))
  · intro hle
    refine ⟨fun now hnow ↦ ?_, h.once, fun exchange he row hr hcode ↦ h.inTime he hr hcode⟩
    exact (forall_length_le_iff h.codes).mpr
      (Nat.le_trans (countP_isRedeemable_anti s.db.rows hnow) hle)

/-- A redeemed code makes room, and so does time. -/
theorem countP_verify (hs' : s.step (.verify r) = some s') :
    s'.db.rows.countP (isRedeemable s'.now) ≤ s.db.rows.countP (isRedeemable s.now) := by
  rw [Pairing.step] at hs'
  split at hs' <;> cases hs'
  rename_i hle
  refine Nat.le_trans ?_ (countP_isRedeemable_anti s.db.rows hle)
  obtain ⟨row, -, heq⟩ | ⟨-, hsame, -⟩ := postVerify_cases s.db r
  · rw [heq]
    exact countP_markUsed_le s.db.rows r.now row.id r.now r.clientIp
  · exact Nat.le_of_eq (by rw [hsame])

/-- **A new code**: the active codes leave room, unless some expire in the instant. -/
theorem countP_pair {countedAt now : ℕ} {id : String} {draw : ℕ → Fin 100000000}
    (hfew : s.db.rows.countP (isRedeemable s.now) ≤ 3)
    (hs' : s.step (.pair countedAt now id draw) = some s') :
    s'.db.rows.countP (isRedeemable s'.now) ≤ 3 ↔ s.Careful (.pair countedAt now id draw) := by
  rw [Pairing.step] at hs'
  split at hs' <;> cases hs'
  rename_i hle
  have hbefore : s.db.rows.countP (isRedeemable now) ≤ 3 :=
    Nat.le_trans (countP_isRedeemable_anti s.db.rows (Nat.le_trans hle.1 hle.2)) hfew
  obtain ⟨hsame, hnot⟩ | ⟨hactive, hcan, code, -, hrows⟩ :=
    postPair_cases s.db countedAt now id draw
  · rw [hsame]
    refine iff_of_true hbefore fun heq hlt hcan ↦ ?_
    subst heq
    exact absurd hcan (hnot hlt)
  · rw [hrows, List.countP_append, List.countP_singleton]
    have hnew : isRedeemable now ⟨id, code, now, now + 60000, false, none, none⟩ = true := by
      simp [isRedeemable]
    rw [if_pos hnew]
    change s.db.rows.countP (isRedeemable now) + 1 ≤ 3 ↔ _
    have hsum := countP_isRedeemable s.db.rows now
    obtain heq | hlt := Nat.eq_or_lt_of_le hle.2
    · subst heq
      rw [hsum]
      constructor
      · intro h _ _ _
        exact Nat.lt_of_succ_le h
      · intro h
        exact h rfl hactive hcan
    · refine iff_of_true ?_ fun heq ↦ absurd heq (Nat.ne_of_lt hlt)
      have hmono :
          s.db.rows.countP (isRedeemable now) ≤ s.db.countActivePairingCodes countedAt := by
        refine List.countP_mono_left fun row _ hrow ↦ ?_
        rw [isRedeemable, Bool.and_eq_true, decide_eq_true_eq] at hrow
        rw [Bool.and_eq_true, decide_eq_true_eq]
        exact ⟨hrow.1, Nat.lt_of_lt_of_le hlt hrow.2⟩
      omega

end Pairing

/-- **When the bound on redeemable codes is kept**: in every run of requests, at most three codes
are redeemable at any time exactly where no code is created in an instant in which others expire
that would be too many with it. The rest of `Holds` is never broken (`Pairing.Sound`). -/
theorem holds_iff_careful (es : List PairEvent) :
    Along Pairing.step (fun _ _ s' ↦ s'.Holds) .start es ↔
      Along Pairing.step (fun s e _ ↦ s.Careful e) .start es := by
  refine along_congr_of_keeps
    (fun s ↦ s.Sound ∧ s.db.rows.countP (isRedeemable s.now) ≤ 3) (fun s e s' h hs' ↦ ?_)
    ⟨Pairing.sound_start, Nat.zero_le 3⟩
  have hsound := h.1.step hs'
  rw [hsound.holds_iff]
  cases e with
  | pair countedAt now id draw =>
    have hiff := Pairing.countP_pair h.2 hs'
    exact ⟨hiff, fun hcareful ↦ ⟨hsound, hiff.mpr hcareful⟩⟩
  | verify r =>
    have hle := Nat.le_trans (Pairing.countP_verify hs') h.2
    exact ⟨iff_of_true hle trivial, fun _ ↦ ⟨hsound, hle⟩⟩

/-- Three codes are created at once, and one more when they expire. -/
theorem fourth_code_at_expiry :
    ¬ ∀ es : List PairEvent, Along Pairing.step (fun _ _ s' ↦ s'.Holds) .start es := by
  intro hall
  have halong := hall
    [.pair 0 0 "1" fun _ ↦ 1, .pair 0 0 "2" fun _ ↦ 2, .pair 0 0 "3" fun _ ↦ 3,
      .pair 60000 60000 "4" fun _ ↦ 4]
  have hholds : Pairing.Holds _ := along_getElem halong 3 rfl rfl rfl
  have hthree := hholds.atMostThree 60000 (Nat.le_refl _)
    [pairingCode 1, pairingCode 2, pairingCode 3, pairingCode 4] (by decide) ?_
  · exact absurd hthree (by decide)
  · intro code hcode
    rw [redeemable_iff]
    simp only [List.mem_cons, List.not_mem_nil, or_false] at hcode
    obtain rfl | rfl | rfl | rfl := hcode
    · exact ⟨isCode_pairingCode 1, ⟨"1", pairingCode 1, 0, 60000, false, none, none⟩, .head _, rfl,
        rfl⟩
    · exact ⟨isCode_pairingCode 2, ⟨"2", pairingCode 2, 0, 60000, false, none, none⟩,
        .tail _ (.head _), rfl, rfl⟩
    · exact ⟨isCode_pairingCode 3, ⟨"3", pairingCode 3, 0, 60000, false, none, none⟩,
        .tail _ (.tail _ (.head _)), rfl, rfl⟩
    · exact ⟨isCode_pairingCode 4, ⟨"4", pairingCode 4, 60000, 120000, false, none, none⟩,
        .tail _ (.tail _ (.tail _ (.head _))), rfl, rfl⟩

end Lasterm.Hub.PairingCodes
