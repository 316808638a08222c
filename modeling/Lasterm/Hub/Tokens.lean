import Lasterm.Hub.AuthGate
import Lasterm.Library.Runs
import Mathlib.Data.Rat.Defs
import Mathlib.Data.String.Basic
import Mathlib.Data.List.Nodup

/-!
# The life of a token

`createToken`, `touchToken` and `revokeToken` of `auth.ts`, and the three places that accept a
token: the auth hook of `server.ts`, `AUTH` on a WebSocket, and the agent routes. Each use of a
token moves its expiry, the field that the next validation compares with the clock.

A token that has failed once fails for good, and the use of one token leaves the others as they are
(`failure_permanent`). What carries this is that only a record that has just passed is touched.

The clock is known by its stamps, the texts of `toISOString`. Up to the year 9999 they compare as
the instants do; an expiry behind it is a text like any other, and compares with a stamp as one.
-/

namespace Lasterm.Hub.Tokens

open Shell Runs

/-! ## The table -/

/-- The rows of `auth_tokens`, with the constraints of the table. -/
structure TokenTable where
  rows : AuthTokens
  ids_nodup : (rows.map (·.id)).Nodup
  hashes_nodup : (rows.map (·.tokenHash)).Nodup

namespace TokenTable

variable (db : TokenTable)

/-- `INSERT`, which a constraint can refuse. -/
def insert (record : AuthTokenRecord) : Option TokenTable :=
  if h : record.id ∉ db.rows.map (·.id) ∧ record.tokenHash ∉ db.rows.map (·.tokenHash) then
    some
      { rows := db.rows ++ [record]
        ids_nodup := by
          rw [List.map_append]
          exact db.ids_nodup.append (List.nodup_singleton _) (List.disjoint_singleton.mpr h.1)
        hashes_nodup := by
          rw [List.map_append]
          exact db.hashes_nodup.append (List.nodup_singleton _) (List.disjoint_singleton.mpr h.2) }
  else none

/-- The columns that an update leaves alone. -/
structure KeepsKeys (set : AuthTokenRecord → AuthTokenRecord) : Prop where
  id : ∀ record, (set record).id = record.id
  tokenHash : ∀ record, (set record).tokenHash = record.tokenHash

/-- `UPDATE … WHERE id = ?`. -/
def update (id : String) (set : AuthTokenRecord → AuthTokenRecord) (h : KeepsKeys set) :
    TokenTable where
  rows := db.rows.map fun record ↦ if record.id = id then set record else record
  ids_nodup := by
    rw [List.map_map]
    convert db.ids_nodup using 2
    funext record
    rw [Function.comp_apply]
    split
    · exact h.id record
    · rfl
  hashes_nodup := by
    rw [List.map_map]
    convert db.hashes_nodup using 2
    funext record
    rw [Function.comp_apply]
    split
    · exact h.tokenHash record
    · rfl

end TokenTable

/-! ## The operations -/

variable (hashToken : Text → String) (toISOString : ℚ → Option String)

def createToken (db : TokenTable) (now id : String) (token : Text) (label : String)
    (expiresAt : Option String) : Option TokenTable :=
  db.insert ⟨id, hashToken token, label, now, expiresAt, none, none⟩

/-- The row that is revoked keeps its first stamp. -/
def revoked (now : String) (record : AuthTokenRecord) : AuthTokenRecord :=
  if record.revokedAt = none then { record with revokedAt := some now } else record

theorem revoked_keepsKeys (now : String) : TokenTable.KeepsKeys (revoked now) where
  id := by
    intro record
    rw [revoked]
    split <;> rfl
  tokenHash := by
    intro record
    rw [revoked]
    split <;> rfl

def revokeToken (db : TokenTable) (now id : String) : TokenTable × Bool :=
  (db.update id (revoked now) (revoked_keepsKeys now),
    db.rows.any fun record ↦ record.id = id && record.revokedAt = none)

def touched (now : String) (newExpiry : Option String) (record : AuthTokenRecord) :
    AuthTokenRecord :=
  { record with
    lastUsedAt := some now
    expiresAt :=
      match newExpiry with
      | some expiry => if record.expiresAt ≠ none then some expiry else none
      | none => record.expiresAt }

theorem touched_keepsKeys (now : String) (newExpiry : Option String) :
    TokenTable.KeepsKeys (touched now newExpiry) := ⟨fun _ ↦ rfl, fun _ ↦ rfl⟩

/-- `touchToken`, with the two readings of the clock. A date out of range throws. -/
def touchToken (db : TokenTable) (now : String) (dateNow : ℚ) (id : String) (ttlDays : ℚ) :
    Option TokenTable :=
  if 0 < ttlDays then
    (toISOString (dateNow + ttlDays * 86400000)).map fun newExpiry ↦
      db.update id (touched now (some newExpiry)) (touched_keepsKeys now _)
  else some (db.update id (touched now none) (touched_keepsKeys now _))

/-! ## Who uses a token -/

/-- A request that brings a token, and what the clock reads at the calls for it. -/
structure TokenUse where
  token : Text
  /-- The stamp in `validateTokenRecord`. -/
  validatedAt : String
  /-- The stamp in `touchToken`. -/
  touchedAt : String
  /-- `Date.now()` in `touchToken`. -/
  dateNow : ℚ

section Uses

variable (db : TokenTable) (u : TokenUse)

/-- The end of the auth hook. What `touchToken` throws is caught. -/
def authHook (ttlDays : ℚ) : TokenTable × Bool :=
  match validateTokenRecord hashToken db.rows u.validatedAt u.token with
  | none => (db, false)
  | some record =>
    ((touchToken toISOString db u.touchedAt u.dateNow record.id ttlDays).getD db, true)

/-- `AUTH` on a WebSocket. What `touchToken` throws ends the handler. -/
def handleAuth (ttlDays : Option ℚ) : TokenTable × Bool :=
  match validateTokenRecord hashToken db.rows u.validatedAt u.token with
  | none => (db, false)
  | some record =>
    match touchToken toISOString db u.touchedAt u.dateNow record.id (ttlDays.getD 90) with
    | none => (db, false)
    | some db' => (db', true)

/-- `isValidAgentBearer`, which accepts the `authToken` of the hub too. -/
def isValidAgentBearer (tokenTtlDays : Option ℚ) (authToken : Option Text) : TokenTable × Bool :=
  match validateTokenRecord hashToken db.rows u.validatedAt u.token with
  | none => (db, authToken = some u.token)
  | some record =>
    match tokenTtlDays with
    | none => (db, true)
    | some ttlDays =>
      match touchToken toISOString db u.touchedAt u.dateNow record.id ttlDays with
      | none => (db, false)
      | some db' => (db', true)

end Uses

/-! ## Runs -/

inductive EntryPoint where
  | http (ttlDays : ℚ)
  | ws (ttlDays : Option ℚ)
  | agentRoute (tokenTtlDays : Option ℚ) (authToken : Option Text)

def EntryPoint.accept (db : TokenTable) (u : TokenUse) : EntryPoint → TokenTable × Bool
  | .http ttlDays => authHook hashToken toISOString db u ttlDays
  | .ws ttlDays => handleAuth hashToken toISOString db u ttlDays
  | .agentRoute tokenTtlDays authToken =>
    isValidAgentBearer hashToken toISOString db u tokenTtlDays authToken

inductive TokenEvent where
  | create (now id : String) (token : Text) (label : String) (expiresAt : Option String)
  | use (entry : EntryPoint) (u : TokenUse)
  | revoke (now id : String)

structure TokenStore where
  db : TokenTable
  /-- The last stamp of the clock. -/
  now : String

/-- An event, at stamps that do not go back. -/
def TokenStore.step (s : TokenStore) : TokenEvent → Option TokenStore
  | .create now id token label expiresAt =>
    if s.now ≤ now then
      some ⟨(createToken hashToken s.db now id token label expiresAt).getD s.db, now⟩
    else none
  | .use entry u =>
    if s.now ≤ u.validatedAt ∧ u.validatedAt ≤ u.touchedAt then
      some ⟨(entry.accept hashToken toISOString s.db u).1, u.touchedAt⟩
    else none
  | .revoke now id => if s.now ≤ now then some ⟨(revokeToken s.db now id).1, now⟩ else none

/-! ## What validation looks at -/

/-- The record passes at the stamp. -/
def ValidAt (now : String) (record : AuthTokenRecord) : Prop :=
  record.revokedAt = none ∧ ∀ expiry, record.expiresAt = some expiry → ¬expiry ≤ now

theorem ValidAt.of_le {now now' : String} {record : AuthTokenRecord} (h : ValidAt now' record)
    (hle : now ≤ now') : ValidAt now record :=
  ⟨h.1, fun expiry he hexp ↦ h.2 expiry he (hexp.trans hle)⟩

theorem ValidAt.of_revoked {now now' : String} {record : AuthTokenRecord}
    (h : ValidAt now (revoked now' record)) : ValidAt now record := by
  rw [revoked] at h
  split at h
  · cases h.1
  · exact h

section Validation

variable {hashToken} {token : Text}

theorem validateTokenRecord_eq_some {db : AuthTokens} {now : String} {record : AuthTokenRecord} :
    validateTokenRecord hashToken db now token = some record ↔
      getTokenByValue hashToken db token = some record ∧ ValidAt now record := by
  rw [validateTokenRecord]
  cases hfound : getTokenByValue hashToken db token with
  | none => simp
  | some found =>
    cases hrevoked : found.revokedAt with
    | some stamp =>
      refine iff_of_false (by simp [hrevoked]) ?_
      rintro ⟨heq, hvalid, -⟩
      cases heq
      rw [hrevoked] at hvalid
      cases hvalid
    | none =>
      cases hexpiry : found.expiresAt with
      | none =>
        suffices ValidAt now found by
          simp only [hrevoked, hexpiry, ne_eq, not_true_eq_false, if_false, Option.any_none,
            Bool.false_eq_true, Option.some.injEq]
          exact ⟨fun heq ↦ ⟨heq, heq ▸ this⟩, fun h ↦ h.1⟩
        exact ⟨hrevoked, fun expiry he ↦ by simp [hexpiry] at he⟩
      | some expiry =>
        simp only [hrevoked, hexpiry, ne_eq, not_true_eq_false, if_false, Option.any_some,
          decide_eq_true_eq]
        split
        · rename_i hle
          refine iff_of_false (by simp) ?_
          rintro ⟨heq, -, hvalid⟩
          cases heq
          exact hvalid expiry hexpiry hle
        · rename_i hlt
          have hvalid : ValidAt now found := by
            refine ⟨hrevoked, fun expiry' he ↦ ?_⟩
            rw [hexpiry] at he
            cases he
            exact hlt
          rw [Option.some.injEq]
          exact ⟨fun heq ↦ ⟨heq, heq ▸ hvalid⟩, fun h ↦ h.1⟩

/-! ## One operation -/

theorem getTokenByValue_update (db : TokenTable) {id : String}
    {set : AuthTokenRecord → AuthTokenRecord} (h : TokenTable.KeepsKeys set) (token : Text) :
    getTokenByValue hashToken (db.update id set h).rows token =
      (getTokenByValue hashToken db.rows token).map fun record ↦
        if record.id = id then set record else record := by
  rw [getTokenByValue, getTokenByValue, TokenTable.update, List.find?_map]
  congr 2
  funext record
  rw [Function.comp_apply]
  split
  · rw [h.tokenHash]
  · rfl

theorem getTokenByValue_insert {db db' : TokenTable} {record found : AuthTokenRecord}
    (h : db.insert record = some db')
    (hfound : getTokenByValue hashToken db.rows token = some found) :
    getTokenByValue hashToken db'.rows token = some found := by
  rw [TokenTable.insert] at h
  split at h
  · cases h
    rw [getTokenByValue] at hfound
    rw [getTokenByValue, List.find?_append, hfound]
    rfl
  · cases h

theorem eq_of_id_eq {db : TokenTable} {token token' : Text} {record record' : AuthTokenRecord}
    (h : getTokenByValue hashToken db.rows token = some record)
    (h' : getTokenByValue hashToken db.rows token' = some record') (hid : record.id = record'.id) :
    record = record' :=
  List.inj_on_of_nodup_map db.ids_nodup (List.mem_of_find?_eq_some h)
    (List.mem_of_find?_eq_some h') hid

/-- A token is that of its record. -/
theorem tokenHash_of_getTokenByValue {db : AuthTokens} {record : AuthTokenRecord}
    (h : getTokenByValue hashToken db token = some record) :
    record.tokenHash = hashToken token := by
  rw [getTokenByValue] at h
  simpa using List.find?_some h

variable {toISOString}

variable (hashToken toISOString) in
/-- **Only what has passed is touched.** -/
theorem accept_cases (entry : EntryPoint) (db : TokenTable) (u : TokenUse) :
    (entry.accept hashToken toISOString db u).1 = db ∨
      ∃ record newExpiry, validateTokenRecord hashToken db.rows u.validatedAt u.token =
        some record ∧
        (entry.accept hashToken toISOString db u).1 =
          db.update record.id (touched u.touchedAt newExpiry) (touched_keepsKeys _ _) := by
  have htouch : ∀ {record : AuthTokenRecord} {ttlDays : ℚ} {db' : TokenTable},
      touchToken toISOString db u.touchedAt u.dateNow record.id ttlDays = some db' →
        ∃ newExpiry,
          db' = db.update record.id (touched u.touchedAt newExpiry) (touched_keepsKeys _ _) := by
    intro record ttlDays db' h
    rw [touchToken] at h
    split at h
    · obtain ⟨newExpiry, -, rfl⟩ := Option.map_eq_some_iff.mp h
      exact ⟨some newExpiry, rfl⟩
    · cases h
      exact ⟨none, rfl⟩
  cases hvalid : validateTokenRecord hashToken db.rows u.validatedAt u.token with
  | none =>
    left
    cases entry with
    | http ttlDays => simp only [EntryPoint.accept, authHook, hvalid]
    | ws ttlDays => simp only [EntryPoint.accept, handleAuth, hvalid]
    | agentRoute ttlDays authToken => simp only [EntryPoint.accept, isValidAgentBearer, hvalid]
  | some record =>
    cases entry with
    | http ttlDays =>
      simp only [EntryPoint.accept, authHook, hvalid]
      cases ht : touchToken toISOString db u.touchedAt u.dateNow record.id ttlDays with
      | none => exact .inl rfl
      | some db' =>
        obtain ⟨newExpiry, rfl⟩ := htouch ht
        exact .inr ⟨record, newExpiry, rfl, rfl⟩
    | ws ttlDays =>
      simp only [EntryPoint.accept, handleAuth, hvalid]
      cases ht : touchToken toISOString db u.touchedAt u.dateNow record.id (ttlDays.getD 90) with
      | none => exact .inl rfl
      | some db' =>
        obtain ⟨newExpiry, rfl⟩ := htouch ht
        exact .inr ⟨record, newExpiry, rfl, rfl⟩
    | agentRoute tokenTtlDays authToken =>
      simp only [EntryPoint.accept, isValidAgentBearer, hvalid]
      cases tokenTtlDays with
      | none => exact .inl rfl
      | some ttlDays =>
        cases ht : touchToken toISOString db u.touchedAt u.dateNow record.id ttlDays with
        | none =>
          left
          simp only [ht]
        | some db' =>
          obtain ⟨newExpiry, rfl⟩ := htouch ht
          refine .inr ⟨record, newExpiry, rfl, ?_⟩
          simp only [ht]

/-! ## A token that has failed -/

/-- The token is there, and does not pass at the last stamp of the clock. -/
def Failed (hashToken : Text → String) (token : Text) (s : TokenStore) : Prop :=
  ∃ record, getTokenByValue hashToken s.db.rows token = some record ∧ ¬ValidAt s.now record

theorem Failed.validate {s : TokenStore} (h : Failed hashToken token s)
    {now : String} (hle : s.now ≤ now) :
    validateTokenRecord hashToken s.db.rows now token = none := by
  obtain ⟨record, hfound, hvalid⟩ := h
  rw [Option.eq_none_iff_forall_ne_some]
  intro record' hpass
  obtain ⟨hfound', hvalid'⟩ := validateTokenRecord_eq_some.mp hpass
  rw [hfound] at hfound'
  cases hfound'
  exact hvalid (hvalid'.of_le hle)

theorem Failed.step {s s' : TokenStore} {e : TokenEvent}
    (h : Failed hashToken token s) (hs' : s.step hashToken toISOString e = some s') :
    Failed hashToken token s' := by
  have hvalidate : ∀ {now}, s.now ≤ now →
      validateTokenRecord hashToken s.db.rows now token = none :=
    h.validate
  obtain ⟨record, hfound, hinvalid⟩ := h
  cases e with
  | create now id token' label expiresAt =>
    rw [TokenStore.step] at hs'
    split at hs' <;> cases hs'
    rename_i hle
    refine ⟨record, ?_, fun hvalid ↦ hinvalid (hvalid.of_le hle)⟩
    rw [createToken]
    cases hinsert : s.db.insert ⟨id, hashToken token', label, now, expiresAt, none, none⟩ with
    | none => exact hfound
    | some db' => exact getTokenByValue_insert hinsert hfound
  | use entry u =>
    rw [TokenStore.step] at hs'
    split at hs' <;> cases hs'
    rename_i hle
    have hlater : ∀ hvalid : ValidAt u.touchedAt record, False := fun hvalid ↦
      hinvalid (hvalid.of_le (hle.1.trans hle.2))
    obtain hsame | ⟨passed, newExpiry, hpass, hupdate⟩ := accept_cases hashToken toISOString
      entry s.db u
    · refine ⟨record, ?_, hlater⟩
      rw [hsame]
      exact hfound
    · obtain ⟨hpassed, hvalid⟩ := validateTokenRecord_eq_some.mp hpass
      have hne : record.id ≠ passed.id := by
        intro hid
        rw [eq_of_id_eq hfound hpassed hid] at hinvalid
        exact hinvalid (hvalid.of_le hle.1)
      refine ⟨record, ?_, hlater⟩
      rw [hupdate, getTokenByValue_update, hfound, Option.map_some, if_neg hne]
  | revoke now id =>
    rw [TokenStore.step] at hs'
    split at hs' <;> cases hs'
    rename_i hle
    refine ⟨if record.id = id then revoked now record else record, ?_, fun hvalid ↦ ?_⟩
    · rw [revokeToken, getTokenByValue_update, hfound, Option.map_some]
    · split at hvalid
      · exact hinvalid (hvalid.of_revoked.of_le hle)
      · exact hinvalid (hvalid.of_le hle)

/-- The use of a token leaves the record of another one as it is. -/
theorem getTokenByValue_accept (hinj : Function.Injective hashToken) (entry : EntryPoint)
    (db : TokenTable) (u : TokenUse) (hne : token ≠ u.token) :
    getTokenByValue hashToken (entry.accept hashToken toISOString db u).1.rows token =
      getTokenByValue hashToken db.rows token := by
  obtain hsame | ⟨passed, newExpiry, hpass, hupdate⟩ := accept_cases hashToken toISOString
    entry db u
  · rw [hsame]
  · obtain ⟨hpassed, -⟩ := validateTokenRecord_eq_some.mp hpass
    rw [hupdate, getTokenByValue_update]
    cases hfound : getTokenByValue hashToken db.rows token with
    | none => rfl
    | some record =>
      have hid : record.id ≠ passed.id := by
        intro hid
        have heq := eq_of_id_eq hfound hpassed hid
        refine hne (hinj ?_)
        rw [← tokenHash_of_getTokenByValue hfound, heq, tokenHash_of_getTokenByValue hpassed]
      rw [Option.map_some, if_neg hid]

end Validation

/-- **A token that has failed stays failed**: a token that is in the table and does not pass at a
stamp passes at no later one, whatever is created, used and revoked in between; and a use of one
token does not change what becomes of the others. -/
theorem failure_permanent (hinj : Function.Injective hashToken) (s : TokenStore) (token : Text) :
    (∀ es s', getTokenByValue hashToken s.db.rows token ≠ none →
      validateTokenRecord hashToken s.db.rows s.now token = none →
      run (TokenStore.step hashToken toISOString) s es = some s' →
      ∀ now, s'.now ≤ now → validateTokenRecord hashToken s'.db.rows now token = none) ∧
    (∀ entry u s', u.token ≠ token → s.step hashToken toISOString (.use entry u) = some s' →
      ∀ now, validateTokenRecord hashToken s'.db.rows now token =
        validateTokenRecord hashToken s.db.rows now token) := by
  constructor
  · intro es s' hfound hfails hrun now hle
    obtain ⟨record, hrecord⟩ := Option.ne_none_iff_exists'.mp hfound
    have hinvalid : ¬ValidAt s.now record := fun hvalid ↦ by
      rw [validateTokenRecord_eq_some.mpr ⟨hrecord, hvalid⟩] at hfails
      cases hfails
    have hfailed : Failed hashToken token s' :=
      run_invariant (Failed hashToken token) (fun _ _ _ h hs' ↦ h.step hs')
        ⟨record, hrecord, hinvalid⟩ hrun
    exact hfailed.validate hle
  · intro entry u s' hne hs' now
    rw [TokenStore.step] at hs'
    split at hs' <;> cases hs'
    rw [validateTokenRecord, validateTokenRecord, getTokenByValue_accept hinj entry s.db u hne.symm]

/-- Two tokens, of which `a` has expired by July, and `b` has not. -/
def julyStore : TokenStore where
  db :=
    { rows :=
        [⟨"1", "a", "Paired from ::1", "2026-04-01T00:00:00.000Z", some "2026-06-30T00:00:00.000Z",
          none, none⟩,
        ⟨"2", "b", "Paired from ::1", "2026-06-01T00:00:00.000Z", some "2026-08-30T00:00:00.000Z",
          none, none⟩]
      ids_nodup := by decide
      hashes_nodup := by decide }
  now := "2026-07-01T00:00:00.000Z"

/-- 90 days behind the start of July. -/
def septemberISOString (time : ℚ) : Option String :=
  if time = 1790640000000 then some "2026-09-29T00:00:00.000Z" else none

/-- Both tokens are used, and `b` is revoked. -/
theorem failure_permanent_july :
    let use (token : Text) : TokenUse :=
      ⟨token, "2026-07-01T00:00:00.000Z", "2026-07-01T00:00:00.000Z", 1782864000000⟩
    ∃ s', run (TokenStore.step String.ofList septemberISOString) julyStore
        [.use (.http 90) (use ['b']), .use (.ws none) (use ['a']),
          .revoke "2026-07-02T00:00:00.000Z" "2"] = some s' ∧
      (∀ now, s'.now ≤ now → validateTokenRecord String.ofList s'.db.rows now ['a'] = none) ∧
      ∀ s'', julyStore.step String.ofList septemberISOString (.use (.http 90) (use ['b'])) =
        some s'' →
        ∀ now, validateTokenRecord String.ofList s''.db.rows now ['a'] =
          validateTokenRecord String.ofList julyStore.db.rows now ['a'] := by
  intro use
  have hjuly := @failure_permanent String.ofList septemberISOString
    (fun _ _ ↦ String.ofList_injective) julyStore ['a']
  have hrun : (run (TokenStore.step String.ofList septemberISOString) julyStore
      [.use (.http 90) (use ['b']), .use (.ws none) (use ['a']),
        .revoke "2026-07-02T00:00:00.000Z" "2"]).isSome = true := by decide
  obtain ⟨s', hs'⟩ := Option.isSome_iff_exists.mp hrun
  refine ⟨s', hs', hjuly.1 _ s' ?_ ?_ hs', fun s'' h ↦ hjuly.2 (.http 90) _ s'' ?_ h⟩
  · decide
  · decide
  · decide

end Lasterm.Hub.Tokens
