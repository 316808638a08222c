import Lasterm.Hub.Secrets

/-!
# Rejected secrets

A secret is cached when it is entered, before it is tried. If a key file rejects the passphrase, or
an agent answers an elevated SPAWN with an error of the elevation, the entry stays in its cache. A
SPAWN without a secret has a prompt behind it if the agent wants a password, but one with a cached
secret fails, and so does the next, until the entry has expired.

What a step may use is what it looks up (`finds_step`). So no rejected secret is used again if and
only if no attempt finds one (`noReplays_iff_careful`). No entry lasts longer than a quarter of an
hour, so it is enough that attempts keep away from what has failed for as long
(`noReplays_of_waits`). Apart from that the caches are sound: `passphraseCache` has the answers to
prompts of sessions for the passphrase of the host, and no entry is used once it has expired.
-/

namespace Lasterm.Hub

open Runs

namespace SecretHub

/-- The entry is an answer to a prompt of a session for the passphrase of the host. -/
def Accepted (s : SecretHub) (hostId : String) (e : CachedSecret) : Prop :=
  ∃ q, s.prompts[e.answer.promptId]? = some q ∧ q.hostId = hostId ∧ q.kind = .session ∧
    q.type = .passphrase ∧ q.promptType = some .passphrase ∧ q.result = some (some e.answer)

def PassphrasesAccepted (s : SecretHub) : Prop :=
  ∀ hostId e, s.passphraseCache.get hostId = some e → s.Accepted hostId e

/-- A step uses no cached secret, or one that has neither failed nor expired. -/
def UsesSound (s t : SecretHub) : Prop :=
  t.replays = s.replays ∨
    ∃ e, t.replays = e :: s.replays ∧ e.answer.promptId ∉ s.rejected ∧ s.now < e.expiresAt

variable (s : SecretHub)

/-- The unexpired entry that an attempt finds. -/
def lookup : SecretEvent → Option CachedSecret
  | .connect hostId .passphrase _ _ => s.fresh (s.passphraseCache.get hostId)
  | .reconnect hostId _ => s.fresh (s.passphraseCache.get hostId)
  | .spawn k hostId => s.fresh (s.elevationCache.get (hostId, k))
  | .restart _ hostId requestingClientId attached =>
    match s.promptClient requestingClientId attached with
    | some k => s.fresh (s.elevationCache.get (hostId, k))
    | none => s.anyCached hostId
  | _ => none

/-- The attempt finds no secret that has failed since it was entered. -/
def Careful (e : SecretEvent) : Prop := ∀ x ∈ s.lookup e, x.answer.promptId ∉ s.rejected

/-- The entry of a host and, in `elevationCache`, a client. -/
def entry (hostId : String) : Option ℕ → Option CachedSecret
  | none => s.passphraseCache.get hostId
  | some k => s.elevationCache.get (hostId, k)

/-- Where an attempt looks. A restart without a client looks at all clients of the host. -/
def LooksAt : SecretEvent → String → Option ℕ → Prop
  | .connect hostId .passphrase _ _, h, none => hostId = h
  | .reconnect hostId _, h, none => hostId = h
  | .spawn k hostId, h, some j => hostId = h ∧ k = j
  | .restart _ hostId requestingClientId attached, h, some j =>
    hostId = h ∧ ∀ k ∈ s.promptClient requestingClientId attached, k = j
  | _, _, _ => False

/-- No attempt looks at an entry whose secret has failed, before the entry has been there for a
quarter of an hour or another one has taken its place. -/
def Waits (es : List SecretEvent) : Prop :=
  ∀ front e back, es = front ++ e :: back → ∀ s, run step start front = some s →
    ∀ hostId k, s.LooksAt e hostId k → ∀ x ∈ s.entry hostId k, x.answer.promptId ∈ s.rejected →
      ∃ before u, before <+: front ∧ run step start before = some u ∧ x ∈ u.entry hostId k ∧
        u.now + 900000 ≤ s.now

variable {s} {t u : SecretHub} {o : Elevation} {n p k : ℕ} {hostId : String}
  {found : Option CachedSecret}

/-! ## What a step looks up -/

/-- What a step does to the prompts and to the caches, and the entry that it uses. -/
structure Finds (s : SecretHub) (found : Option CachedSecret) (t : SecretHub) : Prop where
  prompts : PromptsBecome s t
  replays : t.replays = found.toList ++ s.replays
  now : s.now ≤ t.now
  entries : ∀ hostId k e, t.entry hostId k = some e → s.entry hostId k = some e ∨
    (k = none → t.Accepted hostId e) ∧ e.expiresAt ≤ s.now + 900000

theorem finds_of_same (hprompts : PromptsBecome s t) (hreplays : t.replays = s.replays)
    (hcaches : t.entry = s.entry) (hnow : s.now ≤ t.now) : Finds s none t where
  prompts := hprompts
  replays := hreplays
  now := hnow
  entries _ _ _ he := .inl (hcaches ▸ he)

/-- An answer that stands for an entry stays. -/
theorem Accepted.becomes {e : CachedSecret} (h : s.Accepted hostId e) (ht : PromptsBecome s t) :
    t.Accepted hostId e := by
  obtain ⟨q, hq, hhost, hkind, htype, hprompt, hresult⟩ := h
  obtain ⟨q', hq', hbecomes⟩ := ht.old _ q hq
  refine ⟨q', hq', hbecomes.hostId.trans hhost, hbecomes.kind.trans hkind,
    hbecomes.type.trans htype, hbecomes.promptType.trans hprompt, ?_⟩
  rcases hbecomes.result with hsame | ⟨hnone, -⟩
  · rw [hsame, hresult]
  · exact nomatch hnone.symm.trans hresult

theorem PassphrasesAccepted.finds (h : s.PassphrasesAccepted) (ht : Finds s found t) :
    t.PassphrasesAccepted := by
  intro hostId e he
  rcases ht.entries hostId none e he with hold | ⟨hnew, -⟩
  · exact (h hostId e hold).becomes ht.prompts
  · exact hnew rfl

/-- The entry of an answer to a passphrase prompt. -/
theorem finds_respond {q : AuthPrompt} (hq : s.prompts[p]? = some q) (hnone : q.result = none)
    (hroute : q.routeClientId = k) (secret : Option String) (rememberSession : Bool) :
    Finds s none (s.respond p q (secret.map (⟨k, p, ·⟩)) rememberSession) := by
  have hprompts : PromptsBecome s (s.respond p q (secret.map (⟨k, p, ·⟩)) rememberSession) :=
    promptsBecome_respond hq hnone hroute secret rememberSession
  rcases secret with _ | x
  · exact finds_of_same hprompts rfl rfl le_rfl
  · refine ⟨hprompts, ?_, ?_, fun hostId j e he ↦ ?_⟩
    · dsimp only [respond, Option.map_some]
      split <;> rfl
    · dsimp only [respond, Option.map_some]
      split <;> exact le_rfl
    · -- Only the entry of the host of the prompt can be a new one.
      by_cases hcacheable : q.isCacheable
      · have ht : s.respond p q (some ⟨k, p, x⟩) rememberSession = _ := if_pos hcacheable
        rw [Option.map_some, ht] at he
        rcases j with _ | j
        · rw [entry, OrderedMap.get_set] at he
          split at he
          · rename_i hhost
            cases he
            obtain ⟨htype, hkind, hprompt⟩ := of_decide_eq_true hcacheable
            refine .inr ⟨fun _ ↦ ⟨{ q with result := some (some ⟨k, p, x⟩) }, ?_, hhost, hkind,
              htype, hprompt, rfl⟩, ?_⟩
            · rw [prompts_respond, List.getElem?_modify_eq, hq]
              rfl
            · dsimp only
              split <;> omega
          · exact .inl he
        · exact .inl he
      · have ht : s.respond p q (some ⟨k, p, x⟩) rememberSession = _ := if_neg hcacheable
        rw [Option.map_some, ht] at he
        exact .inl he

theorem finds_response {secret : Option String} {rememberSession : Bool}
    {promptId deliveryEpoch : Option ℕ} : Finds s none
      (s.handleAuthPromptResponse k hostId secret rememberSession promptId deliveryEpoch) :=
  handleAuthPromptResponse_rule (finds_of_same (promptsBecome_of_eq rfl) rfl rfl le_rfl)
    fun _ _ hq hnone hroute ↦ finds_respond hq hnone hroute secret rememberSession

theorem finds_askSecret (hostId : String) (kind : ContextKind) (promptType : AuthPromptType)
    (k : ℕ) : Finds s none (s.askSecret hostId kind promptType k) := by
  rw [askSecret]
  split
  · exact finds_of_same (promptsBecome_append rfl rfl) rfl rfl le_rfl
  · exact finds_of_same (promptsBecome_of_eq rfl) rfl rfl le_rfl

/-- A passphrase from the cache is tried. -/
theorem finds_tryPassphrase (e : CachedSecret) (decrypts : Bool) :
    Finds s (some e) ((s.useCached e).tryPassphrase e.answer decrypts) := by
  rw [tryPassphrase]
  split
  · exact ⟨promptsBecome_of_eq rfl, rfl, le_rfl, fun _ _ _ he ↦ .inl he⟩
  · exact ⟨promptsBecome_of_eq rfl, rfl, le_rfl, fun _ _ _ he ↦ .inl he⟩

/-- An entry of `passphraseCache` is gone. -/
theorem Finds.evict
    (h : Finds { s with passphraseCache := s.passphraseCache.delete hostId } found t) :
    Finds s found t where
  prompts := ⟨h.prompts.old, h.prompts.new⟩
  replays := h.replays
  now := h.now
  entries hostId' k e he := by
    rcases h.entries hostId' k e he with hold | hnew
    · rcases k with _ | k
      · rw [entry, OrderedMap.get_delete] at hold
        split at hold
        · cases hold
        · exact .inl hold
      · exact .inl hold
    · exact .inr hnew

theorem finds_connect (hostId : String) (promptType : AuthPromptType) (route : Option ℕ)
    (decrypts : Bool) :
    Finds s (s.lookup (.connect hostId promptType route decrypts))
      (s.connect hostId promptType route decrypts) := by
  have hask (u : SecretHub) :
      Finds u none (route.elim u fun k ↦ u.askSecret hostId .session promptType k) := by
    rcases route with _ | k
    · exact finds_of_same (promptsBecome_of_eq rfl) rfl rfl le_rfl
    · exact finds_askSecret ..
  rw [connect]
  cases promptType with
  | passphrase =>
    rw [if_pos rfl, lookup]
    rcases s.fresh (s.passphraseCache.get hostId) with _ | e
    · exact (hask _).evict
    · exact finds_tryPassphrase e decrypts
  | password => exact hask s
  | elevation => exact hask s

theorem finds_reconnect (hostId : String) (decrypts : Bool) :
    Finds s (s.lookup (.reconnect hostId decrypts)) (s.reconnect hostId decrypts) := by
  rw [reconnect, lookup]
  rcases s.fresh (s.passphraseCache.get hostId) with _ | e
  · exact (finds_of_same (promptsBecome_of_eq rfl) rfl rfl le_rfl).evict
  · exact finds_tryPassphrase e decrypts

theorem finds_connectAnswered (n : ℕ) (x : SshConnect) (result : Option SecretAnswer)
    (decrypts : Bool) : Finds s none (s.connectAnswered n x result decrypts) := by
  rcases result with _ | a
  · exact finds_of_same (promptsBecome_of_eq rfl) rfl rfl le_rfl
  · dsimp only [connectAnswered, tryPassphrase]
    split
    · split <;> exact finds_of_same (promptsBecome_of_eq rfl) rfl rfl le_rfl
    · exact finds_of_same (promptsBecome_of_eq rfl) rfl rfl le_rfl

theorem finds_elevateFor (origin : ElevationOrigin) (hostId : String) (k : ℕ) :
    Finds s (s.fresh (s.elevationCache.get (hostId, k))) (s.elevateFor origin hostId k) := by
  rw [elevateFor]
  rcases s.fresh (s.elevationCache.get (hostId, k)) with _ | e
  · exact finds_of_same (promptsBecome_of_eq rfl) rfl rfl le_rfl
  · exact ⟨promptsBecome_of_eq rfl, rfl, le_rfl, fun _ _ _ he ↦ .inl he⟩

theorem finds_restartChannel (c : ChannelId) (hostId : String)
    (requestingClientId attached : Option ℕ) :
    Finds s (s.lookup (.restart c hostId requestingClientId attached))
      (s.restartChannel c hostId requestingClientId attached) := by
  rw [restartChannel, lookup]
  rcases s.promptClient requestingClientId attached with _ | k
  · dsimp only
    rcases s.anyCached hostId with _ | e
    · exact finds_of_same (promptsBecome_of_eq rfl) rfl rfl le_rfl
    · exact ⟨promptsBecome_of_eq rfl, rfl, le_rfl, fun _ _ _ he ↦ .inl he⟩
  · exact finds_elevateFor ..

theorem finds_reply {r : SpawnReply} (hreply : s.reply n o r = some t) : Finds s none t := by
  unfold reply at hreply
  split at hreply
  · split at hreply
    · rename_i k _
      cases hreply
      rw [askElevation]
      split
      · exact finds_of_same (promptsBecome_append rfl rfl) rfl rfl le_rfl
      · exact finds_of_same (promptsBecome_of_eq rfl) rfl rfl le_rfl
    · cases hreply
      exact finds_of_same (promptsBecome_of_eq rfl) rfl rfl le_rfl
  · rename_i answer _
    cases hreply
    have hsettled : Finds s none (s.spawnSettled answer r) := by
      unfold spawnSettled
      split
      · split
        · exact finds_of_same (promptsBecome_of_eq rfl) rfl rfl le_rfl
        · exact finds_of_same (promptsBecome_of_eq rfl) rfl rfl le_rfl
      · exact finds_of_same (promptsBecome_of_eq rfl) rfl rfl le_rfl
    exact ⟨⟨hsettled.prompts.old, hsettled.prompts.new⟩, hsettled.replays, hsettled.now,
      hsettled.entries⟩
  · cases hreply

theorem finds_elevationAnswered (n : ℕ) (o : Elevation) (result : Option SecretAnswer) :
    Finds s none (s.elevationAnswered n o result) := by
  unfold elevationAnswered
  split
  · refine ⟨promptsBecome_of_eq rfl, rfl, le_rfl, fun hostId j e he ↦ ?_⟩
    rcases j with _ | j
    · exact .inl he
    · rw [entry, sendSpawn, setElevation, cacheElevation, OrderedMap.get_set] at he
      split at he
      · cases he
        refine .inr ⟨by simp, Nat.add_le_add_left ?_ _⟩
        cases o.origin <;> simp [ElevationOrigin.ttl]
      · exact .inl he
  · exact finds_of_same (promptsBecome_of_eq rfl) rfl rfl le_rfl

/-- **A step uses what it looks up**, and caches answers to passphrase prompts of sessions only. -/
theorem finds_step {e : SecretEvent} : Ensures (Finds s (s.lookup e)) (s.step e) := by
  cases e with
  | tick time =>
    exact .of_some (finds_of_same (promptsBecome_of_eq rfl) rfl rfl (Nat.le_add_right ..))
  | addClient k => exact .of_some (finds_of_same (promptsBecome_of_eq rfl) rfl rfl le_rfl)
  | removeClient k => exact .of_some (finds_of_same (promptsBecome_removeClient k) rfl rfl le_rfl)
  | reroute p k => exact .of_some (finds_of_same (promptsBecome_reroute p k) rfl rfl le_rfl)
  | cancel p => exact .of_some (finds_of_same (promptsBecome_cancel p) rfl rfl le_rfl)
  | verify hostId kind type k =>
    exact .of_some (finds_of_same (promptsBecome_append rfl rfl) rfl rfl le_rfl)
  | connect hostId promptType route decrypts =>
    exact .of_some (finds_connect hostId promptType route decrypts)
  | reconnect hostId decrypts => exact .of_some (finds_reconnect hostId decrypts)
  | testConnect hostId promptType k => exact .of_some (finds_askSecret ..)
  | connectAnswered n decrypts =>
    exact .bind fun x _ ↦ .map fun result _ ↦ finds_connectAnswered n x result decrypts
  | response k hostId secret rememberSession promptId deliveryEpoch =>
    rw [step]
    exact .guard fun _ ↦ .of_some finds_response
  | spawn k hostId => exact .of_some (finds_elevateFor ..)
  | restart c hostId requestingClientId attached => exact .of_some (finds_restartChannel ..)
  | reply n r => exact .bind fun o _ _ hreply ↦ finds_reply hreply
  | elevationAnswered n =>
    exact .bind fun o _ ↦ .bind fun _ _ ↦ .map fun result _ ↦ finds_elevationAnswered n o result

/-! ## Whole runs -/

/-- What an attempt finds has not expired. -/
theorem looksAt_of_lookup {e : SecretEvent} {x : CachedSecret} (h : s.lookup e = some x) :
    ∃ hostId k, s.LooksAt e hostId k ∧ s.entry hostId k = some x ∧ s.now < x.expiresAt := by
  unfold lookup at h
  split at h
  · exact ⟨_, none, rfl, fresh_eq_some h⟩
  · exact ⟨_, none, rfl, fresh_eq_some h⟩
  · exact ⟨_, some _, ⟨rfl, rfl⟩, fresh_eq_some h⟩
  · split at h
    · rename_i hclient
      exact ⟨_, some _, ⟨rfl, fun _ hk ↦ Option.some.inj (hk.symm.trans hclient)⟩, fresh_eq_some h⟩
    · rename_i hclient
      obtain ⟨⟨⟨_, k⟩, _⟩, hfind, rfl⟩ := Option.map_eq_some_iff.mp h
      have hfound := List.find?_some hfind
      obtain ⟨rfl, hlt⟩ := of_decide_eq_true hfound
      exact ⟨_, some k, ⟨rfl, fun _ hk ↦ nomatch hclient.symm.trans hk⟩,
        OrderedMap.get_eq_some_iff.mpr (List.mem_of_find?_eq_some hfind), hlt⟩
  · cases h

theorem usesSound_iff_careful {e : SecretEvent} (hstep : s.step e = some t) :
    UsesSound s t ↔ s.Careful e := by
  have hreplays := (finds_step hstep).replays
  rcases hlookup : s.lookup e with _ | x
  -- Nothing was found, and nothing is used.
  · rw [hlookup] at hreplays
    have hcareful : s.Careful e := fun x hx ↦ nomatch hlookup.symm.trans hx
    exact iff_of_true (.inl hreplays) hcareful
  · rw [hlookup] at hreplays
    change t.replays = x :: s.replays at hreplays
    constructor
    · rintro (hsame | ⟨y, hy, hfailed, -⟩) z hz
      · exact absurd (hreplays.symm.trans hsame) (List.cons_ne_self _ _)
      · cases hlookup.symm.trans hz
        obtain ⟨rfl, -⟩ := List.cons.inj (hreplays.symm.trans hy)
        exact hfailed
    · intro hcareful
      obtain ⟨-, -, -, -, hlt⟩ := looksAt_of_lookup hlookup
      exact .inr ⟨x, hreplays, hcareful x hlookup, hlt⟩

theorem passphrasesAccepted_start : start.PassphrasesAccepted := nofun

theorem PassphrasesAccepted.step_iff (h : s.PassphrasesAccepted) {e : SecretEvent}
    (hstep : s.step e = some t) :
    t.PassphrasesAccepted ∧ (UsesSound s t ∧ t.PassphrasesAccepted ↔ s.Careful e) := by
  have ht := h.finds (finds_step hstep)
  refine ⟨ht, ?_⟩
  rw [usesSound_iff_careful hstep]
  exact and_iff_left ht

/-- No entry lasts longer than a quarter of an hour. -/
def Lapses (s : SecretHub) : Prop :=
  ∀ hostId k e, s.entry hostId k = some e → e.expiresAt ≤ s.now + 900000

theorem Lapses.finds (h : s.Lapses) (ht : Finds s found t) : t.Lapses := by
  intro hostId k e he
  have hnow := Nat.add_le_add_right ht.now 900000
  rcases ht.entries hostId k e he with hold | ⟨-, hnew⟩
  · exact (h hostId k e hold).trans hnow
  · exact hnew.trans hnow

theorem lapses_start : start.Lapses
  | _, none, _, he => nomatch he
  | _, some _, _, he => nomatch he

/-- Nothing rejected is used again where the attempts wait. -/
theorem noReplays_of_waits {es : List SecretEvent} (h : Waits es) :
    Along step (fun s _ t ↦ UsesSound s t ∧ t.PassphrasesAccepted) start es := by
  refine (along_congr PassphrasesAccepted (fun s e _ hs (ht : s.step e = _) ↦ hs.step_iff ht)
    passphrasesAccepted_start).mpr (by_contra fun hnot ↦ ?_)
  obtain ⟨front, e, back, s, t, hes, hrun, -, hcareful⟩ := exists_of_not_along hnot
  refine hcareful fun x hx hfailed ↦ ?_
  obtain ⟨hostId, k, hlooks, hentry, hlt⟩ := looksAt_of_lookup hx
  obtain ⟨before, u, -, hu, hthere, hlong⟩ :=
    h front e back hes s hrun hostId k hlooks x hentry hfailed
  have hlapses : u.Lapses :=
    run_invariant Lapses (fun s e t hs ht ↦ hs.finds (finds_step ht)) lapses_start hu
  have hexpires := hlapses hostId k x hthere
  omega

/-- **No rejected secret is used again** in a run, none is used once it has expired, and the
passphrases that are cached are answers to prompts of sessions for passphrases, if and only if no
attempt finds an unexpired entry whose secret has failed. -/
theorem noReplays_iff_careful (es : List SecretEvent) :
    Along step (fun s _ t ↦ UsesSound s t ∧ t.PassphrasesAccepted) start es ↔
      Along step (fun s e _ ↦ s.Careful e) start es :=
  along_congr PassphrasesAccepted (fun _ _ _ hs hstep ↦ hs.step_iff hstep) passphrasesAccepted_start

/-- A client mistypes a passphrase, and connects once more within a minute. -/
def mistyped : List SecretEvent :=
  [.addClient 0, .connect "h" .passphrase (some 0) true,
    .response 0 "h" (some "hunter3") false (some 0) none, .connectAnswered 0 false, .tick 1000,
    .connect "h" .passphrase (some 0) false]

/-- The second connect does not ask, and fails with the same passphrase. -/
theorem mistyped_replays :
    ¬ Along step (fun s _ t ↦ UsesSound s t ∧ t.PassphrasesAccepted) start mistyped := by
  intro halong
  rw [mistyped] at halong
  repeat rw [along_cons_of_eq rfl] at halong
  obtain ⟨-, -, -, -, -, ⟨huses, -⟩, -⟩ := halong
  rcases huses with hsame | ⟨e, he, hfailed, -⟩
  · exact absurd hsame (List.cons_ne_self _ _)
  · obtain ⟨rfl, -⟩ := List.cons.inj he
    exact hfailed (List.mem_cons_self ..)

end SecretHub

end Lasterm.Hub
