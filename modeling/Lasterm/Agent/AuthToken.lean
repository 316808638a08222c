import Lasterm.Agent.Handover

/-!
# The token of the daemon

`read_auth_token_with_state_dir` in `daemon.rs`, in front of the connections: what the daemon
expects in AUTH, from what it finds when it starts. It expects nothing only where it sees neither
`auth.json` nor `meta.db`. Where there is no usable token, nobody is to be let in, and the daemon
says this by expecting the empty token.

The empty token is compared as any other one, so that an AUTH message which carries it gets in
there; and `exists` is also false for a file that cannot be looked at. `failsClosed_iff` says that
these are the only two ways in.
-/

namespace Lasterm.Agent

/-! ## Files -/

/-- What a path leads to. -/
inductive FileState where
  | absent
  /-- There is something, but `exists` cannot see it: a link to nowhere, or a file in a directory
  that must not be searched. -/
  | hidden
  | unreadable
  | file (bytes : ByteArray)

namespace FileState

/-- `Path::exists`, which is false on errors. -/
def pathExists : FileState → Bool
  | .absent | .hidden => false
  | .unreadable | .file _ => true

/-- `read_to_string`. -/
def readToString : FileState → Option String
  | .file bytes => String.fromUTF8? bytes
  | _ => none

theorem readToString_of_not_pathExists {f : FileState} (h : f.pathExists = false) :
    f.readToString = none := by
  cases f with
  | absent => rfl
  | hidden => rfl
  | unreadable => rfl
  | file bytes => cases h

end FileState

/-- `serde_json::Value`, with numbers as they are written. -/
inductive JsonValue where
  | null
  | bool (b : Bool)
  | number (text : String)
  | string (s : String)
  | array (items : List JsonValue)
  | object (fields : List (String × JsonValue))

namespace JsonValue

/-- `Value::get`. -/
def get (key : String) : JsonValue → Option JsonValue
  | .object fields => (fields.find? fun f ↦ f.1 = key).map Prod.snd
  | _ => none

def asStr : JsonValue → Option String
  | .string s => some s
  | _ => none

theorem asStr_eq_some {v : JsonValue} {s : String} : v.asStr = some s ↔ v = .string s := by
  cases v <;> simp [asStr]

end JsonValue

/-! ## The expected token -/

/-- The config and the state directory when the daemon starts. -/
structure TokenFiles where
  authJson : FileState
  metaDb : FileState

namespace TokenFiles

variable (parse : String → Option JsonValue) (d : TokenFiles)

/-- `read_auth_token_with_state_dir`, with `parse` for `serde_json::from_str`. -/
def readAuthToken : Option String :=
  if d.authJson.pathExists then
    match d.authJson.readToString with
    | none => some ""
    | some content =>
      match parse content with
      | some v => some (((v.get "token").bind JsonValue.asStr).getD "")
      | none => some ""
  else if d.metaDb.pathExists then some "" else none

/-- Neither of the files is there. -/
def FirstRun : Prop := d.authJson = .absent ∧ d.metaDb = .absent

/-- `auth.json` is readable JSON, and its token field is the string `token`. -/
def Holds (token : String) : Prop :=
  ∃ content v, d.authJson.readToString = some content ∧ parse content = some v ∧
    v.get "token" = some (.string token)

/-- A token that is not empty lets in whoever sends it. -/
def Grants (token : String) : Prop := token ≠ "" ∧ d.Holds parse token

variable {parse d} {token : String}

theorem readAuthToken_of_holds (h : d.Holds parse token) : d.readAuthToken parse = some token := by
  obtain ⟨content, v, hread, hparse, htoken⟩ := h
  have hexists : d.authJson.pathExists = true := by
    by_contra hnot
    rw [FileState.readToString_of_not_pathExists (Bool.eq_false_iff.mpr hnot)] at hread
    cases hread
  rw [readAuthToken, if_pos hexists, hread]
  simp only [hparse, htoken, Option.bind_some, JsonValue.asStr, Option.getD_some]

/-- A token that is expected is the one of the file, or the empty one. -/
theorem holds_of_readAuthToken (h : d.readAuthToken parse = some token) :
    token = "" ∨ d.Holds parse token := by
  rw [readAuthToken] at h
  split at h
  · split at h
    · exact .inl (Option.some.inj h).symm
    · rename_i content hread
      split at h
      · rename_i v hparse
        cases h
        rcases htoken : (v.get "token").bind JsonValue.asStr with _ | s
        · exact .inl rfl
        · obtain ⟨w, hw, hs⟩ := Option.bind_eq_some_iff.mp htoken
          obtain rfl := JsonValue.asStr_eq_some.mp hs
          exact .inr ⟨content, v, hread, hparse, hw⟩
      · exact .inl (Option.some.inj h).symm
  · split at h
    · exact .inl (Option.some.inj h).symm
    · cases h

theorem readAuthToken_isSome :
    (d.readAuthToken parse).isSome = (d.authJson.pathExists || d.metaDb.pathExists) := by
  rw [readAuthToken]
  cases d.authJson.pathExists
  · cases d.metaDb.pathExists <;> rfl
  · rw [if_pos rfl]
    split
    · rfl
    · split <;> rfl

theorem not_holds_of_hidden (h : d.authJson.pathExists = false) : ¬ d.Holds parse token := by
  rintro ⟨content, v, hread, -⟩
  rw [FileState.readToString_of_not_pathExists h] at hread
  cases hread

/-! ## Who gets in -/

section Connection

variable {σ : Type*} {H : Handler σ} {serde : Serde HubToAgent} {s : σ}
  {reads rest : List (Except IoError (List UInt8))}

/-- A connection gets past AUTH. -/
def Accepts (H : Handler σ) (serde : Serde HubToAgent) (parse : String → Option JsonValue)
    (d : TokenFiles) (s : σ) (reads : List (Except IoError (List UInt8))) : Prop :=
  ∃ handled, handleConnection H serde (d.readAuthToken parse) s reads = .ok handled

theorem accepts_of_readAuthToken_eq_none (h : d.readAuthToken parse = none) :
    Accepts H serde parse d s reads := by
  rw [Accepts, h]
  exact ⟨_, rfl⟩

/-- The token that is sent must be the one that is expected. -/
theorem accepts_iff {expected : String} (h : d.readAuthToken parse = some expected)
    (hfirst : firstMessage serde .new reads = .ok (.auth token, rest)) :
    Accepts H serde parse d s reads ↔ expected = token := by
  have hpasses : passesAuth expected (.auth token) = true ↔ expected = token := by
    rw [passesAuth, ctEq_iff, Array.toList_inj, ← ByteArray.ext_iff]
    exact String.toByteArray_inj
  rw [Accepts, h, handleConnection, validateAuth, hfirst]
  by_cases hpass : passesAuth expected (.auth token) = true
  · simp only [hpass, if_true]
    exact iff_of_true ⟨_, rfl⟩ (hpasses.mp hpass)
  · simp only [hpass, Bool.false_eq_true, if_false]
    refine iff_of_false ?_ fun heq ↦ hpass (hpasses.mpr heq)
    rintro ⟨_, hok⟩
    cases hok

/-- **Fail closed.** The token that `auth.json` holds, if it is not empty, passes AUTH and no other
one does, exactly if one of the two files is seen, and the empty token is not sent where `auth.json`
has none to grant. -/
theorem failsClosed_iff
    (hfirst : firstMessage serde .new reads = .ok (.auth token, rest)) :
    (Accepts H serde parse d s reads ↔ d.Grants parse token) ↔
      (d.authJson.pathExists = true ∨ d.metaDb.pathExists = true) ∧
        (token ≠ "" ∨ ∃ t, d.Grants parse t) := by
  have hseen : (d.readAuthToken parse).isSome = _ := d.readAuthToken_isSome
  rw [← Bool.or_eq_true, ← hseen]
  rcases hexpected : d.readAuthToken parse with _ | expected
  · -- Neither file is seen, and whoever connects gets in.
    rw [hexpected, Option.isSome_none, eq_comm, Bool.or_eq_false_iff] at hseen
    have hrefused : ¬ d.Grants parse token := fun h ↦ not_holds_of_hidden hseen.1 h.2
    rw [iff_true_left (accepts_of_readAuthToken_eq_none hexpected)]
    exact iff_of_false hrefused fun h ↦ Bool.noConfusion h.1
  · rw [accepts_iff hexpected hfirst, Option.isSome_some, and_iff_right rfl]
    by_cases hempty : expected = ""
    · -- The sentinel, or an empty token in the file.
      have hnone : ∀ t, ¬ d.Grants parse t := by
        rintro t ⟨ht, hholds⟩
        have heq : expected = t :=
          Option.some.inj (hexpected.symm.trans (readAuthToken_of_holds hholds))
        exact ht (heq.symm.trans hempty)
      rw [hempty, iff_false_right (hnone token), or_iff_left fun ⟨t, ht⟩ ↦ hnone t ht, ne_comm]
    · have hholds : d.Holds parse expected := (holds_of_readAuthToken hexpected).resolve_left hempty
      refine iff_of_true ?_ (.inr ⟨expected, hempty, hholds⟩)
      constructor
      · rintro rfl
        exact ⟨hempty, hholds⟩
      · intro hgrants
        exact Option.some.inj (hexpected.symm.trans (readAuthToken_of_holds hgrants.2))

end Connection

open LengthPrefix in
/-- A connection that sends one AUTH frame, in one read. -/
def authRead : List (Except IoError (List UInt8)) := [.ok (frame [1])]

theorem firstMessage_authRead (token : String) :
    firstMessage (payloadSerde [1] token) .new authRead = .ok (.auth token, []) := by
  have hpush : FrameReader.push (payloadSerde [1] token) .new ([[1]].flatMap LengthPrefix.frame) =
      _ :=
    FrameReader.push_frames (by decide)
  exact firstMessage_cons (by decide) hpush

/-- `auth.json` was deleted behind the back of a daemon that has run before. -/
def lostConfig : TokenFiles := ⟨.absent, .file .empty⟩

theorem failsClosed_iff_lostConfig :
    ¬ Accepts (ptyHandler quietWorld) (payloadSerde [1] "guess") (fun _ ↦ none) lostConfig
      (0, .new) authRead := by
  have hclosed : Accepts (ptyHandler quietWorld) (payloadSerde [1] "guess") (fun _ ↦ none)
      lostConfig (0, .new) authRead ↔ lostConfig.Grants (fun _ ↦ none) "guess" :=
    (failsClosed_iff (firstMessage_authRead "guess")).mpr ⟨.inr rfl, .inl (by decide)⟩
  intro haccepts
  exact not_holds_of_hidden rfl (hclosed.mp haccepts).2

/-- The empty token opens what is meant to be closed. -/
theorem empty_token_accepted :
    ¬ lostConfig.FirstRun ∧
      Accepts (ptyHandler quietWorld) (payloadSerde [1] "") (fun _ ↦ none) lostConfig (0, .new)
        authRead ∧
      ¬ lostConfig.Grants (fun _ ↦ none) "" := by
  have hexpected : lostConfig.readAuthToken (fun _ ↦ none) = some "" := rfl
  refine ⟨fun h ↦ FileState.noConfusion h.2, ?_, fun h ↦ h.1 rfl⟩
  exact (accepts_iff hexpected (firstMessage_authRead "")).mpr rfl

end TokenFiles

end Lasterm.Agent
