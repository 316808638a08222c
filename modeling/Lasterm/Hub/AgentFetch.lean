import Lasterm.Hub.AgentCache

/-!
# Fetching the binary of an agent

Model of `fetchAgentBinary` in `session/agent-fetch.ts`: the asset under its name or under the old
one, the download to a temporary file, the checksum manifest from the cache or from the release, the
exemption for releases before 0.4.0, and the manifest that is cached once it has verified a binary.

The release server is a function from URLs to replies; a call asks for no URL twice. What the
platform gives is a parameter: the digest, the coding of text as UTF-8, and the process id. The text
of errors is left out apart from what it is about, and so is what is reported of the progress.

`fetchAgentBinary_verified` is the main result: a call that fails leaves every binary as it was, and
otherwise one binary was replaced, by what the server gave in full and what the manifest lists.
-/

namespace Lasterm.Hub

open Shell

/-! ## The release server -/

/-- What a stream delivers, and whether it comes to its end. -/
structure ResponseBody where
  chunks : List (List UInt8)
  done : Bool

structure Response where
  /-- Where the redirects have led; empty if that is not known. -/
  url : Text
  status : ℕ
  contentRange : Bool
  contentEncoding : Option Text
  /-- `x-ratelimit-remaining` is 0, or there is a `retry-after`. -/
  limitHeaders : Bool
  body : Option ResponseBody

/-- The reply to a request. `none`: it fails, or it takes too long. -/
abbrev ReleaseServer := Text → Option Response

namespace Response

variable (response : Response)

def ok : Bool := 200 ≤ response.status && response.status ≤ 299

def isRateLimited : Bool :=
  response.status = 429 || (response.status = 403 && response.limitHeaders)

/-- `assertIdentityResponse`. -/
def assertIdentity : Except FetchFailure Unit :=
  match response.contentEncoding with
  | some encoding =>
    if encoding ≠ [] ∧ encoding.map Char.toLower ≠ "identity".toList then
      .error (.compressed encoding)
    else .ok ()
  | none => .ok ()

end Response

variable (server : ReleaseServer)

def fetchResponse (url : Text) : Except FetchFailure Response :=
  match server url with
  | none => .error (.networkError url)
  | some response =>
    if response.url ≠ [] ∧ ¬ "https:".toList.isPrefixOf response.url then
      .error (.insecureRedirect response.url)
    else .ok response

def rejectPartialResponse (response : Response) (url : Text) : Except FetchFailure Unit :=
  if ¬ response.ok then .ok ()
  else if response.status = 200 ∧ ¬ response.contentRange then .ok ()
  else .error (.partialResponse response.status url)

/-- What `throwHttpError` throws. -/
def httpError (response : Response) (url tagUrl assetName : Text) :
    FetchFailure :=
  if response.isRateLimited then .rateLimited url
  else if response.status = 401 ∨ response.status = 403 then .privateOrForbidden url
  else if response.status = 404 then
    match fetchResponse server tagUrl with
    | .error e => e
    | .ok tag =>
      if tag.ok then .releaseIncomplete assetName
      else if tag.isRateLimited then .rateLimited tagUrl
      else if tag.status = 401 ∨ tag.status = 403 then .privateOrForbidden url
      else if tag.status = 404 then .notFound tagUrl
      else .badStatus tag.status tagUrl
  else .badStatus response.status url

/-- The loops of `writeResponseToTemp` and `readResponseBytes`: what was read, and how it ended. -/
def readChunks (maxBytes : ℕ) (url : Text) (done : Bool) :
    List (List UInt8) → List UInt8 → List UInt8 × Except FetchFailure Unit
  | [], read => (read, if done then .ok () else .error (.networkError url))
  | chunk :: chunks, read =>
    if maxBytes < read.length + chunk.length then (read, .error (.tooLarge url))
    else readChunks maxBytes url done chunks (read ++ chunk)

def AGENT_FETCH_MAX_BYTES : ℕ := 64 * 1024 * 1024

def AGENT_FETCH_MANIFEST_MAX_BYTES : ℕ := 1024 * 1024

/-! ## Versions -/

/-- `Number.parseInt` of digits. -/
def parseDigits (part : Text) : ℕ := part.foldl (fun n c ↦ 10 * n + (c.toNat - 48)) 0

/-- `split(".").map((part) => Number.parseInt(part, 10))`. -/
def versionNumbers (version : Text) : List ℕ := (version.splitOn '.').map parseDigits

/-- The loop of `compareSemver`, from one index on. -/
def compareParts (leftParts rightParts : List ℕ) : List ℕ → ℤ
  | [] => 0
  | index :: indices =>
    if (leftParts.getD index 0 : ℤ) - rightParts.getD index 0 ≠ 0 then
      (leftParts.getD index 0 : ℤ) - rightParts.getD index 0
    else compareParts leftParts rightParts indices

def compareSemver (left right : Text) : ℤ :=
  compareParts (versionNumbers left) (versionNumbers right) [0, 1, 2]

def LEGACY_VERSION_CUTOFF : Text := "0.4.0".toList

def isLegacyVersion (version : Text) : Prop := compareSemver version LEGACY_VERSION_CUTOFF < 0

instance (version : Text) : Decidable (isLegacyVersion version) :=
  inferInstanceAs (Decidable (_ < _))

/-! ## Names and URLs -/

def getVersionedAssetName (triple version ext : Text) : Text :=
  releaseAssetPrefix triple ++ version ++ ext

def getLegacyAssetName (triple version ext : Text) : Text :=
  if isLegacyVersion version then "termora-agent-".toList ++ (triple ++ ext)
  else "termora-agent-".toList ++ (triple ++ "-".toList ++ version ++ ext)

def getChecksumManifestName (version : Text) : Text :=
  "SHA256SUMS-".toList ++ (version ++ ".txt".toList)

def buildReleaseAssetUrl (baseUrl version assetName : Text) : Text :=
  baseUrl ++ "/releases/download/v".toList ++ version ++ "/".toList ++ assetName

def buildReleaseTagUrl (baseUrl version : Text) : Text :=
  baseUrl ++ "/releases/tags/v".toList ++ version

/-! ## A call -/

structure FetchPlatform where
  sha256 : List UInt8 → HexText 64
  encodeUtf8 : Text → List UInt8
  /-- With a replacement character for what is no UTF-8. -/
  decodeUtf8 : List UInt8 → Text
  pid : ℕ

/-- The options of a call, and what it meets. -/
structure FetchCall where
  os : Text
  arch : Text
  version : Text
  /-- What `normalizeBaseUrl` gives, if it does not throw. -/
  baseUrl : Option Text
  /-- The cache directory passes `ensureCacheDir`. -/
  secure : Bool
  server : ReleaseServer
  /-- `randomBytes` in `createUniqueTempPath`. -/
  random : ℕ → HexText 16
  /-- `randomBytes` in `writeManifestCache`. -/
  manifestRandom : HexText 16

/-- `AssetResponse`, with the names that a call has found so far. -/
structure AssetResponse where
  finalName : Text
  tempName : Text
  baseUrl : Text
  response : Response
  assetName : Text
  assetUrl : Text

/-- A request for an asset, under one name. -/
def openAsset (url : Text) : Except FetchFailure Response := do
  let response ← fetchResponse server url
  rejectPartialResponse response url
  .ok response

/-- `openAssetResponse`: the response, with the name and the URL of the asset. -/
def openAssetResponse (baseUrl version : Text) (target : ResolvedTarget) :
    Except FetchFailure (Response × Text × Text) := do
  let assetName := getVersionedAssetName target.triple version target.ext
  let assetUrl := buildReleaseAssetUrl baseUrl version assetName
  let tagUrl := buildReleaseTagUrl baseUrl version
  let versioned ← openAsset server assetUrl
  if versioned.ok then .ok (versioned, assetName, assetUrl)
  else if versioned.status = 404 then
    let legacyName := getLegacyAssetName target.triple version target.ext
    let legacyUrl := buildReleaseAssetUrl baseUrl version legacyName
    let legacy ← openAsset server legacyUrl
    if legacy.ok then .ok (legacy, legacyName, legacyUrl)
    -- Where neither name is there, the error is about the current one.
    else if legacy.status = 404 then .error (httpError server legacy assetUrl tagUrl assetName)
    else .error (httpError server legacy legacyUrl tagUrl legacyName)
  else .error (httpError server versioned assetUrl tagUrl assetName)

def createUniqueTempPath (f : CacheFiles) (finalName : Text) (pid : ℕ) (random : ℕ → HexText 16) :
    Except FetchFailure Text :=
  match ((List.range 32).map fun i ↦ finalName ++ tempSuffix pid (random i)).find?
      fun tempName ↦ ¬ existsSync f tempName with
  | some tempName => .ok tempName
  | none => .error .noTempName

/-- `fetchAgentBinary` up to the download. -/
def openRelease (platform : FetchPlatform) (call : FetchCall) (f : CacheFiles) :
    Except FetchFailure AssetResponse := do
  validateAgentVersion call.version
  match resolveTarget call.os call.arch, call.baseUrl with
  | none, _ => .error (.unsupportedTarget call.os call.arch)
  | some _, none => .error .badBaseUrl
  | some target, some baseUrl =>
    if ¬ call.secure then .error .insecureCacheDir
    else
      let finalName := getCacheFileName call.os call.arch call.version target.ext
      let (response, assetName, assetUrl) ←
        openAssetResponse call.server baseUrl call.version target
      let tempName ← createUniqueTempPath f finalName platform.pid call.random
      .ok ⟨finalName, tempName, baseUrl, response, assetName, assetUrl⟩

/-- What a step of a call gives, and the directory that it leaves. -/
abbrev FetchOutcome (α : Type) := Except FetchFailure α × CacheFiles

def writeResponseToTemp (f : CacheFiles) (response : Response) (url tempName : Text) :
    FetchOutcome Unit :=
  match response.assertIdentity, response.body with
  | .error e, _ => (.error e, f)
  | .ok _, none => (.error (.networkError url), f)
  | .ok _, some body =>
    -- `O_EXCL`.
    if f tempName ≠ none then (.error (.errno "EEXIST"), f)
    else
      ((readChunks AGENT_FETCH_MAX_BYTES url body.done body.chunks []).2,
        writeFile f tempName (readChunks AGENT_FETCH_MAX_BYTES url body.done body.chunks []).1)

/-! ## The manifest -/

def readCachedManifest (platform : FetchPlatform) (f : CacheFiles) (manifestName : Text) :
    Option Text :=
  match f manifestName with
  | some (.file bytes) =>
    if bytes.length ≤ AGENT_FETCH_MANIFEST_MAX_BYTES then some (platform.decodeUtf8 bytes) else none
  | _ => none

/-- `readResponseBytes`, for a manifest. -/
def readManifestBytes (response : Response) (url : Text) : Except FetchFailure (List UInt8) := do
  response.assertIdentity
  match response.body with
  | none => .ok []
  | some body =>
    let (bytes, ended) :=
      readChunks AGENT_FETCH_MANIFEST_MAX_BYTES url body.done body.chunks []
    ended
    .ok bytes

/-- `getChecksumManifest` where nothing is cached. `none`: the release has no manifest. -/
def fetchManifest (platform : FetchPlatform) (server : ReleaseServer) (url : Text) :
    Except FetchFailure (Option Text) := do
  let response ← fetchResponse server url
  if response.status = 404 then .ok none
  else if response.isRateLimited then .error (.rateLimited url)
  else if response.status = 401 ∨ response.status = 403 then .error (.privateOrForbidden url)
  else if ¬ response.ok then .error (.badStatus response.status url)
  else
    let bytes ← readManifestBytes response url
    .ok (some (platform.decodeUtf8 bytes))

structure ManifestSource where
  text : Text
  fromCache : Bool

def getChecksumManifest (platform : FetchPlatform) (call : FetchCall) (baseUrl : Text)
    (f : CacheFiles) : Except FetchFailure (Option ManifestSource) :=
  let manifestName := getChecksumManifestName call.version
  match readCachedManifest platform f manifestName with
  | some text => .ok (some ⟨text, true⟩)
  | none =>
    (fetchManifest platform call.server
      (buildReleaseAssetUrl baseUrl call.version manifestName)).map
      (Option.map fun text ↦ ⟨text, false⟩)

def manifestTempName (platform : FetchPlatform) (call : FetchCall) : Text :=
  getChecksumManifestName call.version ++ tempSuffix platform.pid call.manifestRandom

/-- Where the rename fails the temporary file is removed. Where its name is taken, what is there is
removed, and nothing is written. -/
def writeManifestCache (platform : FetchPlatform) (call : FetchCall) (text : Text)
    (f : CacheFiles) :
    FetchOutcome Unit :=
  let manifestName := getChecksumManifestName call.version
  let tempName := manifestTempName platform call
  if f tempName ≠ none then
    match removeFileIfPresent f tempName with
    | .error e => (.error e, f)
    | .ok f' => (.ok (), f')
  else
    match renameSync (writeFile f tempName (platform.encodeUtf8 text)) tempName manifestName with
    | .error e => (.error e, f)
    | .ok f' => (.ok (), f')

/-! ## Verification -/

def handleMissingChecksum (version assetName : Text) : Except FetchFailure Unit :=
  if isLegacyVersion version then .ok () else .error (.missingChecksum version assetName)

def checksumManifestForTemp (platform : FetchPlatform) (f : CacheFiles)
    (tempName assetName : Text) :
    Except FetchFailure Text :=
  match f tempName with
  | some (.file bytes) =>
    .ok (manifestLine (platform.sha256 bytes) assetName ++ "\n".toList)
  | _ => .error (.errno "ENOENT")

/-- `handleMissingChecksum`, and `verifyAndPlace` with a manifest that was made for the file. -/
def placeUnlisted (platform : FetchPlatform) (call : FetchCall) (asset : AssetResponse)
    (f : CacheFiles) : Except FetchFailure (Text × CacheFiles) := do
  handleMissingChecksum call.version asset.assetName
  let manifest ← checksumManifestForTemp platform f asset.tempName asset.assetName
  verifyAndPlace platform.sha256 call.secure f asset.tempName asset.assetName manifest

/-- The directory stays as it was where nothing is placed. -/
def placed (f : CacheFiles) : Except FetchFailure (Text × CacheFiles) → FetchOutcome Text
  | .error e => (.error e, f)
  | .ok (finalName, f') => (.ok finalName, f')

/-- `verifyChecksumAndPlace` with the manifest that was found. -/
def placeListed (platform : FetchPlatform) (call : FetchCall) (asset : AssetResponse)
    (manifest : ManifestSource) (f : CacheFiles) : FetchOutcome Text :=
  match verifyAndPlace platform.sha256 call.secure f asset.tempName asset.assetName
      manifest.text with
  | .ok (finalName, f') =>
    if manifest.fromCache then (.ok finalName, f')
    else
      match writeManifestCache platform call manifest.text f' with
      -- No `FetchError`, so that the `catch` throws it again.
      | (.error e, f'') => (.error e, f'')
      | (.ok _, f'') => (.ok finalName, f'')
  | .error e =>
    if e.code = some .checksumMissing then placed f (placeUnlisted platform call asset f)
    else if e = .mismatch asset.assetName then
      (.error (.mismatchOf asset.assetName asset.assetUrl asset.finalName), f)
    else (.error e, f)

def verifyChecksumAndPlace (platform : FetchPlatform) (call : FetchCall) (asset : AssetResponse)
    (f : CacheFiles) : FetchOutcome Text :=
  match getChecksumManifest platform call asset.baseUrl f with
  | .error e => (.error e, f)
  | .ok none => placed f (placeUnlisted platform call asset f)
  | .ok (some manifest) => placeListed platform call asset manifest f

/-- The `catch` of `fetchAgentBinary`, for an error. -/
def abandonFetch (asset : AssetResponse) (e : FetchFailure) (f : CacheFiles) : FetchOutcome Text :=
  match removeFileIfPresent f asset.tempName with
  | .error e' => (.error e', f)
  | .ok f' => (.error (if e.code = none then .networkError asset.assetUrl else e), f')

def catchFetch (asset : AssetResponse) : FetchOutcome Text → FetchOutcome Text
  | (.error e, f) => abandonFetch asset e f
  | (.ok finalName, f) => (.ok finalName, f)

/-- `fetchAgentBinary` behind `openRelease`. -/
def downloadAndPlace (platform : FetchPlatform) (call : FetchCall) (asset : AssetResponse)
    (f : CacheFiles) : FetchOutcome Text :=
  match writeResponseToTemp f asset.response asset.assetUrl asset.tempName with
  | (.error e, f') => abandonFetch asset e f'
  | (.ok _, f') => catchFetch asset (verifyChecksumAndPlace platform call asset f')

def fetchAgentBinary (platform : FetchPlatform) (call : FetchCall) (f : CacheFiles) :
    FetchOutcome Text :=
  match openRelease platform call f with
  | .error e => (.error e, f)
  | .ok asset => downloadAndPlace platform call asset f

/-! ## The chunks of a response -/

theorem readChunks_ok {maxBytes : ℕ} {url : Text} {done : Bool} {chunks : List (List UInt8)}
    {read : List UInt8} (hread : read.length ≤ maxBytes)
    (h : (readChunks maxBytes url done chunks read).2 = .ok ()) :
    done = true ∧ (readChunks maxBytes url done chunks read).1 = read ++ chunks.flatten ∧
      (read ++ chunks.flatten).length ≤ maxBytes := by
  induction chunks generalizing read with
  | nil =>
    rw [readChunks] at h ⊢
    rw [List.flatten_nil, List.append_nil]
    rcases done with _ | _
    · cases h
    · exact ⟨rfl, rfl, hread⟩
  | cons chunk chunks ih =>
    rw [readChunks] at h ⊢
    split at h
    · cases h
    · rename_i hsize
      rw [if_neg hsize, List.flatten_cons, ← List.append_assoc]
      exact ih (by rw [List.length_append]; omega) h

/-! ## Versions below 0.4.0 -/

theorem length_versionNumbers {version : Text} (h : STRICT_SEMVER version = true) :
    ∃ major minor patch, versionNumbers version = [major, minor, patch] := by
  rw [STRICT_SEMVER, Bool.and_eq_true] at h
  have hlength : (versionNumbers version).length = 3 := by
    rw [versionNumbers, List.length_map]
    exact of_decide_eq_true h.1
  exact List.length_eq_three.mp hlength

theorem isLegacyVersion_iff {version : Text} (h : STRICT_SEMVER version = true) :
    isLegacyVersion version ↔ versionNumbers version < [0, 4, 0] := by
  obtain ⟨major, minor, patch, hnumbers⟩ := length_versionNumbers h
  have hcutoff : versionNumbers LEGACY_VERSION_CUTOFF = [0, 4, 0] := by decide
  rw [isLegacyVersion, compareSemver, hnumbers, hcutoff]
  simp only [compareParts, List.getD_cons_zero, List.getD_cons_succ, List.cons_lt_cons_iff]
  split
  · omega
  · split
    · omega
    · split
      · omega
      · simp
        omega

/-! ## The names of one call are apart -/

/-- A temporary file of the cache. -/
def isTempName (name : Text) : Bool := tmp.isSuffixOf name

def isManifestName (name : Text) : Bool := "SHA256SUMS-".toList.isPrefixOf name

theorem isTempName_append {front back : Text} (hne : back ≠ []) (hback : 'p' ∉ back) :
    isTempName (front ++ back) = false := by
  rw [Bool.eq_false_iff]
  intro htmp
  obtain ⟨init, hinit⟩ := List.isSuffixOf_iff_suffix.mp htmp
  have hlast : back.getLast? = some 'p' := by
    rw [← List.getLast?_append_of_ne_nil front hne, ← hinit,
      List.getLast?_append_of_ne_nil init (by decide)]
    rfl
  exact hback (List.mem_of_getLast? hlast)

theorem isTempName_tempSuffix (name : Text) (pid : ℕ) (rand : HexText 16) :
    isTempName (name ++ tempSuffix pid rand) = true := by
  refine List.isSuffixOf_iff_suffix.mpr
    ⟨name ++ '.' :: (Nat.toDigits 10 pid ++ '.' :: rand.text), ?_⟩
  simp [tempSuffix]

theorem isTempName_getChecksumManifestName (version : Text) :
    isTempName (getChecksumManifestName version) = false := by
  unfold getChecksumManifestName
  rw [← List.append_assoc]
  exact isTempName_append (by decide) (by decide)

theorem isManifestName_getChecksumManifestName (version : Text) :
    isManifestName (getChecksumManifestName version) = true :=
  List.isPrefixOf_iff_prefix.mpr (List.prefix_append _ _)

variable {target : ResolvedTarget}

theorem isTempName_getCacheFileName {os arch version : Text}
    (htarget : resolveTarget os arch = some target) (hversion : STRICT_SEMVER version = true) :
    isTempName (getCacheFileName os arch version target.ext) = false := by
  rw [getCacheFileName_eq]
  refine isTempName_append ?_ ?_
  · rintro hnil
    rw [List.append_eq_nil_iff] at hnil
    rw [hnil.1] at hversion
    revert hversion
    decide
  · rw [List.mem_append, not_or]
    refine ⟨fun hmem ↦ ?_, (resolveTarget_chars htarget).2.2.1⟩
    exact absurd (isDigit_of_mem_version hversion hmem (by decide)) (by decide)

theorem isManifestName_getCacheFileName (os arch version ext : Text) :
    isManifestName (getCacheFileName os arch version ext) = false := by
  rw [getCacheFileName_eq]
  rfl

/-! ## The asset of a call -/

theorem openAsset_ok {server : ReleaseServer} {url : Text} {response : Response}
    (h : openAsset server url = .ok response) (hok : response.ok = true) :
    server url = some response ∧ response.status = 200 ∧ response.contentRange = false := by
  obtain ⟨response', hfetch, h⟩ := AgentDeployer.bind_eq_ok.mp h
  obtain ⟨⟨⟩, hpartial, h⟩ := AgentDeployer.bind_eq_ok.mp h
  cases h
  have hserver : server url = some response := by
    unfold fetchResponse at hfetch
    split at hfetch
    · cases hfetch
    · split at hfetch
      · cases hfetch
      · cases hfetch
        assumption
  rw [rejectPartialResponse, if_neg (not_not.mpr hok)] at hpartial
  split at hpartial
  · rename_i hcomplete
    exact ⟨hserver, hcomplete.1, Bool.eq_false_iff.mpr hcomplete.2⟩
  · cases hpartial

theorem openAssetResponse_ok {server : ReleaseServer} {baseUrl version assetName assetUrl : Text}
    {response : Response}
    (h : openAssetResponse server baseUrl version target = .ok (response, assetName, assetUrl)) :
    assetName ∈ [getVersionedAssetName target.triple version target.ext,
        getLegacyAssetName target.triple version target.ext] ∧
      assetUrl = buildReleaseAssetUrl baseUrl version assetName ∧
      server assetUrl = some response ∧ response.status = 200 ∧ response.contentRange = false := by
  obtain ⟨versioned, hversioned, h⟩ := AgentDeployer.bind_eq_ok.mp h
  split at h
  · rename_i hok
    cases h
    exact ⟨List.mem_cons_self, rfl, openAsset_ok hversioned hok⟩
  · split at h
    · obtain ⟨legacy, hlegacy, h⟩ := AgentDeployer.bind_eq_ok.mp h
      split at h
      · rename_i hok
        cases h
        exact ⟨List.mem_cons_of_mem _ List.mem_cons_self, rfl, openAsset_ok hlegacy hok⟩
      · split at h
        · cases h
        · cases h
    · cases h

/-- What is known of an asset that is open. -/
structure Opened (platform : FetchPlatform) (call : FetchCall) (f : CacheFiles)
    (asset : AssetResponse) (target : ResolvedTarget) : Prop where
  valid : validateAgentVersion call.version = .ok ()
  target_eq : resolveTarget call.os call.arch = some target
  secure_eq : call.secure = true
  baseUrl_eq : call.baseUrl = some asset.baseUrl
  finalName_eq : asset.finalName = getCacheFileName call.os call.arch call.version target.ext
  assetName_mem : asset.assetName ∈ [getVersionedAssetName target.triple call.version target.ext,
    getLegacyAssetName target.triple call.version target.ext]
  assetUrl_eq : asset.assetUrl = buildReleaseAssetUrl asset.baseUrl call.version asset.assetName
  server_eq : call.server asset.assetUrl = some asset.response
  status_eq : asset.response.status = 200
  contentRange_eq : asset.response.contentRange = false
  tempName_eq : ∃ rand, asset.tempName = asset.finalName ++ tempSuffix platform.pid rand
  temp_free : existsSync f asset.tempName = false

variable {platform : FetchPlatform} {call : FetchCall} {f : CacheFiles} {asset : AssetResponse}
  {e : FetchFailure}

theorem createUniqueTempPath_ok {finalName tempName : Text} {random : ℕ → HexText 16}
    (h : createUniqueTempPath f finalName platform.pid random = .ok tempName) :
    (∃ rand, tempName = finalName ++ tempSuffix platform.pid rand) ∧
      existsSync f tempName = false := by
  unfold createUniqueTempPath at h
  split at h
  · rename_i heq
    cases h
    obtain ⟨i, -, hi⟩ := List.mem_map.mp (List.mem_of_find?_eq_some heq)
    have hfree := List.find?_some heq
    exact ⟨⟨random i, hi.symm⟩, Bool.eq_false_iff.mpr (of_decide_eq_true hfree)⟩
  · cases h

theorem openRelease_ok (h : openRelease platform call f = .ok asset) :
    ∃ target, Opened platform call f asset target := by
  obtain ⟨⟨⟩, hvalid, h⟩ := AgentDeployer.bind_eq_ok.mp h
  split at h
  · cases h
  · cases h
  · rename_i target baseUrl htarget hbase
    split at h
    · cases h
    · rename_i hsecure
      obtain ⟨⟨response, assetName, assetUrl⟩, hasset, h⟩ := AgentDeployer.bind_eq_ok.mp h
      obtain ⟨tempName, htemp, h⟩ := AgentDeployer.bind_eq_ok.mp h
      cases h
      obtain ⟨hmem, hurl, hserver, hstatus, hrange⟩ := openAssetResponse_ok hasset
      obtain ⟨hrand, hfree⟩ := createUniqueTempPath_ok htemp
      exact ⟨target, {
        valid := hvalid
        target_eq := htarget
        secure_eq := not_not.mp hsecure
        baseUrl_eq := hbase
        finalName_eq := rfl
        assetName_mem := hmem
        assetUrl_eq := hurl
        server_eq := hserver
        status_eq := hstatus
        contentRange_eq := hrange
        tempName_eq := hrand
        temp_free := hfree }⟩

namespace Opened

variable {target : ResolvedTarget} (h : Opened platform call f asset target)
include h

theorem semver : STRICT_SEMVER call.version = true := STRICT_SEMVER_of_valid h.valid

theorem isTempName_temp : isTempName asset.tempName = true := by
  obtain ⟨rand, hrand⟩ := h.tempName_eq
  rw [hrand]
  exact isTempName_tempSuffix _ _ _

theorem isTempName_final : isTempName asset.finalName = false := by
  rw [h.finalName_eq]
  exact isTempName_getCacheFileName h.target_eq h.semver

theorem isManifestName_final : isManifestName asset.finalName = false := by
  rw [h.finalName_eq]
  exact isManifestName_getCacheFileName _ _ _ _

theorem assetName_chars : asset.assetName.all isNameChar = true ∧
    asset.assetName.head? ≠ some '*' ∧ asset.assetName ≠ [] := by
  obtain ⟨-, -, -, htriple, hext⟩ := resolveTarget_chars h.target_eq
  have hversion : call.version.all isNameChar = true := by
    rw [List.all_eq_true]
    intro c hc
    by_cases hdot : c = '.'
    · rw [hdot]
      decide
    · exact isNameChar_of_isDigit (isDigit_of_mem_version h.semver hc hdot)
  have hmem := h.assetName_mem
  rw [List.mem_cons, List.mem_singleton] at hmem
  have hagent : "lasterm-agent-".toList.all isNameChar = true := by decide
  have htermora : "termora-agent-".toList.all isNameChar = true := by decide
  have hhyphen : "-".toList.all isNameChar = true := by decide
  rcases hmem with hname | hname
  · rw [hname]
    unfold getVersionedAssetName releaseAssetPrefix
    refine ⟨?_, by simp, by simp⟩
    simp only [List.all_append, hagent, htriple, hhyphen, hversion, hext, Bool.and_self]
  · rw [hname]
    unfold getLegacyAssetName
    split
    · refine ⟨?_, by simp, by simp⟩
      simp only [List.all_append, htermora, htriple, hext, Bool.and_self]
    · refine ⟨?_, by simp, by simp⟩
      simp only [List.all_append, htermora, htriple, hhyphen, hversion, hext, Bool.and_self]

theorem assertBasename_eq : assertBasename asset.assetName = .ok () :=
  assertBasename_of_isNameChar h.assetName_chars.2.2 h.assetName_chars.1

theorem resolveCacheBasename_eq :
    resolveCacheBasename asset.tempName asset.assetName = .ok asset.finalName := by
  obtain ⟨rand, hrand⟩ := h.tempName_eq
  have hmem := h.assetName_mem
  rw [List.mem_cons, List.mem_singleton] at hmem
  rw [hrand, h.finalName_eq]
  rcases hmem with hname | hname
  · rw [hname]
    exact resolveCacheBasename_versioned h.target_eq h.valid _
  · rw [hname]
    unfold getLegacyAssetName
    split
    · exact resolveCacheBasename_termora h.target_eq h.valid _ _ _
    · exact resolveCacheBasename_termora h.target_eq h.valid _ _ _

end Opened

/-! ## Verification -/

/-- What the manifest of the version says of an asset. Below 0.4.0 neither the manifest nor the
entry has to be there. -/
def Verified (platform : FetchPlatform) (version assetName : Text) (bytes : List UInt8) :
    Option Text → Prop
  | some manifest =>
    parseChecksumManifest manifest assetName = .ok (some (platform.sha256 bytes).text) ∨
      (parseChecksumManifest manifest assetName = .ok none ∧ versionNumbers version < [0, 4, 0])
  | none => versionNumbers version < [0, 4, 0]

section Placing

variable {target : ResolvedTarget} (h : Opened platform call f asset target) {g : CacheFiles}
  {bytes : List UInt8} (htemp : g asset.tempName = some (.file bytes))
include h htemp

theorem verifyAndPlace_opened (manifest : Text) :
    verifyAndPlace platform.sha256 call.secure g asset.tempName asset.assetName manifest =
      match parseChecksumManifest manifest asset.assetName with
      | .error e => .error e
      | .ok none => .error (.missingEntry asset.assetName)
      | .ok (some digest) =>
        if (platform.sha256 bytes).text = digest then
          (renameSync g asset.tempName asset.finalName).map fun g' ↦ (asset.finalName, g')
        else .error (.mismatch asset.assetName) := by
  rw [h.secure_eq]
  exact verifyAndPlace_eq h.assertBasename_eq htemp h.resolveCacheBasename_eq manifest

theorem placeUnlisted_eq :
    placeUnlisted platform call asset g =
      if versionNumbers call.version < [0, 4, 0] then
        (renameSync g asset.tempName asset.finalName).map fun g' ↦ (asset.finalName, g')
      else .error (.missingChecksum call.version asset.assetName) := by
  obtain ⟨hchars, hstar, hne⟩ := h.assetName_chars
  rw [placeUnlisted, handleMissingChecksum]
  by_cases hlegacy : isLegacyVersion call.version
  · rw [if_pos hlegacy, if_pos ((isLegacyVersion_iff h.semver).mp hlegacy), checksumManifestForTemp,
      htemp]
    change verifyAndPlace _ _ _ _ _ _ = _
    rw [verifyAndPlace_opened h htemp, parseChecksumManifest_manifestLine hne hstar hchars]
    simp only [if_pos]
  · rw [if_neg hlegacy, if_neg fun hlow ↦ hlegacy ((isLegacyVersion_iff h.semver).mpr hlow)]
    rfl

end Placing

/-- What `verifyChecksumAndPlace` can do with a file that was downloaded. -/
inductive Verification (platform : FetchPlatform) (call : FetchCall) (asset : AssetResponse)
    (g : CacheFiles) (bytes : List UInt8) : FetchOutcome Text → Prop
  | failed (e : FetchFailure)
      (hfailed : ∀ manifest, getChecksumManifest platform call asset.baseUrl g = .ok manifest →
        Verified platform call.version asset.assetName bytes (manifest.map ManifestSource.text) →
        g asset.finalName = some .directory) :
      Verification platform call asset g bytes (.error e, g)
  | placed (manifest : Option ManifestSource) (g' : CacheFiles)
      (hmanifest : getChecksumManifest platform call asset.baseUrl g = .ok manifest)
      (hverified : Verified platform call.version asset.assetName bytes
        (manifest.map ManifestSource.text))
      (hold : ∀ text, manifest = some ⟨text, false⟩ →
        parseChecksumManifest text asset.assetName = .ok none)
      (hrename : renameSync g asset.tempName asset.finalName = .ok g') :
      Verification platform call asset g bytes (.ok asset.finalName, g')
  | cached (text : Text) (g' : CacheFiles)
      (hmanifest : getChecksumManifest platform call asset.baseUrl g = .ok (some ⟨text, false⟩))
      (hlisted : parseChecksumManifest text asset.assetName =
        .ok (some (platform.sha256 bytes).text))
      (hrename : renameSync g asset.tempName asset.finalName = .ok g') :
      Verification platform call asset g bytes
        ((writeManifestCache platform call text g').1.map fun _ ↦ asset.finalName,
          (writeManifestCache platform call text g').2)

theorem renameSync_error {g : CacheFiles} {source dest : Text}
    (h : renameSync g source dest = .error e) :
    g dest = some .directory ∧ e = .errno "EISDIR" := by
  unfold renameSync at h
  split at h
  · cases h
    exact ⟨by assumption, rfl⟩
  · cases h

theorem parseManifestLine_error {expectedBasename line : Text} {state : List Text × Option Text}
    (h : parseManifestLine expectedBasename state line = .error e) :
    e.code = some .checksumMismatch := by
  unfold parseManifestLine at h
  dsimp only at h
  split at h
  · cases h
  · split at h
    · cases h
      rfl
    · split at h
      · cases h
        rfl
      · split at h
        · cases h
          rfl
        · cases h

/-- A manifest that cannot be read is no missing one. -/
theorem parseChecksumManifest_error {manifest expectedBasename : Text}
    (h : parseChecksumManifest manifest expectedBasename = .error e) :
    e.code = some .checksumMismatch := by
  have hfold : ∀ (lines : List Text) (state : List Text × Option Text),
      lines.foldlM (parseManifestLine expectedBasename) state = .error e →
        e.code = some .checksumMismatch := by
    intro lines
    induction lines with
    | nil =>
      intro state hstate
      cases hstate
    | cons line lines ih =>
      intro state hstate
      rw [List.foldlM_cons] at hstate
      rcases hline : parseManifestLine expectedBasename state line with e' | state'
      · rw [hline] at hstate
        cases hstate
        exact parseManifestLine_error hline
      · rw [hline] at hstate
        exact ih state' hstate
  rw [parseChecksumManifest] at h
  rcases hlines : (manifest.splitOn '\n').foldlM (parseManifestLine expectedBasename) ([], none)
    with e' | state
  · rw [hlines] at h
    cases h
    exact hfold _ _ hlines
  · rw [hlines] at h
    cases h

section Placing

variable {target : ResolvedTarget} (h : Opened platform call f asset target) {g : CacheFiles}
  {bytes : List UInt8} (htemp : g asset.tempName = some (.file bytes))
include h htemp

/-- A file that no manifest lists. -/
theorem placeUnlisted_cases {manifest : Option ManifestSource}
    (hmanifest : getChecksumManifest platform call asset.baseUrl g = .ok manifest)
    (hmissing : ∀ m, manifest = some m → parseChecksumManifest m.text asset.assetName = .ok none) :
    Verification platform call asset g bytes (placed g (placeUnlisted platform call asset g)) := by
  have hverified : Verified platform call.version asset.assetName bytes
      (manifest.map ManifestSource.text) ↔ versionNumbers call.version < [0, 4, 0] := by
    rcases manifest with _ | m
    · exact Iff.rfl
    · simp [Verified, hmissing m rfl]
  rw [placeUnlisted_eq h htemp]
  split
  · rename_i hlow
    rcases hrename : renameSync g asset.tempName asset.finalName with e | g'
    · exact .failed e fun _ _ _ ↦ (renameSync_error hrename).1
    · exact .placed manifest g' hmanifest (hverified.mpr hlow)
        (fun text htext ↦ hmissing _ htext) hrename
  · rename_i hlow
    refine .failed _ fun m hm hv ↦ ?_
    cases hmanifest.symm.trans hm
    exact absurd (hverified.mp hv) hlow

theorem verifyChecksumAndPlace_cases :
    Verification platform call asset g bytes (verifyChecksumAndPlace platform call asset g) := by
  unfold verifyChecksumAndPlace
  rcases hmanifest : getChecksumManifest platform call asset.baseUrl g with e | _ | manifest
  · exact .failed e fun m hm ↦ by rw [hmanifest] at hm; cases hm
  · exact placeUnlisted_cases h htemp hmanifest nofun
  · change Verification platform call asset g bytes (placeListed platform call asset manifest g)
    rw [placeListed, verifyAndPlace_opened h htemp]
    rcases hparse : parseChecksumManifest manifest.text asset.assetName with e | _ | digest
    · have hcode : ¬ e.code = some .checksumMissing := by
        rw [parseChecksumManifest_error hparse]
        decide
      have hunverified : ∀ m, getChecksumManifest platform call asset.baseUrl g = .ok m →
          Verified platform call.version asset.assetName bytes (m.map ManifestSource.text) →
          g asset.finalName = some .directory := by
        intro m hm hv
        cases hmanifest.symm.trans hm
        simp [Verified, hparse] at hv
      simp only [if_neg hcode]
      split
      · exact .failed _ hunverified
      · exact .failed _ hunverified
    · simp only [FetchFailure.code, if_pos]
      refine placeUnlisted_cases h htemp hmanifest fun m hm ↦ ?_
      cases hm
      exact hparse
    · by_cases hdigest : (platform.sha256 bytes).text = digest
      · simp only [if_pos hdigest]
        rcases hrename : renameSync g asset.tempName asset.finalName with e | g'
        · obtain ⟨hdirectory, rfl⟩ := renameSync_error hrename
          exact .failed _ fun _ _ _ ↦ hdirectory
        · have hlisted : parseChecksumManifest manifest.text asset.assetName =
              .ok (some (platform.sha256 bytes).text) := hdigest ▸ hparse
          obtain ⟨text, fromCache⟩ := manifest
          rcases fromCache with _ | _
          · have hcached := Verification.cached text g' hmanifest hlisted hrename
            rcases hwrite : writeManifestCache platform call text g' with ⟨e | _, g''⟩
            · rw [hwrite] at hcached
              simpa only [Except.map, Bool.false_eq_true, if_false, hwrite] using hcached
            · rw [hwrite] at hcached
              simpa only [Except.map, Bool.false_eq_true, if_false, hwrite] using hcached
          · exact .placed _ g' hmanifest (.inl hlisted) nofun hrename
      · simp only [if_neg hdigest, FetchFailure.code]
        refine .failed _ fun m hm hv ↦ ?_
        cases hmanifest.symm.trans hm
        rcases hv with hv | ⟨hv, -⟩
        · cases hparse.symm.trans hv
          exact absurd rfl hdigest
        · cases hparse.symm.trans hv

end Placing

/-! ## What a call leaves alone -/

theorem renameSync_ok {g g' : CacheFiles} {source dest : Text}
    (h : renameSync g source dest = .ok g') :
    g dest ≠ some .directory ∧
      g' = Function.update (Function.update g dest (g source)) source none := by
  unfold renameSync at h
  split at h
  · cases h
  · rename_i hdirectory
    cases h
    exact ⟨hdirectory, rfl⟩

theorem isTempName_manifestTempName : isTempName (manifestTempName platform call) = true :=
  isTempName_tempSuffix _ _ _

/-- The manifest is written, or the name of its temporary file is taken, or a directory is in the
way. -/
theorem writeManifestCache_cases (platform : FetchPlatform) (call : FetchCall) (text : Text)
    (g : CacheFiles) :
    (writeManifestCache platform call text g = (.ok (),
        Function.update (Function.update g (getChecksumManifestName call.version)
          (some (.file (platform.encodeUtf8 text)))) (manifestTempName platform call) none) ∧
      g (manifestTempName platform call) = none ∧
      g (getChecksumManifestName call.version) ≠ some .directory) ∨
    (writeManifestCache platform call text g =
        (.ok (), Function.update g (manifestTempName platform call) none) ∧
      g (manifestTempName platform call) ≠ none ∧
      g (manifestTempName platform call) ≠ some .directory) ∨
    (∃ e, writeManifestCache platform call text g = (.error e, g) ∧
      (g (manifestTempName platform call) = some .directory ∨
        g (manifestTempName platform call) = none ∧
          g (getChecksumManifestName call.version) = some .directory)) := by
  have hne : getChecksumManifestName call.version ≠ manifestTempName platform call := by
    intro heq
    have htemp := isTempName_getChecksumManifestName call.version
    rw [heq, isTempName_manifestTempName] at htemp
    cases htemp
  unfold writeManifestCache removeFileIfPresent renameSync writeFile
  dsimp only
  by_cases htaken : g (manifestTempName platform call) = none
  · rw [if_neg (not_not.mpr htaken)]
    by_cases hdirectory : g (getChecksumManifestName call.version) = some .directory
    · rw [if_pos (by rw [Function.update_of_ne hne]; exact hdirectory)]
      exact .inr (.inr ⟨_, rfl, .inr ⟨htaken, hdirectory⟩⟩)
    · rw [if_neg (by rw [Function.update_of_ne hne]; exact hdirectory), Function.update_self]
      refine .inl ⟨?_, htaken, hdirectory⟩
      rw [Function.update_comm hne, Function.update_idem, Function.update_comm hne]
  · rw [if_pos htaken]
    by_cases hdirectory : g (manifestTempName platform call) = some .directory
    · rw [if_pos hdirectory]
      exact .inr (.inr ⟨_, rfl, .inl hdirectory⟩)
    · rw [if_neg hdirectory]
      exact .inr (.inl ⟨rfl, htaken, hdirectory⟩)

/-- What is no temporary file, and no manifest, stays as it is. -/
def KeepsOthers (f f' : CacheFiles) (names : List Text) : Prop :=
  ∀ name, isTempName name = false → name ∉ names → f' name = f name

/-- A temporary file stays as it is, or it is removed. -/
def KeepsTemps (f f' : CacheFiles) : Prop :=
  ∀ name, isTempName name = true → f' name = f name ∨ f' name = none

theorem KeepsOthers.trans {f₁ f₂ f₃ : CacheFiles} {names : List Text}
    (h : KeepsOthers f₁ f₂ names) (h' : KeepsOthers f₂ f₃ names) : KeepsOthers f₁ f₃ names :=
  fun name htemp hmem ↦ (h' name htemp hmem).trans (h name htemp hmem)

theorem KeepsTemps.trans {f₁ f₂ f₃ : CacheFiles} (h : KeepsTemps f₁ f₂) (h' : KeepsTemps f₂ f₃) :
    KeepsTemps f₁ f₃ := by
  intro name htemp
  rcases h' name htemp with heq | hnone
  · rw [heq]
    exact h name htemp
  · exact .inr hnone

theorem keepsOthers_update {name : Text} {names : List Text}
    (hname : isTempName name = true ∨ name ∈ names) (f : CacheFiles) (entry : Option CacheEntry) :
    KeepsOthers f (Function.update f name entry) names := by
  intro other htemp hmem
  refine Function.update_of_ne ?_ _ _
  rintro rfl
  rcases hname with hname | hname
  · rw [htemp] at hname
    cases hname
  · exact hmem hname

theorem keepsTemps_remove (name : Text) (f : CacheFiles) :
    KeepsTemps f (Function.update f name none) := by
  intro other _
  by_cases hother : other = name
  · subst hother
    exact .inr (Function.update_self _ _ _)
  · exact .inl (Function.update_of_ne hother _ _)

theorem keepsTemps_update {name : Text} (hname : isTempName name = false) (f : CacheFiles)
    (entry : Option CacheEntry) : KeepsTemps f (Function.update f name entry) := by
  intro other htemp
  refine .inl (Function.update_of_ne ?_ _ _)
  rintro rfl
  rw [hname] at htemp
  cases htemp

theorem writeManifestCache_keeps (platform : FetchPlatform) (call : FetchCall) (text : Text)
    (g : CacheFiles) :
    KeepsOthers g (writeManifestCache platform call text g).2
        [getChecksumManifestName call.version] ∧
      KeepsTemps g (writeManifestCache platform call text g).2 := by
  have htemp : isTempName (manifestTempName platform call) = true := isTempName_manifestTempName
  have hmanifest := isTempName_getChecksumManifestName call.version
  rcases writeManifestCache_cases platform call text g with
    ⟨heq, -⟩ | ⟨heq, -⟩ | ⟨e, heq, -⟩
  · rw [heq]
    exact ⟨(keepsOthers_update (.inr List.mem_cons_self) _ _).trans
        (keepsOthers_update (.inl htemp) _ _),
      (keepsTemps_update hmanifest _ _).trans (keepsTemps_remove _ _)⟩
  · rw [heq]
    exact ⟨keepsOthers_update (.inl htemp) _ _, keepsTemps_remove _ _⟩
  · rw [heq]
    exact ⟨fun _ _ _ ↦ rfl, fun _ _ ↦ .inl rfl⟩

/-! ## The download -/

/-- A complete response of status 200, without a coding of its content, and not too large. -/
def Delivers (url : Text) (bytes : List UInt8) : Prop :=
  ∃ response body, server url = some response ∧ response.status = 200 ∧
    response.contentRange = false ∧
    (∀ encoding, response.contentEncoding = some encoding →
      encoding = [] ∨ encoding.map Char.toLower = "identity".toList) ∧
    response.body = some body ∧ body.done = true ∧ body.chunks.flatten = bytes ∧
    bytes.length ≤ AGENT_FETCH_MAX_BYTES

/-- What `writeResponseToTemp` can do. -/
theorem writeResponseToTemp_cases (h : Opened platform call f asset target) :
    (∃ e g, writeResponseToTemp f asset.response asset.assetUrl asset.tempName = (.error e, g) ∧
      (g = f ∨ ∃ bytes, g = writeFile f asset.tempName bytes)) ∨
    ∃ bytes, writeResponseToTemp f asset.response asset.assetUrl asset.tempName =
        (.ok (), writeFile f asset.tempName bytes) ∧
      Delivers call.server asset.assetUrl bytes := by
  unfold writeResponseToTemp
  split
  · exact .inl ⟨_, _, rfl, .inl rfl⟩
  · exact .inl ⟨_, _, rfl, .inl rfl⟩
  · rename_i body hidentity hbody
    split
    · exact .inl ⟨_, _, rfl, .inl rfl⟩
    · rcases hread :
          (readChunks AGENT_FETCH_MAX_BYTES asset.assetUrl body.done body.chunks []).2 with e | _
      · exact .inl ⟨e, _, rfl, .inr ⟨_, rfl⟩⟩
      · obtain ⟨hdone, hbytes, hsize⟩ := readChunks_ok (Nat.zero_le _) hread
        rw [List.nil_append] at hbytes hsize
        rw [hbytes]
        refine .inr ⟨_, rfl, asset.response, body, h.server_eq, h.status_eq, h.contentRange_eq,
          fun encoding hencoding ↦ ?_, hbody, hdone, rfl, hsize⟩
        unfold Response.assertIdentity at hidentity
        rw [hencoding] at hidentity
        dsimp only at hidentity
        split at hidentity
        · cases hidentity
        · rename_i hcoding
          rwa [not_and_or, not_not, not_not] at hcoding

theorem abandonFetch_eq {g : CacheFiles} (h : g asset.tempName ≠ some .directory) :
    ∃ e', abandonFetch asset e g = (.error e', Function.update g asset.tempName none) := by
  refine ⟨if e.code = none then .networkError asset.assetUrl else e, ?_⟩
  rw [abandonFetch, removeFileIfPresent, if_neg h]

/-- The binary of a target and a version was replaced by a verified download. -/
def Installs (platform : FetchPlatform) (call : FetchCall) (f f' : CacheFiles) : Prop :=
  ∃ target baseUrl assetName bytes manifest,
    resolveTarget call.os call.arch = some target ∧ call.baseUrl = some baseUrl ∧
    assetName ∈ [getVersionedAssetName target.triple call.version target.ext,
      getLegacyAssetName target.triple call.version target.ext] ∧
    Delivers call.server (buildReleaseAssetUrl baseUrl call.version assetName) bytes ∧
    getChecksumManifest platform call baseUrl f = .ok manifest ∧
    Verified platform call.version assetName bytes (manifest.map ManifestSource.text) ∧
    f' (getCacheFileName call.os call.arch call.version target.ext) = some (.file bytes) ∧
    ∀ name, isTempName name = false → isManifestName name = false →
      name ≠ getCacheFileName call.os call.arch call.version target.ext → f' name = f name

/-! ## The main result -/

section Outcome

variable {target : ResolvedTarget} (h : Opened platform call f asset target) {bytes : List UInt8}
include h

theorem temp_ne_directory {g : CacheFiles}
    (hg : g = f ∨ ∃ bytes, g = writeFile f asset.tempName bytes) :
    g asset.tempName ≠ some .directory := by
  rcases hg with rfl | ⟨bytes, rfl⟩
  · intro hdirectory
    have hfree := h.temp_free
    rw [existsSync, hdirectory] at hfree
    cases hfree
  · rw [writeFile, Function.update_self]
    nofun

/-- A call that fails before a binary is placed. -/
theorem abandonFetch_keeps {e : FetchFailure} {g : CacheFiles}
    (hg : g = f ∨ ∃ bytes, g = writeFile f asset.tempName bytes) :
    (∃ e', (abandonFetch asset e g).1 = .error e') ∧
      KeepsOthers f (abandonFetch asset e g).2 [] ∧ KeepsTemps f (abandonFetch asset e g).2 := by
  obtain ⟨e', heq⟩ := abandonFetch_eq (e := e) (temp_ne_directory h hg)
  rw [heq]
  refine ⟨⟨e', rfl⟩, ?_⟩
  rcases hg with rfl | ⟨bytes, rfl⟩
  · exact ⟨keepsOthers_update (.inl h.isTempName_temp) _ _, keepsTemps_remove _ _⟩
  · rw [writeFile, Function.update_idem]
    exact ⟨keepsOthers_update (.inl h.isTempName_temp) _ _, keepsTemps_remove _ _⟩

theorem final_ne_manifest : asset.finalName ≠ getChecksumManifestName call.version := by
  intro heq
  have hmanifest := h.isManifestName_final
  rw [heq, isManifestName_getChecksumManifestName] at hmanifest
  cases hmanifest

theorem final_ne_temp : asset.finalName ≠ asset.tempName := by
  intro heq
  have htemp := h.isTempName_final
  rw [heq, h.isTempName_temp] at htemp
  cases htemp

theorem getChecksumManifest_writeFile :
    getChecksumManifest platform call asset.baseUrl (writeFile f asset.tempName bytes) =
      getChecksumManifest platform call asset.baseUrl f := by
  have hne : getChecksumManifestName call.version ≠ asset.tempName := by
    intro heq
    have htemp := isTempName_getChecksumManifestName call.version
    rw [heq, h.isTempName_temp] at htemp
    cases htemp
  rw [getChecksumManifest, getChecksumManifest, readCachedManifest, readCachedManifest, writeFile,
    Function.update_of_ne hne]

/-- The directory once the binary has got its place. -/
structure Placed (call : FetchCall) (asset : AssetResponse) (bytes : List UInt8)
    (f f' : CacheFiles) : Prop where
  final_eq : f' asset.finalName = some (.file bytes)
  temp_eq : f' asset.tempName = none
  others : KeepsOthers f f' [asset.finalName, getChecksumManifestName call.version]
  temps : KeepsTemps f f'

theorem placed_renameSync {g' : CacheFiles}
    (hrename : renameSync (writeFile f asset.tempName bytes) asset.tempName asset.finalName =
      .ok g') :
    Placed call asset bytes f g' := by
  obtain ⟨-, rfl⟩ := renameSync_ok hrename
  have htemp := h.isTempName_temp
  rw [writeFile, Function.update_self]
  refine ⟨?_, Function.update_self _ _ _, ?_, ?_⟩
  · rw [Function.update_of_ne (final_ne_temp h), Function.update_self]
  · refine KeepsOthers.trans ?_ (keepsOthers_update (.inl htemp) _ _)
    exact (keepsOthers_update (.inl htemp) _ _).trans
      (keepsOthers_update (.inr List.mem_cons_self) _ _)
  · rw [Function.update_comm (final_ne_temp h), Function.update_idem,
      Function.update_comm (final_ne_temp h).symm]
    exact (keepsTemps_update h.isTempName_final _ _).trans (keepsTemps_remove _ _)

/-- What is written of the manifest leaves the binary in its place. -/
theorem Placed.writeManifestCache {g' : CacheFiles} (hplaced : Placed call asset bytes f g')
    (text : Text) : Placed call asset bytes f (writeManifestCache platform call text g').2 := by
  obtain ⟨hothers, htemps⟩ :=
    writeManifestCache_keeps platform call text g'
  refine ⟨?_, ?_, ?_, hplaced.temps.trans htemps⟩
  · rw [hothers _ h.isTempName_final (by simpa using final_ne_manifest h)]
    exact hplaced.final_eq
  · rcases htemps _ h.isTempName_temp with heq | hnone
    · rw [heq]
      exact hplaced.temp_eq
    · exact hnone
  · intro name htemp hmem
    rw [List.mem_cons, not_or] at hmem
    rw [hothers name htemp hmem.2]
    exact hplaced.others name htemp (by simpa using hmem)

omit h in
theorem Placed.abandonFetch {e : FetchFailure} {g : CacheFiles}
    (hplaced : Placed call asset bytes f g) :
    (abandonFetch asset e g).2 = g ∧ ∃ e', (abandonFetch asset e g).1 = .error e' := by
  obtain ⟨e', heq⟩ := @abandonFetch_eq asset e g (by rw [hplaced.temp_eq]; nofun)
  rw [heq]
  exact ⟨by rw [← hplaced.temp_eq, Function.update_eq_self], e', rfl⟩

/-- What `downloadAndPlace` can do. -/
theorem downloadAndPlace_cases :
    ((∃ e, (downloadAndPlace platform call asset f).1 = .error e) ∧
      KeepsOthers f (downloadAndPlace platform call asset f).2 [] ∧
      KeepsTemps f (downloadAndPlace platform call asset f).2) ∨
    ∃ bytes manifest, Delivers call.server asset.assetUrl bytes ∧
      getChecksumManifest platform call asset.baseUrl f = .ok manifest ∧
      Verified platform call.version asset.assetName bytes (manifest.map ManifestSource.text) ∧
      Placed call asset bytes f (downloadAndPlace platform call asset f).2 := by
  rcases writeResponseToTemp_cases h with ⟨e, g, hwrite, hg⟩ | ⟨bytes, hwrite, hdelivers⟩
  · rw [downloadAndPlace, hwrite]
    exact .inl (abandonFetch_keeps h hg)
  · have htemp : writeFile f asset.tempName bytes asset.tempName = some (.file bytes) :=
      Function.update_self _ _ _
    have hcases := verifyChecksumAndPlace_cases h htemp
    rw [downloadAndPlace, hwrite]
    dsimp only
    generalize verifyChecksumAndPlace platform call asset (writeFile f asset.tempName bytes) = r
      at hcases ⊢
    cases hcases with
    | failed e _ => exact .inl (abandonFetch_keeps h (.inr ⟨bytes, rfl⟩))
    | placed manifest g' hmanifest hverified _ hrename =>
      rw [getChecksumManifest_writeFile h] at hmanifest
      exact .inr ⟨bytes, manifest, hdelivers, hmanifest, hverified, placed_renameSync h hrename⟩
    | cached text g' hmanifest hlisted hrename =>
      rw [getChecksumManifest_writeFile h] at hmanifest
      refine .inr ⟨bytes, _, hdelivers, hmanifest, .inl hlisted, ?_⟩
      have hplaced := Placed.writeManifestCache h (placed_renameSync h hrename) text
      rcases hcache : writeManifestCache platform call text g' with ⟨e | _, g''⟩
      · rw [hcache] at hplaced
        change Placed call asset bytes f (Hub.abandonFetch asset e g'').2
        rw [hplaced.abandonFetch.1]
        exact hplaced
      · rw [hcache] at hplaced
        exact hplaced

end Outcome

/-- **A binary is installed only if it was verified.** Either a call fails, and every binary and
every manifest is as it was, or the binary of its target and its version was replaced, and no other
one, by a complete download that the manifest of the version lists. No temporary file is left
behind. -/
theorem fetchAgentBinary_verified (platform : FetchPlatform) (call : FetchCall) (f : CacheFiles) :
    ((∃ e, (fetchAgentBinary platform call f).1 = .error e) ∧
        KeepsOthers f (fetchAgentBinary platform call f).2 [] ∨
      Installs platform call f (fetchAgentBinary platform call f).2) ∧
    KeepsTemps f (fetchAgentBinary platform call f).2 := by
  unfold fetchAgentBinary
  rcases hopen : openRelease platform call f with e | asset
  · exact ⟨.inl ⟨⟨e, rfl⟩, fun _ _ _ ↦ rfl⟩, fun _ _ ↦ .inl rfl⟩
  · obtain ⟨target, h⟩ := openRelease_ok hopen
    dsimp only
    rcases downloadAndPlace_cases h with
      ⟨herror, hothers, htemps⟩ | ⟨bytes, manifest, hdelivers, hmanifest, hverified, hplaced⟩
    · exact ⟨.inl ⟨herror, hothers⟩, htemps⟩
    · refine ⟨.inr ⟨target, asset.baseUrl, asset.assetName, bytes, manifest, h.target_eq,
        h.baseUrl_eq, h.assetName_mem, h.assetUrl_eq ▸ hdelivers, hmanifest, hverified, ?_, ?_⟩,
        hplaced.temps⟩
      · rw [← h.finalName_eq]
        exact hplaced.final_eq
      · intro name htemp hname hne
        refine hplaced.others name htemp ?_
        rw [List.mem_cons, List.mem_singleton, not_or, h.finalName_eq]
        refine ⟨hne, ?_⟩
        rintro rfl
        rw [isManifestName_getChecksumManifestName] at hname
        cases hname

end Lasterm.Hub
