import Lasterm.Hub.AgentFetch
import Lasterm.Library.Runs

/-!
# The manifests in the cache

A manifest that has verified a binary is cached, and from then on it is read for all binaries of its
version. `writeManifestCache` comes after the verification so that a manifest which is published too
early is not kept; what verifies one binary may still lack the entry of another.

`downloadAndPlace_isOk_iff` says when a call succeeds. Two calls that differ in the cached manifests
only are compared by it, and `manifestCache_transparent_iff` carries the comparison over a history
of calls.
-/

namespace Lasterm.Hub

open Shell

variable {platform : FetchPlatform} {call : FetchCall} {f f' : CacheFiles} {asset : AssetResponse}
  {target : ResolvedTarget} {bytes : List UInt8}

/-! ## When a call succeeds -/

/-- The manifest can be cached, if it was fetched and lists the asset. -/
def Cacheable (platform : FetchPlatform) (call : FetchCall) (assetName : Text) (f : CacheFiles)
    (manifest : Option ManifestSource) : Prop :=
  ∀ text, manifest = some ⟨text, false⟩ → parseChecksumManifest text assetName ≠ .ok none →
    f (manifestTempName platform call) ≠ some .directory ∧
      (f (manifestTempName platform call) = none →
        f (getChecksumManifestName call.version) ≠ some .directory)

/-- The response is read to its end. -/
def Received (response : Response) (url : Text) (bytes : List UInt8) : Prop :=
  response.assertIdentity = .ok () ∧ ∃ body, response.body = some body ∧
    readChunks AGENT_FETCH_MAX_BYTES url body.done body.chunks [] = (bytes, .ok ())

theorem Received.unique {response : Response} {url : Text} {bytes bytes' : List UInt8}
    (h : Received response url bytes) (h' : Received response url bytes') : bytes' = bytes := by
  obtain ⟨-, body, hbody, hread⟩ := h
  obtain ⟨-, body', hbody', hread'⟩ := h'
  cases hbody.symm.trans hbody'
  exact (Prod.ext_iff.mp (hread'.symm.trans hread)).1

theorem writeResponseToTemp_ok_iff {response : Response} {url tempName : Text} :
    writeResponseToTemp f response url tempName = (.ok (), writeFile f tempName bytes) ↔
      f tempName = none ∧ Received response url bytes := by
  unfold writeResponseToTemp Received
  rcases response.assertIdentity with e | _
  · constructor
    · intro h
      cases congrArg Prod.fst h
    · rintro ⟨-, h, -⟩
      cases h
  · rcases response.body with _ | body
    · constructor
      · intro h
        cases congrArg Prod.fst h
      · rintro ⟨-, -, body, h, -⟩
        cases h
    · by_cases hfree : f tempName = none
      · dsimp only
        rw [if_neg (not_not.mpr hfree)]
        constructor
        · intro h
          have hentry : writeFile f tempName
              (readChunks AGENT_FETCH_MAX_BYTES url body.done body.chunks []).1 tempName =
                writeFile f tempName bytes tempName := congrFun (congrArg Prod.snd h) tempName
          rw [writeFile, writeFile, Function.update_self, Function.update_self, Option.some.injEq,
            CacheEntry.file.injEq] at hentry
          exact ⟨hfree, rfl, body, rfl, Prod.ext hentry (congrArg Prod.fst h)⟩
        · rintro ⟨-, -, body', hbody, hread⟩
          cases hbody
          rw [hread]
      · dsimp only
        rw [if_pos hfree]
        constructor
        · intro h
          cases congrArg Prod.fst h
        · rintro ⟨hnone, -⟩
          exact absurd hnone hfree

theorem isOk_abandonFetch (e : FetchFailure) (f : CacheFiles) :
    (abandonFetch asset e f).1.isOk = false := by
  unfold abandonFetch
  split
  · rfl
  · rfl

theorem isOk_catchFetch (r : FetchOutcome Text) : (catchFetch asset r).1.isOk = r.1.isOk := by
  obtain ⟨e | finalName, f⟩ := r
  · exact isOk_abandonFetch e f
  · rfl

theorem isOk_map {ε α β : Type} (g : α → β) (x : Except ε α) : (x.map g).isOk = x.isOk := by
  cases x <;> rfl

theorem writeManifestCache_isOk_iff (platform : FetchPlatform) (call : FetchCall) (text : Text)
    (f : CacheFiles) :
    (writeManifestCache platform call text f).1.isOk = true ↔
      f (manifestTempName platform call) ≠ some .directory ∧
        (f (manifestTempName platform call) = none →
          f (getChecksumManifestName call.version) ≠ some .directory) := by
  rcases writeManifestCache_cases platform call text f with
    ⟨heq, hfree, hdirectory⟩ | ⟨heq, htaken, hdirectory⟩ | ⟨e, heq, hway⟩
  · rw [heq, hfree]
    simpa [Except.isOk, Except.toBool] using hdirectory
  · rw [heq]
    exact ⟨fun _ ↦ ⟨hdirectory, fun hnone ↦ absurd hnone htaken⟩, fun _ ↦ rfl⟩
  · rw [heq]
    constructor
    · intro hok
      cases hok
    · rintro ⟨hdirectory, hmanifest⟩
      rcases hway with hway | ⟨hnone, hway⟩
      · exact absurd hway hdirectory
      · exact absurd hway (hmanifest hnone)

theorem isManifestName_manifestTempName :
    isManifestName (manifestTempName platform call) = true := by
  unfold manifestTempName getChecksumManifestName
  rw [List.append_assoc]
  exact List.isPrefixOf_iff_prefix.mpr (List.prefix_append _ _)

section

variable (h : Opened platform call f asset target)
include h

theorem Opened.isManifestName_temp :
    isManifestName asset.tempName = false := by
  obtain ⟨rand, hrand⟩ := h.tempName_eq
  rw [hrand, h.finalName_eq, getCacheFileName_eq, List.append_assoc]
  rfl

/-- The names under which the manifest is cached are not touched before. -/
theorem placed_manifest_eq {g : CacheFiles} {name : Text}
    (hrename : renameSync (writeFile f asset.tempName bytes) asset.tempName asset.finalName = .ok g)
    (hname : isManifestName name = true) : g name = f name := by
  have htemp : name ≠ asset.tempName := by
    rintro rfl
    rw [h.isManifestName_temp] at hname
    cases hname
  have hfinal : name ≠ asset.finalName := by
    rintro rfl
    rw [h.isManifestName_final] at hname
    cases hname
  rw [(renameSync_ok hrename).2, Function.update_of_ne htemp, Function.update_of_ne hfinal,
    writeFile, Function.update_of_ne htemp]

theorem writeFile_final :
    writeFile f asset.tempName bytes asset.finalName = f asset.finalName :=
  Function.update_of_ne (final_ne_temp h) _ _

/-- **When a download succeeds.** -/
theorem downloadAndPlace_isOk_iff : (downloadAndPlace platform call asset f).1.isOk = true ↔
      ∃ bytes manifest, f asset.tempName = none ∧ Received asset.response asset.assetUrl bytes ∧
        getChecksumManifest platform call asset.baseUrl f = .ok manifest ∧
        Verified platform call.version asset.assetName bytes (manifest.map ManifestSource.text) ∧
        f asset.finalName ≠ some .directory ∧
        Cacheable platform call asset.assetName f manifest := by
  rcases writeResponseToTemp_cases h with ⟨e, g, hwrite, hg⟩ | ⟨bytes, hwrite, -⟩
  · rw [downloadAndPlace, hwrite]
    dsimp only
    rw [isOk_abandonFetch]
    refine iff_of_false Bool.false_ne_true ?_
    rintro ⟨bytes, manifest, hfree, hreceived, -⟩
    have hok := writeResponseToTemp_ok_iff.mpr ⟨hfree, hreceived⟩
    cases congrArg Prod.fst (hwrite.symm.trans hok)
  · have htemp : writeFile f asset.tempName bytes asset.tempName = some (.file bytes) :=
      Function.update_self _ _ _
    have hcases := verifyChecksumAndPlace_cases h htemp
    obtain ⟨hfree, hreceived⟩ := writeResponseToTemp_ok_iff.mp hwrite
    rw [downloadAndPlace, hwrite]
    dsimp only
    generalize verifyChecksumAndPlace platform call asset (writeFile f asset.tempName bytes) = r
      at hcases ⊢
    cases hcases with
    | failed e hfailed =>
      rw [isOk_catchFetch]
      refine iff_of_false Bool.false_ne_true ?_
      rintro ⟨bytes', manifest, -, hreceived', hmanifest, hverified, hdirectory, -⟩
      rw [hreceived.unique hreceived'] at hverified
      have hfinal := hfailed manifest (getChecksumManifest_writeFile h ▸ hmanifest) hverified
      rw [writeFile_final h] at hfinal
      exact absurd hfinal hdirectory
    | placed manifest g hmanifest hverified hold hrename =>
      rw [getChecksumManifest_writeFile h] at hmanifest
      have hdirectory := (renameSync_ok hrename).1
      rw [writeFile_final h] at hdirectory
      exact ⟨fun _ ↦ ⟨bytes, manifest, hfree, hreceived, hmanifest, hverified, hdirectory,
        fun text htext hlisted ↦ absurd (hold text htext) hlisted⟩, fun _ ↦ rfl⟩
    | cached text g hmanifest hlisted hrename =>
      rw [getChecksumManifest_writeFile h] at hmanifest
      have hdirectory := (renameSync_ok hrename).1
      rw [writeFile_final h] at hdirectory
      have hisOk := writeManifestCache_isOk_iff platform call text g
      rw [placed_manifest_eq h hrename isManifestName_manifestTempName,
        placed_manifest_eq h hrename (isManifestName_getChecksumManifestName _)] at hisOk
      rw [isOk_catchFetch, isOk_map, hisOk]
      constructor
      · intro hfree'
        exact ⟨bytes, _, hfree, hreceived, hmanifest, .inl hlisted, hdirectory, fun _ _ _ ↦ hfree'⟩
      · rintro ⟨bytes', manifest, -, -, hmanifest', -, -, hcacheable⟩
        cases hmanifest.symm.trans hmanifest'
        refine hcacheable text rfl fun hnone ↦ ?_
        cases hlisted.symm.trans hnone

end

/-! ## Without the cached manifests -/

def deleteManifests (f : CacheFiles) : CacheFiles := fun name ↦
  match f name with
  | some (.file bytes) =>
    if isManifestName name ∧ ¬ isTempName name then none else some (.file bytes)
  | entry => entry

theorem deleteManifests_temp {name : Text} (h : isTempName name = true) :
    deleteManifests f name = f name := by
  rw [deleteManifests]
  split
  · rename_i hfile
    rw [if_neg (by simp [h]), hfile]
  · rfl

theorem readCachedManifest_deleteManifests (version : Text) :
    readCachedManifest platform (deleteManifests f) (getChecksumManifestName version) = none := by
  rw [readCachedManifest, deleteManifests]
  rcases f (getChecksumManifestName version) with _ | bytes | _ | leads
  · rfl
  · dsimp only
    rw [if_pos ⟨isManifestName_getChecksumManifestName version,
      by simp [isTempName_getChecksumManifestName]⟩]
  · rfl
  · rfl

theorem deleteManifests_directory_iff (name : Text) :
    deleteManifests f name = some .directory ↔ f name = some .directory := by
  rw [deleteManifests]
  rcases f name with _ | bytes | _ | leads
  · exact Iff.rfl
  · dsimp only
    split
    · simp
    · exact Iff.rfl
  · exact Iff.rfl
  · exact Iff.rfl

theorem openRelease_deleteManifests :
    openRelease platform call (deleteManifests f) = openRelease platform call f := by
  have htemp : ∀ finalName, createUniqueTempPath (deleteManifests f) finalName platform.pid
      call.random = createUniqueTempPath f finalName platform.pid call.random := by
    intro finalName
    have hexists : ∀ i, existsSync (deleteManifests f)
        (finalName ++ tempSuffix platform.pid (call.random i)) =
          existsSync f (finalName ++ tempSuffix platform.pid (call.random i)) := by
      intro i
      rw [existsSync, existsSync, deleteManifests_temp (isTempName_tempSuffix _ _ _)]
    rw [createUniqueTempPath, createUniqueTempPath, List.find?_map, List.find?_map]
    simp only [Function.comp_def, hexists]
  simp only [openRelease, htemp]

/-! ## The verdict of a manifest -/

/-- The manifest in the cache and what the server gives at the time of the call say the same of what
the call downloads. -/
def ManifestCurrent (platform : FetchPlatform) (f : CacheFiles) (call : FetchCall) : Prop :=
  ∀ text, readCachedManifest platform f (getChecksumManifestName call.version) = some text →
    ∀ asset bytes, openRelease platform call f = .ok asset → f asset.tempName = none →
      Received asset.response asset.assetUrl bytes → f asset.finalName ≠ some .directory →
      (Verified platform call.version asset.assetName bytes (some text) ↔
        ∃ manifest, fetchManifest platform call.server (buildReleaseAssetUrl asset.baseUrl
            call.version (getChecksumManifestName call.version)) = .ok manifest ∧
          Verified platform call.version asset.assetName bytes manifest ∧
          ∀ text', manifest = some text' → parseChecksumManifest text' asset.assetName ≠ .ok none →
            f (manifestTempName platform call) ≠ some .directory)

/-- Whether the call succeeds is the same as without the cached manifests. -/
def Transparent (platform : FetchPlatform) (f : CacheFiles) (call : FetchCall) : Prop :=
  (fetchAgentBinary platform call f).1.isOk =
    (fetchAgentBinary platform call (deleteManifests f)).1.isOk

theorem getChecksumManifest_deleteManifests (baseUrl : Text) :
    getChecksumManifest platform call baseUrl (deleteManifests f) =
      (fetchManifest platform call.server (buildReleaseAssetUrl baseUrl call.version
        (getChecksumManifestName call.version))).map (Option.map fun text ↦ ⟨text, false⟩) := by
  rw [getChecksumManifest, readCachedManifest_deleteManifests]

/-- Where nothing is read from the cache, it does not count. -/
theorem transparent_of_not_cached
    (h : readCachedManifest platform f (getChecksumManifestName call.version) = none) :
    Transparent platform f call := by
  rw [Transparent, fetchAgentBinary, fetchAgentBinary, openRelease_deleteManifests]
  rcases hopen : openRelease platform call f with e | asset
  · rfl
  · obtain ⟨target, hopened⟩ := openRelease_ok hopen
    obtain ⟨target', hopened'⟩ := openRelease_ok (openRelease_deleteManifests.trans hopen)
    have hmanifest : getChecksumManifest platform call asset.baseUrl (deleteManifests f) =
        getChecksumManifest platform call asset.baseUrl f := by
      rw [getChecksumManifest_deleteManifests, getChecksumManifest, h]
    have hcacheable (manifest : Option ManifestSource) :
        Cacheable platform call asset.assetName (deleteManifests f) manifest ↔
          Cacheable platform call asset.assetName f manifest := by
      simp only [Cacheable, ne_eq, deleteManifests_directory_iff,
        deleteManifests_temp isTempName_manifestTempName]
    rw [Bool.eq_iff_iff]
    dsimp only
    rw [downloadAndPlace_isOk_iff hopened, downloadAndPlace_isOk_iff hopened', hmanifest,
      deleteManifests_temp hopened.isTempName_temp]
    simp only [ne_eq, deleteManifests_directory_iff, hcacheable]

/-- A call that reads its manifest from the cache. -/
theorem fetchAgentBinary_isOk_cached {text : Text}
    (hopen : openRelease platform call f = .ok asset)
    (h : readCachedManifest platform f (getChecksumManifestName call.version) = some text) :
    (fetchAgentBinary platform call f).1.isOk = true ↔
      ∃ bytes, f asset.tempName = none ∧ Received asset.response asset.assetUrl bytes ∧
        f asset.finalName ≠ some .directory ∧
        Verified platform call.version asset.assetName bytes (some text) := by
  obtain ⟨target, hopened⟩ := openRelease_ok hopen
  have hmanifest : getChecksumManifest platform call asset.baseUrl f = .ok (some ⟨text, true⟩) := by
    rw [getChecksumManifest, h]
  rw [fetchAgentBinary, hopen]
  dsimp only
  rw [downloadAndPlace_isOk_iff hopened, hmanifest]
  constructor
  · rintro ⟨bytes, manifest, hfree, hreceived, heq, hverified, hdirectory, -⟩
    cases heq
    exact ⟨bytes, hfree, hreceived, hdirectory, hverified⟩
  · rintro ⟨bytes, hfree, hreceived, hdirectory, hverified⟩
    refine ⟨bytes, _, hfree, hreceived, rfl, hverified, hdirectory, fun text' heq ↦ ?_⟩
    cases heq

/-- The same call without the cached manifests. -/
theorem fetchAgentBinary_isOk_deleteManifests {text : Text}
    (hopen : openRelease platform call f = .ok asset)
    (h : readCachedManifest platform f (getChecksumManifestName call.version) = some text) :
    (fetchAgentBinary platform call (deleteManifests f)).1.isOk = true ↔
      ∃ bytes, f asset.tempName = none ∧ Received asset.response asset.assetUrl bytes ∧
        f asset.finalName ≠ some .directory ∧
        ∃ manifest, fetchManifest platform call.server (buildReleaseAssetUrl asset.baseUrl
            call.version (getChecksumManifestName call.version)) = .ok manifest ∧
          Verified platform call.version asset.assetName bytes manifest ∧
          ∀ text', manifest = some text' → parseChecksumManifest text' asset.assetName ≠ .ok none →
            f (manifestTempName platform call) ≠ some .directory := by
  obtain ⟨target, hopened⟩ := openRelease_ok (openRelease_deleteManifests.trans hopen)
  have hfile : f (getChecksumManifestName call.version) ≠ some .directory := by
    intro hdirectory
    rw [readCachedManifest, hdirectory] at h
    cases h
  rw [fetchAgentBinary, openRelease_deleteManifests, hopen]
  dsimp only
  rw [downloadAndPlace_isOk_iff hopened, getChecksumManifest_deleteManifests,
    deleteManifests_temp hopened.isTempName_temp]
  simp only [Cacheable, ne_eq, deleteManifests_directory_iff,
    deleteManifests_temp isTempName_manifestTempName]
  constructor
  · rintro ⟨bytes, manifest, hfree, hreceived, heq, hverified, hdirectory, hcacheable⟩
    rcases hfetch : fetchManifest platform call.server (buildReleaseAssetUrl asset.baseUrl
      call.version (getChecksumManifestName call.version)) with e | served
    · rw [hfetch] at heq
      cases heq
    · rw [hfetch] at heq
      cases heq
      refine ⟨bytes, hfree, hreceived, hdirectory, served, rfl, ?_, ?_⟩
      · rwa [Option.map_map, Function.comp_def, Option.map_id'] at hverified
      · rintro text' rfl hlisted
        exact (hcacheable text' rfl hlisted).1
  · rintro ⟨bytes, hfree, hreceived, hdirectory, served, hfetch, hverified, htemp⟩
    rw [hfetch]
    refine ⟨bytes, _, hfree, hreceived, rfl, ?_, hdirectory, ?_⟩
    · rwa [Option.map_map, Function.comp_def, Option.map_id']
    · intro text' heq hlisted
      obtain ⟨served', hserved, htext⟩ := Option.map_eq_some_iff.mp heq
      cases htext
      exact ⟨htemp text' hserved hlisted, fun _ ↦ hfile⟩

theorem transparent_iff_current (platform : FetchPlatform) (f : CacheFiles) (call : FetchCall) :
    Transparent platform f call ↔ ManifestCurrent platform f call := by
  rcases hcached : readCachedManifest platform f (getChecksumManifestName call.version) with
    _ | text
  · refine ⟨fun _ text htext ↦ ?_, fun _ ↦ transparent_of_not_cached hcached⟩
    cases hcached.symm.trans htext
  · rw [Transparent, Bool.eq_iff_iff]
    rcases hopen : openRelease platform call f with e | asset
    · refine ⟨fun _ _ _ asset bytes hasset ↦ ?_, fun _ ↦ ?_⟩
      · cases hopen.symm.trans hasset
      · rw [fetchAgentBinary, fetchAgentBinary, openRelease_deleteManifests, hopen]
    · rw [fetchAgentBinary_isOk_cached hopen hcached,
        fetchAgentBinary_isOk_deleteManifests hopen hcached]
      constructor
      · intro hsame text' htext' asset' bytes hopen' hfree hreceived hdirectory
        cases hcached.symm.trans htext'
        cases hopen.symm.trans hopen'
        constructor
        · intro hverified
          obtain ⟨bytes', -, hreceived', -, hserved⟩ :=
            hsame.mp ⟨bytes, hfree, hreceived, hdirectory, hverified⟩
          exact hreceived.unique hreceived' ▸ hserved
        · intro hserved
          obtain ⟨bytes', -, hreceived', -, hverified⟩ :=
            hsame.mpr ⟨bytes, hfree, hreceived, hdirectory, hserved⟩
          exact hreceived.unique hreceived' ▸ hverified
      · intro hcurrent
        constructor
        · rintro ⟨bytes, hfree, hreceived, hdirectory, hverified⟩
          exact ⟨bytes, hfree, hreceived, hdirectory,
            (hcurrent text hcached asset bytes hopen hfree hreceived hdirectory).mp hverified⟩
        · rintro ⟨bytes, hfree, hreceived, hdirectory, hserved⟩
          exact ⟨bytes, hfree, hreceived, hdirectory,
            (hcurrent text hcached asset bytes hopen hfree hreceived hdirectory).mpr hserved⟩

/-- A history of calls, each with the server as it is then. -/
def fetchStep (platform : FetchPlatform) (f : CacheFiles) (call : FetchCall) : Option CacheFiles :=
  some (fetchAgentBinary platform call f).2

/-- **The cached manifests do not count, exactly as long as they are current**: over every history
of calls, from every directory. -/
theorem manifestCache_transparent_iff (platform : FetchPlatform) (f : CacheFiles)
    (calls : List FetchCall) :
    Runs.Along (fetchStep platform) (fun f call _ ↦ Transparent platform f call) f calls ↔
      Runs.Along (fetchStep platform) (fun f call _ ↦ ManifestCurrent platform f call) f calls :=
  Runs.along_congr (fun _ ↦ True)
    (fun f call _ _ _ ↦ ⟨trivial, transparent_iff_current platform f call⟩) trivial

/-! ## A release that was not complete -/

namespace IncompleteManifest

/-- The digest of an empty file. -/
def emptyDigest : HexText 64 where
  text := "e3b0c44298fc1c149afbf4c8996fb92427ae41e4649b934ca495991b7852b855".toList
  length_eq := by decide
  hex := by decide

/-- For ASCII and empty binaries. -/
def host : FetchPlatform where
  sha256 _ := emptyDigest
  encodeUtf8 text := text.map fun c ↦ UInt8.ofNat c.toNat
  decodeUtf8 bytes := bytes.map fun b ↦ Char.ofNat b.toNat
  pid := 42

def random : HexText 16 where
  text := "0123456789abcdef".toList
  length_eq := by decide
  hex := by decide

def base : Text := "https://releases".toList

def version : Text := "0.5.0".toList

def x64 : Text := getVersionedAssetName "x86_64-unknown-linux-gnu".toList version []

def arm64 : Text := getVersionedAssetName "aarch64-unknown-linux-gnu".toList version []

def found (bytes : List UInt8) : Response :=
  ⟨[], 200, false, none, false, some ⟨[bytes], true⟩⟩

/-- Both binaries, and a manifest that lists some of them. -/
def server (listed : List Text) : ReleaseServer := fun url ↦
  if url = buildReleaseAssetUrl base version x64 ∨
      url = buildReleaseAssetUrl base version arm64 then
    some (found [])
  else if url = buildReleaseAssetUrl base version (getChecksumManifestName version) then
    some (found (host.encodeUtf8 (listed.flatMap fun name ↦
      manifestLine emptyDigest name ++ "\n".toList)))
  else some ⟨[], 404, false, none, false, none⟩

def linuxCall (arch : Text) (listed : List Text) : FetchCall where
  os := "linux".toList
  arch := arch
  version := version
  baseUrl := some base
  secure := true
  server := server listed
  random _ := random
  manifestRandom := random

def first : FetchCall := linuxCall "x64".toList [x64]

def second : FetchCall := linuxCall "arm64".toList [x64, arm64]

end IncompleteManifest

open IncompleteManifest in
/-- The manifest lists one binary when it is cached. Once the release lists the other one as well,
the other one is refused, and it would not be without the cached manifest. -/
theorem incomplete_manifest_stays :
    ¬ Runs.Along (fetchStep host) (fun f call _ ↦ Transparent host f call) (fun _ ↦ none)
      [first, second] := by
  intro h
  have hsecond : Transparent host (fetchAgentBinary host first fun _ ↦ none).2 second :=
    ((h _ rfl).2 _ rfl).1
  have hwith : (fetchAgentBinary host second (fetchAgentBinary host first fun _ ↦ none).2).1.isOk =
      false := by decide +kernel
  have hwithout : (fetchAgentBinary host second
      (deleteManifests (fetchAgentBinary host first fun _ ↦ none).2)).1.isOk = true := by
    decide +kernel
  rw [Transparent, hwith, hwithout] at hsecond
  cases hsecond

end Lasterm.Hub
