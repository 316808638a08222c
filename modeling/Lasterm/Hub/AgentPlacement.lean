import Lasterm.Hub.ManifestText
import Lasterm.Library.OrderedMap

/-!
# Placing and pruning agent binaries

`verifyAndPlace` and `pruneAgentBinaryCache` of `session/agent-cache.ts` with the checks of the
directory, of the temporary file and of what stands at its place, and with calls of the file system
that can fail. What the file system is taken to do is in `renameSync`: a rename onto a directory
fails, and one that fails changes nothing. Pipes and devices are left out, and so is Windows.

A name that nothing but a checksum has vouched for could lead out of the directory; `isPlaced_of_ok`
says that it does not. `pruneAgentBinaryCache` keeps the files of its version, and a file that was
placed for a release asset of that version has a name for it (`isCacheName_of_isBinaryOf`).
-/

namespace Lasterm.Hub.AgentPlacement

open Shell

/-! ## The disk -/

inductive DiskEntry
  | file (bytes : List UInt8) (mode : ℕ) (mine : Bool)
  | directory
  /-- A symbolic link, and what it leads to if that is a file. -/
  | link (leads : Option (List UInt8))
  deriving DecidableEq

/-- What stands at the path of the cache directory. -/
inductive CacheDir
  | missing
  | symlink
  | foreign
  | own
  deriving DecidableEq

/-- `elsewhere` is what stands at the path of the temporary file, where that is not in the cache
directory. -/
structure Disk where
  cacheDir : CacheDir
  cache : OrderedMap Text DiskEntry
  elsewhere : Option DiskEntry

/-- The path of a temporary file: its name, and whether its directory is the cache directory. -/
structure TempPath where
  name : Text
  noSlash : '/' ∉ name
  inCache : Bool

/-- The calls that fail for reasons of their own, with the error. -/
structure Faults where
  readFile : Option String
  mkdir : Bool
  chmod : Option String
  rename : Option String
  rm : Text → Bool

inductive PlacementError
  | fetch (failure : FetchFailure)
  | mkdir
  | notRegular
  | notOwned
  | symlinkEntry
  | untrustedEntry
  | alreadyCurrent
  | errno (code : String)

/-- `0o755` for a file. -/
def DiskEntry.chmod : DiskEntry → DiskEntry
  | .file bytes _ mine => .file bytes 0o755 mine
  | e => e

def TempPath.IsAt (temp : TempPath) (name : Text) : Prop := temp.inCache = true ∧ temp.name = name

instance (temp : TempPath) (name : Text) : Decidable (temp.IsAt name) :=
  inferInstanceAs (Decidable (_ ∧ _))

namespace Disk

variable (d : Disk)

def temp (temp : TempPath) : Option DiskEntry :=
  if temp.inCache then d.cache.get temp.name else d.elsewhere

def setTemp (temp : TempPath) (e : DiskEntry) : Disk :=
  if temp.inCache then { d with cache := d.cache.set temp.name e }
  else { d with elsewhere := some e }

def removeTemp (temp : TempPath) : Disk :=
  if temp.inCache then { d with cache := d.cache.delete temp.name }
  else { d with elsewhere := none }

/-- What stands at `join(cacheDir, name)`. -/
def «at» (name : Text) : Option DiskEntry :=
  if name = ".".toList ∨ name = "..".toList then some .directory else d.cache.get name

end Disk

/-! ## Placing -/

def sha256File (sha256 : List UInt8 → HexText 64) (faults : Faults) (d : Disk) (temp : TempPath) :
    Except PlacementError Text :=
  match faults.readFile, d.temp temp with
  | some code, _ => .error (.errno code)
  | none, some (.file bytes _ _) => .ok (sha256 bytes).text
  | none, some (.link (some bytes)) => .ok (sha256 bytes).text
  | none, some .directory => .error (.errno "EISDIR")
  | none, some (.link none) | none, none => .error (.errno "ENOENT")

/-- The first part of `verifyAndPlace`, up to the comparison of the digests. -/
def verifyDownload (sha256 : List UInt8 → HexText 64) (faults : Faults) (d : Disk) (temp : TempPath)
    (expectedBasename manifestContent : Text) : Except PlacementError Unit :=
  match assertBasename expectedBasename, parseChecksumManifest manifestContent expectedBasename with
  | .error e, _ => .error (.fetch e)
  | _, .error e => .error (.fetch e)
  | _, .ok none => .error (.fetch (.missingEntry expectedBasename))
  | _, .ok (some expected) =>
    match sha256File sha256 faults d temp with
    | .error e => .error e
    | .ok actual =>
      if actual ≠ expected then .error (.fetch (.mismatch expectedBasename)) else .ok ()

/-- A directory of this user with loose permissions is tightened, and is its own then. -/
def ensureCacheDir (faults : Faults) (d : Disk) : Except PlacementError Disk :=
  if faults.mkdir then .error .mkdir
  else
    match d.cacheDir with
    | .missing => .ok { d with cacheDir := .own }
    | .own => .ok d
    | .symlink | .foreign => .error (.fetch .insecureCacheDir)

def assertTrustedTempBinary (d : Disk) (temp : TempPath) : Except PlacementError Unit :=
  match d.temp temp with
  | some (.file _ _ true) => .ok ()
  | some (.file _ _ false) => .error .notOwned
  | some _ => .error .notRegular
  | none => .error (.errno "ENOENT")

def resolveCacheBasename (temp : TempPath) (expectedBasename : Text) : Except FetchFailure Text :=
  (cacheBasenameFromReleaseAsset expectedBasename AGENT_TARGET_TRIPLES).map fun fromExpected ↦
    (fromExpected <|>
      if temp.inCache then cacheBasenameFromTempPath temp.name else none).getD expectedBasename

def assertCanPlaceWithoutForce (d : Disk) (name : Text) : Except PlacementError Unit :=
  match d.at name with
  | none => .ok ()
  | some (.link _) => .error .symlinkEntry
  | some (.file _ _ true) => .error .alreadyCurrent
  | some _ => .error .untrustedEntry

/-- The name in the cache directory, with the checks around it. -/
def choosePlace (d : Disk) (temp : TempPath) (expectedBasename : Text) (force : Bool) :
    Except PlacementError Text :=
  match assertTrustedTempBinary d temp, resolveCacheBasename temp expectedBasename with
  | .error e, _ => .error e
  | _, .error e => .error (.fetch e)
  | _, .ok name =>
    if force then .ok name else (assertCanPlaceWithoutForce d name).map fun _ ↦ name

def renameSync (faults : Faults) (d : Disk) (temp : TempPath) (name : Text) :
    Except PlacementError Disk :=
  match faults.rename, d.temp temp with
  | some code, _ => .error (.errno code)
  | none, none => .error (.errno "ENOENT")
  | none, some e =>
    if d.at name = some .directory then .error (.errno "EISDIR")
    else if temp.IsAt name then .ok d
    else
      let moved := d.removeTemp temp
      .ok { moved with cache := moved.cache.set name e }

def verifyAndPlace (sha256 : List UInt8 → HexText 64) (faults : Faults) (d : Disk) (temp : TempPath)
    (expectedBasename manifestContent : Text) (force : Bool) : Except PlacementError Text × Disk :=
  match verifyDownload sha256 faults d temp expectedBasename manifestContent with
  | .error e => (.error e, d)
  | .ok () =>
    match ensureCacheDir faults d with
    | .error e => (.error e, d)
    | .ok d =>
      match choosePlace d temp expectedBasename force, d.temp temp, faults.chmod with
      | .error e, _, _ => (.error e, d)
      | _, none, _ => (.error (.errno "ENOENT"), d)
      | _, _, some code => (.error (.errno code), d)
      | .ok name, some entry, none =>
        let d := d.setTemp temp entry.chmod
        match renameSync faults d temp name with
        | .error e => (.error e, d)
        | .ok d => (.ok name, d)

/-! ## Pruning -/

/-- The version in the name of a binary of the cache. -/
def parseAgentBinaryCacheName (name : Text) : List AgentTargetEntry → Option Text
  | [] => none
  | ⟨os, arch, _, ext, _⟩ :: entries =>
    if (cacheNameFront os arch).isPrefixOf name ∧ ext.isSuffixOf name then
      let version := (name.take (name.length - ext.length)).drop (cacheNameFront os arch).length
      if STRICT_SEMVER version then some version else parseAgentBinaryCacheName name entries
    else parseAgentBinaryCacheName name entries

/-- The body of the loop: what is left of the directory, and how many files were removed. -/
def pruneEntry (faults : Faults) (version : Text) (acc : OrderedMap Text DiskEntry × ℕ)
    (name : Text) : OrderedMap Text DiskEntry × ℕ :=
  match parseAgentBinaryCacheName name AGENT_TARGET_TRIPLES, acc.1.get name with
  | some parsed, some (.file _ _ _) =>
    if parsed = version ∨ faults.rm name then acc else (acc.1.delete name, acc.2 + 1)
  | _, _ => acc

def pruneAgentBinaryCache (faults : Faults) (d : Disk) (version : Text) :
    Except FetchFailure (Disk × ℕ) :=
  match validateAgentVersion version with
  | .error e => .error e
  | .ok () =>
    if d.cacheDir = .own then
      let (cache, removed) := d.cache.keys.foldl (pruneEntry faults version) (d.cache, 0)
      .ok ({ d with cache }, removed)
    else .ok (d, 0)

/-! ## Names of files in the directory -/

/-- A direct child of a directory can have the name. -/
structure IsChildName (name : Text) : Prop where
  ne_nil : name ≠ []
  noSlash : '/' ∉ name
  ne_dot : name ≠ ".".toList
  ne_dots : name ≠ "..".toList

/-- The name that the cache has for a binary of the version. -/
def IsCacheName (name version : Text) : Prop :=
  ∃ os arch triple ext built, ⟨os, arch, triple, ext, built⟩ ∈ AGENT_TARGET_TRIPLES ∧
    STRICT_SEMVER version = true ∧ name = getCacheFileName os arch version ext

variable {version : Text}

theorem noSlash_of_version (h : STRICT_SEMVER version = true) : '/' ∉ version :=
  fun hmem ↦ absurd (isDigit_of_mem_version h hmem (by decide)) (by decide)

theorem getCacheFileName_child {os arch triple ext built version : _}
    (hmem : (⟨os, arch, triple, ext, built⟩ : AgentTargetEntry) ∈ AGENT_TARGET_TRIPLES)
    (hversion : STRICT_SEMVER version = true) :
    getCacheFileName os arch version ext ≠ [] ∧ '/' ∉ getCacheFileName os arch version ext := by
  have htable : ∀ e ∈ AGENT_TARGET_TRIPLES, '/' ∉ e.os ∧ '/' ∉ e.arch ∧ '/' ∉ e.ext := by
    decide +kernel
  obtain ⟨hos, harch, hext⟩ : '/' ∉ os ∧ '/' ∉ arch ∧ '/' ∉ ext := htable _ hmem
  have hdash : '/' ∉ "-".toList ∧ "-".toList ≠ [] := by decide
  have hagent : '/' ∉ "lasterm-agent-".toList := by decide
  have hne : cacheNameFront os arch ≠ [] := List.append_ne_nil_of_right_ne_nil _ hdash.2
  have hfront : '/' ∉ cacheNameFront os arch := by
    unfold cacheNameFront
    rw [List.mem_append, List.mem_append, List.mem_append, List.mem_append, not_or, not_or, not_or,
      not_or]
    exact ⟨⟨hagent, ⟨hos, hdash.1⟩, harch⟩, hdash.1⟩
  have hback : '/' ∉ version ++ ext := by
    rw [List.mem_append, not_or]
    exact ⟨noSlash_of_version hversion, hext⟩
  rw [getCacheFileName_eq]
  refine ⟨List.append_ne_nil_of_left_ne_nil hne _, ?_⟩
  rw [List.mem_append, not_or]
  exact ⟨hfront, hback⟩

variable {entries : List AgentTargetEntry}

theorem cacheBasenameFromReleaseAsset_eq_some {asset name : Text}
    (h : cacheBasenameFromReleaseAsset asset entries = .ok (some name)) :
    ∃ os arch triple ext version, ⟨os, arch, some triple, ext, true⟩ ∈ entries ∧
      validateAgentVersion version = .ok () ∧ name = getCacheFileName os arch version ext := by
  induction entries with
  | nil => cases h
  | cons entry entries ih =>
    have hrest : cacheBasenameFromReleaseAsset asset entries = .ok (some name) →
        ∃ os arch triple ext version, ⟨os, arch, some triple, ext, true⟩ ∈ entry :: entries ∧
          validateAgentVersion version = .ok () ∧ name = getCacheFileName os arch version ext := by
      intro hname
      obtain ⟨os, arch, triple, ext, version, hmem, hname⟩ := ih hname
      exact ⟨os, arch, triple, ext, version, List.mem_cons_of_mem _ hmem, hname⟩
    obtain ⟨os, arch, _ | triple, ext, _ | _⟩ := entry
    · exact hrest h
    · exact hrest h
    · exact hrest h
    · rw [cacheBasenameFromReleaseAsset] at h
      split at h
      · dsimp only at h
        generalize hversion : List.drop _ _ = version at h
        cases hvalid : validateAgentVersion version with
        | error e =>
          rw [hvalid] at h
          cases h
        | ok =>
          rw [hvalid] at h
          cases h
          exact ⟨os, arch, triple, ext, version, List.mem_cons_self, hvalid, rfl⟩
      · exact hrest h

theorem cacheBasenameFromTempPath_child {tempBase name : Text} (htemp : '/' ∉ tempBase)
    (h : cacheBasenameFromTempPath tempBase = some name) : name ≠ [] ∧ '/' ∉ name := by
  unfold cacheBasenameFromTempPath at h
  split at h
  · cases h
  · dsimp only at h
    split at h
    · cases h
    · rename_i hne
      cases h
      exact ⟨hne, fun hmem ↦ htemp (List.mem_of_mem_take hmem)⟩

theorem assertBasename_child {value : Text} (h : assertBasename value = .ok ()) :
    value ≠ [] ∧ '/' ∉ value := by
  rw [assertBasename] at h
  split at h
  · cases h
  · rename_i hgood
    rw [not_or] at hgood
    refine ⟨hgood.1, fun hmem ↦ hgood.2 (List.any_eq_true.mpr ⟨'/', hmem, by decide⟩)⟩

/-- The name that is chosen is the name of an entry, or it is `.` or `..`. -/
theorem resolveCacheBasename_child {temp : TempPath} {expectedBasename name : Text}
    (hbase : assertBasename expectedBasename = .ok ())
    (h : resolveCacheBasename temp expectedBasename = .ok name) : name ≠ [] ∧ '/' ∉ name := by
  rw [resolveCacheBasename] at h
  cases hasset : cacheBasenameFromReleaseAsset expectedBasename AGENT_TARGET_TRIPLES with
  | error e =>
    rw [hasset] at h
    cases h
  | ok fromExpected =>
    rw [hasset] at h
    have hname := Except.ok.inj h
    cases fromExpected with
    | some asset =>
      obtain ⟨os, arch, triple, ext, version, hmem, hvalid, rfl⟩ :=
        cacheBasenameFromReleaseAsset_eq_some hasset
      exact hname ▸ getCacheFileName_child hmem (STRICT_SEMVER_of_valid hvalid)
    | none =>
      subst hname
      cases hcache : temp.inCache with
      | false => exact assertBasename_child hbase
      | true =>
        cases hfromTemp : cacheBasenameFromTempPath temp.name with
        | none => exact assertBasename_child hbase
        | some fromTemp => exact cacheBasenameFromTempPath_child temp.noSlash hfromTemp

/-! ## The version in a name -/

/-- The front and the rest of a name that a target has. -/
private theorem cut_of_match {name front ext version : Text}
    (hfront : front.isPrefixOf name = true) (hext : ext.isSuffixOf name = true)
    (hversion : (name.take (name.length - ext.length)).drop front.length = version)
    (hne : version ≠ []) : name = front ++ (version ++ ext) := by
  obtain ⟨back, rfl⟩ := List.isSuffixOf_iff_suffix.mp hext
  rw [List.length_append, Nat.add_sub_cancel, List.take_left] at hversion
  have hlong : front.length < back.length := by
    have hpos := List.length_pos_iff.mpr hne
    rw [← hversion, List.length_drop] at hpos
    exact Nat.lt_of_sub_pos hpos
  obtain ⟨rest, rfl⟩ : front <+: back :=
    List.prefix_of_prefix_length_le (List.isPrefixOf_iff_prefix.mp hfront)
      (List.prefix_append _ _) (Nat.le_of_lt hlong)
  rw [List.drop_left] at hversion
  rw [hversion, List.append_assoc]

theorem STRICT_SEMVER_ne_nil (h : STRICT_SEMVER version = true) :
    version ≠ [] := by
  rintro rfl
  revert h
  decide

theorem exists_of_parseAgentBinaryCacheName {name version : Text}
    (h : parseAgentBinaryCacheName name entries = some version) :
    ∃ e ∈ entries, STRICT_SEMVER version = true ∧
      name = getCacheFileName e.os e.arch version e.ext := by
  induction entries with
  | nil => cases h
  | cons e entries ih =>
    have hrest : parseAgentBinaryCacheName name entries = some version →
        ∃ e' ∈ e :: entries, STRICT_SEMVER version = true ∧
          name = getCacheFileName e'.os e'.arch version e'.ext := by
      intro hparse
      obtain ⟨e', hmem, hname⟩ := ih hparse
      exact ⟨e', List.mem_cons_of_mem e hmem, hname⟩
    rw [parseAgentBinaryCacheName] at h
    split at h
    · rename_i hends
      dsimp only at h
      split at h
      · rename_i hversion
        have hcut := Option.some.inj h
        rw [hcut] at hversion
        refine ⟨e, List.mem_cons_self, hversion, ?_⟩
        rw [getCacheFileName_eq]
        exact cut_of_match hends.1 hends.2 hcut (STRICT_SEMVER_ne_nil hversion)
      · exact hrest h
    · exact hrest h

theorem parseAgentBinaryCacheName_isSome
    {e : AgentTargetEntry} (hmem : e ∈ entries) (hversion : STRICT_SEMVER version = true) :
    ∃ parsed, parseAgentBinaryCacheName (getCacheFileName e.os e.arch version e.ext) entries =
      some parsed := by
  induction entries with
  | nil => cases hmem
  | cons e' entries ih =>
    rcases List.mem_cons.mp hmem with rfl | hmem
    · have hstarts : (cacheNameFront e.os e.arch).isPrefixOf
          (cacheNameFront e.os e.arch ++ (version ++ e.ext)) = true :=
        List.isPrefixOf_iff_prefix.mpr (List.prefix_append _ _)
      have hends : e.ext.isSuffixOf (cacheNameFront e.os e.arch ++ (version ++ e.ext)) = true :=
        List.isSuffixOf_iff_suffix.mpr (List.append_assoc .. ▸ List.suffix_append _ _)
      have hcut : ((cacheNameFront e.os e.arch ++ (version ++ e.ext)).take
          ((cacheNameFront e.os e.arch ++ (version ++ e.ext)).length - e.ext.length)).drop
          (cacheNameFront e.os e.arch).length = version := by
        rw [← List.append_assoc, List.length_append, Nat.add_sub_cancel, List.take_left,
          List.drop_left]
      refine ⟨version, ?_⟩
      rw [getCacheFileName_eq, parseAgentBinaryCacheName, if_pos ⟨hstarts, hends⟩]
      dsimp only
      rw [hcut, if_pos hversion]
    · rw [parseAgentBinaryCacheName]
      split
      · dsimp only
        split
        · exact ⟨_, rfl⟩
        · exact ih hmem
      · exact ih hmem

theorem isCacheName_iff {name version : Text} : IsCacheName name version ↔
    ∃ e ∈ AGENT_TARGET_TRIPLES, STRICT_SEMVER version = true ∧
      name = getCacheFileName e.os e.arch version e.ext :=
  ⟨fun ⟨_, _, _, _, _, hmem, hname⟩ ↦ ⟨_, hmem, hname⟩,
    fun ⟨_, hmem, hname⟩ ↦ ⟨_, _, _, _, _, hmem, hname⟩⟩

/-- No front of a name is the start of another one. -/
theorem eq_of_prefix_cacheNameFront : ∀ e ∈ AGENT_TARGET_TRIPLES, ∀ e' ∈ AGENT_TARGET_TRIPLES,
    cacheNameFront e.os e.arch <+: cacheNameFront e'.os e'.arch → e = e' := by
  decide +kernel

theorem IsCacheName.unique {name version version' : Text} (h : IsCacheName name version)
    (h' : IsCacheName name version') : version = version' := by
  obtain ⟨e, hmem, -, rfl⟩ := isCacheName_iff.mp h
  obtain ⟨e', hmem', -, heq⟩ := isCacheName_iff.mp h'
  rw [getCacheFileName_eq, getCacheFileName_eq] at heq
  obtain rfl : e = e' := by
    rcases List.prefix_or_prefix_of_prefix (List.prefix_append _ _)
      (heq ▸ List.prefix_append (cacheNameFront e'.os e'.arch) (version' ++ e'.ext)) with hp | hp
    · exact eq_of_prefix_cacheNameFront _ hmem _ hmem' hp
    · exact (eq_of_prefix_cacheNameFront _ hmem' _ hmem hp).symm
  exact List.append_cancel_right (List.append_cancel_left heq)

/-- **The name translated back.** -/
theorem parseAgentBinaryCacheName_eq_some_iff {name version : Text} :
    parseAgentBinaryCacheName name AGENT_TARGET_TRIPLES = some version ↔
      IsCacheName name version := by
  constructor
  · exact fun h ↦ isCacheName_iff.mpr (exists_of_parseAgentBinaryCacheName h)
  · intro h
    obtain ⟨e, hmem, hversion, rfl⟩ := isCacheName_iff.mp h
    obtain ⟨parsed, hparsed⟩ := parseAgentBinaryCacheName_isSome hmem hversion
    rw [hparsed]
    exact congrArg some
      ((isCacheName_iff.mpr (exists_of_parseAgentBinaryCacheName hparsed)).unique h)

/-! ## What is pruned -/

/-- What `pruneAgentBinaryCache` removes: a regular file with a name for another version, which can
be removed. -/
structure IsPruned (faults : Faults) (version : Text) (cache : OrderedMap Text DiskEntry)
    (name : Text) : Prop where
  other : ∃ parsed, IsCacheName name parsed ∧ parsed ≠ version
  isFile : ∃ bytes mode mine, cache.get name = some (.file bytes mode mine)
  removable : faults.rm name = false

section Prune

variable {faults : Faults} {version : Text} {cache : OrderedMap Text DiskEntry} {n : ℕ}

theorem pruneEntry_of_isPruned {name : Text} (h : IsPruned faults version cache name) :
    pruneEntry faults version (cache, n) name = (cache.delete name, n + 1) := by
  obtain ⟨⟨parsed, hname, hne⟩, ⟨bytes, mode, mine, hget⟩, hrm⟩ := h
  rw [pruneEntry, parseAgentBinaryCacheName_eq_some_iff.mpr hname, hget]
  exact if_neg fun hkeep ↦ hkeep.elim hne (Bool.eq_false_iff.mp hrm)

theorem pruneEntry_of_not_isPruned {name : Text} (h : ¬IsPruned faults version cache name) :
    pruneEntry faults version (cache, n) name = (cache, n) := by
  unfold pruneEntry
  split
  · rename_i parsed bytes mode mine hparsed hget
    rw [if_pos]
    by_contra hkeep
    rw [not_or, Bool.not_eq_true] at hkeep
    have hname := parseAgentBinaryCacheName_eq_some_iff.mp hparsed
    exact h ⟨⟨parsed, hname, hkeep.1⟩, ⟨bytes, mode, mine, hget⟩, hkeep.2⟩
  · rfl

theorem isPruned_delete {name other : Text} (hne : other ≠ name) :
    IsPruned faults version (cache.delete name) other ↔ IsPruned faults version cache other := by
  have hget : (cache.delete name).get other = cache.get other := cache.get_delete_of_ne hne.symm
  constructor
  · rintro ⟨hother, hfile, hrm⟩
    exact ⟨hother, hget ▸ hfile, hrm⟩
  · rintro ⟨hother, hfile, hrm⟩
    exact ⟨hother, hget.symm ▸ hfile, hrm⟩

/-- The loop, over names of which none comes twice: what is removed at one name changes nothing
about the others. -/
theorem foldl_pruneEntry {names : List Text} (hnodup : names.Nodup) :
    let after := (names.foldl (pruneEntry faults version) (cache, n)).1
    (∀ name ∈ names, IsPruned faults version cache name → after.get name = none) ∧
      ∀ name, ¬(name ∈ names ∧ IsPruned faults version cache name) →
        after.get name = cache.get name := by
  induction names generalizing cache n with
  | nil => exact ⟨fun name hmem ↦ absurd hmem List.not_mem_nil, fun _ _ ↦ rfl⟩
  | cons a names ih =>
    obtain ⟨ha, hnodup⟩ := List.nodup_cons.mp hnodup
    rw [List.foldl_cons]
    by_cases hpruned : IsPruned faults version cache a
    · rw [pruneEntry_of_isPruned hpruned]
      obtain ⟨hgone, hkept⟩ := @ih (cache.delete a) (n + 1) hnodup
      refine ⟨fun name hmem hname ↦ ?_, fun name hname ↦ ?_⟩
      · rcases List.mem_cons.mp hmem with rfl | hmem
        · rw [hkept name fun h ↦ ha h.1]
          exact cache.get_delete_self name
        · have hne : name ≠ a := fun heq ↦ ha (heq ▸ hmem)
          exact hgone name hmem ((isPruned_delete hne).mpr hname)
      · have hne : name ≠ a := fun heq ↦ hname ⟨heq ▸ List.mem_cons_self, heq ▸ hpruned⟩
        rw [hkept name fun h ↦
          hname ⟨List.mem_cons_of_mem a h.1, (isPruned_delete hne).mp h.2⟩]
        exact cache.get_delete_of_ne hne.symm
    · rw [pruneEntry_of_not_isPruned hpruned]
      obtain ⟨hgone, hkept⟩ := @ih cache n hnodup
      refine ⟨fun name hmem hname ↦ ?_, fun name hname ↦ ?_⟩
      · rcases List.mem_cons.mp hmem with rfl | hmem
        · exact absurd hname hpruned
        · exact hgone name hmem hname
      · exact hkept name fun h ↦ hname ⟨List.mem_cons_of_mem a h.1, h.2⟩

theorem mem_keys_of_get {name : Text} {e : DiskEntry} (h : cache.get name = some e) :
    name ∈ cache.keys :=
  List.mem_map_of_mem (OrderedMap.get_eq_some_iff.mp h)

/-- What is pruned of the directory, where it can be trusted, and nothing where it cannot. -/
theorem pruneAgentBinaryCache_spec {d d' : Disk} {removed : ℕ}
    (h : pruneAgentBinaryCache faults d version = .ok (d', removed)) :
    (d'.cacheDir = d.cacheDir ∧ d'.elsewhere = d.elsewhere) ∧
      (d.cacheDir = .own → ∀ name, IsPruned faults version d.cache name →
        d'.cache.get name = none) ∧
      (∀ name, ¬(d.cacheDir = .own ∧ IsPruned faults version d.cache name) →
        d'.cache.get name = d.cache.get name) := by
  rw [pruneAgentBinaryCache] at h
  split at h
  · cases h
  split at h
  · rename_i hown
    dsimp only at h
    obtain ⟨rfl, -⟩ := Prod.mk.inj (Except.ok.inj h)
    obtain ⟨hgone, hkept⟩ := @foldl_pruneEntry faults version d.cache 0 d.cache.keys d.cache.nodup
    refine ⟨⟨rfl, rfl⟩, fun _ name hname ↦ ?_, fun name hname ↦ ?_⟩
    · obtain ⟨bytes, mode, mine, hget⟩ := hname.isFile
      exact hgone name (mem_keys_of_get hget) hname
    · exact hkept name fun hpruned ↦ hname ⟨hown, hpruned.2⟩
  · rename_i hown
    obtain ⟨rfl, -⟩ := Prod.mk.inj (Except.ok.inj h)
    exact ⟨⟨rfl, rfl⟩, fun hown' ↦ absurd hown' hown, fun _ _ ↦ rfl⟩

end Prune

/-! ## What is placed -/

section Place

variable {sha256 : List UInt8 → HexText 64} {faults : Faults} {d d' : Disk} {temp : TempPath}
variable {expectedBasename manifestContent name : Text} {force : Bool}

@[simp] theorem Disk.temp_setTemp (e : DiskEntry) : (d.setTemp temp e).temp temp = some e := by
  unfold Disk.temp Disk.setTemp
  split
  · exact d.cache.get_set_self temp.name e
  · rfl

theorem Disk.get_setTemp {other : Text} (e : DiskEntry) (h : ¬temp.IsAt other) :
    (d.setTemp temp e).cache.get other = d.cache.get other := by
  unfold Disk.setTemp
  split
  · rename_i hcache
    exact d.cache.get_set_of_ne e fun heq ↦ h ⟨hcache, heq⟩
  · rfl

theorem Disk.get_removeTemp (other : Text) :
    (d.removeTemp temp).cache.get other = if temp.IsAt other then none else d.cache.get other := by
  unfold Disk.removeTemp
  split
  · rename_i hcache
    have hat : temp.IsAt other ↔ temp.name = other := and_iff_right hcache
    rw [d.cache.get_delete]
    exact if_congr hat.symm rfl rfl
  · rename_i hcache
    rw [if_neg fun hat : temp.IsAt other ↦ hcache hat.1]

theorem verifyDownload_ok
    (h : verifyDownload sha256 faults d temp expectedBasename manifestContent = .ok ()) :
    assertBasename expectedBasename = .ok () ∧
      ∃ digest, parseChecksumManifest manifestContent expectedBasename = .ok (some digest) ∧
        sha256File sha256 faults d temp = .ok digest := by
  unfold verifyDownload at h
  cases hbase : assertBasename expectedBasename with
  | error e =>
    rw [hbase] at h
    cases h
  | ok =>
    rcases hparse : parseChecksumManifest manifestContent expectedBasename with e | _ | expected
    · rw [hbase, hparse] at h
      cases h
    · rw [hbase, hparse] at h
      cases h
    · rw [hbase, hparse] at h
      dsimp only at h
      cases hactual : sha256File sha256 faults d temp with
      | error e =>
        rw [hactual] at h
        cases h
      | ok actual =>
        rw [hactual] at h
        dsimp only at h
        split at h
        · cases h
        · rename_i hsame
          exact ⟨rfl, expected, rfl, congrArg _ (not_not.mp hsame)⟩

theorem ensureCacheDir_ok (h : ensureCacheDir faults d = .ok d') :
    d' = { d with cacheDir := .own } := by
  unfold ensureCacheDir at h
  split at h
  · cases h
  · split at h
    · exact (Except.ok.inj h).symm
    · rename_i hown
      rw [← Except.ok.inj h, ← hown]
    all_goals cases h

theorem choosePlace_ok (h : choosePlace d temp expectedBasename force = .ok name) :
    (∃ bytes mode, d.temp temp = some (.file bytes mode true)) ∧
      resolveCacheBasename temp expectedBasename = .ok name := by
  unfold choosePlace at h
  cases htrust : assertTrustedTempBinary d temp with
  | error e =>
    rw [htrust] at h
    cases h
  | ok =>
    cases hresolve : resolveCacheBasename temp expectedBasename with
    | error e =>
      rw [htrust, hresolve] at h
      cases h
    | ok place =>
      rw [htrust, hresolve] at h
      dsimp only at h
      refine ⟨?_, ?_⟩
      · unfold assertTrustedTempBinary at htrust
        split at htrust
        · exact ⟨_, _, ‹_›⟩
        all_goals cases htrust
      · split at h
        · rw [Except.ok.inj h]
        · cases hplace : assertCanPlaceWithoutForce d place with
          | error e =>
            rw [hplace] at h
            cases h
          | ok =>
            rw [hplace] at h
            exact congrArg _ (Except.ok.inj h)

theorem renameSync_ok (h : renameSync faults d temp name = .ok d') :
    ∃ e, d.temp temp = some e ∧ d.at name ≠ some .directory ∧ d'.cache.get name = some e ∧
      ∀ other, other ≠ name →
        d'.cache.get other = if temp.IsAt other then none else d.cache.get other := by
  unfold renameSync at h
  split at h
  · cases h
  · cases h
  · rename_i e _ htemp
    split at h
    · cases h
    rename_i hdirectory
    split at h
    · rename_i hat
      obtain rfl := Except.ok.inj h
      refine ⟨e, htemp, hdirectory, ?_, fun other hother ↦ ?_⟩
      · rw [Disk.temp, if_pos hat.1, hat.2] at htemp
        exact htemp
      · rw [if_neg fun hat' : temp.IsAt other ↦ hother (hat'.2.symm.trans hat.2)]
    · rename_i hat
      obtain rfl := Except.ok.inj h
      refine ⟨e, htemp, hdirectory, OrderedMap.get_set_self _ name e, fun other hother ↦ ?_⟩
      rw [OrderedMap.get_set_of_ne _ e hother.symm]
      exact Disk.get_removeTemp other

/-- What has happened where `verifyAndPlace` gives a name. -/
structure IsPlaced (sha256 : List UInt8 → HexText 64) (temp : TempPath)
    (expectedBasename manifestContent : Text) (d d' : Disk) (name : Text) : Prop where
  child : IsChildName name
  verified : ∃ digest bytes mode,
    parseChecksumManifest manifestContent expectedBasename = .ok (some digest) ∧
      d.temp temp = some (.file bytes mode true) ∧ (sha256 bytes).text = digest ∧
      d'.cache.get name = some (.file bytes 0o755 true)
  others : ∀ other, other ≠ name →
    d'.cache.get other = if temp.IsAt other then none else d.cache.get other

/-- Nothing in the directory has changed, but that the downloaded file may be executable now. -/
structure IsKept (temp : TempPath) (d d' : Disk) : Prop where
  others : ∀ other, ¬temp.IsAt other → d'.cache.get other = d.cache.get other
  temp_eq : d'.temp temp = d.temp temp ∨ d'.temp temp = (d.temp temp).map DiskEntry.chmod

section

variable (h : verifyAndPlace sha256 faults d temp expectedBasename manifestContent force =
  (.ok name, d'))
include h

/-- The steps that were taken where a name is given. -/
theorem verifyAndPlace_ok :
    verifyDownload sha256 faults d temp expectedBasename manifestContent = .ok () ∧
      ∃ d₁ entry, ensureCacheDir faults d = .ok d₁ ∧
        choosePlace d₁ temp expectedBasename force = .ok name ∧ d₁.temp temp = some entry ∧
        renameSync faults (d₁.setTemp temp entry.chmod) temp name = .ok d' := by
  unfold verifyAndPlace at h
  split at h
  · cases h
  rename_i hverify
  split at h
  · cases h
  rename_i d₁ hdir
  refine ⟨hverify, d₁, ?_⟩
  split at h
  · cases h
  · cases h
  · cases h
  · rename_i place entry hplace htemp hchmod
    dsimp only at h
    split at h
    · cases h
    · rename_i d₂ hrename
      obtain ⟨hname, rfl⟩ := Prod.mk.inj h
      obtain rfl := Except.ok.inj hname
      exact ⟨entry, hdir, hplace, htemp, hrename⟩

theorem isPlaced_of_ok
    : IsPlaced sha256 temp expectedBasename manifestContent d d' name := by
  obtain ⟨hverify, d₁, entry, hdir, hplace, htemp, hrename⟩ := verifyAndPlace_ok h
  obtain rfl := ensureCacheDir_ok hdir
  obtain ⟨hbase, digest, hparse, hdigest⟩ := verifyDownload_ok hverify
  obtain ⟨⟨bytes, mode, hfile⟩, hresolve⟩ := choosePlace_ok hplace
  cases htemp.symm.trans hfile
  obtain ⟨moved, hmoved, hdirectory, hget, hothers⟩ := renameSync_ok hrename
  cases (Disk.temp_setTemp _).symm.trans hmoved
  obtain ⟨hne, hslash⟩ := resolveCacheBasename_child hbase hresolve
  refine ⟨⟨hne, hslash, ?_, ?_⟩, ⟨digest, bytes, mode, hparse, hfile, ?_, hget⟩, ?_⟩
  · rintro rfl
    exact hdirectory (if_pos (.inl rfl))
  · rintro rfl
    exact hdirectory (if_pos (.inr rfl))
  · unfold sha256File at hdigest
    split at hdigest
    · cases hdigest
    · rename_i hread hsame
      have hfile' : d.temp temp = some (.file bytes mode true) := hfile
      cases hfile'.symm.trans hsame
      exact Except.ok.inj hdigest
    · rename_i hread hlink
      cases (show d.temp temp = _ from hfile).symm.trans hlink
    all_goals cases hdigest
  · intro other hother
    rw [hothers other hother]
    split
    · rfl
    · rename_i hat
      exact Disk.get_setTemp _ hat

end

theorem isKept_of_error {failure : PlacementError}
    (h : verifyAndPlace sha256 faults d temp expectedBasename manifestContent force =
      (.error failure, d')) : IsKept temp d d' := by
  unfold verifyAndPlace at h
  split at h
  · cases h
    exact ⟨fun _ _ ↦ rfl, .inl rfl⟩
  split at h
  · cases h
    exact ⟨fun _ _ ↦ rfl, .inl rfl⟩
  rename_i d₁ hdir
  obtain rfl := ensureCacheDir_ok hdir
  split at h
  · cases h
    exact ⟨fun _ _ ↦ rfl, .inl rfl⟩
  · cases h
    exact ⟨fun _ _ ↦ rfl, .inl rfl⟩
  · cases h
    exact ⟨fun _ _ ↦ rfl, .inl rfl⟩
  · rename_i place entry hplace htemp hchmod
    dsimp only at h
    split at h
    · -- The rename has failed, and the file has its mode already.
      cases h
      have hentry : d.temp temp = some entry := htemp
      refine ⟨fun other hother ↦ Disk.get_setTemp entry.chmod hother, .inr ?_⟩
      rw [Disk.temp_setTemp, hentry, Option.map_some]
    · cases h

/-- What the file that is placed is a binary of the version of: the release asset, of the naming of
now or of the old one, where the temporary file has the name for the version. -/
inductive IsBinaryOf (temp : TempPath) (expectedBasename version : Text) : Prop
  | current (os arch : Text) (target : ResolvedTarget)
      (htarget : resolveTarget os arch = some target)
      (hversion : validateAgentVersion version = .ok ())
      (hasset : expectedBasename = releaseAssetPrefix target.triple ++ version ++ target.ext)
  | termora (os arch : Text) (target : ResolvedTarget)
      (htarget : resolveTarget os arch = some target)
      (hversion : validateAgentVersion version = .ok ()) (pid : ℕ) (rand : HexText 16) (rest : Text)
      (hcache : temp.inCache = true)
      (htemp : temp.name = getCacheFileName os arch version target.ext ++ tempSuffix pid rand)
      (hasset : expectedBasename = "termora-agent-".toList ++ rest)

theorem isCacheName_of_resolveTarget {os arch version : Text} {target : ResolvedTarget}
    (htarget : resolveTarget os arch = some target)
    (hversion : validateAgentVersion version = .ok ()) :
    IsCacheName (getCacheFileName os arch version target.ext) version :=
  ⟨_, _, _, _, _, resolveTarget_eq_some htarget, STRICT_SEMVER_of_valid hversion, rfl⟩

/-- **The two translations of the name agree.** -/
theorem isCacheName_of_isBinaryOf {version : Text} (h : IsBinaryOf temp expectedBasename version)
    (hresolve : resolveCacheBasename temp expectedBasename = .ok name) :
    IsCacheName name version := by
  cases h with
  | current os arch target htarget hversion hasset =>
    subst hasset
    rw [resolveCacheBasename, cacheBasenameFromReleaseAsset_versioned htarget hversion] at hresolve
    obtain rfl := Except.ok.inj hresolve
    exact isCacheName_of_resolveTarget htarget hversion
  | termora os arch target htarget hversion pid rand rest hcache htemp hasset =>
    subst hasset
    have hname : resolveCacheBasename temp ("termora-agent-".toList ++ rest) =
        Hub.resolveCacheBasename temp.name ("termora-agent-".toList ++ rest) := by
      unfold resolveCacheBasename Hub.resolveCacheBasename
      rw [if_pos hcache]
    rw [hname, htemp, Hub.resolveCacheBasename_termora htarget hversion pid rand rest] at hresolve
    obtain rfl := Except.ok.inj hresolve
    exact isCacheName_of_resolveTarget htarget hversion

/-- A file with a name for the version is none that pruning for it removes. -/
theorem not_isPruned {version : Text} {cache : OrderedMap Text DiskEntry}
    (h : IsCacheName name version) : ¬IsPruned faults version cache name := by
  rintro ⟨⟨parsed, hname, hne⟩, -, -⟩
  exact hne (hname.unique h)

end Place

/-! ## Placing and pruning -/

theorem pruneAgentBinaryCache_own (faults : Faults) {d : Disk} {version : Text}
    (hversion : validateAgentVersion version = .ok ()) (hown : d.cacheDir = .own) :
    ∃ d' removed, pruneAgentBinaryCache faults d version = .ok (d', removed) ∧ ∀ name,
      (IsPruned faults version d.cache name → d'.cache.get name = none) ∧
        (¬IsPruned faults version d.cache name → d'.cache.get name = d.cache.get name) := by
  have hprune : pruneAgentBinaryCache faults d version = .ok
      ({ d with cache := (d.cache.keys.foldl (pruneEntry faults version) (d.cache, 0)).1 },
        (d.cache.keys.foldl (pruneEntry faults version) (d.cache, 0)).2) := by
    rw [pruneAgentBinaryCache, hversion]
    dsimp only
    rw [if_pos hown]
  obtain ⟨-, hgone, hkept⟩ := pruneAgentBinaryCache_spec hprune
  exact ⟨_, _, hprune, fun name ↦ ⟨hgone hown name, fun h ↦ hkept name fun hpruned ↦ h hpruned.2⟩⟩

/-- **A binary is placed only if a manifest vouches for it**, at one name of the directory; what
fails changes nothing there; and pruning for a version removes the files of the other versions. -/
theorem placed_and_pruned (sha256 : List UInt8 → HexText 64) (faults : Faults) (d : Disk)
    (temp : TempPath) (expectedBasename manifestContent : Text) (force : Bool) (version : Text) :
    (∀ digest, parseChecksumManifest manifestContent expectedBasename = .ok (some digest) ↔
      ∃ entries, Lists (manifestLines manifestContent) entries ∧ (entries.map Prod.snd).Nodup ∧
        ∃ entry ∈ entries, entry.2 = expectedBasename ∧ entry.1.map Char.toLower = digest) ∧
    (∀ name d', verifyAndPlace sha256 faults d temp expectedBasename manifestContent force =
        (.ok name, d') →
      IsPlaced sha256 temp expectedBasename manifestContent d d' name ∧
        (IsBinaryOf temp expectedBasename version → ∀ faults' d₁ d₂ removed,
          pruneAgentBinaryCache faults' d₁ version = .ok (d₂, removed) →
            d₂.cache.get name = d₁.cache.get name)) ∧
    (∀ failure d', verifyAndPlace sha256 faults d temp expectedBasename manifestContent force =
        (.error failure, d') → IsKept temp d d') ∧
    (validateAgentVersion version = .ok () → d.cacheDir = .own →
      ∃ d' removed, pruneAgentBinaryCache faults d version = .ok (d', removed) ∧ ∀ name,
        (IsPruned faults version d.cache name → d'.cache.get name = none) ∧
          (¬IsPruned faults version d.cache name → d'.cache.get name = d.cache.get name)) ∧
    (∀ d' removed, d.cacheDir ≠ .own →
      pruneAgentBinaryCache faults d version = .ok (d', removed) →
        ∀ name, d'.cache.get name = d.cache.get name) := by
  refine ⟨fun digest ↦ parseChecksumManifest_eq_some_iff, fun name d' h ↦ ⟨isPlaced_of_ok h, ?_⟩,
    fun failure d' h ↦ isKept_of_error h, fun hversion hown ↦
      pruneAgentBinaryCache_own faults hversion hown, fun d' removed hdir h name ↦ ?_⟩
  · intro hbinary faults' d₁ d₂ removed hprune
    obtain ⟨-, d', entry, hdir, hplace, -⟩ := verifyAndPlace_ok h
    have hname := isCacheName_of_isBinaryOf hbinary (choosePlace_ok hplace).2
    exact (pruneAgentBinaryCache_spec hprune).2.2 name fun hpruned ↦ not_isPruned hname hpruned.2
  · exact (pruneAgentBinaryCache_spec h).2.2 name fun hpruned ↦ hdir hpruned.1

section Runs

/-- Nothing fails. -/
def noFaults : Faults := ⟨none, false, none, none, fun _ ↦ false⟩

def sameDigest (_ : List UInt8) : HexText 64 := ⟨List.replicate 64 'a', rfl, rfl⟩

def downloaded : TempPath := ⟨"download".toList, by decide, false⟩

def oldBinary : Text := getCacheFileName "linux".toList "x64".toList "0.3.0".toList []

/-- A directory with a binary of another version, and a download beside it. -/
def oldDisk (cacheDir : CacheDir) : Disk :=
  ⟨cacheDir, OrderedMap.empty.set oldBinary (.file [1] 0o755 true), some (.file [2] 0o600 true)⟩

def asset : Text := "lasterm-agent-x86_64-unknown-linux-gnu-0.4.0".toList

theorem placed_and_pruned_asset :
    ∃ name d', verifyAndPlace sameDigest noFaults (oldDisk .own) downloaded asset
        (manifestLine (sameDigest []) asset) false = (.ok name, d') ∧
      IsPlaced sameDigest downloaded asset (manifestLine (sameDigest []) asset) (oldDisk .own) d'
        name :=
  ⟨_, _, rfl, ((placed_and_pruned sameDigest noFaults (oldDisk .own) downloaded asset
    (manifestLine (sameDigest []) asset) false "0.4.0".toList).2.1 _ _ rfl).1⟩

/-- Nothing is pruned through a symbolic link: a regular file with the name of another version
stays. -/
theorem not_pruned_symlink :
    ¬∀ (faults : Faults) (d : Disk) (version : Text) (d' : Disk) (removed : ℕ),
      pruneAgentBinaryCache faults d version = .ok (d', removed) →
        ∀ name parsed bytes mode mine, IsCacheName name parsed → parsed ≠ version →
          d.cache.get name = some (.file bytes mode mine) → d'.cache.get name = none := by
  intro h
  have hname : IsCacheName oldBinary "0.3.0".toList :=
    ⟨_, _, _, _, _, List.mem_cons_self, by decide +kernel, rfl⟩
  have hgone := h noFaults (oldDisk .symlink) "0.4.0".toList (oldDisk .symlink) 0 rfl oldBinary _
    [1] 0o755 true hname (by decide) rfl
  cases hgone

end Runs

end Lasterm.Hub.AgentPlacement
