import Lasterm.Hub.AgentDeployer

/-!
# The cache of agent binaries

Model of `session/agent-cache.ts`: the targets that releases are built for, the versions, the
checksum manifests, and `verifyAndPlace`, by which every binary gets its place in the cache.

The cache directory is given by what stands under each name. A file is written, renamed and removed
as POSIX does it; nothing else goes wrong with the disk. The digest is a parameter.

The name that a binary is placed under is read off the name of the release asset, and for an asset
of the old naming off the name of the temporary file. `resolveCacheBasename_versioned` and
`resolveCacheBasename_termora` say that it is the name for the target and the version both times.
-/

namespace Lasterm.Hub

open Shell

/-! ## Errors -/

inductive FetchErrorCode
  | badVersion
  | unsupportedTarget
  | notFound
  | releaseIncomplete
  | rateLimited
  | privateOrForbidden
  | network
  | tooLarge
  | disk
  | checksumMismatch
  | checksumMissing
  | alreadyCurrent
  deriving DecidableEq

/-- What is thrown, with what its message is about. -/
inductive FetchFailure
  | badVersion (version : Text)
  | unsupportedTarget (os arch : Text)
  | badBaseUrl
  /-- `insecureCacheDirError`. -/
  | insecureCacheDir
  /-- No free name for a temporary file. -/
  | noTempName
  | invalidLine (expectedBasename : Text)
  | pathPrefixed (expectedBasename : Text)
  | listedTwice (filename : Text)
  | missingEntry (expectedBasename : Text)
  | mismatch (expectedBasename : Text)
  /-- `mismatch`, with where to find the asset and where to put it. -/
  | mismatchOf (assetName assetUrl finalName : Text)
  | partialResponse (status : ℕ) (url : Text)
  | rateLimited (url : Text)
  | privateOrForbidden (url : Text)
  | releaseIncomplete (assetName : Text)
  | notFound (tagUrl : Text)
  | badStatus (status : ℕ) (url : Text)
  | insecureRedirect (url : Text)
  | networkError (url : Text)
  | compressed (encoding : Text)
  | tooLarge (url : Text)
  /-- `handleMissingChecksum`. -/
  | missingChecksum (version assetName : Text)
  /-- An error of the file system, which is no `FetchError`. -/
  | errno (code : String)
  deriving DecidableEq

namespace FetchFailure

/-- `FetchError.code`. -/
def code : FetchFailure → Option FetchErrorCode
  | badVersion _ => some .badVersion
  | unsupportedTarget _ _ => some .unsupportedTarget
  | insecureCacheDir | noTempName => some .disk
  | invalidLine _ | pathPrefixed _ | listedTwice _ | mismatch _ | mismatchOf _ _ _ =>
    some .checksumMismatch
  | missingEntry _ | missingChecksum _ _ => some .checksumMissing
  | badBaseUrl | partialResponse _ _ | badStatus _ _ | insecureRedirect _ | networkError _
  | compressed _ => some .network
  | rateLimited _ => some .rateLimited
  | privateOrForbidden _ => some .privateOrForbidden
  | releaseIncomplete _ => some .releaseIncomplete
  | notFound _ => some .notFound
  | tooLarge _ => some .tooLarge
  | errno _ => none

end FetchFailure

/-! ## Targets and versions -/

structure AgentTargetEntry where
  os : Text
  arch : Text
  triple : Option Text
  ext : Text
  built : Bool
  deriving DecidableEq

/-- In the order of the source. -/
def AGENT_TARGET_TRIPLES : List AgentTargetEntry :=
  [⟨"linux".toList, "x64".toList, some "x86_64-unknown-linux-gnu".toList, [], true⟩,
    ⟨"linux".toList, "arm64".toList, some "aarch64-unknown-linux-gnu".toList, [], true⟩,
    ⟨"windows".toList, "x64".toList, some "x86_64-pc-windows-msvc".toList, ".exe".toList, true⟩,
    ⟨"windows".toList, "arm64".toList, none, ".exe".toList, false⟩,
    ⟨"darwin".toList, "x64".toList, none, [], false⟩,
    ⟨"darwin".toList, "arm64".toList, none, [], false⟩]

structure ResolvedTarget where
  triple : Text
  ext : Text

def resolveTarget (os arch : Text) : Option ResolvedTarget :=
  match AGENT_TARGET_TRIPLES.find? fun e ↦ e.os = os ∧ e.arch = arch with
  | some ⟨_, _, some triple, ext, true⟩ => some ⟨triple, ext⟩
  | _ => none

/-- `/^\d+\.\d+\.\d+$/`. -/
def STRICT_SEMVER (version : Text) : Bool :=
  let parts := version.splitOn '.'
  parts.length = 3 && parts.all fun p ↦ p ≠ [] && p.all Char.isDigit

def validateAgentVersion (version : Text) : Except FetchFailure Unit :=
  if ¬ STRICT_SEMVER version ∨ version = "0.0.0".toList then .error (.badVersion version)
  else .ok ()

/-! ## Checksum manifests -/

def isHexDigit (c : Char) : Bool :=
  c.isDigit || (97 ≤ c.toNat && c.toNat ≤ 102) || (65 ≤ c.toNat && c.toNat ≤ 70)

/-- `[ \t]`. -/
def isBlank (c : Char) : Bool := c = ' ' || c.toNat = 9

/-- What `.` does not match. -/
def isLineTerminator (c : Char) : Bool := c.toNat ∈ [0xA, 0xD, 0x2028, 0x2029]

/-- `/^([0-9a-fA-F]{64})[ \t]+[*]?(.+)$/`. The line is trimmed, so that something is left behind the
blanks; a star is a part of the name where nothing stands behind it. -/
def matchManifestLine (line : Text) : Option (Text × Text) :=
  let digest := line.take 64
  let blanks := (line.drop 64).takeWhile isBlank
  let name := (line.drop 64).dropWhile isBlank
  if digest.length = 64 ∧ digest.all isHexDigit ∧ blanks ≠ [] ∧ name ≠ [] ∧
      ¬ name.any isLineTerminator then
    match name with
    | '*' :: c :: rest => some (digest, c :: rest)
    | _ => some (digest, name)
  else none

/-- The body of the loop over the lines: the names that were seen, and the digest that was found. -/
def parseManifestLine (expectedBasename : Text) (state : List Text × Option Text) (rawLine : Text) :
    Except FetchFailure (List Text × Option Text) :=
  -- `trim` also takes the `\r` at the end.
  let line := AgentDeployer.trim rawLine
  if line = [] then .ok state
  else
    match matchManifestLine line with
    | none => .error (.invalidLine expectedBasename)
    | some (digest, filename) =>
      if filename.any fun c ↦ c = '/' || c = backslash then .error (.pathPrefixed expectedBasename)
      else if filename ∈ state.1 then .error (.listedTwice filename)
      else
        .ok (state.1 ++ [filename],
          if filename = expectedBasename then some (digest.map Char.toLower) else state.2)

def parseChecksumManifest (manifest expectedBasename : Text) : Except FetchFailure (Option Text) :=
  ((manifest.splitOn '\n').foldlM (parseManifestLine expectedBasename) ([], none)).map Prod.snd

/-! ## The directory -/

/-- What stands under a name of the cache directory. -/
inductive CacheEntry
  | file (bytes : List UInt8)
  | directory
  /-- A symbolic link, and whether it leads anywhere. -/
  | link (leads : Bool)
  deriving DecidableEq

abbrev CacheFiles := Text → Option CacheEntry

/-- `existsSync`, which follows links. -/
def existsSync (f : CacheFiles) (name : Text) : Bool :=
  match f name with
  | none | some (.link false) => false
  | some _ => true

def writeFile (f : CacheFiles) (name : Text) (bytes : List UInt8) : CacheFiles :=
  Function.update f name (some (.file bytes))

/-- `rmSync` with `force`, and without `recursive`. -/
def removeFileIfPresent (f : CacheFiles) (name : Text) : Except FetchFailure CacheFiles :=
  if f name = some .directory then .error (.errno "ERR_FS_EISDIR")
  else .ok (Function.update f name none)

/-- `renameSync` of what is no directory. -/
def renameSync (f : CacheFiles) (source target : Text) : Except FetchFailure CacheFiles :=
  if f target = some .directory then .error (.errno "EISDIR")
  else .ok (Function.update (Function.update f target (f source)) source none)

/-! ## Names -/

def getCacheFileName (os arch version ext : Text) : Text :=
  "lasterm-agent-".toList ++ os ++ "-".toList ++ arch ++ "-".toList ++ version ++ ext

def releaseAssetPrefix (triple : Text) : Text :=
  "lasterm-agent-".toList ++ triple ++ "-".toList

/-- The name for a release asset of the current naming. -/
def cacheBasenameFromReleaseAsset (expectedBasename : Text) :
    List AgentTargetEntry → Except FetchFailure (Option Text)
  | [] => .ok none
  | ⟨os, arch, some triple, ext, true⟩ :: entries =>
    if (releaseAssetPrefix triple).isPrefixOf expectedBasename ∧
        ext.isSuffixOf expectedBasename then
      let version := (expectedBasename.take (expectedBasename.length - ext.length)).drop
        (releaseAssetPrefix triple).length
      (validateAgentVersion version).map fun _ ↦ some (getCacheFileName os arch version ext)
    else cacheBasenameFromReleaseAsset expectedBasename entries
  | _ :: entries => cacheBasenameFromReleaseAsset expectedBasename entries

def isLowerHexDigit (c : Char) : Bool := c.isDigit || (97 ≤ c.toNat && c.toNat ≤ 102)

/-- What `toString("hex")` and `digest("hex")` give. -/
structure HexText (n : ℕ) where
  text : Text
  length_eq : text.length = n
  hex : text.all isLowerHexDigit = true

def tmp : Text := ".tmp".toList

/-- What a temporary file has behind the name that it is for. -/
def tempSuffix (pid : ℕ) (rand : HexText 16) : Text :=
  '.' :: (Nat.toDigits 10 pid ++ '.' :: (rand.text ++ tmp))

/-- `/\.[0-9a-f]{16}\.tmp/` behind a dot and the digits. -/
def matchRandom (digits : Text) : Text → Option Text
  | '.' :: rest =>
    if digits ≠ [] ∧ (rest.take 16).length = 16 ∧ (rest.take 16).all isLowerHexDigit ∧
        tmp.isPrefixOf (rest.drop 16) then
      some ('.' :: (digits ++ '.' :: (rest.take 16 ++ tmp)))
    else none
  | _ => none

/-- `/\.\d+\.[0-9a-f]{16}\.tmp/` at the start of a text: what it matches. -/
def matchTempSuffix : Text → Option Text
  | '.' :: rest => matchRandom (rest.takeWhile Char.isDigit) (rest.dropWhile Char.isDigit)
  | _ => none

/-- `matchAll`: the matches from left to right, apart from what the last one has taken. -/
def matchAllTempSuffixes : ℕ → Text → List Text
  | _, [] => []
  | k + 1, _ :: cs => matchAllTempSuffixes k cs
  | 0, c :: cs =>
    match matchTempSuffix (c :: cs) with
    | some m => m :: matchAllTempSuffixes (m.length - 1) cs
    | none => matchAllTempSuffixes 0 cs

/-- The name in front of the suffix of a temporary file. All temporary files are in the cache
directory. -/
def cacheBasenameFromTempPath (tempBase : Text) : Option Text :=
  match (matchAllTempSuffixes 0 tempBase).find? fun m ↦ m.isSuffixOf tempBase with
  | none => none
  | some m =>
    let finalBase := tempBase.take (tempBase.length - m.length)
    if finalBase = [] then none else some finalBase

def resolveCacheBasename (tempName expectedBasename : Text) : Except FetchFailure Text :=
  (cacheBasenameFromReleaseAsset expectedBasename AGENT_TARGET_TRIPLES).map fun fromExpected ↦
    (fromExpected <|> cacheBasenameFromTempPath tempName).getD expectedBasename

/-! ## A manifest of one line -/

/-- Printable, not blank, and not what paths are cut at. -/
def isNameChar (c : Char) : Bool := 33 ≤ c.toNat && c.toNat ≤ 126 && c ≠ '/' && c ≠ backslash

variable {c : Char} {target : ResolvedTarget} {t : Text} {os arch version : Text}

theorem isDigit_iff : c.isDigit = true ↔ 48 ≤ c.toNat ∧ c.toNat ≤ 57 := by
  simp [Char.isDigit, UInt32.le_iff_toNat_le]

theorem isSpace_of_isNameChar (h : isNameChar c = true) :
    AgentDeployer.isSpace c = false := by
  simp only [isNameChar, Bool.and_eq_true, decide_eq_true_eq] at h
  obtain ⟨⟨⟨hlow, hhigh⟩, -⟩, -⟩ := h
  simp [AgentDeployer.isSpace]
  omega

theorem isLineTerminator_of_isNameChar (h : isNameChar c = true) :
    isLineTerminator c = false := by
  simp only [isNameChar, Bool.and_eq_true, decide_eq_true_eq] at h
  obtain ⟨⟨⟨hlow, hhigh⟩, -⟩, -⟩ := h
  simp [isLineTerminator]
  omega

theorem isNameChar_of_isDigit (h : c.isDigit = true) : isNameChar c = true := by
  obtain ⟨hlow, hhigh⟩ := isDigit_iff.mp h
  have hslash : c ≠ '/' := by rintro rfl; revert h; decide
  have hback : c ≠ backslash := by rintro rfl; revert h; decide
  simp [isNameChar, hslash, hback]
  omega

theorem isLowerHexDigit_iff : isLowerHexDigit c = true ↔
    (48 ≤ c.toNat ∧ c.toNat ≤ 57) ∨ (97 ≤ c.toNat ∧ c.toNat ≤ 102) := by
  simp [isLowerHexDigit, isDigit_iff]

theorem toLower_of_isLowerHexDigit (h : isLowerHexDigit c = true) : c.toLower = c := by
  rw [isLowerHexDigit_iff] at h
  have hupper : ¬ (c.val ≥ 'A'.val ∧ c.val ≤ 'Z'.val) := by
    rw [ge_iff_le, UInt32.le_iff_toNat_le, UInt32.le_iff_toNat_le]
    change ¬ (65 ≤ c.toNat ∧ c.toNat ≤ 90)
    omega
  exact dif_neg hupper

theorem isHexDigit_of_isLowerHexDigit (h : isLowerHexDigit c = true) :
    isHexDigit c = true := by
  unfold isLowerHexDigit at h
  rw [isHexDigit, h, Bool.true_or]

theorem isNameChar_of_isLowerHexDigit (h : isLowerHexDigit c = true) :
    isNameChar c = true := by
  rw [isLowerHexDigit_iff] at h
  have hslash : c ≠ '/' := by rintro rfl; revert h; decide
  have hback : c ≠ backslash := by rintro rfl; revert h; decide
  simp [isNameChar, hslash, hback]
  omega

theorem trim_eq_self {c d : Char} (hhead : t.head? = some c) (hlast : t.getLast? = some d)
    (hc : AgentDeployer.isSpace c = false) (hd : AgentDeployer.isSpace d = false) :
    AgentDeployer.trim t = t := by
  obtain ⟨t', rfl⟩ := List.head?_eq_some_iff.mp hhead
  obtain ⟨init, hinit⟩ := List.getLast?_eq_some_iff.mp hlast
  rw [AgentDeployer.trim, List.dropWhile_cons_of_neg (by simp [hc]), hinit, List.reverse_append,
    List.reverse_singleton, List.singleton_append, List.dropWhile_cons_of_neg (by simp [hd])]
  simp

/-- No name of an asset is cut. -/
theorem isCut_of_isNameChar {value : Text} (h : value.all isNameChar = true) :
    (value.any fun c ↦ c = '/' || c = backslash) = false := by
  rw [Bool.eq_false_iff]
  intro hany
  obtain ⟨c, hc, hcut⟩ := List.any_eq_true.mp hany
  have hchar := List.all_eq_true.mp h c hc
  simp only [isNameChar, Bool.and_eq_true, decide_eq_true_eq] at hchar
  simp [hchar.1.2, hchar.2] at hcut

/-- What `verifyAndPlace` gets where a release lists nothing. -/
def manifestLine (digest : HexText 64) (name : Text) : Text := digest.text ++ "  ".toList ++ name

section ManifestLine

variable {digest : HexText 64} {name : Text}

theorem isNameChar_of_mem_digest {c : Char} (hc : c ∈ digest.text) : isNameChar c = true :=
  isNameChar_of_isLowerHexDigit (List.all_eq_true.mp digest.hex c hc)

theorem digest_ne_nil : digest.text ≠ [] := by
  intro hnil
  have hlength := digest.length_eq
  rw [hnil] at hlength
  cases hlength

variable (hne : name ≠ []) (hstar : name.head? ≠ some '*') (hname : name.all isNameChar = true)
include hname

theorem not_mem_manifestLine : '\n' ∉ manifestLine digest name := by
  intro hmem
  have hbreak : isNameChar '\n' = false := by decide
  rw [manifestLine, List.mem_append, List.mem_append] at hmem
  rcases hmem with (hmem | hmem) | hmem
  · rw [isNameChar_of_mem_digest hmem] at hbreak
    cases hbreak
  · revert hmem
    decide
  · rw [List.all_eq_true.mp hname _ hmem] at hbreak
    cases hbreak

include hne

theorem trim_manifestLine :
    AgentDeployer.trim (manifestLine digest name) = manifestLine digest name := by
  have hnil : digest.text ≠ [] := digest_ne_nil
  obtain ⟨c, digits, hdigest⟩ := List.exists_cons_of_ne_nil hnil
  have hhead : (manifestLine digest name).head? = some c := by
    rw [manifestLine, hdigest]
    rfl
  have hlast : (manifestLine digest name).getLast? = some (name.getLast hne) := by
    rw [manifestLine, List.getLast?_append_of_ne_nil _ hne, List.getLast?_eq_getLast_of_ne_nil hne]
  refine trim_eq_self hhead hlast ?_ ?_
  · exact isSpace_of_isNameChar (isNameChar_of_mem_digest (hdigest ▸ List.mem_cons_self))
  · exact isSpace_of_isNameChar (List.all_eq_true.mp hname _ (List.getLast_mem hne))

include hstar

theorem matchManifestLine_manifestLine :
    matchManifestLine (manifestLine digest name) = some (digest.text, name) := by
  obtain ⟨c, cs, rfl⟩ := List.exists_cons_of_ne_nil hne
  have hc : isNameChar c = true := List.all_eq_true.mp hname c List.mem_cons_self
  have hblank : ¬ isBlank c = true := by
    rw [isNameChar, Bool.and_eq_true, Bool.and_eq_true, Bool.and_eq_true, decide_eq_true_eq] at hc
    rw [isBlank, Bool.or_eq_true, decide_eq_true_eq, decide_eq_true_eq]
    rintro (rfl | htab)
    · exact absurd hc.1.1.1 (by decide)
    · omega
  have htake : (manifestLine digest (c :: cs)).take 64 = digest.text := by
    rw [manifestLine, List.append_assoc]
    exact List.take_left' digest.length_eq
  have hdrop : (manifestLine digest (c :: cs)).drop 64 = "  ".toList ++ c :: cs := by
    rw [manifestLine, List.append_assoc]
    exact List.drop_left' digest.length_eq
  have hblanks : ("  ".toList ++ c :: cs).takeWhile isBlank = "  ".toList := by
    rw [List.takeWhile_append_of_pos (List.all_eq_true.mp rfl), List.takeWhile_cons_of_neg hblank,
      List.append_nil]
  have hrest : ("  ".toList ++ c :: cs).dropWhile isBlank = c :: cs := by
    rw [List.dropWhile_append_of_pos (List.all_eq_true.mp rfl), List.dropWhile_cons_of_neg hblank]
  have hterminator : (c :: cs).any isLineTerminator = false := by
    rw [List.any_eq_false]
    intro d hd
    rw [isLineTerminator_of_isNameChar (List.all_eq_true.mp hname d hd)]
    exact Bool.false_ne_true
  have hhex : digest.text.all isHexDigit = true :=
    List.all_eq_true.mpr fun d hd ↦
      isHexDigit_of_isLowerHexDigit (List.all_eq_true.mp digest.hex d hd)
  unfold matchManifestLine
  simp only [htake, hdrop, hblanks, hrest]
  rw [if_pos ⟨digest.length_eq, hhex, by decide, hne, Bool.eq_false_iff.mp hterminator⟩]
  split
  · rename_i heq
    cases heq
    exact absurd rfl hstar
  · rfl

/-- **A manifest that was made for a file lists it.** -/
theorem parseChecksumManifest_manifestLine :
    parseChecksumManifest (manifestLine digest name ++ "\n".toList) name =
      .ok (some digest.text) := by
  have hsplit : (manifestLine digest name ++ "\n".toList).splitOn '\n' =
      [manifestLine digest name, []] :=
    List.splitOn_append_cons_self_of_not_mem (not_mem_manifestLine hname) []
  have hline : manifestLine digest name ≠ [] := by
    unfold manifestLine
    exact List.append_ne_nil_of_right_ne_nil _ hne
  have hlower : digest.text.map Char.toLower = digest.text :=
    (List.map_congr_left fun c hc ↦
      toLower_of_isLowerHexDigit (List.all_eq_true.mp digest.hex c hc)).trans (List.map_id _)
  have hstep : parseManifestLine name ([], none) (manifestLine digest name) =
      .ok ([name], some digest.text) := by
    rw [parseManifestLine]
    simp only [trim_manifestLine hne hname, matchManifestLine_manifestLine hne hstar hname,
      if_neg hline, isCut_of_isNameChar hname, hlower]
    rfl
  rw [parseChecksumManifest, hsplit, List.foldlM_cons, hstep]
  rfl

end ManifestLine

/-! ## The name of a temporary file gives the name back -/

theorem matchRandom_eq_some {digits t m : Text} (h : matchRandom digits t = some m) :
    ∃ hex rest, t = '.' :: (hex ++ tmp ++ rest) ∧ hex.all isLowerHexDigit = true := by
  unfold matchRandom at h
  split at h
  · rename_i rest
    split at h
    · rename_i hrest
      obtain ⟨-, -, hhex, htmp⟩ := hrest
      obtain ⟨rest', hrest'⟩ := List.isPrefixOf_iff_prefix.mp htmp
      refine ⟨rest.take 16, rest', ?_, hhex⟩
      rw [List.append_assoc, hrest', List.take_append_drop]
    · cases h
  · cases h

theorem matchTempSuffix_eq_some {t m : Text} (h : matchTempSuffix t = some m) :
    ∃ digits hex rest, t = '.' :: (digits ++ '.' :: (hex ++ tmp ++ rest)) ∧
      digits.all Char.isDigit = true ∧ hex.all isLowerHexDigit = true := by
  unfold matchTempSuffix at h
  split at h
  · rename_i t
    obtain ⟨hex, rest, heq, hhex⟩ := matchRandom_eq_some h
    refine ⟨t.takeWhile Char.isDigit, hex, rest, ?_, List.all_takeWhile, hhex⟩
    rw [← heq, List.takeWhile_append_dropWhile]
  · cases h

theorem isDigit_of_mem_toDigits {n : ℕ} (hc : c ∈ Nat.toDigits 10 n) :
    c.isDigit = true :=
  Nat.isDigit_of_mem_toDigits (by decide) (by decide) hc

theorem matchTempSuffix_tempSuffix (pid : ℕ) (rand : HexText 16) :
    matchTempSuffix (tempSuffix pid rand) = some (tempSuffix pid rand) := by
  have hdigits : ∀ c ∈ Nat.toDigits 10 pid, c.isDigit = true := fun c ↦ isDigit_of_mem_toDigits
  have htake : (rand.text ++ tmp).take 16 = rand.text := List.take_left' rand.length_eq
  have hdrop : (rand.text ++ tmp).drop 16 = tmp := List.drop_left' rand.length_eq
  rw [tempSuffix, matchTempSuffix, List.takeWhile_append_of_pos hdigits,
    List.dropWhile_append_of_pos hdigits]
  change matchRandom (Nat.toDigits 10 pid ++ []) ('.' :: (rand.text ++ tmp)) = _
  rw [List.append_nil, matchRandom, htake, hdrop, if_pos]
  exact ⟨Nat.toDigits_ne_nil, rand.length_eq, rand.hex, rfl⟩

theorem takeWhile_ne_append (h : c ∉ t) (rest : Text) : (t ++ c :: rest).takeWhile (· ≠ c) = t := by
  rw [List.takeWhile_append_of_pos, List.takeWhile_cons_of_neg, List.append_nil]
  · simp
  · intro d hd
    exact decide_eq_true fun heq ↦ h (heq ▸ hd)

theorem not_mem_of_all {p : Char → Bool} (h : t.all p = true) (hc : p c = false) : c ∉ t := by
  intro hmem
  have hp := List.all_eq_true.mp h c hmem
  rw [hc] at hp
  cases hp

/-- In front of the suffix of a temporary file there is no match, where no `t` stands there: the
match would have to end at the same `t`, and it would have a dot too few. -/
theorem matchTempSuffix_append {back : Text} (hback : back ≠ []) (ht : 't' ∉ back) (pid : ℕ)
    (rand : HexText 16) : matchTempSuffix (back ++ tempSuffix pid rand) = none := by
  rw [Option.eq_none_iff_forall_ne_some]
  intro m hm
  obtain ⟨digits, hex, rest, heq, hdigits, hhex⟩ := matchTempSuffix_eq_some hm
  have hpid : (Nat.toDigits 10 pid).all Char.isDigit = true :=
    List.all_eq_true.mpr fun c hc ↦ isDigit_of_mem_toDigits hc
  have hheads : back ++ '.' :: (Nat.toDigits 10 pid ++ '.' :: (rand.text ++ ['.'])) =
      '.' :: (digits ++ '.' :: (hex ++ ['.'])) := by
    have hown : 't' ∉ back ++ '.' :: (Nat.toDigits 10 pid ++ '.' :: (rand.text ++ ['.'])) := by
      simp [ht, not_mem_of_all hpid (c := 't') rfl, not_mem_of_all rand.hex (c := 't') rfl]
    have hmatch : 't' ∉ '.' :: (digits ++ '.' :: (hex ++ ['.'])) := by
      simp [not_mem_of_all hdigits (c := 't') rfl, not_mem_of_all hhex (c := 't') rfl]
    rw [← takeWhile_ne_append hown ['m', 'p'], ← takeWhile_ne_append hmatch ('m' :: 'p' :: rest)]
    congr 1
    simpa [tempSuffix, tmp] using heq
  have hnodot : '.' ∉ back := by
    rw [← List.count_eq_zero]
    simpa [List.count_eq_zero.mpr (not_mem_of_all hpid (c := '.') rfl),
      List.count_eq_zero.mpr (not_mem_of_all hdigits (c := '.') rfl),
      List.count_eq_zero.mpr (not_mem_of_all hhex (c := '.') rfl),
      List.count_eq_zero.mpr (not_mem_of_all rand.hex (c := '.') rfl)]
      using congrArg (List.count '.') hheads
  obtain ⟨c, back, rfl⟩ := List.exists_cons_of_ne_nil hback
  rw [List.cons_append, List.cons.injEq] at hheads
  exact hnodot (hheads.1 ▸ List.mem_cons_self)

theorem matchTempSuffix_cons_of_ne (hc : c ≠ '.') (t : Text) :
    matchTempSuffix (c :: t) = none := by
  unfold matchTempSuffix
  split
  · rename_i heq
    exact absurd (List.cons.inj heq).1 hc
  · rfl

theorem matchAllTempSuffixes_of_length_le {k : ℕ} (h : t.length ≤ k) :
    matchAllTempSuffixes k t = [] := by
  induction t generalizing k with
  | nil => rw [matchAllTempSuffixes]
  | cons c t ih =>
    obtain ⟨k, rfl⟩ := Nat.exists_eq_add_of_le' (Nat.le_trans (Nat.succ_pos _) h)
    rw [matchAllTempSuffixes]
    exact ih (Nat.le_of_succ_le_succ h)

theorem matchAllTempSuffixes_tempSuffix (pid : ℕ) (rand : HexText 16) :
    matchAllTempSuffixes 0 (tempSuffix pid rand) = [tempSuffix pid rand] := by
  have hmatch := matchTempSuffix_tempSuffix pid rand
  rw [tempSuffix] at hmatch ⊢
  rw [matchAllTempSuffixes, hmatch]
  exact congrArg _ (matchAllTempSuffixes_of_length_le (Nat.le_refl _))

theorem matchAllTempSuffixes_cons_of_none (h : matchTempSuffix (c :: t) = none) :
    matchAllTempSuffixes 0 (c :: t) = matchAllTempSuffixes 0 t := by
  rw [matchAllTempSuffixes, h]

/-- **A temporary file has one suffix**, and it stands at the end. -/
theorem matchAllTempSuffixes_append {front back : Text} (hfront : '.' ∉ front) (hback : 't' ∉ back)
    (pid : ℕ) (rand : HexText 16) :
    matchAllTempSuffixes 0 (front ++ (back ++ tempSuffix pid rand)) = [tempSuffix pid rand] := by
  induction front with
  | nil =>
    induction back with
    | nil => exact matchAllTempSuffixes_tempSuffix pid rand
    | cons c back ih =>
      have hnone := matchTempSuffix_append (List.cons_ne_nil c back) hback pid rand
      rw [List.mem_cons, not_or] at hback
      exact (matchAllTempSuffixes_cons_of_none hnone).trans (ih hback.2)
  | cons c front ih =>
    rw [List.mem_cons, not_or] at hfront
    rw [List.cons_append,
      matchAllTempSuffixes_cons_of_none (matchTempSuffix_cons_of_ne (Ne.symm hfront.1) _)]
    exact ih hfront.2

theorem cacheBasenameFromTempPath_append {front back : Text} (hfront : '.' ∉ front)
    (hback : 't' ∉ back) (hne : front ≠ []) (pid : ℕ) (rand : HexText 16) :
    cacheBasenameFromTempPath (front ++ back ++ tempSuffix pid rand) = some (front ++ back) := by
  have hsuffix : (tempSuffix pid rand).isSuffixOf (front ++ back ++ tempSuffix pid rand) = true :=
    List.isSuffixOf_iff_suffix.mpr (List.suffix_append _ _)
  have hlength : (front ++ back ++ tempSuffix pid rand).length - (tempSuffix pid rand).length =
      (front ++ back).length := by
    rw [List.length_append, Nat.add_sub_cancel]
  have hnonempty : front ++ back ≠ [] := List.append_ne_nil_of_left_ne_nil hne back
  have hall := matchAllTempSuffixes_append hfront hback pid rand
  rw [← List.append_assoc] at hall
  rw [cacheBasenameFromTempPath, hall, List.find?_cons, hsuffix]
  simp only [hlength, List.take_left, if_neg hnonempty]

theorem resolveTarget_eq_some {os arch : Text} (h : resolveTarget os arch = some target) :
    ⟨os, arch, some target.triple, target.ext, true⟩ ∈ AGENT_TARGET_TRIPLES := by
  unfold resolveTarget at h
  split at h
  · rename_i heq
    have hfound := List.find?_some heq
    obtain ⟨rfl, rfl⟩ := of_decide_eq_true hfound
    cases h
    exact List.mem_of_find?_eq_some heq
  · cases h

theorem exists_mem_splitOn {a c : Char} (hc : c ∈ t) (hne : c ≠ a) :
    ∃ part ∈ t.splitOn a, c ∈ part := by
  induction t with
  | nil => cases hc
  | cons d t ih =>
    rw [List.splitOn_cons_eq_if_modifyHead]
    obtain ⟨head, tail, hsplit⟩ := List.exists_cons_of_ne_nil (List.splitOn_ne_nil a t)
    rw [hsplit] at ih ⊢
    rcases List.mem_cons.mp hc with rfl | hc
    · rw [if_neg (by simpa using hne)]
      exact ⟨c :: head, List.mem_cons_self, List.mem_cons_self⟩
    · obtain ⟨part, hpart, hmem⟩ := ih hc
      split
      · exact ⟨part, List.mem_cons_of_mem _ hpart, hmem⟩
      · rcases List.mem_cons.mp hpart with rfl | hpart
        · exact ⟨d :: part, List.mem_cons_self, List.mem_cons_of_mem d hmem⟩
        · exact ⟨part, List.mem_cons_of_mem _ hpart, hmem⟩

/-- A version has digits and dots only. -/
theorem isDigit_of_mem_version {version : Text} (h : STRICT_SEMVER version = true)
    (hc : c ∈ version) (hne : c ≠ '.') : c.isDigit = true := by
  obtain ⟨part, hpart, hmem⟩ := exists_mem_splitOn hc hne
  rw [STRICT_SEMVER, Bool.and_eq_true] at h
  have hdigits := List.all_eq_true.mp h.2 part hpart
  rw [Bool.and_eq_true] at hdigits
  exact List.all_eq_true.mp hdigits.2 c hmem

theorem STRICT_SEMVER_of_valid {version : Text} (h : validateAgentVersion version = .ok ()) :
    STRICT_SEMVER version = true := by
  unfold validateAgentVersion at h
  split at h
  · cases h
  · rename_i hvalid
    rw [not_or, not_not] at hvalid
    exact hvalid.1

theorem cacheBasenameFromReleaseAsset_cons {os arch triple ext version : Text}
    (entries : List AgentTargetEntry) :
    cacheBasenameFromReleaseAsset (releaseAssetPrefix triple ++ version ++ ext)
      (⟨os, arch, some triple, ext, true⟩ :: entries) =
      (validateAgentVersion version).map fun _ ↦ some (getCacheFileName os arch version ext) := by
  have hstarts : (releaseAssetPrefix triple).isPrefixOf
      (releaseAssetPrefix triple ++ version ++ ext) = true :=
    List.isPrefixOf_iff_prefix.mpr (List.append_assoc .. ▸ List.prefix_append _ _)
  have hsuffix : ext.isSuffixOf (releaseAssetPrefix triple ++ version ++ ext) = true :=
    List.isSuffixOf_iff_suffix.mpr (List.suffix_append _ _)
  have hlength : (releaseAssetPrefix triple ++ version ++ ext).length - ext.length =
      (releaseAssetPrefix triple ++ version).length := by
    rw [List.length_append, Nat.add_sub_cancel]
  rw [cacheBasenameFromReleaseAsset, if_pos ⟨hstarts, hsuffix⟩]
  simp only [hlength, List.take_left, List.drop_left]

theorem cacheBasenameFromReleaseAsset_skip {asset os arch triple ext : Text}
    (h : (releaseAssetPrefix triple).isPrefixOf asset = false) (entries : List AgentTargetEntry) :
    cacheBasenameFromReleaseAsset asset (⟨os, arch, some triple, ext, true⟩ :: entries) =
      cacheBasenameFromReleaseAsset asset entries := by
  rw [cacheBasenameFromReleaseAsset, h, if_neg fun hand ↦ Bool.false_ne_true hand.1]

theorem cacheBasenameFromReleaseAsset_versioned (htarget : resolveTarget os arch = some target)
    (hversion : validateAgentVersion version = .ok ()) :
    cacheBasenameFromReleaseAsset (releaseAssetPrefix target.triple ++ version ++ target.ext)
      AGENT_TARGET_TRIPLES = .ok (some (getCacheFileName os arch version target.ext)) := by
  have hmem := resolveTarget_eq_some htarget
  obtain ⟨triple, ext⟩ := target
  simp only [AGENT_TARGET_TRIPLES, List.mem_cons, AgentTargetEntry.mk.injEq, List.not_mem_nil,
    or_false, Option.some.injEq, reduceCtorEq, Bool.true_eq_false, and_false] at hmem
  rcases hmem with ⟨rfl, rfl, rfl, rfl, -⟩ | ⟨rfl, rfl, rfl, rfl, -⟩ | ⟨rfl, rfl, rfl, rfl, -⟩
  · rw [AGENT_TARGET_TRIPLES, cacheBasenameFromReleaseAsset_cons, hversion]
    rfl
  · rw [AGENT_TARGET_TRIPLES, cacheBasenameFromReleaseAsset_skip rfl,
      cacheBasenameFromReleaseAsset_cons, hversion]
    rfl
  · rw [AGENT_TARGET_TRIPLES, cacheBasenameFromReleaseAsset_skip rfl,
      cacheBasenameFromReleaseAsset_skip rfl, cacheBasenameFromReleaseAsset_cons, hversion]
    rfl

theorem cacheBasenameFromReleaseAsset_termora (rest : Text) :
    cacheBasenameFromReleaseAsset ("termora-agent-".toList ++ rest) AGENT_TARGET_TRIPLES =
      .ok none := by
  rw [AGENT_TARGET_TRIPLES, cacheBasenameFromReleaseAsset_skip rfl,
    cacheBasenameFromReleaseAsset_skip rfl, cacheBasenameFromReleaseAsset_skip rfl]
  rfl

/-- The parts of a target have none of the characters that a name is cut at. -/
theorem resolveTarget_chars {os arch : Text} (h : resolveTarget os arch = some target) :
    '.' ∉ os ++ "-".toList ++ arch ∧ 't' ∉ target.ext ∧ 'p' ∉ target.ext ∧
      target.triple.all isNameChar = true ∧ target.ext.all isNameChar = true := by
  have hentries : ∀ e ∈ AGENT_TARGET_TRIPLES, '.' ∉ e.os ++ "-".toList ++ e.arch ∧
      't' ∉ e.ext ∧ 'p' ∉ e.ext ∧ (e.triple.getD []).all isNameChar = true ∧
        e.ext.all isNameChar = true := by decide
  exact hentries _ (resolveTarget_eq_some h)

/-- **The name for a release asset of the current naming.** -/
theorem resolveCacheBasename_versioned (htarget : resolveTarget os arch = some target)
    (hversion : validateAgentVersion version = .ok ()) (tempName : Text) :
    resolveCacheBasename tempName (releaseAssetPrefix target.triple ++ version ++ target.ext) =
      .ok (getCacheFileName os arch version target.ext) := by
  rw [resolveCacheBasename, cacheBasenameFromReleaseAsset_versioned htarget hversion]
  rfl

/-- What stands in front of the version. -/
def cacheNameFront (os arch : Text) : Text :=
  "lasterm-agent-".toList ++ (os ++ "-".toList ++ arch) ++ "-".toList

theorem getCacheFileName_eq (os arch version ext : Text) :
    getCacheFileName os arch version ext = cacheNameFront os arch ++ (version ++ ext) := by
  unfold getCacheFileName cacheNameFront
  simp only [List.append_assoc]

/-- **The name for a release asset of the old naming.** -/
theorem resolveCacheBasename_termora (htarget : resolveTarget os arch = some target)
    (hversion : validateAgentVersion version = .ok ()) (pid : ℕ) (rand : HexText 16) (rest : Text) :
    resolveCacheBasename (getCacheFileName os arch version target.ext ++ tempSuffix pid rand)
      ("termora-agent-".toList ++ rest) = .ok (getCacheFileName os arch version target.ext) := by
  obtain ⟨hdot, hext, -⟩ := resolveTarget_chars htarget
  have hfront : '.' ∉ cacheNameFront os arch := by
    unfold cacheNameFront
    rw [List.mem_append, List.mem_append, not_or, not_or]
    exact ⟨⟨by decide, hdot⟩, by decide⟩
  have hback : 't' ∉ version ++ target.ext := by
    rw [List.mem_append, not_or]
    refine ⟨fun hmem ↦ ?_, hext⟩
    exact absurd (isDigit_of_mem_version (STRICT_SEMVER_of_valid hversion) hmem (by decide))
      (by decide)
  have hne : cacheNameFront os arch ≠ [] := List.append_ne_nil_of_right_ne_nil _ (by decide)
  rw [resolveCacheBasename, cacheBasenameFromReleaseAsset_termora, getCacheFileName_eq,
    cacheBasenameFromTempPath_append hfront hback hne]
  rfl

/-! ## Placing a binary -/

/-- `assertBasename`. -/
def assertBasename (value : Text) : Except FetchFailure Unit :=
  if value = [] ∨ value.any (fun c ↦ c = '/' || c = backslash) then .error (.pathPrefixed value)
  else .ok ()

/-- `verifyAndPlace` with `force`. The temporary file is read once; that it is a regular file of
this user has been seen to when it was opened. -/
def verifyAndPlace (sha256 : List UInt8 → HexText 64) (secure : Bool) (f : CacheFiles)
    (tempName expectedBasename manifestContent : Text) :
    Except FetchFailure (Text × CacheFiles) := do
  assertBasename expectedBasename
  match ← parseChecksumManifest manifestContent expectedBasename with
  | none => .error (.missingEntry expectedBasename)
  | some expected =>
    match f tempName with
    | some (.file bytes) =>
      if (sha256 bytes).text ≠ expected then .error (.mismatch expectedBasename)
      else if ¬ secure then .error .insecureCacheDir
      else
        let finalName ← resolveCacheBasename tempName expectedBasename
        let f' ← renameSync f tempName finalName
        .ok (finalName, f')
    | _ => .error (.errno "ENOENT")

variable {sha256 : List UInt8 → HexText 64} {f : CacheFiles} {tempName expectedBasename : Text}

/-- What `verifyAndPlace` does with a temporary file of which the name and the place are known. -/
theorem verifyAndPlace_eq {finalName : Text} {bytes : List UInt8}
    (hbase : assertBasename expectedBasename = .ok ()) (htemp : f tempName = some (.file bytes))
    (hname : resolveCacheBasename tempName expectedBasename = .ok finalName) (manifest : Text) :
    verifyAndPlace sha256 true f tempName expectedBasename manifest =
      match parseChecksumManifest manifest expectedBasename with
      | .error e => .error e
      | .ok none => .error (.missingEntry expectedBasename)
      | .ok (some digest) =>
        if (sha256 bytes).text = digest then
          (renameSync f tempName finalName).map fun f' ↦ (finalName, f')
        else .error (.mismatch expectedBasename) := by
  rw [verifyAndPlace, hbase]
  rcases parseChecksumManifest manifest expectedBasename with e | _ | digest
  · rfl
  · rfl
  · by_cases hdigest : (sha256 bytes).text = digest
    · rcases hrename : renameSync f tempName finalName with e | f'
      · simp [bind, Except.bind, htemp, hname, hdigest, hrename, Except.map]
      · simp [bind, Except.bind, htemp, hname, hdigest, hrename, Except.map]
    · simp [bind, Except.bind, htemp, hdigest]

theorem assertBasename_of_isNameChar {value : Text} (hne : value ≠ [])
    (h : value.all isNameChar = true) : assertBasename value = .ok () := by
  rw [assertBasename, isCut_of_isNameChar h, if_neg]
  simp [hne]

end Lasterm.Hub
