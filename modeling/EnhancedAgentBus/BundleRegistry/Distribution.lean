import EnhancedAgentBus.BundleRegistry.CacheFiles
import EnhancedAgentBus.BundleRegistry.Signatures
import EnhancedAgentBus.Lib.Async

/-!
# Fetching bundles

`BundleDistributionService.fetch`: a bundle comes from the cache, from the primary registry, from a
fallback, or it is the last-known-good one, whatever was asked for.

A registry reference is immutable: what a host serves under it is given once (`serves`), though the
host may fail at any time.  A pull writes the bundle file, and the manifest file is written after it;
a call may stop between the two, and a restart loses the last-known-good bundle.

* `ServedWith` — the bytes and the manifest that some host serves for a repository and a reference;
* `Torn` — the bytes of a bundle file have been replaced, and its manifest file is still the old one;
* `Calm` — what must not happen to the cache on the way.

### What is load-bearing

A cache hit checks nothing, so it is right because of what was written before: `Kept` follows the
files through a run, and `Apart` and `Calm` name each way in which it can break.
-/

namespace EnhancedAgentBus.BundleRegistry

open Async Async.Prog JsonText OCIRegistryClient BundleManifest

/-! ## What `fetch` awaits -/

abbrev Host := String

/-- What is asked of the file system, of the registry clients and of the service's own fields. -/
inductive Op where
  /-- `os.path.exists(cache_path)` -/
  | bundleExists (path : String)
  /-- `os.path.exists(cache_manifest_path)` -/
  | manifestExists (path : String)
  /-- `Path(cache_manifest_path).read_text()` -/
  | readManifest (path : String)
  /-- `registry.pull_bundle(repository, reference, cache_path)` -/
  | pullBundle (host : Host) (repository reference path : String)
  /-- `Path(cache_path + ".manifest.json").write_text(text)` -/
  | writeManifest (path text : String)
  /-- `self._lkg_manifest, self._lkg_path = manifest, path` -/
  | setLkg (M : BundleManifest) (path : String)
  /-- `self._lkg_manifest, self._lkg_path` -/
  | lkg

/-- The answer of a pull has the bytes that it wrote beside the manifest that it returns. -/
abbrev Resp : Op → Type
  | .bundleExists _ | .manifestExists _ => Bool
  | .readManifest _ => Except RegistryError String
  | .pullBundle _ _ _ _ => Except RegistryError (BundleManifest × Bytes)
  | .writeManifest _ _ => Except RegistryError Unit
  | .setLkg _ _ => Unit
  | .lkg => Option (BundleManifest × String)

abbrev Code := Prog Op Resp RegistryError

abbrev ask (o : Op) : Code (Resp o) := perform o

structure BundleDistributionService where
  primary : Host
  fallbacks : List Host
  cacheDir : CacheDir

namespace BundleDistributionService

/-- The cache, if it is used and both files are there. -/
def cached (path : String) (useCache : Bool) (now : String) : Code (Option BundleManifest) :=
  if useCache = false then return none
  else do
    match ← ask (.bundleExists path) with
    | false => return none
    | true =>
      match ← ask (.manifestExists path) with
      | false => return none
      | true =>
        match ← ask (.readManifest path) with
        | .error e => raise e
        | .ok text =>
          match readDumps now text with
          | .error e => raise e
          | .ok M => return some M

def pullAndCache (host : Host) (repository reference path : String) : Code BundleManifest := do
  match ← ask (.pullBundle host repository reference path) with
  | .error e => raise e
  | .ok (M, _) =>
    match ← ask (.writeManifest path M.dumps) with
    | .error e => raise e
    | .ok () => return M

/-- The primary registry, which also sets the last-known-good bundle. -/
def pullPrimary (host : Host) (repository reference path : String) : Code BundleManifest := do
  let M ← pullAndCache host repository reference path
  ask (.setLkg M path)
  return M

def tryFallbacks (repository reference path : String) :
    List Host → Code (Option BundleManifest)
  | [] => return none
  | host :: rest => do
    match ← (pullAndCache host repository reference path).attempt with
    | .ok M => return some M
    | .error _ => tryFallbacks repository reference path rest

/-- `fetch`, at a time. -/
def fetch (D : BundleDistributionService) (repository reference : String) (useCache : Bool)
    (now : String) : Code (BundleManifest × String) :=
  let path := D.cacheDir.cachePath repository reference
  if D.cacheDir.holds path = false then raise (.python "ValueError")
  else do
    match ← cached path useCache now with
    | some M => return (M, path)
    | none =>
      match ← (pullPrimary D.primary repository reference path).attempt with
      | .ok M => return (M, path)
      | .error _ =>
        match ← tryFallbacks repository reference path D.fallbacks with
        | some M => return (M, path)
        | none =>
          match ← ask .lkg with
          | some found => return found
          | none => raise (.python "Exception")

end BundleDistributionService

/-! ## Its surroundings -/

/-- The files of the cache, and the last-known-good bundle. -/
structure World where
  bundles : File → Option Bytes := fun _ => none
  manifests : File → Option String := fun _ => none
  lkg : Option (BundleManifest × String) := none

abbrev Serves := Host → (repository reference : String) → Option OciManifest

section Surroundings

variable (S : Ed25519) (sha256 : Bytes → String) (serves : Serves) (dir : CacheDir)

/-- A pull from a host that has not changed what it serves. -/
def Pulls (host : Host) (repository reference : String) (M : BundleManifest) (data : Bytes) : Prop :=
  ∃ r : Registry, (∀ oci, r.manifest repository reference = some oci →
      serves host repository reference = some oci) ∧
    pullBundle S sha256 r repository reference none = .ok (M, data)

/-- One operation.  What fails leaves nothing behind, and a file that cannot be reached does not
exist. -/
def Step (w : World) : (o : Op) → Resp o → World → Prop
  | .bundleExists path, found, w' =>
    w' = w ∧ (found = true → (w.bundles (dir.fileAt path)).isSome)
  | .manifestExists path, found, w' =>
    w' = w ∧ (found = true → (w.manifests (dir.fileAt path)).isSome)
  | .readManifest path, answer, w' =>
    w' = w ∧ ∀ text, answer = .ok text → w.manifests (dir.fileAt path) = some text
  | .pullBundle _ _ _ _, .error _, w' => w' = w
  | .pullBundle host repository reference path, .ok (M, data), w' =>
    Pulls S sha256 serves host repository reference M data ∧
      w' = { w with bundles := Function.update w.bundles (dir.fileAt path) (some data) }
  | .writeManifest _ _, .error _, w' => w' = w
  | .writeManifest path text, .ok (), w' =>
    w' = { w with manifests := Function.update w.manifests (dir.fileAt path) (some text) }
  | .setLkg M path, _, w' => w' = { w with lkg := some (M, path) }
  | .lkg, answer, w' => w' = w ∧ answer = w.lkg

def ServedWith (repository reference : String) (M : BundleManifest) (data : Bytes) : Prop :=
  ∃ host oci primary rest, serves host repository reference = some oci ∧
    oci.layers = primary :: rest ∧ readManifest oci primary = .ok M ∧
      OfLayers sha256 oci.layers data

end Surroundings

abbrev Performed := Entry World Op Resp

/-- One call of `fetch`, and how it ended. -/
structure Call where
  repository : String
  reference : String
  useCache : Bool
  now : String
  outcome : Outcome RegistryError (BundleManifest × String)

section Runs

variable (S : Ed25519) (sha256 : Bytes → String) (serves : Serves)
variable (D : BundleDistributionService)

/-- Calls one after another from an empty cache, with restarts; a call may stop anywhere. -/
inductive Run : List Call → World × List Performed → Prop
  | start : Run [] ({}, [])
  | fetch {calls : List Call} {s s' : World × List Performed} (c : Call) (hrun : Run calls s)
      (hexec : Exec (traced (Step S sha256 serves D.cacheDir))
        (D.fetch c.repository c.reference c.useCache c.now) s c.outcome s') : Run (c :: calls) s'
  | restart {calls : List Call} {s : World × List Performed} (hrun : Run calls s) :
      Run calls ({ s.1 with lkg := none }, s.2)

/-- **What was fetched is what was asked for**: what the latest call returned is what some host
serves for its repository and its reference, and the bytes at a path that was last-known-good are
still those that its manifest was served with. -/
structure FetchSound (calls : List Call) (s : World × List Performed) : Prop where
  asked : ∀ c rest, calls = c :: rest → ∀ M path, c.outcome = .returned (M, path) →
    ∃ data, s.1.bundles (D.cacheDir.fileAt path) = some data ∧
      ServedWith sha256 serves c.repository c.reference M data
  lastKnownGood : ∀ e ∈ s.2, ∀ M path, e.op = .setLkg M path →
    ∃ data, e.before.bundles (D.cacheDir.fileAt path) = some data ∧
      s.1.bundles (D.cacheDir.fileAt path) = some data ∧
        ∃ repository reference, ServedWith sha256 serves repository reference M data

end Runs

/-! ## The conditions -/

section Conditions

variable (dir : CacheDir)

/-- What is asked for under different names is kept in different files. -/
def Apart (calls : List Call) : Prop :=
  ∀ c ∈ calls, ∀ c' ∈ calls,
    dir.cacheFile c.repository c.reference = dir.cacheFile c'.repository c'.reference →
      c.repository = c'.repository ∧ c.reference = c'.reference

/-- A pull has replaced the bytes of a bundle file since its manifest file was written, and the
manifest file is another's. -/
def Torn (file : File) : List Performed → Prop
  | [] => False
  | ⟨_, .writeManifest path _, .ok ()⟩ :: earlier => dir.fileAt path ≠ file ∧ Torn file earlier
  | ⟨w, .pullBundle _ _ _ path, .ok (M, data)⟩ :: earlier =>
    if dir.fileAt path = file then
      w.manifests file ≠ some M.dumps ∧ (w.bundles file ≠ some data ∨ Torn file earlier)
    else Torn file earlier
  | _ :: earlier => Torn file earlier

def lastTried : List Performed → Option File
  | [] => none
  | ⟨_, .pullBundle _ _ _ path, _⟩ :: _ => some (dir.fileAt path)
  | _ :: earlier => lastTried earlier

/-- What an operation must not meet: a pull that replaces the bytes of a file that has been
last-known-good, a cache hit on torn files, and a last-known-good bundle in another file than the
one asked for. -/
def Calm : List Performed → Prop
  | ⟨w, .pullBundle _ _ _ path, .ok (_, data)⟩ :: earlier =>
    ∀ e ∈ earlier, ∀ M path', e.op = .setLkg M path' → dir.fileAt path' = dir.fileAt path →
      w.bundles (dir.fileAt path) = some data
  | ⟨_, .readManifest path, _⟩ :: earlier => ¬Torn dir (dir.fileAt path) earlier
  | ⟨_, .lkg, some (_, path)⟩ :: earlier => lastTried dir earlier = some (dir.fileAt path)
  | _ => True

end Conditions

/-! ## The invariant -/

section Invariant

variable {S : Ed25519} {sha256 : Bytes → String} {serves : Serves} {dir : CacheDir}
variable {asked asked' : (repository reference : String) → Prop} {s s' : World × List Performed}

theorem Pulls.served {host : Host} {repository reference : String} {M : BundleManifest}
    {data : Bytes} (h : Pulls S sha256 serves host repository reference M data) :
    M.Dumpable ∧ ServedWith sha256 serves repository reference M data := by
  obtain ⟨r, hserves, hpull⟩ := h
  obtain ⟨oci, primary, rest, hserved, hlayers, hread, -, hdata⟩ := pullBundle_eq_ok.mp hpull
  refine ⟨?_, host, oci, primary, rest, hserves oci hserved, hlayers, hread,
    ofLayers_of_download hdata⟩
  unfold readManifest buildBundleManifest at hread
  split_ifs at hread
  split at hread
  · cases hread
  · rename_i signatures hloads
    cases hread
    exact ⟨dumpable_loads hloads, rfl⟩

theorem Pulls.unique (hsha : Function.Injective sha256) {host : Host}
    {repository reference : String} {M M' : BundleManifest} {data data' : Bytes}
    (h : Pulls S sha256 serves host repository reference M data)
    (h' : Pulls S sha256 serves host repository reference M' data') : M = M' ∧ data = data' := by
  obtain ⟨r, hserves, hpull⟩ := h
  obtain ⟨r', hserves', hpull'⟩ := h'
  obtain ⟨oci, primary, rest, hserved, hlayers, hread, -, hdata⟩ := pullBundle_eq_ok.mp hpull
  obtain ⟨oci', primary', rest', hserved', hlayers', hread', -, hdata'⟩ :=
    pullBundle_eq_ok.mp hpull'
  obtain rfl := Option.some_inj.mp ((hserves oci hserved).symm.trans (hserves' oci' hserved'))
  obtain ⟨rfl, rfl⟩ := List.cons_eq_cons.mp (hlayers.symm.trans hlayers')
  exact ⟨Except.ok.inj (hread.symm.trans hread'),
    (ofLayers_of_download hdata).unique hsha (ofLayers_of_download hdata') rfl⟩

/-- A bundle file that holds what was served with a manifest. -/
structure Cached (sha256 : Bytes → String) (serves : Serves) (dir : CacheDir) (w : World)
    (file : File) (repository reference : String) (M : BundleManifest) (data : Bytes) : Prop where
  file_eq : dir.cacheFile repository reference = file
  dumpable : M.Dumpable
  bundle : w.bundles file = some data
  served : ServedWith sha256 serves repository reference M data

theorem Cached.of_bundle {w w' : World} {file : File} {repository reference : String}
    {M : BundleManifest} {data : Bytes}
    (h : Cached sha256 serves dir w file repository reference M data)
    (hbundle : w'.bundles file = w.bundles file) :
    Cached sha256 serves dir w' file repository reference M data :=
  { h with bundle := hbundle.trans h.bundle }

/-- **The invariant**, for what has been asked for: a manifest file that is not torn is
that of its bundle file, and the file of a bundle that has been last-known-good is as it was. -/
structure Kept (sha256 : Bytes → String) (serves : Serves) (dir : CacheDir)
    (asked : (repository reference : String) → Prop) (s : World × List Performed) : Prop where
  manifest : ∀ file text, s.1.manifests file = some text → ¬Torn dir file s.2 →
    ∃ repository reference M data, asked repository reference ∧ text = M.dumps ∧
      Cached sha256 serves dir s.1 file repository reference M data
  lkg : ∀ M path, s.1.lkg = some (M, path) → ∃ e ∈ s.2, e.op = .setLkg M path
  recorded : ∀ e ∈ s.2, ∀ M path, e.op = .setLkg M path →
    ∃ repository reference data, asked repository reference ∧
      e.before.bundles (dir.fileAt path) = some data ∧
        Cached sha256 serves dir s.1 (dir.fileAt path) repository reference M data

def Allowed (sha256 : Bytes → String) (serves : Serves) (dir : CacheDir)
    (asked : (repository reference : String) → Prop) (s : World × List Performed) : Op → Prop
  | .pullBundle _ repository reference path =>
    asked repository reference ∧ path = dir.cachePath repository reference
  | .writeManifest path text =>
    ∃ repository reference M data, asked repository reference ∧ text = M.dumps ∧
      Cached sha256 serves dir s.1 (dir.fileAt path) repository reference M data
  | .setLkg M path =>
    ∃ repository reference data, asked repository reference ∧
      Cached sha256 serves dir s.1 (dir.fileAt path) repository reference M data
  | _ => True

def CalmStep (S : Ed25519) (sha256 : Bytes → String) (serves : Serves) (dir : CacheDir)
    (s : World × List Performed) (o : Op) (r : Resp o) (s' : World × List Performed) : Prop :=
  traced (Step S sha256 serves dir) s o r s' ∧ Calm dir s'.2

theorem Kept.start : Kept sha256 serves dir asked ({}, []) where
  manifest _ _ h := by cases h
  lkg _ _ h := by cases h
  recorded _ h := by cases h

theorem Kept.mono (h : Kept sha256 serves dir asked s)
    (hmore : ∀ {repository reference}, asked repository reference →
      asked' repository reference) : Kept sha256 serves dir asked' s where
  manifest file text hfile htorn := by
    obtain ⟨repository, reference, M, data, hasked, hcached⟩ := h.manifest file text hfile htorn
    exact ⟨repository, reference, M, data, hmore hasked, hcached⟩
  lkg := h.lkg
  recorded e he M path hop := by
    obtain ⟨repository, reference, data, hasked, hcached⟩ := h.recorded e he M path hop
    exact ⟨repository, reference, data, hmore hasked, hcached⟩

theorem Kept.restart (h : Kept sha256 serves dir asked s) :
    Kept sha256 serves dir asked ({ s.1 with lkg := none }, s.2) where
  manifest file text hfile htorn := by
    obtain ⟨_, _, M, data, hasked, htext, hcached⟩ := h.manifest file text hfile htorn
    exact ⟨_, _, M, data, hasked, htext, hcached.of_bundle rfl⟩
  lkg _ _ hlkg := by cases hlkg
  recorded e he M path hop := by
    obtain ⟨_, _, data, hasked, hbefore, hcached⟩ := h.recorded e he M path hop
    exact ⟨_, _, data, hasked, hbefore, hcached.of_bundle rfl⟩

theorem Kept.lkg_cons (h : Kept sha256 serves dir asked s) (e : Performed) {M : BundleManifest}
    {path : String} (hlkg : s.1.lkg = some (M, path)) :
    ∃ e' ∈ e :: s.2, e'.op = .setLkg M path := by
  obtain ⟨e', he', hop⟩ := h.lkg M path hlkg
  exact ⟨e', List.mem_cons_of_mem e he', hop⟩

theorem Kept.recorded_cons {o : Op} {r : Resp o} {w' : World}
    (h : Kept sha256 serves dir asked s) (hset : ∀ M path, o ≠ .setLkg M path)
    (hbundles : ∀ e ∈ s.2, ∀ M path, e.op = .setLkg M path →
      w'.bundles (dir.fileAt path) = s.1.bundles (dir.fileAt path)) :
    ∀ e ∈ (⟨s.1, o, r⟩ : Performed) :: s.2, ∀ M path, e.op = .setLkg M path →
      ∃ repository reference data, asked repository reference ∧
        e.before.bundles (dir.fileAt path) = some data ∧
          Cached sha256 serves dir w' (dir.fileAt path) repository reference M data := by
  intro e he M path hop
  rcases List.mem_cons.mp he with rfl | he
  · exact absurd hop (hset M path)
  · obtain ⟨_, _, data, hasked, hbefore, hcached⟩ := h.recorded e he M path hop
    exact ⟨_, _, data, hasked, hbefore, hcached.of_bundle (hbundles e he M path hop)⟩

theorem Kept.same {o : Op} {r : Resp o} (h : Kept sha256 serves dir asked s)
    (hset : ∀ M path, o ≠ .setLkg M path)
    (htorn : ∀ file, Torn dir file (⟨s.1, o, r⟩ :: s.2) = Torn dir file s.2) :
    Kept sha256 serves dir asked (s.1, ⟨s.1, o, r⟩ :: s.2) where
  manifest file text hfile hnot := h.manifest file text hfile (htorn file ▸ hnot)
  lkg _ _ hlkg := h.lkg_cons _ hlkg
  recorded := h.recorded_cons hset fun _ _ _ _ _ => rfl

theorem Kept.pull (h : Kept sha256 serves dir asked s) {host : Host}
    {repository reference path : String} {M : BundleManifest} {data : Bytes}
    (hasked : asked repository reference) (hpath : path = dir.cachePath repository reference)
    (hpulls : Pulls S sha256 serves host repository reference M data)
    (hcalm : Calm dir
      (⟨s.1, .pullBundle host repository reference path, .ok (M, data)⟩ :: s.2)) :
    Kept sha256 serves dir asked
      ({ s.1 with bundles := Function.update s.1.bundles (dir.fileAt path) (some data) },
        ⟨s.1, .pullBundle host repository reference path, .ok (M, data)⟩ :: s.2) where
  manifest file text hfile hnot := by
    rw [Torn] at hnot
    by_cases heq : dir.fileAt path = file
    · subst heq
      rw [if_pos rfl] at hnot
      by_cases hsame : s.1.manifests (dir.fileAt path) = some M.dumps
      · -- The manifest file is already that of this bundle
        have htext : M.dumps = text := Option.some_inj.mp (hsame.symm.trans hfile)
        refine ⟨repository, reference, M, data, hasked, htext.symm, ?_, hpulls.served.1,
          Function.update_self .., hpulls.served.2⟩
        rw [hpath]
        rfl
      · have hnot' : ¬(s.1.bundles (dir.fileAt path) ≠ some data ∨ Torn dir (dir.fileAt path) s.2) :=
          fun htorn => hnot ⟨hsame, htorn⟩
        rw [not_or, not_not] at hnot'
        obtain ⟨_, _, M', data', hold, htext, hcached⟩ :=
          h.manifest (dir.fileAt path) text hfile hnot'.2
        refine ⟨_, _, M', data', hold, htext, hcached.of_bundle ?_⟩
        rw [hnot'.1]
        exact Function.update_self ..
    · rw [if_neg heq] at hnot
      obtain ⟨_, _, M', data', hold, htext, hcached⟩ := h.manifest file text hfile hnot
      exact ⟨_, _, M', data', hold, htext,
        hcached.of_bundle (Function.update_of_ne (Ne.symm heq) ..)⟩
  lkg _ _ hlkg := h.lkg_cons _ hlkg
  recorded := by
    refine h.recorded_cons nofun fun e he M' path' hop => ?_
    by_cases heq : dir.fileAt path' = dir.fileAt path
    · -- Its bytes are the ones that were there
      rw [heq, hcalm e he M' path' hop heq]
      exact Function.update_self ..
    · exact Function.update_of_ne heq ..

theorem Kept.write (h : Kept sha256 serves dir asked s) {path text : String}
    (hpre : Allowed sha256 serves dir asked s (.writeManifest path text)) :
    Kept sha256 serves dir asked
      ({ s.1 with manifests := Function.update s.1.manifests (dir.fileAt path) (some text) },
        ⟨s.1, .writeManifest path text, .ok ()⟩ :: s.2) where
  manifest file text' hfile hnot := by
    by_cases heq : dir.fileAt path = file
    · subst heq
      dsimp only at hfile
      rw [Function.update_self, Option.some_inj] at hfile
      obtain ⟨_, _, M, data, hasked, hdumps, hcached⟩ := hpre
      exact ⟨_, _, M, data, hasked, hfile ▸ hdumps, hcached.of_bundle rfl⟩
    · have hold : s.1.manifests file = some text' :=
        (Function.update_of_ne (Ne.symm heq) ..).symm.trans hfile
      obtain ⟨_, _, M, data, hasked, htext, hcached⟩ :=
        h.manifest file text' hold fun htorn => hnot ⟨heq, htorn⟩
      exact ⟨_, _, M, data, hasked, htext, hcached.of_bundle rfl⟩
  lkg _ _ hlkg := h.lkg_cons _ hlkg
  recorded := h.recorded_cons nofun fun _ _ _ _ _ => rfl

theorem Kept.set (h : Kept sha256 serves dir asked s) {M : BundleManifest} {path : String}
    (hpre : Allowed sha256 serves dir asked s (.setLkg M path)) :
    Kept sha256 serves dir asked
      ({ s.1 with lkg := some (M, path) }, ⟨s.1, .setLkg M path, ()⟩ :: s.2) where
  manifest file text hfile hnot := by
    obtain ⟨_, _, M', data, hasked, htext, hcached⟩ := h.manifest file text hfile hnot
    exact ⟨_, _, M', data, hasked, htext, hcached.of_bundle rfl⟩
  lkg M' path' hlkg := by
    obtain ⟨rfl, rfl⟩ := Prod.mk.inj (Option.some_inj.mp hlkg)
    exact ⟨_, List.mem_cons_self, rfl⟩
  recorded e he M' path' hop := by
    rcases List.mem_cons.mp he with rfl | he
    · obtain ⟨rfl, rfl⟩ := Op.setLkg.inj hop
      obtain ⟨_, _, data, hasked, hcached⟩ := hpre
      exact ⟨_, _, data, hasked, hcached.bundle, hcached.of_bundle rfl⟩
    · obtain ⟨_, _, data, hasked, hbefore, hcached⟩ := h.recorded e he M' path' hop
      exact ⟨_, _, data, hasked, hbefore, hcached.of_bundle rfl⟩

theorem Kept.step {o : Op} {r : Resp o} (h : Kept sha256 serves dir asked s)
    (hpre : Allowed sha256 serves dir asked s o) (hstep : CalmStep S sha256 serves dir s o r s') :
    Kept sha256 serves dir asked s' := by
  obtain ⟨w', log'⟩ := s'
  obtain ⟨⟨hworld, hlog⟩, hcalm⟩ := hstep
  dsimp only at hworld hlog hcalm
  subst hlog
  cases o with
  | bundleExists path =>
    obtain ⟨rfl, -⟩ := hworld
    exact h.same nofun fun _ => rfl
  | manifestExists path =>
    obtain ⟨rfl, -⟩ := hworld
    exact h.same nofun fun _ => rfl
  | readManifest path =>
    obtain ⟨rfl, -⟩ := hworld
    exact h.same nofun fun _ => rfl
  | pullBundle host repository reference path =>
    rcases r with e | pulled
    · obtain rfl := hworld
      exact h.same nofun fun _ => rfl
    · obtain ⟨hpulls, rfl⟩ := hworld
      exact h.pull hpre.1 hpre.2 hpulls hcalm
  | writeManifest path text =>
    rcases r with e | written
    · obtain rfl := hworld
      exact h.same nofun fun _ => rfl
    · obtain rfl := hworld
      exact h.write hpre
  | setLkg M path =>
    obtain rfl := hworld
    exact h.set hpre
  | lkg =>
    obtain ⟨rfl, -⟩ := hworld
    exact h.same nofun fun _ => rfl

/-! ### What a step says -/

section Steps

variable {t : World × List Performed} {path text : String} {M : BundleManifest} {data : Bytes}

theorem CalmStep.readManifest
    (h : CalmStep S sha256 serves dir s (.readManifest path) (.ok text) t) :
    t.1 = s.1 ∧ s.1.manifests (dir.fileAt path) = some text ∧ ¬Torn dir (dir.fileAt path) s.2 := by
  obtain ⟨⟨⟨hsame, hread⟩, hlog⟩, hcalm⟩ := h
  rw [hlog] at hcalm
  exact ⟨hsame, hread text rfl, hcalm⟩

theorem CalmStep.tried {host : Host} {repository reference : String}
    {answer : Except RegistryError (BundleManifest × Bytes)}
    (h : CalmStep S sha256 serves dir s (.pullBundle host repository reference path) answer t) :
    lastTried dir t.2 = some (dir.fileAt path) := by
  rw [h.1.2]
  rfl

theorem CalmStep.pulled {host : Host} {repository reference : String}
    (h : CalmStep S sha256 serves dir s (.pullBundle host repository reference path)
      (.ok (M, data)) t) :
    Pulls S sha256 serves host repository reference M data ∧
      t.1.bundles (dir.fileAt path) = some data := by
  obtain ⟨⟨⟨hpulls, hworld⟩, -⟩, -⟩ := h
  refine ⟨hpulls, ?_⟩
  rw [hworld]
  exact Function.update_self ..

theorem CalmStep.written {answer : Except RegistryError Unit}
    (h : CalmStep S sha256 serves dir s (.writeManifest path text) answer t) :
    t.1.bundles = s.1.bundles ∧ lastTried dir t.2 = lastTried dir s.2 := by
  obtain ⟨⟨hworld, hlog⟩, -⟩ := h
  rw [hlog]
  refine ⟨?_, rfl⟩
  rcases answer with e | _
  · rw [show t.1 = s.1 from hworld]
  · rw [show t.1 = { s.1 with
      manifests := Function.update s.1.manifests (dir.fileAt path) (some text) } from hworld]

theorem CalmStep.set (h : CalmStep S sha256 serves dir s (.setLkg M path) () t) :
    t.1.bundles = s.1.bundles := by
  rw [show t.1 = { s.1 with lkg := some (M, path) } from h.1.1]

theorem CalmStep.lkg (h : CalmStep S sha256 serves dir s .lkg (some (M, path)) t) :
    t.1 = s.1 ∧ s.1.lkg = some (M, path) ∧ lastTried dir s.2 = some (dir.fileAt path) := by
  obtain ⟨⟨⟨hsame, hanswer⟩, hlog⟩, hcalm⟩ := h
  rw [hlog] at hcalm
  exact ⟨hsame, hanswer.symm, hcalm⟩

end Steps

/-! ## `fetch` -/

theorem Kept.await {ε α : Type} {o : Op} {k : Resp o → Prog Op Resp ε α}
    {Q : α → World × List Performed → Prop} {E : ε → World × List Performed → Prop}
    (h : Kept sha256 serves dir asked s) (hpre : Allowed sha256 serves dir asked s o)
    (hk : ∀ r t, Kept sha256 serves dir asked t → CalmStep S sha256 serves dir s o r t →
      Safe (CalmStep S sha256 serves dir) (Allowed sha256 serves dir asked) (k r) t Q E) :
    Safe (CalmStep S sha256 serves dir) (Allowed sha256 serves dir asked) (.await o k) s Q E :=
  ⟨hpre, fun r t hstep => hk r t (h.step hpre hstep) hstep⟩

/-- What is asked for under different names is kept in different files. -/
def ApartIn (dir : CacheDir) (asked : (repository reference : String) → Prop) : Prop :=
  ∀ {repository reference repository' reference'}, asked repository reference →
    asked repository' reference' →
      dir.cacheFile repository reference = dir.cacheFile repository' reference' →
        repository = repository' ∧ reference = reference'

theorem Kept.cached_eq (h : Kept sha256 serves dir asked s) (hapart : ApartIn dir asked)
    {repository reference text : String} (hasked : asked repository reference)
    (hfile : s.1.manifests (dir.cacheFile repository reference) = some text)
    (hnot : ¬Torn dir (dir.cacheFile repository reference) s.2) :
    ∃ M data, text = M.dumps ∧ Cached sha256 serves dir s.1
      (dir.cacheFile repository reference) repository reference M data := by
  obtain ⟨_, _, M, data, hasked', htext, hcached⟩ := h.manifest _ _ hfile hnot
  obtain ⟨rfl, rfl⟩ := hapart hasked' hasked hcached.file_eq
  exact ⟨M, data, htext, hcached⟩

section Fetch

variable {repository reference now : String} {useCache : Bool}
variable (hapart : ApartIn dir asked) (hasked : asked repository reference)

open BundleDistributionService

def Fetched (sha256 : Bytes → String) (serves : Serves) (dir : CacheDir)
    (repository reference : String) (M : BundleManifest) (path : String)
    (t : World × List Performed) : Prop :=
  ∃ data, Cached sha256 serves dir t.1 (dir.fileAt path) repository reference M data

include hapart hasked in
theorem safe_cached (h : Kept sha256 serves dir asked s) :
    Safe (CalmStep S sha256 serves dir) (Allowed sha256 serves dir asked)
      (cached (dir.cachePath repository reference) useCache now) s
      (fun found t => Kept sha256 serves dir asked t ∧ ∀ M, found = some M →
        Fetched sha256 serves dir repository reference M (dir.cachePath repository reference) t)
      (fun _ t => Kept sha256 serves dir asked t) := by
  unfold cached
  split_ifs with huse
  · exact ⟨h, nofun⟩
  · refine h.await trivial fun found t ht _ => ?_
    rcases found with _ | _
    · exact ⟨ht, nofun⟩
    · refine ht.await trivial fun found u hu _ => ?_
      rcases found with _ | _
      · exact ⟨hu, nofun⟩
      · refine hu.await trivial fun answer v hv hstep => ?_
        rcases answer with e | text
        · exact hv
        · obtain ⟨hsame, hread, hnot⟩ := hstep.readManifest
          -- The files are not torn, so the manifest file is that of the bundle
          obtain ⟨M, data, rfl, hcached⟩ := hu.cached_eq hapart hasked hread hnot
          dsimp only [Prog.bind]
          rw [readDumps_dumps now hcached.dumpable]
          refine ⟨hv, fun M' hM' => ?_⟩
          obtain rfl := Option.some_inj.mp hM'
          exact ⟨data, hcached.of_bundle (congrFun (congrArg World.bundles hsame) _)⟩

include hasked in
theorem safe_pullAndCache {host : Host} (h : Kept sha256 serves dir asked s) :
    Safe (CalmStep S sha256 serves dir) (Allowed sha256 serves dir asked)
      (pullAndCache host repository reference (dir.cachePath repository reference)) s
      (fun M t => Kept sha256 serves dir asked t ∧
        Fetched sha256 serves dir repository reference M (dir.cachePath repository reference) t)
      (fun _ t => Kept sha256 serves dir asked t ∧
        lastTried dir t.2 = some (dir.cacheFile repository reference)) := by
  refine h.await ⟨hasked, rfl⟩ fun answer t ht hstep => ?_
  have htried : lastTried dir t.2 = some (dir.cacheFile repository reference) := hstep.tried
  rcases answer with e | pulled
  · exact ⟨ht, htried⟩
  · obtain ⟨M, data⟩ := pulled
    obtain ⟨hpulls, hbundle⟩ := hstep.pulled
    have hcached : Cached sha256 serves dir t.1 (dir.cacheFile repository reference)
        repository reference M data := ⟨rfl, hpulls.served.1, hbundle, hpulls.served.2⟩
    refine ht.await ⟨_, _, M, data, hasked, rfl, hcached⟩ fun answer u hu hstep => ?_
    obtain ⟨hbundles, hlast⟩ := hstep.written
    rcases answer with e | written
    · exact ⟨hu, hlast.trans htried⟩
    · exact ⟨hu, data, hcached.of_bundle (congrFun hbundles _)⟩

include hasked in
theorem safe_pullPrimary {host : Host} (h : Kept sha256 serves dir asked s) :
    Safe (CalmStep S sha256 serves dir) (Allowed sha256 serves dir asked)
      (pullPrimary host repository reference (dir.cachePath repository reference)) s
      (fun M t => Kept sha256 serves dir asked t ∧
        Fetched sha256 serves dir repository reference M (dir.cachePath repository reference) t)
      (fun _ t => Kept sha256 serves dir asked t ∧
        lastTried dir t.2 = some (dir.cacheFile repository reference)) := by
  refine (safe_bind _ _).mpr ((safe_pullAndCache hasked h).mono ?_ fun _ _ => id)
  rintro M t ⟨ht, data, hcached⟩
  refine ht.await ⟨_, _, data, hasked, hcached⟩ fun _ u hu hstep => ⟨hu, data, ?_⟩
  exact hcached.of_bundle (congrFun hstep.set _)

include hasked in
theorem safe_tryFallbacks {hosts : List Host} (h : Kept sha256 serves dir asked s)
    (htried : lastTried dir s.2 = some (dir.cacheFile repository reference)) :
    Safe (CalmStep S sha256 serves dir) (Allowed sha256 serves dir asked)
      (tryFallbacks repository reference (dir.cachePath repository reference) hosts) s
      (fun found t => Kept sha256 serves dir asked t ∧
        (found = none → lastTried dir t.2 = some (dir.cacheFile repository reference)) ∧
        ∀ M, found = some M → Fetched sha256 serves dir repository reference M
          (dir.cachePath repository reference) t)
      (fun _ t => Kept sha256 serves dir asked t) := by
  induction hosts generalizing s with
  | nil => exact ⟨h, fun _ => htried, nofun⟩
  | cons host rest ih =>
    refine (safe_bind _ _).mpr ((safe_attempt _).mpr ((safe_pullAndCache hasked h).mono ?_ ?_))
    · rintro M t ⟨ht, hfetched⟩
      refine ⟨ht, nofun, fun M' hM' => ?_⟩
      obtain rfl := Option.some_inj.mp hM'
      exact hfetched
    · rintro e t ⟨ht, htried⟩
      exact ih ht htried

include hapart hasked in
/-- **`fetch` returns what was asked for.** -/
theorem safe_fetch (D : BundleDistributionService) (hdir : D.cacheDir = dir)
    (h : Kept sha256 serves dir asked s) :
    Safe (CalmStep S sha256 serves dir) (Allowed sha256 serves dir asked)
      (D.fetch repository reference useCache now) s
      (fun found t => ∀ M path, found = (M, path) →
        Fetched sha256 serves dir repository reference M path t)
      (fun _ _ => True) := by
  subst hdir
  unfold fetch
  dsimp only
  split_ifs with hholds
  · exact trivial
  · refine (safe_bind _ _).mpr ((safe_cached hapart hasked h).mono ?_ fun _ _ _ => trivial)
    rintro found t ⟨ht, hfound⟩
    cases found with
    | some M =>
      rintro M' path' ⟨⟩
      exact hfound M rfl
    | none =>
      refine (safe_bind _ _).mpr ((safe_attempt _).mpr ((safe_pullPrimary hasked ht).mono ?_ ?_))
      · rintro M u ⟨-, hfetched⟩
        rintro M' path' ⟨⟩
        exact hfetched
      · rintro e u ⟨hu, htried⟩
        refine (safe_bind _ _).mpr
          ((safe_tryFallbacks hasked hu htried).mono ?_ fun _ _ _ => trivial)
        rintro found v ⟨hv, hlast, hfound⟩
        cases found with
        | some M =>
          rintro M' path' ⟨⟩
          exact hfound M rfl
        | none =>
          refine hv.await trivial fun answer w hw hstep => ?_
          rcases answer with _ | found
          · exact trivial
          · obtain ⟨M, path⟩ := found
            obtain ⟨hsame, hlkg, htried⟩ := hstep.lkg
            -- The last-known-good bundle is in the file that was asked for
            have hfile : D.cacheDir.cacheFile repository reference = D.cacheDir.fileAt path :=
              Option.some_inj.mp ((hlast rfl).symm.trans htried)
            obtain ⟨e, he, hop⟩ := hv.lkg M path hlkg
            obtain ⟨_, _, data, hother, -, hcached⟩ := hv.recorded e he M path hop
            obtain ⟨rfl, rfl⟩ := hapart hother hasked (hcached.file_eq.trans hfile.symm)
            rintro M' path' ⟨⟩
            exact ⟨data, hcached.of_bundle (congrFun (congrArg World.bundles hsame) _)⟩

end Fetch

end Invariant

/-! ## Whole runs -/

section Whole

variable {S : Ed25519} {sha256 : Bytes → String} {serves : Serves}
variable {D : BundleDistributionService} {calls : List Call} {s : World × List Performed}

def Asked (calls : List Call) (repository reference : String) : Prop :=
  ∃ c ∈ calls, c.repository = repository ∧ c.reference = reference

theorem Apart.apartIn {dir : CacheDir} (h : Apart dir calls) : ApartIn dir (Asked calls) := by
  rintro _ _ _ _ ⟨c, hc, rfl, rfl⟩ ⟨c', hc', rfl, rfl⟩ heq
  exact h c hc c' hc' heq

theorem apart_of_plain {dir : CacheDir}
    (h : ∀ c ∈ calls, '/' ∉ c.reference.toList ∧ '_' ∉ c.reference.toList ∧
      '_' ∉ c.repository.toList) : Apart dir calls := by
  intro c hc c' hc' heq
  obtain ⟨hslash, hreference, hrepository⟩ := h c hc
  obtain ⟨hslash', hreference', hrepository'⟩ := h c' hc'
  refine eq_of_cacheFile_eq hslash hslash' ?_ heq
  simp only [List.forall_mem_cons]
  exact ⟨hrepository, hreference, hrepository', hreference', nofun⟩

theorem Run.kept (hrun : Run S sha256 serves D calls s) (hapart : Apart D.cacheDir calls)
    (hcalm : Throughout (Calm D.cacheDir) s.2) :
    Kept sha256 serves D.cacheDir (Asked calls) s ∧
      ∀ c rest, calls = c :: rest → ∀ M path, c.outcome = .returned (M, path) →
        Fetched sha256 serves D.cacheDir c.repository c.reference M path s := by
  induction hrun with
  | start => exact ⟨.start, nofun⟩
  | @fetch calls s s' c _ hexec ih =>
    have hearlier : Apart D.cacheDir calls := fun d hd d' hd' =>
      hapart d (List.mem_cons_of_mem c hd) d' (List.mem_cons_of_mem c hd')
    obtain ⟨hkept, -⟩ := ih hearlier (hcalm.of_suffix hexec.log_mono)
    have hmore : Kept sha256 serves D.cacheDir (Asked (c :: calls)) s := by
      refine hkept.mono fun ⟨d, hd, hname⟩ => ?_
      exact ⟨d, List.mem_cons_of_mem c hd, hname⟩
    have hsafe : Safe (CalmStep S sha256 serves D.cacheDir)
        (Allowed sha256 serves D.cacheDir (Asked (c :: calls)))
        (D.fetch c.repository c.reference c.useCache c.now) s
        (fun found t => ∀ M path, found = (M, path) →
          Fetched sha256 serves D.cacheDir c.repository c.reference M path t) (fun _ _ => True) :=
      safe_fetch hapart.apartIn ⟨c, List.mem_cons_self, rfl, rfl⟩ D rfl hmore
    refine ⟨(hexec.along hcalm).invariant (fun t o r t' ht => ht.step) hmore hsafe, ?_⟩
    rintro c' rest ⟨⟩ M path hreturned
    have hexec := hexec.along hcalm
    rw [hreturned] at hexec
    exact hexec.returned hsafe M path rfl
  | restart _ ih =>
    obtain ⟨hkept, hlatest⟩ := ih hapart hcalm
    refine ⟨hkept.restart, fun c rest hc M path hreturned => ?_⟩
    obtain ⟨data, hcached⟩ := hlatest c rest hc M path hreturned
    exact ⟨data, hcached.of_bundle rfl⟩

/-- **Fetching bundles.**  With SHA-256 injective, for a service and what the hosts serve:

* references without separators share a cache file exactly if their repositories and they are the
  same once flattened;
* names without underscores, and references without separators, are kept apart;
* a host answers a reference with one manifest and one bundle;
* in every run whose names are kept apart, and in which no pull replaces the bytes of a file that
  has been last-known-good, no cache hit meets torn files, and no bundle is returned as
  last-known-good from another file than the one asked for, what was fetched is what was asked
  for. -/
theorem fetchedBundles (S : Ed25519) (sha256 : Bytes → String)
    (hsha : Function.Injective sha256) (serves : Serves) (D : BundleDistributionService) :
    (∀ repository reference repository' reference' : String,
      '/' ∉ reference.toList → '/' ∉ reference'.toList →
        (D.cacheDir.cacheFile repository reference = D.cacheDir.cacheFile repository' reference' ↔
          flatten repository ++ "_" ++ reference = flatten repository' ++ "_" ++ reference')) ∧
      (∀ calls : List Call,
        (∀ c ∈ calls, '/' ∉ c.reference.toList ∧ '_' ∉ c.reference.toList ∧
          '_' ∉ c.repository.toList) → Apart D.cacheDir calls) ∧
      (∀ (host : Host) (repository reference : String) (M M' : BundleManifest)
        (data data' : Bytes), Pulls S sha256 serves host repository reference M data →
          Pulls S sha256 serves host repository reference M' data' → M = M' ∧ data = data') ∧
      ∀ (calls : List Call) (s : World × List Performed), Run S sha256 serves D calls s →
        Apart D.cacheDir calls → Throughout (Calm D.cacheDir) s.2 →
          FetchSound sha256 serves D calls s := by
  refine ⟨fun _ _ _ _ => cacheFile_eq_iff, fun _ => apart_of_plain, fun _ _ _ _ _ _ _ h h' => ?_,
    fun calls s hrun hapart hcalm => ?_⟩
  · exact h.unique hsha h'
  · obtain ⟨hkept, hlatest⟩ := hrun.kept hapart hcalm
    constructor
    · intro c rest hc M path hreturned
      obtain ⟨data, hcached⟩ := hlatest c rest hc M path hreturned
      exact ⟨data, hcached.bundle, hcached.served⟩
    · intro e he M path hop
      obtain ⟨repository, reference, data, -, hbefore, hcached⟩ := hkept.recorded e he M path hop
      exact ⟨data, hbefore, hcached.bundle, repository, reference, hcached.served⟩

end Whole

/-! ### Two repositories with one file -/

/-- One registry, with a bundle for the repository `a/b` and another for every other one. -/
def policyBundle (repository : String) : Bytes := if repository = "a/b" then [1, 2, 3] else [4, 5, 6]

def policyServes : Serves := fun _ repository reference =>
  some (ociManifest plainDigest repository reference (policyBundle repository)
    (policyManifest ["acgs/governance"]))

def distribution : BundleDistributionService where
  primary := "registry.internal"
  fallbacks := []
  cacheDir := { cwd := ["srv"], path := "runtime/bundle_cache" }

def policyPulled : BundleManifest := (policyManifest ["acgs/governance"]).rebuilt

/-- Where the bundle of `a/b` is cached. -/
def policyPath : String := distribution.cacheDir.cachePath "a/b" "v1"

def policyFile : File := distribution.cacheDir.fileAt policyPath

/-- The bundle of `a/b` has been pulled. -/
def pulledWorld : World where
  bundles := Function.update (fun _ => none) policyFile (some [1, 2, 3])

def cachedWorld : World :=
  { pulledWorld with
    manifests := Function.update (fun _ => none) policyFile (some policyPulled.dumps) }

def fetchedWorld : World := { cachedWorld with lkg := some (policyPulled, policyPath) }

/-- The bundle of `a/b` has been fetched from the registry. -/
def afterFirst : World × List Performed :=
  (fetchedWorld,
    [⟨cachedWorld, .setLkg policyPulled policyPath, ()⟩,
      ⟨pulledWorld, .writeManifest policyPath policyPulled.dumps, .ok ()⟩,
      ⟨{}, .pullBundle "registry.internal" "a/b" "v1" policyPath, .ok (policyPulled, [1, 2, 3])⟩,
      ⟨{}, .bundleExists policyPath, false⟩])

def firstCall : Call where
  repository := "a/b"
  reference := "v1"
  useCache := true
  now := "2026-01-01T00:00:00+00:00"
  outcome := .returned (policyPulled, policyPath)

theorem policyPath_holds : distribution.cacheDir.holds policyPath = true := by decide +kernel

theorem policyPath_shared : distribution.cacheDir.cachePath "a_b" "v1" = policyPath := by
  decide +kernel

theorem run_first :
    Run plainSignatures plainDigest policyServes distribution [firstCall] afterFirst := by
  refine .fetch firstCall .start ?_
  have hpulls : Pulls plainSignatures plainDigest policyServes "registry.internal" "a/b" "v1"
      policyPulled [1, 2, 3] := by
    refine ⟨holding (ociManifest plainDigest "a/b" "v1" [1, 2, 3]
      (policyManifest ["acgs/governance"])) [1, 2, 3], fun _ => id, ?_⟩
    exact (pullBundle_pushed rfl (holds_holding _ _)).mpr ⟨rfl, rfl, rfl⟩
  show Exec _ (BundleDistributionService.fetch distribution "a/b" "v1" true _) _ _ _
  rw [BundleDistributionService.fetch, ← policyPath, policyPath_holds]
  refine .await_traced (r := false) ⟨rfl, nofun⟩ ?_
  have hpull : Step plainSignatures plainDigest policyServes distribution.cacheDir {}
      (.pullBundle "registry.internal" "a/b" "v1" policyPath) (.ok (policyPulled, [1, 2, 3]))
      pulledWorld := ⟨hpulls, rfl⟩
  have hwrite : Step plainSignatures plainDigest policyServes distribution.cacheDir pulledWorld
      (.writeManifest policyPath policyPulled.dumps) (.ok ()) cachedWorld := rfl
  exact .await_traced hpull (.await_traced hwrite (.await_traced (r := ()) rfl (.done _ _)))

theorem calm_afterFirst : Throughout (Calm distribution.cacheDir) afterFirst.2 := by
  refine ⟨trivial, trivial, fun e he M path hop => ?_, trivial, trivial⟩
  obtain rfl := List.mem_singleton.mp he
  cases hop

/-- The theorem at one fetch. -/
theorem fetchedBundles_afterFirst :
    FetchSound plainDigest policyServes distribution [firstCall] afterFirst := by
  refine (fetchedBundles plainSignatures plainDigest plainDigest_injective policyServes
    distribution).2.2.2 _ _ run_first ?_ calm_afterFirst
  refine fun c hc c' hc' _ => ?_
  obtain rfl := List.mem_singleton.mp hc
  obtain rfl := List.mem_singleton.mp hc'
  exact ⟨rfl, rfl⟩

/-- Another repository, the name of which is the same once flattened. -/
def secondCall : Call := { firstCall with repository := "a_b" }

def afterSecond : World × List Performed :=
  (fetchedWorld,
    ⟨fetchedWorld, .readManifest policyPath, .ok policyPulled.dumps⟩ ::
      ⟨fetchedWorld, .manifestExists policyPath, true⟩ ::
        ⟨fetchedWorld, .bundleExists policyPath, true⟩ :: afterFirst.2)

theorem fetchedWorld_bundle : fetchedWorld.bundles policyFile = some [1, 2, 3] := by
  simp only [fetchedWorld, cachedWorld, pulledWorld, Function.update_self]

theorem fetchedWorld_manifest :
    fetchedWorld.manifests policyFile = some policyPulled.dumps := by
  simp only [fetchedWorld, cachedWorld, Function.update_self]

theorem exec_cached {S : Ed25519} {sha256 : Bytes → String} {serves : Serves} {dir : CacheDir}
    {w : World} {log : List Performed} {path text now : String} {M : BundleManifest}
    (hbundle : (w.bundles (dir.fileAt path)).isSome)
    (hmanifest : w.manifests (dir.fileAt path) = some text) (hread : readDumps now text = .ok M) :
    Exec (traced (Step S sha256 serves dir)) (BundleDistributionService.cached path true now)
      (w, log) (.returned (some M))
      (w, ⟨w, .readManifest path, .ok text⟩ :: ⟨w, .manifestExists path, true⟩ ::
        ⟨w, .bundleExists path, true⟩ :: log) := by
  refine .await_traced (r := true) ⟨rfl, fun _ => hbundle⟩ ?_
  refine .await_traced (r := true) ⟨rfl, fun _ => Option.isSome_of_eq_some hmanifest⟩ ?_
  refine .await_traced (r := .ok text) ⟨rfl, fun text' htext => ?_⟩ ?_
  · rw [← Except.ok.inj htext]
    exact hmanifest
  · dsimp only [Prog.bind]
    rw [hread]
    exact .done _ _

theorem run_second : Run plainSignatures plainDigest policyServes distribution
    [secondCall, firstCall] afterSecond := by
  refine .fetch secondCall run_first ?_
  show Exec _ (BundleDistributionService.fetch distribution "a_b" "v1" true firstCall.now) _ _ _
  rw [BundleDistributionService.fetch, policyPath_shared, policyPath_holds]
  refine Exec.bind (exec_cached (Option.isSome_of_eq_some fetchedWorld_bundle)
    fetchedWorld_manifest ?_) (.done _ _)
  exact readDumps_dumps firstCall.now ⟨rfl, rfl⟩

/-- The bundle of `a/b` is returned for `a_b`, which has the same cache file. -/
theorem secondCall_not_sound :
    Run plainSignatures plainDigest policyServes distribution [secondCall, firstCall] afterSecond ∧
      distribution.cacheDir.cacheFile "a_b" "v1" = distribution.cacheDir.cacheFile "a/b" "v1" ∧
        ¬FetchSound plainDigest policyServes distribution [secondCall, firstCall] afterSecond := by
  refine ⟨run_second, congrArg distribution.cacheDir.fileAt policyPath_shared, fun h => ?_⟩
  obtain ⟨data, hdata, host, oci, primary, rest, hserved, hlayers, -, hof⟩ :=
    h.asked _ _ rfl _ _ rfl
  have hbundle : policyBundle "a_b" = [4, 5, 6] := if_neg (by decide)
  dsimp only [policyServes, secondCall, firstCall] at hserved
  rw [hbundle, Option.some_inj] at hserved
  subst hserved
  have hother : OfLayers plainDigest
      (ociManifest plainDigest "a_b" "v1" [4, 5, 6] (policyManifest ["acgs/governance"])).layers
      [4, 5, 6] := ⟨[4, 5, 6], [], rfl, rfl, rfl⟩
  have hbytes := hof.unique plainDigest_injective hother rfl
  have hcached : fetchedWorld.bundles policyFile = some data := hdata
  rw [hbytes, fetchedWorld_bundle] at hcached
  exact absurd hcached (by decide)

end EnhancedAgentBus.BundleRegistry
