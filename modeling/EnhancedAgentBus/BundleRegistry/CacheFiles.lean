import EnhancedAgentBus.BundleRegistry.Manifest

/-!
# Cache files

The files of a cache directory: where `fetch` keeps the bundle of a repository and a reference, and
what it writes beside it.

A file is known by the components of its resolved path.  `resolve_cachePath` says where a bundle is
kept when its reference has no separator, so which names share a file (`cacheFile_eq_iff`): the
separators of the repository have become underscores, and one more underscore joins the reference.
The manifest of a bundle is kept under the same name with a suffix; that file is known by the
bundle's, since a name that ends in `.tar.gz` is not one that ends in `.manifest.json`.
-/

namespace EnhancedAgentBus.BundleRegistry

open JsonText

/-! ## Paths -/

abbrev File := List String

def enter (dir : File) (component : String) : File :=
  if component = "" ∨ component = "." then dir
  else if component = ".." then dir.dropLast
  else dir ++ [component]

/-- `Path(path).resolve()` in a working directory, where no component is a symbolic link. -/
def resolve (cwd : File) (path : String) : File :=
  ((path.toList.splitOn '/').map String.ofList).foldl enter
    (if path.toList.head? = some '/' then [] else cwd)

/-- `os.path.join` -/
def joinPath (dir name : String) : String :=
  if name.toList.head? = some '/' then name
  else if dir.toList.getLast? = some '/' ∨ dir = "" then dir ++ name
  else dir ++ "/" ++ name

/-- `repository.replace("/", "_")` -/
def flatten (repository : String) : String :=
  String.ofList (repository.toList.map fun c => if c = '/' then '_' else c)

def cacheName (repository reference : String) : String :=
  flatten repository ++ "_" ++ reference ++ ".tar.gz"

/-- `cache_dir`, which `os.makedirs` has made, in a working directory. -/
structure CacheDir where
  cwd : File
  path : String
  path_ne : path ≠ "" := by decide

namespace CacheDir

variable (dir : CacheDir)

def cachePath (repository reference : String) : String :=
  joinPath dir.path (cacheName repository reference)

def fileAt (path : String) : File := resolve dir.cwd path

def cacheFile (repository reference : String) : File :=
  dir.fileAt (dir.cachePath repository reference)

/-- `resolved.is_relative_to(cache_base)` -/
def holds (path : String) : Bool := (dir.fileAt dir.path).isPrefixOf (dir.fileAt path)

end CacheDir

/-! ### Which names share a file -/

section Shared

variable {dir : CacheDir} {repository repository' reference reference' : String}

theorem slash_notMem_flatten (repository : String) : '/' ∉ (flatten repository).toList := by
  rw [flatten, String.toList_ofList, List.mem_map]
  rintro ⟨c, -, hc⟩
  split_ifs at hc with heq
  · cases hc
  · exact heq hc

theorem flatten_inj (h : '_' ∉ repository.toList) (h' : '_' ∉ repository'.toList)
    (heq : flatten repository = flatten repository') : repository = repository' := by
  have hback {name : String} (hname : '_' ∉ name.toList) :
      (flatten name).toList.map (fun c => if c = '_' then '/' else c) = name.toList := by
    rw [flatten, String.toList_ofList, List.map_map]
    refine (List.map_congr_left fun c hc => ?_).trans (List.map_id _)
    have hne : c ≠ '_' := fun hc' => hname (hc' ▸ hc)
    show (if (if c = '/' then '_' else c) = '_' then '/' else if c = '/' then '_' else c) = c
    by_cases hslash : c = '/'
    · rw [if_pos hslash, if_pos rfl, hslash]
    · rw [if_neg hslash, if_neg hne]
  apply String.toList_injective
  rw [← hback h, ← hback h', heq]

theorem cacheName_toList (repository reference : String) :
    (cacheName repository reference).toList =
      (flatten repository).toList ++ '_' :: (reference.toList ++ ".tar.gz".toList) := by
  simp [cacheName, String.toList_append]

theorem slash_notMem_cacheName (h : '/' ∉ reference.toList) :
    '/' ∉ (cacheName repository reference).toList := by
  rw [cacheName_toList]
  simp only [List.mem_append, List.mem_cons, not_or]
  exact ⟨slash_notMem_flatten repository, by decide, h, by decide⟩

theorem resolve_child {cwd : File} {path name : String} (hpath : path.toList ≠ [])
    (hname : '/' ∉ name.toList) :
    resolve cwd (path ++ "/" ++ name) = enter (resolve cwd path) name := by
  have hlist : (path ++ "/" ++ name).toList = path.toList ++ '/' :: name.toList := by
    rw [String.toList_append, String.toList_append, List.append_assoc]
    rfl
  have hstart : (path.toList ++ '/' :: name.toList).head? = path.toList.head? := by
    rw [List.head?_append, Option.or_of_isSome (List.isSome_head?.mpr hpath)]
  unfold resolve
  rw [hlist, hstart, List.splitOn_append_cons_self, List.splitOn_eq_singleton hname,
    List.map_append, List.foldl_append, List.map_singleton, List.foldl_cons, List.foldl_nil,
    String.ofList_toList]

theorem resolve_child_of_slash {cwd : File} {path name : String}
    (hpath : path.toList.getLast? = some '/') (hname : '/' ∉ name.toList) :
    resolve cwd (path ++ name) = enter (resolve cwd path) name := by
  obtain ⟨init, hinit⟩ := List.getLast?_eq_some_iff.mp hpath
  have hlist : (path ++ name).toList = init ++ '/' :: name.toList := by
    rw [String.toList_append, hinit, List.append_assoc, List.singleton_append]
  have hstart : (init ++ '/' :: name.toList).head? = (init ++ ['/']).head? := by
    rcases init with _ | ⟨c, init⟩
    · rfl
    · rfl
  unfold resolve
  rw [hlist, hinit, hstart, List.splitOn_append_cons_self, List.splitOn_append_cons_self,
    List.splitOn_eq_singleton hname, List.map_append, List.map_append, List.foldl_append,
    List.foldl_append, List.map_singleton, List.foldl_cons, List.foldl_nil, String.ofList_toList]
  rfl

theorem enter_cacheName (base : File) :
    enter base (cacheName repository reference) = base ++ [cacheName repository reference] := by
  have hlast : (cacheName repository reference).toList.getLast? = some 'z' := by
    rw [cacheName_toList, ← List.cons_append, ← List.append_assoc, List.getLast?_append]
    rfl
  rw [enter, if_neg, if_neg]
  · intro heq
    rw [heq] at hlast
    exact absurd hlast (by decide)
  · rintro (heq | heq)
    · rw [heq] at hlast
      exact absurd hlast (by decide)
    · rw [heq] at hlast
      exact absurd hlast (by decide)

theorem cacheFile_eq (h : '/' ∉ reference.toList) :
    dir.cacheFile repository reference =
      dir.fileAt dir.path ++ [cacheName repository reference] := by
  have hslash : '/' ∉ (cacheName repository reference).toList := slash_notMem_cacheName h
  have hhead : (cacheName repository reference).toList.head? ≠ some '/' := fun hhead =>
    hslash (List.mem_of_head? hhead)
  have hne : dir.path.toList ≠ [] := fun hnil => dir.path_ne (String.toList_eq_nil_iff.mp hnil)
  rw [← enter_cacheName, CacheDir.cacheFile, CacheDir.cachePath, CacheDir.fileAt, joinPath,
    if_neg hhead]
  split_ifs with hend
  · exact resolve_child_of_slash (hend.resolve_right dir.path_ne) hslash
  · exact resolve_child hne hslash

/-- **Which names share a file**, for references without a separator. -/
theorem cacheFile_eq_iff (h : '/' ∉ reference.toList) (h' : '/' ∉ reference'.toList) :
    dir.cacheFile repository reference = dir.cacheFile repository' reference' ↔
      flatten repository ++ "_" ++ reference = flatten repository' ++ "_" ++ reference' := by
  rw [cacheFile_eq h, cacheFile_eq h', List.append_cancel_left_eq, List.singleton_inj, cacheName,
    cacheName, String.append_left_inj]

theorem eq_of_cacheFile_eq (h : '/' ∉ reference.toList) (h' : '/' ∉ reference'.toList)
    (hunder : ∀ name ∈ [repository, reference, repository', reference'], '_' ∉ name.toList)
    (heq : dir.cacheFile repository reference = dir.cacheFile repository' reference') :
    repository = repository' ∧ reference = reference' := by
  simp only [List.forall_mem_cons] at hunder
  obtain ⟨hrepository, hreference, hrepository', hreference', -⟩ := hunder
  have hnames := congrArg String.toList ((cacheFile_eq_iff h h').mp heq)
  simp only [String.toList_append, List.append_assoc] at hnames
  have hunique := congrArg (fun name : List Char => (name.reverse.splitOn '_').head?) hnames
  have hhead {name reference : String} (hreference : '_' ∉ reference.toList) :
      ((name.toList ++ ("_".toList ++ reference.toList)).reverse.splitOn '_').head? =
        some reference.toList.reverse := by
    rw [List.reverse_append, List.reverse_append, List.append_assoc]
    show ((reference.toList.reverse ++ '_' :: name.toList.reverse).splitOn '_').head? = _
    rw [List.splitOn_append_cons_self_of_not_mem (by rwa [List.mem_reverse])]
    rfl
  beta_reduce at hunique
  rw [hhead hreference, hhead hreference', Option.some_inj, List.reverse_inj] at hunique
  rw [hunique, List.append_cancel_right_eq] at hnames
  exact ⟨flatten_inj hrepository hrepository' (String.toList_injective hnames),
    String.toList_injective hunique⟩

end Shared

/-! ## The manifest file -/

namespace BundleManifest

/-- `json.dumps(manifest.to_dict())` -/
def dumps (M : BundleManifest) : String := String.ofList (write compact 0 (.obj M.toDict))

/-- A text or `None`. -/
def readTimestamp : Json → Option (Option String)
  | .null => some none
  | .str text => some (some text)
  | _ => none

def readRoots : List Json → Option (List String)
  | [] => some []
  | .str root :: rest => (readRoots rest).map (root :: ·)
  | _ :: _ => none

/-- `data[key]` -/
def member (key : String) (data : JSONDict) : Except RegistryError Json :=
  match Json.lookup key data with
  | none => .error (.python "KeyError")
  | some value => .ok value

/-- `from_dict`, at a time.  Python keeps a member of any type; here one of another type than
`to_dict` writes is refused. -/
def fromDict (now : String) (data : JSONDict) : Except RegistryError BundleManifest := do
  let version ← member "version" data
  let revision ← member "revision" data
  let hash := (Json.lookup "constitutional_hash" data).getD (.str BundleRegistry.constitutionalHash)
  let timestamp := (Json.lookup "timestamp" data).getD (.str now)
  let roots := (Json.lookup "roots" data).getD (.arr [])
  let signatures := (Json.lookup "signatures" data).getD (.arr [])
  let metadata := (Json.lookup "metadata" data).getD (.obj [])
  match version, revision, hash, readTimestamp timestamp, roots, metadata with
  | .str version, .str revision, .str hash, some timestamp, .arr roots, .obj metadata =>
    match readRoots roots with
    | none => .error (.python "TypeError")
    | some roots =>
      if h : hash = BundleRegistry.constitutionalHash then
        .ok { version := version, revision := revision, constitutionalHash := hash
              timestamp := timestamp, roots := roots, signatures := signatures
              metadata := metadata, hash_eq := h }
      else .error (.bus "BUNDLE_HASH_MISMATCH")
  | _, _, _, _, _, _ => .error (.python "TypeError")

/-- `from_dict(json.loads(text))`, at a time. -/
def readDumps (now text : String) : Except RegistryError BundleManifest :=
  match loads text.toList with
  | none => .error (.python "JSONDecodeError")
  | some (.obj data) => fromDict now data
  | some _ => .error (.python "TypeError")

theorem readTimestamp_jsonOf (timestamp : Option String) :
    readTimestamp (jsonOf timestamp) = some timestamp := by
  rcases timestamp with _ | text
  · rfl
  · rfl

theorem readRoots_map (roots : List String) : readRoots (roots.map .str) = some roots := by
  induction roots with
  | nil => rfl
  | cons root roots ih => rw [List.map_cons, readRoots, ih, Option.map_some]

theorem fromDict_toDict (now : String) (M : BundleManifest) : fromDict now M.toDict = .ok M := by
  obtain ⟨version, revision, hash, timestamp, roots, signatures, metadata, hhash⟩ := M
  subst hhash
  have htimestamp := readTimestamp_jsonOf timestamp
  have hroots := readRoots_map roots
  show (match Json.str version, Json.str revision, Json.str BundleRegistry.constitutionalHash,
      readTimestamp (jsonOf timestamp), Json.arr (roots.map .str), Json.obj metadata with
    | .str version, .str revision, .str hash, some timestamp, .arr roots, .obj metadata => _
    | _, _, _, _, _, _ => _) = _
  simp only [htimestamp, hroots]
  rfl

theorem dumpable_toDict {M : BundleManifest} (h : M.Dumpable) :
    dumpable (.obj M.toDict) = true := by
  rw [dumpable, Bool.and_eq_true]
  refine ⟨?_, (dumpableMembers_iff _).mpr fun m hm => ?_⟩
  · show decide (["version", "revision", "timestamp", "constitutional_hash", "roots", "signatures",
      "metadata"].Nodup) = true
    decide
  · simp only [toDict, List.mem_cons, List.not_mem_nil, or_false] at hm
    rcases hm with rfl | rfl | rfl | rfl | rfl | rfl | rfl
    · rfl
    · rfl
    · exact dumpable_jsonOf _
    · rfl
    · exact dumpable_strs _
    · exact h.signatures
    · exact h.metadata

theorem readDumps_dumps (now : String) {M : BundleManifest} (h : M.Dumpable) :
    readDumps now M.dumps = .ok M := by
  have hloads := loads_write compact (dumpable_toDict h)
  rw [readDumps, dumps, String.toList_ofList]
  simp only [hloads, fromDict_toDict]

end BundleManifest

end EnhancedAgentBus.BundleRegistry
