import EnhancedAgentBus.BundleRegistry.Manifest

/-!
# The registry client

`push_bundle` and `pull_bundle` of `OCIRegistryClient`.  A registry is what it answers: a manifest
under a repository and a reference, and a blob under a digest (`Registry`); what it does not answer,
for whatever reason, is `none`.

Three sets of fields meet here: what a bundle manifest signs, what `push_bundle` writes into the OCI
manifest, and what `pull_bundle` rebuilds from it.  `pullBundle_pushed` is the round trip: what comes
back is `BundleManifest.rebuilt`, with the default roots and no metadata.
-/

namespace EnhancedAgentBus.BundleRegistry

open JsonText

abbrev Bytes := List UInt8

/-! ## OCI manifests -/

/-- One of the `layers` of an OCI manifest, with its annotations. -/
structure Layer where
  digest : Option String
  size : ℕ
  title : Option String
  constitutionalHash : Option String
  version : Option String
  revision : Option String

structure OciManifest where
  configDigest : String
  configSize : ℕ
  layers : List Layer
  /-- the annotation `org.opencontainers.image.created` -/
  created : Option String
  /-- the annotation `io.acgs.signatures` -/
  signatures : Option String

structure Registry where
  manifest : (repository reference : String) → Option OciManifest
  blob : (repository digest : String) → Option Bytes

namespace OCIRegistryClient

variable (S : Ed25519) (sha256 : Bytes → String)

def digestOf (data : Bytes) : String := "sha256:" ++ sha256 data

/-! ## `push_bundle` -/

def ociManifest (repository tag : String) (bundle : Bytes) (M : BundleManifest) : OciManifest where
  configDigest := "sha256:" ++ M.computeDigest sha256
  configSize := (write compact 0 (.obj M.toDict)).length
  layers := [{ digest := some (digestOf sha256 bundle), size := bundle.length
               title := some (repository ++ ":" ++ tag)
               constitutionalHash := some BundleRegistry.constitutionalHash
               version := some M.version, revision := some M.revision }]
  created := M.timestamp
  signatures := some (String.ofList (write compact 0 M.signatures))

/-- `push_bundle`, where the registry accepts it and answers with a `Docker-Content-Digest`, or with
none: the digest that is returned, and the OCI manifest that was put. -/
def pushBundle (contentDigest : Option String) (repository tag : String) (bundle : Bytes)
    (M : BundleManifest) : Except RegistryError (String × OciManifest) :=
  if M.constitutionalHash ≠ BundleRegistry.constitutionalHash then
    .error (.bus "BUNDLE_HASH_MISMATCH")
  else .ok (contentDigest.getD (digestOf sha256 bundle), ociManifest sha256 repository tag bundle M)

/-! ## `pull_bundle` -/

def fetchOciManifest (r : Registry) (repository reference : String) :
    Except RegistryError OciManifest :=
  match r.manifest repository reference with
  | none => .error (.python "RuntimeError")
  | some oci => .ok oci

/-- `_extract_manifest_layers`: the layers, of which the first is the primary one. -/
def extractManifestLayers (oci : OciManifest) : Except RegistryError (Layer × List Layer) :=
  match oci.layers with
  | [] => .error (.bus "BUNDLE_NO_LAYERS")
  | primary :: rest => .ok (primary, primary :: rest)

/-- `_build_bundle_manifest`, for a layer with the constitutional hash. -/
def buildBundleManifest (oci : OciManifest) (layer : Layer) :
    Except RegistryError BundleManifest :=
  match loads (oci.signatures.getD "[]").toList with
  | none => .error (.python "JSONDecodeError")
  | some signatures =>
    .ok { version := layer.version.getD "unknown", revision := layer.revision.getD "unknown"
          timestamp := oci.created, signatures := signatures }

/-- `_validate_layer_constitutional_hash`, and `_build_bundle_manifest`. -/
def readManifest (oci : OciManifest) (layer : Layer) : Except RegistryError BundleManifest :=
  if layer.constitutionalHash ≠ some BundleRegistry.constitutionalHash then
    .error (.bus "BUNDLE_HASH_MISMATCH")
  else buildBundleManifest oci layer

/-- `_verify_bundle_signature_if_requested` -/
def verifyIfRequested (M : BundleManifest) : Option String → Except RegistryError Unit
  | none => .ok ()
  | some publicKeyHex =>
    if publicKeyHex = "" then .ok ()
    else match M.verifySignature S publicKeyHex with
      | .error e => .error e
      | .ok false => .error (.bus "BUNDLE_SIGNATURE_FAILED")
      | .ok true => .ok ()

/-- `_download_single_layer` -/
def downloadLayer (r : Registry) (repository : String) (layer : Layer) :
    Except RegistryError Bytes :=
  match layer.digest with
  | none => .error (.python "KeyError")
  | some digest =>
    match r.blob repository digest with
    | none => .error (.python "RuntimeError")
    | some data =>
      if digestOf sha256 data ≠ digest then .error (.bus "BUNDLE_DIGEST_MISMATCH")
      else .ok data

/-- `_download_and_verify_layers` -/
def downloadLayers (r : Registry) (repository : String) :
    List Layer → Except RegistryError Bytes
  | [] => .ok []
  | layer :: rest => do
    let data ← downloadLayer sha256 r repository layer
    let more ← downloadLayers r repository rest
    return data ++ more

/-- `pull_bundle`: the manifest that it returns, and what it writes at the output path. -/
def pullBundle (r : Registry) (repository reference : String) (publicKeyHex : Option String) :
    Except RegistryError (BundleManifest × Bytes) := do
  let oci ← fetchOciManifest r repository reference
  let (primary, layers) ← extractManifestLayers oci
  let M ← readManifest oci primary
  verifyIfRequested S M publicKeyHex
  let data ← downloadLayers sha256 r repository layers
  return (M, data)

/-! ## What is pulled -/

section Pulled

variable {S : Ed25519} {sha256 : Bytes → String} {r : Registry} {repository reference : String}
variable {publicKeyHex : Option String} {M : BundleManifest} {data : Bytes}

theorem bind_eq_ok {α β : Type} {x : Except RegistryError α} {f : α → Except RegistryError β}
    {b : β} : (x >>= f) = .ok b ↔ ∃ a, x = .ok a ∧ f a = .ok b := by
  rcases x with e | a
  · exact iff_of_false nofun (by rintro ⟨a, ⟨⟩, -⟩)
  · exact ⟨fun h => ⟨a, rfl, h⟩, by rintro ⟨a', ⟨⟩, h⟩; exact h⟩

def OfLayers (sha256 : Bytes → String) : List Layer → Bytes → Prop
  | [], data => data = []
  | layer :: rest, data =>
    ∃ first more, data = first ++ more ∧ layer.digest = some (digestOf sha256 first) ∧
      OfLayers sha256 rest more

theorem downloadLayer_eq_ok {layer : Layer} :
    downloadLayer sha256 r repository layer = .ok data ↔
      layer.digest = some (digestOf sha256 data) ∧
        r.blob repository (digestOf sha256 data) = some data := by
  unfold downloadLayer
  rcases layer.digest with _ | digest
  · simp
  · rcases hblob : r.blob repository digest with _ | served
    · refine iff_of_false (by simp [hblob]) ?_
      rintro ⟨⟨rfl⟩, hdata⟩
      rw [hblob] at hdata
      cases hdata
    · simp only [hblob]
      split_ifs with hne
      · refine iff_of_false nofun ?_
        rintro ⟨⟨rfl⟩, hdata⟩
        rw [hblob] at hdata
        cases hdata
        exact hne rfl
      · rw [not_not] at hne
        subst hne
        constructor
        · rintro ⟨⟩
          exact ⟨rfl, hblob⟩
        · rintro ⟨hdigest, hdata⟩
          rw [Option.some_inj.mp hdigest, hdata] at hblob
          rw [Option.some_inj.mp hblob]

theorem ofLayers_of_download {layers : List Layer}
    (h : downloadLayers sha256 r repository layers = .ok data) : OfLayers sha256 layers data := by
  induction layers generalizing data with
  | nil =>
    cases h
    rfl
  | cons layer rest ih =>
    obtain ⟨first, hfirst, hmore⟩ := bind_eq_ok.mp h
    obtain ⟨more, hrest, hdata⟩ := bind_eq_ok.mp hmore
    cases hdata
    exact ⟨first, more, rfl, (downloadLayer_eq_ok.mp hfirst).1, ih hrest⟩

theorem OfLayers.unique (hsha : Function.Injective sha256) {layers layers' : List Layer}
    {data' : Bytes} (h : OfLayers sha256 layers data) (h' : OfLayers sha256 layers' data')
    (hdigests : layers.map Layer.digest = layers'.map Layer.digest) : data = data' := by
  induction layers generalizing layers' data data' with
  | nil =>
    obtain rfl := List.map_eq_nil_iff.mp hdigests.symm
    exact Eq.trans h (Eq.symm h')
  | cons layer rest ih =>
    obtain ⟨layer', rest', rfl, hdigest, hrest⟩ := List.map_eq_cons_iff.mp hdigests.symm
    obtain ⟨first, more, rfl, hfirst, hmore⟩ := h
    obtain ⟨first', more', rfl, hfirst', hmore'⟩ := h'
    have hsame : digestOf sha256 first = digestOf sha256 first' := by
      rw [hdigest, hfirst] at hfirst'
      exact Option.some_inj.mp hfirst'
    rw [hsha (String.append_right_inj _ |>.mp hsame), ih hmore hmore' hrest.symm]

theorem pullBundle_eq_ok :
    pullBundle S sha256 r repository reference publicKeyHex = .ok (M, data) ↔
      ∃ oci primary rest, r.manifest repository reference = some oci ∧
        oci.layers = primary :: rest ∧ readManifest oci primary = .ok M ∧
          verifyIfRequested S M publicKeyHex = .ok () ∧
            downloadLayers sha256 r repository oci.layers = .ok data := by
  unfold pullBundle
  constructor
  · intro h
    obtain ⟨oci, hfetch, h⟩ := bind_eq_ok.mp h
    obtain ⟨⟨primary, layers⟩, hlayers, h⟩ := bind_eq_ok.mp h
    obtain ⟨M', hread, h⟩ := bind_eq_ok.mp h
    obtain ⟨_, hverify, h⟩ := bind_eq_ok.mp h
    obtain ⟨data', hdata, h⟩ := bind_eq_ok.mp h
    cases h
    unfold fetchOciManifest at hfetch
    unfold extractManifestLayers at hlayers
    split at hfetch
    · cases hfetch
    · rename_i oci' hserved
      cases hfetch
      split at hlayers
      · cases hlayers
      · rename_i primary' rest hcons
        cases hlayers
        exact ⟨oci, primary, rest, hserved, hcons, hread, hverify, hcons ▸ hdata⟩
  · rintro ⟨oci, primary, rest, hserved, hcons, hread, hverify, hdata⟩
    have hfetch : fetchOciManifest r repository reference = .ok oci := by
      rw [fetchOciManifest, hserved]
    have hlayers : extractManifestLayers oci = .ok (primary, oci.layers) := by
      rw [extractManifestLayers, hcons]
    refine bind_eq_ok.mpr ⟨oci, hfetch, bind_eq_ok.mpr ⟨(primary, oci.layers), hlayers, ?_⟩⟩
    refine bind_eq_ok.mpr ⟨M, hread, bind_eq_ok.mpr ⟨(), hverify, ?_⟩⟩
    exact bind_eq_ok.mpr ⟨data, hdata, rfl⟩

theorem verifyIfRequested_some {publicKey : String} (hne : publicKey ≠ "") :
    verifyIfRequested S M (some publicKey) = .ok () ↔ M.verifySignature S publicKey = .ok true := by
  simp only [verifyIfRequested, if_neg hne]
  rcases M.verifySignature S publicKey with e | verified
  · simp
  · cases verified <;> simp

end Pulled

/-! ## What was pushed is pulled -/

structure Holds (sha256 : Bytes → String) (r : Registry) (repository tag : String) (bundle : Bytes)
    (oci : OciManifest) : Prop where
  manifest : r.manifest repository tag = some oci
  blob : r.blob repository (digestOf sha256 bundle) = some bundle

end OCIRegistryClient

def BundleManifest.rebuilt (M : BundleManifest) : BundleManifest :=
  { M with roots := ["acgs/governance"], metadata := [] }

namespace OCIRegistryClient

section Pushed

variable {S : Ed25519} {sha256 : Bytes → String} {r : Registry} {repository tag : String}
variable {publicKeyHex : Option String} {M M' : BundleManifest} {bundle data : Bytes}

theorem readManifest_ociManifest (hM : dumpable M.signatures = true) {layer : Layer}
    {rest : List Layer}
    (hlayers : (ociManifest sha256 repository tag bundle M).layers = layer :: rest) :
    readManifest (ociManifest sha256 repository tag bundle M) layer = .ok M.rebuilt := by
  cases hlayers
  have hloads := loads_write compact hM
  rw [readManifest, if_neg (not_not_intro rfl), buildBundleManifest]
  simp only [ociManifest, Option.getD_some, String.toList_ofList, hloads]
  refine congrArg Except.ok ?_
  obtain ⟨version, revision, hash, timestamp, roots, signatures, metadata, hhash⟩ := M
  subst hhash
  rfl

/-- **What a registry that holds a push gives back.** -/
theorem pullBundle_pushed (hM : dumpable M.signatures = true)
    (h : Holds sha256 r repository tag bundle (ociManifest sha256 repository tag bundle M)) :
    pullBundle S sha256 r repository tag publicKeyHex = .ok (M', data) ↔
      M' = M.rebuilt ∧ data = bundle ∧ verifyIfRequested S M.rebuilt publicKeyHex = .ok () := by
  have hdownload : downloadLayers sha256 r repository
      (ociManifest sha256 repository tag bundle M).layers = .ok bundle := by
    refine bind_eq_ok.mpr ⟨bundle, downloadLayer_eq_ok.mpr ⟨rfl, h.blob⟩, ?_⟩
    exact bind_eq_ok.mpr ⟨[], rfl, congrArg Except.ok (List.append_nil bundle)⟩
  rw [pullBundle_eq_ok]
  constructor
  · rintro ⟨oci, primary, rest, hserved, hcons, hread, hverify, hdata⟩
    obtain rfl := Option.some_inj.mp (h.manifest.symm.trans hserved)
    rw [readManifest_ociManifest hM hcons] at hread
    cases hread
    rw [hdownload] at hdata
    cases hdata
    exact ⟨rfl, rfl, hverify⟩
  · rintro ⟨rfl, rfl, hverify⟩
    exact ⟨_, _, _, h.manifest, rfl, readManifest_ociManifest hM rfl, hverify, hdownload⟩

end Pushed

end OCIRegistryClient

end EnhancedAgentBus.BundleRegistry
