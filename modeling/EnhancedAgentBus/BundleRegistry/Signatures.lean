import EnhancedAgentBus.BundleRegistry.Client

/-!
# Signatures and distribution

`BundleDistributionService.publish`, and what becomes of signatures on the way through a registry.

* A manifest that verifies is pulled with other roots and other metadata than it was signed with, so
  it verifies again only where these were the defaults (`SurvivesPush`).
* `publish` signs the digest that the primary answered, after the primary has the manifest; so what
  can be pulled is what carried a signature over its content before (`PulledEverywhere`).
* No layer is signed.
-/

namespace EnhancedAgentBus.BundleRegistry

open JsonText OCIRegistryClient BundleManifest

/-! ## `publish` -/

/-- `SigningProvider`; what it signs and its signatures are texts, in hexadecimal. -/
structure SigningProvider where
  keyId : String
  algorithm : String
  sign : String → String

/-- `LocalEd25519SigningProvider` -/
def localEd25519 (S : Ed25519) (privateKey keyId : String) : SigningProvider where
  keyId := keyId
  algorithm := "ed25519"
  sign := S.sign privateKey

/-- What a registry answers to a push: nothing where it fails, else the `Docker-Content-Digest` if
there is one. -/
abbrev PushAnswer := Option (Option String)

/-- `push_bundle` at a registry with an answer. -/
def pushAt (sha256 : Bytes → String) (answer : PushAnswer) (repository tag : String)
    (bundle : Bytes) (M : BundleManifest) : Except RegistryError (String × OciManifest) :=
  match answer with
  | none => .error (.python "Exception")
  | some contentDigest => pushBundle sha256 contentDigest repository tag bundle M

/-- The OCI manifests that `publish` has put: at the primary, and at each fallback that is tried,
where it succeeded. -/
structure Published where
  primary : OciManifest
  replicas : List (Option OciManifest)

/-- The manifest, once `publish` has pushed it to the primary. -/
def signPublished (provider : Option SigningProvider) (now digest : String) (M : BundleManifest) :
    Except RegistryError BundleManifest :=
  match provider with
  | none => .ok M
  | some provider => M.addSignature provider.keyId (provider.sign digest) provider.algorithm now

/-- `publish`, at a time, with the answers of the primary and of the fallbacks. -/
def publish (sha256 : Bytes → String) (provider : Option SigningProvider) (now : String)
    (repository tag : String) (bundle : Bytes) (M : BundleManifest) (replicate : Bool)
    (primary : PushAnswer) (fallbacks : List PushAnswer) : Except RegistryError Published := do
  let (digest, oci) ← pushAt sha256 primary repository tag bundle M
  let signed ← signPublished provider now digest M
  return {
    primary := oci
    replicas :=
      if replicate then
        fallbacks.map fun answer =>
          (pushAt sha256 answer repository tag bundle signed).toOption.map Prod.snd
      else [] }

/-! ## The laws -/

section Laws

variable (S : Ed25519) (sha256 : Bytes → String) (publicKeyHex repository tag : String)
variable (bundle : Bytes)

def SurvivesPush (M : BundleManifest) : Prop :=
  ∀ r, Holds sha256 r repository tag bundle (ociManifest sha256 repository tag bundle M) →
    ∃ M', pullBundle S sha256 r repository tag none = .ok (M', bundle) ∧
      M'.verifySignature S publicKeyHex = .ok true

def PulledFrom (oci : OciManifest) : Prop :=
  ∀ r, Holds sha256 r repository tag bundle oci →
    ∃ M', pullBundle S sha256 r repository tag (some publicKeyHex) = .ok (M', bundle)

/-- What was published can be pulled with a key from the primary and from each replica that
succeeded. -/
def PulledEverywhere (published : Published) : Prop :=
  PulledFrom S sha256 publicKeyHex repository tag bundle published.primary ∧
    ∀ oci, some oci ∈ published.replicas →
      PulledFrom S sha256 publicKeyHex repository tag bundle oci

end Laws

def listedDigests (r : Registry) (repository reference : String) : Option (List (Option String)) :=
  (r.manifest repository reference).map fun oci => oci.layers.map Layer.digest

/-- A signature that two manifests carry, each over its own content. -/
def ShareSignature (S : Ed25519) (publicKeyHex : String) (M M' : BundleManifest) : Prop :=
  ∃ entries entries', M.signatures = .arr entries ∧ M'.signatures = .arr entries' ∧
    ∃ entry ∈ entries, entry ∈ entries' ∧ ValidFor S publicKeyHex M.content entry ∧
      ValidFor S publicKeyHex M'.content entry

section Proofs

variable {S : Ed25519} {sha256 : Bytes → String} {publicKeyHex repository tag : String}
variable {bundle : Bytes} {M : BundleManifest}

def holding (oci : OciManifest) (bundle : Bytes) : Registry where
  manifest _ _ := some oci
  blob _ _ := some bundle

theorem holds_holding (oci : OciManifest) (bundle : Bytes) :
    Holds sha256 (holding oci bundle) repository tag bundle oci := ⟨rfl, rfl⟩

theorem survivesPush_iff (hM : dumpable M.signatures = true) :
    SurvivesPush S sha256 publicKeyHex repository tag bundle M ↔
      M.rebuilt.verifySignature S publicKeyHex = .ok true := by
  constructor
  · intro h
    obtain ⟨M', hpull, hverify⟩ := h _ (holds_holding _ _)
    obtain ⟨rfl, -⟩ := (pullBundle_pushed hM (holds_holding _ _)).mp hpull
    exact hverify
  · intro hverify r hr
    exact ⟨M.rebuilt, (pullBundle_pushed hM hr).mpr ⟨rfl, rfl, rfl⟩, hverify⟩

theorem pulledFrom_iff (hM : dumpable M.signatures = true) (hne : publicKeyHex ≠ "") :
    PulledFrom S sha256 publicKeyHex repository tag bundle
        (ociManifest sha256 repository tag bundle M) ↔
      M.rebuilt.verifySignature S publicKeyHex = .ok true := by
  rw [← verifyIfRequested_some hne]
  constructor
  · intro h
    obtain ⟨M', hpull⟩ := h _ (holds_holding _ _)
    exact ((pullBundle_pushed hM (holds_holding _ _)).mp hpull).2.2
  · intro hverify r hr
    exact ⟨M.rebuilt, (pullBundle_pushed hM hr).mpr ⟨rfl, rfl, hverify⟩⟩

/-- A manifest that verifies does so again with the default roots and no metadata, if these are its
own, or if it carries another signature, over that content. -/
theorem verifySignature_rebuilt (hM : M.Dumpable)
    (hverify : M.verifySignature S publicKeyHex = .ok true) :
    M.rebuilt.verifySignature S publicKeyHex = .ok true ↔
      (M.roots = ["acgs/governance"] ∧ M.metadata = []) ∨
        ∃ entries, M.signatures = .arr entries ∧ ∃ entry ∈ entries,
          ¬ValidFor S publicKeyHex M.content entry ∧
            ValidFor S publicKeyHex M.rebuilt.content entry := by
  obtain ⟨hkey, entries, hentries, hreadable, -⟩ := verifySignature_eq_true.mp hverify
  have hrebuilt : M.rebuilt.Dumpable := ⟨hM.signatures, rfl⟩
  constructor
  · intro h
    obtain ⟨-, entries', hentries', -, entry, hmem, hvalid⟩ := verifySignature_eq_true.mp h
    by_cases hown : ValidFor S publicKeyHex M.content entry
    · obtain ⟨hroots, hmetadata⟩ := content_inj hM hrebuilt (hown.content_eq hvalid)
      refine .inl ⟨hroots, ?_⟩
      have hnil : sortMembers M.metadata = [] := by
        have hperm := List.perm_insertionSort (fun m m' : String × Json => m.1 ≤ m'.1)
          (sortMembers M.metadata)
        rw [sortKeys, sortKeys, Json.obj.injEq] at hmetadata
        rw [hmetadata] at hperm
        exact hperm.symm.eq_nil
      rwa [sortMembers_eq_map, List.map_eq_nil_iff] at hnil
    · exact .inr ⟨entries', hentries', entry, hmem, hown, hvalid⟩
  · rintro (⟨hroots, hmetadata⟩ | ⟨entries', hentries', entry, hmem, -, hvalid⟩)
    · have hsame : M.rebuilt = M := by rw [BundleManifest.rebuilt, ← hroots, ← hmetadata]
      rwa [hsame]
    · refine verifySignature_eq_true.mpr ⟨hkey, entries', hentries', fun e he => ?_, entry, hmem,
        hvalid⟩
      cases hentries.symm.trans hentries'
      obtain ⟨valid, hvalid⟩ := hreadable e he
      exact verifyEntry_ok hvalid _

/-! ### Publishing -/

def withEntry (M : BundleManifest) (entries : List Json) (entry : JSONDict) : BundleManifest :=
  { M with signatures := .arr (entries ++ [.obj entry]) }

theorem addSignature_eq_ok {M' : BundleManifest} {keyid signature algorithm timestamp : String} :
    M.addSignature keyid signature algorithm timestamp = .ok M' ↔
      ∃ entries, M.signatures = .arr entries ∧
        M' = withEntry M entries (entry keyid signature algorithm timestamp) := by
  unfold addSignature
  cases hsig : M.signatures with
  | arr entries => simp [eq_comm, withEntry]
  | _ => simp

theorem dumpable_withEntry {keyid signature algorithm timestamp : String} {entries : List Json}
    (hentries : M.signatures = .arr entries) (hM : dumpable M.signatures = true) :
    dumpable (withEntry M entries (entry keyid signature algorithm timestamp)).signatures =
      true := by
  rw [hentries] at hM
  refine (dumpableItems_iff _).mpr fun e he => ?_
  rcases List.mem_append.mp he with he | he
  · exact (dumpableItems_iff _).mp hM e he
  · obtain rfl := List.mem_singleton.mp he
    rfl

theorem publish_eq_ok {privateKey keyId now : String} {replicate : Bool} {primary : PushAnswer}
    {fallbacks : List PushAnswer} {published : Published}
    (h : publish sha256 (some (localEd25519 S privateKey keyId)) now repository tag bundle M
      replicate primary fallbacks = .ok published) :
    published.primary = ociManifest sha256 repository tag bundle M ∧
      ∃ entries signature, M.signatures = .arr entries ∧
        ∀ oci, some oci ∈ published.replicas → oci = ociManifest sha256 repository tag bundle
          (withEntry M entries (entry keyId signature "ed25519" now)) := by
  have hpush {answer : PushAnswer} {M : BundleManifest} {digest : String} {oci : OciManifest}
      (h : pushAt sha256 answer repository tag bundle M = .ok (digest, oci)) :
      oci = ociManifest sha256 repository tag bundle M := by
    unfold pushAt pushBundle at h
    rcases answer with _ | contentDigest
    · cases h
    · simp only at h
      split at h
      · cases h
      · cases h
        rfl
  obtain ⟨⟨digest, oci⟩, hprimary, h⟩ := bind_eq_ok.mp h
  obtain ⟨signed, hsigned, h⟩ := bind_eq_ok.mp h
  cases h
  obtain ⟨entries, hentries, rfl⟩ := addSignature_eq_ok.mp hsigned
  refine ⟨hpush hprimary, entries, S.sign privateKey digest, hentries, fun oci hoci => ?_⟩
  rcases replicate with _ | _
  · cases hoci
  · obtain ⟨answer, -, hanswer⟩ := List.mem_map.mp hoci
    rcases hreplica : pushAt sha256 answer repository tag bundle _ with e | pushed
    · rw [hreplica] at hanswer
      cases hanswer
    · rw [hreplica] at hanswer
      cases hanswer
      exact hpush hreplica

theorem carriesFor_append {content keyid signature timestamp : String} {entries : List Json}
    (hentries : M.signatures = .arr entries) (h : M.CarriesFor S publicKeyHex content) :
    (withEntry M entries (entry keyid signature "ed25519" timestamp)).CarriesFor S publicKeyHex
      content := by
  obtain ⟨entries', hentries', hreadable, e, he, hvalid⟩ := h
  cases hentries.symm.trans hentries'
  refine ⟨_, rfl, fun e' he' => ?_, e, List.mem_append_left _ he, hvalid⟩
  rcases List.mem_append.mp he' with he' | he'
  · exact hreadable e' he'
  · obtain rfl := List.mem_singleton.mp he'
    exact ⟨_, verifyEntry_entry⟩

/-- **What was published can be pulled** if it carried a signature of the provider's key over its
content before, and had the default roots and no metadata, or the signature was made as if. -/
theorem pulledEverywhere_iff {privateKey keyId now : String} {replicate : Bool}
    {primary : PushAnswer} {fallbacks : List PushAnswer} {published : Published}
    (hM : dumpable M.signatures = true)
    (h : publish sha256 (some (localEd25519 S privateKey keyId)) now repository tag bundle M
      replicate primary fallbacks = .ok published) :
    PulledEverywhere S sha256 (S.publicKey privateKey) repository tag bundle published ↔
      M.CarriesFor S (S.publicKey privateKey) M.rebuilt.content := by
  obtain ⟨hprimary, entries, signature, hentries, hreplicas⟩ := publish_eq_ok h
  have hne := S.publicKey_ne privateKey
  have hkey := S.isKey_publicKey privateKey
  rw [PulledEverywhere, hprimary, pulledFrom_iff hM hne, verifySignature_eq_true,
    and_iff_right hkey, and_iff_left_of_imp]
  · rfl
  · intro hcarries oci hoci
    rw [hreplicas oci hoci]
    refine (pulledFrom_iff ?_ hne).mpr (verifySignature_eq_true.mpr ⟨hkey, ?_⟩)
    · exact dumpable_withEntry hentries hM
    · exact carriesFor_append hentries hcarries

end Proofs

/-! ## Whole distributions -/

/-- One layer under a reference, as `push_bundle` writes it. -/
def ListsOneLayer (r : Registry) (repository reference : String) : Prop :=
  ∃ oci layer, r.manifest repository reference = some oci ∧ oci.layers = [layer]

theorem pulled_data_eq_iff {S : Ed25519} {sha256 : Bytes → String}
    (hsha : Function.Injective sha256) {r r' : Registry}
    {repository repository' reference reference' : String} {key key' : Option String}
    {M M' : BundleManifest} {data data' : Bytes}
    (h : pullBundle S sha256 r repository reference key = .ok (M, data))
    (h' : pullBundle S sha256 r' repository' reference' key' = .ok (M', data')) :
    (listedDigests r repository reference = listedDigests r' repository' reference' →
        data = data') ∧
      (ListsOneLayer r repository reference → ListsOneLayer r' repository' reference' →
        data = data' → listedDigests r repository reference =
          listedDigests r' repository' reference') := by
  obtain ⟨oci, _, _, hserved, -, -, -, hdata⟩ := pullBundle_eq_ok.mp h
  obtain ⟨oci', _, _, hserved', -, -, -, hdata'⟩ := pullBundle_eq_ok.mp h'
  have hlayers := ofLayers_of_download hdata
  have hlayers' := ofLayers_of_download hdata'
  rw [listedDigests, listedDigests, hserved, hserved', Option.map_some, Option.map_some,
    Option.some_inj]
  refine ⟨hlayers.unique hsha hlayers', ?_⟩
  rintro ⟨one, layer, hone, hsingle⟩ ⟨one', layer', hone', hsingle'⟩ rfl
  obtain rfl := Option.some_inj.mp (hserved.symm.trans hone)
  obtain rfl := Option.some_inj.mp (hserved'.symm.trans hone')
  rw [hsingle] at hlayers ⊢
  rw [hsingle'] at hlayers' ⊢
  obtain ⟨first, _, rfl, hdigest, rfl⟩ := hlayers
  obtain ⟨first', _, heq, hdigest', rfl⟩ := hlayers'
  rw [List.append_nil, List.append_nil] at heq
  rw [List.map_singleton, List.map_singleton, hdigest, hdigest', heq]

/-- **Signatures and distribution.**  With Ed25519 correct and unforgeable and SHA-256 injective:

* a manifest that verifies under a key does so again after a push and a pull exactly if its roots are
  the default ones and it has no metadata, or another of its signatures is over that content;
* what `publish` pushed with a provider can be pulled with the provider's key, everywhere it was
  pushed, exactly if the manifest it was given carried such a signature;
* two verified pulls wrote the same bytes if the same digests were listed, and for manifests of one
  layer only then. -/
theorem bundleSignatures (S : Ed25519) (sha256 : Bytes → String)
    (hsha : Function.Injective sha256) :
    (∀ (M : BundleManifest) (publicKeyHex repository tag : String) (bundle : Bytes), M.Dumpable →
      M.verifySignature S publicKeyHex = .ok true →
        (SurvivesPush S sha256 publicKeyHex repository tag bundle M ↔
          (M.roots = ["acgs/governance"] ∧ M.metadata = []) ∨
            ∃ entries, M.signatures = .arr entries ∧ ∃ entry ∈ entries,
              ¬ValidFor S publicKeyHex M.content entry ∧
                ValidFor S publicKeyHex M.rebuilt.content entry)) ∧
      (∀ (M : BundleManifest) (privateKey keyId now repository tag : String) (bundle : Bytes)
        (replicate : Bool) (primary : PushAnswer) (fallbacks : List PushAnswer)
        (published : Published), M.Dumpable →
        publish sha256 (some (localEd25519 S privateKey keyId)) now repository tag bundle M replicate
          primary fallbacks = .ok published →
          (PulledEverywhere S sha256 (S.publicKey privateKey) repository tag bundle published ↔
            M.CarriesFor S (S.publicKey privateKey) M.rebuilt.content)) ∧
      (∀ (r r' : Registry) (repository repository' reference reference' publicKeyHex : String)
        (M M' : BundleManifest) (data data' : Bytes),
        pullBundle S sha256 r repository reference (some publicKeyHex) = .ok (M, data) →
        pullBundle S sha256 r' repository' reference' (some publicKeyHex) = .ok (M', data') →
        ShareSignature S publicKeyHex M M' →
          (listedDigests r repository reference = listedDigests r' repository' reference' →
            data = data') ∧
          (ListsOneLayer r repository reference → ListsOneLayer r' repository' reference' →
            data = data' → listedDigests r repository reference =
              listedDigests r' repository' reference')) := by
  refine ⟨fun M publicKeyHex repository tag bundle hM hverify => ?_, ?_, ?_⟩
  · exact (survivesPush_iff hM.signatures).trans (verifySignature_rebuilt hM hverify)
  · intro M privateKey keyId now repository tag bundle replicate primary fallbacks published hM h
    exact pulledEverywhere_iff hM.signatures h
  · intro r r' repository repository' reference reference' publicKeyHex M M' data data' h h' _
    exact pulled_data_eq_iff hsha h h'

/-! ### A distribution -/

def hexOf (text : List Char) : List Char :=
  text.flatMap fun c => hex4 (c.toNat / 65536) ++ hex4 (c.toNat % 65536)

theorem isHex_digits {d e : ℕ} (hd : d < 16) (he : e < 16) (s : List Char) :
    isHex (d.digitChar :: e.digitChar :: s) = isHex s := by
  have hspace : d.digitChar ∉ [' ', '\t', '\n', '\r', Char.ofNat 11, Char.ofNat 12] := by
    interval_cases d <;> decide
  rw [isHex, if_neg hspace]
  simp [hexValue_digitChar hd, hexValue_digitChar he]

theorem isHex_hex4 (n : ℕ) (s : List Char) : isHex (hex4 n ++ s) = isHex s := by
  have hlt (k : ℕ) : k % 16 < 16 := Nat.mod_lt k (by decide)
  exact (isHex_digits (hlt _) (hlt _) _).trans (isHex_digits (hlt _) (hlt _) _)

theorem isHex_hexOf (text : List Char) : isHex (hexOf text) = true := by
  induction text with
  | nil => rfl
  | cons c text ih =>
    rw [hexOf, List.flatMap_cons, List.append_assoc, isHex_hex4, isHex_hex4]
    exact ih

theorem hexOf_injective : Function.Injective hexOf := by
  intro text
  induction text with
  | nil =>
    intro text' h
    rcases text' with _ | ⟨c, text'⟩
    · rfl
    · cases h
  | cons c text ih =>
    intro text' h
    rcases text' with _ | ⟨c', text'⟩
    · cases h
    · have hsplit (c : Char) (text : List Char) : hexOf (c :: text) =
          hex4 (c.toNat / 65536) ++ (hex4 (c.toNat % 65536) ++ hexOf text) := by
        rw [hexOf, List.flatMap_cons, List.append_assoc]
        rfl
      have hlt (n : ℕ) : n % 65536 < 65536 := Nat.mod_lt n (by decide)
      have hhigh (c : Char) : c.toNat / 65536 < 65536 := by
        have hvalid : c.toNat < 55296 ∨ 57343 < c.toNat ∧ c.toNat < 1114112 := c.valid
        omega
      rw [hsplit, hsplit] at h
      have hread := congrArg readHex4 h
      rw [readHex4_hex4 (hhigh c), readHex4_hex4 (hhigh c'), Option.some_inj,
        Prod.mk.injEq] at hread
      obtain ⟨hdiv, hrest⟩ := hread
      have hread := congrArg readHex4 hrest
      rw [readHex4_hex4 (hlt _), readHex4_hex4 (hlt _), Option.some_inj, Prod.mk.injEq] at hread
      obtain ⟨hmod, hrest⟩ := hread
      have hchar : c = c' := Char.toNat_inj.mp (by omega)
      rw [hchar, ih hrest]

/-- Signatures that hide nothing: a text is signed by writing it in hexadecimal. -/
def plainSignatures : Ed25519 where
  publicKey privateKey := "key of " ++ privateKey
  sign _ content := String.ofList (hexOf content.toList)
  isKey _ := true
  verify _ signature content := signature = String.ofList (hexOf content.toList)
  publicKey_ne privateKey := by simp
  isKey_publicKey _ := rfl
  verify_sign _ _ := decide_eq_true rfl
  unforgeable _ _ _ _ h h' := by
    have hsame := (of_decide_eq_true h).symm.trans (of_decide_eq_true h')
    exact String.toList_injective (hexOf_injective (String.ofList_injective hsame))

/-- A digest that hides nothing: one character for each byte. -/
def plainDigest (data : Bytes) : String := String.ofList (data.map fun byte => Char.ofNat byte.toNat)

theorem plainDigest_injective : Function.Injective plainDigest := by
  intro data data' h
  refine List.map_injective_iff.mpr (fun byte byte' hchar => ?_) (String.ofList_injective h)
  have hnat (byte : UInt8) : (Char.ofNat byte.toNat).toNat = byte.toNat := by
    have hlt : byte.toNat < 256 := byte.toNat_lt
    rw [Char.ofNat, dif_pos (.inl (by omega))]
    rfl
  have hsame := congrArg Char.toNat hchar
  rw [hnat, hnat] at hsame
  exact UInt8.toNat_inj.mp hsame

def policyManifest (roots : List String) : BundleManifest where
  version := "1.0.0"
  revision := "5d41402abc4b2a76b9719d911017c592ae3d1f00"
  timestamp := some "2026-01-01T00:00:00+00:00"
  roots := roots

def signedManifest (roots : List String) : BundleManifest :=
  withEntry (policyManifest roots) [] (entry "ops"
    (plainSignatures.sign "ops" (policyManifest roots).content) "ed25519"
    "2026-01-02T00:00:00+00:00")

theorem dumpable_signedManifest (roots : List String) : (signedManifest roots).Dumpable :=
  ⟨dumpable_withEntry rfl rfl, rfl⟩

theorem verify_signedManifest (roots : List String) :
    (signedManifest roots).verifySignature plainSignatures "key of ops" = .ok true := by
  have hvalid : verifyEntry plainSignatures "key of ops" (signedManifest roots).content
      (.obj (entry "ops" (plainSignatures.sign "ops" (policyManifest roots).content) "ed25519"
        "2026-01-02T00:00:00+00:00")) = .ok true := by
    rw [verifyEntry_entry]
    have hhex : isHex (plainSignatures.sign "ops" (policyManifest roots).content).toList = true := by
      rw [plainSignatures, String.toList_ofList]
      exact isHex_hexOf _
    rw [hhex, Bool.true_and]
    exact congrArg Except.ok (plainSignatures.verify_sign "ops" _)
  refine verifySignature_eq_true.mpr ⟨rfl, _, rfl, fun e he => ?_, _, List.mem_singleton.mpr rfl,
    hvalid⟩
  obtain rfl := List.mem_singleton.mp he
  exact ⟨true, hvalid⟩

/-- The theorem at a manifest with the default roots. -/
theorem bundleSignatures_signedManifest :
    SurvivesPush plainSignatures plainDigest "key of ops" "acgs/policies" "v1" [1, 2, 3]
      (signedManifest ["acgs/governance"]) :=
  ((bundleSignatures plainSignatures plainDigest plainDigest_injective).1 _ _ _ _ _
    (dumpable_signedManifest _) (verify_signedManifest _)).mpr (.inl ⟨rfl, rfl⟩)

/-- What `publish` put of the policy manifest, at a primary and a replica. -/
def publishedPolicy : Published where
  primary := ociManifest plainDigest "acgs/policies" "v1" [1, 2, 3]
    (policyManifest ["acgs/governance"])
  replicas := [some (ociManifest plainDigest "acgs/policies" "v1" [1, 2, 3]
    (withEntry (policyManifest ["acgs/governance"]) [] (entry "ops" (plainSignatures.sign "ops"
      (digestOf plainDigest [1, 2, 3])) "ed25519" "2026-01-02T00:00:00+00:00")))]

/-- A fresh manifest is published with a provider, and cannot be pulled with the provider's key; a
signed one whose roots are its own does not verify after a push; and two bundles are pulled under one
signature. -/
theorem publishedPolicy_not_pulled :
    (publish plainDigest (some (localEd25519 plainSignatures "ops" "ops"))
        "2026-01-02T00:00:00+00:00" "acgs/policies" "v1" [1, 2, 3]
        (policyManifest ["acgs/governance"]) true (some none) [some none] = .ok publishedPolicy ∧
      ¬PulledEverywhere plainSignatures plainDigest "key of ops" "acgs/policies" "v1" [1, 2, 3]
        publishedPolicy) ∧
      ((signedManifest ["acme"]).verifySignature plainSignatures "key of ops" = .ok true ∧
        ¬SurvivesPush plainSignatures plainDigest "key of ops" "acgs/policies" "v1" [1, 2, 3]
          (signedManifest ["acme"])) ∧
      ∃ (r r' : Registry) (M : BundleManifest),
        pullBundle plainSignatures plainDigest r "acgs/policies" "v1" (some "key of ops") =
            .ok (M, [1, 2, 3]) ∧
          pullBundle plainSignatures plainDigest r' "acgs/policies" "v1" (some "key of ops") =
            .ok (M, [4, 5, 6]) := by
  have hpublish : publish plainDigest (some (localEd25519 plainSignatures "ops" "ops"))
      "2026-01-02T00:00:00+00:00" "acgs/policies" "v1" [1, 2, 3]
      (policyManifest ["acgs/governance"]) true (some none) [some none] = .ok publishedPolicy := rfl
  refine ⟨⟨hpublish, fun h => ?_⟩, ⟨verify_signedManifest _, fun h => ?_⟩, ?_⟩
  · obtain ⟨entries, hnil, -, e, he, -⟩ := (pulledEverywhere_iff rfl hpublish).mp h
    cases hnil
    cases he
  · have hdumpable := dumpable_signedManifest ["acme"]
    have hverify := verify_signedManifest ["acme"]
    have hrebuilt := (survivesPush_iff hdumpable.signatures).mp h
    rcases (verifySignature_rebuilt hdumpable hverify).mp hrebuilt with
      ⟨hroots, -⟩ | ⟨entries, heq, e, he, hnot, -⟩
    · revert hroots
      decide
    · -- Its one signature is over its own content
      obtain ⟨-, entries', heq', -, e', he', hown⟩ := verifySignature_eq_true.mp hverify
      cases heq
      cases heq'
      obtain rfl := List.mem_singleton.mp he
      obtain rfl := List.mem_singleton.mp he'
      exact hnot hown
  · have hsigned := dumpable_signedManifest ["acgs/governance"]
    have hverify : verifyIfRequested plainSignatures (signedManifest ["acgs/governance"]).rebuilt
        (some "key of ops") = .ok () :=
      (verifyIfRequested_some (by decide)).mpr (verify_signedManifest ["acgs/governance"])
    have hpull (data : Bytes) := (pullBundle_pushed hsigned.signatures
      (holds_holding (ociManifest plainDigest "acgs/policies" "v1" data _) data)).mpr
        ⟨rfl, rfl, hverify⟩
    exact ⟨_, _, _, hpull [1, 2, 3], hpull [4, 5, 6]⟩

end EnhancedAgentBus.BundleRegistry
