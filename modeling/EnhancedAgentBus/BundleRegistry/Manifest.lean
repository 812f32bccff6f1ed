import EnhancedAgentBus.Json.Text

/-!
# Bundle manifests

`BundleManifest` of the bundle registry: what it says about a policy bundle, and its signatures.
A signature is over the *content*, the text of all members but the signatures; `content_inj` says
that the content tells them apart.

Ed25519 is a parameter (`Ed25519`), over the texts that the manifest carries: a key or a signature
that is no hexadecimal text, or that the library refuses, verifies nothing.  The JSON schema that
`validate` looks for is not part of the repository, and without it `validate` accepts.
-/

namespace EnhancedAgentBus.BundleRegistry

open JsonText

abbrev JSONDict := List (String × Json)

def constitutionalHash : String := "608508a9bd224290"

inductive RegistryError where
  /-- an error of the bus, by its code -/
  | bus (code : String)
  /-- an error of Python, by its class -/
  | python (name : String)
  deriving DecidableEq

/-- Ed25519 over hexadecimal texts: a signature verifies under the key of its signer, and is valid
for one content only. -/
structure Ed25519 where
  /-- the public key of a private key -/
  publicKey : String → String
  /-- the signature of a private key over a text -/
  sign : String → String → String
  /-- a public key can be made from a text -/
  isKey : String → Bool
  /-- a signature is valid for a text under a public key -/
  verify : String → String → String → Bool
  publicKey_ne : ∀ privateKey, publicKey privateKey ≠ ""
  isKey_publicKey : ∀ privateKey, isKey (publicKey privateKey) = true
  verify_sign : ∀ privateKey content,
    verify (publicKey privateKey) (sign privateKey content) content = true
  unforgeable : ∀ publicKey signature content content', verify publicKey signature content = true →
    verify publicKey signature content' = true → content = content'

/-- `bytes.fromhex(text)` does not raise: digits in pairs, with white space between the pairs. -/
def isHex : List Char → Bool
  | [] => true
  | c :: s =>
    if c ∈ [' ', '\t', '\n', '\r', Char.ofNat 11, Char.ofNat 12] then isHex s
    else match s with
      | [] => false
      | d :: s => (hexValue c).isSome && (hexValue d).isSome && isHex s

structure BundleManifest where
  version : String
  revision : String
  constitutionalHash : String := BundleRegistry.constitutionalHash
  /-- `None` is what `pull_bundle` takes for a missing annotation -/
  timestamp : Option String
  roots : List String := ["acgs/governance"]
  /-- a list of dicts, unless `pull_bundle` read something else -/
  signatures : Json := .arr []
  metadata : JSONDict := []
  /-- what `__post_init__` checks -/
  hash_eq : constitutionalHash = BundleRegistry.constitutionalHash := by rfl

/-- A text or `None`, as a JSON value. -/
def jsonOf : Option String → Json
  | none => .null
  | some text => .str text

namespace BundleManifest

variable (S : Ed25519) (M : BundleManifest)

def toDict : JSONDict :=
  [("version", .str M.version), ("revision", .str M.revision), ("timestamp", jsonOf M.timestamp),
    ("constitutional_hash", .str M.constitutionalHash), ("roots", .arr (M.roots.map .str)),
    ("signatures", M.signatures), ("metadata", .obj M.metadata)]

/-- `to_dict` without the signatures, as it is signed. -/
def content : String :=
  dumpsSorted (.obj (M.toDict.filter fun member => member.1 ≠ "signatures"))

/-- The entry that `add_signature` appends. -/
def entry (keyid signature algorithm timestamp : String) : JSONDict :=
  [("keyid", .str keyid), ("sig", .str signature), ("alg", .str algorithm),
    ("timestamp", .str timestamp)]

/-- `add_signature`, at a time. -/
def addSignature (keyid signature algorithm timestamp : String) :
    Except RegistryError BundleManifest :=
  match M.signatures with
  | .arr entries =>
    .ok { M with
      signatures := .arr (entries ++ [.obj (entry keyid signature algorithm timestamp)]) }
  | _ => .error (.python "AttributeError")

def algorithmOf (members : JSONDict) : Json := (Json.lookup "alg" members).getD (.str "ed25519")

def isSupported : Json → Bool
  | .str alg => alg ∈ ["ed25519", "rsa-pss-sha256", "ecdsa-p256-sha256"]
  | _ => false

/-- `alg == "ed25519"` -/
def isEd25519 : Json → Bool
  | .str alg => alg = "ed25519"
  | _ => false

/-- Both log lines about an entry name its `keyid`. -/
def logged {α : Type} (members : JSONDict) (value : α) : Except RegistryError α :=
  match Json.lookup "keyid" members with
  | none => .error (.python "KeyError")
  | some _ => .ok value

def verifyEntry (publicKeyHex content : String) : Json → Except RegistryError Bool
  | .obj members =>
    let alg := algorithmOf members
    if isSupported alg = false then .ok false
    else match Json.lookup "sig" members with
      | none => .error (.python "KeyError")
      | some (.str signature) =>
        if isHex signature.toList = false then logged members false
        else if isEd25519 alg then logged members (S.verify publicKeyHex signature content)
        else .ok false
      | some _ => .error (.python "TypeError")
  | _ => .error (.python "AttributeError")

def verifyEntries (publicKeyHex content : String) : List Json → Except RegistryError Bool
  | [] => .ok false
  | entry :: rest => do
    let valid ← verifyEntry S publicKeyHex content entry
    let found ← verifyEntries publicKeyHex content rest
    return valid || found

/-- `verify_signature`.  An object that is no list has no entries to look at. -/
def verifySignature (publicKeyHex : String) : Except RegistryError Bool :=
  if M.signatures.truthy = false then .ok false
  else if S.isKey publicKeyHex = false then .ok false
  else match M.signatures with
    | .arr entries => verifyEntries S publicKeyHex M.content entries
    | .obj _ | .str _ => .error (.python "AttributeError")
    | _ => .error (.python "TypeError")

def computeDigest (sha256 : List UInt8 → String) : String :=
  sha256 (dumpsSorted (.obj M.toDict)).toUTF8.toList

/-! ## What verifying finds -/

section Verify

variable {S : Ed25519} {M : BundleManifest} {publicKeyHex content content' : String}

def ValidFor (S : Ed25519) (publicKeyHex content : String) (entry : Json) : Prop :=
  verifyEntry S publicKeyHex content entry = .ok true

theorem logged_eq_ok {α : Type} {members : JSONDict} {value v : α} :
    logged members value = .ok v ↔ (Json.lookup "keyid" members).isSome ∧ value = v := by
  unfold logged
  rcases Json.lookup "keyid" members with _ | keyid
  · simp
  · simp

theorem verifyEntry_obj {members : JSONDict} {valid : Bool} :
    verifyEntry S publicKeyHex content (.obj members) = .ok valid ↔
      (isSupported (algorithmOf members) = false ∧ valid = false) ∨
        (isSupported (algorithmOf members) = true ∧ ∃ signature,
          Json.lookup "sig" members = some (.str signature) ∧
            (isHex signature.toList = true ∧ isEd25519 (algorithmOf members) = false ∧
                valid = false ∨
              (isHex signature.toList = true → isEd25519 (algorithmOf members) = true) ∧
                (Json.lookup "keyid" members).isSome ∧
                valid = (isHex signature.toList && S.verify publicKeyHex signature content))) := by
  rcases hsupported : isSupported (algorithmOf members) with _ | _
  · simp [verifyEntry, hsupported]
  · rcases hsig : Json.lookup "sig" members with _ | sig
    · simp [verifyEntry, hsupported, hsig]
    · cases sig with
      | str signature =>
        rcases hhex : isHex signature.toList with _ | _
        · simp [verifyEntry, hsupported, hsig, hhex, logged_eq_ok]
        · rcases halg : isEd25519 (algorithmOf members) with _ | _
          · simp [verifyEntry, hsupported, hsig, hhex, halg]
          · simp [verifyEntry, hsupported, hsig, hhex, halg, logged_eq_ok]
            exact fun _ => eq_comm
      | _ => simp [verifyEntry, hsupported, hsig]

theorem verifyEntry_ok {entry : Json} {valid : Bool}
    (h : verifyEntry S publicKeyHex content entry = .ok valid) (content' : String) :
    ∃ valid', verifyEntry S publicKeyHex content' entry = .ok valid' := by
  cases entry with
  | obj members =>
    rcases verifyEntry_obj.mp h with hother | ⟨hsupported, signature, hsig, hsome⟩
    · exact ⟨valid, verifyEntry_obj.mpr (.inl hother)⟩
    · rcases hsome with hother | ⟨halg, hkeyid, -⟩
      · exact ⟨valid, verifyEntry_obj.mpr (.inr ⟨hsupported, signature, hsig, .inl hother⟩)⟩
      · exact ⟨_, verifyEntry_obj.mpr
          (.inr ⟨hsupported, signature, hsig, .inr ⟨halg, hkeyid, rfl⟩⟩)⟩
  | _ => cases h

theorem ValidFor.signature {entry : Json} (h : ValidFor S publicKeyHex content entry) :
    ∃ members signature, entry = .obj members ∧
      Json.lookup "sig" members = some (.str signature) ∧
        S.verify publicKeyHex signature content = true := by
  cases entry with
  | obj members =>
    rcases verifyEntry_obj.mp h with ⟨-, hfalse⟩ | ⟨-, signature, hsig, hsome⟩
    · cases hfalse
    · rcases hsome with ⟨-, -, hfalse⟩ | ⟨-, -, hvalid⟩
      · cases hfalse
      · exact ⟨members, signature, rfl, hsig, (Bool.and_eq_true _ _ ▸ hvalid.symm).2⟩
  | _ => cases h

theorem ValidFor.content_eq {entry : Json} (h : ValidFor S publicKeyHex content entry)
    (h' : ValidFor S publicKeyHex content' entry) : content = content' := by
  obtain ⟨members, signature, rfl, hsig, hverify⟩ := h.signature
  obtain ⟨members', signature', heq, hsig', hverify'⟩ := h'.signature
  cases heq
  rw [hsig] at hsig'
  cases hsig'
  exact S.unforgeable _ _ _ _ hverify hverify'

theorem verifyEntry_entry {keyid signature timestamp : String} :
    verifyEntry S publicKeyHex content (.obj (entry keyid signature "ed25519" timestamp)) =
      .ok (isHex signature.toList && S.verify publicKeyHex signature content) :=
  verifyEntry_obj.mpr (.inr ⟨rfl, signature, rfl, .inr ⟨fun _ => rfl, rfl, rfl⟩⟩)

theorem verifyEntries_eq_ok {entries : List Json} {found : Bool} :
    verifyEntries S publicKeyHex content entries = .ok found ↔
      (∀ entry ∈ entries, ∃ valid, verifyEntry S publicKeyHex content entry = .ok valid) ∧
        (found = true ↔ ∃ entry ∈ entries, ValidFor S publicKeyHex content entry) := by
  induction entries generalizing found with
  | nil => cases found <;> simp [verifyEntries]
  | cons entry rest ih =>
    rw [verifyEntries, List.forall_mem_cons, List.exists_mem_cons_iff]
    rcases hentry : verifyEntry S publicKeyHex content entry with e | valid
    · simp [bind, Except.bind]
    · have hvalid : ValidFor S publicKeyHex content entry ↔ valid = true := by
        rw [ValidFor, hentry, Except.ok.injEq]
      rw [hvalid]
      rcases hrest : verifyEntries S publicKeyHex content rest with e | found'
      · refine iff_of_false nofun ?_
        rintro ⟨⟨-, hall⟩, -⟩
        by_cases hsome : ∃ entry ∈ rest, ValidFor S publicKeyHex content entry
        · have hok := ih.mpr ⟨hall, iff_of_true rfl hsome⟩
          rw [hrest] at hok
          cases hok
        · have hok := ih.mpr ⟨hall, iff_of_false Bool.false_ne_true hsome⟩
          rw [hrest] at hok
          cases hok
      · obtain ⟨hall, hfound⟩ := ih.mp hrest
        rw [← hfound, ← Bool.or_eq_true, ← Bool.eq_iff_iff]
        have hret : (do
            let valid ← Except.ok (ε := RegistryError) valid
            let found ← Except.ok found'
            return valid || found) = Except.ok (valid || found') := rfl
        rw [hret, Except.ok.injEq, eq_comm]
        exact (and_iff_right ⟨⟨valid, rfl⟩, hall⟩).symm

/-- The signatures are a list whose entries can all be looked at, and one of them is valid for a
content. -/
def CarriesFor (S : Ed25519) (publicKeyHex content : String) (M : BundleManifest) : Prop :=
  ∃ entries, M.signatures = .arr entries ∧
    (∀ entry ∈ entries, ∃ valid, verifyEntry S publicKeyHex content entry = .ok valid) ∧
      ∃ entry ∈ entries, ValidFor S publicKeyHex content entry

theorem verifySignature_eq_true :
    M.verifySignature S publicKeyHex = .ok true ↔
      S.isKey publicKeyHex = true ∧ M.CarriesFor S publicKeyHex M.content := by
  unfold verifySignature CarriesFor
  rcases hkey : S.isKey publicKeyHex with _ | _
  · simp
  · simp only [Bool.true_eq_false, if_false, true_and]
    cases hsig : M.signatures with
    | arr entries =>
      simp only [Json.arr.injEq, exists_eq_left']
      rcases entries with _ | ⟨entry, rest⟩
      · simp [Json.truthy]
      · simp only [Json.truthy, List.isEmpty_cons, Bool.not_false, Bool.true_eq_false,
          if_false, verifyEntries_eq_ok, true_iff]
    | _ =>
      refine iff_of_false ?_ (by rintro ⟨_, ⟨⟩, -⟩)
      split
      · exact Bool.false_ne_true ∘ Except.ok.inj
      · rintro ⟨⟩

end Verify

/-! ## What is signed -/

/-- What `json.dumps` can be given: no dict has a key twice. -/
structure Dumpable (M : BundleManifest) : Prop where
  signatures : dumpable M.signatures = true
  metadata : dumpable (.obj M.metadata) = true

section Content

variable {M M' : BundleManifest}

def signedMembers (M : BundleManifest) : JSONDict :=
  [("version", .str M.version), ("revision", .str M.revision), ("timestamp", jsonOf M.timestamp),
    ("constitutional_hash", .str M.constitutionalHash), ("roots", .arr (M.roots.map .str)),
    ("metadata", .obj M.metadata)]

theorem content_eq (M : BundleManifest) : M.content = dumpsSorted (.obj M.signedMembers) := rfl

theorem dumpable_jsonOf (text : Option String) : dumpable (jsonOf text) = true := by
  rcases text with _ | text
  · rfl
  · rfl

theorem dumpable_strs (texts : List String) : dumpable (.arr (texts.map .str)) = true := by
  refine (dumpableItems_iff _).mpr fun x hx => ?_
  obtain ⟨text, -, rfl⟩ := List.mem_map.mp hx
  rfl

theorem nodup_signedMembers (M : BundleManifest) : (M.signedMembers.map (·.1)).Nodup := by
  show ["version", "revision", "timestamp", "constitutional_hash", "roots", "metadata"].Nodup
  decide

theorem dumpable_signedMembers (h : M.Dumpable) : dumpable (.obj M.signedMembers) = true := by
  rw [dumpable, Bool.and_eq_true]
  refine ⟨decide_eq_true (nodup_signedMembers M), (dumpableMembers_iff _).mpr fun m hm => ?_⟩
  simp only [signedMembers, List.mem_cons, List.not_mem_nil, or_false] at hm
  rcases hm with rfl | rfl | rfl | rfl | rfl | rfl
  · rfl
  · rfl
  · exact dumpable_jsonOf _
  · rfl
  · exact dumpable_strs _
  · exact h.metadata

theorem sortKeys_lookup_eq (h : M.Dumpable) (h' : M'.Dumpable) (heq : M.content = M'.content)
    {key : String} {x x' : Json} (hx : Json.lookup key M.signedMembers = some x)
    (hx' : Json.lookup key M'.signedMembers = some x') : sortKeys x = sortKeys x' := by
  rw [content_eq, content_eq,
    dumpsSorted_inj (dumpable_signedMembers h) (dumpable_signedMembers h')] at heq
  have hsorted := lookup_sortKeys (nodup_signedMembers M) (sortKeys.eq_2 _) hx
  have hsorted' := lookup_sortKeys (nodup_signedMembers M') (heq ▸ sortKeys.eq_2 _) hx'
  exact Option.some_inj.mp (hsorted.symm.trans hsorted')

theorem sortItems_strs (texts : List String) : sortItems (texts.map .str) = texts.map .str := by
  rw [sortItems_eq_map, List.map_map]
  rfl

/-- **The content tells the roots and the metadata apart.** -/
theorem content_inj (h : M.Dumpable) (h' : M'.Dumpable) (heq : M.content = M'.content) :
    M.roots = M'.roots ∧ sortKeys (.obj M.metadata) = sortKeys (.obj M'.metadata) := by
  have hmetadata (M : BundleManifest) :
      Json.lookup "metadata" M.signedMembers = some (.obj M.metadata) := rfl
  have hroots (M : BundleManifest) :
      Json.lookup "roots" M.signedMembers = some (.arr (M.roots.map .str)) := rfl
  refine ⟨?_, sortKeys_lookup_eq h h' heq (hmetadata M) (hmetadata M')⟩
  have hroots := sortKeys_lookup_eq h h' heq (hroots M) (hroots M')
  rw [sortKeys, sortKeys, sortItems_strs, sortItems_strs, Json.arr.injEq] at hroots
  exact List.map_injective_iff.mpr (fun _ _ => Json.str.inj) hroots

end Content

end BundleManifest

end EnhancedAgentBus.BundleRegistry
