import EnhancedAgentBus.Governance.Integrity
import EnhancedAgentBus.Json.Scan

/-!
# Signatures of bilateral audit entries

A signature is the HMAC of the fields of an entry, joined by `|`.  It says where one field ends and
the next begins for exactly those entries that have no `|` in a field (`bindsRecord_iff`).

The HMAC under the key is a parameter, as for governance paths.
-/

namespace EnhancedAgentBus.Federation

open Governance (CompareError IsHexHmac compareDigest isHexHmac_unary unary)

structure BilateralAuditEntry where
  localOrgId : String
  peerOrgId : String
  actionSummary : String
  localConstitutionalHash : String
  peerConstitutionalHash : String
  localSignature : String
  peerSignature : Option String := none
  bilateralStatus : String := "PENDING"
  timestamp : PyFloat
  entryId : String

namespace BilateralAuditEntry

variable (hmac : String → String) (entry : BilateralAuditEntry)

def textFields : List String :=
  [entry.entryId, entry.localOrgId, entry.peerOrgId, entry.actionSummary,
    entry.localConstitutionalHash, entry.peerConstitutionalHash]

def payloadFields : List String := entry.textFields ++ [entry.timestamp.text]

/-- `_signature_payload` -/
def signaturePayload : String := "|".intercalate entry.payloadFields

/-- `sign_bilateral_entry` -/
def sign : String := hmac entry.signaturePayload

/-- `verify_bilateral_signature` -/
def verifySignature (signature : String) : Except CompareError Bool :=
  compareDigest (entry.sign hmac) signature

variable {hmac} {entry}

theorem verifySignature_iff (h : IsHexHmac hmac) {signature : String} :
    entry.verifySignature hmac signature = .ok true ↔ signature = entry.sign hmac := by
  have hsign : Governance.isAscii (entry.sign hmac) = true := h.ascii _
  rw [verifySignature, compareDigest, hsign, Bool.true_and]
  constructor
  · intro haccept
    split at haccept
    · exact (of_decide_eq_true (Except.ok.inj haccept)).symm
    · cases haccept
  · rintro rfl
    rw [if_pos hsign, decide_eq_true rfl]

def SameRecord (entry other : BilateralAuditEntry) : Prop :=
  entry.entryId = other.entryId ∧ entry.localOrgId = other.localOrgId ∧
    entry.peerOrgId = other.peerOrgId ∧ entry.actionSummary = other.actionSummary ∧
    entry.localConstitutionalHash = other.localConstitutionalHash ∧
    entry.peerConstitutionalHash = other.peerConstitutionalHash ∧
    entry.timestamp = other.timestamp

theorem sameRecord_of_payloadFields {other : BilateralAuditEntry}
    (h : entry.payloadFields = other.payloadFields) : SameRecord entry other := by
  have htime : entry.timestamp.text = other.timestamp.text → entry.timestamp = other.timestamp := by
    cases entry.timestamp
    cases other.timestamp
    rintro rfl
    rfl
  simp only [payloadFields, textFields, List.cons_append, List.nil_append, List.cons.injEq,
    and_true] at h
  obtain ⟨hid, hlocal, hpeer, hsummary, hlocalHash, hpeerHash, htext⟩ := h
  exact ⟨hid, hlocal, hpeer, hsummary, hlocalHash, hpeerHash, htime htext⟩

def BindsRecord (hmac : String → String) (entry : BilateralAuditEntry) : Prop :=
  ∀ (other : BilateralAuditEntry) (signature : String),
    entry.verifySignature hmac signature = .ok true →
    other.verifySignature hmac signature = .ok true → SameRecord entry other

theorem bindsRecord_iff_payload (h : IsHexHmac hmac) :
    BindsRecord hmac entry ↔
      ∀ other : BilateralAuditEntry,
        other.signaturePayload = entry.signaturePayload → SameRecord entry other := by
  constructor
  · intro hbinds other hpayload
    refine hbinds other (entry.sign hmac) ((verifySignature_iff h).mpr rfl) ?_
    rw [verifySignature_iff h, sign, sign, hpayload]
  · intro hpayload other signature hentry hother
    have hsigns := ((verifySignature_iff h).mp hother).symm.trans ((verifySignature_iff h).mp hentry)
    exact hpayload other (h.injective hsigns)

/-! ## Where one field ends -/

theorem separator_notMem_repr {f : PyFloat} (h : JsonText.isRepr f = true) :
    '|' ∉ f.text.toList := by
  intro hmem
  rcases Bool.or_eq_true_iff.mp h with h | h
  · have hconstants : ∀ text ∈ ["nan", "inf", "-inf"], '|' ∉ text.toList := by simp
    exact hconstants _ (of_decide_eq_true h) hmem
  · have hchars := List.all_eq_true.mp (Bool.and_eq_true_iff.mp h).1
    exact absurd (hchars _ hmem) (by decide)

theorem exists_shifted (h : ∃ field ∈ entry.textFields, '|' ∈ field.toList) :
    ∃ other : BilateralAuditEntry,
      other.signaturePayload = entry.signaturePayload ∧ ¬SameRecord entry other := by
  have hpairs : ('|' ∈ entry.entryId.toList ∨ '|' ∈ entry.localOrgId.toList) ∨
      ('|' ∈ entry.peerOrgId.toList ∨ '|' ∈ entry.actionSummary.toList) ∨
      ('|' ∈ entry.localConstitutionalHash.toList ∨
        '|' ∈ entry.peerConstitutionalHash.toList) := by
    simpa [textFields, or_assoc] using h
  have hmoved {a b a' b' : String} (l r : List String)
      (htext : (String.singleton '|').intercalate [a', b'] =
        (String.singleton '|').intercalate [a, b]) :
      "|".intercalate (l ++ a' :: b' :: r) = "|".intercalate (l ++ a :: b :: r) :=
    HashChain.intercalate_congr_pair l r htext
  rcases hpairs with hpair | hpair | hpair
  · obtain ⟨a, b, htext, hne⟩ := HashChain.exists_join_ne hpair
    exact ⟨{ entry with entryId := a, localOrgId := b }, hmoved [] _ htext,
      fun hsame => hne ⟨hsame.1.symm, hsame.2.1.symm⟩⟩
  · obtain ⟨a, b, htext, hne⟩ := HashChain.exists_join_ne hpair
    exact ⟨{ entry with peerOrgId := a, actionSummary := b }, hmoved [_, _] _ htext,
      fun hsame => hne ⟨hsame.2.2.1.symm, hsame.2.2.2.1.symm⟩⟩
  · obtain ⟨a, b, htext, hne⟩ := HashChain.exists_join_ne hpair
    exact ⟨{ entry with localConstitutionalHash := a, peerConstitutionalHash := b },
      hmoved [_, _, _, _] _ htext,
      fun hsame => hne ⟨hsame.2.2.2.2.1.symm, hsame.2.2.2.2.2.1.symm⟩⟩

/-- **A signature binds the record** exactly where no field has a `|`. -/
theorem bindsRecord_iff (h : IsHexHmac hmac) (hrepr : JsonText.isRepr entry.timestamp = true) :
    BindsRecord hmac entry ↔ ∀ field ∈ entry.textFields, '|' ∉ field.toList := by
  rw [bindsRecord_iff_payload h]
  constructor
  · intro hbound field hfield hmem
    obtain ⟨other, hpayload, hdiffers⟩ := exists_shifted ⟨field, hfield, hmem⟩
    exact hdiffers (hbound other hpayload)
  · intro hfree other hpayload
    have htexts : (String.singleton '|').intercalate entry.payloadFields =
        (String.singleton '|').intercalate other.payloadFields := hpayload.symm
    refine sameRecord_of_payloadFields (HashChain.join_inj_of_free rfl ?_ htexts)
    intro field hfield
    rcases List.mem_append.mp hfield with hfield | hfield
    · exact hfree field hfield
    · obtain rfl := List.mem_singleton.mp hfield
      exact separator_notMem_repr hrepr

/-! ## A summary that is moved -/

/-- What `local` did with a peer at midnight. -/
def auditOf (peerOrgId actionSummary : String) : BilateralAuditEntry where
  localOrgId := "local"
  peerOrgId := peerOrgId
  actionSummary := actionSummary
  localConstitutionalHash := "608508a9bd224290"
  peerConstitutionalHash := "608508a9bd224290"
  localSignature := ""
  timestamp := ⟨"0.0", List.cons_ne_nil _ _⟩
  entryId := "entry"

theorem bindsRecord_iff_plain :
    IsHexHmac unary ∧ JsonText.isRepr (auditOf "acme" "audit").timestamp = true ∧
      (BindsRecord unary (auditOf "acme" "audit") ↔
        ∀ field ∈ (auditOf "acme" "audit").textFields, '|' ∉ field.toList) :=
  ⟨isHexHmac_unary, by decide, bindsRecord_iff isHexHmac_unary (by decide)⟩

/-- The name of a peer and the summary share a `|`. -/
theorem not_bindsRecord_shifted :
    IsHexHmac unary ∧ ¬BindsRecord unary (auditOf "acme|eu" "audit") := by
  refine ⟨isHexHmac_unary, fun h => ?_⟩
  have hbound := (bindsRecord_iff_payload isHexHmac_unary).mp h (auditOf "acme" "eu|audit") rfl
  exact absurd hbound.2.2.1 (by decide)

end BilateralAuditEntry

end EnhancedAgentBus.Federation
