import EnhancedAgentBus.Json.Text

/-!
# The audit ledger

`BlockchainLedger`: a list of blocks, each with the hash of the block before it and with a hash of
its own content.  A chain is verified from its second block on, so of the first block only the hash
is looked at, and that as a field: two verified chains that end in one hash are the same exactly
where they are of one length and begin with the same content (`sameChain_iff`).

The hash is a parameter.  An entry is a value that `json.dumps` can be given, and two entries are
the same where they differ in the order of their keys only, as `==` of two dictionaries has it.  The
log calls and the queries on blocks are left out.
-/

namespace EnhancedAgentBus.Guardrails

open JsonText

/-! ## Blocks -/

def constitutionalHash : String := "608508a9bd224290"

structure EntryData where
  value : Json
  dumpable : dumpable value = true

structure LedgerBlock where
  index : ℤ
  timestamp : String
  data : EntryData
  previousHash : String
  constitutionalHash : Option String := some Guardrails.constitutionalHash
  hash : String

namespace LedgerBlock

def contentMembers (block : LedgerBlock) : List (String × Json) :=
  [("index", .int block.index), ("timestamp", .str block.timestamp), ("data", block.data.value),
    ("previous_hash", .str block.previousHash),
    ("constitutional_hash", .str (block.constitutionalHash.getD Guardrails.constitutionalHash))]

/-- `_calculate_block_hash` -/
def calculateHash (sha256 : String → String) (block : LedgerBlock) : String :=
  sha256 (dumpsSorted (.obj block.contentMembers))

def sealed (sha256 : String → String) (block : LedgerBlock) : LedgerBlock :=
  { block with hash := block.calculateHash sha256 }

/-- What two blocks hold besides their hashes is the same. -/
structure SameContent (b b' : LedgerBlock) : Prop where
  index : b.index = b'.index
  timestamp : b.timestamp = b'.timestamp
  data : sortKeys b.data.value = sortKeys b'.data.value
  previousHash : b.previousHash = b'.previousHash

structure Same (b b' : LedgerBlock) : Prop extends SameContent b b' where
  hash : b.hash = b'.hash

end LedgerBlock

/-- `_create_genesis_block` -/
def genesisBlock (sha256 : String → String) (now : String) : LedgerBlock :=
  LedgerBlock.sealed sha256
    { index := 0
      timestamp := now
      data := ⟨.obj [("type", .str "genesis")], by decide⟩
      previousHash := String.ofList (List.replicate 64 '0')
      hash := "" }

/-- The block that `add_entry` makes. -/
def nextBlock (sha256 : String → String) (previousBlock : LedgerBlock) (now : String)
    (entryData : EntryData) : LedgerBlock :=
  LedgerBlock.sealed sha256
    { index := previousBlock.index + 1
      timestamp := now
      data := entryData
      previousHash := previousBlock.hash
      hash := "" }

def verifyChainIntegrity (sha256 : String → String) : List LedgerBlock → Bool
  | prev :: curr :: rest =>
    curr.previousHash == prev.hash && curr.hash == curr.calculateHash sha256 &&
      verifyChainIntegrity sha256 (curr :: rest)
  | _ => true

def lastHash (blocks : List LedgerBlock) : Option String := blocks.getLast?.map (·.hash)

/-! ## What a hash determines -/

namespace LedgerBlock

variable {b b' : LedgerBlock} {sha256 : String → String}

theorem nodup_contentMembers (b : LedgerBlock) : (b.contentMembers.map (·.1)).Nodup := by
  simp [contentMembers]

theorem dumpable_content (b : LedgerBlock) : JsonText.dumpable (.obj b.contentMembers) = true := by
  have hdata := b.data.dumpable
  simp [JsonText.dumpable, dumpableMembers, contentMembers, hdata]

theorem sameContent_of_calculateHash (hinj : Function.Injective sha256)
    (h : b.calculateHash sha256 = b'.calculateHash sha256) : SameContent b b' := by
  have hsort := (dumpsSorted_inj b.dumpable_content b'.dumpable_content).mp (hinj h)
  obtain ⟨ms, hms⟩ : ∃ ms, sortKeys (.obj b.contentMembers) = .obj ms := ⟨_, rfl⟩
  have hfield {k : String} {x x' : Json} (hx : (k, x) ∈ b.contentMembers)
      (hx' : (k, x') ∈ b'.contentMembers) : sortKeys x = sortKeys x' := by
    have hlookup := lookup_sortKeys b.nodup_contentMembers hms
      ((lookup_eq_some_iff b.nodup_contentMembers).mpr hx)
    rw [lookup_sortKeys b'.nodup_contentMembers (hsort.symm.trans hms)
      ((lookup_eq_some_iff b'.nodup_contentMembers).mpr hx')] at hlookup
    exact (Option.some_inj.mp hlookup).symm
  have hindex : Json.int b.index = Json.int b'.index := hfield (.head _) (.head _)
  have htimestamp : Json.str b.timestamp = Json.str b'.timestamp :=
    hfield (.tail _ (.head _)) (.tail _ (.head _))
  have hdata := hfield (.tail _ (.tail _ (.head _))) (.tail _ (.tail _ (.head _)))
  have hprevious : Json.str b.previousHash = Json.str b'.previousHash :=
    hfield (.tail _ (.tail _ (.tail _ (.head _)))) (.tail _ (.tail _ (.tail _ (.head _))))
  refine ⟨?_, ?_, hdata, ?_⟩
  · injection hindex
  · injection htimestamp
  · injection hprevious

end LedgerBlock

/-! ## Two chains that end in one hash -/

section Chains

variable {sha256 : String → String}

theorem verify_cons_cons {prev curr : LedgerBlock} {rest : List LedgerBlock} :
    verifyChainIntegrity sha256 (prev :: curr :: rest) = true ↔
      curr.previousHash = prev.hash ∧ curr.hash = curr.calculateHash sha256 ∧
        verifyChainIntegrity sha256 (curr :: rest) = true := by
  simp [verifyChainIntegrity, and_assoc]

theorem lastHash_cons_cons (b c : LedgerBlock) (l : List LedgerBlock) :
    lastHash (b :: c :: l) = lastHash (c :: l) := by
  rw [lastHash, List.getLast?_cons_cons, lastHash]

theorem same_of_lastHash (hinj : Function.Injective sha256) {a b : LedgerBlock}
    {l m : List LedgerBlock} (hl : verifyChainIntegrity sha256 (a :: l) = true)
    (hm : verifyChainIntegrity sha256 (b :: m) = true) (hlength : l.length = m.length)
    (hlast : lastHash (a :: l) = lastHash (b :: m)) :
    a.hash = b.hash ∧ List.Forall₂ LedgerBlock.Same l m := by
  induction l generalizing a b m with
  | nil =>
    obtain rfl := List.length_eq_zero_iff.mp hlength.symm
    exact ⟨Option.some_inj.mp hlast, .nil⟩
  | cons c l ih =>
    rcases m with _ | ⟨d, m⟩
    · cases hlength
    · obtain ⟨hprevC, hhashC, hl⟩ := verify_cons_cons.mp hl
      obtain ⟨hprevD, hhashD, hm⟩ := verify_cons_cons.mp hm
      rw [lastHash_cons_cons, lastHash_cons_cons] at hlast
      obtain ⟨hhash, hrest⟩ := ih hl hm (Nat.succ_inj.mp hlength) hlast
      have hcontent : LedgerBlock.SameContent c d :=
        LedgerBlock.sameContent_of_calculateHash hinj (by rw [← hhashC, ← hhashD, hhash])
      exact ⟨by rw [← hprevC, ← hprevD, hcontent.previousHash], .cons ⟨hcontent, hhash⟩ hrest⟩

/-- **Which verified chains that end in one hash are the same**: those of one length whose first
blocks have one content. -/
theorem sameChain_iff (hinj : Function.Injective sha256) {chain chain' : List LedgerBlock}
    (hchain : verifyChainIntegrity sha256 chain = true)
    (hchain' : verifyChainIntegrity sha256 chain' = true)
    (hlast : lastHash chain = lastHash chain') :
    List.Forall₂ LedgerBlock.Same chain chain' ↔
      chain.length = chain'.length ∧
        ∀ genesis ∈ chain.head?, ∀ genesis' ∈ chain'.head?, genesis.SameContent genesis' := by
  constructor
  · intro h
    refine ⟨h.length_eq, ?_⟩
    rcases h with _ | ⟨hsame, _⟩
    · simp
    · rintro _ ⟨⟩ _ ⟨⟩
      exact hsame.toSameContent
  · rintro ⟨hlength, hgenesis⟩
    rcases chain with _ | ⟨a, l⟩
    · obtain rfl := List.length_eq_zero_iff.mp hlength.symm
      exact .nil
    · rcases chain' with _ | ⟨b, m⟩
      · cases hlength
      · obtain ⟨hhash, hrest⟩ := same_of_lastHash hinj hchain hchain'
          (Nat.succ_inj.mp hlength) hlast
        exact .cons ⟨hgenesis a rfl b rfl, hhash⟩ hrest

end Chains

theorem verify_nextBlock (sha256 : String → String) (previousBlock : LedgerBlock) (now : String)
    (entryData : EntryData) :
    verifyChainIntegrity sha256
      [previousBlock, nextBlock sha256 previousBlock now entryData] = true := by
  rw [verify_cons_cons]
  exact ⟨rfl, rfl, rfl⟩

def oneEntry (genesis : LedgerBlock) : List LedgerBlock :=
  [genesis, nextBlock id genesis "2026-01-01T00:00:01+00:00"
    ⟨.obj [("action", .str "block"), ("allowed", .bool false)], by decide⟩]

/-- The first block of a new ledger, and the same with another time and another payload. -/
def firstBlock : LedgerBlock := genesisBlock id "2026-01-01T00:00:00+00:00"

def editedBlock : LedgerBlock :=
  { firstBlock with timestamp := "1970-01-01T00:00:00+00:00", data := ⟨.null, rfl⟩ }

theorem sameChain_oneEntry :
    List.Forall₂ LedgerBlock.Same (oneEntry firstBlock) (oneEntry firstBlock) := by
  refine (sameChain_iff Function.injective_id (verify_nextBlock id firstBlock _ _)
    (verify_nextBlock id firstBlock _ _) rfl).mpr ⟨rfl, ?_⟩
  rintro _ ⟨⟩ _ ⟨⟩
  exact ⟨rfl, rfl, rfl, rfl⟩

/-- An edit of the first block keeps the verification and the last hash. -/
theorem editedBlock_verified :
    Function.Injective (id : String → String) ∧
      verifyChainIntegrity id (oneEntry firstBlock) = true ∧
      verifyChainIntegrity id (oneEntry editedBlock) = true ∧
      lastHash (oneEntry firstBlock) = lastHash (oneEntry editedBlock) ∧
      ¬List.Forall₂ LedgerBlock.Same (oneEntry firstBlock) (oneEntry editedBlock) := by
  refine ⟨Function.injective_id, verify_nextBlock id firstBlock _ _,
    verify_nextBlock id editedBlock _ _, rfl, fun h => ?_⟩
  cases h with
  | cons hsame =>
    have htimestamp := hsame.timestamp
    revert htimestamp
    decide

end EnhancedAgentBus.Guardrails
