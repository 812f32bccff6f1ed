import EnhancedAgentBus.Guardrails.AuditLog
import EnhancedAgentBus.Lib.Machine

/-!
# The file of the audit ledger

How the chain is written and read back: `_initialize_chain`, `add_entry` and `_persist_chain`, over
any number of processes one after another and of ledgers side by side in one.

The whole chain is written anew for each entry, over the file as it stands, and a file that is not
read counts as none.  So an entry is kept where its chain is written to the end before the ledger is
next constructed, and where the ledgers of one process do not write over each other's entries
(`neverLost`).

A write stops after any part of the text, and the caller goes on where that is an `OSError`; a
construction may find that it cannot read the file.  The directory of the file is taken to be there.
A file that is JSON but no chain, which this class never writes, fails the construction.

The two ghosts of the state are the chain that was last handed to `_persist_chain` and the blocks
that `add_entry` has returned.
-/

namespace EnhancedAgentBus.Guardrails

open JsonText

/-! ## The text of a chain -/

namespace LedgerBlock

def members (block : LedgerBlock) : List (String × Json) :=
  [("index", .int block.index), ("timestamp", .str block.timestamp), ("data", block.data.value),
    ("previous_hash", .str block.previousHash)] ++
    (block.constitutionalHash.map fun h => ("constitutional_hash", Json.str h)).toList ++
    [("hash", .str block.hash)]

def ofMembers (ms : List (String × Json)) : Option LedgerBlock :=
  match Json.lookup "index" ms, Json.lookup "timestamp" ms, Json.lookup "data" ms,
    Json.lookup "previous_hash" ms, Json.lookup "hash" ms with
  | some (.int index), some (.str timestamp), some data, some (.str previousHash),
      some (.str hash) =>
      if hdata : JsonText.dumpable data = true then
        let block : LedgerBlock :=
          { index, timestamp, data := ⟨data, hdata⟩, previousHash, constitutionalHash := none
            hash }
        match Json.lookup "constitutional_hash" ms with
        | none => some block
        | some (.str constitutionalHash) =>
          some { block with constitutionalHash := some constitutionalHash }
        | some _ => none
      else none
  | _, _, _, _, _ => none

theorem ofMembers_members (block : LedgerBlock) : ofMembers block.members = some block := by
  obtain ⟨index, timestamp, ⟨data, hdata⟩, previousHash, constitutionalHash, hash⟩ := block
  rcases constitutionalHash with _ | constitutionalHash
  · simp [ofMembers, members, Json.lookup, hdata]
  · simp [ofMembers, members, Json.lookup, hdata]

theorem dumpable_members (block : LedgerBlock) :
    JsonText.dumpable (.obj block.members) = true := by
  obtain ⟨index, timestamp, ⟨data, hdata⟩, previousHash, constitutionalHash, hash⟩ := block
  rcases constitutionalHash with _ | constitutionalHash
  · simp [JsonText.dumpable, dumpableMembers, members, hdata]
  · simp [JsonText.dumpable, dumpableMembers, members, hdata]

end LedgerBlock

/-- What `json.dump(self.blocks, f, indent=2)` writes. -/
def chainText (blocks : List LedgerBlock) : List Char :=
  write (indented 2) 0 (.arr (blocks.map fun block => .obj block.members))

def blockOf : Json → Option LedgerBlock
  | .obj ms => LedgerBlock.ofMembers ms
  | _ => none

inductive Loaded where
  /-- `json.JSONDecodeError` -/
  | undecodable
  /-- JSON, but not a list of blocks. -/
  | foreign
  | chain (blocks : List LedgerBlock)

def loadChain (text : List Char) : Loaded :=
  match loads text with
  | none => .undecodable
  | some (.arr items) =>
    match items.mapM blockOf with
    | some blocks => .chain blocks
    | none => .foreign
  | some _ => .foreign

theorem dumpable_chain (blocks : List LedgerBlock) :
    dumpable (.arr (blocks.map fun block => .obj block.members)) = true := by
  refine (dumpableItems_iff _).mpr fun x hx => ?_
  obtain ⟨block, -, rfl⟩ := List.mem_map.mp hx
  exact block.dumpable_members

theorem loadChain_chainText (blocks : List LedgerBlock) :
    loadChain (chainText blocks) = .chain blocks := by
  have hblocks : (blocks.map fun block => Json.obj block.members).mapM blockOf = some blocks := by
    induction blocks with
    | nil => rfl
    | cons block blocks ih =>
      rw [List.map_cons, List.mapM_cons, ih]
      simp [blockOf, LedgerBlock.ofMembers_members]
  rw [loadChain, chainText, loads_write _ (dumpable_chain blocks)]
  dsimp only
  rw [hblocks]

/-! ## The ledgers of a process, and the file -/

inductive WriteOutcome where
  /-- All of the text is written. -/
  | complete
  /-- `open` raises an `OSError`; the file stays as it is. -/
  | notOpened
  /-- An `OSError` after some characters. -/
  | stopped (characters : ℕ)
  /-- The process ends after some characters. -/
  | killed (characters : ℕ)

def WriteOutcome.leaves (outcome : WriteOutcome) (text : List Char) (file : Option (List Char)) :
    Option (List Char) :=
  match outcome with
  | complete => some text
  | notOpened => file
  | stopped characters => some (text.take characters)
  | killed characters => some (text.take characters)

def WriteOutcome.survives : WriteOutcome → Bool
  | killed _ => false
  | _ => true

structure LedgerSystem where
  file : Option (List Char) := none
  /-- The chains of the process's ledgers, in the order of their construction. -/
  ledgers : List (List LedgerBlock) := []
  /-- The chain last handed to `_persist_chain`. -/
  written : Option (List LedgerBlock) := none
  /-- The blocks that `add_entry` has returned. -/
  accepted : List LedgerBlock := []

namespace LedgerSystem

def persistChain (blocks : List LedgerBlock) (outcome : WriteOutcome) (s : LedgerSystem) :
    LedgerSystem :=
  { s with file := outcome.leaves (chainText blocks) s.file, written := some blocks }

/-- `_create_genesis_block`, at the end of which the ledger is constructed. -/
def createGenesis (sha256 : String → String) (now : String) (outcome : WriteOutcome)
    (s : LedgerSystem) : LedgerSystem :=
  let blocks := [genesisBlock sha256 now]
  let s := s.persistChain blocks outcome
  { s with ledgers := if outcome.survives then s.ledgers ++ [blocks] else [] }

/-- What a construction reads: `none` is an `OSError`. -/
def reading (canRead : Bool) (text : List Char) : Option Loaded :=
  if canRead then some (loadChain text) else none

/-- `BlockchainLedger(storage_path)` -/
def construct (sha256 : String → String) (now : String) (canRead : Bool) (outcome : WriteOutcome)
    (s : LedgerSystem) : LedgerSystem :=
  match s.file with
  | none => s.createGenesis sha256 now outcome
  | some text =>
    match reading canRead text with
    | some (.chain blocks) => { s with ledgers := s.ledgers ++ [blocks] }
    | some .foreign => s
    | some .undecodable => s.createGenesis sha256 now outcome
    | none => s.createGenesis sha256 now outcome

/-- `add_entry`, of one of the ledgers. -/
def addEntry (sha256 : String → String) (ledger : ℕ) (now : String) (entryData : EntryData)
    (outcome : WriteOutcome) (s : LedgerSystem) : LedgerSystem :=
  match s.ledgers[ledger]? with
  | none => s
  | some blocks =>
    match blocks.getLast? with
    | none => s
    | some previousBlock =>
      let newBlock := nextBlock sha256 previousBlock now entryData
      let s := s.persistChain (blocks ++ [newBlock]) outcome
      if outcome.survives then
        { s with
          ledgers := s.ledgers.set ledger (blocks ++ [newBlock])
          accepted := newBlock :: s.accepted }
      else { s with ledgers := [] }

end LedgerSystem

inductive LedgerEvent where
  | construct (now : String) (canRead : Bool) (outcome : WriteOutcome)
  | addEntry (ledger : ℕ) (now : String) (entryData : EntryData) (outcome : WriteOutcome)
  /-- The process ends, and another one begins. -/
  | restart

def LedgerSystem.step (sha256 : String → String) (s : LedgerSystem) : LedgerEvent → LedgerSystem
  | .construct now canRead outcome => s.construct sha256 now canRead outcome
  | .addEntry ledger now entryData outcome => s.addEntry sha256 ledger now entryData outcome
  | .restart => { s with ledgers := [] }

/-! ## What a construction keeps -/

section Kept

variable {sha256 : String → String} {s : LedgerSystem}

/-- **An accepted entry is not lost**: where a ledger is constructed, its chain has every accepted
block at its index; and a file that is not read is left as it is. -/
def LedgerEvent.Keeps (sha256 : String → String) (s : LedgerSystem) : LedgerEvent → Prop
  | .construct now canRead outcome =>
    (∀ blocks, (s.construct sha256 now canRead outcome).ledgers = s.ledgers ++ [blocks] →
      ∀ b ∈ s.accepted, ∃ i : ℕ, b.index = i ∧ blocks[i]? = some b) ∧
    ∀ text, s.file = some text →
      (∀ blocks, LedgerSystem.reading canRead text ≠ some (.chain blocks)) →
      (s.construct sha256 now canRead outcome).file = some text
  | _ => True

def LedgerSystem.Whole (s : LedgerSystem) : Prop :=
  ∀ blocks, s.written = some blocks → s.file = some (chainText blocks)

/-- A ledger is constructed where the file can be read and holds all of the chain last written (or
where there is no file yet, and no entry has been accepted), and an entry is added to a ledger whose
chain is the one last written. -/
def LedgerEvent.Careful (s : LedgerSystem) : LedgerEvent → Prop
  | .construct _ canRead _ =>
    (s.file.isSome → canRead = true) ∧ (s.Whole ∨ s.file = none ∧ s.accepted = [])
  | .addEntry ledger .. => ∀ blocks, s.ledgers[ledger]? = some blocks → s.written = some blocks
  | .restart => True

def Indexed (blocks : List LedgerBlock) : Prop :=
  blocks ≠ [] ∧ ∀ (i : ℕ) b, blocks[i]? = some b → b.index = i

theorem indexed_genesis (now : String) : Indexed [genesisBlock sha256 now] := by
  refine ⟨List.cons_ne_nil _ _, fun i b hb => ?_⟩
  cases i with
  | zero =>
    obtain rfl := Option.some_inj.mp hb
    rfl
  | succ i => cases hb

theorem Indexed.getLast? {blocks : List LedgerBlock} (h : Indexed blocks) :
    ∃ b, blocks.getLast? = some b ∧ b.index + 1 = blocks.length := by
  have hpos := List.length_pos_iff.mpr h.1
  have hlast : blocks.length - 1 < blocks.length := by omega
  have hget := List.getElem?_eq_getElem hlast
  refine ⟨blocks[blocks.length - 1], by rw [List.getLast?_eq_getElem?, hget], ?_⟩
  rw [h.2 _ _ hget]
  omega

theorem Indexed.concat {blocks : List LedgerBlock} (h : Indexed blocks) {b : LedgerBlock}
    (hb : b.index = blocks.length) : Indexed (blocks ++ [b]) := by
  refine ⟨List.append_ne_nil_of_right_ne_nil _ (List.cons_ne_nil _ _), fun i c hc => ?_⟩
  rcases Nat.lt_or_ge i blocks.length with hlt | hge
  · rw [List.getElem?_append_left hlt] at hc
    exact h.2 i c hc
  · rw [List.getElem?_append_right hge] at hc
    obtain ⟨hi, hc⟩ := List.getElem?_eq_some_iff.mp hc
    rw [List.length_singleton] at hi
    obtain rfl : i = blocks.length := by omega
    rw [List.getElem_singleton] at hc
    rw [← hc, hb]

structure Consistent (s : LedgerSystem) : Prop where
  indexed : ∀ blocks, s.written = some blocks → Indexed blocks
  kept : ∀ blocks, s.written = some blocks →
    ∀ b ∈ s.accepted, ∃ i : ℕ, b.index = i ∧ blocks[i]? = some b
  unwritten : s.written = none → s.file = none ∧ s.accepted = []

theorem Consistent.genesis (haccepted : s.accepted = []) (now : String)
    (outcome : WriteOutcome) : Consistent (s.createGenesis sha256 now outcome) := by
  refine ⟨fun blocks hblocks => ?_, fun blocks _ b hb => ?_, fun hnone => by cases hnone⟩
  · obtain rfl := Option.some_inj.mp hblocks
    exact indexed_genesis now
  · have hnone : b ∈ s.accepted := hb
    rw [haccepted] at hnone
    cases hnone

theorem Consistent.finds (h : Consistent s) {now : String} {canRead : Bool}
    {outcome : WriteOutcome} (hcareful : LedgerEvent.Careful s (.construct now canRead outcome)) :
    (s.file = none ∧ s.accepted = []) ∨ ∃ blocks text, s.written = some blocks ∧
      s.file = some text ∧ LedgerSystem.reading canRead text = some (.chain blocks) := by
  obtain ⟨hread, hwhole | hfresh⟩ := hcareful
  · rcases hwritten : s.written with _ | blocks
    · exact .inl (h.unwritten hwritten)
    · have hfile := hwhole blocks hwritten
      refine .inr ⟨blocks, _, rfl, hfile, ?_⟩
      rw [LedgerSystem.reading, if_pos (hread (by rw [hfile]; rfl)), loadChain_chainText]
  · exact .inl hfresh

theorem Consistent.construct (h : Consistent s) {now : String} {canRead : Bool}
    {outcome : WriteOutcome} (hcareful : LedgerEvent.Careful s (.construct now canRead outcome)) :
    LedgerEvent.Keeps sha256 s (.construct now canRead outcome) ∧
      Consistent (s.construct sha256 now canRead outcome) := by
  rcases h.finds hcareful with ⟨hfile, haccepted⟩ | ⟨blocks, text, hwritten, hfile, hreading⟩
  · have hconstruct : s.construct sha256 now canRead outcome =
        s.createGenesis sha256 now outcome := by rw [LedgerSystem.construct, hfile]
    refine ⟨⟨fun blocks _ b hb => ?_, fun text htext => ?_⟩, ?_⟩
    · rw [haccepted] at hb
      cases hb
    · rw [hfile] at htext
      cases htext
    · rw [hconstruct]
      exact Consistent.genesis haccepted now outcome
  · have hconstruct : s.construct sha256 now canRead outcome =
        { s with ledgers := s.ledgers ++ [blocks] } := by
      rw [LedgerSystem.construct, hfile]
      dsimp only
      rw [hreading]
    refine ⟨⟨fun blocks' hblocks' => ?_, fun text' htext' hnot => ?_⟩, ?_⟩
    · rw [hconstruct] at hblocks'
      obtain rfl := (List.cons.inj (List.append_cancel_left hblocks')).1
      exact h.kept blocks hwritten
    · obtain rfl := Option.some_inj.mp (hfile.symm.trans htext')
      exact absurd hreading (hnot blocks)
    · rw [hconstruct]
      exact ⟨h.indexed, h.kept, h.unwritten⟩

theorem Consistent.addEntry (h : Consistent s) {ledger : ℕ} {now : String} {entryData : EntryData}
    {outcome : WriteOutcome}
    (hcareful : LedgerEvent.Careful s (.addEntry ledger now entryData outcome)) :
    Consistent (s.addEntry sha256 ledger now entryData outcome) := by
  rw [LedgerSystem.addEntry]
  rcases hledger : s.ledgers[ledger]? with _ | blocks
  · exact h
  · have hwritten := hcareful blocks hledger
    have hindexed := h.indexed blocks hwritten
    obtain ⟨previousBlock, hlast, hindex⟩ := hindexed.getLast?
    have hnew := hindexed.concat (b := nextBlock sha256 previousBlock now entryData) hindex
    have hkept : ∀ b ∈ s.accepted, ∃ i : ℕ, b.index = i ∧
        (blocks ++ [nextBlock sha256 previousBlock now entryData])[i]? = some b := by
      intro b hb
      obtain ⟨i, hi, hget⟩ := h.kept blocks hwritten b hb
      refine ⟨i, hi, ?_⟩
      rw [List.getElem?_append_left (List.getElem?_eq_some_iff.mp hget).1, hget]
    dsimp only
    rw [hlast]
    dsimp only
    split
    · refine ⟨fun blocks' hblocks' => ?_, fun blocks' hblocks' b hb => ?_,
        fun hnone => by cases hnone⟩
      · obtain rfl := Option.some_inj.mp hblocks'
        exact hnew
      · obtain rfl := Option.some_inj.mp hblocks'
        rcases List.mem_cons.mp hb with rfl | hb
        · exact ⟨blocks.length, hindex, List.getElem?_concat_length⟩
        · exact hkept b hb
    · refine ⟨fun blocks' hblocks' => ?_, fun blocks' hblocks' b hb => ?_,
        fun hnone => by cases hnone⟩
      · obtain rfl := Option.some_inj.mp hblocks'
        exact hnew
      · obtain rfl := Option.some_inj.mp hblocks'
        exact hkept b hb

/-- **No accepted entry is lost** in a run whose events are careful. -/
theorem neverLost {es : List LedgerEvent}
    (h : Machine.Along (LedgerSystem.step sha256) LedgerEvent.Careful {} es) :
    Machine.Along (LedgerSystem.step sha256) (LedgerEvent.Keeps sha256) {} es := by
  refine h.imp Consistent ⟨by simp, by simp, fun _ => ⟨rfl, rfl⟩⟩ fun s e hs he => ?_
  cases e with
  | construct now canRead outcome => exact hs.construct he
  | addEntry ledger now entryData outcome => exact ⟨trivial, hs.addEntry he⟩
  | restart => exact ⟨trivial, hs.indexed, hs.kept, hs.unwritten⟩

end Kept

def recorded : List LedgerEvent :=
  [.construct "2026-01-01T00:00:00+00:00" true .complete,
    .addEntry 0 "2026-01-01T00:00:01+00:00" ⟨.obj [("action", .str "block")], by decide⟩ .complete]

theorem neverLost_recorded :
    Machine.Along (LedgerSystem.step id) (LedgerEvent.Keeps id) {}
      (recorded ++ [.restart, .construct "2026-01-01T00:00:02+00:00" true .complete]) := by
  refine neverLost ⟨⟨fun _ => rfl, .inr ⟨rfl, rfl⟩⟩, ?_, trivial, ⟨fun _ => rfl, .inl ?_⟩, trivial⟩
  · intro blocks hblocks
    exact hblocks
  · intro blocks hblocks
    obtain rfl := Option.some_inj.mp hblocks
    rfl

/-- The process ends in the middle of the next write: the file is not read, a new chain takes its
place, and the entry accepted before is gone. -/
theorem recorded_lost :
    ¬Machine.Along (LedgerSystem.step id) (LedgerEvent.Keeps id) {}
      (recorded ++ [.addEntry 0 "2026-01-01T00:00:02+00:00" ⟨.null, rfl⟩ (.killed 0),
        .construct "2026-01-01T00:00:03+00:00" true .complete]) := by
  rintro ⟨-, -, -, ⟨hkept, -⟩, -⟩
  obtain ⟨i, hi, hget⟩ := hkept [genesisBlock id "2026-01-01T00:00:03+00:00"] rfl _
    List.mem_cons_self
  have hone : (1 : ℤ) = i := hi
  obtain rfl : i = 1 := by omega
  cases hget

end EnhancedAgentBus.Guardrails
