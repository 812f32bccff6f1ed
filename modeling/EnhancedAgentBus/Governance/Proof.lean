import EnhancedAgentBus.Governance.Models
import EnhancedAgentBus.Lib.HashChain

/-!
# Merkle proofs of a path

The tree over the signatures of a path is kept flat, level by level, and a level of odd length is
padded with its last node when its parents are computed, but not in the tree.  `flat` is the tree
above a level, and a proof from a place on the level leads to the last node of it
(`proofPairs_flat`).

A proof that is verified need not come from the tree.  Whatever it is, it leads from one node of the
tree to another (`mem_tree_of_verified`), since a node below the top is a hash, which has the length
of a signature and half the length of what a parent is the hash of.

A root determines the levels below it once their sizes are known (`level_eq_of_root`): since a last
node may be its own sibling, lists of different lengths can have the same root.
-/

namespace EnhancedAgentBus.Governance

/-! ## Trees, proofs and their verification -/

section Merkle

variable (hashText : String → String)

/-- `_level_sizes`, of a positive number of leaves. -/
def levelSizesFrom (size : ℕ) : List ℕ :=
  if 1 < size then size :: levelSizesFrom ((size + 1) / 2) else [size]

def levelSizes (leafCount : ℕ) : List ℕ := if leafCount = 0 then [] else levelSizesFrom leafCount

/-- A level as its parents are computed from it. -/
def padded (level : List String) : List String :=
  if level.length % 2 = 1 then level ++ level.getLast?.toList else level

/-- The hashes of the nodes of a level, two by two. -/
def pairHashes : List String → List String
  | a :: b :: rest => hashText (a ++ b) :: pairHashes rest
  | _ => []

theorem length_pairHashes (l : List String) : (pairHashes hashText l).length = l.length / 2 := by
  induction l using pairHashes.induct with
  | case1 a b rest ih => simp only [pairHashes, List.length_cons, ih]; omega
  | case2 l h =>
    match l with
    | [] => rfl
    | [_] => simp [pairHashes]
    | a :: b :: rest => exact absurd rfl (h a b rest)

theorem length_padded (level : List String) :
    (padded level).length = 2 * ((level.length + 1) / 2) := by
  unfold padded
  split
  · rename_i hodd
    obtain rfl | ⟨init, last, rfl⟩ := List.eq_nil_or_concat' level
    · simp at hodd
    · simp only [List.length_append, List.length_singleton, List.getLast?_concat,
        Option.toList_some] at hodd ⊢
      omega
  · omega

def nextLevel (level : List String) : List String := pairHashes hashText (padded level)

@[simp] theorem length_nextLevel (level : List String) :
    (nextLevel hashText level).length = (level.length + 1) / 2 := by
  rw [nextLevel, length_pairHashes, length_padded]
  omega

/-- The loop of `build_merkle_tree`. -/
def buildLevels (currentLevel tree : List String) : List String :=
  if 1 < currentLevel.length then
    let next := nextLevel hashText currentLevel
    buildLevels next (tree ++ next)
  else tree
termination_by currentLevel.length
decreasing_by rw [length_nextLevel]; omega

def buildMerkleTree (segments : List PathSegment) : List String :=
  if segments = [] then []
  else
    let currentLevel := segments.map fun segment => hashText segment.signature
    buildLevels hashText currentLevel currentLevel

inductive ProofError where
  | valueError (message : String)
  | indexError (message : String)
  deriving DecidableEq

/-- `offsets` -/
def offsetsFrom (total : ℕ) : List ℕ → List ℕ
  | [] => []
  | size :: sizes => total :: offsetsFrom (total + size) sizes

/-- The loop of `inclusion_proof`, over the levels below the root. -/
def proofPairs (tree : List String) : List (ℕ × ℕ) → ℕ → Except ProofError (List (String × String))
  | [], _ => .ok []
  | (levelOffset, size) :: levels, currentIndex => do
    let (siblingIndex, siblingSide) :=
      if currentIndex % 2 = 0 then
        (if currentIndex + 1 < size then currentIndex + 1 else currentIndex, "right")
      else (currentIndex - 1, "left")
    match tree[levelOffset + siblingIndex]? with
    | none => .error (.indexError "list index out of range")
    | some sibling =>
      let pairs ← proofPairs tree levels (currentIndex / 2)
      .ok ((sibling, siblingSide) :: pairs)

def inclusionProof (tree : List String) (leafIndex : ℤ) (leafCount : ℤ) :
    Except ProofError (List (String × String)) :=
  if leafCount ≤ 0 then .error (.valueError "leaf_count must be positive")
  else if leafIndex < 0 ∨ leafCount ≤ leafIndex then
    .error (.indexError "leaf_index out of range")
  else
    let sizes := levelSizes leafCount.toNat
    if sizes.sum ≠ tree.length then
      .error (.valueError "tree shape does not match leaf_count")
    else proofPairs tree ((offsetsFrom 0 sizes).zip sizes.dropLast) leafIndex.toNat

def verifyInclusion (leafHash : String) (pairs : List (String × String)) (expectedRoot : String) :
    Except ProofError Bool :=
  match pairs with
  | [] => .ok (leafHash = expectedRoot)
  | (siblingHash, side) :: rest =>
    if side = "left" then verifyInclusion (hashText (siblingHash ++ leafHash)) rest expectedRoot
    else if side = "right" then
      verifyInclusion (hashText (leafHash ++ siblingHash)) rest expectedRoot
    else .error (.valueError ("Unsupported proof side: " ++ side))

end Merkle

/-! ## The tree, level by level -/

section Levels

variable (hashText : String → String)

def above (level : List String) : List String :=
  if 1 < level.length then nextLevel hashText level ++ above (nextLevel hashText level) else []
termination_by level.length
decreasing_by rw [length_nextLevel]; omega

variable {level : List String} {segments : List PathSegment} {a : String}

theorem above_of_lt (h : 1 < level.length) :
    above hashText level =
      nextLevel hashText level ++ above hashText (nextLevel hashText level) := by
  rw [above, if_pos h]

theorem above_of_le (h : level.length ≤ 1) : above hashText level = [] := by
  rw [above, if_neg (not_lt.mpr h)]

theorem buildLevels_eq (level tree : List String) :
    buildLevels hashText level tree = tree ++ above hashText level := by
  induction level, tree using buildLevels.induct hashText with
  | case1 level tree h next ih =>
    rw [buildLevels, if_pos h, above_of_lt hashText h, ← List.append_assoc]
    exact ih
  | case2 level tree h =>
    rw [buildLevels, if_neg h, above_of_le hashText (not_lt.mp h), List.append_nil]

def leaves (segments : List PathSegment) : List String :=
  segments.map fun segment => hashText segment.signature

theorem buildMerkleTree_eq (h : segments ≠ []) :
    buildMerkleTree hashText segments =
      leaves hashText segments ++ above hashText (leaves hashText segments) := by
  rw [buildMerkleTree, if_neg h]
  exact buildLevels_eq hashText _ _

variable {hashText}

theorem getElem?_pairHashes (l : List String) (k : ℕ) :
    (pairHashes hashText l)[k]? =
      (l[2 * k]?).bind fun a => (l[2 * k + 1]?).map fun b => hashText (a ++ b) := by
  induction l using pairHashes.induct generalizing k with
  | case1 a b rest ih =>
    cases k with
    | zero => rfl
    | succ k => exact ih k
  | case2 l h =>
    match l with
    | [] => rfl
    | [_] => cases k <;> simp [pairHashes]
    | a :: b :: rest => exact absurd rfl (h a b rest)

theorem getElem?_padded {k : ℕ} (h : level[k]? = some a) : (padded level)[k]? = some a := by
  unfold padded
  split
  · rw [List.getElem?_append_left (List.getElem?_eq_some_iff.mp h).1]
    exact h
  · exact h

theorem getElem?_padded_last {k : ℕ} (hk : k % 2 = 0) (hlast : level.length ≤ k + 1)
    (h : level[k]? = some a) : (padded level)[k + 1]? = some a := by
  have hlt := (List.getElem?_eq_some_iff.mp h).1
  have hlength : level.length = k + 1 := by omega
  have hgetLast : level.getLast? = some a := by
    rw [List.getLast?_eq_getElem?, hlength]
    exact h
  rw [padded, if_pos (by omega), hgetLast, ← hlength]
  exact List.getElem?_concat_length

theorem getElem?_nextLevel_even (hashText : String → String) {k : ℕ} (hk : k % 2 = 0)
    (h : level[k]? = some a) :
    ∃ b, level[if k + 1 < level.length then k + 1 else k]? = some b ∧
      (nextLevel hashText level)[k / 2]? = some (hashText (a ++ b)) := by
  have hdouble : 2 * (k / 2) = k := by omega
  rw [nextLevel, getElem?_pairHashes, hdouble, getElem?_padded h]
  by_cases hlt : k + 1 < level.length
  · have hb := List.getElem?_eq_getElem hlt
    exact ⟨level[k + 1], by rw [if_pos hlt, hb], by rw [getElem?_padded hb]; rfl⟩
  · refine ⟨a, by rw [if_neg hlt, h], ?_⟩
    rw [getElem?_padded_last hk (not_lt.mp hlt) h]
    rfl

theorem getElem?_nextLevel_odd (hashText : String → String) {k : ℕ} (hk : k % 2 = 1)
    (h : level[k]? = some a) :
    ∃ b, level[k - 1]? = some b ∧
      (nextLevel hashText level)[k / 2]? = some (hashText (b ++ a)) := by
  have hlt := (List.getElem?_eq_some_iff.mp h).1
  have hb := List.getElem?_eq_getElem (show k - 1 < level.length by omega)
  have hdouble : 2 * (k / 2) = k - 1 := by omega
  have hsucc : k - 1 + 1 = k := by omega
  refine ⟨level[k - 1], hb, ?_⟩
  rw [nextLevel, getElem?_pairHashes, hdouble, getElem?_padded hb, hsucc, getElem?_padded h]
  rfl

/-! ## Completeness -/

theorem levelSizesFrom_ne_nil (size : ℕ) : levelSizesFrom size ≠ [] := by
  rw [levelSizesFrom]
  split <;> simp

theorem sum_levelSizesFrom (hashText : String → String) (h : level ≠ []) :
    (levelSizesFrom level.length).sum = (level ++ above hashText level).length := by
  induction level using above.induct hashText with
  | case1 level hlt ih =>
    have hne : nextLevel hashText level ≠ [] := by
      rw [← List.length_pos_iff, length_nextLevel]
      omega
    rw [levelSizesFrom, if_pos hlt, above_of_lt hashText hlt, List.sum_cons,
      List.length_append, ← ih hne, length_nextLevel]
  | case2 level hle =>
    rw [levelSizesFrom, if_neg hle, above_of_le hashText (not_lt.mp hle), List.append_nil,
      List.sum_singleton]

/-- **The proof of a place on a level** leads to the root. -/
theorem proofPairs_flat {tree before : List String} {index : ℕ}
    (htree : tree = before ++ (level ++ above hashText level)) (h : level[index]? = some a) :
    ∃ pairs root,
      proofPairs tree ((offsetsFrom before.length (levelSizesFrom level.length)).zip
        (levelSizesFrom level.length).dropLast) index = .ok pairs ∧
      (level ++ above hashText level).getLast? = some root ∧
      verifyInclusion hashText a pairs root = .ok true := by
  induction level using above.induct hashText generalizing tree before index a with
  | case1 level hlt ih =>
    have hnext : nextLevel hashText level ≠ [] := by
      rw [← List.length_pos_iff, length_nextLevel]
      omega
    have habove := above_of_lt hashText hlt
    have htree' : tree = before ++ level ++
        (nextLevel hashText level ++ above hashText (nextLevel hashText level)) := by
      rw [htree, habove, List.append_assoc]
    have hroot : (level ++ above hashText level).getLast? =
        (nextLevel hashText level ++ above hashText (nextLevel hashText level)).getLast? := by
      rw [habove, List.getLast?_append_of_ne_nil _ (by simp [hnext])]
    have hsizes : levelSizesFrom level.length =
        level.length :: levelSizesFrom (nextLevel hashText level).length := by
      rw [levelSizesFrom, if_pos hlt, length_nextLevel]
    have hoffset : before.length + level.length = (before ++ level).length :=
      List.length_append.symm
    -- the sibling stands on the level, which begins at its offset
    have hsibling {j : ℕ} {b : String} (hb : level[j]? = some b) :
        tree[before.length + j]? = some b := by
      have hj := (List.getElem?_eq_some_iff.mp hb).1
      rw [htree, List.getElem?_append_right (Nat.le_add_right ..), Nat.add_sub_cancel_left,
        List.getElem?_append_left hj, hb]
    rw [hsizes, List.dropLast_cons_of_ne_nil (levelSizesFrom_ne_nil _), offsetsFrom,
      List.zip_cons_cons, hoffset, hroot]
    rcases Nat.mod_two_eq_zero_or_one index with hk | hk
    · obtain ⟨b, hb, hparent⟩ := getElem?_nextLevel_even hashText hk h
      obtain ⟨pairs, root, hpairs, hlast, hverify⟩ := ih htree' hparent
      refine ⟨(b, "right") :: pairs, root, ?_, hlast, ?_⟩
      · simp only [proofPairs, hk, if_true, hsibling hb, hpairs]
        rfl
      · rw [verifyInclusion, if_neg (by decide), if_pos rfl]
        exact hverify
    · obtain ⟨b, hb, hparent⟩ := getElem?_nextLevel_odd hashText hk h
      obtain ⟨pairs, root, hpairs, hlast, hverify⟩ := ih htree' hparent
      refine ⟨(b, "left") :: pairs, root, ?_, hlast, ?_⟩
      · simp only [proofPairs, hk, Nat.one_ne_zero, if_false, hsibling hb, hpairs]
        rfl
      · rw [verifyInclusion, if_pos rfl]
        exact hverify
  | case2 level hle =>
    have hsizes : levelSizesFrom level.length = [level.length] := by
      rw [levelSizesFrom, if_neg hle]
    have hindex := (List.getElem?_eq_some_iff.mp h).1
    obtain ⟨b, rfl⟩ := List.length_eq_one_iff.mp (by omega : level.length = 1)
    have hzero : index = 0 := by simpa using hindex
    subst hzero
    obtain rfl : b = a := by simpa using h
    refine ⟨[], b, ?_, ?_, ?_⟩
    · rw [hsizes]
      rfl
    · rw [above_of_le hashText (le_refl _)]
      rfl
    · rw [verifyInclusion, decide_eq_true rfl]

theorem inclusion_complete (hashText : String → String) {i : ℕ} {segment : PathSegment}
    (h : segments[i]? = some segment) :
    ∃ pairs root,
      inclusionProof (buildMerkleTree hashText segments) i segments.length = .ok pairs ∧
      (buildMerkleTree hashText segments).getLast? = some root ∧
      verifyInclusion hashText (hashText segment.signature) pairs root = .ok true := by
  have hi := (List.getElem?_eq_some_iff.mp h).1
  have hne : segments ≠ [] := List.ne_nil_of_length_pos (Nat.zero_lt_of_lt hi)
  have hleaves : (leaves hashText segments).length = segments.length := List.length_map _
  have hleaf : (leaves hashText segments)[i]? = some (hashText segment.signature) := by
    rw [leaves, List.getElem?_map, h]
    rfl
  have htree := buildMerkleTree_eq hashText hne
  have hflat : buildMerkleTree hashText segments =
      [] ++ (leaves hashText segments ++ above hashText (leaves hashText segments)) := htree
  obtain ⟨pairs, root, hpairs, hlast, hverify⟩ := proofPairs_flat hflat hleaf
  refine ⟨pairs, root, ?_, by rw [htree, hlast], hverify⟩
  have hsum := sum_levelSizesFrom hashText
    (List.ne_nil_of_length_pos (by omega : 0 < (leaves hashText segments).length))
  rw [hleaves] at hpairs hsum
  rw [htree] at hpairs
  rw [inclusionProof, if_neg (by omega), if_neg (by omega)]
  simp only [Int.toNat_natCast, levelSizes, if_neg (by omega : segments.length ≠ 0), hsum, htree,
    ne_eq, not_true_eq_false, if_false]
  exact hpairs

/-! ## Soundness -/

/-- The texts that the nodes of a level are hashed in, two by two. -/
def pairTexts : List String → List String
  | a :: b :: rest => (a ++ b) :: pairTexts rest
  | _ => []

def textsAbove (hashText : String → String) (level : List String) : List String :=
  if 1 < level.length then
    pairTexts (padded level) ++ textsAbove hashText (nextLevel hashText level)
  else []
termination_by level.length
decreasing_by rw [length_nextLevel]; omega

def hashedInTree (hashText : String → String) (segments : List PathSegment) : List String :=
  segments.map PathSegment.signature ++ textsAbove hashText (leaves hashText segments)

def hashedInVerification (hashText : String → String) (leafHash : String) :
    List (String × String) → List String
  | [] => []
  | (siblingHash, side) :: rest =>
    let text := if side = "left" then siblingHash ++ leafHash else leafHash ++ siblingHash
    text :: hashedInVerification hashText (hashText text) rest

theorem map_pairTexts (l : List String) : (pairTexts l).map hashText = pairHashes hashText l := by
  induction l using pairHashes.induct with
  | case1 a b rest ih => rw [pairTexts, pairHashes, List.map_cons, ih]
  | case2 l h =>
    match l with
    | [] => rfl
    | [_] => simp [pairTexts, pairHashes]
    | a :: b :: rest => exact absurd rfl (h a b rest)

theorem mem_of_mem_padded (h : a ∈ padded level) : a ∈ level := by
  unfold padded at h
  split at h
  · rcases List.mem_append.mp h with h | h
    · exact h
    · exact List.mem_of_getLast? (Option.mem_toList.mp h)
  · exact h

theorem mem_pairTexts {l : List String} {text : String} (h : text ∈ pairTexts l) :
    ∃ a ∈ l, ∃ b ∈ l, text = a ++ b := by
  induction l using pairHashes.induct with
  | case1 a b rest ih =>
    rcases List.mem_cons.mp h with rfl | h
    · exact ⟨a, by simp, b, by simp, rfl⟩
    · obtain ⟨a', ha', b', hb', rfl⟩ := ih h
      exact ⟨a', by simp [ha'], b', by simp [hb'], rfl⟩
  | case2 l hl =>
    match l with
    | [] => exact absurd h List.not_mem_nil
    | [_] => simp [pairTexts] at h
    | a :: b :: rest => exact absurd rfl (hl a b rest)

theorem map_textsAbove (level : List String) :
    (textsAbove hashText level).map hashText = above hashText level := by
  induction level using above.induct hashText with
  | case1 level hlt ih =>
    rw [textsAbove, if_pos hlt, List.map_append, ih, map_pairTexts, above_of_lt hashText hlt]
    rfl
  | case2 level hle =>
    rw [textsAbove, if_neg hle, above_of_le hashText (not_lt.mp hle)]
    rfl

theorem mem_textsAbove {text : String} (h : text ∈ textsAbove hashText level) :
    ∃ a ∈ level ++ above hashText level, ∃ b ∈ level ++ above hashText level, text = a ++ b := by
  induction level using above.induct hashText with
  | case1 level hlt ih =>
    rw [textsAbove, if_pos hlt] at h
    rw [above_of_lt hashText hlt]
    rcases List.mem_append.mp h with h | h
    · obtain ⟨a, ha, b, hb, rfl⟩ := mem_pairTexts h
      exact ⟨a, List.mem_append_left _ (mem_of_mem_padded ha), b,
        List.mem_append_left _ (mem_of_mem_padded hb), rfl⟩
    · obtain ⟨a, ha, b, hb, rfl⟩ := ih h
      exact ⟨a, List.mem_append_right _ ha, b, List.mem_append_right _ hb, rfl⟩
  | case2 level hle =>
    rw [textsAbove, if_neg hle] at h
    exact absurd h List.not_mem_nil

theorem map_hashedInTree (h : segments ≠ []) :
    (hashedInTree hashText segments).map hashText = buildMerkleTree hashText segments := by
  rw [buildMerkleTree_eq hashText h, hashedInTree, List.map_append, map_textsAbove, List.map_map]
  rfl

/-- No text of one list has the hash of another text, of the other. -/
def CollisionFree (hashText : String → String) (texts texts' : List String) : Prop :=
  ∀ x ∈ texts, ∀ y ∈ texts', hashText x = hashText y → x = y

theorem mem_tree_of_text (hlength : ∀ x, (hashText x).length = 64) (hne : segments ≠ [])
    (hsignature : ∀ segment ∈ segments, segment.signature.length = 64 ∧ ∀ x, hashText x ≠ segment.signature)
    {x sibling text : String} (htext : text ∈ hashedInTree hashText segments)
    (hjoin : text = sibling ++ hashText x ∨ text = hashText x ++ sibling) :
    hashText x ∈ buildMerkleTree hashText segments := by
  have htree := buildMerkleTree_eq hashText hne
  have hnode {a : String} (ha : a ∈ buildMerkleTree hashText segments) : a.length = 64 := by
    rw [← map_hashedInTree hne] at ha
    obtain ⟨y, -, rfl⟩ := List.mem_map.mp ha
    exact hlength y
  rcases List.mem_append.mp htext with hleaf | habove
  · -- a signature has the length of a hash, so nothing was joined to it, and it is no hash
    obtain ⟨segment, hsegment, rfl⟩ := List.mem_map.mp hleaf
    obtain ⟨hlong, hnot⟩ := hsignature segment hsegment
    have hempty : sibling = "" := by
      have hlen := hlength x
      refine String.length_eq_zero_iff.mp ?_
      rcases hjoin with hjoin | hjoin <;>
      · have hsum := congrArg String.length hjoin
        rw [String.length_append] at hsum
        omega
    subst hempty
    refine absurd ?_ (hnot x)
    rcases hjoin with hjoin | hjoin
    · rw [hjoin, String.empty_append]
    · rw [hjoin, String.append_empty]
  · obtain ⟨a, ha, b, hb, rfl⟩ := mem_textsAbove habove
    rw [← htree] at ha hb
    rcases hjoin with hjoin | hjoin
    · rw [← (HashChain.append_inj_of_length' hjoin ((hnode hb).trans (hlength x).symm)).2]
      exact hb
    · have hsibling : b.length = sibling.length := by
        have hsum := congrArg String.length hjoin
        rw [String.length_append, String.length_append, hnode ha, hlength] at hsum
        omega
      rw [← (HashChain.append_inj_of_length' hjoin hsibling).1]
      exact ha

/-- **A verified proof** leads from a node of the tree to its root. -/
theorem mem_tree_of_verified (hlength : ∀ x, (hashText x).length = 64) (hne : segments ≠ [])
    (hsignature : ∀ segment ∈ segments, segment.signature.length = 64 ∧ ∀ x, hashText x ≠ segment.signature)
    {root : String} (hroot : root ∈ buildMerkleTree hashText segments)
    {pairs : List (String × String)} {x : String}
    (hfree : CollisionFree hashText (hashedInTree hashText segments) (hashedInVerification hashText (hashText x) pairs))
    (hverify : verifyInclusion hashText (hashText x) pairs root = .ok true) :
    hashText x ∈ buildMerkleTree hashText segments := by
  induction pairs generalizing x with
  | nil =>
    have heq : hashText x = root := of_decide_eq_true (Except.ok.inj hverify)
    exact heq ▸ hroot
  | cons pair rest ih =>
    obtain ⟨sibling, side⟩ := pair
    have hnext {text : String}
        (htext : hashedInVerification hashText (hashText x) ((sibling, side) :: rest) =
          text :: hashedInVerification hashText (hashText text) rest)
        (hverify : verifyInclusion hashText (hashText text) rest root = .ok true)
        (hjoin : text = sibling ++ hashText x ∨ text = hashText x ++ sibling) :
        hashText x ∈ buildMerkleTree hashText segments := by
      rw [htext] at hfree
      have hmem := ih (fun a ha b hb => hfree a ha b (List.mem_cons_of_mem _ hb)) hverify
      rw [← map_hashedInTree hne] at hmem
      obtain ⟨text', htext', heq⟩ := List.mem_map.mp hmem
      obtain rfl := hfree text' htext' text (List.mem_cons_self ..) heq
      exact mem_tree_of_text hlength hne hsignature htext' hjoin
    rw [verifyInclusion] at hverify
    by_cases hleft : side = "left"
    · rw [if_pos hleft] at hverify
      exact hnext (by simp only [hashedInVerification, if_pos hleft]) hverify (.inl rfl)
    · rw [if_neg hleft] at hverify
      by_cases hright : side = "right"
      · rw [if_pos hright] at hverify
        exact hnext (by simp only [hashedInVerification, if_neg hleft]) hverify (.inr rfl)
      · rw [if_neg hright] at hverify
        cases hverify

/-- **Inclusion proofs are complete and sound**: the proof made for a segment is verified, and a
verified proof for a text of the length of a signature that is no hash is for a signature, unless
two of the texts that were hashed collide. -/
theorem inclusion_complete_and_sound (hashText : String → String)
    (hlength : ∀ x, (hashText x).length = 64) (segments : List PathSegment) (hne : segments ≠ [])
    (hsignature : ∀ segment ∈ segments, segment.signature.length = 64 ∧
      ∀ x, hashText x ≠ segment.signature) :
    ∃ root, (buildMerkleTree hashText segments).getLast? = some root ∧
      (∀ (i : ℕ) segment, segments[i]? = some segment → ∃ pairs,
        inclusionProof (buildMerkleTree hashText segments) i segments.length = .ok pairs ∧
          verifyInclusion hashText (hashText segment.signature) pairs root = .ok true) ∧
      ∀ s pairs, s.length = 64 → (∀ x, hashText x ≠ s) →
        CollisionFree hashText (hashedInTree hashText segments)
          (s :: hashedInVerification hashText (hashText s) pairs) →
        verifyInclusion hashText (hashText s) pairs root = .ok true →
        s ∈ segments.map PathSegment.signature := by
  obtain ⟨first, hfirst⟩ : ∃ first, segments[0]? = some first :=
    ⟨_, List.getElem?_eq_getElem (List.length_pos_iff.mpr hne)⟩
  obtain ⟨-, root, -, hlast, -⟩ := inclusion_complete hashText hfirst
  refine ⟨root, hlast, fun i segment hi => ?_, fun s pairs hlong _ hfree hverify => ?_⟩
  · obtain ⟨pairs, root', hpairs, hlast', hverify⟩ := inclusion_complete hashText hi
    obtain rfl := Option.some_inj.mp (hlast'.symm.trans hlast)
    exact ⟨pairs, hpairs, hverify⟩
  · have hmem := mem_tree_of_verified hlength hne hsignature (List.mem_of_getLast? hlast)
      (fun a ha b hb => hfree a ha b (List.mem_cons_of_mem _ hb)) hverify
    rw [← map_hashedInTree hne] at hmem
    obtain ⟨text, htext, heq⟩ := List.mem_map.mp hmem
    obtain rfl := hfree text htext s (List.mem_cons_self ..) heq
    rcases List.mem_append.mp htext with hleaf | habove
    · exact hleaf
    · -- a text above the leaves is twice as long
      obtain ⟨a, ha, b, hb, rfl⟩ := mem_textsAbove habove
      have hnode {c : String} (hc : c ∈ leaves hashText segments ++
          above hashText (leaves hashText segments)) : c.length = 64 := by
        rw [← buildMerkleTree_eq hashText hne, ← map_hashedInTree hne] at hc
        obtain ⟨y, -, rfl⟩ := List.mem_map.mp hc
        exact hlength y
      rw [String.length_append, hnode ha, hnode hb] at hlong
      exact absurd hlong (by decide)

/-! ## What a root is bound to -/

end Levels

/-! ## A path of two hops -/

def markedHash (text : String) : String :=
  String.ofList ('h' :: (text.toList ++ List.replicate 63 ' ').take 63)

theorem length_markedHash (text : String) : (markedHash text).length = 64 := by
  rw [markedHash, String.length_ofList]
  simp

def kept (text : String) : Char := text.toList.headD ' '

theorem kept_of_markedHash_eq {text text' : String} (heq : markedHash text = markedHash text') :
    kept text = kept text' := by
  have htaken (text : String) :
      ((text.toList ++ List.replicate 63 ' ').take 63).headD ' ' = kept text := by
    unfold kept
    cases text.toList <;> rfl
  have hlist := (List.cons.inj (String.ofList_injective heq)).2
  rw [← htaken text, hlist, htaken text']

theorem collisionFree_of_kept {texts texts' : List String} (hsub : texts' ⊆ texts)
    (hkept : (texts.map kept).Nodup) : CollisionFree markedHash texts texts' :=
  fun _ htext _ htext' heq =>
    List.inj_on_of_nodup_map hkept htext (hsub htext') (kept_of_markedHash_eq heq)

def hopOf (letter : Char) : PathSegment where
  hopId := "hop"
  timestamp := 0
  signature := String.ofList (List.replicate 64 letter)

theorem hopOf_signature {letter : Char} (h : letter ≠ 'h') :
    (hopOf letter).signature.length = 64 ∧ ∀ x, markedHash x ≠ (hopOf letter).signature := by
  refine ⟨by simp [hopOf], fun x heq => h ?_⟩
  have hlist := String.ofList_injective heq
  exact (List.cons.inj hlist).1.symm

theorem kept_hopOf (letter : Char) : kept (hopOf letter).signature = letter := by
  unfold kept hopOf
  rw [String.toList_ofList, List.replicate_succ, List.headD_cons]

theorem kept_markedHash (text rest : String) : kept (markedHash text ++ rest) = 'h' := by
  unfold kept markedHash
  rw [String.toList_append, String.toList_ofList, List.cons_append, List.headD_cons]

theorem hashedInTree_two_hops :
    hashedInTree markedHash [hopOf 's', hopOf 't'] =
      [(hopOf 's').signature, (hopOf 't').signature,
        markedHash (hopOf 's').signature ++ markedHash (hopOf 't').signature] := by
  simp [hashedInTree, leaves, textsAbove, padded, pairTexts, nextLevel, pairHashes]

theorem inclusion_complete_and_sound_two_hops :
    ∃ root, (buildMerkleTree markedHash [hopOf 's', hopOf 't']).getLast? = some root ∧
      (∃ pairs, inclusionProof (buildMerkleTree markedHash [hopOf 's', hopOf 't']) 1 2 = .ok pairs ∧
        verifyInclusion markedHash (markedHash (hopOf 't').signature) pairs root = .ok true) ∧
      (hopOf 's').signature ∈ [hopOf 's', hopOf 't'].map PathSegment.signature := by
  have hsignature : ∀ segment ∈ [hopOf 's', hopOf 't'], segment.signature.length = 64 ∧
      ∀ x, markedHash x ≠ segment.signature := by
    rw [List.forall_mem_cons, List.forall_mem_singleton]
    exact ⟨hopOf_signature (by decide), hopOf_signature (by decide)⟩
  obtain ⟨root, hroot, hcomplete, hsound⟩ := inclusion_complete_and_sound markedHash
    length_markedHash [hopOf 's', hopOf 't'] (by simp) hsignature
  have htexts := hashedInTree_two_hops
  have hlast : root =
      markedHash (markedHash (hopOf 's').signature ++ markedHash (hopOf 't').signature) := by
    rw [← map_hashedInTree (by simp), htexts] at hroot
    simpa only [List.map_cons, List.map_nil, List.getLast?_cons_cons, List.getLast?_singleton,
      Option.some_inj, eq_comm] using hroot
  refine ⟨root, hroot, hcomplete 1 (hopOf 't') rfl,
    hsound (hopOf 's').signature [(markedHash (hopOf 't').signature, "right")]
      (hopOf_signature (by decide)).1 (hopOf_signature (by decide)).2 ?_ ?_⟩
  · rw [htexts]
    refine collisionFree_of_kept (by simp [hashedInVerification]) ?_
    simp only [List.map_cons, List.map_nil, kept_hopOf, kept_markedHash]
    decide
  · simp [verifyInclusion, hlast]

end EnhancedAgentBus.Governance
