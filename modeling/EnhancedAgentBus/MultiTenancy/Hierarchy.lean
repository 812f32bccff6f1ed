import EnhancedAgentBus.Lib.Forest
import EnhancedAgentBus.MultiTenancy.Tenants

/-!
# Operations on a whole subtree

What the recursive operations of a `TenantManager` reach.  A tenant is listed under its parent when
it is on both pages (`OnBothPages`); a subtree all of whose tenants are is suspended, deleted and
enumerated as a whole, and no other is enumerated (`reachesSubtree_iff`).

A deletion goes on over a repository that it has made smaller, in which a tenant is no further down
its pages than before (`onBothPages_of_sublist`).
-/

namespace EnhancedAgentBus.MultiTenancy

open Relation Forest

/-- The tenant is in the repository, with a parent. -/
def Child (repo : TenantRepository) (parentId childId : String) : Prop :=
  ∃ tenant ∈ repo.tenants, tenant.tenantId = childId ∧ tenant.parentTenantId = some parentId

/-- Fewer than a thousand tenants are listed before it, and fewer than a hundred of them have its
parent. -/
def OnBothPages (repo : TenantRepository) (tenantId : String) : Prop :=
  ∃ newer tenant older, TenantRepository.newestFirst repo.tenants = newer ++ tenant :: older ∧
    tenant.tenantId = tenantId ∧ newer.length < 1000 ∧
    (newer.filter (·.parentTenantId = tenant.parentTenantId)).length < 100

/-! ## The listing -/

section Listing

variable {repo : TenantRepository}

def childIds (repo : TenantRepository) (parentId : String) : List String :=
  (Manager.getChildTenants repo parentId).map Tenant.tenantId

theorem getChildTenants_eq (repo : TenantRepository) (parentId : String) :
    Manager.getChildTenants repo parentId =
      (((TenantRepository.newestFirst repo.tenants).take 1000).filter
        (·.parentTenantId = some parentId)).take 100 := by
  simp [Manager.getChildTenants, Manager.listTenants, TenantRepository.listTenants]

theorem newestFirst_perm (tenants : List Tenant) :
    (TenantRepository.newestFirst tenants).Perm tenants :=
  List.perm_insertionSort _ tenants

theorem getTenant_isSome_iff {tenantId : String} :
    (repo.getTenant tenantId).isSome ↔ ∃ t ∈ repo.tenants, t.tenantId = tenantId := by
  simp [TenantRepository.getTenant]

theorem mem_take_iff {l l₁ l₂ : List Tenant} {t : Tenant} {n : ℕ} (hl : l = l₁ ++ t :: l₂)
    (hnodup : l.Nodup) : t ∈ l.take n ↔ l₁.length < n := by
  subst hl
  rw [List.nodup_append] at hnodup
  constructor
  · intro hmem
    by_contra hle
    rw [List.take_append_of_le_length (not_lt.mp hle)] at hmem
    exact hnodup.2.2 t (List.mem_of_mem_take hmem) t (List.mem_cons_self ..) rfl
  · intro hlt
    obtain ⟨k, rfl⟩ := Nat.exists_eq_add_of_lt hlt
    rw [add_assoc, List.take_length_add_append, List.take_succ_cons]
    exact List.mem_append_right _ (List.mem_cons_self ..)

theorem nodup_newestFirst (repo : TenantRepository) :
    (TenantRepository.newestFirst repo.tenants).Nodup :=
  (newestFirst_perm _).nodup_iff.mpr (List.Nodup.of_map _ repo.nodup)

theorem tenant_unique {t t' : Tenant} (ht : t ∈ repo.tenants) (ht' : t' ∈ repo.tenants)
    (hid : t.tenantId = t'.tenantId) : t = t' :=
  List.inj_on_of_nodup_map repo.nodup ht ht' hid

theorem take_eq_append {l₁ : List Tenant} {n : ℕ} (hlt : l₁.length < n) (t : Tenant)
    (l₂ : List Tenant) :
    ∃ l₃, (l₁ ++ t :: l₂).take n = l₁ ++ t :: l₃ := by
  obtain ⟨k, rfl⟩ := Nat.exists_eq_add_of_lt hlt
  exact ⟨l₂.take k, by rw [add_assoc, List.take_length_add_append, List.take_succ_cons]⟩

theorem mem_getChildTenants_of_place {parentId : String} {t : Tenant} {newer older : List Tenant}
    (hparent : t.parentTenantId = some parentId)
    (hplace : TenantRepository.newestFirst repo.tenants = newer ++ t :: older) :
    t ∈ Manager.getChildTenants repo parentId ↔
      newer.length < 1000 ∧ (newer.filter (·.parentTenantId = t.parentTenantId)).length < 100 := by
  have hnodup := nodup_newestFirst repo
  rw [getChildTenants_eq, hparent]
  by_cases hlt : newer.length < 1000
  · obtain ⟨rest, hpage⟩ := take_eq_append hlt t older
    have hfilter : ((TenantRepository.newestFirst repo.tenants).take 1000).filter
        (·.parentTenantId = some parentId) =
        newer.filter (·.parentTenantId = some parentId) ++
          t :: rest.filter (·.parentTenantId = some parentId) := by
      rw [hplace, hpage, List.filter_append, List.filter_cons_of_pos (by simpa using hparent)]
    rw [mem_take_iff hfilter ((hnodup.sublist (List.take_sublist ..)).filter _)]
    exact (and_iff_right hlt).symm
  · refine iff_of_false (fun hmem => hlt ?_) fun h => hlt h.1
    exact (mem_take_iff hplace hnodup).mp (List.mem_of_mem_filter (List.mem_of_mem_take hmem))

theorem mem_getChildTenants_iff {parentId : String} {t : Tenant} :
    t ∈ Manager.getChildTenants repo parentId ↔
      t ∈ repo.tenants ∧ t.parentTenantId = some parentId ∧ OnBothPages repo t.tenantId := by
  have hmem {t' : Tenant} : t' ∈ TenantRepository.newestFirst repo.tenants ↔ t' ∈ repo.tenants :=
    (newestFirst_perm _).mem_iff
  constructor
  · intro h
    have hfilter := h
    rw [getChildTenants_eq] at hfilter
    have hfilter := List.mem_filter.mp (List.mem_of_mem_take hfilter)
    have hparent := of_decide_eq_true hfilter.2
    have hall := List.mem_of_mem_take hfilter.1
    obtain ⟨newer, older, hplace⟩ := List.append_of_mem hall
    exact ⟨hmem.mp hall, hparent, newer, t, older, hplace, rfl,
      (mem_getChildTenants_of_place hparent hplace).mp h⟩
  · rintro ⟨ht, hparent, newer, t', older, hplace, hid, hpages⟩
    have ht' : t' ∈ repo.tenants := hmem.mp (by rw [hplace]; simp)
    obtain rfl := tenant_unique ht' ht hid
    exact (mem_getChildTenants_of_place hparent hplace).mpr hpages

theorem mem_childIds_iff {parentId childId : String} :
    childId ∈ childIds repo parentId ↔
      Child repo parentId childId ∧ OnBothPages repo childId := by
  rw [childIds, List.mem_map]
  constructor
  · rintro ⟨t, ht, rfl⟩
    obtain ⟨hmem, hparent, hpages⟩ := mem_getChildTenants_iff.mp ht
    exact ⟨⟨t, hmem, rfl, hparent⟩, hpages⟩
  · rintro ⟨⟨t, hmem, rfl, hparent⟩, hpages⟩
    exact ⟨t, mem_getChildTenants_iff.mpr ⟨hmem, hparent, hpages⟩, rfl⟩

theorem nodup_childIds (repo : TenantRepository) (parentId : String) :
    (childIds repo parentId).Nodup := by
  have hids : ((TenantRepository.newestFirst repo.tenants).map Tenant.tenantId).Nodup :=
    ((newestFirst_perm _).map _).nodup_iff.mpr repo.nodup
  rw [childIds, getChildTenants_eq]
  refine hids.sublist (List.Sublist.map _ ?_)
  exact (List.take_sublist ..).trans (List.filter_sublist.trans (List.take_sublist ..))

/-! ## A smaller repository -/

abbrev Newer (t t' : Tenant) : Prop := t'.createdAt ≤ t.createdAt

instance : IsTrans Tenant Newer := ⟨fun _ _ _ h h' => le_trans h' h⟩

instance : Std.Total Newer := ⟨fun t t' => le_total t'.createdAt t.createdAt⟩

theorem newestFirst_sublist {l l' : List Tenant} (h : l'.Sublist l) :
    (TenantRepository.newestFirst l').Sublist (TenantRepository.newestFirst l) := by
  induction h with
  | slnil => exact List.Sublist.refl _
  | cons t _ ih => exact ih.trans (List.sublist_orderedInsert t _)
  | cons_cons t _ ih =>
    exact ih.orderedInsert_sublist t (List.pairwise_insertionSort Newer _)

theorem onBothPages_of_sublist {repo' : TenantRepository} {tenantId : String}
    (hsub : repo'.tenants.Sublist repo.tenants) (h : OnBothPages repo tenantId)
    (hleft : ∃ t ∈ repo'.tenants, t.tenantId = tenantId) : OnBothPages repo' tenantId := by
  obtain ⟨newer, t, older, hplace, rfl, hfirst, hsecond⟩ := h
  obtain ⟨t', ht', hid⟩ := hleft
  have ht : t ∈ repo.tenants := (newestFirst_perm _).mem_iff.mp (by rw [hplace]; simp)
  obtain rfl := tenant_unique (hsub.subset ht') ht hid
  have hnodup := nodup_newestFirst repo
  have hsublist := newestFirst_sublist hsub
  rw [hplace] at hnodup hsublist
  obtain ⟨l₁, l₂, hl, h₁, h₂⟩ := List.sublist_append_iff.mp hsublist
  rw [List.nodup_append, List.nodup_cons] at hnodup
  obtain ⟨-, ⟨hnotOlder, -⟩, hdisjoint⟩ := hnodup
  have hmem : t' ∈ l₁ ++ l₂ := hl ▸ (newestFirst_perm _).mem_iff.mpr ht'
  have hnot₁ : t' ∉ l₁ := fun hmem₁ =>
    hdisjoint t' (h₁.subset hmem₁) t' (List.mem_cons_self ..) rfl
  have hmem₂ : t' ∈ l₂ := (List.mem_append.mp hmem).resolve_left hnot₁
  rcases List.sublist_cons_iff.mp h₂ with holder | ⟨rest, rfl, -⟩
  · exact absurd (holder.subset hmem₂) hnotOlder
  · exact ⟨l₁, t', rest, hl, rfl, h₁.length_le.trans_lt hfirst,
      (h₁.filter _).length_le.trans_lt hsecond⟩

end Listing

/-! ## The forest -/

abbrev Descendant (repo : TenantRepository) : String → String → Prop := TransGen (Child repo)

abbrev TenantForest (repo : TenantRepository) : Prop :=
  ∀ tenantId, ¬ Descendant repo tenantId tenantId

section Subtree

variable {repo : TenantRepository}

theorem TenantForest.isForest (h : TenantForest repo) : IsForest (Child repo) where
  acyclic := h
  parent_unique := by
    rintro p q c ⟨t, ht, rfl, hp⟩ ⟨t', ht', hid, hq⟩
    obtain rfl := tenant_unique ht' ht hid
    exact Option.some_inj.mp (hp.symm.trans hq)

def AllListed (repo : TenantRepository) (tenantId : String) : Prop :=
  ∀ d, Descendant repo tenantId d → OnBothPages repo d

theorem AllListed.child {p c : String} (h : AllListed repo p) (hc : Child repo p c) :
    AllListed repo c :=
  fun d hd => h d (TransGen.head hc hd)

theorem AllListed.mem_childIds_iff {p c : String} (h : AllListed repo p) :
    c ∈ childIds repo p ↔ Child repo p c :=
  MultiTenancy.mem_childIds_iff.trans (and_iff_left_of_imp fun hc => h c (TransGen.single hc))

/-- The number of tenants below a tenant. -/
noncomputable def below (repo : TenantRepository) (tenantId : String) : ℕ :=
  size (Child repo) (repo.tenants.map Tenant.tenantId).toFinset tenantId

theorem below_le (repo : TenantRepository) (tenantId : String) :
    below repo tenantId ≤ repo.tenants.length :=
  (size_le ..).trans ((List.toFinset_card_le _).trans (List.length_map _).le)

theorem TenantForest.below_lt (h : TenantForest repo) {p c : String} (hc : Child repo p c) :
    below repo c < below repo p := by
  obtain ⟨t, ht, rfl, -⟩ := id hc
  exact h.isForest.size_lt hc (List.mem_toFinset.mpr (List.mem_map_of_mem ht))

/-! ## The enumeration -/

/-- The loop of the enumeration: every tenant taken up so far has had its children noted. -/
structure Noted (repo : TenantRepository) (root : String) (done toProcess : List String)
    (descendants : List Tenant) : Prop where
  once : (done ++ toProcess).Nodup
  noted : (done ++ toProcess).Perm (root :: descendants.map Tenant.tenantId)
  below : ∀ t ∈ descendants, t ∈ repo.tenants ∧ Descendant repo root t.tenantId
  children : ∀ c, c ∈ descendants.map Tenant.tenantId ↔ ∃ p ∈ done, c ∈ childIds repo p

theorem Noted.start (repo : TenantRepository) (root : String) : Noted repo root [] [root] [] where
  once := List.nodup_singleton root
  noted := .refl _
  below _ h := absurd h List.not_mem_nil
  children c := by simp

variable {root : String} {done : List String} {repo' : TenantRepository} {tenantId : String}
  {ids : String → Prop}

theorem Noted.next (hforest : TenantForest repo) {current : String} {toProcess : List String}
    {descendants : List Tenant} (h : Noted repo root done (current :: toProcess) descendants) :
    Noted repo root (done ++ [current]) (toProcess ++ childIds repo current)
      (descendants ++ Manager.getChildTenants repo current) := by
  have happend : done ++ [current] ++ (toProcess ++ childIds repo current) =
      (done ++ current :: toProcess) ++ childIds repo current := by simp
  have hnot : current ∉ done := by
    have honce := h.once
    rw [List.nodup_append] at honce
    exact fun hmem => honce.2.2 current hmem current (List.mem_cons_self ..) rfl
  have hroot : ReflTransGen (Child repo) root current := by
    have hmem : current ∈ root :: descendants.map Tenant.tenantId :=
      h.noted.mem_iff.mp (by simp)
    rcases List.mem_cons.mp hmem with rfl | hmem
    · exact .refl
    · obtain ⟨t, ht, rfl⟩ := List.mem_map.mp hmem
      exact (h.below t ht).2.to_reflTransGen
  refine ⟨?_, ?_, ?_, ?_⟩
  · rw [happend, List.nodup_append]
    refine ⟨h.once, nodup_childIds repo current, ?_⟩
    rintro a ha c hc rfl
    have hchild := (mem_childIds_iff.mp hc).1
    rcases List.mem_cons.mp (h.noted.mem_iff.mp ha) with rfl | hmem
    · exact hforest a (TransGen.tail' hroot hchild)
    · obtain ⟨p, hp, hap⟩ := (h.children a).mp hmem
      obtain rfl := hforest.isForest.parent_unique (mem_childIds_iff.mp hap).1 hchild
      exact hnot hp
  · rw [happend, List.map_append, ← List.cons_append]
    exact h.noted.append_right _
  · intro t ht
    rcases List.mem_append.mp ht with ht | ht
    · exact h.below t ht
    · obtain ⟨hmem, hparent, -⟩ := mem_getChildTenants_iff.mp ht
      exact ⟨hmem, TransGen.tail' hroot ⟨t, hmem, rfl, hparent⟩⟩
  · intro c
    rw [List.map_append, List.mem_append, h.children]
    simp only [List.mem_append, List.mem_singleton, or_and_right, exists_or, exists_eq_left]
    rfl

theorem Noted.length_le {toProcess : List String} {descendants : List Tenant}
    (h : Noted repo root done toProcess descendants) :
    (done ++ toProcess).length ≤ repo.tenants.length + 1 := by
  rw [h.noted.length_eq, List.length_cons, Nat.add_le_add_iff_right]
  have hnodup := (h.noted.nodup_iff.mp h.once).of_cons
  have hsub : descendants.map Tenant.tenantId ⊆ repo.tenants.map Tenant.tenantId :=
    List.map_subset _ fun t ht => (h.below t ht).1
  simpa using (hnodup.subperm hsub).length_le

/-- **The enumeration ends**, and has noted the children of all that it noted. -/
theorem processAll_eq (hforest : TenantForest repo) (turns : ℕ) {toProcess : List String}
    {descendants : List Tenant} (h : Noted repo root done toProcess descendants)
    (hturns : repo.tenants.length < turns + done.length) :
    ∃ all done', Manager.processAll turns repo toProcess descendants = some all ∧
      Noted repo root done' [] all := by
  induction turns generalizing done toProcess descendants with
  | zero =>
    rcases toProcess with _ | ⟨current, toProcess⟩
    · exact ⟨descendants, done, rfl, h⟩
    · have hle := h.length_le
      simp only [List.length_append, List.length_cons] at hle
      omega
  | succ turns ih =>
    rcases toProcess with _ | ⟨current, toProcess⟩
    · exact ⟨descendants, done, rfl, h⟩
    · refine ih (h.next hforest) ?_
      simp only [List.length_append, List.length_singleton]
      omega

theorem Noted.mem_done {c : String} {all : List Tenant} (h : Noted repo root done [] all) :
    c ∈ done ↔ c = root ∨ c ∈ all.map Tenant.tenantId := by
  have hnoted := h.noted
  rw [List.append_nil] at hnoted
  exact hnoted.mem_iff.trans List.mem_cons

theorem Noted.mem_of_descendant {d : String} {all : List Tenant} (h : Noted repo root done [] all)
    (hlisted : AllListed repo root) (hd : Descendant repo root d) :
    d ∈ all.map Tenant.tenantId := by
  induction hd with
  | single hc =>
    exact (h.children _).mpr ⟨root, h.mem_done.mpr (.inl rfl), hlisted.mem_childIds_iff.mpr hc⟩
  | tail hp hc ih =>
    exact (h.children _).mpr ⟨_, h.mem_done.mpr (.inr ih),
      mem_childIds_iff.mpr ⟨hc, hlisted _ (hp.tail hc)⟩⟩

theorem Noted.onBothPages {d : String} {all : List Tenant} (h : Noted repo root done [] all)
    (hd : d ∈ all.map Tenant.tenantId) : OnBothPages repo d := by
  obtain ⟨p, -, hp⟩ := (h.children d).mp hd
  exact (mem_childIds_iff.mp hp).2

/-! ## The suspension -/

/-- A tenant without what a suspension changes. -/
def Tenant.shape (t : Tenant) : Tenant := { t with status := .pending, suspensionReason := none }

/-- Two repositories with the same tenants, up to what a suspension changes. -/
def Alike (repo repo' : TenantRepository) : Prop :=
  repo'.tenants.map Tenant.shape = repo.tenants.map Tenant.shape

theorem map_newestFirst (l : List Tenant) :
    (TenantRepository.newestFirst l).map Tenant.shape =
      TenantRepository.newestFirst (l.map Tenant.shape) :=
  List.map_insertionSort Newer Newer Tenant.shape l fun _ _ _ _ => Iff.rfl

theorem Alike.childIds_eq (h : Alike repo repo') (parentId : String) :
    childIds repo' parentId = childIds repo parentId := by
  have key (repo : TenantRepository) : childIds repo parentId =
      ((((TenantRepository.newestFirst (repo.tenants.map Tenant.shape)).take 1000).filter
        (·.parentTenantId = some parentId)).take 100).map Tenant.tenantId := by
    rw [childIds, getChildTenants_eq, ← map_newestFirst, ← List.map_take, List.filter_map,
      ← List.map_take, List.map_map]
    rfl
  rw [key, key, h]

def Suspended (repo : TenantRepository) (tenantId : String) : Prop :=
  ∀ t ∈ repo.tenants, t.tenantId = tenantId → t.status = .suspended

theorem suspendTenant_alike {reason : Option String} {t : Tenant}
    (h : repo.suspendTenant tenantId reason = some (t, repo')) :
    Alike repo repo' ∧ Suspended repo' tenantId ∧ ∀ d, Suspended repo d → Suspended repo' d := by
  obtain ⟨tenant, -, heq⟩ := Option.map_eq_some_iff.mp h
  obtain ⟨rfl, rfl⟩ := Prod.mk.inj heq
  refine ⟨?_, ?_, ?_⟩
  · rw [Alike, List.map_map]
    refine List.map_congr_left fun t _ => ?_
    exact (apply_ite Tenant.shape ..).trans (ite_self _)
  · intro t ht hid
    obtain ⟨t', -, rfl⟩ := List.mem_map.mp ht
    by_cases hid' : t'.tenantId = tenantId
    · rw [if_pos hid']
      rfl
    · rw [if_neg hid'] at hid
      exact absurd hid hid'
  · intro d hd t ht hid
    obtain ⟨t', ht', rfl⟩ := List.mem_map.mp ht
    by_cases hid' : t'.tenantId = tenantId
    · rw [if_pos hid']
      rfl
    · rw [if_neg hid'] at hid ⊢
      exact hd t' ht' hid

theorem Alike.trans {repo'' : TenantRepository} (h : Alike repo repo') (h' : Alike repo' repo'') :
    Alike repo repo'' :=
  Eq.trans h' h

structure SuspendsAll (repo repo' : TenantRepository) (ids : String → Prop) : Prop where
  alike : Alike repo repo'
  suspended : ∀ d, ids d → Suspended repo' d
  kept : ∀ d, Suspended repo d → Suspended repo' d

theorem foldlM_suspends (repo : TenantRepository)
    (step : TenantRepository → Tenant → Option TenantRepository) (ids : String → String → Prop)
    (children : List Tenant)
    (hstep : ∀ c ∈ children, ∀ repo', Alike repo repo' → ∃ repo'', step repo' c = some repo'' ∧ SuspendsAll repo' repo'' (ids c.tenantId))
    (halike : Alike repo repo') :
    ∃ repo'', children.foldlM step repo' = some repo'' ∧
      SuspendsAll repo' repo'' fun d => ∃ c ∈ children, ids c.tenantId d := by
  induction children generalizing repo' with
  | nil =>
    refine ⟨repo', rfl, rfl, ?_, fun d hd => hd⟩
    rintro d ⟨c, hc, -⟩
    exact absurd hc List.not_mem_nil
  | cons c rest ih =>
    obtain ⟨repo₁, hone, h₁⟩ := hstep c (List.mem_cons_self ..) repo' halike
    obtain ⟨repo₂, hrest, h₂⟩ := ih (fun c' hc' => hstep c' (List.mem_cons_of_mem c hc'))
      (halike.trans h₁.alike)
    refine ⟨repo₂, by rw [List.foldlM_cons, hone]; exact hrest, h₁.alike.trans h₂.alike, ?_,
      fun d hd => h₂.kept d (h₁.kept d hd)⟩
    rintro d ⟨c', hc', hd⟩
    rcases List.mem_cons.mp hc' with rfl | hc'
    · exact h₂.kept d (h₁.suspended d hd)
    · exact h₂.suspended d ⟨c', hc', hd⟩

theorem Alike.suspendTenant_isSome (h : Alike repo repo')
    (hmem : ∃ t ∈ repo.tenants, t.tenantId = tenantId) (reason : Option String) :
    ∃ t repo'', repo'.suspendTenant tenantId reason = some (t, repo'') := by
  have hids : repo'.tenants.map Tenant.tenantId = repo.tenants.map Tenant.tenantId := by
    have hshape := congrArg (List.map Tenant.tenantId) h
    rwa [List.map_map, List.map_map] at hshape
  obtain ⟨t, ht, rfl⟩ := hmem
  obtain ⟨t', ht', hid⟩ := List.mem_map.mp (hids ▸ List.mem_map_of_mem (f := Tenant.tenantId) ht)
  obtain ⟨found, hfound⟩ :=
    Option.isSome_iff_exists.mp (getTenant_isSome_iff.mpr ⟨t', ht', hid⟩)
  exact ⟨_, _, Option.map_eq_some_iff.mpr ⟨found, hfound, rfl⟩⟩

/-- **The suspension of a subtree** ends, and has suspended all that is listed in it. -/
theorem suspendTenant_eq (hforest : TenantForest repo) (levels : ℕ)
    (hmem : ∃ t ∈ repo.tenants, t.tenantId = tenantId) (hlevels : below repo tenantId < levels)
    (hlisted : AllListed repo tenantId) (halike : Alike repo repo') (reason : Option String) :
    ∃ t repo'', Manager.suspendTenant levels repo' tenantId reason true = some (some t, repo'') ∧
      SuspendsAll repo' repo'' (ReflTransGen (Child repo) tenantId) := by
  induction levels generalizing tenantId repo' reason with
  | zero => omega
  | succ levels ih =>
    obtain ⟨t, repo₁, hone⟩ := halike.suspendTenant_isSome hmem reason
    obtain ⟨halike₁, hsuspended, hkept⟩ := suspendTenant_alike hone
    have hchild {c : Tenant} (hc : c ∈ Manager.getChildTenants repo₁ tenantId) :
        Child repo tenantId c.tenantId := by
      have hid : c.tenantId ∈ childIds repo₁ tenantId := List.mem_map_of_mem hc
      rw [(halike.trans halike₁).childIds_eq] at hid
      exact (mem_childIds_iff.mp hid).1
    obtain ⟨repo₂, hrest, h₂⟩ := foldlM_suspends repo
      (fun repo child => (Manager.suspendTenant levels repo child.tenantId
        (some ("Parent tenant suspended: " ++ reason.getD "None")) true).map Prod.snd)
      (ReflTransGen (Child repo)) (Manager.getChildTenants repo₁ tenantId)
      (fun c hc repo' halike' => by
        have hc := hchild hc
        have hmem : ∃ t ∈ repo.tenants, t.tenantId = c.tenantId := by
          obtain ⟨t', ht', hid, -⟩ := hc
          exact ⟨t', ht', hid⟩
        obtain ⟨t', repo'', heq, h⟩ := ih hmem
          ((hforest.below_lt hc).trans_le (Nat.lt_succ_iff.mp hlevels)) (hlisted.child hc)
          halike' (some ("Parent tenant suspended: " ++ reason.getD "None"))
        exact ⟨repo'', by rw [heq]; rfl, h⟩)
      (halike.trans halike₁)
    refine ⟨t, repo₂, ?_, halike₁.trans h₂.alike, ?_, fun d hd => h₂.kept d (hkept d hd)⟩
    · rw [Manager.suspendTenant, hone]
      show Option.map _ (List.foldlM _ repo₁ _) = _
      rw [hrest]
      rfl
    · intro d hd
      rcases ReflTransGen.cases_head hd with rfl | ⟨c, hc, hd⟩
      · exact h₂.kept _ hsuspended
      · have hid : c ∈ childIds repo₁ tenantId := by
          rw [(halike.trans halike₁).childIds_eq]
          exact hlisted.mem_childIds_iff.mpr hc
        obtain ⟨child, hmem, rfl⟩ := List.mem_map.mp hid
        exact h₂.suspended d ⟨child, hmem, hd⟩

/-! ## The deletion -/

theorem deleteTenant_of_forced (levels : ℕ) (hfound : (repo.getTenant tenantId).isSome)
    {force : Bool} (hforce : Manager.getChildTenants repo tenantId = [] ∨ force = true)
    (hrest : (Manager.getChildTenants repo tenantId).foldlM (fun repo child => (Manager.deleteTenant levels repo child.tenantId true).map Prod.snd) repo = some repo')
    :
    Manager.deleteTenant (levels + 1) repo tenantId force =
      some (.ok (repo'.getTenant tenantId).isSome, (repo'.deleteTenant tenantId).2) := by
  obtain ⟨found, hfound⟩ := Option.isSome_iff_exists.mp hfound
  have hnot : ¬ (Manager.getChildTenants repo tenantId ≠ [] ∧ force = false) := by
    rcases hforce with hforce | hforce <;> simp [hforce]
  simp only [Manager.deleteTenant, hfound, if_neg hnot, hrest, Option.map_some]
  rfl

/-- A repository without the tenants of some ids. -/
structure Without (repo repo' : TenantRepository) (ids : String → Prop) : Prop where
  sublist : repo'.tenants.Sublist repo.tenants
  mem : ∀ t ∈ repo.tenants, t ∈ repo'.tenants ↔ ¬ ids t.tenantId

theorem Without.congr {ids' : String → Prop} (h : Without repo repo' ids)
    (hids : ∀ d, ids d ↔ ids' d) : Without repo repo' ids' :=
  ⟨h.sublist, fun t ht => (h.mem t ht).trans (not_congr (hids _))⟩

theorem Without.deleteTenant (h : Without repo repo' ids) (tenantId : String) :
    Without repo (repo'.deleteTenant tenantId).2 fun d => ids d ∨ d = tenantId where
  sublist := List.filter_sublist.trans h.sublist
  mem t ht := by
    rw [not_or, ← h.mem t ht]
    exact List.mem_filter.trans (and_congr_right fun _ => by simp)

theorem Without.mem_childIds_iff (h : Without repo repo' ids) {c : String}
    (hlisted : AllListed repo tenantId)
    (hids : ∀ d, ReflTransGen (Child repo) tenantId d → ¬ ids d) :
    c ∈ childIds repo' tenantId ↔ Child repo tenantId c := by
  rw [MultiTenancy.mem_childIds_iff]
  constructor
  · rintro ⟨⟨t, ht, hid, hparent⟩, -⟩
    exact ⟨t, h.sublist.subset ht, hid, hparent⟩
  · intro hc
    obtain ⟨t, ht, rfl, hparent⟩ := id hc
    have hleft : t ∈ repo'.tenants := (h.mem t ht).mpr (hids _ (ReflTransGen.single hc))
    exact ⟨⟨t, hleft, rfl, hparent⟩, onBothPages_of_sublist h.sublist
      (hlisted _ (TransGen.single hc)) ⟨t, hleft, rfl⟩⟩

theorem foldlM_deletes (repo : TenantRepository)
    (step : TenantRepository → Tenant → Option TenantRepository) (below : String → String → Prop)
    (children : List Tenant) (hnodup : (children.map Tenant.tenantId).Nodup)
    (hdisjoint : ∀ c ∈ children, ∀ c' ∈ children, ∀ d, below c.tenantId d → below c'.tenantId d → c.tenantId = c'.tenantId)
    (hstep : ∀ c ∈ children, ∀ repo' ids, Without repo repo' ids → (∀ d, below c.tenantId d → ¬ ids d) → ∃ repo'', step repo' c = some repo'' ∧ Without repo repo'' fun d => ids d ∨ below c.tenantId d)
    (h : Without repo repo' ids) (hids : ∀ c ∈ children, ∀ d, below c.tenantId d → ¬ ids d) :
    ∃ repo'', children.foldlM step repo' = some repo'' ∧
      Without repo repo'' fun d => ids d ∨ ∃ c ∈ children, below c.tenantId d := by
  induction children generalizing repo' ids with
  | nil => exact ⟨repo', rfl, h.congr fun d => by simp⟩
  | cons c rest ih =>
    rw [List.map_cons, List.nodup_cons] at hnodup
    obtain ⟨repo₁, hone, h₁⟩ :=
      hstep c (List.mem_cons_self ..) repo' ids h (hids c (List.mem_cons_self ..))
    obtain ⟨repo₂, hrest, h₂⟩ := ih hnodup.2
      (fun a ha b hb => hdisjoint a (List.mem_cons_of_mem c ha) b (List.mem_cons_of_mem c hb))
      (fun a ha => hstep a (List.mem_cons_of_mem c ha)) h₁ (by
        rintro a ha d hd (hid | hc)
        · exact hids a (List.mem_cons_of_mem c ha) d hd hid
        · have heq := hdisjoint c (List.mem_cons_self ..) a (List.mem_cons_of_mem c ha) d hc hd
          exact hnodup.1 (heq ▸ List.mem_map_of_mem ha))
    refine ⟨repo₂, by rw [List.foldlM_cons, hone]; exact hrest, h₂.congr fun d => ?_⟩
    simp only [List.exists_mem_cons_iff, or_assoc]

/-- **The deletion of a subtree** ends, and leaves nothing of it, where all of it is listed. -/
theorem deleteTenant_eq (hforest : TenantForest repo) (levels : ℕ)
    (hmem : ∃ t ∈ repo.tenants, t.tenantId = tenantId) (hlevels : below repo tenantId < levels)
    (hlisted : AllListed repo tenantId) (h : Without repo repo' ids)
    (hids : ∀ d, ReflTransGen (Child repo) tenantId d → ¬ ids d) :
    ∃ repo'', Manager.deleteTenant levels repo' tenantId true = some (.ok true, repo'') ∧
      Without repo repo'' fun d => ids d ∨ ReflTransGen (Child repo) tenantId d := by
  induction levels generalizing tenantId repo' ids with
  | zero => omega
  | succ levels ih =>
    have hfound {c : String} := h.mem_childIds_iff (c := c) hlisted hids
    have hchild (c : Tenant) (hc : c ∈ Manager.getChildTenants repo' tenantId) :
        Child repo tenantId c.tenantId := hfound.mp (List.mem_map_of_mem hc)
    obtain ⟨repo₁, hrest, h₁⟩ := foldlM_deletes repo
      (fun repo child => (Manager.deleteTenant levels repo child.tenantId true).map Prod.snd)
      (ReflTransGen (Child repo)) (Manager.getChildTenants repo' tenantId)
      (nodup_childIds repo' tenantId)
      (fun a ha b hb d had hbd =>
        hforest.isForest.sibling_unique (hchild a ha) (hchild b hb) had hbd)
      (fun c hc repo₀ ids₀ h₀ hids₀ => by
        have hc := hchild c hc
        obtain ⟨repo'', heq, h'⟩ := ih (by obtain ⟨t, ht, hid, -⟩ := hc; exact ⟨t, ht, hid⟩)
          ((hforest.below_lt hc).trans_le (Nat.lt_succ_iff.mp hlevels)) (hlisted.child hc)
          h₀ hids₀
        exact ⟨repo'', by rw [heq]; rfl, h'⟩)
      h (fun c hc d hd => hids d (hd.head (hchild c hc)))
    obtain ⟨t, ht, rfl⟩ := hmem
    have hthere : (repo'.getTenant t.tenantId).isSome :=
      getTenant_isSome_iff.mpr ⟨t, (h.mem t ht).mpr (hids _ .refl), rfl⟩
    have hleft : (repo₁.getTenant t.tenantId).isSome := by
      refine getTenant_isSome_iff.mpr ⟨t, (h₁.mem t ht).mpr ?_, rfl⟩
      rintro (hid | ⟨c, hc, hd⟩)
      · exact hids _ .refl hid
      · exact hforest.isForest.not_above (hchild c hc) hd
    refine ⟨(repo₁.deleteTenant t.tenantId).2, ?_, ?_⟩
    · rw [deleteTenant_of_forced levels hthere (.inr rfl) hrest, hleft]
    · refine (h₁.deleteTenant t.tenantId).congr fun d => ?_
      constructor
      · rintro ((hid | ⟨c, hc, hd⟩) | rfl)
        · exact .inl hid
        · exact .inr (hd.head (hchild c hc))
        · exact .inr .refl
      · rintro (hid | hd)
        · exact .inl (.inl hid)
        · rcases ReflTransGen.cases_head hd with rfl | ⟨c, hc, hd⟩
          · exact .inr rfl
          · obtain ⟨child, hmem, rfl⟩ := List.mem_map.mp (hfound.mpr hc)
            exact .inl (.inr ⟨child, hmem, hd⟩)

/-! ## The whole subtree -/

/-- **The operations reach the whole subtree**, however many levels beyond the number of tenants
they are given. -/
structure ReachesSubtree (repo : TenantRepository) (tenantId : String) : Prop where
  /-- Every descendant is suspended. -/
  suspends : ∀ levels, repo.tenants.length < levels → ∀ reason, ∃ t repo',
    Manager.suspendTenant levels repo tenantId reason true = some (some t, repo') ∧
      ∀ d, Descendant repo tenantId d → Suspended repo' d
  /-- No descendant is left by a forced deletion. -/
  deletes : ∀ levels, repo.tenants.length < levels → ∃ repo',
    Manager.deleteTenant levels repo tenantId true = some (.ok true, repo') ∧
      ∀ d, Descendant repo tenantId d → repo'.getTenant d = none
  /-- Without force only a tenant without children is deleted. -/
  leaves : ∀ levels, repo.tenants.length < levels → ∃ answer repo',
    Manager.deleteTenant levels repo tenantId false = some (answer, repo') ∧
      ((∃ deleted, answer = .ok deleted) → ∀ c, ¬ Child repo tenantId c)
  /-- Every descendant is enumerated once, and nothing else is. -/
  enumerates : ∀ turns, repo.tenants.length < turns → ∃ all,
    Manager.getAllDescendants turns repo tenantId = some all ∧
      (all.map Tenant.tenantId).Nodup ∧
      ∀ d, d ∈ all.map Tenant.tenantId ↔ Descendant repo tenantId d

theorem deleteTenant_unforced {levels : ℕ} (hmem : ∃ t ∈ repo.tenants, t.tenantId = tenantId)
    (hlisted : AllListed repo tenantId) :
    ∃ answer repo', Manager.deleteTenant (levels + 1) repo tenantId false = some (answer, repo') ∧
      ((∃ deleted, answer = .ok deleted) → ∀ c, ¬ Child repo tenantId c) := by
  by_cases hnone : Manager.getChildTenants repo tenantId = []
  · refine ⟨_, _, deleteTenant_of_forced levels (getTenant_isSome_iff.mpr hmem) (.inl hnone)
      (by rw [hnone]; rfl), fun _ c hc => ?_⟩
    have hfound := hlisted.mem_childIds_iff.mpr hc
    rw [childIds, hnone] at hfound
    exact absurd hfound List.not_mem_nil
  · obtain ⟨found, hfound⟩ := Option.isSome_iff_exists.mp (getTenant_isSome_iff.mpr hmem)
    refine ⟨.error ⟨"Cannot delete tenant with " ++
      toString (Manager.getChildTenants repo tenantId).length ++
      " child tenants. Use force=True.", tenantId⟩, repo, ?_, ?_⟩
    · simp only [Manager.deleteTenant, hfound, ne_eq, hnone, not_false_eq_true, and_self, if_true]
    · rintro ⟨deleted, h⟩
      cases h

theorem ReachesSubtree.of_allListed (hforest : TenantForest repo)
    (hmem : ∃ t ∈ repo.tenants, t.tenantId = tenantId) (hlisted : AllListed repo tenantId) :
    ReachesSubtree repo tenantId where
  suspends levels hlevels reason := by
    obtain ⟨t, repo', heq, h⟩ := suspendTenant_eq hforest levels hmem
      ((below_le repo tenantId).trans_lt hlevels) hlisted rfl reason
    exact ⟨t, repo', heq, fun d hd => h.suspended d hd.to_reflTransGen⟩
  deletes levels hlevels := by
    obtain ⟨repo', heq, h⟩ := deleteTenant_eq hforest levels hmem
      ((below_le repo tenantId).trans_lt hlevels) hlisted
      (⟨.refl _, fun t ht => by simp [ht]⟩ : Without repo repo fun _ => False) (by simp)
    refine ⟨repo', heq, fun d hd => ?_⟩
    by_contra hsome
    obtain ⟨t, ht, rfl⟩ := getTenant_isSome_iff.mp (Option.isSome_iff_ne_none.mpr hsome)
    exact (h.mem t (h.sublist.subset ht)).mp ht (.inr hd.to_reflTransGen)
  leaves levels hlevels := by
    obtain ⟨levels, rfl⟩ := Nat.exists_eq_add_of_lt hlevels
    exact deleteTenant_unforced hmem hlisted
  enumerates turns hturns := by
    obtain ⟨all, done, heq, h⟩ := processAll_eq hforest turns (.start repo tenantId) hturns
    refine ⟨all, heq, (h.noted.nodup_iff.mp h.once).of_cons, fun d => ⟨fun hd => ?_, ?_⟩⟩
    · obtain ⟨t, ht, rfl⟩ := List.mem_map.mp hd
      exact (h.below t ht).2
    · exact h.mem_of_descendant hlisted

theorem ReachesSubtree.allListed (hforest : TenantForest repo) (h : ReachesSubtree repo tenantId) :
    AllListed repo tenantId := by
  intro d hd
  have hturns := Nat.lt_succ_self repo.tenants.length
  obtain ⟨all, heq, -, hall⟩ := h.enumerates _ hturns
  obtain ⟨all', done, heq', h'⟩ := processAll_eq hforest _ (.start repo tenantId) hturns
  obtain rfl := Option.some_inj.mp (heq.symm.trans heq')
  exact h'.onBothPages ((hall d).mpr hd)

/-- **Operations on a whole subtree**: they reach all of it exactly when every descendant is on both
pages of the listing in which its parent's children are found. -/
theorem reachesSubtree_iff (hforest : TenantForest repo) {tenantId : String}
    (hmem : ∃ t ∈ repo.tenants, t.tenantId = tenantId) :
    ReachesSubtree repo tenantId ↔ ∀ d, Descendant repo tenantId d → OnBothPages repo d :=
  ⟨fun h => h.allListed hforest, fun h => .of_allListed hforest hmem h⟩

end Subtree

/-! ## A tenant with many children -/

def childName (n : ℕ) : String := String.ofList (List.replicate n 'c')

theorem childName_injective : Function.Injective childName := by
  intro m n h
  have hlist : List.replicate m 'c' = List.replicate n 'c' := String.ofList_injective h
  simpa using congrArg List.length hlist

theorem childName_ne (n : ℕ) : childName n ≠ "root" := by
  intro h
  have hlist : List.replicate n 'c' = ['r', 'o', 'o', 't'] := String.ofList_injective h
  have hr : 'r' ∈ List.replicate n 'c' := by rw [hlist]; simp
  exact absurd (List.eq_of_mem_replicate hr) (by decide)

/-- A tenant and its children, the oldest first. -/
def family (n : ℕ) : TenantRepository where
  tenants := { tenantId := "root", createdAt := 0 } :: (List.range n).map fun i =>
    { tenantId := childName i, parentTenantId := some "root", createdAt := i }
  nodup := by
    rw [List.map_cons, List.map_map, List.nodup_cons]
    refine ⟨fun hmem => ?_, List.nodup_range.map fun i j h => childName_injective h⟩
    obtain ⟨i, -, hi⟩ := List.mem_map.mp hmem
    exact childName_ne i hi

theorem child_family_iff {n : ℕ} {p c : String} :
    Child (family n) p c ↔ p = "root" ∧ ∃ i < n, c = childName i := by
  constructor
  · rintro ⟨t, ht, rfl, hparent⟩
    rcases List.mem_cons.mp ht with rfl | ht
    · cases hparent
    · obtain ⟨i, hi, rfl⟩ := List.mem_map.mp ht
      exact ⟨(Option.some_inj.mp hparent).symm, i, List.mem_range.mp hi, rfl⟩
  · rintro ⟨rfl, i, hi, rfl⟩
    exact ⟨_, List.mem_cons_of_mem _ (List.mem_map.mpr ⟨i, List.mem_range.mpr hi, rfl⟩), rfl, rfl⟩

theorem family_forest (n : ℕ) : TenantForest (family n) := by
  intro t ht
  obtain ⟨_, -, hlast⟩ := TransGen.tail'_iff.mp ht
  obtain ⟨_, hfirst, -⟩ := TransGen.head'_iff.mp ht
  obtain ⟨i, -, hi⟩ := (child_family_iff.mp hlast).2
  exact childName_ne i (hi.symm.trans (child_family_iff.mp hfirst).1)

theorem root_mem_family (n : ℕ) : ∃ t ∈ (family n).tenants, t.tenantId = "root" :=
  ⟨_, List.mem_cons_self .., rfl⟩

/-- A tenant with three children. -/
theorem reachesSubtree_iff_family :
    ReachesSubtree (family 3) "root" ↔
      ∀ d, Descendant (family 3) "root" d → OnBothPages (family 3) d :=
  reachesSubtree_iff (family_forest 3) (root_mem_family 3)

/-- Of a hundred and one children one is not reached. -/
theorem subtree_not_reached :
    ¬ ∀ (repo : TenantRepository) (tenantId : String), TenantForest repo →
      (∃ t ∈ repo.tenants, t.tenantId = tenantId) → ReachesSubtree repo tenantId := by
  intro h
  have hlisted := (h (family 101) "root" (family_forest 101) (root_mem_family 101)).allListed
    (family_forest 101)
  have hsub : (List.range 101).map childName ⊆ childIds (family 101) "root" := by
    intro c hc
    obtain ⟨i, hi, rfl⟩ := List.mem_map.mp hc
    exact hlisted.mem_childIds_iff.mpr (child_family_iff.mpr ⟨rfl, i, List.mem_range.mp hi, rfl⟩)
  have hle := ((List.nodup_range.map childName_injective).subperm hsub).length_le
  have hpage : (childIds (family 101) "root").length ≤ 100 := by
    rw [childIds, List.length_map, getChildTenants_eq]
    exact List.length_take_le ..
  simp only [List.length_map, List.length_range] at hle
  omega

end EnhancedAgentBus.MultiTenancy
