import Qros.Lib.Chunks
import Qros.Saas.Datasets
import Qros.Saas.Store

/-!
# Listings

The list endpoints of `researchos/saas/api.py` over the in-memory stores, with the
parameters of `pagination.py`.  A listing selects, sorts and cuts out a page; read
page by page it gives every selected row once, in order.

The jobs are the exception: a job has no `created_at`, so sorting jobs by it, which is
the default, raises unless there is nothing to sort (`listings_partition`).

`str.lower` is a parameter.  Pages and page sizes are given as `int(page)` and
`int(page_size)`, with `none` for the `ValueError`.  The total is divided exactly; the
source divides it as a floating-point number, which is exact for totals that fit in
memory.
-/

namespace Qros.Saas

open Qros.Lib Qros.Lib.KeySort

/-- The failures of a listing: status 400 with a code and a message, or an exception. -/
inductive ListError where
  | badRequest (code message : String)
  | valueError (message : String)
  | attributeError (message : String)
deriving DecidableEq

/-! ## Parameters -/

structure ListQuery where
  page : Int
  pageSize : Int
  sortBy : String
  sortOrder : String
  tenantId : Option String
  page_pos : 1 ≤ page
  pageSize_pos : 1 ≤ pageSize
  pageSize_le : pageSize ≤ 100
  sortOrder_mem : sortOrder ∈ ["asc", "desc"]

def ListQuery.offset (query : ListQuery) : Int := (query.page - 1) * query.pageSize

def parseListQuery (page pageSize : Option Int) (sortBy sortOrder : String)
    (tenantId : Option String) (allowedSortFields : List String) : Except ListError ListQuery :=
  match page, pageSize with
  | some page, some pageSize =>
    if hpage : page < 1 then .error (.badRequest "INVALID_PAGINATION" "page must be >= 1")
    else if hsize : pageSize < 1 ∨ 100 < pageSize then
      .error (.badRequest "INVALID_PAGINATION" "page_size must be between 1 and 100")
    else if strip sortBy ∉ allowedSortFields then
      .error (.badRequest "INVALID_SORT" ("invalid sort field: " ++ strip sortBy))
    else if horder : (strip sortOrder).toLower ∉ ["asc", "desc"] then
      .error (.badRequest "INVALID_SORT_ORDER" "sort_order must be 'asc' or 'desc'")
    else if (tenantId.map strip).any fun id ↦ decide (128 < id.length) then
      .error (.badRequest "INVALID_FILTER" "tenant_id filter is too long")
    else
      .ok
        { page := page
          pageSize := pageSize
          sortBy := strip sortBy
          sortOrder := (strip sortOrder).toLower
          tenantId := (tenantId.map strip).filter fun id ↦ decide (id ≠ "")
          page_pos := Int.not_lt.mp hpage
          pageSize_pos := Int.not_lt.mp (not_or.mp hsize).1
          pageSize_le := Int.not_lt.mp (not_or.mp hsize).2
          sortOrder_mem := not_not.mp horder }
  | _, _ => .error (.badRequest "INVALID_PAGINATION" "page and page_size must be integers")

def validateFilterKeys (filters allowed : List String) : Except ListError Unit :=
  match filters.find? fun key ↦ decide (key ∉ allowed) with
  | some key => .error (.badRequest "INVALID_FILTER" ("invalid filter: " ++ key))
  | none => .ok ()

structure PageResponse (α : Type) where
  data : List α
  page : Int
  pageSize : Int
  total : Nat
  totalPages : Nat

/-- `pagination_envelope`, whose checks hold for the pages given to it. -/
def paginationEnvelope {α : Type} (data : List α) (page pageSize : Int) (total : Nat) :
    PageResponse α :=
  ⟨data, page, pageSize, total, pageCount total pageSize.toNat⟩

/-- Python's `sort` by a key: stable, also in reverse. -/
def orderBy {α κ : Type} [LinearOrder κ] (key : α → κ) (sortOrder : String) (l : List α) :
    List α :=
  if sortOrder = "desc" then stableSortBy (fun a ↦ OrderDual.toDual (key a)) l
  else stableSortBy key l

/-! ## Jobs -/

/-- The attribute of a job that a sort field names; `created_at` is not one. -/
def jobSortKey (sortBy : String) : Option (ResearchJob → String) :=
  if sortBy = "status" then some fun job ↦ job.status.value
  else if sortBy = "workflow_id" then some ResearchJob.workflowId
  else none

def matchingJobs (s : Store) (workspaceId : Uuid) (status : Option ResearchJobStatus)
    (workflowId : Option String) : List ResearchJob :=
  s.jobs.values.filter fun job ↦
    decide (job.workspaceId = workspaceId) && status.all (fun v ↦ decide (job.status = v)) &&
      workflowId.all fun v ↦ decide (job.workflowId = v)

def Store.list (s : Store) (workspaceId : Uuid) (limit offset : Int)
    (status : Option ResearchJobStatus) (workflowId : Option String) (sortBy sortOrder : String) :
    Except ListError (List ResearchJob × Nat) :=
  if ¬ (1 ≤ limit ∧ limit ≤ 100) ∨ offset < 0 then .error (.valueError "invalid pagination")
  else if sortBy ∉ ["created_at", "status", "workflow_id"] then
    .error (.valueError "invalid sort field")
  else if sortOrder ∉ ["asc", "desc"] then .error (.valueError "invalid sort order")
  else
    let jobs := matchingJobs s workspaceId status workflowId
    match jobSortKey sortBy with
    | some key =>
      .ok (slice (orderBy key sortOrder jobs) offset.toNat limit.toNat, jobs.length)
    | none =>
      -- `sort` takes the key of every job, so that it raises if there is one.
      if jobs = [] then .ok ([], 0)
      else .error (.attributeError "'ResearchJob' object has no attribute 'created_at'")

structure RunsRequest where
  page : Option Int
  pageSize : Option Int
  sortBy : String
  sortOrder : String
  filterStatus : Option String
  filterWorkflowId : Option String
  filterKeys : List String

structure RunsListing where
  query : ListQuery
  status : Option ResearchJobStatus
  workflowId : Option String

def researchJobStatus (value : String) : Option ResearchJobStatus :=
  [.queued, .running, .succeeded, .failed, .cancelled].find? fun status ↦
    decide (status.value = value)

def parseStatusFilter : Option String → Except ListError (Option ResearchJobStatus)
  | none => .ok none
  | some value =>
    match researchJobStatus value with
    | none => .error (.badRequest "INVALID_PAGINATION" "invalid status filter")
    | some status => .ok (some status)

def parseWorkflowFilter (filter : Option String) : Except ListError (Option String) :=
  if filter.map strip = some "" then
    .error (.badRequest "INVALID_PAGINATION" "workflow_id filter must not be empty")
  else .ok (filter.map strip)

def parseRuns (r : RunsRequest) : Except ListError RunsListing := do
  validateFilterKeys r.filterKeys ["status", "workflow_id"]
  let query ← parseListQuery r.page r.pageSize r.sortBy r.sortOrder none
    ["created_at", "status", "workflow_id"]
  let status ← parseStatusFilter r.filterStatus
  let workflowId ← parseWorkflowFilter r.filterWorkflowId
  return ⟨query, status, workflowId⟩

def listResearchRuns (s : Store) (workspaceId : Uuid) (r : RunsRequest) :
    Except ListError (PageResponse ResearchJob) := do
  let listing ← parseRuns r
  let (rows, total) ← s.list workspaceId listing.query.pageSize listing.query.offset
    listing.status listing.workflowId listing.query.sortBy listing.query.sortOrder
  return paginationEnvelope rows listing.query.page listing.query.pageSize total

/-! ## Datasets -/

section

variable (lower : String → String)

def matchingDatasets (s : DatasetStore) (workspaceId : Uuid) (nameFilter : Option String) :
    List Dataset :=
  let needle := (nameFilter.filter fun name ↦ decide (name ≠ "")).map fun name ↦ lower (strip name)
  s.datasets.values.filter fun d ↦
    decide (d.workspaceId = workspaceId) &&
      needle.all fun needle ↦ decide (needle.toList <:+: (lower d.name).toList)

def Dataset.createdKey (d : Dataset) : DateTime ×ₗ List Char := toLex (d.createdAt, d.id.hex)

def Dataset.nameKey (d : Dataset) : String ×ₗ List Char := toLex (lower d.name, d.id.hex)

def DatasetStore.listDatasets (s : DatasetStore) (workspaceId : Uuid) (limit offset : Int)
    (nameFilter : Option String) (sortBy sortOrder : String) :
    Except ListError (List Dataset × Nat) :=
  if ¬ (1 ≤ limit ∧ limit ≤ 100) ∨ offset < 0 then .error (.valueError "invalid pagination")
  else if sortBy ∉ ["created_at", "name"] then .error (.valueError "invalid sort field")
  else if sortOrder ∉ ["asc", "desc"] then .error (.valueError "invalid sort order")
  else
    let rows := matchingDatasets lower s workspaceId nameFilter
    let sorted :=
      if sortBy = "created_at" then orderBy Dataset.createdKey sortOrder rows
      else orderBy (Dataset.nameKey lower) sortOrder rows
    .ok (slice sorted offset.toNat limit.toNat, rows.length)

structure DatasetsRequest where
  page : Option Int
  pageSize : Option Int
  sortBy : String
  sortOrder : String
  name : Option String
  tenantFilter : Option String
  filterKeys : List String

def parseDatasets (r : DatasetsRequest) : Except ListError ListQuery := do
  validateFilterKeys r.filterKeys ["tenant_id"]
  let query ← parseListQuery r.page r.pageSize r.sortBy r.sortOrder r.tenantFilter
    ["created_at", "name"]
  if r.name.any fun name ↦ decide (¬ (1 ≤ (strip name).length ∧ (strip name).length ≤ 256)) then
    throw (.badRequest "INVALID_PAGINATION" "name filter must be between 1 and 256 characters")
  return query

/-- The filter names another tenant. -/
def DatasetsRequest.isForeign (r : DatasetsRequest) (workspaceId : Uuid) : Bool :=
  r.tenantFilter.any fun tenant ↦ decide (tenant.toList ≠ workspaceId.str)

/-- The rows of the page, and how many there are on all. -/
def datasetRows (s : DatasetStore) (workspaceId : Uuid) (r : DatasetsRequest) (query : ListQuery) :
    Except ListError (List Dataset × Nat) :=
  if r.isForeign workspaceId then .ok ([], 0)
  else
    s.listDatasets lower workspaceId query.pageSize query.offset r.name query.sortBy
      query.sortOrder

def listDatasets (s : DatasetStore) (workspaceId : Uuid) (r : DatasetsRequest) :
    Except ListError (PageResponse Dataset) := do
  let query ← parseDatasets r
  let (rows, total) ← datasetRows lower s workspaceId r query
  return paginationEnvelope rows query.page query.pageSize total

end

/-! ## Versions -/

/-- `paginate`; `sorted` is the items sorted by the attribute, `none` if they have none. -/
def paginate {α : Type} (sorted : Option (List α)) (page pageSize : Int) (sortOrder : String) :
    Except ListError (PageResponse α) :=
  if page < 1 ∨ pageSize < 1 ∨ 100 < pageSize then
    .error (.badRequest "INVALID_PAGINATION" "")
  else if sortOrder ∉ ["asc", "desc"] then .error (.badRequest "INVALID_SORT" "")
  else
    match sorted with
    | none => .error (.badRequest "INVALID_SORT" "")
    | some sorted =>
      let ordered := if sortOrder = "desc" then sorted.reverse else sorted
      .ok (paginationEnvelope (slice ordered ((page - 1) * pageSize).toNat pageSize.toNat) page
        pageSize ordered.length)

def sortVersions (sortBy : String) (items : List DatasetVersion) : Option (List DatasetVersion) :=
  if sortBy = "version_no" then some (stableSortBy DatasetVersion.versionNo items)
  else if sortBy = "content_sha256" then some (stableSortBy (fun v ↦ v.contentSha256.hex) items)
  else if sortBy = "byte_size" then some (stableSortBy DatasetVersion.byteSize items)
  else none

structure VersionsRequest where
  page : Int
  pageSize : Int
  sortBy : String
  sortOrder : String
  filterStatus : Option String
  filterTenantId : Option Uuid

def listDatasetVersions (s : DatasetStore) (workspaceId datasetId : Uuid) (r : VersionsRequest) :
    Except ListError (PageResponse DatasetVersion) :=
  if r.page < 1 ∨ r.pageSize < 1 ∨ 100 < r.pageSize then
    .error (.badRequest "INVALID_PAGINATION" "")
  else if r.filterTenantId.any fun id ↦ decide (id ≠ workspaceId) then
    .error (.badRequest "INVALID_FILTER" "")
  else if r.filterStatus.isSome then .error (.badRequest "INVALID_FILTER" "")
  else if r.sortOrder ∉ ["asc", "desc"] then .error (.badRequest "INVALID_SORT" "")
  else if r.sortBy ∉ ["version_no", "content_sha256", "byte_size"] then
    .error (.badRequest "INVALID_SORT" "")
  else
    paginate (sortVersions r.sortBy (s.listVersions workspaceId datasetId)) r.page r.pageSize
      r.sortOrder

/-! ## Reading a listing -/

/-- Reading the pages from the first to the last ends and gives each of the items once, in
order. -/
def Partitions {α : Type} (fetch : Nat → Except ListError (PageResponse α)) (items : List α)
    (le : α → α → Prop) : Prop :=
  ∃ fuel rows, follow (fun page ↦ (fetch page).map fun p ↦ (p.data, p.totalPages)) fuel 1 =
    some (.ok rows) ∧ rows.Perm items ∧ rows.Pairwise le

/-- `a` may come before `b` in the order asked for. -/
def Precedes {α κ : Type} [LinearOrder κ] (key : α → κ) (sortOrder : String) (a b : α) : Prop :=
  if sortOrder = "desc" then key b ≤ key a else key a ≤ key b

theorem orderBy_perm {α κ : Type} [LinearOrder κ] (key : α → κ) (sortOrder : String) (l : List α) :
    (orderBy key sortOrder l).Perm l := by
  unfold orderBy
  split
  · exact stableSortBy_perm _ l
  · exact stableSortBy_perm _ l

theorem orderBy_pairwise {α κ : Type} [LinearOrder κ] (key : α → κ) (sortOrder : String)
    (l : List α) : (orderBy key sortOrder l).Pairwise (Precedes key sortOrder) := by
  unfold orderBy Precedes
  split
  · exact (stableSortBy_sorted (fun a ↦ OrderDual.toDual (key a)) l).imp fun h ↦ h
  · exact stableSortBy_sorted key l

theorem partitions_of_slices {α : Type} {fetch : Nat → Except ListError (PageResponse α)}
    (rows : List α) {items : List α} {le : α → α → Prop} {pageSize : Int} (hsize : 1 ≤ pageSize)
    (hfetch : ∀ page : Nat, fetch (page + 1) = .ok (paginationEnvelope
      (slice rows ((page : Int) * pageSize).toNat pageSize.toNat) (page + 1) pageSize rows.length))
    (hperm : rows.Perm items) (hle : rows.Pairwise le) : Partitions fetch items le := by
  have hslices (page : Nat) : (fetch (page + 1)).map (fun p ↦ (p.data, p.totalPages)) =
      .ok (slice rows (page * pageSize.toNat) pageSize.toNat,
        pageCount rows.length pageSize.toNat) := by
    have hoffset : ((page : Int) * pageSize).toNat = page * pageSize.toNat := by
      rw [Int.toNat_mul (Int.natCast_nonneg page) (by omega), Int.toNat_natCast]
    rw [hfetch, hoffset]
    rfl
  have hpos : 0 < pageSize.toNat := by omega
  obtain ⟨fuel, h⟩ :=
    follow_slices (fun page ↦ (fetch page).map fun p ↦ (p.data, p.totalPages)) rows hpos hslices
  exact ⟨fuel, rows, h, hperm, hle⟩

theorem not_partitions_of_error {α : Type} {fetch : Nat → Except ListError (PageResponse α)}
    (h : (fetch 1).isOk = false) (items : List α) (le : α → α → Prop) :
    ¬ Partitions fetch items le := by
  rintro ⟨fuel, rows, hfollow, -, -⟩
  cases hfirst : fetch 1 with
  | error e => exact follow_error (congrArg (Except.map _) hfirst) fuel rows hfollow
  | ok page =>
    rw [hfirst] at h
    cases h

def ListQuery.at (query : ListQuery) (page : Nat) : ListQuery :=
  { query with
    page := page + 1
    page_pos := by omega }

theorem parseListQuery_ok {page pageSize : Option Int} {sortBy sortOrder : String}
    {tenantId : Option String} {allowed : List String} {query : ListQuery}
    (h : parseListQuery page pageSize sortBy sortOrder tenantId allowed = .ok query) :
    query.sortBy ∈ allowed ∧ ∀ k : Nat,
      parseListQuery (some (k + 1)) pageSize sortBy sortOrder tenantId allowed =
        .ok (query.at k) := by
  unfold parseListQuery at h ⊢
  cases page with
  | none => cases h
  | some page =>
    cases pageSize with
    | none => cases h
    | some pageSize =>
      dsimp only at h ⊢
      split at h
      · cases h
      · split at h
        · cases h
        · split at h
          · cases h
          · split at h
            · cases h
            · split at h
              · cases h
              · rename_i hsize hsort horder htenant
                cases h
                refine ⟨not_not.mp hsort, fun k ↦ ?_⟩
                have hk : ¬ (k + 1 : Int) < 1 := by omega
                rw [dif_neg hk, dif_neg hsize, if_neg hsort, dif_neg horder, if_neg htenant]
                rfl

/-! ## Listings of jobs -/

theorem parseRuns_eq_ok {r : RunsRequest} {listing : RunsListing} :
    parseRuns r = .ok listing ↔ validateFilterKeys r.filterKeys ["status", "workflow_id"] = .ok () ∧
      parseListQuery r.page r.pageSize r.sortBy r.sortOrder none
        ["created_at", "status", "workflow_id"] = .ok listing.query ∧
      parseStatusFilter r.filterStatus = .ok listing.status ∧
      parseWorkflowFilter r.filterWorkflowId = .ok listing.workflowId := by
  simp only [parseRuns, bind_eq_ok]
  constructor
  · rintro ⟨⟨⟩, hkeys, query, hquery, status, hstatus, workflowId, hworkflow, h⟩
    cases h
    exact ⟨hkeys, hquery, hstatus, hworkflow⟩
  · rintro ⟨hkeys, hquery, hstatus, hworkflow⟩
    exact ⟨(), hkeys, _, hquery, _, hstatus, _, hworkflow, rfl⟩

theorem list_eq (s : Store) (workspaceId : Uuid) (query : ListQuery)
    (status : Option ResearchJobStatus) (workflowId : Option String)
    (hsort : query.sortBy ∈ ["created_at", "status", "workflow_id"]) :
    s.list workspaceId query.pageSize query.offset status workflowId query.sortBy query.sortOrder =
      match jobSortKey query.sortBy with
      | some key =>
        .ok (slice (orderBy key query.sortOrder (matchingJobs s workspaceId status workflowId))
          query.offset.toNat query.pageSize.toNat,
            (matchingJobs s workspaceId status workflowId).length)
      | none =>
        if matchingJobs s workspaceId status workflowId = [] then .ok ([], 0)
        else .error (.attributeError "'ResearchJob' object has no attribute 'created_at'") := by
  have hpage := query.page_pos
  have hsize := query.pageSize_pos
  have hle := query.pageSize_le
  have hoffset : 0 ≤ query.offset := Int.mul_nonneg (by omega) (by omega)
  unfold Store.list
  rw [if_neg (by omega), if_neg (not_not.mpr hsort), if_neg (not_not.mpr query.sortOrder_mem)]

theorem ListQuery.offset_at (query : ListQuery) (k : Nat) :
    (query.at k).offset = k * query.pageSize := by
  show ((k : Int) + 1 - 1) * query.pageSize = _
  rw [Int.add_sub_cancel]

section Runs

variable {s : Store} {workspaceId : Uuid} {r : RunsRequest} {listing : RunsListing}

theorem listResearchRuns_at (h : parseRuns r = .ok listing) (k : Nat) :
    listResearchRuns s workspaceId { r with page := some (k + 1) } =
      (s.list workspaceId (listing.query.at k).pageSize (listing.query.at k).offset listing.status
        listing.workflowId (listing.query.at k).sortBy (listing.query.at k).sortOrder).map fun p ↦
          paginationEnvelope p.1 (k + 1) listing.query.pageSize p.2 := by
  obtain ⟨hkeys, hquery, hstatus, hworkflow⟩ := parseRuns_eq_ok.mp h
  have hat : parseRuns { r with page := some (k + 1) } =
      .ok { listing with query := listing.query.at k } :=
    parseRuns_eq_ok.mpr ⟨hkeys, (parseListQuery_ok hquery).2 k, hstatus, hworkflow⟩
  unfold listResearchRuns
  rw [hat]
  show (s.list workspaceId (listing.query.at k).pageSize (listing.query.at k).offset listing.status
    listing.workflowId (listing.query.at k).sortBy (listing.query.at k).sortOrder).bind _ = _
  cases s.list workspaceId (listing.query.at k).pageSize (listing.query.at k).offset listing.status
    listing.workflowId (listing.query.at k).sortBy (listing.query.at k).sortOrder <;> rfl

theorem listResearchRuns_of_key (h : parseRuns r = .ok listing) {key : ResearchJob → String}
    (hkey : jobSortKey listing.query.sortBy = some key) (k : Nat) :
    listResearchRuns s workspaceId { r with page := some (k + 1) } =
      .ok (paginationEnvelope (slice (orderBy key listing.query.sortOrder
          (matchingJobs s workspaceId listing.status listing.workflowId))
        ((k : Int) * listing.query.pageSize).toNat listing.query.pageSize.toNat) (k + 1)
          listing.query.pageSize (orderBy key listing.query.sortOrder
            (matchingJobs s workspaceId listing.status listing.workflowId)).length) := by
  have hsort := (parseListQuery_ok (parseRuns_eq_ok.mp h).2.1).1
  have hat : jobSortKey (listing.query.at k).sortBy = some key := hkey
  rw [listResearchRuns_at h, list_eq s workspaceId (listing.query.at k) _ _ hsort, hat,
    ListQuery.offset_at, (orderBy_perm _ _ _).length_eq]
  rfl

theorem listResearchRuns_of_createdAt (h : parseRuns r = .ok listing)
    (hkey : jobSortKey listing.query.sortBy = none) (k : Nat) :
    listResearchRuns s workspaceId { r with page := some (k + 1) } =
      if matchingJobs s workspaceId listing.status listing.workflowId = [] then
        .ok (paginationEnvelope [] (k + 1) listing.query.pageSize 0)
      else .error (.attributeError "'ResearchJob' object has no attribute 'created_at'") := by
  have hsort := (parseListQuery_ok (parseRuns_eq_ok.mp h).2.1).1
  have hat : jobSortKey (listing.query.at k).sortBy = none := hkey
  rw [listResearchRuns_at h, list_eq s workspaceId (listing.query.at k) _ _ hsort, hat]
  dsimp only
  split <;> rfl

theorem jobSortKey_eq_none (h : parseRuns r = .ok listing) :
    jobSortKey listing.query.sortBy = none ↔ listing.query.sortBy = "created_at" := by
  have hsort := (parseListQuery_ok (parseRuns_eq_ok.mp h).2.1).1
  constructor
  · intro hkey
    simp only [List.mem_cons, List.not_mem_nil, or_false] at hsort
    rcases hsort with hsort | hsort | hsort
    · exact hsort
    · rw [hsort] at hkey
      cases hkey
    · rw [hsort] at hkey
      cases hkey
  · intro hsort
    rw [hsort]
    rfl

theorem listResearchRuns_partitions (h : parseRuns r = .ok listing) :
    Partitions (fun page ↦ listResearchRuns s workspaceId { r with page := some page })
        (matchingJobs s workspaceId listing.status listing.workflowId)
        (fun a b ↦ ∀ key ∈ jobSortKey listing.query.sortBy,
          Precedes key listing.query.sortOrder a b) ↔
      listing.query.sortBy ≠ "created_at" ∨
        matchingJobs s workspaceId listing.status listing.workflowId = [] := by
  cases hkey : jobSortKey listing.query.sortBy with
  | some key =>
    have hsort : listing.query.sortBy ≠ "created_at" := by
      rw [← (jobSortKey_eq_none h).ne, hkey]
      exact nofun
    refine iff_of_true ?_ (.inl hsort)
    refine partitions_of_slices _ listing.query.pageSize_pos
      (listResearchRuns_of_key h hkey) (orderBy_perm _ _ _) ?_
    apply (orderBy_pairwise key listing.query.sortOrder _).imp
    intro a b hab key' hkey'
    cases hkey'
    exact hab
  | none =>
    rw [or_iff_right (not_not.mpr ((jobSortKey_eq_none h).mp hkey))]
    constructor
    · intro hall
      by_contra hne
      have hfirst : listResearchRuns s workspaceId { r with page := some ((1 : Nat) : Int) } = _ :=
        (listResearchRuns_of_createdAt h hkey 0).trans (if_neg hne)
      exact not_partitions_of_error (congrArg Except.isOk hfirst) _ _ hall
    · intro hnil
      rw [hnil]
      refine partitions_of_slices [] listing.query.pageSize_pos (fun k ↦ ?_) (List.Perm.refl _)
        List.Pairwise.nil
      rw [slice_nil]
      exact (listResearchRuns_of_createdAt h hkey k).trans (if_pos hnil)

end Runs

/-! ## Listings of datasets -/

section

variable {lower : String → String} {s : DatasetStore} {workspaceId : Uuid} {r : DatasetsRequest}
  {query : ListQuery}

theorem parseDatasets_eq_ok : parseDatasets r = .ok query ↔
    validateFilterKeys r.filterKeys ["tenant_id"] = .ok () ∧
      parseListQuery r.page r.pageSize r.sortBy r.sortOrder r.tenantFilter ["created_at", "name"] =
        .ok query ∧
      ¬ (r.name.any fun name ↦
        decide (¬ (1 ≤ (strip name).length ∧ (strip name).length ≤ 256))) = true := by
  simp only [parseDatasets, bind_eq_ok]
  constructor
  · rintro ⟨⟨⟩, hkeys, query', hquery, h⟩
    split at h
    · cases h
    · cases h
      exact ⟨hkeys, hquery, ‹_›⟩
  · rintro ⟨hkeys, hquery, hname⟩
    exact ⟨(), hkeys, query, hquery, if_neg hname⟩

variable (lower) in
def DatasetPrecedes (sortBy sortOrder : String) (a b : Dataset) : Prop :=
  if sortBy = "created_at" then Precedes Dataset.createdKey sortOrder a b
  else Precedes (Dataset.nameKey lower) sortOrder a b

variable (lower) in
def selectedDatasets (s : DatasetStore) (workspaceId : Uuid) (r : DatasetsRequest) :
    List Dataset :=
  if r.isForeign workspaceId then [] else matchingDatasets lower s workspaceId r.name

variable (lower) in
def sortedDatasets (s : DatasetStore) (workspaceId : Uuid) (r : DatasetsRequest)
    (query : ListQuery) : List Dataset :=
  if query.sortBy = "created_at" then
    orderBy Dataset.createdKey query.sortOrder (selectedDatasets lower s workspaceId r)
  else orderBy (Dataset.nameKey lower) query.sortOrder (selectedDatasets lower s workspaceId r)

theorem sortedDatasets_perm :
    (sortedDatasets lower s workspaceId r query).Perm (selectedDatasets lower s workspaceId r) := by
  unfold sortedDatasets
  split
  · exact orderBy_perm _ _ _
  · exact orderBy_perm _ _ _

theorem sortedDatasets_pairwise : (sortedDatasets lower s workspaceId r query).Pairwise
    (DatasetPrecedes lower query.sortBy query.sortOrder) := by
  unfold sortedDatasets DatasetPrecedes
  split
  · exact orderBy_pairwise _ _ _
  · exact orderBy_pairwise _ _ _

theorem orderBy_nil {α κ : Type} [LinearOrder κ] (key : α → κ) (sortOrder : String) :
    orderBy key sortOrder [] = [] := by
  unfold orderBy
  split <;> rfl

theorem datasetRows_eq (hsort : query.sortBy ∈ ["created_at", "name"]) :
    datasetRows lower s workspaceId r query =
      .ok (slice (sortedDatasets lower s workspaceId r query) query.offset.toNat
        query.pageSize.toNat, (selectedDatasets lower s workspaceId r).length) := by
  have hpage := query.page_pos
  have hsize := query.pageSize_pos
  have hle := query.pageSize_le
  have hoffset : 0 ≤ query.offset := Int.mul_nonneg (by omega) (by omega)
  unfold datasetRows sortedDatasets selectedDatasets
  by_cases hforeign : r.isForeign workspaceId = true
  · simp only [if_pos hforeign, orderBy_nil, ite_self, slice_nil]
    rfl
  · simp only [if_neg hforeign]
    unfold DatasetStore.listDatasets
    rw [if_neg (by omega), if_neg (not_not.mpr hsort), if_neg (not_not.mpr query.sortOrder_mem)]

theorem listDatasets_partitions (h : parseDatasets r = .ok query) :
    Partitions (fun page ↦ listDatasets lower s workspaceId { r with page := some page })
      (selectedDatasets lower s workspaceId r)
      (DatasetPrecedes lower query.sortBy query.sortOrder) := by
  obtain ⟨hkeys, hquery, hname⟩ := parseDatasets_eq_ok.mp h
  obtain ⟨hsort, hpages⟩ := parseListQuery_ok hquery
  refine partitions_of_slices (sortedDatasets lower s workspaceId r query) query.pageSize_pos
    (fun k ↦ ?_) sortedDatasets_perm sortedDatasets_pairwise
  have hat : parseDatasets { r with page := some (k + 1) } = .ok (query.at k) :=
    parseDatasets_eq_ok.mpr ⟨hkeys, hpages k, hname⟩
  show (parseDatasets { r with page := some (k + 1) }).bind _ = _
  rw [hat]
  have hrows : datasetRows lower s workspaceId { r with page := some (k + 1) } (query.at k) = _ :=
    datasetRows_eq hsort
  show (datasetRows lower s workspaceId { r with page := some (k + 1) } (query.at k)).bind _ = _
  rw [hrows, ListQuery.offset_at, sortedDatasets_perm.length_eq]
  rfl

end

/-! ## Listings of versions -/

section

def VersionPrecedes (sortBy sortOrder : String) (a b : DatasetVersion) : Prop :=
  if sortBy = "version_no" then Precedes DatasetVersion.versionNo sortOrder a b
  else if sortBy = "content_sha256" then Precedes (fun v ↦ v.contentSha256.hex) sortOrder a b
  else Precedes DatasetVersion.byteSize sortOrder a b

theorem reversed_pairwise {α κ : Type} [LinearOrder κ] (key : α → κ) (sortOrder : String)
    (l : List α) :
    (if sortOrder = "desc" then (stableSortBy key l).reverse else stableSortBy key l).Pairwise
      (Precedes key sortOrder) := by
  unfold Precedes
  split
  · exact List.pairwise_reverse.mpr (stableSortBy_sorted key l)
  · exact stableSortBy_sorted key l

theorem sortVersions_ok {sortBy : String} (sortOrder : String) (items : List DatasetVersion)
    (h : sortBy ∈ ["version_no", "content_sha256", "byte_size"]) :
    ∃ sorted, sortVersions sortBy items = some sorted ∧ sorted.Perm items ∧
      (if sortOrder = "desc" then sorted.reverse else sorted).Pairwise
        (VersionPrecedes sortBy sortOrder) := by
  simp only [List.mem_cons, List.not_mem_nil, or_false] at h
  rcases h with rfl | rfl | rfl
  · exact ⟨_, rfl, stableSortBy_perm _ _, reversed_pairwise _ _ _⟩
  · exact ⟨_, rfl, stableSortBy_perm _ _, reversed_pairwise _ _ _⟩
  · exact ⟨_, rfl, stableSortBy_perm _ _, reversed_pairwise _ _ _⟩

structure VersionsRequest.Admitted (workspaceId : Uuid) (r : VersionsRequest) : Prop where
  page_pos : 1 ≤ r.page
  pageSize_pos : 1 ≤ r.pageSize
  pageSize_le : r.pageSize ≤ 100
  tenant : ∀ id ∈ r.filterTenantId, id = workspaceId
  status : r.filterStatus = none
  sortOrder_mem : r.sortOrder ∈ ["asc", "desc"]
  sortBy_mem : r.sortBy ∈ ["version_no", "content_sha256", "byte_size"]

theorem listDatasetVersions_partitions {s : DatasetStore} {workspaceId : Uuid} (datasetId : Uuid)
    {r : VersionsRequest} (h : r.Admitted workspaceId) :
    Partitions (fun page ↦ listDatasetVersions s workspaceId datasetId { r with page := page })
      (s.listVersions workspaceId datasetId) (VersionPrecedes r.sortBy r.sortOrder) := by
  obtain ⟨sorted, hsorted, hperm, hle⟩ :=
    sortVersions_ok r.sortOrder (s.listVersions workspaceId datasetId) h.sortBy_mem
  have hsize := h.pageSize_pos
  have hmax := h.pageSize_le
  refine partitions_of_slices _ h.pageSize_pos (fun k ↦ ?_) ?_ hle
  · have htenant : ¬ (r.filterTenantId.any fun id ↦ decide (id ≠ workspaceId)) = true := by
      cases hid : r.filterTenantId with
      | none => exact Bool.false_ne_true
      | some id => simp [h.tenant id hid]
    have hpage : ¬ (((k + 1 : Nat) : Int) < 1 ∨ r.pageSize < 1 ∨ 100 < r.pageSize) := by omega
    have hstatus : ¬ r.filterStatus.isSome = true := by
      rw [h.status]
      exact Bool.false_ne_true
    have hpaginate : paginate (some sorted) ((k + 1 : Nat) : Int) r.pageSize r.sortOrder =
        .ok (paginationEnvelope (slice (if r.sortOrder = "desc" then sorted.reverse else sorted)
          ((k : Int) * r.pageSize).toNat r.pageSize.toNat) (k + 1) r.pageSize
            (if r.sortOrder = "desc" then sorted.reverse else sorted).length) := by
      unfold paginate
      rw [if_neg hpage, if_neg (not_not.mpr h.sortOrder_mem)]
      dsimp only
      rw [Int.natCast_succ, Int.add_sub_cancel]
    rw [← hpaginate, ← hsorted]
    unfold listDatasetVersions
    rw [if_neg hpage, if_neg htenant, if_neg hstatus, if_neg (not_not.mpr h.sortOrder_mem),
      if_neg (not_not.mpr h.sortBy_mem)]
  · split
    · exact (List.reverse_perm sorted).trans hperm
    · exact hperm

end

/-! ## Exactness -/

/-- Read from the first page to the last, every listing ends and gives each row that it
selects once, in the order asked for, except that a listing of jobs by `created_at` does
so only if it selects none. -/
theorem listings_partition (lower : String → String) (s : Store) (datasets : DatasetStore)
    (workspaceId : Uuid) :
    (∀ r listing, parseRuns r = .ok listing →
      (Partitions (fun page ↦ listResearchRuns s workspaceId { r with page := some page })
          (matchingJobs s workspaceId listing.status listing.workflowId)
          (fun a b ↦ ∀ key ∈ jobSortKey listing.query.sortBy,
            Precedes key listing.query.sortOrder a b) ↔
        listing.query.sortBy ≠ "created_at" ∨
          matchingJobs s workspaceId listing.status listing.workflowId = [])) ∧
      (∀ r query, parseDatasets r = .ok query →
        Partitions (fun page ↦ listDatasets lower datasets workspaceId { r with page := some page })
          (selectedDatasets lower datasets workspaceId r)
          (DatasetPrecedes lower query.sortBy query.sortOrder)) ∧
      ∀ datasetId r, VersionsRequest.Admitted workspaceId r →
        Partitions
          (fun page ↦ listDatasetVersions datasets workspaceId datasetId { r with page := page })
          (datasets.listVersions workspaceId datasetId) (VersionPrecedes r.sortBy r.sortOrder) :=
  ⟨fun _ _ h ↦ listResearchRuns_partitions h, fun _ _ h ↦ listDatasets_partitions h,
    fun datasetId _ h ↦ listDatasetVersions_partitions datasetId h⟩

/-- One job by status, no dataset by name, and no version by number. -/
theorem listings_partition_one :
    let digest : Sha256 :=
      ⟨"2e7d2c03a9507ae265ecf5b5356885a53393a2029d241394997265a1a25aefc6", by decide +kernel,
        by decide +kernel⟩
    let job := ResearchJob.requested ⟨1⟩ ⟨2⟩ ⟨3⟩ "gbpusd-m1" digest none (by decide +kernel)
    let s := Store.empty.insertJob job 0
    let runs : RunsRequest := ⟨some 1, some 1, "status", "asc", none, none, []⟩
    let rows : DatasetsRequest := ⟨some 1, some 20, "name", "desc", none, none, []⟩
    let versions : VersionsRequest := ⟨1, 20, "version_no", "desc", none, none⟩
    (∃ listing, parseRuns runs = .ok listing ∧
        Partitions (fun page ↦ listResearchRuns s ⟨2⟩ { runs with page := some page })
          (matchingJobs s ⟨2⟩ listing.status listing.workflowId)
          (fun a b ↦ ∀ key ∈ jobSortKey listing.query.sortBy,
            Precedes key listing.query.sortOrder a b)) ∧
      (∃ query, parseDatasets rows = .ok query ∧
        Partitions (fun page ↦ listDatasets id .empty ⟨2⟩ { rows with page := some page })
          (selectedDatasets id .empty ⟨2⟩ rows) (DatasetPrecedes id query.sortBy query.sortOrder)) ∧
      Partitions (fun page ↦ listDatasetVersions .empty ⟨2⟩ ⟨4⟩ { versions with page := page })
        (DatasetStore.empty.listVersions ⟨2⟩ ⟨4⟩)
        (VersionPrecedes versions.sortBy versions.sortOrder) := by
  intro digest job s runs rows versions
  obtain ⟨hruns, hrows, hversions⟩ := listings_partition id s .empty ⟨2⟩
  refine ⟨?_, ?_, hversions ⟨4⟩ versions ?_⟩
  · have hok : (parseRuns runs).isOk = true := by decide +kernel
    cases h : parseRuns runs with
    | error e =>
      rw [h] at hok
      cases hok
    | ok listing =>
      refine ⟨listing, rfl, (hruns runs listing h).mpr (.inl fun hsort ↦ ?_)⟩
      have hstatus : (parseRuns runs).map (fun l ↦ l.query.sortBy) = .ok "status" := by
        decide +kernel
      rw [h] at hstatus
      exact absurd (hsort.symm.trans (Except.ok.inj hstatus)) (by decide)
  · have hok : (parseDatasets rows).isOk = true := by decide +kernel
    cases h : parseDatasets rows with
    | error e =>
      rw [h] at hok
      cases hok
    | ok query => exact ⟨query, rfl, hrows rows query h⟩
  · exact ⟨by decide, by decide, by decide, nofun, rfl, by decide, by decide⟩

/-- The default listing of a workspace with a job fails. -/
theorem listing_by_createdAt_fails :
    let digest : Sha256 :=
      ⟨"2e7d2c03a9507ae265ecf5b5356885a53393a2029d241394997265a1a25aefc6", by decide +kernel,
        by decide +kernel⟩
    let job := ResearchJob.requested ⟨1⟩ ⟨2⟩ ⟨3⟩ "gbpusd-m1" digest none (by decide +kernel)
    let s := Store.empty.insertJob job 0
    let r : RunsRequest := ⟨some 1, some 20, "created_at", "desc", none, none, []⟩
    (matchingJobs s ⟨2⟩ none none).length = 1 ∧
      ¬ Partitions (fun page ↦ listResearchRuns s ⟨2⟩ { r with page := some page })
        (matchingJobs s ⟨2⟩ none none)
        (fun a b ↦ ∀ key ∈ jobSortKey "created_at", Precedes key "desc" a b) := by
  intro digest job s r
  exact ⟨by decide +kernel, not_partitions_of_error (by decide +kernel) _ _⟩

end Qros.Saas
