import SaccoPlatform.Lib.History
import SaccoPlatform.Lib.PyText
import SaccoPlatform.Search.Convergence

/-!
# Searching

`app/core/search/service.py` and `api.py`: which indices a caller searches, the query, and the hits
that the caller sees. Elasticsearch is a parameter: it answers with the first documents, in an order
of its own, among those of the indices that the query admits.

The indices are filled by the jobs of `Reconcile`, and each entity has a history of its own. Whatever
the histories, a tenant sees rows of its own schema only, in a version that was committed, and never
fewer of them because of the documents of other tenants.
-/

namespace SaccoPlatform.Search

open Lib Platform

/-! ## The registry -/

namespace EntityType

/-- `SearchEntity.entity_type`. -/
def name : EntityType → String
  | tenant => "tenant"
  | platformUser => "platform_user"
  | invoice => "invoice"
  | subscription => "subscription"
  | member => "member"
  | loan => "loan"
  | savingsAccount => "savings_account"
  | loanApplication => "loan_application"

/-- `SearchEntity.index`. -/
def index : EntityType → String
  | tenant => "sacco_tenants"
  | platformUser => "sacco_platform_users"
  | invoice => "sacco_invoices"
  | subscription => "sacco_subscriptions"
  | member => "sacco_members"
  | loan => "sacco_loans"
  | savingsAccount => "sacco_savings_accounts"
  | loanApplication => "sacco_loan_applications"

end EntityType

/-- `SEARCH_ENTITIES`. -/
def searchEntities : List EntityType :=
  [.tenant, .platformUser, .invoice, .subscription, .member, .loan, .savingsAccount, .loanApplication]

/-- `_BY_TYPE`. -/
def byType (name : String) : Option EntityType := searchEntities.find? fun e => e.name = name

/-- `platform_indices` and `tenant_indices`. -/
def audienceIndices (audience : ScopeKind) : List String :=
  (searchEntities.filter fun e => e.scopeKind = audience).map (·.index)

/-- `str.split` at commas. -/
def splitCommas (text : String) : List String := (text.toList.splitOn ',').map String.ofList

/-- The set `wanted`. -/
def wantedTypes (types : String) : List String :=
  (((splitCommas types).map pyStrip).filter fun t => t ≠ "").dedup

/-- `resolve_indices`; without `types` all of the audience. -/
def resolveIndices (audience : ScopeKind) (types : Option String) : List String :=
  let allowed := audienceIndices audience
  match types with
  | none | some "" => allowed
  | some types =>
    ((wantedTypes types).filterMap byType).filterMap fun e =>
      if e.index ∈ allowed then some e.index else none

/-! ## The query -/

structure MultiMatch where
  query : String
  type : String
  fields : List String
deriving DecidableEq

/-- The `query` of a request body. -/
inductive SearchQuery where
  | multiMatch (clause : MultiMatch)
  | bool (must : List MultiMatch) (filter : List (String × String))

/-- `_FIELDS`. -/
def searchFields : List String :=
  ["title^3", "subtitle^2", "full_name", "member_number", "email", "phone", "name", "slug",
    "loan_reference", "invoice_number"]

def MultiMatch.clause (q : String) : MultiMatch := ⟨q, "bool_prefix", searchFields⟩

/-- `SearchService.build_query` -/
def SearchQuery.build (q : String) (tenantSchema : Option String) : SearchQuery :=
  match tenantSchema with
  | none => .multiMatch (.clause q)
  | some schema => .bool [.clause q] [("tenant_schema", schema)]

/-! ## Elasticsearch -/

/-- The client's `search`: the `_source` of each hit, for the names of the indices, the query and the
size. -/
abbrev Elasticsearch := List String → SearchQuery → ℕ → List Document

/-- Which documents a query finds, when `matching` tells which documents a text matches. -/
def SearchQuery.admits (matching : MultiMatch → Document → Bool) : SearchQuery → Document → Bool
  | .multiMatch m, source => matching m source
  | .bool must filter, source =>
    must.all (matching · source) &&
      filter.all fun term => source.lookup term.1 == some (some term.2)

/-- It ranks the documents that the query finds in the indices, and answers with the first of them. -/
def Answers (es : Elasticsearch) (matching : MultiMatch → Document → Bool)
    (contents : String → List Document) : Prop :=
  ∀ indices query size, ∃ ranked : List Document,
    ranked.Perm ((indices.flatMap contents).filter (query.admits matching)) ∧
      es indices query size = ranked.take size

/-! ## The service and the endpoints -/

structure SearchHit where
  entityType : Option String
  id : Option String
  title : Option String
  subtitle : Option String
  url : Option String
  status : Option String
  statusEntity : Option String

structure SearchHitOut where
  entityType : String
  id : String
  title : String
  subtitle : String
  url : String
  status : String
  statusEntity : String
deriving DecidableEq

inductive SearchError where
  | keyError (field : String)
  | validationError (field : String)
deriving DecidableEq

/-- `src[field]` -/
def itemOf (source : Document) (field : String) : Except SearchError (Option String) :=
  match source.lookup field with
  | some value => .ok value
  | none => .error (.keyError field)

/-- `src.get(field, "")` -/
def getOf (source : Document) (field : String) : Option String := (source.lookup field).getD (some "")

def searchHit (source : Document) : Except SearchError SearchHit := do
  return {
    entityType := ← itemOf source "entity_type"
    id := ← itemOf source "record_id"
    title := ← itemOf source "title"
    subtitle := getOf source "subtitle"
    url := ← itemOf source "url"
    status := getOf source "status"
    statusEntity := getOf source "status_entity" }

/-- A field of the response that is declared a `str`. -/
def strField (field : String) (value : Option String) : Except SearchError String :=
  match value with
  | some text => .ok text
  | none => .error (.validationError field)

def searchHitOut (h : SearchHit) : Except SearchError SearchHitOut := do
  return {
    entityType := ← strField "entity_type" h.entityType
    id := ← strField "id" h.id
    title := ← strField "title" h.title
    subtitle := ← strField "subtitle" h.subtitle
    url := ← strField "url" h.url
    status := ← strField "status" h.status
    statusEntity := ← strField "status_entity" h.statusEntity }

/-- `SearchService.search` -/
def search (es : Elasticsearch) (indices : List String) (q : String) (tenantSchema : Option String)
    (limit : ℕ) : Except SearchError (List SearchHit) :=
  if (pyStrip q).length < 1 || indices.isEmpty then .ok []
  else (es indices (.build (pyStrip q) tenantSchema) limit).mapM searchHit

/-- `limit: int = Query(20, ge=1, le=50)` -/
structure Limit where
  val : ℕ
  ge : 1 ≤ val
  le : val ≤ 50

/-- `str.strip('"')` -/
def stripQuotes (text : String) : String :=
  String.ofList ((text.toList.dropWhile (· = '"')).rdropWhile (· = '"'))

/-- `_caller_schema`, from what `SHOW search_path` answers. -/
def callerSchema (searchPath : String) : String :=
  stripQuotes (pyStrip ((splitCommas searchPath).headD ""))

def platformSearch (es : Elasticsearch) (q : String) (types : Option String) (limit : Limit) :
    Except SearchError (List SearchHitOut) := do
  let hits ← search es (resolveIndices .platform types) q none limit.val
  hits.mapM searchHitOut

def tenantSearch (es : Elasticsearch) (searchPath q : String) (types : Option String)
    (limit : Limit) : Except SearchError (List SearchHitOut) := do
  let hits ← search es (resolveIndices .tenant types) q (some (callerSchema searchPath)) limit.val
  hits.mapM searchHitOut

/-! ## Where a document comes from -/

section

variable {e : EntityType}

/-- At some time a transaction had committed the row, in this version, to the table of the scope. -/
def Seen (history : List (SearchEvent e)) (s : Scope e.scopeKind) (row : SourceRow e) : Prop :=
  Once SearchWorld.step .empty history fun w => row ∈ (w.rows s).rows

/-- A document of a row that was seen. -/
def OfSeen (history : List (SearchEvent e)) (s : Scope e.scopeKind) (doc : IndexedDoc) : Prop :=
  ∃ row, Seen history s row ∧ doc = indexed s row

/-- What is in the index, and what the runs are about to put there, comes from rows that were seen. -/
structure Traced (history : List (SearchEvent e)) (w : SearchWorld e) : Prop where
  index : ∀ doc ∈ w.index.rows, ∃ s, OfSeen history s doc
  indexing : ∀ k s docs next, w.reconciles k = some ⟨s, .indexing docs next⟩ →
    ∀ doc ∈ docs, OfSeen history s doc

theorem OfSeen.append {history : List (SearchEvent e)} {s : Scope e.scopeKind} {doc : IndexedDoc}
    (h : OfSeen history s doc) (ev : SearchEvent e) : OfSeen (history ++ [ev]) s doc := by
  obtain ⟨row, hseen, hdoc⟩ := h
  exact ⟨row, hseen.append ev, hdoc⟩

theorem traced_empty : Traced [] (SearchWorld.empty : SearchWorld e) := by
  constructor
  · intro doc hdoc
    cases hdoc
  · intro k s docs next hk
    cases hk

namespace Traced

variable {history : List (SearchEvent e)} {w : SearchWorld e}

theorem append (h : Traced history w) (ev : SearchEvent e) : Traced (history ++ [ev]) w := by
  constructor
  · intro doc hdoc
    obtain ⟨s, hseen⟩ := h.index doc hdoc
    exact ⟨s, hseen.append ev⟩
  · intro k s docs next hk doc hdoc
    exact (h.indexing k s docs next hk doc hdoc).append ev

theorem setReconcile (h : Traced history w) {k : ℕ} {run : Option (ReconcileRun e)}
    (hrun : ∀ s docs next, run = some ⟨s, .indexing docs next⟩ → ∀ doc ∈ docs, OfSeen history s doc) :
    Traced history (w.setReconcile k run) := by
  refine ⟨h.index, ?_⟩
  intro j s docs next hj
  change Function.update w.reconciles k run j = _ at hj
  by_cases hjk : j = k
  · subst hjk
    rw [Function.update_self] at hj
    exact hrun s docs next hj
  · rw [Function.update_of_ne hjk] at hj
    exact h.indexing j s docs next hj

/-- Only `selectRows` reads rows, and those are in the table then. -/
theorem effect {w' : SearchWorld e} {ev : SearchEvent e} (h : Traced history w)
    (hrows : ∀ s, ∀ row ∈ (w.rows s).rows, Seen history s row) (heffect : w.Effect ev w') :
    Traced history w' := by
  cases heffect with
  | idle => exact h
  | commit s start writes => exact ⟨h.index, h.indexing⟩
  | getWatermark k s hk =>
    apply h.setReconcile
    intro s' docs next hrun
    cases hrun
  | noRows k s wm hk hempty =>
    apply h.setReconcile
    intro s' docs next hrun
    cases hrun
  | selectRows k s wm hk =>
    apply h.setReconcile
    intro s' docs next hrun doc hdoc
    cases hrun
    obtain ⟨row, hrow, hindexed⟩ := List.mem_map.mp hdoc
    exact ⟨row, hrows s row (mem_rowsSince.mp hrow).1, hindexed.symm⟩
  | index k i s docs next doc hk hdoc =>
    have hdocs := h.indexing k s docs next hk
    have hstore : Traced history { w with index := w.index.store doc } := by
      refine ⟨?_, h.indexing⟩
      intro doc' hdoc'
      rcases Keyed.mem_store.mp hdoc' with rfl | ⟨hold, -⟩
      · exact ⟨s, hdocs doc' (List.mem_of_getElem? hdoc)⟩
      · exact h.index doc' hold
    apply hstore.setReconcile
    intro s' docs' next' hrun doc' hdoc'
    cases hrun
    exact hdocs doc' (List.mem_of_mem_eraseIdx hdoc')
  | setWatermark k s next hk =>
    have hset : Traced history { w with watermark := Function.update w.watermark s (some next) } :=
      ⟨h.index, h.indexing⟩
    apply hset.setReconcile
    intro s' docs next' hrun
    cases hrun
  | failReconcile k r hk hrun =>
    apply h.setReconcile
    intro s' docs next hnone
    cases hnone
  | delete k i s orphans oid hk hoid =>
    refine ⟨?_, h.indexing⟩
    intro doc hdoc
    exact h.index doc (Keyed.mem_erase.mp hdoc).1
  | refresh | noIds | scanIds | noOrphans | sourceIds | logSwept | failSweep =>
    exact ⟨h.index, h.indexing⟩

end Traced

theorem traced_run (history : List (SearchEvent e)) :
    Traced history (run SearchWorld.step .empty history) := by
  have hops : ∀ ev ∈ history, True := fun _ _ => trivial
  refine history_invariant traced_empty ?_ hops
  intro front ev h _
  refine (h.append ev).effect ?_ (SearchWorld.effect_step _ ev)
  intro s row hrow
  exact Once.before hrow ev

end

/-! ## What a document shows -/

/-- The entry of the response for a document. -/
def shown (source : Document) : Except SearchError SearchHitOut := do
  let hit ← searchHit source
  searchHitOut hit

theorem lookup_tenantSchema {e : EntityType} (s : Scope e.scopeKind) (row : SourceRow e) :
    (document e s row).lookup "tenant_schema" = s.schema?.map some := by
  cases e with
  | tenant | platformUser | invoice | subscription =>
    cases s
    rfl
  | member | loan | savingsAccount | loanApplication =>
    cases s
    rfl

/-- Every document has the fields that the response needs, and names its entity and its row. -/
theorem shown_document {e : EntityType} (s : Scope e.scopeKind) (row : SourceRow e) :
    ∃ hit, shown (document e s row) = .ok hit ∧ hit.entityType = e.name ∧ hit.id = row.id.str := by
  cases e with
  | tenant | platformUser | invoice | subscription =>
    cases s
    exact ⟨_, rfl, rfl, rfl⟩
  | member | loan | savingsAccount | loanApplication =>
    cases s
    exact ⟨_, rfl, rfl, rfl⟩

/-- The two passes over the hits are one. -/
theorem mapM_shown {sources : List Document} (h : ∀ source ∈ sources, ∃ hit, shown source = .ok hit) :
    ∃ hits, (sources.mapM searchHit >>= fun found => found.mapM searchHitOut) = .ok hits ∧
      hits.length = sources.length ∧
        ∀ hit, hit ∈ hits ↔ ∃ source ∈ sources, shown source = .ok hit := by
  have hfound : ∀ source ∈ sources, ∃ hit, searchHit source = .ok hit := by
    intro source hsource
    obtain ⟨out, hout⟩ := h source hsource
    cases hhit : searchHit source with
    | error err =>
      rw [shown, hhit] at hout
      cases hout
    | ok hit => exact ⟨hit, rfl⟩
  obtain ⟨found, hfoundAll⟩ := exists_mapM_eq_ok hfound
  have hpairs := mapM_eq_ok.mp hfoundAll
  rw [hfoundAll]
  show ∃ hits, found.mapM searchHitOut = .ok hits ∧ _
  have hshown : ∀ source hit, searchHit source = .ok hit → shown source = searchHitOut hit := by
    intro source hit hhit
    rw [shown, hhit]
    rfl
  clear hfoundAll hfound
  induction hpairs with
  | nil => exact ⟨[], rfl, rfl, by simp⟩
  | @cons source hit sources found hhit _ ih =>
    obtain ⟨out, hout⟩ := h source List.mem_cons_self
    obtain ⟨outs, houts, hlength, hmem⟩ := ih fun s hs => h s (List.mem_cons_of_mem _ hs)
    have hfirst : ∀ hit', hit' = out ↔ shown source = .ok hit' := by
      intro hit'
      rw [hout, Except.ok.injEq, eq_comm]
    rw [hshown source hit hhit] at hout
    refine ⟨out :: outs, mapM_eq_ok.mpr (.cons hout (mapM_eq_ok.mp houts)), ?_, ?_⟩
    · rw [List.length_cons, hlength, List.length_cons]
    · intro hit'
      rw [List.mem_cons, hmem, hfirst, List.exists_mem_cons_iff]

/-! ## Which indices are searched -/

theorem index_injective {e e' : EntityType} (h : e.index = e'.index) : e = e' := by
  cases e <;> cases e' <;> first | rfl | exact absurd h (by decide)

theorem byType_eq_some {name : String} {e : EntityType} : byType name = some e ↔ e.name = name := by
  constructor
  · intro h
    have hname := List.find?_some h
    exact of_decide_eq_true hname
  · rintro rfl
    cases e <;> rfl

theorem index_mem_audienceIndices {audience : ScopeKind} {e : EntityType} :
    e.index ∈ audienceIndices audience ↔ e.scopeKind = audience := by
  cases e <;> cases audience <;> decide

/-- The caller names the entity, or none. -/
def Requested (types : Option String) (e : EntityType) : Prop :=
  types = none ∨ types = some "" ∨ ∃ text, types = some text ∧ e.name ∈ wantedTypes text

theorem mem_audienceIndices {audience : ScopeKind} {index : String} :
    index ∈ audienceIndices audience ↔ ∃ e : EntityType, e.index = index ∧ e.scopeKind = audience := by
  constructor
  · intro h
    obtain ⟨e, he, hindex⟩ := List.mem_map.mp h
    exact ⟨e, hindex, of_decide_eq_true (List.mem_filter.mp he).2⟩
  · rintro ⟨e, rfl, he⟩
    exact index_mem_audienceIndices.mpr he

theorem mem_resolveIndices {audience : ScopeKind} {types : Option String} {index : String} :
    index ∈ resolveIndices audience types ↔
      ∃ e : EntityType, e.index = index ∧ e.scopeKind = audience ∧ Requested types e := by
  unfold resolveIndices
  split
  · simp only [mem_audienceIndices, Requested, true_or, and_true]
  · simp only [mem_audienceIndices, Requested, true_or, or_true, and_true]
  · next text hne =>
    have hwanted : ∀ e, Requested (some text) e ↔ e.name ∈ wantedTypes text := by
      intro e
      have htext : text ≠ "" := hne
      simp [Requested, htext]
    simp only [hwanted, List.mem_filterMap, byType_eq_some, index_mem_audienceIndices]
    constructor
    · rintro ⟨e, ⟨name, hname, rfl⟩, hin⟩
      by_cases haudience : e.scopeKind = audience
      · rw [if_pos haudience] at hin
        exact ⟨e, Option.some.inj hin, haudience, hname⟩
      · rw [if_neg haudience] at hin
        cases hin
    · rintro ⟨e, rfl, haudience, hname⟩
      exact ⟨e, ⟨e.name, hname, rfl⟩, by rw [if_pos haudience]⟩

/-! ## What a tenant sees -/

/-- The documents of an index, after the histories of the entities: up to the last refresh of each. -/
def indexContents (history : (e : EntityType) → List (SearchEvent e)) (index : String) :
    List Document :=
  (searchEntities.filter fun e => e.index = index).flatMap fun e =>
    (run SearchWorld.step .empty (history e)).index.rows.map (·.source)

/-- The documents of a schema that match, among those of the indices. -/
def matchesOf (matching : MultiMatch → Document → Bool) (contents : String → List Document)
    (indices : List String) (q schema : String) : List Document :=
  (indices.flatMap contents).filter fun source =>
    matching (.clause (pyStrip q)) source && source.lookup "tenant_schema" == some (some schema)

theorem mem_indexContents {history : (e : EntityType) → List (SearchEvent e)} {e : EntityType}
    {source : Document} (h : source ∈ indexContents history e.index) :
    ∃ (s : Scope e.scopeKind) (row : SourceRow e), Seen (history e) s row ∧ source = document e s row := by
  obtain ⟨e', he', hsource⟩ := List.mem_flatMap.mp h
  have hindex : e'.index = e.index := of_decide_eq_true (List.mem_filter.mp he').2
  obtain rfl := index_injective hindex
  obtain ⟨doc, hdoc, hdocSource⟩ := List.mem_map.mp hsource
  obtain ⟨s, row, hseen, hrow⟩ := (traced_run (history e')).index doc hdoc
  refine ⟨s, row, hseen, ?_⟩
  rw [← hdocSource, hrow]
  rfl

/-- Whatever a query finds is of a row that was seen, of an entity that the caller may ask for. -/
theorem exists_row_of_found {history : (e : EntityType) → List (SearchEvent e)} {audience : ScopeKind}
    {types : Option String} {p : Document → Bool} {source : Document}
    (h : source ∈ ((resolveIndices audience types).flatMap (indexContents history)).filter p) :
    ∃ (e : EntityType) (s : Scope e.scopeKind) (row : SourceRow e), e.scopeKind = audience ∧
      Requested types e ∧ Seen (history e) s row ∧ source = document e s row := by
  obtain ⟨index, hindex, hcontents⟩ := List.mem_flatMap.mp (List.mem_filter.mp h).1
  obtain ⟨e, rfl, haudience, hrequested⟩ := mem_resolveIndices.mp hindex
  obtain ⟨s, row, hseen, hsource⟩ := mem_indexContents hcontents
  exact ⟨e, s, row, haudience, hrequested, hseen, hsource⟩

/-- A search answers, with the entries of the first documents that the query finds. -/
theorem search_shows {es : Elasticsearch} {matching : MultiMatch → Document → Bool}
    {history : (e : EntityType) → List (SearchEvent e)} (hes : Answers es matching (indexContents history))
    (audience : ScopeKind) {q : String} (types : Option String) (tenantSchema : Option String)
    (limit : ℕ) (hq : pyStrip q ≠ "") :
    ∃ (ranked : List Document) (hits : List SearchHitOut),
      ranked.Perm (((resolveIndices audience types).flatMap (indexContents history)).filter
        ((SearchQuery.build (pyStrip q) tenantSchema).admits matching)) ∧
      (search es (resolveIndices audience types) q tenantSchema limit >>=
        fun found => found.mapM searchHitOut) = .ok hits ∧
      hits.length = (ranked.take limit).length ∧
      ∀ hit, hit ∈ hits ↔ ∃ source ∈ ranked.take limit, shown source = .ok hit := by
  obtain ⟨ranked, hperm, hanswer⟩ := hes (resolveIndices audience types)
    (.build (pyStrip q) tenantSchema) limit
  have hshown : ∀ source ∈ ranked.take limit, ∃ hit, shown source = .ok hit := by
    intro source hsource
    obtain ⟨e, s, row, -, -, -, rfl⟩ :=
      exists_row_of_found (hperm.mem_iff.mp (List.mem_of_mem_take hsource))
    obtain ⟨hit, hhit, _⟩ := shown_document s row
    exact ⟨hit, hhit⟩
  obtain ⟨hits, hhits, hlength, hmem⟩ := mapM_shown hshown
  refine ⟨ranked, hits, hperm, ?_, hlength, hmem⟩
  have hsome : ¬ (pyStrip q).length < 1 := by
    intro hlt
    exact hq (String.length_eq_zero_iff.mp (by omega))
  by_cases hindices : resolveIndices audience types = []
  · -- no index, no document
    have hnil : ranked = [] := by
      rw [hindices] at hperm
      exact hperm.eq_nil
    rw [hnil, List.take_nil] at hhits
    rw [search, if_pos (by simp [hindices])]
    exact hhits
  · rw [search, if_neg (by simp [hindices, hsome]), hanswer]
    exact hhits

/-- The operators of the platform see rows of the platform only. -/
theorem platformSearch_platform_rows {es : Elasticsearch} {matching : MultiMatch → Document → Bool}
    {history : (e : EntityType) → List (SearchEvent e)} (hes : Answers es matching (indexContents history))
    (q : String) (types : Option String) (limit : Limit) :
    ∃ hits, platformSearch es q types limit = .ok hits ∧
      ∀ hit ∈ hits, ∃ (e : EntityType) (s : Scope e.scopeKind) (row : SourceRow e),
        e.scopeKind = .platform ∧ Requested types e ∧ Seen (history e) s row ∧
          shown (document e s row) = .ok hit := by
  by_cases hq : pyStrip q = ""
  · refine ⟨[], ?_, by simp⟩
    rw [platformSearch, search, hq]
    rfl
  obtain ⟨ranked, hits, hperm, hanswer, _, hmem⟩ := search_shows hes .platform types none limit.val hq
  refine ⟨hits, hanswer, ?_⟩
  intro hit hhit
  obtain ⟨source, hsource, hshown⟩ := (hmem hit).mp hhit
  obtain ⟨e, s, row, haudience, hrequested, hseen, rfl⟩ :=
    exists_row_of_found (hperm.mem_iff.mp (List.mem_of_mem_take hsource))
  exact ⟨e, s, row, haudience, hrequested, hseen, hshown⟩

/-! ### The caller's own rows -/

/-- Whatever transactions, reconcile runs and sweeps have done to the entities, a tenant's search
answers, and each entry is of a row that was committed in the caller's own schema, of an entity that
tenants search and that the caller asked for. While no more than `limit` documents of the schema
match, all of them are there. -/
theorem tenantSearch_own_rows {es : Elasticsearch} {matching : MultiMatch → Document → Bool}
    {history : (e : EntityType) → List (SearchEvent e)} (hes : Answers es matching (indexContents history))
    (searchPath q : String) (types : Option String) (limit : Limit) :
    ∃ hits, tenantSearch es searchPath q types limit = .ok hits ∧ hits.length ≤ limit.val ∧
      (∀ hit ∈ hits, ∃ (e : EntityType) (s : Scope e.scopeKind) (row : SourceRow e),
        Requested types e ∧ s.schema? = some (callerSchema searchPath) ∧ Seen (history e) s row ∧
          hit.entityType = e.name ∧ hit.id = row.id.str ∧ shown (document e s row) = .ok hit) ∧
      let own := matchesOf matching (indexContents history) (resolveIndices .tenant types) q
        (callerSchema searchPath)
      pyStrip q ≠ "" → own.length ≤ limit.val →
        ∀ source ∈ own, ∃ hit ∈ hits, shown source = .ok hit := by
  by_cases hq : pyStrip q = ""
  · refine ⟨[], ?_, Nat.zero_le _, by simp, fun hne => absurd hq hne⟩
    rw [tenantSearch, search, hq]
    rfl
  obtain ⟨ranked, hits, hperm, hanswer, hlength, hmem⟩ :=
    search_shows hes .tenant types (some (callerSchema searchPath)) limit.val hq
  have hadmits : ∀ source, (SearchQuery.build (pyStrip q) (some (callerSchema searchPath))).admits
      matching source = (matching (.clause (pyStrip q)) source &&
        source.lookup "tenant_schema" == some (some (callerSchema searchPath))) := by
    intro source
    simp [SearchQuery.build, SearchQuery.admits]
  have hown : ranked.Perm (matchesOf matching (indexContents history)
      (resolveIndices .tenant types) q (callerSchema searchPath)) := by
    rw [matchesOf, ← List.filter_congr fun source _ => hadmits source]
    exact hperm
  refine ⟨hits, hanswer, ?_, ?_, ?_⟩
  · rw [hlength]
    exact List.length_take_le _ _
  · intro hit hhit
    obtain ⟨source, hsource, hshown⟩ := (hmem hit).mp hhit
    have hfound := hown.mem_iff.mp (List.mem_of_mem_take hsource)
    have hmatch := (List.mem_filter.mp hfound).2
    obtain ⟨e, s, row, -, hrequested, hseen, rfl⟩ := exists_row_of_found hfound
    obtain ⟨hit', hhit', hentity, hid⟩ := shown_document s row
    obtain rfl : hit' = hit := Except.ok.inj (hhit'.symm.trans hshown)
    have hschema : s.schema? = some (callerSchema searchPath) := by
      simpa [lookup_tenantSchema] using (Bool.and_eq_true_iff.mp hmatch).2
    exact ⟨e, s, row, hrequested, hschema, hseen, hentity, hid, hshown⟩
  · intro own _ hle source hsource
    have htake : ranked.take limit.val = ranked := by
      apply List.take_of_length_le
      rw [hown.length_eq]
      exact hle
    obtain ⟨e, s, row, -, -, -, rfl⟩ := exists_row_of_found hsource
    obtain ⟨hit, hhit, _⟩ := shown_document s row
    refine ⟨hit, (hmem hit).mpr ⟨_, ?_, hhit⟩, hhit⟩
    rw [htake]
    exact hown.mem_iff.mpr hsource

/-! ## Two tenants -/

/-- The members of two tenants that go by the same name, one of each, and their reconcile runs. -/
def graceHistory : (e : EntityType) → List (SearchEvent e)
  | .member =>
    let put (id : UUID) (number : String) : RowWrite .member :=
      .put id (⟨"Grace", number, none, none, "active"⟩ : MemberColumns)
    let alpha : Scope ScopeKind.tenant := .tenant ⟨"tenant_alpha", by decide⟩
    let beta : Scope ScopeKind.tenant := .tenant ⟨"tenant_beta", by decide⟩
    [.commit alpha 5 [put ⟨2001, by decide⟩ "M-A1"], .commit beta 6 [put ⟨2002, by decide⟩ "M-B1"],
     .getWatermark 0 beta, .selectRows 0, .index 0 0,
     .getWatermark 1 alpha, .selectRows 1, .index 1 0, .setWatermark 1]
  | _ => []

/-- A match is a title that is the text. -/
def titleIs (m : MultiMatch) (source : Document) : Bool := source.lookup "title" == some (some m.query)

/-- Documents in the order of the indices. -/
def inOrder (matching : MultiMatch → Document → Bool) (contents : String → List Document) :
    Elasticsearch :=
  fun indices query size => ((indices.flatMap contents).filter (query.admits matching)).take size

theorem answers_inOrder (matching : MultiMatch → Document → Bool) (contents : String → List Document) :
    Answers (inOrder matching contents) matching contents :=
  fun indices query _ => ⟨(indices.flatMap contents).filter (query.admits matching), .refl _, rfl⟩

def graceDocument : Document :=
  memberDocument "tenant_alpha"
    ⟨⟨2001, by decide⟩, 5, (⟨"Grace", "M-A1", none, none, "active"⟩ : MemberColumns)⟩

theorem tenantSearch_own_rows_grace :
    ∃ hits, tenantSearch (inOrder titleIs (indexContents graceHistory)) "tenant_alpha, platform"
        " Grace " (some "member,invoice") ⟨1, by decide, by decide⟩ = .ok hits ∧
      (∃ hit ∈ hits, hit.subtitle = "M-A1") ∧ hits.length ≤ 1 := by
  obtain ⟨hits, hanswer, hlength, _, hall⟩ := tenantSearch_own_rows
    (answers_inOrder titleIs (indexContents graceHistory)) "tenant_alpha, platform" " Grace "
    (some "member,invoice") ⟨1, by decide, by decide⟩
  have hown : matchesOf titleIs (indexContents graceHistory)
      (resolveIndices .tenant (some "member,invoice")) " Grace " (callerSchema "tenant_alpha, platform")
      = [graceDocument] := by decide +kernel
  obtain ⟨hit, hin, hshown⟩ := hall (by decide) (by rw [hown]; decide) graceDocument
    (by rw [hown]; exact List.mem_singleton_self _)
  cases hshown
  exact ⟨hits, hanswer, ⟨_, hin, rfl⟩, hlength⟩

end SaccoPlatform.Search
