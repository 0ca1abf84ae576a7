import SaccoPlatform.Lib.Uuid
import SaccoPlatform.Platform.Gate

/-!
# Search documents

`app/core/search/registry.py` and `documents.py`: the entities that are searched, and the document
that the index holds for a row of each. The document of a row is stored under an id from which the
scope and the row can be read off, and names its scope.
-/

namespace SaccoPlatform.Search

open Lib Platform

/-- `SearchEntity.scope_kind`. -/
inductive ScopeKind where
  | platform
  | tenant
deriving DecidableEq

/-- `SearchEntity.entity_type`, in the order of `SEARCH_ENTITIES`. Each has its own table and its own
index. -/
inductive EntityType where
  | tenant
  | platformUser
  | invoice
  | subscription
  | member
  | loan
  | savingsAccount
  | loanApplication
deriving DecidableEq

/-- `SEARCH_ENTITIES`. -/
def EntityType.scopeKind : EntityType → ScopeKind
  | tenant | platformUser | invoice | subscription => .platform
  | member | loan | savingsAccount | loanApplication => .tenant

/-- A schema that `_tenant_schemas` returns. -/
@[ext]
structure TenantSchema where
  name : String
  valid : schemaRe name = true
deriving DecidableEq

/-- The scope of a run: `"platform"`, or the schema of a tenant. -/
inductive Scope : ScopeKind → Type where
  | platform : Scope .platform
  | tenant (schema : TenantSchema) : Scope .tenant
deriving DecidableEq

/-- What the mappers are called with: `None` for a platform entity. -/
def Scope.schema? {kind : ScopeKind} : Scope kind → Option String
  | .platform => none
  | .tenant schema => some schema.name

/-! ## Rows -/

/-- Of `platform.tenants`. -/
structure TenantColumns where
  name : String
  slug : String
  schemaName : String
  status : String

/-- Of `platform.platform_users`. -/
structure PlatformUserColumns where
  fullName : String
  email : String
  isActive : Bool

/-- Of `platform.invoices`. -/
structure InvoiceColumns where
  invoiceNumber : String
  status : String

/-- Of `platform.subscriptions`. -/
structure SubscriptionColumns where
  status : String

/-- Of `members`. -/
structure MemberColumns where
  fullName : String
  memberNumber : String
  email : Option String
  phone : Option String
  status : String

/-- Of `loans`. -/
structure LoanColumns where
  loanReference : String
  status : String

/-- Of `loan_applications`. -/
structure LoanApplicationColumns where
  status : String

/-- The columns that the document of a row shows; of a savings account only its id is shown. -/
def Columns : EntityType → Type
  | .tenant => TenantColumns
  | .platformUser => PlatformUserColumns
  | .invoice => InvoiceColumns
  | .subscription => SubscriptionColumns
  | .member => MemberColumns
  | .loan => LoanColumns
  | .savingsAccount => Unit
  | .loanApplication => LoanApplicationColumns

/-- A row of the table of an entity; `updatedAt` in microseconds after `_EPOCH`. -/
structure SourceRow (e : EntityType) where
  id : UUID
  updatedAt : ℕ
  columns : Columns e

/-! ## Documents -/

/-- The `_source` of a document. -/
abbrev Document := List (String × Option String)

/-- `str(row.id)[:8]`. -/
def shortId (id : UUID) : String := String.ofList (id.str.toList.take 8)

def docId (schema : Option String) (recordId : UUID) : String :=
  match schema with
  | none => recordId.str
  | some schema => if schema = "" then recordId.str else schema ++ ":" ++ recordId.str

def tenantDocument (row : SourceRow .tenant) : Document :=
  let columns : TenantColumns := row.columns
  [("entity_type", some "tenant"),
   ("record_id", some row.id.str),
   ("title", some columns.name),
   ("subtitle", some columns.slug),
   ("url", some ("/platform/tenants/" ++ row.id.str)),
   ("name", some columns.name),
   ("slug", some columns.slug),
   ("schema_name", some columns.schemaName),
   ("status", some columns.status),
   ("status_entity", some "tenant")]

def memberDocument (schema : String) (row : SourceRow .member) : Document :=
  let columns : MemberColumns := row.columns
  [("entity_type", some "member"),
   ("record_id", some row.id.str),
   ("tenant_schema", some schema),
   ("title", some columns.fullName),
   ("subtitle", some columns.memberNumber),
   ("url", some ("/members/" ++ row.id.str)),
   ("full_name", some columns.fullName),
   ("member_number", some columns.memberNumber),
   ("email", columns.email),
   ("phone", columns.phone),
   ("status", some columns.status),
   ("status_entity", some "member")]

def loanDocument (schema : String) (row : SourceRow .loan) : Document :=
  let columns : LoanColumns := row.columns
  [("entity_type", some "loan"),
   ("record_id", some row.id.str),
   ("tenant_schema", some schema),
   ("title", some columns.loanReference),
   ("subtitle", some columns.status),
   ("url", some ("/credit/loans/" ++ row.id.str)),
   ("loan_reference", some columns.loanReference),
   ("status", some columns.status),
   ("status_entity", some "loan")]

def loanApplicationDocument (schema : String) (row : SourceRow .loanApplication) : Document :=
  let columns : LoanApplicationColumns := row.columns
  [("entity_type", some "loan_application"),
   ("record_id", some row.id.str),
   ("tenant_schema", some schema),
   ("title", some ("Application " ++ shortId row.id)),
   ("subtitle", some columns.status),
   ("url", some ("/credit/applications/" ++ row.id.str)),
   ("status", some columns.status),
   ("status_entity", some "loan_application")]

def savingsAccountDocument (schema : String) (row : SourceRow .savingsAccount) : Document :=
  [("entity_type", some "savings_account"),
   ("record_id", some row.id.str),
   ("tenant_schema", some schema),
   ("title", some ("Account " ++ shortId row.id)),
   ("subtitle", some ""),
   ("url", some ("/savings/accounts/" ++ row.id.str)),
   ("status", some ""),
   ("status_entity", some "savings_account")]

def invoiceDocument (row : SourceRow .invoice) : Document :=
  let columns : InvoiceColumns := row.columns
  [("entity_type", some "invoice"),
   ("record_id", some row.id.str),
   ("title", some columns.invoiceNumber),
   ("subtitle", some columns.status),
   ("url", some ("/platform/billing/invoices/" ++ row.id.str)),
   ("invoice_number", some columns.invoiceNumber),
   ("status", some columns.status),
   ("status_entity", some "invoice")]

def subscriptionDocument (row : SourceRow .subscription) : Document :=
  let columns : SubscriptionColumns := row.columns
  [("entity_type", some "subscription"),
   ("record_id", some row.id.str),
   ("title", some ("Subscription " ++ shortId row.id)),
   ("subtitle", some columns.status),
   ("url", some ("/platform/billing/subscriptions/" ++ row.id.str)),
   ("status", some columns.status),
   ("status_entity", some "subscription")]

def platformUserDocument (row : SourceRow .platformUser) : Document :=
  let columns : PlatformUserColumns := row.columns
  let status := if columns.isActive then "active" else "inactive"
  [("entity_type", some "platform_user"),
   ("record_id", some row.id.str),
   ("title", some columns.fullName),
   ("subtitle", some columns.email),
   ("url", some ("/platform/users/" ++ row.id.str)),
   ("full_name", some columns.fullName),
   ("email", some columns.email),
   ("status", some status),
   ("status_entity", some "platform_user")]

/-- `_PLATFORM_DOC` and `_TENANT_DOC`. -/
def document : (e : EntityType) → Scope e.scopeKind → SourceRow e → Document
  | .tenant, _, row => tenantDocument row
  | .platformUser, _, row => platformUserDocument row
  | .invoice, _, row => invoiceDocument row
  | .subscription, _, row => subscriptionDocument row
  | .member, .tenant schema, row => memberDocument schema.name row
  | .loan, .tenant schema, row => loanDocument schema.name row
  | .savingsAccount, .tenant schema, row => savingsAccountDocument schema.name row
  | .loanApplication, .tenant schema, row => loanApplicationDocument schema.name row

/-- The query of `_es_ids`: everything for a platform entity, else `term` on `tenant_schema`. -/
def Scope.selects {kind : ScopeKind} : Scope kind → Document → Bool
  | .platform, _ => true
  | .tenant schema, source => source.lookup "tenant_schema" == some (some schema.name)

/-! ## What an id and a document tell -/

theorem selects_tenant {schema schema' : TenantSchema} {source : Document}
    (hsource : source.lookup "tenant_schema" = some (some schema'.name)) :
    (Scope.tenant schema).selects source = true ↔ Scope.tenant schema' = Scope.tenant schema := by
  rw [Scope.tenant.injEq, TenantSchema.ext_iff]
  simp [Scope.selects, hsource]

/-- The query finds the documents of its scope. -/
theorem selects_document {e : EntityType} (s s' : Scope e.scopeKind) (row : SourceRow e) :
    s.selects (document e s' row) = true ↔ s' = s := by
  cases e with
  | tenant | platformUser | invoice | subscription =>
    cases s
    cases s'
    exact ⟨fun _ => rfl, fun _ => rfl⟩
  | member | loan | savingsAccount | loanApplication =>
    cases s
    cases s'
    exact selects_tenant rfl

theorem of_matchesUpTo40 {p : Char → Bool} {chars : List Char} (h : matchesUpTo40 p chars = true) :
    ∀ c ∈ chars, p c = true ∨ c = '\n' := by
  intro c hc
  simp only [matchesUpTo40, Bool.and_eq_true, List.all_eq_true] at h
  have hbody := h.1.1
  by_cases hlast : chars.getLast? = some '\n'
  · rw [if_pos hlast] at hbody
    rw [← List.dropLast_append_getLast? '\n' hlast, List.mem_append, List.mem_singleton] at hc
    exact hc.imp_left (hbody c)
  · rw [if_neg hlast] at hbody
    exact .inl (hbody c hc)

theorem colon_notMem_name (schema : TenantSchema) : ':' ∉ schema.name.toList := by
  have hvalid := schema.valid
  rw [schemaRe, Bool.and_eq_true, List.isPrefixOf_iff_prefix] at hvalid
  have ⟨⟨rest, hrest⟩, hmatches⟩ := hvalid
  rw [← hrest] at hmatches ⊢
  rw [List.mem_append]
  rintro (hin | hin)
  · exact absurd hin (by decide)
  · have hrestMatches : matchesUpTo40 (fun c => c.isLower || c.isDigit || c = '_') rest = true := hmatches
    rcases of_matchesUpTo40 hrestMatches ':' hin with hp | hn
    · exact absurd hp (by decide)
    · exact absurd hn (by decide)

theorem name_ne_empty (schema : TenantSchema) : schema.name ≠ "" := by
  intro hempty
  have hvalid := schema.valid
  rw [hempty] at hvalid
  exact absurd hvalid (by decide)

/-- An id tells the scope and the row. -/
theorem docId_injective {kind : ScopeKind} {s s' : Scope kind} {id id' : UUID}
    (h : docId s.schema? id = docId s'.schema? id') : s = s' ∧ id = id' := by
  cases s with
  | platform =>
    cases s'
    exact ⟨rfl, UUID.str_injective h⟩
  | tenant schema =>
    cases s' with | tenant schema' =>
    simp only [Scope.schema?, docId, name_ne_empty, if_false] at h
    have hchars : schema.name.toList ++ ':' :: id.str.toList
        = schema'.name.toList ++ ':' :: id'.str.toList := by
      have htoList := congrArg String.toList h
      simpa [String.toList_append] using htoList
    obtain ⟨hname, -, hid⟩ := (List.append_cons_inj_of_notMem (colon_notMem_name schema)
      (UUID.colon_notMem_str id)).mp hchars
    exact ⟨congrArg Scope.tenant (TenantSchema.ext (String.toList_injective hname)),
      UUID.str_injective (String.toList_injective hid)⟩

end SaccoPlatform.Search
