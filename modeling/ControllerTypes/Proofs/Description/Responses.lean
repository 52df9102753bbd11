import ControllerTypes.Description.OfDocument
import ControllerTypes.Proofs.Resource.Nominated
import ControllerTypes.Resolution.Basic
import Mathlib

/-!
# `ControllerTypes.Proofs.Description.Responses`: defaults in the place of successes

What an operation answers is the body of its first success, or else that of its default response. The
choice is made among the responses that are left of the document, and these are the ones whose body
names a definition (`successResponse?_of_readAs`). So a success without a body, or with a schema that
is written in place, is passed over, and the default response is taken for the answer although the
operation declares a success.

`answers_vouched_iff` says when that happens, and what it means for resources. An operation that
creates something may nominate the body of an error, and a read may have it for a status.
-/

set_option autoImplicit false

namespace ControllerTypes

namespace Document

/-! ### What is left of an operation -/

/-- The operation of the document is read as an operation of the description. -/
inductive ReadAs (doc : Document) : Operation → ApiOperation → Prop
  | intro {path : String} {item : PathItem} {method : Method} {raw : Operation}
      (hpath : (path, item) ∈ doc.paths) (hmethod : (method, raw) ∈ item.operations) :
      ReadAs doc raw
        { path, method, operationId := raw.operationId,
          requestBody := requestDefinition? doc.components item raw,
          responses := namedResponses doc.components raw }

/-- The operations of a description are what the operations of its document are `ReadAs`. -/
theorem mem_operations_iff {doc : Document} {op : ApiOperation} :
    op ∈ doc.operations ↔ ∃ raw, doc.ReadAs raw op := by
  constructor
  · intro h
    obtain ⟨⟨path, item⟩, hpath, h⟩ := List.mem_flatMap.1 h
    obtain ⟨⟨method, raw⟩, hmethod, rfl⟩ := List.mem_map.1 h
    exact ⟨raw, .intro hpath hmethod⟩
  · rintro ⟨raw, hpath, hmethod⟩
    exact List.mem_flatMap.2 ⟨_, hpath, List.mem_map.2 ⟨_, hmethod, rfl⟩⟩

namespace Operation

/-- The definitions that the responses with such a status name, in order. -/
def named (raw : Operation) (shared : Option Components) (p : String → Bool) : List String :=
  (raw.responses.filter fun r => p r.1).filterMap fun r => responseDefinition? shared r.2

/-- The definitions that the successes name. -/
def successes (raw : Operation) (shared : Option Components) : List String :=
  raw.named shared isSuccess

/-- The definitions that the default response names. -/
def defaults (raw : Operation) (shared : Option Components) : List String :=
  raw.named shared (· == "default")

/-- Some response has a success status, whatever its body. -/
def DeclaresSuccess (raw : Operation) : Prop := ∃ r ∈ raw.responses, isSuccess r.1 = true

/-- If the operation declares a success at all, one of its successes names the definition. -/
def Vouches (raw : Operation) (shared : Option Components) (definition : String) : Prop :=
  raw.DeclaresSuccess → definition ∈ raw.successes shared

end Operation

section
variable {doc : Document} {raw : Operation} {op : ApiOperation} {shared : Option Components}

/-- The responses in `namedResponses` with such a status are those that name a definition. By `hp`
the status is one of those that are kept at all. -/
theorem map_schema_namedResponses {p : String → Bool}
    (hp : ∀ status, p status = true → isSuccess status = true ∨ status = "default")
    (raw : Operation) :
    ((namedResponses shared raw).filter fun r => p r.status).map ApiResponse.schema =
      raw.named shared p := by
  rw [namedResponses, Operation.named, List.filter_filterMap, List.map_filterMap,
    List.filterMap_filter, List.filterMap_filter]
  refine List.filterMap_congr fun (status, response) _ => ?_
  -- A response is dropped for its status, by either side, or for naming nothing.
  cases hstatus : p status with
  | false => cases hname : responseDefinition? shared response <;> simp [hstatus, hname]
  | true =>
    have hkept := hp status hstatus
    cases hname : responseDefinition? shared response <;> simp [hstatus, hkept, hname]

/-- The first of them with such a status names what comes first in `named`. -/
theorem map_find?_namedResponses {p : String → Bool}
    (hp : ∀ status, p status = true → isSuccess status = true ∨ status = "default")
    (raw : Operation) :
    ((namedResponses shared raw).find? fun r => p r.status).map ApiResponse.schema =
      (raw.named shared p).head? := by
  rw [← map_schema_namedResponses hp, List.head?_map, List.head?_filter]

/-- What an operation answers, by `successResponse?`, is what its first success with a name has for
a body, or else its default. -/
theorem successResponse?_of_readAs (h : doc.ReadAs raw op) :
    op.successResponse? =
      (raw.successes doc.components).head?.or (raw.defaults doc.components).head? := by
  cases h
  have hdefault (status : String) (h : (status == "default") = true) :
      isSuccess status = true ∨ status = "default" := .inr (eq_of_beq h)
  rw [ApiOperation.successResponse?, Option.map_or, Operation.successes, Operation.defaults,
    map_find?_namedResponses fun _ => .inl, map_find?_namedResponses hdefault]

/-- An answer is named by a success, or by the default response when no success names anything. -/
theorem answer_cases (h : doc.ReadAs raw op) {d : String} (hd : op.successResponse? = some d) :
    d ∈ raw.successes doc.components ∨
      raw.successes doc.components = [] ∧ d ∈ raw.defaults doc.components := by
  rw [successResponse?_of_readAs h] at hd
  rcases Option.or_eq_some_iff.1 hd with hsuccess | ⟨hnone, hdefault⟩
  · exact .inl (List.mem_of_head? hsuccess)
  · exact .inr ⟨List.head?_eq_none_iff.1 hnone, List.mem_of_head? hdefault⟩

/-- The answers of an operation are all `Vouches` asks for if and only if its default response names
nothing in the place of a success that names nothing. -/
theorem answer_vouched_iff (h : doc.ReadAs raw op) :
    (∀ d, op.successResponse? = some d → raw.Vouches doc.components d) ↔
      (raw.DeclaresSuccess → raw.successes doc.components = [] →
        raw.defaults doc.components = []) := by
  constructor
  · intro hvouched hdeclares hnone
    -- A default that names something would be the answer, and no success vouches for it.
    cases hdefaults : raw.defaults doc.components with
    | nil => rfl
    | cons d rest =>
      have hanswer : op.successResponse? = some d := by
        rw [successResponse?_of_readAs h, hnone, hdefaults]
        rfl
      have hmem := hvouched d hanswer hdeclares
      rw [hnone] at hmem
      cases hmem
  · intro hdefaults d hanswer hdeclares
    rcases answer_cases h hanswer with hsuccess | ⟨hnone, hdefault⟩
    · exact hsuccess
    · rw [hdefaults hdeclares hnone] at hdefault
      cases hdefault

end

/-! ### What is made of the answers -/

/-- Where a resource comes from: its definition is the request of an operation or an answer that is
vouched for, and so is the definition of its status. -/
structure Backed (doc : Document) (r : Resource) : Prop where
  spec : ∃ raw op, doc.ReadAs raw op ∧ op.crud.isMutating = true ∧
    (op.requestBody = some r.schemaName ∨
      op.requestBody = none ∧ raw.Vouches doc.components r.schemaName)
  status : ∀ d, r.statusSchemaName = some d →
    ∃ raw op, doc.ReadAs raw op ∧ op.crud = .read ∧ raw.Vouches doc.components d

/-- If the answers of all operations are vouched for, then each resource is `Backed`. -/
theorem backed_of_vouched {doc : Document} {settings : Settings} {catalog : Catalog}
    {resources : List Resource}
    (hvouched : ∀ raw op, doc.ReadAs raw op → ∀ d, op.successResponse? = some d →
      raw.Vouches doc.components d)
    (h : Extraction.resources doc.operations catalog settings = .ok resources) :
    ∀ r ∈ resources, doc.Backed r := by
  intro r hr
  constructor
  · -- The spec: what nominates it carries it or answers it, and an answer is vouched for.
    obtain ⟨op, hop, hnominates⟩ := Extraction.nominated_of_mem h r hr
    obtain ⟨raw, hraw⟩ := mem_operations_iff.1 hop
    refine ⟨raw, op, hraw, ?_⟩
    cases hnominates with
    | request hmutating hbody => exact ⟨ApiOperation.isMutating_crud_iff.2 hmutating, .inl hbody⟩
    | response hmutating hnone hanswer =>
      have hanswer := ApiOperation.successResponse?_eq_some_iff.2 hanswer
      exact ⟨ApiOperation.isMutating_crud_iff.2 hmutating,
        .inr ⟨hnone, hvouched raw op hraw _ hanswer⟩⟩
  · -- The status is what a read answers.
    intro d hd
    obtain ⟨op, hop, hread, hanswer⟩ :=
      Extraction.exists_read_of_resourceOf (Extraction.resourceOf_of_mem h r hr) hd
    obtain ⟨raw, hraw⟩ := mem_operations_iff.1 hop
    exact ⟨raw, op, hraw, hread, hvouched raw op hraw d hanswer⟩

/-- Every answer in a document is vouched for if and only if no operation that declares a success has
a default response that names a definition while none of its successes does. Then no resource is made
of a default response in the place of a success, and no status either. -/
theorem answers_vouched_iff (doc : Document) :
    ((∀ raw op, doc.ReadAs raw op → ∀ d, op.successResponse? = some d →
        raw.Vouches doc.components d) ↔
      ∀ raw op, doc.ReadAs raw op → raw.DeclaresSuccess →
        raw.successes doc.components = [] → raw.defaults doc.components = []) ∧
    ((∀ raw op, doc.ReadAs raw op → ∀ d, op.successResponse? = some d →
        raw.Vouches doc.components d) →
      ∀ settings catalog resources,
        Extraction.resources doc.operations catalog settings = .ok resources →
        ∀ r ∈ resources, doc.Backed r) :=
  ⟨forall₂_congr fun _ _ => forall_congr' answer_vouched_iff,
    fun hvouched _ _ _ h => backed_of_vouched hvouched h⟩

/-! ### A shop

Orders are placed without a body, and refunds are asked for by one and then read. Whatever goes wrong
is a problem, by the default response of each operation. -/

namespace Shop

/-- The response has the definition for its body. -/
def body (definition : String) : Response where
  schema := some { ref := "#/definitions/" ++ definition }

def createOrder (success : String → Response) : Operation where
  operationId := "CreateOrder"
  responses := [("201", success "Order"), ("default", body "Problem")]

def createRefund : Operation where
  operationId := "CreateRefund"
  parameters := [{ location := "body", schema := some { ref := "#/definitions/Refund" } }]

def getRefund (success : String → Response) : Operation where
  operationId := "GetRefund"
  responses := [("200", success "Refund"), ("default", body "Problem")]

/-- A shop whose successes have the given bodies. -/
def document (success : String → Response) : Document where
  paths := [("/orders", { post := createOrder success }), ("/refunds", { post := createRefund }),
    ("/refunds/\x7bid\x7d", { get := getRefund success })]
  definitions :=
    [("Order", { properties := [("size", { type := some (.single "integer") })] }),
     ("Refund", { properties := [("reason", { type := some (.single "string") })] }),
     ("Problem", { properties := [("message", { type := some (.single "string") })] })]

def catalog : Catalog := .ofList
  [("Order", .object [⟨"size", .primitive .integer, false⟩]),
   ("Refund", .object [⟨"reason", .primitive .string, false⟩]),
   ("Problem", .object [⟨"message", .primitive .string, false⟩])]

/-- The schemas of a shop resolve to its `catalog`, whatever the bodies of its successes are. -/
theorem resolved (success : String → Response) :
    Resolution.resolveAll (document success).schemas = .ok catalog := by
  cbv

/-- The operations of a shop: orders are created, refunds are created and read. -/
theorem raw_cases {success : String → Response} {raw : Operation} {op : ApiOperation}
    (h : (document success).ReadAs raw op) :
    raw = createOrder success ∨ raw = createRefund ∨ raw = getRefund success := by
  cases h with
  | intro hpath hmethod =>
    simp only [document, List.mem_cons, Prod.mk.injEq, List.not_mem_nil, or_false] at hpath
    rcases hpath with ⟨rfl, rfl⟩ | ⟨rfl, rfl⟩ | ⟨rfl, rfl⟩
    · exact .inl (Prod.mk.inj (List.mem_singleton.1 hmethod)).2
    · exact .inr (.inl (Prod.mk.inj (List.mem_singleton.1 hmethod)).2)
    · exact .inr (.inr (Prod.mk.inj (List.mem_singleton.1 hmethod)).2)

end Shop

/-- Where successes have bodies, orders and refunds are resources and problems are not. -/
theorem shop_answers_vouched :
    (∀ raw op, (Shop.document Shop.body).ReadAs raw op → ∀ d, op.successResponse? = some d →
      raw.Vouches none d) ∧
    ∃ resources, Extraction.resources (Shop.document Shop.body).operations Shop.catalog {} =
        .ok resources ∧
      resources.map Resource.schemaName = ["Order", "Refund"] ∧
      ∀ r ∈ resources, (Shop.document Shop.body).Backed r := by
  obtain ⟨hiff, hbacked⟩ := answers_vouched_iff (Shop.document Shop.body)
  -- Orders and refunds are named by their successes, and what creates refunds answers nothing.
  have hvouched := hiff.2 fun raw op hread _ hnone => by
    rcases Shop.raw_cases hread with rfl | rfl | rfl
    · exact absurd hnone (by decide)
    · rfl
    · exact absurd hnone (by decide)
  obtain ⟨resources, hresources, hnames⟩ : ∃ resources,
      Extraction.resources (Shop.document Shop.body).operations Shop.catalog {} = .ok resources ∧
      resources.map Resource.schemaName = ["Order", "Refund"] := ⟨_, by cbv, by cbv⟩
  exact ⟨hvouched, resources, hresources, hnames, hbacked hvouched _ _ _ hresources⟩

/-- Where they have none, problems are made a resource, and they are the status of refunds. -/
theorem shop_answers_not_vouched :
    (¬ ∀ raw op, (Shop.document fun _ => {}).ReadAs raw op → ∀ d, op.successResponse? = some d →
      raw.Vouches none d) ∧
    Resolution.resolveAll (Shop.document fun _ => {}).schemas = .ok Shop.catalog ∧
    ∃ resources, Extraction.resources (Shop.document fun _ => {}).operations Shop.catalog {} =
        .ok resources ∧
      resources.map (fun r => (r.schemaName, r.statusSchemaName)) =
        [("Refund", some "Problem"), ("Problem", none)] := by
  refine ⟨fun hvouched => ?_, Shop.resolved _, _, by cbv, by cbv⟩
  -- The creation of an order declares a success, which names nothing, and a default, which names
  -- problems.
  have hread := @ReadAs.intro (Shop.document fun _ => {}) "/orders"
    { post := Shop.createOrder fun _ => {} } .post _ List.mem_cons_self List.mem_cons_self
  have hdeclares : (Shop.createOrder fun _ => {}).DeclaresSuccess :=
    ⟨_, List.mem_cons_self, by decide⟩
  have hmem := hvouched _ _ hread "Problem" (by cbv) hdeclares
  exact absurd hmem (by decide)

end Document

end ControllerTypes
