import Recouple.Extraction.Paths

/-!
# The document types: `packages/extraction/src/schemas.ts`, `describeFields` of `paths.ts`

A document type's schema is a list of fields and of arrays of objects of fields. Of a field the model keeps
the type of its value and whether the value may be null; the descriptions are the prompt's. No field of any
document type is a `number` that is not an integer, so that value type is left out.

The schema carries what makes its paths readable: its names are identifiers and come once, and its arrays are
of objects with a field.
-/

namespace Recouple.Extraction
open Js FirstSeen

inductive ValueType
  | string | integer | boolean
deriving DecidableEq

/-- One field: `Field(value)`, or `OptionalField(value)` where it is not `required`. -/
structure FieldSchema where
  name : Text
  valueType : ValueType
  required : Bool
deriving DecidableEq

inductive Property
  | field (field : FieldSchema)
  | array (name : Text) (fields : List FieldSchema)
deriving DecidableEq

def Property.name : Property → Text
  | .field f => f.name
  | .array name _ => name

/-- The fields of the objects of an array. -/
def Property.leaves : Property → List FieldSchema
  | .field _ => []
  | .array _ fields => fields

/-- A name without the characters a path is punctuated with. -/
def Identifier (name : Text) : Prop := name ≠ [] ∧ ∀ c ∈ name, c ≠ '[' ∧ c ≠ ']' ∧ c ≠ '.'

instance : DecidablePred Identifier := fun name =>
  @instDecidableAnd _ _ inferInstance (List.decidableBAll _ name)

theorem Identifier.plain {name : Text} (h : Identifier name) : Plain name :=
  fun c hc => ⟨(h.2 c hc).1, (h.2 c hc).2.1⟩

theorem Identifier.dotless {name : Text} (h : Identifier name) : '.' ∉ name := fun hm => (h.2 '.' hm).2.2 rfl

structure DocumentSchema where
  properties : List Property
  named : ∀ p ∈ properties, Identifier p.name ∧ ∀ f ∈ p.leaves, Identifier f.name
  distinct : (properties.map Property.name).Nodup
  leavesDistinct : ∀ p ∈ properties, (p.leaves.map FieldSchema.name).Nodup
  filled : ∀ p ∈ properties, p ≠ .array p.name []

/-! ## The schemas -/

def Field (name : String) (valueType : ValueType) : FieldSchema := ⟨name, valueType, true⟩
def OptionalField (name : String) (valueType : ValueType) : FieldSchema := ⟨name, valueType, false⟩

def DeductionNoticeSchema : DocumentSchema where
  properties :=
    [.field (Field "retailer_name" .string), .field (OptionalField "vendor_number" .string),
      .field (Field "claim_id" .string), .field (OptionalField "invoice_number" .string),
      .field (OptionalField "po_number" .string), .field (OptionalField "store_or_dc" .string),
      .field (OptionalField "gln" .string), .field (OptionalField "asn_number" .string),
      .array "lines" [OptionalField "sku_upc" .string, OptionalField "description" .string,
        OptionalField "qty_invoiced" .integer, OptionalField "qty_received" .integer,
        OptionalField "unit_cost" .string, Field "deduction_amount" .string, Field "reason_code" .string,
        OptionalField "deduction_reference" .string, OptionalField "reason_description" .string],
      .field (Field "deduction_total" .string), .field (Field "deduction_date" .string),
      .field (OptionalField "dispute_deadline" .string), .field (OptionalField "remittance_or_check" .string)]
  named := by decide
  distinct := by decide
  leavesDistinct := by decide
  filled := by decide

def RemittanceAdviceSchema : DocumentSchema where
  properties :=
    [.field (Field "payer_name" .string), .field (Field "payment_reference" .string),
      .field (Field "payment_date" .string), .field (Field "payment_total" .string),
      .array "lines" [Field "invoice_number" .string, OptionalField "gross_amount" .string,
        OptionalField "deduction_amount" .string, OptionalField "net_amount" .string,
        OptionalField "reason_code" .string]]
  named := by decide
  distinct := by decide
  leavesDistinct := by decide
  filled := by decide

def InvoiceSchema : DocumentSchema where
  properties :=
    [.field (Field "invoice_number" .string), .field (Field "invoice_date" .string),
      .field (OptionalField "po_number" .string), .field (Field "customer_name" .string),
      .field (Field "invoice_total" .string),
      .array "lines" [Field "sku_upc" .string, Field "qty" .integer, Field "unit_cost" .string,
        OptionalField "extended_amount" .string]]
  named := by decide
  distinct := by decide
  leavesDistinct := by decide
  filled := by decide

def PurchaseOrderSchema : DocumentSchema where
  properties :=
    [.field (Field "po_number" .string), .field (Field "po_date" .string), .field (Field "buyer_name" .string),
      .field (OptionalField "ship_to" .string),
      .array "lines" [Field "sku_upc" .string, Field "qty_ordered" .integer, Field "unit_cost" .string]]
  named := by decide
  distinct := by decide
  leavesDistinct := by decide
  filled := by decide

def ShipmentDocumentSchema : DocumentSchema where
  properties :=
    [.field (Field "document_number" .string), .field (OptionalField "ship_date" .string),
      .field (OptionalField "carrier_name" .string), .field (OptionalField "po_number" .string),
      .field (OptionalField "ship_from" .string), .field (OptionalField "ship_to" .string),
      .field (OptionalField "appointment_at" .string), .field (OptionalField "gate_check_in_at" .string),
      .field (OptionalField "appointment_reference" .string),
      .field (OptionalField "total_cartons_shipped" .integer),
      .field (OptionalField "total_cartons_received" .integer), .field (OptionalField "signed_by" .string),
      .field (Field "signature_present" .boolean),
      .array "lines" [Field "sku_upc" .string, OptionalField "qty_shipped" .integer,
        OptionalField "qty_received" .integer]]
  named := by decide
  distinct := by decide
  leavesDistinct := by decide
  filled := by decide

def AsnSchema : DocumentSchema where
  properties :=
    [.field (Field "asn_number" .string), .field (OptionalField "po_number" .string),
      .field (OptionalField "ship_date" .string), .field (OptionalField "carton_count" .integer),
      .array "lines" [Field "sku_upc" .string, Field "qty_shipped" .integer]]
  named := by decide
  distinct := by decide
  leavesDistinct := by decide
  filled := by decide

def AgreementSchema : DocumentSchema where
  properties :=
    [.field (Field "agreement_type" .string), .field (Field "counterparty" .string),
      .field (OptionalField "effective_from" .string), .field (OptionalField "effective_to" .string),
      .field (OptionalField "approved_by" .string),
      .array "terms" [OptionalField "sku_upc" .string, Field "term_text" .string, OptionalField "amount" .string]]
  named := by decide
  distinct := by decide
  leavesDistinct := by decide
  filled := by decide

def CorrespondenceSchema : DocumentSchema where
  properties :=
    [.field (Field "message_reference" .string), .field (Field "sent_at" .string), .field (Field "sender" .string),
      .field (OptionalField "sender_organisation" .string), .field (OptionalField "recipient" .string),
      .field (OptionalField "subject" .string),
      .array "references" [Field "label" .string, Field "value" .string],
      .array "commitments" [Field "commitment_text" .string, OptionalField "effective_at" .string,
        OptionalField "supersedes" .string, OptionalField "establishes" .string, Field "waives_charge" .boolean,
        OptionalField "attributed_to" .string]]
  named := by decide
  distinct := by decide
  leavesDistinct := by decide
  filled := by decide

def GenericDocumentSchema : DocumentSchema where
  properties :=
    [.field (Field "document_kind" .string),
      .array "key_facts" [Field "label" .string, Field "detail" .string]]
  named := by decide
  distinct := by decide
  leavesDistinct := by decide
  filled := by decide

inductive DocType
  | deduction_notice | remittance_advice | invoice | po | bol | pod | asn | correspondence
  | promo_agreement | price_agreement | routing_guide | other
deriving DecidableEq

def schemaFor : DocType → DocumentSchema
  | .deduction_notice => DeductionNoticeSchema
  | .remittance_advice => RemittanceAdviceSchema
  | .invoice => InvoiceSchema
  | .po => PurchaseOrderSchema
  | .bol | .pod => ShipmentDocumentSchema
  | .asn => AsnSchema
  | .correspondence => CorrespondenceSchema
  | .promo_agreement | .price_agreement => AgreementSchema
  | .routing_guide | .other => GenericDocumentSchema

/-! ## The field list -/

structure TypedDescriptor extends FieldDescriptor where
  valueType : ValueType
deriving DecidableEq

/-- The path of a field of an array, before it has a row number. -/
def leafTemplate (group leaf : Text) : Text := group ++ '[' :: ']' :: '.' :: leaf

def Property.descriptors : Property → List TypedDescriptor
  | .field f => [⟨⟨f.name, none⟩, f.valueType⟩]
  | .array group fields => fields.map fun f => ⟨⟨leafTemplate group f.name, some group⟩, f.valueType⟩

/-- `describeFields(schema)`, as far as paths, groups and value types. -/
def DocumentSchema.descriptors (schema : DocumentSchema) : List TypedDescriptor :=
  schema.properties.flatMap Property.descriptors

end Recouple.Extraction
