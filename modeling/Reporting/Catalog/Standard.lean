import Reporting.Catalog.Basic

/-!
# The standard catalog

The fields of the four built-in sources.
-/

namespace Reporting.Catalog

/-- The fields of deals. -/
def dealFields : List AvailableField :=
  let field := AvailableField.make (.builtIn .deals)
  [field "id" "Deal ID" .text,
    field "title" "Deal" .text,
    (field "status" "Status" .text).groupable,
    (field "stage" "Stage" .text).groupable,
    (field "agentId" "Agent" .text).groupable,
    field "clientName" "Client" .text,
    field "propertyId" "Property" .text,
    (field "financial.agreedPrice" "Agreed Price" .currency).aggregatable,
    (field "financial.commissionRate" "Commission Rate" .percentage).aggregatable,
    (field "financial.depositPaid" "Deposit Paid" .boolean).groupable,
    (field "createdAt" "Created" .date).groupable,
    field "closingDate" "Closing Date" .date]

/-- The fields of properties. -/
def propertyFields : List AvailableField :=
  let field := AvailableField.make (.builtIn .properties)
  [field "id" "Property ID" .text,
    field "title" "Property" .text,
    (field "type" "Type" .text).groupable,
    (field "status" "Status" .text).groupable,
    (field "agentId" "Agent" .text).groupable,
    (field "location.city" "City" .text).groupable,
    (field "location.district" "District" .text).groupable,
    (field "price" "Price" .currency).aggregatable,
    (field "bedrooms" "Bedrooms" .number).groupable.aggregatable,
    (field "area" "Area (sq m)" .number).aggregatable,
    (field "furnished" "Furnished" .boolean).groupable,
    field "listedAt" "Listed" .date]

/-- The fields of expenses. -/
def expenseFields : List AvailableField :=
  let field := AvailableField.make (.builtIn .expenses)
  [field "id" "Expense ID" .text,
    field "description" "Description" .text,
    (field "category" "Category" .text).groupable,
    (field "amount" "Amount" .currency).aggregatable,
    (field "date" "Date" .date).groupable,
    (field "paymentMethod" "Payment Method" .text).groupable,
    (field "agentId" "Agent" .text).groupable,
    (field "recurring" "Recurring" .boolean).groupable]

/-- The fields of commissions. -/
def commissionFields : List AvailableField :=
  let field := AvailableField.make (.builtIn .commissions)
  [field "id" "Commission ID" .text,
    field "dealId" "Deal" .text,
    (field "agentId" "Agent" .text).groupable,
    (field "status" "Status" .text).groupable,
    (field "amount" "Amount" .currency).aggregatable,
    (field "rate" "Rate" .percentage).aggregatable,
    (field "paidAt" "Paid" .date).groupable]

/-- The catalog of the built-in sources. -/
def standard : Catalog :=
  (((empty.register dealFields).register propertyFields).register expenseFields).register
    commissionFields

end Reporting.Catalog
