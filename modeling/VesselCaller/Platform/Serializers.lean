import VesselCaller.Platform.Views

/-!
# Request bodies and the profile update of an organization

`request.data` is what a JSON body parses to, or the fields of a form: Django REST framework
parses both unless it is told otherwise.  A field of a form may be sent more than once.  A
text field takes the last value of it, a list field all of them, and `json.dumps` writes the
last one.

What Python and Django answer about a text comes with the serializer as `Library`.

## Main definitions

* `Data`, `Body` — parsed JSON, and a body that is JSON or a form;
* `Body.field`, `Body.listField` — how a serializer reads a field of either;
* `OrganizationUpdate`, `updateOrganization` — the update.
-/

namespace VesselCaller.Platform

open Lib Accounts

/-- What `json.loads` returns.  A float stands by its `repr`, and a dictionary lists its fields
by name, which is the order `json.dumps` writes them in. -/
inductive Data where
  | null
  | bool (b : Bool)
  | int (n : ℤ)
  | float (repr : String)
  | str (text : String)
  | list (items : List Data)
  | dict (fields : List (String × Data))
  deriving Repr

mutual

def Data.decEq : (a b : Data) → Decidable (a = b)
  | .null, .null => isTrue rfl
  | .bool a, .bool b => decidable_of_iff (a = b) (by rw [Data.bool.injEq])
  | .int a, .int b => decidable_of_iff (a = b) (by rw [Data.int.injEq])
  | .float a, .float b => decidable_of_iff (a = b) (by rw [Data.float.injEq])
  | .str a, .str b => decidable_of_iff (a = b) (by rw [Data.str.injEq])
  | .list a, .list b =>
      have := Data.decEqItems a b
      decidable_of_iff (a = b) (by rw [Data.list.injEq])
  | .dict a, .dict b =>
      have := Data.decEqFields a b
      decidable_of_iff (a = b) (by rw [Data.dict.injEq])
  | .null, .bool _ | .null, .int _ | .null, .float _ | .null, .str _ | .null, .list _
  | .null, .dict _ | .bool _, .null | .bool _, .int _ | .bool _, .float _ | .bool _, .str _
  | .bool _, .list _ | .bool _, .dict _ | .int _, .null | .int _, .bool _ | .int _, .float _
  | .int _, .str _ | .int _, .list _ | .int _, .dict _ | .float _, .null | .float _, .bool _
  | .float _, .int _ | .float _, .str _ | .float _, .list _ | .float _, .dict _ | .str _, .null
  | .str _, .bool _ | .str _, .int _ | .str _, .float _ | .str _, .list _ | .str _, .dict _
  | .list _, .null | .list _, .bool _ | .list _, .int _ | .list _, .float _ | .list _, .str _
  | .list _, .dict _ | .dict _, .null | .dict _, .bool _ | .dict _, .int _ | .dict _, .float _
  | .dict _, .str _ | .dict _, .list _ => isFalse nofun

def Data.decEqItems : (a b : List Data) → Decidable (a = b)
  | [], [] => isTrue rfl
  | x :: xs, y :: ys =>
      have := Data.decEq x y
      have := Data.decEqItems xs ys
      decidable_of_iff (x = y ∧ xs = ys) (by rw [List.cons.injEq])
  | [], _ :: _ | _ :: _, [] => isFalse nofun

def Data.decEqFields : (a b : List (String × Data)) → Decidable (a = b)
  | [], [] => isTrue rfl
  | (n, x) :: xs, (m, y) :: ys =>
      have := Data.decEq x y
      have := Data.decEqFields xs ys
      decidable_of_iff ((n = m ∧ x = y) ∧ xs = ys) (by rw [List.cons.injEq, Prod.mk.injEq])
  | [], _ :: _ | _ :: _, [] => isFalse nofun

end

instance : DecidableEq Data := Data.decEq

/-- `request.data`.  A form lists its fields by name, each with the values it was sent with. -/
inductive Body where
  | json (data : Data)
  | form (fields : List (String × List String))
  deriving Repr, DecidableEq

/-- The values a form field was sent with. -/
def formValues (fields : List (String × List String)) (name : String) : List String :=
  ((fields.find? fun f => f.1 = name).map Prod.snd).getD []

/-- What `json.dumps` writes of the body.  The items of a `QueryDict` are its fields, each with
the last value it was sent with. -/
def Body.dumped : Body → Data
  | .json data => data
  | .form fields => .dict (fields.map fun (name, values) =>
      (name, (values.getLast?.map Data.str).getD (.list [])))

/-! ## Reading fields -/

/-- `str.strip`, `str.casefold`, Django's e-mail validator and `int` of a text. -/
structure Library where
  strip : String → String
  casefold : String → String
  validEmail : String → Bool
  parseInt : String → Option ℤ

/-- `Field.get_value` of a field that is not required: an empty form value is no value, unless
blanks are allowed. -/
def Body.field (body : Body) (name : String) (allowBlank : Bool) : Option Data :=
  match body with
  | .json (.dict fields) => (fields.find? fun f => f.1 = name).map Prod.snd
  | .json _ => none
  | .form fields => ((formValues fields name).getLast?.filter fun value =>
      value ≠ "" || allowBlank).map .str

/-- `ListField.get_value`: all the values of a form field. -/
def Body.listField (body : Body) (name : String) : Option Data :=
  match body with
  | .json (.dict fields) => (fields.find? fun f => f.1 = name).map Prod.snd
  | .json _ => none
  | .form fields =>
      if formValues fields name = [] then none
      else some (.list ((formValues fields name).map .str))

/-- The text a `CharField` takes a value for. -/
def Data.text : Data → Option String
  | .str text => some text
  | .int n => some (toString n)
  | .float repr => some repr
  | _ => none

/-- `CharField.run_validation`. -/
def charValue (lib : Library) (name : String) (maxLength : Option ℕ) (allowBlank : Bool)
    (value : Data) : Result String := do
  raiseIf (value = .null) (.validation name "This field may not be null.")
  let text ← orRaise value.text (.validation name "Not a valid string.")
  let text := lib.strip text
  raiseIf (text = "" ∧ allowBlank = false) (.validation name "This field may not be blank.")
  raiseIf (maxLength.any (· < text.length) = true) (.validation name
    ("Ensure this field has no more than " ++ toString (maxLength.getD 0) ++ " characters."))
  return text

/-- A value that may be missing. -/
def optional {α β : Type} (value : Option α) (read : α → Result β) : Result (Option β) :=
  match value with
  | none => pure none
  | some value => do
      let result ← read value
      return some result

/-- `IntegerField(min_value=0)`. -/
def naturalValue (lib : Library) (name : String) (value : Data) : Result ℕ := do
  raiseIf (value = .null) (.validation name "This field may not be null.")
  let n ← orRaise
    (match value with
      | .int n => some n
      | .str text | .float text => lib.parseInt text
      | _ => none)
    (.validation name "A valid integer is required.")
  raiseIf (n < 0) (.validation name "Ensure this value is greater than or equal to 0.")
  return n.toNat

/-- `canonical_ports`. -/
def canonicalPorts (lib : Library) : List String → List String → Result (List String)
  | _, [] => pure []
  | seen, raw :: values => do
      let value := lib.strip raw
      raiseIf (value = "") (.validation "ports" "Port names cannot be blank")
      raiseIf (lib.casefold value ∈ seen) (.validation "ports" "Port names must be unique")
      let rest ← canonicalPorts lib (lib.casefold value :: seen) values
      return value :: rest

/-- A `ListField` of texts, and `validate_ports`. -/
def portsValue (lib : Library) (value : Data) : Result (List String) := do
  let items ← orRaise
    (match value with
      | .list items => some items
      | _ => none)
    (.validation "ports" "Expected a list of items.")
  let names ← items.mapM (charValue lib "ports" (some 255) false)
  canonicalPorts lib [] names

/-! ## The profile update -/

/-- The validated data of a `SystemOrganizationUpdateSerializer`. -/
structure OrganizationUpdate where
  name : Option String
  rcNumber : Option String
  email : Option String
  phone : Option String
  address : Option String
  primaryPort : Option String
  ports : Option (List String)
  revision : ℕ
  deriving DecidableEq, Repr

/-- `SystemOrganizationUpdateSerializer`. -/
def organizationUpdate (lib : Library) (body : Body) : Result OrganizationUpdate := do
  let text := fun name maxLength allowBlank =>
    optional (body.field name allowBlank) (charValue lib name maxLength allowBlank)
  let name ← text "name" (some 255) false
  let rcNumber ← text "rcNumber" (some 100) true
  let email ← text "email" none true
  raiseIf (email.any (fun email => email ≠ "" && !lib.validEmail email) = true)
    (.validation "email" "Enter a valid email address.")
  let phone ← text "phone" (some 50) true
  let address ← text "address" none true
  let primaryPort ← text "primaryPort" (some 255) false
  let ports ← optional (body.listField "ports") (portsValue lib)
  let revision ← orRaise (body.field "revision" true) (.validation "revision" "This field is required.")
  let revision ← naturalValue lib "revision" revision
  return { name, rcNumber, email, phone, address, primaryPort, ports, revision }

/-- The organization with the update applied; its primary port is one of its ports. -/
def updated (lib : Library) (o : Organization) (data : OrganizationUpdate) : Organization :=
  let primaryPort := data.primaryPort.getD o.primaryPort
  let ports := data.ports.getD o.ports
  { o with
    name := data.name.getD o.name
    rcNumber := data.rcNumber.getD o.rcNumber
    email := data.email.getD o.email
    phone := data.phone.getD o.phone
    address := data.address.getD o.address
    primaryPort := primaryPort
    ports := if lib.casefold primaryPort ∈ ports.map lib.casefold then ports
      else ports ++ [primaryPort] }

/-- `SystemOrganizationDetailView.patch`: an update that changes nothing leaves the revision.
`full_clean` repeats the checks of the serializer. -/
def updateOrganization (lib : Library) (s : AccountScope) (organizationId : Id) (body : Body) :
    Result AccountScope := do
  let data ← organizationUpdate lib body
  raiseIf (s.organization.id ≠ organizationId) (.notFound "Organization not found")
  lockCustomerOrganization s
  requireRevision s data.revision
  let organization := updated lib s.organization data
  if organization = s.organization then return s
  else return { s with organization := organization }.bumpRevision

/-- A payload as the JSON it is sent as. -/
def SystemOrganizationData.data (d : SystemOrganizationData) : Data := .dict [
  ("activeUserCount", .int d.activeUserCount),
  ("address", .str d.address),
  ("adminCount", .int d.adminCount),
  ("email", .str d.email),
  ("id", .int d.id),
  ("name", .str d.name),
  ("pendingInvitationCount", .int d.pendingInvitationCount),
  ("phone", .str d.phone),
  ("ports", .list (d.ports.map .str)),
  ("primaryPort", .str d.primaryPort),
  ("rcNumber", .str d.rcNumber),
  ("registered", .bool d.registered),
  ("revision", .int d.revision),
  ("status", .str (match d.status with
    | .pendingApproval => "pending_approval"
    | .active => "active"
    | .suspended => "suspended")),
  ("userCount", .int d.userCount)]

end VesselCaller.Platform
