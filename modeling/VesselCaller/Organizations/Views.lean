import VesselCaller.Tenant

/-!
# The organization endpoints

`OrganizationView.put`, `OrganizationLogoView.put`/`delete` and `SettingsView.put`.
`OrganizationView.put` has no serializer: it copies the keys it finds, and a falsy
value becomes the empty text, which the boolean column `registered` refuses.

## Main definitions

* `putOrganization`, `putLogo`, `putSettings` — the views;
* `settingsValid` — what the serializer of the settings admits.
-/

namespace VesselCaller.Organizations

open Lib Accounts Operations

/-- The keys of an organization update.  `designatedPort` and `primaryPort` write the
same column, the latter last. -/
structure OrganizationInput where
  name : Option String := none
  rcNumber : Option String := none
  email : Option String := none
  phone : Option String := none
  address : Option String := none
  designatedPort : Option String := none
  primaryPort : Option String := none
  ports : Option (List String) := none
  registered : Option Bool := none
  deriving DecidableEq, Repr

/-- `OrganizationView.put`. -/
def putOrganization (t : Tenant) (data : OrganizationInput) : Result Tenant := do
  let o := t.organization
  raiseIf (data.registered = some false) (.server "ValidationError: registered")
  let o := { o with
    name := data.name.getD o.name
    rcNumber := data.rcNumber.getD o.rcNumber
    email := data.email.getD o.email
    phone := data.phone.getD o.phone
    address := data.address.getD o.address
    primaryPort := data.primaryPort.getD (data.designatedPort.getD o.primaryPort)
    ports := data.ports.getD o.ports
    registered := data.registered.getD o.registered }
  raiseIf (255 < o.name.length ∨ 100 < o.rcNumber.length ∨ 254 < o.email.length ∨
      50 < o.phone.length ∨ 255 < o.primaryPort.length)
    (.server "value too long for type character varying")
  return { t with organization := o }.bumpRevision

/-- A logo finalization.  `ownUpload` says whether the object key lies in the
organization's upload area, `destination` is the key the object is promoted to, and
`storage` what the object store and the image check refuse, if anything. -/
structure LogoInput where
  ownUpload : Bool
  destination : String
  storage : Option ApiError

/-- `OrganizationLogoView.put`. -/
def putLogo (t : Tenant) (data : LogoInput) : Result Tenant := do
  raiseIf (data.ownUpload = false)
    (.validation "objectKey" "Logo upload does not belong to this organization")
  raiseSome data.storage
  return { t with organization := { t.organization with
    logoObjectKey := data.destination } }.bumpRevision

/-- `OrganizationLogoView.delete`. -/
def deleteLogo (t : Tenant) : Tenant :=
  { t with organization := { t.organization with logoObjectKey := "" } }

/-- The keys of a settings update. -/
structure SettingsInput where
  commissionRate : Option (Decimal 4) := none
  exchangeRate : Option (Decimal 4) := none
  dryDuesRate : Option (Decimal 4) := none
  portName : Option String := none
  terminals : Option (List String) := none
  governmentRate : Option (Decimal 4) := none
  privateRate : Option (Decimal 4) := none
  internationalRate : Option (Decimal 4) := none
  deriving DecidableEq, Repr

/-- `OrganizationSettings.full_clean`. -/
def settingsValid (s : OrganizationSettings) : Bool :=
  decimalField 7 s.commissionRate && decimalField 14 s.exchangeRate &&
  decimalField 12 s.governmentLiquidRate && decimalField 12 s.privateLiquidRate &&
  decimalField 12 s.internationalLiquidRate && decimalField 12 s.dryDuesRate &&
  charField 255 false s.portName

/-- `SettingsView.put`. -/
def putSettings (t : Tenant) (data : SettingsInput) : Result Tenant := do
  let s := t.settings
  let s := { s with
    commissionRate := data.commissionRate.getD s.commissionRate
    exchangeRate := data.exchangeRate.getD s.exchangeRate
    dryDuesRate := data.dryDuesRate.getD s.dryDuesRate
    portName := data.portName.getD s.portName
    terminals := data.terminals.getD s.terminals
    governmentLiquidRate := data.governmentRate.getD s.governmentLiquidRate
    privateLiquidRate := data.privateRate.getD s.privateLiquidRate
    internationalLiquidRate := data.internationalRate.getD s.internationalLiquidRate }
  raiseIf (settingsValid s = false) (.server "ValidationError")
  return { t with settings := s }.bumpRevision

/-! ## Requests -/

inductive Op where
  | putOrganization (data : OrganizationInput)
  | putLogo (data : LogoInput)
  | deleteLogo
  | putSettings (data : SettingsInput)

def Op.permission : Op → Permission
  | .putSettings .. => .settingsManage
  | _ => .organizationManage

inductive Response where
  | organization (data : OrganizationData) (rev : ℕ)
  | logo (rev : ℕ)
  | noContent
  | settings (data : SettingsData) (rev : ℕ)

/-- The handler of an authorized request. -/
def Op.handle (t : Tenant) : Op → Result (Tenant × Response)
  | .putOrganization data => do
      let t ← Organizations.putOrganization t data
      return (t, .organization (organizationData t.organization) t.revision)
  | .putLogo data => do
      let t ← Organizations.putLogo t data
      return (t, .logo t.revision)
  | .deleteLogo => pure (Organizations.deleteLogo t, .noContent)
  | .putSettings data => do
      let t ← Organizations.putSettings t data
      return (t, .settings t.settings t.revision)

end VesselCaller.Organizations
