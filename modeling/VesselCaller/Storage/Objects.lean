import VesselCaller.Core

/-!
# The private object store

The functions of `api.storage` that finalize an upload.  The store is an S3 bucket when
the client is configured and the local default storage otherwise.  No transaction covers
it: a call answers together with the objects it leaves, whether it returns or raises.
Each call that can fail takes the exception it fails with, if it does; copying and
deleting happen entirely or not at all.

## Main definitions

* `Objects`, `Services` — the store, and what it is asked through;
* `validateContent`, `validateInvoiceAttachment` — what a file is checked for;
* `promoteObject`, `undoPromotion` — an upload moved out of its area, and back.
-/

namespace VesselCaller.Storage

open Lib

/-- An exception, as far as a handler tells it from another. -/
inductive Raised where
  | api (e : ApiError)
  | valueError (text : String)
  | osError
  | other (text : String)
  deriving DecidableEq, Repr

/-- `except (ValueError, OSError)`. -/
def Raised.isValueOrOs : Raised → Bool
  | .valueError _ | .osError => true
  | .api _ | .other _ => false

/-- A stored object with the metadata an S3 upload brought along. -/
structure StoredObject where
  key : String
  content : List UInt8
  contentType : String
  declaredSize : String
  deriving DecidableEq, Repr

instance : Keyed StoredObject String := ⟨StoredObject.key⟩

abbrev Objects := List StoredObject

/-- What the code takes from elsewhere: whether `_s3_client` finds a key, the digest of
`hashlib`, the images of Pillow, and `str.isalnum`. -/
structure Services where
  client : Bool
  sha256 : List UInt8 → String
  verify : List UInt8 → Option Raised
  image : List UInt8 → Except Raised (String × ℕ × ℕ)
  isAlnum : Char → Bool

/-- `safe_name`. -/
def safeName (services : Services) (fileName : String) : String :=
  let base := (fileName.toList.reverse.takeWhile (· ≠ '/')).reverse
  let dashed := base.map fun c => if c = ' ' then '-' else c
  let name := (dashed.filter fun c => services.isAlnum c || c ∈ ['.', '_', '-']).take 180
  if name = [] then "evidence" else String.ofList name

/-- `uuid4().hex`. -/
def uuidHex (id : Id) : String :=
  let digits := Nat.toDigits 16 id
  String.ofList (List.replicate (32 - digits.length) '0' ++ digits)

/-- The bound of every upload but a logo: fifteen megabytes. -/
def maxSize : ℕ := 15 * 1024 * 1024

structure Metadata where
  size : ℕ
  contentType : String
  declaredSize : String
  checksum : String
  deriving DecidableEq, Repr

/-- `text.split(";", 1)[0]`. -/
def mediaType (text : String) : String := String.ofList (text.toList.takeWhile (· ≠ ';'))

/-- The metadata of a stored object. -/
def StoredObject.metadata (services : Services) (o : StoredObject) : Metadata :=
  if services.client then
    { size := o.content.length
      contentType := mediaType o.contentType
      declaredSize := o.declaredSize
      checksum := if maxSize < o.content.length then "" else services.sha256 o.content }
  else
    { size := o.content.length
      contentType := ""
      declaredSize := ""
      checksum := services.sha256 o.content }

/-- `object_metadata`: the S3 branch answers `None` for every exception. -/
def objectMetadata (services : Services) (fault : Option Raised) (objects : Objects)
    (key : String) : Except Raised (Option Metadata) :=
  match fault with
  | some e => if services.client then .ok none else .error e
  | none => .ok ((Table.get key objects).map (StoredObject.metadata services))

/-- `allowed_images`. -/
def allowedImages : List (String × String) :=
  [("image/png", "PNG"), ("image/jpeg", "JPEG"), ("image/webp", "WEBP")]

/-- The dimensions of an invoice image. -/
def imageSide (n : ℕ) : Bool := 16 ≤ n && n ≤ 4096

/-- The body of `validate_invoice_attachment` on the bytes that were opened. -/
def validateContent (services : Services) (content : List UInt8) (contentType : String) :
    Except Raised Unit := do
  if contentType = "application/pdf" then
    -- `%PDF-`
    raiseIf (¬[0x25, 0x50, 0x44, 0x46, 0x2d] <+: content)
      (.valueError "Invoice file is not a valid PDF")
  else
    raiseSome (services.verify content)
    let (format, width, height) ← services.image content
    raiseIf (some format ≠ allowedImages.lookup contentType ∨
        (imageSide width && imageSide height) = false)
      (.valueError "Invoice image format or dimensions are invalid")

/-- `validate_invoice_attachment`. -/
def validateInvoiceAttachment (services : Services) (fault : Option Raised) (objects : Objects)
    (key contentType : String) (size : ℕ) : Except Raised Unit := do
  raiseIf ((contentType ≠ "application/pdf" ∧ allowedImages.lookup contentType = none) ∨
      ¬(1 ≤ size ∧ size ≤ maxSize))
    (.valueError "Invoice file type or size is invalid")
  raiseSome fault
  let o ← orRaise (Table.get key objects) .osError
  validateContent services o.content contentType

/-- The store without the object of a key. -/
def remove (key : String) (objects : Objects) : Objects := objects.filter fun o => o.key ≠ key

/-- The store with the object, in place of one with its key. -/
def store (o : StoredObject) (objects : Objects) : Objects := o :: remove o.key objects

/-- `delete_object`. -/
def deleteObject (fault : Option Raised) (objects : Objects) (key : String) :
    Except Raised Unit × Objects :=
  match fault with
  | some e => (.error e, objects)
  | none => (.ok (), remove key objects)

/-- What `promote_object` meets: the exceptions of copying, of reading the copy back and
of removing it again. -/
structure Promotion where
  copy : Option Raised := none
  readBack : Option Raised := none
  undo : Option Raised := none

/-- The handler of the S3 branch, which only logs that it could not remove the copy. -/
def undoPromotion (p : Promotion) (objects : Objects) (destination : String) :
    Except Raised (Option Metadata) × Objects :=
  (.ok none, (deleteObject p.undo objects destination).2)

/-- `promote_object` with `preserve_source`.  A local copy has no metadata of its own, and
none of it is read. -/
def promoteObject (services : Services) (p : Promotion) (objects : Objects)
    (source destination : String) : Except Raised (Option Metadata) × Objects :=
  match Table.get source objects with
  | none =>
      if services.client then undoPromotion p objects destination else (.ok none, objects)
  | some o =>
      let copied := store { o with key := destination } objects
      if services.client then
        match p.copy with
        | some _ => undoPromotion p objects destination
        | none =>
            match objectMetadata services p.readBack copied destination with
            | .ok (some metadata) => (.ok (some metadata), copied)
            | _ => undoPromotion p copied destination
      else if destination ∈ Table.keys objects then (.ok none, objects)
      else
        match p.copy with
        | some e => (.error e, objects)
        | none =>
            match objectMetadata services p.readBack copied destination with
            | .error e => (.error e, copied)
            | .ok (some metadata) => (.ok (some metadata), copied)
            | .ok none => (.ok none, remove destination copied)

/-! ## What lies under a key -/

variable {objects : Objects} {key : String}

theorem mem_keys_remove {k : String} :
    k ∈ Table.keys (remove key objects) ↔ k ∈ Table.keys objects ∧ k ≠ key := by
  simp only [Table.mem_keys, remove, List.mem_filter, decide_eq_true_eq]
  constructor
  · rintro ⟨o, ⟨ho, hne⟩, rfl⟩
    exact ⟨⟨o, ho, rfl⟩, hne⟩
  · rintro ⟨⟨o, ho, rfl⟩, hne⟩
    exact ⟨o, ⟨ho, hne⟩, rfl⟩

theorem mem_keys_store {o : StoredObject} {k : String} :
    k ∈ Table.keys (store o objects) ↔ k = o.key ∨ k ∈ Table.keys objects := by
  rw [store, Table.keys_cons, List.mem_cons, mem_keys_remove]
  by_cases hk : k = o.key <;> simp [hk, Lib.key]

theorem get_store (o : StoredObject) (objects : Objects) :
    Table.get o.key (store o objects) = some o := by
  simp [Table.get, store, Lib.key]

end VesselCaller.Storage
