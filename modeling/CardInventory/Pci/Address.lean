import CardInventory.Text.Hex
import CardInventory.Text.Quoted

/-
# PCI addresses

An address names a function of a device on a bus of a PCI domain and is written `DDDD:BB:dd.f` in
hexadecimal digits. Its instance number packs the four fields into 32 bits, 16 for the domain, 8
for the bus, 5 for the device and 3 for the function.

The fields themselves are words, so that a value of the type may be out of the range that an
address text can have; reading a text and unpacking a number never give such a value.
-/

namespace CardInventory

/-- The place of a function on the PCI buses of a machine. -/
structure PciAddress where
  domain : UInt16
  bus : UInt8
  device : UInt8
  function : UInt8
  deriving DecidableEq, Repr

/-- The four parts of an address, in their order. -/
inductive PciField where
  | domain | bus | device | function
  deriving DecidableEq, Repr

namespace PciField

/-- The name of the field in messages. -/
def name : PciField → String
  | domain => "domain"
  | bus => "bus"
  | device => "device"
  | function => "function"

/-- The most digits that a text may give the field. -/
def width : PciField → Nat
  | domain => 4
  | bus => 2
  | device => 2
  | function => 1

/-- The greatest value that a text may give the field. -/
def greatest : PciField → Nat
  | domain => 0xffff
  | bus => 0xff
  | device => 0x1f
  | function => 0x7

end PciField

namespace PciAddress

/-! ## Texts -/

/-- Why a text is no address. -/
inductive ParseError where
  /-- The text has not the separators of an address. -/
  | malformed (text : String)
  /-- A field is empty, too long, no number or too great. -/
  | field (field : PciField) (text : String)
  deriving DecidableEq, Repr

/-- The message of the error. -/
def ParseError.message : ParseError → String
  | malformed text => "malformed PCI address " ++ Text.quote text ++ " (expected DDDD:BB:dd.f)"
  | field f text => "invalid PCI " ++ f.name ++ " field " ++ Text.quote text

/-- The value of a field: one digit up to as many as the field may have, and in its range. -/
def readField (f : PciField) (cs : List Char) : Except ParseError Nat :=
  match Text.Hex.values? cs with
  | some ds =>
    if ds ≠ [] ∧ ds.length ≤ f.width ∧ Text.Hex.toNat ds ≤ f.greatest then .ok (Text.Hex.toNat ds)
    else .error (.field f (String.ofList cs))
  | none => .error (.field f (String.ofList cs))

/-- Reads an address: exactly two colons, a point after the second one, and between them the
fields. The first faulty field is blamed. -/
def parse (s : String) : Except ParseError PciAddress :=
  match s.toList.splitOn ':' with
  | [domain, bus, slot] =>
    match slot.dropWhile (· ≠ '.') with
    | [] => .error (.malformed s)
    | _ :: function => do
      let domain ← readField .domain domain
      let bus ← readField .bus bus
      let device ← readField .device (slot.takeWhile (· ≠ '.'))
      let function ← readField .function function
      return {
        domain := UInt16.ofNat domain
        bus := UInt8.ofNat bus
        device := UInt8.ofNat device
        function := UInt8.ofNat function }
  | _ => .error (.malformed s)

/-- The characters of the written address: four, two, two and one digit, and a second digit for a
function of 16 or more. -/
def chars (a : PciAddress) : List Char :=
  Text.Hex.fixed 4 a.domain.toNat ++ [':'] ++ Text.Hex.fixed 2 a.bus.toNat ++ [':'] ++
    Text.Hex.fixed 2 a.device.toNat ++ ['.'] ++
    Text.Hex.fixed (if a.function.toNat < 16 then 1 else 2) a.function.toNat

/-- The written address. -/
def render (a : PciAddress) : String := String.ofList a.chars

/-! ## Instance numbers -/

/-- The fields of an address packed into one number. -/
def number (a : PciAddress) : Nat :=
  65536 * a.domain.toNat + 256 * a.bus.toNat + 8 * a.device.toNat + a.function.toNat

/-- The address with a given instance number. -/
def ofNumber (n : UInt32) : PciAddress where
  domain := UInt16.ofNat (n.toNat / 65536)
  bus := UInt8.ofNat (n.toNat / 256 % 256)
  device := UInt8.ofNat (n.toNat / 8 % 32)
  function := UInt8.ofNat (n.toNat % 8)

/-- The instance number of the address that a text spells. -/
def parseNumber (s : String) : Except ParseError Nat := (parse s).map number

/-! ## Order -/

/-- The fields in the order in which they are compared. -/
def fields (a : PciAddress) : List Nat :=
  [a.domain.toNat, a.bus.toNat, a.device.toNat, a.function.toNat]

/-- Addresses are ordered by domain, then bus, then device, then function. -/
instance : LT PciAddress := ⟨fun a b => a.fields < b.fields⟩

instance (a b : PciAddress) : Decidable (a < b) :=
  inferInstanceAs (Decidable (a.fields < b.fields))

/-- The addresses in ascending order, repeated ones kept. -/
def sort (as : List PciAddress) : List PciAddress := as.mergeSort fun a b => !decide (b < a)

end PciAddress
end CardInventory
