import CardInventory.Path

/-
# Why a function is left out

None of the reasons ends a scan. Some are routine: hardware of others, management functions, cards
that are still starting. The rest tells of a card whose files are not as they should be.
-/

namespace CardInventory

/-- Why a PCI function is left out of a scan. -/
inductive SkipReason where
  | vendorUnreadable
  | foreignVendor (vendor : String)
  | management
  | noRole
  | notReady
  | missingFile (path : Path)
  /-- No entry of the directory begins with `lead`. -/
  | missingSubsystem (dir : Path) (lead : String)
  deriving DecidableEq, Repr

namespace SkipReason

/-- The message of the reason. -/
def message : SkipReason → String
  | vendorUnreadable => "vendor id unreadable"
  | foreignVendor vendor => "vendor " ++ vendor ++ " is not an accepted FPGA vendor"
  | management => "management function"
  | noRole => "no mgmt_pf/user_pf role marker"
  | notReady => "function not ready"
  | missingFile path => "cannot read " ++ path.text
  | missingSubsystem dir lead => "no " ++ lead ++ "* entry under " ++ dir.text

/-- Is the function no fault of a card? -/
def isRoutine : SkipReason → Bool
  | missingFile _ => false
  | missingSubsystem _ _ => false
  | _ => true

/-- Is the function hardware of others, as far as one can tell? -/
def isForeign : SkipReason → Bool
  | vendorUnreadable => true
  | foreignVendor _ => true
  | _ => false

end SkipReason
end CardInventory
