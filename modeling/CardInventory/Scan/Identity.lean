import CardInventory.Card
import CardInventory.Files.Reader
import CardInventory.Layout
import CardInventory.Scan.Logged

/-
# Which card a function belongs to

The identity of a card and the node of one of its functions are read from the directory of the
function. Everything but streaming DMA is required: the first thing that is missing is the reason
to leave the function out. Streaming DMA is optional hardware, so that a failure to look for it
only means that there is none, and is told as an event.
-/

namespace CardInventory

/-- What all functions of one card have in common. -/
structure CardIdentity where
  serialNumber : String
  shellVersion : String
  buildTimestamp : String
  deriving DecidableEq, Repr

/-- A function with its card. -/
structure IdentifiedFunction where
  identity : CardIdentity
  node : Node
  deriving DecidableEq, Repr

namespace IdentifiedFunction

variable (reader : Reader) (layout : Layout) (id : String)

/-- The content of a required file. -/
def require (path : Path) : Except SkipReason String :=
  match reader.read path with
  | .ok value => .ok value
  | .error _ => .error (.missingFile path)

/-- The first entry of a directory whose name begins with `lead`. -/
def subsystem (dir : Path) (lead : String) : Except SkipReason String :=
  match reader.find dir lead with
  | .ok (some name) => .ok name
  | _ => .error (.missingSubsystem dir lead)

/-- The path of the streaming DMA node, where there is one, and what is to be told of the search. -/
def streamingDma : Option String × List Event :=
  match PciAddress.parseNumber id with
  | .error e => (none, [.dmaNotSought id e])
  | .ok number =>
    match reader.find (layout.functionDir id) layout.dmaLead with
    | .ok (some _) => (some (layout.streamingDmaPath number), [])
    | .ok none => (none, [])
    | .error e => (none, [.dmaUnreadable id e])

/-- Reads identity and node of a function. -/
def extract : Logged SkipReason IdentifiedFunction := do
  let dir := layout.functionDir id
  let controller ← subsystem reader dir layout.controllerLead
  let serialNumber ← require reader ((dir.join controller).join layout.serialFile)
  let image := dir.join (← subsystem reader dir layout.imageLead)
  let shellVersion ← require reader (image.join layout.shellVersionFile)
  let buildTimestamp ← require reader (image.join layout.timestampFile)
  let internalDeviceId ← require reader (dir.join layout.deviceFile)
  let graphics := dir.join (← subsystem reader dir layout.graphicsLead)
  let render ← subsystem reader graphics layout.renderLead
  let streamingDmaPath ← Logged.ofTold (streamingDma reader layout id)
  let node : Node := {
    primaryDevicePath := layout.renderNodePath render
    subdevicePath := layout.subdeviceRoot
    streamingDmaPath
    address := id
    internalDeviceId }
  return { identity := { serialNumber, shellVersion, buildTimestamp }, node }

end IdentifiedFunction
end CardInventory
