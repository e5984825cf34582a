import CardInventory.Allocation
import CardInventory.Json.Shape

/-
# Cards and inventories in JSON

The shapes of the types that are written or read. The internal device id of a node has no place in
them: it is not written, and a node that is read has an empty one.
-/

namespace CardInventory

open Json

instance : Shaped Health where
  shape := .choice ["Healthy", "Unhealthy"]
  toValue
    | .healthy => (0 : Fin 2)
    | .unhealthy => (1 : Fin 2)
  ofValue i := if i.val = 0 then .healthy else .unhealthy

instance : Shaped PciAddress where
  shape := .record "PciAddress" <|
    .needed "domain" (.whole 65536 "u16") <|
    .needed "bus" (.whole 256 "u8") <|
    .needed "device" (.whole 256 "u8") <|
    .needed "function" (.whole 256 "u8") .done
  toValue a := (a.domain.toFin, a.bus.toFin, a.device.toFin, a.function.toFin, ())
  ofValue
    | (domain, bus, device, function, ()) =>
      ⟨.ofFin domain, .ofFin bus, .ofFin device, .ofFin function⟩

instance : Shaped Node where
  shape := .record "Node" <|
    .needed "primary_device_path" .text <|
    .needed "subdevice_path" .text <|
    .optional "streaming_dma_path" .text <|
    .needed "address" .text .done
  toValue n := (n.primaryDevicePath, n.subdevicePath, n.streamingDmaPath, n.address, ())
  ofValue
    | (primaryDevicePath, subdevicePath, streamingDmaPath, address, ()) =>
      { primaryDevicePath, subdevicePath, streamingDmaPath, address, internalDeviceId := "" }

instance : Shaped Device where
  shape := .record "Device" <|
    .needed "serial_number" .text <|
    .needed "shell_version" .text <|
    .needed "build_timestamp" .text <|
    .needed "health" (Shaped.shape Health) <|
    .needed "nodes" (.list (Shaped.shape Node)) .done
  toValue d := (d.serialNumber, d.shellVersion, d.buildTimestamp, Shaped.toValue d.health,
    d.nodes.map Shaped.toValue, ())
  ofValue
    | (serialNumber, shellVersion, buildTimestamp, health, nodes, ()) =>
      { serialNumber, shellVersion, buildTimestamp, health := Shaped.ofValue health,
        nodes := nodes.map Shaped.ofValue }

instance {α : Type} [Shaped α] : Shaped (List α) where
  shape := .list (Shaped.shape α)
  toValue as := as.map Shaped.toValue
  ofValue vs := vs.map Shaped.ofValue

instance {α : Type} [Shaped α] : Shaped (SortedMap α) where
  shape := .map (Shaped.shape α)
  toValue m := m.map Shaped.toValue
  ofValue m := m.map Shaped.ofValue

instance : Shaped Inventory where
  shape := .record "Inventory" <|
    .needed "inventory_id" .uuid <|
    .needed "schema_version" .text <|
    .needed "devices" (Shaped.shape DeviceMap) <|
    .needed "generated_at_utc" .text .done
  toValue i := (i.inventoryId, i.schemaVersion, Shaped.toValue i.devices, i.generatedAt, ())
  ofValue
    | (inventoryId, schemaVersion, devices, generatedAt, ()) =>
      { inventoryId, schemaVersion, devices := Shaped.ofValue devices, generatedAt }

instance : Shaped DeviceSpec where
  shape := .record "DeviceSpec" <|
    .needed "container_path" .text <|
    .needed "host_path" .text <|
    .needed "permissions" .text .done
  toValue s := (s.containerPath, s.hostPath, s.permissions, ())
  ofValue
    | (containerPath, hostPath, permissions, ()) => { containerPath, hostPath, permissions }

instance : Shaped AllocatableUnit where
  shape := .record "AllocatableUnit" <|
    .needed "id" .text <|
    .needed "health" (Shaped.shape Health) <|
    .needed "device_specs" (.list (Shaped.shape DeviceSpec)) .done
  toValue u := (u.id, Shaped.toValue u.health, u.deviceSpecs.map Shaped.toValue, ())
  ofValue
    | (id, health, deviceSpecs, ()) =>
      { id, health := Shaped.ofValue health, deviceSpecs := deviceSpecs.map Shaped.ofValue }

end CardInventory
