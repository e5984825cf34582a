import CardInventory.Files.Memory
import CardInventory.Main
import CardInventory.Proofs.Card.Json
import CardInventory.Proofs.Pci.Codec
import CardInventory.Proofs.Scan.Grouping
import CardInventory.Proofs.Scan.Isolation
import CardInventory.Proofs.Scan.Order
import CardInventory.Proofs.Scan.Readers
import CardInventory.Proofs.Scan.UnitIds
import CardInventory.Proofs.Pci.Order
import CardInventory.Proofs.Resources
import CardInventory.Proofs.Scan.AddressOrder
import CardInventory.Proofs.Scan.Errors
import CardInventory.Proofs.Scan.StreamingDma
import CardInventory.Proofs.Scan.Events
import CardInventory.Proofs.Files.Additions
import CardInventory.Proofs.Files.Lookup
import CardInventory.Proofs.Json.Value
import CardInventory.Proofs.Files.Walking
import CardInventory.Proofs.Files.Writing
import CardInventory.Proofs.Report
import CardInventory.Proofs.Command
import CardInventory.Proofs.Card.NormalForm
import CardInventory.Proofs.Scan.DmaPaths
import CardInventory.Proofs.Scan.DeviceIds
import CardInventory.Proofs.Files.Growing
import CardInventory.Proofs.ReportFiles
import CardInventory.Proofs.Pci.Grammar
import CardInventory.Proofs.Pci.Range
import CardInventory.Proofs.Scan.DiskEntries
import CardInventory.Proofs.Scan.Spelling
import CardInventory.Proofs.Pci.Rereading
import CardInventory.Proofs.ShellImages
import CardInventory.Proofs.Card.Arrangement
