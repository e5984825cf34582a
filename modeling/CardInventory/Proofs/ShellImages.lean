import CardInventory.Proofs.Resources
import CardInventory.Proofs.Text.Split

/-
# Resource names and shell images

A resource name is made of the version and the build time of a shell image, with a hyphen between
them, so that all that it can tell of a card is its image. It does tell the image where both are
spelled with characters that may stand in a name and the build time has no hyphen
(`ShellImage.resourceName_inj`): such a name is the spelling itself, and its last hyphen is the one
between the two. An inventory of such cards then has one group of units for each image
(`Inventory.keys_allocatable_perm`), which holds the units of the cards that run it
(`Inventory.get?_allocatable_resourceName`).

Other characters are replaced one by one, so that the length stays (`length_sanitize`), and what is
put for them stays when it is done again (`sanitize_sanitize`).
-/

namespace CardInventory

/-! ## Characters -/

theorem length_sanitize (cs : List Char) : (sanitize cs).length = cs.length := List.length_map _

/-- Characters that may stand in a name stay. -/
theorem sanitize_eq_self {cs : List Char} (h : ∀ c ∈ cs, isNameChar c = true) :
    sanitize cs = cs := by
  have hsame : ∀ c ∈ cs, (if isNameChar c then c else '_') = id c := fun c hc => if_pos (h c hc)
  rw [sanitize, List.map_congr_left hsame, List.map_id]

/-- **Replacing characters again changes nothing.** -/
theorem sanitize_sanitize (cs : List Char) : sanitize (sanitize cs) = sanitize cs :=
  sanitize_eq_self fun _ hc => isNameChar_of_mem_sanitize hc

/-! ## Images -/

/-- What a card runs: the version of its shell and the time at which this was built. -/
structure ShellImage where
  version : String
  buildTime : String
  deriving DecidableEq, Repr

/-- The image that a card runs. -/
def Device.image (device : Device) : ShellImage := ⟨device.shellVersion, device.buildTimestamp⟩

namespace ShellImage

/-- The name under which the cards that run the image are offered. -/
def resourceName (image : ShellImage) : String :=
  Device.resourceDomain ++
    String.ofList (sanitize (image.version ++ "-" ++ image.buildTime).toList)

/-- Is the image spelled with letters, digits, `.`, `_` and `-` only, the build time without the
last of these? -/
structure IsPlain (image : ShellImage) : Prop where
  plain : ∀ c ∈ image.version.toList ++ image.buildTime.toList,
    ('A' ≤ c ∧ c ≤ 'Z') ∨ ('a' ≤ c ∧ c ≤ 'z') ∨ ('0' ≤ c ∧ c ≤ '9') ∨
      c = '.' ∨ c = '_' ∨ c = '-'
  hyphen_notMem : '-' ∉ image.buildTime.toList

variable {image other : ShellImage}

/-- The name of a plain image spells it. -/
theorem IsPlain.resourceName_eq (h : image.IsPlain) :
    image.resourceName = Device.resourceDomain ++ (image.version ++ "-" ++ image.buildTime) := by
  have hall : ∀ c ∈ (image.version ++ "-" ++ image.buildTime).toList, isNameChar c = true := by
    intro c hc
    simp only [String.toList_append, List.mem_append] at hc
    rcases hc with (hc | hc) | hc
    · exact isNameChar_iff.2 (h.plain c (List.mem_append_left _ hc))
    · obtain rfl : c = '-' := by simpa using hc
      decide
    · exact isNameChar_iff.2 (h.plain c (List.mem_append_right _ hc))
  rw [resourceName, sanitize_eq_self hall, String.ofList_toList]

/-- **The name of a plain image tells the image.** -/
theorem resourceName_inj (h : image.IsPlain) (h' : other.IsPlain) :
    image.resourceName = other.resourceName ↔ image = other := by
  refine ⟨fun heq => ?_, fun heq => by rw [heq]⟩
  rw [h.resourceName_eq, h'.resourceName_eq] at heq
  have hchars := congrArg String.toList heq
  simp only [String.toList_append, List.append_cancel_left_eq, List.append_assoc] at hchars
  obtain ⟨hversion, htime⟩ :=
    append_cons_inj_of_notMem_right h.hyphen_notMem h'.hyphen_notMem hchars
  obtain ⟨version, buildTime⟩ := image
  rw [String.toList_inj] at hversion htime
  cases other
  cases hversion
  cases htime
  rfl

end ShellImage

/-- A card is offered under the name of its image. -/
theorem Device.resourceName_eq_image (device : Device) :
    device.resourceName = device.image.resourceName := rfl

/-- Cards with plain images have one name exactly if they run one image. -/
theorem Device.resourceName_eq_iff {d₁ d₂ : Device} (h₁ : d₁.image.IsPlain)
    (h₂ : d₂.image.IsPlain) : d₁.resourceName = d₂.resourceName ↔ d₁.image = d₂.image := by
  rw [resourceName_eq_image, resourceName_eq_image, ShellImage.resourceName_inj h₁ h₂]

/-! ## Groups -/

namespace Inventory

variable {inventory : Inventory}

/-- **There is one group of units for each image.** -/
theorem keys_allocatable_perm
    (h : ∀ device ∈ inventory.devices.values, device.image.IsPlain) :
    inventory.allocatable.keys.Perm
      ((inventory.devices.values.map Device.image).dedup.map ShellImage.resourceName) := by
  have himages : ∀ image ∈ (inventory.devices.values.map Device.image).dedup, image.IsPlain := by
    simpa using h
  have hnodup : ((inventory.devices.values.map Device.image).dedup.map
      ShellImage.resourceName).Nodup :=
    (List.nodup_map_iff_inj_on (List.nodup_dedup _)).2 fun image hi other ho =>
      (ShellImage.resourceName_inj (himages image hi) (himages other ho)).1
  refine (List.perm_ext_iff_of_nodup ?_ hnodup).2 fun name => ?_
  · exact inventory.allocatable.keys_ascending.imp ne_of_lt
  · simp [mem_keys_allocatable, Device.resourceName_eq_image]

/-- **A group holds the units of the cards that run its image.** -/
theorem get?_allocatable_resourceName
    (h : ∀ device ∈ inventory.devices.values, device.image.IsPlain) {device : Device}
    (hdevice : device ∈ inventory.devices.values) :
    inventory.allocatable.get? device.resourceName =
      some ((inventory.devices.values.filter fun other => other.image = device.image).flatMap
        Device.allocatableUnits) := by
  have hcards : (inventory.devices.values.filter fun other =>
      other.resourceName = device.resourceName) =
        inventory.devices.values.filter fun other => other.image = device.image :=
    List.filter_congr fun other ho =>
      decide_eq_decide.2 (Device.resourceName_eq_iff (h other ho) (h device hdevice))
  rw [get?_allocatable, unitsUnder?_eq_some_iff, hcards]
  exact ⟨⟨device, hdevice, rfl⟩, rfl⟩

end Inventory

/-- **Where images are spelled plainly, a resource name tells the image.** Cards have one name
exactly if they have one version and one build time. The names are those of the different images,
each once, and under the name of a card stand the units of the cards that run its image. Of any
card, however its image is spelled, the name is as long as the spelling after the domain of all
resources, and holds only characters there that may stand in a name, so nothing that would be
replaced again. -/
theorem resource_names_tell_images :
    (∀ inventory : Inventory,
      (∀ device ∈ inventory.devices.values, device.image.IsPlain) →
        (∀ d₁ ∈ inventory.devices.values, ∀ d₂ ∈ inventory.devices.values,
          d₁.resourceName = d₂.resourceName ↔
            d₁.shellVersion = d₂.shellVersion ∧ d₁.buildTimestamp = d₂.buildTimestamp) ∧
        inventory.allocatable.keys.Perm
          ((inventory.devices.values.map Device.image).dedup.map ShellImage.resourceName) ∧
        ∀ device ∈ inventory.devices.values,
          inventory.allocatable.get? device.resourceName =
            some ((inventory.devices.values.filter fun other =>
              other.image = device.image).flatMap Device.allocatableUnits)) ∧
    ∀ device : Device, ∃ suffix : String,
      device.resourceName = "xilinx.com/fpga-" ++ suffix ∧
        suffix.length = (device.shellVersion ++ "-" ++ device.buildTimestamp).length ∧
        (∀ c ∈ suffix.toList, ('A' ≤ c ∧ c ≤ 'Z') ∨ ('a' ≤ c ∧ c ≤ 'z') ∨ ('0' ≤ c ∧ c ≤ '9') ∨
          c = '.' ∨ c = '_' ∨ c = '-') ∧
        sanitize suffix.toList = suffix.toList := by
  refine ⟨fun inventory h => ⟨fun d₁ h₁ d₂ h₂ => ?_, Inventory.keys_allocatable_perm h,
    fun device hdevice => Inventory.get?_allocatable_resourceName h hdevice⟩,
    fun device => ⟨_, rfl, ?_, fun c hc => ?_, ?_⟩⟩
  · rw [Device.resourceName_eq_iff (h d₁ h₁) (h d₂ h₂), Device.image, Device.image,
      ShellImage.mk.injEq]
  · rw [String.length_ofList, length_sanitize, String.length_toList]
  · rw [String.toList_ofList] at hc
    exact isNameChar_iff.1 (isNameChar_of_mem_sanitize hc)
  · rw [String.toList_ofList, sanitize_sanitize]

/-- Three cards with two images, of which one has a hyphen in its version. -/
def sampleRack : Inventory where
  inventoryId := sampleShelf.inventoryId
  schemaVersion := Inventory.currentSchema
  devices := .ofList [
    ("A", ⟨"A", "v-1", "2", .healthy, [⟨"/dev/r1", "/dev/x", none, "0:3:0.1", ""⟩]⟩),
    ("B", ⟨"B", "v", "1.2", .healthy, []⟩),
    ("C", ⟨"C", "v-1", "2", .healthy, [⟨"/dev/r2", "/dev/x", none, "0:4:0.1", ""⟩]⟩)]
  generatedAt := ""

/-- Of the sample the first and the last card share a group, which the other one has no part in. -/
theorem resource_names_tell_images_sample :
    (∀ device ∈ sampleRack.devices.values, device.image.IsPlain) ∧
      sampleRack.allocatable.keys.Perm ["xilinx.com/fpga-v-1.2", "xilinx.com/fpga-v-1-2"] ∧
      sampleRack.allocatable.get? "xilinx.com/fpga-v-1-2" = some [
        ⟨"A-0:3:0.1", .healthy, [⟨"/dev/r1", "/dev/r1", "rw"⟩, ⟨"/dev/x", "/dev/x", "rw"⟩]⟩,
        ⟨"C-0:4:0.1", .healthy, [⟨"/dev/r2", "/dev/r2", "rw"⟩, ⟨"/dev/x", "/dev/x", "rw"⟩]⟩] := by
  have hall : ∀ device ∈ sampleRack.devices.values,
      (device.image.version.toList ++ device.image.buildTime.toList).all isNameChar = true ∧
        '-' ∉ device.image.buildTime.toList := by
    decide +kernel
  have hplain : ∀ device ∈ sampleRack.devices.values, device.image.IsPlain := fun device hd =>
    ⟨fun c hc => isNameChar_iff.1 (List.all_eq_true.1 (hall device hd).1 c hc), (hall device hd).2⟩
  obtain ⟨-, hkeys, hunits⟩ := resource_names_tell_images.1 sampleRack hplain
  have hnames : (sampleRack.devices.values.map Device.image).dedup.map ShellImage.resourceName =
      ["xilinx.com/fpga-v-1.2", "xilinx.com/fpga-v-1-2"] := by
    decide +kernel
  have hgroup := hunits
    ⟨"A", "v-1", "2", .healthy, [⟨"/dev/r1", "/dev/x", none, "0:3:0.1", ""⟩]⟩ (by decide +kernel)
  exact ⟨hplain, hnames ▸ hkeys, hgroup.trans (by decide +kernel)⟩

end CardInventory
