import CloudCanvas.Proofs.Export.Visit

/-!
# Elements that an export cannot tell apart

An export reads of an element whether it is a group, its id, its kind and the group around it.
Of an element of the catalog it reads besides these the name by which it is shown and every
property but `name`.  Of an annotation it reads nothing else.

## Main definitions

* `Element.IsNote`: an annotation, which is an element of a kind outside the catalog.
* `Element.SamePlace`, `Element.SameContent`, `Element.Alike`: elements that are the same as far
  as an export reads.

The main statements are `Capability.parameters_congr` and the other theorems of that name, one
for each kind: what a kind makes of an element depends on nothing else.
-/

namespace CloudCanvas

namespace Element

/-- Whether an element is a group. -/
def isGroup : Element → Bool
  | .node _ => false
  | .group _ => true

/-- An annotation: an element of a kind outside the catalog. -/
def IsNote (element : Element) : Prop :=
  ∀ kind : ResourceKind, element.kind ≠ kind.tag

/-- Two nodes or two groups of one id and kind in the same group. -/
structure SamePlace (element other : Element) : Prop where
  isGroup : other.isGroup = element.isGroup
  id : other.id = element.id
  kind : other.kind = element.kind
  parent : other.parent = element.parent

/-- Two elements that are shown by the same name and have the same properties, but for the
one that says the name. -/
structure SameContent (element other : Element) : Prop where
  id : other.id = element.id
  displayName : other.displayName = element.displayName
  property : ∀ name, name ≠ "name" → other.properties.get? name = element.properties.get? name

/-- Two elements that an export cannot tell apart. -/
structure Alike (element other : Element) : Prop extends SamePlace element other where
  content : ∀ kind : ResourceKind, element.kind = kind.tag → element.SameContent other

variable {element other : Element}

theorem isNote_iff : element.IsNote ↔ ResourceKind.ofTag? element.kind = none := by
  constructor
  · intro outside
    cases found : ResourceKind.ofTag? element.kind with
    | none => rfl
    | some kind => exact absurd (ResourceKind.ofTag?_eq_some_iff.1 found) (outside kind)
  · intro none kind same
    rw [same, ResourceKind.ofTag?_tag] at none
    cases none

instance (element : Element) : Decidable element.IsNote :=
  decidable_of_iff _ isNote_iff.symm

theorem SamePlace.refl (element : Element) : element.SamePlace element :=
  ⟨rfl, rfl, rfl, rfl⟩

/-- Elements with the same properties are alike, wherever on the canvas they stand. -/
theorem Alike.of_properties_eq (same : element.SamePlace other)
    (properties : other.properties = element.properties) : element.Alike other where
  toSamePlace := same
  content _ _ := {
    id := same.id
    displayName := by rw [displayName, displayName, text?, text?, properties, same.id]
    property := fun _ _ => by rw [properties] }

theorem Alike.refl (element : Element) : element.Alike element :=
  .of_properties_eq (.refl element) rfl

/-- Of an annotation no property is read. -/
theorem Alike.of_isNote (outside : element.IsNote)
    (same : element.SamePlace other) : element.Alike other where
  toSamePlace := same
  content kind ofKind := absurd ofKind (outside kind)

/-- A name that is no text is read as if it were not there. -/
theorem Alike.of_erase_name {value : Value} (given : element.properties.get? "name" = some value)
    (notText : value.string? = none) (same : element.SamePlace other)
    (properties : other.properties = element.properties.erase "name") :
    element.Alike other where
  toSamePlace := same
  content _ _ := {
    id := same.id
    displayName := by
      have unnamed : element.text? "name" = none := by simp [text?, given, notText]
      have erased : other.text? "name" = none := by simp [text?, properties]
      rw [displayName, displayName, unnamed, erased, same.id]
    property := fun name ne => by rw [properties, Dict.get?_erase, if_neg ne] }

theorem Alike.isNote_iff (alike : element.Alike other) :
    other.IsNote ↔ element.IsNote := by
  rw [IsNote, IsNote, alike.kind]

/-- Nothing but what it says is read of a property that must be a text. -/
theorem SameContent.textProperty (same : element.SameContent other) {name : String}
    (default : String) (ne : name ≠ "name") :
    other.textProperty name default = element.textProperty name default := by
  rw [Element.textProperty, Element.textProperty, same.property name ne, same.id]

end Element

/-! ## What the kinds make of elements with the same content

The kinds that read nothing but the element itself make the same of two such elements. -/

section Congruence

variable {g g' : Group} {n n' : Node}

namespace VirtualNetwork

variable (same : (Element.group g).SameContent (.group g'))
include same

theorem parameters_congr : parameters g' = parameters g := by
  have id : g'.id = g.id := same.id
  simp (disch := decide) only [parameters, addressSpace, prefixParameter, same.textProperty,
    same.displayName, id]

theorem subnetEntry_congr (space : String) (ordinal : ℕ) :
    Subnet.entry g' space ordinal = Subnet.entry g space ordinal := by
  have id : g'.id = g.id := same.id
  have given : g'.properties.get? "addressPrefix" = g.properties.get? "addressPrefix" :=
    same.property _ (by decide)
  rw [Subnet.entry, Subnet.entry, Subnet.addressPrefix, Subnet.addressPrefix, Dict.contains,
    Dict.contains, given, same.textProperty "" (by decide), same.displayName, id]

omit same in
/-- Networks with one id list subnets with the same content alike. -/
theorem entries_congr (id : g'.id = g.id) {subnets subnets' : List Group}
    (inside : List.Forall₂ (fun s s' => (Element.group s).SameContent (.group s'))
      subnets subnets') (space : String) (seen : List String) (ordinal : ℕ) :
    entries g' space seen ordinal subnets' = entries g space seen ordinal subnets := by
  induction inside generalizing seen ordinal with
  | nil => rfl
  | cons first _ ih => simp only [entries, first.displayName, subnetEntry_congr first, ih, id]

end VirtualNetwork

namespace PublicIp

variable (same : (Element.node n).SameContent (.node n'))
include same

theorem parameters_congr : parameters n' = parameters n := by
  have id : n'.id = n.id := same.id
  simp (disch := decide) only [parameters, same.textProperty, id]

theorem resource_congr : resource n' = resource n := by
  have id : n'.id = n.id := same.id
  simp (disch := decide) only [resource, same.textProperty, same.displayName, id]

end PublicIp

namespace StorageAccount

variable (same : (Element.node n).SameContent (.node n'))
include same

theorem parameters_congr : parameters n' = parameters n := by
  have id : n'.id = n.id := same.id
  simp (disch := decide) only [parameters, skuParameter, same.textProperty, id]

theorem resource_congr : resource n' = resource n := by
  have id : n'.id = n.id := same.id
  simp only [resource, name, skuParameter, same.displayName, id]

end StorageAccount

namespace AppServicePlan

variable (same : (Element.node n).SameContent (.node n'))
include same

theorem parameters_congr : parameters n' = parameters n := by
  have id : n'.id = n.id := same.id
  simp (disch := decide) only [parameters, skuParameter, same.textProperty, id]

theorem resource_congr : resource n' = resource n := by
  have id : n'.id = n.id := same.id
  simp only [resource, skuParameter, same.displayName, id]

end AppServicePlan

theorem VirtualMachine.parameters_congr (same : (Element.node n).SameContent (.node n')) :
    parameters n' = parameters n := by
  have id : n'.id = n.id := same.id
  simp (disch := decide) only [parameters, sizeParameter, same.textProperty, same.displayName,
    id]

theorem WebApp.httpsOnly_congr (same : (Element.node n).SameContent (.node n')) :
    httpsOnly n' = httpsOnly n := by
  have given : n'.properties.get? "httpsOnly" = n.properties.get? "httpsOnly" :=
    same.property _ (by decide)
  rw [httpsOnly, httpsOnly, given]

end Congruence

/-- **What is asked for an element depends on nothing else.** -/
theorem Capability.parameters_congr {element other : Element} (alike : element.Alike other)
    {kind : ResourceKind} (ofKind : element.kind = kind.tag) :
    (Capability.ofKind kind other).parameters = (Capability.ofKind kind element).parameters := by
  have same := alike.content kind ofKind
  have id := alike.id
  cases element with
  | node node =>
      cases other with
      | group group => cases alike.isGroup
      | node node' =>
          cases kind with
          | publicIp => exact PublicIp.parameters_congr same
          | virtualMachine => exact VirtualMachine.parameters_congr same
          | storageAccount => exact StorageAccount.parameters_congr same
          | appServicePlan => exact AppServicePlan.parameters_congr same
          | networkInterface | webApp => rfl
          | virtualNetwork | subnet => simp [Capability.ofKind, Capability.parameters, id]
  | group group =>
      cases other with
      | node node => cases alike.isGroup
      | group group' =>
          rw [Element.id] at id
          cases kind with
          | virtualNetwork => exact VirtualNetwork.parameters_congr same
          | _ => simp [Capability.ofKind, Capability.parameters, Element.id, id]

end CloudCanvas
