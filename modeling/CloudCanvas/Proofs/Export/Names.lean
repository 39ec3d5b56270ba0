import CloudCanvas.Proofs.Export.UserTexts

/-!
# Which resources have the same name

A deployment knows a resource by its type and its name, and refuses two that have both in
common.  The names come from the drawing, where any two elements may have the same one.  The
export looks for this among the subnets of a network only, so whether a template can be
deployed is decided by the names in the drawing.

## Main definitions

* `Element.address?`: the kind of an element that becomes a resource, and its name.
* `Resource.address`: the type and the name of a resource.

The main statement is `Topology.nodup_addresses_iff`.
-/

namespace CloudCanvas

/-- The kind and the name under which an element becomes a resource of its own.  A subnet
becomes part of its network. -/
def Element.address? (element : Element) : Option (ResourceKind × String) :=
  ((ResourceKind.ofTag? element.kind).filter (· ≠ .subnet)).map
    (fun kind => (kind, kind.resourceName element))

/-- The type and the name by which a deployment knows a resource. -/
def Resource.address (r : Resource) : String × String :=
  (r.type, r.name)

/-- The address of a resource with a name that a user has written. -/
def ResourceKind.address (named : ResourceKind × String) : String × String :=
  (named.1.templateType, literal named.2)

theorem ResourceKind.templateType_injective : Function.Injective templateType := by
  intro kind other same
  cases kind <;> cases other <;> first | rfl | exact absurd same (by decide)

theorem literal_injective : Function.Injective literal :=
  Function.LeftInverse.injective plainText_literal

theorem ResourceKind.address_injective : Function.Injective ResourceKind.address := by
  rintro ⟨kind, name⟩ ⟨other, name'⟩ same
  obtain ⟨type, text⟩ := Prod.mk.inj same
  exact Prod.ext (templateType_injective type) (literal_injective text)

theorem Element.address?_eq_some_iff {element : Element} {named : ResourceKind × String} :
    element.address? = some named ↔ element.kind = named.1.tag ∧ named.1 ≠ .subnet ∧
      named.2 = named.1.resourceName element := by
  obtain ⟨kind, name⟩ := named
  simp [address?, Option.filter_eq_some_iff, ResourceKind.ofTag?_eq_some_iff, and_assoc,
    eq_comm (a := name)]

namespace Topology

variable {t : Topology} {b : Build}

theorem Makes.address_eq {element : Element} {kind : ResourceKind}
    {given : List (String × ParameterDefinition)} {made : Resource}
    (h : t.Makes element kind given made) :
    made.address = ResourceKind.address (kind, kind.resourceName element) := by
  obtain ⟨name, references, isMadeOf, -⟩ := h.exists_isMadeOf
  rw [Resource.address, isMadeOf.type_eq, h.name_eq, ResourceKind.address]

/-- A subnet has no resource of its own. -/
theorem Makes.ne_subnet {element : Element} {kind : ResourceKind}
    {given : List (String × ParameterDefinition)} {made : Resource}
    (h : t.Makes element kind given made) : kind ≠ .subnet := by
  cases h <;> simp

/-- **The resources have the addresses of the elements**, each as often as there are elements
with it. -/
theorem WellFormed.addresses_perm (wf : t.WellFormed) (built : t.build = .ok (some b)) :
    (b.template.resources.map Resource.address).Perm
      ((t.elements.filterMap Element.address?).map ResourceKind.address) := by
  obtain ⟨contributions, assembled⟩ := exists_contributions built
  have own : ∀ c ∈ contributions,
      c.element.address? = some (c.kind, c.kind.resourceName c.element) := fun c mem =>
    Element.address?_eq_some_iff.2
      ⟨(assembled.made c mem).1, (assembled.made c mem).2.ne_subnet, rfl⟩
  have exported : ∀ element, element.address?.isSome → t.fate element = .exported := by
    intro element isSome
    obtain ⟨named, found⟩ := Option.isSome_iff_exists.1 isSome
    obtain ⟨kind, ne, -⟩ := Element.address?_eq_some_iff.1 found
    exact fate_eq_exported kind ne
  have addresses : (contributions.map (·.element)).filterMap Element.address? =
      contributions.map (fun c => (c.kind, c.kind.resourceName c.element)) := by
    rw [List.filterMap_map, ← List.filterMap_eq_map]
    exact List.filterMap_congr own
  have visited : (contributions.map (·.element)).filterMap Element.address? =
      t.visitOrder.filterMap Element.address? := by
    rw [assembled.elements_eq, List.filterMap_filter]
    refine List.filterMap_congr fun element _ => ?_
    cases found : element.address? with
    | none => simp
    | some named => simp [exported element (by simp [found])]
  have resources : b.template.resources.map Resource.address =
      (t.visitOrder.filterMap Element.address?).map ResourceKind.address := by
    rw [assembled.resources_eq, ← visited, addresses, List.map_map, List.map_map]
    exact List.map_congr_left fun c mem => (assembled.made c mem).2.address_eq
  rw [resources]
  exact (wf.visitOrder_perm.filterMap _).map _

/-- **Resources can be told apart by type and name exactly if the elements can** by kind and
name, subnets aside. -/
theorem nodup_addresses_iff (reachable : t.Reachable) (built : t.build = .ok (some b)) :
    (b.template.resources.map Resource.address).Nodup ↔
      (t.elements.filterMap Element.address?).Nodup := by
  have perm := reachable.wellFormed.addresses_perm built
  exact perm.nodup_iff.trans (List.nodup_map_iff ResourceKind.address_injective)

/-- The elements of every kind have addresses of their own. -/
theorem nodup_addresses_everyKind : ∃ b, (run ∅ everyKind).build = .ok (some b) ∧
    (b.template.resources.map Resource.address).Nodup := by
  obtain ⟨b, built⟩ := exists_build_everyKind
  exact ⟨b, built, (nodup_addresses_iff ⟨everyKind, rfl⟩ built).2 (by decide +kernel)⟩

/-- Two public addresses with one name are exported to a template that has both. -/
theorem addresses_shared :
    let ip (id : String) : Node :=
      ⟨id, "public-ip", .ofList [("name", .string "ip")], none, none⟩
    let t := run ∅ [.addNode (ip "a"), .addNode (ip "b")]
    t.Reachable ∧ ∃ b, t.build = .ok (some b) ∧
      ¬ (b.template.resources.map Resource.address).Nodup := by
  intro ip t
  have reachable : t.Reachable := ⟨_, rfl⟩
  obtain ⟨b, built⟩ := exists_build_of_visits reachable (by decide +kernel) (by decide +kernel)
  have addresses : t.build.map (Option.map (fun b => b.template.resources.map Resource.address)) =
      .ok (some [("Microsoft.Network/publicIPAddresses", "ip"),
        ("Microsoft.Network/publicIPAddresses", "ip")]) := by decide +kernel
  rw [built] at addresses
  have both : b.template.resources.map Resource.address = _ :=
    Option.some.inj (Except.ok.inj addresses)
  refine ⟨reachable, b, built, ?_⟩
  rw [both]
  decide

end Topology

end CloudCanvas
