import CloudCanvas.Proofs.Export.Parameters
import CloudCanvas.Proofs.Export.Subnets
import CloudCanvas.Proofs.Template.Codec

/-!
# What is built can be read

Whatever an element gives to a template is legible: texts are the only defaults and choices,
the `sku` of a resource is an object, and no kind of resource nests its properties deep.  So a
template that was built comes back from its text, without its elements, and as what was read
from a text comes back from its own, the text of a template is its normal form.

The main statements are `Topology.legible_of_build` and `Template.text_isNormalForm`.
-/

namespace CloudCanvas

/-! ## Depth -/

namespace Json

theorem depth_bool (b : Bool) : (bool b).depth = 0 := rfl

theorem depth_string (s : String) : (string s).depth = 0 := rfl

theorem depth_array_le_iff {items : List Json} {room : ℕ} : (array items).depth ≤ room ↔
    0 < room ∧ ∀ item ∈ items, item.depth ≤ room - 1 := by
  have all : ∀ room, depthItems items ≤ room ↔ ∀ item ∈ items, item.depth ≤ room := by
    intro room
    induction items with
    | nil => simp [depthItems]
    | cons item items ih => simp [depthItems, ih]
  cases room with
  | zero => simp [depth]
  | succ room => simp [depth, all]

end Json

namespace Value

variable {room : ℕ}

theorem depth_ofMembers_le_iff {entries : List (String × Value)}
    (nodup : (entries.map Prod.fst).Nodup) : (ofMembers entries).json.depth ≤ room ↔
      0 < room ∧ ∀ entry ∈ entries, entry.2.json.depth ≤ room - 1 := by
  cases room with
  | zero => simp [ofMembers, object, Json.depth]
  | succ room =>
      rw [ofMembers, object, Json.depth, Nat.succ_le_succ_iff, Json.depthMembers_le_iff, members,
        List.forall_mem_map]
      simp [Dict.mem_entries_ofList_iff nodup]

theorem string_ne_null (s : String) : string s ≠ null :=
  fun h => Json.noConfusion (congrArg json h)

theorem ofMembers_ne_null (entries : List (String × Value)) : ofMembers entries ≠ null :=
  fun h => Json.noConfusion (congrArg json h)

end Value

/-- A parameter whose values are texts is legible. -/
theorem ParameterDefinition.OfTexts.legible {d : ParameterDefinition} (h : d.OfTexts) :
    d.Legible := by
  constructor
  · intro value given
    obtain ⟨s, -, rfl⟩ := h.default value given
    exact ⟨Value.string_ne_null s, Nat.zero_le 124⟩
  · intro value listed
    obtain ⟨s, -, rfl⟩ := h.allowed value listed
    exact Nat.zero_le 123

/-! ## Resources -/

/-- An entry of a network is two deep. -/
theorem Subnet.depth_entry_le {subnet : Group} {space : String} {ordinal : ℕ} {entry : Value}
    (h : Subnet.entry subnet space ordinal = .ok entry) : entry.json.depth ≤ 2 := by
  obtain ⟨range, -, eq⟩ := bind_eq_ok_iff.1 h
  cases eq
  simp (disch := simp) [Value.depth_ofMembers_le_iff, Json.depth_string]

theorem VirtualMachine.depth_interfaceEntries_le {references : List String} :
    ∀ entry ∈ interfaceEntries references, entry.json.depth ≤ 2 := by
  have one : ∀ primary reference, (interfaceEntry primary reference).json.depth ≤ 2 := by
    intro primary reference
    simp (disch := simp) [interfaceEntry, Value.depth_ofMembers_le_iff, Json.depth_bool,
      Json.depth_string]
  cases references with
  | nil => simp [interfaceEntries]
  | cons first others => simp [interfaceEntries, one]

namespace Topology

variable {t : Topology} {b : Build} {element : Element} {kind : ResourceKind}
  {given : List (String × ParameterDefinition)} {made : Resource}

open Value Json in
/-- **What an element becomes is legible.** -/
theorem Makes.legible_resource (h : t.Makes element kind given made) : made.Legible := by
  cases h with
  | virtualNetwork parameters resource =>
      simp only [VirtualNetwork.resource, bind_eq_ok_iff] at resource
      obtain ⟨space, -, entries, listed, eq⟩ := resource
      cases eq
      have rows : List.Forall₂ (fun _ json => Json.depth json ≤ 2) _ _ :=
        VirtualNetwork.forall₂_entries (fun _ _ _ => Subnet.depth_entry_le) listed
      have room : ∀ entry ∈ entries, entry.json.depth ≤ 122 := by
        intro entry mem
        obtain ⟨_, -, depth⟩ := exists_mem_of_forall₂ rows.flip (List.mem_map_of_mem mem)
        exact depth.trans (by decide)
      refine ⟨by simp [Resource.named], ?_⟩
      simpa (disch := simp) [depth_ofMembers_le_iff, depth_array_le_iff, depth_string] using room
  | networkInterface resource =>
      simp only [NetworkInterface.resource, bind_eq_ok_iff] at resource
      obtain ⟨inner, -, outer, -, ip, -, eq⟩ := resource
      cases eq
      refine ⟨by simp [Resource.named], ?_⟩
      cases ip <;>
        simp (disch := simp) [depth_ofMembers_le_iff, depth_array_le_iff, depth_string]
  | publicIp parameters resource =>
      obtain ⟨sku, -, eq⟩ := bind_eq_ok_iff.1 resource
      cases eq
      constructor <;>
        simp (disch := simp) [depth_ofMembers_le_iff, depth_string, ofMembers_ne_null]
  | @virtualMachine machine _ _ parameters resource =>
      rw [VirtualMachine.resource] at resource
      split at resource
      · cases resource
      · simp only [bind_eq_ok_iff] at resource
        obtain ⟨publisher, -, offer, -, sku, -, eq⟩ := resource
        cases eq
        have room : ∀ entry ∈ VirtualMachine.interfaceEntries
            (VirtualMachine.interfaceReferences t machine), entry.json.depth ≤ 121 :=
          fun entry mem => (VirtualMachine.depth_interfaceEntries_le entry mem).trans (by decide)
        refine ⟨by simp [Resource.named], ?_⟩
        simpa (disch := simp) [depth_ofMembers_le_iff, depth_array_le_iff, depth_string]
          using room
  | storageAccount parameters resource =>
      obtain ⟨name, -, eq⟩ := bind_eq_ok_iff.1 resource
      cases eq
      constructor <;>
        simp (disch := simp) [depth_ofMembers_le_iff, depth_string, depth_bool, ofMembers_ne_null]
  | appServicePlan parameters =>
      constructor <;> simp (disch := simp) [AppServicePlan.resource, depth_ofMembers_le_iff,
        depth_string, ofMembers_ne_null]
  | webApp resource =>
      obtain ⟨plan, -, eq⟩ := bind_eq_ok_iff.1 resource
      cases eq
      constructor <;>
        simp (disch := simp) [Resource.named, depth_ofMembers_le_iff, depth_string, depth_bool]

/-- **Whatever is built is legible.** -/
theorem legible_of_build (built : t.build = .ok (some b)) : b.template.Legible := by
  obtain ⟨contributions, h⟩ := exists_contributions built
  constructor
  · intro entry listed
    obtain ⟨c, made, given⟩ := h.exists_mem_of_get? (Dict.mem_entries_iff.1 listed)
    exact ((h.made c made).2.ofTexts_parameters _ given).legible
  · intro r listed
    rw [h.resources_eq] at listed
    obtain ⟨c, made, rfl⟩ := List.mem_map.1 listed
    exact (h.made c made).2.legible_resource

end Topology

/-! ## The normal form -/

namespace Template

/-- **The text of a template is its normal form.**  What a text is read as is read from its own
text again and has the same text then, in whichever form it was given; and what is built comes
back from its text, without the elements that its resources are of, which is all that the text
does not say. -/
theorem text_isNormalForm :
    (∀ (s : String) (template : Template), parse? s = some template →
      ∃ again, parse? template.text = some again ∧ again = template ∧
        again.text = template.text) ∧
    ∀ (t : Topology) (b : Build), t.Reachable → t.build = .ok (some b) →
      parse? b.template.text = some b.template.withoutElements ∧
        b.template.withoutElements.text = b.template.text := by
  constructor
  · intro s template read
    exact ⟨template, parse?_text_of_parse? read, rfl, rfl⟩
  · intro t b _ built
    exact ⟨parse?_text (Topology.legible_of_build built), b.template.text_withoutElements⟩

/-- A text in forms that are never written: records as arrays, a choice as an object, parts that
are `null`, keys out of order and a key that comes twice. -/
def unusualText : String :=
  "[\"\",\"1\",\x7b\"p\":[\x7b\"int\":null\x7d,null,[3]]\x7d,"
    ++ "[[\"T\",\"v\",\"n\",\"l\",null,null,[],\x7b\"b\":1,\"a\":\x7b\x7d,\"b\":2\x7d]]]"

/-- So it is for an unusual text and for a drawing with an element of every kind. -/
theorem text_isNormalForm_unusualText :
    (∃ template again, parse? unusualText = some template ∧
      parse? template.text = some again ∧ again = template ∧ again.text = template.text) ∧
    ∃ b, (Topology.run ∅ Topology.everyKind).build = .ok (some b) ∧
      parse? b.template.text = some b.template.withoutElements ∧
        b.template.withoutElements.text = b.template.text := by
  have read : (parse? unusualText).isSome = true := by decide +kernel
  obtain ⟨template, read⟩ := Option.isSome_iff_exists.1 read
  obtain ⟨again, same⟩ := text_isNormalForm.1 unusualText template read
  obtain ⟨b, built⟩ := Topology.exists_build_everyKind
  exact ⟨⟨template, again, read, same⟩, b, built,
    text_isNormalForm.2 _ b ⟨Topology.everyKind, rfl⟩ built⟩

end Template

end CloudCanvas
