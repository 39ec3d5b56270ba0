/-!
# The modeling rules

What a drawing must observe to be exported, as a text for whoever draws it.

## Main definitions

* `modelingRules`: the rules.
-/

namespace CloudCanvas

/-- The lines of the modeling rules. -/
def modelingRuleLines : List String := [
  "1. Containers are groups, everything else is a node. `virtual-network` and "
    ++ "`subnet` must be added with `add_groups`; `network-interface`, `public-ip`, "
    ++ "`virtual-machine`, `storage-account`, `app-service-plan` and `web-app` must be "
    ++ "added with `add_nodes`. A known kind placed on the wrong element type fails the "
    ++ "export.",
  "2. A subnet lives directly inside a virtual network. Its `parentId` must be the "
    ++ "virtual-network group. A subnet anywhere else cannot be exported.",
  "3. Network interfaces sit in a subnet. Set the node's `groupId` to the subnet. "
    ++ "The subnet id of the generated IP configuration is derived from this placement.",
  "4. Links express dependencies, direction does not matter. Link a virtual-machine "
    ++ "to each of its network-interfaces (the first one linked becomes primary), a "
    ++ "network-interface to at most one public-ip, and a web-app to exactly one "
    ++ "app-service-plan.",
  "5. Ids are unique across nodes, groups and links. Pick short, stable ids "
    ++ "(`vm-1`, `hub-vnet`); template parameters are named after them (`vm_1_vmSize`), "
    ++ "so two exported ids that differ only in punctuation (`plan-a`, `plan_a`) fail "
    ++ "the export.",
  "6. `name` sets the deployed resource name. Without it the element id is used. "
    ++ "Storage account names are lowercased and must be 3-24 letters or digits.",
  "7. Unknown kinds are allowed and ignored by export. Use them for notes, labels, "
    ++ "or resources that are deployed elsewhere.",
  "8. Deleting a group deletes everything inside it and every link touching the "
    ++ "deleted elements.",
  "",
  "## Properties by kind",
  "Values are strings unless noted; a number where a string is expected fails the "
    ++ "export.",
  "- virtual-network: `addressPrefix` (default 10.0.0.0/16)",
  "- subnet: `addressPrefix` (default: the Nth /24 of the network's address space, "
    ++ "counting subnets only)",
  "- public-ip: `allocation` (Dynamic | Static)",
  "- virtual-machine: `vmSize` (default Standard_B2s), `adminUsername`",
  "- storage-account: `sku` (Standard_LRS | Standard_GRS | Standard_ZRS | Premium_LRS)",
  "- app-service-plan: `sku` (default F1)",
  "- web-app: `httpsOnly` (default true)",
  "",
  "## Workflow",
  "1. `get_design` to see what is already on the canvas. `list_designs` and "
    ++ "`load_design` to start from a saved design.",
  "2. Add containers first (`add_groups`, parents before children), then nodes, "
    ++ "then links.",
  "3. `export_template` to check the design builds. Fix any element named in an "
    ++ "error and export again.",
  "4. `export_bicep` when the user wants Bicep instead of JSON.",
  "5. `save_design` under a name the user chooses. Saving an empty canvas does nothing."]

/-- The modeling rules as one text. -/
def modelingRules : String :=
  "\n".intercalate modelingRuleLines

end CloudCanvas
